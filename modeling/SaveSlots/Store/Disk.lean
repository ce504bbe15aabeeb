import SaveSlots.Files.Disk
import SaveSlots.Store.Folder
/-!
# Slots on a disk

A `DiskStore` does what a `FolderStore` does, in the folder that a path leads to on a disk.
-/

namespace SaveSlots

structure DiskStore where
  path : Path
  disk : Disk
deriving Inhabited

namespace DiskStore

/-- What the path leads to. The empty path leads to the working folder. -/
def folder (s : DiskStore) : FolderStore := ⟨s.path, s.disk.find s.path⟩

/-- What came of a script, and the store after it. -/
def after {α : Type} (s : DiskStore) (script : Script α) : α × DiskStore :=
  let (a, disk) := s.disk.run s.path script
  (a, { s with disk })

instance : SlotStore DiskStore where
  holds s id := s.folder.holds id
  readInfo s id := s.folder.readInfo id
  readData s id := s.folder.readData id
  write s info payload := s.after (FolderStore.writeScript s.path info payload)
  delete s id := s.after (s.folder.deletion id)
  ids s := s.folder.ids
  writesHeld _ := false

end DiskStore

end SaveSlots
