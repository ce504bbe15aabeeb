import SaveSlots.Files.Host
import SaveSlots.Store.Folder
import SaveSlots.Tour
import Std.Time.DateTime.Timestamp
/-!
# The command line

`saveslots [preset.json]` takes the tour in the folder that the preset names. What is shown goes to
standard output, and the reason if the tour ends early to standard error.

Everything is decided by `Tour.run`; here the folder is read before it and brought up to date after it.
-/

namespace SaveSlots.Main

def textOf (b : Bytes) : String := (Bytes.text? b).getD ""

def causeOf : IO.Error → IoCause
  | .noFileOrDirectory .. => .notFound
  | .alreadyExists .. => .alreadyExists
  | .inappropriateType .. => .notADirectory
  | _ => .other

def presetSource (path : String) : IO Preset.Source := do
  try return .file (← IO.FS.readBinFile path).toList
  catch e =>
    match causeOf e with
    | .notFound => return .missing
    | cause => return .unreadable cause

def namesIn (path : String) : IO (List String) := do
  return ((← (← IO.FS.realPath path).readDir).toList.map fun e => e.fileName)

/-- A file with its contents, or a folder with the names in it. -/
def readNode (path : String) : IO Node := do
  try return .file (← IO.FS.readBinFile path).toList
  catch _ => return .folder ((← namesIn path).map fun name => (Bytes.ofText name, .file []))

/-- What stands under a path: a folder with its nodes, a file, or nothing. -/
def readPlace (p : Path) : IO Place := do
  try
    let entries ← (← namesIn p.text).mapM fun name => do
      return (Bytes.ofText name, ← readNode (p.child name).text)
    return some (.folder entries)
  catch _ =>
    try return some (.file (← IO.FS.readBinFile p.text).toList) catch _ => return none

/-- Puts contents under a path, staged so that no reader sees half of them. -/
def writeFile (path : String) (contents : Bytes) : IO Unit := do
  IO.FS.writeBinFile (path ++ ".tmp") ⟨contents.toArray⟩
  IO.FS.rename (path ++ ".tmp") path

/-- Changes the files of a folder from what they were to what they are now. -/
def writePlace (p : Path) (before after : Place) : IO Unit := do
  let some entries := after.entries? | return
  let old := before.entries?.getD []
  for (name, node) in entries do
    if let .file contents := node then
      unless Place.contents? (old.lookup name) = some contents do
        writeFile (p.child (textOf name)).text contents
  for (name, _) in old do
    unless (entries.lookup name).isSome do
      IO.FS.removeFile (p.child (textOf name)).text

/-- The empty path leads to the working folder. -/
def settled (p : Path) : Path := if p.text.isEmpty then ⟨"."⟩ else p

def host : Host IO where
  makeFolder p := do
    try
      IO.FS.createDir p.text
      return .ok ()
    catch e => return .error (causeOf e)
  isFolder p := do try (← IO.FS.realPath p.text).isDir catch _ => return false

def now : IO Instant := do
  let time ← Std.Time.Timestamp.now
  return (Instant.epoch.advance? time.toMillisecondsSinceUnixEpoch.val).getD .epoch

def fail (message : String) : IO UInt32 := do
  IO.eprintln s!"error: {message}"
  return 1

def tour (p : Preset) : IO UInt32 := do
  let path := settled p.slotsDir
  let before ← readPlace path
  let (report, after) := Tour.run p (⟨p.slotsDir, before⟩ : FolderStore) (← now)
  if after.place.entries?.isSome then
    if let .error e := ← host.makeFolders p.slotsDir then
      return ← fail ((StoreError.io p.slotsDir.text e).message .plain)
    writePlace path before after.place
  for document in report.shown do
    IO.println (textOf document.indented)
  if let .error stop := report.result then
    let _ ← fail (stop.message .plain)
  match report.exit with
  | .code c => return c.toUInt32
  | .killed => return 134

end SaveSlots.Main

open SaveSlots in
def main (args : List String) : IO UInt32 := do
  let loaded ← match args with
    | [] => pure (.ok .default)
    | path :: _ => do pure (Preset.load path (← Main.presetSource path))
  match loaded with
  | .ok p => Main.tour p
  | .error e => Main.fail (e.message .plain)
