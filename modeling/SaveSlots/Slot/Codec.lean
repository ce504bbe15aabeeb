import SaveSlots.Slot.Filter
import SaveSlots.Slot.Info
import SaveSlots.Task.Id
import SaveSlots.Task.Kind
import SaveSlots.Time.Rfc3339
/-!
# How slots are written

For each type its outline, which is written, and its reader. A record is written with its fields in
the order declared here; an object without tags is written without the field. Tags and state of an
object, and map and screenshot of an info, may be missing from a text, as may every field of a filter.

`Snapshot.encode` and `Snapshot.decode` are the payload of a slot, `SlotInfo.encode` and
`SlotInfo.decode` its info.
-/

namespace SaveSlots

open Reader

/-- A word of 32 bits with a sign. -/
def signedWord : Reader Int32 := fun room o =>
  (integer Int32.minValue.toInt Int32.maxValue.toInt room o).map Int32.ofInt

namespace SlotId

def toOutline (id : SlotId) : Outline := .int id.toInt

def reader : Reader SlotId := fun room o => (signedWord room o).map SlotId.mk

end SlotId

namespace TaskId

def toOutline (id : TaskId) : Outline := .fields [("ulid", .text id.spelling)]

def reader : Reader TaskId :=
  record {
    draft := (none : Option TaskId)
    fields := [
      field "ulid" (spelled fun s => (ofSpelling s).toOption) (fun d => d) (fun _ x => x)]
    strict := false
    finish := fun d => d }

end TaskId

namespace TaskKind

def toOutline (k : TaskKind) : Outline := .text k.text

def reader : Reader TaskKind := oneOf (all.map fun k => (k.text, k))

end TaskKind

namespace TaskState

def toOutline (s : TaskState) : Outline := .text s.text

def reader : Reader TaskState := oneOf (all.map fun s => (s.text, s))

end TaskState

namespace OpStatus

def toOutline (s : OpStatus) : Outline := .text s.text

def reader : Reader OpStatus := oneOf (all.map fun s => (s.text, s))

end OpStatus

/-! ## Infos -/

/-- A word of 32 bits without a sign. -/
def word : Reader UInt32 := fun room o => (natural 32 room o).map UInt32.ofNat

namespace ScreenshotSize

def toOutline (s : ScreenshotSize) : Outline :=
  .fields [("width", .int s.width.toNat), ("height", .int s.height.toNat)]

structure Draft where
  width : Option UInt32 := none
  height : Option UInt32 := none

def reader : Reader ScreenshotSize :=
  record {
    draft := ({} : Draft)
    fields := [
      field "width" word Draft.width (fun d x => { d with width := x }),
      field "height" word Draft.height (fun d x => { d with height := x })]
    strict := false
    finish := fun d => do return ⟨← d.width, ← d.height⟩ }

end ScreenshotSize

namespace Screenshot

def toOutline (s : Screenshot) : Outline :=
  .fields [
    ("width", .int s.width.toNat),
    ("height", .int s.height.toNat),
    ("rgba", .list (s.rgba.map fun b => .int b.toNat))]

structure Draft where
  width : Option UInt32 := none
  height : Option UInt32 := none
  rgba : Option (List UInt8) := none

def reader : Reader Screenshot :=
  record {
    draft := ({} : Draft)
    fields := [
      field "width" word Draft.width (fun d x => { d with width := x }),
      field "height" word Draft.height (fun d x => { d with height := x }),
      field "rgba" (list byte) Draft.rgba (fun d x => { d with rgba := x })]
    strict := false
    finish := fun d => do return ⟨← d.width, ← d.height, ← d.rgba⟩ }

end Screenshot

namespace PlayedTime

def toOutline (t : PlayedTime) : Outline :=
  .fields [("secs", .int t.secs.toNat), ("nanos", .int t.nanos.val)]

structure Draft where
  secs : Option Nat := none
  nanos : Option Nat := none

/-- The nanoseconds are a word of 32 bits, and no other field is allowed. -/
def reader : Reader PlayedTime :=
  record {
    draft := ({} : Draft)
    fields := [
      field "secs" (natural 64) Draft.secs (fun d x => { d with secs := x }),
      field "nanos" (natural 32) Draft.nanos (fun d x => { d with nanos := x })]
    strict := true
    finish := fun d => do of? (← d.secs) (← d.nanos) }

end PlayedTime

namespace Instant

def toOutline (i : Instant) : Outline := .text i.text

def reader : Reader Instant := spelled ofText?

end Instant

namespace SlotInfo

def toOutline (i : SlotInfo) : Outline :=
  .fields [
    ("id", i.id.toOutline),
    ("name", .text i.name),
    ("played_time", i.played.toOutline),
    ("save_date", i.savedAt.toOutline),
    ("map", .text i.map),
    ("screenshot", (i.screenshot.map Screenshot.toOutline).getD .null),
    ("version", .text i.version)]

structure Draft where
  id : Option SlotId := none
  name : Option String := none
  played : Option PlayedTime := none
  savedAt : Option Instant := none
  map : Option String := none
  screenshot : Option (Option Screenshot) := none
  version : Option String := none

def reader : Reader SlotInfo :=
  record {
    draft := ({} : Draft)
    fields := [
      field "id" SlotId.reader Draft.id (fun d x => { d with id := x }),
      field "name" string Draft.name (fun d x => { d with name := x }),
      field "played_time" PlayedTime.reader Draft.played (fun d x => { d with played := x }),
      field "save_date" Instant.reader Draft.savedAt (fun d x => { d with savedAt := x }),
      field "map" string Draft.map (fun d x => { d with map := x }),
      field "screenshot" (optional Screenshot.reader) Draft.screenshot
        (fun d x => { d with screenshot := x }),
      field "version" string Draft.version (fun d x => { d with version := x })]
    strict := false
    finish := fun d => do
      return {
        id := ← d.id
        name := ← d.name
        played := ← d.played
        savedAt := ← d.savedAt
        map := d.map.getD ""
        screenshot := d.screenshot.getD none
        version := ← d.version } }

/-- The text of an info, indented. -/
def encode (i : SlotInfo) : Bytes := i.toOutline.indented

def decode (text : Bytes) : Except Fault SlotInfo := run reader text

end SlotInfo

/-! ## Snapshots -/

namespace GameObject

def toOutline (o : GameObject) : Outline :=
  .fields <|
    [("name", .text o.name), ("class", .text o.className)] ++
    (if o.tags.isEmpty then [] else [("tags", .list (o.tags.map .text))]) ++
    [("state", o.state.toOutline)]

structure Draft where
  name : Option String := none
  className : Option String := none
  tags : Option (List String) := none
  state : Option Json := none

def reader : Reader GameObject :=
  record {
    draft := ({} : Draft)
    fields := [
      field "name" string Draft.name (fun d x => { d with name := x }),
      field "class" string Draft.className (fun d x => { d with className := x }),
      field "tags" (list string) Draft.tags (fun d x => { d with tags := x }),
      field "state" Json.reader Draft.state (fun d x => { d with state := x })]
    strict := false
    finish := fun d => do
      return ⟨← d.name, ← d.className, d.tags.getD [], d.state.getD .null⟩ }

end GameObject

namespace Region

/-- A region without its name, which is the key under which it stands. -/
def objectsOutline (objects : List GameObject) : Outline :=
  .fields [("objects", .list (objects.map GameObject.toOutline))]

def objectsReader : Reader (List GameObject) :=
  record {
    draft := (none : Option (List GameObject))
    fields := [field "objects" (list GameObject.reader) (fun d => d) (fun _ x => x)]
    strict := false
    finish := fun d => d }

end Region

namespace Snapshot

def toOutline (s : Snapshot) : Outline :=
  .fields [
    ("map", .text s.map),
    ("globals", .list (s.globals.map GameObject.toOutline)),
    ("regions", .fields (s.regions.toList.map fun r => (r.name, Region.objectsOutline r.objects)))]

structure Draft where
  map : Option String := none
  globals : Option (List GameObject) := none
  regions : Option (List (String × List GameObject)) := none

/-- Of two regions with one name the later counts. -/
def reader : Reader Snapshot :=
  record {
    draft := ({} : Draft)
    fields := [
      field "map" string Draft.map (fun d x => { d with map := x }),
      field "globals" (list GameObject.reader) Draft.globals (fun d x => { d with globals := x }),
      field "regions" (table Region.objectsReader) Draft.regions
        (fun d x => { d with regions := x })]
    strict := false
    finish := fun d => do
      let regions ← d.regions
      return ⟨← d.map, ← d.globals, .ofList (regions.map fun r => ⟨r.1, r.2⟩)⟩ }

/-- The payload of a snapshot. -/
def encode (s : Snapshot) : Bytes := s.toOutline.compact

def decode (payload : Bytes) : Except Fault Snapshot := run reader payload

end Snapshot

/-! ## Filters -/

namespace SaveFilter

def toOutline (f : SaveFilter) : Outline :=
  .fields [
    ("store_globals", .bool f.storeGlobals),
    ("store_regions", .bool f.storeRegions),
    ("ignored_classes", .list (f.ignoredClasses.toList.map .text)),
    ("ignored_tags", .list (f.ignoredTags.toList.map .text))]

structure Draft where
  storeGlobals : Option Bool := none
  storeRegions : Option Bool := none
  ignoredClasses : Option (List String) := none
  ignoredTags : Option (List String) := none

def reader : Reader SaveFilter :=
  record {
    draft := ({} : Draft)
    fields := [
      field "store_globals" bool Draft.storeGlobals (fun d x => { d with storeGlobals := x }),
      field "store_regions" bool Draft.storeRegions (fun d x => { d with storeRegions := x }),
      field "ignored_classes" (list string) Draft.ignoredClasses
        (fun d x => { d with ignoredClasses := x }),
      field "ignored_tags" (list string) Draft.ignoredTags
        (fun d x => { d with ignoredTags := x })]
    strict := false
    finish := fun d => some {
      storeGlobals := d.storeGlobals.getD true
      storeRegions := d.storeRegions.getD true
      ignoredClasses := .ofList (d.ignoredClasses.getD [])
      ignoredTags := .ofList (d.ignoredTags.getD []) } }

end SaveFilter

end SaveSlots
