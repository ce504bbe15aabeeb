import SaveSlots.Files.Path
import SaveSlots.Slot.Codec
/-!
# Presets

The settings of a save manager. Every field may be missing from a text and then has its default; a
file that does not exist gives the defaults.
-/

namespace SaveSlots

structure Preset where
  /-- The number of slots; zero or less for no limit. -/
  maxSlots : Int32
  screenshot : ScreenshotSize
  filter : SaveFilter
  workerThreads : UInt64
  shutdownTimeoutMs : UInt64
  slotsDir : Path
  /-- Written into every saved info. -/
  version : String
  /-- Whether a load opens the map of its snapshot if the world is on another one. -/
  travelOnLoad : Bool
deriving DecidableEq

namespace Preset

def default : Preset where
  maxSlots := 0
  screenshot := .default
  filter := .all
  workerThreads := 2
  shutdownTimeoutMs := 5000
  slotsDir := ⟨"saves"⟩
  version := "0.1.0"
  travelOnLoad := true

instance : Inhabited Preset := ⟨default⟩

/-- Whether two presets say the same: their paths may be spelled in two ways. -/
def isSame (p q : Preset) : Bool :=
  p.slotsDir.parts = q.slotsDir.parts && { p with slotsDir := q.slotsDir } = q

def slotRange (p : Preset) : SlotRange := ⟨p.maxSlots⟩

def isValidSlot (p : Preset) (id : SlotId) : Bool := p.slotRange.contains id

def toOutline (p : Preset) : Outline :=
  .fields [
    ("max_slots", .int p.maxSlots.toInt),
    ("screenshot", p.screenshot.toOutline),
    ("filter", p.filter.toOutline),
    ("worker_threads", .int p.workerThreads.toNat),
    ("shutdown_timeout_ms", .int p.shutdownTimeoutMs.toNat),
    ("slots_dir", .text p.slotsDir.text),
    ("version", .text p.version),
    ("travel_on_load", .bool p.travelOnLoad)]

structure Draft where
  maxSlots : Option Int32 := none
  screenshot : Option ScreenshotSize := none
  filter : Option SaveFilter := none
  workerThreads : Option Nat := none
  shutdownTimeoutMs : Option Nat := none
  slotsDir : Option String := none
  version : Option String := none
  travelOnLoad : Option Bool := none

open Reader in
def reader : Reader Preset :=
  record {
    draft := ({} : Draft)
    fields := [
      field "max_slots" signedWord Draft.maxSlots (fun d x => { d with maxSlots := x }),
      field "screenshot" ScreenshotSize.reader Draft.screenshot
        (fun d x => { d with screenshot := x }),
      field "filter" SaveFilter.reader Draft.filter (fun d x => { d with filter := x }),
      field "worker_threads" (natural 64) Draft.workerThreads
        (fun d x => { d with workerThreads := x }),
      field "shutdown_timeout_ms" (natural 64) Draft.shutdownTimeoutMs
        (fun d x => { d with shutdownTimeoutMs := x }),
      field "slots_dir" string Draft.slotsDir (fun d x => { d with slotsDir := x }),
      field "version" string Draft.version (fun d x => { d with version := x }),
      field "travel_on_load" bool Draft.travelOnLoad (fun d x => { d with travelOnLoad := x })]
    strict := false
    finish := fun d => some {
      maxSlots := d.maxSlots.getD default.maxSlots
      screenshot := d.screenshot.getD default.screenshot
      filter := d.filter.getD default.filter
      workerThreads := (d.workerThreads.map UInt64.ofNat).getD default.workerThreads
      shutdownTimeoutMs := (d.shutdownTimeoutMs.map UInt64.ofNat).getD default.shutdownTimeoutMs
      slotsDir := (d.slotsDir.map Path.mk).getD default.slotsDir
      version := d.version.getD default.version
      travelOnLoad := d.travelOnLoad.getD default.travelOnLoad } }

def encode (p : Preset) : Bytes := p.toOutline.compact

def decode (text : Bytes) : Except PresetError Preset :=
  match Reader.run reader text with
  | .ok p => .ok p
  | .error f => .error (.json f)

/-- What stands under the name of a preset file. -/
inductive Source where
  | missing
  | unreadable (cause : IoCause)
  | file (contents : Bytes)

/-- Reads the preset that stands at a path. A file has to be UTF-8 as a whole. -/
def load (path : String) : Source → Except PresetError Preset
  | .missing => .ok default
  | .unreadable cause => .error (.io path cause)
  | .file contents =>
    match Bytes.text? contents with
    | some _ => decode contents
    | none => .error (.io path .invalidData)

end Preset

end SaveSlots
