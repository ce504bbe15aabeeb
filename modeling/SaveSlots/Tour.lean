import SaveSlots.Session
/-!
# The tour

A short program that shows what a save manager does, on the slots of a store: it saves a harbour twice,
changing it in between, lists the slots, loads the first one again, deletes the second one and lists
what is left. It stops at the first thing that goes wrong.

The game loop is played at 60 frames or so a second: every tick moves the clock on.
-/

namespace SaveSlots

/-- Why a tour ends early. -/
inductive Tour.Stop where
  /-- There are more workers than can be counted in bytes. -/
  | tooManyWorkers
  /-- There is no memory for the workers. -/
  | outOfMemory
  | slot (e : SlotError)
  | stillRunning
  | noReply
deriving Inhabited

structure Tour (σ : Type) where
  session : Session σ
  /-- The documents that were shown. -/
  shown : List Outline

namespace Tour

variable {σ : Type} [SlotStore σ]

def Stop.message (w : Wording) : Stop → String
  | tooManyWorkers => "too many workers"
  | outOfMemory => "out of memory"
  | slot e => e.message w
  | stillRunning => "the tasks do not come to an end"
  | noReply => "a task ended without a reply"

/-- How a program ends: by itself with a code, or by a signal. -/
inductive Exit where
  | code (c : UInt8)
  | killed
deriving DecidableEq, Inhabited

def Stop.exit : Stop → Exit
  | tooManyWorkers => .code 101
  | outOfMemory => .killed
  | slot _ | stillRunning | noReply => .code 1

/-! ## The harbour -/

def object (name className : String) (tags : List String) (state : Json) : GameObject :=
  ⟨name, className, tags, state⟩

def position (x y z : Int) : Json := .array [.ofInt x, .ofInt y, .ofInt z]

def player (hp gold : Int) (at' : Json) : Json :=
  .ofFields [("hp", .ofInt hp), ("gold", .ofInt gold), ("position", at')]

def harbour : World :=
  ((World.new "harbor").spawn (object "player" "Player" [] (player 30 12 (position 4 0 9)))
    |>.spawn (object "spark" "Particle" ["transient"] .null))
    |>.loadRegion "docks" [
      object "crate_a" "Crate" [] (.ofFields [("opened", .bool false)]),
      object "boat" "Boat" [] (.ofFields [("moored", .bool true)])]

/-! ## What is shown -/

def summary (i : SlotInfo) : List (String × Json) := [
  ("id", .ofInt i.id.toInt),
  ("name", .string i.name),
  ("map", .string i.map),
  ("played_secs", .ofInt i.played.secs.toNat),
  ("saved_at", .string i.savedAt.offsetText)]

def summaries (infos : List SlotInfo) : Outline :=
  .list (infos.map fun i => .fields ((summary i).map fun f => (f.1, f.2.toOutline)))

def describe (o : GameObject) : Json :=
  .ofFields ([("name", .string o.name), ("class", .string o.className), ("state", o.state)] ++
    if o.tags.isEmpty then [] else [("tags", .array (o.tags.map .string))])

/-- The loaded slot, the player and the docks. -/
def scene (i : SlotInfo) (w : World) : Outline :=
  (Json.ofFields [
    ("loaded", .ofFields (summary i)),
    ("player", ((w.global? "player").map GameObject.state).getD .null),
    ("docks", ((w.region? "docks").map fun os => .array (os.map describe)).getD .null)]).toOutline

/-! ## The steps -/

abbrev Step (σ : Type) := ExceptT Stop (StateM (Tour σ))

def frameMillis : Int := 16

def maxFrames : Nat := 600

/-- Ticks while tasks remain. -/
def play (s : Session σ) : (frames : Nat) → Session σ × List Notice
  | 0 => (s, [])
  | frames + 1 =>
    if s.hasTasks then
      let (s, notices) := s.tick
      let (s, more) := play { s with now := (s.now.advance? frameMillis).getD s.now } frames
      (s, notices ++ more)
    else (s, [])

def reply? : Notice → Option Reply
  | .callback _ reply => some reply
  | .hook .. => none

/-- Makes a request and plays on until it is replied to. -/
def await (r : Request) : Step σ Value := do
  let t ← get
  match t.session.request r "" with
  | none => throw .noReply
  | some (.error e, _) => throw (.slot e)
  | some (.ok _, session) =>
    let (session, notices) := play session maxFrames
    set { t with session }
    if session.hasTasks then throw .stillRunning
    match notices.findSome? reply? with
    | none => throw .noReply
    | some (.error e) => throw (.slot e)
    | some (.ok value) => return value

def change (f : World → World) : Step σ Unit :=
  modify fun t => { t with session := { t.session with world := f t.session.world } }

def display (document : Outline) : Step σ Unit :=
  modify fun t => { t with shown := t.shown ++ [document] }

/-- Deletes a slot at once. -/
def delete (slot : SlotId) : Step σ Unit := do
  let t ← get
  match t.session.deleteSlot slot with
  | none => throw .noReply
  | some (.error e, session) =>
    set { t with session }
    throw (.slot e)
  | some (.ok (), session) => set { t with session }

def list : Step σ (List SlotInfo) := do
  match (← get).session.listInfos false with
  | some (.ok infos) => return infos
  | some (.error e) => throw (.slot e)
  | none => throw .noReply

def steps (shot : ScreenshotSize) : Step σ Unit := do
  let _ ← await (.save 1 true none)
  change fun w => { w with played := .ofSeconds 95 }
  change fun w => (w.setGlobalState? "player" (player 8 40 (position 1 0 2))).getD w
  let _ ← await (.save 2 true (some shot))
  if let .infos infos ← await (.infos true) then
    display (summaries infos)
  change fun w =>
    (w.setRegionState? "docks" "crate_a" (.ofFields [("opened", .bool true)])).getD w
  if let .info info ← await (.load 1) then
    display (scene info (← get).session.world)
  delete 2
  display (summaries (← list))

/-- What came of a tour: the documents shown, and whether it came to its end. -/
structure Report where
  shown : List Outline
  result : Except Stop Unit
deriving Inhabited

def Report.exit (r : Report) : Exit :=
  match r.result with
  | .ok () => .code 0
  | .error stop => stop.exit

/-- What keeps that many workers from being started. A table of them takes eight bytes for each, and half of
all addresses at most; with their queues they take two kilobytes each, and 32 gigabytes at most. -/
def Stop.ofWorkers? (workers : UInt64) : Option Stop :=
  if workers > 0x0fffffffffffffff then some tooManyWorkers
  else if workers > 0xffffff then some outOfMemory
  else none

/-- The tour with a preset on the slots of a store, beginning at an instant, and the store after it. -/
def run (p : Preset) (store : σ) (now : Instant) : Report × σ :=
  match Stop.ofWorkers? p.workerThreads with
  | some stop => (⟨[], .error stop⟩, store)
  | none =>
    let (result, t) := (steps p.screenshot).run.run ⟨Session.start p store harbour now, []⟩
    (⟨t.shown, result⟩, t.session.store.inner)

end Tour

end SaveSlots
