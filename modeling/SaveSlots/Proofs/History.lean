import Mathlib.Data.List.Induction
import SaveSlots.Proofs.Callbacks
/-!
# What a run says about slots

A `Fact` is something that a run tells about stored slots: what a save captured, that a save reported
success, that a slot or every slot was deleted. `Turn.facts` reads the facts off a turn, and `history` off
all turns of a run.

`lastSave?` replays a history. `SavedLast` and `SavedSince` say the same without a replay: `savedLast_iff`
and `savedSince_iff`.
-/

namespace SaveSlots

inductive Fact where
  /-- A save took the world down and gave the snapshot away to be written. -/
  | captured (task : Nat) (data : Snapshot)
  /-- The caller of a save was told that the slot is saved, and with what info. -/
  | saved (task : Nat) (slot : SlotId) (info : SlotInfo)
  /-- Whoever deleted a slot was told that it is deleted. -/
  | deleted (slot : SlotId)
  /-- The caller of a delete-all was told that everything is deleted. -/
  | cleared

namespace Fact

/-- Whether a slot is gone by this fact. -/
def removes (id : SlotId) : Fact → Prop
  | captured .. | saved .. => False
  | deleted slot => slot = id
  | cleared => True

/-- Whether everything was deleted. -/
def clears : Fact → Bool
  | cleared => true
  | captured .. | saved .. | deleted _ => false

/-- Whether a slot was saved or is gone by this fact. -/
def concerns (id : SlotId) : Fact → Prop
  | saved _ slot _ => slot = id
  | f => f.removes id

end Fact

/-! ## Facts of a turn -/

namespace Job

/-- What a save has given away to be written and is not written yet. -/
def given? : Job → Option (SlotInfo × Snapshot)
  | save j =>
    match j.phase with
    | .writing work => work.work?
    | .start | .capture _ => none
  | _ => none

/-- What a job captured of the world in a step: it gives away what it did not before. -/
def captured? (before after : Job) : Option Snapshot :=
  if before.given?.isNone then after.given?.map Prod.snd else none

end Job

namespace Task

def captured? (before after : Task) : Option Fact :=
  (before.job.captured? after.job).map (.captured after.number)

/-- What the reply to a task tells about slots. -/
def reported? (t : Task) (reply : Reply) : Option Fact :=
  match t.kind, t.target?, reply with
  | .save, some slot, .ok (.info info) => some (.saved t.number slot info)
  | .deleteAll, _, .ok _ => some .cleared
  | _, _, _ => none

end Task

namespace Turn

variable {σ : Type}

/-- What the saves of a roster captured in a tick. -/
def captures (t : Turn σ) : List Fact :=
  match t.move with
  | .tick now =>
    (t.game.manager.tasks.zip (t.game.manager.swept now t.game.world)).filterMap fun p => p.1.captured? p.2
  | _ => []

variable [SlotStore σ]

def facts (t : Turn σ) : List Fact :=
  match t.move with
  | .tick _ => t.captures ++ t.calls.filterMap fun c => c.task.reported? c.reply
  | .delete slot =>
    if (t.game.manager.deleteSlot t.game.store slot).1.isOk then [.deleted slot] else []
  | _ => []

end Turn

def history {σ : Type} [SlotStore σ] (turns : List (Turn σ)) : List Fact := turns.flatMap Turn.facts

/-! ## What a history comes to -/

/-- A history in which no delete-all counts. -/
def withoutClearing (fs : List Fact) : List Fact := fs.filter fun f => !f.clears

/-- What counts in a history of a store that lists its slots, or of one that does not: there a delete-all removes
nothing. -/
def counted (lists : Bool) (fs : List Fact) : List Fact := if lists then fs else withoutClearing fs

/-- The snapshots that a save captured. -/
def capturedBy (fs : List Fact) (task : Nat) : List Snapshot :=
  fs.filterMap fun
    | .captured n data => if n = task then some data else none
    | _ => none

/-- A save to a slot, with nothing about the slot behind it. -/
def SavedLast (fs : List Fact) (id : SlotId) (task : Nat) (info : SlotInfo) : Prop :=
  ∃ before after, fs = before ++ .saved task id info :: after ∧ ∀ f ∈ after, ¬ f.concerns id

/-- Some save to a slot, with no deletion of the slot behind it. -/
def SavedSince (fs : List Fact) (id : SlotId) : Prop :=
  ∃ before task info after, fs = before ++ .saved task id info :: after ∧ ∀ f ∈ after, ¬ f.removes id

/-- The last save to a slot after one more fact. -/
def Fact.replay (id : SlotId) (last : Option (Nat × SlotInfo)) : Fact → Option (Nat × SlotInfo)
  | captured .. => last
  | saved task slot info => if slot = id then some (task, info) else last
  | deleted slot => if slot = id then none else last
  | cleared => none

/-- The save that a slot goes back to, if the slot is saved. -/
def lastSave? (fs : List Fact) (id : SlotId) : Option (Nat × SlotInfo) := fs.foldl (Fact.replay id) none

theorem capturedBy_append (fs fs' : List Fact) (n : Nat) :
    capturedBy (fs ++ fs') n = capturedBy fs n ++ capturedBy fs' n :=
  List.filterMap_append

/-- A snapshot counts for the task that captured it. -/
theorem capturedBy_captured (n n' : Nat) (data : Option Snapshot) :
    capturedBy (data.map (Fact.captured n)).toList n' = if n = n' then data.toList else [] := by
  cases data with
  | none => simp [capturedBy]
  | some data => by_cases hn : n = n' <;> simp [capturedBy, hn]

/-- Reports and deletions capture nothing. -/
theorem capturedBy_concat {f : Fact} (h : ∀ n data, f ≠ .captured n data) (fs : List Fact) (n : Nat) :
    capturedBy (fs ++ [f]) n = capturedBy fs n := by
  rw [capturedBy_append]
  cases f with
  | captured n' data => exact absurd rfl (h n' data)
  | saved | deleted | cleared => exact List.append_nil _

theorem counted_append (lists : Bool) (fs fs' : List Fact) :
    counted lists (fs ++ fs') = counted lists fs ++ counted lists fs' := by
  cases lists with
  | true => rfl
  | false => exact List.filter_append ..

/-- What is no delete-all always counts. -/
theorem counted_of_not_clears {fs : List Fact} (h : ∀ f ∈ fs, f.clears = false) (lists : Bool) :
    counted lists fs = fs := by
  cases lists with
  | true => rfl
  | false => exact List.filter_eq_self.2 fun f hf => by rw [h f hf]; rfl

/-- Delete-alls capture nothing. -/
theorem capturedBy_counted (lists : Bool) (fs : List Fact) (n : Nat) :
    capturedBy (counted lists fs) n = capturedBy fs n := by
  cases lists with
  | true => rfl
  | false =>
    induction fs with
    | nil => rfl
    | cons f fs ih =>
      rw [← List.singleton_append, counted_append, capturedBy_append, capturedBy_append, ih]
      cases f <;> rfl

theorem lastSave_append (fs fs' : List Fact) (id : SlotId) :
    lastSave? (fs ++ fs') id = fs'.foldl (Fact.replay id) (lastSave? fs id) :=
  List.foldl_append

/-- Facts that do not concern a slot leave its last save as it is. -/
theorem foldl_replay {id : SlotId} {fs : List Fact} (h : ∀ f ∈ fs, ¬ f.concerns id)
    (last : Option (Nat × SlotInfo)) : fs.foldl (Fact.replay id) last = last := by
  induction fs generalizing last with
  | nil => rfl
  | cons f fs ih =>
    have hf := h f (by simp)
    have hlast : f.replay id last = last := by
      cases f <;> simp_all [Fact.replay, Fact.concerns, Fact.removes]
    rw [List.foldl_cons, hlast]
    exact ih (fun g hg => h g (by simp [hg])) last

theorem savedLast_iff {fs : List Fact} {id : SlotId} {task : Nat} {info : SlotInfo} :
    SavedLast fs id task info ↔ lastSave? fs id = some (task, info) := by
  constructor
  · rintro ⟨before, after, rfl, h⟩
    rw [lastSave_append, List.foldl_cons, foldl_replay h]
    simp [Fact.replay]
  · intro h
    induction fs using List.reverseRecOn with
    | nil => cases h
    | append_singleton fs f ih =>
      rw [lastSave_append] at h
      by_cases hf : f.concerns id
      · refine ⟨fs, [], ?_, fun g hg => by cases hg⟩
        cases f <;> simp_all [Fact.replay, Fact.concerns, Fact.removes]
      · rw [foldl_replay (by simpa using hf)] at h
        obtain ⟨before, after, rfl, hafter⟩ := ih h
        refine ⟨before, after ++ [f], by simp, ?_⟩
        intro g hg
        rcases List.mem_append.1 hg with hg | hg
        · exact hafter g hg
        · rw [List.mem_singleton.1 hg]
          exact hf

theorem savedSince_iff {fs : List Fact} {id : SlotId} :
    SavedSince fs id ↔ (lastSave? fs id).isSome = true := by
  constructor
  · rintro ⟨before, task, info, after, rfl, h⟩
    rw [lastSave_append, List.foldl_cons]
    have hkeep : ∀ (l : List Fact) (last : Option (Nat × SlotInfo)), (∀ f ∈ l, ¬ f.removes id) →
        last.isSome = true → (l.foldl (Fact.replay id) last).isSome = true := by
      intro l
      induction l with
      | nil => exact fun _ _ hl => hl
      | cons f l ih =>
        intro last hl hlast
        refine ih _ (fun g hg => hl g (by simp [hg])) ?_
        have hf := hl f (by simp)
        cases f <;> simp_all [Fact.replay, Fact.removes]
        split <;> simp_all
    exact hkeep after _ h (by simp [Fact.replay])
  · intro h
    obtain ⟨⟨task, info⟩, hl⟩ := Option.isSome_iff_exists.1 h
    obtain ⟨before, after, hfs, hafter⟩ := savedLast_iff.2 hl
    refine ⟨before, task, info, after, hfs, fun f hf hr => hafter f hf ?_⟩
    cases f <;> first | exact hr | exact hr.elim

end SaveSlots
