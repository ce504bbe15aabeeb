import SaveSlots.Proofs.Holder
import SaveSlots.Proofs.Stores
/-!
# What a store should keep

`Contents` says of every slot by which task it was saved and with what. They change when a task has ended or
a slot was deleted. A task changes the store some time before it ends: until then, its `Job.effect` is what
the store is ahead of the contents.

`Job.Fits` says what a job on the way may rely on: a save writes what it has captured, and a load has read
the info and the payload of one and the same slot. Every step of a job keeps it up, and so does its work:
`Fits.advance`, `Fits.runWork`.
-/

namespace SaveSlots

/-! ## Contents -/

/-- A slot as it was saved. -/
structure Entry where
  task : Nat
  info : SlotInfo
  data : Snapshot

abbrev Contents := SlotId → Option Entry

namespace Contents

def put (k : Contents) (e : Entry) : Contents := fun id => if id = e.info.id then some e else k id

def remove (k : Contents) (ids : List SlotId) : Contents := fun id => if id ∈ ids then none else k id

/-- Every entry lies under its own slot. -/
def Filed (k : Contents) : Prop := ∀ id e, k id = some e → e.info.id = id

/-- Whether a slot has an info and a snapshot, the latter as it was captured or as it was read. -/
def Reads (k : Contents) (id : SlotId) (info : SlotInfo) (data : Snapshot) : Prop :=
  ∃ e, k id = some e ∧ e.info = info ∧ (data = e.data ∨ Snapshot.decode e.data.encode = .ok data)

theorem put_eq_some {k : Contents} {e e' : Entry} {id : SlotId} (h : k.put e id = some e') :
    (id = e.info.id ∧ e' = e) ∨ k id = some e' := by
  unfold put at h
  split at h
  · next hid => exact .inl ⟨hid, (Option.some.inj h).symm⟩
  · exact .inr h

theorem remove_eq_some {k : Contents} {ids : List SlotId} {id : SlotId} {e : Entry} :
    k.remove ids id = some e ↔ id ∉ ids ∧ k id = some e := by
  by_cases hid : id ∈ ids <;> simp [remove, hid]

theorem Filed.put {k : Contents} (h : k.Filed) (e : Entry) : (k.put e).Filed := fun id e' he => by
  rcases put_eq_some he with ⟨rfl, rfl⟩ | he
  · rfl
  · exact h id e' he

theorem Filed.remove {k : Contents} (h : k.Filed) (ids : List SlotId) : (k.remove ids).Filed :=
  fun id e he => h id e (remove_eq_some.1 he).2

theorem Reads.remove {k : Contents} {ids : List SlotId} {id : SlotId} {info : SlotInfo} {data : Snapshot}
    (h : k.Reads id info data) (hid : id ∉ ids) : (k.remove ids).Reads id info data := by
  obtain ⟨e, he, hread⟩ := h
  exact ⟨e, remove_eq_some.2 ⟨hid, he⟩, hread⟩

/-- Whether these are the slots that a delete-all removes: all there are, or none on a store that lists none. -/
def All (k : Contents) (lists : Bool) (ids : List SlotId) : Prop :=
  (lists = true → ∀ id, k.remove ids id = none) ∧ (lists = false → ids = [])

/-- What a store has of the contents. -/
def Stored {σ : Type} [SlotStore σ] [Reliable σ] (k : Contents) (s : σ) : Prop :=
  ∀ id, Reliable.slot? s id = (k id).map fun e => (e.info, e.data.encode)

variable {σ : Type} [SlotStore σ] [Reliable σ] {k : Contents} {s s' : σ}

theorem Stored.put (h : k.Stored s) {e : Entry}
    (hs : ∀ id, Reliable.slot? s' id =
      if id = e.info.id then some (e.info, e.data.encode) else Reliable.slot? s id) :
    (k.put e).Stored s' := by
  intro id
  rw [hs, h, Contents.put]
  split <;> rfl

theorem Stored.remove (h : k.Stored s) {ids : List SlotId}
    (hs : ∀ id, Reliable.slot? s' id = if id ∈ ids then none else Reliable.slot? s id) :
    (k.remove ids).Stored s' := by
  intro id
  rw [hs, h, Contents.remove]
  split <;> rfl

theorem Stored.reads (h : k.Stored s) {id : SlotId} {info : SlotInfo} {payload : Bytes}
    (hs : Reliable.slot? s id = some (info, payload)) : ∃ e, k id = some e ∧ e.info = info ∧
      payload = e.data.encode := by
  rw [h] at hs
  obtain ⟨e, he, heq⟩ := Option.map_eq_some_iff.1 hs
  cases heq
  exact ⟨e, he, rfl, rfl⟩

end Contents

/-! ## Handles -/

namespace Handle

variable {ω α σ : Type} {given : ω → Prop} {result : α → Prop} {h : Handle ω α}

/-- Whether the work that is left is as it should be, or its result. -/
def Holds (given : ω → Prop) (result : α → Prop) : Handle ω α → Prop
  | waiting w | held w => given w
  | finished a => result a
  | lost => True

theorem Holds.mono {given' : ω → Prop} {result' : α → Prop} (hh : h.Holds given result)
    (hg : ∀ w, given w → given' w) (hr : ∀ a, result a → result' a) : h.Holds given' result' := by
  cases h with
  | waiting w | held w => exact hg w hh
  | finished a => exact hr a hh
  | lost => trivial

theorem holds_abandon (hh : h.Holds given result) : h.abandon.Holds given result := by
  cases h <;> first | exact hh | trivial

theorem holds_hold (hh : h.Holds given result) : h.hold.Holds given result := by
  cases h <;> exact hh

theorem given_of_holds {w : ω} (hh : h.Holds given result) (hw : h.work? = some w) : given w := by
  cases h <;> cases hw <;> exact hh

theorem runOn_none {work : ω → σ → α × σ} {s : σ} (hw : h.work? = none) : h.runOn work s = (h, s) := by
  rw [runOn, hw]

theorem runOn_some {work : ω → σ → α × σ} {s : σ} {w : ω} (hw : h.work? = some w) :
    h.runOn work s = (finished (work w s).1, (work w s).2) := by
  rw [runOn, hw]

/-- Work that only reads. -/
theorem holds_runOn (read : σ → ω → α) (s : σ) (hh : h.Holds given result)
    (hr : ∀ w, given w → result (read s w)) :
    (h.runOn (fun w s => (read s w, s)) s).1.Holds given result ∧
      (h.runOn (fun w s => (read s w, s)) s).2 = s := by
  cases hw : h.work? with
  | none =>
    rw [runOn_none hw]
    exact ⟨hh, rfl⟩
  | some w =>
    rw [runOn_some hw]
    exact ⟨hr w (given_of_holds hh hw), rfl⟩

end Handle

/-! ## Jobs in good order -/

/-- Whether a save to a slot is in good order that has captured these snapshots so far. -/
def SavePhase.Fits (slot : SlotId) (own : List Snapshot) : SavePhase → Prop
  | start => own = []
  | capture info => own = [] ∧ info.id = slot
  | writing work => work.Holds (fun w => own = [w.2] ∧ w.1.id = slot)
      fun answer => ∀ w, answer = .ok w → own = [w.2] ∧ w.1.id = slot

def LoadPhase.Fits (slot : SlotId) (k : Contents) : LoadPhase → Prop
  | start => True
  | readingInfo work => work.Holds (fun id => id = slot)
      fun answer => ∀ info, answer = .ok info → ∃ e, k slot = some e ∧ e.info = info
  | readingData info work => (∃ e, k slot = some e ∧ e.info = info) ∧
      work.Holds (fun id => id = slot) fun answer => ∀ data, answer = .ok data → k.Reads slot info data
  | travelling info data _ => k.Reads slot info data

/-- Whether a delete-all is in good order: it deletes all that the store lists. -/
def WorkPhase.Fits (lists : Bool) (k : Contents) : WorkPhase Unit (List SlotId) → Prop
  | start => True
  | working work => work.Holds (fun _ => True) fun answer => ∀ ids, answer = .ok ids → k.All lists ids

namespace Job

/-- Whether a job is in good order, on a store that lists its slots or not. -/
def Fits (lists : Bool) (own : List Snapshot) (k : Contents) : Job → Prop
  | save j => 0 ≤ j.slot.toInt ∧ j.phase.Fits j.slot own
  | load j => j.phase.Fits j.slot k
  | deleteAll phase => phase.Fits lists k
  | info .. | infos .. => True

/-- The contents with what a job has done to the store and nobody was told yet. -/
def effect (task : Nat) (k : Contents) : Job → Contents
  | save { phase := .writing (.finished (.ok w)), .. } => k.put ⟨task, w.1, w.2⟩
  | deleteAll (.working (.finished (.ok ids))) => k.remove ids
  | _ => k

variable {j j' : Job} {n : Nat} {k : Contents} {lists : Bool} {own : List Snapshot}

theorem fits_fresh (h : j.isFresh = true) (hpos : ∀ slot, j.target? = some slot → 0 ≤ slot.toInt) :
    j.Fits lists [] k := by
  rcases j with ⟨_, _, _, _, _ | _ | _⟩ | ⟨_, _ | _ | _ | _⟩ | ⟨_, _ | _⟩ | ⟨_, _ | _⟩ | (_ | _) <;>
    first | trivial | exact ⟨hpos _ rfl, rfl⟩

theorem effect_fresh (h : j.isFresh = true) : j.effect n k = k := by
  rcases j with ⟨_, _, _, _, _ | _ | _⟩ | ⟨_, _ | _ | _ | _⟩ | ⟨_, _ | _⟩ | ⟨_, _ | _⟩ | (_ | _) <;>
    first | rfl | cases h

/-! ### Regions -/

/-- A region is offered to a load that travels or to a save that has not captured the world yet. -/
theorem offered_cases (h : j.Offered j') :
    (∃ slot info data restored restored', j = load ⟨slot, .travelling info data restored⟩ ∧
      j' = load ⟨slot, .travelling info data restored'⟩) ∨
    ∃ slot name shot unloaded unloaded' phase, j = save ⟨slot, name, shot, unloaded, phase⟩ ∧
      j' = save ⟨slot, name, shot, unloaded', phase⟩ ∧ ∀ work, phase ≠ .writing work := by
  rcases h with ⟨f, region, w, w', h⟩ | ⟨f, region, w, h⟩
  · unfold regionReady? at h
    split at h <;> try cases h
    next j =>
      obtain ⟨slot, phase⟩ := j
      cases phase <;> try cases h
      obtain ⟨_, -, he⟩ := Option.map_eq_some_iff.1 h
      cases he
      exact .inl ⟨_, _, _, _, _, rfl, rfl⟩
  · unfold regionUnloading? at h
    split at h <;> try cases h
    next j =>
      obtain ⟨slot, name, shot, unloaded, phase⟩ := j
      cases phase <;> try cases h
      all_goals
        obtain ⟨_, -, he⟩ := Option.map_eq_some_iff.1 h
        cases he
        exact .inr ⟨_, _, _, _, _, _, rfl, rfl, fun _ => by simp⟩

theorem Fits.offered (hf : j.Fits lists own k) (h : j.Offered j') : j'.Fits lists own k := by
  rcases offered_cases h with ⟨_, _, _, _, _, rfl, rfl⟩ | ⟨_, _, _, _, _, _, rfl, rfl, -⟩ <;> exact hf

theorem effect_offered (h : j.Offered j') : j'.effect n k = j.effect n k := by
  rcases offered_cases h with ⟨_, _, _, _, _, rfl, rfl⟩ | ⟨_, _, _, _, _, phase, rfl, rfl, hp⟩
  · rfl
  · cases phase with
    | writing work => exact absurd rfl (hp work)
    | start | capture => rfl

/-! ### Steps -/

/-- A save that is about to capture the world has a picture to wait for or captures it. -/
theorem capture_cases (j : SaveJob) (f : SaveFilter) (info : SlotInfo) (w : World) :
    (j.capture f info w).1 = { j with phase := .capture info } ∨
    ∃ info' data unloaded, info'.id = info.id ∧
      (j.capture f info w).1 = { j with unloaded, phase := .writing (.waiting (info', data)) } := by
  unfold SaveJob.capture
  split
  · exact .inr ⟨_, _, _, rfl, rfl⟩
  · split
    · exact .inl rfl
    · next screenshot _ _ => exact .inr ⟨{ info with screenshot }, _, _, rfl, rfl⟩

/-- What a step keeps up that does not end the job. A job captures the world once. -/
structure Continues (lists : Bool) (own : List Snapshot) (k : Contents) (j j' : Job) : Prop where
  fits : j'.Fits lists (own ++ (j.captured? j').toList) k
  first : ∀ data, j.captured? j' = some data → own = []
  before : ∀ n, j.effect n k = k
  after : ∀ n, j'.effect n k = k

/-- Nothing is captured in a step that gives nothing away. -/
theorem Continues.of_given (h : j'.given? = none) (hf : j'.Fits lists own k) (hb : ∀ n, j.effect n k = k)
    (ha : ∀ n, j'.effect n k = k) : Continues lists own k j j' := by
  have hnone : j.captured? j' = none := by simp [captured?, h]
  refine ⟨?_, ?_, hb, ha⟩
  · rwa [hnone, Option.toList_none, List.append_nil]
  · intro data hd
    rw [hnone] at hd
    cases hd

theorem continues_capture {j : SaveJob} (hpos : 0 ≤ j.slot.toInt) (hgiven : (save j).given? = none)
    (hb : ∀ n, (save j).effect n k = k) {info : SlotInfo} (hid : info.id = j.slot) (f : SaveFilter)
    (w : World) :
    Continues lists [] k (save j) (save (j.capture f info w).1) := by
  rcases capture_cases j f info w with h | ⟨info', data, unloaded, hid', h⟩
  · rw [h]
    exact .of_given rfl ⟨hpos, rfl, hid⟩ hb fun _ => rfl
  · rw [h]
    refine ⟨?_, fun _ _ => rfl, hb, fun _ => rfl⟩
    simp only [captured?, hgiven]
    exact ⟨hpos, rfl, hid'.trans hid⟩

theorem continues_save {j j' : SaveJob} {f : SaveFilter} {now : Instant} {version : String} {w w' : World}
    (hf : (save j).Fits lists own k) (h : j.advance f now version w = (j', w', none)) :
    Continues lists own k (save j) (save j') := by
  obtain ⟨slot, name, shot, unloaded, phase⟩ := j
  obtain ⟨hpos, hf⟩ := hf
  cases phase with
  | start =>
    obtain rfl : own = [] := hf
    have hj : j' = (SaveJob.capture ⟨slot, name, shot, unloaded, .start⟩ f
        (SaveJob.begin ⟨slot, name, shot, unloaded, .start⟩ now version w).1
        (SaveJob.begin ⟨slot, name, shot, unloaded, .start⟩ now version w).2).1 := (congrArg Prod.fst h).symm
    rw [hj]
    exact continues_capture hpos rfl (fun _ => rfl) rfl f _
  | capture info =>
    obtain ⟨rfl, hid⟩ := hf
    have hj : j' = (SaveJob.capture ⟨slot, name, shot, unloaded, .capture info⟩ f info w).1 :=
      (congrArg Prod.fst h).symm
    rw [hj]
    exact continues_capture hpos rfl (fun _ => rfl) hid f w
  | writing work =>
    cases work with
    | waiting given | held given =>
      cases h
      -- the write was given away before, so nothing is captured twice
      have hnone : ∀ j : Job, j.captured? j = none := fun j => by
        cases hg : j.given? <;> simp [captured?, hg]
      refine ⟨?_, ?_, fun _ => rfl, fun _ => rfl⟩
      · rw [hnone, Option.toList_none, List.append_nil]
        exact ⟨hpos, hf⟩
      · intro data hd
        rw [hnone] at hd
        cases hd
    | finished answer => cases h
    | lost => cases h

/-- A load that has read both halves travels, and reports them once the map is there. -/
theorem arrive_cases {j j' : LoadJob} {f : SaveFilter} {info : SlotInfo} {data : Snapshot}
    {restored : Catalog (id : String → String)} {w w' : World} {r : Option TaskResult}
    (h : j.arrive f info data restored w = (j', w', r)) :
    j' = { j with phase := .travelling info data restored } ∧
      (r = none ∨ r = some (.ok (.loaded info data))) := by
  unfold LoadJob.arrive at h
  simp only at h
  split at h <;> cases h
  · exact ⟨rfl, .inl rfl⟩
  · exact ⟨rfl, .inr rfl⟩

theorem continues_load {j j' : LoadJob} {f : SaveFilter} {p : Preset} {w w' : World} (hk : k.Filed)
    (hf : (load j).Fits lists own k) (h : j.advance f p w = (j', w', none)) :
    Continues lists own k (load j) (load j') := by
  obtain ⟨slot, phase⟩ := j
  refine .of_given rfl ?_ (fun _ => rfl) (fun _ => rfl)
  cases phase with
  | start =>
    cases h
    rfl
  | readingInfo work =>
    cases work with
    | waiting | held =>
      cases h
      exact hf
    | lost => cases h
    | finished answer =>
      cases answer with
      | error e => cases h
      | ok info =>
        cases h
        obtain ⟨e, he, rfl⟩ := hf info rfl
        -- the payload is read from where the info says, which is the slot itself
        exact ⟨⟨e, he, rfl⟩, hk slot e he⟩
  | readingData info work =>
    cases work with
    | waiting | held =>
      cases h
      exact hf
    | lost => cases h
    | finished answer =>
      cases answer with
      | error e => cases h
      | ok data =>
        obtain ⟨rfl, -⟩ := arrive_cases h
        exact hf.2 data rfl
  | travelling info data restored =>
    obtain ⟨rfl, -⟩ := arrive_cases h
    exact hf

theorem Fits.continues {f : SaveFilter} {p : Preset} {now : Instant} {w w' : World} (hf : j.Fits lists own k)
    (hk : k.Filed) (h : j.advance f p now w = (j', w', none)) : Continues lists own k j j' := by
  cases j with
  | save j =>
    obtain ⟨hj, hr⟩ : save (j.advance f now p.version w).1 = j' ∧ (j.advance f now p.version w).2.2 = none :=
      ⟨congrArg Prod.fst h, congrArg (·.2.2) h⟩
    rw [← hj]
    exact continues_save hf (Prod.ext rfl (Prod.ext rfl hr))
  | load j =>
    obtain ⟨hj, hr⟩ : load (j.advance f p w).1 = j' ∧ (j.advance f p w).2.2 = none :=
      ⟨congrArg Prod.fst h, congrArg (·.2.2) h⟩
    rw [← hj]
    exact continues_load hk hf (Prod.ext rfl (Prod.ext rfl hr))
  | info slot phase | infos recent phase =>
    cases (congrArg Prod.fst h)
    exact .of_given rfl trivial (fun _ => rfl) (fun _ => rfl)
  | deleteAll phase =>
    rcases phase with _ | _ | _ | _ | _
    case start =>
      cases h
      exact .of_given rfl trivial (fun _ => rfl) (fun _ => rfl)
    case working.waiting | working.held =>
      cases h
      exact .of_given rfl trivial (fun _ => rfl) (fun _ => rfl)
    case working.finished | working.lost => cases h

/-- How a job in good order ends, and what it has done by then. -/
inductive Ending (lists : Bool) (own : List Snapshot) (k : Contents) (j : Job) : TaskResult → Prop
  | failed {e : SlotError} : (∀ n, j.effect n k = k) → Ending lists own k j (.error e)
  | told {o : Outcome} : j.kind = .loadInfos → (∀ n, j.effect n k = k) →
      (∀ active, Manager.activeAfter active (.ok o) = active) → Ending lists own k j (.ok o)
  | saved {info : SlotInfo} {data : Snapshot} : j.kind = .save → j.target? = some info.id → own = [data] →
      (∀ n, j.effect n k = k.put ⟨n, info, data⟩) → Ending lists own k j (.ok (.saved info data))
  | loaded {slot : SlotId} {info : SlotInfo} {data : Snapshot} : j.kind = .load → j.target? = some slot →
      (∀ n, j.effect n k = k) → k.Reads slot info data → Ending lists own k j (.ok (.loaded info data))
  | deleted {ids : List SlotId} : j.kind = .deleteAll → (∀ n, j.effect n k = k.remove ids) →
      k.All lists ids → Ending lists own k j (.ok (.deleted ids))

theorem ending_load {j j' : LoadJob} {f : SaveFilter} {p : Preset} {w w' : World} {r : TaskResult}
    (hf : (load j).Fits lists own k) (h : j.advance f p w = (j', w', some r)) :
    Ending lists own k (load j) r := by
  obtain ⟨slot, phase⟩ := j
  cases phase with
  | start => cases h
  | readingInfo work =>
    cases work with
    | waiting | held => cases h
    | lost =>
      cases h
      exact .failed fun _ => rfl
    | finished answer =>
      cases answer with
      | ok info => cases h
      | error e =>
        cases h
        exact .failed fun _ => rfl
  | readingData info work =>
    cases work with
    | waiting | held => cases h
    | lost =>
      cases h
      exact .failed fun _ => rfl
    | finished answer =>
      cases answer with
      | error e =>
        cases h
        exact .failed fun _ => rfl
      | ok data =>
        obtain ⟨-, hnone | hloaded⟩ := arrive_cases h
        · cases hnone
        · cases hloaded
          exact .loaded rfl rfl (fun _ => rfl) (hf.2 data rfl)
  | travelling info data restored =>
    obtain ⟨-, hnone | hloaded⟩ := arrive_cases h
    · cases hnone
    · cases hloaded
      exact .loaded rfl rfl (fun _ => rfl) hf

theorem Fits.ending {f : SaveFilter} {p : Preset} {now : Instant} {w w' : World} {r : TaskResult}
    (hf : j.Fits lists own k) (h : j.advance f p now w = (j', w', some r)) : Ending lists own k j r := by
  have hr : (j.advance f p now w).2.2 = some r := congrArg (·.2.2) h
  cases j with
  | save j =>
    obtain ⟨slot, name, shot, unloaded, phase⟩ := j
    rcases phase with _ | _ | _ | _ | answer | _
    case writing.finished =>
      cases answer with
      | error e =>
        cases hr
        exact .failed fun _ => rfl
      | ok given =>
        cases hr
        obtain ⟨hown, hid⟩ := hf.2 given rfl
        exact .saved rfl (congrArg some hid.symm) hown fun _ => rfl
    case writing.lost =>
      cases hr
      exact .failed fun _ => rfl
    all_goals cases hr
  | load j => exact ending_load hf (Prod.ext rfl (Prod.ext rfl hr))
  | info slot phase | infos recent phase =>
    obtain ⟨answer, -, rfl⟩ := Option.map_eq_some_iff.1 hr
    cases answer with
    | error e => exact .failed fun _ => rfl
    | ok a => exact .told rfl (fun _ => rfl) fun _ => rfl
  | deleteAll phase =>
    rcases phase with _ | _ | _ | answer | _
    case working.finished =>
      cases answer with
      | error e =>
        cases hr
        exact .failed fun _ => rfl
      | ok ids =>
        cases hr
        exact .deleted rfl (fun _ => rfl) (hf ids rfl)
    case working.lost =>
      cases hr
      exact .failed fun _ => rfl
    all_goals cases hr

/-! ### Work -/

theorem Fits.loseWork (h : j.Fits lists own k) : j.loseWork.Fits lists own k := by
  rcases j with ⟨_, _, _, _, _ | _ | work⟩ | ⟨_, _ | work | ⟨_, work⟩ | _⟩ | ⟨_, _ | work⟩ |
    ⟨_, _ | work⟩ | (_ | work)
  case save.writing => exact ⟨h.1, Handle.holds_abandon h.2⟩
  case load.readingInfo => exact Handle.holds_abandon (h := work) h
  case load.readingData => exact ⟨h.1, Handle.holds_abandon h.2⟩
  case deleteAll.working => exact Handle.holds_abandon (h := work) h
  all_goals exact h

theorem effect_loseWork (j : Job) (n : Nat) (k : Contents) : j.loseWork.effect n k = j.effect n k := by
  rcases j with ⟨_, _, _, _, _ | _ | work⟩ | ⟨_, _ | work | ⟨_, work⟩ | _⟩ | ⟨_, _ | work⟩ |
    ⟨_, _ | work⟩ | (_ | work)
  case save.writing => cases work <;> rfl
  case deleteAll.working => cases work <;> rfl
  all_goals rfl

variable {σ : Type} [SlotStore σ] [Reliable σ] {s : σ}

/-- A job in good order, and a store that is ahead of the contents by what the job has done. -/
structure InOrder (lists : Bool) (n : Nat) (own : List Snapshot) (k : Contents) (j : Job) (s : σ) : Prop where
  sound : Reliable.Sound s
  names : Reliable.lists s = lists
  stored : (j.effect n k).Stored s
  fits : j.Fits lists own k

theorem InOrder.save_runWork {j : SaveJob} (h : InOrder lists n own k (save j) s) :
    InOrder lists n own k ((save j).runWork s).1 ((save j).runWork s).2 := by
  obtain ⟨slot, name, shot, unloaded, phase⟩ := j
  cases phase with
  | start | capture => exact h
  | writing work =>
    obtain ⟨hpos, hwork⟩ := h.fits
    simp only [runWork]
    split
    · -- the gate is closed, so the write is held back
      refine ⟨h.sound, h.names, ?_, hpos, Handle.holds_hold hwork⟩
      have hstored := h.stored
      cases work <;> exact hstored
    · cases hw : work.work? with
      | none =>
        rw [Handle.runOn_none hw]
        exact h
      | some given =>
        obtain ⟨hown, hid⟩ := Handle.given_of_holds hwork hw
        have hstored : k.Stored s := by
          have hstored := h.stored
          cases work <;> first | exact hstored | cases hw
        rw [Handle.runOn_some hw]
        -- from here on the store is ahead of the contents, until the save is told that it has ended
        have hlists := (Reliable.lists_write s given.1 given.2.encode).trans h.names
        unfold SlotStore.commit
        split
        · next s' he =>
          obtain ⟨hs', hslots⟩ := Reliable.write_ok h.sound (by rw [hid]; exact hpos) he
          rw [he] at hlists
          refine ⟨hs', hlists, hstored.put (e := ⟨n, given.1, given.2⟩) hslots, hpos, ?_⟩
          intro w hok
          cases hok
          exact ⟨hown, hid⟩
        · next e s' he =>
          obtain ⟨hs', hslots⟩ := Reliable.write_error h.sound he
          rw [he] at hlists
          refine ⟨hs', hlists, fun id => (hslots id).trans (hstored id), hpos, ?_⟩
          intro w hok
          cases hok

theorem InOrder.load_runWork {j : LoadJob} (h : InOrder lists n own k (load j) s) :
    InOrder lists n own k ((load j).runWork s).1 ((load j).runWork s).2 := by
  obtain ⟨slot, phase⟩ := j
  have hstored : k.Stored s := h.stored
  cases phase with
  | start | travelling => exact h
  | readingInfo work =>
    obtain ⟨hh, hs⟩ := Handle.holds_runOn (h := work) SlotStore.fetchInfo s h.fits (by
      rintro id rfl info hok
      simp only [SlotStore.fetchInfo] at hok
      cases hr : SlotStore.readInfo s id with
      | error e =>
        rw [hr] at hok
        cases hok
      | ok info' =>
        rw [hr] at hok
        cases hok
        obtain ⟨payload, hslot⟩ := Reliable.readInfo_ok h.sound hr
        obtain ⟨e, he, hinfo, -⟩ := hstored.reads hslot
        exact ⟨e, he, hinfo⟩)
    simp only [runWork, hs]
    exact ⟨h.sound, h.names, hstored, hh⟩
  | readingData info work =>
    obtain ⟨⟨e, he, rfl⟩, hwork⟩ := h.fits
    obtain ⟨hh, hs⟩ := Handle.holds_runOn SlotStore.fetchSnapshot s hwork (by
      rintro id rfl data hok
      simp only [SlotStore.fetchSnapshot] at hok
      split at hok
      · next payload hr =>
        have hslot := hstored id
        rw [he] at hslot
        rw [Reliable.readData_ok h.sound hslot hr] at hok
        refine ⟨e, he, rfl, .inr ?_⟩
        cases hd : Snapshot.decode e.data.encode with
        | error f =>
          rw [hd] at hok
          cases hok
        | ok data' =>
          rw [hd] at hok
          cases hok
          rfl
      · cases hok)
    simp only [runWork, hs]
    exact ⟨h.sound, h.names, hstored, ⟨e, he, rfl⟩, hh⟩

theorem InOrder.runWork (h : InOrder lists n own k j s) :
    InOrder lists n own k (j.runWork s).1 (j.runWork s).2 := by
  cases j with
  | save j => exact h.save_runWork
  | load j => exact h.load_runWork
  | info slot phase | infos recent phase =>
    cases phase with
    | start => exact h
    | working work =>
      cases work <;> exact ⟨h.sound, h.names, h.stored, trivial⟩
  | deleteAll phase =>
    cases phase with
    | start => exact h
    | working work =>
      simp only [Job.runWork]
      cases hw : work.work? with
      | none =>
        rw [Handle.runOn_none hw]
        exact h
      | some given =>
        have hstored : k.Stored s := by
          have hstored := h.stored
          cases work <;> first | exact hstored | cases hw
        rw [Handle.runOn_some hw]
        rcases Reliable.deleteAll_cases h.sound with ⟨e, he⟩ | ⟨ids, s', he, hs', hslots, hsame, hall, hno⟩
        · rw [he]
          exact ⟨h.sound, h.names, hstored, fun ids hok => by cases hok⟩
        · rw [he]
          have hstored' := hstored.remove hslots
          refine ⟨hs', hsame.trans h.names, hstored', ?_⟩
          intro ids' hok
          cases hok
          refine ⟨fun hl id => ?_, fun hl => hno (h.names.trans hl)⟩
          have hnone := hall (h.names.trans hl) id
          rw [hstored'] at hnone
          simpa using hnone

/-! ### Other slots -/

/-- A job does nothing to slots that it neither saves to nor deletes. -/
theorem Fits.effect_other {id : SlotId} (hf : j.Fits lists own k) (hall : j.kind ≠ .deleteAll)
    (hsave : j.kind = .save → j.target? ≠ some id) : j.effect n k id = k id := by
  cases j with
  | save j =>
    obtain ⟨slot, name, shot, unloaded, phase⟩ := j
    rcases phase with _ | _ | _ | _ | answer | _
    case writing.finished =>
      cases answer with
      | error e => rfl
      | ok given =>
        obtain ⟨-, hid⟩ := hf.2 given rfl
        have hne : id ≠ given.1.id := by
          rintro rfl
          exact hsave rfl (congrArg some hid.symm)
        exact if_neg hne
    all_goals rfl
  | load | info | infos => rfl
  | deleteAll => exact absurd rfl hall

/-- A load relies on nothing but its own slot. -/
theorem fits_congr {phase : LoadPhase} {slot : SlotId} {k' : Contents} (h : k' slot = k slot) :
    phase.Fits slot k' = phase.Fits slot k := by
  cases phase <;> simp only [LoadPhase.Fits, Contents.Reads, h]

theorem remove_put {e : Entry} {slot : SlotId} (h : e.info.id ≠ slot) :
    (k.remove [slot]).put e = (k.put e).remove [slot] := by
  funext id
  simp only [Contents.put, Contents.remove, List.mem_singleton]
  by_cases hid : id = e.info.id
  · simp [hid, h]
  · simp [hid]

/-- A job does not mind the deletion of a slot that it has nothing to do with. -/
theorem Fits.remove {slot : SlotId} (hf : j.Fits lists own k) (hk : j.kind ≠ .deleteAll)
    (hslot : j.target? = some slot → j.kind = .loadInfos) :
    j.Fits lists own (k.remove [slot]) ∧ ∀ n, j.effect n (k.remove [slot]) = (j.effect n k).remove [slot] := by
  cases j with
  | save j =>
    obtain ⟨target, name, shot, unloaded, phase⟩ := j
    have hne : target ≠ slot := by
      rintro rfl
      cases hslot rfl
    refine ⟨hf, ?_⟩
    intro n
    rcases phase with _ | _ | _ | _ | answer | _
    case writing.finished =>
      cases answer with
      | error e => rfl
      | ok given =>
        obtain ⟨-, hid⟩ := hf.2 given rfl
        exact remove_put (e := ⟨n, given.1, given.2⟩) (hid.trans_ne hne)
    all_goals rfl
  | load j =>
    have hne : j.slot ≠ slot := by
      intro heq
      cases hslot (congrArg some heq)
    refine ⟨?_, fun _ => rfl⟩
    change j.phase.Fits j.slot _
    rw [fits_congr (show k.remove [slot] j.slot = k j.slot by simp [Contents.remove, hne])]
    exact hf
  | info | infos => exact ⟨trivial, fun _ => rfl⟩
  | deleteAll => exact absurd rfl hk

end Job

end SaveSlots
