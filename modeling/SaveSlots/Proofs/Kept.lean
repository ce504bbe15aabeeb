import SaveSlots.Proofs.Contents
/-!
# The store keeps what was saved last

`Kept` ties three things together: what a store has of the slots, what the holder is about to report, and what
the history tells. `Kept.shift` is the step: whatever happens to a scene, the store is again what the history
makes of it.

The proof goes along the constructors of `Shift`. Only those that end a task or delete a slot change the
contents, so each of them has a lemma of its own: `silent`, `saved`, `cleared` and `deleted`.
-/

namespace SaveSlots

variable {σ : Type} [SlotStore σ] [Reliable σ]

open Reliable (Sound SameSlots)

/-! ## The invariant -/

/-- The contents with what the holder has done. -/
def Scene.contents (c : Scene σ) (k : Contents) : Contents :=
  match c.holder with
  | some t => t.job.effect t.number k
  | none => k

/-- What holds of a scene with this history behind it, for some contents. What a delete-all has left can be told from
the history, but it depends on whether the store lists its slots. -/
structure Kept (lists : Bool) (c : Scene σ) (fs : List Fact) (k : Contents) : Prop where
  sound : Sound c.store
  names : Reliable.lists c.store = lists
  stored : (c.contents k).Stored c.store
  fits : ∀ t, c.holder = some t → t.job.Fits lists (capturedBy fs t.number) k
  filed : k.Filed
  captured : ∀ id e, k id = some e → capturedBy fs e.task = [e.data]
  unused : ∀ n, c.issued ≤ n → capturedBy fs n = []
  active : ∀ info data, c.active = some (info, data) → k.Reads info.id info data
  told : ∀ id, lastSave? (counted lists fs) id = (k id).map fun e => (e.task, e.info)

namespace Kept

variable {allowed : σ → σ → Prop} {c c' : Scene σ} {fs facts : List Fact} {k : Contents} {lists : Bool}

theorem inOrder (h : Kept lists c fs k) {t : Task} (ht : c.holder = some t) :
    Job.InOrder lists t.number (capturedBy fs t.number) k t.job c.store where
  sound := h.sound
  names := h.names
  stored := by
    have hstored := h.stored
    rwa [Scene.contents, ht] at hstored
  fits := h.fits t ht

/-- Facts that are told now are replayed on what the contents say. -/
theorem told_append (h : Kept lists c fs k) (hno : ∀ f ∈ facts, f.clears = false) (id : SlotId) :
    lastSave? (counted lists (fs ++ facts)) id =
      facts.foldl (Fact.replay id) ((k id).map fun e => (e.task, e.info)) := by
  rw [counted_append, lastSave_append, h.told, counted_of_not_clears hno]

/-- The invariant if the history is as before, and the contents too. -/
theorem holder (h : Kept lists c fs k) {t : Task} {s : σ}
    (ho : Job.InOrder lists t.number (capturedBy fs t.number) k t.job s) :
    Kept lists { c with holder := some t, store := s } fs k where
  sound := ho.sound
  names := ho.names
  stored := ho.stored
  fits := fun u hu => by
    cases hu
    exact ho.fits
  filed := h.filed
  captured := h.captured
  unused := h.unused
  active := h.active
  told := h.told

theorem begun (h : Kept lists c fs k) {t : Task} (hnone : c.holder = none) (hn : t.number = c.issued)
    (hfresh : t.job.isFresh = true) (hpos : ∀ slot, t.target? = some slot → 0 ≤ slot.toInt) :
    Kept lists { c with holder := some t, issued := c.issued + 1 } fs k := by
  have hstored := h.stored
  rw [Scene.contents, hnone] at hstored
  refine ⟨h.sound, h.names, ?_, ?_, h.filed, h.captured,
    fun n hle => h.unused n (Nat.le_of_succ_le hle), h.active, h.told⟩
  · change (t.job.effect t.number k).Stored c.store
    rwa [Job.effect_fresh hfresh]
  · intro u hu
    cases hu
    rw [h.unused t.number (by omega)]
    exact Job.fits_fresh hfresh hpos

theorem foldl_captured (n : Nat) (data : Option Snapshot) (id : SlotId) (last : Option (Nat × SlotInfo)) :
    (data.map (Fact.captured n)).toList.foldl (Fact.replay id) last = last := by
  cases data <;> rfl

theorem stepped (h : Kept lists c fs k) {t : Task} {job : Job} {state : TaskState} {p : Preset} {now : Instant}
    {w w' : World} (ht : c.holder = some t) (hn : t.number < c.issued)
    (hstep : t.job.advance t.filter p now w = (job, w', none)) :
    Kept lists { c with holder := some { t with job, state } }
      (fs ++ (t.captured? { t with job, state }).toList) k := by
  have hc := (h.fits t ht).continues h.filed hstep
  have hcaptured : ∀ n, capturedBy (fs ++ (t.captured? { t with job, state }).toList) n =
      capturedBy fs n ++ if t.number = n then (t.job.captured? job).toList else [] := fun n => by
    rw [capturedBy_append]
    exact congrArg _ (capturedBy_captured ..)
  refine ⟨h.sound, h.names, ?_, ?_, h.filed, ?_, ?_, h.active, ?_⟩
  · have hstored := (h.inOrder ht).stored
    rw [hc.before] at hstored
    change (job.effect t.number k).Stored c.store
    rwa [hc.after]
  · intro u hu
    cases hu
    rw [hcaptured, if_pos rfl]
    exact hc.fits
  · intro id e he
    rw [hcaptured, h.captured id e he]
    cases hd : t.job.captured? job with
    | none => simp
    | some data =>
      -- a task that captures now has not saved anything before
      have hne : t.number ≠ e.task := by
        intro heq
        have hnil := hc.first data hd
        rw [heq, h.captured id e he] at hnil
        cases hnil
      simp [hne]
  · intro n (hle : c.issued ≤ n)
    rw [hcaptured, h.unused n hle, if_neg (by omega)]
    rfl
  · intro id
    rw [h.told_append ?_]
    · exact foldl_captured ..
    · intro f hf
      obtain ⟨data, -, rfl⟩ := Option.map_eq_some_iff.1 (Option.mem_toList.1 hf)
      rfl

/-! ### Ends of tasks -/

/-- A task ends that has nothing to tell about slots. -/
theorem silent (h : Kept lists c fs k) {t : Task} (ht : c.holder = some t)
    (heffect : ∀ n, t.job.effect n k = k) {active : Option (SlotInfo × Snapshot)}
    (hactive : ∀ info data, active = some (info, data) → k.Reads info.id info data) :
    Kept lists { c with holder := none, active } fs k := by
  have hstored := (h.inOrder ht).stored
  rw [heffect] at hstored
  exact ⟨h.sound, h.names, hstored, fun _ hu => (by cases hu), h.filed, h.captured, h.unused, hactive, h.told⟩

/-- A save reports success. What it has captured becomes the entry of its slot. -/
theorem saved (h : Kept lists c fs k) {t : Task} (ht : c.holder = some t) {info : SlotInfo} {data : Snapshot}
    (hown : capturedBy fs t.number = [data]) (heffect : ∀ n, t.job.effect n k = k.put ⟨n, info, data⟩) :
    Kept lists { c with holder := none, active := some (info, data) } (fs ++ [.saved t.number info.id info])
      (k.put ⟨t.number, info, data⟩) := by
  have hstored := (h.inOrder ht).stored
  rw [heffect] at hstored
  have hcaptured := capturedBy_concat (f := .saved t.number info.id info) (fun _ _ => by simp) fs
  refine ⟨h.sound, h.names, hstored, fun _ hu => (by cases hu), h.filed.put _, ?_, ?_, ?_, ?_⟩
  · intro id e he
    rw [hcaptured]
    rcases Contents.put_eq_some he with ⟨-, rfl⟩ | he
    · exact hown
    · exact h.captured id e he
  · intro n hle
    rw [hcaptured]
    exact h.unused n hle
  · intro info' data' ha
    cases ha
    exact ⟨_, if_pos rfl, rfl, .inl rfl⟩
  · intro id
    rw [h.told_append (by simp [Fact.clears])]
    by_cases hid : info.id = id
    · simp [Fact.replay, Contents.put, hid]
    · simp [Fact.replay, Contents.put, hid, Ne.symm hid]

/-- The active slot is not one of those that are removed, so it is still there. -/
theorem reads_filter (h : Kept lists c fs k) {ids : List SlotId} {stays : SlotInfo × Snapshot → Bool}
    (hstays : ∀ pair, stays pair = true → pair.1.id ∉ ids) (info : SlotInfo) (data : Snapshot)
    (ha : c.active.filter stays = some (info, data)) : (k.remove ids).Reads info.id info data := by
  obtain ⟨ha, hnot⟩ := Option.filter_eq_some_iff.1 ha
  exact (h.active info data ha).remove (hstays _ hnot)

/-- A delete-all reports success. -/
theorem cleared (h : Kept lists c fs k) {t : Task} (ht : c.holder = some t) {ids : List SlotId}
    (heffect : ∀ n, t.job.effect n k = k.remove ids) (hall : k.All lists ids) :
    Kept lists { c with holder := none, active := c.active.filter fun pair => !ids.contains pair.1.id }
      (fs ++ [.cleared]) (k.remove ids) := by
  have hstored := (h.inOrder ht).stored
  rw [heffect] at hstored
  have hcaptured := capturedBy_concat (f := .cleared) (fun _ _ => by simp) fs
  refine ⟨h.sound, h.names, hstored, fun _ hu => (by cases hu), h.filed.remove ids, ?_, ?_,
    h.reads_filter fun pair hp => by simpa using hp, ?_⟩
  · intro id e he
    rw [hcaptured]
    exact h.captured id e (Contents.remove_eq_some.1 he).2
  · intro n hle
    rw [hcaptured]
    exact h.unused n hle
  · intro id
    rw [counted_append, lastSave_append, h.told]
    cases lists with
    | true =>
      rw [hall.1 rfl id]
      rfl
    | false =>
      rw [hall.2 rfl, Contents.remove, if_neg List.not_mem_nil]
      rfl

/-- What a task that has ended tells goes into the contents. -/
theorem ended (h : Kept lists c fs k) {t : Task} {job : Job} {state : TaskState} {p : Preset} {now : Instant}
    {w w' : World} {r : TaskResult} (ht : c.holder = some t)
    (hstep : t.job.advance t.filter p now w = (job, w', some r)) :
    ∃ k', Kept lists { c with holder := none, active := Manager.activeAfter c.active r }
      (fs ++ (Task.reported? { t with job, state } (r.map Outcome.value)).toList) k' := by
  have hsubject : job.subject = t.job.subject := by
    have hs := Job.subject_advance t.job t.filter p now w
    rwa [hstep] at hs
  have hkind : job.kind = t.job.kind := congrArg Prod.fst hsubject
  have htarget : job.target? = t.job.target? := congrArg Prod.snd hsubject
  -- what is reported depends on what kind of task has ended and how, and so do the contents
  cases (h.fits t ht).ending hstep with
  | @failed e heffect =>
    have htells : Task.reported? { t with job, state } (.error e) = none := by
      unfold Task.reported?
      split <;> first | rfl | next hr => cases hr
    refine ⟨k, ?_⟩
    simp only [Except.map, htells, Option.toList_none, List.append_nil]
    exact h.silent ht heffect h.active
  | @told o hk heffect hsame =>
    have htells : Task.reported? { t with job, state } (.ok o.value) = none :=
      Task.reported_of_unlocked (by simp [Task.locks, Task.kind, hkind, hk]) _
    refine ⟨k, ?_⟩
    simp only [Except.map, htells, Option.toList_none, List.append_nil, hsame]
    exact h.silent ht heffect h.active
  | @saved info data hk hslot hown heffect =>
    have htells : Task.reported? { t with job, state } (.ok (.info info)) =
        some (.saved t.number info.id info) := by
      simp only [Task.reported?, Task.kind, Task.target?, hkind, hk, htarget, hslot]
    refine ⟨k.put ⟨t.number, info, data⟩, ?_⟩
    simp only [Except.map, Outcome.value, htells, Option.toList_some]
    exact h.saved ht hown heffect
  | @loaded slot info data hk hslot heffect hreads =>
    have htells : Task.reported? { t with job, state } (.ok (.info info)) = none := by
      simp only [Task.reported?, Task.kind, hkind, hk]
    refine ⟨k, ?_⟩
    simp only [Except.map, Outcome.value, htells, Option.toList_none, List.append_nil]
    refine h.silent ht heffect ?_
    intro info' data' ha
    cases ha
    obtain ⟨e, he, rfl, hd⟩ := hreads
    exact ⟨e, by rwa [h.filed slot e he], rfl, hd⟩
  | @deleted ids hk heffect hall =>
    have htells : Task.reported? { t with job, state } (.ok (.ids ids)) = some .cleared := by
      simp only [Task.reported?, Task.kind, hkind, hk]
    refine ⟨k.remove ids, ?_⟩
    simp only [Except.map, Outcome.value, htells, Option.toList_some]
    exact h.cleared ht heffect hall

/-! ### Deletions -/

theorem deleted (h : Kept lists c fs k) {slot : SlotId} {s : σ}
    (hfree : ∀ t, c.holder = some t → t.guards slot = false)
    (hd : SlotStore.delete c.store slot = (.ok (), s)) :
    Kept lists { c with store := s, active := c.active.filter fun pair => pair.1.id ≠ slot }
      (fs ++ [.deleted slot]) (k.remove [slot]) := by
  obtain ⟨hsound, hslots⟩ := Reliable.delete_ok h.sound hd
  have hnames : Reliable.lists s = lists := by
    have hs := Reliable.lists_delete c.store slot
    rw [hd] at hs
    exact hs.trans h.names
  have hcaptured := capturedBy_concat (f := .deleted slot) (fun _ _ => by simp) fs
  -- the holder has nothing to do with the slot, so the store is ahead of the contents by the same as before
  have hholder : ∀ t, c.holder = some t →
      t.job.Fits lists (capturedBy fs t.number) (k.remove [slot]) ∧
        t.job.effect t.number (k.remove [slot]) = (t.job.effect t.number k).remove [slot] := by
    intro t ht
    obtain ⟨hall, hown⟩ := Task.guards_eq_false.1 (hfree t ht)
    obtain ⟨hf, he⟩ := (h.fits t ht).remove hall hown
    exact ⟨hf, he t.number⟩
  have hcontents : Scene.contents { c with store := s, active := c.active.filter fun pair => pair.1.id ≠ slot }
      (k.remove [slot]) = (c.contents k).remove [slot] := by
    simp only [Scene.contents]
    split
    · next t ht => exact (hholder t ht).2
    · rfl
  refine ⟨hsound, hnames, ?_, ?_, h.filed.remove _, ?_, ?_,
    h.reads_filter fun pair hp => by simpa using hp, ?_⟩
  · rw [hcontents]
    exact h.stored.remove fun id => by simp [hslots]
  · intro t ht
    rw [hcaptured]
    exact (hholder t ht).1
  · intro id e he
    rw [hcaptured]
    exact h.captured id e (Contents.remove_eq_some.1 he).2
  · intro n hle
    rw [hcaptured]
    exact h.unused n hle
  · intro id
    rw [h.told_append (by simp [Fact.clears])]
    by_cases hid : slot = id
    · simp [Fact.replay, Contents.remove, hid]
    · simp [Fact.replay, Contents.remove, hid, Ne.symm hid]

/-! ### All that can happen -/

/-- What a shift preserves. -/
theorem shift (h : Kept lists c fs k) (hs : Shift allowed c facts c')
    (hallowed : ∀ s s', allowed s s' → SameSlots s s') : ∃ k', Kept lists c' (fs ++ facts) k' := by
  cases hs with
  | still => exact ⟨k, by rwa [List.append_nil]⟩
  | listed =>
    refine ⟨k, ?_⟩
    rw [List.append_nil]
    exact { h with unused := fun n hle => h.unused n (Nat.le_of_succ_le hle) }
  | begun hnone hn hfresh hpos =>
    exact ⟨k, by rw [List.append_nil]; exact h.begun hnone hn hfresh hpos⟩
  | offered ht ho =>
    have hin := h.inOrder ht
    have hstored := hin.stored
    rw [← Job.effect_offered ho] at hstored
    exact ⟨k, by rw [List.append_nil]; exact h.holder ⟨hin.sound, hin.names, hstored, hin.fits.offered ho⟩⟩
  | stepped ht hn hstep => exact ⟨k, h.stepped ht hn hstep⟩
  | ended ht hstep => exact h.ended ht hstep
  | @worked t ht =>
    have hin := (h.inOrder ht).runWork
    exact ⟨k, by rw [List.append_nil]; exact h.holder (t := (t.runWork c.store).1) hin⟩
  | @lost t ht =>
    have hin := h.inOrder ht
    have hstored := hin.stored
    rw [← Job.effect_loseWork] at hstored
    exact ⟨k, by
      rw [List.append_nil]
      exact h.holder (t := t.loseWork) ⟨hin.sound, hin.names, hstored, hin.fits.loseWork⟩⟩
  | deleted hfree hd => exact ⟨_, h.deleted hfree hd⟩
  | @missed slot s e hd =>
    have hsame := Reliable.delete_error h.sound hd
    exact ⟨k, by rw [List.append_nil, hsame]; exact h⟩
  | @disturbed s ha =>
    have hsame := hallowed _ _ ha
    refine ⟨k, ?_⟩
    rw [List.append_nil]
    exact { h with
      sound := hsame.sound h.sound
      names := hsame.lists.trans h.names
      stored := fun id => (hsame.slots id).trans (h.stored id) }

end Kept

end SaveSlots
