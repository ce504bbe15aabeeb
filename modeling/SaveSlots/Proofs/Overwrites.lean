import SaveSlots.Proofs.Cleared
import SaveSlots.Proofs.Loading
import SaveSlots.Proofs.Saved
/-!
# Saves that overwrite nothing

A save that must not overwrite looks for its slot when it is asked for, and is written any number of moves later. What
keeps the slot free in between is that nobody else saves: tasks that lock the manager keep each other away, also once
they are adrift (`Game.Sole`), and a deletion brings no slot back.

`Vacant` says that a slot is free as long as its save has not been written. A request that is accepted makes it so,
every move keeps it so (`Vacant.step`), and hence so does every run. `save_overwrites_nothing` is the main theorem.
-/

namespace SaveSlots

/-! ## Saves that have not been written -/

/-- Whether what a save has written down or given away is for a slot. -/
def SavePhase.IsFor (slot : SlotId) : SavePhase → Prop
  | start => True
  | capture info => info.id = slot
  | writing work => ∀ pair, work.work? = some pair → pair.1.id = slot

namespace Job

/-- Whether a job is a save that the store has not been handed yet. -/
def isUnwritten : Job → Bool
  | save j =>
    match j.phase with
    | .start | .capture _ => true
    | .writing work => work.inFlight
  | load _ | info .. | infos .. | deleteAll _ => false

/-- Whether a job saves to a slot, and has nothing for another one. -/
def SavesTo (slot : SlotId) (j : Job) : Prop := ∃ sj, j = .save sj ∧ sj.slot = slot ∧ sj.phase.IsFor slot

variable {σ : Type} [SlotStore σ] {j j' : Job} {slot : SlotId} {s : σ}

theorem isFor_capture {j : SaveJob} {info : SlotInfo} (h : info.id = slot) (f : SaveFilter) (w : World) :
    (j.capture f info w).1.phase.IsFor slot := by
  rcases capture_cases j f info w with he | ⟨info', data, unloaded, hid, he⟩
  · rw [he]
    exact h
  · rw [he]
    intro pair hpair
    cases hpair
    exact hid.trans h

theorem isFor_advance {j : SaveJob} (h : j.phase.IsFor j.slot) (f : SaveFilter) (now : Instant) (version : String)
    (w : World) : (j.advance f now version w).1.phase.IsFor j.slot := by
  obtain ⟨slot, name, shot, unloaded, phase⟩ := j
  cases phase with
  | start => exact isFor_capture rfl ..
  | capture info => exact isFor_capture h ..
  | writing work => cases work <;> exact h

theorem SavesTo.moved (h : j.SavesTo slot) (hm : Moved σ j j') : j'.SavesTo slot := by
  obtain ⟨⟨slot, name, shot, unloaded, phase⟩, rfl, rfl, hfor⟩ := h
  cases hm with
  | same => exact ⟨_, rfl, rfl, hfor⟩
  | advanced f p now w => exact ⟨_, rfl, SaveJob.slot_advance .., isFor_advance hfor ..⟩
  | ready hr => cases hr
  | unloading hu =>
    rcases offered_cases (.inr ⟨_, _, _, hu⟩) with ⟨_, _, _, _, _, he, -⟩ | ⟨_, _, _, _, _, _, he, rfl, -⟩
    · cases he
    · cases he
      exact ⟨_, rfl, rfl, hfor⟩
  | worked s =>
    cases phase with
    | start | capture => exact ⟨_, rfl, rfl, hfor⟩
    | writing work =>
      simp only [runWork]
      split
      · exact ⟨_, rfl, rfl, fun pair hpair => hfor pair (work.work_hold ▸ hpair)⟩
      · refine ⟨_, rfl, rfl, fun pair hpair => ?_⟩
        rw [Handle.work_runOn] at hpair
        cases hpair
  | lost =>
    cases phase with
    | start | capture => exact ⟨_, rfl, rfl, hfor⟩
    | writing work =>
      refine ⟨_, rfl, rfl, fun pair hpair => ?_⟩
      rw [Handle.work_abandon] at hpair
      cases hpair

/-- What a save gives away is for its slot. -/
theorem SavesTo.given (h : j.SavesTo slot) {pair : SlotInfo × Snapshot} (hg : j.given? = some pair) :
    pair.1.id = slot := by
  obtain ⟨⟨slot, name, shot, unloaded, phase⟩, rfl, rfl, hfor⟩ := h
  cases phase with
  | start | capture => cases hg
  | writing work => exact hfor pair hg

theorem isUnwritten_of_given {pair : SlotInfo × Snapshot} (h : j.given? = some pair) : j.isUnwritten = true := by
  cases j with
  | save j =>
    obtain ⟨slot, name, shot, unloaded, phase⟩ := j
    cases phase with
    | start | capture => rfl
    | writing work => cases work <;> first | rfl | cases h
  | load | info | infos | deleteAll => cases h

namespace SavesTo

/-- A save that was written or given up stays so. -/
theorem isUnwritten_of_moved (hs : j.SavesTo slot) (hm : Moved σ j j') (h : j'.isUnwritten = true) :
    j.isUnwritten = true := by
  obtain ⟨⟨slot, name, shot, unloaded, phase⟩, rfl, rfl, -⟩ := hs
  cases phase with
  | start | capture => rfl
  | writing work =>
    cases hm with
    | same => exact h
    | advanced => cases work <;> first | rfl | cases h
    | ready hr => cases hr
    | unloading hu => cases hu
    | worked s =>
      simp only [runWork] at h
      split at h <;> cases work <;> first | rfl | cases h
    | lost => cases work <;> cases h

/-- Work that leaves a save unwritten leaves the store as it is. -/
theorem store_of_isUnwritten (hs : j.SavesTo slot) (h : (j.runWork s).1.isUnwritten = true) :
    (j.runWork s).2 = s := by
  obtain ⟨⟨slot, name, shot, unloaded, phase⟩, rfl, rfl, -⟩ := hs
  cases phase with
  | start | capture => rfl
  | writing work =>
    simp only [runWork] at h ⊢
    split at h
    · next hgate => rw [if_pos hgate]
    · cases work <;> cases h

/-- So does the work of a save that has nothing to hand over, or finds the gate closed. -/
theorem store_of_idle (hs : j.SavesTo slot) (h : j.given? = none ∨ SlotStore.writesHeld s = true) :
    (j.runWork s).2 = s := by
  obtain ⟨⟨slot, name, shot, unloaded, phase⟩, rfl, rfl, -⟩ := hs
  cases phase with
  | start | capture => rfl
  | writing work =>
    simp only [runWork]
    split
    · rfl
    · next hopen =>
      have hnone : work.work? = none := h.resolve_right hopen
      rw [Handle.runOn_none hnone]

end SavesTo

end Job

/-! ## One save at a time -/

variable {σ : Type} [SlotStore σ] {g : Game σ}

/-- Whether tasks that lock the manager keep each other away, also when they are adrift. -/
def Game.Sole (g : Game σ) : Prop :=
  ∀ t ∈ g.everyTask, ∀ u ∈ g.everyTask, t.locks = true → u.locks = true → t.number = u.number

theorem Task.Moved.locks_eq {t t' : Task} (h : t.Moved σ t') : t'.locks = t.locks := by
  simp only [Task.locks, Task.kind, Job.kind_moved h.2]

namespace Orderly

omit [SlotStore σ] in
/-- A manager that runs has one holder. -/
theorem sole_of_running (h : Orderly g) (hr : g.manager.running = true) : g.Sole := by
  intro t ht u hu hlt hlu
  rw [Game.everyTask, h.moored hr, List.append_nil] at ht hu
  have hsame := (h.holder_of_locks ht hlt).symm.trans (h.holder_of_locks hu hlu)
  cases hsame
  rfl

/-- A manager that has stopped makes no tasks. -/
theorem old_of_stopped (h : Orderly g) {m : Move σ} (hr : (g.step m).manager.running = false) {t' : Task}
    (ht : t' ∈ (g.step m).everyTask) : ∃ t ∈ g.everyTask, t.Moved σ t' := by
  rcases Game.mem_step h ht with hold | ⟨hmade, -⟩
  · exact hold
  · obtain ⟨r, now, m', hmove, -, hreq⟩ := Turn.request_of_made hmade
    obtain rfl : m = .request r now := hmove
    obtain ⟨ha, -, -, rfl⟩ := Manager.request_ok hreq
    simp only at hreq
    simp only [Game.step, hreq] at hr
    rw [ha.running] at hr
    cases hr

theorem sole_step (h : Orderly g) (hs : g.Sole) (m : Move σ) : (g.step m).Sole := by
  cases hr : (g.step m).manager.running with
  | true => exact (h.step m).sole_of_running hr
  | false =>
    intro t' ht' u' hu' hlt hlu
    obtain ⟨t, ht, htm⟩ := h.old_of_stopped hr ht'
    obtain ⟨u, hu, hum⟩ := h.old_of_stopped hr hu'
    rw [htm.1, hum.1]
    exact hs t ht u hu (htm.locks_eq ▸ hlt) (hum.locks_eq ▸ hlu)

theorem sole_run (h : Orderly g) (hs : g.Sole) (ms : List (Move σ)) : (g.run ms).Sole := by
  induction ms generalizing g with
  | nil => exact hs
  | cons m ms ih => exact ih (h.step m) (h.sole_step hs m)

/-- While a save is under way, nobody else's work changes the store. -/
theorem store_work_other (h : Orderly g) (hs : g.Sole) {t : Task} (ht : t ∈ g.everyTask) (hl : t.locks = true)
    {n : Nat} (hn : t.number ≠ n) : (g.step (.work n)).store = g.store := by
  refine h.store_work_same fun u hu _ hun => ?_
  have hul : u.locks = false := by
    cases hul : u.locks with
    | false => rfl
    | true => exact absurd ((hs t ht u hu hl hul).trans hun) hn
  exact u.runWork_of_unlocked hul g.store

end Orderly

/-! ## Slots that are free for a save -/

/-- Whether others bring no slot into a store. -/
def NoneAdded (s s' : σ) : Prop := ∀ id, SlotStore.holds s' id = true → SlotStore.holds s id = true

/-- A slot that is not there as long as the save with a number has not been written to it. -/
structure Vacant (n : Nat) (slot : SlotId) (g : Game σ) : Prop where
  saves : Numbered n (Job.SavesTo slot) g
  free : ∀ t ∈ g.everyTask, t.number = n → t.job.isUnwritten = true → SlotStore.holds g.store slot = false

/-- Whatever happens while a save is under way, but for its own work, brings no slot into the store. -/
theorem Orderly.holds_step [Deletes σ] (h : Orderly g) (hs : g.Sole) {t : Task} (ht : t ∈ g.everyTask)
    (hl : t.locks = true) {m : Move σ} (hm : m ≠ .work t.number)
    (hallowed : ∀ s, m = .disturb s → NoneAdded g.store s) {id : SlotId}
    (hid : SlotStore.holds (g.step m).store id = true) : SlotStore.holds g.store id = true := by
  cases m with
  | request r now =>
    simp only [Game.step] at hid
    split at hid <;> exact hid
  | delete slot =>
    have hstore : (g.step (.delete slot)).store = (g.manager.deleteSlot g.store slot).2.2 := rfl
    rw [hstore] at hid
    rcases g.manager.deleteSlot_cases g.store slot with ⟨e, he⟩ | ⟨-, ⟨e, e', s', hd, he⟩ | ⟨s', hd, he⟩⟩
    · rwa [he] at hid
    · rw [he] at hid
      exact Deletes.holds_of_delete slot (by rwa [hd])
    · rw [he] at hid
      exact Deletes.holds_of_delete slot (by rwa [hd])
  | work n =>
    have hn : t.number ≠ n := fun hn => hm (hn ▸ rfl)
    rwa [h.store_work_other hs ht hl hn] at hid
  | disturb s => exact hallowed s rfl id hid
  | tick | regionReady | regionUnloading | subscribe | unsubscribe | currentInfo | currentData | deinitialize | lose
  | visit => exact hid

theorem Job.SavesTo.locks {slot : SlotId} {t : Task} (h : t.job.SavesTo slot) : t.locks = true := by
  obtain ⟨sj, hj, -, -⟩ := h
  simp [Task.locks, Task.kind, hj, Job.kind]

namespace Vacant

variable [Deletes σ] {n : Nat} {slot : SlotId}

theorem step (h : Vacant n slot g) (ho : Orderly g) (hs : g.Sole) {m : Move σ}
    (hallowed : ∀ s, m = .disturb s → NoneAdded g.store s) : Vacant n slot (g.step m) := by
  refine ⟨h.saves.step Job.SavesTo.moved ho m, fun t' ht' hn hunwritten => ?_⟩
  by_cases hm : m = .work n
  · subst hm
    obtain ⟨u, hu, rfl⟩ := ho.task_work ht' hn
    have hmem := List.mem_of_find?_eq_some hu
    have hun : u.number = n := by simpa using List.find?_some hu
    have hsaves := h.saves.jobs u hmem hun
    -- work that has not come to the store yet stands behind the gate
    have hsame : (u.job.runWork g.store).2 = g.store := hsaves.store_of_isUnwritten hunwritten
    rw [ho.store_work hu, hsame]
    exact h.free u hmem hun (hsaves.isUnwritten_of_moved (.worked g.store) hunwritten)
  · rcases Game.mem_step ho ht' with ⟨t, ht, hnumber, hmoved⟩ | ⟨-, hnew⟩
    · have htn : t.number = n := hnumber ▸ hn
      have hsaves := h.saves.jobs t ht htn
      have hfree := h.free t ht htn (hsaves.isUnwritten_of_moved hmoved hunwritten)
      cases hholds : SlotStore.holds (g.step m).store slot with
      | false => rfl
      | true =>
        have hthere := ho.holds_step hs ht hsaves.locks (htn ▸ hm) hallowed hholds
        rw [hfree] at hthere
        cases hthere
    · have hlt := h.saves.issued
      omega

theorem run (h : Vacant n slot g) (ho : Orderly g) (hs : g.Sole) {ms : List (Move σ)}
    (hallowed : g.LeftAlone NoneAdded ms) : Vacant n slot (g.run ms) := by
  induction ms generalizing g with
  | nil => exact h
  | cons m ms ih =>
    have hnow : ∀ s, m = .disturb s → NoneAdded g.store s := hallowed ⟨g, m⟩ (by simp [Game.trace])
    exact ih (h.step ho hs hnow) (ho.step m) (ho.sole_step hs m) fun x hx => hallowed x (List.mem_cons_of_mem _ hx)

omit [Deletes σ] in
/-- The turn in which a save is accepted that must not overwrite finds its slot free. -/
theorem of_made {x : Turn σ} (h : Orderly x.game) {shot : Option ScreenshotSize} {now : Instant} {t : Task}
    (hm : x.move = .request (.save slot false shot) now) (ht : x.made? = some t) :
    Vacant t.number slot x.after := by
  obtain ⟨r, now', m, hmove, hjob, hreq⟩ := Turn.request_of_made ht
  obtain ⟨rfl, rfl⟩ : r = .save slot false shot ∧ now' = now := by simpa using hmove.symm.trans hm
  obtain ⟨-, -, -, hnew, hj⟩ := Manager.saveJob_ok hjob
  obtain ⟨ha, hnumber, -, rfl⟩ := Manager.request_ok hreq
  have hafter : x.after = { x.game with manager :=
      { x.game.manager with tasks := x.game.manager.tasks ++ [t], issued := x.game.manager.issued + 1 } } := by
    simp only [Turn.after, hm, Game.step, hreq]
  have hgone : SlotStore.holds x.game.store slot = false := by
    unfold Manager.checkNew at hnew
    split at hnew
    · cases hnew
    · next hno => simpa using hno
  rw [hafter]
  refine ⟨⟨by simp [hnumber], fun u hu hn => ?_⟩, fun _ _ _ _ => hgone⟩
  -- the numbers of all other tasks were issued before
  simp only [Game.everyTask, h.moored ha.running, List.append_nil] at hu
  rcases List.mem_append.1 hu with hu | hu
  · have hlt := h.issued u hu
    omega
  · rw [List.mem_singleton.1 hu, hj]
    exact ⟨_, rfl, rfl, trivial⟩

end Vacant

/-- Whether a task was made by a save to a slot that must not overwrite it. -/
def SavesNew (turns : List (Turn σ)) (n : Nat) (slot : SlotId) : Prop :=
  ∃ x ∈ turns, ∃ shot now t, x.move = .request (.save slot false shot) now ∧ x.made? = some t ∧ t.number = n

theorem Game.LeftAlone.right {allowed : σ → σ → Prop} {ms ms' : List (Move σ)}
    (h : g.LeftAlone allowed (ms ++ ms')) : (g.run ms).LeftAlone allowed ms' := by
  intro x hx
  refine h x ?_
  rw [Game.trace_append]
  exact List.mem_append_right _ hx

/-- The slot of a save that must not overwrite is free until it is written. -/
theorem Orderly.vacant [Deletes σ] (h : Orderly g) (hs : g.Sole) {ms : List (Move σ)} {n : Nat} {slot : SlotId}
    (hn : SavesNew (g.trace ms) n slot) (hallowed : g.LeftAlone NoneAdded ms) : Vacant n slot (g.run ms) := by
  obtain ⟨x, hx, shot, now, t, hm, ht, rfl⟩ := hn
  obtain ⟨before, rest, hsplit⟩ := List.append_of_mem hx
  obtain ⟨ms₁, ms₂, rfl, -, hg, -⟩ := Game.trace_split hsplit
  have hrun : g.run (ms₁ ++ x.move :: ms₂) = x.after.run ms₂ := by
    rw [Game.run_append, ← hg]
    rfl
  have hafter : x.after = g.run (ms₁ ++ [x.move]) := by
    rw [Game.run_append, ← hg]
    rfl
  rw [hrun]
  refine (Vacant.of_made (hg ▸ h.run ms₁) hm ht).run ?_ ?_ ?_
  · exact hafter ▸ h.run _
  · exact hafter ▸ h.sole_run hs _
  · rw [hafter]
    exact Game.LeftAlone.right (by simpa using hallowed)

/-- As long as nobody else brings slots into the store, a save that must not overwrite does not. Whatever happens
between its request and its write, whenever its work is done, either nothing comes of it yet and the store stays as it
is, or the snapshot is handed to the store under the slot of the request, and the store has no such slot at that
moment. -/
theorem save_overwrites_nothing [Deletes σ] (p : Preset) (s : σ) (w : World) {ms : List (Move σ)}
    {before after : List (Turn σ)} {x : Turn σ} {n : Nat} {slot : SlotId}
    (hallowed : (Game.new p s w).LeftAlone NoneAdded ms)
    (hs : (Game.new p s w).trace ms = before ++ x :: after) (hn : SavesNew before n slot) (hm : x.move = .work n) :
    (x.handed? n = none ∧ x.after.store = x.game.store) ∨
    ∃ info data, x.handed? n = some (info, data) ∧ info.id = slot ∧
      SlotStore.holds x.game.store slot = false ∧
      x.after.store = (SlotStore.write x.game.store info data.encode).2 := by
  have h := orderly_new p s w
  obtain ⟨ms₁, ms₂, rfl, rfl, hg, -⟩ := Game.trace_split hs
  have ho : Orderly x.game := hg ▸ h.run ms₁
  have hvacant : Vacant n slot x.game := hg ▸ h.vacant (h.sole_of_running rfl) hn hallowed.left
  cases hh : x.handed? n with
  | some pair =>
    obtain ⟨info, data⟩ := pair
    obtain ⟨-, -, t, ht, hgiven⟩ := Turn.handed_eq_some hh
    have hmem := List.mem_of_find?_eq_some ht
    have htn : t.number = n := by simpa using List.find?_some ht
    refine .inr ⟨info, data, rfl, (hvacant.saves.jobs t hmem htn).given hgiven, ?_, Turn.store_handed ho hh⟩
    exact hvacant.free t hmem htn (Job.isUnwritten_of_given hgiven)
  | none =>
    refine .inl ⟨rfl, ?_⟩
    rw [Turn.after, hm]
    refine ho.store_work_same fun t hmem ht htn => (hvacant.saves.jobs t hmem htn).store_of_idle ?_
    simp only [Turn.handed?, hm, true_and, ht, Option.bind_some] at hh
    split at hh
    · exact .inl hh
    · next hgate => exact .inr (by simpa using hgate)

/-- A run in which the write of a save waits behind a closed gate. -/
def savingHeld : List (Move MemoryStore) :=
  [.disturb { MemoryStore.empty with gateOpen := false }, .request (.save 1 false none) .epoch, .tick .epoch,
    .work 0, .disturb .empty, .work 0]

/-- The write goes through once the gate is open, and puts a slot where there was none. -/
theorem save_overwrites_nothing_held :
    let g := Game.new .default MemoryStore.empty (World.new "harbor")
    let x : Turn MemoryStore := ⟨g.run (savingHeld.take 5), .work 0⟩
    (∃ info data, x.handed? 0 = some (info, data) ∧ info.id = 1) ∧
      x.game.store.holds 1 = false ∧ x.after.store.holds 1 = true := by
  intro g x
  have hallowed : g.LeftAlone NoneAdded savingHeld := by
    intro t ht s hm
    simp only [savingHeld, Game.trace, List.mem_cons, List.not_mem_nil, or_false] at ht
    rcases ht with rfl | rfl | rfl | rfl | rfl | rfl <;> cases hm
    all_goals exact fun id hid => hid
  have hnew : SavesNew (g.trace (savingHeld.take 5)) 0 1 :=
    ⟨⟨g.run (savingHeld.take 1), .request (.save 1 false none) .epoch⟩, by simp [savingHeld, Game.trace, Game.run],
      none, .epoch, _, rfl, rfl, rfl⟩
  have hs : g.trace savingHeld = g.trace (savingHeld.take 5) ++ x :: [] := rfl
  rcases save_overwrites_nothing .default MemoryStore.empty (World.new "harbor") hallowed hs hnew rfl with
    ⟨hnone, -⟩ | ⟨info, data, hhanded, hid, hfree, -⟩
  · cases hnone
  · exact ⟨⟨info, data, hhanded, hid⟩, hfree, by decide⟩

end SaveSlots
