import Mathlib.Data.List.Induction
import SaveSlots.Proofs.Holder
/-!
# The course of a task

A task that locks the manager holds it from its request to its end. `Orderly.holder_step` says what each
move makes of the holder (`Game.carried`), and `made_of_holder` that only a request brings a new one.
`Game.Carries` lists what can become of the job of a holder on the way.
`Orderly.course` turns this into a rule for runs: what holds when a holder begins, and is kept as it is
carried on, holds of every holder and all that has happened so far.

A tick changes the world as the holder does (`world_tick`), and regions are offered to the holder alone
(`ready_cases`, `unloading_cases`).
-/

namespace SaveSlots

/-! ## Jobs -/

namespace Task

variable {t : Task}

theorem job_of_save (h : t.kind = .save) : ∃ j, t.job = .save j := by
  unfold kind at h
  cases hj : t.job <;> simp_all [Job.kind]

theorem job_of_load (h : t.kind = .load) : ∃ j, t.job = .load j := by
  unfold kind at h
  cases hj : t.job <;> simp_all [Job.kind]

theorem job_of_deleteAll (h : t.kind = .deleteAll) : ∃ phase, t.job = .deleteAll phase := by
  unfold kind at h
  cases hj : t.job <;> simp_all [Job.kind]

end Task

/-! ## Offers -/

namespace Task

theorem locks_of_streams {t : Task} (h : t.streams = true) : t.locks = true := by
  revert h
  unfold streams locks
  cases t.kind <;> simp

theorem streams_of_unlocked {t : Task} (h : t.locks = false) : t.streams = false := by
  cases hs : t.streams with
  | false => rfl
  | true =>
    rw [locks_of_streams hs] at h
    cases h

theorem streams_of_regionReady {t : Task} {f : SaveFilter} {region : String} {w : World}
    (h : (t.job.regionReady? f region w).isSome = true) : t.streams = true := by
  unfold streams kind
  cases hj : t.job <;> first | rfl | simp [hj, Job.regionReady?] at h

theorem streams_of_regionUnloading {t : Task} {f : SaveFilter} {region : String} {w : World}
    (h : (t.job.regionUnloading? f region w).isSome = true) : t.streams = true := by
  unfold streams kind
  cases hj : t.job <;> first | rfl | simp [hj, Job.regionUnloading?] at h

end Task

theorem Manager.streams_of_streamingTask {m : Manager} {t : Task} (h : m.streamingTask? = some t) :
    t.streams = true := by
  have hs := List.find?_some h
  exact (Bool.and_eq_true_iff.1 hs).1

namespace Orderly

variable {σ : Type} {g : Game σ}

theorem streamingTask_eq (h : Orderly g) {t : Task} (hh : g.manager.holder? = some t) (hs : t.streams = true) :
    g.manager.streamingTask? = some t := by
  have ht : t ∈ g.manager.tasks := List.mem_of_find?_eq_some hh
  cases hu : g.manager.streamingTask? with
  | none =>
    have hno := List.find?_eq_none.1 hu t ht
    simp [hs, h.live t ht] at hno
  | some u =>
    have hlocks := Task.locks_of_streams (Manager.streams_of_streamingTask hu)
    rw [h.holder_of_locks (Manager.mem_streamingTask hu) hlocks] at hh
    exact hh

theorem holder_of_streamingTask (h : Orderly g) {t : Task} (ht : g.manager.streamingTask? = some t) :
    g.manager.holder? = some t :=
  h.holder_of_locks (Manager.mem_streamingTask ht) (Task.locks_of_streams (Manager.streams_of_streamingTask ht))

/-- A region that is announced goes to the holder if it has a use for it, and else to nobody. -/
theorem ready_cases (h : Orderly g) (region : String) :
    (∃ r, g.manager.regionReady region g.world = (false, { g.manager with regions := r }, g.world) ∧
      ∀ t, g.manager.holder? = some t → t.job.regionReady? t.filter region g.world = none) ∨
    ∃ r t job w', g.manager.holder? = some t ∧ t.job.regionReady? t.filter region g.world = some (job, w') ∧
      g.manager.regionReady region g.world =
        (true, { g.manager.putTask { t with job } with regions := r }, w') := by
  rcases g.manager.regionReady_cases region g.world with ⟨r, he, hno⟩ | ⟨r, t, job, w', ht, hj, he⟩
  · refine .inl ⟨r, he, fun t hh => ?_⟩
    cases hj : t.job.regionReady? t.filter region g.world with
    | none => rfl
    | some p =>
      have hs := Task.streams_of_regionReady (t := t) (by rw [hj]; rfl)
      rw [← hj]
      exact hno t (h.streamingTask_eq hh hs)
  · exact .inr ⟨r, t, job, w', h.holder_of_streamingTask ht, hj, he⟩

/-- So does a region that is about to go. -/
theorem unloading_cases (h : Orderly g) (region : String) :
    (∃ r, g.manager.regionUnloading region g.world = (false, { g.manager with regions := r }) ∧
      ∀ t, g.manager.holder? = some t → t.job.regionUnloading? t.filter region g.world = none) ∨
    ∃ r t job, g.manager.holder? = some t ∧ t.job.regionUnloading? t.filter region g.world = some job ∧
      g.manager.regionUnloading region g.world =
        (true, { g.manager.putTask { t with job } with regions := r }) := by
  rcases g.manager.regionUnloading_cases region g.world with ⟨r, he, hno⟩ | ⟨r, t, job, ht, hj, he⟩
  · refine .inl ⟨r, he, fun t hh => ?_⟩
    cases hj : t.job.regionUnloading? t.filter region g.world with
    | none => rfl
    | some p =>
      have hs := Task.streams_of_regionUnloading (t := t) (by rw [hj]; rfl)
      rw [← hj]
      exact hno t (h.streamingTask_eq hh hs)
  · exact .inr ⟨r, t, job, h.holder_of_streamingTask ht, hj, he⟩

end Orderly

/-! ## The holder, move by move -/

/-- What a move makes of the holder, as long as it goes on. -/
def Game.carried {σ : Type} [SlotStore σ] (g : Game σ) (t : Task) : Move σ → Option Task
  | .tick now =>
    let a := t.job.advance t.filter g.manager.preset now g.world
    if a.2.2.isSome then none else some { t with job := a.1, state := .running }
  | .regionReady region =>
    let taken := t.job.regionReady? t.filter region g.world
    some { t with job := (taken.map Prod.fst).getD t.job }
  | .regionUnloading region => some { t with job := (t.job.regionUnloading? t.filter region g.world).getD t.job }
  | .work n => some (if t.number = n then (t.runWork g.store).1 else t)
  | .lose n => some (if t.number = n then t.loseWork else t)
  | Move.deinitialize => none
  | .request .. | .delete _ | .subscribe _ | .unsubscribe _ | .currentInfo | .currentData | .visit _ | .disturb _ =>
    some t

theorem Game.label_carried {σ : Type} [SlotStore σ] {g : Game σ} {t t' : Task} {m : Move σ}
    (h : g.carried t m = some t') : t'.label = t.label := by
  cases m with
  | tick now =>
    simp only [carried] at h
    split at h <;> cases h
    simp only [Task.label, Job.subject_advance]
  | regionReady region =>
    cases h
    cases hj : t.job.regionReady? t.filter region g.world with
    | none => rfl
    | some p => simp only [Task.label, Option.map_some, Option.getD_some, Job.subject_regionReady hj]
  | regionUnloading region =>
    cases h
    cases hj : t.job.regionUnloading? t.filter region g.world with
    | none => rfl
    | some job => simp only [Task.label, Option.getD_some, Job.subject_regionUnloading hj]
  | work n =>
    cases h
    split
    · exact t.label_runWork g.store
    · rfl
  | lose n =>
    cases h
    split
    · exact t.label_loseWork
    · rfl
  | deinitialize => cases h
  | request | delete | subscribe | unsubscribe | currentInfo | currentData | visit | disturb =>
    cases h
    rfl

/-- What a move makes of the job of a holder that goes on. Most moves are no concern of it. -/
inductive Game.Carries {σ : Type} [SlotStore σ] (g : Game σ) (t : Task) : Move σ → Job → Prop
  | advance (now : Instant) (h : (t.job.advance t.filter g.manager.preset now g.world).2.2 = none) :
      Carries g t (.tick now) (t.job.advance t.filter g.manager.preset now g.world).1
  | ready (region : String) {job : Job} {w : World}
      (h : t.job.regionReady? t.filter region g.world = some (job, w)) : Carries g t (.regionReady region) job
  | unloading (region : String) {job : Job} (h : t.job.regionUnloading? t.filter region g.world = some job) :
      Carries g t (.regionUnloading region) job
  | work : Carries g t (.work t.number) (t.job.runWork g.store).1
  | lose : Carries g t (.lose t.number) t.job.loseWork
  | stay {m : Move σ} (tick : ∀ now, m ≠ .tick now) (work : m ≠ .work t.number)
      (unloading : ∀ region, m = .regionUnloading region →
        t.job.regionUnloading? t.filter region g.world = none) : Carries g t m t.job

theorem Game.carries {σ : Type} [SlotStore σ] {g : Game σ} {t t' : Task} {m : Move σ}
    (h : g.carried t m = some t') : g.Carries t m t'.job := by
  cases m with
  | tick now =>
    simp only [carried] at h
    split at h
    · cases h
    · next hnone =>
      cases h
      exact .advance now (by simpa using hnone)
  | regionReady region =>
    cases h
    cases hj : t.job.regionReady? t.filter region g.world with
    | none => exact .stay (by simp) (by simp) (by simp)
    | some p => exact .ready region hj
  | regionUnloading region =>
    cases h
    cases hj : t.job.regionUnloading? t.filter region g.world with
    | none =>
      refine .stay (by simp) (by simp) fun r hr => ?_
      cases hr
      exact hj
    | some job => exact .unloading region hj
  | work n =>
    cases h
    split
    · next hn => exact hn ▸ .work
    · next hn => exact .stay (by simp) (by simp [Ne.symm hn]) (by simp)
  | lose n =>
    cases h
    split
    · next hn => exact hn ▸ .lose
    · exact .stay (by simp) (by simp) (by simp)
  | deinitialize => cases h
  | request | delete | subscribe | unsubscribe | currentInfo | currentData | visit | disturb =>
    cases h
    exact .stay (by simp) (by simp) (by simp)

/-- A task is made by a request that is accepted. -/
theorem Turn.request_of_made {σ : Type} [SlotStore σ] {x : Turn σ} {t : Task} (h : x.made? = some t) :
    ∃ r now m, x.move = .request r now ∧ x.game.manager.job x.game.store r = .ok t.job ∧
      x.game.manager.request x.game.store now r = .ok (t, m) := by
  unfold made? at h
  split at h
  · next r now hmove =>
    refine ⟨r, now, ?_⟩
    unfold Manager.request at h ⊢
    cases hjob : x.game.manager.job x.game.store r with
    | error e =>
      rw [hjob] at h
      cases h
    | ok job =>
      rw [hjob] at h
      cases h
      exact ⟨_, hmove, rfl, rfl⟩
  · cases h

namespace Orderly

variable {σ : Type} [SlotStore σ] {g : Game σ}

omit [SlotStore σ] in
/-- There are no tasks after teardown. -/
theorem running_of_mem (h : Orderly g) {t : Task} (ht : t ∈ g.manager.tasks) : g.manager.running = true := by
  cases hr : g.manager.running with
  | true => rfl
  | false =>
    rw [(h.stopped hr).1] at ht
    cases ht

omit [SlotStore σ] in
theorem running_of_holder (h : Orderly g) {t : Task} (ht : g.manager.holder? = some t) :
    g.manager.running = true :=
  h.running_of_mem (List.mem_of_find?_eq_some ht)

theorem holder_tick (h : Orderly g) {t : Task} (ht : g.manager.holder? = some t) (now : Instant) :
    (g.step (.tick now)).manager.holder? = g.carried t (.tick now) := by
  have hr := h.running_of_holder ht
  obtain ⟨hl, before, after, htasks, hbefore, hafter⟩ := h.holder_split ht
  obtain ⟨-, -, -, hf, -⟩ := Manager.sweep_locked g.manager now g.world t hbefore hafter hl
  rw [Task.step_eq (h.live t (List.mem_of_find?_eq_some ht)), ← htasks] at hf
  rw [Manager.holder?, h.tasks_tick, Manager.swept_of_running hr, hf]
  simp only [Task.isTerminal_stateAfter, Game.carried]
  cases (t.job.advance t.filter g.manager.preset now g.world).2.2 <;> rfl

omit [SlotStore σ] in
/-- A task in the place of the holder is the holder. -/
theorem holder_put (h : Orderly g) {t u : Task} (ht : g.manager.holder? = some t) (hu : u.label = t.label) :
    (g.manager.tasks.map fun x => if x.number = t.number then u else x).find? Task.locks = some u := by
  rcases h.holder_replaced (List.mem_of_find?_eq_some ht) hu with ⟨-, hf⟩ | ⟨hl, -⟩
  · exact hf
  · rw [(h.holder_split ht).1] at hl
    cases hl

theorem holder_work (h : Orderly g) {t : Task} (ht : g.manager.holder? = some t) (n : Nat) :
    (g.step (.work n)).manager.holder? = g.carried t (.work n) := by
  change (g.manager.runWork g.store n).1.holder? = some (if t.number = n then (t.runWork g.store).1 else t)
  have hmem : t ∈ g.manager.tasks := List.mem_of_find?_eq_some ht
  unfold Manager.runWork
  split
  · next hn =>
    rw [if_neg (by simpa using List.find?_eq_none.1 hn t hmem)]
    exact ht
  · next u hu =>
    have hn : u.number = n := by simpa using List.find?_some hu
    subst hn
    have humem := List.mem_of_find?_eq_some hu
    rcases h.holder_replaced humem (u.label_runWork g.store) with ⟨hh, hf⟩ | ⟨hl, hf⟩
    · rw [ht] at hh
      cases hh
      rw [if_pos rfl]
      exact hf
    · have hne : t.number ≠ u.number := by
        intro he
        rw [← List.inj_on_of_nodup_map h.distinct hmem humem he, (h.holder_split ht).1] at hl
        cases hl
      rw [if_neg hne, ← ht]
      exact hf

/-- What a move makes of the holder. -/
theorem holder_step (h : Orderly g) {t : Task} (ht : g.manager.holder? = some t) (m : Move σ) :
    (g.step m).manager.holder? = g.carried t m := by
  cases m with
  | request r now =>
    simp only [Game.step, Game.carried]
    split
    · next hq =>
      obtain ⟨-, -, -, rfl⟩ := Manager.request_ok hq
      simp [Manager.holder?, List.find?_append, show g.manager.tasks.find? Task.locks = some t from ht]
    · exact ht
  | delete slot =>
    obtain ⟨a, he, -⟩ := Manager.deleteSlot_eq g.manager g.store slot
    exact (congrArg Manager.holder? he).trans ht
  | tick now => exact h.holder_tick ht now
  | regionReady region =>
    simp only [Game.step, Game.carried]
    rcases h.ready_cases region with ⟨r, he, hno⟩ | ⟨r, u, job, w', hh, hj, he⟩
    · rw [he, hno t ht]
      exact ht
    · rw [ht] at hh
      cases hh
      have hlabel : Task.label { t with job } = t.label := by
        simp only [Task.label, Job.subject_regionReady hj]
      have hput := h.holder_put ht hlabel
      rw [he, hj]
      exact hput
  | regionUnloading region =>
    simp only [Game.step, Game.carried]
    rcases h.unloading_cases region with ⟨r, he, hno⟩ | ⟨r, u, job, hh, hj, he⟩
    · rw [he, hno t ht]
      exact ht
    · rw [ht] at hh
      cases hh
      have hlabel : Task.label { t with job } = t.label := by
        simp only [Task.label, Job.subject_regionUnloading hj]
      have hput := h.holder_put ht hlabel
      rw [he, hj]
      exact hput
  | subscribe name =>
    simp only [Game.step, Game.carried, Manager.subscribe]
    split <;> exact ht
  | deinitialize =>
    simp only [Game.step, Game.carried, Manager.deinitialize_eq _ (h.running_of_holder ht)]
    rfl
  | work n => exact h.holder_work ht n
  | lose n =>
    rw [holder_loseWork, ht]
    rfl
  | unsubscribe | currentInfo | currentData | visit | disturb => exact ht

/-- A holder that was not there before was made by a request. -/
theorem made_of_holder (h : Orderly g) {t : Task} {m : Move σ} (hnone : g.manager.holder? = none)
    (ht : (g.step m).manager.holder? = some t) :
    Turn.made? ⟨g, m⟩ = some t ∧ t.number = g.manager.issued ∧ t.job.isFresh = true := by
  by_cases hq : ∀ r now, m ≠ .request r now
  · have hshift : Shift (fun _ _ => True) g.scene (Turn.facts ⟨g, m⟩) (g.step m).scene :=
      h.shift ((h.step m).running_of_holder ht) fun _ _ => trivial
    have hissued : (g.step m).scene.issued = g.scene.issued := issued_step g hq
    change g.scene.holder = none at hnone
    change (g.step m).scene.holder = some t at ht
    generalize Turn.facts ⟨g, m⟩ = facts at hshift
    generalize g.scene = c at hshift hissued hnone
    generalize (g.step m).scene = c' at hshift hissued ht
    -- a scene without a holder gets one with a new number only
    cases hshift <;> simp_all
  · simp only [ne_eq, not_forall, not_not] at hq
    obtain ⟨r, now, rfl⟩ := hq
    simp only [Game.step] at ht
    split at ht
    · next u m' hr =>
      obtain ⟨ha, hn, -, rfl⟩ := Manager.request_ok hr
      simp only [Manager.holder?, List.find?_append,
        show g.manager.tasks.find? Task.locks = none from hnone, Option.none_or, List.find?_singleton] at ht
      split at ht <;> cases ht
      exact ⟨by simp [Turn.made?, hr, Except.toOption], hn, ha.fresh⟩
    · rw [hnone] at ht
      cases ht

/-- A request for a task that locks the manager makes the holder. -/
theorem holder_of_made {x : Turn σ} (h : Orderly x.game) {t : Task} (hm : x.made? = some t) (hl : t.locks = true) :
    x.after.manager.holder? = some t ∧ t.number = x.game.manager.issued ∧ x.game.manager.running = true := by
  obtain ⟨g, m⟩ := x
  obtain ⟨r, now, m', hmove, -, hreq⟩ := Turn.request_of_made hm
  obtain rfl : m = .request r now := hmove
  obtain ⟨ha, hn, -, rfl⟩ := Manager.request_ok hreq
  have hk : t.job.kind ≠ .loadInfos := by simpa [Task.locks, Task.kind] using hl
  have hnone : g.manager.tasks.find? Task.locks = none :=
    List.find?_eq_none.2 fun v hv => by simp [ha.unlocked hk h.live v hv]
  refine ⟨?_, hn, ha.running⟩
  simp only at hreq
  simp [Turn.after, Game.step, hreq, Manager.holder?, List.find?_append, hnone, hl]

theorem world_tick (h : Orderly g) {t : Task} (ht : g.manager.holder? = some t) (now : Instant) :
    (g.step (.tick now)).world = (t.job.advance t.filter g.manager.preset now g.world).2.1 := by
  obtain ⟨hl, before, after, htasks, hbefore, hafter⟩ := h.holder_split ht
  obtain ⟨-, -, -, -, -, hw⟩ := Manager.sweep_locked g.manager now g.world t hbefore hafter hl
  rw [Task.step_eq (h.live t (List.mem_of_find?_eq_some ht)), ← htasks] at hw
  simp only [Game.step, Manager.tick, if_pos (h.running_of_holder ht), hw]

/-! ## Runs -/

theorem issued_le_step (g : Game σ) (m : Move σ) : g.manager.issued ≤ (g.step m).manager.issued := by
  by_cases hq : ∀ r now, m ≠ .request r now
  · exact Nat.le_of_eq (issued_step g hq).symm
  · simp only [ne_eq, not_forall, not_not] at hq
    obtain ⟨r, now, rfl⟩ := hq
    simp only [Game.step]
    split
    · next hr =>
      obtain ⟨-, -, -, rfl⟩ := Manager.request_ok hr
      exact Nat.le_succ _
    · exact Nat.le_refl _

theorem issued_le_run (g : Game σ) (ms : List (Move σ)) : g.manager.issued ≤ (g.run ms).manager.issued := by
  induction ms generalizing g with
  | nil => exact Nat.le_refl _
  | cons m ms ih => exact Nat.le_trans (issued_le_step g m) (ih (g.step m))

/-- The tasks that a run has to do with on its way have smaller numbers than those that come after it. -/
theorem number_lt_of_trace (h : Orderly g) {ms : List (Move σ)} {x : Turn σ} (hx : x ∈ g.trace ms) {t : Task}
    (ht : t ∈ x.game.manager.tasks) : t.number < (g.run ms).manager.issued := by
  obtain ⟨before, rest, hs⟩ := List.append_of_mem hx
  obtain ⟨ms₁, ms₂, rfl, -, hg, -⟩ := Game.trace_split hs
  have hlt := (h.run ms₁).issued t (hg ▸ ht)
  rw [Game.run_append]
  exact Nat.lt_of_lt_of_le hlt (issued_le_run ..)

/-- What holds of a holder and what has happened so far: it is kept as the holder is carried on, and holds
when one begins. -/
theorem course (h : Orderly g) {P : List (Turn σ) → Task → Prop}
    (hstart : ∀ t, g.manager.holder? = some t → P [] t)
    (hbegin : ∀ ms m t, Turn.made? ⟨g.run ms, m⟩ = some t → t.number = (g.run ms).manager.issued →
      t.job.isFresh = true → P (g.trace ms ++ [⟨g.run ms, m⟩]) t)
    (hstep : ∀ ms m t t', (g.run ms).manager.holder? = some t → (g.run ms).carried t m = some t' →
      P (g.trace ms) t → P (g.trace ms ++ [⟨g.run ms, m⟩]) t')
    (ms : List (Move σ)) {t : Task} (ht : (g.run ms).manager.holder? = some t) : P (g.trace ms) t := by
  induction ms using List.reverseRecOn generalizing t with
  | nil => exact hstart t ht
  | append_singleton ms m ih =>
    rw [Game.trace_append]
    rw [Game.run_append] at ht
    cases hh : (g.run ms).manager.holder? with
    | none =>
      obtain ⟨hmade, hn, hfresh⟩ := (h.run ms).made_of_holder hh ht
      exact hbegin ms m t hmade hn hfresh
    | some u =>
      refine hstep ms m u t hh ?_ (ih hh)
      rw [← (h.run ms).holder_step hh m]
      exact ht

/-- The same for the holders of one kind, in a run of a new manager. -/
theorem course_new {k : TaskKind} {P : List (Turn σ) → Task → Prop} (p : Preset) (s : σ) (w : World)
    (hbegin : ∀ ms m t, Turn.made? ⟨(Game.new p s w).run ms, m⟩ = some t →
      t.number = ((Game.new p s w).run ms).manager.issued → t.job.isFresh = true → t.kind = k →
      P ((Game.new p s w).trace ms ++ [⟨(Game.new p s w).run ms, m⟩]) t)
    (hstep : ∀ ms m t t', ((Game.new p s w).run ms).manager.holder? = some t →
      ((Game.new p s w).run ms).carried t m = some t' → t.kind = k → P ((Game.new p s w).trace ms) t →
      P ((Game.new p s w).trace ms ++ [⟨(Game.new p s w).run ms, m⟩]) t')
    (ms : List (Move σ)) {t : Task} (ht : ((Game.new p s w).run ms).manager.holder? = some t) (hk : t.kind = k) :
    P ((Game.new p s w).trace ms) t := by
  refine (orderly_new p s w).course (P := fun turns t => t.kind = k → P turns t) ?_ hbegin ?_ ms ht hk
  · intro t ht
    cases ht
  · intro ms m t t' ht hc hP hk
    have hkind : t.kind = k := (Task.kind_eq (Game.label_carried hc)).symm.trans hk
    exact hstep ms m t t' ht hc hkind (hP hkind)

end Orderly

end SaveSlots
