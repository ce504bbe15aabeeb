import SaveSlots.Proofs.Course
/-!
# What a save hands to the store

Once a save has given its snapshot away, no other one comes of it. `Game.mem_step` says where the tasks after a
move come from, on the roster or adrift; none of the things that can become of a job (`Job.Moved`) changes what
a save has given away (`Job.Sealed.moved`). Hence whatever the work of a task hands to the store later on
(`Turn.handed?`) is what the task had given away (`Sealed.handed`).
-/

namespace SaveSlots

/-! ## Work that is left -/

namespace Handle

variable {ω α σ : Type}

/-- Work that was done or given up is not done again. -/
theorem work_runOn (work : ω → σ → α × σ) (h : Handle ω α) (s : σ) : (h.runOn work s).1.work? = none := by
  cases h <;> rfl

theorem work_abandon (h : Handle ω α) : h.abandon.work? = none := by
  cases h <;> rfl

theorem work_hold (h : Handle ω α) : h.hold.work? = h.work? := by
  cases h <;> rfl

end Handle

/-! ## What becomes of jobs -/

/-- What can become of a job in a move. -/
inductive Job.Moved (σ : Type) [SlotStore σ] : Job → Job → Prop
  | same {j : Job} : Moved σ j j
  | advanced {j : Job} (f : SaveFilter) (p : Preset) (now : Instant) (w : World) : Moved σ j (j.advance f p now w).1
  | ready {j j' : Job} {f : SaveFilter} {region : String} {w w' : World} :
      j.regionReady? f region w = some (j', w') → Moved σ j j'
  | unloading {j j' : Job} {f : SaveFilter} {region : String} {w : World} :
      j.regionUnloading? f region w = some j' → Moved σ j j'
  | worked {j : Job} (s : σ) : Moved σ j (j.runWork s).1
  | lost {j : Job} : Moved σ j j.loseWork

/-- Whether a job is a save that has given `pair` away, and nothing else. -/
def Job.Sealed (pair : SlotInfo × Snapshot) (j : Job) : Prop :=
  ∃ sj work, j = .save sj ∧ sj.phase = .writing work ∧ ∀ q, work.work? = some q → q = pair

theorem Job.Sealed.moved {σ : Type} [SlotStore σ] {pair : SlotInfo × Snapshot} {j j' : Job} (h : j.Sealed pair)
    (hm : Job.Moved σ j j') : j'.Sealed pair := by
  obtain ⟨⟨slot, name, shot, unloaded, phase⟩, work, rfl, rfl, hwork⟩ := h
  cases hm with
  | same => exact ⟨_, work, rfl, rfl, hwork⟩
  | advanced f p now w =>
    refine ⟨⟨slot, name, shot, unloaded, .writing work⟩, work, ?_, rfl, hwork⟩
    cases work <;> rfl
  | ready hr => cases hr
  | unloading hu => cases hu
  | worked s =>
    simp only [runWork]
    split
    · exact ⟨_, _, rfl, rfl, fun q hq => hwork q (work.work_hold ▸ hq)⟩
    · refine ⟨_, _, rfl, rfl, fun q hq => ?_⟩
      rw [Handle.work_runOn] at hq
      cases hq
  | lost =>
    refine ⟨_, _, rfl, rfl, fun q hq => ?_⟩
    rw [Handle.work_abandon] at hq
    cases hq

theorem Job.Sealed.given {pair q : SlotInfo × Snapshot} {j : Job} (h : j.Sealed pair) (hq : j.given? = some q) :
    q = pair := by
  obtain ⟨⟨slot, name, shot, unloaded, phase⟩, work, rfl, rfl, hwork⟩ := h
  exact hwork q hq

/-! ## Where tasks come from -/

/-- Whether a task is what a move may make of another one. -/
def Task.Moved (σ : Type) [SlotStore σ] (t t' : Task) : Prop := t'.number = t.number ∧ Job.Moved σ t.job t'.job

namespace Manager

variable {σ : Type} [SlotStore σ]

theorem moved_advance (t : Task) (p : Preset) (now : Instant) (w : World) :
    t.Moved σ (t.start.advance p now w).1 := by
  refine ⟨Task.number_eq ((Task.label_advance ..).trans (Task.label_start t)), ?_⟩
  have hjob : t.start.job = t.job := by
    unfold Task.start
    split <;> rfl
  unfold Task.advance
  split
  · rw [hjob]
    exact .advanced ..
  · rw [hjob]
    exact .same

theorem moved_runWork {m : Manager} {s : σ} {n : Nat} {t' : Task} (h : t' ∈ (m.runWork s n).1.tasks) :
    ∃ t ∈ m.tasks, t.Moved σ t' := by
  unfold runWork at h
  split at h
  · exact ⟨t', h, rfl, .same⟩
  · next t ht =>
    obtain ⟨u, hu, rfl⟩ := List.mem_map.1 h
    split
    · exact ⟨t, List.mem_of_find?_eq_some ht, Task.number_eq (t.label_runWork s), .worked s⟩
    · exact ⟨u, hu, rfl, .same⟩

theorem moved_loseWork {m : Manager} {n : Nat} {t' : Task} (h : t' ∈ (m.loseWork n).tasks) :
    ∃ t ∈ m.tasks, t.Moved σ t' := by
  obtain ⟨u, hu, rfl⟩ := List.mem_map.1 h
  refine ⟨u, hu, ?_⟩
  split
  · exact ⟨Task.number_eq u.label_loseWork, .lost⟩
  · exact ⟨rfl, .same⟩

theorem moved_putTask {m : Manager} {t : Task} {job : Job} (ht : t ∈ m.tasks) (hj : Job.Moved σ t.job job)
    {t' : Task} (h : t' ∈ (m.putTask { t with job }).tasks) : ∃ t ∈ m.tasks, t.Moved σ t' := by
  obtain ⟨u, hu, rfl⟩ := List.mem_map.1 h
  split
  · exact ⟨t, ht, rfl, hj⟩
  · exact ⟨u, hu, rfl, .same⟩

theorem moved_swept {m : Manager} {now : Instant} {w : World} {t' : Task} (h : t' ∈ m.swept now w) :
    ∃ t ∈ m.tasks, t.Moved σ t' := by
  unfold swept at h
  split at h
  · obtain ⟨t, ht, w', rfl⟩ := mem_sweep h
    exact ⟨t, ht, moved_advance ..⟩
  · cases h

end Manager

variable {σ : Type} [SlotStore σ]

namespace Game

/-- All tasks there are, on the roster or adrift. -/
def everyTask (g : Game σ) : List Task := g.manager.tasks ++ g.adrift

/-- A task after a move was there before it, or the move is the request that makes it. -/
theorem mem_step {g : Game σ} (h : Orderly g) {m : Move σ} {t' : Task} (ht : t' ∈ (g.step m).everyTask) :
    (∃ t ∈ g.everyTask, t.Moved σ t') ∨ Turn.made? ⟨g, m⟩ = some t' ∧ t'.number = g.manager.issued := by
  have hold : (∃ t ∈ g.manager.tasks, t.Moved σ t') → ∃ t ∈ g.everyTask, t.Moved σ t' :=
    fun ⟨t, ht, hm⟩ => ⟨t, List.mem_append_left _ ht, hm⟩
  have hsame : t' ∈ g.everyTask → ∃ t ∈ g.everyTask, t.Moved σ t' := fun ht => ⟨t', ht, rfl, .same⟩
  cases m with
  | request r now =>
    simp only [Game.step] at ht
    split at ht
    · next hq =>
      obtain ⟨-, hn, -, rfl⟩ := Manager.request_ok hq
      simp only [everyTask, List.append_assoc, List.mem_append, List.mem_singleton] at ht
      rcases ht with ht | rfl | ht
      · exact .inl (hsame (List.mem_append_left _ ht))
      · exact .inr ⟨by simp [Turn.made?, hq, Except.toOption], hn⟩
      · exact .inl (hsame (List.mem_append_right _ ht))
    · exact .inl (hsame ht)
  | delete slot =>
    obtain ⟨a, he, -⟩ := Manager.deleteSlot_eq g.manager g.store slot
    simp only [everyTask, Game.step, he] at ht
    exact .inl (hsame ht)
  | tick now =>
    refine .inl ?_
    rw [everyTask, h.tasks_tick] at ht
    rcases List.mem_append.1 ht with ht | ht
    · exact hold (Manager.moved_swept (List.mem_filter.1 ht).1)
    · rcases List.mem_append.1 ht with ht | ht
      · exact hsame (List.mem_append_right _ ht)
      · exact hold (Manager.moved_swept (List.mem_filter.1 ht).1)
  | regionReady region =>
    refine .inl ?_
    simp only [everyTask, Game.step] at ht
    rcases g.manager.regionReady_cases region g.world with ⟨r, he, -⟩ | ⟨r, t, job, w', hs, hj, he⟩
    · rw [he] at ht
      exact hsame ht
    · rw [he] at ht
      rcases List.mem_append.1 ht with ht | ht
      · exact hold (Manager.moved_putTask (Manager.mem_streamingTask hs) (.ready hj) ht)
      · exact hsame (List.mem_append_right _ ht)
  | regionUnloading region =>
    refine .inl ?_
    simp only [everyTask, Game.step] at ht
    rcases g.manager.regionUnloading_cases region g.world with ⟨r, he, -⟩ | ⟨r, t, job, hs, hj, he⟩
    · rw [he] at ht
      exact hsame ht
    · rw [he] at ht
      rcases List.mem_append.1 ht with ht | ht
      · exact hold (Manager.moved_putTask (Manager.mem_streamingTask hs) (.unloading hj) ht)
      · exact hsame (List.mem_append_right _ ht)
  | subscribe name =>
    simp only [everyTask, Game.step, Manager.subscribe] at ht
    split at ht <;> exact .inl (hsame ht)
  | deinitialize =>
    refine .inl ?_
    simp only [everyTask, Game.step] at ht
    cases hr : g.manager.running with
    | false =>
      rw [Manager.deinitialize_stopped _ hr, hr] at ht
      simpa using hsame (by simpa [everyTask] using ht)
    | true =>
      rw [Manager.deinitialize_eq _ hr, if_pos hr] at ht
      rcases List.mem_append.1 ht with ht | ht
      · cases ht
      · rcases List.mem_append.1 ht with ht | ht
        · exact hsame (List.mem_append_right _ ht)
        · exact hsame (List.mem_append_left _ (List.mem_filter.1 ht).1)
  | work n =>
    refine .inl ?_
    rcases List.mem_append.1 ht with ht | ht
    · exact hold (Manager.moved_runWork ht)
    · obtain ⟨t, ht, hm⟩ := Manager.moved_runWork (σ := σ) ht
      exact ⟨t, List.mem_append_right _ ht, hm⟩
  | lose n =>
    refine .inl ?_
    rcases List.mem_append.1 ht with ht | ht
    · exact hold (Manager.moved_loseWork ht)
    · obtain ⟨t, ht, hm⟩ := Manager.moved_loseWork (σ := σ) ht
      exact ⟨t, List.mem_append_right _ ht, hm⟩
  | unsubscribe | currentInfo | currentData | visit | disturb => exact .inl (hsame ht)

end Game

/-! ## The jobs with a number -/

/-- Whether a number was given to a task, and the job of every task that has it is like this. -/
structure Numbered (n : Nat) (P : Job → Prop) (g : Game σ) : Prop where
  issued : n < g.manager.issued
  jobs : ∀ t ∈ g.everyTask, t.number = n → P t.job

namespace Numbered

variable {n : Nat} {P : Job → Prop} {g : Game σ}

/-- It stays so as long as nothing that can become of a job breaks it: the number is not given again. -/
theorem step (h : Numbered n P g) (hP : ∀ {j j'}, P j → Job.Moved σ j j' → P j') (ho : Orderly g) (m : Move σ) :
    Numbered n P (g.step m) := by
  refine ⟨Nat.lt_of_lt_of_le h.issued (Orderly.issued_le_step g m), fun t' ht' hn => ?_⟩
  rcases Game.mem_step ho ht' with ⟨t, ht, hnumber, hm⟩ | ⟨-, hnew⟩
  · exact hP (h.jobs t ht (hnumber ▸ hn)) hm
  · have hlt := h.issued
    omega

theorem run (h : Numbered n P g) (hP : ∀ {j j'}, P j → Job.Moved σ j j' → P j') (ho : Orderly g)
    (ms : List (Move σ)) : Numbered n P (g.run ms) := by
  induction ms generalizing g with
  | nil => exact h
  | cons m ms ih => exact ih (h.step hP ho m) (ho.step m)

end Numbered

/-! ## What is given away stays what it is -/

/-- Whether the tasks with a number have given `pair` away, and nothing else. -/
structure Sealed (n : Nat) (pair : SlotInfo × Snapshot) (g : Game σ) : Prop where
  issued : n < g.manager.issued
  tasks : ∀ t ∈ g.everyTask, t.number = n → t.job.Sealed pair

theorem Sealed.run {n : Nat} {pair : SlotInfo × Snapshot} {g : Game σ} (h : Sealed n pair g) (ho : Orderly g)
    (ms : List (Move σ)) : Sealed n pair (g.run ms) := by
  have hrun : Numbered n (Job.Sealed pair) (g.run ms) := Numbered.run ⟨h.issued, h.tasks⟩ Job.Sealed.moved ho ms
  exact ⟨hrun.issued, hrun.jobs⟩

/-! ## Handing over -/

/-- What the work of a task hands to the store in a turn. A write goes no further than a closed gate. -/
def Turn.handed? (x : Turn σ) (n : Nat) : Option (SlotInfo × Snapshot) :=
  match x.move with
  | .work m =>
    if m = n ∧ SlotStore.writesHeld x.game.store = false then
      (x.game.everyTask.find? fun t => t.number = n).bind fun t => t.job.given?
    else none
  | _ => none

theorem Turn.handed_eq_some {x : Turn σ} {n : Nat} {pair : SlotInfo × Snapshot} (h : x.handed? n = some pair) :
    x.move = .work n ∧ SlotStore.writesHeld x.game.store = false ∧
      ∃ t, (x.game.everyTask.find? fun t => t.number = n) = some t ∧ t.job.given? = some pair := by
  unfold handed? at h
  split at h
  · next m hm =>
    split at h
    · next hc =>
      obtain ⟨t, ht, hg⟩ := Option.bind_eq_some_iff.1 h
      exact ⟨hc.1 ▸ hm, hc.2, t, ht, hg⟩
    · cases h
  · cases h

theorem Job.store_runWork {j : Job} {s : σ} {info : SlotInfo} {data : Snapshot} (h : j.given? = some (info, data))
    (hgate : SlotStore.writesHeld s = false) : (j.runWork s).2 = (SlotStore.write s info data.encode).2 := by
  unfold given? at h
  split at h
  · next sj =>
    split at h
    · next work hphase =>
      have hcommit : (SlotStore.commit s info data).2 = (SlotStore.write s info data.encode).2 := by
        unfold SlotStore.commit
        split <;> next hw => rw [hw]
      rw [← hcommit]
      simp only [runWork, hphase, hgate, Bool.false_eq_true, if_false, Handle.runOn, h]
    · cases h
    · cases h
  · cases h

theorem Manager.store_runWork {m : Manager} {s : σ} {n : Nat} {t : Task}
    (h : (m.tasks.find? fun t => t.number = n) = some t) : (m.runWork s n).2 = (t.job.runWork s).2 := by
  unfold runWork
  rw [h]
  rfl

theorem Manager.store_runWork_absent {m : Manager} {s : σ} {n : Nat}
    (h : (m.tasks.find? fun t => t.number = n) = none) : (m.runWork s n).2 = s := by
  unfold runWork
  rw [h]

theorem Manager.task_runWork {m : Manager} {s : σ} {n : Nat} {t' : Task} (ht : t' ∈ (m.runWork s n).1.tasks)
    (hn : t'.number = n) : ∃ u, (m.tasks.find? fun u => u.number = n) = some u ∧ t' = (u.runWork s).1 := by
  unfold runWork at ht
  split at ht
  · next hnone => exact absurd (by simpa using hn) (List.find?_eq_none.1 hnone t' ht)
  · next u hu =>
    obtain ⟨x, -, hx⟩ := List.mem_map.1 ht
    split at hx
    · exact ⟨u, hu, hx.symm⟩
    · next hne => exact absurd (hx ▸ hn) hne

theorem Manager.mem_runWork_other {m : Manager} {s : σ} {n : Nat} {t' : Task} (ht : t' ∈ (m.runWork s n).1.tasks)
    (hn : t'.number ≠ n) : t' ∈ m.tasks := by
  unfold runWork at ht
  split at ht
  · exact ht
  · next u hu =>
    have hun : u.number = n := by simpa using List.find?_some hu
    obtain ⟨x, hx, rfl⟩ := List.mem_map.1 ht
    by_cases hxn : x.number = n
    · rw [if_pos hxn] at hn
      exact absurd ((Task.number_eq (u.label_runWork s)).trans hun) hn
    · rwa [if_neg hxn]

namespace Orderly

variable {g : Game σ}

omit [SlotStore σ] in
/-- As long as there is a roster, no task is adrift. -/
theorem everyTask_of_mem (h : Orderly g) {t : Task} (ht : t ∈ g.manager.tasks) : g.everyTask = g.manager.tasks := by
  have hr : g.manager.running = true := by
    cases hr : g.manager.running with
    | true => rfl
    | false =>
      rw [(h.stopped hr).1] at ht
      cases ht
  rw [Game.everyTask, h.moored hr, List.append_nil]

omit [SlotStore σ] in
/-- A task on the roster is found by its number. -/
theorem find_everyTask (h : Orderly g) {t : Task} (ht : t ∈ g.manager.tasks) :
    (g.everyTask.find? fun u => u.number = t.number) = some t := by
  rw [h.everyTask_of_mem ht]
  cases hu : g.manager.tasks.find? fun u => u.number = t.number with
  | none => simpa using List.find?_eq_none.1 hu t ht
  | some u =>
    have hn : u.number = t.number := by simpa using List.find?_some hu
    rw [List.inj_on_of_nodup_map h.distinct (List.mem_of_find?_eq_some hu) ht hn]

omit [SlotStore σ] in
/-- It is the only one with its number. -/
theorem numbered (h : Orderly g) {t : Task} (ht : t ∈ g.manager.tasks) {P : Job → Prop} (hP : P t.job) :
    Numbered t.number P g := by
  refine ⟨h.issued t ht, fun u hu hn => ?_⟩
  rw [h.everyTask_of_mem ht] at hu
  rwa [List.inj_on_of_nodup_map h.distinct hu ht hn]

/-- Work changes the store as the job does whose work it is. -/
theorem store_work (h : Orderly g) {n : Nat} {t : Task} (ht : (g.everyTask.find? fun u => u.number = n) = some t) :
    (g.step (.work n)).store = (t.job.runWork g.store).2 := by
  change (Manager.runWork { g.manager with tasks := g.adrift } (g.manager.runWork g.store n).2 n).2 = _
  -- the task is on the roster of a running manager, or adrift after its end
  cases hr : g.manager.running with
  | true =>
    rw [Game.everyTask, h.moored hr, List.append_nil] at ht
    rw [Manager.store_runWork_absent (by simp [h.moored hr]), Manager.store_runWork ht]
  | false =>
    rw [Game.everyTask, (h.stopped hr).1, List.nil_append] at ht
    rw [Manager.store_runWork ht, Manager.store_runWork_absent (by simp [(h.stopped hr).1])]

/-- The task whose work was done is the one that is found under its number. -/
theorem task_work (h : Orderly g) {n : Nat} {t' : Task} (ht : t' ∈ (g.step (.work n)).everyTask)
    (hn : t'.number = n) :
    ∃ u, (g.everyTask.find? fun u => u.number = n) = some u ∧ t' = (u.runWork g.store).1 := by
  have hcases : t' ∈ (g.manager.runWork g.store n).1.tasks ∨
      t' ∈ (Manager.runWork { g.manager with tasks := g.adrift } (g.manager.runWork g.store n).2 n).1.tasks :=
    List.mem_append.1 ht
  -- the task is on the roster of a running manager, or adrift after its end
  cases hr : g.manager.running with
  | true =>
    rw [Game.everyTask, h.moored hr, List.append_nil]
    rcases hcases with ht | ht
    · exact Manager.task_runWork ht hn
    · obtain ⟨u, hu, -⟩ := Manager.task_runWork ht hn
      simp [h.moored hr] at hu
  | false =>
    have hempty : g.manager.tasks = [] := (h.stopped hr).1
    rw [Manager.store_runWork_absent (by simp [hempty])] at hcases
    rw [Game.everyTask, hempty, List.nil_append]
    rcases hcases with ht | ht
    · obtain ⟨u, hu, -⟩ := Manager.task_runWork ht hn
      simp [hempty] at hu
    · exact Manager.task_runWork ht hn

/-- A run has no task on its way whose number is issued later on. -/
theorem number_lt_of_everyTask (h : Orderly g) {ms : List (Move σ)} (hr : (g.run ms).manager.running = true)
    {x : Turn σ} (hx : x ∈ g.trace ms) {t : Task} (ht : t ∈ x.game.everyTask) :
    t.number < (g.run ms).manager.issued := by
  have hrun : x.game.manager.running = true := by
    obtain ⟨before, rest, hs⟩ := List.append_of_mem hx
    obtain ⟨ms₁, ms₂, rfl, -, hg, -⟩ := Game.trace_split hs
    rw [Game.run_append] at hr
    rw [hg]
    exact running_of_run _ hr
  rw [Game.everyTask, (h.turns hx).moored hrun, List.append_nil] at ht
  exact h.number_lt_of_trace hx ht

end Orderly

/-- Nobody's work does not change the store. -/
theorem Game.store_work_absent {g : Game σ} {n : Nat} (h : ∀ t ∈ g.everyTask, t.number ≠ n) :
    (g.step (.work n)).store = g.store := by
  change (Manager.runWork { g.manager with tasks := g.adrift } (g.manager.runWork g.store n).2 n).2 = _
  rw [Manager.store_runWork_absent, Manager.store_runWork_absent] <;>
  · refine List.find?_eq_none.2 fun t ht => ?_
    simpa using h t (by simp [everyTask, ht])

/-- Neither does work that leaves it as it is. -/
theorem Orderly.store_work_same {g : Game σ} (h : Orderly g) {n : Nat}
    (hsame : ∀ u ∈ g.everyTask, (g.everyTask.find? fun u => u.number = n) = some u → u.number = n →
      (u.job.runWork g.store).2 = g.store) : (g.step (.work n)).store = g.store := by
  cases hu : g.everyTask.find? fun u => u.number = n with
  | none => exact Game.store_work_absent fun u hmem => by simpa using List.find?_eq_none.1 hu u hmem
  | some u =>
    rw [h.store_work hu]
    exact hsame u (List.mem_of_find?_eq_some hu) hu (by simpa using List.find?_some hu)

/-- What is handed over is written. -/
theorem Turn.store_handed {x : Turn σ} (ho : Orderly x.game) {n : Nat} {info : SlotInfo} {data : Snapshot}
    (h : x.handed? n = some (info, data)) :
    x.after.store = (SlotStore.write x.game.store info data.encode).2 := by
  obtain ⟨hm, hgate, t, ht, hg⟩ := Turn.handed_eq_some h
  rw [Turn.after, hm, ho.store_work ht, Job.store_runWork hg hgate]

theorem Sealed.handed {n : Nat} {pair q : SlotInfo × Snapshot} {x : Turn σ} (h : Sealed n pair x.game)
    (hq : x.handed? n = some q) : q = pair := by
  obtain ⟨-, -, t, ht, hg⟩ := Turn.handed_eq_some hq
  have hn : t.number = n := by simpa using List.find?_some ht
  exact (h.tasks t (List.mem_of_find?_eq_some ht) hn).given hg

end SaveSlots
