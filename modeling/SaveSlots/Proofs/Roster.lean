import Mathlib.Data.List.Nodup
import SaveSlots.Proofs.Run
/-!
# The roster of a running manager

Between calls the roster is `Orderly`: its tasks are created or running, at most one of them locks the
manager, and their numbers tell them apart. Nothing is adrift while the manager runs.

The number, the filter, the kind and the target of a task never change (`Task.label`). What happens
between ticks does not change its state either, so most moves leave the roster as orderly as it was
(`Orderly.of_badges`). `Orderly.step` is what one move preserves and `orderly_run` what a run preserves.

`single_flight` is the main theorem: tasks that save, load or delete everything keep each other away, and
so do work that changes the store and the deletion of one slot.
-/

namespace SaveSlots

/-! ## What a step changes nothing about -/

theorem SaveJob.slot_capture (j : SaveJob) (f : SaveFilter) (info : SlotInfo) (w : World) :
    (j.capture f info w).1.slot = j.slot := by
  unfold SaveJob.capture
  split
  · rfl
  · split <;> rfl

theorem SaveJob.slot_advance (j : SaveJob) (f : SaveFilter) (now : Instant) (version : String)
    (w : World) : (j.advance f now version w).1.slot = j.slot := by
  unfold SaveJob.advance
  split
  · exact slot_capture ..
  · exact slot_capture ..
  · split <;> rfl

theorem LoadJob.slot_arrive (j : LoadJob) (f : SaveFilter) (info : SlotInfo) (data : Snapshot)
    (restored : Catalog (id : String → String)) (w : World) :
    (j.arrive f info data restored w).1.slot = j.slot := by
  unfold LoadJob.arrive
  simp only
  split <;> rfl

theorem LoadJob.slot_advance (j : LoadJob) (f : SaveFilter) (p : Preset) (w : World) :
    (j.advance f p w).1.slot = j.slot := by
  unfold LoadJob.advance
  split
  · rfl
  · split <;> rfl
  · split
    · rfl
    · exact slot_arrive ..
    · rfl
    · rfl
  · exact slot_arrive ..

namespace Job

/-- What a step changes nothing about. -/
def subject (j : Job) : TaskKind × Option SlotId := (j.kind, j.target?)

theorem subject_advance (j : Job) (f : SaveFilter) (p : Preset) (now : Instant) (w : World) :
    (j.advance f p now w).1.subject = j.subject := by
  cases j with
  | save j => simp only [advance, subject, kind, target?, SaveJob.slot_advance]
  | load j => simp only [advance, subject, kind, target?, LoadJob.slot_advance]
  | info | infos | deleteAll => rfl

theorem subject_runWork {σ : Type} [SlotStore σ] (j : Job) (s : σ) :
    (j.runWork s).1.subject = j.subject := by
  rcases j with ⟨_, _, _, _, phase⟩ | ⟨_, phase⟩ | ⟨_, phase⟩ | ⟨_, phase⟩ | phase <;> cases phase
  case save.writing =>
    simp only [runWork]
    split <;> rfl
  all_goals rfl

theorem subject_loseWork (j : Job) : j.loseWork.subject = j.subject := by
  rcases j with ⟨_, _, _, _, phase⟩ | ⟨_, phase⟩ | ⟨_, phase⟩ | ⟨_, phase⟩ | phase <;> cases phase <;> rfl

theorem subject_regionReady {j j' : Job} {f : SaveFilter} {region : String} {w w' : World}
    (h : j.regionReady? f region w = some (j', w')) : j'.subject = j.subject := by
  unfold regionReady? at h
  split at h <;> try cases h
  split at h <;> try cases h
  obtain ⟨_, -, he⟩ := Option.map_eq_some_iff.1 h
  cases he
  rfl

theorem subject_regionUnloading {j j' : Job} {f : SaveFilter} {region : String} {w : World}
    (h : j.regionUnloading? f region w = some j') : j'.subject = j.subject := by
  unfold regionUnloading? at h
  split at h <;> try cases h
  split at h <;> try cases h
  all_goals
    obtain ⟨_, -, he⟩ := Option.map_eq_some_iff.1 h
    cases he
    rfl

/-- A job that ends has no work in flight. -/
theorem inFlight_advance {j : Job} {f : SaveFilter} {p : Preset} {now : Instant} {w : World}
    (h : (j.advance f p now w).2.2.isSome) : (j.advance f p now w).1.inFlight = false := by
  rcases j with ⟨slot, name, shot, unloaded, phase⟩ | ⟨slot, phase⟩ | ⟨slot, phase⟩ | ⟨recent, phase⟩ |
    phase <;> cases phase
  case save.writing work =>
    cases work <;> first | rfl | simp [advance, SaveJob.advance, Handle.poll] at h
  case load.readingInfo work =>
    cases work with
    | finished r => cases r <;> first | rfl | simp [advance, LoadJob.advance, Handle.poll] at h
    | lost => rfl
    | waiting | held => simp [advance, LoadJob.advance, Handle.poll] at h
  case load.readingData info work =>
    cases work with
    | finished r =>
      cases r with
      | ok data =>
        simp only [advance, LoadJob.advance, Handle.poll, LoadJob.arrive] at h ⊢
        split <;> rfl
      | error e => rfl
    | lost => rfl
    | waiting | held => simp [advance, LoadJob.advance, Handle.poll] at h
  case load.travelling info data restored =>
    simp only [advance, LoadJob.advance, LoadJob.arrive]
    split <;> rfl
  case info.working work | infos.working work | deleteAll.working work =>
    cases work <;> first | rfl | simp [advance, WorkPhase.advance, Handle.poll] at h
  all_goals simp [advance, SaveJob.advance, LoadJob.advance, WorkPhase.advance] at h

/-- Whether nothing has been done for a job yet. -/
def isFresh : Job → Bool
  | save { phase := .start, .. } | load { phase := .start, .. } => true
  | info _ .start | infos _ .start | deleteAll .start => true
  | _ => false

end Job

namespace Task

/-- What stays the same about a task as long as it lives. -/
def label (t : Task) : Nat × SaveFilter × TaskKind × Option SlotId :=
  (t.number, t.filter, t.job.subject)

variable {t t' : Task}

theorem number_eq (h : t'.label = t.label) : t'.number = t.number := congrArg Prod.fst h

theorem filter_eq (h : t'.label = t.label) : t'.filter = t.filter := congrArg (fun l => l.2.1) h

theorem kind_eq (h : t'.label = t.label) : t'.kind = t.kind :=
  congrArg (fun l => l.2.2.1) h

theorem target_eq (h : t'.label = t.label) : t'.target? = t.target? :=
  congrArg (fun l => l.2.2.2) h

theorem locks_eq (h : t'.label = t.label) : t'.locks = t.locks := by
  simp only [locks, kind_eq h]

theorem label_start (t : Task) : t.start.label = t.label := by
  unfold start
  split <;> rfl

theorem label_advance (t : Task) (p : Preset) (now : Instant) (w : World) :
    (t.advance p now w).1.label = t.label := by
  unfold advance
  split
  · simp only [label, Job.subject_advance]
  · rfl

theorem label_runWork {σ : Type} [SlotStore σ] (t : Task) (s : σ) :
    (t.runWork s).1.label = t.label := by
  simp only [runWork, label, Job.subject_runWork]

theorem label_loseWork (t : Task) : t.loseWork.label = t.label := by
  simp only [loseWork, label, Job.subject_loseWork]

/-- What stays the same about a task between ticks. -/
def badge (t : Task) : (Nat × SaveFilter × TaskKind × Option SlotId) × TaskState := (t.label, t.state)

theorem badge_runWork {σ : Type} [SlotStore σ] (t : Task) (s : σ) : (t.runWork s).1.badge = t.badge := by
  simp only [badge, label_runWork]
  rfl

theorem badge_loseWork (t : Task) : t.loseWork.badge = t.badge := by
  simp only [badge, label_loseWork]
  rfl

theorem isTerminal_stateAfter (r : Option TaskResult) : (stateAfter r).isTerminal = r.isSome := by
  rcases r with _ | _ | _ <;> rfl

theorem state_start (h : t.state.isTerminal = false) : t.start.state = .running := by
  unfold start
  split
  · rfl
  · cases hs : t.state <;> simp_all [TaskState.isTerminal]

/-- A live task takes its state from what its step comes to. -/
theorem state_step (h : t.state.isTerminal = false) (p : Preset) (now : Instant) (w : World) :
    (t.start.advance p now w).1.state = stateAfter (t.start.advance p now w).2.2 := by
  unfold advance
  rw [if_pos (state_start h)]

theorem inFlight_step (h : t.state.isTerminal = false) {p : Preset} {now : Instant} {w : World}
    (hr : (t.start.advance p now w).2.2.isSome) : (t.start.advance p now w).1.inFlight = false := by
  unfold advance at hr ⊢
  rw [if_pos (state_start h)] at hr ⊢
  exact Job.inFlight_advance hr

end Task

namespace Manager

theorem sweep_cons (m : Manager) (now : Instant) (w : World) (t : Task) (ts : List Task) :
    m.sweep now w (t :: ts) =
      let a := t.start.advance m.preset now w
      let r := m.sweep now a.2.1 ts
      { tasks := a.1 :: r.tasks
        world := r.world
        events := (if t.state = .created then m.notify t.filter (beganHook? t.kind) else []) ++ r.events
        ended := (a.2.2.map fun result => (a.1, result, true)).toList ++ r.ended } := rfl

theorem labels_sweep (m : Manager) (now : Instant) (w : World) (ts : List Task) :
    (m.sweep now w ts).tasks.map Task.label = ts.map Task.label := by
  induction ts generalizing w with
  | nil => rfl
  | cons t ts ih => simp only [sweep_cons, List.map_cons, ih, Task.label_advance, Task.label_start]

/-- Where a task of a sweep comes from. -/
theorem mem_sweep {m : Manager} {now : Instant} {w : World} {ts : List Task} {t' : Task}
    (h : t' ∈ (m.sweep now w ts).tasks) : ∃ t ∈ ts, ∃ w', (t.start.advance m.preset now w').1 = t' := by
  induction ts generalizing w with
  | nil => cases h
  | cons t ts ih =>
    rcases List.mem_cons.1 h with rfl | h
    · exact ⟨t, by simp, w, rfl⟩
    · obtain ⟨u, hu, hw⟩ := ih h
      exact ⟨u, by simp [hu], hw⟩

theorem mem_ended {m : Manager} {now : Instant} {w : World} {ts : List Task}
    {e : Task × TaskResult × Bool} (h : e ∈ (m.sweep now w ts).ended) :
    ∃ t ∈ ts, ∃ w' w'', t.start.advance m.preset now w' = (e.1, w'', some e.2.1) := by
  induction ts generalizing w with
  | nil => cases h
  | cons t ts ih =>
    rcases List.mem_append.1 h with h | h
    · simp only [Option.mem_toList, Option.map_eq_some_iff] at h
      obtain ⟨r, hr, rfl⟩ := h
      exact ⟨t, by simp, w, _, Prod.ext rfl (Prod.ext rfl hr)⟩
    · obtain ⟨u, hu, hw⟩ := ih h
      exact ⟨u, by simp [hu], hw⟩

/-- The tasks that a sweep settles are those that it ends. -/
theorem ended_sweep {m : Manager} {now : Instant} {w : World} {ts : List Task}
    (h : ∀ t ∈ ts, t.state.isTerminal = false) :
    (m.sweep now w ts).ended.map Prod.fst =
      (m.sweep now w ts).tasks.filter fun t => t.state.isTerminal := by
  induction ts generalizing w with
  | nil => rfl
  | cons t ts ih =>
    have ht := Task.state_step (h t (by simp)) m.preset now w
    simp only [sweep_cons, List.map_append, List.filter_cons, ih fun u hu => h u (by simp [hu])]
    rw [ht, Task.isTerminal_stateAfter]
    cases (t.start.advance m.preset now w).2.2 <;> simp

/-! ## What happens between ticks -/

/-- Puts a task in the place of the one with its number. -/
theorem map_replaced {β : Type} {ts : List Task} {t u : Task} (hd : (ts.map Task.number).Nodup)
    (ht : t ∈ ts) {f : Task → β} (hf : f u = f t) :
    (ts.map fun x => if x.number = t.number then u else x).map f = ts.map f := by
  rw [List.map_map]
  apply List.map_congr_left
  intro x hx
  by_cases hn : x.number = t.number
  · have hxt : x = t := List.inj_on_of_nodup_map hd hx ht hn
    simp [hf, hxt]
  · simp [hn]

variable {σ : Type} [SlotStore σ]

theorem badges_runWork {m : Manager} (hd : (m.tasks.map Task.number).Nodup) (s : σ) (n : Nat) :
    (m.runWork s n).1.tasks.map Task.badge = m.tasks.map Task.badge := by
  unfold runWork
  split
  · rfl
  · next t ht =>
    have hn : t.number = n := by simpa using List.find?_some ht
    subst hn
    exact map_replaced hd (List.mem_of_find?_eq_some ht) (Task.badge_runWork t s)

theorem badges_loseWork (m : Manager) (n : Nat) :
    (m.loseWork n).tasks.map Task.badge = m.tasks.map Task.badge := by
  simp only [loseWork, List.map_map]
  apply List.map_congr_left
  intro t _
  by_cases hn : t.number = n
  · simp [hn, Task.badge_loseWork]
  · simp [hn]

theorem mem_streamingTask {m : Manager} {t : Task} (h : m.streamingTask? = some t) : t ∈ m.tasks :=
  List.mem_of_find?_eq_some h

/-- A region that comes changes at most the job of the streaming task, and the world as that job does. -/
theorem regionReady_cases (m : Manager) (region : String) (w : World) :
    (∃ r, m.regionReady region w = (false, { m with regions := r }, w) ∧
      ∀ t, m.streamingTask? = some t → t.job.regionReady? t.filter region w = none) ∨
    ∃ r t job w', m.streamingTask? = some t ∧ t.job.regionReady? t.filter region w = some (job, w') ∧
      m.regionReady region w = (true, { m.putTask { t with job } with regions := r }, w') := by
  unfold regionReady
  simp only
  split
  · next t' w' hm =>
    simp only [Option.bind_eq_bind, Option.bind_eq_some_iff, Option.pure_def, Option.some.injEq] at hm
    obtain ⟨t, ht, ⟨job, w''⟩, hj, he⟩ := hm
    obtain ⟨rfl, rfl⟩ : _ = t' ∧ _ = w' := by simpa using he
    exact .inr ⟨_, t, job, w'', ht, hj, rfl⟩
  · next hm =>
    refine .inl ⟨_, rfl, fun t ht => ?_⟩
    simp only [Option.bind_eq_bind, Option.bind_eq_none_iff, Option.pure_def] at hm
    cases hj : t.job.regionReady? t.filter region w with
    | none => rfl
    | some p => exact absurd (hm t ht p hj) nofun

/-- A region that goes changes at most the job of the streaming task. -/
theorem regionUnloading_cases (m : Manager) (region : String) (w : World) :
    (∃ r, m.regionUnloading region w = (false, { m with regions := r }) ∧
      ∀ t, m.streamingTask? = some t → t.job.regionUnloading? t.filter region w = none) ∨
    ∃ r t job, m.streamingTask? = some t ∧ t.job.regionUnloading? t.filter region w = some job ∧
      m.regionUnloading region w = (true, { m.putTask { t with job } with regions := r }) := by
  unfold regionUnloading
  simp only
  split
  · next t' hm =>
    simp only [Option.bind_eq_bind, Option.bind_eq_some_iff, Option.pure_def, Option.some.injEq] at hm
    obtain ⟨t, ht, job, hj, rfl⟩ := hm
    exact .inr ⟨_, t, job, ht, hj, rfl⟩
  · next hm =>
    refine .inl ⟨_, rfl, fun t ht => ?_⟩
    simp only [Option.bind_eq_bind, Option.bind_eq_none_iff, Option.pure_def] at hm
    cases hj : t.job.regionUnloading? t.filter region w with
    | none => rfl
    | some job => exact absurd (hm t ht job hj) nofun

theorem badges_regionReady {m : Manager} (hd : (m.tasks.map Task.number).Nodup) (region : String)
    (w : World) : (m.regionReady region w).2.1.tasks.map Task.badge = m.tasks.map Task.badge := by
  rcases regionReady_cases m region w with ⟨r, h, -⟩ | ⟨r, t, job, w', ht, hj, h⟩
  · rw [h]
  · rw [h]
    refine map_replaced hd (mem_streamingTask ht) ?_
    simp only [Task.badge, Task.label, Job.subject_regionReady hj]

theorem badges_regionUnloading {m : Manager} (hd : (m.tasks.map Task.number).Nodup) (region : String)
    (w : World) : (m.regionUnloading region w).2.tasks.map Task.badge = m.tasks.map Task.badge := by
  rcases regionUnloading_cases m region w with ⟨r, h, -⟩ | ⟨r, t, job, ht, hj, h⟩
  · rw [h]
  · rw [h]
    refine map_replaced hd (mem_streamingTask ht) ?_
    simp only [Task.badge, Task.label, Job.subject_regionUnloading hj]

/-! ## Requests -/

theorem bind_ok {ε α β : Type} {x : Except ε α} {f : α → Except ε β} {b : β}
    (h : x >>= f = .ok b) : ∃ a, x = .ok a ∧ f a = .ok b := by
  cases x with
  | error e => cases h
  | ok a => exact ⟨a, rfl, h⟩

theorem running_of_check {m : Manager} {u : Unit} (h : m.checkRunning = .ok u) : m.running = true := by
  unfold checkRunning at h
  split at h
  · assumption
  · cases h

theorem valid_of_check {m : Manager} {slot : SlotId} {u : Unit} (h : m.checkSlot slot = .ok u) :
    m.preset.isValidSlot slot = true := by
  unfold checkSlot at h
  split at h
  · assumption
  · cases h

/-- What an accepted job is like, as far as the roster is concerned. -/
structure Accepted (m : Manager) (j : Job) : Prop where
  running : m.running = true
  fresh : j.isFresh = true
  valid : ∀ slot, j.target? = some slot → m.preset.isValidSlot slot = true
  free : j.kind ≠ .loadInfos → m.checkFree j.kind = .ok ()

theorem saveJob_ok {m : Manager} {s : σ} {slot : SlotId} {overwrite : Bool} {shot : Option ScreenshotSize} {j : Job}
    (h : m.saveJob s slot overwrite shot = .ok j) :
    m.checkRunning = .ok () ∧ m.checkSlot slot = .ok () ∧ m.checkFree .save = .ok () ∧
      checkNew s slot overwrite = .ok () ∧ j = .save ⟨slot, m.saveName slot, shot, .empty, .start⟩ := by
  unfold saveJob at h
  obtain ⟨_, hr, h⟩ := bind_ok h
  obtain ⟨_, hv, h⟩ := bind_ok h
  obtain ⟨_, hf, h⟩ := bind_ok h
  obtain ⟨_, hn, h⟩ := bind_ok h
  cases h
  exact ⟨hr, hv, hf, hn, rfl⟩

theorem loadJob_ok {m : Manager} {s : σ} {slot : SlotId} {j : Job} (h : m.loadJob s slot = .ok j) :
    m.checkRunning = .ok () ∧ m.checkSlot slot = .ok () ∧ m.checkFree .load = .ok () ∧
      checkSaved s slot = .ok () ∧ j = .load ⟨slot, .start⟩ := by
  unfold loadJob at h
  obtain ⟨_, hr, h⟩ := bind_ok h
  obtain ⟨_, hv, h⟩ := bind_ok h
  obtain ⟨_, hf, h⟩ := bind_ok h
  obtain ⟨_, hs, h⟩ := bind_ok h
  cases h
  exact ⟨hr, hv, hf, hs, rfl⟩

theorem accepted_save {m : Manager} {s : σ} {slot : SlotId} {overwrite : Bool}
    {shot : Option ScreenshotSize} {j : Job} (h : m.saveJob s slot overwrite shot = .ok j) :
    Accepted m j := by
  obtain ⟨hr, hv, hf, -, rfl⟩ := saveJob_ok h
  refine ⟨running_of_check hr, rfl, ?_, fun _ => hf⟩
  intro _ hs
  cases hs
  exact valid_of_check hv

theorem accepted_load {m : Manager} {s : σ} {slot : SlotId} {j : Job}
    (h : m.loadJob s slot = .ok j) : Accepted m j := by
  obtain ⟨hr, hv, hf, -, rfl⟩ := loadJob_ok h
  refine ⟨running_of_check hr, rfl, ?_, fun _ => hf⟩
  intro _ hs
  cases hs
  exact valid_of_check hv

theorem accepted {m : Manager} {s : σ} {r : Request} {j : Job} (h : m.job s r = .ok j) :
    Accepted m j := by
  cases r with
  | save slot overwrite shot => exact accepted_save h
  | load slot => exact accepted_load h
  | saveCurrent shot =>
    simp only [job] at h
    split at h
    · exact accepted_save h
    · cases h
  | reload =>
    simp only [job] at h
    split at h
    · exact accepted_load h
    · cases h
  | info slot =>
    obtain ⟨_, hr, h⟩ := bind_ok h
    obtain ⟨_, hv, h⟩ := bind_ok h
    cases h
    refine ⟨running_of_check hr, rfl, ?_, fun hk => absurd rfl hk⟩
    intro _ hs
    cases hs
    exact valid_of_check hv
  | infos recent =>
    obtain ⟨_, hr, h⟩ := bind_ok h
    cases h
    exact ⟨running_of_check hr, rfl, fun _ hs => (by cases hs), fun hk => absurd rfl hk⟩
  | deleteAll =>
    obtain ⟨_, hr, h⟩ := bind_ok h
    obtain ⟨_, hf, h⟩ := bind_ok h
    cases h
    exact ⟨running_of_check hr, rfl, fun _ hs => (by cases hs), fun _ => hf⟩

/-- The job that each request makes once it is accepted. -/
inductive Makes (m : Manager) : Request → Job → Prop
  | save (slot : SlotId) (overwrite : Bool) (shot : Option ScreenshotSize) :
      Makes m (.save slot overwrite shot) (.save ⟨slot, m.saveName slot, shot, .empty, .start⟩)
  | saveCurrent {slot : SlotId} (shot : Option ScreenshotSize) (h : m.activeId = some slot) :
      Makes m (.saveCurrent shot) (.save ⟨slot, m.saveName slot, shot, .empty, .start⟩)
  | load (slot : SlotId) : Makes m (.load slot) (.load ⟨slot, .start⟩)
  | reload {slot : SlotId} (h : m.activeId = some slot) : Makes m .reload (.load ⟨slot, .start⟩)
  | info (slot : SlotId) : Makes m (.info slot) (.info slot .start)
  | infos (recent : Bool) : Makes m (.infos recent) (.infos recent .start)
  | deleteAll : Makes m .deleteAll (.deleteAll .start)

theorem makes {m : Manager} {s : σ} {r : Request} {j : Job} (h : m.job s r = .ok j) : Makes m r j := by
  cases r with
  | save slot overwrite shot =>
    obtain ⟨-, -, -, -, rfl⟩ := saveJob_ok h
    exact .save ..
  | load slot =>
    obtain ⟨-, -, -, -, rfl⟩ := loadJob_ok h
    exact .load ..
  | saveCurrent shot =>
    simp only [job] at h
    split at h
    · next slot hactive =>
      obtain ⟨-, -, -, -, rfl⟩ := saveJob_ok h
      exact .saveCurrent shot hactive
    · cases h
  | reload =>
    simp only [job] at h
    split at h
    · next slot hactive =>
      obtain ⟨-, -, -, -, rfl⟩ := loadJob_ok h
      exact .reload hactive
    · cases h
  | info slot =>
    obtain ⟨_, -, h⟩ := bind_ok h
    obtain ⟨_, -, h⟩ := bind_ok h
    cases h
    exact .info slot
  | infos recent =>
    obtain ⟨_, -, h⟩ := bind_ok h
    cases h
    exact .infos recent
  | deleteAll =>
    obtain ⟨_, -, h⟩ := bind_ok h
    obtain ⟨_, -, h⟩ := bind_ok h
    cases h
    exact .deleteAll

theorem request_ok {m m' : Manager} {s : σ} {now : Instant} {r : Request} {t : Task}
    (h : m.request s now r = .ok (t, m')) :
    Accepted m t.job ∧ t.number = m.issued ∧ t.state = .created ∧
      m' = { m with tasks := m.tasks ++ [t], issued := m.issued + 1 } := by
  unfold request at h
  cases hj : m.job s r with
  | error e =>
    rw [hj] at h
    cases h
  | ok j =>
    rw [hj] at h
    cases h
    exact ⟨accepted hj, rfl, rfl, rfl⟩

/-- A job that locks the manager is accepted only if no task of the roster locks it. -/
theorem Accepted.unlocked {m : Manager} {j : Job} (h : Accepted m j) (hk : j.kind ≠ .loadInfos)
    (hl : ∀ t ∈ m.tasks, t.state.isTerminal = false) : ∀ t ∈ m.tasks, t.locks = false := by
  have hf := h.free hk
  unfold checkFree at hf
  split at hf
  · cases hf
  · next hn =>
    intro t ht
    have hc := List.find?_eq_none.1 hn t ht
    rw [hl t ht] at hc
    revert hc hk
    unfold Task.locks Resource.conflicts
    cases t.kind <;> cases j.kind <;> decide

/-! ## Ticks and teardown -/

theorem finishAll_eq (m : Manager) (es : List (Task × TaskResult × Bool)) :
    (m.finishAll es).1 = { m with active := es.foldl (fun a e => activeAfter a e.2.1) m.active } := by
  induction es generalizing m with
  | nil => rfl
  | cons e es ih => simp only [finishAll, finish, ih, List.foldl_cons]

theorem swept_of_running {m : Manager} (hr : m.running = true) (now : Instant) (w : World) :
    m.swept now w = (m.sweep now w m.tasks).tasks := by
  rw [swept, if_pos hr]

/-- A tick takes the tasks off the roster that it ends, and changes nothing else but the active slot. -/
theorem tick_eq (m : Manager) (now : Instant) (w : World) (hr : m.running = true) :
    (m.tick now w).1 =
      { m with
        tasks := (m.swept now w).filter fun t => !t.state.isTerminal
        active := (m.sweep now w m.tasks).ended.foldl (fun a e => activeAfter a e.2.1) m.active } := by
  simp only [tick, if_pos hr, finishAll_eq, swept]

theorem tick_stopped (m : Manager) (now : Instant) (w : World) (hr : m.running = false) :
    m.tick now w = (m, w, []) := by
  simp [tick, hr]

theorem deinitialize_eq (m : Manager) (hr : m.running = true) :
    m.deinitialize.1 =
      { m with running := false, tasks := [], active := none, fallback := none, observers := [], regions := .new } := by
  simp only [ deinitialize, if_pos hr, finishAll_eq]

theorem deinitialize_stopped (m : Manager) (hr : m.running = false) : m.deinitialize = (m, []) := by
  simp [ deinitialize, hr]

/-- Deleting one slot touches neither the roster nor anything else but the active slot. -/
theorem deleteSlot_eq (m : Manager) (s : σ) (slot : SlotId) :
    ∃ a, (m.deleteSlot s slot).2.1 = { m with active := a } ∧ (m.active = none → a = none) := by
  unfold deleteSlot
  split
  · exact ⟨m.active, rfl, id⟩
  · split
    · exact ⟨m.active, rfl, id⟩
    · split
      · exact ⟨none, rfl, fun _ => rfl⟩
      · exact ⟨m.active, rfl, id⟩

end Manager

/-! ## Order -/

variable {σ : Type}

/-- The roster between calls. -/
structure Orderly (g : Game σ) : Prop where
  live : ∀ t ∈ g.manager.tasks, t.state.isTerminal = false
  single : g.manager.tasks.countP Task.locks ≤ 1
  distinct : (g.manager.tasks.map Task.number).Nodup
  issued : ∀ t ∈ g.manager.tasks, t.number < g.manager.issued
  stopped : g.manager.running = false → g.manager.tasks = [] ∧ g.manager.active = none
  moored : g.manager.running = true → g.adrift = []

namespace Orderly

variable {g g' : Game σ}

theorem countP_locks (ts : List Task) :
    ts.countP Task.locks = (ts.map Task.label).countP fun l => l.2.2.1 != .loadInfos := by
  rw [List.countP_map]
  rfl

theorem map_number (ts : List Task) : ts.map Task.number = (ts.map Task.label).map Prod.fst := by
  rw [List.map_map]
  rfl

theorem map_label (ts : List Task) : ts.map Task.label = (ts.map Task.badge).map Prod.fst := by
  rw [List.map_map]
  rfl

theorem of_badges (h : Orderly g) (hb : g'.manager.tasks.map Task.badge = g.manager.tasks.map Task.badge)
    (hi : g'.manager.issued = g.manager.issued) (hr : g'.manager.running = g.manager.running)
    (ha : g.manager.active = none → g'.manager.active = none)
    (hm : g.adrift = [] → g'.adrift = []) : Orderly g' := by
  have hfrom : ∀ t ∈ g'.manager.tasks, ∃ u ∈ g.manager.tasks, u.badge = t.badge := by
    intro t ht
    have hmem : t.badge ∈ g.manager.tasks.map Task.badge := hb ▸ List.mem_map_of_mem ht
    exact List.mem_map.1 hmem
  refine ⟨?_, ?_, ?_, ?_, ?_, fun hs => hm (h.moored (hr ▸ hs))⟩
  · intro t ht
    obtain ⟨u, hu, he⟩ := hfrom t ht
    have hlive := h.live u hu
    rwa [show u.state = t.state from congrArg Prod.snd he] at hlive
  · rw [countP_locks, map_label, hb, ← map_label, ← countP_locks]
    exact h.single
  · rw [map_number, map_label, hb, ← map_label, ← map_number]
    exact h.distinct
  · intro t ht
    obtain ⟨u, hu, he⟩ := hfrom t ht
    have hlt := h.issued u hu
    rw [hi]
    rwa [show u.number = t.number from congrArg (·.1.1) he] at hlt
  · intro hs
    obtain ⟨ht, hact⟩ := h.stopped (hr ▸ hs)
    refine ⟨?_, ha hact⟩
    rw [ht] at hb
    simpa using hb

theorem of_tasks_eq (h : Orderly g) (ht : g'.manager.tasks = g.manager.tasks)
    (hi : g'.manager.issued = g.manager.issued) (hr : g'.manager.running = g.manager.running)
    (ha : g.manager.active = none → g'.manager.active = none)
    (hm : g.adrift = [] → g'.adrift = []) : Orderly g' :=
  h.of_badges (by rw [ht]) hi hr ha hm

theorem labels_swept (h : Orderly g) (now : Instant) (w : World) :
    (g.manager.swept now w).map Task.label = g.manager.tasks.map Task.label := by
  cases hr : g.manager.running with
  | true => rw [Manager.swept_of_running hr, Manager.labels_sweep]
  | false => simp [Manager.swept, hr, (h.stopped hr).1]

/-- No task that a tick ends leaves work behind. -/
theorem none_left (h : Orderly g) (now : Instant) :
    ((g.manager.swept now g.world).filter fun t => t.state.isTerminal && t.inFlight) = [] := by
  rw [List.filter_eq_nil_iff]
  intro t ht hc
  obtain ⟨hterm, hfly⟩ := Bool.and_eq_true_iff.1 hc
  unfold Manager.swept at ht
  split at ht
  · obtain ⟨u, hu, w, rfl⟩ := Manager.mem_sweep ht
    have hl := h.live u hu
    rw [Task.state_step hl, Task.isTerminal_stateAfter] at hterm
    rw [Task.inFlight_step hl hterm] at hfly
    cases hfly
  · cases ht

variable [SlotStore σ]

theorem request (h : Orderly g) {m : Manager} {t : Task} {now : Instant} {r : Request}
    (hq : g.manager.request g.store now r = .ok (t, m)) : Orderly { g with manager := m } := by
  obtain ⟨ha, hn, hs, rfl⟩ := Manager.request_ok hq
  refine ⟨?_, ?_, ?_, ?_, ?_, h.moored⟩
  · intro u hu
    rcases List.mem_append.1 hu with hu | hu
    · exact h.live u hu
    · rw [List.mem_singleton.1 hu, hs]
      rfl
  · simp only [List.countP_append, List.countP_singleton]
    by_cases hk : t.job.kind = .loadInfos
    · have hl : t.locks = false := by simp [Task.locks, Task.kind, hk]
      simpa [hl] using h.single
    · have hz : g.manager.tasks.countP Task.locks = 0 := by
        rw [List.countP_eq_zero]
        intro u hu
        simp [ha.unlocked hk h.live u hu]
      rw [hz]
      split <;> omega
  · rw [List.map_append, List.nodup_append]
    refine ⟨h.distinct, by simp, ?_⟩
    intro a hm b hb
    obtain ⟨u, hu, rfl⟩ := List.mem_map.1 hm
    have hlt := h.issued u hu
    simp only [List.map_cons, List.map_nil, List.mem_singleton] at hb
    omega
  · intro u hu
    rcases List.mem_append.1 hu with hu | hu
    · exact Nat.lt_succ_of_lt (h.issued u hu)
    · rw [List.mem_singleton.1 hu, hn]
      exact Nat.lt_succ_self _
  · intro hr
    exact absurd ha.running (by simp [show g.manager.running = false from hr])

theorem tasks_tick (h : Orderly g) (now : Instant) :
    (g.step (.tick now)).manager.tasks =
      (g.manager.swept now g.world).filter fun t => !t.state.isTerminal := by
  change (g.manager.tick now g.world).1.tasks = _
  cases hr : g.manager.running with
  | true => rw [Manager.tick_eq _ _ _ hr]
  | false => simp [Manager.tick_stopped _ _ _ hr, Manager.swept, hr, (h.stopped hr).1]

theorem tick (h : Orderly g) (now : Instant) : Orderly (g.step (.tick now)) := by
  have hsub : ((g.step (.tick now)).manager.tasks.map Task.label).Sublist
      (g.manager.tasks.map Task.label) := by
    rw [h.tasks_tick, ← h.labels_swept now g.world]
    exact List.filter_sublist.map _
  -- a tick changes nothing but the roster and the active slot
  have hrest : ∃ ts a, (g.step (.tick now)).manager = { g.manager with tasks := ts, active := a } ∧
      (g.manager.running = false → a = none) := by
    change ∃ ts a, (g.manager.tick now g.world).1 = _ ∧ _
    cases hr : g.manager.running with
    | true => exact ⟨_, _, Manager.tick_eq _ _ _ hr, fun hf => by cases hf⟩
    | false => exact ⟨_, _, congrArg Prod.fst (Manager.tick_stopped _ _ _ hr), fun _ => (h.stopped hr).2⟩
  obtain ⟨ts, a, he, ha⟩ := hrest
  refine ⟨?_, ?_, ?_, ?_, ?_, ?_⟩
  · intro t ht
    rw [h.tasks_tick] at ht
    simpa using (List.mem_filter.1 ht).2
  · rw [countP_locks]
    exact Nat.le_trans hsub.countP_le (countP_locks _ ▸ h.single)
  · rw [map_number]
    exact (map_number _ ▸ h.distinct).sublist (hsub.map _)
  · intro t ht
    obtain ⟨u, hu, hlabel⟩ := List.mem_map.1 (hsub.subset (List.mem_map_of_mem ht))
    have hlt := h.issued u hu
    rw [Task.number_eq hlabel.symm, he]
    exact hlt
  · intro hs
    have hstop : g.manager.running = false := by rwa [he] at hs
    refine ⟨?_, by rw [he]; exact ha hstop⟩
    rw [(h.stopped hstop).1] at hsub
    simpa using hsub
  · intro hr
    have hrun : g.manager.running = true := by rwa [he] at hr
    change g.adrift ++ _ = []
    rw [h.none_left, h.moored hrun]
    rfl

theorem runWork (h : Orderly g) (n : Nat) : Orderly (g.work n) := by
  have hstill : (g.manager.runWork g.store n).1 = { g.manager with
      tasks := (g.manager.runWork g.store n).1.tasks } := by
    unfold Manager.runWork
    split <;> rfl
  refine h.of_badges (Manager.badges_runWork h.distinct g.store n) ?_ ?_ ?_ ?_
  · exact congrArg (fun m => m.issued) hstill
  · exact congrArg (fun m => m.running) hstill
  · intro ha
    exact (congrArg Manager.active hstill).trans ha
  · intro hm
    change (Manager.runWork _ _ n).1.tasks = []
    simp [Manager.runWork, hm]

/-- A move leaves most of a manager alone, unless it is a request or teardown. -/
theorem step_frame (g : Game σ) {m : Move σ} (hq : ∀ r now, m ≠ .request r now) (hd : m ≠ Move.deinitialize) :
    ∃ tasks active fallback observers regions,
      (g.step m).manager = { g.manager with tasks, active, fallback, observers, regions } := by
  cases m with
  | request r now => exact absurd rfl (hq r now)
  | delete slot =>
    obtain ⟨a, he, -⟩ := Manager.deleteSlot_eq g.manager g.store slot
    exact ⟨_, _, _, _, _, he⟩
  | tick now =>
    change ∃ tasks active fallback observers regions, (g.manager.tick now g.world).1 = _
    cases hr : g.manager.running with
    | true => exact ⟨_, _, _, _, _, Manager.tick_eq _ _ _ hr⟩
    | false =>
      rw [Manager.tick_stopped _ _ _ hr]
      exact ⟨_, _, _, _, _, rfl⟩
  | regionReady region =>
    simp only [Game.step]
    rcases Manager.regionReady_cases g.manager region g.world with ⟨r, he, -⟩ | ⟨r, t, job, w, -, -, he⟩ <;>
    · rw [he]
      exact ⟨_, _, _, _, _, rfl⟩
  | regionUnloading region =>
    simp only [Game.step]
    rcases Manager.regionUnloading_cases g.manager region g.world with ⟨r, he, -⟩ | ⟨r, t, job, -, -, he⟩ <;>
    · rw [he]
      exact ⟨_, _, _, _, _, rfl⟩
  | subscribe name =>
    simp only [Game.step, Manager.subscribe]
    split <;> exact ⟨_, _, _, _, _, rfl⟩
  | deinitialize => exact absurd rfl hd
  | work n =>
    change ∃ tasks active fallback observers regions, (g.manager.runWork g.store n).1 = _
    unfold Manager.runWork
    split <;> exact ⟨_, _, _, _, _, rfl⟩
  | lose | unsubscribe | currentInfo | currentData | visit | disturb => exact ⟨_, _, _, _, _, rfl⟩

/-- Only requests make tasks. -/
theorem issued_step (g : Game σ) {m : Move σ} (hq : ∀ r now, m ≠ .request r now) :
    (g.step m).manager.issued = g.manager.issued := by
  by_cases hd : m = Move.deinitialize
  · subst hd
    change g.manager.deinitialize.1.issued = _
    cases hr : g.manager.running with
    | true => rw [Manager.deinitialize_eq _ hr]
    | false => rw [Manager.deinitialize_stopped _ hr]
  · obtain ⟨_, _, _, _, _, he⟩ := step_frame g hq hd
    rw [he]

/-- The preset stays what it is. -/
theorem preset_step (g : Game σ) (m : Move σ) : (g.step m).manager.preset = g.manager.preset := by
  by_cases hq : ∃ r now, m = .request r now
  · obtain ⟨r, now, rfl⟩ := hq
    simp only [Game.step]
    split
    · next hreq =>
      obtain ⟨-, -, -, rfl⟩ := Manager.request_ok hreq
      rfl
    · rfl
  by_cases hd : m = Move.deinitialize
  · subst hd
    change g.manager.deinitialize.1.preset = _
    cases hr : g.manager.running with
    | true => rw [Manager.deinitialize_eq _ hr]
    | false => rw [Manager.deinitialize_stopped _ hr]
  · obtain ⟨_, _, _, _, _, he⟩ := step_frame g (fun r now hm => hq ⟨r, now, hm⟩) hd
    rw [he]

theorem preset_run (g : Game σ) (ms : List (Move σ)) : (g.run ms).manager.preset = g.manager.preset := by
  induction ms generalizing g with
  | nil => rfl
  | cons m ms ih => exact (ih (g.step m)).trans (preset_step g m)

/-- A manager that runs after a move ran before it. -/
theorem running_of_step {m : Move σ} (hr : (g.step m).manager.running = true) :
    g.manager.running = true ∧ m ≠ Move.deinitialize := by
  by_cases hd : m = Move.deinitialize
  · -- teardown stops a manager that runs, and none that has stopped runs again
    subst hd
    change g.manager.deinitialize.1.running = true at hr
    cases hg : g.manager.running with
    | true =>
      rw [Manager.deinitialize_eq _ hg] at hr
      cases hr
    | false =>
      rw [Manager.deinitialize_stopped _ hg, hg] at hr
      cases hr
  · refine ⟨?_, hd⟩
    by_cases hq : ∀ r now, m ≠ .request r now
    · obtain ⟨_, _, _, _, _, he⟩ := step_frame g hq hd
      rwa [he] at hr
    · simp only [ne_eq, not_forall, not_not] at hq
      obtain ⟨r, now, rfl⟩ := hq
      unfold Game.step at hr
      simp only at hr
      split at hr
      · next hreq => exact (Manager.request_ok hreq).1.running
      · exact hr

/-- What one move preserves. -/
theorem step (h : Orderly g) (m : Move σ) : Orderly (g.step m) := by
  cases m with
  | request r now =>
    unfold Game.step
    simp only
    split
    · next hq => exact h.request hq
    · exact h
  | delete slot =>
    obtain ⟨a, he, ha⟩ := Manager.deleteSlot_eq g.manager g.store slot
    have hm : (g.step (.delete slot)).manager = { g.manager with active := a } := he
    exact h.of_tasks_eq (by rw [hm]) (by rw [hm]) (by rw [hm]) (fun hn => by rw [hm, ha hn]) id
  | tick now => exact h.tick now
  | regionReady region =>
    refine h.of_badges (Manager.badges_regionReady h.distinct region g.world) ?_ ?_ (fun ha => ?_) id <;>
      rcases Manager.regionReady_cases g.manager region g.world with ⟨r, he, -⟩ | ⟨r, t, job, w, _, _, he⟩ <;>
      simp only [Game.step, he, Manager.putTask]
    all_goals exact ha
  | regionUnloading region =>
    refine h.of_badges (Manager.badges_regionUnloading h.distinct region g.world) ?_ ?_ (fun ha => ?_) id <;>
      rcases Manager.regionUnloading_cases g.manager region g.world with ⟨r, he, -⟩ | ⟨r, t, job, _, _, he⟩ <;>
      simp only [Game.step, he, Manager.putTask]
    all_goals exact ha
  | subscribe name =>
    unfold Game.step Manager.subscribe
    simp only
    split
    · exact h
    · exact h.of_tasks_eq rfl rfl rfl id id
  | unsubscribe | currentInfo | currentData => exact h.of_tasks_eq rfl rfl rfl id id
  | deinitialize =>
    cases hr : g.manager.running with
    | false => refine h.of_tasks_eq ?_ ?_ ?_ ?_ ?_ <;> simp [Game.step, Manager.deinitialize_stopped _ hr, hr]
    | true =>
      have hm : (g.step Move.deinitialize).manager = g.manager.deinitialize.1 := rfl
      rw [Manager.deinitialize_eq _ hr] at hm
      refine ⟨?_, ?_, ?_, ?_, fun _ => ?_, fun hs => ?_⟩ <;> simp_all
  | work n => exact h.runWork n
  | lose n =>
    refine h.of_badges (Manager.badges_loseWork g.manager n) rfl rfl id ?_
    intro hm
    change (Manager.loseWork _ n).tasks = []
    simp [Manager.loseWork, hm]
  | visit w => exact h.of_tasks_eq rfl rfl rfl id id
  | disturb s => exact h.of_tasks_eq rfl rfl rfl id id

end Orderly

theorem orderly_new (p : Preset) (s : σ) (w : World) : Orderly (Game.new p s w) where
  live _ ht := by cases ht
  single := Nat.zero_le 1
  distinct := List.nodup_nil
  issued _ ht := by cases ht
  stopped hr := by cases hr
  moored _ := rfl

variable [SlotStore σ]

/-- What a run preserves. -/
theorem Orderly.run {g : Game σ} (h : Orderly g) (ms : List (Move σ)) : Orderly (g.run ms) := by
  induction ms generalizing g with
  | nil => exact h
  | cons m ms ih => exact ih (h.step m)

/-- A manager that runs after a run has run all the time. -/
theorem Orderly.running_of_run {g : Game σ} (ms : List (Move σ)) (hr : (g.run ms).manager.running = true) :
    g.manager.running = true := by
  induction ms generalizing g with
  | nil => exact hr
  | cons m ms ih => exact (running_of_step (ih hr)).1

/-! ## Single flight -/

theorem Task.locks_iff (t : Task) : t.locks = true ↔ t.kind = .save ∨ t.kind = .load ∨ t.kind = .deleteAll := by
  unfold locks
  cases t.kind <;> decide

/-- A task whose work changes the store locks the manager. -/
theorem Task.locks_of_changesStore {t : Task} (h : t.changesStore = true) : t.locks = true := by
  revert h
  unfold changesStore locks
  cases t.kind <;> simp

/-- Whether a slot must not be deleted while this task is on the roster. -/
def Task.guards (t : Task) (slot : SlotId) : Bool :=
  t.kind = .deleteAll || (t.streams && t.target? = some slot)

/-- A store is left alone by a deletion that a task keeps away, whatever the store would do. -/
theorem Manager.deleteSlot_guarded {m : Manager} {slot : SlotId} (h : ∃ t ∈ m.tasks, t.guards slot = true)
    {ρ : Type} [SlotStore ρ] (r : ρ) : ∃ e, m.deleteSlot r slot = (.error e, m, r) := by
  have hb : ∃ e, m.checkDeletable slot = .error e := by
    unfold checkDeletable
    split
    · exact ⟨_, rfl⟩
    · next hn =>
      obtain ⟨t, ht, hg⟩ := h
      exact absurd hg (List.find?_eq_none.1 hn t ht)
  obtain ⟨e, he⟩ := hb
  unfold deleteSlot
  split
  · next e' _ => exact ⟨e', rfl⟩
  · next hc =>
    obtain ⟨_, -, hc⟩ := bind_ok hc
    obtain ⟨_, -, hc⟩ := bind_ok hc
    rw [he] at hc
    cases hc

/-- In every state that a manager can reach, tasks that save, load or delete everything keep each other
away. While the manager runs, at most one piece of work changes the store, and its task is on the roster;
and nobody can delete a slot that a task saves to or loads, or any slot while everything is being deleted:
the store is not even asked. -/
theorem single_flight (p : Preset) (s : σ) (w : World) (ms : List (Move σ)) :
    let g := (Game.new p s w).run ms
    (∀ t ∈ g.manager.tasks, t.state = .created ∨ t.state = .running) ∧
    (g.manager.tasks.filter Task.locks).length ≤ 1 ∧
    (g.manager.running = true → g.changing.length ≤ 1 ∧
      ∀ t ∈ g.changing, t ∈ g.manager.tasks.filter Task.locks) ∧
    ∀ slot, (∃ t ∈ g.manager.tasks, t.guards slot = true) →
      ∀ (ρ : Type) [SlotStore ρ] (r : ρ), ∃ e, g.manager.deleteSlot r slot = (.error e, g.manager, r) := by
  intro g
  have h : Orderly g := (orderly_new p s w).run ms
  have hone : (g.manager.tasks.filter Task.locks).length ≤ 1 := by
    rw [← List.countP_eq_length_filter]
    exact h.single
  refine ⟨?_, hone, ?_, fun slot hg ρ _ r => Manager.deleteSlot_guarded hg r⟩
  · intro t ht
    have hl := h.live t ht
    revert hl
    cases t.state <;> simp [TaskState.isTerminal]
  · intro hr
    have hc : g.changing = (g.manager.tasks.filter Task.locks).filter Task.changesStore := by
      rw [Game.changing, h.moored hr, List.append_nil, List.filter_filter]
      apply List.filter_congr
      intro t _
      cases ht : t.changesStore with
      | false => rfl
      | true => simp [Task.locks_of_changesStore ht]
    rw [hc]
    exact ⟨Nat.le_trans (List.length_filter_le _ _) hone, fun t ht => List.mem_of_mem_filter ht⟩

end SaveSlots
