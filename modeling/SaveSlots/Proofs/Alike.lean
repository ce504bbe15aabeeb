import SaveSlots.Proofs.Core
/-!
# Calls and the core

What a call of the host comes to depends on the core of a game, and on nothing else about its tasks. Games with one
core have one core after the call (`Alike.core_step`), and the host gets the same answer (`Alike.answer`).
-/

namespace SaveSlots

variable {σ : Type}

/-! ## Answers -/

/-- What a call is answered at once. The id of a new task has the time in it, and what tells it from others of the
same time; only the time is an answer. -/
inductive Answer where
  | nothing
  | accepted (millis : Nat)
  | refused (e : SlotError)
  | deleted (r : Except SlotError Unit)
  | used (taken : Bool)
  | info (i : SlotInfo)
  | data (d : Snapshot)

def Turn.answer [SlotStore σ] (x : Turn σ) : Answer :=
  match x.move with
  | .request r now =>
    match x.game.manager.request x.game.store now r with
    | .ok (t, _) => .accepted t.id.millis
    | .error e => .refused e
  | .delete slot => .deleted (x.game.manager.deleteSlot x.game.store slot).1
  | .regionReady region => .used (x.game.manager.regionReady region x.game.world).1
  | .regionUnloading region => .used (x.game.manager.regionUnloading region x.game.world).1
  | .currentInfo => .info x.game.manager.currentInfo.1
  | .currentData => .data x.game.manager.currentData.1
  | _ => .nothing

/-! ## One game -/

theorem Task.locks_of_guards {t : Task} {slot : SlotId} (h : t.guards slot = true) : t.locks = true := by
  revert h
  unfold guards streams locks
  cases t.kind <;> simp

namespace Orderly

variable {g : Game σ}

/-- Only the holder can be what is looked for among all tasks that lock the manager. -/
theorem find_holder (h : Orderly g) {p : Task → Bool} (hp : ∀ t, p t = true → t.locks = true) :
    g.manager.tasks.find? p = g.manager.holder?.filter p := by
  cases hu : g.manager.tasks.find? p with
  | none =>
    cases hh : g.manager.holder? with
    | none => rfl
    | some t =>
      have hno := List.find?_eq_none.1 hu t (List.mem_of_find?_eq_some hh)
      simp [Option.filter, hno]
  | some u =>
    have hpu := List.find?_some hu
    rw [h.holder_of_locks (List.mem_of_find?_eq_some hu) (hp u hpu)]
    simp [Option.filter, hpu]

/-- Regions are offered to the holder. -/
theorem streaming_bind {α : Type} (h : Orderly g) {f : Task → Option α}
    (hf : ∀ t, (f t).isSome = true → t.streams = true) :
    g.manager.streamingTask?.bind f = g.manager.holder?.bind f := by
  have hstreaming : g.manager.streamingTask? = g.manager.holder?.filter fun t => t.streams && !t.state.isTerminal :=
    h.find_holder fun t ht => Task.locks_of_streams (Bool.and_eq_true_iff.1 ht).1
  rw [hstreaming]
  cases hh : g.manager.holder? with
  | none => rfl
  | some t =>
    have hlive := h.live t (List.mem_of_find?_eq_some hh)
    cases hs : t.streams with
    | true => simp [Option.filter, hs, hlive]
    | false =>
      cases ht : f t with
      | none => simp [Option.filter, hs, ht]
      | some a =>
        have hstreams := hf t (by rw [ht]; rfl)
        rw [hs] at hstreams
        cases hstreams

/-- A region that has come is for the holder, if it has a use for it. -/
theorem regionReady_eq (h : Orderly g) (region : String) :
    g.manager.regionReady region g.world =
      match g.manager.holder?.bind fun t => (t.job.regionReady? t.filter region g.world).map fun x =>
        (({ t with job := x.1 } : Task), x.2) with
      | some (t, w) => (true, { g.manager.putTask t with regions := (g.manager.regions.track region).count true }, w)
      | none => (false, { g.manager with regions := g.manager.regions.track region }, g.world) := by
  rw [← h.streaming_bind fun t ht => Task.streams_of_regionReady (by rwa [Option.isSome_map] at ht)]
  -- that the region is tracked does not matter to the tasks
  have hsame : ({ g.manager with regions := g.manager.regions.track region } : Manager).streamingTask? =
      g.manager.streamingTask? := rfl
  simp only [Manager.regionReady, hsame]
  cases g.manager.streamingTask? with
  | none => rfl
  | some t => cases hj : t.job.regionReady? t.filter region g.world <;> simp [hj, Manager.putTask]

/-- So is a region that is about to go. -/
theorem regionUnloading_eq (h : Orderly g) (region : String) :
    g.manager.regionUnloading region g.world =
      match g.manager.holder?.bind fun t => (t.job.regionUnloading? t.filter region g.world).map fun job =>
        ({ t with job } : Task) with
      | some t => (true, { g.manager.putTask t with regions := (g.manager.regions.count true).untrack region })
      | none => (false, { g.manager with regions := g.manager.regions.untrack region }) := by
  rw [← h.streaming_bind fun t ht => Task.streams_of_regionUnloading (by rwa [Option.isSome_map] at ht)]
  unfold Manager.regionUnloading
  cases g.manager.streamingTask? with
  | none => rfl
  | some t => cases hj : t.job.regionUnloading? t.filter region g.world <;> simp [hj]

theorem used_regionReady (h : Orderly g) (region : String) :
    (g.manager.regionReady region g.world).1 =
      (g.manager.holder?.bind fun t => t.job.regionReady? t.filter region g.world).isSome := by
  rw [h.regionReady_eq]
  cases g.manager.holder? with
  | none => rfl
  | some t => cases hj : t.job.regionReady? t.filter region g.world <;> simp [hj]

theorem used_regionUnloading (h : Orderly g) (region : String) :
    (g.manager.regionUnloading region g.world).1 =
      (g.manager.holder?.bind fun t => t.job.regionUnloading? t.filter region g.world).isSome := by
  rw [h.regionUnloading_eq]
  cases g.manager.holder? with
  | none => rfl
  | some t => cases hj : t.job.regionUnloading? t.filter region g.world <;> simp [hj]

end Orderly

namespace Game

variable [SlotStore σ]

/-- A tick changes no more of the core than the world, the active slot and the actor. -/
theorem core_tick_frame {g : Game σ} (hr : g.manager.running = true) (now : Instant) :
    (g.step (.tick now)).core =
      { g.core with
        world := (g.step (.tick now)).world
        active := (g.step (.tick now)).manager.active
        actor := (g.step (.tick now)).actor?.map Task.content } := by
  simp only [core, step, Manager.tick_eq _ _ _ hr]

theorem running_tick {g : Game σ} (hr : g.manager.running = true) (now : Instant) :
    (g.step (.tick now)).manager.running = true := by
  simp only [step, Manager.tick_eq _ _ _ hr, hr]

theorem core_deinitialize_stopped {g : Game σ} (hr : g.manager.running = false) :
    (g.step Move.deinitialize).core = g.core := by
  simp [step, Manager.deinitialize_stopped _ hr, hr]

end Game

namespace Tidy

variable [SlotStore σ] {g : Game σ}

/-- A request that is accepted and does more than list makes the actor. -/
theorem core_request (h : Tidy g) {r : Request} (hr : r.lists = false) (now : Instant) :
    (g.step (.request r now)).core =
      match g.manager.job g.store r with
      | .ok job => { g.core with actor := some (.created, g.manager.preset.filter, job) }
      | .error _ => g.core := by
  cases hj : g.manager.job g.store r with
  | error e =>
    simp only [Game.step, Manager.request_of_error hj now]
  | ok job =>
    have hq := Manager.request_of_job hj now
    have hl : (g.manager.register now job).1.locks = true := (Manager.locks_request hq).trans (by rw [hr]; rfl)
    have hmade : Turn.made? ⟨g, .request r now⟩ = some (g.manager.register now job).1 := by
      simp [Turn.made?, hq, Except.toOption]
    obtain ⟨hholder, -, hrun⟩ := h.holder_of_made hmade hl
    have hafter : g.step (.request r now) = { g with manager := (g.manager.register now job).2 } := by
      simp only [Game.step, hq]
    have hactor := (h.step (.request r now)).actor_running (by rw [hafter]; exact hrun)
    have hframe : (g.step (.request r now)).core =
        { g.core with actor := (g.step (.request r now)).actor?.map Task.content } := by
      rw [hafter]
      rfl
    rw [hframe, hactor]
    simp only [Turn.after] at hholder
    rw [hholder]
    rfl

/-- A tick takes the holder a step further, and what comes of the step is all that the core knows of the tick. -/
theorem core_tick (h : Tidy g) {t : Task} (ht : g.manager.holder? = some t) (now : Instant) :
    (g.step (.tick now)).core =
      let a := t.job.advance t.filter g.manager.preset now g.world
      { g.core with
        world := a.2.1
        active := a.2.2.elim g.manager.active (Manager.activeAfter g.manager.active)
        actor := if a.2.2.isSome then none else some (.running, t.filter, a.1) } := by
  have hr := h.running_of_holder ht
  rw [Game.core_tick_frame hr, h.world_tick ht, h.active_tick_holder ht,
    (h.step (.tick now)).actor_running (Game.running_tick hr now), h.holder_tick ht]
  simp only [Game.carried]
  split <;> rfl

/-- A tick without a holder does not change the core. -/
theorem core_tick_unheld (h : Tidy g) (ht : g.manager.holder? = none) (now : Instant) :
    (g.step (.tick now)).core = g.core := by
  cases hr : g.manager.running with
  | false =>
    have hleft : g.manager.swept now g.world = [] := by simp [Manager.swept, hr]
    simp only [Game.step, Manager.tick_stopped _ _ _ hr, hleft, List.filter_nil, List.append_nil]
  | true =>
    obtain ⟨hl, -, -, -, -, hw⟩ := Manager.sweep_unlocked g.manager now g.world (Orderly.unlocked_of_none ht)
    have hactive := Orderly.active_tick_unheld ht now
    have hnone : (g.step (.tick now)).manager.holder? = none := by
      rw [Manager.holder?, h.tasks_tick, Manager.swept_of_running hr, List.find?_eq_none]
      intro t hmem
      simp [hl t (List.mem_filter.1 hmem).1]
    have hworld : (g.step (.tick now)).world = g.world := by
      simp only [Game.step, Manager.tick, if_pos hr, hw]
    rw [Game.core_tick_frame hr, hworld, hactive, (h.step (.tick now)).actor_running (Game.running_tick hr now),
      hnone, ← ht, ← h.actor_running hr]
    rfl

/-- The holder is given another job. -/
theorem core_put (h : Tidy g) {t : Task} (ht : g.manager.holder? = some t) {job : Job}
    (hjob : job.subject = t.job.subject) {m : Move σ} {regions : RegionTracker} {w : World}
    (hstep : g.step m = { g with manager := { g.manager.putTask { t with job } with regions }, world := w }) :
    (g.step m).core = { g.core with world := w, regions, actor := some (t.state, t.filter, job) } := by
  have hlabel : Task.label { t with job } = t.label := by simp only [Task.label, hjob]
  have hrun : (g.step m).manager.running = true := by
    rw [hstep]
    exact h.running_of_holder ht
  have hput := h.holder_put ht hlabel
  have hholder : (g.step m).manager.holder? = some { t with job } := by
    rw [hstep]
    exact hput
  rw [Game.core, (h.step m).actor_running hrun, hholder, hstep]
  rfl

/-- A region that has come changes the actor if it has a use for it. -/
theorem core_regionReady (h : Tidy g) (region : String) :
    (g.step (.regionReady region)).core =
      match g.manager.holder?.bind fun t => (t.job.regionReady? t.filter region g.world).map fun x =>
        ((t.state, t.filter, x.1), x.2) with
      | some (a, w) =>
        { g.core with world := w, regions := (g.manager.regions.track region).count true, actor := some a }
      | none => { g.core with regions := g.manager.regions.track region } := by
  have heq := h.regionReady_eq region
  cases ht : g.manager.holder? with
  | none =>
    rw [ht] at heq
    simp only [Game.step, heq, Option.bind_none]
    rfl
  | some t =>
    rw [ht] at heq
    cases hj : t.job.regionReady? t.filter region g.world with
    | none =>
      simp only [Option.bind_some, hj, Option.map_none] at heq ⊢
      simp only [Game.step, heq]
      rfl
    | some x =>
      simp only [Option.bind_some, hj, Option.map_some] at heq ⊢
      exact h.core_put ht (Job.subject_regionReady hj) (by simp only [Game.step, heq])

theorem core_regionUnloading (h : Tidy g) (region : String) :
    (g.step (.regionUnloading region)).core =
      match g.manager.holder?.bind fun t => (t.job.regionUnloading? t.filter region g.world).map fun job =>
        (t.state, t.filter, job) with
      | some a => { g.core with regions := (g.manager.regions.count true).untrack region, actor := some a }
      | none => { g.core with regions := g.manager.regions.untrack region } := by
  have heq := h.regionUnloading_eq region
  cases ht : g.manager.holder? with
  | none =>
    rw [ht] at heq
    simp only [Game.step, heq, Option.bind_none]
    rfl
  | some t =>
    rw [ht] at heq
    cases hj : t.job.regionUnloading? t.filter region g.world with
    | none =>
      simp only [Option.bind_some, hj, Option.map_none] at heq ⊢
      simp only [Game.step, heq]
      rfl
    | some job =>
      simp only [Option.bind_some, hj, Option.map_some] at heq ⊢
      exact h.core_put (w := g.world) ht (Job.subject_regionUnloading hj) (by simp only [Game.step, heq])

/-- Teardown leaves the actor adrift, if it has work in flight. -/
theorem core_deinitialize (h : Tidy g) (hr : g.manager.running = true) :
    (g.step Move.deinitialize).core =
      { g.core with
        active := none
        fallback := none
        observers := []
        regions := .new
        running := false
        actor := (g.manager.holder?.filter Task.inFlight).map Task.content } := by
  have hactor : (g.step Move.deinitialize).actor? = g.manager.holder?.filter Task.inFlight := by
    have hadrift : (g.step Move.deinitialize).everyTask = g.manager.tasks.filter Task.inFlight := by
      simp [Game.everyTask, Game.step, Manager.deinitialize_eq _ hr, hr, h.moored hr]
    rw [Game.actor?, hadrift, List.find?_filter, h.find_holder fun t ht => (of_decide_eq_true ht).2]
    cases ht : g.manager.holder? with
    | none => rfl
    | some t => simp [Option.filter, (h.holder_split ht).1]
  rw [Game.core, hactor]
  simp only [Game.step, Manager.deinitialize_eq _ hr]
  rfl

end Tidy

/-! ## Two games -/

/-- Games of one preset that are the same but for their listings. -/
structure Alike (g g' : Game σ) : Prop where
  left : Tidy g
  right : Tidy g'
  preset : g'.manager.preset = g.manager.preset
  core : g'.core = g.core

namespace Alike

variable {g g' : Game σ}

theorem world (h : Alike g g') : g'.world = g.world := congrArg Core.world h.core

theorem store (h : Alike g g') : g'.store = g.store := congrArg Core.store h.core

theorem active (h : Alike g g') : g'.manager.active = g.manager.active := congrArg Core.active h.core

theorem fallback (h : Alike g g') : g'.manager.fallback = g.manager.fallback := congrArg Core.fallback h.core

theorem observers (h : Alike g g') : g'.manager.observers = g.manager.observers := congrArg Core.observers h.core

theorem regions (h : Alike g g') : g'.manager.regions = g.manager.regions := congrArg Core.regions h.core

theorem running (h : Alike g g') : g'.manager.running = g.manager.running := congrArg Core.running h.core

theorem actor (h : Alike g g') : g'.actor?.map Task.content = g.actor?.map Task.content :=
  congrArg Core.actor h.core

/-- The same pair is shown of the current slot, and kept. -/
theorem current (h : Alike g g') : g'.manager.current.1 = g.manager.current.1 ∧
    g'.manager.current.2.fallback = g.manager.current.2.fallback := by
  simp only [Manager.current, Manager.shown, h.active, h.fallback, h.preset, and_self]

theorem activeInfo (h : Alike g g') : g'.manager.activeInfo = g.manager.activeInfo := by
  rw [Manager.activeInfo, h.active, Manager.activeInfo]

theorem activeId (h : Alike g g') : g'.manager.activeId = g.manager.activeId := by
  rw [Manager.activeId, h.activeInfo, Manager.activeId]

theorem content_eq {t t' : Task} (h : t'.content = t.content) :
    t'.state = t.state ∧ t'.filter = t.filter ∧ t'.job = t.job := by
  simpa [Task.content] using h

/-- The holders are the same, if there are any. -/
theorem holder (h : Alike g g') :
    (g.manager.holder? = none ∧ g'.manager.holder? = none) ∨
    ∃ t t', g.manager.holder? = some t ∧ g'.manager.holder? = some t' ∧ t'.content = t.content := by
  cases hr : g.manager.running with
  | false =>
    have hr' : g'.manager.running = false := h.running.trans hr
    simp [Manager.holder?, (h.left.stopped hr).1, (h.right.stopped hr').1]
  | true =>
    have hactor := h.actor
    rw [h.left.actor_running hr, h.right.actor_running (h.running.trans hr)] at hactor
    cases ht : g.manager.holder? with
    | none =>
      rw [ht, Option.map_none, Option.map_eq_none_iff] at hactor
      exact .inl ⟨rfl, hactor⟩
    | some t =>
      rw [ht, Option.map_some, Option.map_eq_some_iff] at hactor
      obtain ⟨t', ht', hcontent⟩ := hactor
      exact .inr ⟨t, t', rfl, ht', hcontent⟩

/-- What is asked of the holder comes to the same, if it does not depend on its number or id. -/
theorem bind {α : Type} (h : Alike g g') {f : Task → Option α}
    (hf : ∀ t t', t'.state = t.state → t'.filter = t.filter → t'.job = t.job → f t' = f t) :
    g'.manager.holder?.bind f = g.manager.holder?.bind f := by
  rcases h.holder with ⟨hn, hn'⟩ | ⟨t, t', ht, ht', hcontent⟩
  · rw [hn, hn']
  · obtain ⟨hstate, hfilter, hjob⟩ := content_eq hcontent
    rw [ht, ht']
    exact hf t t' hstate hfilter hjob

/-! ### Requests -/

theorem checkFree (h : Alike g g') {k : TaskKind} (hk : k ≠ .loadInfos) :
    g'.manager.checkFree k = g.manager.checkFree k := by
  rw [h.right.checkFree_eq hk, h.left.checkFree_eq hk]
  rcases h.holder with ⟨hn, hn'⟩ | ⟨t, t', ht, ht', hcontent⟩
  · rw [hn, hn']
  · rw [ht, ht']
    simp only [Task.kind, (content_eq hcontent).2.2]

variable [SlotStore σ]

theorem saveJob (h : Alike g g') (slot : SlotId) (overwrite : Bool) (shot : Option ScreenshotSize) :
    g'.manager.saveJob g'.store slot overwrite shot = g.manager.saveJob g.store slot overwrite shot := by
  simp only [Manager.saveJob, Manager.checkRunning, Manager.checkSlot, Manager.saveName, h.running, h.preset,
    h.store, h.activeInfo, h.checkFree (k := .save) (by decide)]

theorem loadJob (h : Alike g g') (slot : SlotId) :
    g'.manager.loadJob g'.store slot = g.manager.loadJob g.store slot := by
  simp only [Manager.loadJob, Manager.checkRunning, Manager.checkSlot, h.running, h.preset, h.store,
    h.checkFree (k := .load) (by decide)]

/-- A request that does more than list is accepted or refused in the same way. -/
theorem job (h : Alike g g') (r : Request) (hr : r.lists = false) :
    g'.manager.job g'.store r = g.manager.job g.store r := by
  cases r with
  | save slot overwrite shot => exact h.saveJob slot overwrite shot
  | saveCurrent shot => simp only [Manager.job, h.activeId, h.saveJob]
  | load slot => exact h.loadJob slot
  | reload => simp only [Manager.job, h.activeId, h.loadJob]
  | deleteAll =>
    simp only [Manager.job, Manager.checkRunning, h.running, h.checkFree (k := .deleteAll) (by decide)]
  | info slot => cases hr
  | infos recent => cases hr

/-! ### Deletions -/

omit [SlotStore σ] in
theorem checkDeletable (h : Alike g g') (slot : SlotId) :
    g'.manager.checkDeletable slot = g.manager.checkDeletable slot := by
  have hfind : ∀ {u : Game σ}, Orderly u → u.manager.deletionBlocker? slot = u.manager.holder?.filter (·.guards slot) :=
    fun hu => hu.find_holder fun _ => Task.locks_of_guards
  rw [Manager.checkDeletable, Manager.checkDeletable, hfind h.left.toOrderly, hfind h.right.toOrderly]
  rcases h.holder with ⟨hn, hn'⟩ | ⟨t, t', ht, ht', hcontent⟩
  · rw [hn, hn']
  · obtain ⟨-, -, hjob⟩ := content_eq hcontent
    have hguards : t'.guards slot = t.guards slot := congrArg (fun j => Task.guards { t with job := j } slot) hjob
    rw [ht, ht']
    cases hg : t.guards slot <;> simp [Option.filter, hguards, hg, Task.kind, hjob]

/-- A slot is deleted, or kept, in the same way. -/
theorem deleteSlot (h : Alike g g') (slot : SlotId) :
    ∃ answer active s, g.manager.deleteSlot g.store slot = (answer, { g.manager with active }, s) ∧
      g'.manager.deleteSlot g'.store slot = (answer, { g'.manager with active }, s) := by
  have hactive := h.active
  have hcheck : (do g'.manager.checkRunning; g'.manager.checkSlot slot; g'.manager.checkDeletable slot) =
      (do g.manager.checkRunning; g.manager.checkSlot slot; g.manager.checkDeletable slot) := by
    simp only [Manager.checkRunning, Manager.checkSlot, h.running, h.preset, h.checkDeletable]
  unfold Manager.deleteSlot
  rw [hcheck, h.store, h.activeId]
  split
  · exact ⟨_, g.manager.active, _, rfl, by rw [← hactive]⟩
  · split
    · exact ⟨_, g.manager.active, _, rfl, by rw [← hactive]⟩
    · split
      · exact ⟨_, none, _, rfl, rfl⟩
      · exact ⟨_, g.manager.active, _, rfl, by rw [← hactive]⟩

/-! ### Calls -/

/-- After a call that does more than list the games are the same but for their listings. -/
theorem core_step (h : Alike g g') {m : Move σ} (hr : ∀ r now, m = .request r now → r.lists = false)
    (hwork : ∀ n, m ≠ .work n) (hlose : ∀ n, m ≠ .lose n) : (g'.step m).core = (g.step m).core := by
  cases m with
  | request r now =>
    have hl := hr r now rfl
    rw [h.left.core_request hl, h.right.core_request hl, h.job r hl, h.preset, h.core]
  | delete slot =>
    obtain ⟨answer, active, s, he, he'⟩ := h.deleteSlot slot
    have hafter : ∀ {u : Game σ}, u.manager.deleteSlot u.store slot = (answer, { u.manager with active }, s) →
        (u.step (.delete slot)).core = { u.core with active, store := s } := by
      intro u hu
      simp only [Game.step, hu]
      rfl
    rw [hafter he, hafter he', h.core]
  | tick now =>
    rcases h.holder with ⟨hn, hn'⟩ | ⟨t, t', ht, ht', hcontent⟩
    · rw [h.left.core_tick_unheld hn, h.right.core_tick_unheld hn', h.core]
    · obtain ⟨-, hfilter, hjob⟩ := content_eq hcontent
      rw [h.left.core_tick ht, h.right.core_tick ht', hfilter, hjob, h.preset, h.world, h.active, h.core]
  | regionReady region =>
    rw [h.left.core_regionReady, h.right.core_regionReady, h.world, h.regions, h.core, h.bind]
    intro t t' hstate hfilter hjob
    rw [hstate, hfilter, hjob]
  | regionUnloading region =>
    rw [h.left.core_regionUnloading, h.right.core_regionUnloading, h.world, h.regions, h.core, h.bind]
    intro t t' hstate hfilter hjob
    rw [hstate, hfilter, hjob]
  | subscribe name =>
    have hafter : ∀ u : Game σ, (u.step (.subscribe name)).core =
        { u.core with observers := (u.manager.subscribe name).observers } := by
      intro u
      simp only [Game.step, Manager.subscribe]
      split <;> rfl
    have hsame : (g'.manager.subscribe name).observers = (g.manager.subscribe name).observers := by
      unfold Manager.subscribe
      rw [h.observers]
      split
      · exact h.observers
      · rfl
    rw [hafter, hafter, hsame, h.core]
  | unsubscribe name =>
    have hafter : ∀ u : Game σ, (u.step (.unsubscribe name)).core =
        { u.core with observers := u.core.observers.filter (· ≠ name) } := fun _ => rfl
    rw [hafter, hafter, h.core]
  | currentInfo | currentData =>
    change ({ g'.core with fallback := g'.manager.current.2.fallback } : Core σ) =
      { g.core with fallback := g.manager.current.2.fallback }
    rw [h.core, h.current.2]
  | deinitialize =>
    cases hrun : g.manager.running with
    | true =>
      rw [h.left.core_deinitialize hrun, h.right.core_deinitialize (h.running.trans hrun), h.core]
      rcases h.holder with ⟨hn, hn'⟩ | ⟨t, t', ht, ht', hcontent⟩
      · rw [hn, hn']
      · have hfly : t'.inFlight = t.inFlight := congrArg Job.inFlight (content_eq hcontent).2.2
        rw [ht, ht', Option.filter, Option.filter, hfly]
        cases t.inFlight with
        | true => simp [hcontent]
        | false => rfl
    | false =>
      rw [Game.core_deinitialize_stopped hrun, Game.core_deinitialize_stopped (h.running.trans hrun), h.core]
  | work n => exact absurd rfl (hwork n)
  | lose n => exact absurd rfl (hlose n)
  | visit w => exact congrArg (fun c : Core σ => { c with world := w }) h.core
  | disturb s => exact congrArg (fun c : Core σ => { c with store := s }) h.core

/-- The host gets the same answer to a call that does more than list. -/
theorem answer (h : Alike g g') {m : Move σ} (hr : ∀ r now, m = .request r now → r.lists = false) :
    Turn.answer ⟨g', m⟩ = Turn.answer ⟨g, m⟩ := by
  cases m with
  | request r now =>
    simp only [Turn.answer, Manager.request, h.job r (hr r now rfl)]
    cases g.manager.job g.store r with
    | error e => rfl
    | ok job =>
      change Answer.accepted (TaskId.millis (.ofParts ..)) = Answer.accepted (TaskId.millis (.ofParts ..))
      rw [TaskId.millis_ofParts, TaskId.millis_ofParts]
  | delete slot =>
    obtain ⟨answer, active, s, he, he'⟩ := h.deleteSlot slot
    simp only [Turn.answer, he, he']
  | regionReady region =>
    have hused : (g'.manager.regionReady region g'.world).1 = (g.manager.regionReady region g.world).1 := by
      rw [h.left.used_regionReady, h.right.used_regionReady, h.world, h.bind]
      intro t t' _ hfilter hjob
      rw [hfilter, hjob]
    exact congrArg Answer.used hused
  | regionUnloading region =>
    have hused : (g'.manager.regionUnloading region g'.world).1 = (g.manager.regionUnloading region g.world).1 := by
      rw [h.left.used_regionUnloading, h.right.used_regionUnloading, h.world, h.bind]
      intro t t' _ hfilter hjob
      rw [hfilter, hjob]
    exact congrArg Answer.used hused
  | currentInfo => exact congrArg (fun pair => Answer.info pair.1) h.current.1
  | currentData => exact congrArg (fun pair => Answer.data pair.2) h.current.1
  | tick | subscribe | unsubscribe | deinitialize | work | lose | visit | disturb => rfl

end Alike

end SaveSlots
