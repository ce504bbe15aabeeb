import SaveSlots.Proofs.Refused
/-!
# After teardown

A manager that was torn down is `Stopped`: it has no tasks and no active slot, and stays so. Calls of the host change
nothing but who observes it, which regions it keeps track of (`Stopped.step_call`) and what it shows for want of an
active slot (`Stopped.step_look`), and nobody is told anything.

`stopped_inert` is the main theorem. Requests are refused because the manager has stopped, but for those that are about
the active slot: they are told first that there is none.
-/

namespace SaveSlots

namespace Move

variable {σ : Type}

/-- Whether a move is a call of the host, and not something that happens by itself. The calls that only look at the
current slot are told apart (`looks`). -/
def isCall : Move σ → Bool
  | request .. | delete _ | tick _ | regionReady _ | regionUnloading _ | subscribe _ | unsubscribe _ | deinitialize =>
    true
  | currentInfo | currentData | work _ | lose _ | visit _ | disturb _ => false

/-- Whether the host looks at the current slot. -/
def looks : Move σ → Bool
  | currentInfo | currentData => true
  | _ => false

end Move

/-- A game whose manager was torn down. -/
structure Stopped {σ : Type} (g : Game σ) : Prop where
  running : g.manager.running = false
  tasks : g.manager.tasks = []
  active : g.manager.active = none

namespace Stopped

variable {σ : Type} {g : Game σ}

theorem of_orderly (h : Orderly g) (hr : g.manager.running = false) : Stopped g :=
  ⟨hr, (h.stopped hr).1, (h.stopped hr).2⟩

/-- A region finds no task to be offered to. -/
theorem streamingTask_eq (h : Stopped g) : g.manager.streamingTask? = none := by
  rw [Manager.streamingTask?, h.tasks]
  rfl

theorem regionReady_eq (h : Stopped g) (region : String) :
    ∃ regions, g.manager.regionReady region g.world = (false, { g.manager with regions }, g.world) := by
  rcases g.manager.regionReady_cases region g.world with ⟨regions, he, -⟩ | ⟨_, t, _, _, ht, -⟩
  · exact ⟨regions, he⟩
  · rw [h.streamingTask_eq] at ht
    cases ht

theorem regionUnloading_eq (h : Stopped g) (region : String) :
    ∃ regions, g.manager.regionUnloading region g.world = (false, { g.manager with regions }) := by
  rcases g.manager.regionUnloading_cases region g.world with ⟨regions, he, -⟩ | ⟨_, t, _, ht, -⟩
  · exact ⟨regions, he⟩
  · rw [h.streamingTask_eq] at ht
    cases ht

variable [SlotStore σ]

/-- No request is accepted any more. -/
theorem job_eq (h : Stopped g) (r : Request) :
    g.manager.job g.store r = .error (if r.isForActive then .noActiveSlot else .notRunning) := by
  have hcheck : g.manager.checkRunning = .error .notRunning := by simp [Manager.checkRunning, h.running]
  have hactive : g.manager.activeId = none := by simp [Manager.activeId, Manager.activeInfo, h.active]
  cases r with
  | save | load =>
    simp only [Manager.job, Manager.saveJob, Manager.loadJob, hcheck]
    rfl
  | saveCurrent | reload =>
    simp only [Manager.job, hactive]
    rfl
  | info | infos | deleteAll =>
    simp only [Manager.job, hcheck]
    rfl

theorem refused_eq (h : Stopped g) (r : Request) (now : Instant) :
    Turn.refused? ⟨g, .request r now⟩ = some (if r.isForActive then .noActiveSlot else .notRunning) := by
  simp only [Turn.refused?, Manager.request, h.job_eq]
  rfl

theorem deleteSlot_eq (h : Stopped g) (slot : SlotId) :
    g.manager.deleteSlot g.store slot = (.error .notRunning, g.manager, g.store) := by
  simp only [Manager.deleteSlot, Manager.checkRunning, h.running]
  rfl

theorem listInfos_eq (h : Stopped g) (recent : Bool) : g.manager.listInfos g.store recent = .error .notRunning := by
  simp only [Manager.listInfos, Manager.checkRunning, h.running]
  rfl

/-- What a call changes about a game whose manager has stopped. -/
theorem step_call (h : Stopped g) {m : Move σ} (hm : m.isCall = true) :
    ∃ observers regions, g.step m = { g with manager := { g.manager with observers, regions } } := by
  cases m with
  | request r now =>
    simp only [Game.step, Manager.request, h.job_eq]
    exact ⟨_, _, rfl⟩
  | delete slot =>
    simp only [Game.step, h.deleteSlot_eq]
    exact ⟨_, _, rfl⟩
  | tick now =>
    have hleft : g.manager.swept now g.world = [] := by simp [Manager.swept, h.running]
    simp only [Game.step, Manager.tick_stopped _ _ _ h.running, hleft, List.filter_nil, List.append_nil]
    exact ⟨_, _, rfl⟩
  | regionReady region =>
    obtain ⟨regions, he⟩ := h.regionReady_eq region
    simp only [Game.step, he]
    exact ⟨_, _, rfl⟩
  | regionUnloading region =>
    obtain ⟨regions, he⟩ := h.regionUnloading_eq region
    simp only [Game.step, he]
    exact ⟨_, _, rfl⟩
  | subscribe name =>
    simp only [Game.step, Manager.subscribe]
    split <;> exact ⟨_, _, rfl⟩
  | unsubscribe name => exact ⟨_, _, rfl⟩
  | deinitialize =>
    have hleft : (if g.manager.running then g.manager.tasks.filter Task.inFlight else []) = [] := by
      rw [h.running]
      rfl
    simp only [Game.step, Manager.deinitialize_stopped _ h.running, hleft, List.append_nil]
    exact ⟨_, _, rfl⟩
  | currentInfo | currentData | work | lose | visit | disturb => cases hm

/-- Nor does the host change more by looking at the current slot than what it is shown from then on. -/
theorem step_look {m : Move σ} (hm : m.looks = true) :
    ∃ fallback, g.step m = { g with manager := { g.manager with fallback } } := by
  cases m with
  | currentInfo | currentData => exact ⟨_, rfl⟩
  | _ => cases hm

omit [SlotStore σ] in
/-- Nobody is told anything. -/
theorem quiet (h : Stopped g) (m : Move σ) : Turn.events ⟨g, m⟩ = [] ∧ Turn.calls ⟨g, m⟩ = [] := by
  cases m with
  | tick now => simp [Turn.events, Turn.calls, Manager.tick_stopped _ _ _ h.running, Manager.callsOfTick, h.running]
  | deinitialize =>
    simp [Turn.events, Turn.calls, Manager.deinitialize_stopped _ h.running, Manager.callsOfTeardown, h.running]
  | _ => exact ⟨rfl, rfl⟩

end Stopped

variable {σ : Type} [SlotStore σ]

/-- No run starts a manager again that was torn down. -/
theorem Orderly.stopped_run {g : Game σ} (h : Orderly g) (ms ms' : List (Move σ)) :
    Stopped (g.run (ms ++ Move.deinitialize :: ms')) := by
  refine .of_orderly (h.run _) ?_
  by_contra hr
  rw [Bool.not_eq_false, Game.run_append] at hr
  exact (running_of_step (running_of_run ms' hr)).2 rfl

/-- After teardown a manager is inert, whatever happened before and whatever comes after. There are no tasks and no
active slot. Every request is refused, and so are listings and the deletion of a slot; nobody is called back or
notified; and no call of the host changes the world, the store, or anything else but the observers, the regions kept
track of, and the pair that is shown for want of an active slot. -/
theorem stopped_inert (p : Preset) (s : σ) (w : World) (ms ms' : List (Move σ)) :
    let g := (Game.new p s w).run (ms ++ Move.deinitialize :: ms')
    (g.manager.running = false ∧ g.manager.tasks = [] ∧ g.manager.active = none) ∧
    (∀ r now, Turn.refused? ⟨g, .request r now⟩ =
      some (if r.isForActive then .noActiveSlot else .notRunning)) ∧
    (∀ recent, g.manager.listInfos g.store recent = .error .notRunning) ∧
    (∀ slot, (g.manager.deleteSlot g.store slot).1 = .error .notRunning) ∧
    (∀ region, (g.manager.regionReady region g.world).1 = false ∧
      (g.manager.regionUnloading region g.world).1 = false) ∧
    (∀ m, Turn.events ⟨g, m⟩ = [] ∧ Turn.calls ⟨g, m⟩ = []) ∧
    (∀ m, m.isCall = true →
      ∃ observers regions, g.step m = { g with manager := { g.manager with observers, regions } }) ∧
    ∀ m, m.looks = true → ∃ fallback, g.step m = { g with manager := { g.manager with fallback } } := by
  intro g
  have h : Stopped g := (orderly_new p s w).stopped_run ms ms'
  refine ⟨⟨h.running, h.tasks, h.active⟩, h.refused_eq, h.listInfos_eq, ?_, ?_, h.quiet, fun m => h.step_call,
    fun m => Stopped.step_look⟩
  · intro slot
    rw [h.deleteSlot_eq]
  · intro region
    obtain ⟨_, hready⟩ := h.regionReady_eq region
    obtain ⟨_, hunloading⟩ := h.regionUnloading_eq region
    rw [hready, hunloading]
    exact ⟨rfl, rfl⟩

end SaveSlots
