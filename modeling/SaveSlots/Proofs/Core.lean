import SaveSlots.Proofs.Observed
import SaveSlots.Proofs.Overwrites
import SaveSlots.Proofs.Refused
/-!
# A game without its listings

The `Core` of a game is all there is to it but the tasks that only list, and the numbers and ids of the others: they
are counted together. There is at most one task that locks the manager, on the roster or, if teardown came in between,
adrift; that is the actor of the game.
-/

namespace SaveSlots

/-- What there is to a task but its number and its id. -/
def Task.content (t : Task) : TaskState × SaveFilter × Job := (t.state, t.filter, t.job)

structure Core (σ : Type) where
  world : World
  store : σ
  active : Option (SlotInfo × Snapshot)
  fallback : Option (SlotInfo × Snapshot)
  observers : List String
  regions : RegionTracker
  running : Bool
  actor : Option (TaskState × SaveFilter × Job)

variable {σ : Type}

namespace Game

/-- The task that locks the manager, or did so when teardown came and has not come to the end of its work. -/
def actor? (g : Game σ) : Option Task := g.everyTask.find? Task.locks

def core (g : Game σ) : Core σ where
  world := g.world
  store := g.store
  active := g.manager.active
  fallback := g.manager.fallback
  observers := g.manager.observers
  regions := g.manager.regions
  running := g.manager.running
  actor := g.actor?.map Task.content

end Game

/-! ## Tasks that are adrift -/

/-- An orderly game in which tasks that lock the manager keep each other away even when they are adrift, and all that
are adrift are told apart. -/
structure Tidy (g : Game σ) : Prop extends Orderly g where
  sole : g.Sole
  apart : (g.adrift.map Task.number).Nodup

namespace Tidy

variable {g : Game σ}

theorem actor_running (h : Tidy g) (hr : g.manager.running = true) : g.actor? = g.manager.holder? := by
  rw [Game.actor?, Game.everyTask, h.moored hr, List.append_nil, Manager.holder?]

variable [SlotStore σ]

theorem step (h : Tidy g) (m : Move σ) : Tidy (g.step m) := by
  have hsole := h.sole_step h.sole m
  have hof : ((g.step m).adrift.map Task.number).Nodup → Tidy (g.step m) := fun ha => ⟨h.toOrderly.step m, hsole, ha⟩
  have hsame : (g.step m).adrift = g.adrift → Tidy (g.step m) := fun he => hof (he ▸ h.apart)
  have hbadges : (g.step m).adrift.map Task.badge = g.adrift.map Task.badge → Tidy (g.step m) := by
    intro hb
    apply hof
    rw [Orderly.map_number, Orderly.map_label, hb, ← Orderly.map_label, ← Orderly.map_number]
    exact h.apart
  cases m with
  | request r now =>
    apply hsame
    simp only [Game.step]
    split <;> rfl
  | tick now =>
    apply hsame
    change g.adrift ++ _ = g.adrift
    rw [h.none_left, List.append_nil]
  | deinitialize =>
    cases hr : g.manager.running with
    | false => exact hsame (by simp [Game.step, hr])
    | true =>
      have hadrift : (g.step Move.deinitialize).adrift = g.manager.tasks.filter Task.inFlight := by
        simp [Game.step, hr, h.moored hr]
      apply hof
      rw [hadrift]
      exact h.distinct.sublist (List.filter_sublist.map _)
  | work n => exact hbadges (Manager.badges_runWork (m := { g.manager with tasks := g.adrift }) h.apart _ n)
  | lose n => exact hbadges (Manager.badges_loseWork { g.manager with tasks := g.adrift } n)
  | delete | regionReady | regionUnloading | subscribe | unsubscribe | currentInfo | currentData | visit | disturb =>
    exact hsame rfl

end Tidy

theorem tidy_new (p : Preset) (s : σ) (w : World) : Tidy (Game.new p s w) :=
  ⟨orderly_new p s w, (orderly_new p s w).sole_of_running rfl, List.nodup_nil⟩

/-! ## Listings and work -/

/-- Whether a request only lists. -/
def Request.lists (r : Request) : Bool := r.kind == .loadInfos

namespace Job

variable [SlotStore σ]

/-- Whether the work that a job has given away has come to an end, or to a closed gate. -/
def rests (s : σ) : Job → Bool
  | save { phase := .writing (.held _), .. } => SlotStore.writesHeld s
  | j => !j.inFlight

/-- There is nothing to be done for a job that rests. -/
theorem runWork_of_rests {s : σ} {j : Job} (h : j.rests s = true) : j.runWork s = (j, s) := by
  rcases j with ⟨slot, name, shot, unloaded, phase⟩ | ⟨slot, phase⟩ | ⟨slot, phase⟩ | ⟨recent, phase⟩ | phase <;>
    cases phase <;> try rfl
  case save.writing work =>
    cases work with
    | waiting => cases h
    | held w =>
      have hgate : SlotStore.writesHeld s = true := h
      simp only [runWork, hgate, if_true, Handle.hold]
    | finished | lost =>
      simp only [runWork, Handle.hold, Handle.runOn, Handle.work?]
      split <;> rfl
  case load.readingInfo work | load.readingData info work | info.working work | infos.working work |
    deleteAll.working work =>
    cases work with
    | waiting | held => cases h
    | finished | lost => rfl

/-- Work that was done rests. -/
theorem rests_runWork (s : σ) (j : Job) : (j.runWork s).1.rests (j.runWork s).2 = true := by
  rcases j with ⟨slot, name, shot, unloaded, phase⟩ | ⟨slot, phase⟩ | ⟨slot, phase⟩ | ⟨recent, phase⟩ | phase <;>
    cases phase <;> try rfl
  case save.writing work =>
    simp only [runWork]
    split
    · next hgate => cases work <;> first | exact hgate | rfl
    · cases work <;> rfl
  case load.readingInfo work | load.readingData info work | info.working work | infos.working work |
    deleteAll.working work => cases work <;> rfl

/-- Work that was done and is in flight stands behind a gate, and has done nothing yet. -/
theorem runWork_inFlight {s : σ} {j : Job} (h : (j.runWork s).1.inFlight = true) :
    (j.runWork s).2 = s ∧ (j.runWork s).1.loseWork = j.loseWork := by
  rcases j with ⟨slot, name, shot, unloaded, phase⟩ | ⟨slot, phase⟩ | ⟨slot, phase⟩ | ⟨recent, phase⟩ | phase <;>
    cases phase <;> try exact ⟨rfl, rfl⟩
  case save.writing work =>
    simp only [runWork] at h ⊢
    split at h
    · next hgate =>
      rw [if_pos hgate]
      cases work <;> exact ⟨rfl, rfl⟩
    · cases work <;> cases h
  case load.readingInfo work | load.readingData info work | info.working work | infos.working work |
    deleteAll.working work => cases work <;> cases h

/-- There is nothing to lose where no work is in flight. -/
theorem loseWork_of_landed {j : Job} (h : j.inFlight = false) : j.loseWork = j := by
  rcases j with ⟨slot, name, shot, unloaded, phase⟩ | ⟨slot, phase⟩ | ⟨slot, phase⟩ | ⟨recent, phase⟩ | phase <;>
    cases phase <;> try rfl
  case save.writing work | load.readingInfo work | load.readingData info work | info.working work |
    infos.working work | deleteAll.working work => cases work <;> first | rfl | cases h

end Job

namespace Core

variable [SlotStore σ]

/-- The core once the work of the actor is done. -/
def worked (c : Core σ) : Core σ :=
  match c.actor with
  | some (state, filter, job) =>
    { c with store := (job.runWork c.store).2, actor := some (state, filter, (job.runWork c.store).1) }
  | none => c

/-- The core once the work of the actor is lost. -/
def broken (c : Core σ) : Core σ := { c with actor := c.actor.map fun a => (a.1, a.2.1, a.2.2.loseWork) }

/-- Whether the actor has work in flight. -/
def inFlight (c : Core σ) : Bool := c.actor.any fun a => a.2.2.inFlight

/-- Whether the actor has nothing to do. -/
def Rests (c : Core σ) : Prop := ∀ a ∈ c.actor, a.2.2.rests c.store = true

theorem worked_of_rests {c : Core σ} (h : c.Rests) : c.worked = c := by
  obtain ⟨world, store, active, fallback, observers, regions, running, actor⟩ := c
  cases actor with
  | none => rfl
  | some a =>
    have ha : a.2.2.runWork store = (a.2.2, store) := Job.runWork_of_rests (h a rfl)
    simp only [worked, ha]

theorem rests_worked (c : Core σ) : c.worked.Rests := by
  obtain ⟨world, store, active, fallback, observers, regions, running, actor⟩ := c
  cases actor with
  | none =>
    intro a ha
    cases ha
  | some a =>
    intro b hb
    cases hb
    exact Job.rests_runWork store a.2.2

/-- Work that stands behind a gate is lost like work that has not begun. -/
theorem broken_worked {c : Core σ} (h : c.worked.inFlight = true) : c.worked.broken = c.broken := by
  obtain ⟨world, store, active, fallback, observers, regions, running, actor⟩ := c
  cases actor with
  | none => rfl
  | some a =>
    obtain ⟨hstore, hlost⟩ := Job.runWork_inFlight (s := store) (j := a.2.2) (by simpa [worked, inFlight] using h)
    simp only [worked, broken, hstore, Option.map_some, hlost]

end Core

/-! ## What listings and work do to the core -/

/-- The work of one task on a roster with a single task that locks. -/
theorem Manager.find_runWork [SlotStore σ] {m : Manager}
    (hone : ∀ t ∈ m.tasks, ∀ u ∈ m.tasks, t.locks = true → u.locks = true → t.number = u.number)
    (hd : (m.tasks.map Task.number).Nodup) (s : σ) (n : Nat) :
    ((m.runWork s n).1.tasks.find? Task.locks = m.tasks.find? Task.locks ∧ (m.runWork s n).2 = s) ∨
    ∃ t, m.tasks.find? Task.locks = some t ∧ (m.runWork s n).1.tasks.find? Task.locks = some (t.runWork s).1 ∧
      (m.runWork s n).2 = (t.runWork s).2 := by
  unfold runWork
  split
  · exact .inl ⟨rfl, rfl⟩
  · next u hu =>
    have hun : u.number = n := by simpa using List.find?_some hu
    subst hun
    have humem := List.mem_of_find?_eq_some hu
    have hfind : (m.tasks.map fun t => if t.number = u.number then (u.runWork s).1 else t).find? Task.locks =
        (m.tasks.find? Task.locks).map fun t => if t.number = u.number then (u.runWork s).1 else t := by
      rw [List.find?_map]
      refine congrArg _ (List.find?_congr fun t ht => ?_)
      by_cases hn : t.number = u.number
      · simp [List.inj_on_of_nodup_map hd ht humem hn, Task.locks_eq (u.label_runWork s)]
      · simp [hn]
    simp only [hfind]
    cases hl : m.tasks.find? Task.locks with
    | none =>
      have hul : u.locks = false := by simpa using List.find?_eq_none.1 hl u humem
      exact .inl ⟨rfl, Task.runWork_of_unlocked hul s⟩
    | some t =>
      by_cases hn : t.number = u.number
      · obtain rfl := List.inj_on_of_nodup_map hd (List.mem_of_find?_eq_some hl) humem hn
        exact .inr ⟨t, rfl, by simp, rfl⟩
      · refine .inl ⟨by simp [hn], Task.runWork_of_unlocked ?_ s⟩
        cases hul : u.locks with
        | false => rfl
        | true => exact absurd (hone t (List.mem_of_find?_eq_some hl) u humem (List.find?_some hl) hul) hn

theorem Manager.runWork_frame [SlotStore σ] (m : Manager) (s : σ) (n : Nat) :
    (m.runWork s n).1 = { m with tasks := (m.runWork s n).1.tasks } := by
  unfold runWork
  split <;> rfl

theorem Manager.request_of_error [SlotStore σ] {m : Manager} {s : σ} {r : Request} {e : SlotError}
    (h : m.job s r = .error e) (now : Instant) : m.request s now r = .error e := by
  rw [request, h]
  rfl

theorem Manager.request_of_job [SlotStore σ] {m : Manager} {s : σ} {r : Request} {j : Job} (h : m.job s r = .ok j)
    (now : Instant) : m.request s now r = .ok (m.register now j) := by
  rw [request, h]
  rfl

/-- A request that is accepted makes a task that locks the manager, unless it only lists. -/
theorem Manager.locks_request [SlotStore σ] {m m' : Manager} {s : σ} {now : Instant} {r : Request} {t : Task}
    (h : m.request s now r = .ok (t, m')) : t.locks = !r.lists := by
  unfold request at h
  cases hj : m.job s r with
  | error e =>
    rw [hj] at h
    cases h
  | ok j =>
    rw [hj] at h
    cases h
    have hmakes := makes hj
    cases hmakes <;> rfl

namespace Game

variable [SlotStore σ]

/-- A listing that is asked for is not part of the core. -/
theorem core_listing (g : Game σ) {r : Request} (hr : r.lists = true) (now : Instant) :
    (g.step (.request r now)).core = g.core := by
  simp only [Game.step]
  split
  · next t m hq =>
    obtain ⟨-, -, -, rfl⟩ := Manager.request_ok hq
    have hl : t.locks = false := by rw [Manager.locks_request hq, hr, Bool.not_true]
    have hactor : (g.manager.tasks ++ [t] ++ g.adrift).find? Task.locks = g.actor? := by
      simp [Game.actor?, Game.everyTask, List.find?_append, hl]
    exact congrArg (fun a => ({ g.core with actor := a.map Task.content } : Core σ)) hactor
  · rfl

omit [SlotStore σ] in
/-- Whether the actor has this number and work in flight. -/
def breaks (g : Game σ) (n : Nat) : Bool := g.actor?.any fun t => t.number = n && t.inFlight

omit [SlotStore σ] in
theorem inFlight_of_breaks {g : Game σ} {n : Nat} (h : g.breaks n = true) : g.core.inFlight = true := by
  unfold breaks at h
  unfold Core.inFlight core
  cases ht : g.actor? with
  | none =>
    rw [ht] at h
    cases h
  | some t =>
    rw [ht] at h
    exact (Bool.and_eq_true_iff.1 h).2

theorem actor_lose (g : Game σ) (n : Nat) : (g.step (.lose n)).actor? =
    g.actor?.map fun t => if t.number = n then t.loseWork else t := by
  have hevery : (g.step (.lose n)).everyTask =
      g.everyTask.map fun t => if t.number = n then t.loseWork else t := by
    simp only [everyTask, List.map_append]
    rfl
  rw [actor?, hevery, List.find?_map, actor?]
  congr 1
  apply List.find?_congr
  intro t _
  by_cases hn : t.number = n
  · simp [hn, Task.locks_eq (Task.label_loseWork t)]
  · simp [hn]

/-- Work that breaks down is that of the actor, or does not matter. -/
theorem core_lose (g : Game σ) (n : Nat) :
    (g.step (.lose n)).core = if g.breaks n then g.core.broken else g.core := by
  have hframe : (g.step (.lose n)).core = { g.core with actor := (g.step (.lose n)).actor?.map Task.content } := rfl
  rw [hframe, actor_lose, breaks]
  cases ht : g.actor? with
  | none =>
    change ({ g.core with actor := none } : Core σ) = g.core
    simp only [core, ht, Option.map_none]
  | some t =>
    have hcore : g.core = { g.core with actor := some t.content } := by simp only [core, ht, Option.map_some]
    rw [hcore]
    simp only [Option.any_some, Option.map_some]
    by_cases hn : t.number = n
    · simp only [hn, if_true, decide_true, Bool.true_and]
      cases hfly : t.inFlight with
      | true => rfl
      | false =>
        have hlost : t.loseWork = t := by rw [Task.loseWork, Job.loseWork_of_landed hfly]
        rw [hlost]
        rfl
    · simp only [hn, if_false, decide_false, Bool.false_and]
      rfl

end Game

namespace Tidy

variable [SlotStore σ] {g : Game σ}

/-- Work that goes on is that of the actor, or it changes neither the actor nor the store. -/
theorem actor_work (h : Tidy g) (n : Nat) :
    ((g.step (.work n)).actor? = g.actor? ∧ (g.step (.work n)).store = g.store) ∨
    ∃ t, g.actor? = some t ∧ (g.step (.work n)).actor? = some (t.runWork g.store).1 ∧
      (g.step (.work n)).store = (t.runWork g.store).2 := by
  -- the actor is on the roster of a running manager, or adrift after its end
  cases hr : g.manager.running with
  | true =>
    have hsole : ∀ t ∈ g.manager.tasks, ∀ u ∈ g.manager.tasks, t.locks = true → u.locks = true → t.number = u.number :=
      fun t ht u hu => h.sole t (List.mem_append_left _ ht) u (List.mem_append_left _ hu)
    have hfind := Manager.find_runWork hsole h.distinct g.store n
    simpa [Game.step, Game.work, Game.actor?, Game.everyTask, h.moored hr, Manager.runWork] using hfind
  | false =>
    have hsole : ∀ t ∈ g.adrift, ∀ u ∈ g.adrift, t.locks = true → u.locks = true → t.number = u.number :=
      fun t ht u hu => h.sole t (List.mem_append_right _ ht) u (List.mem_append_right _ hu)
    have hfind := Manager.find_runWork (m := { g.manager with tasks := g.adrift }) hsole h.apart g.store n
    simpa [Game.step, Game.work, Game.actor?, Game.everyTask, (h.stopped hr).1, Manager.runWork] using hfind

/-- Seen from the core, the work of the actor is done, or nothing. -/
theorem core_work (h : Tidy g) (n : Nat) :
    (g.step (.work n)).core = g.core ∨ (g.step (.work n)).core = g.core.worked := by
  have hframe : (g.step (.work n)).core =
      { g.core with store := (g.step (.work n)).store, actor := (g.step (.work n)).actor?.map Task.content } := by
    change (g.work n).core = _
    simp only [Game.core, Game.work, Game.step]
    rw [Manager.runWork_frame]
  rw [hframe]
  rcases h.actor_work n with ⟨hactor, hstore⟩ | ⟨t, ht, hactor, hstore⟩
  · rw [hactor, hstore]
    exact .inl rfl
  · rw [hactor, hstore]
    refine .inr ?_
    simp only [Core.worked, Game.core, ht, Option.map_some]
    rfl

end Tidy

end SaveSlots
