import Mathlib.Data.List.Find
import SaveSlots.Proofs.History
/-!
# What a move does to slots

At most one task locks the manager: its holder. Only the holder and the deletion of one slot touch the
store and the active slot, so a game is no more to its slots than a `Scene`: the holder, the store, the active
slot, and how many tasks were made.

`Shift` says all that can happen to a scene, and what of it goes into the history. `Orderly.shift` is the
main theorem: every move of a running game shifts its scene.
-/

namespace SaveSlots

/-! ## Tasks that lock nothing -/

theorem Job.given_of_inFlight {j : Job} (h : j.inFlight = false) : j.given? = none := by
  cases j with
  | save j =>
    obtain ⟨_, _, _, _, phase⟩ := j
    cases phase with
    | writing work => cases work <;> first | rfl | cases h
    | start | capture => rfl
  | load | info | infos | deleteAll => rfl

namespace Task

variable {t u : Task}

theorem job_of_unlocked (h : t.locks = false) :
    (∃ slot phase, t.job = .info slot phase) ∨ ∃ recent phase, t.job = .infos recent phase := by
  unfold locks kind at h
  cases hj : t.job <;> simp_all [Job.kind]

theorem given_of_unlocked (h : t.locks = false) : t.job.given? = none := by
  rcases job_of_unlocked h with ⟨_, _, hj⟩ | ⟨_, _, hj⟩ <;>
  · rw [hj]
    rfl

theorem captured_of_given (h : u.job.given? = none) : t.captured? u = none := by
  simp [captured?, Job.captured?, h]

theorem reported_of_unlocked (h : t.locks = false) (reply : Reply) : t.reported? reply = none := by
  have hk : t.kind = .loadInfos := by simpa [locks] using h
  unfold reported?
  rw [hk]

/-- A slot can be deleted while a task is on the roster that only lists, or that is about another slot. -/
theorem guards_eq_false {slot : SlotId} : t.guards slot = false ↔
    t.kind ≠ .deleteAll ∧ (t.target? = some slot → t.kind = .loadInfos) := by
  unfold guards streams
  cases t.kind <;> simp

/-- A live task is taken further by its job. -/
theorem step_eq (h : t.state.isTerminal = false) (p : Preset) (now : Instant) (w : World) :
    t.start.advance p now w =
      let a := t.job.advance t.filter p now w
      ({ t with job := a.1, state := stateAfter a.2.2 }, a.2.1, a.2.2) := by
  have hstart : t.start = { t with state := .running } := by
    unfold start
    split
    · rfl
    · cases t
      simp_all only [TaskState.isTerminal]
      split at h <;> simp_all
  rw [hstart]
  rfl

theorem locks_step (t : Task) (p : Preset) (now : Instant) (w : World) :
    (t.start.advance p now w).1.locks = t.locks :=
  locks_eq ((label_advance ..).trans (label_start t))

/-- A listing leaves the active slot as it is. -/
theorem activeAfter_of_unlocked (h : t.locks = false) {p : Preset} {now : Instant} {w : World} {r : TaskResult}
    (hr : (t.start.advance p now w).2.2 = some r) (active : Option (SlotInfo × Snapshot)) :
    Manager.activeAfter active r = active := by
  have hjob : t.start.job = t.job := by
    unfold start
    split <;> rfl
  unfold advance at hr
  rw [hjob] at hr
  split at hr
  · rcases job_of_unlocked h with ⟨_, _, hj⟩ | ⟨_, _, hj⟩ <;>
    · rw [hj] at hr
      obtain ⟨answer, -, rfl⟩ := Option.map_eq_some_iff.1 hr
      cases answer <;> rfl
  · cases hr

/-- A listing leaves the world alone. -/
theorem world_of_unlocked (h : t.locks = false) (p : Preset) (now : Instant) (w : World) :
    (t.start.advance p now w).2.1 = w := by
  have hjob : t.start.job = t.job := by
    unfold start
    split <;> rfl
  unfold advance
  rw [hjob]
  split
  · rcases job_of_unlocked h with ⟨_, _, hj⟩ | ⟨_, _, hj⟩ <;>
    · rw [hj]
      rfl
  · rfl

/-- A task that locks nothing does its work without a change to the store. -/
theorem runWork_of_unlocked {σ : Type} [SlotStore σ] (h : t.locks = false) (s : σ) : (t.runWork s).2 = s := by
  unfold runWork
  rcases job_of_unlocked h with ⟨_, phase, hj⟩ | ⟨_, phase, hj⟩ <;>
  · rw [hj]
    cases phase with
    | start => rfl
    | working work => cases work <;> rfl

end Task

/-! ## The holder -/

namespace Manager

/-- The task that has the manager to itself, if there is one. -/
def holder? (m : Manager) : Option Task := m.tasks.find? Task.locks

theorem sweep_append (m : Manager) (now : Instant) (w : World) (ts us : List Task) :
    m.sweep now w (ts ++ us) =
      let r := m.sweep now w ts
      let q := m.sweep now r.world us
      ⟨r.tasks ++ q.tasks, q.world, r.events ++ q.events, r.ended ++ q.ended⟩ := by
  induction ts generalizing w with
  | nil => rfl
  | cons t ts ih => simp only [List.cons_append, sweep_cons, ih, List.append_assoc]

theorem length_sweep (m : Manager) (now : Instant) (w : World) (ts : List Task) :
    (m.sweep now w ts).tasks.length = ts.length := by
  simpa using congrArg List.length (labels_sweep m now w ts)

/-- What the tasks of a roster captured. -/
def captures (before after : List Task) : List Fact :=
  (before.zip after).filterMap fun p => p.1.captured? p.2

/-- What the replies to tasks that have ended tell about slots. -/
def reports (ended : List (Task × TaskResult × Bool)) : List Fact :=
  ended.filterMap fun e => e.1.reported? (e.2.1.map Outcome.value)

theorem reports_callsOf (m : Manager) (es : List (Task × TaskResult × Bool)) :
    ((m.callsOf es).filterMap fun c => c.task.reported? c.reply) = reports es := by
  induction es generalizing m with
  | nil => rfl
  | cons e es ih => simp only [callsOf, reports, List.filterMap_cons, ih]

/-- The active slot after some tasks have ended. -/
def activeIn (ended : List (Task × TaskResult × Bool)) (active : Option (SlotInfo × Snapshot)) :
    Option (SlotInfo × Snapshot) :=
  ended.foldl (fun a e => activeAfter a e.2.1) active

/-- A sweep of tasks that lock nothing has nothing to say about slots, and leaves the world alone. -/
theorem sweep_unlocked (m : Manager) (now : Instant) (w : World) {ts : List Task}
    (h : ∀ t ∈ ts, t.locks = false) :
    (∀ t ∈ (m.sweep now w ts).tasks, t.locks = false) ∧ captures ts (m.sweep now w ts).tasks = [] ∧
      reports (m.sweep now w ts).ended = [] ∧ (∀ active, activeIn (m.sweep now w ts).ended active = active) ∧
      (∀ e ∈ (m.sweep now w ts).ended, e.1.locks = false) ∧ (m.sweep now w ts).world = w := by
  induction ts generalizing w with
  | nil => exact ⟨fun _ ht => (by cases ht), rfl, rfl, fun _ => rfl, fun _ he => (by cases he), rfl⟩
  | cons t ts ih =>
    have ht := h t (by simp)
    have hu : (t.start.advance m.preset now w).1.locks = false := (t.locks_step ..).trans ht
    obtain ⟨hl, hc, hp, ha, he, hw⟩ := ih (t.start.advance m.preset now w).2.1 fun u hu => h u (by simp [hu])
    have hnone : t.captured? (t.start.advance m.preset now w).1 = none :=
      Task.captured_of_given (Task.given_of_unlocked hu)
    simp only [sweep_cons]
    refine ⟨?_, ?_, ?_, ?_, ?_, hw.trans (Task.world_of_unlocked ht ..)⟩
    · intro x hx
      rcases List.mem_cons.1 hx with rfl | hx
      · exact hu
      · exact hl x hx
    · simpa [captures, hnone] using hc
    · cases hr : (t.start.advance m.preset now w).2.2 with
      | none => exact hp
      | some r => simpa [reports, Task.reported_of_unlocked hu] using hp
    · intro active
      cases hr : (t.start.advance m.preset now w).2.2 with
      | none => exact ha active
      | some r =>
        change activeIn _ (activeAfter active r) = active
        rw [Task.activeAfter_of_unlocked ht hr]
        exact ha active
    · intro x hx
      rcases List.mem_append.1 hx with hx | hx
      · simp only [Option.mem_toList, Option.map_eq_some_iff] at hx
        obtain ⟨r, -, rfl⟩ := hx
        exact hu
      · exact he x hx

/-- Of a sweep only what becomes of the holder matters. -/
theorem sweep_locked (m : Manager) (now : Instant) (w : World) {before after : List Task} (t : Task)
    (hb : ∀ u ∈ before, u.locks = false) (ha : ∀ u ∈ after, u.locks = false) (ht : t.locks = true) :
    let a := t.start.advance m.preset now w
    let r := m.sweep now w (before ++ t :: after)
    captures (before ++ t :: after) r.tasks = (t.captured? a.1).toList ∧
      reports r.ended = (a.2.2.bind fun x => a.1.reported? (x.map Outcome.value)).toList ∧
      (∀ active, activeIn r.ended active = a.2.2.elim active (activeAfter active)) ∧
      ((r.tasks.filter fun u => !u.state.isTerminal).find? Task.locks =
        if a.1.state.isTerminal then none else some a.1) ∧
      (∀ e ∈ r.ended, e.1.locks = true → e.1 = a.1 ∧ a.2.2 = some e.2.1) ∧
      r.world = a.2.1 := by
  obtain ⟨hl₁, hc₁, hp₁, ha₁, he₁, hw₁⟩ := sweep_unlocked m now w hb
  obtain ⟨hl₂, hc₂, hp₂, ha₂, he₂, hw₂⟩ := sweep_unlocked m now (t.start.advance m.preset now w).2.1 ha
  have hlocks := (t.locks_step m.preset now w).trans ht
  -- the sweep goes over the tasks before the holder, the holder, and the tasks behind it
  simp only [sweep_append, sweep_cons, hw₁]
  generalize t.start.advance m.preset now w = a at *
  have hnone : ∀ l : List Task, (∀ u ∈ l, u.locks = false) →
      (l.filter fun u => !u.state.isTerminal).find? Task.locks = none := by
    intro l hl
    rw [List.find?_eq_none]
    intro u hu
    simp [hl u (List.mem_filter.1 hu).1]
  refine ⟨?_, ?_, ?_, ?_, ?_, hw₂⟩
  · unfold captures at hc₁ hc₂ ⊢
    rw [List.zip_append (length_sweep ..).symm, List.filterMap_append, hc₁, List.zip_cons_cons,
      List.filterMap_cons, hc₂]
    cases t.captured? a.1 <;> rfl
  · unfold reports at hp₁ hp₂ ⊢
    rw [List.filterMap_append, List.filterMap_append, hp₁, hp₂]
    obtain ⟨u, w', _ | r⟩ := a
    · rfl
    · cases hrep : u.reported? (r.map Outcome.value) <;> simp [hrep]
  · intro active
    unfold activeIn at ha₁ ha₂ ⊢
    rw [List.foldl_append, List.foldl_append, ha₁, ha₂]
    cases a.2.2 <;> rfl
  · rw [List.filter_append, List.find?_append, hnone _ hl₁, List.filter_cons]
    cases hterm : a.1.state.isTerminal with
    | true => simpa using hnone _ hl₂
    | false => simp [hlocks]
  · intro e he hlock
    have hno : e.1.locks ≠ false := by simp [hlock]
    rcases List.mem_append.1 he with he | he
    · exact absurd (he₁ e he) hno
    rcases List.mem_append.1 he with he | he
    · simp only [Option.mem_toList, Option.map_eq_some_iff] at he
      obtain ⟨r, hr, rfl⟩ := he
      exact ⟨rfl, hr⟩
    · exact absurd (he₂ e he) hno

/-- The deletion of a slot is refused, or the store is asked and no task keeps the slot from being deleted. -/
theorem deleteSlot_cases {σ : Type} [SlotStore σ] (m : Manager) (s : σ) (slot : SlotId) :
    (∃ e, m.deleteSlot s slot = (.error e, m, s)) ∨
    (∀ t ∈ m.tasks, t.guards slot = false) ∧
      ((∃ e e' s', SlotStore.delete s slot = (.error e, s') ∧ m.deleteSlot s slot = (.error e', m, s')) ∨
      ∃ s', SlotStore.delete s slot = (.ok (), s') ∧
        m.deleteSlot s slot =
          (.ok (), { m with active := m.active.filter fun pair => pair.1.id ≠ slot }, s')) := by
  have hactive : (if m.activeId = some slot then { m with active := none } else m) =
      { m with active := m.active.filter fun pair => pair.1.id ≠ slot } := by
    obtain ⟨p, r, ts, active, o, rs, i⟩ := m
    rcases active with _ | ⟨info, data⟩
    · simp [activeId, activeInfo]
    · by_cases hid : info.id = slot <;> simp [activeId, activeInfo, Option.filter, hid]
  unfold deleteSlot
  split
  · exact .inl ⟨_, rfl⟩
  · next hc =>
    obtain ⟨_, -, hc⟩ := bind_ok hc
    obtain ⟨_, -, hc⟩ := bind_ok hc
    have hfree : ∀ t ∈ m.tasks, t.guards slot = false := by
      unfold checkDeletable at hc
      split at hc
      · cases hc
      · next hn => exact fun t ht => by simpa [Task.guards] using List.find?_eq_none.1 hn t ht
    refine .inr ⟨hfree, ?_⟩
    split
    · next e s' hd => exact .inl ⟨e, _, s', hd, rfl⟩
    · next s' hd => exact .inr ⟨s', hd, by rw [hactive]⟩

end Manager

namespace Orderly

variable {σ : Type} {g : Game σ}

/-- The holder is the only task that locks the manager. -/
theorem holder_split (h : Orderly g) {t : Task} (ht : g.manager.holder? = some t) :
    t.locks = true ∧ ∃ before after, g.manager.tasks = before ++ t :: after ∧
      (∀ u ∈ before, u.locks = false) ∧ ∀ u ∈ after, u.locks = false := by
  obtain ⟨hl, before, after, htasks, hbefore⟩ := List.find?_eq_some_iff_append.1 ht
  have hone := h.single
  rw [htasks, List.countP_append, List.countP_cons_of_pos hl] at hone
  have hzero : after.countP Task.locks = 0 := by omega
  refine ⟨hl, before, after, htasks, ?_, ?_⟩
  · intro u hu
    simpa using hbefore u hu
  · intro u hu
    simpa using List.countP_eq_zero.1 hzero u hu

theorem unlocked_of_none (hh : g.manager.holder? = none) : ∀ t ∈ g.manager.tasks, t.locks = false := by
  intro t ht
  simpa using List.find?_eq_none.1 hh t ht

theorem holder_of_locks (h : Orderly g) {t : Task} (ht : t ∈ g.manager.tasks) (hl : t.locks = true) :
    g.manager.holder? = some t := by
  cases hh : g.manager.holder? with
  | none => exact absurd hl (List.find?_eq_none.1 hh t ht)
  | some u =>
    obtain ⟨-, before, after, htasks, hbefore, hafter⟩ := h.holder_split hh
    rw [htasks] at ht
    rcases List.mem_append.1 ht with ht | ht
    · rw [hbefore t ht] at hl
      cases hl
    · rcases List.mem_cons.1 ht with rfl | ht
      · rfl
      · rw [hafter t ht] at hl
        cases hl

/-- The holder after a task was put in the place of the one with its number. -/
theorem holder_replaced (h : Orderly g) {t u : Task} (ht : t ∈ g.manager.tasks) (hu : u.label = t.label) :
    (g.manager.holder? = some t ∧
      (g.manager.tasks.map fun x => if x.number = t.number then u else x).find? Task.locks = some u) ∨
    (t.locks = false ∧
      (g.manager.tasks.map fun x => if x.number = t.number then u else x).find? Task.locks =
        g.manager.holder?) := by
  have hsame : ∀ x ∈ g.manager.tasks, x.number = t.number → x = t := fun x hx hn =>
    List.inj_on_of_nodup_map h.distinct hx ht hn
  have hfind : (g.manager.tasks.map fun x => if x.number = t.number then u else x).find? Task.locks =
      g.manager.holder?.map fun x => if x.number = t.number then u else x := by
    rw [List.find?_map]
    refine congrArg _ (List.find?_congr fun x hx => ?_)
    by_cases hn : x.number = t.number
    · simp [hsame x hx hn, Task.locks_eq hu]
    · simp [hn]
  rw [hfind]
  cases hl : t.locks with
  | true =>
    have hh := h.holder_of_locks ht hl
    exact .inl ⟨hh, by simp [hh]⟩
  | false =>
    refine .inr ⟨rfl, ?_⟩
    cases hh : g.manager.holder? with
    | none => rfl
    | some v =>
      have hv : v.number ≠ t.number := by
        intro hn
        have hvl := (h.holder_split hh).1
        rw [hsame v (List.mem_of_find?_eq_some hh) hn, hl] at hvl
        cases hvl
      simp [hv]

end Orderly

/-! ## Scenes -/

/-- What matters about a game to its slots. -/
structure Scene (σ : Type) where
  holder : Option Task
  store : σ
  active : Option (SlotInfo × Snapshot)
  /-- The number of tasks made so far. -/
  issued : Nat

def Game.scene {σ : Type} (g : Game σ) : Scene σ :=
  ⟨g.manager.holder?, g.store, g.manager.active, g.manager.issued⟩

/-- Whether a job is what an event of a region makes of another one. -/
def Job.Offered (before after : Job) : Prop :=
  (∃ f region w w', before.regionReady? f region w = some (after, w')) ∨
    ∃ f region w, before.regionUnloading? f region w = some after

/-- What can happen to a scene, and the facts that come of it. Others may change the store only as
`allowed`. -/
inductive Shift {σ : Type} [SlotStore σ] (allowed : σ → σ → Prop) : Scene σ → List Fact → Scene σ → Prop
  /-- Nothing happens to slots. -/
  | still {c : Scene σ} : Shift allowed c [] c
  /-- A listing is asked for. -/
  | listed {c : Scene σ} : Shift allowed c [] { c with issued := c.issued + 1 }
  | begun {c : Scene σ} {t : Task} : c.holder = none → t.number = c.issued → t.job.isFresh = true →
      (∀ slot, t.target? = some slot → 0 ≤ slot.toInt) →
      Shift allowed c [] { c with holder := some t, issued := c.issued + 1 }
  | offered {c : Scene σ} {t : Task} {job : Job} : c.holder = some t → t.job.Offered job →
      Shift allowed c [] { c with holder := some { t with job } }
  | stepped {c : Scene σ} {t : Task} {job : Job} {state : TaskState} {p : Preset} {now : Instant}
      {w w' : World} : c.holder = some t → t.number < c.issued →
      t.job.advance t.filter p now w = (job, w', none) →
      Shift allowed c (t.captured? { t with job, state }).toList { c with holder := some { t with job, state } }
  | ended {c : Scene σ} {t : Task} {job : Job} {state : TaskState} {p : Preset} {now : Instant} {w w' : World}
      {r : TaskResult} : c.holder = some t → t.job.advance t.filter p now w = (job, w', some r) →
      Shift allowed c (Task.reported? { t with job, state } (r.map Outcome.value)).toList
        { c with holder := none, active := Manager.activeAfter c.active r }
  | worked {c : Scene σ} {t : Task} : c.holder = some t →
      Shift allowed c [] { c with holder := some (t.runWork c.store).1, store := (t.runWork c.store).2 }
  | lost {c : Scene σ} {t : Task} : c.holder = some t → Shift allowed c [] { c with holder := some t.loseWork }
  | deleted {c : Scene σ} {slot : SlotId} {s : σ} : (∀ t, c.holder = some t → t.guards slot = false) →
      SlotStore.delete c.store slot = (.ok (), s) →
      Shift allowed c [.deleted slot]
        { c with store := s, active := c.active.filter fun pair => pair.1.id ≠ slot }
  | missed {c : Scene σ} {slot : SlotId} {s : σ} {e : StoreError} :
      SlotStore.delete c.store slot = (.error e, s) → Shift allowed c [] { c with store := s }
  | disturbed {c : Scene σ} {s : σ} : allowed c.store s → Shift allowed c [] { c with store := s }

/-! ## Moves shift scenes -/

namespace Orderly

variable {σ : Type} [SlotStore σ] {allowed : σ → σ → Prop} {g : Game σ}

theorem shift_request (h : Orderly g) (r : Request) (now : Instant) :
    Shift allowed g.scene [] (g.step (.request r now)).scene := by
  unfold Game.step
  simp only
  split
  · next t m hq =>
    obtain ⟨ha, hn, hs, rfl⟩ := Manager.request_ok hq
    have hholder : Game.scene { g with manager :=
        { g.manager with tasks := g.manager.tasks ++ [t], issued := g.manager.issued + 1 } } =
        ⟨g.manager.holder?.or (if t.locks then some t else none), g.store, g.manager.active,
          g.manager.issued + 1⟩ := by
      simp [Game.scene, Manager.holder?, List.find?_append, List.find?_singleton]
    rw [hholder]
    cases hl : t.locks with
    | false =>
      rw [if_neg (by simp), Option.or_none]
      exact .listed
    | true =>
      have hk : t.job.kind ≠ .loadInfos := by simpa [Task.locks, Task.kind] using hl
      have hnone : g.manager.holder? = none :=
        List.find?_eq_none.2 fun u hu => by simp [ha.unlocked hk h.live u hu]
      rw [hnone]
      apply Shift.begun (c := g.scene) hnone hn ha.fresh
      intro slot hslot
      have hv := ha.valid slot hslot
      simp only [Preset.isValidSlot, SlotRange.contains, Bool.and_eq_true, decide_eq_true_eq] at hv
      exact hv.1
  · exact .still

theorem shift_delete (g : Game σ) (slot : SlotId) :
    Shift allowed g.scene (Turn.facts ⟨g, .delete slot⟩) (g.step (.delete slot)).scene := by
  simp only [Turn.facts, Game.step]
  rcases g.manager.deleteSlot_cases g.store slot with ⟨e, he⟩ | ⟨hfree, ⟨e, e', s', hd, he⟩ | ⟨s', hd, he⟩⟩
  · rw [he]
    exact .still
  · rw [he]
    exact Shift.missed (c := g.scene) hd
  · rw [he]
    exact Shift.deleted (c := g.scene) (fun t ht => hfree t (List.mem_of_find?_eq_some ht)) hd

theorem active_tick (hr : g.manager.running = true) (now : Instant) :
    (g.step (.tick now)).manager.active =
      Manager.activeIn (g.manager.sweep now g.world g.manager.tasks).ended g.manager.active := by
  simp only [Game.step, Manager.tick_eq _ _ _ hr]
  rfl

theorem shift_tick (h : Orderly g) (hr : g.manager.running = true) (now : Instant) :
    Shift allowed g.scene (Turn.facts ⟨g, .tick now⟩) (g.step (.tick now)).scene := by
  have hfacts : Turn.facts ⟨g, .tick now⟩ =
      Manager.captures g.manager.tasks (g.manager.sweep now g.world g.manager.tasks).tasks ++
        Manager.reports (g.manager.sweep now g.world g.manager.tasks).ended := by
    simp only [Turn.facts, Turn.captures, Turn.calls, Manager.callsOfTick, if_pos hr,
      Manager.swept_of_running hr, Manager.reports_callsOf]
    rfl
  have hscene : (g.step (.tick now)).scene =
      ⟨((g.manager.sweep now g.world g.manager.tasks).tasks.filter fun t => !t.state.isTerminal).find? Task.locks,
        g.store, Manager.activeIn (g.manager.sweep now g.world g.manager.tasks).ended g.manager.active,
        g.manager.issued⟩ := by
    rw [Game.scene, active_tick hr]
    simp only [Game.step, Manager.tick_eq _ _ _ hr, Manager.holder?, Manager.swept_of_running hr]
  rw [hfacts, hscene]
  cases hh : g.manager.holder? with
  | none =>
    obtain ⟨hl, hc, hp, ha, -⟩ := Manager.sweep_unlocked g.manager now g.world (unlocked_of_none hh)
    have hfind : ((g.manager.sweep now g.world g.manager.tasks).tasks.filter fun t =>
        !t.state.isTerminal).find? Task.locks = g.manager.holder? := by
      rw [hh, List.find?_eq_none]
      intro t ht
      simp [hl t (List.mem_filter.1 ht).1]
    rw [hc, hp, ha, hfind]
    exact .still
  | some t =>
    obtain ⟨hl, before, after, htasks, hbefore, hafter⟩ := h.holder_split hh
    obtain ⟨hc, hp, ha, hf, -⟩ := Manager.sweep_locked g.manager now g.world t hbefore hafter hl
    have ht : t ∈ g.manager.tasks := List.mem_of_find?_eq_some hh
    rw [Task.step_eq (h.live t ht)] at hc hp ha hf
    rw [htasks, hc, hp, ha, hf]
    generalize hstep : t.job.advance t.filter g.manager.preset now g.world = a
    obtain ⟨job, w'', _ | r⟩ := a
    · have hlive : (Task.stateAfter none).isTerminal = false := rfl
      simp only [hlive, Option.bind_none, Option.toList_none, List.append_nil, Bool.false_eq_true, if_false]
      exact Shift.stepped (c := g.scene) hh (h.issued t ht) hstep
    · have hterm : (Task.stateAfter (some r)).isTerminal = true := Task.isTerminal_stateAfter _
      -- a job that has ended has no work under way, so it has captured nothing in its last step
      have hdone : job.given? = none := by
        have hfly : (t.job.advance t.filter g.manager.preset now g.world).1.inFlight = false :=
          Job.inFlight_advance (by rw [hstep]; rfl)
        rw [hstep] at hfly
        exact Job.given_of_inFlight hfly
      have hcap : t.captured? { t with job, state := Task.stateAfter (some r) } = none :=
        Task.captured_of_given hdone
      simp only [hterm, if_true, hcap]
      exact Shift.ended (c := g.scene) hh hstep

/-- A task that a tick ends was the holder if it locks the manager, and then it decides about the active
slot. -/
theorem ended_tick (h : Orderly g) {now : Instant} {e : Task × TaskResult × Bool}
    (he : e ∈ (g.manager.sweep now g.world g.manager.tasks).ended) (hlock : e.1.locks = true)
    (hr : g.manager.running = true) :
    ∃ t, g.manager.holder? = some t ∧ e.1.label = t.label ∧
      t.job.advance t.filter g.manager.preset now g.world = (e.1.job, (g.step (.tick now)).world, some e.2.1) ∧
      (g.step (.tick now)).manager.active = Manager.activeAfter g.manager.active e.2.1 := by
  cases hh : g.manager.holder? with
  | none =>
    -- nothing that a sweep without a holder ends locks the manager
    have hno := (Manager.sweep_unlocked g.manager now g.world (unlocked_of_none hh)).2.2.2.2.1 e he
    rw [hlock] at hno
    cases hno
  | some t =>
    obtain ⟨hl, before, after, htasks, hbefore, hafter⟩ := h.holder_split hh
    obtain ⟨-, -, ha, -, hended, hw⟩ := Manager.sweep_locked g.manager now g.world t hbefore hafter hl
    rw [← htasks] at ha hended hw
    obtain ⟨htask, hresult⟩ := hended e he hlock
    have hlabel : e.1.label = t.label := by
      rw [htask, Task.label_advance, Task.label_start]
    have hworld : (g.step (.tick now)).world = (g.manager.sweep now g.world g.manager.tasks).world := by
      simp only [Game.step, Manager.tick, if_pos hr]
    have hstep := Task.step_eq (h.live t (List.mem_of_find?_eq_some hh)) g.manager.preset now g.world
    refine ⟨t, rfl, hlabel, ?_, ?_⟩
    · rw [hstep] at htask hresult hw
      rw [hworld, hw, htask, ← hresult]
    · rw [active_tick hr, ha, hresult]
      rfl

/-- A task that locks the manager is called back in a tick as the holder. -/
theorem holder_called {t : Turn σ} (h : Orderly t.game) {now : Instant} (hm : t.move = .tick now) {c : Call}
    (hc : c ∈ t.calls) (hlock : c.task.locks = true) :
    ∃ u r, t.game.manager.holder? = some u ∧ c.task.label = u.label ∧
      u.job.advance u.filter t.game.manager.preset now t.game.world = (c.task.job, t.after.world, some r) ∧
      c.reply = r.map Outcome.value ∧ t.after.manager.active = Manager.activeAfter t.game.manager.active r := by
  simp only [Turn.calls, hm, Manager.callsOfTick] at hc
  split at hc
  · next hr =>
    obtain ⟨-, e, he, htask, hreply⟩ := Manager.mem_callsOf hc
    rw [htask] at hlock
    obtain ⟨u, hh, hlabel, hstep, hactive⟩ := h.ended_tick he hlock hr
    rw [htask, Turn.after, hm]
    exact ⟨u, e.2.1, hh, hlabel, hstep, hreply, hactive⟩
  · cases hc

theorem shift_work (h : Orderly g) (hr : g.manager.running = true) (n : Nat) :
    Shift allowed g.scene [] (g.step (.work n)).scene := by
  have hscene : (g.work n).scene = ⟨(g.manager.runWork g.store n).1.holder?, (g.manager.runWork g.store n).2,
      (g.manager.runWork g.store n).1.active, (g.manager.runWork g.store n).1.issued⟩ := by
    simp [Game.scene, Game.work, h.moored hr, Manager.runWork]
  change Shift allowed g.scene [] (g.work n).scene
  rw [hscene]
  unfold Manager.runWork
  split
  · exact .still
  · next t ht =>
    have hn : t.number = n := by simpa using List.find?_some ht
    subst hn
    rcases h.holder_replaced (List.mem_of_find?_eq_some ht) (t.label_runWork g.store) with ⟨hh, hf⟩ | ⟨hl, hf⟩
    · simp only [Manager.holder?, hf]
      exact Shift.worked (c := g.scene) hh
    · simp only [Manager.holder?, hf, Task.runWork_of_unlocked hl]
      exact .still

/-- Lost work takes nobody's place. -/
theorem holder_loseWork (g : Game σ) (n : Nat) : (g.step (.lose n)).manager.holder? =
    g.manager.holder?.map fun t => if t.number = n then t.loseWork else t := by
  simp only [Game.step, Game.lose, Manager.loseWork, Manager.holder?, List.find?_map]
  congr 1
  apply List.find?_congr
  intro t _
  by_cases hn : t.number = n
  · simp [hn, Task.locks_eq (Task.label_loseWork t)]
  · simp [hn]

theorem shift_lose (g : Game σ) (n : Nat) : Shift allowed g.scene [] (g.step (.lose n)).scene := by
  have hscene : (g.step (.lose n)).scene = { g.scene with
      holder := g.manager.holder?.map fun t => if t.number = n then t.loseWork else t } := by
    rw [← holder_loseWork]
    rfl
  rw [hscene]
  cases hh : g.manager.holder? with
  | none =>
    rw [Option.map_none, ← hh]
    exact .still
  | some t =>
    rw [Option.map_some]
    split
    · exact Shift.lost (c := g.scene) hh
    · rw [← hh]
      exact .still

/-- Regions are offered to the holder, if to anyone. -/
theorem shift_put (h : Orderly g) {t : Task} {job : Job} (ht : g.manager.streamingTask? = some t)
    (hs : job.subject = t.job.subject) (ho : t.job.Offered job) {r : RegionTracker} {w : World} :
    Shift allowed g.scene [] (Game.scene
      ⟨{ g.manager.putTask { t with job } with regions := r }, g.store, w, g.adrift⟩) := by
  have hlabel : Task.label { t with job } = t.label := by simp only [Task.label, hs]
  have hlocks : t.locks = true := by
    have hstreams := List.find?_some ht
    simp only [Task.streams, Bool.and_eq_true, Bool.or_eq_true, decide_eq_true_eq] at hstreams
    rw [Task.locks_iff]
    exact hstreams.1.imp_right .inl
  rcases h.holder_replaced (Manager.mem_streamingTask ht) hlabel with ⟨hh, hf⟩ | ⟨hl, -⟩
  · simp only [Game.scene, Manager.holder?, Manager.putTask, hf]
    exact Shift.offered (c := g.scene) hh ho
  · rw [hl] at hlocks
    cases hlocks

/-- A move that leaves the manager running shifts the scene. -/
theorem shift (h : Orderly g) {m : Move σ} (hr : (g.step m).manager.running = true)
    (hq : ∀ s, m = .disturb s → allowed g.store s) :
    Shift allowed g.scene (Turn.facts ⟨g, m⟩) (g.step m).scene := by
  obtain ⟨hrun, hno⟩ := running_of_step hr
  cases m with
  | request r now => exact h.shift_request r now
  | delete slot => exact shift_delete g slot
  | tick now => exact h.shift_tick hrun now
  | regionReady region =>
    simp only [Turn.facts, Game.step]
    rcases Manager.regionReady_cases g.manager region g.world with ⟨r, he, -⟩ | ⟨r, t, job, w, ht, hj, he⟩
    · rw [he]
      exact .still
    · rw [he]
      exact h.shift_put ht (Job.subject_regionReady hj) (.inl ⟨_, _, _, _, hj⟩)
  | regionUnloading region =>
    simp only [Turn.facts, Game.step]
    rcases Manager.regionUnloading_cases g.manager region g.world with ⟨r, he, -⟩ | ⟨r, t, job, ht, hj, he⟩
    · rw [he]
      exact .still
    · rw [he]
      exact h.shift_put ht (Job.subject_regionUnloading hj) (.inr ⟨_, _, _, hj⟩)
  | subscribe name =>
    simp only [Turn.facts, Game.step, Manager.subscribe]
    split <;> exact .still
  | deinitialize => exact absurd rfl hno
  | work n => exact h.shift_work hrun n
  | lose n => exact shift_lose g n
  | disturb s => exact Shift.disturbed (c := g.scene) (hq s rfl)
  | unsubscribe | currentInfo | currentData | visit => exact .still

end Orderly

end SaveSlots
