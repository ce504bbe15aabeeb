import SaveSlots.Proofs.Alike
import SaveSlots.Proofs.Captured
/-!
# Regions are tracked, and that is all

The tracker of a manager is a record of what has happened: `Turn.track` says what a turn adds to it, and that depends
on the manager only by its answer. `Game.step_tracking` is what carries this module: a manager with another tracker
does what it would have done, and its tracker takes note of the same. So the tracker after a run can be read off the
turns (`Records`), and two managers that differ in their trackers cannot be told apart (`Game.trace_tracking`).

When an event is of use to a task can be said without the tracker, too (`Job.unloading_isSome`, `Job.ready_isSome`).
`streaming_exact` is the main theorem and puts all this together.
-/

namespace SaveSlots

variable {σ : Type}

/-! ## When an event is of use -/

namespace Job

/-- A region that is about to go is of use to a save that has not captured the world. -/
theorem unloading_isSome {j : Job} {f : SaveFilter} {region : String} {w : World} :
    (j.regionUnloading? f region w).isSome = true ↔
      ∃ sj, j = .save sj ∧ sj.isOpen = true ∧ f.storeRegions = true ∧ (w.region? region).isSome = true := by
  constructor
  · intro h
    obtain ⟨job, hjob⟩ := Option.isSome_iff_exists.1 h
    cases j with
    | save sj =>
      obtain ⟨hopen, hstore, objects, hobjects, -⟩ := SaveJob.unloading_cases hjob
      exact ⟨sj, rfl, hopen, hstore, by rw [hobjects]; rfl⟩
    | load | info | infos | deleteAll => cases hjob
  · rintro ⟨⟨slot, name, shot, unloaded, phase⟩, rfl, hopen, hstore, hloaded⟩
    cases phase with
    | start | capture => simpa [regionUnloading?, World.captureRegion?, hstore] using hloaded
    | writing => cases hopen

/-- A region that has come is of use to a load that waits for its map and has something for the region. -/
theorem ready_isSome {j : Job} {f : SaveFilter} {region : String} {w : World} :
    (j.regionReady? f region w).isSome = true ↔
      ∃ lj info data restored, j = .load lj ∧ lj.phase = .travelling info data restored ∧ f.storeRegions = true ∧
        (data.region? region).isSome = true := by
  constructor
  · intro h
    rcases j with _ | ⟨slot, _ | _ | _ | ⟨info, data, restored⟩⟩ | _ | _ | _ <;> try cases h
    cases hstore : f.storeRegions with
    | false => simp [regionReady?, World.applyRegion?, hstore] at h
    | true =>
      have hdata : (data.region? region).isSome = true := by simpa [regionReady?, World.applyRegion?, hstore] using h
      exact ⟨_, info, data, restored, rfl, rfl, rfl, hdata⟩
  · rintro ⟨⟨slot, phase⟩, info, data, restored, rfl, rfl, hstore, hdata⟩
    simpa [regionReady?, World.applyRegion?, hstore] using hdata

end Job

/-! ## Another tracker -/

/-- The manager with another tracker. -/
def Manager.tracking (m : Manager) (r : RegionTracker) : Manager := { m with regions := r }

/-- The game with another tracker. -/
def Game.tracking (g : Game σ) (r : RegionTracker) : Game σ := { g with manager := g.manager.tracking r }

namespace Manager

variable (m : Manager) (r : RegionTracker)

@[simp]
theorem running_tracking : (m.tracking r).running = m.running := rfl

@[simp]
theorem tasks_tracking : (m.tracking r).tasks = m.tasks := rfl

@[simp]
theorem streamingTask_tracking : (m.tracking r).streamingTask? = m.streamingTask? := rfl

theorem sweep_tracking (now : Instant) (w : World) (ts : List Task) :
    (m.tracking r).sweep now w ts = m.sweep now w ts := by
  induction ts generalizing w with
  | nil => rfl
  | cons t ts ih =>
    simp only [sweep_cons, ih]
    rfl

theorem finishAll_tracking (es : List (Task × TaskResult × Bool)) :
    (m.tracking r).finishAll es = ((m.finishAll es).1.tracking r, (m.finishAll es).2) := by
  induction es generalizing m with
  | nil => rfl
  | cons e es ih =>
    have hfinish : (m.tracking r).finish e.1 e.2.1 e.2.2 =
        ((m.finish e.1 e.2.1 e.2.2).1.tracking r, (m.finish e.1 e.2.1 e.2.2).2) := rfl
    simp only [finishAll, hfinish, ih]

theorem tick_tracking (now : Instant) (w : World) :
    (m.tracking r).tick now w = ((m.tick now w).1.tracking r, (m.tick now w).2) := by
  have hleft (ts : List Task) : ({ m.tracking r with running := m.running, tasks := ts } : Manager) =
      ({ m with tasks := ts } : Manager).tracking r := rfl
  simp only [tick, running_tracking, tasks_tracking, sweep_tracking, hleft, finishAll_tracking]
  split <;> rfl

theorem swept_tracking (now : Instant) (w : World) : (m.tracking r).swept now w = m.swept now w := by
  simp only [swept, running_tracking, tasks_tracking, sweep_tracking]

theorem deinitialize_tracking : Manager.deinitialize (m.tracking r) =
    let a := m.deinitialize
    (a.1.tracking (if m.running then .new else r), a.2) := by
  have hleft : ({ m.tracking r with running := false, tasks := [] } : Manager) =
      ({ m with running := false, tasks := [] } : Manager).tracking r := rfl
  simp only [ deinitialize, running_tracking, tasks_tracking, hleft, finishAll_tracking]
  split <;> rfl

theorem regionReady_tracking (region : String) (w : World) :
    (m.tracking r).regionReady region w =
      let a := m.regionReady region w
      (a.1, a.2.1.tracking ((r.track region).count a.1), a.2.2) := by
  have hstreaming (m : Manager) : ({ m with regions := m.regions.track region } : Manager).streamingTask? =
      m.streamingTask? := rfl
  simp only [regionReady, hstreaming, streamingTask_tracking]
  cases m.streamingTask? with
  | none => rfl
  | some t => cases hj : t.job.regionReady? t.filter region w <;> simp [hj] <;> rfl

theorem regionUnloading_tracking (region : String) (w : World) :
    (m.tracking r).regionUnloading region w =
      let a := m.regionUnloading region w
      (a.1, a.2.tracking ((r.count a.1).untrack region)) := by
  simp only [regionUnloading, streamingTask_tracking]
  cases m.streamingTask? with
  | none => rfl
  | some t => cases hj : t.job.regionUnloading? t.filter region w <;> simp [hj] <;> rfl

theorem subscribe_tracking (name : String) :
    (m.tracking r).subscribe name = (m.subscribe name).tracking r := by
  have hobservers : (m.tracking r).observers = m.observers := rfl
  simp only [subscribe, hobservers]
  split <;> rfl

variable [SlotStore σ]

theorem request_tracking (s : σ) (now : Instant) (q : Request) :
    (m.tracking r).request s now q = (m.request s now q).map fun x => (x.1, x.2.tracking r) := by
  have hjob : (m.tracking r).job s q = m.job s q := by cases q <;> rfl
  rw [request, request, hjob]
  cases m.job s q <;> rfl

theorem deleteSlot_tracking (s : σ) (slot : SlotId) :
    (m.tracking r).deleteSlot s slot =
      ((m.deleteSlot s slot).1, (m.deleteSlot s slot).2.1.tracking r, (m.deleteSlot s slot).2.2) := by
  have hcheck : (do (m.tracking r).checkRunning; (m.tracking r).checkSlot slot; (m.tracking r).checkDeletable slot) =
      (do m.checkRunning; m.checkSlot slot; m.checkDeletable slot) := rfl
  have hactive : (m.tracking r).activeId = m.activeId := rfl
  simp only [deleteSlot, hcheck, hactive]
  split
  · rfl
  · split
    · rfl
    · split <;> rfl

theorem runWork_tracking (s : σ) (n : Nat) :
    (m.tracking r).runWork s n = ((m.runWork s n).1.tracking r, (m.runWork s n).2) := by
  simp only [runWork, tasks_tracking]
  split <;> rfl

end Manager

/-! ## What a turn adds -/

/-- Whether a turn is an event that a task makes use of. -/
def Turn.isUsed [SlotStore σ] (x : Turn σ) : Bool :=
  match x.answer with
  | .used taken => taken
  | _ => false

/-- What a turn makes of a tracker. -/
def Turn.track [SlotStore σ] (x : Turn σ) (r : RegionTracker) : RegionTracker :=
  match x.move with
  | .regionReady region => (r.track region).count x.isUsed
  | .regionUnloading region => (r.count x.isUsed).untrack region
  | Move.deinitialize => if x.game.manager.running then .new else r
  | _ => r

namespace Game

variable [SlotStore σ]

/-- A manager with another tracker does what it would have done, and takes note of the same. -/
theorem step_tracking (g : Game σ) (r : RegionTracker) (m : Move σ) :
    (g.tracking r).step m = (g.step m).tracking (Turn.track ⟨g, m⟩ r) := by
  cases m with
  | request q now =>
    simp only [step, tracking, Manager.request_tracking]
    cases g.manager.request g.store now q <;> rfl
  | delete slot =>
    simp only [step, tracking, Manager.deleteSlot_tracking]
    rfl
  | tick now =>
    simp only [step, tracking, Manager.tick_tracking, Manager.swept_tracking]
    rfl
  | regionReady region =>
    simp only [step, tracking, Manager.regionReady_tracking]
    rfl
  | regionUnloading region =>
    simp only [step, tracking, Manager.regionUnloading_tracking]
    rfl
  | subscribe name =>
    simp only [step, tracking, Manager.subscribe_tracking]
    rfl
  | deinitialize =>
    simp only [step, tracking, Manager.deinitialize_tracking]
    rfl
  | work n =>
    have hadrift : ({ g.manager.tracking r with tasks := g.adrift } : Manager) =
        ({ g.manager with tasks := g.adrift } : Manager).tracking r := rfl
    simp only [step, work, tracking, Manager.runWork_tracking, hadrift]
    rfl
  | unsubscribe | currentInfo | currentData | lose | visit | disturb => rfl

theorem answer_tracking (g : Game σ) (r : RegionTracker) (m : Move σ) :
    Turn.answer ⟨g.tracking r, m⟩ = Turn.answer ⟨g, m⟩ := by
  cases m with
  | request q now =>
    simp only [Turn.answer, tracking, Manager.request_tracking]
    cases g.manager.request g.store now q <;> rfl
  | delete slot => simp only [Turn.answer, tracking, Manager.deleteSlot_tracking]
  | regionReady region => simp only [Turn.answer, tracking, Manager.regionReady_tracking]
  | regionUnloading region => simp only [Turn.answer, tracking, Manager.regionUnloading_tracking]
  | _ => rfl

omit [SlotStore σ] in
theorem events_tracking (g : Game σ) (r : RegionTracker) (m : Move σ) :
    Turn.events ⟨g.tracking r, m⟩ = Turn.events ⟨g, m⟩ := by
  cases m with
  | tick now => simp only [Turn.events, tracking, Manager.tick_tracking]
  | deinitialize => simp only [Turn.events, tracking, Manager.deinitialize_tracking]
  | _ => rfl

end Game

/-- What there is to a turn but the tracker: what the host is answered, what observers and callers are told, and the
game that comes of it. -/
def Turn.outcome [SlotStore σ] (x : Turn σ) : Answer × List Event × Game σ :=
  (x.answer, x.events, x.after.tracking .new)

/-- In a run of any length, nothing depends on the tracker but the tracker. -/
theorem Game.trace_tracking [SlotStore σ] (g : Game σ) (r : RegionTracker) (ms : List (Move σ)) :
    ((g.tracking r).trace ms).map Turn.outcome = (g.trace ms).map Turn.outcome := by
  induction ms generalizing g r with
  | nil => rfl
  | cons m ms ih =>
    have hfirst : Turn.outcome ⟨g.tracking r, m⟩ = Turn.outcome ⟨g, m⟩ := by
      simp only [Turn.outcome, Turn.after, g.answer_tracking, g.events_tracking, g.step_tracking]
      rfl
    simp only [Game.trace, List.map_cons, hfirst, g.step_tracking, ih]

/-! ## The record of a run -/

/-- Whether a turn says that a region has come (`true`) or is about to go (`false`). -/
def Turn.says? (x : Turn σ) (region : String) : Option Bool :=
  match x.move with
  | .regionReady r => if r = region then some true else none
  | .regionUnloading r => if r = region then some false else none
  | _ => none

/-- What was said of a region last. -/
def lastSaid? (turns : List (Turn σ)) (region : String) : Option Bool :=
  turns.reverse.findSome? fun x => x.says? region

theorem lastSaid_concat (turns : List (Turn σ)) (x : Turn σ) (region : String) :
    lastSaid? (turns ++ [x]) region = (x.says? region).or (lastSaid? turns region) := by
  rw [lastSaid?, List.reverse_append, List.reverse_singleton, List.singleton_append, List.findSome?_cons]
  cases x.says? region <;> rfl

namespace RegionTracker

theorem mem_tracked {r : RegionTracker} {region : String} :
    region ∈ r.tracked.toList ↔ (r.tracked.find? region).isSome = true := by
  rw [← Catalog.mem_keys_iff]
  simp [Catalog.keys]

theorem tracked_count (r : RegionTracker) (used : Bool) : (r.count used).tracked = r.tracked := by
  cases used <;> rfl

end RegionTracker

/-- The tracker has the regions that were said to have come, and not to go, since, and counts the events that were of
use. -/
structure Records [SlotStore σ] (turns : List (Turn σ)) (r : RegionTracker) : Prop where
  tracked : ∀ region, region ∈ r.tracked.toList ↔ lastSaid? turns region = some true
  handled : r.handled = turns.countP Turn.isUsed

namespace Records

variable [SlotStore σ]

theorem new : Records ([] : List (Turn σ)) .new := by
  refine ⟨fun region => ?_, rfl⟩
  rw [RegionTracker.mem_tracked]
  exact ⟨nofun, nofun⟩

theorem concat {turns : List (Turn σ)} {r : RegionTracker} (h : Records turns r) {x : Turn σ}
    (hx : x.move ≠ Move.deinitialize) : Records (turns ++ [x]) (x.track r) := by
  obtain ⟨g, m⟩ := x
  constructor
  · intro region
    have hr := h.tracked region
    rw [RegionTracker.mem_tracked] at hr ⊢
    rw [lastSaid_concat]
    cases m with
    | regionReady name =>
      simp only [Turn.track, RegionTracker.tracked_count, RegionTracker.track, Catalog.find?_insert, Turn.says?]
      by_cases hn : name = region
      · simp [hn]
      · simp [hn, hr]
    | regionUnloading name =>
      simp only [Turn.track, RegionTracker.untrack, RegionTracker.tracked_count, Catalog.find?_erase, Turn.says?]
      by_cases hn : name = region
      · simp [hn]
      · simp [hn, hr]
    | deinitialize => exact absurd rfl hx
    | _ => exact hr
  · rw [List.countP_append, List.countP_singleton, ← h.handled]
    cases m with
    | regionReady name =>
      simp only [Turn.track]
      cases Turn.isUsed ⟨g, .regionReady name⟩ <;> rfl
    | regionUnloading name =>
      simp only [Turn.track]
      cases Turn.isUsed ⟨g, .regionUnloading name⟩ <;> rfl
    | deinitialize => exact absurd rfl hx
    | request q now =>
      have hno : Turn.isUsed ⟨g, .request q now⟩ = false := by
        simp only [Turn.isUsed, Turn.answer]
        cases g.manager.request g.store now q <;> rfl
      rw [hno]
      rfl
    | _ => rfl

theorem run (p : Preset) (s : σ) (w : World) (ms : List (Move σ))
    (hr : ((Game.new p s w).run ms).manager.running = true) :
    Records ((Game.new p s w).trace ms) ((Game.new p s w).run ms).manager.regions := by
  induction ms using List.reverseRecOn with
  | nil => exact new
  | append_singleton ms m ih =>
    rw [Game.run_append] at hr ⊢
    obtain ⟨hbefore, hm⟩ := Orderly.running_of_step hr
    rw [Game.trace_append]
    -- the tracker that the game has is just another one
    have hstep := congrArg (fun g => g.manager.regions)
      (((Game.new p s w).run ms).step_tracking ((Game.new p s w).run ms).manager.regions m)
    have hrecords := (ih hbefore).concat (x := ⟨(Game.new p s w).run ms, m⟩) hm
    exact hstep ▸ hrecords

end Records

/-! ## Main theorem -/

variable [SlotStore σ]

/-- The task that locks the manager saves what the preset says. -/
theorem Orderly.filter_holder (p : Preset) (s : σ) (w : World) (ms : List (Move σ)) {t : Task}
    (ht : ((Game.new p s w).run ms).manager.holder? = some t) : t.filter = p.filter := by
  refine (orderly_new p s w).course (P := fun _ u => u.filter = p.filter) (fun u hu => ?_) ?_ ?_ ms ht
  · cases hu
  · intro ms m u hmade _ _
    obtain ⟨r, now, m', -, -, hq⟩ := Turn.request_of_made hmade
    rw [Manager.filter_request hq, preset_run]
    rfl
  · intro ms m u u' _ hc hu
    rw [Task.filter_eq (Game.label_carried hc), hu]

/-- Up to its teardown, a manager tracks just the regions that were said to have come and not to go, since, and counts
the events that were of use to a task. A region that is about to go is of use if regions are saved, this one is loaded,
and a save is on the roster that has not captured the world; one that has come, if regions are saved and a load is on
the roster that waits for its map and has something for the region. Whatever a manager tracks and has counted, it goes
on in the same way. -/
theorem streaming_exact (p : Preset) (s : σ) (w : World) (ms : List (Move σ))
    (hr : ((Game.new p s w).run ms).manager.running = true) :
    let g := (Game.new p s w).run ms
    let turns := (Game.new p s w).trace ms
    (∀ region, region ∈ g.manager.regions.tracked.toList ↔ lastSaid? turns region = some true) ∧
    g.manager.regions.handled = turns.countP Turn.isUsed ∧
    (∀ region, Turn.isUsed ⟨g, .regionUnloading region⟩ = true ↔
      p.filter.storeRegions = true ∧ (g.world.region? region).isSome = true ∧
        ∃ t ∈ g.manager.tasks, ∃ j, t.job = .save j ∧ j.isOpen = true) ∧
    (∀ region, Turn.isUsed ⟨g, .regionReady region⟩ = true ↔
      p.filter.storeRegions = true ∧ ∃ t ∈ g.manager.tasks, ∃ j info data restored,
        t.job = .load j ∧ j.phase = .travelling info data restored ∧ (data.region? region).isSome = true) ∧
    ∀ (g : Game σ) (r : RegionTracker) (more : List (Move σ)),
      ((g.tracking r).trace more).map Turn.outcome = (g.trace more).map Turn.outcome := by
  intro g turns
  have ho : Orderly g := (orderly_new p s w).run ms
  have hrecords : Records turns g.manager.regions := .run p s w ms hr
  -- the task on the roster that an event can be of use to is the holder
  have hfilter : ∀ {t}, g.manager.holder? = some t → t.filter = p.filter := Orderly.filter_holder p s w ms
  have hholder : ∀ {t}, t ∈ g.manager.tasks → t.locks = true → g.manager.holder? = some t := ho.holder_of_locks
  refine ⟨hrecords.tracked, hrecords.handled, fun region => ?_, fun region => ?_, Game.trace_tracking⟩
  · change (g.manager.regionUnloading region g.world).1 = true ↔ _
    rw [ho.used_regionUnloading, Option.isSome_bind, Option.any_eq_true]
    constructor
    · rintro ⟨t, ht, hused⟩
      obtain ⟨j, hj, hopen, hstore, hloaded⟩ := Job.unloading_isSome.1 hused
      exact ⟨hfilter ht ▸ hstore, hloaded, t, List.mem_of_find?_eq_some ht, j, hj, hopen⟩
    · rintro ⟨hstore, hloaded, t, hmem, j, hj, hopen⟩
      have ht := hholder hmem (by simp [Task.locks, Task.kind, hj, Job.kind])
      exact ⟨t, ht, Job.unloading_isSome.2 ⟨j, hj, hopen, (hfilter ht).symm ▸ hstore, hloaded⟩⟩
  · change (g.manager.regionReady region g.world).1 = true ↔ _
    rw [ho.used_regionReady, Option.isSome_bind, Option.any_eq_true]
    constructor
    · rintro ⟨t, ht, hused⟩
      obtain ⟨j, info, data, restored, hj, hphase, hstore, hdata⟩ := Job.ready_isSome.1 hused
      exact ⟨hfilter ht ▸ hstore, t, List.mem_of_find?_eq_some ht, j, info, data, restored, hj, hphase, hdata⟩
    · rintro ⟨hstore, t, hmem, j, info, data, restored, hj, hphase, hdata⟩
      have ht := hholder hmem (by simp [Task.locks, Task.kind, hj, Job.kind])
      exact ⟨t, ht, Job.ready_isSome.2 ⟨j, info, data, restored, hj, hphase, (hfilter ht).symm ▸ hstore, hdata⟩⟩

/-- A save that waits for its picture has no use for the regions that come, but it has for one that goes. -/
theorem streaming_exact_waiting :
    let g := (Game.new .default MemoryStore.empty cellarWorld).run
      [.request (.save 1 false (some .default)) .epoch, .regionReady "cellar", .regionReady "attic",
        .regionUnloading "cellar"]
    g.manager.regions.handled = 1 ∧ "attic" ∈ g.manager.regions.tracked.toList ∧
      "cellar" ∉ g.manager.regions.tracked.toList ∧ Turn.isUsed ⟨g, .regionUnloading "cellar"⟩ = true := by
  intro g
  obtain ⟨htracked, hhandled, hgoes, -⟩ := streaming_exact .default MemoryStore.empty cellarWorld
    [.request (.save 1 false (some .default)) .epoch, .regionReady "cellar", .regionReady "attic",
      .regionUnloading "cellar"] rfl
  refine ⟨hhandled, (htracked "attic").2 rfl, fun h => ?_, (hgoes "cellar").2 ⟨rfl, rfl, ?_⟩⟩
  · cases (htracked "cellar").1 h
  · exact ⟨_, List.mem_singleton_self _, _, rfl, rfl⟩

end SaveSlots
