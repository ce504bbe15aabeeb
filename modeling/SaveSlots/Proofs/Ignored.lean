import SaveSlots.Proofs.Loading
import SaveSlots.Proofs.Tracked
/-!
# What is not saved is not seen

`World.through` takes out of a world what a filter leaves out. A save looks at the world through its filter: in what is
left of it, a step of the save and a region that it takes come to the same (`SaveJob.advance_through`,
`World.captureRegion_through`). As long as it is under way no task loads, so the same goes for all moves of the game,
seen through the filter (`Game.step_through`), and for those that make no difference to what is seen
(`Game.idle_through`).

Two games that go on `Beside` each other differ in nothing else. They stay `Alongside` until the save has gone, and then
it hands nothing to the store any more. `ignored_unseen` is the main theorem: what the saves hand to the store is the
same.
-/

namespace SaveSlots

/-! ## The world through a filter -/

/-- The values that are wanted. -/
def Catalog.filter {α κ : Type} [Ord κ] {key : α → κ} (c : Catalog key) (wanted : α → Bool) : Catalog key :=
  ⟨c.toList.filter wanted, c.rising.filter _⟩

namespace SaveFilter

theorem retain_retain (f : SaveFilter) (os : List GameObject) : f.retain (f.retain os) = f.retain os := by
  simp [retain]

/-- The objects outside regions that are saved. -/
def globals (f : SaveFilter) (os : Catalog GameObject.name) : Catalog GameObject.name :=
  if f.storeGlobals then os.filter f.accepts else .empty

/-- A region with the objects in it that are saved. -/
def region (f : SaveFilter) (r : Region) : Region := { r with objects := f.retain r.objects }

theorem region_name (f : SaveFilter) (r : Region) : (f.region r).name = r.name := rfl

theorem region_region (f : SaveFilter) (r : Region) : f.region (f.region r) = f.region r := by
  simp only [region, f.retain_retain]

/-- The regions that are saved. -/
def regions (f : SaveFilter) (rs : Catalog Region.name) : Catalog Region.name :=
  if f.storeRegions then rs.modify f.region f.region_name else .empty

theorem globals_globals (f : SaveFilter) (os : Catalog GameObject.name) : f.globals (f.globals os) = f.globals os := by
  unfold globals
  split
  · exact Catalog.ext_toList (by simp [Catalog.filter])
  · rfl

theorem regions_regions (f : SaveFilter) (rs : Catalog Region.name) : f.regions (f.regions rs) = f.regions rs := by
  unfold regions
  split
  · exact Catalog.ext_toList (by simp [Catalog.modify, region_region])
  · rfl

theorem toList_globals (f : SaveFilter) (os : Catalog GameObject.name) :
    (f.globals os).toList = if f.storeGlobals then f.retain os.toList else [] := by
  unfold globals
  split <;> rfl

end SaveFilter

namespace World

/-- The world without what a filter leaves out. -/
def through (w : World) (f : SaveFilter) : World :=
  { w with globals := f.globals w.globals, regions := f.regions w.regions }

variable (w : World) (f : SaveFilter)

theorem through_through : (w.through f).through f = w.through f := by
  simp only [through, f.globals_globals, f.regions_regions]

theorem capture_through : (w.through f).capture f = w.capture f := by
  have hw (w : World) : w.capture f = ⟨w.map, (f.globals w.globals).toList, f.regions w.regions⟩ := by
    rw [f.toList_globals]
    rfl
  rw [hw, hw, through, f.globals_globals, f.regions_regions]

theorem captureRegion_through (region : String) :
    (w.through f).captureRegion? f region = w.captureRegion? f region := by
  unfold captureRegion?
  split
  · next hstore =>
    simp only [through, region?, SaveFilter.regions, if_pos hstore, Catalog.find?_modify, Option.map_map,
      Function.comp_def, SaveFilter.region, f.retain_retain]
  · rfl

theorem requestShot_through (size : ScreenshotSize) :
    (w.through f).requestShot size = (w.requestShot size).through f := by
  have hbasic : (w.through f).basic = w.basic := rfl
  rw [requestShot, requestShot, hbasic]
  split <;> rfl

theorem pollRequestedShot_through :
    (w.through f).pollRequestedShot = (w.pollRequestedShot.1, w.pollRequestedShot.2.through f) := by
  have hbasic : (w.through f).basic = w.basic := rfl
  have hpending : (w.through f).pendingShot = w.pendingShot := rfl
  simp only [pollRequestedShot, pollShot, hbasic, hpending]
  split
  · rfl
  · split <;> rfl

end World

/-! ## A save does not see more -/

namespace SaveJob

variable (j : SaveJob) (f : SaveFilter) (w : World)

theorem snapshot_through : j.snapshot f (w.through f) = j.snapshot f w := by
  simp only [snapshot, World.capture_through]

theorem begin_through (now : Instant) (version : String) :
    j.begin now version (w.through f) = ((j.begin now version w).1, (j.begin now version w).2.through f) := by
  unfold begin
  split
  · next size _ => exact congrArg (Prod.mk _) (w.requestShot_through f size)
  · rfl

theorem capture_through (info : SlotInfo) :
    j.capture f info (w.through f) = ((j.capture f info w).1, (j.capture f info w).2.through f) := by
  unfold capture
  split
  · simp only [submit, snapshot_through]
  · rw [World.pollRequestedShot_through]
    obtain ⟨_ | screenshot, w'⟩ := w.pollRequestedShot
    · rfl
    · simp only [submit, snapshot_through]

theorem advance_through (now : Instant) (version : String) :
    j.advance f now version (w.through f) =
      let a := j.advance f now version w
      (a.1, a.2.1.through f, a.2.2) := by
  unfold advance
  split
  · simp only [begin_through, capture_through]
  · simp only [capture_through]
  · split <;> rfl

end SaveJob

namespace Task

/-- Whether a task that saves or loads does save, and by this filter. -/
def SavesBy (f : SaveFilter) (t : Task) : Prop := t.streams = true → t.kind = .save ∧ t.filter = f

namespace SavesBy

variable {t : Task} {f : SaveFilter}

theorem not_load (h : t.SavesBy f) {j : LoadJob} (hj : t.job = .load j) : False := by
  have hk : t.kind = .load := by rw [kind, hj, Job.kind]
  have hsave := (h (by simp [streams, hk])).1
  rw [hk] at hsave
  cases hsave

theorem filter_save (h : t.SavesBy f) {j : SaveJob} (hj : t.job = .save j) : t.filter = f :=
  (h (by simp [streams, kind, hj, Job.kind])).2

theorem advance_through (h : t.SavesBy f) (p : Preset) (now : Instant) (w : World) :
    t.advance p now (w.through f) =
      let a := t.advance p now w
      (a.1, a.2.1.through f, a.2.2) := by
  have hjob : t.job.advance t.filter p now (w.through f) =
      let a := t.job.advance t.filter p now w
      (a.1, a.2.1.through f, a.2.2) := by
    cases hj : t.job with
    | save j =>
      rw [h.filter_save hj]
      simp only [Job.advance, j.advance_through]
    | load j => exact (h.not_load hj).elim
    | info | infos | deleteAll => rfl
  unfold advance
  split
  · rw [hjob]
  · rfl

theorem start (h : t.SavesBy f) : t.start.SavesBy f := by
  unfold Task.start
  split
  · exact h
  · exact h

theorem unloading_through (h : t.SavesBy f) (region : String) (w : World) :
    t.job.regionUnloading? t.filter region (w.through f) = t.job.regionUnloading? t.filter region w := by
  cases hj : t.job with
  | save j => simp only [h.filter_save hj, Job.regionUnloading?, World.captureRegion_through]
  | load | info | infos | deleteAll => rfl

/-- A save has no use for a region that has come. -/
theorem ready_none (h : t.SavesBy f) (region : String) (w : World) :
    t.job.regionReady? t.filter region w = none := by
  cases hj : t.job with
  | load j => exact (h.not_load hj).elim
  | save | info | infos | deleteAll => rfl

/-- It has none for one that is about to go if regions are not saved. -/
theorem unloading_none (h : t.SavesBy f) (hf : f.storeRegions = false) (region : String) (w : World) :
    t.job.regionUnloading? t.filter region w = none := by
  cases hu : t.job.regionUnloading? t.filter region w with
  | none => rfl
  | some job =>
    obtain ⟨j, hj, -, hstore, -⟩ := Job.unloading_isSome.1 (by rw [hu]; rfl)
    rw [h.filter_save hj, hf] at hstore
    cases hstore

end SavesBy

end Task

/-! ## A manager that saves does not see more -/

namespace Manager

variable {m : Manager} {f : SaveFilter}

theorem sweep_through (m : Manager) (now : Instant) (w : World) {ts : List Task} (h : ∀ t ∈ ts, t.SavesBy f) :
    m.sweep now (w.through f) ts = { m.sweep now w ts with world := (m.sweep now w ts).world.through f } := by
  induction ts generalizing w with
  | nil => rfl
  | cons t ts ih =>
    obtain ⟨ht, hts⟩ := List.forall_mem_cons.1 h
    simp only [sweep_cons, ht.start.advance_through, ih _ hts]

theorem tick_through (h : ∀ t ∈ m.tasks, t.SavesBy f) (now : Instant) (w : World) :
    m.tick now (w.through f) =
      let a := m.tick now w
      (a.1, a.2.1.through f, a.2.2) := by
  simp only [tick, m.sweep_through now w h]
  split <;> rfl

theorem swept_through (h : ∀ t ∈ m.tasks, t.SavesBy f) (now : Instant) (w : World) :
    m.swept now (w.through f) = m.swept now w := by
  simp only [swept, m.sweep_through now w h]

/-- Nothing comes of a region that has come, but that it is tracked. -/
theorem regionReady_saving (h : ∀ t ∈ m.tasks, t.SavesBy f) (region : String) (w : World) :
    ∃ r, m.regionReady region w = (false, m.tracking r, w) := by
  rcases m.regionReady_cases region w with ⟨r, he, -⟩ | ⟨r, t, job, w', ht, hj, -⟩
  · exact ⟨r, he⟩
  · rw [(h t (mem_streamingTask ht)).ready_none] at hj
    cases hj

theorem regionUnloading_saving (h : ∀ t ∈ m.tasks, t.SavesBy f) (hf : f.storeRegions = false) (region : String)
    (w : World) : ∃ r, m.regionUnloading region w = (false, m.tracking r) := by
  rcases m.regionUnloading_cases region w with ⟨r, he, -⟩ | ⟨r, t, job, ht, hj, -⟩
  · exact ⟨r, he⟩
  · rw [(h t (mem_streamingTask ht)).unloading_none hf] at hj
    cases hj

theorem regionUnloading_through (h : ∀ t ∈ m.tasks, t.SavesBy f) (region : String) (w : World) :
    m.regionUnloading region (w.through f) = m.regionUnloading region w := by
  unfold regionUnloading
  cases ht : m.streamingTask? with
  | none => rfl
  | some t => simp only [(h t (mem_streamingTask ht)).unloading_through, Option.bind_eq_bind, Option.bind_some]

end Manager

namespace Game

variable {σ : Type} [SlotStore σ]

/-- A game as a save sees it: through its filter, and without the tracker. -/
def through (g : Game σ) (f : SaveFilter) : Game σ := { g.tracking .new with world := g.world.through f }

/-- What a save sees after a move comes of what it sees before, unless a load is on the roster. -/
theorem step_through {g : Game σ} {f : SaveFilter} (h : ∀ t ∈ g.manager.tasks, t.SavesBy f) (m : Move σ) :
    (g.step m).through f = ((g.through f).step m).through f := by
  have htracking : ((g.through f).step m).through f =
      (({ g with world := g.world.through f } : Game σ).step m).through f :=
    (congrArg (fun x => through x f) (({ g with world := g.world.through f } : Game σ).step_tracking .new m) :)
  rw [htracking]
  cases m with
  | request q now =>
    simp only [step]
    cases g.manager.request g.store now q <;> simp only [through, tracking, World.through_through]
  | tick now =>
    simp only [step, Manager.tick_through h, Manager.swept_through h, through, tracking, World.through_through]
  | regionReady region =>
    obtain ⟨r, he⟩ := Manager.regionReady_saving h region g.world
    obtain ⟨r', he'⟩ := Manager.regionReady_saving h region (g.world.through f)
    simp only [step, he, he', through, tracking, World.through_through]
    rfl
  | regionUnloading region =>
    simp only [step, Manager.regionUnloading_through h, through, tracking, World.through_through]
  | delete | subscribe | unsubscribe | currentInfo | currentData | deinitialize | work | lose | visit | disturb =>
    simp only [step, work, lose, through, tracking, World.through_through]

/-- A request does not look at the world. -/
theorem request_through (g : Game σ) {w : World} {f : SaveFilter} (hw : w.through f = g.world.through f) (r : Request)
    (now : Instant) :
    (({ g with world := w } : Game σ).step (.request r now)).through f = (g.step (.request r now)).through f := by
  simp only [step]
  cases g.manager.request g.store now r <;> simp only [through, tracking, hw]

/-- Whether a move makes no difference to what a save by this filter sees: a region has come, or goes and is not
saved anyway, or the world is changed in nothing that is let through. -/
def Idle (g : Game σ) (f : SaveFilter) : Move σ → Prop
  | .regionReady _ => True
  | .regionUnloading _ => f.storeRegions = false
  | .visit w => w.through f = g.world.through f
  | _ => False

theorem idle_through {g : Game σ} {f : SaveFilter} (h : ∀ t ∈ g.manager.tasks, t.SavesBy f) {m : Move σ}
    (hm : g.Idle f m) : (g.step m).through f = g.through f := by
  cases m with
  | regionReady region =>
    obtain ⟨r, he⟩ := Manager.regionReady_saving h region g.world
    simp only [step, he]
    rfl
  | regionUnloading region =>
    obtain ⟨r, he⟩ := Manager.regionUnloading_saving h hm region g.world
    simp only [step, he]
    rfl
  | visit w => exact congrArg (fun w => { g.tracking .new with world := w }) hm
  | _ => exact hm.elim

end Game

/-! ## Two runs -/

variable {σ : Type} [SlotStore σ]

/-- Two games go on in the same way, but for moves in which one of them is idle, and for worlds that differ in nothing
that the filter lets through. -/
inductive Beside (f : SaveFilter) : Game σ → Game σ → List (Move σ) → List (Move σ) → Prop
  | done {g g' : Game σ} : Beside f g g' [] []
  | same {g g' : Game σ} (m : Move σ) {ms ms' : List (Move σ)} (h : Beside f (g.step m) (g'.step m) ms ms') :
      Beside f g g' (m :: ms) (m :: ms')
  | visit {g g' : Game σ} {w w' : World} (hw : w'.through f = w.through f) {ms ms' : List (Move σ)}
      (h : Beside f (g.step (.visit w)) (g'.step (.visit w')) ms ms') :
      Beside f g g' (.visit w :: ms) (.visit w' :: ms')
  | left {g g' : Game σ} {m : Move σ} (hm : g.Idle f m) {ms ms' : List (Move σ)} (h : Beside f (g.step m) g' ms ms') :
      Beside f g g' (m :: ms) ms'
  | right {g g' : Game σ} {m : Move σ} (hm : g'.Idle f m) {ms ms' : List (Move σ)}
      (h : Beside f g (g'.step m) ms ms') : Beside f g g' ms (m :: ms')

/-- What the work of a task hands to the store: infos and payloads, in their order. -/
def handedOver (n : Nat) (turns : List (Turn σ)) : List (SlotInfo × Bytes) :=
  turns.filterMap fun x => (x.handed? n).map fun pair => (pair.1, pair.2.encode)

theorem handedOver_cons {x : Turn σ} {n : Nat} (h : x.handed? n = none) (turns : List (Turn σ)) :
    handedOver n (x :: turns) = handedOver n turns := by
  simp [handedOver, h]

theorem Game.handed_idle {g : Game σ} {f : SaveFilter} {m : Move σ} (hm : g.Idle f m) (n : Nat) :
    Turn.handed? ⟨g, m⟩ n = none := by
  cases m <;> first | rfl | exact hm.elim

/-- Two games that a new manager has come to and that a save by its filter cannot tell apart, if it is the save with
this number. -/
structure Alongside (p : Preset) (s : σ) (w : World) (n : Nat) (g g' : Game σ) : Prop where
  left : ∃ ms, (Game.new p s w).run ms = g
  right : ∃ ms, (Game.new p s w).run ms = g'
  through : g'.through p.filter = g.through p.filter
  numbered : Numbered n (fun j => j.kind = .save) g

namespace Alongside

variable {p : Preset} {s : σ} {w : World} {n : Nat} {g g' : Game σ}

theorem orderly (h : Alongside p s w n g g') : Orderly g := by
  obtain ⟨ms, rfl⟩ := h.left
  exact (orderly_new p s w).run ms

theorem everyTask (h : Alongside p s w n g g') : g'.everyTask = g.everyTask :=
  (congrArg Game.everyTask h.through :)

theorem symm (h : Alongside p s w n g g') : Alongside p s w n g' g := by
  have hissued : g'.manager.issued = g.manager.issued := (congrArg (fun x => x.manager.issued) h.through :)
  exact ⟨h.right, h.left, h.through.symm, hissued ▸ h.numbered.issued, h.everyTask ▸ h.numbered.jobs⟩

/-- Once the save has gone, nothing is handed over any more. -/
theorem gone (h : Alongside p s w n g g') (hno : ¬ ∃ t ∈ g.everyTask, t.number = n) (ms : List (Move σ)) :
    handedOver n (g.trace ms) = [] := by
  have hgone : Numbered n (fun _ => False) g := ⟨h.numbered.issued, fun t ht hn => hno ⟨t, ht, hn⟩⟩
  refine List.filterMap_eq_nil_iff.2 fun x hx => ?_
  obtain ⟨before, rest, hs⟩ := List.append_of_mem hx
  obtain ⟨ms₁, ms₂, -, -, hg, -⟩ := Game.trace_split hs
  cases hh : x.handed? n with
  | none => rfl
  | some pair =>
    obtain ⟨-, -, t, ht, -⟩ := Turn.handed_eq_some hh
    have hjobs := (hgone.run (fun hf _ => hf) h.orderly ms₁).jobs
    rw [hg] at ht
    exact (hjobs t (List.mem_of_find?_eq_some ht) (by simpa using List.find?_some ht)).elim

/-- As long as it is there, no other task streams. -/
theorem saves (h : Alongside p s w n g g') (hthere : ∃ t ∈ g.everyTask, t.number = n) :
    ∀ u ∈ g.manager.tasks, u.SavesBy p.filter := by
  intro u hu hs
  obtain ⟨t, ht, hn⟩ := hthere
  have hk : t.kind = .save := h.numbered.jobs t ht hn
  rw [h.orderly.everyTask_of_mem hu] at ht
  have hholder := h.orderly.holder_of_locks hu (Task.locks_of_streams hs)
  -- the save and the task that streams both hold the manager
  cases hholder.symm.trans (h.orderly.holder_of_locks ht (by simp [Task.locks, hk]))
  obtain ⟨ms, rfl⟩ := h.left
  exact ⟨hk, Orderly.filter_holder p s w ms hholder⟩

theorem cases (h : Alongside p s w n g g') :
    (∀ ms ms', handedOver n (g.trace ms) = handedOver n (g'.trace ms')) ∨
    (∀ u ∈ g.manager.tasks, u.SavesBy p.filter) ∧ ∀ u ∈ g'.manager.tasks, u.SavesBy p.filter := by
  by_cases hthere : ∃ t ∈ g.everyTask, t.number = n
  · exact .inr ⟨h.saves hthere, h.symm.saves (h.everyTask ▸ hthere)⟩
  · refine .inl fun ms ms' => ?_
    rw [h.gone hthere, h.symm.gone (h.everyTask ▸ hthere)]

/-- Games stay alongside if the first takes one move more. -/
theorem ahead (h : Alongside p s w n g g') {m : Move σ} (hm : g'.through p.filter = (g.step m).through p.filter) :
    Alongside p s w n (g.step m) g' := by
  refine ⟨?_, h.right, hm, h.numbered.step (fun hk hmoved => (Job.kind_moved hmoved).trans hk) h.orderly m⟩
  obtain ⟨ms, rfl⟩ := h.left
  exact ⟨ms ++ [m], Game.run_append ..⟩

theorem step (h : Alongside p s w n g g') {m m' : Move σ}
    (hm : (g'.step m').through p.filter = (g.step m).through p.filter) :
    Alongside p s w n (g.step m) (g'.step m') := by
  refine ⟨?_, ?_, hm, h.numbered.step (fun hk hmoved => (Job.kind_moved hmoved).trans hk) h.orderly m⟩
  · obtain ⟨ms, rfl⟩ := h.left
    exact ⟨ms ++ [m], Game.run_append ..⟩
  · obtain ⟨ms, rfl⟩ := h.right
    exact ⟨ms ++ [m'], Game.run_append ..⟩

/-- What is handed over does not tell the games apart. -/
theorem handedOver_eq (h : Alongside p s w n g g') {ms ms' : List (Move σ)} (hms : Beside p.filter g g' ms ms') :
    handedOver n (g.trace ms) = handedOver n (g'.trace ms') := by
  -- once the save has gone the rest does not matter; until then neither game has a load on its roster
  induction hms with
  | done => rfl
  | @same g g' m _ _ _ ih =>
    rcases h.cases with hgone | ⟨hg, hg'⟩
    · exact hgone ..
    · have hstep : (g'.step m).through p.filter = (g.step m).through p.filter := by
        rw [Game.step_through hg', h.through, ← Game.step_through hg]
      have hsame : Turn.handed? ⟨g', m⟩ n = Turn.handed? ⟨g, m⟩ n :=
        (congrArg (fun x => Turn.handed? ⟨x, m⟩ n) h.through :)
      have hrest := ih (h.step hstep)
      simp only [handedOver, Game.trace, List.filterMap_cons, hsame] at hrest ⊢
      rw [hrest]
  | @visit g g' v v' hv _ _ _ ih =>
    have hvisit (g : Game σ) (v : World) :
        (g.step (.visit v)).through p.filter = { g.through p.filter with world := v.through p.filter } := rfl
    have hstep : (g'.step (.visit v')).through p.filter = (g.step (.visit v)).through p.filter := by
      rw [hvisit, hvisit, h.through, hv]
    rw [Game.trace, Game.trace, handedOver_cons rfl, handedOver_cons rfl, ih (h.step hstep)]
  | left hm _ ih =>
    rcases h.cases with hgone | ⟨hg, -⟩
    · exact hgone ..
    · have hahead := h.ahead (h.through.trans (Game.idle_through hg hm).symm)
      rw [Game.trace, handedOver_cons (Game.handed_idle hm n), ih hahead]
  | right hm _ ih =>
    rcases h.cases with hgone | ⟨-, hg'⟩
    · exact hgone ..
    · have hahead := h.symm.ahead (h.through.symm.trans (Game.idle_through hg' hm).symm)
      rw [Game.trace, handedOver_cons (Game.handed_idle hm n), ih hahead.symm]

end Alongside

/-! ## Main theorem -/

/-- Let a save be asked for in a game that a manager has come to, and in the same game in a world that differs in
nothing that the filter lets through. If the two games then go on in the same way, but for what the filter leaves out
and for regions that come, or go and are not saved, the saves hand the same infos and the same bytes to the store. -/
theorem ignored_unseen (p : Preset) (s : σ) (w : World) {before : List (Move σ)} {g g' : Game σ} {w' : World}
    (hg : g = (Game.new p s w).run before) (hg' : g' = { g with world := w' })
    (hw : w'.through p.filter = g.world.through p.filter) {r : Request} {now : Instant} {t : Task}
    (ht : Turn.made? ⟨g, .request r now⟩ = some t) (hk : t.kind = .save) {ms ms' : List (Move σ)}
    (hms : Beside p.filter (g.step (.request r now)) (g'.step (.request r now)) ms ms') :
    Turn.made? ⟨g', .request r now⟩ = some t ∧
      handedOver t.number (g'.trace (.request r now :: ms')) =
        handedOver t.number (g.trace (.request r now :: ms)) := by
  subst hg'
  refine ⟨ht, ?_⟩
  rw [Game.trace, Game.trace, handedOver_cons rfl, handedOver_cons rfl]
  have ho : Orderly g := hg ▸ (orderly_new p s w).run before
  obtain ⟨hholder, -⟩ := ho.holder_of_made ht (by simp [Task.locks, hk])
  have hnumbered : Numbered t.number (fun j => j.kind = .save) (g.step (.request r now)) :=
    (ho.step (.request r now)).numbered (List.mem_of_find?_eq_some hholder) hk
  have halong : Alongside p s w t.number (g.step (.request r now))
      (Game.step { g with world := w' } (.request r now)) := by
    refine ⟨⟨before ++ [.request r now], ?_⟩, ⟨before ++ [.visit w', .request r now], ?_⟩,
      g.request_through hw r now, hnumbered⟩ <;>
    · rw [hg, Game.run_append]
      rfl
  exact (halong.handedOver_eq hms).symm

/-- A preset by which objects of one class are not saved. -/
def dustless : Preset :=
  { Preset.default with filter := { SaveFilter.all with ignoredClasses := .ofList ["Dust"] } }

/-- A world with a region, and with dust of some kind inside and outside of it. -/
def dustyWorld (kind : Bool) : World :=
  let dust : GameObject := ⟨"dust", "Dust", [], .bool kind⟩
  { ((World.new "harbor").spawn dust).loadRegion "cellar" [dust, ⟨"barrel", "Barrel", [], .null⟩] with shotDelay := 1 }

/-- A region goes before the picture is there, and then the save is written. -/
def savingDust (kind : Bool) : List (Move MemoryStore) :=
  [.regionUnloading "cellar", .visit ((dustyWorld kind).unloadRegion "cellar"), .tick .epoch, .tick .epoch, .work 0]

/-- Of the dust there is nothing in a save, and of a region that comes in between. -/
theorem ignored_unseen_dust :
    let g := Game.new dustless MemoryStore.empty (dustyWorld false)
    let asks : Move MemoryStore := .request (.save 1 false (some .default)) .epoch
    let saved := handedOver 0 (g.trace (asks :: savingDust false))
    saved.length = 1 ∧
      handedOver 0 (({ g with world := dustyWorld true } : Game MemoryStore).trace
        (asks :: .regionReady "cellar" :: savingDust true)) = saved := by
  intro g asks saved
  have hworld : (dustyWorld true).through dustless.filter = (dustyWorld false).through dustless.filter := rfl
  have hvisit : ((dustyWorld true).unloadRegion "cellar").through dustless.filter =
      ((dustyWorld false).unloadRegion "cellar").through dustless.filter := rfl
  have hbeside (g g' : Game MemoryStore) :
      Beside dustless.filter g g' (savingDust false) (.regionReady "cellar" :: savingDust true) :=
    .right (m := .regionReady "cellar") trivial (.same _ (.visit hvisit (.same _ (.same _ (.same _ .done)))))
  have hmade : Turn.made? ⟨g, asks⟩ = some (g.step asks).manager.tasks[0] := rfl
  have hnew : g = (Game.new dustless MemoryStore.empty (dustyWorld false)).run [] := rfl
  obtain ⟨-, hsame⟩ := ignored_unseen dustless MemoryStore.empty (dustyWorld false) hnew rfl hworld hmade rfl
    (hbeside ..)
  exact ⟨by decide +kernel, hsame⟩

end SaveSlots
