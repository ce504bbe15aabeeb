import SaveSlots.Proofs.Loading
/-!
# The map that a snapshot is applied on

A load compares the map of its snapshot with that of the world once: in the tick that delivers the payload to it
(`Turn.Delivers`). From then on it waits until no map is loading, and does not look at the map again. The host may
open maps in the meantime, and nobody else does (`Turn.Stays`).

`load_arrives` is the main theorem. A load applies its snapshot on the map that the host's last visit since the
delivery has left the world on (`lastVisited?`), and on its own map if there was no such visit. In
`load_arrives_elsewhere` a snapshot is applied on another map than its own.
-/

namespace SaveSlots

/-! ## Maps of worlds -/

namespace World

theorem map_restoreRegion (w : World) (name : String) (os : List GameObject) : (w.restoreRegion name os).map = w.map := by
  unfold restoreRegion
  split <;> rfl

end World

/-- A load that travels comes to the map of its snapshot. -/
theorem LoadJob.map_travel {p : Preset} {data : Snapshot} {w : World} (hp : p.travelOnLoad = true)
    (hdata : data.map ≠ "") (hbasic : w.basic = false) : (travel p data w).map = data.map := by
  unfold travel
  split
  · simp [World.requestMap, hbasic, World.openMap]
  · next hno =>
    have hsame : data.map = w.map := by simpa [hp, hdata] using hno
    exact hsame.symm

/-- A region that is restored is no reason to leave the map. -/
theorem Job.map_regionReady {j j' : Job} {f : SaveFilter} {region : String} {w w' : World}
    (h : j.regionReady? f region w = some (j', w')) : w'.map = w.map := by
  cases j with
  | load j =>
    obtain ⟨info, data, restored, os, -, -, rfl, -⟩ := LoadJob.ready_cases h
    exact World.map_restoreRegion ..
  | save | info | infos | deleteAll => cases h

variable {σ : Type}

/-! ## Visits -/

/-- The map that a visit leaves the world on. -/
def Turn.visited? (x : Turn σ) : Option String :=
  match x.move with
  | .visit w => some w.map
  | _ => none

/-- The map that the last visit in some turns leaves the world on. -/
def lastVisited? (turns : List (Turn σ)) : Option String := (turns.filterMap Turn.visited?).getLast?

theorem lastVisited_cons (x : Turn σ) (turns : List (Turn σ)) :
    lastVisited? (x :: turns) = (lastVisited? turns).or x.visited? := by
  unfold lastVisited?
  cases hx : x.visited? with
  | none => simp [hx]
  | some map =>
    rw [List.filterMap_cons_some hx, List.getLast?_cons]
    cases (turns.filterMap Turn.visited?).getLast? <;> rfl

variable [SlotStore σ]

/-- Whether the world stays on its map in a turn, unless the host changes it. -/
def Turn.Stays (x : Turn σ) : Prop := x.visited? = none → x.after.world.map = x.game.world.map

/-- In turns like this the last visit decides about the map. -/
theorem Game.map_run {g : Game σ} {ms : List (Move σ)} (h : ∀ x ∈ g.trace ms, x.Stays) :
    (g.run ms).world.map = (lastVisited? (g.trace ms)).getD g.world.map := by
  induction ms generalizing g with
  | nil => rfl
  | cons m ms ih =>
    obtain ⟨hfirst, hrest⟩ := List.forall_mem_cons.1 h
    change ((g.step m).run ms).world.map = (lastVisited? (⟨g, m⟩ :: (g.step m).trace ms)).getD g.world.map
    rw [ih hrest, lastVisited_cons]
    cases hvisited : Turn.visited? ⟨g, m⟩ with
    | none =>
      have hsame : (g.step m).world.map = g.world.map := hfirst hvisited
      rw [Option.or_none, hsame]
    | some map =>
      have hmap : (g.step m).world.map = map := by
        cases m with
        | visit w => exact Option.some.inj hvisited
        | _ => cases hvisited
      rw [hmap]
      cases lastVisited? ((g.step m).trace ms) <;> rfl

/-- Only a tick may take the world to another map, if not a visit. -/
theorem Turn.stays_of_not_tick {x : Turn σ} (h : ∀ now, x.move ≠ .tick now) : x.Stays := by
  obtain ⟨g, m⟩ := x
  intro hvisited
  cases m with
  | request r now =>
    simp only [after, Game.step]
    split <;> rfl
  | tick now => exact absurd rfl (h now)
  | regionReady region =>
    simp only [after, Game.step]
    rcases g.manager.regionReady_cases region g.world with ⟨r, he, -⟩ | ⟨r, t, job, w', -, hj, he⟩
    · rw [he]
    · rw [he]
      exact Job.map_regionReady hj
  | visit w => cases hvisited
  | delete | regionUnloading | subscribe | unsubscribe | currentInfo | currentData | deinitialize | work | lose
  | disturb => rfl

/-! ## Loads on their way -/

/-- Whether a tick delivers the payload to a load. -/
def Turn.Delivers (x : Turn σ) (n : Nat) (data : Snapshot) : Prop :=
  (∃ now, x.move = .tick now) ∧ ∃ t j info, x.game.manager.holder? = some t ∧ t.number = n ∧ t.job = .load j ∧
    j.phase = .readingData info (.finished (.ok data))

/-- Whether the payload was delivered in one of these turns, and the host alone has changed the map since. -/
def Travelled (turns : List (Turn σ)) (n : Nat) (data : Snapshot) : Prop :=
  ∃ before x after, turns = before ++ x :: after ∧ x.Delivers n data ∧
    x.after.world = LoadJob.travel x.game.manager.preset data x.game.world ∧ ∀ y ∈ after, y.Stays

def LoadPhase.Travelled (turns : List (Turn σ)) (n : Nat) : LoadPhase → Prop
  | travelling _ data _ => SaveSlots.Travelled turns n data
  | start | readingInfo _ | readingData .. => True

theorem Travelled.concat {turns : List (Turn σ)} {x : Turn σ} {n : Nat} {data : Snapshot} (h : Travelled turns n data)
    (hx : x.Stays) : Travelled (turns ++ [x]) n data := by
  obtain ⟨before, y, after, rfl, hy, hworld, hstays⟩ := h
  refine ⟨before, y, after ++ [x], by simp, hy, hworld, ?_⟩
  exact List.forall_mem_append.2 ⟨hstays, List.forall_mem_singleton.2 hx⟩

namespace LoadPhase

variable {turns : List (Turn σ)} {x : Turn σ} {n : Nat} {phase : LoadPhase}

theorem travelled_of_reading (h : phase.travels = false) : phase.Travelled turns n := by
  cases phase with
  | travelling => cases h
  | start | readingInfo | readingData => trivial

theorem Travelled.concat (h : phase.Travelled turns n) (hx : x.Stays) : phase.Travelled (turns ++ [x]) n := by
  cases phase with
  | travelling => exact SaveSlots.Travelled.concat h hx
  | start | readingInfo | readingData => trivial

end LoadPhase

namespace Orderly

variable {g : Game σ} {t t' : Task} {j : LoadJob} {turns : List (Turn σ)}

/-- A tick that a load goes on in delivers the payload to it, or leaves the world as it is. -/
theorem travelled_tick (h : Orderly g) (ht : g.manager.holder? = some t) (hj : t.job = .load j)
    (htravelled : j.phase.Travelled turns t.number) (now : Instant)
    (hgoes : (j.advance t.filter g.manager.preset g.world).2.2 = none) :
    (j.advance t.filter g.manager.preset g.world).1.phase.Travelled (turns ++ [⟨g, .tick now⟩]) t.number := by
  have hworld : (g.step (.tick now)).world = (j.advance t.filter g.manager.preset g.world).2.1 := by
    rw [h.world_tick ht now, hj]
    rfl
  have hsteps := j.steps t.filter g.manager.preset g.world
  generalize j.advance t.filter g.manager.preset g.world = a at hgoes hworld hsteps
  cases hsteps with
  | asks | follows => trivial
  | waits hphase => exact LoadPhase.travelled_of_reading hphase
  | fails | applies => cases hgoes
  | travels hbrings =>
    cases hbrings with
    | read hphase =>
      exact ⟨turns, ⟨g, .tick now⟩, [], rfl, ⟨⟨now, rfl⟩, t, j, _, ht, rfl, hj, hphase⟩, hworld, by simp⟩
    | waited hphase =>
      rw [hphase] at htravelled
      exact htravelled.concat fun _ => congrArg World.map hworld

/-- A load on its way, move by move. -/
theorem travelled_step (h : Orderly g) (ht : g.manager.holder? = some t) {m : Move σ}
    (hc : g.carried t m = some t') (hj : t.job = .load j) (htravelled : j.phase.Travelled turns t.number) :
    ∃ j', t'.job = .load j' ∧ j'.phase.Travelled (turns ++ [⟨g, m⟩]) t'.number := by
  rw [Task.number_eq (Game.label_carried hc)]
  have hcarries := Game.carries hc
  generalize t'.job = job at hcarries
  cases hcarries with
  | advance now hnone =>
    simp only [hj, Job.advance] at hnone ⊢
    exact ⟨_, rfl, h.travelled_tick ht hj htravelled now hnone⟩
  | ready region hr =>
    rw [hj] at hr
    obtain ⟨info, data, restored, os, hphase, -, -, rfl⟩ := LoadJob.ready_cases hr
    rw [hphase] at htravelled
    exact ⟨_, rfl, htravelled.concat (Turn.stays_of_not_tick (by simp))⟩
  | unloading region hu =>
    rw [hj] at hu
    cases hu
  | work =>
    have hmore := htravelled.concat (x := ⟨g, .work t.number⟩) (Turn.stays_of_not_tick (by simp))
    rw [hj]
    obtain ⟨slot, phase⟩ := j
    cases phase <;> exact ⟨_, rfl, hmore⟩
  | lose =>
    have hmore := htravelled.concat (x := ⟨g, .lose t.number⟩) (Turn.stays_of_not_tick (by simp))
    rw [hj]
    obtain ⟨slot, phase⟩ := j
    cases phase <;> exact ⟨_, rfl, hmore⟩
  | stay htick => exact ⟨j, hj, htravelled.concat (Turn.stays_of_not_tick htick)⟩

/-- A load on its way in a run. -/
theorem travelled {p : Preset} {s : σ} {w : World} {ms : List (Move σ)}
    (ht : ((Game.new p s w).run ms).manager.holder? = some t) (hk : t.kind = .load) :
    ∃ j, t.job = .load j ∧ j.phase.Travelled ((Game.new p s w).trace ms) t.number := by
  have h := orderly_new p s w
  refine course_new (P := fun turns t => ∃ j, t.job = .load j ∧ j.phase.Travelled turns t.number) p s w ?_ ?_ ms ht hk
  · intro ms m t _ _ hfresh hk
    obtain ⟨⟨slot, phase⟩, hj⟩ := Task.job_of_load hk
    rw [hj] at hfresh
    cases phase with
    | start => exact ⟨_, hj, trivial⟩
    | readingInfo | readingData | travelling => cases hfresh
  · rintro ms m t t' ht hc _ ⟨j, hj, htravelled⟩
    exact (h.run ms).travelled_step ht hc hj htravelled

end Orderly

/-! ## Main theorem -/

/-- The map that a world is on whose payload was delivered, if the host alone has changed the map since. -/
theorem Travelled.map {p : Preset} {s : σ} {w : World} {ms : List (Move σ)} {n : Nat} {data : Snapshot}
    (h : Travelled ((Game.new p s w).trace ms) n data) (hp : p.travelOnLoad = true) (hdata : data.map ≠ "")
    (hbasic : ∀ x ∈ (Game.new p s w).trace ms, x.game.world.basic = false) :
    ∃ before x after, (Game.new p s w).trace ms = before ++ x :: after ∧ x.Delivers n data ∧
      ((Game.new p s w).run ms).world.map = (lastVisited? after).getD data.map := by
  obtain ⟨before, x, after, hs, hdelivers, hworld, hstays⟩ := h
  obtain ⟨ms₁, ms₂, rfl, -, hg, rfl⟩ := Game.trace_split hs
  refine ⟨before, x, _, hs, hdelivers, ?_⟩
  have hrun : (Game.new p s w).run (ms₁ ++ x.move :: ms₂) = x.after.run ms₂ := by
    rw [Game.run_append, ← hg]
    rfl
  have hpreset : x.game.manager.preset = p := by
    rw [hg]
    exact Orderly.preset_run (Game.new p s w) ms₁
  have hx : x.game.world.basic = false := hbasic x (by simp [hs])
  rw [hrun, Game.map_run hstays, hworld, hpreset, LoadJob.map_travel hp hdata hx]

/-- A load that succeeds applies its snapshot while no map is loading. If loads are to travel, and the snapshot has a
map, then it is applied on the map that the host's last visit since the payload was delivered has left the world on,
or else on its own map. So it is applied on its own map unless the host has gone to another one in the meantime. -/
theorem load_arrives (p : Preset) (s : σ) (w : World) {ms : List (Move σ)} {before after : List (Turn σ)} {t : Turn σ}
    {c : Call} {v : Value} (hs : (Game.new p s w).trace ms = before ++ t :: after) (hc : c ∈ t.calls)
    (hk : c.task.kind = .load) (hv : c.reply = .ok v) (hp : p.travelOnLoad = true)
    (hbasic : ∀ x ∈ before ++ [t], x.game.world.basic = false) :
    ∃ info data skip, v = .info info ∧ t.after.manager.active = some (info, data) ∧
      t.after.world = (t.game.world.apply data c.task.filter skip).1 ∧ t.game.world.mapLoading = false ∧
      (data.map ≠ "" → ∃ earlier x later, before ++ [t] = earlier ++ x :: later ∧ x.Delivers c.task.number data ∧
        t.game.world.map = (lastVisited? later).getD data.map) := by
  obtain ⟨ms₁, ms₂, rfl, rfl, hg, -⟩ := Game.trace_split hs
  have ho : Orderly t.game := hg ▸ (orderly_new p s w).run ms₁
  obtain ⟨hbefore, hlast⟩ := List.forall_mem_append.1 hbasic
  have hb : t.game.world.basic = false := hlast t (List.mem_singleton_self t)
  rcases (Turn.settles ho hc).how with ⟨now, hm, -, -⟩ | ⟨-, -, hreply⟩
  swap
  · rw [hreply] at hv
    cases hv
  obtain ⟨u, r, hholder, hlabel, hstep, hreply, hactive⟩ := ho.holder_called hm hc (by simp [Task.locks, hk])
  obtain ⟨j, hj, htravelled⟩ := Orderly.travelled (hg ▸ hholder) ((Task.kind_eq hlabel).symm.trans hk)
  rw [Task.number_eq hlabel, Task.filter_eq hlabel]
  simp only [hj, Job.advance, Prod.mk.injEq] at hstep
  rw [hreply] at hv
  cases r with
  | error e => cases hv
  | ok o =>
    cases hv
    obtain ⟨info, data, restored, hbrings, hloading, rfl, hworld⟩ := LoadJob.applies_of_ok hstep.2.2
    refine ⟨info, data, restored.toList, rfl, hactive, hstep.2.1.symm.trans hworld,
      by simpa [World.isMapLoading, hb] using hloading, fun hdata => ?_⟩
    have hpreset : t.game.manager.preset = p := by
      rw [hg]
      exact Orderly.preset_run (Game.new p s w) ms₁
    rcases hbrings.phase_cases with ⟨hphase, hstays⟩ | ⟨hphase, -⟩
    · -- the payload is delivered in this very tick, and the world was there before
      refine ⟨_, t, [], rfl, ⟨⟨now, hm⟩, u, j, info, hholder, rfl, hj, hphase⟩, ?_⟩
      rw [hstays, hpreset]
      exact LoadJob.map_travel hp hdata hb
    · rw [hphase] at htravelled
      obtain ⟨earlier, x, later, hs, hdelivers, hmap⟩ := Travelled.map htravelled hp hdata hbefore
      have hno : t.visited? = none := by rw [Turn.visited?, hm]
      refine ⟨earlier, x, later ++ [t], by simp [hs], hdelivers, ?_⟩
      rw [hg, hmap]
      simp [lastVisited?, hno]

/-- Slot 1 is saved in the harbor. When it is loaded in the crypt, the load opens the harbor, and the host goes back to
the crypt before the next tick. -/
def loadingAway : List (Move MemoryStore) :=
  [.request (.save 1 false none) .epoch, .tick .epoch, .work 0, .tick .epoch, .visit (World.new "crypt"),
    .request (.load 1) .epoch, .tick .epoch, .work 1, .tick .epoch, .work 1, .tick .epoch,
    .visit (World.new "crypt"), .tick .epoch]

/-- The snapshot of the harbor is applied in the crypt. -/
theorem load_arrives_elsewhere :
    let g := Game.new .default MemoryStore.empty (World.new "harbor")
    let t : Turn MemoryStore := ⟨g.run (loadingAway.take 12), .tick .epoch⟩
    ∃ c ∈ t.calls, ∃ info data skip, c.task.kind = .load ∧ c.reply = .ok (.info info) ∧
      t.after.manager.active = some (info, data) ∧ data.map = "harbor" ∧ t.game.world.map = "crypt" ∧
      t.after.world = (t.game.world.apply data c.task.filter skip).1 := by
  intro g t
  have hs : g.trace loadingAway = g.trace (loadingAway.take 12) ++ t :: [] := rfl
  have hcalls : 0 < t.calls.length ∧ ∀ c ∈ t.calls, c.task.kind = .load ∧ c.reply.isOk = true := by
    decide +kernel
  have hmaps : (t.after.manager.active.map fun pair => pair.2.map) = some "harbor" ∧ t.game.world.map = "crypt" := by
    decide +kernel
  have hbasic : ∀ x ∈ g.trace (loadingAway.take 12) ++ [t], x.game.world.basic = false := by decide +kernel
  obtain ⟨c, hc⟩ := List.exists_mem_of_length_pos hcalls.1
  obtain ⟨hk, hok⟩ := hcalls.2 c hc
  obtain ⟨v, hv⟩ := ok_of_isOk hok
  obtain ⟨info, data, skip, rfl, hactive, hworld, -, -⟩ :=
    load_arrives .default MemoryStore.empty (World.new "harbor") hs hc hk hv rfl hbasic
  rw [hactive] at hmaps
  exact ⟨c, hc, info, data, skip, hk, hv, hactive, Option.some.inj hmaps.1, hmaps.2, hworld⟩

end SaveSlots
