import SaveSlots.Proofs.Applied
import SaveSlots.Proofs.Course
import SaveSlots.Store.Memory
/-!
# Regions that a load restores

A load that waits for its map restores the regions that are announced to it, and leaves them out when it applies
its snapshot in the end. `Turn.Restores` says what a task restores in a turn and `RestoredSince` that a region
was not loaded again since. Which visits of the host load a region is for the host to say: all statements hold
for every way to tell.

`load_restores` is the main theorem. A load that succeeds has restored every region that is loaded and in its
snapshot, unless the region was announced to it. What was announced counts as restored from then on, even if it
is loaded again: in `load_restores_not_again` a region is left as it was loaded.
-/

namespace SaveSlots

/-! ## What happens to regions in a run -/

section
variable {σ : Type} [SlotStore σ]

namespace Turn

/-- Whether a task has the manager to itself in a turn. -/
def HeldBy (x : Turn σ) (n : Nat) : Prop := ∃ u, x.game.manager.holder? = some u ∧ u.number = n

/-- Whether a region is announced in a turn and a task claims to restore it. -/
def Announces (x : Turn σ) (n : Nat) (r : String) : Prop :=
  x.HeldBy n ∧ x.move = .regionReady r ∧ (x.game.manager.regionReady r x.game.world).1 = true

/-- Whether a task restores a region in a turn: the region is loaded, the objects are put into it, and the world
takes note of it. -/
def Restores (x : Turn σ) (n : Nat) (r : String) (os : List GameObject) : Prop :=
  x.HeldBy n ∧ ((∃ now, x.move = .tick now) ∨ x.move = .regionReady r) ∧
    (x.game.world.region? r).isSome = true ∧
    x.after.world.region? r = (x.game.world.restoreRegion r os).region? r ∧
    ∃ log, x.after.world.restored = x.game.world.restored ++ log ∧ r ∈ log

/-- Whether the host loads a region in a turn. What it takes for loading is up to it. -/
def Loads (loads : World → World → String → Prop) (x : Turn σ) (r : String) : Prop :=
  ∃ w, x.move = .visit w ∧ loads x.game.world w r

end Turn

/-- Whether a task has restored a region, and the host has not loaded it since. -/
def RestoredSince (loads : World → World → String → Prop) (turns : List (Turn σ)) (n : Nat) (r : String)
    (os : List GameObject) : Prop :=
  ∃ before x after, turns = before ++ x :: after ∧ x.Restores n r os ∧ ∀ y ∈ after, ¬ y.Loads loads r

theorem restoredSince_concat {loads : World → World → String → Prop} {turns : List (Turn σ)} {x : Turn σ} {n : Nat}
    {r : String} {os : List GameObject} :
    RestoredSince loads (turns ++ [x]) n r os ↔
      x.Restores n r os ∨ ¬ x.Loads loads r ∧ RestoredSince loads turns n r os := by
  constructor
  · rintro ⟨before, y, after, he, hy, hafter⟩
    rcases List.eq_nil_or_concat after with rfl | ⟨after, z, rfl⟩
    · obtain ⟨-, rfl⟩ := List.append_singleton_inj.1 he
      exact .inl hy
    · rw [List.concat_eq_append, ← List.cons_append, ← List.append_assoc] at he
      obtain ⟨rfl, rfl⟩ := List.append_singleton_inj.1 he
      refine .inr ⟨hafter x (by simp), before, y, after, rfl, hy, fun z hz => hafter z (by simp [hz])⟩
  · rintro (hx | ⟨hx, before, y, after, rfl, hy, hafter⟩)
    · exact ⟨turns, x, [], rfl, hx, by simp⟩
    · exact ⟨before, y, after ++ [x], by simp, hy,
        List.forall_mem_append.2 ⟨hafter, List.forall_mem_singleton.2 hx⟩⟩

/-! ## What a load has restored on its way -/

/-- What a load takes for restored: all regions that were announced to it, which it did restore if they were
loaded, and no other ones. -/
structure Skips (turns : List (Turn σ)) (n : Nat) (f : SaveFilter) (data : Snapshot) (skip : List String) : Prop where
  announced : ∀ r, r ∈ skip ↔ ∃ x ∈ turns, x.Announces n r
  restored : ∀ x ∈ turns, ∀ r, x.Announces n r → (x.game.world.region? r).isSome = true →
    ∃ os, data.region? r = some os ∧ x.Restores n r (f.retain os)

/-- Before a load waits for its map, no region is announced to it. From then on it keeps account. -/
def Restoring (turns : List (Turn σ)) (n : Nat) (f : SaveFilter) : LoadPhase → Prop
  | .start | .readingInfo _ | .readingData .. => ∀ x ∈ turns, ∀ r, ¬ x.Announces n r
  | .travelling _ data restored => Skips turns n f data restored.toList

theorem Skips.none {turns : List (Turn σ)} {n : Nat} (h : ∀ x ∈ turns, ∀ r, ¬ x.Announces n r) (f : SaveFilter)
    (data : Snapshot) : Skips turns n f data (Catalog.empty : Catalog (id : String → String)).toList where
  announced r := by
    simp only [Catalog.empty, List.not_mem_nil, false_iff, not_exists, not_and]
    exact fun x hx => h x hx r
  restored x hx r hr := absurd hr (h x hx r)

namespace Restoring

variable {turns : List (Turn σ)} {n : Nat} {f : SaveFilter} {j j' : LoadJob} {p : Preset} {w : World}

/-- A turn without an announcement changes nothing about that. -/
theorem quiet {phase : LoadPhase} (h : Restoring turns n f phase) {x : Turn σ} (hx : ∀ r, ¬ x.Announces n r) :
    Restoring (turns ++ [x]) n f phase := by
  cases phase with
  | start | readingInfo | readingData => exact List.forall_mem_append.2 ⟨h, List.forall_mem_singleton.2 hx⟩
  | travelling info data restored =>
    have h : Skips turns n f data restored.toList := h
    constructor
    · intro r
      rw [h.announced]
      simp [or_and_right, exists_or, hx r]
    · exact List.forall_mem_append.2 ⟨h.restored, List.forall_mem_singleton.2 fun r ha => absurd ha (hx r)⟩

omit [SlotStore σ] in
theorem travel_eq {data : Snapshot} (h : (LoadJob.travel p data w).isMapLoading = false) :
    LoadJob.travel p data w = w := by
  revert h
  unfold LoadJob.travel World.requestMap World.isMapLoading
  split
  · split
    · exact fun _ => rfl
    · next hb => simp [World.openMap, hb]
  · exact fun _ => rfl

/-- A load that goes on is as far as it was, or begins to wait for its map. -/
theorem advance (h : Restoring turns n f j.phase) (ha : (j.advance f p w).2.2 = none) :
    Restoring turns n f (j.advance f p w).1.phase := by
  obtain ⟨slot, phase⟩ := j
  cases phase with
  | start => exact h
  | readingInfo work =>
    cases work with
    | waiting | held => exact h
    | lost => cases ha
    | finished answer =>
      cases answer with
      | ok info => exact h
      | error e => cases ha
  | readingData info work =>
    cases work with
    | waiting | held => exact h
    | lost => cases ha
    | finished answer =>
      cases answer with
      | ok data =>
        simp only [LoadJob.advance, Handle.poll, LoadJob.arrive]
        split <;> exact Skips.none h f data
      | error e => cases ha
  | travelling info data restored =>
    simp only [LoadJob.advance, LoadJob.arrive]
    split <;> exact h

/-- A load that succeeds applies its snapshot, the regions apart that were announced to it. -/
theorem ended (h : Restoring turns n f j.phase) {out : Outcome} (ha : (j.advance f p w).2.2 = some (.ok out)) :
    ∃ info data skip, out = .loaded info data ∧ (j.advance f p w).2.1 = (w.apply data f skip).1 ∧
      Skips turns n f data skip := by
  obtain ⟨slot, phase⟩ := j
  cases phase with
  | start => cases ha
  | readingInfo work =>
    cases work with
    | waiting | held | lost => cases ha
    | finished answer => cases answer <;> cases ha
  | readingData info work =>
    cases work with
    | waiting | held | lost => cases ha
    | finished answer =>
      cases answer with
      | error e => cases ha
      | ok data =>
        simp only [LoadJob.advance, Handle.poll, LoadJob.arrive] at ha ⊢
        split at ha
        · cases ha
        · next hloading =>
          cases ha
          have hw : LoadJob.travel p data w = w := travel_eq (by simpa using hloading)
          rw [if_neg hloading, hw]
          exact ⟨info, data, _, rfl, rfl, Skips.none h f data⟩
  | travelling info data restored =>
    simp only [LoadJob.advance, LoadJob.arrive] at ha ⊢
    split at ha
    · cases ha
    · next hloading =>
      cases ha
      rw [if_neg hloading]
      exact ⟨info, data, restored.toList, rfl, rfl, h⟩

/-- The work of a load restores nothing. -/
theorem runWork (h : Restoring turns n f j.phase) (s : σ) :
    ∃ j', ((Job.load j).runWork s).1 = .load j' ∧ Restoring turns n f j'.phase := by
  obtain ⟨slot, phase⟩ := j
  cases phase <;> exact ⟨_, rfl, h⟩

theorem loseWork (h : Restoring turns n f j.phase) :
    ∃ j', (Job.load j).loseWork = .load j' ∧ Restoring turns n f j'.phase := by
  obtain ⟨slot, phase⟩ := j
  cases phase <;> exact ⟨_, rfl, h⟩

end Restoring

/-- A load that takes an announced region for restored waits for its map and has something for the region. -/
theorem LoadJob.ready_cases {j : LoadJob} {f : SaveFilter} {region : String} {w w' : World} {job : Job}
    (h : (Job.load j).regionReady? f region w = some (job, w')) :
    ∃ info data restored os, j.phase = .travelling info data restored ∧ data.region? region = some os ∧
      w' = w.restoreRegion region (f.retain os) ∧
      job = .load { j with phase := .travelling info data (restored.insert region) } := by
  simp only [Job.regionReady?] at h
  split at h
  · next info data restored hphase =>
    obtain ⟨w₁, hw, he⟩ := Option.map_eq_some_iff.1 h
    cases he
    unfold World.applyRegion? at hw
    split at hw
    · obtain ⟨os, hos, rfl⟩ := Option.map_eq_some_iff.1 hw
      exact ⟨info, data, restored, os, hphase, hos, rfl, rfl⟩
    · cases hw
  · cases h

namespace Orderly

variable {g : Game σ} {t t' : Task} {j : LoadJob} {turns : List (Turn σ)}

/-- A region that is announced to a load, and that it takes for restored. -/
theorem restoring_ready (h : Orderly g) (ht : g.manager.holder? = some t) (hj : t.job = .load j)
    (hr : Restoring turns t.number t.filter j.phase) (region : String) :
    ∃ j', ((t.job.regionReady? t.filter region g.world).map Prod.fst).getD t.job = .load j' ∧
      Restoring (turns ++ [⟨g, .regionReady region⟩]) t.number t.filter j'.phase := by
  have hother : ∀ r, r ≠ region → ¬ Turn.Announces ⟨g, .regionReady region⟩ t.number r := by
    rintro r hne ⟨-, hm, -⟩
    cases hm
    exact hne rfl
  rcases h.ready_cases region with ⟨m, he, hno⟩ | ⟨m, u, job, w', hu, hjob, he⟩
  · rw [hno t ht]
    refine ⟨j, hj, hr.quiet fun r ha => ?_⟩
    obtain ⟨-, hm, hanswer⟩ := ha
    cases hm
    simp [he] at hanswer
  · rw [ht] at hu
    cases hu
    rw [hjob]
    rw [hj] at hjob
    obtain ⟨info, data, restored, os, hphase, hos, rfl, rfl⟩ := LoadJob.ready_cases hjob
    rw [hphase] at hr
    have hr : Skips turns t.number t.filter data restored.toList := hr
    have hheld : Turn.HeldBy ⟨g, .regionReady region⟩ t.number := ⟨t, ht, rfl⟩
    have hannounces : Turn.Announces ⟨g, .regionReady region⟩ t.number region := ⟨hheld, rfl, by simp [he]⟩
    refine ⟨_, rfl, ⟨fun r => ?_, ?_⟩⟩
    · change r ∈ Catalog.insertInto id region restored.toList ↔ _
      rw [Catalog.mem_insertInto_set, hr.announced]
      by_cases hregion : r = region
      · subst hregion
        simp [hannounces]
      · simp [or_and_right, exists_or, hregion, hother r hregion]
    · refine List.forall_mem_append.2 ⟨hr.restored, List.forall_mem_singleton.2 fun r ha hloaded => ?_⟩
      obtain rfl : r = region := by
        by_contra hne
        exact hother r hne ha
      have hworld : (Turn.after ⟨g, .regionReady r⟩).world = g.world.restoreRegion r (t.filter.retain os) := by
        simp [Turn.after, Game.step, he]
      refine ⟨os, hos, hheld, .inr rfl, hloaded, by rw [hworld], [r], ?_, by simp⟩
      rw [hworld, World.restored_restoreRegion, if_pos hloaded]

/-- What a load takes for restored, move by move. -/
theorem restoring_step (h : Orderly g) (ht : g.manager.holder? = some t) {m : Move σ}
    (hc : g.carried t m = some t') (hj : t.job = .load j) (hr : Restoring turns t.number t.filter j.phase) :
    ∃ j', t'.job = .load j' ∧ Restoring (turns ++ [⟨g, m⟩]) t'.number t'.filter j'.phase := by
  rw [Task.number_eq (Game.label_carried hc), Task.filter_eq (Game.label_carried hc)]
  by_cases hm : ∃ region, m = .regionReady region
  · obtain ⟨region, rfl⟩ := hm
    cases hc
    exact h.restoring_ready ht hj hr region
  have hquiet : ∀ r, ¬ Turn.Announces ⟨g, m⟩ t.number r := fun r ha => hm ⟨r, ha.2.1⟩
  have hcarries := Game.carries hc
  generalize hjob : t'.job = job at hcarries
  cases hcarries with
  | advance now hnone =>
    simp only [hj, Job.advance] at hnone hjob ⊢
    exact ⟨_, rfl, (hr.advance hnone).quiet hquiet⟩
  | ready region => exact absurd ⟨region, rfl⟩ hm
  | unloading region hu =>
    rw [hj] at hu
    cases hu
  | work =>
    obtain ⟨j', hj', hr'⟩ := hr.runWork g.store
    exact ⟨j', by rw [hj, ← hj'], hr'.quiet hquiet⟩
  | lose =>
    obtain ⟨j', hj', hr'⟩ := hr.loseWork
    exact ⟨j', by rw [hj, ← hj'], hr'.quiet hquiet⟩
  | stay => exact ⟨j, hj, hr.quiet hquiet⟩

/-- What a load takes for restored in a run. -/
theorem restoring {s : σ} {p : Preset} {w : World} {ms : List (Move σ)} {t : Task}
    (ht : ((Game.new p s w).run ms).manager.holder? = some t) (hk : t.kind = .load) :
    ∃ j, t.job = .load j ∧ Restoring ((Game.new p s w).trace ms) t.number t.filter j.phase := by
  have h := orderly_new p s w
  refine course_new (P := fun turns t => ∃ j, t.job = .load j ∧ Restoring turns t.number t.filter j.phase) p s w
    ?_ ?_ ms ht hk
  · intro ms m t hmade hn hfresh hk
    obtain ⟨⟨slot, phase⟩, hj⟩ := Task.job_of_load hk
    obtain rfl : phase = .start := by
      rw [hj] at hfresh
      cases phase <;> first | rfl | cases hfresh
    refine ⟨_, hj, List.forall_mem_append.2 ⟨?_, List.forall_mem_singleton.2 ?_⟩⟩
    · rintro x hx r ⟨⟨u, hu, hnumber⟩, -⟩
      have hlt := h.number_lt_of_trace hx (List.mem_of_find?_eq_some hu)
      omega
    · rintro r ⟨-, hm, -⟩
      cases hm
      cases hmade
  · intro ms m t t' ht hc _ hP
    obtain ⟨j, hj, hr⟩ := hP
    exact (h.run ms).restoring_step ht hc hj hr

end Orderly

/-! ## Main theorem -/

/-- When a load succeeds and regions are saved at all, every region that is then loaded and in the snapshot was
restored from it, and not loaded again since, if and only if this was so already before the tick or nobody had
announced it to the load. An announcement of a loaded region restores it. -/
theorem load_restores (p : Preset) (s : σ) (w : World) {ms : List (Move σ)} {before after : List (Turn σ)}
    {t : Turn σ} {c : Call} {v : Value} (hs : (Game.new p s w).trace ms = before ++ t :: after) (hc : c ∈ t.calls)
    (hk : c.task.kind = .load) (hv : c.reply = .ok v) (hf : c.task.filter.storeRegions = true) :
    ∃ info data, v = .info info ∧ t.after.manager.active = some (info, data) ∧
      ∀ r os, (t.after.world.region? r).isSome = true → data.region? r = some os →
        (∀ x ∈ before, x.Announces c.task.number r → (x.game.world.region? r).isSome = true →
          x.Restores c.task.number r (c.task.filter.retain os)) ∧
        ∀ loads, RestoredSince loads (before ++ [t]) c.task.number r (c.task.filter.retain os) ↔
          ((∃ x ∈ before, x.Announces c.task.number r) →
            RestoredSince loads before c.task.number r (c.task.filter.retain os)) := by
  obtain ⟨ms₁, ms₂, rfl, rfl, hg, -⟩ := Game.trace_split hs
  have ho : Orderly t.game := hg ▸ (orderly_new p s w).run ms₁
  rcases (Turn.settles ho hc).how with ⟨now, hm, -, -⟩ | ⟨-, -, herror⟩
  swap
  · rw [hv] at herror
    cases herror
  obtain ⟨u, result, hholder, hlabel, hstep, hreply, hactive⟩ := ho.holder_called hm hc (by simp [Task.locks, hk])
  obtain ⟨j, hj, hr⟩ := Orderly.restoring (hg ▸ hholder) ((Task.kind_eq hlabel).symm.trans hk)
  rw [Task.filter_eq hlabel] at hf
  rw [Task.number_eq hlabel, Task.filter_eq hlabel]
  cases result with
  | error e =>
    rw [hv] at hreply
    cases hreply
  | ok out =>
    simp only [hj, Job.advance, Prod.mk.injEq] at hstep
    obtain ⟨info, data, skip, rfl, hworld, hskip⟩ := hr.ended hstep.2.2
    rw [hstep.2.1] at hworld
    obtain ⟨log, hlog, hmem⟩ := World.restored_apply (s := data) hf t.game.world skip
    cases hv.symm.trans hreply
    refine ⟨info, data, rfl, hactive, fun r os hloaded hos => ⟨fun x hx ha hthere => ?_, fun loads => ?_⟩⟩
    · obtain ⟨os', hos', hrestores⟩ := hskip.restored x hx r ha hthere
      cases hos.symm.trans hos'
      exact hrestores
    · have hregion := World.region_apply hf t.game.world skip hos
      rw [← hworld] at hlog hregion
      have hbefore : (t.game.world.region? r).isSome = true := by
        rw [hregion] at hloaded
        split at hloaded
        · exact hloaded
        · rwa [World.isSome_region_restoreRegion] at hloaded
      have hload : ¬ t.Loads loads r := by
        rintro ⟨w', hvisit, -⟩
        rw [hm] at hvisit
        cases hvisit
      have hrestores : t.Restores u.number r (u.filter.retain os) ↔ r ∉ skip := by
        constructor
        · rintro ⟨-, -, -, -, log', hlog', hin⟩
          rw [List.append_cancel_left (hlog'.symm.trans hlog)] at hin
          exact ((hmem r).1 hin).1
        · intro hnot
          refine ⟨⟨u, hholder, rfl⟩, .inl ⟨now, hm⟩, hbefore, ?_, log, hlog, (hmem r).2 ⟨hnot, hbefore, ?_⟩⟩
          · rw [hregion, if_neg hnot]
          · rw [hos]
            rfl
      rw [restoredSince_concat, hrestores, hskip.announced, and_iff_right hload]
      exact imp_iff_not_or.symm

end

/-- A region is loaded by a visit if it is loaded then and was not before. -/
def comesUp (w w' : World) (r : String) : Prop := w.region? r = none ∧ (w'.region? r).isSome = true

/-- A world that has just begun to load its map. -/
def openedWorld : World := (World.new "harbor").openMap "harbor"

/-- The same world after a region called cellar was restored and taken away, and loaded without objects. -/
def againWorld : World := { openedWorld with restored := ["cellar"] }.loadRegion "cellar" []

/-- Slot 1 is saved with a region. While it is loaded, and the map with it, the region is loaded without its
object, announced, taken away, and loaded without its object once more. -/
def loadingTwice : List (Move MemoryStore) :=
  [.visit ((World.new "harbor").loadRegion "cellar" [⟨"barrel", "Barrel", [], .null⟩]),
    .request (.save 1 false none) .epoch, .tick .epoch, .work 0, .tick .epoch,
    .visit openedWorld, .request (.load 1) .epoch, .tick .epoch, .work 1, .tick .epoch, .work 1, .tick .epoch,
    .visit (openedWorld.loadRegion "cellar" []), .regionReady "cellar", .regionUnloading "cellar",
    .visit (againWorld.unloadRegion "cellar"), .visit againWorld, .visit againWorld.finishMap, .tick .epoch]

/-- A region that is loaded again after it was announced is not restored again. -/
theorem load_restores_not_again :
    let g := Game.new .default MemoryStore.empty (World.new "harbor")
    let before := g.trace (loadingTwice.take 18)
    let t : Turn MemoryStore := ⟨g.run (loadingTwice.take 18), .tick .epoch⟩
    ∃ c ∈ t.calls, ∃ info data os, c.task.kind = .load ∧ c.reply = .ok (.info info) ∧
      t.after.manager.active = some (info, data) ∧ data.region? "cellar" = some os ∧
      (t.after.world.region? "cellar").isSome = true ∧
      ¬ RestoredSince comesUp (before ++ [t]) c.task.number "cellar" (c.task.filter.retain os) := by
  intro g before t
  have hs : g.trace loadingTwice = before ++ t :: [] := rfl
  have hcalls : 0 < t.calls.length ∧ ∀ c ∈ t.calls,
      c.task.kind = .load ∧ c.task.number = 1 ∧ c.task.filter.storeRegions = true ∧ c.reply.isOk = true := by
    decide +kernel
  obtain ⟨c, hc⟩ := List.exists_mem_of_length_pos hcalls.1
  obtain ⟨hk, hn, hf, hok⟩ := hcalls.2 c hc
  obtain ⟨v, hv⟩ := ok_of_isOk hok
  have hthere : (t.after.world.region? "cellar").isSome = true := by decide +kernel
  obtain ⟨os, hsaved⟩ : ∃ os, (t.after.manager.active.bind fun pair => pair.2.region? "cellar") = some os :=
    Option.isSome_iff_exists.1 (by decide +kernel)
  obtain ⟨info, data, rfl, hactive, hregions⟩ :=
    load_restores .default .empty (World.new "harbor") hs hc hk hv hf
  rw [hactive] at hsaved
  refine ⟨c, hc, info, data, os, hk, hv, hactive, hsaved, hthere, ?_⟩
  rw [(hregions "cellar" os hthere hsaved).2 comesUp, hn]
  have hannounced : ∃ x ∈ before, x.Announces 1 "cellar" := by
    refine ⟨⟨g.run (loadingTwice.take 13), .regionReady "cellar"⟩, ?_, ?_, rfl, ?_⟩
    · simp [before, loadingTwice, Game.trace, Game.run]
    · exact Option.map_eq_some_iff.1 (by decide +kernel)
    · decide +kernel
  -- the last turns before the end are visits, and one of them loads the region again
  have hlast : before = g.trace (loadingTwice.take 16) ++ [⟨g.run (loadingTwice.take 16), .visit againWorld⟩] ++
      [⟨g.run (loadingTwice.take 17), .visit againWorld.finishMap⟩] := rfl
  intro h
  have hback := h hannounced
  rw [hlast, restoredSince_concat, restoredSince_concat] at hback
  rcases hback with ⟨-, ⟨_, hm⟩ | hm, -⟩ | ⟨-, ⟨-, ⟨_, hm⟩ | hm, -⟩ | ⟨hloads, -⟩⟩
  · cases hm
  · cases hm
  · cases hm
  · cases hm
  · exact hloads ⟨_, rfl, rfl, rfl⟩

end SaveSlots
