import SaveSlots.Proofs.Applied
import SaveSlots.Proofs.Handed
import SaveSlots.Store.Memory
/-!
# A save captures the world as it is

A save waits for its picture, and meanwhile takes the regions that go away (`Gathers`). In the tick in which
the picture is there it captures the world, and nothing that happens later changes what it hands to the store.

`save_captures_world` is the main theorem: what is handed over has the regions of that moment, and of those that
were not loaded then the ones that were taken, as they were when they were taken last.
-/

namespace SaveSlots

/-- Whether the answer is there. -/
def Poll.isReady {α : Type} : Poll α → Bool
  | pending => false
  | ready _ => true

/-! ## The snapshot of a save -/

namespace SaveJob

/-- Whether the world is still to be captured. -/
def isOpen (j : SaveJob) : Bool :=
  match j.phase with
  | .start | .capture _ => true
  | .writing _ => false

/-- The world after a picture was asked for, if there is to be one. -/
def asked (j : SaveJob) (w : World) : World :=
  match j.shot with
  | some size => w.requestShot size
  | none => w

/-- Whether the picture is there, if there is to be one. -/
def shotReady (j : SaveJob) (w : World) : Bool :=
  match j.shot with
  | some _ => w.pollRequestedShot.1.isReady
  | none => true

/-- Whether a step captures the world. -/
def pictured (j : SaveJob) (w : World) : Bool :=
  match j.phase with
  | .start => j.shotReady (j.asked w)
  | .capture _ => j.shotReady w
  | .writing _ => false

/-- The map that the info names: the one that was noted when the save began. -/
def noted (j : SaveJob) (w : World) : String :=
  match j.phase with
  | .capture info => info.map
  | .start | .writing _ => w.map

theorem snapshot_asked (j : SaveJob) (f : SaveFilter) (w : World) : j.snapshot f (j.asked w) = j.snapshot f w := by
  unfold asked World.requestShot
  split
  · split <;> rfl
  · rfl

theorem snapshot_pollRequestedShot (j : SaveJob) (f : SaveFilter) (w : World) :
    j.snapshot f w.pollRequestedShot.2 = j.snapshot f w := by
  unfold World.pollRequestedShot
  split
  · rfl
  · unfold World.pollShot
    split <;> rfl

/-- A loaded region is captured as it is, and one that is not as it was when it was taken. -/
theorem region_snapshot (j : SaveJob) (f : SaveFilter) (w : World) (r : String) :
    (j.snapshot f w).region? r = (w.captureRegion? f r).or ((j.unloaded.find? r).map Region.objects) := by
  have hcapture : ((w.capture f).regions.find? r).map Region.objects = w.captureRegion? f r := w.region_capture f r
  rw [← hcapture, ← Option.map_or]
  exact congrArg _ (Catalog.find?_foldl_insertIfNew ..)

/-- The save after it has captured the world, or waits for its picture. -/
theorem capture_eq (j : SaveJob) (f : SaveFilter) (info : SlotInfo) (w : World) : ∃ info', info'.map = info.map ∧
    (j.capture f info w).1 = if j.shotReady w then
      { j with unloaded := .empty, phase := .writing (.waiting (info', j.snapshot f w)) }
    else { j with phase := .capture info' } := by
  have hsame := snapshot_pollRequestedShot j f w
  obtain ⟨slot, name, _ | size, unloaded, phase⟩ := j
  · exact ⟨info, rfl, rfl⟩
  · unfold capture shotReady
    generalize w.pollRequestedShot = p at hsame ⊢
    obtain ⟨_ | screenshot, w'⟩ := p
    · exact ⟨info, rfl, rfl⟩
    · simp only at hsame
      exact ⟨{ info with screenshot }, rfl, by simp only [submit, hsame, Poll.isReady, if_true]⟩

/-- A step of a save that has captured the world changes nothing; any other captures the world as it is or waits
for the picture, and keeps to the map that was noted. -/
theorem advance_cases (j : SaveJob) (f : SaveFilter) (now : Instant) (version : String) (w : World) :
    (j.isOpen = false ∧ (j.advance f now version w).1 = j) ∨
    (j.isOpen = true ∧ (j.advance f now version w).2.2 = none ∧ ∃ info, info.map = j.noted w ∧
      (j.advance f now version w).1 = if j.pictured w then
        { j with unloaded := .empty, phase := .writing (.waiting (info, j.snapshot f w)) }
      else { j with phase := .capture info }) := by
  obtain ⟨slot, name, shot, unloaded, _ | info | work⟩ := j
  · refine .inr ⟨rfl, rfl, ?_⟩
    have h := capture_eq ⟨slot, name, shot, unloaded, .start⟩ f
      (begin ⟨slot, name, shot, unloaded, .start⟩ now version w).1 (asked ⟨slot, name, shot, unloaded, .start⟩ w)
    rwa [snapshot_asked] at h
  · exact .inr ⟨rfl, rfl, capture_eq ⟨slot, name, shot, unloaded, .capture info⟩ f info w⟩
  · refine .inl ⟨rfl, ?_⟩
    cases work <;> rfl

/-- Only an open save captures the world. -/
theorem isOpen_of_pictured {j : SaveJob} {w : World} (h : j.pictured w = true) : j.isOpen = true := by
  obtain ⟨slot, name, shot, unloaded, _ | info | work⟩ := j
  · rfl
  · rfl
  · cases h

theorem given_of_isOpen {j : SaveJob} (h : j.isOpen = true) : (Job.save j).given? = none := by
  obtain ⟨slot, name, shot, unloaded, _ | info | work⟩ := j
  · rfl
  · rfl
  · cases h

/-- Work changes nothing about an open save, and opens none. -/
theorem open_runWork {σ : Type} [SlotStore σ] {j j' : SaveJob} {s : σ} (h : ((Job.save j).runWork s).1 = .save j')
    (hopen : j'.isOpen = true) : j' = j := by
  obtain ⟨slot, name, shot, unloaded, _ | info | work⟩ := j
  · cases h
    rfl
  · cases h
    rfl
  · simp only [Job.runWork] at h
    split at h <;> cases h <;> cases hopen

theorem open_loseWork {j j' : SaveJob} (h : (Job.save j).loseWork = .save j') (hopen : j'.isOpen = true) :
    j' = j := by
  obtain ⟨slot, name, shot, unloaded, _ | info | work⟩ := j <;> cases h
  · rfl
  · rfl
  · cases hopen

/-- Only an open save takes a region, and takes of it what is saved. -/
theorem unloading_cases {j : SaveJob} {f : SaveFilter} {region : String} {w : World} {job : Job}
    (h : (Job.save j).regionUnloading? f region w = some job) :
    j.isOpen = true ∧ f.storeRegions = true ∧ ∃ objects, w.region? region = some objects ∧
      job = .save { j with unloaded := j.unloaded.insert ⟨region, f.retain objects⟩ } := by
  have hcapture : ∀ {objects}, w.captureRegion? f region = some objects →
      f.storeRegions = true ∧ ∃ raw, w.region? region = some raw ∧ objects = f.retain raw := by
    intro objects hc
    unfold World.captureRegion? at hc
    split at hc
    · next hs =>
      obtain ⟨raw, hraw, rfl⟩ := Option.map_eq_some_iff.1 hc
      exact ⟨hs, raw, hraw, rfl⟩
    · cases hc
  obtain ⟨slot, name, shot, unloaded, _ | info | work⟩ := j
  case writing => cases h
  all_goals
    obtain ⟨objects, hc, rfl⟩ := Option.map_eq_some_iff.1 h
    obtain ⟨hs, raw, hraw, rfl⟩ := hcapture hc
    exact ⟨rfl, hs, raw, hraw, rfl⟩

end SaveJob

/-! ## Regions that are taken -/

variable {σ : Type}

/-- The objects of a region that a save took in a turn, the region being about to go. -/
def Turn.taken? (x : Turn σ) (region : String) : Option (List GameObject) :=
  match x.move with
  | .regionUnloading r =>
    if r = region ∧ (x.game.manager.regionUnloading r x.game.world).1 = true then x.game.world.region? r else none
  | _ => none

/-- The objects of a region as they were when it was taken last. -/
def lastTaken? (turns : List (Turn σ)) (region : String) : Option (List GameObject) :=
  turns.reverse.findSome? fun x => x.taken? region

theorem lastTaken_concat (turns : List (Turn σ)) (x : Turn σ) (region : String) :
    lastTaken? (turns ++ [x]) region = (x.taken? region).or (lastTaken? turns region) := by
  rw [lastTaken?, List.reverse_append, List.reverse_singleton, List.singleton_append, List.findSome?_cons]
  cases x.taken? region <;> rfl

variable [SlotStore σ]

/-- What an open save has gathered since it was asked for: the regions as they were when they were taken last.
It has handed nothing to the store. -/
structure Gathers (turns : List (Turn σ)) (t : Task) (j : SaveJob) : Prop where
  regions : ∀ r, (j.unloaded.find? r).map Region.objects = (lastTaken? turns r).map t.filter.retain
  stored : t.filter.storeRegions = false → ∀ r, j.unloaded.find? r = none
  silent : ∀ x ∈ turns, x.handed? t.number = none

namespace Gathers

variable {turns : List (Turn σ)} {x : Turn σ} {t t' : Task} {j j' : SaveJob}

theorem concat (h : Gathers turns t j) (hlabel : t'.label = t.label)
    (hregions : ∀ r, (j'.unloaded.find? r).map Region.objects =
      ((x.taken? r).map t.filter.retain).or ((j.unloaded.find? r).map Region.objects))
    (hstored : t.filter.storeRegions = false → ∀ r, j'.unloaded.find? r = none)
    (hsilent : x.handed? t.number = none) : Gathers (turns ++ [x]) t' j' where
  regions r := by rw [hregions, h.regions, lastTaken_concat, Option.map_or, Task.filter_eq hlabel]
  stored := by rwa [Task.filter_eq hlabel]
  silent := by
    rw [Task.number_eq hlabel]
    exact List.forall_mem_append.2 ⟨h.silent, List.forall_mem_singleton.2 hsilent⟩

/-- Most turns have nothing to do with what a save gathers. -/
theorem quiet (h : Gathers turns t j) (hlabel : t'.label = t.label) (hsame : j'.unloaded = j.unloaded)
    (htaken : ∀ r, x.taken? r = none) (hsilent : x.handed? t.number = none) : Gathers (turns ++ [x]) t' j' :=
  h.concat hlabel (fun r => by rw [hsame, htaken]; rfl) (hsame ▸ h.stored) hsilent

end Gathers

namespace Orderly

variable {g : Game σ} {t t' : Task} {j j' : SaveJob}

/-- An open save has given nothing away that its work could hand to the store. -/
theorem silent_open (h : Orderly g) (ht : g.manager.holder? = some t) (hj : t.job = .save j)
    (hopen : j.isOpen = true) (m : Move σ) : Turn.handed? ⟨g, m⟩ t.number = none := by
  cases hh : Turn.handed? ⟨g, m⟩ t.number with
  | none => rfl
  | some pair =>
    obtain ⟨-, -, u, hu, hg⟩ := Turn.handed_eq_some hh
    rw [h.find_everyTask (List.mem_of_find?_eq_some ht)] at hu
    cases hu
    rw [hj, SaveJob.given_of_isOpen hopen] at hg
    cases hg

omit [SlotStore σ] in
/-- No region is taken that the holder has no use for. -/
theorem untaken (h : Orderly g) (ht : g.manager.holder? = some t) {m : Move σ}
    (hno : ∀ region, m = .regionUnloading region → t.job.regionUnloading? t.filter region g.world = none)
    (r : String) : Turn.taken? ⟨g, m⟩ r = none := by
  unfold Turn.taken?
  split
  · next region hm =>
    rcases h.unloading_cases region with ⟨_, he, -⟩ | ⟨_, u, job, hu, hjob, -⟩
    · simp [he]
    · cases ht.symm.trans hu
      cases hjob.symm.trans (hno region hm)
  · rfl

/-- What a save gathers is kept up as long as it is open. -/
theorem gathers_step (h : Orderly g) (ht : g.manager.holder? = some t) {m : Move σ}
    (hc : g.carried t m = some t') (hj : t.job = .save j) (hj' : t'.job = .save j') (hopen : j'.isOpen = true)
    {turns : List (Turn σ)} (hgather : j.isOpen = true → Gathers turns t j) :
    Gathers (turns ++ [⟨g, m⟩]) t' j' := by
  have hlabel := Game.label_carried hc
  have hcarries := Game.carries hc
  rw [hj'] at hcarries
  generalize hjob : Job.save j' = job at hcarries
  cases hcarries with
  | advance now =>
    simp only [hj, Job.advance] at hjob
    cases hjob
    rcases j.advance_cases t.filter now g.manager.preset.version g.world with ⟨hno, he⟩ | ⟨ho, -, info, -, he⟩
    · rw [he, hno] at hopen
      cases hopen
    · have hsame : (j.advance t.filter now g.manager.preset.version g.world).1.unloaded = j.unloaded := by
        rw [he] at hopen ⊢
        split at hopen
        · cases hopen
        · next hp => rw [if_neg hp]
      exact (hgather ho).quiet hlabel hsame (fun _ => rfl) rfl
  | ready region hr =>
    rw [hj] at hr
    cases hr
  | unloading region hu =>
    subst hjob
    rcases h.unloading_cases region with ⟨r, he, hno⟩ | ⟨r, u, job, hholder, hjob, he⟩
    · cases hu.symm.trans (hno t ht)
    · cases ht.symm.trans hholder
      cases hu.symm.trans hjob
      rw [hj] at hu
      obtain ⟨ho, hstore, objects, hobjects, hnext⟩ := SaveJob.unloading_cases hu
      cases hnext
      refine (hgather ho).concat hlabel (fun r => ?_) (fun hs => ?_) rfl
      · rw [Catalog.find?_insert]
        by_cases hr : region = r
        · subst hr
          simp [Turn.taken?, he, hobjects]
        · simp [Turn.taken?, hr]
      · rw [hstore] at hs
        cases hs
  | work =>
    obtain rfl := SaveJob.open_runWork (by rw [← hj]; exact hjob.symm) hopen
    exact (hgather hopen).quiet hlabel rfl (fun _ => rfl) (h.silent_open ht hj hopen _)
  | lose =>
    obtain rfl := SaveJob.open_loseWork (by rw [← hj]; exact hjob.symm) hopen
    exact (hgather hopen).quiet hlabel rfl (fun _ => rfl) rfl
  | stay _ _ hno =>
    cases hjob.trans hj
    exact (hgather hopen).quiet hlabel rfl (h.untaken ht hno) (h.silent_open ht hj hopen m)

end Orderly

/-! ## From the request to the picture -/

/-- A save that was just asked for has taken no regions. -/
theorem Manager.unloaded_of_job {m : Manager} {s : σ} {r : Request} {j : SaveJob} (h : m.job s r = .ok (.save j)) :
    j.unloaded = .empty := by
  cases makes h with
  | save | saveCurrent => rfl

theorem Turn.unloaded_of_made {x : Turn σ} {t : Task} {j : SaveJob} (hm : x.made? = some t) (hj : t.job = .save j) :
    j.unloaded = .empty := by
  obtain ⟨r, now, m, -, hjob, -⟩ := request_of_made hm
  exact Manager.unloaded_of_job (hjob.trans (by rw [hj]))

namespace Orderly

/-- What has been gathered for a save since it was asked for, as long as it is open. -/
theorem gathers {x : Turn σ} (h : Orderly x.game) {t : Task} (hm : x.made? = some t) (hk : t.kind = .save)
    (ms : List (Move σ)) {u : Task} (hu : (x.after.run ms).manager.holder? = some u) (hn : u.number = t.number) :
    u.label = t.label ∧ ∀ j, u.job = .save j → j.isOpen = true → Gathers (x.after.trace ms) u j := by
  obtain ⟨hh, hnumber, -⟩ := h.holder_of_made hm (by simp [Task.locks, hk])
  have ho : Orderly x.after := h.step x.move
  have hlt : t.number < x.after.manager.issued := ho.issued t (List.mem_of_find?_eq_some hh)
  refine ho.course (P := fun turns u => u.number = t.number →
    u.label = t.label ∧ ∀ j, u.job = .save j → j.isOpen = true → Gathers turns u j) ?_ ?_ ?_ ms hu hn
  · intro v hv _
    rw [hh] at hv
    cases hv
    refine ⟨rfl, fun j hj _ => ⟨fun r => ?_, fun _ r => ?_, fun _ hx => (by cases hx)⟩⟩ <;>
    · rw [Turn.unloaded_of_made hm hj]
      rfl
  · intro ms m v _ hv _ hn
    have hle := issued_le_run x.after ms
    omega
  · intro ms m v v' hv hc hP hn
    have hlabel := Game.label_carried hc
    obtain ⟨hvt, hgather⟩ := hP ((Task.number_eq hlabel).symm.trans hn)
    refine ⟨hlabel.trans hvt, fun j' hj' hopen => ?_⟩
    obtain ⟨j, hj⟩ := Task.job_of_save ((Task.kind_eq hvt).trans hk)
    exact (ho.run ms).gathers_step hv hc hj hj' hopen (hgather j hj)

/-- Before a task is made, nothing is handed over for it. -/
theorem silent_before {g : Game σ} (h : Orderly g) {ms : List (Move σ)}
    (hr : (g.run ms).manager.running = true) {n : Nat} (hn : (g.run ms).manager.issued ≤ n) {x : Turn σ}
    (hx : x ∈ g.trace ms) : x.handed? n = none := by
  cases hh : x.handed? n with
  | none => rfl
  | some pair =>
    obtain ⟨-, -, t, ht, -⟩ := Turn.handed_eq_some hh
    have hlt := h.number_lt_of_everyTask hr hx (List.mem_of_find?_eq_some ht)
    have hnumber : t.number = n := by simpa using List.find?_some ht
    omega

/-- A save in whose step the world is captured gives away just this snapshot. -/
theorem sealed_tick {g : Game σ} (h : Orderly g) {t : Task} (ht : g.manager.holder? = some t) {j : SaveJob}
    (hj : t.job = .save j) (hp : j.pictured g.world = true) (now : Instant) : ∃ info,
      (∃ v ∈ (g.step (.tick now)).manager.tasks, v.number = t.number ∧
        v.job.given? = some (info, j.snapshot t.filter g.world)) ∧
      Sealed t.number (info, j.snapshot t.filter g.world) (g.step (.tick now)) := by
  have hopen : j.isOpen = true := SaveJob.isOpen_of_pictured hp
  rcases j.advance_cases t.filter now g.manager.preset.version g.world with ⟨hno, -⟩ | ⟨-, hnone, info, -, he⟩
  · rw [hopen] at hno
    cases hno
  rw [if_pos hp] at he
  have ho := h.step (.tick now)
  have hholder := h.holder_step ht (.tick now)
  simp only [Game.carried, hj, Job.advance, hnone, he, Option.isSome_none, Bool.false_eq_true, if_false] at hholder
  have hrun := ho.running_of_holder hholder
  have hmem := List.mem_of_find?_eq_some hholder
  have hlt := ho.issued _ hmem
  refine ⟨info, ⟨_, hmem, rfl, rfl⟩, hlt, fun u hu hn => ?_⟩
  rw [Game.everyTask, ho.moored hrun, List.append_nil] at hu
  obtain rfl := List.inj_on_of_nodup_map ho.distinct hu hmem hn
  exact ⟨_, _, rfl, rfl, fun q hq => (Option.some.inj hq).symm⟩

end Orderly

/-! ## Main theorem -/

/-- What a save hands to the store is the world in the tick in which its picture is there: the map and the
accepted objects outside regions, the accepted objects of the loaded regions, and those of the regions that are
not loaded but were taken since the save was asked for, as they were when they were taken last. Nothing is handed
over before, and nothing else later on. -/
theorem save_captures_world (p : Preset) (s : σ) (w : World) {ms : List (Move σ)} {a b : Turn σ}
    {before between after : List (Turn σ)} {t u : Task} {j : SaveJob} {now : Instant}
    (hs : (Game.new p s w).trace ms = before ++ a :: between ++ b :: after)
    (ha : a.made? = some t) (hk : t.kind = .save) (hb : b.move = .tick now) (hu : u ∈ b.game.manager.tasks)
    (hn : u.number = t.number) (hj : u.job = .save j) (hp : j.pictured b.game.world = true) :
    ∃ info data,
      (∃ v ∈ b.after.manager.tasks, v.number = t.number ∧ v.job.given? = some (info, data)) ∧
      data.map = b.game.world.map ∧
      data.globals = (if t.filter.storeGlobals then t.filter.retain b.game.world.globals.toList else []) ∧
      (∀ r, data.region? r =
        if t.filter.storeRegions then
          ((b.game.world.region? r).or (lastTaken? between r)).map t.filter.retain
        else none) ∧
      (∀ x ∈ before ++ a :: between ++ [b], x.handed? t.number = none) ∧
      ∀ x ∈ after, ∀ pair, x.handed? t.number = some pair →
        pair = (info, data) ∧ x.after.store = (SlotStore.write x.game.store info data.encode).2 := by
  have h := orderly_new p s w
  obtain ⟨ms₁, ms₂, rfl, hbefore, hbg, rfl⟩ := Game.trace_split hs
  obtain ⟨ms₃, ms₄, rfl, rfl, hag, rfl⟩ := Game.trace_split hbefore.symm
  have hoa : Orderly a.game := hag ▸ h.run ms₃
  have hob : Orderly b.game := hbg ▸ h.run _
  have hrun : b.game = a.after.run ms₄ := by
    rw [hbg, Game.run_append, ← hag]
    rfl
  -- what the save has gathered when its picture is there
  have hul : u.locks = true := by simp [Task.locks, Task.kind, hj, Job.kind]
  have hholder := hob.holder_of_locks hu hul
  obtain ⟨hlabel, hgather⟩ := hoa.gathers ha hk ms₄ (hrun ▸ hholder) hn
  have hopen : j.isOpen = true := SaveJob.isOpen_of_pictured hp
  have hg := hgather j hj hopen
  have hf := Task.filter_eq hlabel
  obtain ⟨info, hgiven, hsealed⟩ := hob.sealed_tick hholder hj hp now
  have hstep : b.after = b.game.step (.tick now) := by rw [Turn.after, hb]
  rw [hn, hf, ← hstep] at hgiven hsealed
  refine ⟨info, j.snapshot t.filter b.game.world, hgiven, rfl, rfl, fun r => ?_, fun x hx => ?_,
    fun x hx pair hpair => ?_⟩
  · rw [SaveJob.region_snapshot, World.captureRegion?]
    split
    · rw [hg.regions, hf, Option.map_or]
    · next hstore => simp [hg.stored (by simpa [hf] using hstore)]
  · obtain ⟨-, hnumber, hra⟩ := hoa.holder_of_made ha (by simp [Task.locks, hk])
    rcases List.mem_append.1 hx with hx | hx
    · rcases List.mem_append.1 hx with hx | hx
      · exact h.silent_before (hag ▸ hra) (Nat.le_of_eq (hag ▸ hnumber).symm) hx
      · rcases List.mem_cons.1 hx with rfl | hx
        · unfold Turn.made? at ha
          split at ha
          · next hmove => rw [Turn.handed?, hmove]
          · cases ha
        · rw [← hn]
          exact hg.silent x hx
    · rw [List.mem_singleton.1 hx, Turn.handed?, hb]
  · obtain ⟨xs, ys, hxs⟩ := List.append_of_mem hx
    obtain ⟨ms₅, ms₆, -, -, hxg, -⟩ := Game.trace_split hxs
    have hoafter : Orderly b.after := hob.step b.move
    have hox : Orderly x.game := hxg ▸ hoafter.run ms₅
    have hsame := Sealed.handed (hxg ▸ hsealed.run hoafter ms₅) hpair
    subst hsame
    exact ⟨rfl, Turn.store_handed hox hpair⟩

/-- A world with a region, and with pictures that take a while. -/
def cellarWorld : World :=
  { (World.new "harbor").loadRegion "cellar" [⟨"barrel", "Barrel", [], .null⟩] with shotDelay := 1 }

/-- A save to slot 1, with a region that goes before the picture is there. -/
def savingPast : List (Move MemoryStore) :=
  [.request (.save 1 false (some .default)) .epoch, .regionUnloading "cellar",
    .visit (cellarWorld.unloadRegion "cellar"), .tick .epoch, .tick .epoch, .work 0]

/-- The region that went is in the save. -/
theorem save_captures_world_past :
    let g := Game.new .default MemoryStore.empty cellarWorld
    ∃ info data,
      (∃ v ∈ (g.run (savingPast.take 5)).manager.tasks, v.number = 0 ∧ v.job.given? = some (info, data)) ∧
      data.region? "cellar" = some [⟨"barrel", "Barrel", [], .null⟩] := by
  intro g
  have hs : g.trace savingPast = [] ++ ⟨g, .request (.save 1 false (some .default)) .epoch⟩ ::
      (g.run (savingPast.take 1)).trace ((savingPast.drop 1).take 3) ++
        ⟨g.run (savingPast.take 4), .tick .epoch⟩ :: (g.run (savingPast.take 5)).trace [.work 0] := rfl
  have hu : (g.run (savingPast.take 4)).manager.tasks[0] ∈ (g.run (savingPast.take 4)).manager.tasks :=
    List.getElem_mem _
  obtain ⟨info, data, hgiven, -, -, hregion, -⟩ :=
    save_captures_world .default MemoryStore.empty cellarWorld hs rfl rfl rfl hu rfl rfl rfl
  exact ⟨info, data, hgiven, hregion "cellar"⟩

end SaveSlots
