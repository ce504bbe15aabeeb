import SaveSlots.Proofs.Restored
import SaveSlots.Proofs.Switched
/-!
# Loads

A load reads an info and a payload, then waits for its map and applies its snapshot. `LoadJob.Steps` lists all that
a step of it can come to. It touches nothing before it has its payload in hand (`LoadPhase.travels`), and once it has,
it does not fail any more.

`failed_load_traceless` is the main theorem: a load that fails, or is cancelled before it travels, has left no trace in
the world, in the store or in the active slot, and has taken no region.
-/

namespace SaveSlots

/-! ## Steps of a load -/

/-- Whether a load has its payload in hand. -/
def LoadPhase.travels : LoadPhase → Bool
  | travelling .. => true
  | start | readingInfo _ | readingData .. => false

def Job.travels : Job → Bool
  | load j => j.phase.travels
  | save _ | info .. | infos .. | deleteAll _ => false

namespace LoadJob

/-- What a load has in hand in a step: its payload has just come, or it waits for its map. It is going to be applied
to the world `w'`. -/
inductive Brings (j : LoadJob) (p : Preset) (w : World) :
    SlotInfo → Snapshot → Catalog (id : String → String) → World → Prop
  | read {info : SlotInfo} {data : Snapshot} : j.phase = .readingData info (.finished (.ok data)) →
      Brings j p w info data .empty (travel p data w)
  | waited {info : SlotInfo} {data : Snapshot} {restored : Catalog (id : String → String)} :
      j.phase = .travelling info data restored → Brings j p w info data restored w

/-- All that a step of a load can come to. -/
inductive Steps (j : LoadJob) (f : SaveFilter) (p : Preset) (w : World) : LoadJob × World × Option TaskResult → Prop
  | asks : j.phase = .start → Steps j f p w ({ j with phase := .readingInfo (.waiting j.slot) }, w, none)
  | waits : j.phase.travels = false → Steps j f p w (j, w, none)
  /-- The payload is asked for under the slot that the info names. -/
  | follows {info : SlotInfo} : j.phase = .readingInfo (.finished (.ok info)) →
      Steps j f p w ({ j with phase := .readingData info (.waiting info.id) }, w, none)
  | fails {e : SlotError} : j.phase.travels = false → Steps j f p w (j, w, some (.error e))
  | travels {info : SlotInfo} {data : Snapshot} {restored : Catalog (id : String → String)} {w' : World} :
      j.Brings p w info data restored w' → w'.isMapLoading = true →
      Steps j f p w ({ j with phase := .travelling info data restored }, w', none)
  | applies {info : SlotInfo} {data : Snapshot} {restored : Catalog (id : String → String)} {w' : World} :
      j.Brings p w info data restored w' → w'.isMapLoading = false →
      Steps j f p w ({ j with phase := .travelling info data restored }, (w'.apply data f restored.toList).1,
        some (.ok (.loaded info data)))

variable {j : LoadJob} {f : SaveFilter} {p : Preset} {w : World}

theorem Brings.steps {info : SlotInfo} {data : Snapshot} {restored : Catalog (id : String → String)} {w' : World}
    (h : j.Brings p w info data restored w') : j.Steps f p w (j.arrive f info data restored w') := by
  unfold arrive
  cases hloading : w'.isMapLoading with
  | true => simpa [hloading] using Steps.travels h hloading
  | false => simpa [hloading] using Steps.applies h hloading

theorem steps (j : LoadJob) (f : SaveFilter) (p : Preset) (w : World) : j.Steps f p w (j.advance f p w) := by
  obtain ⟨slot, phase⟩ := j
  cases phase with
  | start => exact .asks rfl
  | readingInfo work =>
    cases work with
    | waiting | held => exact .waits rfl
    | lost => exact .fails rfl
    | finished answer =>
      cases answer with
      | ok info => exact .follows rfl
      | error e => exact .fails rfl
  | readingData info work =>
    cases work with
    | waiting | held => exact .waits rfl
    | lost => exact .fails rfl
    | finished answer =>
      cases answer with
      | ok data => exact Brings.steps (.read rfl)
      | error e => exact .fails rfl
  | travelling info data restored => exact Brings.steps (.waited rfl)

/-- A step after which a load does not travel has changed nothing, and is no success. -/
theorem quiet_advance (h : (j.advance f p w).1.phase.travels = false) :
    j.phase.travels = false ∧ (j.advance f p w).2.1 = w ∧ ∀ o, (j.advance f p w).2.2 ≠ some (.ok o) := by
  have hsteps := j.steps f p w
  generalize j.advance f p w = a at h hsteps
  cases hsteps with
  | asks hphase | follows hphase => exact ⟨by rw [hphase]; rfl, rfl, by simp⟩
  | waits hphase | fails hphase => exact ⟨hphase, rfl, by simp⟩
  | travels | applies => cases h

/-- A load that fails does not travel. -/
theorem travels_of_failed {e : SlotError} (h : (j.advance f p w).2.2 = some (.error e)) :
    (j.advance f p w).1.phase.travels = false := by
  have hsteps := j.steps f p w
  generalize j.advance f p w = a at h hsteps
  cases hsteps with
  | fails hphase => exact hphase
  | asks | waits | follows | travels | applies => cases h

theorem Brings.phase_cases {info : SlotInfo} {data : Snapshot} {restored : Catalog (id : String → String)} {w' : World}
    (h : j.Brings p w info data restored w') :
    (j.phase = .readingData info (.finished (.ok data)) ∧ w' = travel p data w) ∨
      (j.phase = .travelling info data restored ∧ w' = w) := by
  cases h with
  | read hphase => exact .inl ⟨hphase, rfl⟩
  | waited hphase => exact .inr ⟨hphase, rfl⟩

/-- A load that is no longer waiting for its map has not opened one in this step. -/
theorem Brings.world_eq {info : SlotInfo} {data : Snapshot} {restored : Catalog (id : String → String)} {w' : World}
    (h : j.Brings p w info data restored w') (hloading : w'.isMapLoading = false) : w' = w := by
  rcases h.phase_cases with ⟨-, rfl⟩ | ⟨-, rfl⟩
  · exact Restoring.travel_eq hloading
  · rfl

/-- A load that succeeds applies the snapshot that it has in hand to the world as it is, on a map that is there. -/
theorem applies_of_ok {o : Outcome} (h : (j.advance f p w).2.2 = some (.ok o)) :
    ∃ info data restored, j.Brings p w info data restored w ∧ w.isMapLoading = false ∧ o = .loaded info data ∧
      (j.advance f p w).2.1 = (w.apply data f restored.toList).1 := by
  have hsteps := j.steps f p w
  generalize j.advance f p w = a at h hsteps
  cases hsteps with
  | @applies info data restored w' hbrings hloading =>
    cases h
    obtain rfl := hbrings.world_eq hloading
    exact ⟨info, data, restored, hbrings, hloading, rfl, rfl⟩
  | asks | waits | follows | fails | travels => cases h

end LoadJob

/-! ## Reading changes nothing -/

theorem Job.store_runWork_of_load {σ : Type} [SlotStore σ] (j : LoadJob) (s : σ) : ((load j).runWork s).2 = s := by
  obtain ⟨slot, phase⟩ := j
  cases phase with
  | start | travelling => rfl
  | readingInfo work => cases work <;> rfl
  | readingData info work => cases work <;> rfl

theorem Job.travels_runWork {σ : Type} [SlotStore σ] (j : LoadJob) (s : σ) :
    ((load j).runWork s).1.travels = j.phase.travels := by
  obtain ⟨slot, phase⟩ := j
  cases phase <;> rfl

theorem Job.travels_loseWork (j : LoadJob) : (load j).loseWork.travels = j.phase.travels := by
  obtain ⟨slot, phase⟩ := j
  cases phase <;> rfl

/-- A load that does not travel takes no region. -/
theorem LoadJob.ready_of_reading {j : LoadJob} (h : j.phase.travels = false) (f : SaveFilter) (region : String)
    (w : World) : (Job.load j).regionReady? f region w = none := by
  cases hj : (Job.load j).regionReady? f region w with
  | none => rfl
  | some taken =>
    obtain ⟨info, data, restored, os, hphase, -⟩ := LoadJob.ready_cases hj
    rw [hphase] at h
    cases h

variable {σ : Type} [SlotStore σ]

namespace Orderly

variable {g : Game σ} {t : Task} {j : LoadJob}

/-- While a task loads, no work changes the store. -/
theorem store_work_of_load (h : Orderly g) (ht : g.manager.holder? = some t) (hj : t.job = .load j) (n : Nat) :
    (g.step (.work n)).store = g.store := by
  refine h.store_work_same fun u hu _ _ => ?_
  have hmem : u ∈ g.manager.tasks := by rwa [← h.everyTask_of_mem (List.mem_of_find?_eq_some ht)]
  cases hl : u.locks with
  | true =>
    cases ht.symm.trans (h.holder_of_locks hmem hl)
    rw [hj]
    exact Job.store_runWork_of_load j g.store
  | false => exact Task.runWork_of_unlocked hl g.store

/-- Nothing that ends in a tick changes the active slot if the holder does not succeed. -/
theorem ended_idle (h : Orderly g) (ht : g.manager.holder? = some t) {now : Instant}
    (hno : ∀ o, (t.job.advance t.filter g.manager.preset now g.world).2.2 ≠ some (.ok o))
    {e : Task × TaskResult × Bool} (he : e ∈ (g.manager.sweep now g.world g.manager.tasks).ended)
    (active : Option (SlotInfo × Snapshot)) : Manager.activeAfter active e.2.1 = active := by
  cases hl : e.1.locks with
  | true =>
    obtain ⟨u, hu, -, hstep, -⟩ := h.ended_tick he hl (h.running_of_holder ht)
    cases ht.symm.trans hu
    rw [hstep] at hno
    cases hr : e.2.1 with
    | ok o => exact absurd (congrArg some hr) (hno o)
    | error e => rfl
  | false =>
    obtain ⟨u, -, w, w', hstep⟩ := Manager.mem_ended he
    have hlabel : e.1.label = u.label := by
      rw [← Task.label_start u, ← Task.label_advance u.start g.manager.preset now w, hstep]
    exact Task.activeAfter_of_unlocked ((Task.locks_eq hlabel).symm.trans hl) (by rw [hstep]) active

end Orderly

/-- At a call the active slot is what it was, if nothing that ends changes it. -/
theorem Manager.active_callsOf {m : Manager} {es : List (Task × TaskResult × Bool)}
    (h : ∀ e ∈ es, ∀ active, activeAfter active e.2.1 = active) {c : Call} (hc : c ∈ m.callsOf es) :
    c.manager.active = m.active := by
  induction es generalizing m with
  | nil => cases hc
  | cons e es ih =>
    have he : (m.finish e.1 e.2.1 e.2.2).1.active = m.active := h e (.head _) m.active
    rcases List.mem_cons.1 hc with rfl | hc
    · exact he
    · exact (ih (fun e' he' => h e' (.tail _ he')) hc).trans he

/-! ## Turns without a trace -/

/-- Whether no task changes anything in a turn: neither the world nor the store nor the active slot changes, unless the
host itself changes them, deletes a slot or tears the manager down, and no task takes a region. -/
structure Turn.Traceless (x : Turn σ) : Prop where
  world : (∀ w, x.move ≠ .visit w) → x.after.world = x.game.world
  store : (∀ s, x.move ≠ .disturb s) → (∀ slot, x.move ≠ .delete slot) → x.after.store = x.game.store
  active : (∀ slot, x.move ≠ .delete slot) → x.move ≠ Move.deinitialize →
    x.after.manager.active = x.game.manager.active
  ready : ∀ region, x.move = .regionReady region → (x.game.manager.regionReady region x.game.world).1 = false
  unloading : ∀ region, x.move = .regionUnloading region →
    (x.game.manager.regionUnloading region x.game.world).1 = false

namespace Orderly

variable {g : Game σ} {t t' : Task} {j : LoadJob} {m : Move σ}

section
variable (h : Orderly g) (ht : g.manager.holder? = some t) (hj : t.job = .load j)
include h ht hj

omit [SlotStore σ] in
/-- A region that goes away is not taken by a load. -/
theorem not_unloaded (region : String) : (g.manager.regionUnloading region g.world).1 = false := by
  rcases h.unloading_cases region with ⟨r, he, -⟩ | ⟨r, u, job, hu, hjob, -⟩
  · rw [he]
  · cases ht.symm.trans hu
    rw [hj] at hjob
    cases hjob

/-- Only the host changes the store while a task loads. -/
theorem store_of_load (hdisturb : ∀ s, m ≠ .disturb s) (hdelete : ∀ slot, m ≠ .delete slot) :
    (g.step m).store = g.store := by
  cases m with
  | request r now =>
    simp only [Game.step]
    split <;> rfl
  | delete slot => exact absurd rfl (hdelete slot)
  | work n => exact h.store_work_of_load ht hj n
  | disturb s => exact absurd rfl (hdisturb s)
  | tick | regionReady | regionUnloading | subscribe | unsubscribe | currentInfo | currentData | deinitialize | lose
  | visit => rfl

omit [SlotStore σ] in
/-- A region that is there is not taken by a load that does not travel. -/
theorem not_ready (hreads : j.phase.travels = false) (region : String) :
    ∃ r, g.manager.regionReady region g.world = (false, { g.manager with regions := r }, g.world) := by
  rcases h.ready_cases region with ⟨r, he, -⟩ | ⟨r, u, job, w', hu, hjob, -⟩
  · exact ⟨r, he⟩
  · cases ht.symm.trans hu
    rw [hj, LoadJob.ready_of_reading hreads] at hjob
    cases hjob

section
variable (htick : ∀ now, m = .tick now → (j.advance t.filter g.manager.preset g.world).1.phase.travels = false)
include htick

/-- Only the host changes the world while a load does not travel. -/
theorem world_of_reading (hreads : j.phase.travels = false) (hvisit : ∀ w, m ≠ .visit w) :
    (g.step m).world = g.world := by
  cases m with
  | request r now =>
    simp only [Game.step]
    split <;> rfl
  | tick now =>
    refine (h.world_tick ht now).trans ?_
    rw [hj]
    exact (LoadJob.quiet_advance (htick now rfl)).2.1
  | regionReady region =>
    obtain ⟨r, he⟩ := h.not_ready ht hj hreads region
    exact congrArg (fun a => a.2.2) he
  | visit w => exact absurd rfl (hvisit w)
  | delete | regionUnloading | subscribe | unsubscribe | currentInfo | currentData | deinitialize | work | lose
  | disturb => rfl

/-- A load that does not travel has not activated anything. -/
theorem active_of_reading (hdelete : ∀ slot, m ≠ .delete slot) (hstop : m ≠ Move.deinitialize) :
    (g.step m).manager.active = g.manager.active := by
  by_cases hm : ∀ now, m ≠ .tick now
  · exact g.active_step hdelete hm hstop
  · simp only [ne_eq, not_forall, not_not] at hm
    obtain ⟨now, rfl⟩ := hm
    refine (h.active_tick_holder ht now).trans ?_
    have hno := (LoadJob.quiet_advance (htick now rfl)).2.2
    rw [hj]
    change (j.advance t.filter g.manager.preset g.world).2.2.elim _ _ = _
    cases hr : (j.advance t.filter g.manager.preset g.world).2.2 with
    | none => rfl
    | some r =>
      cases r with
      | ok o => exact absurd hr (hno o)
      | error e => rfl

/-- A turn leaves no trace in which a load does not travel, neither before it nor after it. -/
theorem traceless (hreads : j.phase.travels = false) : Turn.Traceless ⟨g, m⟩ where
  world := h.world_of_reading ht hj htick hreads
  store := h.store_of_load ht hj
  active := h.active_of_reading ht hj htick
  ready region _ := by
    obtain ⟨r, he⟩ := h.not_ready ht hj hreads region
    exact congrArg Prod.fst he
  unloading region _ := h.not_unloaded ht hj region

end

end

/-- A load that travels goes on travelling. -/
theorem reads_of_carried (h : g.carried t m = some t') (hj : t.job = .load j) (hreads : t'.job.travels = false) :
    j.phase.travels = false ∧
      ∀ now, m = .tick now → (j.advance t.filter g.manager.preset g.world).1.phase.travels = false := by
  have hcarries := Game.carries h
  generalize t'.job = job at hcarries hreads
  cases hcarries with
  | advance now =>
    rw [hj] at hreads
    change (j.advance t.filter g.manager.preset g.world).1.phase.travels = false at hreads
    exact ⟨(LoadJob.quiet_advance hreads).1, fun _ _ => hreads⟩
  | ready region hr =>
    rw [hj] at hr
    obtain ⟨info, data, restored, os, -, -, -, rfl⟩ := LoadJob.ready_cases hr
    cases hreads
  | unloading region hu =>
    rw [hj] at hu
    cases hu
  | work =>
    rw [hj, Job.travels_runWork] at hreads
    exact ⟨hreads, by simp⟩
  | lose =>
    rw [hj, Job.travels_loseWork] at hreads
    exact ⟨hreads, by simp⟩
  | stay htick =>
    rw [hj] at hreads
    exact ⟨hreads, fun now hm => absurd hm (htick now)⟩

/-- As long as a load does not travel, no turn has left a trace in which it was on the roster. -/
theorem traceless_so_far {p : Preset} {s : σ} {w : World} {ms : List (Move σ)}
    (ht : ((Game.new p s w).run ms).manager.holder? = some t) (hk : t.kind = .load) (hreads : t.job.travels = false) :
    ∀ x ∈ (Game.new p s w).trace ms, (∃ u ∈ x.game.manager.tasks, u.number = t.number) → x.Traceless := by
  have h := orderly_new p s w
  refine course_new (P := fun turns t => t.job.travels = false →
    ∀ x ∈ turns, (∃ u ∈ x.game.manager.tasks, u.number = t.number) → x.Traceless) p s w ?_ ?_ ms ht hk hreads
  · rintro ms m t - hn - - - x hx ⟨u, hu, hnumber⟩
    -- the number is new
    have hlt : u.number < ((Game.new p s w).run ms).manager.issued := by
      rcases List.mem_append.1 hx with hx | hx
      · exact h.number_lt_of_trace hx hu
      · cases List.mem_singleton.1 hx
        exact (h.run ms).issued u hu
    omega
  · intro ms m t t' ht hc hk ih hreads
    obtain ⟨j, hj⟩ := Task.job_of_load hk
    obtain ⟨hfirst, htick⟩ := reads_of_carried hc hj hreads
    rw [Task.number_eq (Game.label_carried hc)]
    refine List.forall_mem_append.2 ⟨ih (by rw [hj]; exact hfirst), List.forall_mem_singleton.2 fun _ => ?_⟩
    exact (h.run ms).traceless ht hj htick hfirst

end Orderly

/-! ## Work that is left -/

theorem Job.kind_moved {j j' : Job} (h : Job.Moved σ j j') : j'.kind = j.kind := by
  have hsubject : j'.subject = j.subject := by
    cases h with
    | same => rfl
    | advanced => exact subject_advance ..
    | ready hr => exact subject_regionReady hr
    | unloading hu => exact subject_regionUnloading hu
    | worked s => exact subject_runWork ..
    | lost => exact subject_loseWork ..
  exact congrArg Prod.fst hsubject

/-- The work of a load changes nothing, even if it goes on after the load was cancelled. -/
theorem Orderly.traceless_work {g : Game σ} (h : Orderly g) {n : Nat}
    (hload : ∀ t ∈ g.everyTask, t.number = n → t.job.kind = .load) : Turn.Traceless ⟨g, .work n⟩ := by
  refine ⟨fun _ => rfl, fun _ _ => ?_, fun hd hs => g.active_step hd (by simp) hs, by simp, by simp⟩
  change (g.step (.work n)).store = g.store
  refine h.store_work_same fun u hmem _ hn => ?_
  obtain ⟨j, hj⟩ := Task.job_of_load (hload u hmem hn)
  rw [hj]
  exact Job.store_runWork_of_load j g.store

/-! ## Loads that do not come to an end -/

/-- A task that is called back in a tick and has failed was the holder, and its step failed. -/
theorem Orderly.holder_failed {t : Turn σ} (h : Orderly t.game) {c : Call} (hc : c ∈ t.calls)
    (hlock : c.task.locks = true) (hf : c.task.state = .failed) :
    ∃ now u e, t.move = .tick now ∧ t.game.manager.holder? = some u ∧ c.task.label = u.label ∧
      (u.job.advance u.filter t.game.manager.preset now t.game.world).2.2 = some (.error e) := by
  rcases (Turn.settles h hc).how with ⟨now, hm, -, hstate⟩ | ⟨-, hcancelled, -⟩
  · obtain ⟨u, r, hholder, hlabel, hstep, hreply, -⟩ := h.holder_called hm hc hlock
    rw [hf] at hstate
    cases r with
    | ok o =>
      rw [hreply] at hstate
      cases hstate
    | error e => exact ⟨now, u, e, hm, hholder, hlabel, by rw [hstep]⟩
  · rw [hf] at hcancelled
    cases hcancelled

omit [SlotStore σ] in
/-- A task that teardown cancels was on the roster as it is. -/
theorem Turn.cancelled_call {t : Turn σ} (h : Orderly t.game) {c : Call} (hc : c ∈ t.calls)
    (hcancelled : c.task.state = .cancelled) :
    t.move = Move.deinitialize ∧ c.manager.active = t.game.manager.active ∧
      ∃ u ∈ t.game.manager.tasks, c.task = { u with state := .cancelled } := by
  rcases (settles h hc).how with ⟨now, hm, -, hstate⟩ | ⟨hm, -, -⟩
  · rw [hcancelled] at hstate
    split at hstate <;> cases hstate
  · simp only [calls, hm, Manager.callsOfTeardown] at hc
    split at hc
    · have hidle : ∀ e ∈ t.game.manager.cancelled, ∀ active, Manager.activeAfter active e.2.1 = active := by
        intro e he active
        obtain ⟨u, -, rfl⟩ := List.mem_map.1 he
        rfl
      have hactive := Manager.active_callsOf hidle hc
      obtain ⟨-, e, he, htask, -⟩ := Manager.mem_callsOf hc
      obtain ⟨u, hu, rfl⟩ := List.mem_map.1 he
      exact ⟨hm, hactive, u, hu, htask⟩
    · cases hc

/-- A load that fails, or is cancelled before it travels, was the holder. It does not travel in the turn, and its
caller finds the active slot as it was. -/
theorem Orderly.load_unfinished {t : Turn σ} (h : Orderly t.game) {c : Call} (hc : c ∈ t.calls)
    (hk : c.task.kind = .load)
    (hend : c.task.state = .failed ∨ c.task.state = .cancelled ∧ c.task.job.travels = false) :
    ∃ u j, t.game.manager.holder? = some u ∧ c.task.label = u.label ∧ u.job = .load j ∧ j.phase.travels = false ∧
      (∀ now, t.move = .tick now → (j.advance u.filter t.game.manager.preset t.game.world).1.phase.travels = false) ∧
      c.manager.active = t.game.manager.active := by
  have hlock : c.task.locks = true := by simp [Task.locks, hk]
  rcases hend with hf | ⟨hcancelled, hreads⟩
  · obtain ⟨now, u, e, hm, hholder, hlabel, herror⟩ := h.holder_failed hc hlock hf
    obtain ⟨j, hj⟩ := Task.job_of_load ((Task.kind_eq hlabel).symm.trans hk)
    have hlast : (j.advance u.filter t.game.manager.preset t.game.world).1.phase.travels = false := by
      rw [hj] at herror
      exact LoadJob.travels_of_failed herror
    have hidle : ∀ e ∈ (t.game.manager.sweep now t.game.world t.game.manager.tasks).ended, ∀ active,
        Manager.activeAfter active e.2.1 = active :=
      fun e he => h.ended_idle hholder (fun o hok => by rw [herror] at hok; cases hok) he
    simp only [Turn.calls, hm, Manager.callsOfTick, if_pos (h.running_of_holder hholder)] at hc
    have hactive := Manager.active_callsOf hidle hc
    exact ⟨u, j, hholder, hlabel, hj, (LoadJob.quiet_advance hlast).1, fun _ _ => hlast, hactive⟩
  · obtain ⟨hm, hactive, u, hu, htask⟩ := Turn.cancelled_call h hc hcancelled
    rw [htask] at hlock hk hreads
    obtain ⟨j, hj⟩ := Task.job_of_load hk
    change u.job.travels = false at hreads
    rw [hj] at hreads
    refine ⟨u, j, h.holder_of_locks hu hlock, by rw [htask]; rfl, hj, hreads, fun now htick => ?_, hactive⟩
    rw [hm] at htick
    cases htick

/-- What a load leaves of its work in the turns to come changes nothing either. -/
theorem Orderly.traceless_later {g : Game σ} (h : Orderly g) {u : Task} (hu : u ∈ g.manager.tasks)
    (hk : u.kind = .load) {ms : List (Move σ)} {x : Turn σ} (hx : x ∈ g.trace ms) (hwork : x.move = .work u.number) :
    x.Traceless := by
  obtain ⟨before, after, hsplit⟩ := List.append_of_mem hx
  obtain ⟨ms₁, ms₂, rfl, -, hg, -⟩ := Game.trace_split hsplit
  -- the number stands for this load alone, and goes on doing so
  have hloads : Numbered u.number (fun job => job.kind = .load) x.game :=
    hg ▸ (h.numbered hu hk).run (fun hjob hmoved => (Job.kind_moved hmoved).trans hjob) h ms₁
  have hox : Orderly x.game := hg ▸ h.run ms₁
  have htraceless := hox.traceless_work hloads.jobs
  rw [← hwork] at htraceless
  exact htraceless

/-! ## Main theorem -/

/-- A load that fails, or that is cancelled before it travels, has left no trace in all the turns in which it was
under way: nothing in the world, in the store or in the active slot has changed but by the host or by someone else,
and no region was taken. The active slot is also the same when its caller is told. Nor does the load leave a trace
later, should some of its work go on. -/
theorem failed_load_traceless (p : Preset) (s : σ) (w : World) {ms : List (Move σ)} {before after : List (Turn σ)}
    {t : Turn σ} {c : Call} (hs : (Game.new p s w).trace ms = before ++ t :: after) (hc : c ∈ t.calls)
    (hk : c.task.kind = .load)
    (hend : c.task.state = .failed ∨ c.task.state = .cancelled ∧ c.task.job.travels = false) :
    c.manager.active = t.game.manager.active ∧
      (∀ x ∈ before ++ [t], (∃ u ∈ x.game.manager.tasks, u.number = c.task.number) → x.Traceless) ∧
      ∀ x ∈ after, x.move = .work c.task.number → x.Traceless := by
  obtain ⟨ms₁, ms₂, rfl, rfl, hg, rfl⟩ := Game.trace_split hs
  have ho : Orderly t.game := hg ▸ (orderly_new p s w).run ms₁
  obtain ⟨u, j, hholder, hlabel, hj, hreads, htick, hactive⟩ := ho.load_unfinished hc hk hend
  have hkind : u.kind = .load := (Task.kind_eq hlabel).symm.trans hk
  rw [Task.number_eq hlabel]
  refine ⟨hactive, List.forall_mem_append.2 ⟨?_, List.forall_mem_singleton.2 fun _ => ?_⟩, fun x hx hwork => ?_⟩
  · exact Orderly.traceless_so_far (hg ▸ hholder) hkind (by rw [hj]; exact hreads)
  · exact ho.traceless hholder hj htick hreads
  · have hlater : x ∈ t.game.trace (t.move :: ms₂) := .tail _ hx
    exact ho.traceless_later (List.mem_of_find?_eq_some hholder) hkind hlater hwork

/-- A store with an info and a payload for slot 1, of which the payload is empty. -/
def hollowStore : MemoryStore := (MemoryStore.empty.putInfo (.empty 1 "")).putPayload 1 []

/-- A load of slot 1 with a region announced to it on the way. -/
def loadingHollow : List (Move MemoryStore) :=
  [.request (.load 1) .epoch, .tick .epoch, .work 0, .tick .epoch, .regionReady "cellar", .work 0, .tick .epoch]

/-- A payload that does not decode leaves the announced region alone, and no slot is active. -/
theorem failed_load_traceless_hollow :
    let g := Game.new .default hollowStore (World.new "harbor")
    let x : Turn MemoryStore := ⟨g.run (loadingHollow.take 4), .regionReady "cellar"⟩
    let t : Turn MemoryStore := ⟨g.run (loadingHollow.take 6), .tick .epoch⟩
    (∃ c ∈ t.calls, c.task.kind = .load ∧ c.task.state = .failed ∧ c.manager.active = none) ∧
      (x.game.manager.regionReady "cellar" x.game.world).1 = false ∧ x.after.world = x.game.world := by
  intro g x t
  have hs : g.trace loadingHollow = g.trace (loadingHollow.take 6) ++ t :: [] := rfl
  have hcalls : 0 < t.calls.length ∧
      ∀ c ∈ t.calls, c.task.kind = .load ∧ c.task.number = 0 ∧ c.task.state = .failed := by
    decide +kernel
  obtain ⟨c, hc⟩ := List.exists_mem_of_length_pos hcalls.1
  obtain ⟨hk, hn, hf⟩ := hcalls.2 c hc
  obtain ⟨hactive, hbefore, -⟩ :=
    failed_load_traceless .default hollowStore (World.new "harbor") hs hc hk (.inl hf)
  have hnone : t.game.manager.active.isNone = true := by decide +kernel
  have hx : x.Traceless := by
    refine hbefore x ?_ (hn ▸ List.mem_map.1 ?_)
    · simp [x, loadingHollow, Game.trace, Game.run]
    · decide +kernel
  exact ⟨⟨c, hc, hk, hf, hactive.trans (by simpa using hnone)⟩, hx.ready "cellar" rfl, hx.world (by simp [x])⟩

end SaveSlots
