import SaveSlots.Proofs.Handed
/-!
# Where results come from

The result of a piece of work lies in the job that gave it away until a tick takes it. Nothing but the work
itself puts it there, so a result that is found after a run goes back to one turn of the run: `Orderly.worked`.

Hence a save that is about to succeed has been written (`Orderly.stored`), and a delete-all that is about to
succeed has deleted what it is going to name (`Orderly.deleted`).
-/

namespace SaveSlots

/-! ## Results that are there -/

/-- Whether the result is there, and was not delivered. -/
def Handle.isFinished {ω α : Type} : Handle ω α → Bool
  | finished _ => true
  | waiting _ | held _ | lost => false

namespace Job

/-- Whether a job has a result that no tick has taken yet. -/
def isWorked : Job → Bool
  | save j =>
    match j.phase with
    | .writing work => work.isFinished
    | .start | .capture _ => false
  | load j =>
    match j.phase with
    | .readingInfo work => work.isFinished
    | .readingData _ work => work.isFinished
    | .start | .travelling .. => false
  | info _ (.working work) => work.isFinished
  | infos _ (.working work) => work.isFinished
  | deleteAll (.working work) => work.isFinished
  | info _ .start | infos _ .start | deleteAll .start => false

variable {j j' : Job}

theorem isWorked_fresh (h : j.isFresh = true) : j.isWorked = false := by
  rcases j with ⟨_, _, _, _, _ | _ | _⟩ | ⟨_, _ | _ | _ | _⟩ | ⟨_, _ | _⟩ | ⟨_, _ | _⟩ | (_ | _) <;>
    first | rfl | cases h

/-- A tick that does not end a job leaves it without a result. -/
theorem isWorked_advance {f : SaveFilter} {p : Preset} {now : Instant} {w : World}
    (h : (j.advance f p now w).2.2 = none) : (j.advance f p now w).1.isWorked = false := by
  have hcapture : ∀ (j : SaveJob) (info : SlotInfo) (w : World), (save (j.capture f info w).1).isWorked = false := by
    intro j info w
    unfold SaveJob.capture
    split
    · rfl
    · split <;> rfl
  have harrive : ∀ (j : LoadJob) (info : SlotInfo) (data : Snapshot) (restored : Catalog (id : String → String))
      (w : World), (load (j.arrive f info data restored w).1).isWorked = false := by
    intro j info data restored w
    unfold LoadJob.arrive
    simp only
    split <;> rfl
  rcases j with ⟨slot, name, shot, unloaded, phase⟩ | ⟨slot, phase⟩ | ⟨slot, phase⟩ | ⟨recent, phase⟩ | phase <;>
    cases phase
  case save.start | save.capture => exact hcapture ..
  case load.travelling => exact harrive ..
  case load.readingInfo work =>
    cases work with
    | finished answer =>
      cases answer with
      | ok info => rfl
      | error e => cases h
    | waiting | held => rfl
    | lost => cases h
  case load.readingData info work =>
    cases work with
    | finished answer =>
      cases answer with
      | ok data => exact harrive ..
      | error e => cases h
    | waiting | held => rfl
    | lost => cases h
  case save.writing work | info.working work | infos.working work | deleteAll.working work =>
    cases work <;> first | rfl | cases h
  all_goals rfl

theorem isWorked_regionReady {f : SaveFilter} {region : String} {w w' : World}
    (h : j.regionReady? f region w = some (j', w')) : j'.isWorked = false := by
  unfold regionReady? at h
  split at h <;> try cases h
  split at h <;> try cases h
  obtain ⟨_, -, he⟩ := Option.map_eq_some_iff.1 h
  cases he
  rfl

theorem isWorked_regionUnloading {f : SaveFilter} {region : String} {w : World}
    (h : j.regionUnloading? f region w = some j') : j'.isWorked = false := by
  unfold regionUnloading? at h
  split at h <;> try cases h
  next sj =>
    obtain ⟨slot, name, shot, unloaded, phase⟩ := sj
    cases phase <;> try cases h
    all_goals
      obtain ⟨_, -, rfl⟩ := Option.map_eq_some_iff.1 h
      rfl

/-- Work that was done is not done again. -/
theorem runWork_of_isWorked {σ : Type} [SlotStore σ] (h : j.isWorked = true) (s : σ) : j.runWork s = (j, s) := by
  rcases j with ⟨slot, name, shot, unloaded, phase⟩ | ⟨slot, phase⟩ | ⟨slot, phase⟩ | ⟨recent, phase⟩ | phase <;>
    cases phase
  case save.writing work =>
    cases work with
    | finished answer =>
      simp only [runWork]
      split <;> rfl
    | waiting | held | lost => cases h
  case load.readingInfo work | load.readingData work | info.working work | infos.working work |
      deleteAll.working work =>
    cases work <;> first | rfl | cases h
  all_goals cases h

/-- Work that is given up has no result, unless it had one before. -/
theorem loseWork_of_isWorked (h : j.loseWork.isWorked = true) : j.loseWork = j := by
  rcases j with ⟨slot, name, shot, unloaded, phase⟩ | ⟨slot, phase⟩ | ⟨slot, phase⟩ | ⟨recent, phase⟩ | phase <;>
    cases phase
  case save.writing work | load.readingInfo work | load.readingData work | info.working work | infos.working work |
      deleteAll.working work =>
    cases work <;> first | rfl | cases h
  all_goals cases h

end Job

/-! ## The turn that a result comes from -/

variable {σ : Type} [SlotStore σ]

/-- Whether the work that was left of a task was done in a turn, and left it with this job. -/
structure Turn.Works (y : Turn σ) (t : Task) : Prop where
  move : y.move = .work t.number
  was : ∃ u ∈ y.game.manager.tasks, u.label = t.label ∧ u.job.isWorked = false ∧
    u.job.runWork y.game.store = (t.job, y.after.store)

namespace Orderly

variable {g : Game σ} {t t' : Task}

/-- A result comes of the work that is done in a turn, or it was there before. -/
theorem works_step (h : Orderly g) {m : Move σ} (ht : t' ∈ (g.step m).manager.tasks) (hw : t'.job.isWorked = true) :
    (∃ t ∈ g.manager.tasks, t.label = t'.label ∧ t.job = t'.job) ∨ Turn.Works ⟨g, m⟩ t' := by
  have hsame : t' ∈ g.manager.tasks → ∃ t ∈ g.manager.tasks, t.label = t'.label ∧ t.job = t'.job :=
    fun ht => ⟨t', ht, rfl, rfl⟩
  have hfresh : t'.job.isWorked = false → False := fun hf => by simp [hw] at hf
  cases m with
  | request r now =>
    simp only [Game.step] at ht
    split at ht
    · next hq =>
      obtain ⟨ha, -, -, rfl⟩ := Manager.request_ok hq
      rcases List.mem_append.1 ht with ht | ht
      · exact .inl (hsame ht)
      · rw [List.mem_singleton.1 ht] at hfresh
        exact (hfresh (Job.isWorked_fresh ha.fresh)).elim
    · exact .inl (hsame ht)
  | delete slot =>
    obtain ⟨a, he, -⟩ := Manager.deleteSlot_eq g.manager g.store slot
    simp only [Game.step, he] at ht
    exact .inl (hsame ht)
  | tick now =>
    -- what has a result by the time of a tick ends in it
    rw [h.tasks_tick] at ht
    obtain ⟨hswept, hlive⟩ := List.mem_filter.1 ht
    unfold Manager.swept at hswept
    split at hswept
    · obtain ⟨u, hu, w, rfl⟩ := Manager.mem_sweep hswept
      rw [Task.state_step (h.live u hu), Task.isTerminal_stateAfter] at hlive
      rw [Task.step_eq (h.live u hu)] at hlive hfresh
      exact (hfresh (Job.isWorked_advance (by simpa using hlive))).elim
    · cases hswept
  | regionReady region =>
    simp only [Game.step] at ht
    rcases g.manager.regionReady_cases region g.world with ⟨r, he, -⟩ | ⟨r, u, job, w', hs, hj, he⟩
    · rw [he] at ht
      exact .inl (hsame ht)
    · rw [he] at ht
      obtain ⟨x, hx, rfl⟩ := List.mem_map.1 ht
      split at hfresh
      · exact (hfresh (Job.isWorked_regionReady hj)).elim
      · next hne => exact .inl ⟨x, hx, by simp [hne]⟩
  | regionUnloading region =>
    simp only [Game.step] at ht
    rcases g.manager.regionUnloading_cases region g.world with ⟨r, he, -⟩ | ⟨r, u, job, hs, hj, he⟩
    · rw [he] at ht
      exact .inl (hsame ht)
    · rw [he] at ht
      obtain ⟨x, hx, rfl⟩ := List.mem_map.1 ht
      split at hfresh
      · exact (hfresh (Job.isWorked_regionUnloading hj)).elim
      · next hne => exact .inl ⟨x, hx, by simp [hne]⟩
  | subscribe name =>
    simp only [Game.step, Manager.subscribe] at ht
    split at ht <;> exact .inl (hsame ht)
  | deinitialize =>
    rw [h.tasks_teardown] at ht
    cases ht
  | work n =>
    by_cases hn : t'.number = n
    · obtain ⟨u, hu, rfl⟩ := Manager.task_runWork ht hn
      have hmem := List.mem_of_find?_eq_some hu
      have hlabel := (u.label_runWork g.store).symm
      cases hold : u.job.isWorked with
      | true => exact .inl ⟨u, hmem, hlabel, (congrArg Prod.fst (Job.runWork_of_isWorked hold g.store)).symm⟩
      | false =>
        refine .inr ⟨by rw [hn], u, hmem, hlabel, hold, Prod.ext rfl ?_⟩
        have hun : u.number = n := (Task.number_eq hlabel).trans hn
        exact (h.store_work (hun ▸ h.find_everyTask hmem)).symm
    · exact .inl (hsame (Manager.mem_runWork_other ht hn))
  | lose n =>
    obtain ⟨x, hx, rfl⟩ := List.mem_map.1 ht
    by_cases hn : x.number = n
    · rw [if_pos hn] at hw ⊢
      exact .inl ⟨x, hx, x.label_loseWork.symm, (Job.loseWork_of_isWorked hw).symm⟩
    · rw [if_neg hn]
      exact .inl ⟨x, hx, rfl, rfl⟩
  | unsubscribe | currentInfo | currentData | visit | disturb => exact .inl (hsame ht)

/-- In a run the result that a task has comes from a turn in which its work was done. -/
theorem worked (p : Preset) (s : σ) (w : World) (ms : List (Move σ))
    (ht : t ∈ ((Game.new p s w).run ms).manager.tasks) (hw : t.job.isWorked = true) :
    ∃ y ∈ (Game.new p s w).trace ms, y.Works t := by
  have h := orderly_new p s w
  induction ms using List.reverseRecOn generalizing t with
  | nil => cases ht
  | append_singleton ms m ih =>
    rw [Game.run_append] at ht
    rw [Game.trace_append]
    rcases (h.run ms).works_step ht hw with ⟨u, hu, hlabel, hjob⟩ | hnew
    · obtain ⟨y, hy, hmove, v, hv, hvl, hfirst, hrun⟩ := ih hu (hjob ▸ hw)
      refine ⟨y, List.mem_append_left _ hy, by rw [hmove, Task.number_eq hlabel], v, hv, ?_, hfirst, ?_⟩
      · rw [hvl, hlabel]
      · rw [hrun, hjob]
    · exact ⟨_, List.mem_append_right _ (List.mem_singleton_self _), hnew⟩

end Orderly

/-! ## Work on the store -/

theorem SlotStore.commit_ok {s s' : σ} {info : SlotInfo} {data : Snapshot} {pair : SlotInfo × Snapshot}
    (h : SlotStore.commit s info data = (.ok pair, s')) :
    pair = (info, data) ∧ SlotStore.write s info data.encode = (.ok (), s') := by
  unfold commit at h
  split at h
  · next hw =>
    cases h
    exact ⟨rfl, hw⟩
  · cases h

namespace Job

/-- The work of a save comes to a pair only by storing it. -/
theorem store_of_runWork {j j' : SaveJob} {s s' : σ} (h : (save j).runWork s = (save j', s'))
    (hfirst : (save j).isWorked = false) {info : SlotInfo} {data : Snapshot}
    (hphase : j'.phase = .writing (.finished (.ok (info, data)))) :
    SlotStore.write s info data.encode = (.ok (), s') := by
  obtain ⟨slot, name, shot, unloaded, phase⟩ := j
  cases phase with
  | start | capture =>
    cases h
    cases hphase
  | writing work =>
    simp only [runWork] at h
    split at h
    · -- behind a closed gate there is no result
      cases h
      cases work with
      | waiting | held | lost => cases hphase
      | finished => cases hfirst
    · cases work with
      | waiting given | held given =>
        simp only [Handle.runOn, Handle.work?, Prod.mk.injEq, save.injEq] at h
        obtain ⟨rfl, rfl⟩ := h
        simp only [SavePhase.writing.injEq, Handle.finished.injEq] at hphase
        obtain ⟨hpair, hw⟩ := SlotStore.commit_ok (Prod.ext hphase rfl)
        cases hpair
        exact hw
      | finished => cases hfirst
      | lost =>
        cases h
        cases hphase

/-- The work of a delete-all comes to some slots only by deleting them. -/
theorem delete_of_runWork {phase : WorkPhase Unit (List SlotId)} {s s' : σ} {ids : List SlotId}
    (h : (deleteAll phase).runWork s = (deleteAll (.working (.finished (.ok ids))), s'))
    (hfirst : (deleteAll phase).isWorked = false) : SlotStore.deleteAll s = (.ok ids, s') := by
  cases phase with
  | start => cases h
  | working work =>
    cases work with
    | waiting | held =>
      simp only [runWork, Handle.runOn, Handle.work?, Prod.mk.injEq, deleteAll.injEq, WorkPhase.working.injEq,
        Handle.finished.injEq] at h
      exact Prod.ext h.1 h.2
    | finished => cases hfirst
    | lost => cases h

end Job

namespace Orderly

variable {t : Task} {p : Preset} {s : σ} {w : World} {ms : List (Move σ)}

/-- A save that has its result has stored what it is going to activate. -/
theorem stored (ht : ((Game.new p s w).run ms).manager.holder? = some t) {j : SaveJob} (hj : t.job = .save j)
    {info : SlotInfo} {data : Snapshot} (hphase : j.phase = .writing (.finished (.ok (info, data)))) :
    ∃ y ∈ (Game.new p s w).trace ms, y.move = .work t.number ∧
      SlotStore.write y.game.store info data.encode = (.ok (), y.after.store) := by
  have hw : t.job.isWorked = true := by simp only [hj, Job.isWorked, hphase, Handle.isFinished]
  obtain ⟨y, hy, hmove, u, -, hlabel, hfirst, hrun⟩ := worked p s w ms (List.mem_of_find?_eq_some ht) hw
  obtain ⟨ju, hu⟩ := Task.job_of_save ((Task.kind_eq hlabel).trans (by rw [Task.kind, hj]; rfl))
  rw [hu] at hfirst hrun
  rw [hj] at hrun
  exact ⟨y, hy, hmove, Job.store_of_runWork hrun hfirst hphase⟩

/-- A delete-all that has its result has deleted what it is going to name. -/
theorem deleted (ht : ((Game.new p s w).run ms).manager.holder? = some t) {ids : List SlotId}
    (hj : t.job = .deleteAll (.working (.finished (.ok ids)))) :
    ∃ y ∈ (Game.new p s w).trace ms, y.move = .work t.number ∧
      SlotStore.deleteAll y.game.store = (.ok ids, y.after.store) := by
  obtain ⟨y, hy, hmove, u, -, hlabel, hfirst, hrun⟩ := worked p s w ms (List.mem_of_find?_eq_some ht) (by rw [hj]; rfl)
  obtain ⟨phase, hu⟩ := Task.job_of_deleteAll ((Task.kind_eq hlabel).trans (by rw [Task.kind, hj]; rfl))
  rw [hu] at hfirst hrun
  rw [hj] at hrun
  exact ⟨y, hy, hmove, Job.delete_of_runWork hrun hfirst⟩

end Orderly

end SaveSlots
