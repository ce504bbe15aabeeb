import SaveSlots.Proofs.Loading
/-!
# How long tasks take

`Job.ticksLeft` bounds the ticks that a job goes on for if its work is always done by the next tick. A tick takes one
off for every task (`Orderly.ticksLeft_tick`), and nothing that happens between ticks adds to it. The only jobs that
have no ticks left and go on are loads that wait for their map, and a roster has room for one of those.

`tasks_end` is the main theorem: if time just passes, all tasks come to their end within a bound, but for a load whose
map is loading; that load ends with the first tick that finds the map there.
-/

namespace SaveSlots

/-! ## Ticks left to a job -/

/-- The polls that are left until a screenshot is ready that was asked for. -/
def World.pollsLeft (w : World) : Nat :=
  match w.pendingShot with
  | some (_, left) => if w.basic then 0 else left
  | none => 0

def WorkPhase.ticksLeft {ω α : Type} : WorkPhase ω α → Nat
  | start => 2
  | working _ => 1

namespace Job

/-- A bound for the ticks that a job goes on for. A load that waits for its map has none left as long as it waits. -/
def ticksLeft (w : World) : Job → Nat
  | save j =>
    match j.phase with
    | .start => w.shotDelay + 2
    | .capture _ => w.pollsLeft + 2
    | .writing _ => 1
  | load j =>
    match j.phase with
    | .start => 3
    | .readingInfo _ => 2
    | .readingData .. => 1
    | .travelling .. => if w.isMapLoading then 0 else 1
  | info _ phase => phase.ticksLeft
  | infos _ phase => phase.ticksLeft
  | deleteAll phase => phase.ticksLeft

theorem ticksLeft_le (w : World) (j : Job) : j.ticksLeft w ≤ max 3 (max w.shotDelay w.pollsLeft + 2) := by
  rcases j with ⟨slot, name, shot, unloaded, phase⟩ | ⟨slot, phase⟩ | ⟨slot, phase⟩ | ⟨recent, phase⟩ | phase <;>
    cases phase <;> simp only [ticksLeft, WorkPhase.ticksLeft] <;> first | omega | (split <;> omega)

/-- Nothing but a load that waits for its map goes on with no ticks left. -/
theorem travelling_of_ticksLeft {w : World} {j : Job} (h : j.ticksLeft w = 0) :
    (∃ slot info data restored, j = .load ⟨slot, .travelling info data restored⟩) ∧ w.isMapLoading = true := by
  rcases j with ⟨slot, name, shot, unloaded, phase⟩ | ⟨slot, phase⟩ | ⟨slot, phase⟩ | ⟨recent, phase⟩ | phase <;>
    cases phase <;> simp_all [ticksLeft, WorkPhase.ticksLeft]

theorem ticksLeft_runWork {σ : Type} [SlotStore σ] (w : World) (j : Job) (s : σ) :
    (j.runWork s).1.ticksLeft w = j.ticksLeft w := by
  rcases j with ⟨slot, name, shot, unloaded, phase⟩ | ⟨slot, phase⟩ | ⟨slot, phase⟩ | ⟨recent, phase⟩ | phase <;>
    cases phase <;> first | rfl | (simp only [runWork]; split <;> rfl)

theorem ticksLeft_loseWork (w : World) (j : Job) : j.loseWork.ticksLeft w = j.ticksLeft w := by
  rcases j with ⟨slot, name, shot, unloaded, phase⟩ | ⟨slot, phase⟩ | ⟨slot, phase⟩ | ⟨recent, phase⟩ | phase <;>
    cases phase <;> rfl

end Job

/-! ## One step of a job -/

/-- A picture that is not there yet is one poll nearer. -/
theorem World.pollsLeft_poll {w w' : World} (h : w.pollRequestedShot = (.pending, w')) :
    w'.pollsLeft + 1 = w.pollsLeft := by
  unfold pollRequestedShot at h
  split at h
  · cases h
  · next hbasic =>
    unfold pollShot at h
    split at h
    · cases h
    · cases h
    · next size left hshot =>
      cases h
      simp [pollsLeft, hshot, hbasic]

theorem World.pollsLeft_request (w : World) (size : ScreenshotSize) : (w.requestShot size).pollsLeft ≤ w.shotDelay := by
  unfold requestShot
  split
  · next hbasic =>
    unfold pollsLeft
    split <;> simp [hbasic]
  · next hbasic => simp [pollsLeft, beginShot, hbasic]

/-- A save that captures gives its write away, or waits for a picture that is one poll nearer. -/
theorem SaveJob.ticksLeft_capture (j : SaveJob) (f : SaveFilter) (info : SlotInfo) (w : World) :
    (Job.save (j.capture f info w).1).ticksLeft (j.capture f info w).2 ≤
      (if j.shot.isSome then w.pollsLeft else 0) + 1 := by
  have hsubmit : ∀ info' w', (Job.save (j.submit f info' w')).ticksLeft w' = 1 := fun _ _ => rfl
  unfold capture
  cases hshot : j.shot with
  | none => exact Nat.le_of_eq (hsubmit ..)
  | some size =>
    simp only [Option.isSome_some, if_true]
    split
    · next w' hpoll =>
      have hpolls := World.pollsLeft_poll hpoll
      simp only [Job.ticksLeft]
      omega
    · next screenshot w' _ =>
      rw [hsubmit]
      omega

theorem WorkPhase.ticksLeft_advance {ω α : Type} {phase : WorkPhase ω α} {work : ω}
    (hdone : ∀ h, phase = .working h → h.inFlight = false) (hnone : (phase.advance work).2 = none) :
    (phase.advance work).1.ticksLeft ≤ phase.ticksLeft - 1 := by
  cases phase with
  | start => exact Nat.le_refl 1
  | working h =>
    -- work that has come to an end has a result, or it is known to have none
    have hh := hdone h rfl
    cases h with
    | waiting | held => cases hh
    | finished | lost => cases hnone

namespace Job

variable {f : SaveFilter} {p : Preset} {now : Instant} {w : World}

theorem ticksLeft_save {j : SaveJob} (hdone : (save j).inFlight = false)
    (hnone : (j.advance f now p.version w).2.2 = none) :
    (save (j.advance f now p.version w).1).ticksLeft (j.advance f now p.version w).2.1 ≤
      (save j).ticksLeft w - 1 := by
  obtain ⟨slot, name, shot, unloaded, phase⟩ := j
  cases phase with
  | start =>
    let j : SaveJob := ⟨slot, name, shot, unloaded, .start⟩
    have hcapture := j.ticksLeft_capture f (j.begin now p.version w).1 (j.begin now p.version w).2
    have hpolls : (if shot.isSome then (j.begin now p.version w).2.pollsLeft else 0) ≤ w.shotDelay := by
      cases shot with
      | none => exact Nat.zero_le _
      | some size => exact w.pollsLeft_request size
    change _ ≤ w.shotDelay + 2 - 1
    exact Nat.le_trans hcapture (Nat.succ_le_succ hpolls)
  | capture info =>
    let j : SaveJob := ⟨slot, name, shot, unloaded, .capture info⟩
    have hcapture := j.ticksLeft_capture f info w
    have hpolls : (if shot.isSome then w.pollsLeft else 0) ≤ w.pollsLeft := by
      split <;> omega
    change _ ≤ w.pollsLeft + 2 - 1
    exact Nat.le_trans hcapture (Nat.succ_le_succ hpolls)
  | writing work =>
    cases work with
    | waiting | held => cases hdone
    | finished | lost => cases hnone

/-- A load that has its payload and goes on waits for its map. -/
theorem ticksLeft_arrive {j : LoadJob} {info : SlotInfo} {data : Snapshot} {restored : Catalog (id : String → String)}
    (hnone : (j.arrive f info data restored w).2.2 = none) :
    (load (j.arrive f info data restored w).1).ticksLeft (j.arrive f info data restored w).2.1 = 0 := by
  unfold LoadJob.arrive at hnone ⊢
  cases hloading : w.isMapLoading with
  | true => simp [ticksLeft, hloading]
  | false => simp [hloading] at hnone

theorem ticksLeft_load {j : LoadJob} (hdone : (load j).inFlight = false)
    (hnone : (j.advance f p w).2.2 = none) :
    (load (j.advance f p w).1).ticksLeft (j.advance f p w).2.1 ≤ (load j).ticksLeft w - 1 := by
  obtain ⟨slot, phase⟩ := j
  cases phase with
  | start => exact Nat.le_refl 2
  | readingInfo work =>
    cases work with
    | waiting | held => cases hdone
    | lost => cases hnone
    | finished answer =>
      cases answer with
      | ok info => exact Nat.le_refl 1
      | error e => cases hnone
  | readingData info work =>
    cases work with
    | waiting | held => cases hdone
    | lost => cases hnone
    | finished answer =>
      cases answer with
      | ok data => exact Nat.le_of_eq (ticksLeft_arrive hnone)
      | error e => cases hnone
  | travelling info data restored => exact Nat.le_trans (Nat.le_of_eq (ticksLeft_arrive hnone)) (Nat.zero_le _)

/-- A tick that finds the work of a job done, and does not end the job, takes one off the ticks that are left. -/
theorem ticksLeft_advance {j : Job} (hdone : j.inFlight = false) (hnone : (j.advance f p now w).2.2 = none) :
    (j.advance f p now w).1.ticksLeft (j.advance f p now w).2.1 ≤ j.ticksLeft w - 1 := by
  cases j with
  | save j => exact ticksLeft_save hdone hnone
  | load j => exact ticksLeft_load hdone hnone
  | info slot phase =>
    apply WorkPhase.ticksLeft_advance
    · rintro h rfl
      exact hdone
    · exact Option.map_eq_none_iff.1 hnone
  | infos recent phase =>
    apply WorkPhase.ticksLeft_advance
    · rintro h rfl
      exact hdone
    · exact Option.map_eq_none_iff.1 hnone
  | deleteAll phase =>
    apply WorkPhase.ticksLeft_advance
    · rintro h rfl
      exact hdone
    · exact Option.map_eq_none_iff.1 hnone

end Job

/-! ## Time that passes -/

variable {σ : Type} [SlotStore σ]

/-- Whether a move is time that passes: a tick, or work between ticks that goes on or breaks down. -/
def Move.passes : Move σ → Bool
  | .tick _ | .work _ | .lose _ => true
  | _ => false

def Move.isTick : Move σ → Bool
  | .tick _ => true
  | _ => false

/-- Whether each tick finds all work done that was given away. -/
def Prompt (turns : List (Turn σ)) : Prop :=
  ∀ x ∈ turns, x.move.isTick = true → ∀ t ∈ x.game.manager.tasks, t.inFlight = false

namespace Orderly

variable {g : Game σ}

/-- What is left on the roster after a tick has come one tick nearer to its end. -/
theorem ticksLeft_tick (h : Orderly g) (hdone : ∀ t ∈ g.manager.tasks, t.inFlight = false) {now : Instant} {t' : Task}
    (ht' : t' ∈ (g.step (.tick now)).manager.tasks) :
    ∃ t ∈ g.manager.tasks, t'.job.ticksLeft (g.step (.tick now)).world ≤ t.job.ticksLeft g.world - 1 := by
  have hlocks' := (h.tick now).holder_of_locks ht'
  rw [h.tasks_tick] at ht'
  obtain ⟨hin, hlive⟩ := List.mem_filter.1 ht'
  unfold Manager.swept at hin
  split at hin
  swap
  · cases hin
  obtain ⟨t, ht, w, rfl⟩ := Manager.mem_sweep hin
  have hnone : (t.job.advance t.filter g.manager.preset now w).2.2 = none := by
    rw [Task.step_eq (h.live t ht)] at hlive
    simpa [Task.isTerminal_stateAfter] using hlive
  refine ⟨t, ht, ?_⟩
  cases hl : t.locks with
  | true =>
    -- the holder is all that sees the world, and it sees it as it was before the tick
    have hh := h.holder_of_locks ht hl
    have hcarried := h.holder_tick hh now
    rw [hlocks' ((t.locks_step ..).trans hl)] at hcarried
    simp only [Game.carried] at hcarried
    split at hcarried
    · cases hcarried
    · next hnone =>
      rw [h.world_tick hh, Option.some.inj hcarried]
      exact Job.ticksLeft_advance (hdone t ht) (by simpa using hnone)
  | false =>
    have hstep := Job.ticksLeft_advance (hdone t ht) hnone
    rw [Task.step_eq (h.live t ht)]
    rcases Task.job_of_unlocked hl with ⟨slot, phase, hj⟩ | ⟨recent, phase, hj⟩ <;>
    · rw [hj] at hstep ⊢
      exact hstep

/-- Between ticks nothing changes about what is left. -/
theorem ticksLeft_between {m : Move σ} (hm : m.passes = true) (htick : m.isTick = false) {t' : Task}
    (ht' : t' ∈ (g.step m).manager.tasks) :
    ∃ t ∈ g.manager.tasks, t'.job.ticksLeft (g.step m).world = t.job.ticksLeft g.world := by
  cases m with
  | work n =>
    change t' ∈ (g.manager.runWork g.store n).1.tasks at ht'
    by_cases hn : t'.number = n
    · obtain ⟨t, ht, rfl⟩ := Manager.task_runWork ht' hn
      exact ⟨t, List.mem_of_find?_eq_some ht, Job.ticksLeft_runWork ..⟩
    · exact ⟨t', Manager.mem_runWork_other ht' hn, rfl⟩
  | lose n =>
    obtain ⟨t, ht, rfl⟩ := List.mem_map.1 ht'
    refine ⟨t, ht, ?_⟩
    split
    · exact Job.ticksLeft_loseWork ..
    · rfl
  | tick => cases htick
  | _ => cases hm

/-- As time passes, every tick takes one off for every task. -/
theorem ticksLeft_run (h : Orderly g) {ms : List (Move σ)} (hpass : ∀ m ∈ ms, m.passes = true)
    (hprompt : Prompt (g.trace ms)) {n : Nat} (hn : ∀ t ∈ g.manager.tasks, t.job.ticksLeft g.world ≤ n) :
    ∀ t ∈ (g.run ms).manager.tasks, t.job.ticksLeft (g.run ms).world ≤ n - ms.countP Move.isTick := by
  induction ms generalizing g n with
  | nil => exact hn
  | cons m ms ih =>
    obtain ⟨hm, hms⟩ := List.forall_mem_cons.1 hpass
    obtain ⟨hfirst, hrest⟩ := List.forall_mem_cons.1 hprompt
    have hstep := ih (h.step m) hms hrest (n := n - if m.isTick then 1 else 0) ?_
    · rw [List.countP_cons, Nat.add_comm, ← Nat.sub_sub]
      exact hstep
    · intro t' ht'
      cases htick : m.isTick with
      | true =>
        cases m with
        | tick now =>
          obtain ⟨t, ht, hle⟩ := h.ticksLeft_tick (hfirst rfl) ht'
          have := hn t ht
          simp only [if_true]
          omega
        | _ => cases htick
      | false =>
        obtain ⟨t, ht, heq⟩ := ticksLeft_between hm htick ht'
        rw [heq]
        exact hn t ht

end Orderly

/-! ## Waiting for a map -/

omit [SlotStore σ] in
theorem Orderly.running_of_alone {g : Game σ} (h : Orderly g) {t : Task} (ht : g.manager.tasks = [t]) :
    g.manager.running = true :=
  h.running_of_mem (ht ▸ List.mem_singleton_self t)

omit [SlotStore σ] in
/-- A tick of a roster with a single task. -/
theorem Orderly.sweep_alone {g : Game σ} (h : Orderly g) {t : Task} (ht : g.manager.tasks = [t]) {now : Instant}
    {job : Job} {w : World} {r : Option TaskResult}
    (hstep : t.job.advance t.filter g.manager.preset now g.world = (job, w, r)) :
    g.manager.sweep now g.world g.manager.tasks =
      ⟨[{ t with job, state := Task.stateAfter r }], w,
        if t.state = .created then g.manager.notify t.filter (Manager.beganHook? t.kind) else [],
        (r.map fun r => ({ t with job, state := Task.stateAfter (some r) }, r, true)).toList⟩ := by
  have hadvance := Task.step_eq (h.live t (by rw [ht]; exact List.mem_singleton_self t)) g.manager.preset now g.world
  rw [hstep] at hadvance
  rw [ht, Manager.sweep_cons, hadvance]
  cases r <;> simp [Manager.sweep]

/-- A load has the roster to itself and waits for its map. -/
structure Game.AwaitsMap (g : Game σ) (t : Task) (info : SlotInfo) : Prop where
  alone : g.manager.tasks = [t]
  travelling : ∃ slot data restored, t.job = .load ⟨slot, .travelling info data restored⟩
  loading : g.world.isMapLoading = true

/-- Whether the map of the world goes on loading while time passes. -/
def Move.keepsLoading : Move σ → Prop
  | .visit w => w.isMapLoading = true
  | m => m.passes = true

namespace Game.AwaitsMap

variable {g : Game σ} {t : Task} {info : SlotInfo}

/-- The load waits as long as the map is loading. -/
theorem step (h : g.AwaitsMap t info) (ho : Orderly g) {m : Move σ} (hm : m.keepsLoading) :
    ∃ t', (g.step m).AwaitsMap t' info ∧ t'.number = t.number := by
  obtain ⟨slot, data, restored, hj⟩ := h.travelling
  have hsame : ∀ g' : Game σ, g'.manager.tasks = [t] → g'.world.isMapLoading = true →
      ∃ t', g'.AwaitsMap t' info ∧ t'.number = t.number := fun g' htasks hloading =>
    ⟨t, ⟨htasks, h.travelling, hloading⟩, rfl⟩
  obtain ⟨n, id, state, filter, job⟩ := t
  cases hj
  cases m with
  | visit w => exact hsame _ h.alone hm
  | work n' =>
    refine hsame _ ?_ h.loading
    change (g.manager.runWork g.store n').1.tasks = _
    unfold Manager.runWork
    split
    · exact h.alone
    · next u hu =>
      rw [h.alone] at hu
      obtain rfl := List.mem_singleton.1 (List.mem_of_find?_eq_some hu)
      simp [h.alone, Task.runWork, Job.runWork]
  | lose n' =>
    refine hsame _ ?_ h.loading
    simp [Game.step, Game.lose, Manager.loseWork, h.alone, Task.loseWork, Job.loseWork]
  | tick now =>
    have hstep : Job.advance (.load ⟨slot, .travelling info data restored⟩) filter g.manager.preset now g.world =
        (.load ⟨slot, .travelling info data restored⟩, g.world, none) := by
      simp [Job.advance, LoadJob.advance, LoadJob.arrive, h.loading]
    have hsweep := ho.sweep_alone h.alone hstep
    refine ⟨⟨n, id, .running, filter, .load ⟨slot, .travelling info data restored⟩⟩,
      ⟨?_, ⟨slot, data, restored, rfl⟩, ?_⟩, rfl⟩
    · rw [ho.tasks_tick, Manager.swept_of_running (ho.running_of_alone h.alone), hsweep]
      rfl
    · simp only [Game.step, Manager.tick, ho.running_of_alone h.alone, if_true, hsweep]
      exact h.loading
  | _ => cases hm

theorem run (h : g.AwaitsMap t info) (ho : Orderly g) {ms : List (Move σ)} (hms : ∀ m ∈ ms, m.keepsLoading) :
    ∃ t', (g.run ms).AwaitsMap t' info ∧ t'.number = t.number := by
  induction ms generalizing g t with
  | nil => exact ⟨t, h, rfl⟩
  | cons m ms ih =>
    obtain ⟨hm, hms⟩ := List.forall_mem_cons.1 hms
    obtain ⟨u, hu, hn⟩ := h.step ho hm
    obtain ⟨t', ht', hn'⟩ := ih hu (ho.step m) hms
    exact ⟨t', ht', hn'.trans hn⟩

/-- Once the map is there, a tick ends the load with success. -/
theorem ends (h : g.AwaitsMap t info) (ho : Orderly g) {w : World} (hw : w.isMapLoading = false) (now : Instant) :
    let x : Turn σ := ⟨g.step (.visit w), .tick now⟩
    x.after.manager.tasks = [] ∧
      ∃ c, x.calls = [c] ∧ c.task.number = t.number ∧ c.task.state = .succeeded ∧ c.reply = .ok (.info info) := by
  intro x
  obtain ⟨slot, data, restored, hj⟩ := h.travelling
  have hx : Orderly (g.step (.visit w)) := ho.step _
  have halone : x.game.manager.tasks = [t] := h.alone
  have hrunning := hx.running_of_alone halone
  have hstep : t.job.advance t.filter x.game.manager.preset now x.game.world =
      (t.job, (w.apply data t.filter restored.toList).1, some (.ok (.loaded info data))) := by
    have hworld : x.game.world.isMapLoading = false := hw
    simp [hj, Job.advance, LoadJob.advance, LoadJob.arrive, hworld]
    rfl
  have hsweep := hx.sweep_alone halone hstep
  constructor
  · change (x.game.step (.tick now)).manager.tasks = []
    rw [hx.tasks_tick, Manager.swept_of_running hrunning, hsweep]
    rfl
  · change ∃ c, x.game.manager.callsOfTick now x.game.world = [c] ∧ _
    rw [Manager.callsOfTick, if_pos hrunning, hsweep]
    exact ⟨_, rfl, rfl, rfl, rfl⟩

end Game.AwaitsMap

/-! ## Main theorem -/

/-- In every state that a manager can reach: if from then on time just passes, and each tick finds all work done, then
after as many ticks as the longest task takes, three or the polls of a screenshot and two more, the roster is empty, or
it holds a single load that waits for its map. Such a load stays there as long as the map is loading, and the first
tick that finds the map there ends it with success. -/
theorem tasks_end (p : Preset) (s : σ) (w : World) (before ms : List (Move σ)) :
    let g := (Game.new p s w).run before
    (∀ m ∈ ms, m.passes = true) → Prompt (g.trace ms) →
      max 3 (max g.world.shotDelay g.world.pollsLeft + 2) ≤ ms.countP Move.isTick →
      (g.run ms).manager.tasks = [] ∨
      ∃ t info, (g.run ms).AwaitsMap t info ∧
        ∀ more : List (Move σ), (∀ m ∈ more, m.keepsLoading) →
          (∃ t', ((g.run ms).run more).AwaitsMap t' info ∧ t'.number = t.number) ∧
          ∀ w' now, w'.isMapLoading = false →
            let x : Turn σ := ⟨((g.run ms).run more).step (.visit w'), .tick now⟩
            x.after.manager.tasks = [] ∧ ∃ c, x.calls = [c] ∧ c.task.number = t.number ∧
              c.task.state = .succeeded ∧ c.reply = .ok (.info info) := by
  intro g hpass hprompt hlong
  have ho : Orderly g := (orderly_new p s w).run before
  have hnone : ∀ t ∈ (g.run ms).manager.tasks, t.job.ticksLeft (g.run ms).world = 0 := by
    intro t ht
    have hleft := ho.ticksLeft_run hpass hprompt (fun u _ => u.job.ticksLeft_le g.world) t ht
    omega
  have hlocks : ∀ t ∈ (g.run ms).manager.tasks, t.locks = true := by
    intro t ht
    obtain ⟨⟨_, _, _, _, hj⟩, -⟩ := Job.travelling_of_ticksLeft (hnone t ht)
    simp [Task.locks, Task.kind, hj, Job.kind]
  -- all tasks that are left lock the manager, so there are not two of them
  have hlength : (g.run ms).manager.tasks.length ≤ 1 := by
    rw [← List.countP_eq_length.2 hlocks]
    exact (ho.run ms).single
  cases htasks : (g.run ms).manager.tasks with
  | nil => exact .inl rfl
  | cons t rest =>
    rw [htasks] at hlength
    obtain rfl : rest = [] := List.length_eq_zero_iff.1 (Nat.le_zero.1 (Nat.le_of_succ_le_succ hlength))
    obtain ⟨⟨slot, info, data, restored, hj⟩, hloading⟩ := Job.travelling_of_ticksLeft (hnone t (by simp [htasks]))
    have hawaits : (g.run ms).AwaitsMap t info := ⟨htasks, ⟨slot, data, restored, hj⟩, hloading⟩
    refine .inr ⟨t, info, hawaits, fun more hmore => ?_⟩
    obtain ⟨t', ht', hn⟩ := hawaits.run (ho.run ms) hmore
    refine ⟨⟨t', ht', hn⟩, fun w' now hw' => ?_⟩
    rw [← hn]
    exact ht'.ends ((ho.run ms).run more) hw' now

/-- Slot 1 is saved in the harbor. It is loaded in the crypt, while the slots are listed. -/
def loadingHarbor : List (Move MemoryStore) :=
  [.request (.save 1 false none) .epoch, .tick .epoch, .work 0, .tick .epoch, .visit (World.new "crypt"),
    .request (.load 1) .epoch, .request (.infos true) .epoch]

/-- Three ticks, with all work done in between. -/
def threeTicks : List (Move MemoryStore) := [.tick .epoch, .work 1, .work 2, .tick .epoch, .work 1, .tick .epoch]

/-- After three ticks the listing is through, and the load waits for the harbor. It ends as the harbor is there. -/
theorem tasks_end_harbor :
    let g := ((Game.new .default MemoryStore.empty (World.new "harbor")).run loadingHarbor).run threeTicks
    ∃ t info, g.AwaitsMap t info ∧
      let x : Turn MemoryStore := ⟨g.step (.visit (World.new "harbor")), .tick .epoch⟩
      x.after.manager.tasks = [] ∧ ∃ c, x.calls = [c] ∧ c.task.number = t.number ∧ c.task.state = .succeeded ∧
        c.reply = .ok (.info info) := by
  intro g
  have hpass : ∀ m ∈ threeTicks, m.passes = true := by decide
  have hprompt : Prompt (((Game.new .default MemoryStore.empty (World.new "harbor")).run loadingHarbor).trace
      threeTicks) := by
    unfold Prompt
    decide +kernel
  rcases tasks_end .default MemoryStore.empty (World.new "harbor") loadingHarbor threeTicks hpass hprompt
    (by decide +kernel) with hempty | ⟨t, info, hawaits, hmore⟩
  · have hlength : g.manager.tasks.length = 1 := by decide +kernel
    rw [hempty] at hlength
    cases hlength
  · exact ⟨t, info, hawaits, (hmore [] (by simp)).2 (World.new "harbor") .epoch rfl⟩

end SaveSlots
