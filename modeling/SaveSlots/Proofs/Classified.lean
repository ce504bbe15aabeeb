import SaveSlots.Proofs.Missing
import SaveSlots.Proofs.Polled
import SaveSlots.Proofs.Stopped
import SaveSlots.Proofs.Worked
/-!
# Rejections and failures

A request that is refused gets a rejection. A task that fails gets something else, with one exception: the work of a
load or of an info may find that its slot is missing, and `SlotError.slotNotFound` is a rejection wherever it comes
from.

An error that a task ends with lies in its job before (`Job.error_of_advance`), where its work put it
(`Orderly.worked`), and work turns an answer of the store into a rejection only if the store calls a slot missing
(`Job.misses_of_runWork`). `errors_classified` is the main theorem, and `errors_classified_missing` is a run in which
a task ends with a rejection.
-/

namespace SaveSlots

/-! ## Answers of the store -/

section Answers

variable {σ : Type} [SlotStore σ] {s : σ} {e : SlotError}

theorem SlotError.rejection_ofStore {e : StoreError} (h : (ofStore e).isRejection = true) :
    ∃ id, e = .notFound id := by
  cases e with
  | notFound id => exact ⟨id, rfl⟩
  | io | format | backend => cases h

theorem SlotError.failure_ofStore {e : StoreError} (h : ∀ id, e ≠ .notFound id) :
    (ofStore e).isRejection = false := by
  cases e with
  | notFound id => exact absurd rfl (h id)
  | io | format | backend => rfl

namespace SlotStore

theorem rejection_fetchInfo [Candid σ] {id : SlotId} (h : fetchInfo s id = .error e) (he : e.isRejection = true) :
    e = .slotNotFound id ∧ readInfo s id = .error (.notFound id) := by
  unfold fetchInfo at h
  cases hr : readInfo s id with
  | ok info => simp [hr, Except.mapError] at h
  | error e' =>
    obtain rfl : SlotError.ofStore e' = e := by simpa [hr, Except.mapError] using h
    obtain ⟨id', rfl⟩ := SlotError.rejection_ofStore he
    obtain rfl := Candid.readInfo hr
    exact ⟨rfl, rfl⟩

theorem rejection_fetchSnapshot [Candid σ] {id : SlotId} (h : fetchSnapshot s id = .error e)
    (he : e.isRejection = true) : e = .slotNotFound id ∧ readData s id = .error (.notFound id) := by
  unfold fetchSnapshot at h
  split at h
  · next payload _ =>
    cases hd : Snapshot.decode payload with
    | ok data => simp [hd, Except.mapError] at h
    | error f =>
      obtain rfl : SlotError.decode f = e := by simpa [hd, Except.mapError] using h
      cases he
  · next e' hr =>
    cases h
    obtain ⟨id', rfl⟩ := SlotError.rejection_ofStore he
    obtain rfl := Candid.readData hr
    exact ⟨rfl, hr⟩

theorem failure_commit [Candid σ] {info : SlotInfo} {data : Snapshot} (h : (commit s info data).1 = .error e) :
    e.isRejection = false := by
  unfold commit at h
  split at h
  · cases h
  · next e' s' hw =>
    cases h
    refine SlotError.failure_ofStore fun id he => ?_
    exact Candid.write s info data.encode id (by rw [hw, he])

theorem failure_listInfos [Candid σ] {range : SlotRange} {recent : Bool} (h : listInfos s range recent = .error e) :
    e.isRejection = false := by
  unfold listInfos at h
  split at h
  · next e' hids =>
    cases h
    exact SlotError.failure_ofStore fun id he => Candid.ids s id (he ▸ hids)
  · cases h

/-- Slots that are gone already are passed over. -/
theorem failure_deleteEach {ids : List SlotId} (h : (deleteEach s ids).1 = .error e) : e.isRejection = false := by
  induction ids generalizing s with
  | nil => cases h
  | cons id ids ih =>
    simp only [deleteEach] at h
    split at h
    · next s' _ =>
      cases hr : (deleteEach s' ids).1 with
      | ok gone => simp [hr, Except.map] at h
      | error e' =>
        obtain rfl : e' = e := by simpa [hr, Except.map] using h
        exact ih hr
    · exact ih h
    · next e' _ hmissing _ =>
      cases h
      exact SlotError.failure_ofStore hmissing

theorem failure_deleteAll [Candid σ] (h : (deleteAll s).1 = .error e) : e.isRejection = false := by
  unfold deleteAll at h
  split at h
  · next e' hids =>
    cases h
    exact SlotError.failure_ofStore fun id he => Candid.ids s id (he ▸ hids)
  · exact failure_deleteEach h

end SlotStore

end Answers

/-! ## Errors that lie in a job -/

/-- The error that work came to, until it is taken. -/
def Handle.failure? {ω α : Type} : Handle ω (Except SlotError α) → Option SlotError
  | finished (.error e) => some e
  | finished (.ok _) | waiting _ | held _ | lost => none

/-- An error that was not there before comes of the work that is done. -/
theorem Handle.failure_runOn {ω α σ : Type} {h : Handle ω (Except SlotError α)}
    {work : ω → σ → Except SlotError α × σ} {s : σ} {e : SlotError} (hnew : h.isFinished = false)
    (he : (h.runOn work s).1.failure? = some e) : ∃ w, h.work? = some w ∧ (work w s).1 = .error e := by
  cases h with
  | waiting w | held w =>
    refine ⟨w, rfl, ?_⟩
    have hfailure : (finished (work w s).1 : Handle ω (Except SlotError α)).failure? = some e := he
    cases hr : (work w s).1 with
    | ok a =>
      rw [hr] at hfailure
      cases hfailure
    | error e' =>
      rw [hr] at hfailure
      cases hfailure
      rfl
  | finished a => cases hnew
  | lost => cases he

namespace Job

/-- The error that the work of a job came to, until a tick takes it. -/
def failure? : Job → Option SlotError
  | save j =>
    match j.phase with
    | .writing work => work.failure?
    | .start | .capture _ => none
  | load j =>
    match j.phase with
    | .readingInfo work => work.failure?
    | .readingData _ work => work.failure?
    | .start | .travelling .. => none
  | info _ (.working work) => work.failure?
  | infos _ (.working work) => work.failure?
  | deleteAll (.working work) => work.failure?
  | info _ .start | infos _ .start | deleteAll .start => none

variable {j j' : Job} {e : SlotError}

theorem isWorked_of_failure (h : j.failure? = some e) : j.isWorked = true := by
  rcases j with ⟨slot, name, shot, unloaded, phase⟩ | ⟨slot, phase⟩ | ⟨slot, phase⟩ | ⟨recent, phase⟩ | phase <;>
    cases phase
  case save.writing work | load.readingInfo work | load.readingData work | info.working work | infos.working work |
      deleteAll.working work =>
    cases work <;> first | rfl | cases h
  all_goals cases h

theorem error_arrive {j : LoadJob} {f : SaveFilter} {info : SlotInfo} {data : Snapshot}
    {restored : Catalog (id : String → String)} {w : World} :
    (j.arrive f info data restored w).2.2 ≠ some (.error e) := by
  unfold LoadJob.arrive
  simp only
  split <;> exact nofun

/-- A tick ends a job with the error that its work came to, or because the work was lost. -/
theorem error_of_advance {f : SaveFilter} {p : Preset} {now : Instant} {w : World}
    (h : (j.advance f p now w).2.2 = some (.error e)) : e = .workerLost ∨ j.failure? = some e := by
  rcases j with ⟨slot, name, shot, unloaded, phase⟩ | ⟨slot, phase⟩ | ⟨slot, phase⟩ | ⟨recent, phase⟩ | phase <;>
    cases phase
  case save.start | save.capture | load.start | info.start | infos.start | deleteAll.start => cases h
  case load.travelling => exact absurd h error_arrive
  case load.readingInfo work =>
    cases work with
    | finished answer =>
      cases answer with
      | ok info => cases h
      | error e' =>
        cases h
        exact .inr rfl
    | lost =>
      cases h
      exact .inl rfl
    | waiting | held => cases h
  case load.readingData info work =>
    cases work with
    | finished answer =>
      cases answer with
      | ok data => exact absurd h error_arrive
      | error e' =>
        cases h
        exact .inr rfl
    | lost =>
      cases h
      exact .inl rfl
    | waiting | held => cases h
  case save.writing work | info.working work | infos.working work | deleteAll.working work =>
    cases work with
    | finished answer =>
      cases answer with
      | ok value => cases h
      | error e' =>
        cases h
        exact .inr rfl
    | lost =>
      cases h
      exact .inl rfl
    | waiting | held => cases h

/-! ## What jobs read -/

/-- Whether the info that a job is about to read is that of its slot. -/
def Asks : Job → Prop
  | load j =>
    match j.phase with
    | .readingInfo work => ∀ id, work.work? = some id → id = j.slot
    | .start | .readingData .. | .travelling .. => True
  | info slot (.working work) => ∀ id, work.work? = some id → id = slot
  | save _ | info _ .start | infos .. | deleteAll _ => True

theorem asks_fresh (h : j.isFresh = true) : j.Asks := by
  rcases j with ⟨_, _, _, _, _ | _ | _⟩ | ⟨_, _ | _ | _ | _⟩ | ⟨_, _ | _⟩ | ⟨_, _ | _⟩ | (_ | _) <;>
    trivial

/-- Whether a store calls a slot missing that a job of this kind reads: the info of the slot that it is about, or the
payload of a slot that it loads. -/
def Misses {σ : Type} [SlotStore σ] (j : Job) (s : σ) (id : SlotId) : Prop :=
  ((j.kind = .load ∨ j.kind = .loadInfos) ∧ j.target? = some id ∧ SlotStore.readInfo s id = .error (.notFound id)) ∨
    j.kind = .load ∧ SlotStore.readData s id = .error (.notFound id)

variable {σ : Type} [SlotStore σ] {s : σ}

theorem Misses.congr {id : SlotId} (h : j.Misses s id) (hj : j'.subject = j.subject) : j'.Misses s id := by
  have hk : j'.kind = j.kind := congrArg Prod.fst hj
  have ht : j'.target? = j.target? := congrArg Prod.snd hj
  rwa [Misses, hk, ht]

namespace Asks

theorem arrive {j : LoadJob} {f : SaveFilter} {info : SlotInfo} {data : Snapshot}
    {restored : Catalog (id : String → String)} {w : World} : (load (j.arrive f info data restored w).1).Asks := by
  unfold LoadJob.arrive
  simp only
  split <;> trivial

theorem advance (h : j.Asks) (f : SaveFilter) (p : Preset) (now : Instant) (w : World) :
    (j.advance f p now w).1.Asks := by
  rcases j with ⟨slot, name, shot, unloaded, phase⟩ | ⟨slot, phase⟩ | ⟨slot, phase⟩ | ⟨recent, phase⟩ | phase <;>
    cases phase
  case load.start | info.start =>
    intro id hid
    cases hid
    rfl
  case load.readingInfo work =>
    cases work with
    | finished answer => cases answer <;> trivial
    | waiting | held | lost => exact h
  case load.readingData info work =>
    cases work with
    | finished answer =>
      cases answer with
      | ok data => exact arrive
      | error e => trivial
    | waiting | held | lost => trivial
  case load.travelling => exact arrive
  case info.working work => cases work <;> exact h
  all_goals trivial

theorem runWork (j : Job) (s : σ) : (j.runWork s).1.Asks := by
  rcases j with ⟨slot, name, shot, unloaded, phase⟩ | ⟨slot, phase⟩ | ⟨slot, phase⟩ | ⟨recent, phase⟩ | phase <;>
    cases phase
  case save.writing work =>
    simp only [Job.runWork]
    split <;> trivial
  case load.readingInfo work | info.working work =>
    intro id hid
    cases work <;> cases hid
  all_goals trivial

theorem loseWork (j : Job) : j.loseWork.Asks := by
  rcases j with ⟨slot, name, shot, unloaded, phase⟩ | ⟨slot, phase⟩ | ⟨slot, phase⟩ | ⟨recent, phase⟩ | phase <;>
    cases phase
  case load.readingInfo work | info.working work =>
    intro id hid
    rw [Handle.work_abandon] at hid
    cases hid
  all_goals trivial

theorem offered (h : j.Offered j') : j'.Asks := by
  rcases offered_cases h with ⟨_, _, _, _, _, -, rfl⟩ | ⟨_, _, _, _, _, _, -, rfl, -⟩ <;> trivial

theorem moved (h : j.Asks) (hm : Moved σ j j') : j'.Asks := by
  cases hm with
  | same => exact h
  | advanced f p now w => exact h.advance f p now w
  | ready hr => exact offered (.inl ⟨_, _, _, _, hr⟩)
  | unloading hu => exact offered (.inr ⟨_, _, _, hu⟩)
  | worked s => exact runWork j s
  | lost => exact loseWork j

end Asks

/-- Work that comes to a rejection has found a slot missing. -/
theorem misses_of_runWork [Candid σ] (ha : j.Asks) (hnew : j.isWorked = false)
    (h : (j.runWork s).1.failure? = some e) (he : e.isRejection = true) :
    ∃ id, e = .slotNotFound id ∧ j.Misses s id := by
  rcases j with ⟨slot, name, shot, unloaded, phase⟩ | ⟨slot, phase⟩ | ⟨slot, phase⟩ | ⟨recent, phase⟩ | phase <;>
    cases phase
  case save.writing work =>
    simp only [Job.runWork] at h
    split at h
    · cases work <;> first | cases h | cases hnew
    · obtain ⟨pair, -, hanswer⟩ := Handle.failure_runOn hnew h
      simp [SlotStore.failure_commit hanswer] at he
  case load.readingInfo work =>
    simp only [Job.runWork, failure?] at h
    obtain ⟨id, hid, hanswer⟩ := Handle.failure_runOn hnew h
    obtain ⟨rfl, hread⟩ := SlotStore.rejection_fetchInfo hanswer he
    exact ⟨id, rfl, .inl ⟨.inl rfl, congrArg some (ha id hid).symm, hread⟩⟩
  case load.readingData info work =>
    simp only [Job.runWork, failure?] at h
    obtain ⟨id, -, hanswer⟩ := Handle.failure_runOn hnew h
    obtain ⟨rfl, hread⟩ := SlotStore.rejection_fetchSnapshot hanswer he
    exact ⟨id, rfl, .inr ⟨rfl, hread⟩⟩
  case info.working work =>
    simp only [Job.runWork, failure?] at h
    obtain ⟨id, hid, hanswer⟩ := Handle.failure_runOn hnew h
    obtain ⟨rfl, hread⟩ := SlotStore.rejection_fetchInfo hanswer he
    exact ⟨id, rfl, .inl ⟨.inr rfl, congrArg some (ha id hid).symm, hread⟩⟩
  case infos.working work =>
    simp only [Job.runWork, failure?] at h
    obtain ⟨_, -, hanswer⟩ := Handle.failure_runOn hnew h
    simp [SlotStore.failure_listInfos hanswer] at he
  case deleteAll.working work =>
    simp only [Job.runWork, failure?] at h
    obtain ⟨_, -, hanswer⟩ := Handle.failure_runOn hnew h
    simp [SlotStore.failure_deleteAll hanswer] at he
  all_goals cases h

end Job

/-! ## Errors that callers are told -/

variable {σ : Type} [SlotStore σ]

/-- A request is refused with a rejection. -/
theorem Turn.rejection_of_refused {x : Turn σ} (h : Orderly x.game) {e : SlotError} (he : x.refused? = some e) :
    e.isRejection = true := by
  unfold refused? at he
  split at he
  · next r now _ =>
    have hjob : x.game.manager.job x.game.store r = .error e := by
      simp only [Manager.request] at he
      cases hj : x.game.manager.job x.game.store r with
      | ok j => simp [hj, Except.map] at he
      | error e' =>
        obtain rfl : e' = e := by simpa [hj, Except.map] using he
        rfl
    cases hr : x.game.manager.running with
    | true =>
      obtain ⟨n, hn, -⟩ := (h.job_error_iff hr r e).1 hjob
      cases hn <;> rfl
    | false =>
      rw [(Stopped.of_orderly h hr).job_eq r] at hjob
      cases hjob
      split <;> rfl
  · cases he

omit [SlotStore σ] in
/-- A task that is called back in a tick was on the roster, and its job came to the reply. -/
theorem Turn.ended_of_call {x : Turn σ} (h : Orderly x.game) {now : Instant} (hm : x.move = .tick now) {c : Call}
    (hc : c ∈ x.calls) :
    ∃ u ∈ x.game.manager.tasks, c.task.label = u.label ∧ ∃ w r,
      (u.job.advance u.filter x.game.manager.preset now w).2.2 = some r ∧ c.reply = r.map Outcome.value := by
  simp only [calls, hm, Manager.callsOfTick] at hc
  split at hc
  · obtain ⟨-, e, he, htask, hreply⟩ := Manager.mem_callsOf hc
    obtain ⟨u, hu, w, w', hstep⟩ := Manager.mem_ended he
    refine ⟨u, hu, ?_, w, e.2.1, ?_, hreply⟩
    · rw [htask, ← Task.label_start u, ← Task.label_advance u.start x.game.manager.preset now w, hstep]
    · rw [Task.step_eq (h.live u hu)] at hstep
      exact congrArg (fun a => a.2.2) hstep
  · cases hc

namespace Orderly

variable {p : Preset} {s : σ} {w : World} {ms : List (Move σ)}

/-- In a run, every task is about to read the info of its own slot. -/
theorem asks {t : Task} (ht : t ∈ ((Game.new p s w).run ms).everyTask) : t.job.Asks := by
  induction ms using List.reverseRecOn generalizing t with
  | nil => cases ht
  | append_singleton ms m ih =>
    rw [Game.run_append] at ht
    rcases Game.mem_step ((orderly_new p s w).run ms) ht with ⟨u, hu, hmoved⟩ | ⟨hmade, -⟩
    · exact (ih hu).moved hmoved.2
    · obtain ⟨_, _, _, -, -, hreq⟩ := Turn.request_of_made hmade
      exact Job.asks_fresh (Manager.request_ok hreq).1.fresh

/-- The same holds in each of its turns. -/
theorem asks_of_turn {y : Turn σ} (hy : y ∈ (Game.new p s w).trace ms) {t : Task} (ht : t ∈ y.game.everyTask) :
    t.job.Asks := by
  obtain ⟨_, _, hsplit⟩ := List.append_of_mem hy
  obtain ⟨ms₁, _, -, -, hg, -⟩ := Game.trace_split hsplit
  rw [hg] at ht
  exact asks ht

/-- A task that ends with a rejection has found a slot missing when its work was done. -/
theorem misses_of_call [Candid σ] {before after : List (Turn σ)} {x : Turn σ}
    (hs : (Game.new p s w).trace ms = before ++ x :: after) {c : Call} (hc : c ∈ x.calls) {e : SlotError}
    (hreply : c.reply = .error e) (he : e.isRejection = true) :
    ∃ id, e = .slotNotFound id ∧
      ∃ y ∈ before, y.move = .work c.task.number ∧ c.task.job.Misses y.game.store id := by
  have h := orderly_new p s w
  obtain ⟨ms₁, ms₂, -, rfl, hg, -⟩ := Game.trace_split hs
  have ho : Orderly x.game := hg ▸ h.run ms₁
  rcases (Turn.settles ho hc).how with ⟨now, hm, -⟩ | ⟨-, -, hcancelled⟩
  · obtain ⟨u, hu, hlabel, w', r, hr, hvalue⟩ := Turn.ended_of_call ho hm hc
    obtain rfl : r = .error e := by
      rw [hreply] at hvalue
      cases r <;> cases hvalue
      rfl
    rcases Job.error_of_advance hr with rfl | hfailure
    · cases he
    · -- the error was put there by the work of the task, in an earlier turn
      obtain ⟨y, hy, hmove, v, hv, hvl, hnew, hrun⟩ :=
        worked p s w ms₁ (hg ▸ hu) (Job.isWorked_of_failure hfailure)
      have hasks : v.job.Asks := asks_of_turn hy (List.mem_append_left _ hv)
      have hresult : (v.job.runWork y.game.store).1.failure? = some e := by
        rw [hrun]
        exact hfailure
      obtain ⟨id, rfl, hmisses⟩ := Job.misses_of_runWork hasks hnew hresult he
      refine ⟨id, rfl, y, hy, by rw [hmove, Task.number_eq hlabel], hmisses.congr ?_⟩
      exact congrArg (fun l => l.2.2) (hlabel.trans hvl.symm)
  · rw [hreply] at hcancelled
    cases hcancelled
    cases he

end Orderly

/-- How the errors of a run are told apart. -/
structure Classified (turns : List (Turn σ)) : Prop where
  /-- Requests are refused with rejections. -/
  refused : ∀ x ∈ turns, ∀ e, x.refused? = some e → e.isRejection = true
  /-- A rejection that the caller of an accepted request is told means that its task found a slot missing. -/
  called : ∀ before x after, turns = before ++ x :: after → ∀ c ∈ x.calls, ∀ e, c.reply = .error e →
    e.isRejection = true → ∃ id, e = .slotNotFound id ∧
      ∃ y ∈ before, y.move = .work c.task.number ∧ c.task.job.Misses y.game.store id
  /-- A latent is rejected with the error of its request, and fails with an error that its task was given. -/
  polled : ∀ before x after, turns = before ++ x :: after → ∀ l₀ l, x.latent? = some l₀ →
    Latent.Course l₀ after l → ∀ e, l.result? = some (.error e) →
      l.status? = some .rejected ∧ x.refused? = some e ∨
      l.status? = some .failed ∧ ∃ t, x.made? = some t ∧ Replied after t.number (.error e)

/-- In every run, all errors of requests that are refused are rejections. An error that a task ends with, be it told to
a callback or polled from a latent, is no rejection, unless its work found a slot missing that it was to read. -/
theorem errors_classified [Candid σ] (p : Preset) (s : σ) (w : World) (ms : List (Move σ)) :
    Classified ((Game.new p s w).trace ms) where
  refused _ hx _ he := Turn.rejection_of_refused ((orderly_new p s w).turns hx) he
  called _ _ _ hs _ hc _ hreply he := Orderly.misses_of_call hs hc hreply he
  polled _ _ _ _ _ _ hx hl _ he := hl.error hx he

/-- A run that asks for the info of a slot. -/
def askingInfo : List (Move MemoryStore) := [.request (.info 5) .epoch, .tick .epoch, .work 0, .tick .epoch]

/-- Asked for a slot that is not there, the store says so, and the caller is told by a rejection although the request
was accepted. -/
theorem errors_classified_missing :
    let g := Game.new .default MemoryStore.empty (World.new "harbor")
    let x : Turn MemoryStore := ⟨g.run (askingInfo.take 3), .tick .epoch⟩
    ∃ c ∈ x.calls, c.reply = .error (.slotNotFound 5) ∧ (SlotError.slotNotFound 5).isRejection = true ∧
      ∃ y ∈ g.trace (askingInfo.take 3), y.move = .work 0 ∧ c.task.job.Misses y.game.store 5 := by
  intro g x
  have hs : g.trace askingInfo = g.trace (askingInfo.take 3) ++ x :: [] := rfl
  obtain ⟨c, hcalls, hreply, hnumber⟩ : ∃ c, x.calls = [c] ∧ c.reply = .error (.slotNotFound 5) ∧ c.task.number = 0 :=
    ⟨_, rfl, rfl, rfl⟩
  have hc : c ∈ x.calls := by simp [hcalls]
  obtain ⟨id, hid, y, hy, hmove, hmisses⟩ :=
    (errors_classified .default MemoryStore.empty (World.new "harbor") askingInfo).called _ x _ hs c hc _ hreply rfl
  cases hid
  exact ⟨c, hc, hreply, rfl, y, hy, hnumber ▸ hmove, hmisses⟩

end SaveSlots
