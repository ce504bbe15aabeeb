import SaveSlots.Proofs.Worked
/-!
# What makes a slot active

`Turn.Switches` lists all that can change the active slot: a save or a load that succeeds, the deletion of the
active slot, a delete-all that succeeds and has removed it, and teardown.

`active_switches` is the main theorem: in every state that a manager can reach, a move that does one of these leaves
just the active slot that the list says, and every other move leaves the active slot alone. So a task that fails or
is cancelled activates nothing, nor does a request that is refused or an event of a region. Nor does a look at the
current slot: without an active slot it makes the pair that is shown instead, which is another field of the manager.
`listInfos` and `isSlotSaved` do not make a new manager, and are no moves.
-/

namespace SaveSlots

/-! ## Jobs that end well -/

namespace Job

/-- The pair that a save or a load ends with. -/
def pair? : Job → Option (SlotInfo × Snapshot)
  | save { phase := .writing (.finished (.ok pair)), .. } => some pair
  | load { phase := .travelling head data _, .. } => some (head, data)
  | _ => none

/-- What a job that locks the manager succeeds with: its pair, or the slots that it has deleted. -/
theorem outcome_cases {j : Job} {f : SaveFilter} {p : Preset} {now : Instant} {w : World} {o : Outcome}
    (h : (j.advance f p now w).2.2 = some (.ok o)) (hk : j.kind ≠ .loadInfos) :
    ((j.kind = .save ∨ j.kind = .load) ∧ ∃ info data, (j.advance f p now w).1.pair? = some (info, data) ∧
      (o = .saved info data ∨ o = .loaded info data)) ∨
    ∃ ids, j = .deleteAll (.working (.finished (.ok ids))) ∧ o = .deleted ids := by
  have harrive : ∀ (j : LoadJob) (info : SlotInfo) (data : Snapshot) (restored : Catalog (id : String → String))
      (w : World), (j.arrive f info data restored w).2.2 = some (.ok o) →
      (load (j.arrive f info data restored w).1).pair? = some (info, data) ∧ o = .loaded info data := by
    intro j info data restored w h
    unfold LoadJob.arrive at h ⊢
    simp only at h ⊢
    split at h
    · cases h
    · next hloading =>
      cases h
      rw [if_neg hloading]
      exact ⟨rfl, rfl⟩
  rcases j with ⟨slot, name, shot, unloaded, phase⟩ | ⟨slot, phase⟩ | _ | _ | phase
  · refine .inl ⟨.inl rfl, ?_⟩
    cases phase with
    | start | capture => cases h
    | writing work =>
      cases work with
      | waiting | held | lost => cases h
      | finished answer =>
        cases answer with
        | ok pair =>
          cases h
          exact ⟨pair.1, pair.2, rfl, .inl rfl⟩
        | error e => cases h
  · refine .inl ⟨.inr rfl, ?_⟩
    cases phase with
    | start => cases h
    | readingInfo work =>
      cases work with
      | waiting | held | lost => cases h
      | finished answer => cases answer <;> cases h
    | readingData info work =>
      cases work with
      | waiting | held | lost => cases h
      | finished answer =>
        cases answer with
        | ok data =>
          obtain ⟨hpair, ho⟩ := harrive _ _ _ _ _ h
          exact ⟨info, data, hpair, .inr ho⟩
        | error e => cases h
    | travelling info data restored =>
      obtain ⟨hpair, ho⟩ := harrive _ _ _ _ _ h
      exact ⟨info, data, hpair, .inr ho⟩
  · exact absurd rfl hk
  · exact absurd rfl hk
  · cases phase with
    | start => cases h
    | working work =>
      cases work with
      | waiting | held | lost => cases h
      | finished answer =>
        cases answer with
        | ok ids =>
          cases h
          exact .inr ⟨ids, rfl, rfl⟩
        | error e => cases h

end Job

/-! ## Whoever ends is called back -/

namespace Manager

theorem exists_call {m : Manager} {es : List (Task × TaskResult × Bool)} {e : Task × TaskResult × Bool}
    (h : e ∈ es) : ∃ c ∈ m.callsOf es, c.task = e.1 ∧ c.reply = e.2.1.map Outcome.value := by
  induction es generalizing m with
  | nil => cases h
  | cons e' es ih =>
    rcases List.mem_cons.1 h with rfl | h
    · exact ⟨_, .head _, rfl, rfl⟩
    · obtain ⟨c, hc, htask, hreply⟩ := ih h
      exact ⟨c, .tail _ hc, htask, hreply⟩

/-- A sweep ends the holder with what the step of its job comes to. -/
theorem mem_ended_holder (m : Manager) (now : Instant) (w : World) {before : List Task} (t : Task) (after : List Task)
    (hb : ∀ u ∈ before, u.locks = false) {r : TaskResult} (hr : (t.start.advance m.preset now w).2.2 = some r) :
    ((t.start.advance m.preset now w).1, r, true) ∈ (m.sweep now w (before ++ t :: after)).ended := by
  have hworld : (m.sweep now w before).world = w := (sweep_unlocked m now w hb).2.2.2.2.2
  simp only [sweep_append, sweep_cons, hworld, hr]
  exact List.mem_append_right _ (.head _)

end Manager

variable {σ : Type} [SlotStore σ]

namespace Orderly

variable {g : Game σ} {t : Task}

/-- In a tick the holder decides about the active slot. -/
theorem active_tick_holder (h : Orderly g) (ht : g.manager.holder? = some t) (now : Instant) :
    (g.step (.tick now)).manager.active =
      (t.job.advance t.filter g.manager.preset now g.world).2.2.elim g.manager.active
        (Manager.activeAfter g.manager.active) := by
  obtain ⟨hl, before, after, htasks, hbefore, hafter⟩ := h.holder_split ht
  obtain ⟨-, -, ha, -⟩ := Manager.sweep_locked g.manager now g.world t hbefore hafter hl
  rw [active_tick (h.running_of_holder ht), htasks, ha, Task.step_eq (h.live t (List.mem_of_find?_eq_some ht))]

/-- A tick without a holder leaves it alone. -/
theorem active_tick_unheld (h : g.manager.holder? = none) (now : Instant) :
    (g.step (.tick now)).manager.active = g.manager.active := by
  cases hr : g.manager.running with
  | true =>
    rw [active_tick hr]
    exact (Manager.sweep_unlocked g.manager now g.world (unlocked_of_none h)).2.2.2.1 _
  | false =>
    change (g.manager.tick now g.world).1.active = _
    rw [Manager.tick_stopped _ _ _ hr]

omit [SlotStore σ] in
/-- A holder that ends is called back. -/
theorem call_of_holder (h : Orderly g) (ht : g.manager.holder? = some t) {now : Instant} {r : TaskResult}
    (hr : (t.job.advance t.filter g.manager.preset now g.world).2.2 = some r) :
    ∃ c ∈ Turn.calls ⟨g, .tick now⟩, c.task.label = t.label ∧
      c.task.job = (t.job.advance t.filter g.manager.preset now g.world).1 ∧ c.reply = r.map Outcome.value := by
  obtain ⟨-, before, after, htasks, hbefore, -⟩ := h.holder_split ht
  have hstep := Task.step_eq (h.live t (List.mem_of_find?_eq_some ht)) g.manager.preset now g.world
  have hended := Manager.mem_ended_holder g.manager now g.world t after hbefore (by rw [hstep]; exact hr)
  rw [← htasks] at hended
  obtain ⟨c, hc, htask, hreply⟩ := Manager.exists_call (m := { g.manager with
    tasks := (g.manager.sweep now g.world g.manager.tasks).tasks.filter fun t => !t.state.isTerminal }) hended
  refine ⟨c, ?_, ?_, ?_, hreply⟩
  · simp only [Turn.calls, Manager.callsOfTick, if_pos (h.running_of_holder ht)]
    exact hc
  · rw [htask, Task.label_advance, Task.label_start]
  · rw [htask, hstep]

end Orderly

/-! ## Switches -/

/-- All that changes the active slot in a turn, and what it changes it to. The turns before it are those in which
the work was done. -/
inductive Turn.Switches (before : List (Turn σ)) (x : Turn σ) : Option (SlotInfo × Snapshot) → Prop
  /-- A save or a load succeeds, and its caller is told the info of its pair. -/
  | activated {c : Call} {info : SlotInfo} {data : Snapshot} : c ∈ x.calls → c.task.kind = .save ∨ c.task.kind = .load →
      c.task.state = .succeeded → c.task.job.pair? = some (info, data) → c.reply = .ok (.info info) →
      Switches before x (some (info, data))
  /-- The active slot is deleted. -/
  | deleted {slot : SlotId} : x.move = .delete slot → (x.game.manager.deleteSlot x.game.store slot).1 = .ok () →
      x.game.manager.activeId = some slot → Switches before x none
  /-- A delete-all succeeds whose work has removed the active slot among others. -/
  | cleared {c : Call} {ids : List SlotId} {slot : SlotId} : c ∈ x.calls → c.task.kind = .deleteAll →
      c.task.state = .succeeded → c.reply = .ok (.ids ids) →
      (∃ y ∈ before, y.move = .work c.task.number ∧ SlotStore.deleteAll y.game.store = (.ok ids, y.after.store)) →
      slot ∈ ids → x.game.manager.activeId = some slot → Switches before x none
  | stopped : x.move = Move.deinitialize → Switches before x none

namespace Manager

theorem filter_of_activeId {m : Manager} {slot : SlotId} {keep : SlotInfo × Snapshot → Bool}
    (h : m.activeId = some slot) (hk : ∀ pair, pair.1.id = slot → keep pair = false) : m.active.filter keep = none := by
  rw [activeId, activeInfo, Option.map_map] at h
  obtain ⟨pair, hpair, hid⟩ := Option.map_eq_some_iff.1 h
  rw [hpair, Option.filter_some, if_neg (by simp [hk pair hid])]

/-- The active slot goes only if it is not to be kept. -/
theorem activeId_of_filter {m : Manager} {keep : SlotInfo × Snapshot → Bool} (h : m.active.filter keep ≠ m.active) :
    m.active.filter keep = none ∧ ∃ pair, m.activeId = some pair.1.id ∧ keep pair = false := by
  cases ha : m.active with
  | none =>
    rw [ha] at h
    exact absurd rfl h
  | some pair =>
    rw [ha] at h
    cases hk : keep pair with
    | true => simp [Option.filter_some, hk] at h
    | false => exact ⟨by simp [Option.filter_some, hk], pair, by simp [activeId, activeInfo, ha], hk⟩

end Manager

namespace Turn

variable {before : List (Turn σ)} {x : Turn σ}

omit [SlotStore σ] in
/-- A task that is called back in a state of success was ended by a tick. -/
theorem tick_of_succeeded (h : Orderly x.game) {c : Call} (hc : c ∈ x.calls) (hs : c.task.state = .succeeded) :
    ∃ now, x.move = .tick now := by
  rcases (settles h hc).how with ⟨now, hm, -⟩ | ⟨-, hcancelled, -⟩
  · exact ⟨now, hm⟩
  · rw [hs] at hcancelled
    cases hcancelled

/-- A switch leaves the active slot that it is a switch to. -/
theorem Switches.active (h : Orderly x.game) {a : Option (SlotInfo × Snapshot)} (hx : x.Switches before a) :
    x.after.manager.active = a := by
  cases hx with
  | @activated c info data hc hk hs hpair hreply =>
    obtain ⟨now, hm⟩ := tick_of_succeeded h hc hs
    have hlocks : c.task.locks = true := c.task.locks_iff.2 (hk.imp_right .inl)
    obtain ⟨u, r, -, hlabel, hstep, hr, hactive⟩ := h.holder_called hm hc hlocks
    rw [hactive]
    rw [hreply] at hr
    cases r with
    | error e => cases hr
    | ok o =>
      have hkind : u.job.kind = c.task.kind := (Task.kind_eq hlabel).symm
      rcases Job.outcome_cases (by rw [hstep]) (by rw [hkind]; rcases hk with hk | hk <;> simp [hk]) with
        ⟨-, info', data', hpair', ho⟩ | ⟨ids, hj, -⟩
      · rw [hstep, hpair] at hpair'
        cases hpair'
        rcases ho with rfl | rfl <;> rfl
      · rw [hj] at hkind
        rcases hk with hk | hk <;> simp [hk, Job.kind] at hkind
  | @deleted slot hm hok hactive =>
    have hafter : x.after.manager.active = (x.game.manager.deleteSlot x.game.store slot).2.1.active := by
      rw [after, hm]
      rfl
    rw [hafter]
    rcases x.game.manager.deleteSlot_cases x.game.store slot with ⟨e, he⟩ | ⟨-, ⟨e, e', s', -, he⟩ | ⟨s', -, he⟩⟩
    · rw [he] at hok
      cases hok
    · rw [he] at hok
      cases hok
    · rw [he]
      exact Manager.filter_of_activeId hactive fun pair hid => by simp [hid]
  | @cleared c ids slot hc hk hs hreply _ hmem hactive =>
    obtain ⟨now, hm⟩ := tick_of_succeeded h hc hs
    obtain ⟨u, r, -, hlabel, hstep, hr, hafter⟩ := h.holder_called hm hc (c.task.locks_iff.2 (.inr (.inr hk)))
    rw [hafter]
    rw [hreply] at hr
    cases r with
    | error e => cases hr
    | ok o =>
      have hkind : u.job.kind = .deleteAll := (Task.kind_eq hlabel).symm.trans hk
      rcases Job.outcome_cases (by rw [hstep]) (by simp [hkind]) with ⟨hstreams, -⟩ | ⟨ids', -, rfl⟩
      · simp [hkind] at hstreams
      · cases hr
        exact Manager.filter_of_activeId hactive fun pair hid => by simp [hid, hmem]
  | stopped hm =>
    rw [after, hm]
    change x.game.manager.deinitialize.1.active = none
    cases hr : x.game.manager.running with
    | true => rw [Manager.deinitialize_eq _ hr]
    | false =>
      rw [Manager.deinitialize_stopped _ hr]
      exact (h.stopped hr).2

end Turn

/-- A tick that changes the active slot is a switch. What a delete-all names has to go back to its work. -/
theorem Orderly.switches_tick {g : Game σ} (h : Orderly g) {before : List (Turn σ)}
    (hwork : ∀ t ids, g.manager.holder? = some t → t.job = .deleteAll (.working (.finished (.ok ids))) →
      ∃ y ∈ before, y.move = .work t.number ∧ SlotStore.deleteAll y.game.store = (.ok ids, y.after.store))
    (now : Instant) (hne : (g.step (.tick now)).manager.active ≠ g.manager.active) :
    Turn.Switches before ⟨g, .tick now⟩ (g.step (.tick now)).manager.active := by
  cases hh : g.manager.holder? with
  | none => exact absurd (active_tick_unheld hh now) hne
  | some t =>
    rw [h.active_tick_holder hh now] at hne ⊢
    cases hr : (t.job.advance t.filter g.manager.preset now g.world).2.2 with
    | none =>
      rw [hr] at hne
      exact absurd rfl hne
    | some r =>
      rw [hr] at hne
      obtain ⟨c, hc, hlabel, hjob, hreply⟩ := h.call_of_holder hh hr
      have hkind : c.task.kind = t.job.kind := Task.kind_eq hlabel
      cases r with
      | error e => exact absurd rfl hne
      | ok o =>
        have hstate : c.task.state = .succeeded := by
          rcases (Turn.settles h hc).how with ⟨-, -, -, hs⟩ | ⟨hm, -⟩
          · rw [hs, hreply]
            rfl
          · cases hm
        have hlocks : t.job.kind ≠ .loadInfos := by simpa [Task.locks, Task.kind] using (h.holder_split hh).1
        rcases Job.outcome_cases hr hlocks with ⟨hstreams, info, data, hpair, ho⟩ | ⟨ids, hj, rfl⟩
        · have hswitch : c.reply = .ok (.info info) → Turn.Switches before ⟨g, .tick now⟩ (some (info, data)) :=
            .activated hc (hkind ▸ hstreams) hstate (hjob ▸ hpair)
          rcases ho with rfl | rfl <;> exact hswitch hreply
        · obtain ⟨hnone, pair, hid, hgone⟩ := Manager.activeId_of_filter hne
          change Turn.Switches _ _ (Option.filter _ _)
          rw [hnone]
          refine .cleared hc (by rw [hkind, hj]; rfl) hstate hreply ?_ (by simpa using hgone) hid
          rw [Task.number_eq hlabel]
          exact hwork t ids hh hj

/-- So is a deletion that changes it. -/
theorem Turn.switches_delete {g : Game σ} {before : List (Turn σ)} (slot : SlotId)
    (hne : (g.step (.delete slot)).manager.active ≠ g.manager.active) :
    Turn.Switches before ⟨g, .delete slot⟩ (g.step (.delete slot)).manager.active := by
  simp only [Game.step] at hne ⊢
  rcases g.manager.deleteSlot_cases g.store slot with ⟨e, he⟩ | ⟨-, ⟨e, e', s', -, he⟩ | ⟨s', -, he⟩⟩
  · rw [he] at hne
    exact absurd rfl hne
  · rw [he] at hne
    exact absurd rfl hne
  · rw [he] at hne ⊢
    obtain ⟨hnone, pair, hid, hgone⟩ := Manager.activeId_of_filter hne
    rw [hnone]
    refine .deleted rfl (congrArg Prod.fst he) ?_
    rw [hid]
    simpa using hgone

/-- Any other move but teardown leaves the active slot alone. -/
theorem Game.active_step (g : Game σ) {m : Move σ} (hd : ∀ slot, m ≠ .delete slot) (ht : ∀ now, m ≠ .tick now)
    (hs : m ≠ Move.deinitialize) : (g.step m).manager.active = g.manager.active := by
  cases m with
  | request r now =>
    simp only [step]
    split
    · next hq =>
      obtain ⟨-, -, -, rfl⟩ := Manager.request_ok hq
      rfl
    · rfl
  | delete slot => exact absurd rfl (hd slot)
  | tick now => exact absurd rfl (ht now)
  | regionReady region =>
    rcases g.manager.regionReady_cases region g.world with ⟨r, he, -⟩ | ⟨r, t, job, w', -, -, he⟩ <;>
      exact congrArg (fun answer => answer.2.1.active) he
  | regionUnloading region =>
    rcases g.manager.regionUnloading_cases region g.world with ⟨r, he, -⟩ | ⟨r, t, job, -, -, he⟩ <;>
      exact congrArg (fun answer => answer.2.active) he
  | subscribe name =>
    simp only [step, Manager.subscribe]
    split <;> rfl
  | deinitialize => exact absurd rfl hs
  | work n =>
    change (g.manager.runWork g.store n).1.active = _
    unfold Manager.runWork
    split <;> rfl
  | unsubscribe | currentInfo | currentData | lose | visit | disturb => rfl

/-! ## Main theorem -/

/-- In every state that a manager can reach, a move changes the active slot only by a switch: a save or load that
succeeds, whose pair is active then and whose caller is told the info of this pair; a deletion of the active slot; a
delete-all that succeeds and has removed it; or teardown. And after a switch the active slot is as the switch says,
whatever it was before. No look at the current slot is a switch: what is shown for want of an active slot is not
active. -/
theorem active_switches (p : Preset) (s : σ) (w : World) (ms : List (Move σ)) (m : Move σ) :
    let x : Turn σ := ⟨(Game.new p s w).run ms, m⟩
    (x.after.manager.active ≠ x.game.manager.active →
      x.Switches ((Game.new p s w).trace ms) x.after.manager.active) ∧
    ∀ a, x.Switches ((Game.new p s w).trace ms) a → x.after.manager.active = a := by
  intro x
  have h : Orderly x.game := (orderly_new p s w).run ms
  refine ⟨fun hne => ?_, fun a hx => hx.active h⟩
  cases m with
  | delete slot => exact Turn.switches_delete slot hne
  | tick now => exact h.switches_tick (fun _ _ ht hj => Orderly.deleted ht hj) now hne
  | deinitialize =>
    have hstop : x.Switches ((Game.new p s w).trace ms) none := .stopped rfl
    rw [hstop.active h]
    exact hstop
  | request | regionReady | regionUnloading | subscribe | unsubscribe | currentInfo | currentData | work | lose
  | visit | disturb =>
    exact absurd (x.game.active_step (by simp) (by simp) (by simp)) hne

end SaveSlots
