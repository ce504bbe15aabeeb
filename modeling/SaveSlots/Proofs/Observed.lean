import SaveSlots.Proofs.Course
import SaveSlots.Store.Memory
/-!
# What observers are told

An observer is told when a save or a load begins and when it has finished, and its caller gets the reply after that.
Since one such task is under way at a time, the hooks come in pairs. `Game.pending` is the first half of a pair whose
second half is still to come; `Orderly.heard` says how a turn changes it, and `heard_run` adds the turns of a run up.

`hooks_balanced` is the main theorem: what an observer hears in a run that teardown ends is a pair of hooks for each
save and each load that was ever ticked (`hookPair`), each before the reply of its task.
-/

namespace SaveSlots

/-! ## Hooks -/

/-- The two hooks of a save or a load; other tasks have none. -/
def hookPair (kind : TaskKind) (success : Bool) : List Hook :=
  match kind with
  | .save => [.saveBegan, .saveFinished success]
  | .load => [.loadBegan, .loadFinished success]
  | .loadInfos | .deleteAll => []

theorem hookPair_eq (kind : TaskKind) (success : Bool) :
    hookPair kind success = (Manager.beganHook? kind).toList ++ (Manager.finishedHook? kind success).toList := by
  cases kind <;> rfl

/-- An observer is told of some hooks. -/
def told (o : String) (f : SaveFilter) (hooks : List Hook) : List Event := hooks.map fun h => .hook o h f

/-- What an observer hears of saves and loads that are settled. -/
def settlings (o : String) (es : List (Task × TaskResult × Bool)) : List Event :=
  es.flatMap fun e =>
    (if e.2.2 then told o e.1.filter (Manager.finishedHook? e.1.kind e.2.1.isOk).toList else []) ++
      [.reply e.1.number (e.2.1.map Outcome.value)]

/-- Whether an event is a hook for an observer, or the reply to one of these tasks that saves or loads. -/
def Event.isFor (o : String) (tasks : List Task) : Event → Bool
  | .hook name .. => name = o
  | .reply number _ => tasks.any fun t => t.streams && t.number = number

/-- The hook that an event is, if it is one. -/
def Event.hook? : Event → Option Hook
  | .hook _ h _ => some h
  | .reply .. => none

theorem Task.hooks_of_not_streams {t : Task} (h : t.streams = false) :
    Manager.beganHook? t.kind = none ∧ ∀ success, Manager.finishedHook? t.kind success = none := by
  revert h
  unfold streams
  cases t.kind <;> simp [Manager.beganHook?, Manager.finishedHook?]

namespace Manager

theorem events_sweep (m : Manager) (now : Instant) (w : World) (ts : List Task) :
    (m.sweep now w ts).events =
      ts.flatMap fun t => if t.state = .created then m.notify t.filter (beganHook? t.kind) else [] := by
  induction ts generalizing w with
  | nil => rfl
  | cons t ts ih => simp only [sweep_cons, List.flatMap_cons, ih]

theorem events_finishAll (m : Manager) (es : List (Task × TaskResult × Bool)) :
    (m.finishAll es).2 = es.flatMap fun e =>
      (if e.2.2 then m.notify e.1.filter (finishedHook? e.1.kind e.2.1.isOk) else []) ++
        [.reply e.1.number (e.2.1.map Outcome.value)] := by
  induction es generalizing m with
  | nil => rfl
  | cons e es ih =>
    -- to settle a task leaves the observers as they are
    have hsame : ∀ f hook, (m.finish e.1 e.2.1 e.2.2).1.notify f hook = m.notify f hook := fun _ _ => rfl
    simp only [finishAll, List.flatMap_cons, ih, hsame]
    rfl

section
variable {m : Manager} {o : String} (hd : m.observers.Nodup) (ho : o ∈ m.observers) (tasks : List Task)
include hd ho

/-- Who observes is told once. -/
theorem filter_notify (f : SaveFilter) (hook : Option Hook) :
    (m.notify f hook).filter (Event.isFor o tasks) = told o f hook.toList := by
  cases hook with
  | none => rfl
  | some h =>
    have hone : m.observers.filter (fun name => decide (name = o)) = [o] := by
      rw [List.filter_eq, List.count_eq_one_of_mem hd ho]
      rfl
    simp only [notify, List.filter_map]
    change List.map _ (m.observers.filter fun name => decide (name = o)) = _
    rw [hone]
    rfl

theorem heard_sweep (now : Instant) (w : World) (ts : List Task) :
    (m.sweep now w ts).events.filter (Event.isFor o tasks) =
      ts.flatMap fun t => if t.state = .created then told o t.filter (beganHook? t.kind).toList else [] := by
  rw [events_sweep, List.filter_flatMap]
  refine List.flatMap_congr fun t _ => ?_
  split
  · exact filter_notify hd ho tasks ..
  · rfl

/-- Of the tasks that are settled an observer hears about those that save or load. -/
theorem heard_finishAll {es : List (Task × TaskResult × Bool)}
    (hes : ∀ e ∈ es, (tasks.any fun t => t.streams && t.number = e.1.number) = e.1.streams) :
    (m.finishAll es).2.filter (Event.isFor o tasks) = settlings o (es.filter fun e => e.1.streams) := by
  rw [events_finishAll, List.filter_flatMap, settlings]
  induction es with
  | nil => rfl
  | cons e es ih =>
    obtain ⟨he, hes⟩ := List.forall_mem_cons.1 hes
    rw [List.flatMap_cons, ih hes, List.filter_append, List.filter_singleton, Event.isFor, he]
    cases hs : e.1.streams with
    | true =>
      simp only [List.filter_cons, hs, if_true, List.flatMap_cons]
      split <;> simp [filter_notify hd ho]
    | false =>
      simp only [List.filter_cons, hs, (Task.hooks_of_not_streams hs).2]
      split <;> simp [notify]

end

/-- Nothing is heard of the beginning of tasks that lock nothing. -/
theorem began_unlocked {ts : List Task} (h : ∀ t ∈ ts, t.locks = false) (o : String) :
    (ts.flatMap fun t => if t.state = .created then told o t.filter (beganHook? t.kind).toList else []) = [] := by
  refine List.flatMap_eq_nil_iff.2 fun t ht => ?_
  rw [(Task.hooks_of_not_streams (Task.streams_of_unlocked (h t ht))).1]
  split <;> rfl

/-- Nor of their end. -/
theorem settled_unlocked {es : List (Task × TaskResult × Bool)} (h : ∀ e ∈ es, e.1.locks = false) :
    (es.filter fun e => e.1.streams) = [] := by
  refine List.filter_eq_nil_iff.2 fun e he hs => ?_
  rw [Task.streams_of_unlocked (h e he)] at hs
  cases hs

theorem ended_unlocked (m : Manager) (now : Instant) (w : World) {ts : List Task} (h : ∀ t ∈ ts, t.locks = false) :
    ((m.sweep now w ts).ended.filter fun e => e.1.streams) = [] :=
  settled_unlocked (m.sweep_unlocked now w h).2.2.2.2.1

/-- A task as teardown settles it. -/
def cancel (t : Task) : Task × TaskResult × Bool :=
  ({ t with state := .cancelled }, .error .cancelled, t.state == .running)

theorem cancelled_unlocked {ts : List Task} (h : ∀ t ∈ ts, t.locks = false) :
    ((ts.map cancel).filter fun e => e.1.streams) = [] := by
  refine settled_unlocked fun e he => ?_
  obtain ⟨t, ht, rfl⟩ := List.mem_map.1 he
  exact h t ht

/-- Of the tasks that a sweep ends, at most the holder saves or loads. -/
theorem streaming_ended (m : Manager) (now : Instant) (w : World) {before after : List Task} (t : Task)
    (hb : ∀ u ∈ before, u.locks = false) (ha : ∀ u ∈ after, u.locks = false) :
    let a := t.start.advance m.preset now w
    ((m.sweep now w (before ++ t :: after)).ended.filter fun e => e.1.streams) =
      (a.2.2.map fun r => (a.1, r, true)).toList.filter fun e => e.1.streams := by
  intro a
  have hworld : (m.sweep now w before).world = w := (sweep_unlocked m now w hb).2.2.2.2.2
  simp only [sweep_append, sweep_cons, List.filter_append, ended_unlocked m now _ hb, ended_unlocked m now _ ha,
    hworld, List.nil_append, List.append_nil]
  rfl

end Manager

variable {σ : Type} [SlotStore σ]

/-! ## Who observes -/

/-- Whether an observer is subscribed, once, as long as the manager runs. -/
structure Watched (o : String) (g : Game σ) : Prop where
  distinct : g.manager.observers.Nodup
  there : g.manager.running = true → o ∈ g.manager.observers

/-- Only those who subscribe or unsubscribe change who observes, and teardown. -/
theorem Game.observers_step (g : Game σ) {m : Move σ} (hs : ∀ o, m ≠ .subscribe o) (hu : ∀ o, m ≠ .unsubscribe o)
    (hd : m ≠ Move.deinitialize) : (g.step m).manager.observers = g.manager.observers := by
  cases m with
  | request r now =>
    simp only [step]
    split
    · next hreq =>
      obtain ⟨-, -, -, rfl⟩ := Manager.request_ok hreq
      rfl
    · rfl
  | delete slot =>
    obtain ⟨a, he, -⟩ := Manager.deleteSlot_eq g.manager g.store slot
    change (g.manager.deleteSlot g.store slot).2.1.observers = _
    rw [he]
  | tick now =>
    change (g.manager.tick now g.world).1.observers = _
    cases hr : g.manager.running with
    | true => rw [Manager.tick_eq _ _ _ hr]
    | false => rw [Manager.tick_stopped _ _ _ hr]
  | regionReady region =>
    simp only [step]
    rcases g.manager.regionReady_cases region g.world with ⟨r, he, -⟩ | ⟨r, t, job, w', -, -, he⟩ <;> rw [he]
    rfl
  | regionUnloading region =>
    simp only [step]
    rcases g.manager.regionUnloading_cases region g.world with ⟨r, he, -⟩ | ⟨r, t, job, -, -, he⟩ <;> rw [he]
    rfl
  | subscribe o => exact absurd rfl (hs o)
  | unsubscribe o => exact absurd rfl (hu o)
  | deinitialize => exact absurd rfl hd
  | work n =>
    change (g.manager.runWork g.store n).1.observers = _
    unfold Manager.runWork
    split <;> rfl
  | currentInfo | currentData | lose | visit | disturb => rfl

theorem Manager.distinct_subscribe {m : Manager} (h : m.observers.Nodup) (o : String) :
    (m.subscribe o).observers.Nodup ∧ o ∈ (m.subscribe o).observers ∧ ∀ u ∈ m.observers, u ∈ (m.subscribe o).observers := by
  unfold subscribe
  split
  · next hmem => exact ⟨h, by simpa using hmem, fun _ hu => hu⟩
  · next hmem =>
    refine ⟨List.nodup_append.2 ⟨h, List.nodup_singleton o, ?_⟩, by simp, fun u hu => by simp [hu]⟩
    rintro u hu v hv rfl
    rw [List.mem_singleton.1 hv] at hu
    exact hmem (by simpa using hu)

namespace Watched

variable {o : String} {g : Game σ}

/-- Nobody observes twice. -/
theorem distinct_step (h : g.manager.observers.Nodup) (m : Move σ) : (g.step m).manager.observers.Nodup := by
  cases m with
  | subscribe u => exact (Manager.distinct_subscribe h u).1
  | unsubscribe u => exact h.filter _
  | deinitialize =>
    change g.manager.deinitialize.1.observers.Nodup
    cases hr : g.manager.running with
    | true =>
      rw [Manager.deinitialize_eq _ hr]
      exact List.nodup_nil
    | false =>
      rw [Manager.deinitialize_stopped _ hr]
      exact h
  | request | delete | tick | regionReady | regionUnloading | currentInfo | currentData | work | lose | visit
  | disturb =>
    rw [g.observers_step (by simp) (by simp) (by simp)]
    exact h

theorem distinct_run (h : g.manager.observers.Nodup) (ms : List (Move σ)) : (g.run ms).manager.observers.Nodup := by
  induction ms generalizing g with
  | nil => exact h
  | cons m ms ih => exact ih (distinct_step h m)

/-- Whoever does not unsubscribe goes on observing until teardown. -/
theorem step (h : Watched o g) {m : Move σ} (hm : m ≠ .unsubscribe o) : Watched o (g.step m) := by
  refine ⟨distinct_step h.distinct m, fun hr => ?_⟩
  obtain ⟨hrun, hstop⟩ := Orderly.running_of_step hr
  have ho := h.there hrun
  cases m with
  | subscribe u => exact (Manager.distinct_subscribe h.distinct u).2.2 o ho
  | unsubscribe u => exact List.mem_filter.2 ⟨ho, by simpa using fun he : o = u => hm (he ▸ rfl)⟩
  | deinitialize => exact absurd rfl hstop
  | request | delete | tick | regionReady | regionUnloading | currentInfo | currentData | work | lose | visit
  | disturb =>
    rw [g.observers_step (by simp) (by simp) (by simp)]
    exact ho

/-- Whoever subscribes observes. -/
theorem of_subscribe (h : g.manager.observers.Nodup) : Watched o (g.step (.subscribe o)) :=
  ⟨distinct_step h _, fun _ => (Manager.distinct_subscribe h o).2.1⟩

end Watched

/-! ## What is heard in a turn -/

namespace Turn

/-- What an observer is told in a turn, among the replies to saves and loads. -/
def heard (x : Turn σ) (o : String) : List Event := x.events.filter (Event.isFor o x.game.manager.tasks)

/-- Whether a task is ticked in a turn. -/
def ticks (x : Turn σ) (n : Nat) : Bool :=
  match x.move with
  | .tick _ => x.game.manager.tasks.any fun t => t.number = n
  | _ => false

end Turn

/-- What an observer hears of a task that has ended: both hooks if the task was ever ticked, and the reply. -/
def Task.story (o : String) (ticked : Nat → Bool) (t : Task) (reply : Reply) : List Event :=
  (if ticked t.number then told o t.filter (hookPair t.kind (t.state = .succeeded)) else []) ++ [.reply t.number reply]

/-- The story of a save or a load is its beginning, if it is known, and the way it was settled. -/
theorem Task.story_settled {o : String} {ticked : Nat → Bool} {t t' : Task} {r : TaskResult} {known : Bool}
    (hlabel : t'.label = t.label) (hstate : decide (t'.state = .succeeded) = r.isOk)
    (hticked : ticked t.number = known) :
    (if known then told o t.filter (Manager.beganHook? t.kind).toList else []) ++
        settlings o ([(t', r, known)].filter fun e => e.1.streams) =
      ([(t', r, known)].filter fun e => e.1.streams).flatMap fun e => e.1.story o ticked (e.2.1.map Outcome.value) := by
  rw [List.filter_singleton]
  cases hs : t'.streams with
  | true =>
    simp only [story, settlings, number_eq hlabel, filter_eq hlabel, kind_eq hlabel, hticked, hookPair_eq, hstate,
      cond_true, List.flatMap_cons, List.flatMap_nil, List.append_nil]
    cases known <;> simp [told]
  | false =>
    have hnone := (hooks_of_not_streams hs).1
    rw [kind_eq hlabel] at hnone
    cases known <;> simp [hnone, told, settlings]

/-- The stories of some calls, of those for saves and loads. -/
def stories (o : String) (ticked : Nat → Bool) (cs : List Call) : List Event :=
  (cs.filter fun c => c.task.streams).flatMap fun c => c.task.story o ticked c.reply

theorem stories_append (o : String) (ticked : Nat → Bool) (cs cs' : List Call) :
    stories o ticked (cs ++ cs') = stories o ticked cs ++ stories o ticked cs' := by
  simp [stories]

/-- The stories of tasks that are settled. -/
theorem stories_callsOf (o : String) (ticked : Nat → Bool) (m : Manager) (es : List (Task × TaskResult × Bool)) :
    stories o ticked (m.callsOf es) =
      (es.filter fun e => e.1.streams).flatMap fun e => e.1.story o ticked (e.2.1.map Outcome.value) := by
  unfold stories
  induction es generalizing m with
  | nil => rfl
  | cons e es ih =>
    simp only [Manager.callsOf, List.filter_cons]
    split
    · simp only [List.flatMap_cons, ih]
    · exact ih _

/-- The hook whose other half is still to come. -/
def Game.pending (o : String) (g : Game σ) : List Event :=
  match g.manager.holder? with
  | some t => if t.state = .running then told o t.filter (Manager.beganHook? t.kind).toList else []
  | none => []

omit [SlotStore σ] in
theorem Game.pending_idle {g : Game σ} (h : g.manager.tasks = []) (o : String) : g.pending o = [] := by
  rw [pending, Manager.holder?, h]
  rfl

omit [SlotStore σ] in
/-- Without tasks nobody is told anything. -/
theorem Turn.idle {x : Turn σ} (h : x.game.manager.tasks = []) (o : String) : x.heard o = [] ∧ x.calls = [] := by
  obtain ⟨g, m⟩ := x
  obtain ⟨⟨p, running, tasks, active, observers, regions, issued⟩, s, w, adrift⟩ := g
  cases h
  cases m with
  | tick now => cases running <;> exact ⟨rfl, rfl⟩
  | deinitialize => cases running <;> exact ⟨rfl, rfl⟩
  | _ => exact ⟨rfl, rfl⟩

/-- Whether the tasks that end in a turn are told apart as the turn does: those that a tick ends were ticked, and
those that teardown cancels if they run. -/
structure Turn.Counts (x : Turn σ) (ticked : Nat → Bool) : Prop where
  tick : ∀ now t, x.move = .tick now → x.game.manager.holder? = some t → ticked t.number = true
  stop : ∀ t, x.move = Move.deinitialize → x.game.manager.holder? = some t →
    ticked t.number = decide (t.state = .running)

/-- Between ticks the holder stays as it is, as far as observers are concerned. -/
theorem Game.carried_quiet {g : Game σ} (t : Task) {m : Move σ} (htick : ∀ now, m ≠ .tick now)
    (hstop : m ≠ Move.deinitialize) : ∃ t', g.carried t m = some t' ∧ t'.state = t.state := by
  cases m with
  | tick now => exact absurd rfl (htick now)
  | deinitialize => exact absurd rfl hstop
  | work n =>
    refine ⟨_, rfl, ?_⟩
    split <;> rfl
  | lose n =>
    refine ⟨_, rfl, ?_⟩
    split <;> rfl
  | request | delete | regionReady | regionUnloading | subscribe | unsubscribe | currentInfo | currentData | visit
  | disturb =>
    exact ⟨_, rfl, rfl⟩

namespace Orderly

variable {o : String} {g : Game σ} {t : Task}

/-- So nothing is pending that was not pending before. -/
theorem pending_quiet (h : Orderly g) {m : Move σ} (htick : ∀ now, m ≠ .tick now) (hstop : m ≠ Move.deinitialize) :
    (g.step m).pending o = g.pending o := by
  unfold Game.pending
  cases hh : g.manager.holder? with
  | some t =>
    obtain ⟨t', hcarried, hstate⟩ := Game.carried_quiet (g := g) t htick hstop
    have hlabel := Game.label_carried hcarried
    rw [h.holder_step hh, hcarried]
    simp only [hstate, Task.filter_eq hlabel, Task.kind_eq hlabel]
  | none =>
    cases hh' : (g.step m).manager.holder? with
    | none => rfl
    | some t =>
      -- a holder that is new has not begun
      obtain ⟨hmade, -, -⟩ := h.made_of_holder hh hh'
      obtain ⟨r, now, m', -, -, hreq⟩ := Turn.request_of_made hmade
      obtain ⟨-, -, hcreated, -⟩ := Manager.request_ok hreq
      simp [hcreated]

omit [SlotStore σ] in
/-- A number is that of a save or a load on the roster if the task that has it is one. -/
theorem any_streams (h : Orderly g) {e : Task} (he : ∃ u ∈ g.manager.tasks, e.label = u.label) :
    (g.manager.tasks.any fun t => t.streams && t.number = e.number) = e.streams := by
  obtain ⟨u, hu, hlabel⟩ := he
  have hstreams : e.streams = u.streams := by simp only [Task.streams, Task.kind_eq hlabel]
  rw [hstreams, Task.number_eq hlabel]
  cases hs : u.streams with
  | true => exact List.any_eq_true.2 ⟨u, hu, by simp [hs]⟩
  | false =>
    refine List.any_eq_false.2 fun v hv => ?_
    by_cases hn : v.number = u.number
    · rw [List.inj_on_of_nodup_map h.distinct hv hu hn, hs]
      simp
    · simp [hn]

omit [SlotStore σ] in
/-- What is heard in a tick: the tasks that begin, and those that end. -/
theorem heard_tick_eq (h : Orderly g) (hw : Watched o g) (hr : g.manager.running = true) (now : Instant) :
    Turn.heard ⟨g, .tick now⟩ o =
      (g.manager.tasks.flatMap fun t =>
        if t.state = .created then told o t.filter (Manager.beganHook? t.kind).toList else []) ++
      settlings o ((g.manager.sweep now g.world g.manager.tasks).ended.filter fun e => e.1.streams) := by
  have hes : ∀ e ∈ (g.manager.sweep now g.world g.manager.tasks).ended,
      (g.manager.tasks.any fun t => t.streams && t.number = e.1.number) = e.1.streams := by
    intro e he
    obtain ⟨u, hu, w, w', hstep⟩ := Manager.mem_ended he
    refine h.any_streams ⟨u, hu, ?_⟩
    rw [← Task.label_start u, ← Task.label_advance u.start g.manager.preset now w, hstep]
  simp only [Turn.heard, Turn.events, Manager.tick, if_pos hr, List.filter_append]
  rw [Manager.heard_sweep hw.distinct (hw.there hr)]
  let m : Manager :=
    { g.manager with tasks := (g.manager.sweep now g.world g.manager.tasks).tasks.filter fun t => !t.state.isTerminal }
  exact congrArg _ (Manager.heard_finishAll (m := m) hw.distinct (hw.there hr) _ hes)

omit [SlotStore σ] in
/-- What is heard in a teardown: the tasks that are cancelled. -/
theorem heard_stop_eq (h : Orderly g) (hw : Watched o g) (hr : g.manager.running = true) :
    Turn.heard ⟨g, Move.deinitialize⟩ o = settlings o (g.manager.cancelled.filter fun e => e.1.streams) := by
  have hes : ∀ e ∈ g.manager.cancelled,
      (g.manager.tasks.any fun t => t.streams && t.number = e.1.number) = e.1.streams := by
    intro e he
    obtain ⟨u, hu, rfl⟩ := List.mem_map.1 he
    exact h.any_streams ⟨u, hu, rfl⟩
  simp only [Turn.heard, Turn.events, Manager.deinitialize, if_pos hr]
  exact Manager.heard_finishAll (m := { g.manager with running := false, tasks := [] }) hw.distinct (hw.there hr) _ hes

/-- A manager that has stopped tells nobody anything. -/
theorem heard_stopped (h : Orderly g) (hr : g.manager.running = false) (m : Move σ) (ticked : Nat → Bool) :
    g.pending o ++ Turn.heard ⟨g, m⟩ o = stories o ticked (Turn.calls ⟨g, m⟩) ++ (g.step m).pending o := by
  have hafter : (g.step m).manager.running = false := by
    cases hr' : (g.step m).manager.running with
    | false => rfl
    | true =>
      rw [(running_of_step hr').1] at hr
      cases hr
  obtain ⟨hheard, hcalls⟩ := Turn.idle (x := ⟨g, m⟩) (h.stopped hr).1 o
  rw [hheard, hcalls, Game.pending_idle (h.stopped hr).1, Game.pending_idle ((h.step m).stopped hafter).1]
  rfl

omit [SlotStore σ] in
/-- A holder that is under way has begun, or begins now. -/
theorem began_or_begins (h : Orderly g) (ht : g.manager.holder? = some t) (hooks : List Event) :
    ((if t.state = .running then hooks else []) ++ if t.state = .created then hooks else []) = hooks := by
  have hlive := h.live t (List.mem_of_find?_eq_some ht)
  revert hlive
  cases t.state <;> simp [TaskState.isTerminal]

/-- In a tick the holder is heard of as it begins and as it ends. -/
theorem heard_tick (h : Orderly g) (hw : Watched o g) (hr : g.manager.running = true) (now : Instant)
    {ticked : Nat → Bool} (hticked : ∀ t, g.manager.holder? = some t → ticked t.number = true) :
    g.pending o ++ Turn.heard ⟨g, .tick now⟩ o =
      stories o ticked (Turn.calls ⟨g, .tick now⟩) ++ (g.step (.tick now)).pending o := by
  simp only [Turn.calls, Manager.callsOfTick, if_pos hr]
  rw [h.heard_tick_eq hw hr, stories_callsOf, Game.pending]
  cases hh : g.manager.holder? with
  | none =>
    have hafter : (g.step (.tick now)).manager.holder? = none := by
      cases hh' : (g.step (.tick now)).manager.holder? with
      | none => rfl
      | some t => cases (h.made_of_holder hh hh').1
    rw [Game.pending, hafter, Manager.began_unlocked (unlocked_of_none hh),
      Manager.ended_unlocked _ _ _ (unlocked_of_none hh)]
    rfl
  | some t =>
    obtain ⟨-, before, after, htasks, hbefore, hafter⟩ := h.holder_split hh
    have hholder := h.holder_tick hh now
    rw [htasks, List.flatMap_append, List.flatMap_cons, Manager.began_unlocked hbefore, Manager.began_unlocked hafter,
      Manager.streaming_ended _ _ _ _ hbefore hafter, Task.step_eq (h.live t (List.mem_of_find?_eq_some hh))]
    simp only [Game.carried] at hholder
    simp only [List.nil_append, List.append_nil]
    rw [← List.append_assoc, h.began_or_begins hh, Game.pending, hholder]
    generalize hstep : t.job.advance t.filter g.manager.preset now g.world = a
    have hlabel : ∀ state, Task.label { t with job := a.1, state } = t.label :=
      fun state => by simp only [← hstep, Task.label, Job.subject_advance]
    obtain ⟨job, w', _ | r⟩ := a
    · have hkind : Task.kind { t with job, state := .running } = t.kind := Task.kind_eq (hlabel .running)
      simp [settlings, hkind]
    · have hstate : decide (Task.stateAfter (some r) = .succeeded) = r.isOk := by cases r <;> rfl
      simp only [Option.isSome_some, if_true, List.append_nil, Option.map_some, Option.toList_some]
      exact Task.story_settled (hlabel _) hstate (hticked t hh)

omit [SlotStore σ] in
/-- Of the tasks that teardown cancels, at most the holder saves or loads. -/
theorem streaming_cancelled (h : Orderly g) (ht : g.manager.holder? = some t) :
    (g.manager.cancelled.filter fun e => e.1.streams) = [Manager.cancel t].filter fun e => e.1.streams := by
  obtain ⟨-, before, after, htasks, hbefore, hafter⟩ := h.holder_split ht
  change ((g.manager.tasks.map Manager.cancel).filter fun e => e.1.streams) = _
  rw [htasks, List.map_append, List.map_cons, List.filter_append, Manager.cancelled_unlocked hbefore, List.nil_append]
  simp only [List.filter_cons, Manager.cancelled_unlocked hafter, List.filter_nil]

/-- In a teardown the holder is heard of as it ends, if it has begun. -/
theorem heard_stop (h : Orderly g) (hw : Watched o g) (hr : g.manager.running = true) {ticked : Nat → Bool}
    (hticked : ∀ t, g.manager.holder? = some t → ticked t.number = decide (t.state = .running)) :
    g.pending o ++ Turn.heard ⟨g, Move.deinitialize⟩ o =
      stories o ticked (Turn.calls ⟨g, Move.deinitialize⟩) ++ (g.step Move.deinitialize).pending o := by
  rw [Game.pending_idle h.tasks_teardown, List.append_nil]
  simp only [Turn.calls, Manager.callsOfTeardown, if_pos hr]
  rw [h.heard_stop_eq hw hr, stories_callsOf, Game.pending]
  cases hh : g.manager.holder? with
  | none =>
    change [] ++ settlings o ((g.manager.tasks.map Manager.cancel).filter fun e => e.1.streams) =
      ((g.manager.tasks.map Manager.cancel).filter fun e => e.1.streams).flatMap _
    rw [Manager.cancelled_unlocked (unlocked_of_none hh)]
    rfl
  | some t =>
    have hknown : ticked t.number = (t.state == .running) := by
      rw [hticked t hh]
      cases t.state <;> rfl
    have hif : ∀ hooks : List Event, (if t.state = .running then hooks else []) =
        if (t.state == .running) = true then hooks else [] := by
      intro hooks
      cases t.state <;> rfl
    rw [h.streaming_cancelled hh]
    simp only [hif]
    exact Task.story_settled rfl rfl hknown

/-- A turn of a game: what was pending and what is heard are the stories of those who are called back and what is
pending then. -/
theorem heard {x : Turn σ} (h : Orderly x.game) (hw : Watched o x.game) {ticked : Nat → Bool} (hc : x.Counts ticked) :
    x.game.pending o ++ x.heard o = stories o ticked x.calls ++ x.after.pending o := by
  obtain ⟨g, m⟩ := x
  cases hr : g.manager.running with
  | false => exact h.heard_stopped hr m ticked
  | true =>
  by_cases htick : ∃ now, m = .tick now
  · obtain ⟨now, rfl⟩ := htick
    exact h.heard_tick hw hr now fun t ht => hc.tick now t rfl ht
  by_cases hstop : m = Move.deinitialize
  · subst hstop
    exact h.heard_stop hw hr fun t ht => hc.stop t rfl ht
  have hsame := h.pending_quiet (o := o) (fun now hm => htick ⟨now, hm⟩) hstop
  have hquiet : Turn.heard ⟨g, m⟩ o = [] ∧ stories o ticked (Turn.calls ⟨g, m⟩) = [] := by
    cases m with
    | tick now => exact absurd ⟨now, rfl⟩ htick
    | deinitialize => exact absurd rfl hstop
    | _ => exact ⟨rfl, rfl⟩
  rw [hquiet.1, hquiet.2, List.append_nil, List.nil_append]
  exact hsame.symm

end Orderly

/-! ## What is heard in a run -/

/-- What is heard in a run: the stories of those who are called back, but for what was pending in the beginning and is
pending in the end. -/
theorem heard_run {o : String} {g : Game σ} (h : Orderly g) (hw : Watched o g) {ms : List (Move σ)}
    (hno : .unsubscribe o ∉ ms) {ticked : Nat → Bool} (hc : ∀ x ∈ g.trace ms, x.Counts ticked) :
    g.pending o ++ (g.trace ms).flatMap (·.heard o) =
      stories o ticked ((g.trace ms).flatMap Turn.calls) ++ (g.run ms).pending o := by
  induction ms generalizing g with
  | nil => simp [Game.trace, Game.run, stories]
  | cons m ms ih =>
    obtain ⟨hfirst, hrest⟩ := List.forall_mem_cons.1 hc
    have hm : m ≠ .unsubscribe o := fun hm => hno (hm ▸ List.mem_cons_self)
    have hturn := h.heard hw hfirst
    have hrun := ih (h.step m) (hw.step hm) (fun hmem => hno (.tail _ hmem)) hrest
    simp only [Game.trace, List.flatMap_cons, stories_append, List.append_assoc]
    rw [← List.append_assoc, hturn, List.append_assoc]
    exact congrArg _ hrun

/-! ## Which tasks are ticked -/

theorem Manager.filter_request {m m' : Manager} {s : σ} {now : Instant} {r : Request} {t : Task}
    (h : m.request s now r = .ok (t, m')) : t.filter = m.preset.filter := by
  unfold request at h
  cases hj : m.job s r with
  | error e =>
    rw [hj] at h
    cases h
  | ok j =>
    rw [hj] at h
    cases h
    rfl

omit [SlotStore σ] in
theorem Turn.ticks_eq_false {x : Turn σ} (h : ∀ now, x.move ≠ .tick now) (n : Nat) : x.ticks n = false := by
  unfold ticks
  split
  · next now hm => exact absurd hm (h now)
  · rfl

namespace Orderly

variable {g : Game σ} {ms : List (Move σ)}

/-- Before a number is given to a task, none with this number is ticked. -/
theorem not_ticked_before (h : Orderly g) {n : Nat} (hn : (g.run ms).manager.issued ≤ n) :
    (g.trace ms).any (·.ticks n) = false := by
  refine List.any_eq_false.2 fun x hx hticks => ?_
  unfold Turn.ticks at hticks
  split at hticks
  · obtain ⟨t, ht, hnumber⟩ := List.any_eq_true.1 hticks
    have hlt := h.number_lt_of_trace hx ht
    simp only [decide_eq_true_eq] at hnumber
    omega
  · cases hticks

/-- Once the manager has stopped, nothing is ticked. -/
theorem not_ticked_after (h : Orderly g) (hr : g.manager.running = false) (n : Nat) :
    (g.trace ms).any (·.ticks n) = false := by
  refine List.any_eq_false.2 fun x hx hticks => ?_
  have hstopped : x.game.manager.running = false := by
    obtain ⟨before, rest, hs⟩ := List.append_of_mem hx
    obtain ⟨ms₁, ms₂, -, -, hg, -⟩ := Game.trace_split hs
    cases hrun : x.game.manager.running with
    | false => rfl
    | true =>
      rw [hg] at hrun
      rw [running_of_run ms₁ hrun] at hr
      cases hr
  unfold Turn.ticks at hticks
  split at hticks
  · rw [((h.turns hx).stopped hstopped).1] at hticks
    cases hticks
  · cases hticks

variable {p : Preset} {s : σ} {w : World}

/-- A holder has the preset's filter, and runs if it was ever ticked. -/
theorem ticked_of_holder {t : Task} (ht : ((Game.new p s w).run ms).manager.holder? = some t) :
    ((Game.new p s w).trace ms).any (·.ticks t.number) = decide (t.state = .running) ∧ t.filter = p.filter := by
  have h := orderly_new p s w
  refine h.course (P := fun turns t => turns.any (·.ticks t.number) = decide (t.state = .running) ∧
    t.filter = p.filter) ?_ ?_ ?_ ms ht
  · intro t ht
    cases ht
  · intro ms m t hmade hn _
    obtain ⟨r, now, m', hmove, -, hreq⟩ := Turn.request_of_made hmade
    obtain ⟨-, -, hcreated, -⟩ := Manager.request_ok hreq
    have hnot : Turn.ticks ⟨(Game.new p s w).run ms, m⟩ t.number = false :=
      Turn.ticks_eq_false (fun now' hm => by cases hm.symm.trans hmove) _
    refine ⟨?_, (Manager.filter_request hreq).trans (congrArg Preset.filter (preset_run (Game.new p s w) ms))⟩
    rw [List.any_append, h.not_ticked_before (Nat.le_of_eq hn.symm), hcreated]
    simp [hnot]
  · rintro ms m t t' ht hc ⟨hticked, hfilter⟩
    have hlabel := Game.label_carried hc
    rw [Task.number_eq hlabel, Task.filter_eq hlabel, List.any_append, hticked]
    refine ⟨?_, hfilter⟩
    by_cases htick : ∃ now, m = .tick now
    · obtain ⟨now, rfl⟩ := htick
      have hnow : Turn.ticks ⟨(Game.new p s w).run ms, .tick now⟩ t.number = true :=
        List.any_eq_true.2 ⟨t, List.mem_of_find?_eq_some ht, by simp⟩
      have hruns : t'.state = .running := by
        simp only [Game.carried] at hc
        split at hc <;> cases hc
        rfl
      simp [hnow, hruns]
    · have hstop : m ≠ Move.deinitialize := by
        rintro rfl
        cases hc
      obtain ⟨t'', hcarried, hstate⟩ := Game.carried_quiet (g := (Game.new p s w).run ms) t
        (fun now hm => htick ⟨now, hm⟩) hstop
      cases hc.symm.trans hcarried
      have hnot : Turn.ticks ⟨(Game.new p s w).run ms, m⟩ t.number = false :=
        Turn.ticks_eq_false (fun now hm => htick ⟨now, hm⟩) _
      simp [hnot, hstate]

/-- A task that ends in a turn was ticked if the turn ticks it, or if it runs by then; once it is cancelled it is not
ticked any more. -/
theorem counts {x : Turn σ} (hx : x ∈ (Game.new p s w).trace ms) :
    x.Counts fun n => ((Game.new p s w).trace ms).any (·.ticks n) := by
  have h := orderly_new p s w
  refine ⟨fun now t hm ht => List.any_eq_true.2 ⟨x, hx, ?_⟩, fun t hm ht => ?_⟩
  · unfold Turn.ticks
    rw [hm]
    exact List.any_eq_true.2 ⟨t, List.mem_of_find?_eq_some ht, by simp⟩
  · obtain ⟨before, rest, hs⟩ := List.append_of_mem hx
    obtain ⟨ms₁, ms₂, -, rfl, hg, rfl⟩ := Game.trace_split hs
    have hstopped : x.after.manager.running = false := by
      rw [Turn.after, hm]
      change x.game.manager.deinitialize.1.running = false
      rw [Manager.deinitialize_eq _ ((h.turns hx).running_of_holder ht)]
    have hafter : Orderly x.after := (h.turns hx).step x.move
    rw [hs, List.any_append, List.any_cons, (ticked_of_holder (hg ▸ ht)).1, Turn.ticks_eq_false (by simp [hm]),
      hafter.not_ticked_after hstopped]
    simp

end Orderly

/-! ## Before the first request -/

section
variable {p : Preset} {s : σ} {w : World} {ms : List (Move σ)}

/-- There are no tasks before the first request. -/
theorem tasks_before (hno : ∀ m ∈ ms, ∀ r now, m ≠ .request r now) :
    ((Game.new p s w).run ms).manager.tasks = [] := by
  have hmade : ∀ x ∈ (Game.new p s w).trace ms, x.made? = none := by
    intro x hx
    cases hm : x.made? with
    | none => rfl
    | some t =>
      obtain ⟨r, now, m, hmove, -⟩ := Turn.request_of_made hm
      obtain ⟨before, rest, hs⟩ := List.append_of_mem hx
      obtain ⟨ms₁, ms₂, rfl, -⟩ := Game.trace_split hs
      exact absurd hmove (hno _ (by simp) r now)
  have hb := balance_labels (orderly_new p s w) ms
  rw [List.filterMap_eq_nil_iff.2 hmade] at hb
  have hnil := List.Perm.eq_nil hb
  simpa using (List.append_eq_nil_iff.1 hnil).2

/-- So there is nothing to hear. -/
theorem heard_before (hno : ∀ m ∈ ms, ∀ r now, m ≠ .request r now) (o : String) :
    ∀ x ∈ (Game.new p s w).trace ms, x.heard o = [] ∧ x.calls = [] := by
  intro x hx
  obtain ⟨before, rest, hs⟩ := List.append_of_mem hx
  obtain ⟨ms₁, ms₂, rfl, -, hg, -⟩ := Game.trace_split hs
  exact Turn.idle (by rw [hg]; exact tasks_before fun m hm => hno m (by simp [hm])) o

/-! ## Main theorem -/

/-- Whoever subscribes before the first request, and does not unsubscribe, hears the stories of all saves and loads of
a run that teardown ends. -/
theorem heard_stories {ms₁ ms₂ : List (Move σ)} {o : String} (hfirst : ∀ m ∈ ms₁, ∀ r now, m ≠ .request r now)
    (hstays : .unsubscribe o ∉ ms₂) {turns : List (Turn σ)}
    (hturns : turns = (Game.new p s w).trace (ms₁ ++ .subscribe o :: ms₂ ++ [Move.deinitialize])) :
    turns.flatMap (·.heard o) = stories o (fun n => turns.any (·.ticks n)) (turns.flatMap Turn.calls) := by
  have h := orderly_new p s w
  let g := ((Game.new p s w).run ms₁).step (.subscribe o)
  have hsplit : turns = (Game.new p s w).trace ms₁ ++
      ⟨(Game.new p s w).run ms₁, .subscribe o⟩ :: g.trace (ms₂ ++ [Move.deinitialize]) := by
    rw [hturns, List.append_assoc, Game.trace_append]
    rfl
  have hg : Orderly g := (h.run ms₁).step _
  have hw : Watched o g := .of_subscribe (Watched.distinct_run List.nodup_nil ms₁)
  have hcounts : ∀ x ∈ g.trace (ms₂ ++ [Move.deinitialize]), x.Counts fun n => turns.any (·.ticks n) := by
    intro x hx
    have hmem : x ∈ turns := by
      rw [hsplit]
      exact List.mem_append_right _ (.tail _ hx)
    rw [hturns] at hmem ⊢
    exact Orderly.counts hmem
  have hrun := heard_run hg hw (by simpa using hstays) hcounts
  -- nothing is pending in the beginning, and nothing after teardown
  have hstart : g.manager.tasks = [] := by
    change (((Game.new p s w).run ms₁).manager.subscribe o).tasks = []
    unfold Manager.subscribe
    split <;> exact tasks_before hfirst
  have hend : (g.run (ms₂ ++ [Move.deinitialize])).manager.tasks = [] := by
    rw [Game.run_append]
    exact (hg.run ms₂).tasks_teardown
  rw [Game.pending_idle hstart, Game.pending_idle hend, List.nil_append, List.append_nil] at hrun
  have hquiet := heard_before (p := p) (s := s) (w := w) hfirst o
  have hheard : turns.flatMap (·.heard o) = (g.trace (ms₂ ++ [Move.deinitialize])).flatMap (·.heard o) := by
    rw [hsplit, List.flatMap_append, List.flatMap_eq_nil_iff.2 fun x hx => (hquiet x hx).1]
    rfl
  have hcalls : turns.flatMap Turn.calls = (g.trace (ms₂ ++ [Move.deinitialize])).flatMap Turn.calls := by
    rw [hsplit, List.flatMap_append, List.flatMap_eq_nil_iff.2 fun x hx => (hquiet x hx).2]
    rfl
  rw [hheard, hcalls]
  exact hrun

/-- Saves and loads that are called back have the preset's filter. -/
theorem filter_of_called {x : Turn σ} (hx : x ∈ (Game.new p s w).trace ms) {c : Call} (hc : c ∈ x.calls)
    (hs : c.task.streams = true) : c.task.filter = p.filter := by
  have ho := (orderly_new p s w).turns hx
  obtain ⟨before, rest, hsplit⟩ := List.append_of_mem hx
  obtain ⟨ms₁, ms₂, -, -, hg, -⟩ := Game.trace_split hsplit
  obtain ⟨u, hu, hlabel, -⟩ := (Turn.settles ho hc).was
  have hlocks : u.locks = true := (Task.locks_eq hlabel).trans (Task.locks_of_streams hs)
  rw [← Task.filter_eq hlabel]
  exact (Orderly.ticked_of_holder (hg ▸ ho.holder_of_locks hu hlocks)).2

/-- The saves and loads that are called back in a run that teardown ends are those that requests have made. -/
theorem streams_called (ms : List (Move σ)) :
    let turns := (Game.new p s w).trace (ms ++ [Move.deinitialize])
    (((turns.flatMap Turn.calls).filter fun c => c.task.streams).map fun c => c.task.number).Perm
      (((turns.filterMap Turn.made?).filter Task.streams).map Task.number) := by
  intro turns
  have h := orderly_new p s w
  have hempty : ((Game.new p s w).run (ms ++ [Move.deinitialize])).manager.tasks = [] := by
    rw [Game.run_append]
    exact (h.run ms).tasks_teardown
  -- whether a task saves or loads is written on its label
  let streams : Nat × SaveFilter × TaskKind × Option SlotId → Bool := fun l => l.2.2.1 = .save || l.2.2.1 = .load
  have hb := balance_labels h (ms ++ [Move.deinitialize])
  rw [hempty, List.map_nil, List.append_nil] at hb
  have hnumbers := (hb.filter streams).map Prod.fst
  change List.Perm _ (List.map Prod.fst (List.filter streams (List.map Task.label _))) at hnumbers
  rw [List.filter_map, List.filter_map, List.map_map, List.map_map] at hnumbers
  exact hnumbers

/-- In a run that teardown ends, an observer that subscribes before the first request and does not unsubscribe hears
of every save and every load, one after the other: the hook of its beginning and that of its end, which says whether
it has succeeded, if the task was ever ticked, both with the preset's filter, and then comes the reply. It hears of
nothing else. -/
theorem hooks_balanced (p : Preset) (s : σ) (w : World) {ms₁ ms₂ : List (Move σ)} {o : String}
    (hfirst : ∀ m ∈ ms₁, ∀ r now, m ≠ .request r now) (hstays : .unsubscribe o ∉ ms₂) :
    let turns := (Game.new p s w).trace (ms₁ ++ .subscribe o :: ms₂ ++ [Move.deinitialize])
    let ended := (turns.flatMap Turn.calls).filter fun c => c.task.streams
    (ended.map fun c => c.task.number).Nodup ∧
      (ended.map fun c => c.task.number).Perm
        (((turns.filterMap Turn.made?).filter Task.streams).map Task.number) ∧
      turns.flatMap (·.heard o) = ended.flatMap fun c =>
        (if turns.any (·.ticks c.task.number) then
          (hookPair c.task.kind (c.task.state = .succeeded)).map fun h => .hook o h p.filter
        else []) ++ [.reply c.task.number c.reply] := by
  intro turns ended
  have hperm := streams_called (p := p) (s := s) (w := w) (ms₁ ++ .subscribe o :: ms₂)
  have hdistinct : (((turns.filterMap Turn.made?).filter Task.streams).map Task.number).Nodup := by
    have hmade : (made turns).Nodup := by
      rw [made_eq]
      exact List.nodup_range'
    exact hmade.sublist (List.filter_sublist.map _)
  refine ⟨hperm.nodup_iff.2 hdistinct, hperm, ?_⟩
  have hturns : turns = (Game.new p s w).trace (ms₁ ++ .subscribe o :: ms₂ ++ [Move.deinitialize]) := rfl
  rw [heard_stories hfirst hstays hturns]
  refine List.flatMap_congr fun c hc => ?_
  obtain ⟨hcall, hstreams⟩ := List.mem_filter.1 hc
  obtain ⟨x, hx, hcx⟩ := List.mem_flatMap.1 hcall
  rw [Task.story, told, filter_of_called hx hcx hstreams]

end

/-- A save that succeeds, a listing, a load that teardown cancels, and an observer that subscribes twice. -/
def watching : List (Move MemoryStore) :=
  [.request (.save 1 false none) .epoch, .tick .epoch, .work 0, .subscribe "hud", .tick .epoch,
    .request (.infos false) .epoch, .request (.load 1) .epoch, .tick .epoch]

/-- The observer is told of both, once. -/
theorem hooks_balanced_twice :
    let turns := (Game.new .default MemoryStore.empty (World.new "harbor")).trace
      ([] ++ .subscribe "hud" :: watching ++ [Move.deinitialize])
    (turns.flatMap (·.heard "hud")).filterMap Event.hook? =
      [.saveBegan, .saveFinished true, .loadBegan, .loadFinished false] := by
  intro turns
  have hstays : Move.unsubscribe "hud" ∉ watching := by simp [watching]
  obtain ⟨-, -, hheard⟩ :=
    @hooks_balanced MemoryStore _ .default .empty (World.new "harbor") [] watching "hud" (by simp) hstays
  rw [hheard]
  decide +kernel

end SaveSlots
