import SaveSlots.Proofs.Roster
/-!
# Callbacks

Whoever makes a request that is accepted is called back exactly once, and nobody else is (`Answered`).

The idea is a balance of tasks: at every turn the tasks on the roster and the requests accepted make up
the tasks on the roster afterwards and the calls (`Turn.balance`). Over a run the calls and the roster are
a permutation of the requests accepted (`balance`), and teardown empties the roster. `answered` is the
main theorem.
-/

namespace SaveSlots

/-! ## Runs and their turns -/

namespace Game

variable {σ : Type} [SlotStore σ]

theorem run_append (g : Game σ) (ms ms' : List (Move σ)) : g.run (ms ++ ms') = (g.run ms).run ms' :=
  List.foldl_append

theorem trace_append (g : Game σ) (ms ms' : List (Move σ)) :
    g.trace (ms ++ ms') = g.trace ms ++ (g.run ms).trace ms' := by
  induction ms generalizing g with
  | nil => rfl
  | cons m ms ih => simp only [List.cons_append, trace, ih]; rfl

/-- A turn of a run, those before it and those behind it. -/
theorem trace_split {g : Game σ} {ms : List (Move σ)} {before rest : List (Turn σ)} {t : Turn σ}
    (h : g.trace ms = before ++ t :: rest) :
    ∃ ms₁ ms₂, ms = ms₁ ++ t.move :: ms₂ ∧ before = g.trace ms₁ ∧ t.game = g.run ms₁ ∧
      rest = t.after.trace ms₂ := by
  induction before generalizing g ms with
  | nil =>
    cases ms with
    | nil => cases h
    | cons m ms =>
      obtain ⟨rfl, rfl⟩ := List.cons.inj h
      exact ⟨[], ms, rfl, rfl, rfl, rfl⟩
  | cons u before ih =>
    cases ms with
    | nil => cases h
    | cons m ms =>
      obtain ⟨rfl, hrest⟩ := List.cons.inj h
      obtain ⟨ms₁, ms₂, rfl, rfl, hg, hrest⟩ := ih hrest
      exact ⟨m :: ms₁, ms₂, rfl, rfl, hg, hrest⟩

end Game

/-- Every turn of a run begins in an orderly game. -/
theorem Orderly.turns {σ : Type} [SlotStore σ] {g : Game σ} (h : Orderly g) {ms : List (Move σ)}
    {t : Turn σ} (ht : t ∈ g.trace ms) : Orderly t.game := by
  obtain ⟨before, rest, hs⟩ := List.append_of_mem ht
  obtain ⟨ms₁, _, -, -, hg, -⟩ := Game.trace_split hs
  rw [hg]
  exact h.run ms₁

/-! ## The calls of a turn -/

theorem ok_of_isOk {ε α : Type} {x : Except ε α} (h : x.isOk = true) : ∃ a, x = .ok a := by
  cases x with
  | ok a => exact ⟨a, rfl⟩
  | error e => cases h

namespace Manager

theorem callsOf_task (m : Manager) (es : List (Task × TaskResult × Bool)) :
    (m.callsOf es).map Call.task = es.map Prod.fst := by
  induction es generalizing m with
  | nil => rfl
  | cons e es ih => simp only [callsOf, List.map_cons, ih]

/-- Settling tasks does not put any back on the roster. -/
theorem mem_callsOf {m : Manager} {es : List (Task × TaskResult × Bool)} {c : Call}
    (h : c ∈ m.callsOf es) :
    c.manager.tasks = m.tasks ∧ ∃ e ∈ es, c.task = e.1 ∧ c.reply = e.2.1.map Outcome.value := by
  induction es generalizing m with
  | nil => cases h
  | cons e es ih =>
    rcases List.mem_cons.1 h with rfl | h
    · exact ⟨rfl, e, by simp, rfl, rfl⟩
    · obtain ⟨ht, e', he, hc⟩ := ih h
      exact ⟨ht, e', by simp [he], hc⟩

theorem replies_notify (m : Manager) (f : SaveFilter) (hook : Option Hook) :
    (m.notify f hook).filterMap Event.reply? = [] := by
  unfold notify
  split
  · simp [List.filterMap_map, Function.comp_def, Event.reply?]
  · rfl

theorem replies_sweep (m : Manager) (now : Instant) (w : World) (ts : List Task) :
    (m.sweep now w ts).events.filterMap Event.reply? = [] := by
  induction ts generalizing w with
  | nil => rfl
  | cons t ts ih =>
    simp only [sweep_cons, List.filterMap_append, ih, List.append_nil]
    split
    · exact replies_notify ..
    · rfl

theorem replies_finishAll (m : Manager) (es : List (Task × TaskResult × Bool)) :
    (m.finishAll es).2.filterMap Event.reply? = (m.callsOf es).map fun c => (c.task.number, c.reply) := by
  induction es generalizing m with
  | nil => rfl
  | cons e es ih =>
    have hf : (m.finish e.1 e.2.1 e.2.2).2.filterMap Event.reply? =
        [(e.1.number, e.2.1.map Outcome.value)] := by
      simp only [finish, List.filterMap_append]
      split
      · rw [replies_notify]
        rfl
      · rfl
    simp only [finishAll, callsOf, List.filterMap_append, List.map_cons, ih, hf]
    rfl

end Manager

namespace Turn

variable {σ : Type} {t : Turn σ}

theorem told (t : Turn σ) :
    t.events.filterMap Event.reply? = t.calls.map fun c => (c.task.number, c.reply) := by
  unfold events calls
  split
  · next now _ =>
    unfold Manager.tick Manager.callsOfTick
    split
    · simp only [List.filterMap_append, Manager.replies_sweep, List.nil_append, Manager.replies_finishAll]
    · rfl
  · unfold Manager.deinitialize Manager.callsOfTeardown
    split
    · simp only [Manager.replies_finishAll, Manager.cancelled]
    · rfl
  · rfl

/-- Only a manager that runs calls back. -/
theorem running_of_call {c : Call} (hc : c ∈ t.calls) :
    t.game.manager.running = true := by
  cases hr : t.game.manager.running with
  | true => rfl
  | false =>
    unfold calls at hc
    split at hc
    · simp [Manager.callsOfTick, hr] at hc
    · simp [Manager.callsOfTeardown, hr] at hc
    · cases hc

/-- The tasks that are called back in a tick are those that it ends. -/
theorem called_tick (h : Orderly t.game) {now : Instant} (hm : t.move = .tick now) :
    t.calls.map Call.task = (t.game.manager.swept now t.game.world).filter fun u => u.state.isTerminal := by
  simp only [calls, hm, Manager.callsOfTick, Manager.swept]
  split
  · rw [Manager.callsOf_task, Manager.ended_sweep h.live]
  · rfl

theorem called_teardown (hm : t.move = Move.deinitialize) :
    t.calls.map Call.task =
      if t.game.manager.running then t.game.manager.tasks.map fun u => { u with state := .cancelled }
      else [] := by
  simp only [calls, hm, Manager.callsOfTeardown]
  split
  · rw [Manager.callsOf_task, Manager.cancelled, List.map_map]
    rfl
  · rfl

/-- How it comes that a callback is called. The task was under way before, and is off the roster by the time
of the call. Either a tick ends the task, and the reply says whether it succeeded, or teardown cancels it. -/
structure Settles (t : Turn σ) (c : Call) : Prop where
  gone : c.task.number ∉ c.manager.tasks.map Task.number
  was : ∃ u ∈ t.game.manager.tasks, u.label = c.task.label ∧ (u.state = .created ∨ u.state = .running)
  how :
    (∃ now, t.move = .tick now ∧ c.task ∈ t.game.manager.swept now t.game.world ∧
      c.task.state = if c.reply.isOk then .succeeded else .failed) ∨
    (t.move = Move.deinitialize ∧ c.task.state = .cancelled ∧ c.reply = .error .cancelled)

theorem settles_tick (h : Orderly t.game) {now : Instant} (hm : t.move = .tick now) {c : Call}
    (hc : c ∈ t.calls) : t.Settles c := by
  have hswept : c.task ∈ (t.game.manager.swept now t.game.world).filter fun u => u.state.isTerminal := by
    rw [← called_tick h hm]
    exact List.mem_map_of_mem hc
  obtain ⟨hin, hterm⟩ := List.mem_filter.1 hswept
  simp only [calls, hm, Manager.callsOfTick] at hc
  split at hc
  · next hr =>
    obtain ⟨hroster, e, he, htask, hreply⟩ := Manager.mem_callsOf hc
    obtain ⟨u, hu, w, w', hstep⟩ := Manager.mem_ended he
    have hlive := h.live u hu
    have hlabel : u.label = c.task.label := by
      rw [htask, ← Task.label_start u, ← Task.label_advance u.start t.game.manager.preset now w, hstep]
    refine ⟨?_, ⟨u, hu, hlabel, ?_⟩, .inl ⟨now, hm, hin, ?_⟩⟩
    · intro hmem
      -- a task that has ended is told apart by its number from those that have not
      rw [hroster] at hmem
      obtain ⟨v, hv, hn⟩ := List.mem_map.1 hmem
      obtain ⟨hvin, hvlive⟩ := List.mem_filter.1 hv
      rw [← Manager.swept_of_running hr] at hvin
      have hd : ((t.game.manager.swept now t.game.world).map Task.number).Nodup := by
        rw [Orderly.map_number, h.labels_swept, ← Orderly.map_number]
        exact h.distinct
      have hvc : v = c.task := List.inj_on_of_nodup_map hd hvin hin hn
      rw [hvc, hterm] at hvlive
      cases hvlive
    · revert hlive
      cases u.state <;> simp [TaskState.isTerminal]
    · have hs := Task.state_step hlive t.game.manager.preset now w
      rw [hstep] at hs
      rw [htask, hreply, hs]
      cases e.2.1 <;> rfl
  · cases hc

theorem settles_teardown (h : Orderly t.game) (hm : t.move = Move.deinitialize) {c : Call} (hc : c ∈ t.calls) :
    t.Settles c := by
  simp only [calls, hm, Manager.callsOfTeardown] at hc
  split at hc
  · obtain ⟨hroster, e, he, htask, hreply⟩ := Manager.mem_callsOf hc
    obtain ⟨u, hu, rfl⟩ := List.mem_map.1 he
    have hlive := h.live u hu
    refine ⟨by simp [hroster], ⟨u, hu, by rw [htask]; rfl, ?_⟩, .inr ⟨hm, by rw [htask], hreply⟩⟩
    revert hlive
    cases u.state <;> simp [TaskState.isTerminal]
  · cases hc

theorem settles (h : Orderly t.game) {c : Call} (hc : c ∈ t.calls) : t.Settles c := by
  obtain ⟨g, m⟩ := t
  cases m with
  | tick now => exact settles_tick h rfl hc
  | deinitialize => exact settles_teardown h rfl hc
  | _ => cases hc

variable [SlotStore σ]

/-- The number of the task that a turn makes. -/
def numbers (t : Turn σ) : List Nat := (t.made?.map Task.number).toList

/-- The tasks of a roster and those that a turn makes are those of the roster afterwards and those that are
called back. -/
theorem balance (h : Orderly t.game) :
    (t.calls.map (fun c => c.task.label) ++ t.after.manager.tasks.map Task.label).Perm
      (t.game.manager.tasks.map Task.label ++ (t.made?.map Task.label).toList) := by
  -- most moves call nobody back and make no task, and leave the labels on the roster as they are
  have hquiet : t.calls = [] → t.made? = none →
      t.after.manager.tasks.map Task.badge = t.game.manager.tasks.map Task.badge →
      (t.calls.map (fun c => c.task.label) ++ t.after.manager.tasks.map Task.label).Perm
        (t.game.manager.tasks.map Task.label ++ (t.made?.map Task.label).toList) := by
    intro hc hn hb
    rw [hc, hn, Orderly.map_label, hb, ← Orderly.map_label]
    exact .of_eq (List.append_nil _).symm
  obtain ⟨g, m⟩ := t
  cases m with
  | request r now =>
    cases hq : g.manager.request g.store now r with
    | error e =>
      exact hquiet rfl (by simp [made?, hq, Except.toOption]) (by simp [after, Game.step, hq])
    | ok tm =>
      obtain ⟨task, m⟩ := tm
      obtain ⟨-, -, -, rfl⟩ := Manager.request_ok hq
      simp [calls, made?, after, Game.step, hq, Except.toOption]
  | tick now =>
    let u : Turn σ := ⟨g, .tick now⟩
    have hc : u.calls.map (fun c => c.task.label) =
        ((g.manager.swept now g.world).filter fun u => u.state.isTerminal).map Task.label := by
      rw [← u.called_tick h rfl, List.map_map]
      rfl
    -- a sweep splits the roster into the tasks that have ended and those that have not
    rw [hc, after, h.tasks_tick, ← List.map_append, ← h.labels_swept now g.world, show u.made? = none from rfl]
    exact ((List.filter_append_perm _ _).map _).trans (.of_eq (List.append_nil _).symm)
  | deinitialize =>
    let u : Turn σ := ⟨g, Move.deinitialize⟩
    have hc : u.calls.map (fun c => c.task.label) = (u.calls.map Call.task).map Task.label := by
      rw [List.map_map]
      rfl
    rw [hc, u.called_teardown rfl, show u.made? = none from rfl]
    change (_ ++ g.manager.deinitialize.1.tasks.map Task.label).Perm (g.manager.tasks.map Task.label ++ [])
    cases hr : g.manager.running with
    | true =>
      have hsame : ∀ t : Task, Task.label { t with state := .cancelled } = t.label := fun _ => rfl
      simp [u, hr, Manager.deinitialize_eq, Function.comp_def, hsame]
    | false => simp [hr, Manager.deinitialize_stopped]
  | delete slot =>
    obtain ⟨a, he, -⟩ := Manager.deleteSlot_eq g.manager g.store slot
    exact hquiet rfl rfl (congrArg (fun m => m.tasks.map Task.badge) he)
  | regionReady region => exact hquiet rfl rfl (Manager.badges_regionReady h.distinct region g.world)
  | regionUnloading region => exact hquiet rfl rfl (Manager.badges_regionUnloading h.distinct region g.world)
  | subscribe name => exact hquiet rfl rfl (by simp only [after, Game.step, Manager.subscribe]; split <;> rfl)
  | work n => exact hquiet rfl rfl (Manager.badges_runWork h.distinct g.store n)
  | lose n => exact hquiet rfl rfl (Manager.badges_loseWork g.manager n)
  | unsubscribe | currentInfo | currentData | visit | disturb => exact hquiet rfl rfl rfl

/-- New tasks have the next number. -/
theorem numbers_eq (t : Turn σ) :
    t.numbers = List.range' t.game.manager.issued t.numbers.length ∧
      t.after.manager.issued = t.game.manager.issued + t.numbers.length := by
  have hnone : (∀ r now, t.move ≠ .request r now) → t.numbers = [] := by
    intro hm
    unfold numbers made?
    split
    · next r now h => exact absurd h (hm r now)
    · rfl
  by_cases hm : ∀ r now, t.move ≠ .request r now
  · rw [hnone hm]
    exact ⟨rfl, Orderly.issued_step t.game hm⟩
  · obtain ⟨g, m⟩ := t
    simp only [not_forall, ne_eq, not_not] at hm
    obtain ⟨r, now, rfl⟩ := hm
    cases hq : g.manager.request g.store now r with
    | error e => simp [numbers, made?, after, Game.step, hq, Except.toOption]
    | ok tm =>
      obtain ⟨task, m⟩ := tm
      obtain ⟨-, hn, -, rfl⟩ := Manager.request_ok hq
      simp [numbers, made?, after, Game.step, hq, hn, Except.toOption]

end Turn

/-! ## The calls of a run -/

variable {σ : Type}

/-- The numbers of the tasks whose callers are called back in some turns. -/
def called (turns : List (Turn σ)) : List Nat := (turns.flatMap Turn.calls).map fun c => c.task.number

variable [SlotStore σ]

/-- The numbers of the tasks that are made in some turns. -/
def made (turns : List (Turn σ)) : List Nat := (turns.filterMap Turn.made?).map Task.number

theorem made_cons (t : Turn σ) (turns : List (Turn σ)) : made (t :: turns) = t.numbers ++ made turns := by
  unfold made Turn.numbers
  rw [List.filterMap_cons]
  split
  · next h => simp [h]
  · next h => simp [h]

/-- Over a run the calls and the roster balance the requests that were accepted. -/
theorem balance_labels {g : Game σ} (h : Orderly g) (ms : List (Move σ)) :
    (((g.trace ms).flatMap Turn.calls).map (fun c => c.task.label) ++
      (g.run ms).manager.tasks.map Task.label).Perm
    (g.manager.tasks.map Task.label ++ ((g.trace ms).filterMap Turn.made?).map Task.label) := by
  induction ms generalizing g with
  | nil => simp [Game.trace, Game.run]
  | cons m ms ih =>
    let t : Turn σ := ⟨g, m⟩
    have hmade : ((t :: (g.step m).trace ms).filterMap Turn.made?).map Task.label =
        (t.made?.map Task.label).toList ++ (((g.step m).trace ms).filterMap Turn.made?).map Task.label := by
      rw [List.filterMap_cons]
      cases t.made? <;> rfl
    rw [Game.trace, List.flatMap_cons, hmade, List.map_append, List.append_assoc,
      ← List.append_assoc (g.manager.tasks.map _)]
    refine ((ih (h.step m)).append_left _).trans ?_
    rw [← List.append_assoc]
    exact (t.balance h).append_right _

/-- So do their numbers. -/
theorem balance {g : Game σ} (h : Orderly g) (ms : List (Move σ)) :
    (called (g.trace ms) ++ (g.run ms).manager.tasks.map Task.number).Perm
      (g.manager.tasks.map Task.number ++ made (g.trace ms)) := by
  have hnumbers := (balance_labels h ms).map Prod.fst
  simp only [List.map_append, List.map_map] at hnumbers
  exact hnumbers

theorem made_eq (g : Game σ) (ms : List (Move σ)) :
    made (g.trace ms) = List.range' g.manager.issued (made (g.trace ms)).length := by
  induction ms generalizing g with
  | nil => rfl
  | cons m ms ih =>
    let t : Turn σ := ⟨g, m⟩
    obtain ⟨hn, hi⟩ := t.numbers_eq
    rw [Game.trace, made_cons, List.length_append, ← List.range'_append_1, ← hn]
    congr 1
    rw [← hi]
    exact ih _

/-- After teardown there are no tasks. -/
theorem Orderly.tasks_teardown {g : Game σ} (h : Orderly g) : (g.step Move.deinitialize).manager.tasks = [] := by
  change g.manager.deinitialize.1.tasks = []
  cases hr : g.manager.running with
  | true => rw [Manager.deinitialize_eq _ hr]
  | false =>
    rw [Manager.deinitialize_stopped _ hr]
    exact (h.stopped hr).1

/-- What callers can rely on in a run. -/
structure Answered (turns : List (Turn σ)) : Prop where
  /-- The replies that the host is told are those of the calls. -/
  told : ∀ t ∈ turns, t.events.filterMap Event.reply? = t.calls.map fun c => (c.task.number, c.reply)
  /-- Accepted requests are told apart. -/
  distinct : (made turns).Nodup
  /-- The callers of all accepted requests are called back once each, and nobody else is. -/
  once : (called turns).Perm (made turns)
  /-- Nobody is called back before the request was accepted. -/
  later : ∀ before t rest, turns = before ++ t :: rest → ∀ c ∈ t.calls, c.task.number ∈ made before
  /-- Every call is that of a task that ends then and there. -/
  settled : ∀ t ∈ turns, ∀ c ∈ t.calls, t.Settles c

/-- In every run that teardown ends, whatever else happens in it, the caller of every accepted request is
called back exactly once: by the tick that ends the task, or by teardown. -/
theorem answered (p : Preset) (s : σ) (w : World) (ms : List (Move σ)) :
    Answered ((Game.new p s w).trace (ms ++ [Move.deinitialize])) := by
  have h := orderly_new p s w
  have hempty : ((Game.new p s w).run (ms ++ [Move.deinitialize])).manager.tasks = [] := by
    rw [Game.run_append]
    exact (h.run ms).tasks_teardown
  refine ⟨fun t _ => t.told, ?_, ?_, ?_, ?_⟩
  · rw [made_eq]
    exact List.nodup_range'
  · have hb := balance h (ms ++ [Move.deinitialize])
    rw [hempty] at hb
    simpa [Game.new, Manager.new] using hb
  · intro before t rest hs c hc
    obtain ⟨ms₁, ms₂, -, rfl, hg, -⟩ := Game.trace_split hs
    have hb := balance h ms₁
    obtain ⟨u, hu, hlabel, -⟩ := (Turn.settles (hg ▸ h.run ms₁) hc).was
    rw [hg] at hu
    have hmem := hb.subset (List.mem_append_right _ (List.mem_map_of_mem (f := Task.number) hu))
    rw [← Task.number_eq hlabel]
    simpa [Game.new, Manager.new] using hmem
  · intro t ht c hc
    exact Turn.settles (h.turns ht) hc

end SaveSlots
