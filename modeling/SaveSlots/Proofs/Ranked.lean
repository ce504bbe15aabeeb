import SaveSlots.Proofs.Alike
/-!
# What is told of tasks that do more than list

The numbers of tasks count listings too. Who does not list knows a task by the place of its request among those that do
more than list, and hears nothing of the others (`Event.seen?`). In a game that is `Ranked` the holder has the last
place so far and listings have none; every turn keeps that (`Ranked.step`). So what is told in a tick or in teardown is
told of the holder.
-/

namespace SaveSlots

variable {σ : Type}

/-- An event for those who do not list: `asked` are the numbers of the tasks that do more than list, in the order of
their requests. -/
def Event.seen? (asked : List Nat) : Event → Option Event
  | .hook o h f => some (.hook o h f)
  | .reply n r => (asked.idxOf? n).map fun k => .reply k r

/-- What is told in a turn to those who do not list. -/
def Turn.news (x : Turn σ) (asked : List Nat) : List Event := x.events.filterMap (Event.seen? asked)

/-- The number of the task that a turn makes, unless it only lists. -/
def Turn.asks [SlotStore σ] (x : Turn σ) : List Nat := ((x.made?.filter Task.locks).map Task.number).toList

/-! ## Places -/

theorem idxOf_concat {l : List Nat} {n : Nat} (h : n ∉ l) : (l ++ [n]).idxOf? n = some l.length := by
  refine List.idxOf?_eq_some_iff.2 ⟨by simp, by simp, fun i hi heq => h ?_⟩
  rw [List.getElem_append_left hi] at heq
  exact heq ▸ List.getElem_mem hi

structure Ranked (asked : List Nat) (g : Game σ) : Prop where
  issued : ∀ n ∈ asked, n < g.manager.issued
  last : ∀ t, g.manager.holder? = some t → asked.idxOf? t.number = some (asked.length - 1)
  listings : ∀ t ∈ g.everyTask, t.locks = false → t.number ∉ asked

theorem ranked_new (p : Preset) (s : σ) (w : World) : Ranked [] (Game.new p s w) :=
  ⟨fun _ hn => (by cases hn), fun _ ht => (by cases ht), fun _ ht => (by cases ht)⟩

section
variable [SlotStore σ]

theorem Turn.asks_cases (x : Turn σ) :
    (x.asks = [] ∧ ∀ t, x.made? = some t → t.locks = false) ∨
    ∃ t, x.made? = some t ∧ t.locks = true ∧ x.asks = [t.number] := by
  unfold asks
  cases x.made? with
  | none => exact .inl ⟨rfl, fun t ht => (by cases ht)⟩
  | some t =>
    cases hl : t.locks with
    | false => exact .inl ⟨by simp [Option.filter, hl], fun u hu => (by cases hu; exact hl)⟩
    | true => exact .inr ⟨t, rfl, hl, by simp [Option.filter, hl]⟩

namespace Ranked

variable {asked : List Nat} {g : Game σ}

theorem step (h : Ranked asked g) (ho : Orderly g) (m : Move σ) :
    Ranked (asked ++ Turn.asks ⟨g, m⟩) (g.step m) := by
  rcases Turn.asks_cases ⟨g, m⟩ with ⟨hasks, hlists⟩ | ⟨t, hmade, hl, hasks⟩
  · rw [hasks, List.append_nil]
    refine ⟨fun n hn => Nat.lt_of_lt_of_le (h.issued n hn) (Orderly.issued_le_step g m), fun t ht => ?_, ?_⟩
    · cases hh : g.manager.holder? with
      | none =>
        have hnew := hlists t (ho.made_of_holder hh ht).1
        rw [((ho.step m).holder_split ht).1] at hnew
        cases hnew
      | some u =>
        have hcarried : g.carried u m = some t := (ho.holder_step hh m).symm.trans ht
        rw [Task.number_eq (Game.label_carried hcarried)]
        exact h.last u hh
    · intro t' ht' hl
      rcases Game.mem_step ho ht' with ⟨t, ht, hmoved⟩ | ⟨-, hn⟩
      · rw [hmoved.1]
        exact h.listings t ht (hmoved.locks_eq ▸ hl)
      · intro hmem
        have hlt := h.issued _ hmem
        omega
  · obtain ⟨hholder, hn, hrun⟩ := ho.holder_of_made hmade hl
    change t.number = g.manager.issued at hn
    have hnew : t.number ∉ asked := by
      intro hmem
      have hlt := h.issued _ hmem
      omega
    have hissued : (g.step m).manager.issued = g.manager.issued + 1 := by
      have hcount := (Turn.numbers_eq ⟨g, m⟩).2
      simpa [Turn.numbers, hmade, Turn.after] using hcount
    rw [hasks]
    refine ⟨?_, ?_, ?_⟩
    · intro n hmem
      rcases List.mem_append.1 hmem with hmem | hmem
      · have hlt := h.issued n hmem
        omega
      · rw [List.mem_singleton.1 hmem]
        omega
    · intro u hu
      obtain rfl : t = u := Option.some.inj (hholder.symm.trans hu)
      rw [idxOf_concat hnew, List.length_append, List.length_singleton, Nat.add_sub_cancel]
    · intro t' ht' hl' hmem
      rcases Game.mem_step ho ht' with ⟨u, hu, hmoved⟩ | ⟨hmade', -⟩
      · rw [Game.everyTask, ho.moored hrun, List.append_nil] at hu
        have hlt := ho.issued u hu
        rw [hmoved.1] at hmem
        rcases List.mem_append.1 hmem with hmem | hmem
        · exact h.listings u (List.mem_append_left _ hu) (hmoved.locks_eq ▸ hl') hmem
        · have heq := List.mem_singleton.1 hmem
          omega
      · cases hmade.symm.trans hmade'
        rw [hl] at hl'
        cases hl'

end Ranked

end

/-! ## News -/

namespace Manager

/-- What is told of a task when it begins. -/
def opening (m : Manager) (t : Task) : List Event :=
  if t.state = .created then m.notify t.filter (beganHook? t.kind) else []

/-- What is told of a task when it is settled, to those who do not list. -/
def closing (m : Manager) (asked : List Nat) (e : Task × TaskResult × Bool) : List Event :=
  (if e.2.2 then m.notify e.1.filter (finishedHook? e.1.kind e.2.1.isOk) else []) ++
    ((asked.idxOf? e.1.number).map fun k => Event.reply k (e.2.1.map Outcome.value)).toList

/-- All that matters is who observes. -/
theorem notify_congr {m m' : Manager} (h : m'.observers = m.observers) : m'.notify = m.notify := by
  funext f hook
  cases hook with
  | none => rfl
  | some hook => rw [notify, notify, h]

theorem seen_notify (m : Manager) (asked : List Nat) (f : SaveFilter) (hook : Option Hook) :
    (m.notify f hook).filterMap (Event.seen? asked) = m.notify f hook := by
  cases hook with
  | none => rfl
  | some h => simp [notify, List.filterMap_map, Function.comp_def, Event.seen?]

theorem seen_sweep (m : Manager) (asked : List Nat) (now : Instant) (w : World) (ts : List Task) :
    (m.sweep now w ts).events.filterMap (Event.seen? asked) = ts.flatMap m.opening := by
  rw [events_sweep, List.filterMap_flatMap]
  refine List.flatMap_congr fun t _ => ?_
  unfold opening
  split
  · exact m.seen_notify ..
  · rfl

theorem seen_finishAll (m : Manager) (asked : List Nat) (es : List (Task × TaskResult × Bool)) :
    (m.finishAll es).2.filterMap (Event.seen? asked) = es.flatMap (m.closing asked) := by
  rw [events_finishAll, List.filterMap_flatMap]
  refine List.flatMap_congr fun e _ => ?_
  have hreply : [Event.reply e.1.number (e.2.1.map Outcome.value)].filterMap (Event.seen? asked) =
      ((asked.idxOf? e.1.number).map fun k => Event.reply k (e.2.1.map Outcome.value)).toList := by
    cases hk : asked.idxOf? e.1.number <;> simp [Event.seen?, hk]
  rw [List.filterMap_append, hreply, closing]
  split
  · rw [seen_notify]
  · rfl

theorem hooks_of_unlocked {t : Task} (h : t.locks = false) :
    beganHook? t.kind = none ∧ ∀ success, finishedHook? t.kind success = none :=
  Task.hooks_of_not_streams (Task.streams_of_unlocked h)

theorem openings_unlocked (m : Manager) {ts : List Task} (h : ∀ t ∈ ts, t.locks = false) :
    ts.flatMap m.opening = [] := by
  refine List.flatMap_eq_nil_iff.2 fun t ht => ?_
  simp [opening, (hooks_of_unlocked (h t ht)).1, notify]

theorem closings_unlocked (m : Manager) {asked : List Nat} {es : List (Task × TaskResult × Bool)}
    (h : ∀ e ∈ es, e.1.locks = false ∧ e.1.number ∉ asked) : es.flatMap (m.closing asked) = [] := by
  refine List.flatMap_eq_nil_iff.2 fun e he => ?_
  obtain ⟨hl, hn⟩ := h e he
  simp [closing, (hooks_of_unlocked hl).2, notify, List.idxOf?_eq_none_iff.2 hn]

/-- What a sweep ends of tasks that are not asked for. -/
theorem closings_sweep (m : Manager) {asked : List Nat} (now : Instant) (w : World) {ts : List Task}
    (h : ∀ t ∈ ts, t.locks = false ∧ t.number ∉ asked) :
    (m.sweep now w ts).ended.flatMap (m.closing asked) = [] := by
  refine m.closings_unlocked fun e he => ?_
  obtain ⟨t, ht, w', w'', hstep⟩ := mem_ended he
  have hlabel : e.1.label = t.label := by
    rw [← Task.label_start t, ← Task.label_advance t.start m.preset now w', hstep]
  rw [Task.locks_eq hlabel, Task.number_eq hlabel]
  exact h t ht

/-- Of tasks that are not asked for nothing is told when they are cancelled. -/
theorem closings_cancel (m : Manager) {asked : List Nat} {ts : List Task}
    (h : ∀ t ∈ ts, t.locks = false ∧ t.number ∉ asked) :
    (ts.map cancel).flatMap (m.closing asked) = [] := by
  refine m.closings_unlocked fun e he => ?_
  obtain ⟨t, ht, rfl⟩ := List.mem_map.1 he
  exact h t ht

end Manager

namespace Ranked

variable {asked : List Nat} {g : Game σ} {t : Task}

/-- The tasks around the holder. -/
theorem split (h : Ranked asked g) (ho : Orderly g) (ht : g.manager.holder? = some t) :
    ∃ before after, g.manager.tasks = before ++ t :: after ∧
      (∀ u ∈ before, u.locks = false ∧ u.number ∉ asked) ∧ ∀ u ∈ after, u.locks = false ∧ u.number ∉ asked := by
  obtain ⟨-, before, after, htasks, hb, ha⟩ := ho.holder_split ht
  have hmem : ∀ u ∈ before ++ t :: after, u ∈ g.everyTask := fun u hu => List.mem_append_left _ (htasks ▸ hu)
  exact ⟨before, after, htasks, fun u hu => ⟨hb u hu, h.listings u (hmem u (by simp [hu])) (hb u hu)⟩,
    fun u hu => ⟨ha u hu, h.listings u (hmem u (by simp [hu])) (ha u hu)⟩⟩

theorem closing_holder (h : Ranked asked g) (ht : g.manager.holder? = some t) {u : Task} (hu : u.label = t.label)
    (r : TaskResult) (known : Bool) :
    g.manager.closing asked (u, r, known) =
      (if known then g.manager.notify t.filter (Manager.finishedHook? t.kind r.isOk) else []) ++
        [.reply (asked.length - 1) (r.map Outcome.value)] := by
  simp [Manager.closing, Task.filter_eq hu, Task.kind_eq hu, Task.number_eq hu, h.last t ht]

/-- A tick tells of the holder, as it begins and as it ends. -/
theorem news_tick [SlotStore σ] (h : Ranked asked g) (ho : Orderly g) (ht : g.manager.holder? = some t)
    (now : Instant) :
    Turn.news ⟨g, .tick now⟩ asked =
      g.manager.opening t ++
        (t.job.advance t.filter g.manager.preset now g.world).2.2.toList.flatMap fun r =>
          g.manager.notify t.filter (Manager.finishedHook? t.kind r.isOk) ++
            [.reply (asked.length - 1) (r.map Outcome.value)] := by
  obtain ⟨before, after, htasks, hb, ha⟩ := h.split ho ht
  have hworld : (g.manager.sweep now g.world before).world = g.world :=
    (Manager.sweep_unlocked g.manager now g.world fun u hu => (hb u hu).1).2.2.2.2.2
  have hopen : g.manager.tasks.flatMap g.manager.opening = g.manager.opening t := by
    rw [htasks, List.flatMap_append, List.flatMap_cons, g.manager.openings_unlocked fun u hu => (hb u hu).1,
      g.manager.openings_unlocked fun u hu => (ha u hu).1, List.nil_append, List.append_nil]
  have hclose : (g.manager.sweep now g.world g.manager.tasks).ended.flatMap (g.manager.closing asked) =
      (t.job.advance t.filter g.manager.preset now g.world).2.2.toList.flatMap fun r =>
        g.manager.notify t.filter (Manager.finishedHook? t.kind r.isOk) ++
          [.reply (asked.length - 1) (r.map Outcome.value)] := by
    have hstep := Task.step_eq (ho.live t (List.mem_of_find?_eq_some ht)) g.manager.preset now g.world
    have hlabel : (t.start.advance g.manager.preset now g.world).1.label = t.label :=
      (Task.label_advance ..).trans (Task.label_start t)
    simp only [htasks, Manager.sweep_append, Manager.sweep_cons, List.flatMap_append, hworld,
      g.manager.closings_sweep now _ hb, g.manager.closings_sweep now _ ha, List.nil_append, List.append_nil]
    rw [hstep] at hlabel ⊢
    cases (t.job.advance t.filter g.manager.preset now g.world).2.2 with
    | none => rfl
    | some r => simp [h.closing_holder ht hlabel]
  have hsame : ∀ tasks, ({ g.manager with tasks } : Manager).closing asked = g.manager.closing asked := fun _ => rfl
  simp only [Turn.news, Turn.events, Manager.tick, if_pos (ho.running_of_holder ht), List.filterMap_append,
    Manager.seen_sweep, Manager.seen_finishAll, hsame, hopen, hclose]

theorem news_teardown (g : Game σ) (asked : List Nat) (hr : g.manager.running = true) :
    Turn.news ⟨g, Move.deinitialize⟩ asked = (g.manager.tasks.map Manager.cancel).flatMap (g.manager.closing asked) := by
  have hsame : ∀ running tasks,
      ({ g.manager with running, tasks } : Manager).closing asked = g.manager.closing asked := fun _ _ => rfl
  simp only [Turn.news, Turn.events, Manager.deinitialize, if_pos hr, Manager.seen_finishAll, hsame]
  rfl

/-- Teardown tells of the holder that it is cancelled. -/
theorem news_stop (h : Ranked asked g) (ho : Orderly g) (ht : g.manager.holder? = some t) :
    Turn.news ⟨g, Move.deinitialize⟩ asked =
      (if t.state = .running then g.manager.notify t.filter (Manager.finishedHook? t.kind false) else []) ++
        [.reply (asked.length - 1) (.error .cancelled)] := by
  obtain ⟨before, after, htasks, hb, ha⟩ := h.split ho ht
  have hclose := h.closing_holder ht (show Task.label { t with state := .cancelled } = t.label from rfl)
    (.error .cancelled) (t.state == .running)
  rw [news_teardown g asked (ho.running_of_holder ht), htasks, List.map_append, List.map_cons, List.flatMap_append,
    List.flatMap_cons, Manager.closings_cancel _ hb, Manager.closings_cancel _ ha, List.nil_append, List.append_nil,
    Manager.cancel, hclose]
  simp only [beq_iff_eq]
  rfl

/-- Without a holder nothing is told. -/
theorem news_unheld (h : Ranked asked g) (ht : g.manager.holder? = none) (m : Move σ) :
    Turn.news ⟨g, m⟩ asked = [] := by
  have hno : ∀ t ∈ g.manager.tasks, t.locks = false ∧ t.number ∉ asked := fun t hmem =>
    have hl := Orderly.unlocked_of_none ht t hmem
    ⟨hl, h.listings t (List.mem_append_left _ hmem) hl⟩
  cases hr : g.manager.running with
  | false =>
    cases m with
    | tick now => simp only [Turn.news, Turn.events, Manager.tick_stopped _ _ _ hr, List.filterMap_nil]
    | deinitialize => simp only [Turn.news, Turn.events, Manager.deinitialize_stopped _ hr, List.filterMap_nil]
    | _ => rfl
  | true =>
    cases m with
    | tick now =>
      have hsame : ∀ tasks, ({ g.manager with tasks } : Manager).closing asked = g.manager.closing asked :=
        fun _ => rfl
      simp only [Turn.news, Turn.events, Manager.tick, if_pos hr, List.filterMap_append, Manager.seen_sweep,
        Manager.seen_finishAll, hsame, g.manager.openings_unlocked fun t ht => (hno t ht).1,
        g.manager.closings_sweep now _ hno, List.append_nil]
    | deinitialize => rw [news_teardown g asked hr, Manager.closings_cancel _ hno]
    | _ => rfl

end Ranked

end SaveSlots
