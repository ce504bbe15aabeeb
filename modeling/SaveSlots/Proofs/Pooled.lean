import Mathlib.Data.List.Basic
import SaveSlots.Work.Pool
/-!
# What happens in a pool

A history is what happens in some calls (`Pool.events`). Workers are free to go on with a task at any time, so
histories mix what the host of a pool does and the steps of the tasks in any order, and go on behind a shutdown.

`Item.Goes` lists what a task can do in a step and `Pool.Step` what a call can come to; `Step.items_some` and
`Step.items_none` say what is left of this for one piece of work.
-/

namespace SaveSlots

variable {α : Type}

namespace Work

/-- The value that a piece of work comes to, if it does not abort. -/
def value? : Work α → Option α
  | returns a | gated a => some a
  | aborts => none

theorem value_opened (w : Work α) : w.opened.value? = w.value? := by
  cases w <;> rfl

theorem isGated_opened (w : Work α) : w.opened.isGated = false := by
  cases w <;> rfl

end Work

/-! ## One task -/

namespace Item

/-- All that a task can do in a step. Only workers that are stopped drop one. -/
inductive Goes (stopping : Bool) : Item α → Progress α → Item α → Prop where
  | begun {w : Work α} {c : Channel α} : Goes stopping ⟨.idle w, c⟩ .begun ⟨.running w, c⟩
  | yielded {a : α} {c : Channel α} : Goes stopping ⟨.running (.gated a), c⟩ .yielded ⟨.idle (.gated a), c⟩
  | returned {a : α} {c : Channel α} : Goes stopping ⟨.running (.returns a), c⟩ .returned ⟨.returned a, c⟩
  | aborted {c : Channel α} : Goes stopping ⟨.running .aborts, c⟩ .aborted ⟨.unwinding, c⟩
  | sent {a : α} {c : Channel α} : Goes stopping ⟨.returned a, c⟩ (.sent a) ⟨.sent, .full a⟩
  | done {c : Channel α} : Goes stopping ⟨.sent, c⟩ .released ⟨.ended, c⟩
  | released {c : Channel α} : Goes stopping ⟨.unwinding, c⟩ .released ⟨.uncounted, c⟩
  | hungUp {c : Channel α} : Goes stopping ⟨.uncounted, c⟩ .hungUp ⟨.ended, .closed⟩
  | givenUp {w : Work α} {c : Channel α} (hstop : stopping = true) :
    Goes stopping ⟨.idle w, c⟩ .givenUp ⟨.unwinding, c⟩

variable {stopping : Bool} {i i' : Item α} {x : Progress α}

theorem goes_of_work (h : i.work? = some (x, i')) : i.Goes stopping x i' := by
  obtain ⟨stage, channel⟩ := i
  cases stage with
  | running w =>
    cases w with
    | returns a =>
      cases h
      exact .returned
    | gated a =>
      cases h
      exact .yielded
    | aborts =>
      cases h
      exact .aborted
  | idle w =>
    cases h
    exact .begun
  | returned a =>
    cases h
    exact .sent
  | sent =>
    cases h
    exact .done
  | unwinding =>
    cases h
    exact .released
  | uncounted =>
    cases h
    exact .hungUp
  | ended => cases h

theorem goes_of_giveUp (h : i.giveUp? = some i') (hstop : stopping = true) : i.Goes stopping .givenUp i' := by
  obtain ⟨stage, channel⟩ := i
  cases stage with
  | idle w =>
    cases h
    exact .givenUp hstop
  | running | returned | sent | unwinding | uncounted | ended => cases h

/-- A task is counted until it drops its guard, which it does once. -/
theorem Goes.counted (h : i.Goes stopping x i') :
    i.stage.isCounted = (i'.stage.isCounted || x.releases) ∧ (i'.stage.isCounted && x.releases) = false := by
  cases h <;> exact ⟨rfl, rfl⟩

end Item

namespace Pool

/-! ## Histories -/

/-- The pool after some calls. -/
def after (p : Pool α) (cs : List (Call α)) : Pool α := cs.foldl (fun p c => (p.perform c).2) p

/-- What happens in some calls. -/
def events (p : Pool α) : List (Call α) → List (Event α)
  | [] => []
  | c :: cs => (p.perform c).1 :: (p.perform c).2.events cs

/-- What a poll of a piece of work would be answered now. -/
def ask (p : Pool α) (n : Nat) : Option (WorkPoll α) := (p.poll? n).map Prod.fst

/-- The answers that a poll of a piece of work has got. -/
def polls (n : Nat) (es : List (Event α)) : List (WorkPoll α) :=
  es.filterMap fun
    | .polled m answer => if m = n then some answer else none
    | _ => none

/-- What a task has told. -/
def log (n : Nat) (es : List (Event α)) : List (Progress α) :=
  es.filterMap fun
    | .went m x => if m = n then some x else none
    | _ => none

/-- Whether a piece of work has run to its end. -/
def Sent (es : List (Event α)) (n : Nat) (a : α) : Prop := .went n (.sent a) ∈ es

def Aborted (es : List (Event α)) (n : Nat) : Prop := .went n .aborted ∈ es

def GivenUp (es : List (Event α)) (n : Nat) : Prop := .went n .givenUp ∈ es

/-- Whether a piece of work was submitted and has its guard. -/
def InFlight (es : List (Event α)) (n : Nat) : Prop := (∃ w, .submitted n w ∈ es) ∧ .went n .released ∉ es

/-- Whether just so many pieces of work have a property. -/
def Amounts (P : Nat → Prop) (k : Nat) : Prop := ∃ ns : List Nat, ns.Nodup ∧ (∀ n, n ∈ ns ↔ P n) ∧ ns.length = k

theorem after_append (p : Pool α) (cs ds : List (Call α)) : p.after (cs ++ ds) = (p.after cs).after ds :=
  List.foldl_append

theorem after_concat (p : Pool α) (cs : List (Call α)) (c : Call α) :
    p.after (cs ++ [c]) = ((p.after cs).perform c).2 :=
  after_append p cs [c]

theorem events_append (p : Pool α) (cs ds : List (Call α)) :
    p.events (cs ++ ds) = p.events cs ++ (p.after cs).events ds := by
  induction cs generalizing p with
  | nil => rfl
  | cons c cs ih => simp [events, after, ih]

theorem mem_polls {n : Nat} {es : List (Event α)} {answer : WorkPoll α} :
    answer ∈ polls n es ↔ .polled n answer ∈ es := by
  simp only [polls, List.mem_filterMap]
  constructor
  · rintro ⟨e, he, heq⟩
    cases e with
    | polled m answer' =>
      obtain ⟨rfl, hanswer⟩ := Option.ite_none_right_eq_some.1 heq
      obtain rfl := Option.some.inj hanswer
      exact he
    | submitted | went | opened | counted | returned | waiting | waited | shutDown | refused => cases heq
  · exact fun he => ⟨_, he, if_pos rfl⟩

theorem mem_log {n : Nat} {es : List (Event α)} {x : Progress α} : x ∈ log n es ↔ .went n x ∈ es := by
  simp only [log, List.mem_filterMap]
  constructor
  · rintro ⟨e, he, heq⟩
    cases e with
    | went m x' =>
      obtain ⟨rfl, hx⟩ := Option.ite_none_right_eq_some.1 heq
      obtain rfl := Option.some.inj hx
      exact he
    | submitted | polled | opened | counted | returned | waiting | waited | shutDown | refused => cases heq
  · exact fun he => ⟨_, he, if_pos rfl⟩

theorem polls_polled (n : Nat) (es : List (Event α)) (answer : WorkPoll α) :
    polls n (es ++ [.polled n answer]) = polls n es ++ [answer] := by
  simp [polls]

theorem log_went (n : Nat) (es : List (Event α)) (x : Progress α) :
    log n (es ++ [.went n x]) = log n es ++ [x] := by
  simp [log]

theorem log_other {n : Nat} {e : Event α} (he : ∀ x, e ≠ .went n x) : log n [e] = [] := by
  refine List.eq_nil_iff_forall_not_mem.2 fun x hx => he x ?_
  exact (List.mem_singleton.1 (mem_log.1 hx)).symm

theorem polls_other {n : Nat} (es : List (Event α)) {e : Event α} (he : ∀ answer, e ≠ .polled n answer) :
    polls n (es ++ [e]) = polls n es := by
  have hnil : polls n [e] = [] := by
    refine List.eq_nil_iff_forall_not_mem.2 fun answer hanswer => he answer ?_
    exact (List.mem_singleton.1 (mem_polls.1 hanswer)).symm
  rw [polls, List.filterMap_append]
  exact (congrArg (polls n es ++ ·) hnil).trans (List.append_nil _)

theorem opened_other {n : Nat} (es : List (Event α)) {e : Event α} (he : e ≠ .opened n) :
    .opened n ∈ es ++ [e] ↔ .opened n ∈ es := by
  simp [he.symm]

/-! ## One call -/

/-- All that a call can come to. -/
inductive Step (p : Pool α) : Event α → Pool α → Prop where
  | submitted (w : Work α) (hrun : p.phase = .running) :
    Step p (.submitted p.items.length w) { p with items := p.items ++ [.new w], count := p.count + 1 }
  | went {n : Nat} {x : Progress α} {i i' : Item α} (hn : p.items[n]? = some i)
    (hgoes : i.Goes p.phase.isStopping x i') : Step p (.went n x) (p.put n x i')
  | opened {n : Nat} {i : Item α} (hn : p.items[n]? = some i) :
    Step p (.opened n) { p with items := p.items.set n { i with stage := i.stage.opened } }
  | polled {n : Nat} {i : Item α} (hn : p.items[n]? = some i) :
    Step p (.polled n i.channel.receive.1)
      { p with items := p.items.set n { i with channel := i.channel.receive.2 } }
  | counted (hrun : p.phase = .running) : Step p (.counted p.count) p
  | returned (a : α) (hrun : p.phase = .running) : Step p (.returned a) p
  | waiting (hrun : p.phase = .running) : Step p .waiting { p with phase := .waiting }
  | waited (hwait : p.phase = .waiting) : Step p (.waited p.count) { p with phase := .stopping p.count }
  | shutDown {k : Nat} (hstop : p.phase = .stopping k) : Step p (.shutDown k) { p with phase := .stopped }
  | refused : Step p .refused p

theorem work_eq_some {p p' : Pool α} {n : Nat} {x : Progress α} (h : p.work? n = some (x, p')) :
    ∃ i i', p.items[n]? = some i ∧ i.work? = some (x, i') ∧ p' = p.put n x i' := by
  simp only [work?, Option.bind_eq_bind, Option.bind_eq_some_iff] at h
  obtain ⟨i, hi, ⟨y, i'⟩, hwork, heq⟩ := h
  cases heq
  exact ⟨i, i', hi, hwork, rfl⟩

theorem giveUp_eq_some {p p' : Pool α} {n : Nat} (h : p.giveUp? n = some p') :
    p.phase.isStopping = true ∧ ∃ i i', p.items[n]? = some i ∧ i.giveUp? = some i' ∧ p' = p.put n .givenUp i' := by
  obtain ⟨hstop, h⟩ := Option.ite_none_right_eq_some.1 h
  simp only [Option.bind_eq_bind, Option.bind_eq_some_iff] at h
  obtain ⟨i, hi, i', hgive, heq⟩ := h
  cases heq
  exact ⟨hstop, i, i', hi, hgive, rfl⟩

theorem endWait_eq_some {p p' : Pool α} {timedOut : Bool} {k : Nat} (h : p.endWait? timedOut = some (k, p')) :
    p.phase = .waiting ∧ k = p.count ∧ p' = { p with phase := .stopping p.count } := by
  obtain ⟨⟨hwait, hend⟩, heq⟩ := Option.ite_none_right_eq_some.1 h
  -- a wait that has not timed out has seen a count of 0
  have hcount : (if timedOut then p.count else 0) = p.count := by
    cases timedOut with
    | true => rfl
    | false => exact (hend.resolve_left Bool.false_ne_true).symm
  rw [hcount] at heq
  cases heq
  exact ⟨hwait, rfl, rfl⟩

theorem orRefused_step {β : Type} {p : Pool α} {r : Option β} {f : β → Event α × Pool α}
    (h : ∀ b, r = some b → Step p (f b).1 (f b).2) :
    Step p (p.orRefused (r.map f)).1 (p.orRefused (r.map f)).2 := by
  cases r with
  | none => exact .refused
  | some b => exact h b rfl

theorem step_perform (p : Pool α) (c : Call α) : Step p (p.perform c).1 (p.perform c).2 := by
  cases c with
  | submit w =>
    refine orRefused_step fun b hb => ?_
    obtain ⟨hrun, heq⟩ := Option.ite_none_right_eq_some.1 hb
    cases heq
    exact .submitted w hrun
  | work n =>
    refine orRefused_step fun ⟨x, p'⟩ hb => ?_
    obtain ⟨i, i', hi, hwork, rfl⟩ := work_eq_some hb
    exact .went hi (Item.goes_of_work hwork)
  | giveUp n =>
    refine orRefused_step fun p' hb => ?_
    obtain ⟨hstop, i, i', hi, hgive, rfl⟩ := giveUp_eq_some hb
    exact .went hi (Item.goes_of_giveUp hgive hstop)
  | openGate n =>
    refine orRefused_step fun b hb => ?_
    obtain ⟨i, hi, rfl⟩ := Option.map_eq_some_iff.1 hb
    exact .opened hi
  | poll n =>
    refine orRefused_step fun b hb => ?_
    obtain ⟨i, hi, rfl⟩ := Option.map_eq_some_iff.1 hb
    exact .polled hi
  | inFlight =>
    refine orRefused_step fun b hb => ?_
    obtain ⟨hrun, heq⟩ := Option.ite_none_right_eq_some.1 hb
    cases heq
    exact .counted hrun
  | blockOn a =>
    refine orRefused_step fun b hb => ?_
    obtain ⟨hrun, heq⟩ := Option.ite_none_right_eq_some.1 hb
    cases heq
    exact .returned _ hrun
  | shutdown =>
    refine orRefused_step fun b hb => ?_
    obtain ⟨hrun, heq⟩ := Option.ite_none_right_eq_some.1 hb
    cases heq
    exact .waiting hrun
  | endWait timedOut =>
    refine orRefused_step fun ⟨k, p'⟩ hb => ?_
    obtain ⟨hwait, rfl, rfl⟩ := endWait_eq_some hb
    exact .waited hwait
  | stop =>
    refine orRefused_step fun ⟨k, p'⟩ hb => ?_
    simp only [stop?] at hb
    split at hb
    · next hstop =>
      cases hb
      exact .shutDown hstop
    · cases hb
    · cases hb
    · cases hb

/-- An event of a history is a step of the pool that the calls before it have left. -/
theorem events_split {p : Pool α} {cs : List (Call α)} {before later : List (Event α)} {e : Event α}
    (h : p.events cs = before ++ e :: later) : ∃ cs₁ p', p.events cs₁ = before ∧ Step (p.after cs₁) e p' := by
  induction before generalizing p cs with
  | nil =>
    cases cs with
    | nil => cases h
    | cons c cs =>
      obtain ⟨rfl, -⟩ := List.cons.inj h
      exact ⟨[], _, rfl, step_perform p c⟩
  | cons x before ih =>
    cases cs with
    | nil => cases h
    | cons c cs =>
      obtain ⟨hx, hrest⟩ := List.cons.inj h
      obtain ⟨cs₁, p', hbefore, hs⟩ := ih hrest
      exact ⟨c :: cs₁, p', by rw [events, hx, hbefore], hs⟩

/-- Whether an event is about a piece of work. -/
def Event.concerns (n : Nat) : Event α → Prop
  | .submitted m _ | .went m _ | .opened m | .polled m _ => m = n
  | .counted _ | .returned _ | .waiting | .waited _ | .shutDown _ | .refused => False

/-- What an event does to the item of a piece of work. -/
inductive React (n : Nat) (stopping : Bool) (i : Item α) : Event α → Item α → Prop where
  | went {x : Progress α} {i' : Item α} (hgoes : i.Goes stopping x i') : React n stopping i (.went n x) i'
  | opened : React n stopping i (.opened n) { i with stage := i.stage.opened }
  | polled : React n stopping i (.polled n i.channel.receive.1) { i with channel := i.channel.receive.2 }
  | other {e : Event α} (hno : ¬ e.concerns n) : React n stopping i e i

/-- One item of a list is replaced, and the others stay. -/
theorem getElem_set_cases {β : Type} {l : List β} {m n : Nat} {i j : β} (hm : l[m]? = some j) (hn : l[n]? = some i)
    (j' : β) : m = n ∧ i = j ∧ (l.set m j')[n]? = some j' ∨ m ≠ n ∧ (l.set m j')[n]? = some i := by
  by_cases heq : m = n
  · subst heq
    have hlt : m < l.length := (List.getElem?_eq_some_iff.1 hn).1
    exact .inl ⟨rfl, Option.some.inj (hn.symm.trans hm), List.getElem?_set_self hlt⟩
  · exact .inr ⟨heq, (List.getElem?_set_ne heq).trans hn⟩

theorem Step.items_some {p p' : Pool α} {e : Event α} (hs : Step p e p') {n : Nat} {i : Item α}
    (hn : p.items[n]? = some i) : ∃ i', p'.items[n]? = some i' ∧ React n p.phase.isStopping i e i' := by
  cases hs with
  | submitted w =>
    have hlt : n < p.items.length := (List.getElem?_eq_some_iff.1 hn).1
    exact ⟨i, (List.getElem?_append_left hlt).trans hn, .other (Nat.ne_of_gt hlt)⟩
  | went hm hgoes =>
    rcases getElem_set_cases hm hn _ with ⟨rfl, rfl, hset⟩ | ⟨hne, hset⟩
    · exact ⟨_, hset, .went hgoes⟩
    · exact ⟨i, hset, .other hne⟩
  | @opened m j hm =>
    rcases getElem_set_cases hm hn { j with stage := j.stage.opened } with ⟨rfl, rfl, hset⟩ | ⟨hne, hset⟩
    · exact ⟨_, hset, .opened⟩
    · exact ⟨i, hset, .other hne⟩
  | @polled m j hm =>
    rcases getElem_set_cases hm hn { j with channel := j.channel.receive.2 } with ⟨rfl, rfl, hset⟩ | ⟨hne, hset⟩
    · exact ⟨_, hset, .polled⟩
    · exact ⟨i, hset, .other hne⟩
  | counted | returned | waiting | waited | shutDown | refused => exact ⟨i, hn, .other id⟩

/-- A piece of work that was not given away yet is given away, or nothing happens to it. -/
theorem Step.items_none {p p' : Pool α} {e : Event α} (hs : Step p e p') {n : Nat} (hn : p.items[n]? = none) :
    (∃ w, e = .submitted n w ∧ p'.items[n]? = some (.new w)) ∨ ¬ e.concerns n ∧ p'.items[n]? = none := by
  have hle : p.items.length ≤ n := List.getElem?_eq_none_iff.1 hn
  cases hs with
  | submitted w hrun =>
    by_cases heq : p.items.length = n
    · subst heq
      exact .inl ⟨w, rfl, List.getElem?_concat_length⟩
    · refine .inr ⟨heq, List.getElem?_eq_none ?_⟩
      simp only [List.length_append, List.length_singleton]
      omega
  | went hm | opened hm | polled hm =>
    refine .inr ⟨fun heq => ?_, List.getElem?_eq_none (by simpa [put] using hle)⟩
    change _ = n at heq
    rw [heq, hn] at hm
    cases hm
  | counted | returned | waiting | waited | shutDown | refused => exact .inr ⟨id, hn⟩

/-- A submission is that of a piece of work without an item, to a pool that runs. -/
theorem Step.unnumbered {p p' : Pool α} {n : Nat} {w : Work α} (hs : Step p (.submitted n w) p') :
    p.items[n]? = none := by
  cases hs
  exact List.getElem?_eq_none (Nat.le_refl _)

theorem Step.answer {p p' : Pool α} {n : Nat} {answer : WorkPoll α} (hs : Step p (.polled n answer) p') :
    ∃ i, p.items[n]? = some i ∧ i.channel.receive.1 = answer := by
  cases hs with
  | polled hn => exact ⟨_, hn, rfl⟩

end Pool

end SaveSlots
