import Mathlib.Data.List.Induction
import SaveSlots.Proofs.Pooled
/-!
# What becomes of a piece of work

`Fate` says what the item of a piece of work is after a history, and `Fate.react` that every event turns it into what it
is after the event. The history says it twice: by what the task has told (`Logged`) and by what the polls of its handle
were answered (`Line`). `Account` puts the items together with the count and the phase of the pool.
-/

namespace SaveSlots

variable {α : Type}

/-- Whether a task tells this before it comes to an end. -/
def Progress.isEarly : Progress α → Bool
  | .begun | .yielded | .returned => true
  | .sent _ | .aborted | .givenUp | .released | .hungUp => false

namespace Pool

/-! ## What a history says about an item -/

/-- What polls have been answered by a channel, with the value that was sent through it. -/
inductive Line : Option α → Channel α → List (WorkPoll α) → Prop where
  | empty (i : Nat) : Line none .empty (.replicate i .pending)
  | full (a : α) (i : Nat) : Line (some a) (.full a) (.replicate i .pending)
  | brought (a : α) (i j : Nat) : Line (some a) .closed (.replicate i .pending ++ [.ready a] ++ .replicate j .lost)
  | hungUp (i j : Nat) : Line none .closed (.replicate i .pending ++ .replicate j .lost)

namespace Line

variable {v : Option α} {c : Channel α} {ps : List (WorkPoll α)}

theorem polled (h : Line v c ps) : Line v c.receive.2 (ps ++ [c.receive.1]) := by
  cases h with
  | empty i =>
    simp only [Channel.receive]
    rw [← List.replicate_succ']
    exact .empty (i + 1)
  | full a i => simpa [Channel.receive] using Line.brought a i 0
  | brought a i j =>
    simp only [Channel.receive]
    rw [List.append_assoc, ← List.replicate_succ']
    exact .brought a i (j + 1)
  | hungUp i j =>
    simp only [Channel.receive]
    rw [List.append_assoc, ← List.replicate_succ']
    exact .hungUp i (j + 1)

theorem sent (h : Line none .empty ps) (a : α) : Line (some a) (.full a) ps := by
  cases h with
  | empty i => exact .full a i

theorem closed (h : Line none .empty ps) : Line none .closed ps := by
  cases h with
  | empty i => simpa using Line.hungUp i 0

/-- Polls have to wait, then one brings the value, and those behind it have lost it. -/
theorem shape (h : Line v c ps) : ∃ i j, ∃ result : Option α,
    ps = .replicate i .pending ++ (result.map .ready).toList ++ .replicate j .lost := by
  cases h with
  | empty i | full a i => exact ⟨i, 0, none, by simp⟩
  | brought a i j => exact ⟨i, j, some a, rfl⟩
  | hungUp i j => exact ⟨i, j, none, by simp⟩

/-- A value that was sent lies in the channel or was brought. -/
theorem of_some {a : α} (h : Line (some a) c ps) : c = .full a ∨ .ready a ∈ ps := by
  cases h with
  | full i => exact .inl rfl
  | brought i j => exact .inr (by simp)

theorem of_pending (h : Line v c ps) (hp : c.receive.1 = .pending) : v = none := by
  cases h with
  | empty => rfl
  | full | brought | hungUp => cases hp

theorem of_ready {a : α} (h : Line v c ps) (hr : c.receive.1 = .ready a) : v = some a := by
  cases h with
  | full b i =>
    cases hr
    rfl
  | empty | brought | hungUp => cases hr

end Line

/-- What a task has told since it came to an end. -/
def Logged (es : List (Event α)) (n : Nat) (late : List (Progress α)) : Prop :=
  ∃ early, log n es = early ++ late ∧ ∀ x ∈ early, x.isEarly = true

namespace Logged

variable {es : List (Event α)} {n : Nat} {late : List (Progress α)} {x : Progress α}

theorem went_iff (h : Logged es n late) (hx : x.isEarly = false) : .went n x ∈ es ↔ x ∈ late := by
  obtain ⟨early, hlog, hearly⟩ := h
  rw [← mem_log, hlog, List.mem_append]
  refine or_iff_right fun hmem => ?_
  rw [hearly x hmem] at hx
  cases hx

theorem other (h : Logged es n late) {e : Event α} (he : log n [e] = []) : Logged (es ++ [e]) n late := by
  obtain ⟨early, hlog, hearly⟩ := h
  refine ⟨early, ?_, hearly⟩
  rw [log, List.filterMap_append]
  exact (congrArg (log n es ++ ·) he).trans (by rw [List.append_nil, hlog])

theorem early (h : Logged es n []) (hx : x.isEarly = true) : Logged (es ++ [.went n x]) n [] := by
  obtain ⟨early, hlog, hearly⟩ := h
  refine ⟨early ++ [x], by rw [log_went, hlog, List.append_nil, List.append_nil], ?_⟩
  simpa [or_imp, forall_and, hx] using hearly

theorem went (h : Logged es n late) (x : Progress α) : Logged (es ++ [.went n x]) n (late ++ [x]) := by
  obtain ⟨early, hlog, hearly⟩ := h
  exact ⟨early, by rw [log_went, hlog, List.append_assoc], hearly⟩

end Logged

/-- The task of a piece of work has not come to an end, and may do so by itself. -/
inductive Going (w : Work α) (isOpen : Prop) : Stage α → Prop where
  | idle {left : Work α} (value : left.value? = w.value?) (gate : left.isGated = true ↔ w.isGated = true ∧ ¬ isOpen) :
    Going w isOpen (.idle left)
  | running {left : Work α} (value : left.value? = w.value?)
    (gate : left.isGated = true ↔ w.isGated = true ∧ ¬ isOpen) : Going w isOpen (.running left)
  | returned {a : α} (value : w.value? = some a) (gate : w.isGated = true → isOpen) : Going w isOpen (.returned a)

theorem Going.opened {w : Work α} {isOpen isOpen' : Prop} {s : Stage α} (h : Going w isOpen s) (hopen : isOpen') :
    Going w isOpen' s.opened := by
  cases h with
  | idle value gate =>
    exact .idle ((Work.value_opened _).trans value) (by simp [Work.isGated_opened, hopen])
  | running value gate =>
    exact .running ((Work.value_opened _).trans value) (by simp [Work.isGated_opened, hopen])
  | returned value gate => exact .returned value fun _ => hopen

/-- What a task tells behind the sending of its value. -/
inductive Closing : Stage α → List (Progress α) → Prop where
  | sent : Closing .sent []
  | ended : Closing .ended [.released]

/-- What makes a task end without a value. -/
inductive Cause (w : Work α) : Progress α → Prop where
  | aborted (value : w.value? = none) : Cause w .aborted
  | givenUp : Cause w .givenUp

/-- What a task tells behind an end without a value. -/
inductive Unwinding : Stage α → Channel α → List (Progress α) → Prop where
  | unwinding : Unwinding .unwinding .empty []
  | uncounted : Unwinding .uncounted .empty [.released]
  | ended : Unwinding .ended .closed [.released, .hungUp]

theorem Closing.opened {s : Stage α} {late : List (Progress α)} (h : Closing s late) : Closing s.opened late := by
  cases h <;> constructor

theorem Unwinding.opened {s : Stage α} {c : Channel α} {late : List (Progress α)} (h : Unwinding s c late) :
    Unwinding s.opened c late := by
  cases h <;> constructor

/-- A poll does not change a channel without a value. -/
theorem Unwinding.polled {s : Stage α} {c : Channel α} {late : List (Progress α)} (h : Unwinding s c late) :
    Unwinding s c.receive.2 late := by
  cases h <;> constructor

/-- What the item of a piece of work is after a history in which it was given away. -/
inductive Fate (es : List (Event α)) (n : Nat) (w : Work α) : Item α → Prop where
  | going {s : Stage α} (goes : Going w (.opened n ∈ es) s) (log : Logged es n [])
    (line : Line none .empty (polls n es)) : Fate es n w ⟨s, .empty⟩
  | sent {s : Stage α} {c : Channel α} {a : α} {late : List (Progress α)} (value : w.value? = some a)
    (gate : w.isGated = true → .opened n ∈ es) (closes : Closing s late) (log : Logged es n (.sent a :: late))
    (line : Line (some a) c (polls n es)) : Fate es n w ⟨s, c⟩
  | ended {s : Stage α} {c : Channel α} {x : Progress α} {late : List (Progress α)} (cause : Cause w x)
    (unwinds : Unwinding s c late) (log : Logged es n (x :: late)) (line : Line none c (polls n es)) :
    Fate es n w ⟨s, c⟩

namespace Fate

variable {es : List (Event α)} {n : Nat} {w : Work α} {i i' : Item α}

/-- Nothing has happened to the piece of work. -/
theorem other (hf : Fate es n w i) {e : Event α} (he : ¬ e.concerns n) : Fate (es ++ [e]) n w i := by
  have hlog : Pool.log n [e] = [] := log_other fun x heq => he (by rw [heq]; rfl)
  have hpolls := polls_other es (e := e) (n := n) fun answer heq => he (by rw [heq]; rfl)
  have hopen := opened_other es (e := e) (n := n) fun heq => he (by rw [heq]; rfl)
  cases hf with
  | going goes log line => exact .going (by rwa [hopen]) (log.other hlog) (by rwa [hpolls])
  | sent value gate closes log line =>
    exact .sent value (fun hw => hopen.2 (gate hw)) closes (log.other hlog) (by rwa [hpolls])
  | ended cause unwinds log line => exact .ended cause unwinds (log.other hlog) (by rwa [hpolls])

theorem polled (hf : Fate es n w i) :
    Fate (es ++ [.polled n i.channel.receive.1]) n w { i with channel := i.channel.receive.2 } := by
  have hlog : Pool.log n [Event.polled n i.channel.receive.1] = [] := rfl
  have hopen := opened_other es (e := .polled n i.channel.receive.1) (n := n) nofun
  have hpolls := polls_polled n es i.channel.receive.1
  cases hf with
  | going goes log line => exact .going (by rwa [hopen]) (log.other hlog) (hpolls ▸ line.polled)
  | sent value gate closes log line =>
    exact .sent value (fun hw => hopen.2 (gate hw)) closes (log.other hlog) (hpolls ▸ line.polled)
  | ended cause unwinds log line => exact .ended cause unwinds.polled (log.other hlog) (hpolls ▸ line.polled)

theorem opened (hf : Fate es n w i) : Fate (es ++ [.opened n]) n w { i with stage := i.stage.opened } := by
  have hlog : Pool.log n [Event.opened (α := α) n] = [] := rfl
  have hpolls := polls_other es (e := .opened n) (n := n) nofun
  have hopen : Event.opened n ∈ es ++ [.opened n] := List.mem_append_right _ List.mem_cons_self
  cases hf with
  | going goes log line => exact .going (goes.opened hopen) (log.other hlog) (by rwa [hpolls])
  | sent value gate closes log line =>
    exact .sent value (fun _ => hopen) closes.opened (log.other hlog) (by rwa [hpolls])
  | ended cause unwinds log line => exact .ended cause unwinds.opened (log.other hlog) (by rwa [hpolls])

/-- Whatever a task does in a step, its item is then what it is after this step. -/
theorem went (hf : Fate es n w i) {stopping : Bool} {x : Progress α} (hgoes : i.Goes stopping x i') :
    Fate (es ++ [.went n x]) n w i' := by
  have hpolls := polls_other es (e := .went n x) (n := n) nofun
  have hopen := opened_other es (e := .went n x) (n := n) nofun
  cases hf with
  | going goes log line =>
    rw [← hpolls] at line
    rw [← hopen] at goes
    cases hgoes with
    | begun =>
      cases goes with
      | idle value gate => exact .going (.running value gate) (log.early rfl) line
    | yielded =>
      cases goes with
      | running value gate => exact .going (.idle value gate) (log.early rfl) line
    | returned =>
      cases goes with
      | running value gate =>
        refine .going (.returned value.symm fun hw => ?_) (log.early rfl) line
        exact Classical.not_not.1 fun hclosed => Bool.false_ne_true (gate.2 ⟨hw, hclosed⟩)
    | aborted =>
      cases goes with
      | running value gate => exact .ended (.aborted value.symm) .unwinding (log.went _) line
    | sent =>
      cases goes with
      | returned value gate => exact .sent value gate .sent (log.went _) (line.sent _)
    | givenUp => exact .ended .givenUp .unwinding (log.went _) line
    | done | released | hungUp => cases goes
  | sent value gate closes log line =>
    rw [← hpolls] at line
    rw [← hopen] at gate
    cases closes with
    | sent =>
      cases hgoes with
      | done => exact .sent value gate .ended (log.went _) line
    | ended => cases hgoes
  | ended cause unwinds log line =>
    rw [← hpolls] at line
    cases unwinds with
    | unwinding =>
      cases hgoes with
      | released => exact .ended cause .uncounted (log.went _) line
    | uncounted =>
      cases hgoes with
      | hungUp => exact .ended cause .ended (log.went _) line.closed
    | ended => cases hgoes

/-- Every event turns the item of a piece of work into what it is after the event. -/
theorem react (hf : Fate es n w i) {stopping : Bool} {e : Event α} (hr : React n stopping i e i') :
    Fate (es ++ [e]) n w i' := by
  cases hr with
  | went hgoes => exact hf.went hgoes
  | opened => exact hf.opened
  | polled => exact hf.polled
  | other hno => exact hf.other hno

/-- Nothing has happened yet to a piece of work that is given away now. -/
theorem fresh (hno : ∀ e ∈ es, ¬ e.concerns n) : Fate (es ++ [.submitted n w]) n w (.new w) := by
  have hnew : ∀ e : Event α, e.concerns n → e ≠ .submitted n w → e ∉ es ++ [.submitted n w] := by
    intro e he hne hmem
    rcases List.mem_append.1 hmem with hmem | hmem
    · exact hno e hmem he
    · exact hne (List.mem_singleton.1 hmem)
  have hpolls : Pool.polls n (es ++ [.submitted n w]) = [] :=
    List.eq_nil_iff_forall_not_mem.2 fun answer h => hnew (.polled n answer) rfl nofun (mem_polls.1 h)
  refine .going (.idle rfl ⟨fun hw => ⟨hw, hnew (.opened n) rfl nofun⟩, And.left⟩) ⟨[], ?_, nofun⟩ (hpolls ▸ .empty 0)
  exact List.eq_nil_iff_forall_not_mem.2 fun x hx => hnew (.went n x) rfl nofun (mem_log.1 hx)

theorem isCounted_iff (hf : Fate es n w i) : i.stage.isCounted = true ↔ .went n .released ∉ es := by
  cases hf with
  | going goes log =>
    rw [log.went_iff rfl]
    cases goes <;> simp [Stage.isCounted]
  | sent _ _ closes log =>
    rw [log.went_iff rfl]
    cases closes <;> simp [Stage.isCounted]
  | ended cause unwinds log =>
    rw [log.went_iff rfl]
    cases cause <;> cases unwinds <;> simp [Stage.isCounted]

/-- The value that is sent is that of the piece of work, and lies in the channel until it is brought. -/
theorem of_sent {a : α} (hf : Fate es n w i) (h : Sent es n a) :
    w.value? = some a ∧ (w.isGated = true → .opened n ∈ es) ∧ ¬ Aborted es n ∧ ¬ GivenUp es n ∧
      (i.channel = .full a ∨ .ready a ∈ Pool.polls n es) := by
  cases hf with
  | going _ log => cases (log.went_iff rfl).1 h
  | ended cause unwinds log =>
    have hmem := (log.went_iff rfl).1 h
    cases cause <;> cases unwinds <;> simp at hmem
  | sent value gate closes log line =>
    rw [Aborted, GivenUp, log.went_iff rfl, log.went_iff rfl]
    have hmem := (log.went_iff rfl).1 h
    cases closes with
    | sent | ended =>
      obtain rfl : a = _ := by simpa using hmem
      exact ⟨value, gate, by simp, by simp, line.of_some⟩

theorem of_aborted (hf : Fate es n w i) (h : Aborted es n) : w.value? = none ∧ ¬ GivenUp es n := by
  cases hf with
  | going _ log => cases (log.went_iff rfl).1 h
  | sent _ _ closes log =>
    have hmem := (log.went_iff rfl).1 h
    cases closes <;> simp at hmem
  | ended cause unwinds log =>
    rw [GivenUp, log.went_iff rfl]
    have hmem := (log.went_iff rfl).1 h
    cases cause with
    | aborted value => cases unwinds <;> exact ⟨value, by simp⟩
    | givenUp => cases unwinds <;> simp at hmem

theorem of_released (hf : Fate es n w i) (h : .went n .released ∈ es) :
    (∃ a, Sent es n a) ∨ Aborted es n ∨ GivenUp es n := by
  cases hf with
  | going _ log => cases (log.went_iff rfl).1 h
  | sent _ _ _ log => exact .inl ⟨_, (log.went_iff rfl).2 List.mem_cons_self⟩
  | ended cause _ log =>
    cases cause with
    | aborted => exact .inr (.inl ((log.went_iff rfl).2 List.mem_cons_self))
    | givenUp => exact .inr (.inr ((log.went_iff rfl).2 List.mem_cons_self))

theorem of_ready {a : α} (hf : Fate es n w i) (h : i.channel.receive.1 = .ready a) : Sent es n a := by
  cases hf with
  | going _ _ line | ended _ _ _ line => cases line.of_ready h
  | sent _ _ _ log line =>
    obtain rfl := Option.some.inj (line.of_ready h)
    exact (log.went_iff rfl).2 List.mem_cons_self

theorem shape (hf : Fate es n w i) : ∃ i j, ∃ result : Option α,
    Pool.polls n es = .replicate i .pending ++ (result.map .ready).toList ++ .replicate j .lost := by
  cases hf with
  | going _ _ line | sent _ _ _ _ line | ended _ _ _ line => exact line.shape

/-- A poll has to wait until the value is sent or the task hangs up. -/
theorem pending_iff (hf : Fate es n w i) :
    i.channel.receive.1 = .pending ↔ (∀ a, ¬ Sent es n a) ∧ .went n .hungUp ∉ es := by
  cases hf with
  | going _ log =>
    refine ⟨fun _ => ⟨fun a hsent => ?_, fun hhung => ?_⟩, fun _ => rfl⟩
    · cases (log.went_iff rfl).1 hsent
    · cases (log.went_iff rfl).1 hhung
  | sent _ _ _ log line =>
    refine ⟨fun hp => ?_, fun h => absurd ((log.went_iff rfl).2 List.mem_cons_self) (h.1 _)⟩
    cases line.of_pending hp
  | ended cause unwinds log =>
    simp only [Sent, log.went_iff (x := .sent _) rfl, log.went_iff (x := .hungUp) rfl]
    cases cause <;> cases unwinds <;> simp [Channel.receive]

end Fate

/-! ## The whole pool -/

/-- What a pool and its history have to do with each other. -/
structure Account (es : List (Event α)) (p : Pool α) : Prop where
  running : p.phase = .running ↔ .waiting ∉ es
  stopping : p.phase.isStopping = true ↔ ∃ k, .waited k ∈ es
  answer {k : Nat} (hk : p.phase = .stopping k) : .waited k ∈ es
  answered {k : Nat} (hk : .shutDown k ∈ es) : .waited k ∈ es
  count : p.count = p.items.countP fun i => i.stage.isCounted
  present {n : Nat} {i : Item α} (hn : p.items[n]? = some i) :
    ∃ w, (∀ w', .submitted n w' ∈ es ↔ w' = w) ∧ Fate es n w i
  absent {n : Nat} (hn : p.items[n]? = none) {e : Event α} (he : e ∈ es) : ¬ e.concerns n

theorem countP_set_add {β : Type} {q : β → Bool} {l : List β} {n : Nat} {b : β} (hn : l[n]? = some b) (b' : β) :
    (l.set n b').countP q + (if q b then 1 else 0) = l.countP q + if q b' then 1 else 0 := by
  obtain ⟨hlt, rfl⟩ := List.getElem?_eq_some_iff.1 hn
  have hpos : (if q l[n] then 1 else 0) ≤ l.countP q := by
    split
    · next hq => exact List.countP_pos_iff.2 ⟨_, List.getElem_mem hlt, hq⟩
    · exact Nat.zero_le _
  rw [List.countP_set hlt]
  omega

theorem isCounted_opened (s : Stage α) : s.opened.isCounted = s.isCounted := by
  cases s <;> rfl

theorem Step.count {p p' : Pool α} {e : Event α} (hs : Step p e p')
    (h : p.count = p.items.countP fun i => i.stage.isCounted) :
    p'.count = p'.items.countP fun i => i.stage.isCounted := by
  cases hs with
  | submitted w => simp [h, Item.new, Stage.isCounted]
  | @went n x i i' hn hgoes =>
    have hset := countP_set_add (q := fun i : Item α => i.stage.isCounted) hn i'
    obtain ⟨hbefore, hafter⟩ := hgoes.counted
    simp only [hbefore] at hset
    simp only [put, h]
    cases hx : x.releases <;> cases hi : i'.stage.isCounted <;> simp [hx, hi] at hset hafter ⊢ <;> omega
  | @opened n i hn =>
    have hset := countP_set_add (q := fun i : Item α => i.stage.isCounted) hn { i with stage := i.stage.opened }
    simp only [isCounted_opened] at hset
    exact h.trans (Nat.add_right_cancel hset).symm
  | @polled n i hn =>
    have hset := countP_set_add (q := fun i : Item α => i.stage.isCounted) hn
      { i with channel := i.channel.receive.2 }
    exact h.trans (Nat.add_right_cancel hset).symm
  | counted | returned | waiting | waited | shutDown | refused => exact h

theorem account_new : Account [] (new : Pool α) where
  running := by simp [new]
  stopping := by simp [new, Phase.isStopping]
  answer hk := by cases hk
  answered hk := by cases hk
  count := rfl
  present hn := by cases hn
  absent _ _ he := absurd he List.not_mem_nil

theorem Account.step {es : List (Event α)} {p p' : Pool α} {e : Event α} (ha : Account es p) (hs : Step p e p') :
    Account (es ++ [e]) p' where
  running := by
    have hr := ha.running
    cases hs <;> simp_all [put]
  stopping := by
    have hst := ha.stopping
    cases hs <;> simp_all [put, Phase.isStopping]
  answer {k} hk := by
    have hw := ha.answer (k := k)
    cases hs <;> simp_all [put]
  answered {k} hk := by
    rcases List.mem_append.1 hk with hk | hk
    · exact List.mem_append_left _ (ha.answered hk)
    · rw [List.mem_singleton] at hk
      subst hk
      cases hs with
      | shutDown hstop => exact List.mem_append_left _ (ha.answer hstop)
  count := hs.count ha.count
  present {n i'} hn' := by
    cases hn : p.items[n]? with
    | some i =>
      obtain ⟨w, hw, hf⟩ := ha.present hn
      obtain ⟨j, hj, hr⟩ := hs.items_some hn
      obtain rfl := Option.some.inj (hj.symm.trans hn')
      refine ⟨w, fun w' => ?_, hf.react hr⟩
      rw [List.mem_append, List.mem_singleton, hw]
      refine or_iff_left fun he => ?_
      subst he
      cases hs.unnumbered.symm.trans hn
    | none =>
      rcases hs.items_none hn with ⟨w, rfl, hnew⟩ | ⟨-, hnone⟩
      · obtain rfl := Option.some.inj (hnew.symm.trans hn')
        have hno : ∀ w', .submitted n w' ∉ es := fun w' hmem => ha.absent hn hmem rfl
        exact ⟨w, fun w' => by simp [hno], .fresh fun e he => ha.absent hn he⟩
      · cases hnone.symm.trans hn'
  absent {n} hn' e' he' := by
    cases hn : p.items[n]? with
    | some i =>
      obtain ⟨j, hj, -⟩ := hs.items_some hn
      cases hj.symm.trans hn'
    | none =>
      rcases hs.items_none hn with ⟨w, -, hnew⟩ | ⟨hno, -⟩
      · cases hnew.symm.trans hn'
      · rcases List.mem_append.1 he' with hmem | hmem
        · exact ha.absent hn hmem
        · rwa [List.mem_singleton.1 hmem]

theorem account (cs : List (Call α)) : Account (new.events cs) (new.after cs) := by
  induction cs using List.reverseRecOn with
  | nil => exact account_new
  | append_singleton cs c ih =>
    rw [events_append, after_concat]
    exact ih.step (step_perform _ c)

end Pool

end SaveSlots
