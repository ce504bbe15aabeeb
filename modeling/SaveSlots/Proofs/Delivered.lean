import SaveSlots.Proofs.Fates
import SaveSlots.Proofs.Settled
/-!
# What a pool delivers

`delivered` is the main theorem, for every history: each value is delivered once and to its own handle, the pool counts
what has its guard, and a shutdown answers what it counts at the end of its wait. What is given up was counted then; but
what was counted is not always given up, since a task that is being polled goes on (`counted_and_delivered`).
-/

namespace SaveSlots

variable {α : Type}

namespace Pool

/-- What is delivered by a pool with some history. -/
structure Delivers (p : Pool α) (es : List (Event α)) : Prop where
  /-- A pool that is not shut down takes all work. -/
  running : p.phase = .running ↔ .waiting ∉ es
  takes (hrun : p.phase = .running) : (∀ w, ∃ n, (p.perform (.submit w)).1 = .submitted n w) ∧
    ∀ a, (p.perform (.blockOn a)).1 = .returned a
  /-- What was taken is there for good, under a number of its own. -/
  own {n : Nat} {w w' : Work α} (hw : .submitted n w ∈ es) (hw' : .submitted n w' ∈ es) : w = w'
  present {n : Nat} {w : Work α} (hw : .submitted n w ∈ es) : (p.perform (.openGate n)).1 = .opened n ∧
    ∃ answer, p.ask n = some answer ∧ (p.perform (.poll n)).1 = .polled n answer
  /-- The polls of a handle wait, then bring one result at most, and have lost it from then on. -/
  polls (n : Nat) : ∃ i j, ∃ result : Option α,
    polls n es = .replicate i .pending ++ (result.map .ready).toList ++ .replicate j .lost
  /-- A result was brought if the piece of work has run to its end and was polled behind that. -/
  ready (n : Nat) (a : α) : .ready a ∈ Pool.polls n es ↔
    ∃ before answer later, es = before ++ .polled n answer :: later ∧ Sent before n a
  /-- Only what was not given up has run to its end, behind its gate, and only with its own value. -/
  sent {n : Nat} {a : α} (ha : Sent es n a) : ¬ GivenUp es n ∧
    ∃ w, .submitted n w ∈ es ∧ w.value? = some a ∧ (w.isGated = true → .opened n ∈ es)
  aborted {n : Nat} (ha : Aborted es n) : ∃ w, .submitted n w ∈ es ∧ w.value? = none
  /-- A result that was not brought is brought by the next poll, also if the pool was shut down since. -/
  kept {n : Nat} {a : α} (ha : Sent es n a) (hno : ∀ b, .ready b ∉ Pool.polls n es) : p.ask n = some (.ready a)
  waits {n : Nat} {w : Work α} (hw : .submitted n w ∈ es) :
    p.ask n = some .pending ↔ (∀ a, ¬ Sent es n a) ∧ .went n .hungUp ∉ es
  /-- What has its guard is counted. -/
  count (hrun : p.phase = .running) : ∃ k, Amounts (InFlight es) k ∧ (p.perform .inFlight).1 = .counted k
  /-- A shutdown may wait until all that is in flight has come to its end. When its time is up it ends in any case, and
  answers with the count. -/
  shutdown : (p.phase = .running → (p.perform .shutdown).1 = .waiting) ∧
    (p.phase = .waiting → ∃ k, Amounts (InFlight es) k ∧
      ∀ timedOut, timedOut = true ∨ k = 0 → (p.perform (.endWait timedOut)).1 = .waited k) ∧
    ∀ k, p.phase = .stopping k → (p.perform .stop).1 = .shutDown k
  answered {k : Nat} (hk : .shutDown k ∈ es) : .waited k ∈ es
  /-- What a shutdown counts is what is in flight at the end of its wait, and it gives up nothing else. -/
  waited {before later : List (Event α)} {k : Nat} (h : es = before ++ .waited k :: later) :
    Amounts (InFlight before) k ∧ ∀ n, GivenUp es n → InFlight before n
  spared {n : Nat} (hno : ∀ k, .waited k ∉ es) : ¬ GivenUp es n
  /-- A pool that is left to itself comes to rest. What is in flight there has neither returned nor aborted: it waits at
  its gate. What has aborted or was given up is lost. -/
  settles : ∃ cs, p.settle = p.after cs ∧ p.settle.Rests
  rest (hrest : p.Rests) {n : Nat} {w : Work α} (hw : .submitted n w ∈ es) :
    (InFlight es n ↔ (∀ a, ¬ Sent es n a) ∧ ¬ Aborted es n ∧ ¬ GivenUp es n) ∧
    (InFlight es n → w.isGated = true ∧ .opened n ∉ es ∧ ∀ k, .waited k ∉ es) ∧
    (Aborted es n ∨ GivenUp es n → p.ask n = some .lost)
  /-- What a shutdown counts is given up in the end, and lost, or it comes to its end all the same. -/
  left (hrest : p.Rests) {before later : List (Event α)} {k n : Nat} (h : es = before ++ .waited k :: later)
    (hn : InFlight before n) : GivenUp es n ∧ p.ask n = some .lost ∨ (∃ a, Sent es n a) ∨ Aborted es n
  /-- If a pool is at rest until a shutdown stops its workers, what is lost by that is just what the shutdown counts. -/
  closes (hrun : p.phase = .running) (hrest : p.Rests) : ∃ k q, Amounts (InFlight es) k ∧ p.close? = some (k, q) ∧
    (∃ cs, q = p.after ([.shutdown, .endWait true, .stop] ++ cs)) ∧
    ∀ n, (InFlight es n → q.ask n = some .lost) ∧ (¬ InFlight es n → q.ask n = p.ask n)

theorem ask_eq (p : Pool α) (n : Nat) : p.ask n = p.items[n]?.map fun i => i.channel.receive.1 := by
  simp only [ask, poll?, Option.map_map]
  rfl

theorem perform_endWait {p : Pool α} {timedOut : Bool} (hwait : p.phase = .waiting)
    (hend : timedOut = true ∨ p.count = 0) : (p.perform (.endWait timedOut)).1 = .waited p.count := by
  simp only [perform, endWait?, hwait, if_pos (And.intro trivial hend)]
  cases timedOut with
  | true => rfl
  | false =>
    rw [hend.resolve_left Bool.false_ne_true]
    rfl

theorem after_shutdown {p : Pool α} (hrun : p.phase = .running) :
    p.after [.shutdown, .endWait true, .stop] = { p with phase := .stopped } := by
  simp [after, perform, orRefused, shutdown?, hrun, endWait?, stop?]

namespace Account

variable {es : List (Event α)} {p : Pool α} {n : Nat}

theorem item_of_submitted (ha : Account es p) {w : Work α} (hw : .submitted n w ∈ es) :
    ∃ i, p.items[n]? = some i ∧ (∀ w', .submitted n w' ∈ es ↔ w' = w) ∧ Fate es n w i := by
  cases hn : p.items[n]? with
  | none => exact absurd rfl (ha.absent hn hw)
  | some i =>
    obtain ⟨w', hw', hf⟩ := ha.present hn
    obtain rfl := (hw' w).1 hw
    exact ⟨i, rfl, hw', hf⟩

/-- What has gone on has an item. -/
theorem item_of_went (ha : Account es p) {x : Progress α} (hx : .went n x ∈ es) :
    ∃ i w, p.items[n]? = some i ∧ .submitted n w ∈ es ∧ Fate es n w i := by
  cases hn : p.items[n]? with
  | none => exact absurd rfl (ha.absent hn hx)
  | some i =>
    obtain ⟨w, hw, hf⟩ := ha.present hn
    exact ⟨i, w, rfl, (hw w).2 rfl, hf⟩

theorem polls_shape (ha : Account es p) (n : Nat) : ∃ i j, ∃ result : Option α,
    polls n es = .replicate i .pending ++ (result.map .ready).toList ++ .replicate j .lost := by
  cases hn : p.items[n]? with
  | some i =>
    obtain ⟨w, -, hf⟩ := ha.present hn
    exact hf.shape
  | none =>
    refine ⟨0, 0, none, List.eq_nil_iff_forall_not_mem.2 fun answer hmem => ?_⟩
    exact ha.absent hn (mem_polls.1 hmem) rfl

/-- A value that was sent lies in its channel or was brought. -/
theorem sent (ha : Account es p) {a : α} (h : Sent es n a) :
    p.ask n = some (.ready a) ∨ .ready a ∈ polls n es := by
  obtain ⟨i, w, hn, -, hf⟩ := ha.item_of_went h
  obtain ⟨-, -, -, -, hline⟩ := hf.of_sent h
  refine hline.imp_left fun hfull => ?_
  rw [ask_eq, hn, Option.map_some, hfull]
  rfl

/-- What is in flight are the tasks that have their guards. -/
theorem inFlight_iff (ha : Account es p) : n ∈ p.items.findIdxs (fun i => i.stage.isCounted) ↔ InFlight es n := by
  rw [List.mem_findIdxs_iff_exists_getElem_pos]
  constructor
  · rintro ⟨hlt, hcounted⟩
    obtain ⟨w, hw, hf⟩ := ha.present (List.getElem?_eq_getElem hlt)
    exact ⟨⟨w, (hw w).2 rfl⟩, hf.isCounted_iff.1 hcounted⟩
  · rintro ⟨⟨w, hw⟩, hno⟩
    obtain ⟨i, hn, -, hf⟩ := ha.item_of_submitted hw
    obtain ⟨hlt, rfl⟩ := List.getElem?_eq_some_iff.1 hn
    exact ⟨hlt, hf.isCounted_iff.2 hno⟩

theorem inFlight (ha : Account es p) : Amounts (InFlight es) p.count :=
  ⟨_, List.nodup_findIdxs, fun _ => ha.inFlight_iff, List.length_findIdxs.trans ha.count.symm⟩

end Account

/-- Only stopped workers give something up. -/
theorem stopping_of_givenUp {cs : List (Call α)} {n : Nat} (h : GivenUp (new.events cs) n) :
    ∃ k, .waited k ∈ new.events cs := by
  obtain ⟨before, later, hsplit⟩ := List.append_of_mem h
  obtain ⟨cs₁, p', rfl, hs⟩ := events_split hsplit
  cases hs with
  | went hn hgoes =>
    cases hgoes with
    | givenUp hstop =>
      obtain ⟨k, hk⟩ := (account cs₁).stopping.1 hstop
      exact ⟨k, by rw [hsplit]; exact List.mem_append_left _ hk⟩

/-- What is submitted is submitted ahead of a shutdown. -/
theorem running_of_submitted {cs : List (Call α)} {before later : List (Event α)} {n : Nat} {w : Work α}
    (h : new.events cs = before ++ .submitted n w :: later) : .waiting ∉ before := by
  obtain ⟨cs₁, p', rfl, hs⟩ := events_split h
  cases hs with
  | submitted w hrun => exact (account cs₁).running.1 hrun

/-- What is given up was in flight at the end of the wait. -/
theorem inFlight_of_givenUp {cs : List (Call α)} {before later : List (Event α)} {n k : Nat}
    (h : new.events cs = before ++ .waited k :: later) (hn : GivenUp (new.events cs) n) : InFlight before n := by
  obtain ⟨i, w, -, hw, hf⟩ := (account cs).item_of_went hn
  obtain ⟨cs₁, p', rfl, hs⟩ := events_split h
  cases hs with
  | waited hwait =>
    have hsub : .submitted n w ∈ new.events cs₁ := by
      have hmem := hw
      rw [h] at hmem
      refine (List.mem_append.1 hmem).resolve_right fun hlate => ?_
      obtain ⟨l₁, l₂, hsplit⟩ := List.append_of_mem hlate
      rw [hsplit, ← List.append_assoc] at h
      have hno := running_of_submitted h
      have hrun := (account cs₁).running.2 fun hmem => hno (List.mem_append_left _ hmem)
      rw [hwait] at hrun
      cases hrun
    refine ⟨⟨w, hsub⟩, fun hreleased => ?_⟩
    obtain ⟨i₁, -, -, hf₁⟩ := (account cs₁).item_of_submitted hsub
    -- it has not come to an end by itself, and is not given up yet
    have hlater : ∀ x, .went n x ∈ new.events cs₁ → .went n x ∈ new.events cs := fun x hx => by
      rw [h]
      exact List.mem_append_left _ hx
    rcases hf₁.of_released hreleased with ⟨a, hsent⟩ | haborted | hgiven
    · exact (hf.of_sent (hlater _ hsent)).2.2.2.1 hn
    · exact (hf.of_aborted (hlater _ haborted)).2 hn
    · have hstop := (account cs₁).stopping.2 (stopping_of_givenUp hgiven)
      rw [hwait] at hstop
      cases hstop

namespace Fate

variable {es : List (Event α)} {n : Nat} {w : Work α} {i : Item α}

/-- A task at rest has come to its end, or waits at its closed gate. -/
theorem of_rests (hf : Fate es n w i) {stopping : Bool} (h : i.next? stopping = none) :
    (¬ i.stage.isCounted ∧ ((∃ a, Sent es n a) ∨ (Aborted es n ∨ GivenUp es n) ∧ i.channel = .closed)) ∨
      stopping = false ∧ i.stage.isCounted ∧ (∀ a, ¬ Sent es n a) ∧ ¬ Aborted es n ∧ ¬ GivenUp es n ∧
        w.isGated = true ∧ .opened n ∉ es := by
  rcases Item.next_eq_none.1 h with hended | ⟨rfl, a, hidle⟩
  · cases hf with
    | going goes =>
      subst hended
      cases goes
    | sent _ _ _ log =>
      subst hended
      exact .inl ⟨nofun, .inl ⟨_, (log.went_iff rfl).2 List.mem_cons_self⟩⟩
    | ended cause unwinds log =>
      subst hended
      cases unwinds with
      | ended =>
        refine .inl ⟨nofun, .inr ⟨?_, rfl⟩⟩
        cases cause with
        | aborted => exact .inl ((log.went_iff rfl).2 List.mem_cons_self)
        | givenUp => exact .inr ((log.went_iff rfl).2 List.mem_cons_self)
  · cases hf with
    | going goes log =>
      subst hidle
      cases goes with
      | idle value gate =>
        obtain ⟨hgated, hclosed⟩ := gate.1 rfl
        have hno : ∀ x : Progress α, x.isEarly = false → .went n x ∉ es := fun x hx hmem => by
          cases (log.went_iff hx).1 hmem
        exact .inr ⟨rfl, rfl, fun a => hno _ rfl, hno _ rfl, hno _ rfl, hgated, hclosed⟩
    | sent _ _ closes =>
      subst hidle
      cases closes
    | ended _ unwinds =>
      subst hidle
      cases unwinds

end Fate

/-- The value of a piece of work is brought by a poll behind its sending. -/
theorem ready_iff (cs : List (Call α)) {n : Nat} {a : α} : .ready a ∈ polls n (new.events cs) ↔
    ∃ before answer later, new.events cs = before ++ .polled n answer :: later ∧ Sent before n a := by
  constructor
  · intro hmem
    obtain ⟨before, later, hsplit⟩ := List.append_of_mem (mem_polls.1 hmem)
    obtain ⟨cs₁, p', rfl, hs⟩ := events_split hsplit
    obtain ⟨i, hn, hp⟩ := hs.answer
    obtain ⟨w, -, hf⟩ := (account cs₁).present hn
    exact ⟨_, _, later, hsplit, hf.of_ready hp⟩
  · rintro ⟨before, answer, later, hsplit, hsent⟩
    obtain ⟨cs₁, p', rfl, hs⟩ := events_split hsplit
    obtain ⟨i, hn, rfl⟩ := hs.answer
    rw [mem_polls, hsplit, List.mem_append, List.mem_cons]
    rcases (account cs₁).sent hsent with hask | hmem
    · rw [ask_eq, hn] at hask
      exact .inr (.inl (congrArg (Event.polled n) (Option.some.inj hask).symm))
    · exact .inl (mem_polls.1 hmem)

/-- What is in flight in a pool at rest waits at its gate. -/
theorem Account.atRest {es : List (Event α)} {p : Pool α} (ha : Account es p) (hrest : p.Rests) {n : Nat} {w : Work α}
    (hw : .submitted n w ∈ es) :
    (InFlight es n ↔ (∀ a, ¬ Sent es n a) ∧ ¬ Aborted es n ∧ ¬ GivenUp es n) ∧
    (InFlight es n → w.isGated = true ∧ .opened n ∉ es ∧ ∀ k, .waited k ∉ es) ∧
    (Aborted es n ∨ GivenUp es n → p.ask n = some .lost) := by
  obtain ⟨i, hn, -, hf⟩ := ha.item_of_submitted hw
  have hcounted : InFlight es n ↔ i.stage.isCounted = true := by
    rw [hf.isCounted_iff]
    exact and_iff_right ⟨w, hw⟩
  rw [hcounted, ask_eq, hn]
  rcases hf.of_rests (hrest i (List.mem_of_getElem? hn)) with ⟨hno, hend⟩ | ⟨hstop, hyes, hsent, hab, hg, hgate⟩
  · refine ⟨⟨fun h => absurd h hno, fun h => ?_⟩, fun h => absurd h hno, fun h => ?_⟩
    · rcases hend with ⟨a, hsent⟩ | ⟨haborted | hgiven, -⟩
      · exact absurd hsent (h.1 a)
      · exact absurd haborted h.2.1
      · exact absurd hgiven h.2.2
    · rcases hend with ⟨a, hsent⟩ | ⟨-, hclosed⟩
      · obtain ⟨-, -, haborted, hgiven, -⟩ := hf.of_sent hsent
        exact (h.elim haborted hgiven).elim
      · rw [Option.map_some, hclosed]
        rfl
  · refine ⟨⟨fun _ => ⟨hsent, hab, hg⟩, fun _ => hyes⟩, fun _ => ⟨hgate.1, hgate.2, fun k hk => ?_⟩, ?_⟩
    · rw [ha.stopping.2 ⟨k, hk⟩] at hstop
      cases hstop
    · exact fun h => (h.elim hab hg).elim

theorem Account.left {es : List (Event α)} {p : Pool α} (ha : Account es p) (hrest : p.Rests)
    {before later : List (Event α)} {k n : Nat} (h : es = before ++ .waited k :: later) (hn : InFlight before n) :
    GivenUp es n ∧ p.ask n = some .lost ∨ (∃ a, Sent es n a) ∨ Aborted es n := by
  obtain ⟨⟨w, hw⟩, -⟩ := hn
  have hsub : .submitted n w ∈ es := h ▸ List.mem_append_left _ hw
  have hwaited : .waited k ∈ es := h ▸ List.mem_append_right _ List.mem_cons_self
  obtain ⟨hiff, hgate, hlost⟩ := ha.atRest hrest hsub
  by_cases hgiven : GivenUp es n
  · exact .inl ⟨hgiven, hlost (.inr hgiven)⟩
  · refine .inr (Classical.byContradiction fun hno => ?_)
    obtain ⟨hsent, haborted⟩ := not_or.1 hno
    -- what has not come to an end is in flight still, but no pool at rest behind a shutdown has any of that
    have hflies := hiff.2 ⟨fun a ha => hsent ⟨a, ha⟩, haborted, hgiven⟩
    exact (hgate hflies).2.2 k hwaited

/-- What is in flight in a pool at rest is lost when its workers are stopped, and nothing else is. -/
theorem Account.ask_stopped {es : List (Event α)} {p : Pool α} (ha : Account es p) (hrun : p.phase = .running)
    (hrest : p.Rests) (n : Nat) : let q : Pool α := { p with phase := .stopped }
    (InFlight es n → q.settle.ask n = some .lost) ∧ (¬ InFlight es n → q.settle.ask n = p.ask n) := by
  intro q
  rw [ask_eq, ask_eq, items_settle, List.getElem?_map]
  cases hn : p.items[n]? with
  | none =>
    exact ⟨fun ⟨⟨w, hw⟩, _⟩ => (ha.absent hn hw rfl).elim, fun _ => rfl⟩
  | some i =>
    obtain ⟨w, hw, hf⟩ := ha.present hn
    have hfree := hrest i (List.mem_of_getElem? hn)
    rw [hrun] at hfree
    have hcounted : InFlight es n ↔ i.stage.isCounted = true := by
      rw [hf.isCounted_iff]
      exact and_iff_right ⟨w, (hw w).2 rfl⟩
    have hreceive := Item.receive_settled hfree
    rw [hcounted, Option.map_some]
    exact ⟨fun h => by rw [if_pos h] at hreceive; exact congrArg some hreceive,
      fun h => by rw [if_neg h] at hreceive; exact congrArg some hreceive⟩

/-- Whatever is done with a pool and however its tasks go on, each result is delivered once, by the first poll behind
its sending and only for its own piece of work; the pool counts what has its guard, and a shutdown answers with this
count. What it gives up was counted, and in a pool at rest it gives up all of that. -/
theorem delivered (cs : List (Call α)) : Delivers (new.after cs) (new.events cs) where
  running := (account cs).running
  takes hrun := by
    refine ⟨fun w => ⟨(new.after cs).items.length, ?_⟩, fun a => ?_⟩
    · simp only [perform, submit?, if_pos hrun]
      rfl
    · simp only [perform, blockOn?, if_pos hrun]
      rfl
  own hw hw' := by
    obtain ⟨-, -, hall, -⟩ := (account cs).item_of_submitted hw
    exact ((hall _).1 hw').symm
  present hw := by
    obtain ⟨i, hn, -⟩ := (account cs).item_of_submitted hw
    simp only [perform, openGate?, ask, poll?, hn]
    exact ⟨rfl, _, rfl, rfl⟩
  polls := (account cs).polls_shape
  ready n a := ready_iff cs
  sent ha := by
    obtain ⟨i, w, -, hw, hf⟩ := (account cs).item_of_went ha
    obtain ⟨hvalue, hgate, -, hgiven, -⟩ := hf.of_sent ha
    exact ⟨hgiven, w, hw, hvalue, hgate⟩
  aborted ha := by
    obtain ⟨i, w, -, hw, hf⟩ := (account cs).item_of_went ha
    exact ⟨w, hw, (hf.of_aborted ha).1⟩
  kept ha hno := ((account cs).sent ha).resolve_right (hno _)
  waits hw := by
    obtain ⟨i, hn, -, hf⟩ := (account cs).item_of_submitted hw
    rw [ask_eq, hn, Option.map_some, Option.some.injEq, hf.pending_iff]
  count hrun := by
    refine ⟨_, (account cs).inFlight, ?_⟩
    simp only [perform, inFlight?, if_pos hrun]
    rfl
  shutdown := by
    refine ⟨fun hrun => ?_, fun hwait => ⟨_, (account cs).inFlight, fun _ => perform_endWait hwait⟩, fun k hstop => ?_⟩
    · simp only [perform, shutdown?, if_pos hrun]
      rfl
    · simp only [perform, stop?, hstop]
      rfl
  answered := (account cs).answered
  waited {before later k} h := by
    refine ⟨?_, fun n hn => inFlight_of_givenUp h hn⟩
    obtain ⟨cs₁, p', rfl, hs⟩ := events_split h
    cases hs with
    | waited => exact (account cs₁).inFlight
  spared hno hgiven := by
    obtain ⟨k, hk⟩ := stopping_of_givenUp hgiven
    exact hno k hk
  settles := by
    obtain ⟨ds, hds⟩ := settle_eq (new.after cs)
    exact ⟨ds, hds, rests_settle _⟩
  rest := (account cs).atRest
  left := (account cs).left
  closes hrun hrest := by
    refine ⟨_, _, (account cs).inFlight, close_eq hrun hrest, ?_, (account cs).ask_stopped hrun hrest⟩
    rw [← after_shutdown hrun]
    obtain ⟨ds, hds⟩ := settle_eq ((new.after cs).after [.shutdown, .endWait true, .stop])
    exact ⟨ds, by rw [hds, after_append]⟩

/-- A task that is being polled when the wait of a shutdown ends is counted, goes on, and delivers its value. -/
theorem counted_and_delivered :
    let cs : List (Call Nat) :=
      [.submit (.returns 7), .work 0, .shutdown, .endWait true, .stop, .work 0, .work 0, .poll 0]
    new.events cs =
      [.submitted 0 (.returns 7), .went 0 .begun, .waiting, .waited 1, .shutDown 1, .went 0 .returned,
        .went 0 (.sent 7), .polled 0 (.ready 7)] ∧
    InFlight (new.events cs) 0 ∧ ¬ GivenUp (new.events cs) 0 := by
  intro cs
  have hevents : new.events cs = [.submitted 0 (.returns 7), .went 0 .begun, .waiting, .waited 1, .shutDown 1,
      .went 0 .returned, .went 0 (.sent 7), .polled 0 (.ready 7)] := by decide
  have hsent : Sent (new.events cs) 0 7 := by
    rw [hevents]
    simp [Sent]
  refine ⟨hevents, ⟨⟨.returns 7, ?_⟩, ?_⟩, ((delivered cs).sent hsent).1⟩
  · simp [hevents]
  · simp [hevents]

example : new.events [.submit (.gated 7), .work 0, .poll 0, .inFlight, .openGate 0, .work 0, .work 0, .work 0,
      .inFlight, .poll 0, .work 0, .inFlight, .poll 0] =
    [.submitted 0 (.gated 7), .went 0 .begun, .polled 0 .pending, .counted 1, .opened 0, .went 0 .returned,
      .went 0 (.sent 7), .went 0 .released, .counted 0, .polled 0 (.ready 7), .refused, .counted 0,
      .polled 0 .lost] := by decide

end Pool

end SaveSlots
