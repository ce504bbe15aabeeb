import Mathlib.Data.List.Induction
import SaveSlots.Proofs.Pooled
/-!
# A pool that is left to itself

Every task comes to rest in four steps (`Item.next_settled`), so a pool does that settles (`rests_settle`); and this is
nothing but some calls (`settle_eq`).
-/

namespace SaveSlots

variable {α : Type}

namespace Pool

/-- Whether no task can go on by itself. -/
def Rests (p : Pool α) : Prop := ∀ i ∈ p.items, i.next? p.phase.isStopping = none

end Pool

namespace Item

variable {stopping : Bool} {i i' : Item α} {x : Progress α}

theorem next_eq_none : i.next? stopping = none ↔
    i.stage = .ended ∨ stopping = false ∧ ∃ a, i.stage = .idle (.gated a) := by
  obtain ⟨stage, channel⟩ := i
  cases stopping <;> cases stage with
  | idle w | running w => cases w <;> simp [next?, work?, giveUp?]
  | returned | sent | unwinding | uncounted | ended => simp [next?, work?]

theorem next_eq_some (h : i.next? stopping = some (x, i')) :
    i.work? = some (x, i') ∨ stopping = true ∧ x = .givenUp ∧ i.giveUp? = some i' := by
  simp only [next?] at h
  split at h
  · obtain ⟨j, hj, heq⟩ := Option.map_eq_some_iff.1 h
    cases heq
    exact .inr ⟨rfl, rfl, hj⟩
  · cases h
  · exact .inl h

/-- A task after its next step. -/
def goOn (stopping : Bool) (i : Item α) : Item α := ((i.next? stopping).map Prod.snd).getD i

def settled (stopping : Bool) (i : Item α) : Item α :=
  goOn stopping (goOn stopping (goOn stopping (goOn stopping i)))

theorem goOn_of_none (h : i.next? stopping = none) : i.goOn stopping = i := by
  rw [goOn, h]
  rfl

/-- Four steps bring every task to rest. -/
theorem next_settled (stopping : Bool) (i : Item α) : (i.settled stopping).next? stopping = none := by
  obtain ⟨stage, channel⟩ := i
  cases stopping <;> cases stage with
  | idle w | running w => cases w <;> rfl
  | returned | sent | unwinding | uncounted | ended => rfl

/-- Stopped workers drop a task that waits at its gate. -/
theorem receive_settled (h : i.next? false = none) :
    (i.settled true).channel.receive.1 = if i.stage.isCounted then .lost else i.channel.receive.1 := by
  obtain ⟨stage, channel⟩ := i
  rcases next_eq_none.1 h with rfl | ⟨-, a, rfl⟩ <;> rfl

end Item

namespace Pool

theorem phase_goOn (p : Pool α) (n : Nat) : (p.goOn n).phase = p.phase := by
  simp only [goOn]
  split <;> rfl

theorem items_goOn (p : Pool α) (n : Nat) :
    (p.goOn n).items = p.items.modify n (Item.goOn p.phase.isStopping) := by
  rw [List.modify_eq_set_getElem?]
  cases hn : p.items[n]? with
  | none =>
    rw [goOn, hn]
    rfl
  | some i =>
    rw [goOn, hn, Option.bind_some]
    change _ = p.items.set n (i.goOn p.phase.isStopping)
    cases hnext : i.next? p.phase.isStopping with
    | some r =>
      rw [Item.goOn, hnext]
      rfl
    | none =>
      obtain ⟨hlt, rfl⟩ := List.getElem?_eq_some_iff.1 hn
      rw [Item.goOn_of_none hnext, List.set_getElem_self]

theorem phase_settleOne (p : Pool α) (n : Nat) : (p.settleOne n).phase = p.phase := by
  simp only [settleOne, phase_goOn]

theorem items_settleOne (p : Pool α) (n : Nat) :
    (p.settleOne n).items = p.items.modify n (Item.settled p.phase.isStopping) := by
  simp only [settleOne, items_goOn, phase_goOn, List.modify_modify_eq]
  rfl

theorem settle_range (p : Pool α) (k : Nat) :
    ((List.range k).foldl settleOne p).phase = p.phase ∧
      ∀ n, ((List.range k).foldl settleOne p).items[n]? =
        if n < k then p.items[n]?.map (Item.settled p.phase.isStopping) else p.items[n]? := by
  induction k with
  | zero => exact ⟨rfl, fun n => rfl⟩
  | succ k ih =>
    obtain ⟨hphase, hitems⟩ := ih
    rw [List.range_succ, List.foldl_append, List.foldl_cons, List.foldl_nil]
    refine ⟨(phase_settleOne ..).trans hphase, fun n => ?_⟩
    rw [items_settleOne, hphase]
    by_cases heq : k = n
    · subst heq
      rw [List.getElem?_modify_eq, hitems, if_neg (Nat.lt_irrefl k), if_pos (Nat.lt_succ_self k)]
      rfl
    · rw [List.getElem?_modify_ne _ _ heq, hitems]
      by_cases hlt : n < k
      · rw [if_pos hlt, if_pos (Nat.lt_succ_of_lt hlt)]
      · rw [if_neg hlt, if_neg (by omega)]

theorem phase_settle (p : Pool α) : p.settle.phase = p.phase := (settle_range p _).1

theorem items_settle (p : Pool α) : p.settle.items = p.items.map (Item.settled p.phase.isStopping) := by
  refine List.ext_getElem? fun n => ?_
  rw [settle, (settle_range p _).2, List.getElem?_map]
  by_cases hlt : n < p.items.length
  · rw [if_pos hlt]
  · rw [if_neg hlt, List.getElem?_eq_none (Nat.le_of_not_lt hlt)]
    rfl

theorem rests_settle (p : Pool α) : p.settle.Rests := by
  intro i hi
  rw [items_settle] at hi
  obtain ⟨j, -, rfl⟩ := List.mem_map.1 hi
  rw [phase_settle]
  exact Item.next_settled ..

theorem goOn_of_rests {p : Pool α} (h : p.Rests) (n : Nat) : p.goOn n = p := by
  have hnone : p.items[n]?.bind (Item.next? p.phase.isStopping) = none := by
    cases hn : p.items[n]? with
    | none => rfl
    | some i => exact h i (List.mem_of_getElem? hn)
  rw [goOn, hnone]

theorem settle_of_rests {p : Pool α} (h : p.Rests) : p.settle = p := by
  have hone : ∀ n, p.settleOne n = p := fun n => by simp only [settleOne, goOn_of_rests h]
  rw [settle]
  induction List.range p.items.length with
  | nil => rfl
  | cons n ns ih => rw [List.foldl_cons, hone, ih]

theorem perform_work {p : Pool α} {n : Nat} {x : Progress α} {i i' : Item α} (hn : p.items[n]? = some i)
    (hwork : i.work? = some (x, i')) : p.perform (.work n) = (.went n x, p.put n x i') := by
  simp only [perform, work?, hn, Option.bind_eq_bind, Option.bind_some, hwork]
  rfl

theorem perform_giveUp {p : Pool α} {n : Nat} {i i' : Item α} (hstop : p.phase.isStopping = true)
    (hn : p.items[n]? = some i) (hgive : i.giveUp? = some i') :
    p.perform (.giveUp n) = (.went n .givenUp, p.put n .givenUp i') := by
  simp only [perform, giveUp?, if_pos hstop, hn, Option.bind_eq_bind, Option.bind_some, hgive]
  rfl

/-- A step that a task takes by itself is a call. -/
theorem goOn_eq (p : Pool α) (n : Nat) : ∃ cs, p.goOn n = p.after cs := by
  cases hnext : p.items[n]?.bind (Item.next? p.phase.isStopping) with
  | none => exact ⟨[], by rw [goOn, hnext]; rfl⟩
  | some r =>
    obtain ⟨x, i'⟩ := r
    obtain ⟨i, hn, hi⟩ := Option.bind_eq_some_iff.1 hnext
    have hput : p.goOn n = p.put n x i' := by rw [goOn, hnext]
    rcases Item.next_eq_some hi with hwork | ⟨hstop, rfl, hgive⟩
    · exact ⟨[.work n], hput.trans (congrArg Prod.snd (perform_work hn hwork)).symm⟩
    · exact ⟨[.giveUp n], hput.trans (congrArg Prod.snd (perform_giveUp hstop hn hgive)).symm⟩

theorem settleOne_eq (p : Pool α) (n : Nat) : ∃ cs, p.settleOne n = p.after cs := by
  obtain ⟨cs₁, h₁⟩ := goOn_eq p n
  obtain ⟨cs₂, h₂⟩ := goOn_eq (p.goOn n) n
  obtain ⟨cs₃, h₃⟩ := goOn_eq ((p.goOn n).goOn n) n
  obtain ⟨cs₄, h₄⟩ := goOn_eq (((p.goOn n).goOn n).goOn n) n
  exact ⟨cs₁ ++ cs₂ ++ cs₃ ++ cs₄, by rw [after_append, after_append, after_append, ← h₁, ← h₂, ← h₃, ← h₄]; rfl⟩

/-- Letting all tasks go on is some calls, so a history may stand for a pool that settles between its calls. -/
theorem settle_eq (p : Pool α) : ∃ cs, p.settle = p.after cs := by
  rw [settle]
  induction List.range p.items.length using List.reverseRecOn with
  | nil => exact ⟨[], rfl⟩
  | append_singleton ns n ih =>
    obtain ⟨cs, hcs⟩ := ih
    obtain ⟨ds, hds⟩ := settleOne_eq (p.after cs) n
    refine ⟨cs ++ ds, ?_⟩
    rw [List.foldl_append, List.foldl_cons, List.foldl_nil, hcs, hds, after_append]

/-- Nothing happens in the wait of a pool that is at rest. -/
theorem close_eq {p : Pool α} (hrun : p.phase = .running) (hrest : p.Rests) :
    p.close? = some (p.count, { p with phase := .stopped }.settle) := by
  have hwait : ({ p with phase := .waiting } : Pool α).settle = { p with phase := .waiting } := by
    refine settle_of_rests fun i hi => ?_
    have hi := hrest i hi
    rwa [hrun] at hi
  simp [close?, shutdown?, hrun, hwait, endWait?, stop?]

end Pool

end SaveSlots
