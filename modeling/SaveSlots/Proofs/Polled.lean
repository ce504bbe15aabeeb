import SaveSlots.Latent
import SaveSlots.Proofs.Refused
/-!
# Requests that are polled

A latent hears of the calls of its manager and may be polled at any time (`Latent.Course`). It keeps the first reply
to its task and hears nothing else, so a latent of an accepted request has nothing, or a reply that its task was given,
which a poll may have taken note of (`Latent.Course.pending`). One of a request that was refused is what it was at
once.
-/

namespace SaveSlots

variable {σ : Type}

/-- Whether a reply was given to a task in some turns. -/
def Replied (turns : List (Turn σ)) (task : Nat) (reply : Reply) : Prop :=
  ∃ x ∈ turns, ∃ c ∈ x.calls, c.task.number = task ∧ c.reply = reply

theorem Replied.left {turns more : List (Turn σ)} {task : Nat} {reply : Reply} (h : Replied turns task reply) :
    Replied (turns ++ more) task reply := by
  obtain ⟨x, hx, hc⟩ := h
  exact ⟨x, List.mem_append_left _ hx, hc⟩

namespace Latent

/-- The replies of some calls arrive one after another. -/
def hear (l : Latent) (calls : List Call) : Latent := calls.foldl (fun l c => l.deliver c.task.number c.reply) l

/-- What may become of a latent in some turns. -/
inductive Course (l : Latent) : List (Turn σ) → Latent → Prop
  | made : Course l [] l
  | turn {turns : List (Turn σ)} {l' : Latent} (h : Course l turns l') (x : Turn σ) :
      Course l (turns ++ [x]) (l'.hear x.calls)
  | poll {turns : List (Turn σ)} {l' : Latent} (h : Course l turns l') : Course l turns l'.polled

/-! ## Hearing -/

theorem hear_resolved (status : OpStatus) (reply : Reply) (calls : List Call) :
    (resolved status reply).hear calls = resolved status reply := by
  induction calls with
  | nil => rfl
  | cons c calls ih => exact ih

/-- The first reply stays in the inbox. -/
theorem hear_some (n : Nat) (reply : Reply) (calls : List Call) :
    (pending n (some reply)).hear calls = pending n (some reply) := by
  induction calls with
  | nil => rfl
  | cons c calls ih => exact ih

theorem hear_none (n : Nat) (calls : List Call) :
    (pending n none).hear calls = pending n none ∨
      ∃ c ∈ calls, c.task.number = n ∧ (pending n none).hear calls = pending n (some c.reply) := by
  induction calls with
  | nil => exact .inl rfl
  | cons c calls ih =>
    have hcons : (pending n none).hear (c :: calls) =
        (pending n (if n = c.task.number then some c.reply else none)).hear calls := rfl
    rw [hcons]
    by_cases hn : n = c.task.number
    · rw [if_pos hn, hear_some]
      exact .inr ⟨c, by simp, hn.symm, rfl⟩
    · rw [if_neg hn]
      rcases ih with hnone | ⟨c', hc', hn', hsome⟩
      · exact .inl hnone
      · exact .inr ⟨c', by simp [hc'], hn', hsome⟩

/-! ## Courses -/

namespace Course

variable {turns : List (Turn σ)} {l : Latent}

/-- A latent that is resolved stays as it is. -/
theorem resolved {status : OpStatus} {reply : Reply} (h : Course (.resolved status reply) turns l) :
    l = .resolved status reply := by
  induction h with
  | made => rfl
  | turn h x ih => rw [ih, hear_resolved]
  | poll h ih =>
    rw [ih]
    rfl

/-- The latent of a request that was accepted has nothing yet, or a reply that its task was given. -/
theorem pending {n : Nat} (h : Course (.pending n none) turns l) :
    l = .pending n none ∨ ∃ reply, Replied turns n reply ∧
      (l = .pending n (some reply) ∨ l = .resolved (statusOf reply) reply) := by
  induction h with
  | made => exact .inl rfl
  | turn h x ih =>
    rcases ih with rfl | ⟨reply, hreply, rfl | rfl⟩
    · rcases hear_none n x.calls with hnone | ⟨c, hc, hn, hsome⟩
      · exact .inl hnone
      · exact .inr ⟨c.reply, ⟨x, by simp, c, hc, hn, rfl⟩, .inl hsome⟩
    · exact .inr ⟨reply, hreply.left, .inl (hear_some ..)⟩
    · exact .inr ⟨reply, hreply.left, .inr (hear_resolved ..)⟩
  | poll h ih =>
    rcases ih with rfl | ⟨reply, hreply, rfl | rfl⟩
    · exact .inl rfl
    · exact .inr ⟨reply, hreply, .inr rfl⟩
    · exact .inr ⟨reply, hreply, .inr rfl⟩

end Course

end Latent

variable [SlotStore σ]

/-- The latent of a request, as it is at once. -/
def Turn.latent? (x : Turn σ) : Option Latent :=
  match x.move with
  | .request r now => some (.ofRequest ((x.game.manager.request x.game.store now r).map Prod.fst))
  | _ => none

/-- The latent of a request that was refused has the error of the request, and one that failed has an error that its
task was given. -/
theorem Latent.Course.error {x : Turn σ} {turns : List (Turn σ)} {l₀ l : Latent} (hx : x.latent? = some l₀)
    (h : Latent.Course l₀ turns l) {e : SlotError} (he : l.result? = some (.error e)) :
    l.status? = some .rejected ∧ x.refused? = some e ∨
    l.status? = some .failed ∧ ∃ t, x.made? = some t ∧ Replied turns t.number (.error e) := by
  unfold Turn.latent? at hx
  split at hx
  · next r now hm =>
    cases hq : x.game.manager.request x.game.store now r with
    | error e' =>
      obtain rfl : Latent.resolved .rejected (.error e') = l₀ := by simpa [hq, ofRequest, Except.map] using hx
      rw [h.resolved] at he ⊢
      cases he
      exact .inl ⟨rfl, by simp only [Turn.refused?, hm, hq]⟩
    | ok tm =>
      obtain rfl : Latent.pending tm.1.number none = l₀ := by simpa [hq, ofRequest, Except.map] using hx
      refine .inr ?_
      rcases h.pending with rfl | ⟨reply, hreply, rfl | rfl⟩
      · cases he
      · cases he
      · cases he
        exact ⟨rfl, tm.1, by simp [Turn.made?, hm, hq, Except.toOption], hreply⟩
  · cases hx

end SaveSlots
