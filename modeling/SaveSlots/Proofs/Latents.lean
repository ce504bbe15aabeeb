import SaveSlots.Proofs.Polled
/-!
# Latents beside their tasks

A `Desk` is a game in which some requests are polled for: the latents of these requests lie side by side, each may be
polled at any time, and the calls of a turn reach all of them.

A latent follows the calls for its task (`Latent.Course.first`). A task of a run is on the roster or was called for
once (`Orderly.calls_or_roster`), so a latent waits as long as its task is on the roster and knows how it ended as
soon as it is not. `latents_mirror` is the main theorem.
-/

namespace SaveSlots

variable {σ : Type}

/-! ## The calls for a task -/

/-- The calls for a task in some turns. -/
def callsFor (turns : List (Turn σ)) (n : Nat) : List Call :=
  (turns.flatMap Turn.calls).filter fun c => c.task.number = n

theorem callsFor_append (turns more : List (Turn σ)) (n : Nat) :
    callsFor (turns ++ more) n = callsFor turns n ++ callsFor more n := by
  simp only [callsFor, List.flatMap_append, List.filter_append]

theorem callsFor_singleton (x : Turn σ) (n : Nat) :
    callsFor [x] n = x.calls.filter fun c => c.task.number = n := by
  simp only [callsFor, List.flatMap_cons, List.flatMap_nil, List.append_nil]

theorem mem_callsFor {turns : List (Turn σ)} {n : Nat} {c : Call} :
    c ∈ callsFor turns n ↔ (∃ x ∈ turns, c ∈ x.calls) ∧ c.task.number = n := by
  simp only [callsFor, List.mem_filter, List.mem_flatMap, decide_eq_true_eq]

theorem length_callsFor (turns : List (Turn σ)) (n : Nat) : (callsFor turns n).length = (called turns).count n := by
  rw [callsFor, called, List.count, List.countP_map, List.countP_eq_length_filter]
  rfl

variable [SlotStore σ]

/-- A task on the roster has not been called for since, and one that has left it was called for once. -/
theorem Orderly.calls_or_roster {g : Game σ} (h : Orderly g) {t : Task} (ht : t ∈ g.manager.tasks)
    (ms : List (Move σ)) :
    (t.number ∈ (g.run ms).manager.tasks.map Task.number → callsFor (g.trace ms) t.number = []) ∧
    (t.number ∉ (g.run ms).manager.tasks.map Task.number → ∃ c, callsFor (g.trace ms) t.number = [c]) := by
  have hbefore : (g.manager.tasks.map Task.number).count t.number = 1 :=
    List.count_eq_one_of_mem h.distinct (List.mem_map_of_mem ht)
  -- tasks made since have larger numbers
  have hmade : (made (g.trace ms)).count t.number = 0 := by
    rw [List.count_eq_zero, made_eq]
    intro hn
    have hlt := h.issued t ht
    have hle := List.left_le_of_mem_range' hn
    omega
  have hbalance := (balance h ms).count_eq t.number
  rw [List.count_append, List.count_append, hbefore, hmade, ← length_callsFor] at hbalance
  constructor
  · intro hin
    have hpos := List.count_pos_iff.2 hin
    apply List.eq_nil_of_length_eq_zero
    omega
  · intro hout
    have hzero := List.count_eq_zero.2 hout
    apply List.length_eq_one_iff.1
    omega

/-! ## Latents -/

namespace Latent

omit [SlotStore σ] in
/-- The first call for its task reaches a latent, and the later ones do not matter. -/
theorem hear_pending (n : Nat) (calls : List Call) : (pending n none).hear calls =
    pending n ((calls.filter fun c => c.task.number = n).head?.map Call.reply) := by
  induction calls with
  | nil => rfl
  | cons c calls ih =>
    by_cases hn : c.task.number = n
    · have hfirst : (pending n none).hear (c :: calls) = (pending n (some c.reply)).hear calls := by
        simp [hear, deliver, hn]
      rw [hfirst, hear_some, List.filter_cons_of_pos (by simpa using hn)]
      rfl
    · have hpast : (pending n none).hear (c :: calls) = (pending n none).hear calls := by
        simp [hear, deliver, Ne.symm hn]
      rw [hpast, ih, List.filter_cons_of_neg (by simpa using hn)]

omit [SlotStore σ] in
/-- The latent of a request that was accepted has nothing as long as its task is not called for, and the first reply
to it from then on. -/
theorem Course.first {n : Nat} {turns : List (Turn σ)} {l : Latent} (h : Course (.pending n none) turns l) :
    (callsFor turns n = [] ∧ l = .pending n none) ∨
    ∃ c rest, callsFor turns n = c :: rest ∧
      (l = .pending n (some c.reply) ∨ l = .resolved (statusOf c.reply) c.reply) := by
  induction h with
  | made => exact .inl ⟨rfl, rfl⟩
  | turn h x ih =>
    rw [callsFor_append, callsFor_singleton]
    rcases ih with ⟨hnone, rfl⟩ | ⟨c, rest, hcalls, hl⟩
    · rw [hnone, List.nil_append, hear_pending]
      cases x.calls.filter fun c => c.task.number = n with
      | nil => exact .inl ⟨rfl, rfl⟩
      | cons c rest => exact .inr ⟨c, rest, rfl, .inl rfl⟩
    · rw [hcalls]
      refine .inr ⟨c, _, rfl, hl.imp ?_ ?_⟩
      · rintro rfl
        exact hear_some ..
      · rintro rfl
        exact hear_resolved ..
  | poll h ih =>
    rcases ih with ⟨hnone, rfl⟩ | ⟨c, rest, hcalls, rfl | rfl⟩
    · exact .inl ⟨hnone, rfl⟩
    · exact .inr ⟨c, rest, hcalls, .inr rfl⟩
    · exact .inr ⟨c, rest, hcalls, .inr rfl⟩

/-- A poll that is answered settles a latent for good. -/
theorem polled_of_ready {l : Latent} {status : OpStatus} (h : l.poll = .ready status) :
    ∃ reply, l.polled = .resolved status reply := by
  unfold poll at h
  cases hl : l.polled with
  | pending n inbox =>
    rw [hl] at h
    cases h
  | resolved status' reply =>
    rw [hl] at h
    cases h
    exact ⟨reply, rfl⟩

end Latent

/-! ## Desks -/

/-- A game and those who poll for replies. -/
structure Desk (σ : Type) where
  game : Game σ
  /-- The latents of the requests that are polled for, in their order. -/
  latents : List Latent

namespace Desk

inductive Act (σ : Type) where
  | move (m : Move σ)
  /-- A request that is polled for. -/
  | ask (r : Request) (now : Instant)
  | poll (i : Nat)

/-- What an act means to the game. -/
def Act.move? : Act σ → Option (Move σ)
  | move m => some m
  | ask r now => some (.request r now)
  | poll _ => none

omit [SlotStore σ] in
def new (p : Preset) (s : σ) (w : World) : Desk σ := ⟨.new p s w, []⟩

def step (d : Desk σ) : Act σ → Desk σ
  | .move m => ⟨d.game.step m, d.latents.map fun l => l.hear (Turn.calls ⟨d.game, m⟩)⟩
  | .ask r now =>
    ⟨d.game.step (.request r now),
      d.latents ++ [.ofRequest ((d.game.manager.request d.game.store now r).map Prod.fst)]⟩
  | .poll i => { d with latents := d.latents.modify i Latent.polled }

def run (d : Desk σ) (as : List (Act σ)) : Desk σ := as.foldl step d

/-- The turns of the game in some acts. -/
def trace (d : Desk σ) (as : List (Act σ)) : List (Turn σ) := d.game.trace (as.filterMap Act.move?)

variable {d : Desk σ}

theorem run_append (as bs : List (Act σ)) : d.run (as ++ bs) = (d.run as).run bs := List.foldl_append

theorem game_run (as : List (Act σ)) : (d.run as).game = d.game.run (as.filterMap Act.move?) := by
  induction as generalizing d with
  | nil => rfl
  | cons a as ih =>
    change ((d.step a).run as).game = _
    rw [ih]
    cases a <;> rfl

theorem trace_append_move (as : List (Act σ)) {a : Act σ} {m : Move σ} (ha : a.move? = some m) :
    d.trace (as ++ [a]) = d.trace as ++ [⟨(d.run as).game, m⟩] := by
  rw [trace, List.filterMap_append, Game.trace_append, game_run, List.filterMap_cons_some ha]
  rfl

/-- A latent on a desk takes a course of its own, whatever becomes of the others. -/
theorem course {i : Nat} {l₀ : Latent} (hl : d.latents[i]? = some l₀) (as : List (Act σ)) :
    ∃ l, (d.run as).latents[i]? = some l ∧ Latent.Course l₀ (d.trace as) l := by
  induction as using List.reverseRecOn with
  | nil => exact ⟨l₀, hl, .made⟩
  | append_singleton as a ih =>
    obtain ⟨l, hat, hcourse⟩ := ih
    rw [run_append]
    change ∃ l, ((d.run as).step a).latents[i]? = some l ∧ _
    cases a with
    | move m =>
      refine ⟨l.hear (Turn.calls ⟨(d.run as).game, m⟩), ?_, ?_⟩
      · simp only [step, List.getElem?_map, hat, Option.map_some]
      · rw [trace_append_move as rfl]
        exact .turn hcourse _
    | ask r now =>
      have hlt := (List.getElem?_eq_some_iff.1 hat).1
      refine ⟨l, (List.getElem?_append_left hlt).trans hat, ?_⟩
      rw [trace_append_move as rfl]
      exact .turn hcourse ⟨(d.run as).game, .request r now⟩
    | poll j =>
      have htrace : d.trace (as ++ [.poll j]) = d.trace as := by
        rw [trace, List.filterMap_append]
        exact congrArg d.game.trace (List.append_nil _)
      rw [htrace]
      by_cases hj : j = i
      · subst hj
        exact ⟨l.polled, by simp [step, hat], .poll hcourse⟩
      · exact ⟨l, by simp [step, hat, hj], hcourse⟩

/-- A latent that a poll was answered by stays as it is. -/
theorem settled {i : Nat} {status : OpStatus} {reply : Reply} (hl : d.latents[i]? = some (.resolved status reply))
    (as : List (Act σ)) : (d.run as).latents[i]? = some (.resolved status reply) := by
  obtain ⟨l, hat, hcourse⟩ := course hl as
  rw [hat, hcourse.resolved]

/-- What a latent tells about the task of its request, given the turns since then. -/
structure Mirrors (d : Desk σ) (since : List (Turn σ)) (n : Nat) (l : Latent) : Prop where
  /-- There is no answer as long as the task is on the roster. -/
  waits : n ∈ d.game.manager.tasks.map Task.number → l.poll = .pending
  /-- Once it is not, its caller was called exactly once, as a tick ended the task or teardown cancelled it. A poll is
  answered by how the task ended, and makes its reply the result. -/
  tells : n ∉ d.game.manager.tasks.map Task.number →
    ∃ x ∈ since, ∃ c ∈ x.calls, callsFor since n = [c] ∧ x.Settles c ∧
      l.poll = .ready (if c.task.state = .succeeded then .succeeded else .failed) ∧ l.polled.result? = some c.reply

omit [SlotStore σ] in
/-- The status of a reply is that in which its task ended. -/
theorem status_of_settles {x : Turn σ} {c : Call} (h : x.Settles c) :
    Latent.statusOf c.reply = if c.task.state = .succeeded then .succeeded else .failed := by
  rcases h.how with ⟨_, -, -, hstate⟩ | ⟨-, hstate, hreply⟩
  · rw [hstate, Latent.statusOf]
    cases c.reply.isOk <;> rfl
  · rw [hstate, hreply]
    rfl

/-- The latent of a request that was accepted mirrors its task. -/
theorem mirrors (h : Orderly d.game) {t : Task} (ht : t ∈ d.game.manager.tasks) {as : List (Act σ)} {l : Latent}
    (hl : Latent.Course (.pending t.number none) (d.trace as) l) : Mirrors (d.run as) (d.trace as) t.number l := by
  obtain ⟨hon, hoff⟩ := h.calls_or_roster ht (as.filterMap Act.move?)
  constructor
  · intro hroster
    rw [game_run] at hroster
    rcases hl.first with ⟨-, rfl⟩ | ⟨c, rest, hcalls, -⟩
    · rfl
    · rw [trace, hon hroster] at hcalls
      cases hcalls
  · intro hroster
    rw [game_run] at hroster
    obtain ⟨c, hc⟩ := hoff hroster
    rcases hl.first with ⟨hnone, -⟩ | ⟨c', rest, hcalls, hl⟩
    · rw [trace, hc] at hnone
      cases hnone
    · rw [trace, hc] at hcalls
      cases hcalls
      obtain ⟨⟨x, hx, hcx⟩, -⟩ := mem_callsFor.1 (List.mem_of_mem_head? (by rw [hc]; rfl))
      have hsettles := Turn.settles (h.turns hx) hcx
      refine ⟨x, hx, c, hcx, hc, hsettles, ?_⟩
      rw [← status_of_settles hsettles]
      rcases hl with rfl | rfl <;> exact ⟨rfl, rfl⟩

end Desk

open Desk

/-- In every run with any number of latents, polled at any time: the latent of a request is rejected with the error of
the request if the request is refused, and then there is no task; else it mirrors its task. A poll that is answered is
answered the same way ever after, and the result stays. -/
theorem latents_mirror (p : Preset) (s : σ) (w : World) (before : List (Act σ)) (r : Request) (now : Instant)
    (after : List (Act σ)) :
    let d := (Desk.new p s w).run before
    let asked := d.step (.ask r now)
    ∃ l, (asked.run after).latents[d.latents.length]? = some l ∧
      (∀ e, d.game.manager.request d.game.store now r = .error e →
        l = .resolved .rejected (.error e) ∧ asked.game = d.game) ∧
      (∀ t m, d.game.manager.request d.game.store now r = .ok (t, m) →
        t ∈ asked.game.manager.tasks ∧ Desk.Mirrors (asked.run after) (asked.trace after) t.number l) ∧
      ∀ status, l.poll = .ready status → ∃ reply, l.polled.result? = some reply ∧ ∀ later,
        ((asked.run after).run (.poll d.latents.length :: later)).latents[d.latents.length]? =
          some (.resolved status reply) := by
  intro d asked
  have horderly : Orderly asked.game := by
    change Orderly (d.game.step (.request r now))
    rw [show d = (Desk.new p s w).run before from rfl, game_run]
    exact ((orderly_new p s w).run _).step _
  have hlast : asked.latents[d.latents.length]? =
      some (.ofRequest ((d.game.manager.request d.game.store now r).map Prod.fst)) := List.getElem?_concat_length
  obtain ⟨l, hat, hcourse⟩ := course hlast after
  refine ⟨l, hat, ?_, ?_, ?_⟩
  · intro e he
    rw [he] at hcourse
    refine ⟨hcourse.resolved, ?_⟩
    change d.game.step (.request r now) = d.game
    simp only [Game.step, he]
  · intro t m ht
    rw [ht] at hcourse
    have hmem : t ∈ asked.game.manager.tasks := by
      obtain ⟨-, -, -, rfl⟩ := Manager.request_ok ht
      change t ∈ (d.game.step (.request r now)).manager.tasks
      simp [Game.step, ht]
    exact ⟨hmem, mirrors horderly hmem hcourse⟩
  · intro status hready
    obtain ⟨reply, hpolled⟩ := Latent.polled_of_ready hready
    refine ⟨reply, by rw [hpolled]; rfl, fun later => ?_⟩
    apply settled (d := (asked.run after).step (.poll d.latents.length))
    simp [Desk.step, hat, hpolled]

/-- A listing and a save are polled for; the listing ends, and teardown cancels the save. -/
def torn : List (Act MemoryStore) :=
  [.poll 0, .ask (.infos true) .epoch, .move (.tick .epoch), .move (.work 1), .poll 1, .move (.tick .epoch), .poll 1,
    .move Move.deinitialize]

/-- A save that teardown cancels has failed, as its latent will say to the next poll. -/
theorem latents_mirror_torn :
    let d := (Desk.new .default MemoryStore.empty (World.new "harbor")).step (.ask (.save 1 false none) .epoch)
    ∃ l, (d.run torn).latents[0]? = some l ∧ l.status? = none ∧
      ∃ x ∈ d.trace torn, ∃ c ∈ x.calls, callsFor (d.trace torn) 0 = [c] ∧ x.Settles c ∧ c.reply = .error .cancelled ∧
        l.poll = .ready .failed ∧ l.polled.result? = some (.error .cancelled) := by
  intro d
  obtain ⟨l, hat, -, hmirrors, -⟩ :=
    latents_mirror .default MemoryStore.empty (World.new "harbor") [] (.save 1 false none) .epoch torn
  have hl : l = .pending 0 (some (.error .cancelled)) := by
    cases hat
    rfl
  obtain ⟨-, hm⟩ := hmirrors _ _ rfl
  obtain ⟨x, hx, c, hc, hcalls, hsettles, -, hresult⟩ := hm.tells (by decide)
  rw [hl] at hresult
  have hreply : c.reply = .error .cancelled := (Option.some.inj hresult).symm
  exact ⟨l, hat, by rw [hl]; rfl, x, hx, c, hc, hcalls, hsettles, hreply, by rw [hl]; rfl, by rw [hl]; rfl⟩

end SaveSlots
