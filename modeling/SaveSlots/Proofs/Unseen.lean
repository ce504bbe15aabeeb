import SaveSlots.Proofs.Ranked
/-!
# Listings are not seen

A run of a manager shows what its calls find and what they leave behind, what they are answered, and what is told in
their turns (`shows`), all without listings. `listings_unseen` is the main theorem: as long as work is done before the
next call comes, two runs that differ in their listings only, and in when and in which order work is done, show the
same.

The two runs go on at their own pace: from one call to the next, work is done here that is still to be done there.
So their cores are not the same all the time, but both are a common core, or what comes of it by the work of its actor
(`Stands`). By the next call work has settled on both sides, and the cores are the same.
-/

namespace SaveSlots

variable {σ : Type}

/-! ## What is seen of a game -/

/-- A game for those who do not list. -/
structure Sight (σ : Type) where
  world : World
  store : σ
  active : Option (SlotInfo × Snapshot)
  observers : List String
  regions : RegionTracker
  running : Bool
  /-- The tasks on the roster that do more than list, with their states, filters and jobs. -/
  tasks : List (TaskState × SaveFilter × Job)

def Game.sight (g : Game σ) : Sight σ where
  world := g.world
  store := g.store
  active := g.manager.active
  observers := g.manager.observers
  regions := g.manager.regions
  running := g.manager.running
  tasks := (g.manager.tasks.filter Task.locks).map Task.content

def Core.sight (c : Core σ) : Sight σ where
  world := c.world
  store := c.store
  active := c.active
  observers := c.observers
  regions := c.regions
  running := c.running
  tasks := if c.running then c.actor.toList else []

theorem Tidy.sight_eq {g : Game σ} (h : Tidy g) : g.sight = g.core.sight := by
  have htasks : (g.manager.tasks.filter Task.locks).map Task.content =
      if g.manager.running then (g.actor?.map Task.content).toList else [] := by
    cases hr : g.manager.running with
    | false => simp [(h.stopped hr).1]
    | true =>
      rw [h.actor_running hr]
      cases ht : g.manager.holder? with
      | none =>
        have hno : g.manager.tasks.filter Task.locks = [] :=
          List.filter_eq_nil_iff.2 fun t hmem => by simp [Orderly.unlocked_of_none ht t hmem]
        rw [hno]
        rfl
      | some t =>
        obtain ⟨hl, before, after, htasks, hb, ha⟩ := h.holder_split ht
        have hbefore : before.filter Task.locks = [] := List.filter_eq_nil_iff.2 fun t hmem => by simp [hb t hmem]
        have hafter : after.filter Task.locks = [] := List.filter_eq_nil_iff.2 fun t hmem => by simp [ha t hmem]
        simp [htasks, List.filter_append, hl, hbefore, hafter]
  rw [Game.sight, htasks]
  rfl

section
variable [SlotStore σ]

/-- Whether the work of all tasks that do more than list has come to an end, or to a closed gate. -/
def Game.Settled (g : Game σ) : Prop := ∀ t ∈ g.everyTask, t.locks = true → t.job.rests g.store = true

instance (g : Game σ) : Decidable g.Settled :=
  inferInstanceAs (Decidable (∀ t ∈ g.everyTask, t.locks = true → t.job.rests g.store = true))

theorem Game.Settled.core {g : Game σ} (h : g.Settled) : g.core.Rests := by
  intro a ha
  obtain ⟨t, ht, rfl⟩ := Option.map_eq_some_iff.1 ha
  exact h t (List.mem_of_find?_eq_some ht) (List.find?_some ht)

/-! ## What is seen of a run -/

/-- What is seen of a move: a call, the world's and the store's own ways among them, or that work breaks down. -/
inductive Seen (σ : Type) where
  | call (m : Move σ)
  | broke

/-- Listings are not seen, nor how work goes on; and it does not matter if nothing breaks down but a listing. -/
def Turn.seen? (x : Turn σ) : Option (Seen σ) :=
  match x.move with
  | .request r now => if r.lists then none else some (.call (.request r now))
  | .work _ => none
  | .lose n => if x.game.breaks n then some .broke else none
  | m => some (.call m)

/-- What comes of a call. -/
structure Show (σ : Type) where
  before : Sight σ
  answer : Answer
  news : List Event
  after : Sight σ

/-- What comes of the calls of a run, after requests of tasks with the numbers in `asked`. -/
def shows (asked : List Nat) : List (Turn σ) → List (Show σ)
  | [] => []
  | x :: turns =>
    match x.seen? with
    | some (.call _) => ⟨x.game.sight, x.answer, x.news asked, x.after.sight⟩ :: shows (asked ++ x.asks) turns
    | some .broke | none => shows (asked ++ x.asks) turns

/-- Whether a turn is a call that is seen. -/
def Turn.isCall (x : Turn σ) : Bool :=
  match x.seen? with
  | some (.call _) => true
  | some .broke | none => false

/-- Whether all work settles before the next call. -/
def Unhurried (turns : List (Turn σ)) : Prop := ∀ x ∈ turns, x.isCall = true → x.game.Settled

instance (turns : List (Turn σ)) : Decidable (Unhurried turns) :=
  inferInstanceAs (Decidable (∀ x ∈ turns, x.isCall = true → x.game.Settled))

namespace Turn

variable {g : Game σ} {m : Move σ}

omit [SlotStore σ] in
theorem unseen_cases (h : Turn.seen? ⟨g, m⟩ = none) :
    (∃ r now, m = .request r now ∧ r.lists = true) ∨ (∃ n, m = .work n) ∨ ∃ n, m = .lose n ∧ g.breaks n = false := by
  cases m with
  | request r now =>
    simp only [seen?] at h
    split at h
    · next hr => exact .inl ⟨r, now, rfl, hr⟩
    · cases h
  | work n => exact .inr (.inl ⟨n, rfl⟩)
  | lose n =>
    simp only [seen?] at h
    split at h
    · cases h
    · next hn => exact .inr (.inr ⟨n, rfl, by simpa using hn⟩)
  | _ => cases h

omit [SlotStore σ] in
theorem broke_cases (h : Turn.seen? ⟨g, m⟩ = some .broke) : ∃ n, m = .lose n ∧ g.breaks n = true := by
  cases m with
  | request r now =>
    simp only [seen?] at h
    split at h <;> cases h
  | lose n =>
    simp only [seen?] at h
    split at h
    · next hn => exact ⟨n, rfl, hn⟩
    · cases h
  | _ => cases h

omit [SlotStore σ] in
theorem call_cases {m' : Move σ} (h : Turn.seen? ⟨g, m⟩ = some (.call m')) :
    m = m' ∧ (∀ r now, m = .request r now → r.lists = false) ∧ (∀ n, m ≠ .work n) ∧ ∀ n, m ≠ .lose n := by
  cases m with
  | request r now =>
    simp only [seen?] at h
    split at h
    · cases h
    · next hr =>
      cases h
      refine ⟨rfl, fun r' now' heq => ?_, by simp, by simp⟩
      cases heq
      simpa using hr
  | lose n =>
    simp only [seen?] at h
    split at h <;> cases h
  | work n => cases h
  | _ =>
    cases h
    simp

/-- Only requests that do more than list ask for something. -/
theorem asks_of_unseen (h : Turn.seen? ⟨g, m⟩ = none) : Turn.asks ⟨g, m⟩ = [] := by
  rcases Turn.asks_cases ⟨g, m⟩ with ⟨hasks, -⟩ | ⟨t, hmade, hl, -⟩
  · exact hasks
  · obtain ⟨r, now, m', hmove, -, hq⟩ := Turn.request_of_made hmade
    obtain rfl : m = .request r now := hmove
    obtain ⟨r', now', hr', hlists⟩ | ⟨n, hn⟩ | ⟨n, hn, -⟩ := unseen_cases h
    · cases hr'
      rw [Manager.locks_request hq, hlists] at hl
      cases hl
    · cases hn
    · cases hn

/-- A request that does more than list asks for one task, unless it is refused. -/
theorem length_asks_request {r : Request} (hr : r.lists = false) {now : Instant} :
    (Turn.asks ⟨g, .request r now⟩).length = if (g.manager.job g.store r).isOk then 1 else 0 := by
  cases hj : g.manager.job g.store r with
  | error e =>
    have hq := Manager.request_of_error hj now
    simp [Turn.asks, Turn.made?, hq, Except.toOption, Except.isOk, Except.toBool]
  | ok job =>
    have hq := Manager.request_of_job hj now
    have hl : (g.manager.register now job).1.locks = true := (Manager.locks_request hq).trans (by rw [hr]; rfl)
    simp [Turn.asks, Turn.made?, hq, hl, Except.toOption, Except.isOk, Except.toBool, Option.filter]

end Turn

/-! ## Two runs -/

/-- One of two games that go on at their own pace, with the common core `c`. Tasks that do more than list were asked for
`k` times so far. -/
structure Stands (p : Preset) (c : Core σ) (k : Nat) (asked : List Nat) (g : Game σ) : Prop where
  tidy : Tidy g
  preset : g.manager.preset = p
  core : g.core = c ∨ g.core = c.worked
  ranked : Ranked asked g
  count : asked.length = k

namespace Stands

variable {p : Preset} {c : Core σ} {k : Nat} {asked : List Nat} {g : Game σ} {m : Move σ}

/-- A move that is not seen leaves the common core as it is. -/
theorem unseen (h : Stands p c k asked g) (hm : Turn.seen? ⟨g, m⟩ = none) :
    Stands p c k (asked ++ Turn.asks ⟨g, m⟩) (g.step m) := by
  have hranked := h.ranked.step h.tidy.toOrderly m
  have hcore : (g.step m).core = g.core ∨ (g.step m).core = g.core.worked := by
    rcases Turn.unseen_cases hm with ⟨r, now, rfl, hlists⟩ | ⟨n, rfl⟩ | ⟨n, rfl, hn⟩
    · exact .inl (g.core_listing hlists now)
    · exact h.tidy.core_work n
    · rw [g.core_lose, hn]
      exact .inl rfl
  have hidem : c.worked.worked = c.worked := Core.worked_of_rests c.rests_worked
  refine ⟨h.tidy.step m, (Orderly.preset_step g m).trans h.preset, ?_, hranked, ?_⟩
  · rcases h.core with hc | hc <;> rw [hc] at hcore
    · exact hcore
    · rw [hidem] at hcore
      exact .inr (hcore.elim id id)
  · rw [Turn.asks_of_unseen hm, List.append_nil]
    exact h.count

/-- Work that breaks down does so on either side, whether it stands behind a gate or has not begun. -/
theorem broke (h : Stands p c k asked g) (hm : Turn.seen? ⟨g, m⟩ = some .broke) :
    Stands p c.broken k (asked ++ Turn.asks ⟨g, m⟩) (g.step m) := by
  have hranked := h.ranked.step h.tidy.toOrderly m
  obtain ⟨n, rfl, hn⟩ := Turn.broke_cases hm
  have hfly := Game.inFlight_of_breaks hn
  refine ⟨h.tidy.step _, (Orderly.preset_step g _).trans h.preset, .inl ?_, hranked, ?_⟩
  · rw [g.core_lose, if_pos hn]
    rcases h.core with hc | hc
    · rw [hc]
    · rw [hc] at hfly ⊢
      exact Core.broken_worked hfly
  · rw [show Turn.asks ⟨g, .lose n⟩ = [] from rfl, List.append_nil]
    exact h.count

/-- Where work has settled, the core is what the common core becomes by it. -/
theorem settled (h : Stands p c k asked g) (hs : g.Settled) : g.core = c.worked := by
  rcases h.core with hc | hc
  · have hrests := hs.core
    rw [hc] at hrests ⊢
    exact (Core.worked_of_rests hrests).symm
  · exact hc

end Stands

namespace Alike

variable {g g' : Game σ}

/-- As much is told of the holder on either side. -/
theorem news (h : Alike g g') {asked asked' : List Nat} (hr : Ranked asked g) (hr' : Ranked asked' g')
    (hcount : asked'.length = asked.length) (m : Move σ) : Turn.news ⟨g', m⟩ asked' = Turn.news ⟨g, m⟩ asked := by
  rcases h.holder with ⟨hn, hn'⟩ | ⟨t, t', ht, ht', hcontent⟩
  · rw [hr.news_unheld hn, hr'.news_unheld hn']
  · obtain ⟨hstate, hfilter, hjob⟩ := content_eq hcontent
    have hkind : t'.kind = t.kind := congrArg Job.kind hjob
    have hnotify := Manager.notify_congr h.observers
    cases m with
    | tick now =>
      rw [hr.news_tick h.left.toOrderly ht, hr'.news_tick h.right.toOrderly ht', Manager.opening, Manager.opening,
        hnotify, hcount, hstate, hfilter, hkind, hjob, h.preset, h.world]
    | deinitialize =>
      rw [hr.news_stop h.left.toOrderly ht, hr'.news_stop h.right.toOrderly ht', hnotify, hcount, hstate, hfilter,
        hkind]
    | _ => rfl

/-- As many tasks are asked for on either side. -/
theorem length_asks (h : Alike g g') {m : Move σ} (hr : ∀ r now, m = .request r now → r.lists = false) :
    (Turn.asks ⟨g', m⟩).length = (Turn.asks ⟨g, m⟩).length := by
  by_cases hq : ∃ r now, m = .request r now
  · obtain ⟨r, now, rfl⟩ := hq
    have hlists := hr r now rfl
    rw [Turn.length_asks_request hlists, Turn.length_asks_request hlists, h.job r hlists]
  · have hnone : ∀ u : Game σ, Turn.asks ⟨u, m⟩ = [] := by
      intro u
      cases m with
      | request r now => exact absurd ⟨r, now, rfl⟩ hq
      | _ => rfl
    rw [hnone, hnone]

end Alike

namespace Stands

variable {p : Preset} {c : Core σ} {k : Nat} {asked asked' : List Nat} {g g' : Game σ} {ms ms' : List (Move σ)}
  {x : Seen σ} {xs : List (Seen σ)}

/-- Two games that have settled show the same of a call, and have a common core after it. -/
theorem call {m : Move σ} (h : Stands p c k asked g) (h' : Stands p c k asked' g') (hs : g.Settled) (hs' : g'.Settled)
    (hr : ∀ r now, m = .request r now → r.lists = false) (hwork : ∀ n, m ≠ .work n) (hlose : ∀ n, m ≠ .lose n) :
    (∃ c' k', Stands p c' k' (asked ++ Turn.asks ⟨g, m⟩) (g.step m) ∧
      Stands p c' k' (asked' ++ Turn.asks ⟨g', m⟩) (g'.step m)) ∧
    g'.sight = g.sight ∧ Turn.answer ⟨g', m⟩ = Turn.answer ⟨g, m⟩ ∧
      Turn.news ⟨g', m⟩ asked' = Turn.news ⟨g, m⟩ asked ∧ (g'.step m).sight = (g.step m).sight := by
  have halike : Alike g g' :=
    ⟨h.tidy, h'.tidy, h'.preset.trans h.preset.symm, (h'.settled hs').trans (h.settled hs).symm⟩
  have hcore := halike.core_step hr hwork hlose
  have hcount : asked'.length = asked.length := h'.count.trans h.count.symm
  refine ⟨⟨(g.step m).core, (asked ++ Turn.asks ⟨g, m⟩).length, ?_, ?_⟩, ?_, halike.answer hr,
    halike.news h.ranked h'.ranked hcount m, ?_⟩
  · exact ⟨h.tidy.step m, (Orderly.preset_step g m).trans h.preset, .inl rfl, h.ranked.step h.tidy.toOrderly m, rfl⟩
  · refine ⟨h'.tidy.step m, (Orderly.preset_step g' m).trans h'.preset, .inl hcore,
      h'.ranked.step h'.tidy.toOrderly m, ?_⟩
    rw [List.length_append, List.length_append, hcount, halike.length_asks hr]
  · rw [h.tidy.sight_eq, h'.tidy.sight_eq, halike.core]
  · rw [(h.tidy.step m).sight_eq, (h'.tidy.step m).sight_eq, hcore]

/-! ## From one call to the next -/

/-- The way to the next thing that is seen. -/
theorem skip (h : Stands p c k asked g) (hseen : (g.trace ms).filterMap Turn.seen? = x :: xs) :
    ∃ g₁ m ms₁ asked₁, Stands p c k asked₁ g₁ ∧ Turn.seen? ⟨g₁, m⟩ = some x ∧
      ((g₁.step m).trace ms₁).filterMap Turn.seen? = xs ∧ (g₁.step m).run ms₁ = g.run ms ∧
      (∀ y ∈ ⟨g₁, m⟩ :: (g₁.step m).trace ms₁, y ∈ g.trace ms) ∧
      shows asked (g.trace ms) = shows asked₁ (⟨g₁, m⟩ :: (g₁.step m).trace ms₁) := by
  induction ms generalizing asked g with
  | nil => cases hseen
  | cons m ms ih =>
    rw [Game.trace, List.filterMap_cons] at hseen
    cases hm : Turn.seen? ⟨g, m⟩ with
    | some y =>
      rw [hm] at hseen
      obtain ⟨rfl, hxs⟩ := List.cons.inj hseen
      exact ⟨g, m, ms, asked, h, hm, hxs, rfl, fun y hy => hy, rfl⟩
    | none =>
      rw [hm] at hseen
      obtain ⟨g₁, m₁, ms₁, asked₁, hstands, hx, hxs, hrun, hmem, hshows⟩ := ih (h.unseen hm) hseen
      refine ⟨g₁, m₁, ms₁, asked₁, hstands, hx, hxs, hrun, fun y hy => .tail _ (hmem y hy), ?_⟩
      rw [← hshows, Game.trace, shows, hm]

/-- The way to the end, if nothing is seen any more. -/
theorem rest (h : Stands p c k asked g) (hseen : (g.trace ms).filterMap Turn.seen? = []) :
    shows asked (g.trace ms) = [] ∧ ∃ asked₁, Stands p c k asked₁ (g.run ms) := by
  induction ms generalizing asked g with
  | nil => exact ⟨rfl, asked, h⟩
  | cons m ms ih =>
    rw [Game.trace, List.filterMap_cons] at hseen
    cases hm : Turn.seen? ⟨g, m⟩ with
    | some y =>
      rw [hm] at hseen
      cases hseen
    | none =>
      rw [hm] at hseen
      obtain ⟨hshows, hrest⟩ := ih (h.unseen hm) hseen
      refine ⟨?_, hrest⟩
      rw [Game.trace, shows, hm]
      exact hshows

/-- Two runs of which the same is seen show the same. -/
theorem shows_eq (h : Stands p c k asked g) (h' : Stands p c k asked' g')
    (hcalm : Unhurried (g.trace ms)) (hcalm' : Unhurried (g'.trace ms'))
    (hseen : (g.trace ms).filterMap Turn.seen? = xs) (hseen' : (g'.trace ms').filterMap Turn.seen? = xs) :
    shows asked' (g'.trace ms') = shows asked (g.trace ms) ∧
      ∃ c₁ k₁ asked₁ asked₁', Stands p c₁ k₁ asked₁ (g.run ms) ∧ Stands p c₁ k₁ asked₁' (g'.run ms') := by
  induction xs generalizing c k asked asked' g g' ms ms' with
  | nil =>
    obtain ⟨hshows, asked₁, hrest⟩ := h.rest hseen
    obtain ⟨hshows', asked₁', hrest'⟩ := h'.rest hseen'
    exact ⟨hshows'.trans hshows.symm, c, k, asked₁, asked₁', hrest, hrest'⟩
  | cons x xs ih =>
    obtain ⟨g₁, m, ms₁, asked₁, h₁, hx, hxs, hrun, hmem, hshows⟩ := h.skip hseen
    obtain ⟨g₁', m', ms₁', asked₁', h₁', hx', hxs', hrun', hmem', hshows'⟩ := h'.skip hseen'
    have hnext : Unhurried ((g₁.step m).trace ms₁) := fun y hy => hcalm y (hmem y (.tail _ hy))
    have hnext' : Unhurried ((g₁'.step m').trace ms₁') := fun y hy => hcalm' y (hmem' y (.tail _ hy))
    rw [hshows, hshows', shows, shows, hx, hx', ← hrun, ← hrun']
    cases x with
    | broke => exact ih (h₁.broke hx) (h₁'.broke hx') hnext hnext' hxs hxs'
    | call m₀ =>
      obtain ⟨rfl, hr, hwork, hlose⟩ := Turn.call_cases hx
      obtain ⟨rfl, -⟩ := Turn.call_cases hx'
      have hs : g₁.Settled := hcalm _ (hmem _ (.head _)) (by rw [Turn.isCall, hx])
      have hs' : g₁'.Settled := hcalm' _ (hmem' _ (.head _)) (by rw [Turn.isCall, hx'])
      obtain ⟨⟨c₁, k₁, hafter, hafter'⟩, hsight, hanswer, hnews, hleft⟩ := h₁.call h₁' hs hs' hr hwork hlose
      obtain ⟨hrest, hend⟩ := ih hafter hafter' hnext hnext' hxs hxs'
      refine ⟨?_, hend⟩
      simp only [Turn.after, hsight, hanswer, hnews, hleft, hrest]

end Stands

end

/-! ## Listings -/

/-- What a host does: it makes a move, or lists at once. -/
inductive Deed (σ : Type) where
  | move (m : Move σ)
  | listNow (recent : Bool)

section
variable [SlotStore σ]

namespace Game

/-- The game after a deed, and what was listed at once. -/
def act (g : Game σ) : Deed σ → Game σ × Option (Except SlotError (List SlotInfo))
  | .move m => (g.step m, none)
  | .listNow recent => (g, some (g.manager.listInfos g.store recent))

def acts (g : Game σ) (ds : List (Deed σ)) : Game σ := ds.foldl (fun g d => (g.act d).1) g

/-- The turns of some deeds. To list at once is not a turn. -/
def turns (g : Game σ) : List (Deed σ) → List (Turn σ)
  | [] => []
  | .move m :: ds => ⟨g, m⟩ :: (g.act (.move m)).1.turns ds
  | .listNow recent :: ds => (g.act (.listNow recent)).1.turns ds

/-- Whoever lists at once leaves the run as it is. -/
theorem turns_eq (g : Game σ) (ds : List (Deed σ)) : ∃ ms, g.turns ds = g.trace ms ∧ g.acts ds = g.run ms := by
  induction ds generalizing g with
  | nil => exact ⟨[], rfl, rfl⟩
  | cons d ds ih =>
    cases d with
    | move m =>
      obtain ⟨ms, hturns, hacts⟩ := ih (g.step m)
      exact ⟨m :: ms, congrArg _ hturns, hacts⟩
    | listNow recent => exact ih g

end Game

theorem stands_new (p : Preset) (s : σ) (w : World) :
    Stands p (Game.new p s w).core 0 [] (Game.new p s w) :=
  ⟨tidy_new p s w, rfl, .inl rfl, ranked_new p s w, rfl⟩

/-- Whoever lists, in whatever way, is not noticed. If the deeds of two runs are the same but for listings, and in both
the work of saves, loads and deletions settles before the next call, be it before a closed gate, then every call finds
the same world, store and manager in both, is answered the same, the same hooks are told and the same replies given in
the same order, to the same requests, and it leaves the same behind. So do the runs once work has settled in the end. -/
theorem listings_unseen (p : Preset) (s : σ) (w : World) {ds ds' : List (Deed σ)}
    (hcalm : Unhurried ((Game.new p s w).turns ds)) (hcalm' : Unhurried ((Game.new p s w).turns ds'))
    (hsame : ((Game.new p s w).turns ds').filterMap Turn.seen? = ((Game.new p s w).turns ds).filterMap Turn.seen?) :
    shows [] ((Game.new p s w).turns ds') = shows [] ((Game.new p s w).turns ds) ∧
      (((Game.new p s w).acts ds).Settled → ((Game.new p s w).acts ds').Settled →
        ((Game.new p s w).acts ds').sight = ((Game.new p s w).acts ds).sight) := by
  obtain ⟨ms, hturns, hacts⟩ := (Game.new p s w).turns_eq ds
  obtain ⟨ms', hturns', hacts'⟩ := (Game.new p s w).turns_eq ds'
  rw [hturns] at hcalm hsame ⊢
  rw [hturns'] at hcalm' hsame ⊢
  rw [hacts, hacts']
  have h := stands_new p s w
  obtain ⟨hshows, c, k, asked, asked', hend, hend'⟩ := h.shows_eq h hcalm hcalm' rfl hsame
  refine ⟨hshows, fun hs hs' => ?_⟩
  rw [hend.tidy.sight_eq, hend'.tidy.sight_eq, hend.settled hs, hend'.settled hs']

end

/-- A save that finds a closed gate and is written once it is opened, and a load of the slot. -/
def plain : List (Deed MemoryStore) :=
  [.move (.subscribe "hud"), .move (.request (.save 1 false none) .epoch), .move (.tick .epoch), .move (.work 0),
    .move (.tick .epoch), .move (.disturb .empty), .move (.work 0), .move (.tick .epoch),
    .move (.request (.load 1) .epoch), .move (.tick .epoch), .move (.work 1), .move (.tick .epoch), .move (.work 1),
    .move Move.deinitialize]

/-- The same with listings, which have the first number, come to the store first, and are cancelled at last. -/
def listing : List (Deed MemoryStore) :=
  [.listNow true, .move (.request (.infos false) .epoch), .move (.subscribe "hud"),
    .move (.request (.save 1 false none) .epoch), .move (.tick .epoch), .move (.work 0), .move (.work 1),
    .move (.tick .epoch), .move (.disturb .empty), .move (.request (.info 1) .epoch), .move (.work 1),
    .move (.tick .epoch), .listNow false, .move (.request (.load 1) .epoch), .move (.tick .epoch), .move (.work 3),
    .move (.tick .epoch), .move (.work 3), .move (.request (.infos true) .epoch), .move Move.deinitialize]

/-- The save and the load are the first and the second to be replied to, with and without listings. -/
theorem listings_unseen_gate :
    let g := Game.new .default { MemoryStore.empty with gateOpen := false } (World.new "harbor")
    let news := fun ds : List (Deed MemoryStore) => (shows [] (g.turns ds)).flatMap Show.news
    news listing = news plain ∧
      (news plain).filterMap Event.hook? = [.saveBegan, .saveFinished true, .loadBegan, .loadFinished false] ∧
      ((news plain).filterMap Event.reply?).map Prod.fst = [0, 1] := by
  intro g news
  let calls : List (Move MemoryStore) :=
    [.subscribe "hud", .request (.save 1 false none) .epoch, .tick .epoch, .tick .epoch, .disturb .empty, .tick .epoch,
      .request (.load 1) .epoch, .tick .epoch, .tick .epoch, Move.deinitialize]
  have hplain : (g.turns plain).filterMap Turn.seen? = calls.map .call := rfl
  have hlisting : (g.turns listing).filterMap Turn.seen? = calls.map .call := rfl
  have hsame := hlisting.trans hplain.symm
  have hshows := (@listings_unseen MemoryStore _ .default { MemoryStore.empty with gateOpen := false }
    (World.new "harbor") plain listing (by decide +kernel) (by decide +kernel) hsame).1
  exact ⟨congrArg (List.flatMap Show.news) hshows, by decide +kernel, by decide +kernel⟩

end SaveSlots
