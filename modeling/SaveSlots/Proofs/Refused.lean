import Mathlib.Data.Nat.Find
import SaveSlots.Proofs.Course
import SaveSlots.Proofs.Missing
import SaveSlots.Proofs.Saved
/-!
# Requests that are refused

What may stand in the way of a request is a `Hindrance`, and hindrances are looked for in a fixed order. While the
manager runs, a request is refused just if there is one, with the error that names the first of them.

`refused_iff_hindered` is the main theorem. A request that is refused leaves no trace, one that is accepted adds its
task to the roster and does nothing else, and a deletion that is refused leaves no trace either.
-/

namespace SaveSlots

/-! ## Requests -/

namespace Request

/-- Whether a request is about whatever slot is active. -/
def isForActive : Request → Bool
  | .saveCurrent _ | .reload => true
  | .save .. | .load _ | .info _ | .infos _ | .deleteAll => false

/-- The slot that a request is about, if it is about one. -/
def slot? (m : Manager) : Request → Option SlotId
  | .save slot _ _ | .load slot | .info slot => some slot
  | .saveCurrent _ | .reload => m.activeId
  | .infos _ | .deleteAll => none

/-- The kind of task that a request asks for. -/
def kind : Request → TaskKind
  | .save .. | .saveCurrent _ => .save
  | .load _ | .reload => .load
  | .info _ | .infos _ => .loadInfos
  | .deleteAll => .deleteAll

end Request

/-! ## Hindrances -/

section Hindrances

variable {σ : Type} [SlotStore σ]

/-- What stands in the way of a request, its place in the order in which hindrances are looked for, and the error
that names it. -/
inductive Hindrance (g : Game σ) (r : Request) : Nat → SlotError → Prop
  /-- No slot is active, and the request is about the active one. -/
  | inactive (h : r.isForActive = true) (hnone : g.manager.active = none) : Hindrance g r 0 .noActiveSlot
  /-- The preset does not allow the slot. -/
  | range {slot : SlotId} (h : r.slot? g.manager = some slot)
      (hout : slot.toInt < 0 ∨
        0 < g.manager.preset.maxSlots.toInt ∧ g.manager.preset.maxSlots.toInt ≤ slot.toInt) :
      Hindrance g r 1 (.invalidSlotId slot)
  /-- A task is on the roster that does not only list, and the request is not for a listing. -/
  | busy (h : r.kind ≠ .loadInfos) {t : Task} (ht : t ∈ g.manager.tasks) (hk : t.kind ≠ .loadInfos) :
      Hindrance g r 2 (.slotConflict (.busy t.kind))
  /-- The slot is there, and must not be overwritten. -/
  | taken {slot : SlotId} {shot : Option ScreenshotSize} (h : r = .save slot false shot)
      (hthere : SlotStore.holds g.store slot = true) : Hindrance g r 3 (.slotConflict (.overwrite slot))
  /-- The slot should be loaded, and is not there. -/
  | missing (h : r.kind = .load) {slot : SlotId} (hs : r.slot? g.manager = some slot)
      (hgone : SlotStore.holds g.store slot = false) : Hindrance g r 3 (.slotNotFound slot)

/-- Whether none of the first `n` places has a hindrance. -/
def Unhindered (g : Game σ) (r : Request) (n : Nat) : Prop := ∀ k < n, ∀ e, ¬ Hindrance g r k e

/-- Whether an error names the hindrance that is found first. -/
def FirstHindrance (g : Game σ) (r : Request) (e : SlotError) : Prop :=
  ∃ n, Hindrance g r n e ∧ Unhindered g r n

/-- Whether a check fails just for the hindrances at one place. -/
def Guards (g : Game σ) (r : Request) (n : Nat) (check : Except SlotError Unit) : Prop :=
  ∀ e, check = .error e ↔ Hindrance g r n e

variable {g : Game σ} {r : Request} {n : Nat}

theorem Unhindered.zero : Unhindered g r 0 := nofun

theorem Unhindered.succ (h : Unhindered g r n) (hn : ∀ e, ¬ Hindrance g r n e) : Unhindered g r (n + 1) := by
  intro k hk e he
  rcases Nat.lt_succ_iff_lt_or_eq.1 hk with hk | rfl
  · exact h k hk e he
  · exact hn e he

/-- A check that fails names the first hindrance if none was found before, and one that holds leaves the question to
what comes after it. -/
theorem Unhindered.check {α : Type} {check : Except SlotError Unit} {rest : Unit → Except SlotError α}
    (h : Unhindered g r n) (hc : Guards g r n check)
    (hrest : Unhindered g r (n + 1) → ∀ e, rest () = .error e ↔ FirstHindrance g r e) (e : SlotError) :
    check >>= rest = .error e ↔ FirstHindrance g r e := by
  cases hcheck : check with
  | ok u =>
    have hnone : ∀ e', ¬ Hindrance g r n e' := by
      intro e' he'
      rw [← hc e', hcheck] at he'
      cases he'
    exact hrest (h.succ hnone) e
  | error e₁ =>
    have hfirst : Hindrance g r n e₁ := (hc e₁).1 hcheck
    constructor
    · intro he
      cases he
      exact ⟨n, hfirst, h⟩
    · rintro ⟨k, hk, hleast⟩
      rcases Nat.lt_trichotomy k n with hlt | rfl | hgt
      · exact absurd hk (h k hlt e)
      · rw [← hc e, hcheck] at hk
        cases hk
        rfl
      · exact absurd hfirst (hleast n hgt e₁)

/-- Once all places have been looked at, nothing is in the way. -/
theorem Unhindered.accept {α : Type} {a : α} (h : Unhindered g r 4) (e : SlotError) :
    (.ok a : Except SlotError α) = .error e ↔ FirstHindrance g r e := by
  refine ⟨nofun, ?_⟩
  rintro ⟨k, hk, -⟩
  refine absurd hk (h k ?_ e)
  cases hk <;> decide

namespace Unhindered

theorem of_slot (h : r.isForActive = false) : Unhindered g r 1 := by
  refine Unhindered.zero.succ fun e he => ?_
  cases he with
  | inactive ha => simp [h] at ha

theorem of_active {slot : SlotId} (h : g.manager.activeId = some slot) : Unhindered g r 1 := by
  refine Unhindered.zero.succ fun e he => ?_
  cases he with
  | inactive _ hnone => simp [Manager.activeId, Manager.activeInfo, hnone] at h

theorem of_noSlot (h : Unhindered g r 1) (hs : r.slot? g.manager = none) : Unhindered g r 2 := by
  refine h.succ fun e he => ?_
  cases he with
  | range hs' =>
    rw [hs] at hs'
    cases hs'

theorem of_listing (h : Unhindered g r 2) (hk : r.kind = .loadInfos) : Unhindered g r 4 := by
  refine (h.succ fun e he => ?_).succ fun e he => ?_
  · cases he with
    | busy hk' => exact hk' hk
  · cases he with
    | taken hr => cases hr ▸ hk
    | missing hk' => cases hk'.symm.trans hk

end Unhindered

/-! ## Checks -/

/-- If no slot is active, that is the first thing to be found. -/
theorem inactive_iff {α : Type} (h : r.isForActive = true) (hs : g.manager.activeId = none) (e : SlotError) :
    (.error .noActiveSlot : Except SlotError α) = .error e ↔ FirstHindrance g r e := by
  have hnone : g.manager.active = none := by simpa [Manager.activeId, Manager.activeInfo] using hs
  have hfirst : Hindrance g r 0 .noActiveSlot := .inactive h hnone
  constructor
  · intro he
    cases he
    exact ⟨0, hfirst, fun k hk => absurd hk k.not_lt_zero⟩
  · rintro ⟨k, hk, hleast⟩
    cases k with
    | zero =>
      cases hk
      rfl
    | succ k => exact absurd hfirst (hleast 0 k.succ_pos _)

theorem guards_checkSlot {slot : SlotId} (hs : r.slot? g.manager = some slot) :
    Guards g r 1 (g.manager.checkSlot slot) := by
  intro e
  have hvalid : g.manager.preset.isValidSlot slot = false ↔ slot.toInt < 0 ∨
      0 < g.manager.preset.maxSlots.toInt ∧ g.manager.preset.maxSlots.toInt ≤ slot.toInt := by
    rw [← Bool.not_eq_true, Preset.isValidSlot, Preset.slotRange, SlotRange.contains]
    simp only [Bool.and_eq_true, Bool.or_eq_true, decide_eq_true_eq]
    omega
  unfold Manager.checkSlot
  constructor
  · intro he
    split at he
    · cases he
    · next hno =>
      cases he
      exact .range hs (hvalid.1 (by simpa using hno))
  · intro he
    cases he with
    | range hs' hout =>
      rw [hs] at hs'
      cases hs'
      rw [hvalid.2 hout]
      rfl

omit [SlotStore σ] in
/-- The task that is in the way of all but listings is the holder. -/
theorem Orderly.checkFree_eq (h : Orderly g) {k : TaskKind} (hk : k ≠ .loadInfos) :
    g.manager.checkFree k = match g.manager.holder? with
      | some t => .error (.slotConflict (.busy t.kind))
      | none => .ok () := by
  have hfind : (g.manager.tasks.find? fun t => !t.state.isTerminal && t.kind.resource.conflicts k.resource) =
      g.manager.holder? := by
    refine List.find?_congr fun t ht => ?_
    rw [h.live t ht]
    unfold Task.locks Resource.conflicts
    cases t.kind <;> cases k <;> first | rfl | exact absurd rfl hk
  cases hh : g.manager.holder? <;> simp only [Manager.checkFree, hfind, hh]

theorem guards_checkFree (h : Orderly g) {k : TaskKind} (hr : r.kind = k) (hk : k ≠ .loadInfos) :
    Guards g r 2 (g.manager.checkFree k) := by
  intro e
  rw [h.checkFree_eq hk]
  constructor
  · intro he
    split at he
    · next t ht =>
      cases he
      have hl : t.locks = true := (h.holder_split ht).1
      exact .busy (hr ▸ hk) (List.mem_of_find?_eq_some ht) (by simpa [Task.locks] using hl)
    · cases he
  · intro he
    cases he with
    | busy _ ht hlisting => rw [h.holder_of_locks ht (by simpa [Task.locks] using hlisting)]

theorem guards_checkNew {slot : SlotId} {overwrite : Bool} {shot : Option ScreenshotSize} :
    Guards g (.save slot overwrite shot) 3 (Manager.checkNew g.store slot overwrite) := by
  intro e
  unfold Manager.checkNew
  constructor
  · intro he
    split at he
    · next hc =>
      cases he
      obtain ⟨ho, hthere⟩ := Bool.and_eq_true_iff.1 hc
      obtain rfl : overwrite = false := by simpa using ho
      exact .taken rfl hthere
    · cases he
  · intro he
    cases he with
    | taken hr hthere =>
      cases hr
      simp [hthere]
    | missing hk => cases hk

theorem guards_overwrite {slot : SlotId} {shot : Option ScreenshotSize} :
    Guards g (.saveCurrent shot) 3 (Manager.checkNew g.store slot true) := by
  intro e
  refine ⟨nofun, fun he => ?_⟩
  cases he with
  | taken hr => cases hr
  | missing hk => cases hk

theorem guards_checkSaved {slot : SlotId} (hk : r.kind = .load) (hs : r.slot? g.manager = some slot) :
    Guards g r 3 (Manager.checkSaved g.store slot) := by
  intro e
  unfold Manager.checkSaved
  constructor
  · intro he
    split at he
    · cases he
    · next hno =>
      cases he
      exact .missing hk hs (by simpa using hno)
  · intro he
    cases he with
    | taken hr => cases hr ▸ hk
    | missing _ hs' hgone =>
      rw [hs] at hs'
      cases hs'
      rw [hgone]
      rfl

/-! ## Decisions -/

theorem Manager.checkRunning_eq {m : Manager} (hr : m.running = true) : m.checkRunning = .ok () := if_pos hr

namespace Orderly

theorem saveJob_error_iff (h : Orderly g) (hr : g.manager.running = true) {slot : SlotId} {overwrite : Bool}
    {shot : Option ScreenshotSize} (hu : Unhindered g r 1) (hs : r.slot? g.manager = some slot) (hk : r.kind = .save)
    (hnew : Guards g r 3 (Manager.checkNew g.store slot overwrite)) (e : SlotError) :
    g.manager.saveJob g.store slot overwrite shot = .error e ↔ FirstHindrance g r e := by
  unfold Manager.saveJob
  rw [Manager.checkRunning_eq hr]
  refine hu.check (guards_checkSlot hs) (fun hu => ?_) e
  refine hu.check (guards_checkFree h hk nofun) fun hu => ?_
  exact hu.check hnew fun hu => hu.accept

theorem loadJob_error_iff (h : Orderly g) (hr : g.manager.running = true) {slot : SlotId} (hu : Unhindered g r 1)
    (hs : r.slot? g.manager = some slot) (hk : r.kind = .load) (e : SlotError) :
    g.manager.loadJob g.store slot = .error e ↔ FirstHindrance g r e := by
  unfold Manager.loadJob
  rw [Manager.checkRunning_eq hr]
  refine hu.check (guards_checkSlot hs) (fun hu => ?_) e
  refine hu.check (guards_checkFree h hk nofun) fun hu => ?_
  exact hu.check (guards_checkSaved hk hs) fun hu => hu.accept

/-- A job is refused with the first hindrance. -/
theorem job_error_iff (h : Orderly g) (hr : g.manager.running = true) (r : Request) (e : SlotError) :
    g.manager.job g.store r = .error e ↔ FirstHindrance g r e := by
  cases r with
  | save slot overwrite shot => exact h.saveJob_error_iff hr (.of_slot rfl) rfl rfl guards_checkNew e
  | load slot => exact h.loadJob_error_iff hr (.of_slot rfl) rfl rfl e
  | saveCurrent shot =>
    simp only [Manager.job]
    split
    · next slot hs => exact h.saveJob_error_iff (r := .saveCurrent shot) hr (.of_active hs) hs rfl guards_overwrite e
    · next hs => exact inactive_iff rfl hs e
  | reload =>
    simp only [Manager.job]
    split
    · next slot hs => exact h.loadJob_error_iff (r := .reload) hr (.of_active hs) hs rfl e
    · next hs => exact inactive_iff rfl hs e
  | info slot =>
    have hu : Unhindered g (.info slot) 1 := .of_slot rfl
    simp only [Manager.job]
    rw [Manager.checkRunning_eq hr]
    refine hu.check (guards_checkSlot rfl) (fun hu => ?_) e
    exact (hu.of_listing rfl).accept
  | infos recent =>
    have hu : Unhindered g (.infos recent) 1 := .of_slot rfl
    simp only [Manager.job]
    rw [Manager.checkRunning_eq hr]
    exact ((hu.of_noSlot rfl).of_listing rfl).accept e
  | deleteAll =>
    have hu : Unhindered g .deleteAll 1 := .of_slot rfl
    simp only [Manager.job]
    rw [Manager.checkRunning_eq hr]
    refine (hu.of_noSlot rfl).check (guards_checkFree h rfl (by decide)) (fun hu => ?_) e
    refine (hu.succ fun e he => ?_).accept
    cases he with
    | taken hr => cases hr
    | missing hk => cases hk

end Orderly

/-- If anything is in the way, something is the first. -/
theorem FirstHindrance.exists_of_hindrance {e : SlotError} (h : Hindrance g r n e) : ∃ e', FirstHindrance g r e' := by
  classical
  have hsome : ∃ n, ∃ e, Hindrance g r n e := ⟨n, e, h⟩
  obtain ⟨e', he'⟩ := Nat.find_spec hsome
  exact ⟨e', _, he', fun k hk e'' hk' => Nat.find_min hsome hk ⟨e'', hk'⟩⟩

end Hindrances

/-! ## Deletions that are refused -/

/-- A deletion that is refused, for whatever reason, leaves the manager and the store as they are. -/
theorem Manager.deleteSlot_refused {σ : Type} [SlotStore σ] [Candid σ] {m : Manager} {s : σ} {slot : SlotId}
    {e : SlotError} (h : (m.deleteSlot s slot).1 = .error e) (he : e.isRejection = true) :
    (m.deleteSlot s slot).2 = (m, s) := by
  revert h
  unfold deleteSlot
  split
  · exact fun _ => rfl
  · split
    · next e' s' hd =>
      intro h
      cases h
      cases e' with
      | notFound id' => rw [Candid.delete hd]
      | io | format | backend => cases he
    · exact nofun

/-! ## What a request comes to -/

section Decisions

variable {σ : Type} [SlotStore σ]

/-- The error of a request that is refused. -/
def Turn.refused? (x : Turn σ) : Option SlotError :=
  match x.move with
  | .request r now =>
    match x.game.manager.request x.game.store now r with
    | .error e => some e
    | .ok _ => none
  | _ => none

/-- What a manager that runs makes of a request. -/
structure Turn.Decides (x : Turn σ) (r : Request) : Prop where
  /-- The error is that of the hindrance that is found first. -/
  named : ∀ e, x.refused? = some e ↔ FirstHindrance x.game r e
  refused : (∃ e, x.refused? = some e) ↔ ∃ n e, Hindrance x.game r n e
  /-- A request that is refused changes nothing. -/
  traceless : x.refused?.isSome = true → x.made? = none ∧ x.after = x.game
  /-- One that is accepted puts its task at the end of the roster and changes nothing else. -/
  accepted : x.refused? = none → ∃ t, x.made? = some t ∧ t.number = x.game.manager.issued ∧ t.state = .created ∧
    t.kind = r.kind ∧ t.target? = r.slot? x.game.manager ∧ x.after = { x.game with manager :=
      { x.game.manager with
        tasks := x.game.manager.tasks ++ [t], issued := x.game.manager.issued + 1 } }
  /-- Nobody is told anything. -/
  quiet : x.events = [] ∧ x.calls = []

theorem Manager.Makes.kind_target {m : Manager} {r : Request} {j : Job} (h : Makes m r j) :
    j.kind = r.kind ∧ j.target? = r.slot? m := by
  cases h with
  | save | load | info | infos | deleteAll => exact ⟨rfl, rfl⟩
  | saveCurrent _ hs | reload hs => exact ⟨rfl, hs.symm⟩

theorem Orderly.decides {g : Game σ} (h : Orderly g) (hr : g.manager.running = true) (r : Request) (now : Instant) :
    Turn.Decides ⟨g, .request r now⟩ r := by
  have hnamed : ∀ e, Turn.refused? ⟨g, .request r now⟩ = some e ↔ FirstHindrance g r e := by
    intro e
    rw [← h.job_error_iff hr]
    simp only [Turn.refused?, Manager.request]
    cases g.manager.job g.store r <;> simp [Except.map]
  refine ⟨hnamed, ⟨?_, ?_⟩, ?_, ?_, rfl, rfl⟩
  · rintro ⟨e, he⟩
    obtain ⟨n, hn, -⟩ := (hnamed e).1 he
    exact ⟨n, e, hn⟩
  · rintro ⟨n, e, hn⟩
    obtain ⟨e', he'⟩ := FirstHindrance.exists_of_hindrance hn
    exact ⟨e', (hnamed e').2 he'⟩
  · intro hsome
    cases hq : g.manager.request g.store now r with
    | error e => simp [Turn.made?, Turn.after, Game.step, hq, Except.toOption]
    | ok tm => simp [Turn.refused?, hq] at hsome
  · intro hnone
    cases hq : g.manager.request g.store now r with
    | error e => simp [Turn.refused?, hq] at hnone
    | ok tm =>
      obtain ⟨t, m⟩ := tm
      obtain ⟨-, hnumber, hstate, rfl⟩ := Manager.request_ok hq
      have hmade : Turn.made? ⟨g, .request r now⟩ = some t := by simp [Turn.made?, hq, Except.toOption]
      obtain ⟨r', now', _, hmove, hjob, -⟩ := Turn.request_of_made hmade
      obtain ⟨rfl, rfl⟩ : r' = r ∧ now' = now := by simpa using hmove.symm
      obtain ⟨hkind, htarget⟩ := (Manager.makes hjob).kind_target
      exact ⟨t, hmade, hnumber, hstate, hkind, htarget, by simp [Turn.after, Game.step, hq]⟩

end Decisions

/-- In every state that a running manager can reach, a request is refused if and only if something stands in its way,
and the error names what is found first: no slot is active, the preset does not allow the slot, a task is under way, or
the slot is there and must not be, or the other way round. Refused, it changes nothing; accepted, it adds its task to
the roster. A deletion of a slot that is refused changes nothing either. -/
theorem refused_iff_hindered {σ : Type} [SlotStore σ] (p : Preset) (s : σ) (w : World) (ms : List (Move σ))
    (hr : ((Game.new p s w).run ms).manager.running = true) :
    let g := (Game.new p s w).run ms
    (∀ r now, Turn.Decides ⟨g, .request r now⟩ r) ∧
    ∀ [Candid σ] slot e, (g.manager.deleteSlot g.store slot).1 = .error e → e.isRejection = true →
      Turn.after ⟨g, .delete slot⟩ = g := by
  intro g
  have h : Orderly g := (orderly_new p s w).run ms
  refine ⟨h.decides hr, fun slot e he hrej => ?_⟩
  simp only [Turn.after, Game.step, Manager.deleteSlot_refused he hrej]

/-- While everything is being deleted, a save that must not overwrite is refused because of that, although its slot is
there as well; and the slot cannot be deleted. -/
theorem refused_iff_hindered_busy :
    let g := (Game.new .default MemoryStore.empty (World.new "harbor")).run
      (savingOnce ++ [.request .deleteAll .epoch])
    Hindrance g (.save 1 false none) 3 (.slotConflict (.overwrite 1)) ∧
    Turn.refused? ⟨g, .request (.save 1 false none) .epoch⟩ = some (.slotConflict (.busy .deleteAll)) ∧
    Turn.after ⟨g, .delete 1⟩ = g := by
  intro g
  obtain ⟨hrequests, hdeletions⟩ := refused_iff_hindered .default MemoryStore.empty (World.new "harbor")
    (savingOnce ++ [.request .deleteAll .epoch]) rfl
  have htaken : Hindrance g (.save 1 false none) 3 (.slotConflict (.overwrite 1)) := .taken rfl (by decide)
  obtain ⟨t, htasks, hkind⟩ : ∃ t, g.manager.tasks = [t] ∧ t.kind = .deleteAll := ⟨_, rfl, rfl⟩
  have hbusy : Hindrance g (.save 1 false none) 2 (.slotConflict (.busy .deleteAll)) :=
    hkind ▸ .busy (by decide) (by simp [htasks]) (by simp [hkind])
  have hnothing : ∀ k < 2, ∀ e, ¬ Hindrance g (.save 1 false none) k e := by
    intro k hk e he
    cases he with
    | inactive ha => cases ha
    | range hs hout =>
      cases hs
      revert hout
      decide
    | busy | taken | missing => omega
  have hfirst : FirstHindrance g (.save 1 false none) (.slotConflict (.busy .deleteAll)) := ⟨2, hbusy, hnothing⟩
  refine ⟨htaken, ((hrequests (.save 1 false none) .epoch).named _).2 hfirst, ?_⟩
  exact hdeletions 1 (.slotConflict (.busy .deleteAll)) (by decide) rfl

end SaveSlots
