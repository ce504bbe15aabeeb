import SaveSlots.Proofs.Codec
import SaveSlots.Proofs.Folder
import SaveSlots.Proofs.Kept
/-!
# The store holds what was saved last

`stored_as_saved` and `active_is_stored` are the main theorems, for slots in memory and for slots in a folder:
the store says of every slot what the last save to it said, and the active slot is what the store has of it. A
folder with the empty path is an exception: it forgets nothing on a delete-all, and `stored_as_saved` says how much
is true of it. Both follow from `Kept.run`, by which a run keeps up what `Kept` says.

Nobody but the manager may change the slots meanwhile (`Game.LeftAlone`). The faults of a store in memory may
be switched on and off at any time.
-/

namespace SaveSlots

/-! ## Runs -/

/-- Whether others change the store of a game only as allowed. -/
def Game.LeftAlone {σ : Type} [SlotStore σ] (allowed : σ → σ → Prop) (g : Game σ) (ms : List (Move σ)) : Prop :=
  ∀ t ∈ g.trace ms, ∀ s, t.move = .disturb s → allowed t.game.store s

theorem Game.LeftAlone.left {σ : Type} [SlotStore σ] {allowed : σ → σ → Prop} {g : Game σ}
    {ms ms' : List (Move σ)} (h : g.LeftAlone allowed (ms ++ ms')) : g.LeftAlone allowed ms := by
  intro t ht
  refine h t ?_
  rw [Game.trace_append]
  exact List.mem_append_left _ ht

/-- What holds of all tasks holds of the holder. -/
theorem Game.holder_of_tasks {σ : Type} {g : Game σ} {P : Task → Prop} (h : ∀ t ∈ g.manager.tasks, P t) :
    ∀ t, g.scene.holder = some t → P t :=
  fun t ht => h t (List.mem_of_find?_eq_some ht)

namespace Kept

variable {σ : Type} [SlotStore σ] [Reliable σ] {allowed : σ → σ → Prop} {lists : Bool}

theorem new {s : σ} (hs : Reliable.Sound s) (hl : Reliable.lists s = lists)
    (hnone : ∀ id, Reliable.slot? s id = none) (p : Preset) (w : World) :
    Kept lists (Game.new p s w).scene [] fun _ => none where
  sound := hs
  names := hl
  stored := hnone
  fits _ ht := by cases ht
  filed _ _ he := by cases he
  captured _ _ he := by cases he
  unused _ _ := rfl
  active _ _ ha := by cases ha
  told _ := by cases lists <;> rfl

/-- What a run preserves, as long as the manager runs. -/
theorem run {g : Game σ} {fs : List Fact} {k : Contents} {ms : List (Move σ)} (h : Kept lists g.scene fs k)
    (ho : Orderly g) (hallowed : ∀ s s', allowed s s' → Reliable.SameSlots s s') (hq : g.LeftAlone allowed ms)
    (hr : (g.run ms).manager.running = true) :
    ∃ k', Kept lists (g.run ms).scene (fs ++ history (g.trace ms)) k' := by
  induction ms generalizing g fs k with
  | nil => exact ⟨k, (List.append_nil fs).symm ▸ h⟩
  | cons m ms ih =>
    have hshift := ho.shift (m := m) (Orderly.running_of_run ms hr) (hq ⟨g, m⟩ (by simp [Game.trace]))
    obtain ⟨k₁, hk₁⟩ := h.shift hshift hallowed
    obtain ⟨k', hk'⟩ := ih hk₁ (ho.step m) (fun t ht => hq t (List.mem_cons_of_mem _ ht)) hr
    refine ⟨k', ?_⟩
    rw [List.append_assoc] at hk'
    exact hk'

/-! ## What the invariant says -/

variable {c : Scene σ} {fs : List Fact} {k : Contents}

/-- What the store has of a slot that is not being saved to, while not everything is being deleted. -/
theorem slot_eq (h : Kept lists c fs k) {id : SlotId}
    (hfree : ∀ t, c.holder = some t → t.kind ≠ .deleteAll ∧ (t.kind = .save → t.target? ≠ some id)) :
    Reliable.slot? c.store id = (k id).map fun e => (e.info, e.data.encode) := by
  have hsame : c.contents k id = k id := by
    unfold Scene.contents
    cases ht : c.holder with
    | none => rfl
    | some t =>
      obtain ⟨hall, hsave⟩ := hfree t ht
      exact (h.fits t ht).effect_other hall hsave
  rw [h.stored id, hsame]

end Kept

/-- What a store says of all slots is what a history says of them. -/
structure Faithful {σ : Type} [SlotStore σ] [Reliable σ] (s : σ) (fs : List Fact) : Prop where
  there : ∀ id, SlotStore.holds s id = true ↔ SavedSince fs id
  /-- The info is the one that the caller of the save was told, and the payload spells what the save
  captured. -/
  same : ∀ id task info, SavedLast fs id task info →
    ∃ data, capturedBy fs task = [data] ∧ Reliable.slot? s id = some (info, data.encode)

/-- What a load that succeeds reports and activates in a turn is what the last save reported and captured. -/
def Turn.LoadsLast {σ : Type} [SlotStore σ] (t : Turn σ) (fs : List Fact) : Prop :=
  ∀ c ∈ t.calls, ∀ id info, c.task.kind = .load → c.task.target? = some id → c.reply = .ok (.info info) →
    ∃ task data, SavedLast fs id task info ∧ capturedBy fs task = [data] ∧
      (data.Plain → t.after.manager.active = some (info, data))

namespace Kept

variable {σ : Type} [SlotStore σ] [Reliable σ] {lists : Bool} {g : Game σ} {fs : List Fact} {k : Contents}

theorem faithful (h : Kept lists g.scene fs k)
    (hquiet : ∀ t ∈ g.manager.tasks, t.kind ≠ .save ∧ t.kind ≠ .deleteAll) : Faithful g.store (counted lists fs) := by
  have hslot : ∀ id, Reliable.slot? g.store id = (k id).map fun e => (e.info, e.data.encode) := fun id =>
    h.slot_eq (Game.holder_of_tasks fun t ht => ⟨(hquiet t ht).2, fun hk => absurd hk (hquiet t ht).1⟩)
  have hsound : Reliable.Sound g.store := h.sound
  constructor
  · intro id
    rw [Reliable.holds_eq id hsound, hslot, savedSince_iff, h.told, Option.isSome_map, Option.isSome_map]
  · intro id task info hs
    rw [savedLast_iff, h.told] at hs
    obtain ⟨e, he, heq⟩ := Option.map_eq_some_iff.1 hs
    cases heq
    exact ⟨e.data, (capturedBy_counted ..).trans (h.captured id e he), by rw [hslot, he]; rfl⟩

theorem loadsLast {t : Turn σ} (h : Kept lists t.game.scene fs k) (ho : Orderly t.game) :
    t.LoadsLast (counted lists fs) := by
  intro c hc id info hkind htarget hreply
  rcases (Turn.settles ho hc).how with ⟨now, hm, -, -⟩ | ⟨-, -, herror⟩
  · have hlocks : c.task.locks = true := by
      rw [Task.locks_iff]
      exact .inr (.inl hkind)
    obtain ⟨u, r, hholder, hlabel, hstep, hresult, hactive⟩ := ho.holder_called hm hc hlocks
    rw [Task.kind_eq hlabel] at hkind
    rw [Task.target_eq hlabel] at htarget
    rw [hreply] at hresult
    have hending := (h.fits u hholder).ending hstep
    change u.job.kind = .load at hkind
    -- of all endings, only that of a load fits a load that has succeeded
    cases hending with
    | failed => cases hresult
    | told hk | saved hk | deleted hk =>
      rw [hkind] at hk
      cases hk
    | @loaded slot info' data hk hslot _ hreads =>
      obtain rfl : info = info' := by cases hresult; rfl
      obtain rfl : slot = id := Option.some.inj (hslot.symm.trans htarget)
      obtain ⟨entry, hentry, rfl, hdata⟩ := hreads
      refine ⟨entry.task, entry.data, ?_, (capturedBy_counted ..).trans (h.captured slot entry hentry), ?_⟩
      · rw [savedLast_iff, h.told, hentry]
        rfl
      · intro hplain
        have hsame : data = entry.data := hdata.elim (fun h => h) (Snapshot.eq_of_decode hplain)
        rw [hactive, hsame]
        rfl
  · rw [hreply] at herror
    cases herror

theorem active_stored (h : Kept lists g.scene fs k) (hplain : ∀ task, ∀ data ∈ capturedBy fs task, data.Plain)
    {info : SlotInfo} {data : Snapshot} (ha : g.manager.active = some (info, data))
    (hfree : ∀ t ∈ g.manager.tasks, t.kind ≠ .deleteAll ∧ (t.kind = .save → t.target? ≠ some info.id)) :
    SlotStore.holds g.store info.id = true ∧ Reliable.slot? g.store info.id = some (info, data.encode) := by
  obtain ⟨e, he, rfl, hdata⟩ := h.active info data ha
  have hmem : e.data ∈ capturedBy fs e.task := by
    rw [h.captured _ e he]
    exact List.mem_singleton_self _
  have hsame : data = e.data := hdata.elim id (Snapshot.eq_of_decode (hplain e.task e.data hmem))
  have hslot : Reliable.slot? g.store e.info.id = some (e.info, e.data.encode) := by
    have hs := h.slot_eq (Game.holder_of_tasks hfree)
    rwa [he] at hs
  have hsound : Reliable.Sound g.store := h.sound
  rw [Reliable.holds_eq _ hsound, hslot, hsame]
  exact ⟨rfl, rfl⟩

end Kept

/-! ## Main theorems -/

namespace Game

variable {σ : Type} [SlotStore σ] [Reliable σ]

/-- What holds of a run if the store holds what was saved last: of the state after it, as long as no save and
no delete-all is under way, and of every load. What was saved last is read off what counts in the history. -/
structure Remembers (g : Game σ) (ms : List (Move σ)) (counts : List Fact → List Fact) : Prop where
  kept : (g.run ms).manager.running = true →
    (∀ t ∈ (g.run ms).manager.tasks, t.kind ≠ .save ∧ t.kind ≠ .deleteAll) →
    Faithful (g.run ms).store (counts (history (g.trace ms)))
  loaded : ∀ before t rest, g.trace ms = before ++ t :: rest → t.LoadsLast (counts (history before))

/-- Whether all that is captured in a run can be told from its text. -/
def CapturesPlain (g : Game σ) (ms : List (Move σ)) : Prop :=
  ∀ task, ∀ data ∈ capturedBy (history (g.trace ms)) task, data.Plain

/-- The store has the active slot as it is active, unless that slot is being saved to or everything is being
deleted. -/
def ActiveStored (g : Game σ) : Prop :=
  ∀ info data, g.manager.active = some (info, data) →
    (∀ t ∈ g.manager.tasks, t.kind ≠ .deleteAll ∧ (t.kind = .save → t.target? ≠ some info.id)) →
    SlotStore.holds g.store info.id = true ∧ Reliable.slot? g.store info.id = some (info, data.encode)

end Game

section

variable {σ : Type} [SlotStore σ] [Reliable σ] {allowed : σ → σ → Prop} {s : σ} {ms : List (Move σ)}
  (hempty : Reliable.Sound s ∧ ∀ id, Reliable.slot? s id = none)
  (hallowed : ∀ s s', allowed s s' → Reliable.SameSlots s s')
include hempty hallowed

theorem remembers (p : Preset) (w : World) (hq : (Game.new p s w).LeftAlone allowed ms) :
    (Game.new p s w).Remembers ms (counted (Reliable.lists s)) := by
  have hnew := Kept.new hempty.1 rfl hempty.2 p w
  have ho := orderly_new p s w
  constructor
  · intro hr hquiet
    obtain ⟨k, hk⟩ := hnew.run ho hallowed hq hr
    exact hk.faithful hquiet
  · intro before t rest hs c hc
    have hr := Turn.running_of_call hc
    -- what was so far is a run of its own
    obtain ⟨ms₁, ms₂, rfl, rfl, hg, -⟩ := Game.trace_split hs
    rw [hg] at hr
    obtain ⟨k, hk⟩ := hnew.run ho hallowed hq.left hr
    rw [List.nil_append, ← hg] at hk
    exact hk.loadsLast (hg ▸ ho.run ms₁) c hc

theorem activeStored (p : Preset) (w : World) (hq : (Game.new p s w).LeftAlone allowed ms)
    (hplain : (Game.new p s w).CapturesPlain ms) : ((Game.new p s w).run ms).ActiveStored := by
  intro info data ha hfree
  have ho := orderly_new p s w
  have hr : ((Game.new p s w).run ms).manager.running = true := by
    cases hr : ((Game.new p s w).run ms).manager.running with
    | true => rfl
    | false =>
      rw [((ho.run ms).stopped hr).2] at ha
      cases ha
  obtain ⟨k, hk⟩ := (Kept.new hempty.1 rfl hempty.2 p w).run ho hallowed hq hr
  exact hk.active_stored hplain ha hfree

end

/-- In every run that begins without slots, a slot is there whenever no save and no delete-all is under way if
and only if it was saved and not deleted since. Then it has the info that the caller of the last save was told,
and what that save captured; and a load that succeeds brings back just these.

A folder with the empty path is written to like any other and lists nothing. There a delete-all succeeds and
removes nothing, so that all this is true of it only if the delete-alls of the history do not count. -/
theorem stored_as_saved (p : Preset) (w : World) :
    (∀ (s : MemoryStore) (ms : List (Move MemoryStore)),
      s.infos = .empty → s.payloads = .empty → (Game.new p s w).LeftAlone MemoryStore.SameContents ms →
      (Game.new p s w).Remembers ms id) ∧
    ∀ (s : FolderStore) (ms : List (Move FolderStore)),
      (∀ id, s.holds id = false) → (Game.new p s w).LeftAlone (fun s s' => s' = s) ms →
      (Game.new p s w).Remembers ms (if s.path.text.isEmpty then withoutClearing else id) := by
  constructor
  · intro s ms hi hp hq
    exact remembers (MemoryStore.slot_of_empty hi hp) (fun _ _ h => h.sameSlots) p w hq
  · intro s ms hnone hq
    have hr := remembers (FolderStore.slot_of_empty hnone) (fun s s' h => h ▸ .refl s) p w hq
    change (Game.new p s w).Remembers ms (counted !s.path.text.isEmpty) at hr
    cases hpath : s.path.text.isEmpty with
    | true =>
      rw [hpath] at hr
      exact hr
    | false =>
      rw [hpath] at hr
      exact hr

/-- A run that saves to slot 1. -/
def savingOnce {σ : Type} : List (Move σ) :=
  [.request (.save 1 false none) .epoch, .tick .epoch, .work 0, .tick .epoch]

theorem leftAlone_savingOnce {σ : Type} [SlotStore σ] (g : Game σ) (allowed : σ → σ → Prop) :
    g.LeftAlone allowed savingOnce := by
  intro t ht s hm
  simp only [savingOnce, Game.trace, List.mem_cons, List.not_mem_nil, or_false] at ht
  rcases ht with rfl | rfl | rfl | rfl <;> cases hm

/-- A run that saves to slot 1 and deletes everything. -/
def savingAndClearing {σ : Type} : List (Move σ) :=
  savingOnce ++ [.request .deleteAll .epoch, .tick .epoch, .work 1, .tick .epoch]

theorem leftAlone_savingAndClearing {σ : Type} [SlotStore σ] (g : Game σ) (allowed : σ → σ → Prop) :
    g.LeftAlone allowed savingAndClearing := by
  intro t ht s hm
  simp only [savingAndClearing, savingOnce, Game.trace, List.cons_append, List.nil_append, List.mem_cons,
    List.not_mem_nil, or_false] at ht
  rcases ht with rfl | rfl | rfl | rfl | rfl | rfl | rfl | rfl <;> cases hm

/-- After a delete-all a slot is gone, in memory and in a folder. In a folder with the empty path it is still there,
although the delete-all succeeded: what the history says is not what the store holds. -/
theorem stored_as_saved_cleared :
    let memory := Game.new .default MemoryStore.empty (World.new "harbor")
    let folder := Game.new .default (⟨⟨"saves"⟩, none⟩ : FolderStore) (World.new "harbor")
    let pathless := Game.new .default (⟨⟨""⟩, none⟩ : FolderStore) (World.new "harbor")
    (Faithful (memory.run savingAndClearing).store (history (memory.trace savingAndClearing)) ∧
      (memory.run savingAndClearing).store.holds 1 = false) ∧
    (Faithful (folder.run savingAndClearing).store (history (folder.trace savingAndClearing)) ∧
      (folder.run savingAndClearing).store.holds 1 = false) ∧
    Faithful (pathless.run savingAndClearing).store
      (withoutClearing (history (pathless.trace savingAndClearing))) ∧
    (pathless.run savingAndClearing).store.holds 1 = true ∧
    ¬ Faithful (pathless.run savingAndClearing).store (history (pathless.trace savingAndClearing)) := by
  intro memory folder pathless
  have hsaved := stored_as_saved .default (World.new "harbor")
  have hmemory := hsaved.1 .empty savingAndClearing rfl rfl (leftAlone_savingAndClearing _ _)
  have hfolder := hsaved.2 ⟨⟨"saves"⟩, none⟩ savingAndClearing (fun _ => rfl) (leftAlone_savingAndClearing _ _)
  have hpathless := hsaved.2 ⟨⟨""⟩, none⟩ savingAndClearing (fun _ => rfl) (leftAlone_savingAndClearing _ _)
  have hheld : (pathless.run savingAndClearing).store.holds 1 = true := by decide
  refine ⟨⟨hmemory.kept (by decide) (by decide), by decide⟩, ⟨hfolder.kept (by decide) (by decide), by decide⟩,
    hpathless.kept (by decide) (by decide), hheld, ?_⟩
  intro hfaithful
  have hsince := (hfaithful.there 1).1 hheld
  rw [savedSince_iff] at hsince
  revert hsince
  decide

/-- In every run that begins without slots, and that captures what can be told from its text, the store has the
active slot: its info is the active one, and its payload spells the active snapshot. -/
theorem active_is_stored :
    (∀ (p : Preset) (s : MemoryStore) (w : World) (ms : List (Move MemoryStore)),
      s.infos = .empty → s.payloads = .empty → (Game.new p s w).LeftAlone MemoryStore.SameContents ms →
      (Game.new p s w).CapturesPlain ms → ((Game.new p s w).run ms).ActiveStored) ∧
    ∀ (p : Preset) (s : FolderStore) (w : World) (ms : List (Move FolderStore)),
      (∀ id, s.holds id = false) → (Game.new p s w).LeftAlone (fun s s' => s' = s) ms →
      (Game.new p s w).CapturesPlain ms → ((Game.new p s w).run ms).ActiveStored := by
  constructor
  · intro p s w ms hi hp hq hplain
    exact activeStored (MemoryStore.slot_of_empty hi hp) (fun _ _ h => h.sameSlots) p w hq hplain
  · intro p s w ms hnone hq hplain
    exact activeStored (FolderStore.slot_of_empty hnone) (fun s s' h => h ▸ .refl s) p w hq hplain

theorem capturesPlain_savingOnce {σ : Type} [SlotStore σ] {g : Game σ} {info : SlotInfo}
    (h : history (g.trace savingOnce) = [.captured 0 ⟨"harbor", [], .empty⟩, .saved 0 1 info]) :
    g.CapturesPlain savingOnce := by
  intro task data hd
  have hdata : data = ⟨"harbor", [], .empty⟩ := by
    rw [h] at hd
    by_cases htask : 0 = task <;> simp_all [capturedBy]
  rw [hdata]
  exact ⟨fun _ ho => (by cases ho), fun _ hr => by cases hr⟩

/-- A slot that was saved to an empty store is active as it is stored, in memory and in a folder. -/
theorem active_is_stored_once :
    let memory := (Game.new .default MemoryStore.empty (World.new "harbor")).run savingOnce
    let folder := (Game.new .default (⟨⟨"saves"⟩, none⟩ : FolderStore) (World.new "harbor")).run savingOnce
    (∃ info data, memory.manager.active = some (info, data) ∧ memory.store.holds info.id = true ∧
      memory.store.slot? info.id = some (info, data.encode)) ∧
    ∃ info data, folder.manager.active = some (info, data) ∧ folder.store.holds info.id = true ∧
      folder.store.slot? info.id = some (info, data.encode) := by
  intro memory folder
  have hmemory := active_is_stored.1 .default .empty (World.new "harbor") savingOnce rfl rfl
    (leftAlone_savingOnce _ _) (capturesPlain_savingOnce rfl)
  have hfolder := active_is_stored.2 .default ⟨⟨"saves"⟩, none⟩ (World.new "harbor") savingOnce (fun _ => rfl)
    (leftAlone_savingOnce _ _) (capturesPlain_savingOnce rfl)
  exact ⟨⟨_, _, rfl, hmemory _ _ rfl (by decide)⟩, ⟨_, _, rfl, hfolder _ _ rfl (by decide)⟩⟩

end SaveSlots
