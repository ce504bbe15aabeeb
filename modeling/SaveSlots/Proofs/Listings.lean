import SaveSlots.Proofs.Classified
import SaveSlots.Proofs.Latents
import SaveSlots.Proofs.Loading
/-!
# Listings

A store lists the slots of a range that can be read, each once, in the order of their numbers or the latest save first
(`SlotStore.Listing`). Sorting by date keeps slots of one date in the order of their numbers, as it is stable and the
infos come in that order (`pairwise_mergeSort_stable`).

A listing may be asked for at once, or made by a task whose caller is called back or polls for the reply. What the work
of the task comes to is what the call at once would have been answered at that moment (`Orderly.answers`). No move sets
a listing back, and a tick, its work and another tick each take it on, so it ends with the third of them at the latest
(`Orderly.listing_ends`). `listings_agree` is the main theorem.
-/

namespace SaveSlots

/-! ## Stable sorting -/

section
variable {α : Type} {a b : α} {l : List α}

/-- Of two members of a list one comes before the other. -/
theorem pair_sublist_or (ha : a ∈ l) (hb : b ∈ l) (hne : a ≠ b) : [a, b].Sublist l ∨ [b, a].Sublist l := by
  induction l with
  | nil => cases ha
  | cons x l ih =>
    rcases List.mem_cons.1 ha with rfl | ha <;> rcases List.mem_cons.1 hb with rfl | hb
    · exact absurd rfl hne
    · exact .inl (.cons_cons _ (List.singleton_sublist.2 hb))
    · exact .inr (.cons_cons _ (List.singleton_sublist.2 ‹a ∈ l›))
    · exact (ih ha hb).imp (.cons _) (.cons _)

/-- If no member comes twice, they come in one order only. -/
theorem not_pair_sublist_both (hd : l.Nodup) (hab : [a, b].Sublist l) (hba : [b, a].Sublist l) : False := by
  induction l with
  | nil => cases hab
  | cons x l ih =>
    obtain ⟨hx, hd⟩ := List.nodup_cons.1 hd
    cases hab with
    | cons _ hab =>
      cases hba with
      | cons _ hba => exact ih hd hab hba
      | cons_cons _ hba => exact hx (hab.subset (by simp))
    | cons_cons _ hb =>
      cases hba with
      | cons _ hba => exact hx (hba.subset (by simp))
      | cons_cons _ => exact hx (hb.subset (by simp))

/-- Sorting keeps those in their order that may come in either. -/
theorem pairwise_mergeSort_stable {le : α → α → Bool} {r : α → α → Prop}
    (trans : ∀ a b c, le a b = true → le b c = true → le a c = true) (total : ∀ a b, (le a b || le b a) = true)
    (hd : l.Nodup) (hr : l.Pairwise r) :
    (l.mergeSort le).Pairwise fun a b => le a b = true ∧ (le b a = true → r a b) := by
  have hperm := l.mergeSort_perm le
  have hd' : (l.mergeSort le).Nodup := hperm.nodup_iff.2 hd
  refine List.pairwise_iff_forall_sublist.2 fun {a b} hab => ?_
  have hle := List.pairwise_iff_forall_sublist.1 (List.pairwise_mergeSort trans total l) hab
  refine ⟨hle, fun hback => ?_⟩
  have hne : a ≠ b := List.pairwise_iff_forall_sublist.1 hd' hab
  have hmem : ∀ x ∈ [a, b], x ∈ l := fun x hx => hperm.mem_iff.1 (hab.subset hx)
  -- had `b` come first, sorting would have left it there
  rcases pair_sublist_or (hmem a (by simp)) (hmem b (by simp)) hne with h | h
  · exact List.pairwise_iff_forall_sublist.1 hr h
  · exact (not_pair_sublist_both hd' hab (List.pair_sublist_mergeSort trans total hback h)).elim

end

/-! ## What a store lists -/

namespace Instant

instance : Std.TransCmp order :=
  inferInstanceAs (Std.TransCmp <|
    compareLex (compareOn fun i => i.date.year) <| compareLex (compareOn fun i => i.date.month) <|
    compareLex (compareOn fun i => i.date.day) <| compareLex (compareOn hour) <|
    compareLex (compareOn minute) <| compareLex (compareOn second) <| compareOn nanos)

theorem order_self (a : Instant) : order a a = .eq := Std.ReflCmp.compare_self

theorem order_swap (a b : Instant) : order a b = (order b a).swap := Std.OrientedCmp.eq_swap

theorem eq_of_order {a b : Instant} (h : order a b = .eq) : a = b := by
  simp only [order, Ordering.then_eq_eq, Std.LawfulEqOrd.compare_eq_iff_eq] at h
  obtain ⟨⟨ay, am, ad, _, _, _⟩, _, _, _, _⟩ := a
  obtain ⟨⟨by', bm, bd, _, _, _⟩, _, _, _, _⟩ := b
  obtain ⟨rfl, rfl, rfl, rfl, rfl, rfl, rfl⟩ := h
  rfl

end Instant

theorem SlotId.compare_lt {a b : SlotId} : compare a b = .lt ↔ a.toInt < b.toInt := by
  change compare a.number b.number = .lt ↔ _
  rw [Std.compare_eq_lt, Int32.lt_iff_toInt_lt]
  rfl

namespace SlotStore

theorem latestFirst_trans (a b c : SlotInfo) (hab : latestFirst a b = true) (hbc : latestFirst b c = true) :
    latestFirst a c = true :=
  Std.TransCmp.isLE_trans hbc hab

theorem latestFirst_total (a b : SlotInfo) : (latestFirst a b || latestFirst b a) = true := by
  unfold latestFirst
  rw [Instant.order_swap b.savedAt]
  cases Instant.order a.savedAt b.savedAt <;> rfl

variable {σ : Type} [SlotStore σ]

/-- Whether one slot comes before another in a listing: it was saved later or at the same time with a smaller number,
or just has the smaller number. -/
def Precedes (recent : Bool) (a b : SlotId × SlotInfo) : Prop :=
  if recent then
    Instant.order b.2.savedAt a.2.savedAt = .lt ∨ a.2.savedAt = b.2.savedAt ∧ a.1.toInt < b.1.toInt
  else a.1.toInt < b.1.toInt

/-- The slots of a listing, with their infos: those of the store that are in the range and can be read, each once and
in order. -/
structure Listing (s : σ) (ids : SlotSet) (range : SlotRange) (recent : Bool) (entries : List (SlotId × SlotInfo)) :
    Prop where
  mem_iff : ∀ id info, (id, info) ∈ entries ↔
    id ∈ ids.toList ∧ range.contains id = true ∧ readInfo s id = .ok info
  once : (entries.map Prod.fst).Nodup
  ordered : entries.Pairwise (Precedes recent)

/-- What there is to list of some slots, in their order. -/
def entries (s : σ) (ids : List SlotId) : List (SlotId × SlotInfo) :=
  ids.filterMap fun id => (readInfo s id).toOption.map (id, ·)

theorem readableInfos_eq (s : σ) (ids : List SlotId) : readableInfos s ids = (entries s ids).map Prod.snd := by
  simp [readableInfos, entries, List.map_filterMap, Function.comp_def]

theorem mem_entries {s : σ} {ids : List SlotId} {id : SlotId} {info : SlotInfo} :
    (id, info) ∈ entries s ids ↔ id ∈ ids ∧ readInfo s id = .ok info := by
  have hok (r : Except StoreError SlotInfo) : r.toOption = some info ↔ r = .ok info := by
    cases r <;> simp [Except.toOption]
  simp [entries, hok]

/-- In the order of their numbers. -/
theorem pairwise_entries (s : σ) {ids : List SlotId} (h : ids.Pairwise fun a b => compare a b = .lt) :
    (entries s ids).Pairwise fun a b => a.1.toInt < b.1.toInt := by
  refine List.pairwise_filterMap.2 (h.imp fun {id id'} hlt a ha b hb => ?_)
  obtain ⟨info, -, rfl⟩ := Option.map_eq_some_iff.1 ha
  obtain ⟨info', -, rfl⟩ := Option.map_eq_some_iff.1 hb
  exact SlotId.compare_lt.1 hlt

theorem once_of_pairwise {entries : List (SlotId × SlotInfo)}
    (h : entries.Pairwise fun a b => a.1.toInt < b.1.toInt) : (entries.map Prod.fst).Nodup := by
  refine List.pairwise_map.2 (h.imp fun hlt heq => ?_)
  rw [heq] at hlt
  exact Int.lt_irrefl _ hlt

theorem listing_entries (s : σ) (ids : SlotSet) (range : SlotRange) :
    Listing s ids range false (entries s (ids.toList.filter range.contains)) := by
  have hpairwise := pairwise_entries s (ids.rising.filter range.contains)
  refine ⟨fun id info => ?_, once_of_pairwise hpairwise, hpairwise⟩
  rw [mem_entries, List.mem_filter, and_assoc]

theorem Listing.recent {s : σ} {ids : SlotSet} {range : SlotRange} {entries : List (SlotId × SlotInfo)}
    (h : Listing s ids range false entries) :
    Listing s ids range true (entries.mergeSort fun a b => latestFirst a.2 b.2) := by
  have hperm := entries.mergeSort_perm fun a b => latestFirst a.2 b.2
  refine ⟨fun id info => by rw [hperm.mem_iff, h.mem_iff], (hperm.map Prod.fst).nodup_iff.2 h.once, ?_⟩
  have hstable := pairwise_mergeSort_stable (fun a b c => latestFirst_trans a.2 b.2 c.2)
    (fun a b => latestFirst_total a.2 b.2) h.once.of_map h.ordered
  refine hstable.imp fun {a b} ⟨hle, hback⟩ => ?_
  change Instant.order b.2.savedAt a.2.savedAt = .lt ∨ _
  cases ho : Instant.order b.2.savedAt a.2.savedAt with
  | lt => exact .inl rfl
  | eq =>
    have hsame := Instant.eq_of_order ho
    refine .inr ⟨hsame.symm, hback ?_⟩
    rw [latestFirst, ← hsame, Instant.order_self]
    rfl
  | gt =>
    rw [latestFirst, ho] at hle
    cases hle

/-- What a listing of a store comes to. -/
structure Lists (s : σ) (range : SlotRange) (recent : Bool) (r : Except SlotError (List SlotInfo)) : Prop where
  fails : ∀ e, ids s = .error e → r = .error (.ofStore e)
  lists : ∀ set, ids s = .ok set → ∃ entries, r = .ok (entries.map Prod.snd) ∧ Listing s set range recent entries

theorem lists_listInfos (s : σ) (range : SlotRange) (recent : Bool) :
    Lists s range recent (listInfos s range recent) := by
  constructor
  · intro e he
    rw [listInfos, he]
  · intro set hset
    have hentries := listing_entries s set range
    cases recent with
    | false =>
      refine ⟨_, ?_, hentries⟩
      simp only [listInfos, hset, readableInfos_eq, Bool.false_eq_true, if_false]
    | true =>
      refine ⟨_, ?_, hentries.recent⟩
      have hsorted (es : List (SlotId × SlotInfo)) : (es.map Prod.snd).mergeSort latestFirst =
          (es.mergeSort fun a b => latestFirst a.2 b.2).map Prod.snd :=
        (List.map_mergeSort (f := Prod.snd) (s := latestFirst) fun _ _ _ _ => rfl).symm
      simp only [listInfos, hset, readableInfos_eq, if_true, hsorted]

end SlotStore

/-! ## The course of a listing -/

variable {σ : Type} [SlotStore σ]

namespace Task

variable {t : Task}

/-- What a listing comes to does not depend on the world. -/
theorem advance_of_unlocked (h : t.locks = false) (f : SaveFilter) (p : Preset) (now : Instant) (w w' : World) :
    t.job.advance f p now w' =
      let a := t.job.advance f p now w
      (a.1, w', a.2.2) := by
  rcases job_of_unlocked h with ⟨_, _, hj⟩ | ⟨_, _, hj⟩ <;>
  · rw [hj]
    rfl

theorem ready_of_unlocked (h : t.locks = false) (f : SaveFilter) (region : String) (w : World) :
    t.job.regionReady? f region w = none := by
  rcases job_of_unlocked h with ⟨_, _, hj⟩ | ⟨_, _, hj⟩ <;>
  · rw [hj]
    rfl

theorem unloading_of_unlocked (h : t.locks = false) (f : SaveFilter) (region : String) (w : World) :
    t.job.regionUnloading? f region w = none := by
  rcases job_of_unlocked h with ⟨_, _, hj⟩ | ⟨_, _, hj⟩ <;>
  · rw [hj]
    rfl

end Task

/-- A listing on a roster on which another task was given a job was there before. -/
theorem Manager.mem_putTask_unlocked {m : Manager} {t t' : Task} (ht : t.streams = true) {job : Job}
    (hjob : job.subject = t.job.subject) (h : t' ∈ (m.putTask { t with job }).tasks) (hl : t'.locks = false) :
    t' ∈ m.tasks := by
  obtain ⟨x, hx, hxt⟩ := List.mem_map.1 h
  split at hxt
  · have hlabel : Task.label { t with job } = t.label := by simp only [Task.label, hjob]
    rw [← hxt, Task.locks_eq hlabel, Task.locks_of_streams ht] at hl
    cases hl
  · exact hxt ▸ hx

namespace Orderly

variable {g : Game σ} {t t' : Task}

/-- A listing that is on the roster after a move was carried there by the move, or the move has brought it. -/
theorem carried_of_listing (h : Orderly g) {m : Move σ} (ht : t' ∈ (g.step m).manager.tasks) (hl : t'.locks = false) :
    (∃ t ∈ g.manager.tasks, g.carried t m = some t') ∨ t'.number = g.manager.issued := by
  have hsame : t' ∈ g.manager.tasks → g.carried t' m = some t' →
      ∃ t ∈ g.manager.tasks, g.carried t m = some t' := fun ht hc => ⟨t', ht, hc⟩
  cases m with
  | request r now =>
    simp only [Game.step] at ht
    split at ht
    · next hq =>
      obtain ⟨-, hn, -, rfl⟩ := Manager.request_ok hq
      rcases List.mem_append.1 ht with ht | ht
      · exact .inl (hsame ht rfl)
      · exact .inr (List.mem_singleton.1 ht ▸ hn)
    · exact .inl (hsame ht rfl)
  | delete slot =>
    obtain ⟨a, he, -⟩ := Manager.deleteSlot_eq g.manager g.store slot
    simp only [Game.step, he] at ht
    exact .inl (hsame ht rfl)
  | tick now =>
    rw [h.tasks_tick] at ht
    obtain ⟨hswept, hlive⟩ := List.mem_filter.1 ht
    unfold Manager.swept at hswept
    split at hswept
    · obtain ⟨u, hu, w, rfl⟩ := Manager.mem_sweep hswept
      have hul : u.locks = false := (u.locks_step ..).symm.trans hl
      rw [Task.step_eq (h.live u hu)] at hlive ⊢
      rw [Task.advance_of_unlocked hul _ _ _ g.world] at hlive ⊢
      have hnone : (u.job.advance u.filter g.manager.preset now g.world).2.2 = none := by
        simpa [Task.isTerminal_stateAfter] using hlive
      refine .inl ⟨u, hu, ?_⟩
      simp [Game.carried, hnone, Task.stateAfter]
    · cases hswept
  | regionReady region =>
    have hcarried : g.carried t' (.regionReady region) = some t' := by
      simp [Game.carried, Task.ready_of_unlocked hl]
    simp only [Game.step] at ht
    rcases g.manager.regionReady_cases region g.world with ⟨r, he, -⟩ | ⟨r, u, job, w', hs, hj, he⟩
    · rw [he] at ht
      exact .inl (hsame ht hcarried)
    · rw [he] at ht
      have hu := Manager.streams_of_streamingTask hs
      have hmem := Manager.mem_putTask_unlocked hu (Job.subject_regionReady hj) ht hl
      exact .inl (hsame hmem hcarried)
  | regionUnloading region =>
    have hcarried : g.carried t' (.regionUnloading region) = some t' := by
      simp [Game.carried, Task.unloading_of_unlocked hl]
    simp only [Game.step] at ht
    rcases g.manager.regionUnloading_cases region g.world with ⟨r, he, -⟩ | ⟨r, u, job, hs, hj, he⟩
    · rw [he] at ht
      exact .inl (hsame ht hcarried)
    · rw [he] at ht
      have hu := Manager.streams_of_streamingTask hs
      have hmem := Manager.mem_putTask_unlocked hu (Job.subject_regionUnloading hj) ht hl
      exact .inl (hsame hmem hcarried)
  | subscribe name =>
    simp only [Game.step, Manager.subscribe] at ht
    split at ht <;> exact .inl (hsame ht rfl)
  | deinitialize =>
    rw [h.tasks_teardown] at ht
    cases ht
  | work n =>
    by_cases hn : t'.number = n
    · obtain ⟨u, hu, rfl⟩ := Manager.task_runWork ht hn
      have hun : u.number = n := by simpa using List.find?_some hu
      exact .inl ⟨u, List.mem_of_find?_eq_some hu, by simp [Game.carried, hun]⟩
    · exact .inl (hsame (Manager.mem_runWork_other ht hn) (by simp [Game.carried, hn]))
  | lose n =>
    obtain ⟨u, hu, rfl⟩ := List.mem_map.1 ht
    exact .inl ⟨u, hu, rfl⟩
  | unsubscribe | currentInfo | currentData | visit | disturb => exact .inl (hsame ht rfl)

end Orderly

/-- What the call that lists all slots at once is answered. -/
def Game.listed (g : Game σ) (recent : Bool) : Except SlotError (List SlotInfo) := g.manager.listInfos g.store recent

/-- What a listing of all slots with a number has come to in some turns, having been asked for before them. -/
inductive Pursues (recent : Bool) (n : Nat) (range : SlotRange) (turns : List (Turn σ)) : Job → Prop
  | start : Pursues recent n range turns (.infos recent .start)
  | waiting : Pursues recent n range turns (.infos recent (.working (.waiting (range, recent))))
  | found {y : Turn σ} (hy : y ∈ turns) (hm : y.move = .work n) (hr : y.game.manager.running = true) :
      Pursues recent n range turns (.infos recent (.working (.finished (y.game.listed recent))))
  | lost {y : Turn σ} (hy : y ∈ turns) (hm : y.move = .lose n) :
      Pursues recent n range turns (.infos recent (.working .lost))

theorem Game.listed_running {g : Game σ} (hr : g.manager.running = true) (recent : Bool) :
    g.listed recent = SlotStore.listInfos g.store g.manager.preset.slotRange recent := by
  simp only [listed, Manager.listInfos, Manager.checkRunning_eq hr]
  rfl

namespace Pursues

variable {recent : Bool} {n : Nat} {range : SlotRange} {turns : List (Turn σ)} {g : Game σ} {t : Task} {job : Job}

theorem concat (h : Pursues recent n range turns job) (x : Turn σ) : Pursues recent n range (turns ++ [x]) job := by
  cases h with
  | start => exact .start
  | waiting => exact .waiting
  | found hy hm hr => exact .found (List.mem_append_left _ hy) hm hr
  | lost hy hm => exact .lost (List.mem_append_left _ hy) hm

theorem step (h : Pursues recent t.number range turns t.job) {m : Move σ} (hc : g.Carries t m job)
    (hr : g.manager.running = true) (hrange : g.manager.preset.slotRange = range) :
    Pursues recent t.number range (turns ++ [⟨g, m⟩]) job := by
  have hlast : (⟨g, m⟩ : Turn σ) ∈ turns ++ [⟨g, m⟩] := List.mem_append_right _ (List.mem_singleton_self _)
  cases hc with
  | advance now hnone =>
    generalize t.job = j at h hnone ⊢
    cases h with
    | start =>
      rw [← hrange]
      exact .waiting
    | waiting => exact .waiting
    | found | lost => cases hnone
  | ready region hready =>
    generalize t.job = j at h hready
    cases h <;> cases hready
  | unloading region hu =>
    generalize t.job = j at h hu
    cases h <;> cases hu
  | work =>
    generalize t.job = j at h ⊢
    cases h with
    | waiting =>
      have hfound : Pursues recent t.number range _ _ := .found hlast rfl hr
      rw [Game.listed_running hr, hrange] at hfound
      exact hfound
    | start => exact .start
    | found hy hm hr => exact .found (List.mem_append_left _ hy) hm hr
    | lost hy hm => exact .lost (List.mem_append_left _ hy) hm
  | lose =>
    generalize t.job = j at h ⊢
    cases h with
    | waiting => exact .lost hlast rfl
    | start => exact .start
    | found hy hm hr => exact .found (List.mem_append_left _ hy) hm hr
    | lost hy hm => exact .lost (List.mem_append_left _ hy) hm
  | stay => exact h.concat _

end Pursues

/-- What a listing of all slots with a number may be replied to, given the turns since it was asked for: what the call
that lists at once would have been answered in the turn in which its work was done, unless the work was lost or teardown
came before. -/
inductive Answers (recent : Bool) (n : Nat) (turns : List (Turn σ)) : Reply → Prop
  | found {y : Turn σ} (hy : y ∈ turns) (hm : y.move = .work n) (hr : y.game.manager.running = true) :
      Answers recent n turns ((y.game.listed recent).map .infos)
  | lost {y : Turn σ} (hy : y ∈ turns) (hm : y.move = .lose n) : Answers recent n turns (.error .workerLost)
  | cancelled {y : Turn σ} (hy : y ∈ turns) (hm : y.move = Move.deinitialize) :
      Answers recent n turns (.error .cancelled)

namespace Orderly

variable {g : Game σ} {t u : Task} {recent : Bool}

/-- A listing that is under way stays one. -/
theorem unlocked_run (h : Orderly g) (ht : t ∈ g.manager.tasks) (hl : t.locks = false) (ms : List (Move σ))
    (hu : u ∈ (g.run ms).manager.tasks) (hn : u.number = t.number) : u.locks = false := by
  have hk : t.job.kind = .loadInfos := by simpa [Task.locks, Task.kind] using hl
  have hnumbered := (h.numbered ht hk).run (P := fun j => j.kind = .loadInfos)
    (fun hk hmoved => (Job.kind_moved hmoved).trans hk) h ms
  simp [Task.locks, Task.kind, hnumbered.jobs u (List.mem_append_left _ hu) hn]

/-- What has a number in a step of a run was carried on from before. -/
theorem carried_run (h : Orderly g) (ht : t ∈ g.manager.tasks) (hl : t.locks = false) {ms : List (Move σ)}
    {m : Move σ} (hu : u ∈ ((g.run ms).step m).manager.tasks) (hn : u.number = t.number) :
    ∃ v ∈ (g.run ms).manager.tasks, v.number = t.number ∧ v.locks = false ∧ (g.run ms).Carries v m u.job := by
  have hul : u.locks = false := h.unlocked_run ht hl (ms ++ [m]) (by rwa [Game.run_append]) hn
  rcases (h.run ms).carried_of_listing hu hul with ⟨v, hv, hc⟩ | hnew
  · have hlabel := Game.label_carried hc
    exact ⟨v, hv, (Task.number_eq hlabel).symm.trans hn, (Task.locks_eq hlabel).symm.trans hul, Game.carries hc⟩
  -- a task made later has a larger number
  · have hlt := h.issued t ht
    have hle := issued_le_run g ms
    omega

/-- What a listing has come to that is still on the roster. -/
theorem pursues (h : Orderly g) (ht : t ∈ g.manager.tasks) (hj : t.job = .infos recent .start) (ms : List (Move σ))
    (hu : u ∈ (g.run ms).manager.tasks) (hn : u.number = t.number) :
    Pursues recent t.number g.manager.preset.slotRange (g.trace ms) u.job := by
  have hl : t.locks = false := by simp [Task.locks, Task.kind, hj, Job.kind]
  induction ms using List.reverseRecOn generalizing u with
  | nil =>
    obtain rfl : u = t := List.inj_on_of_nodup_map h.distinct hu ht hn
    rw [hj]
    exact .start
  | append_singleton ms m ih =>
    rw [Game.run_append] at hu
    rw [Game.trace_append]
    obtain ⟨v, hv, hvn, -, hc⟩ := h.carried_run ht hl hu hn
    have hpursues := ih hv hvn
    rw [← hvn] at hpursues ⊢
    exact hpursues.step hc ((h.run ms).running_of_mem hv) (by rw [preset_run])

/-- What the caller of a listing is told. -/
theorem answers (h : Orderly g) (ht : t ∈ g.manager.tasks) (hj : t.job = .infos recent .start) {ms : List (Move σ)}
    {x : Turn σ} (hx : x ∈ g.trace ms) {c : Call} (hc : c ∈ x.calls) (hn : c.task.number = t.number) :
    Answers recent t.number (g.trace ms) c.reply := by
  have ho := h.turns hx
  rcases (Turn.settles ho hc).how with ⟨now, hm, -, -⟩ | ⟨hm, -, hreply⟩
  · obtain ⟨u, hu, hlabel, w, r, hr, hreply⟩ := Turn.ended_of_call ho hm hc
    obtain ⟨before, rest, hs⟩ := List.append_of_mem hx
    obtain ⟨ms₁, ms₂, -, hbefore, hg, -⟩ := Game.trace_split hs
    -- what the tick finds in the job was put there in an earlier turn
    have hpursues := h.pursues ht hj ms₁ (hg ▸ hu) ((Task.number_eq hlabel).symm.trans hn)
    have hpast : ∀ y ∈ g.trace ms₁, y ∈ g.trace ms := fun y hy => by
      rw [hs, hbefore]
      exact List.mem_append_left _ hy
    rw [hreply]
    generalize u.job = j at hr hpursues
    cases hpursues with
    | start | waiting => cases hr
    | @found y hy hm hrunning =>
      cases hr
      have hfound : Answers recent t.number (g.trace ms) _ := .found (hpast y hy) hm hrunning
      cases hl : y.game.listed recent <;>
      · rw [hl] at hfound
        exact hfound
    | @lost y hy hm =>
      cases hr
      exact .lost (hpast y hy) hm
  · rw [hreply]
    exact .cancelled hx hm

end Orderly

/-! ## When a listing ends -/

/-- How far a piece of work has come: it is to be given away, was given away, or is done or lost. -/
def WorkPhase.stage {ω α : Type} : WorkPhase ω α → Nat
  | start => 0
  | working work => if work.inFlight then 1 else 2

/-- How far a listing has come. -/
def Job.stage : Job → Nat
  | info _ phase => phase.stage
  | infos _ phase => phase.stage
  | save _ | load _ | deleteAll _ => 0

theorem Job.stage_le (j : Job) : j.stage ≤ 2 := by
  have hphase {ω α : Type} (phase : WorkPhase ω α) : phase.stage ≤ 2 := by
    unfold WorkPhase.stage
    split
    · omega
    · split <;> omega
  cases j with
  | info | infos => exact hphase _
  | save | load | deleteAll => exact Nat.zero_le 2

/-- A move does not set a listing back, and takes it on if it is the one that the listing waits for. -/
theorem Game.Carries.stage {g : Game σ} {t : Task} {m : Move σ} {job : Job} (h : g.Carries t m job)
    (hl : t.locks = false) (now now' : Instant) :
    t.job.stage ≤ job.stage ∧
      ([.tick now, .work t.number, .tick now'][t.job.stage]? = some m → t.job.stage < job.stage) := by
  have hj := Task.job_of_unlocked hl
  cases h with
  | advance _ hnone =>
    rcases hj with ⟨slot, phase, hj⟩ | ⟨recent, phase, hj⟩ <;>
    · rw [hj] at hnone ⊢
      rcases phase with _ | (_ | _ | _ | _)
      · exact ⟨Nat.zero_le _, fun _ => Nat.zero_lt_one⟩
      · exact ⟨Nat.le_refl _, nofun⟩
      · exact ⟨Nat.le_refl _, nofun⟩
      · cases hnone
      · cases hnone
  | ready region hr =>
    rw [Task.ready_of_unlocked hl] at hr
    cases hr
  | unloading region hu =>
    rw [Task.unloading_of_unlocked hl] at hu
    cases hu
  | work =>
    rcases hj with ⟨slot, phase, hj⟩ | ⟨recent, phase, hj⟩ <;>
    · rw [hj]
      rcases phase with _ | (_ | _ | _ | _)
      · exact ⟨Nat.le_refl _, nofun⟩
      · exact ⟨Nat.le_succ _, fun _ => Nat.lt_succ_self _⟩
      · exact ⟨Nat.le_succ _, fun _ => Nat.lt_succ_self _⟩
      · exact ⟨Nat.le_refl _, nofun⟩
      · exact ⟨Nat.le_refl _, nofun⟩
  | lose =>
    rcases hj with ⟨slot, phase, hj⟩ | ⟨recent, phase, hj⟩ <;>
    · rw [hj]
      rcases phase with _ | (_ | _ | _ | _)
      · exact ⟨Nat.le_refl _, nofun⟩
      · exact ⟨Nat.le_succ _, nofun⟩
      · exact ⟨Nat.le_succ _, nofun⟩
      · exact ⟨Nat.le_refl _, nofun⟩
      · exact ⟨Nat.le_refl _, nofun⟩
  | stay htick hwork _ =>
    refine ⟨Nat.le_refl _, fun hm => ?_⟩
    obtain hm | hm | hm : Move.tick now = m ∨ .work t.number = m ∨ .tick now' = m := by
      have hmem := List.mem_of_getElem? hm
      simpa [eq_comm] using hmem
    · exact absurd hm.symm (htick now)
    · exact absurd hm.symm hwork
    · exact absurd hm.symm (htick now')

namespace Orderly

variable {g : Game σ} {t u : Task}

/-- The first moves that take a listing on have taken it that far. -/
theorem stage_run (h : Orderly g) (ht : t ∈ g.manager.tasks) (hl : t.locks = false) {now now' : Instant} {k : Nat}
    (hk : k ≤ 3) {ms : List (Move σ)} (hms : ([.tick now, .work t.number, .tick now'].take k).Sublist ms)
    (hu : u ∈ (g.run ms).manager.tasks) (hn : u.number = t.number) : k ≤ u.job.stage := by
  induction ms using List.reverseRecOn generalizing k u with
  | nil =>
    have hzero : min k 3 = 0 := by simpa using congrArg List.length (List.sublist_nil.1 hms)
    omega
  | append_singleton ms m ih =>
    rw [Game.run_append] at hu
    obtain ⟨v, hv, hvn, hvl, hc⟩ := h.carried_run ht hl hu hn
    obtain ⟨hle, hnext⟩ := hc.stage hvl now now'
    obtain ⟨before, last, hsplit, hbefore, hlast⟩ := List.sublist_append_iff.1 hms
    rcases List.sublist_singleton.1 hlast with rfl | rfl
    -- the last move is none of them, or it is the next that the listing may have waited for
    · rw [List.append_nil] at hsplit
      exact Nat.le_trans (ih hk (hsplit ▸ hbefore) hv hvn) hle
    · cases k with
      | zero => exact Nat.zero_le _
      | succ k =>
        rw [List.take_add_one, List.getElem?_eq_getElem hk, Option.toList_some] at hsplit
        obtain ⟨rfl, hm⟩ := List.append_inj' hsplit rfl
        rcases Nat.eq_or_lt_of_le (ih (Nat.le_of_succ_le hk) hbefore hv hvn) with heq | hlt
        · rw [← heq, hvn, List.getElem?_eq_getElem hk] at hnext
          exact heq ▸ hnext (congrArg some (List.singleton_inj.1 hm))
        · exact Nat.le_trans hlt hle

/-- Once a tick, its work and another tick have come, a listing has ended. -/
theorem listing_ends (h : Orderly g) (ht : t ∈ g.manager.tasks) (hl : t.locks = false) {now now' : Instant}
    {ms : List (Move σ)} (hms : [.tick now, .work t.number, .tick now'].Sublist ms) :
    t.number ∉ (g.run ms).manager.tasks.map Task.number := by
  intro hmem
  obtain ⟨u, hu, hn⟩ := List.mem_map.1 hmem
  have hlate := h.stage_run ht hl (Nat.le_refl 3) hms hu hn
  have hle := u.job.stage_le
  omega

end Orderly

/-! ## What is told of a listing -/

theorem Game.map_move_trace (g : Game σ) (ms : List (Move σ)) : (g.trace ms).map Turn.move = ms := by
  induction ms generalizing g with
  | nil => rfl
  | cons m ms ih => rw [trace, List.map_cons, ih]

/-- What a callback and a latent are told of a listing of all slots that was asked for in a game, given the turns since
then. -/
structure Tells (g : Game σ) (recent : Bool) (n : Nat) (since : List (Turn σ)) (l : Latent) : Prop where
  /-- Both are told nothing yet, or the same. -/
  alike : callsFor since n = [] ∧ l.poll = .pending ∨
    ∃ c, callsFor since n = [c] ∧ Answers recent n since c.reply ∧
      l.poll = .ready (Latent.statusOf c.reply) ∧ l.polled.result? = some c.reply
  /-- They are told after a tick, the work of the listing and another tick. -/
  ends : ∀ now now', [.tick now, .work n, .tick now'].Sublist (since.map Turn.move) → callsFor since n ≠ []
  /-- If the store has not changed, they are told what the call that lists at once was answered. -/
  same : (∀ y ∈ since, y.game.store = g.store ∧ y.move ≠ .lose n ∧ y.move ≠ Move.deinitialize) →
    ∀ c ∈ callsFor since n, c.reply = (g.listed recent).map .infos

/-- A listing that was asked for is told of. -/
theorem Orderly.tells {g g' : Game σ} (h : Orderly g') (hr : g.manager.running = true)
    (hp : g'.manager.preset = g.manager.preset) {t : Task} (ht : t ∈ g'.manager.tasks) {recent : Bool}
    (hj : t.job = .infos recent .start) {ms : List (Move σ)} {l : Latent}
    (hl : Latent.Course (.pending t.number none) (g'.trace ms) l) : Tells g recent t.number (g'.trace ms) l := by
  have hanswers : ∀ c ∈ callsFor (g'.trace ms) t.number, Answers recent t.number (g'.trace ms) c.reply := by
    intro c hc
    obtain ⟨⟨x, hx, hcx⟩, hn⟩ := mem_callsFor.1 hc
    exact h.answers ht hj hx hcx hn
  obtain ⟨hon, hoff⟩ := h.calls_or_roster ht ms
  constructor
  · rcases hl.first with ⟨hnone, rfl⟩ | ⟨c, rest, hcalls, hl⟩
    · exact .inl ⟨hnone, rfl⟩
    · have hc : c ∈ callsFor (g'.trace ms) t.number := by simp [hcalls]
      obtain rfl : rest = [] := by
        by_cases hroster : t.number ∈ (g'.run ms).manager.tasks.map Task.number
        · simp [hon hroster] at hcalls
        · obtain ⟨c', hc'⟩ := hoff hroster
          rw [hc'] at hcalls
          exact (List.cons.inj hcalls).2.symm
      refine .inr ⟨c, hcalls, hanswers c hc, ?_⟩
      rcases hl with rfl | rfl <;> exact ⟨rfl, rfl⟩
  · intro now now' hms
    rw [Game.map_move_trace] at hms
    have hunlocked : t.locks = false := by simp [Task.locks, Task.kind, hj, Job.kind]
    obtain ⟨c, hc⟩ := hoff (h.listing_ends ht hunlocked hms)
    simp [hc]
  · intro hsame c hc
    have hreply := hanswers c hc
    generalize c.reply = reply at hreply
    cases hreply with
    | @found y hy _ hrunning =>
      obtain ⟨_, _, hsplit⟩ := List.append_of_mem hy
      obtain ⟨ms₁, _, -, -, hg, -⟩ := Game.trace_split hsplit
      rw [Game.listed_running hrunning, Game.listed_running hr, (hsame y hy).1, hg, preset_run, hp]
    | lost hy hm => exact absurd hm (hsame _ hy).2.1
    | cancelled hy hm => exact absurd hm (hsame _ hy).2.2

open SlotStore in
/-- In every run, the call that lists all slots at once is answered with what there is in the range, in order, and
fails only if the store does. A listing by a task is told of by callback and latent alike, with what that call would
have been answered as its work was done; so with the same if the store does not change. After teardown both are
refused. -/
theorem listings_agree (p : Preset) (s : σ) (w : World) (before : List (Desk.Act σ)) (recent : Bool) (now : Instant)
    (after : List (Desk.Act σ)) :
    let d := (Desk.new p s w).run before
    let asked := d.step (.ask (.infos recent) now)
    ∃ l, (asked.run after).latents[d.latents.length]? = some l ∧
      (d.game.manager.running = true →
        Lists d.game.store p.slotRange recent (d.game.listed recent) ∧
        ∃ t m, d.game.manager.request d.game.store now (.infos recent) = .ok (t, m) ∧
          Tells d.game recent t.number (asked.trace after) l) ∧
      (d.game.manager.running = false →
        d.game.listed recent = .error .notRunning ∧
        d.game.manager.request d.game.store now (.infos recent) = .error .notRunning ∧
        l = .resolved .rejected (.error .notRunning)) := by
  intro d asked
  have hd : d.game = (Game.new p s w).run (before.filterMap Desk.Act.move?) := Desk.game_run before
  have horderly : Orderly asked.game := by
    change Orderly (d.game.step (.request (.infos recent) now))
    rw [hd]
    exact ((orderly_new p s w).run _).step _
  have hlast : asked.latents[d.latents.length]? = some
      (.ofRequest ((d.game.manager.request d.game.store now (.infos recent)).map Prod.fst)) :=
    List.getElem?_concat_length
  obtain ⟨l, hat, hcourse⟩ := Desk.course hlast after
  refine ⟨l, hat, fun hr => ⟨?_, ?_⟩, fun hr => ?_⟩
  · rw [Game.listed_running hr, show d.game.manager.preset = p by rw [hd, Orderly.preset_run]; rfl]
    exact lists_listInfos _ _ _
  · have hreq : d.game.manager.request d.game.store now (.infos recent) =
        .ok (d.game.manager.register now (.infos recent .start)) := by
      simp only [Manager.request, Manager.job, Manager.checkRunning_eq hr]
      rfl
    have hasked : asked.game.manager = (d.game.manager.register now (.infos recent .start)).2 := by
      change (d.game.step (.request (.infos recent) now)).manager = _
      simp only [Game.step, hreq]
    rw [hreq] at hcourse
    refine ⟨_, _, hreq, horderly.tells hr (by rw [hasked]; rfl) ?_ rfl hcourse⟩
    rw [hasked]
    exact List.mem_append_right _ (List.mem_singleton_self _)
  · have hcheck : d.game.manager.checkRunning = .error .notRunning := by simp [Manager.checkRunning, hr]
    have hreq : d.game.manager.request d.game.store now (.infos recent) = .error .notRunning := by
      simp only [Manager.request, Manager.job, hcheck]
      rfl
    rw [hreq] at hcourse
    refine ⟨?_, hreq, hcourse.resolved⟩
    simp only [Game.listed, Manager.listInfos, hcheck]
    rfl

/-- The info of a slot that was saved in an hour of the first day. -/
def savedIn (id : SlotId) (hour : Nat) : SlotInfo :=
  { SlotInfo.empty id "" with savedAt := { Instant.epoch with hour := ⟨hour % 24, Nat.mod_lt hour (by decide)⟩ } }

def threeSlots : MemoryStore :=
  ((MemoryStore.empty.putInfo (savedIn 1 0)).putInfo (savedIn 2 5)).putInfo (savedIn 7 9)

/-- A listing is worked at between two ticks, and polled for. -/
def listingSlots : List (Desk.Act MemoryStore) :=
  [.move (.tick .epoch), .move (.work 0), .move (.tick .epoch), .poll 0]

/-- Of three slots one is out of the range, and the later of the others comes first. -/
theorem listings_agree_three :
    let d := Desk.new { Preset.default with maxSlots := 3 } threeSlots (World.new "harbor")
    let asked := d.step (.ask (.infos true) .epoch)
    d.game.manager.running = true ∧
      ∃ l, (asked.run listingSlots).latents[0]? = some l ∧
        l.polled.result? = some (.ok (.infos [savedIn 2 5, savedIn 1 0])) := by
  intro d asked
  have hlisted : d.game.listed true = .ok [savedIn 2 5, savedIn 1 0] := by
    have hread : SlotStore.readableInfos threeSlots [1, 2] = [savedIn 1 0, savedIn 2 5] := by decide +kernel
    have hlater : SlotStore.latestFirst (savedIn 1 0) (savedIn 2 5) = false := by decide +kernel
    have hall : d.game.listed true =
        .ok ((SlotStore.readableInfos threeSlots [1, 2]).mergeSort SlotStore.latestFirst) := rfl
    rw [hall, hread]
    simp [List.mergeSort, hlater]
  have hquiet : ∀ y ∈ asked.trace listingSlots,
      y.game.store = d.game.store ∧ y.move ≠ .lose 0 ∧ y.move ≠ Move.deinitialize :=
    List.forall_mem_cons.2 ⟨⟨rfl, nofun, nofun⟩, List.forall_mem_cons.2 ⟨⟨rfl, nofun, nofun⟩,
      List.forall_mem_cons.2 ⟨⟨rfl, nofun, nofun⟩, List.forall_mem_nil _⟩⟩⟩
  obtain ⟨l, hat, htells, -⟩ := listings_agree { Preset.default with maxSlots := 3 } threeSlots (World.new "harbor") []
    true .epoch listingSlots
  obtain ⟨-, t, m, hreq, htells⟩ := htells rfl
  have hnumber : t.number = 0 := by
    cases hreq
    rfl
  rw [hnumber] at htells
  refine ⟨rfl, l, hat, ?_⟩
  rcases htells.alike with ⟨hnone, -⟩ | ⟨c, hc, -, -, hresult⟩
  · exact absurd hnone (htells.ends .epoch .epoch (List.Sublist.refl _))
  · have hreply : c.reply = (d.game.listed true).map .infos := htells.same hquiet c (by simp [hc])
    rw [hresult, hreply, hlisted]
    rfl

end SaveSlots
