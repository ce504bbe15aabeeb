import SaveSlots.Proofs.Folder
import SaveSlots.Proofs.Handed
import SaveSlots.Store.Faults
/-!
# Deleting everything and the active slot

The work of a delete-all removes one slot after another, and the manager learns of it only when the task ends.
What is removed is told from what the store holds before the work and after it (`Turn.Removes`), so it does not
matter how far the work came.

`delete_all_clears` is the main theorem. A delete-all that succeeds names just what it removed, and nothing of
that is active afterwards. One that fails names nothing, so the active slot stays active even if it was removed;
`delete_all_clears_halfway` is such a run.
-/

namespace SaveSlots

/-! ## Stores that delete -/

/-- Each deletion concerns one slot: the slot is gone if it succeeds, and still there, if it was, if it fails. -/
class Deletes (σ : Type) [SlotStore σ] : Prop where
  holds_ok {s s' : σ} {id : SlotId} : SlotStore.delete s id = (.ok (), s') →
    SlotStore.holds s id = true ∧
      ∀ id', SlotStore.holds s' id' = if id' = id then false else SlotStore.holds s id'
  holds_error {s s' : σ} {id : SlotId} {e : StoreError} : SlotStore.delete s id = (.error e, s') →
    ∀ id', SlotStore.holds s' id' = SlotStore.holds s id'

namespace Deletes

variable {σ : Type} [SlotStore σ] [Deletes σ] {s s' : σ}

/-- A deletion brings no slot back. -/
theorem holds_of_delete (id : SlotId) {id' : SlotId} (h : SlotStore.holds (SlotStore.delete s id).2 id' = true) :
    SlotStore.holds s id' = true := by
  cases hd : SlotStore.delete s id with
  | mk answer s₁ =>
    rw [hd] at h
    cases answer with
    | ok _ =>
      rw [(holds_ok hd).2] at h
      split at h
      · cases h
      · exact h
    | error e => rwa [holds_error hd] at h

theorem holds_of_deleteEach (ids : List SlotId) {id : SlotId}
    (h : SlotStore.holds (SlotStore.deleteEach s ids).2 id = true) : SlotStore.holds s id = true := by
  induction ids generalizing s with
  | nil => exact h
  | cons id' ids ih =>
    simp only [SlotStore.deleteEach] at h
    apply holds_of_delete id'
    split at h <;> next hd => rw [hd]; first | exact ih h | exact h

/-- Deletions that succeed name the slots that were there and are gone. -/
theorem mem_deleteEach {ids gone : List SlotId} (h : SlotStore.deleteEach s ids = (.ok gone, s')) (id : SlotId) :
    id ∈ gone ↔ SlotStore.holds s id = true ∧ SlotStore.holds s' id = false := by
  induction ids generalizing s gone with
  | nil =>
    cases h
    simp
  | cons id' ids ih =>
    simp only [SlotStore.deleteEach] at h
    split at h
    · next s₁ hd =>
      obtain ⟨hthere, hrest⟩ := holds_ok hd
      cases he : SlotStore.deleteEach s₁ ids with
      | mk answer s₂ =>
        rw [he] at h
        cases answer with
        | error e => cases h
        | ok gone₁ =>
          cases h
          rw [List.mem_cons, ih he, hrest]
          by_cases hid : id = id'
          · subst hid
            -- it is gone by the first deletion, and none of the others brings it back
            cases hback : SlotStore.holds s₂ id with
            | false => simp [hthere]
            | true =>
              have hearlier : SlotStore.holds s₁ id = true :=
                holds_of_deleteEach ids (by rw [he]; exact hback)
              rw [hrest, if_pos rfl] at hearlier
              cases hearlier
          · simp [hid]
    · next hd => rw [ih h, holds_error hd]
    · cases h

/-- So does a delete-all that succeeds. -/
theorem mem_deleteAll {gone : List SlotId} (h : SlotStore.deleteAll s = (.ok gone, s')) (id : SlotId) :
    id ∈ gone ↔ SlotStore.holds s id = true ∧ SlotStore.holds s' id = false := by
  unfold SlotStore.deleteAll at h
  split at h
  · cases h
  · exact mem_deleteEach h id

end Deletes

instance : Deletes MemoryStore where
  holds_ok {s s' id} h := by
    simp only [SlotStore.delete, MemoryStore.delete] at h
    split at h
    · next hthere =>
      cases h
      refine ⟨hthere, fun id' => ?_⟩
      simp only [SlotStore.holds, MemoryStore.holds_eq, MemoryStore.info?, Catalog.find?_erase]
      by_cases hid : id = id'
      · simp [hid]
      · simp [hid, Ne.symm hid]
    · cases h
  holds_error {s s' id e} h := by
    simp only [SlotStore.delete, MemoryStore.delete] at h
    split at h <;> cases h
    exact fun _ => rfl

namespace FolderStore

open Script

theorem holds_folder (path : Path) (es : Entries) (id : SlotId) :
    FolderStore.holds ⟨path, some (.folder es)⟩ id = (es.lookup (infoName id)).isSome := by
  simp only [holds, Place.exists?, find_folder]
  cases es.lookup (infoName id) <;> rfl

/-- A file that cannot be removed stays. -/
theorem unlink_cases (es : Entries) (name : Bytes) :
    (Action.inFolder es (.unlink name) = .ok (es.remove name)) ∨
    ∃ e, Action.inFolder es (.unlink name) = .error e := by
  cases hu : Action.inFolder es (.unlink name) with
  | error e => exact .inr ⟨e, rfl⟩
  | ok es' =>
    simp only [Action.inFolder] at hu
    split at hu <;> cases hu
    exact .inl rfl

/-- A deletion whose last call is that for the info, from entries with the infos of `es₀`. -/
theorem run_unlink_info {next : Except IoCause Unit → Script (Except StoreError Unit)} {id : SlotId} {es es₀ : Entries}
    (hok : next (.ok ()) = pure (.ok ())) (herror : ∀ e, ∃ e', next (.error e) = pure (.error e'))
    (hinfos : ∀ id', es.lookup (infoName id') = es₀.lookup (infoName id')) :
    ∃ answer es', (perform (.unlink (infoName id)) >>= next).run (some (.folder es)) =
        (answer, some (.folder es')) ∧
      ∀ id', es'.lookup (infoName id') = if id' = id ∧ answer = .ok () then none else es₀.lookup (infoName id') := by
  rcases unlink_cases es (infoName id) with hu | ⟨e, hu⟩
  · refine ⟨.ok (), _, by rw [run_ok hu, hok, run_pure], fun id' => ?_⟩
    rw [Entries.lookup_remove, hinfos]
    simp
  · obtain ⟨e', he⟩ := herror e
    refine ⟨.error e', es, by rw [run_error hu, he, run_pure], fun id' => ?_⟩
    rw [hinfos, if_neg (by simp)]

/-- The info goes if a deletion succeeds, and stays if it fails. No other info is touched. -/
theorem run_deleteScript (path : Path) (id : SlotId) (es : Entries) :
    ∃ answer es', (deleteScript path id).run (some (.folder es)) = (answer, some (.folder es')) ∧
      ∀ id', es'.lookup (infoName id') =
        if id' = id ∧ answer = .ok () then none else es.lookup (infoName id') := by
  unfold deleteScript
  rcases unlink_cases es (payloadName id) with hu | ⟨e, hu⟩
  · rw [run_ok hu]
    refine run_unlink_info rfl (fun e => ⟨_, rfl⟩) fun id' => ?_
    rw [Entries.lookup_remove, if_neg (infoName_ne_payloadName id' id)]
  · rw [run_error hu]
    cases e with
    | notFound => exact run_unlink_info rfl (fun e => ⟨_, rfl⟩) fun _ => rfl
    | _ => exact ⟨_, es, rfl, fun id' => by rw [if_neg (by simp)]⟩

/-- A deletion that comes to the entries of the folder finds the slot there. -/
theorem delete_cases (s : FolderStore) (id : SlotId) :
    (∃ e, s.delete id = (.error e, s)) ∨
    ∃ es es' answer, s.place = some (.folder es) ∧ s.holds id = true ∧
      s.delete id = (answer, { s with place := some (.folder es') }) ∧
      ∀ id', es'.lookup (infoName id') =
        if id' = id ∧ answer = .ok () then none else es.lookup (infoName id') := by
  obtain ⟨path, place⟩ := s
  simp only [delete, deletion]
  split
  · exact .inl ⟨_, rfl⟩
  · exact .inl ⟨_, rfl⟩
  · next hthere =>
    have hholds : holds ⟨path, place⟩ id = true := by simp only [holds, hthere]
    obtain ⟨n, hn⟩ := (holds_iff _ _).1 hholds
    obtain ⟨es, rfl⟩ := entries_of_find hn
    obtain ⟨answer, es', hrun, hlook⟩ := run_deleteScript path id es
    exact .inr ⟨es, es', answer, rfl, hholds, by rw [hrun], hlook⟩

end FolderStore

instance : Deletes FolderStore where
  holds_ok {s s' id} h := by
    rcases s.delete_cases id with ⟨e, he⟩ | ⟨es, es', answer, hp, hthere, he, hlook⟩
    · rw [show s.delete id = _ from h] at he
      cases he
    · rw [show s.delete id = _ from h] at he
      cases he
      refine ⟨hthere, fun id' => ?_⟩
      obtain ⟨path, place⟩ := s
      obtain rfl : place = _ := hp
      simp only [SlotStore.holds, FolderStore.holds_folder, hlook]
      by_cases hid : id' = id <;> simp [hid]
  holds_error {s s' id e} h := by
    rcases s.delete_cases id with ⟨e', he⟩ | ⟨es, es', answer, hp, hthere, he, hlook⟩
    · rw [show s.delete id = _ from h] at he
      cases he
      exact fun _ => rfl
    · rw [show s.delete id = _ from h] at he
      cases he
      intro id'
      obtain ⟨path, place⟩ := s
      obtain rfl : place = _ := hp
      simp [SlotStore.holds, FolderStore.holds_folder, hlook]

instance {σ : Type} [SlotStore σ] [Deletes σ] : Deletes (FaultyStore σ) where
  holds_ok {s s' id} h := by
    simp only [SlotStore.delete] at h
    split at h
    · cases h
    · obtain ⟨ha, rfl⟩ := Prod.mk.inj h
      have hd : SlotStore.delete s.inner id = (.ok (), (SlotStore.delete s.inner id).2) := Prod.ext ha rfl
      obtain ⟨hthere, hrest⟩ := Deletes.holds_ok hd
      exact ⟨hthere, hrest⟩
  holds_error {s s' id e} h := by
    simp only [SlotStore.delete] at h
    split at h
    · cases h
      exact fun _ => rfl
    · obtain ⟨ha, rfl⟩ := Prod.mk.inj h
      have hd : SlotStore.delete s.inner id = (.error e, (SlotStore.delete s.inner id).2) := Prod.ext ha rfl
      have hrest := Deletes.holds_error hd
      exact hrest

/-! ## What a delete-all removes -/

variable {σ : Type} [SlotStore σ]

/-- Whether the work of a task removes a slot in a turn: the slot is there before, and not afterwards. -/
def Turn.Removes (x : Turn σ) (n : Nat) (id : SlotId) : Prop :=
  x.move = .work n ∧ SlotStore.holds x.game.store id = true ∧ SlotStore.holds x.after.store id = false

/-- Whether the work of a task has removed a slot in some turns. -/
def RemovedBy (turns : List (Turn σ)) (n : Nat) (id : SlotId) : Prop := ∃ x ∈ turns, x.Removes n id

theorem Turn.not_removes_of_move {x : Turn σ} {n : Nat} (h : x.move ≠ .work n) (id : SlotId) : ¬ x.Removes n id :=
  fun hx => h hx.1

theorem Turn.not_removes_of_store {x : Turn σ} (h : x.after.store = x.game.store) (n : Nat) (id : SlotId) :
    ¬ x.Removes n id := by
  rintro ⟨-, hthere, hgone⟩
  rw [h, hthere] at hgone
  cases hgone

theorem removedBy_concat {turns : List (Turn σ)} {x : Turn σ} {n : Nat} {id : SlotId} :
    RemovedBy (turns ++ [x]) n id ↔ RemovedBy turns n id ∨ x.Removes n id := by
  simp [RemovedBy, or_and_right, exists_or]

/-- What a delete-all can tell of the slots that it removed: none are removed until its work is done, and then
its result, if it is no error, names them. -/
def Accounts (turns : List (Turn σ)) (n : Nat) : WorkPhase Unit (List SlotId) → Prop
  | .start | .working (.waiting _) | .working (.held _) => ∀ id, ¬ RemovedBy turns n id
  | .working (.finished (.ok ids)) => ∀ id, id ∈ ids ↔ RemovedBy turns n id
  | .working (.finished (.error _)) | .working .lost => True

/-- A turn in which nothing is removed changes nothing about that. -/
theorem Accounts.quiet {turns : List (Turn σ)} {x : Turn σ} {n : Nat} {phase : WorkPhase Unit (List SlotId)}
    (h : Accounts turns n phase) (hx : ∀ id, ¬ x.Removes n id) : Accounts (turns ++ [x]) n phase := by
  have hsame : ∀ id, RemovedBy (turns ++ [x]) n id ↔ RemovedBy turns n id := fun id => by
    rw [removedBy_concat, or_iff_left (hx id)]
  cases phase with
  | start => exact fun id => (hsame id).not.2 (h id)
  | working handle =>
    cases handle with
    | waiting | held => exact fun id => (hsame id).not.2 (h id)
    | finished answer =>
      cases answer with
      | ok ids => exact fun id => (h id).trans (hsame id).symm
      | error e => trivial
    | lost => trivial

/-- A delete-all that ends with success names what it removed. -/
theorem Accounts.ended {turns : List (Turn σ)} {n : Nat} {phase : WorkPhase Unit (List SlotId)}
    (h : Accounts turns n phase) {ids : List SlotId} (ha : (phase.advance ()).2 = some (.ok ids)) (id : SlotId) :
    id ∈ ids ↔ RemovedBy turns n id := by
  cases phase with
  | start => cases ha
  | working handle =>
    cases handle with
    | waiting | held | lost => cases ha
    | finished answer =>
      cases ha
      exact h id

namespace Orderly

variable [Deletes σ] {g : Game σ} {t t' : Task} {phase : WorkPhase Unit (List SlotId)}

/-- The work of a delete-all accounts for what it removes. -/
theorem accounts_work (h : Orderly g) (ht : g.manager.holder? = some t) (hj : t.job = .deleteAll phase)
    {turns : List (Turn σ)} (hacc : Accounts turns t.number phase) :
    ∃ phase', (t.runWork g.store).1.job = .deleteAll phase' ∧
      Accounts (turns ++ [⟨g, .work t.number⟩]) t.number phase' := by
  have hstore : (Turn.after ⟨g, .work t.number⟩).store = (t.job.runWork g.store).2 :=
    h.store_work (h.find_everyTask (List.mem_of_find?_eq_some ht))
  change ∃ phase', (t.job.runWork g.store).1 = _ ∧ _
  rw [hj] at hstore ⊢
  cases phase with
  | start => exact ⟨_, rfl, hacc.quiet (Turn.not_removes_of_store hstore t.number)⟩
  | working handle =>
    cases handle with
    | finished answer => exact ⟨_, rfl, hacc.quiet (Turn.not_removes_of_store hstore t.number)⟩
    | lost => exact ⟨_, rfl, trivial⟩
    | waiting | held =>
      refine ⟨.working (.finished (SlotStore.deleteAll g.store).1), rfl, ?_⟩
      have hstore : (Turn.after ⟨g, .work t.number⟩).store = (SlotStore.deleteAll g.store).2 := hstore
      cases ha : (SlotStore.deleteAll g.store).1 with
      | error e => trivial
      | ok ids =>
        intro id
        have hd : SlotStore.deleteAll g.store = (.ok ids, (SlotStore.deleteAll g.store).2) := Prod.ext ha rfl
        rw [removedBy_concat, or_iff_right (hacc id), Deletes.mem_deleteAll hd, Turn.Removes, hstore]
        simp

/-- A delete-all goes on accounting for what it removes, whatever happens. -/
theorem accounts_step (h : Orderly g) (ht : g.manager.holder? = some t) {m : Move σ}
    (hc : g.carried t m = some t') (hj : t.job = .deleteAll phase) {turns : List (Turn σ)}
    (hacc : Accounts turns t.number phase) :
    ∃ phase', t'.job = .deleteAll phase' ∧ Accounts (turns ++ [⟨g, m⟩]) t'.number phase' := by
  rw [Task.number_eq (Game.label_carried hc)]
  by_cases hm : m = .work t.number
  · subst hm
    simp only [Game.carried, if_pos] at hc
    cases hc
    exact h.accounts_work ht hj hacc
  have hquiet : ∀ id, ¬ Turn.Removes ⟨g, m⟩ t.number id := Turn.not_removes_of_move hm
  have hcarries := Game.carries hc
  generalize hjob : t'.job = job at hcarries
  cases hcarries with
  | advance now hnone =>
    simp only [hj, Job.advance, WorkPhase.advance] at hnone ⊢
    cases phase with
    | start => exact ⟨_, rfl, hacc.quiet hquiet⟩
    | working handle =>
      cases handle with
      | waiting | held => exact ⟨_, rfl, hacc.quiet hquiet⟩
      | finished | lost => cases hnone
  | ready region hr =>
    rw [hj] at hr
    cases hr
  | unloading region hu =>
    rw [hj] at hu
    cases hu
  | work => exact absurd rfl hm
  | lose =>
    rw [hj]
    cases phase with
    | start => exact ⟨_, rfl, hacc.quiet hquiet⟩
    | working handle =>
      cases handle with
      | finished answer => exact ⟨_, rfl, hacc.quiet hquiet⟩
      | waiting | held | lost => exact ⟨_, rfl, trivial⟩
  | stay => exact ⟨phase, hj, hacc.quiet hquiet⟩

omit [Deletes σ] in
/-- Before a task is made, its work removes nothing. -/
theorem not_removedBy (h : Orderly g) {ms : List (Move σ)} (hr : (g.run ms).manager.running = true) {n : Nat}
    (hn : (g.run ms).manager.issued ≤ n) (id : SlotId) : ¬ RemovedBy (g.trace ms) n id := by
  rintro ⟨x, hx, hm, hthere, hgone⟩
  have hsame : x.after.store = x.game.store := by
    rw [Turn.after, hm]
    refine Game.store_work_absent fun u hu he => ?_
    have hlt := h.number_lt_of_everyTask hr hx hu
    omega
  exact Turn.not_removes_of_store hsame n id ⟨hm, hthere, hgone⟩

/-- What a delete-all can tell in a run. -/
theorem accounts {s : σ} {p : Preset} {w : World} {ms : List (Move σ)} {t : Task}
    (ht : ((Game.new p s w).run ms).manager.holder? = some t) (hk : t.kind = .deleteAll) :
    ∃ phase, t.job = .deleteAll phase ∧ Accounts ((Game.new p s w).trace ms) t.number phase := by
  have h := orderly_new p s w
  refine course_new (P := fun turns t => ∃ phase, t.job = .deleteAll phase ∧ Accounts turns t.number phase) p s w
    ?_ ?_ ms ht hk
  · intro ms m t hmade hn hfresh hk
    obtain ⟨phase, hj⟩ := Task.job_of_deleteAll hk
    obtain rfl : phase = .start := by
      rw [hj] at hfresh
      cases phase with
      | start => rfl
      | working => cases hfresh
    obtain ⟨-, -, hr⟩ := (h.run ms).holder_of_made (x := ⟨_, m⟩) hmade (by simp [Task.locks, hk])
    have hacc : Accounts ((Game.new p s w).trace ms) t.number .start := h.not_removedBy hr (Nat.le_of_eq hn.symm)
    refine ⟨.start, hj, hacc.quiet (Turn.not_removes_of_move ?_)⟩
    rintro rfl
    cases hmade
  · intro ms m t t' ht hc _ hP
    obtain ⟨phase, hj, hacc⟩ := hP
    exact (h.run ms).accounts_step ht hc hj hacc

end Orderly

/-! ## Main theorem -/

/-- What a delete-all names in its reply is struck off. -/
theorem Manager.not_mem_of_activeAfter {active : Option (SlotInfo × Snapshot)} {ids : List SlotId}
    {pair : SlotInfo × Snapshot} (h : activeAfter active (.ok (.deleted ids)) = some pair) : pair.1.id ∉ ids := by
  simpa using (Option.filter_eq_some_iff.1 h).2

/-- When a delete-all ends with success, its reply names just the slots that its work removed. A slot that it
removed is active afterwards if and only if it was active before and the delete-all has failed; teardown leaves
no slot active. -/
theorem delete_all_clears [Deletes σ] (p : Preset) (s : σ) (w : World) {ms : List (Move σ)}
    {before after : List (Turn σ)} {t : Turn σ} {c : Call}
    (hs : (Game.new p s w).trace ms = before ++ t :: after) (hc : c ∈ t.calls) (hk : c.task.kind = .deleteAll) :
    (∀ v, c.reply = .ok v → ∃ ids, v = .ids ids ∧ ∀ id, id ∈ ids ↔ RemovedBy before c.task.number id) ∧
    ∀ id, RemovedBy before c.task.number id →
      (t.after.manager.activeId = some id ↔
        t.game.manager.activeId = some id ∧ c.reply.isOk = false ∧ t.move ≠ Move.deinitialize) := by
  obtain ⟨ms₁, ms₂, rfl, rfl, hg, -⟩ := Game.trace_split hs
  have ho : Orderly t.game := hg ▸ (orderly_new p s w).run ms₁
  rcases (Turn.settles ho hc).how with ⟨now, hm, -, -⟩ | ⟨hm, -, hreply⟩
  · obtain ⟨u, r, hholder, hlabel, hstep, hreply, hactive⟩ := ho.holder_called hm hc (by simp [Task.locks, hk])
    obtain ⟨phase, hj, hacc⟩ := Orderly.accounts (hg ▸ hholder) ((Task.kind_eq hlabel).symm.trans hk)
    rw [Task.number_eq hlabel]
    simp only [hj, Job.advance, Prod.mk.injEq] at hstep
    obtain ⟨answer, hanswer, rfl⟩ := Option.map_eq_some_iff.1 hstep.2.2
    cases answer with
    | ok ids =>
      have hnamed := hacc.ended hanswer
      constructor
      · intro v hv
        cases hreply.symm.trans hv
        exact ⟨ids, rfl, hnamed⟩
      · intro id hid
        have hgone : t.after.manager.activeId ≠ some id := by
          rw [Manager.activeId, Manager.activeInfo, Option.map_map, hactive]
          intro hsome
          obtain ⟨pair, hpair, rfl⟩ := Option.map_eq_some_iff.1 hsome
          exact Manager.not_mem_of_activeAfter hpair ((hnamed _).2 hid)
        simp [hgone, hreply, Except.map, Except.isOk, Except.toBool]
    | error e =>
      have hsame : t.after.manager.activeId = t.game.manager.activeId := by
        simp only [Manager.activeId, Manager.activeInfo, hactive, Except.map, Manager.activeAfter]
      constructor
      · intro v hv
        cases hreply.symm.trans hv
      · intro id _
        simp [hsame, hreply, hm, Except.map, Except.isOk, Except.toBool]
  · have hr := Turn.running_of_call hc
    have hnone : t.after.manager.activeId = none := by
      rw [Turn.after, hm]
      simp only [Game.step, Manager.deinitialize_eq _ hr]
      rfl
    simp [hreply, hm, hnone]

/-- A folder in which slot 2 cannot be deleted: a folder lies in the place of its payload. -/
def stuckFolder : FolderStore :=
  ⟨⟨"saves"⟩, some (.folder [(FolderStore.infoName 2, .file []), (FolderStore.payloadName 2, .folder [])])⟩

/-- A run in which slot 1 is saved and then everything is deleted. -/
def deletingAll : List (Move FolderStore) :=
  [.request (.save 1 false none) .epoch, .tick .epoch, .work 0, .tick .epoch,
    .request .deleteAll .epoch, .tick .epoch, .work 1, .tick .epoch]

/-- A delete-all that fails half way leaves slot 1 active although it has removed it. -/
theorem delete_all_clears_halfway :
    let g := Game.new .default stuckFolder (World.new "harbor")
    let before := g.trace (deletingAll.take 7)
    let t : Turn FolderStore := ⟨g.run (deletingAll.take 7), .tick .epoch⟩
    ∃ c ∈ t.calls, c.task.kind = .deleteAll ∧ c.reply.isOk = false ∧ RemovedBy before c.task.number 1 ∧
      t.after.manager.activeId = some 1 := by
  intro g before t
  have hs : g.trace deletingAll = before ++ t :: [] := rfl
  have hcalls : 0 < t.calls.length ∧
      ∀ c ∈ t.calls, c.task.kind = .deleteAll ∧ c.task.number = 1 ∧ c.reply.isOk = false := by
    decide +kernel
  obtain ⟨c, hc⟩ := List.exists_mem_of_length_pos hcalls.1
  obtain ⟨hk, hn, hreply⟩ := hcalls.2 c hc
  have hremoved : RemovedBy before c.task.number 1 := by
    rw [hn]
    refine ⟨⟨g.run (deletingAll.take 6), .work 1⟩, ?_, rfl, ?_, ?_⟩
    · simp [before, deletingAll, Game.trace, Game.run]
    · decide +kernel
    · decide +kernel
  have hactive : t.game.manager.activeId = some 1 := by decide +kernel
  have hclears := (delete_all_clears .default stuckFolder (World.new "harbor") hs hc hk).2 1 hremoved
  exact ⟨c, hc, hk, hreply, hremoved, hclears.2 ⟨hactive, hreply, by simp⟩⟩

end SaveSlots
