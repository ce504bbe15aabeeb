import Mathlib.Tactic.SplitIfs
import SaveSlots.Proofs.Json.Lexing
import SaveSlots.Store.Folder
/-!
# A write to the folder, name by name

What a write of a slot makes of the entries of the folder. Its two halves and the three names that it uses
on its way (`parts`) never clash with each other or with those of another slot.

`run_writeScript` says what becomes of each name: both halves are in place (`Written`), or a folder was in the
way and both are as they were (`Spared`). This needs that the two old halves are not both folders: the new
payload, a file, would then be in the way of the old one when it is put back.
-/

namespace SaveSlots

/-! ## Names -/

namespace Decimal

theorem digits_injective {m n : Nat} (h : digits m = digits n) : m = n := by
  rw [← value_digits m, h, value_digits]

theorem spell_injective {m n : Int} (h : spell m = spell n) : m = n := by
  have hminus : ∀ k l : Nat, digits k ≠ 45 :: digits l := by
    intro k l heq
    have hd : isDigit 45 = true := isDigit_of_mem (n := k) (by simp [heq])
    revert hd
    decide
  cases m with
  | ofNat m =>
    cases n with
    | ofNat n => rw [digits_injective h]
    | negSucc n => exact absurd h (hminus m (n + 1))
  | negSucc m =>
    cases n with
    | ofNat n => exact absurd h.symm (hminus n (m + 1))
    | negSucc n =>
      have hd := digits_injective (List.cons.inj h).2
      omega

end Decimal

namespace FolderStore

theorem spell_id_injective {a b : SlotId} (h : Decimal.spell a.toInt = Decimal.spell b.toInt) : a = b := by
  have hn : a.number = b.number := Int32.toInt_inj.1 (Decimal.spell_injective h)
  cases a
  cases b
  exact congrArg SlotId.mk hn

@[simp]
theorem infoName_inj {a b : SlotId} : infoName a = infoName b ↔ a = b :=
  ⟨fun h => spell_id_injective (List.append_cancel_right h), congrArg _⟩

@[simp]
theorem payloadName_inj {a b : SlotId} : payloadName a = payloadName b ↔ a = b :=
  ⟨fun h => spell_id_injective (List.append_cancel_right h), congrArg _⟩

@[simp]
theorem staged_inj {a b : Bytes} : staged a = staged b ↔ a = b :=
  ⟨List.append_cancel_right, congrArg _⟩

@[simp]
theorem backup_inj {a b : Bytes} : backup a = backup b ↔ a = b :=
  ⟨List.append_cancel_right, congrArg _⟩

/-- Names with different last letters differ. -/
theorem append_ne {a b c d : Bytes} {x y : UInt8} (hb : b.getLast? = some x) (hd : d.getLast? = some y)
    (hne : x ≠ y) : a ++ b ≠ c ++ d := by
  intro h
  have hl : (a ++ b).getLast? = (c ++ d).getLast? := by rw [h]
  rw [List.getLast?_append, hb, List.getLast?_append, hd] at hl
  exact hne (Option.some.inj hl)

@[simp]
theorem infoName_ne_payloadName (a b : SlotId) : infoName a ≠ payloadName b :=
  append_ne (x := 110) (y := 118) (by decide) (by decide) (by decide)

@[simp]
theorem infoName_ne_staged (a : SlotId) (n : Bytes) : infoName a ≠ staged n :=
  append_ne (x := 110) (y := 112) (by decide) (by decide) (by decide)

@[simp]
theorem infoName_ne_backup (a : SlotId) (n : Bytes) : infoName a ≠ backup n :=
  append_ne (x := 110) (y := 107) (by decide) (by decide) (by decide)

@[simp]
theorem payloadName_ne_staged (a : SlotId) (n : Bytes) : payloadName a ≠ staged n :=
  append_ne (x := 118) (y := 112) (by decide) (by decide) (by decide)

@[simp]
theorem payloadName_ne_backup (a : SlotId) (n : Bytes) : payloadName a ≠ backup n :=
  append_ne (x := 118) (y := 107) (by decide) (by decide) (by decide)

@[simp]
theorem staged_ne_backup (a b : Bytes) : staged a ≠ backup b :=
  append_ne (x := 112) (y := 107) (by decide) (by decide) (by decide)

@[simp]
theorem payloadName_ne_infoName (a b : SlotId) : payloadName a ≠ infoName b := (infoName_ne_payloadName b a).symm

@[simp]
theorem staged_ne_infoName (a : SlotId) (n : Bytes) : staged n ≠ infoName a := (infoName_ne_staged a n).symm

@[simp]
theorem backup_ne_infoName (a : SlotId) (n : Bytes) : backup n ≠ infoName a := (infoName_ne_backup a n).symm

@[simp]
theorem staged_ne_payloadName (a : SlotId) (n : Bytes) : staged n ≠ payloadName a :=
  (payloadName_ne_staged a n).symm

@[simp]
theorem backup_ne_payloadName (a : SlotId) (n : Bytes) : backup n ≠ payloadName a :=
  (payloadName_ne_backup a n).symm

@[simp]
theorem backup_ne_staged (a b : Bytes) : backup a ≠ staged b := (staged_ne_backup b a).symm

/-- The names of a slot: its two halves, and what a write puts beside them on its way. -/
def parts (id : SlotId) : List Bytes :=
  [infoName id, payloadName id, staged (infoName id), staged (payloadName id), backup (payloadName id)]

/-- No name belongs to two slots. -/
theorem not_mem_parts {a b : SlotId} (h : a ≠ b) {x : Bytes} (hx : x ∈ parts a) : x ∉ parts b := by
  simp only [parts, List.mem_cons, List.not_mem_nil, or_false] at hx
  rcases hx with rfl | rfl | rfl | rfl | rfl <;> simp [parts, h]

end FolderStore

/-! ## One call after another -/

namespace Script

variable {α β : Type}

/-- A call that has its effect. -/
theorem run_ok {es es' : Entries} {a : Action} (h : Action.inFolder es a = .ok es')
    (f : Except IoCause Unit → Script β) :
    (perform a >>= f).run (some (.folder es)) = (f (.ok ())).run (some (.folder es')) := by
  rw [run_bind]
  simp [perform, run, Action.answer, Action.effect, Action.result, h, Except.map]

/-- A call that fails. -/
theorem run_error {es : Entries} {a : Action} {e : IoCause} (h : Action.inFolder es a = .error e)
    (f : Except IoCause Unit → Script β) :
    (perform a >>= f).run (some (.folder es)) = (f (.error e)).run (some (.folder es)) := by
  rw [run_bind]
  simp [perform, run, Action.answer, Action.effect, Action.result, h, Except.map]

theorem run_pure (a : α) (p : Place) : (pure a : Script α).run p = (a, p) := rfl

end Script

def Node.isFolder : Node → Bool
  | file _ => false
  | folder _ => true

namespace Action

theorem unlink_file {es : Entries} {name contents : Bytes} (h : es.lookup name = some (.file contents)) :
    inFolder es (.unlink name) = .ok (es.remove name) := by
  simp [inFolder, h]

/-- A file takes the place of a file or of nothing. -/
theorem rename_file {es : Entries} {source contents : Bytes} (target : Bytes)
    (hs : es.lookup source = some (.file contents)) (ht : (es.lookup target).any Node.isFolder = false)
    (hne : source ≠ target) :
    ∃ es', inFolder es (.rename source target) = .ok es' ∧
      ∀ x, es'.lookup x =
        if x = target then some (.file contents) else if x = source then none else es.lookup x := by
  refine ⟨(es.remove source).put target (.file contents), ?_, fun x => ?_⟩
  · simp only [inFolder, renameIn, if_neg hne, hs]
    match h : es.lookup target with
    | none => rfl
    | some (.file _) => rfl
    | some (.folder _) => simp [h, Node.isFolder] at ht
  · rw [Entries.lookup_put, Entries.lookup_remove]

/-- A file does not take the place of a folder. -/
theorem rename_onto_folder {es : Entries} {source contents : Bytes} (target : Bytes)
    (hs : es.lookup source = some (.file contents)) (ht : (es.lookup target).any Node.isFolder = true)
    (hne : source ≠ target) : inFolder es (.rename source target) = .error .isADirectory := by
  simp only [inFolder, renameIn, if_neg hne, hs]
  match h : es.lookup target with
  | none => simp [h] at ht
  | some (.file _) => simp [h, Node.isFolder] at ht
  | some (.folder _) => rfl

/-- A rename finds nothing to rename only if nothing is there. -/
theorem rename_notFound {es : Entries} {source target : Bytes}
    (h : inFolder es (.rename source target) = .error .notFound) : es.lookup source = none := by
  simp only [inFolder, renameIn] at h
  split at h
  · split at h
    · cases h
    · next hn => simpa only [Bool.not_eq_true, Option.isSome_eq_false_iff, Option.isNone_iff_eq_none] using hn
  · split at h <;> first | assumption | cases h

/-- A rename of something that is there fails only if there is a folder at one of its ends. -/
theorem folder_of_rename {es : Entries} {source target : Bytes} {e : IoCause}
    (h : inFolder es (.rename source target) = .error e) (he : e ≠ .notFound) :
    (es.lookup source).any Node.isFolder = true ∨ (es.lookup target).any Node.isFolder = true := by
  simp only [inFolder, renameIn] at h
  split at h
  · split at h <;> cases h
    exact absurd rfl he
  · split at h <;> cases h
    · exact absurd rfl he
    · next ht => exact .inr (by simp [ht, Node.isFolder])
    · next hs _ => exact .inl (by simp [hs, Node.isFolder])
    · next hs _ => exact .inl (by simp [hs, Node.isFolder])

/-- What is renamed is found under its new name. -/
theorem rename_ok {es es' : Entries} {source target : Bytes}
    (h : inFolder es (.rename source target) = .ok es') (hne : source ≠ target) :
    ∃ n, es.lookup source = some n ∧
      ∀ x, es'.lookup x = if x = target then some n else if x = source then none else es.lookup x := by
  simp only [inFolder, renameIn, if_neg hne] at h
  split at h <;> cases h
  refine ⟨_, by assumption, fun x => ?_⟩
  rw [Entries.lookup_put, Entries.lookup_remove]

end Action

namespace FolderStore

open Script

/-! ## A write, step by step -/

/-- Nobody asks whether a file was there to be cleared away. A folder stays. -/
theorem run_unlink {α : Type} (name : Bytes) (s : Script α) (es : Entries) :
    ∃ es', (perform (.unlink name) >>= fun _ => s).run (some (.folder es)) = s.run (some (.folder es')) ∧
      ∀ x, es'.lookup x = if x = name then (es.lookup x).filter Node.isFolder else es.lookup x := by
  match hl : es.lookup name with
  | none =>
    refine ⟨es, run_error (e := .notFound) (by simp [Action.inFolder, hl]) _, ?_⟩
    intro x
    split
    · next hx => simp [hx, hl]
    · rfl
  | some (.file contents) =>
    refine ⟨es.remove name, run_ok (Action.unlink_file hl) _, ?_⟩
    intro x
    rw [Entries.lookup_remove]
    split
    · next hx =>
      rw [hx, hl]
      rfl
    · rfl
  | some (.folder sub) =>
    refine ⟨es, run_error (e := .isADirectory) (by simp [Action.inFolder, hl]) _, ?_⟩
    intro x
    split
    · next hx =>
      rw [hx, hl]
      rfl
    · rfl

/-- Staging fails without a trace if a folder is in the way, or leaves the contents there. -/
theorem run_stage (path : Path) (name contents : Bytes) (es : Entries) :
    ((es.lookup (staged name)).any Node.isFolder = true ∧
      ∃ e, (stage path name contents).run (some (.folder es)) = (.error e, some (.folder es))) ∨
    ∃ es', (stage path name contents).run (some (.folder es)) = (.ok (), some (.folder es')) ∧
      ∀ x, es'.lookup x = if x = staged name then some (.file contents) else es.lookup x := by
  unfold stage
  cases ho : Action.inFolder es (.openEmpty (staged name)) with
  | error e =>
    have hfolder : (es.lookup (staged name)).any Node.isFolder = true := by
      simp only [Action.inFolder] at ho
      split at ho
      · next hl => simp [hl, Node.isFolder]
      · cases ho
    -- what is in the way is not cleared away
    have hu : Action.inFolder es (.unlink (staged name)) = .error e := by
      simp only [Action.inFolder] at ho ⊢
      split at ho <;> simp_all
    exact .inl ⟨hfolder, _, (run_error ho _).trans (run_error hu _)⟩
  | ok es₁ =>
    have he : es₁ = es.put (staged name) (.file []) := by
      simp only [Action.inFolder] at ho
      split at ho <;> cases ho
      rfl
    have hf : Action.inFolder es₁ (.fill (staged name) contents) =
        .ok (es₁.put (staged name) (.file contents)) := by
      simp [Action.inFolder, he, Entries.lookup_put]
    refine .inr ⟨es₁.put (staged name) (.file contents), (run_ok ho _).trans (run_ok hf _), ?_⟩
    intro x
    rw [Entries.lookup_put, he, Entries.lookup_put]
    split <;> rfl

/-- The folder after slot `id` was put in place, from a folder `es`. If the old payload was a folder, it may
stay under the name of its backup. -/
structure Written (es es' : Entries) (id : SlotId) (info payload : Bytes) : Prop where
  info : es'.lookup (infoName id) = some (.file info)
  payload : es'.lookup (payloadName id) = some (.file payload)
  stagedInfo : es'.lookup (staged (infoName id)) = none
  stagedPayload : es'.lookup (staged (payloadName id)) = none
  backup : (es.lookup (payloadName id)).any Node.isFolder = false →
    es.lookup (backup (payloadName id)) = none → es'.lookup (backup (payloadName id)) = none
  other : ∀ x, x ∉ parts id → es'.lookup x = es.lookup x

/-- Whether a folder stands under one of the names of slot `id`. -/
def Blocked (es : Entries) (id : SlotId) : Prop :=
  ∃ x ∈ parts id, (es.lookup x).any Node.isFolder = true

/-- The folder after a commit that failed, from a folder `es`: the staged payload and the backup may be gone. -/
def Undone (es es' : Entries) (id : SlotId) : Prop :=
  ∀ x, es'.lookup x = es.lookup x ∨
    (x = staged (payloadName id) ∨ x = backup (payloadName id)) ∧ es'.lookup x = none

section
variable {es : Entries} {id : SlotId} {info payload : Bytes}
  (hsi : es.lookup (staged (infoName id)) = some (.file info))
  (hsp : es.lookup (staged (payloadName id)) = some (.file payload))
include hsi hsp

/-- With the payload out of the way both staged files go to their places, unless a folder is in the way. -/
theorem run_replace_ok (path : Path) (hadPayload : Bool) (hpayload : es.lookup (payloadName id) = none)
    (hinfo : (es.lookup (infoName id)).any Node.isFolder = false) :
    ∃ es', (replace path id hadPayload).run (some (.folder es)) = (.ok (), some (.folder es')) ∧
      ∀ x, es'.lookup x =
        if x = infoName id then some (.file info)
        else if x = payloadName id then some (.file payload)
        else if x = staged (infoName id) ∨ x = staged (payloadName id) then none
        else if hadPayload = true ∧ x = backup (payloadName id) then (es.lookup x).filter Node.isFolder
        else es.lookup x := by
  obtain ⟨es₁, h₁, hl₁⟩ := Action.rename_file (payloadName id) hsp (by simp [hpayload]) (by simp)
  have hsi₁ : es₁.lookup (staged (infoName id)) = some (.file info) := by simpa [hl₁] using hsi
  obtain ⟨es₂, h₂, hl₂⟩ := Action.rename_file (infoName id) hsi₁ (by simpa [hl₁]) (by simp)
  have hlook : ∀ x, es₂.lookup x =
      if x = infoName id then some (.file info)
      else if x = payloadName id then some (.file payload)
      else if x = staged (infoName id) ∨ x = staged (payloadName id) then none
      else es.lookup x := by
    intro x
    rw [hl₂, hl₁]
    split_ifs <;> simp_all
  unfold replace
  rw [run_ok h₁]
  simp only
  rw [run_ok h₂]
  cases hadPayload with
  | false => exact ⟨es₂, rfl, fun x => by simp [hlook]⟩
  | true =>
    simp only [if_true]
    obtain ⟨es₃, h₃, hl₃⟩ := run_unlink (backup (payloadName id)) (return (.ok () : Except StoreError Unit)) es₂
    refine ⟨es₃, h₃, fun x => ?_⟩
    rw [hl₃, hlook]
    split_ifs <;> simp_all

/-- A folder in the way of the info: what was the payload is so again. -/
theorem run_replace_error (path : Path) (hadPayload : Bool) (hpayload : es.lookup (payloadName id) = none)
    (hinfo : (es.lookup (infoName id)).any Node.isFolder = true)
    (hbackup : hadPayload = true → ∃ old, es.lookup (backup (payloadName id)) = some (.file old)) :
    ∃ e es', (replace path id hadPayload).run (some (.folder es)) = (.error e, some (.folder es')) ∧
      ∀ x, es'.lookup x =
        if x = payloadName id then (if hadPayload then es.lookup (backup (payloadName id)) else none)
        else if x = staged (payloadName id) ∨ hadPayload = true ∧ x = backup (payloadName id) then none
        else es.lookup x := by
  obtain ⟨es₁, h₁, hl₁⟩ := Action.rename_file (payloadName id) hsp (by simp [hpayload]) (by simp)
  have hsi₁ : es₁.lookup (staged (infoName id)) = some (.file info) := by simpa [hl₁] using hsi
  have h₂ := Action.rename_onto_folder (infoName id) hsi₁ (by simpa [hl₁]) (by simp)
  unfold replace
  rw [run_ok h₁]
  simp only
  rw [run_error h₂]
  simp only
  refine ⟨failure path (infoName id) .isADirectory, ?_⟩
  cases hadPayload with
  | false =>
    obtain ⟨es₃, h₃, hl₃⟩ := run_unlink (payloadName id)
      (return (.error (failure path (infoName id) .isADirectory) : Except StoreError Unit)) es₁
    refine ⟨es₃, h₃, fun x => ?_⟩
    rw [hl₃, hl₁]
    split_ifs <;> simp_all [Node.isFolder]
  | true =>
    obtain ⟨old, hold⟩ := hbackup rfl
    have hold₁ : es₁.lookup (backup (payloadName id)) = some (.file old) := by simpa [hl₁] using hold
    obtain ⟨es₃, h₃, hl₃⟩ := Action.rename_file (payloadName id) hold₁ (by simp [hl₁, Node.isFolder])
      (by simp)
    refine ⟨es₃, run_ok h₃ _, fun x => ?_⟩
    rw [hl₃, hl₁]
    split_ifs <;> simp_all

omit hsi hsp in
/-- What replacing leaves of a folder that differs from `es` in names of the slot only. -/
theorem Written.of_replace {es₁ es' : Entries} {hadPayload : Bool}
    (hl : ∀ x, es'.lookup x =
      if x = infoName id then some (.file info)
      else if x = payloadName id then some (.file payload)
      else if x = staged (infoName id) ∨ x = staged (payloadName id) then none
      else if hadPayload = true ∧ x = FolderStore.backup (payloadName id) then (es₁.lookup x).filter Node.isFolder
      else es₁.lookup x)
    (hbackup : (es.lookup (payloadName id)).any Node.isFolder = false →
      es.lookup (FolderStore.backup (payloadName id)) = none →
      es'.lookup (FolderStore.backup (payloadName id)) = none)
    (hother : ∀ x, x ∉ parts id → es₁.lookup x = es.lookup x) : Written es es' id info payload where
  info := by simp [hl]
  payload := by simp [hl]
  stagedInfo := by simp [hl]
  stagedPayload := by simp [hl]
  backup := hbackup
  other x hx := by
    rw [← hother x hx, hl]
    simp only [parts, List.mem_cons, not_or] at hx
    simp [hx]

/-- Staged files are put in place, or a folder is in the way and what was in place stays. -/
theorem run_commit (path : Path)
    (hold : (es.lookup (infoName id)).any Node.isFolder = false ∨
      (es.lookup (payloadName id)).any Node.isFolder = false) :
    (∃ e es', (commit path id).run (some (.folder es)) = (.error e, some (.folder es')) ∧ Undone es es' id ∧
      Blocked es id) ∨
    ∃ es', (commit path id).run (some (.folder es)) = (.ok (), some (.folder es')) ∧
      Written es es' id info payload := by
  unfold commit
  cases hr : Action.inFolder es (.rename (payloadName id) (backup (payloadName id))) with
  | error e =>
    rw [run_error hr]
    cases e
    case notFound =>
      have hpayload := Action.rename_notFound hr
      cases hinfo : (es.lookup (infoName id)).any Node.isFolder with
      | false =>
        obtain ⟨es', he, hl⟩ := run_replace_ok hsi hsp path false hpayload hinfo
        exact .inr ⟨es', he, .of_replace hl (fun _ hb => by simpa [hl] using hb) fun _ _ => rfl⟩
      | true =>
        obtain ⟨e, es', he, hl⟩ := run_replace_error hsi hsp path false hpayload hinfo (by simp)
        refine .inl ⟨e, es', he, fun x => ?_, infoName id, by simp [parts], hinfo⟩
        by_cases hx : x = payloadName id
        · exact .inl (by simp [hl, hx, hpayload])
        · rw [hl]
          split_ifs <;> simp_all
    all_goals
      refine .inl ⟨_, es, rfl, fun x => .inl rfl, ?_⟩
      rcases Action.folder_of_rename hr (by simp) with hf | hf
      · exact ⟨payloadName id, by simp [parts], hf⟩
      · exact ⟨backup (payloadName id), by simp [parts], hf⟩
  | ok es₁ =>
    rw [run_ok hr]
    simp only
    obtain ⟨n, hn, hl₁⟩ := Action.rename_ok hr (by simp)
    have hsi₁ : es₁.lookup (staged (infoName id)) = some (.file info) := by simpa [hl₁] using hsi
    have hsp₁ : es₁.lookup (staged (payloadName id)) = some (.file payload) := by simpa [hl₁] using hsp
    have hpayload : es₁.lookup (payloadName id) = none := by simp [hl₁]
    cases hinfo : (es.lookup (infoName id)).any Node.isFolder with
    | false =>
      obtain ⟨es', he, hl⟩ := run_replace_ok hsi₁ hsp₁ path true hpayload (by simpa [hl₁] using hinfo)
      refine .inr ⟨es', he, .of_replace hl (fun hfile _ => ?_) fun x hx => ?_⟩
      · have hn' : n.isFolder = false := by simpa [hn] using hfile
        simp [hl, hl₁, hn']
      · simp only [parts, List.mem_cons, not_or] at hx
        simp [hl₁, hx]
    | true =>
      -- the old payload is a file, so it can go back to its place
      have hfile : n.isFolder = false := by simpa [hinfo, hn] using hold
      obtain ⟨old, rfl⟩ : ∃ old, n = .file old := by
        cases n with
        | file old => exact ⟨old, rfl⟩
        | folder sub => cases hfile
      obtain ⟨e, es', he, hl⟩ := run_replace_error hsi₁ hsp₁ path true hpayload (by simpa [hl₁] using hinfo)
        fun _ => ⟨old, by simp [hl₁]⟩
      refine .inl ⟨e, es', he, fun x => ?_, infoName id, by simp [parts], hinfo⟩
      rw [hl, hl₁]
      split_ifs <;> simp_all

end

/-! ## A write as a whole -/

/-- The folder with both halves of slot `id` staged, from a folder `es`. -/
structure Staged (es es' : Entries) (id : SlotId) (info payload : Bytes) : Prop where
  info : es'.lookup (staged (infoName id)) = some (.file info)
  payload : es'.lookup (staged (payloadName id)) = some (.file payload)
  other : ∀ x, x ≠ staged (infoName id) → x ≠ staged (payloadName id) → es'.lookup x = es.lookup x

theorem Staged.written {es es₁ es' : Entries} {id : SlotId} {info payload : Bytes}
    (hs : Staged es es₁ id info payload) (hw : Written es₁ es' id info payload) :
    Written es es' id info payload := by
  refine { hw with backup := fun hfile hb => ?_, other := fun x hx => ?_ }
  · exact hw.backup (by simpa [hs.other] using hfile) (by simpa [hs.other] using hb)
  · rw [hw.other x hx]
    simp only [parts, List.mem_cons, not_or] at hx
    exact hs.other x hx.2.2.1 hx.2.2.2.1

/-- What is staged is no folder. -/
theorem Staged.blocked {es es' : Entries} {id : SlotId} {info payload : Bytes}
    (hs : Staged es es' id info payload) (h : Blocked es' id) : Blocked es id := by
  obtain ⟨x, hx, hfolder⟩ := h
  refine ⟨x, hx, ?_⟩
  by_cases hi : x = staged (infoName id)
  · simp [hi, hs.info, Node.isFolder] at hfolder
  · by_cases hp : x = staged (payloadName id)
    · simp [hp, hs.payload, Node.isFolder] at hfolder
    · rwa [hs.other x hi hp] at hfolder

/-- The folder after a write of slot `id` that failed, from a folder `es`. What was staged is gone; only a
folder that was in the way of the payload keeps the write from coming to what is staged for the info. -/
structure Spared (es es' : Entries) (id : SlotId) : Prop where
  info : es'.lookup (infoName id) = es.lookup (infoName id)
  payload : es'.lookup (payloadName id) = es.lookup (payloadName id)
  stagedInfo : (es'.lookup (staged (infoName id))).all Node.isFolder = true ∨
    (es.lookup (staged (payloadName id))).any Node.isFolder = true ∧
      es'.lookup (staged (infoName id)) = es.lookup (staged (infoName id))
  stagedPayload : (es'.lookup (staged (payloadName id))).all Node.isFolder = true
  backup : es.lookup (backup (payloadName id)) = none → es'.lookup (backup (payloadName id)) = none
  other : ∀ x, x ∉ parts id → es'.lookup x = es.lookup x
  blocked : Blocked es id

theorem Spared.lookup_infoName {es es' : Entries} {id : SlotId} (h : Spared es es' id) (a : SlotId) :
    es'.lookup (infoName a) = es.lookup (infoName a) := by
  by_cases ha : a = id
  · exact ha ▸ h.info
  · exact h.other _ (not_mem_parts ha (by simp [parts]))

theorem Spared.lookup_payloadName {es es' : Entries} {id : SlotId} (h : Spared es es' id) (a : SlotId) :
    es'.lookup (payloadName a) = es.lookup (payloadName a) := by
  by_cases ha : a = id
  · exact ha ▸ h.payload
  · exact h.other _ (not_mem_parts ha (by simp [parts]))

/-- If nothing was put in place, both staged files are given up. -/
theorem Staged.spared {es es₁ es₂ es' : Entries} {id : SlotId} {info payload : Bytes}
    (hs : Staged es es₁ id info payload) (hu : Undone es₁ es₂ id) (hb : Blocked es₁ id)
    (hl : ∀ x, es'.lookup x =
      if x = staged (infoName id) ∨ x = staged (payloadName id) then (es₂.lookup x).filter Node.isFolder
      else es₂.lookup x) : Spared es es' id := by
  have hsame : ∀ x, x ≠ staged (infoName id) → x ≠ staged (payloadName id) →
      x ≠ FolderStore.backup (payloadName id) → es'.lookup x = es.lookup x := by
    intro x hi hp hb
    rw [hl, if_neg (by simp [hi, hp]), ← hs.other x hi hp]
    exact (hu x).resolve_right (by simp [hp, hb])
  refine ⟨hsame _ ?_ ?_ ?_, hsame _ ?_ ?_ ?_, .inl (by simp [hl]), by simp [hl], fun hb => ?_, fun x hx => ?_,
    hs.blocked hb⟩
  case refine_7 =>
    rcases hu (FolderStore.backup (payloadName id)) with h | ⟨-, h⟩
    · simp [hl, h, hs.other, hb]
    · simp [hl, h]
  case refine_8 =>
    simp only [parts, List.mem_cons, not_or] at hx
    exact hsame x hx.2.2.1 hx.2.2.2.1 hx.2.2.2.2.1
  all_goals simp

/-- A write puts both halves of a slot in place or leaves both as they were, as long as they were not both
folders. -/
theorem run_writeScript (path : Path) (info : SlotInfo) (payload : Bytes) {es : Entries}
    (hold : (es.lookup (infoName info.id)).any Node.isFolder = false ∨
      (es.lookup (payloadName info.id)).any Node.isFolder = false) :
    (∃ e es', (writeScript path info payload).run (some (.folder es)) = (.error e, some (.folder es')) ∧
      Spared es es' info.id) ∨
    ∃ es', (writeScript path info payload).run (some (.folder es)) = (.ok (), some (.folder es')) ∧
      Written es es' info.id info.encode payload := by
  unfold writeScript
  rw [run_ok (show Action.inFolder es .createAll = .ok es from rfl)]
  simp only
  rw [run_bind]
  rcases run_stage path (payloadName info.id) payload es with ⟨hfolder, e, h₁⟩ | ⟨es₁, h₁, hl₁⟩
  · rw [h₁]
    refine .inl ⟨e, es, rfl, rfl, rfl, .inr ⟨hfolder, rfl⟩, ?_, fun h => h, fun _ _ => rfl,
      staged (payloadName info.id), by simp [parts], hfolder⟩
    obtain ⟨n, hn, hfolder⟩ := (Option.any_eq_true _ _).1 hfolder
    rwa [hn]
  rw [h₁]
  simp only
  rw [run_bind]
  rcases run_stage path (infoName info.id) info.encode es₁ with ⟨hfolder, e, h₂⟩ | ⟨es₂, h₂, hl₂⟩
  · rw [h₂]
    -- the info could not be staged, so the staged payload is given up too
    obtain ⟨es₃, h₃, hl₃⟩ := run_unlink (staged (payloadName info.id))
      (return (.error e : Except StoreError Unit)) es₁
    refine .inl ⟨e, es₃, h₃, by simp [hl₃, hl₁], by simp [hl₃, hl₁], .inl ?_, by simp [hl₃],
      by simp [hl₃, hl₁], fun x hx => ?_, staged (infoName info.id), by simp [parts],
      by simpa [hl₁] using hfolder⟩
    · obtain ⟨n, hn, hfolder⟩ := (Option.any_eq_true _ _).1 hfolder
      simpa [hl₃, hn] using hfolder
    · simp only [parts, List.mem_cons, not_or] at hx
      simp [hl₃, hl₁, hx]
  rw [h₂]
  simp only
  rw [run_bind]
  have hs : Staged es es₂ info.id info.encode payload :=
    ⟨by simp [hl₂], by simp [hl₂, hl₁], fun x hi hp => by rw [hl₂, if_neg hi, hl₁, if_neg hp]⟩
  rcases run_commit hs.info hs.payload path (by simpa [hs.other] using hold) with
    ⟨e, es₃, h₃, hu, hb⟩ | ⟨es₃, h₃, hw⟩
  · rw [h₃]
    obtain ⟨es₄, h₄, hl₄⟩ := run_unlink (staged (infoName info.id))
      (do
        let _ ← perform (.unlink (staged (payloadName info.id)))
        return (.error e : Except StoreError Unit)) es₃
    obtain ⟨es₅, h₅, hl₅⟩ := run_unlink (staged (payloadName info.id))
      (return (.error e : Except StoreError Unit)) es₄
    refine .inl ⟨e, es₅, h₄.trans h₅, hs.spared hu hb fun x => ?_⟩
    rw [hl₅, hl₄]
    split_ifs <;> simp_all
  · rw [h₃]
    exact .inr ⟨es₃, rfl, hs.written hw⟩

end FolderStore

end SaveSlots
