import SaveSlots.Catalog
/-!
# Members and look-ups of catalogs

What a catalog has under a key after some of its values were changed or others were added, and which members a
set has.
-/

namespace SaveSlots.Catalog

/-! ## Look-ups -/

section
variable {α κ : Type} [Ord κ] {key : α → κ}

theorem contains_eq (c : Catalog key) (k : κ) : c.contains k = (c.find? k).isSome := by
  rw [contains, find?, List.isSome_find?]

theorem find?_modify (c : Catalog key) (f : α → α) (h : ∀ a, key (f a) = key a) (k : κ) :
    (c.modify f h).find? k = (c.find? k).map f := by
  simp only [find?, modify, List.find?_map, Function.comp_def, h]

variable [Std.LawfulEqOrd κ]

theorem mem_keys_iff {c : Catalog key} {k : κ} : k ∈ c.keys ↔ (c.find? k).isSome = true := by
  simp only [keys, find?, List.mem_map, List.find?_isSome, beq_iff_eq, Std.LawfulEqOrd.compare_eq_iff_eq]

theorem nodup_keys (c : Catalog key) : c.keys.Nodup := by
  rw [keys, List.Nodup, List.pairwise_map]
  refine c.rising.imp fun hlt heq => ?_
  rw [heq, Std.LawfulEqOrd.compare_eq_iff_eq.2 rfl] at hlt
  cases hlt

/-- A value is found under its key. -/
theorem find?_of_mem {c : Catalog key} {a : α} (h : a ∈ c.toList) : c.find? (key a) = some a := by
  obtain ⟨l, m, hl⟩ := List.append_of_mem h
  have hrising := c.rising
  rw [hl, List.pairwise_append] at hrising
  rw [find?, hl, List.find?_append, List.find?_cons_of_pos (by simp)]
  have hnone : (l.find? fun b => compare (key b) (key a) == .eq) = none := by
    refine List.find?_eq_none.2 fun b hb => ?_
    rw [hrising.2.2 b hb a (by simp)]
    simp
  rw [hnone]
  rfl

variable [Std.TransOrd κ] [DecidableEq κ]

/-- What is there already stays. -/
theorem find?_insertIfNew (c : Catalog key) (a : α) (k : κ) :
    (c.insertIfNew a).find? k = (c.find? k).or (if key a = k then some a else none) := by
  unfold insertIfNew
  split
  · next hc =>
    rw [contains_eq] at hc
    by_cases hk : key a = k
    · subst hk
      obtain ⟨b, hb⟩ := Option.isSome_iff_exists.1 hc
      simp [hb]
    · simp [hk]
  · next hc =>
    rw [contains_eq, Bool.not_eq_true, Option.isSome_eq_false_iff, Option.isNone_iff_eq_none] at hc
    rw [find?_insert]
    by_cases hk : key a = k
    · subst hk
      simp [hc]
    · simp [hk]

theorem find?_foldl_insertIfNew (as : List α) (c : Catalog key) (k : κ) :
    (as.foldl insertIfNew c).find? k = (c.find? k).or (as.find? fun a => compare (key a) k == .eq) := by
  induction as generalizing c with
  | nil => simp
  | cons a as ih =>
    rw [List.foldl_cons, ih, find?_insertIfNew, Option.or_assoc, List.find?_cons]
    by_cases hk : key a = k
    · simp [hk]
    · have hne : (compare (key a) k == .eq) = false := by simpa using hk
      simp [hk, hne]

end

/-! ## Members of sets -/

section
variable {κ : Type} [Ord κ] [Std.LawfulEqOrd κ]

theorem mem_insertInto_set {k x : κ} {l : List κ} : x ∈ insertInto (id : κ → κ) k l ↔ x = k ∨ x ∈ l := by
  induction l with
  | nil => simp [insertInto]
  | cons y l ih =>
    rw [insertInto]
    split
    · simp
    · next hc =>
      obtain rfl : k = y := Std.LawfulEqOrd.eq_of_compare hc
      simp
    · simp only [List.mem_cons, ih]
      exact ⟨fun h => h.elim (fun h => .inr (.inl h)) (Or.imp_right .inr),
        fun h => h.elim (fun h => .inr (.inl h)) (Or.imp_right .inr)⟩

variable [Std.TransOrd κ]

/-- A set made of a list has the members of the list. -/
theorem mem_ofList {l : List κ} {x : κ} : x ∈ (ofList l : Catalog (id : κ → κ)).toList ↔ x ∈ l := by
  have hgo : ∀ (l : List κ) (c : Catalog (id : κ → κ)),
      x ∈ (l.foldl insert c).toList ↔ x ∈ c.toList ∨ x ∈ l := by
    intro l
    induction l with
    | nil => simp
    | cons k l ih =>
      intro c
      rw [List.foldl_cons, ih]
      simp only [insert, mem_insertInto_set, List.mem_cons]
      exact ⟨fun h => by rcases h with (h | h) | h <;> simp [h],
        fun h => by rcases h with h | h | h <;> simp [h]⟩
  rw [ofList, hgo]
  simp [empty]

/-- A set is determined by its members. -/
theorem ext_mem {c d : Catalog (id : κ → κ)} (h : ∀ k, k ∈ c.toList ↔ k ∈ d.toList) : c = d := by
  have hfind : ∀ (c : Catalog (id : κ → κ)) (k a : κ), c.find? k = some a ↔ a = k ∧ k ∈ c.toList := by
    intro c k a
    constructor
    · intro hf
      obtain rfl : a = k := key_of_find? hf
      exact ⟨rfl, List.mem_of_find?_eq_some hf⟩
    · rintro ⟨rfl, hmem⟩
      obtain ⟨b, hb⟩ := Option.isSome_iff_exists.1 (List.find?_isSome.2 ⟨a, hmem, by simp⟩ :
        (c.find? a).isSome = true)
      rwa [show b = a from key_of_find? hb] at hb
  apply ext
  intro k
  ext a
  rw [hfind, hfind, h]

end

end SaveSlots.Catalog
