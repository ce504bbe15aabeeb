/-!
# Collections in the order of a key

A `Catalog key` holds values whose keys strictly rise, so it has at most one value for a key and
lists them in key order. It serves for the objects of a map by name, the regions by name, the stored
slots by id, and, with the identity as key, for sorted sets.

The view is `find?`. `find?_insert` and `find?_erase` say what the operations do to it, and `ext`
that a catalog is determined by it.
-/

namespace SaveSlots

variable {α κ : Type} [Ord κ]

/-- Values with strictly rising keys. -/
structure Catalog (key : α → κ) where
  toList : List α
  rising : toList.Pairwise fun a b => compare (key a) (key b) = .lt

namespace Catalog

/-- Puts `a` at its place, in the stead of a value with the same key. -/
def insertInto (key : α → κ) (a : α) : List α → List α
  | [] => [a]
  | b :: rest =>
    match compare (key a) (key b) with
    | .lt => a :: b :: rest
    | .eq => a :: rest
    | .gt => b :: insertInto key a rest

theorem mem_insertInto {key : α → κ} {a x : α} {l : List α} (h : x ∈ insertInto key a l) :
    x = a ∨ x ∈ l := by
  induction l with
  | nil => simpa [insertInto] using h
  | cons b rest ih =>
    rw [insertInto] at h
    split at h <;> grind

section
variable [Std.TransOrd κ] [Std.LawfulEqOrd κ]

theorem rising_insertInto (key : α → κ) (a : α) {l : List α}
    (h : l.Pairwise fun a b => compare (key a) (key b) = .lt) :
    (insertInto key a l).Pairwise fun a b => compare (key a) (key b) = .lt := by
  induction l with
  | nil => simp [insertInto]
  | cons b rest ih =>
    obtain ⟨hb, hr⟩ := List.pairwise_cons.1 h
    rw [insertInto]
    split
    · next hc =>
      refine List.pairwise_cons.2 ⟨fun x hx => ?_, h⟩
      rcases List.mem_cons.1 hx with rfl | hx
      · exact hc
      · exact Std.TransCmp.lt_trans hc (hb x hx)
    · next hc =>
      have hk : key a = key b := Std.LawfulEqOrd.eq_of_compare hc
      exact List.pairwise_cons.2 ⟨fun x hx => hk ▸ hb x hx, hr⟩
    · next hc =>
      refine List.pairwise_cons.2 ⟨fun x hx => ?_, ih hr⟩
      rcases mem_insertInto hx with rfl | hx
      · exact Std.OrientedCmp.gt_iff_lt.1 hc
      · exact hb x hx

end

variable {key : α → κ}

def empty : Catalog key := ⟨[], List.Pairwise.nil⟩

instance : Inhabited (Catalog key) := ⟨empty⟩
instance : EmptyCollection (Catalog key) := ⟨empty⟩

@[ext]
theorem ext_toList {c d : Catalog key} (h : c.toList = d.toList) : c = d := by
  cases c; cases d; cases h; rfl

instance [DecidableEq α] : DecidableEq (Catalog key) := fun c d =>
  decidable_of_iff (c.toList = d.toList) ⟨ext_toList, fun h => h ▸ rfl⟩

/-- The value with this key. -/
def find? (c : Catalog key) (k : κ) : Option α :=
  c.toList.find? fun a => compare (key a) k == .eq

def contains (c : Catalog key) (k : κ) : Bool :=
  c.toList.any fun a => compare (key a) k == .eq

/-- The catalog without the value of this key. -/
def erase (c : Catalog key) (k : κ) : Catalog key :=
  ⟨c.toList.filter fun a => compare (key a) k != .eq, c.rising.filter _⟩

/-- Changes every value and no key. -/
def modify (c : Catalog key) (f : α → α) (h : ∀ a, key (f a) = key a) : Catalog key :=
  ⟨c.toList.map f, by
    rw [List.pairwise_map]
    exact c.rising.imp fun hab => by rw [h, h]; exact hab⟩

/-- The keys, rising. -/
def keys (c : Catalog key) : List κ := c.toList.map key

@[simp]
theorem find?_empty (k : κ) : (empty : Catalog key).find? k = none := rfl

variable [Std.TransOrd κ] [Std.LawfulEqOrd κ]

/-- The catalog with `a` under its key. -/
def insert (c : Catalog key) (a : α) : Catalog key :=
  ⟨insertInto key a c.toList, rising_insertInto key a c.rising⟩

/-- Later values replace earlier ones with the same key. -/
def ofList (as : List α) : Catalog key :=
  as.foldl insert empty

/-- Adds `a` unless its key is taken. -/
def insertIfNew (c : Catalog key) (a : α) : Catalog key :=
  if c.contains (key a) then c else c.insert a

/-! ## What the operations do to look-ups -/

variable [DecidableEq κ]

omit [Std.TransOrd κ] in
theorem find?_insertInto (a : α) (k : κ) (l : List α) :
    (insertInto key a l).find? (fun x => compare (key x) k == .eq) =
      if key a = k then some a else l.find? fun x => compare (key x) k == .eq := by
  induction l with
  | nil => by_cases h : key a = k <;> simp [insertInto, h]
  | cons b rest ih =>
    rw [insertInto]
    split
    · next hc => by_cases h : key a = k <;> simp [h]
    · next hc =>
      have hk : key a = key b := Std.LawfulEqOrd.eq_of_compare hc
      by_cases h : key a = k
      · simp [h]
      · have hb : key b ≠ k := hk ▸ h
        simp [h, hb]
    · next hc =>
      have hne : key a ≠ key b := by
        intro he
        simp [he] at hc
      by_cases hb : key b = k
      · have h : key a ≠ k := hb ▸ hne
        simp [hb, h]
      · by_cases h : key a = k <;> simp [h, hb, ih]

/-- A new value is found under its key; the others stay. -/
theorem find?_insert (c : Catalog key) (a : α) (k : κ) :
    (c.insert a).find? k = if key a = k then some a else c.find? k :=
  find?_insertInto a k c.toList

omit [Std.TransOrd κ] in
/-- An erased key finds nothing; the others stay. -/
theorem find?_erase (c : Catalog key) (k k' : κ) :
    (c.erase k).find? k' = if k = k' then none else c.find? k' := by
  unfold erase find?
  simp only [List.find?_filter]
  split
  · next h =>
    subst h
    rw [List.find?_eq_none]
    simp
  · next h =>
    congr 1
    funext x
    by_cases hx : key x = k' <;> simp [hx, Ne.symm h]

omit [DecidableEq κ] [Std.TransOrd κ] in
theorem key_of_find? {c : Catalog key} {k : κ} {a : α} (h : c.find? k = some a) : key a = k := by
  simpa using List.find?_some h

omit [DecidableEq κ] [Std.TransOrd κ] in
theorem find?_eq_none_of_rising {l : List α} {k : κ}
    (h : ∀ x ∈ l, compare k (key x) = .lt) : l.find? (fun x => compare (key x) k == .eq) = none := by
  rw [List.find?_eq_none]
  intro x hx hc
  have he : key x = k := by simpa using hc
  have hl := h x hx
  rw [he] at hl
  simp at hl

omit [DecidableEq κ] in
theorem eq_of_find?_eq {l m : List α}
    (hl : l.Pairwise fun a b => compare (key a) (key b) = .lt)
    (hm : m.Pairwise fun a b => compare (key a) (key b) = .lt)
    (h : ∀ k, l.find? (fun x => compare (key x) k == .eq) = m.find? fun x => compare (key x) k == .eq) :
    l = m := by
  induction l generalizing m with
  | nil =>
    cases m with
    | nil => rfl
    | cons b m => have := h (key b); simp at this
  | cons a l ih =>
    cases m with
    | nil => have := h (key a); simp at this
    | cons b m =>
      obtain ⟨ha, hl⟩ := List.pairwise_cons.1 hl
      obtain ⟨hb, hm'⟩ := List.pairwise_cons.1 hm
      cases hc : compare (key a) (key b) with
      | lt =>
        have hn : (b :: m).find? (fun x => compare (key x) (key a) == .eq) = none :=
          find?_eq_none_of_rising fun x hx => by
            rcases List.mem_cons.1 hx with rfl | hx
            · exact hc
            · exact Std.TransCmp.lt_trans hc (hb x hx)
        have := h (key a)
        rw [hn] at this
        simp at this
      | gt =>
        have hc' : compare (key b) (key a) = .lt := Std.OrientedCmp.gt_iff_lt.1 hc
        have hn : (a :: l).find? (fun x => compare (key x) (key b) == .eq) = none :=
          find?_eq_none_of_rising fun x hx => by
            rcases List.mem_cons.1 hx with rfl | hx
            · exact hc'
            · exact Std.TransCmp.lt_trans hc' (ha x hx)
        have := h (key b)
        rw [hn] at this
        simp at this
      | eq =>
        have hk : key a = key b := Std.LawfulEqOrd.eq_of_compare hc
        have hab : a = b := by
          have := h (key a)
          simpa [hk] using this
        subst hab
        congr 1
        refine ih hl hm' fun k => ?_
        by_cases hak : key a = k
        · subst hak
          rw [find?_eq_none_of_rising ha, find?_eq_none_of_rising hb]
        · have := h k
          simpa [hak] using this

omit [DecidableEq κ] in
/-- A catalog is determined by what its look-ups find. -/
theorem ext {c d : Catalog key} (h : ∀ k, c.find? k = d.find? k) : c = d :=
  ext_toList (eq_of_find?_eq c.rising d.rising h)

end Catalog

end SaveSlots
