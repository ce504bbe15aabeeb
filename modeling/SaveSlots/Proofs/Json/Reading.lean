import SaveSlots.Json.Value
import SaveSlots.Proofs.Json.Parsing
/-!
# Reading what was written

A reader `Restores` a value from an outline if it gives the value as long as there is room for the brackets
of the outline, and else finds the text malformed. The lemmas go from scalars to lists, tables and
records; `Reader.run_render` carries the law over to whole texts, and `Json.restores` is the law for opaque
values.
-/

namespace SaveSlots

/-! ## Depth -/

mutual

/-- How many brackets of an outline are open at once. -/
def Outline.depth : Outline → Nat
  | .array items => items.depth + 1
  | .object members => members.depth + 1
  | .null | .bool _ | .number _ | .string _ | .broken _ => 0

def Items.depth : Items → Nat
  | .closed | .cut _ => 0
  | .item o rest => max o.depth rest.depth

def Members.depth : Members → Nat
  | .closed | .cut _ => 0
  | .member _ o rest => max o.depth rest.depth

end

/-! ## Plain outlines -/

theorem Items.plain_ofList {os : List Outline} (h : ∀ o ∈ os, o.Plain) : (ofList os).Plain := by
  induction os with
  | nil => simp [Items.Plain]
  | cons o os ih =>
    rw [ofList_cons, Items.Plain]
    exact ⟨h o (by simp), ih fun x hx => h x (by simp [hx])⟩

theorem Members.plain_ofList {ms : List (String × Outline)} (h : ∀ m ∈ ms, m.2.Plain) :
    (ofList ms).Plain := by
  induction ms with
  | nil => simp [ofList, Members.Plain]
  | cons m ms ih =>
    rw [ofList, Members.Plain]
    exact ⟨h m (by simp), ih fun x hx => h x (by simp [hx])⟩

namespace Outline

theorem plain_list {os : List Outline} (h : ∀ o ∈ os, o.Plain) : (list os).Plain := by
  rw [list, Outline.Plain]
  exact Items.plain_ofList h

theorem plain_fields {ms : List (String × Outline)} (h : ∀ m ∈ ms, m.2.Plain) : (fields ms).Plain := by
  rw [fields, Outline.Plain]
  exact Members.plain_ofList h

theorem plain_text (s : String) : (text s).Plain := by
  simp [text, Outline.Plain]

theorem plain_int {n : Int} (hlow : -0x8000000000000000 ≤ n) (hhigh : n < 0x10000000000000000) :
    (int n).Plain := by
  rw [int, Outline.Plain]
  exact ⟨hlow, hhigh⟩

end Outline

/-! ## The law -/

namespace Reader

variable {α β : Type}

def Restores (r : Reader α) (o : Outline) (a : α) : Prop :=
  ∀ room, r room o = if o.depth ≤ room then .ok a else .error .malformed

theorem restores_string (s : String) : Restores string (.text s) s := by
  intro room
  simp [string, Outline.text, Outline.depth]

theorem restores_integer {low high n : Int} (hlow : low ≤ n) (hhigh : n ≤ high) :
    Restores (integer low high) (.int n) n := by
  intro room
  simp [integer, Outline.int, Outline.depth, hlow, hhigh]

theorem Restores.map {r : Reader α} {o : Outline} {a : α} (h : Restores r o a) (f : α → β) :
    Restores (fun room o => (r room o).map f) o (f a) := by
  intro room
  simp only [h room]
  split <;> rfl

theorem restores_natural {bits n : Nat} (h : n < Nat.pow 2 bits) : Restores (natural bits) (.int n) n := by
  refine (restores_integer (Int.natCast_nonneg n) ?_).map Int.toNat
  omega

theorem restores_byte (b : UInt8) : Restores byte (.int b.toNat) b := by
  have hlt : b.toNat < Nat.pow 2 8 := b.toNat_lt
  have h := (restores_natural hlt).map UInt8.ofNat
  rwa [UInt8.ofNat_toNat] at h

theorem restores_spelled {parse : String → Option α} {s : String} {a : α} (h : parse s = some a) :
    Restores (spelled parse) (.text s) a := by
  intro room
  simp [spelled, string, Outline.text, Outline.depth, h]

theorem restores_none (r : Reader α) : Restores (optional r) .null none := by
  intro room
  simp [optional, Outline.depth]

theorem Restores.some {r : Reader α} {o : Outline} {a : α} (h : Restores r o a) (ho : o ≠ .null) :
    Restores (optional r) o (some a) := by
  intro room
  rw [optional]
  · exact h.map Option.some room
  · exact fun he => ho he

/-! ## Lists and tables -/

theorem read_items {read : Outline → Except Fault α} {write : α → Outline} {room : Nat} (as done : List α)
    (h : ∀ a ∈ as, read (write a) = if (write a).depth ≤ room then .ok a else .error .malformed) :
    (Items.ofList (as.map write)).read read done =
      if (Items.ofList (as.map write)).depth ≤ room then .ok (done.reverse ++ as) else .error .malformed := by
  induction as generalizing done with
  | nil => simp [Items.read, Items.depth]
  | cons a as ih =>
    have hrest := ih (a :: done) fun x hx => h x (by simp [hx])
    simp only [List.map_cons, Items.ofList_cons, Items.read, Items.depth, h a (by simp), Nat.max_le]
    by_cases hd : (write a).depth ≤ room
    · simp only [hd, if_true, hrest, true_and, List.reverse_cons, List.append_assoc, List.singleton_append]
    · simp only [hd, if_false, false_and]

theorem restores_list {item : Reader α} {write : α → Outline} {as : List α}
    (h : ∀ a ∈ as, Restores item (write a) a) : Restores (list item) (.list (as.map write)) as := by
  intro room
  cases room with
  | zero => simp [list, Outline.list, Outline.depth]
  | succ room =>
    simp only [list, Outline.list, Outline.depth, read_items as [] fun a ha => h a ha room,
      Nat.add_le_add_iff_right, List.reverse_nil, List.nil_append]

theorem read_members {read : String → Outline → Except Fault α} {write : α → String × Outline} {room : Nat}
    (as done : List α)
    (h : ∀ a ∈ as, read (write a).1 (write a).2 =
      if (write a).2.depth ≤ room then .ok a else .error .malformed) :
    (Members.ofList (as.map write)).read read done =
      if (Members.ofList (as.map write)).depth ≤ room then .ok (done.reverse ++ as)
      else .error .malformed := by
  induction as generalizing done with
  | nil => simp [Members.ofList, Members.read, Members.depth]
  | cons a as ih =>
    have hrest := ih (a :: done) fun x hx => h x (by simp [hx])
    simp only [List.map_cons, Members.ofList, Members.read, Members.depth, h a (by simp), Nat.max_le]
    by_cases hd : (write a).2.depth ≤ room
    · simp only [hd, if_true, hrest, true_and, List.reverse_cons, List.append_assoc, List.singleton_append]
    · simp only [hd, if_false, false_and]

theorem restores_table {value : Reader α} {write : α → Outline} {as : List (String × α)}
    (h : ∀ a ∈ as, Restores value (write a.2) a.2) :
    Restores (table value) (.fields (as.map fun a => (a.1, write a.2))) as := by
  intro room
  cases room with
  | zero => simp [table, Outline.fields, Outline.depth]
  | succ room =>
    have hread : ∀ a ∈ as, ((value room (write a.2)).map fun b => (a.1, b)) =
        if (write a.2).depth ≤ room then .ok a else .error .malformed := by
      intro a ha
      rw [h a ha room]
      split <;> rfl
    simp only [table, Outline.fields, Outline.depth, Nat.add_le_add_iff_right]
    exact read_members as [] hread

/-! ## Records -/

/-- How members fill the draft of a record, one field after another. -/
inductive Fills {δ : Type} (fields : List (Field δ)) : List (String × Outline) → δ → δ → Prop where
  | nil (d : δ) : Fills fields [] d d
  | cons {k : String} {o : Outline} {ms : List (String × Outline)} {f : Field δ} {d d' d'' : δ}
      (named : fields.find? (fun f => f.name == k) = some f) (empty : f.filled d = false)
      (fill : ∀ room, f.fill room o d = if o.depth ≤ room then .ok d' else .error .malformed)
      (rest : Fills fields ms d' d'') : Fills fields ((k, o) :: ms) d d''

theorem Restores.fills {δ : Type} {read : Reader β} {o : Outline} {b : β} (h : Restores read o b)
    {name : String} {get : δ → Option β} {set : δ → Option β → δ} {d : δ} :
    ∀ room, (field name read get set).fill room o d =
      if o.depth ≤ room then .ok (set d (.some b)) else .error .malformed :=
  h.map fun b => set d (.some b)

theorem Fills.members {δ : Type} {shape : Shape δ α} {ms : List (String × Outline)} {d d' : δ}
    (h : Fills shape.fields ms d d') (room : Nat) :
    fillMembers shape room (Members.ofList ms) d =
      if (Members.ofList ms).depth ≤ room then .ok d' else .error .malformed := by
  induction h with
  | nil d => simp [Members.ofList, fillMembers, Members.depth]
  | @cons k o ms f d d' d'' named empty fill _ ih =>
    simp only [Members.ofList, fillMembers, named, empty, fill, Members.depth, Nat.max_le, Bool.false_eq_true,
      if_false]
    by_cases hd : o.depth ≤ room
    · simp only [hd, if_true, ih, true_and]
    · simp only [hd, if_false, false_and]

theorem Fills.restores {δ : Type} {shape : Shape δ α} {ms : List (String × Outline)} {d : δ} {a : α}
    (h : Fills shape.fields ms shape.draft d) (hf : shape.finish d = some a) :
    Restores (record shape) (.fields ms) a := by
  intro room
  cases room with
  | zero => simp [record, Outline.fields, Outline.depth]
  | succ room =>
    simp only [record, Outline.fields, Outline.depth, Nat.add_le_add_iff_right, h.members room]
    by_cases hd : (Members.ofList ms).depth ≤ room
    · simp only [hd, if_true, finish, hf]
    · simp only [hd, if_false]

/-! ## Whole texts -/

/-- Reading undoes writing as far as readers have room, in every layout that adds blanks only. -/
theorem run_render {r : Reader α} {o : Outline} {a : α} (h : Restores r o a) (hp : o.Plain) {l : Layout}
    (hl : l.Blank) : run r (o.render l) = if o.depth ≤ depthLimit then .ok a else .error .malformed := by
  simp only [run, runWithin, Document.ofBytes_render hl hp, h depthLimit]
  by_cases hd : o.depth ≤ depthLimit
  · simp [hd]
  · simp [hd]

end Reader

/-! ## Opaque values -/

/-- A value whose key is behind all others goes to the end. -/
theorem Catalog.insertInto_last {α κ : Type} [Ord κ] [Std.OrientedOrd κ] {key : α → κ} {a : α} {l : List α}
    (h : ∀ b ∈ l, compare (key b) (key a) = .lt) : insertInto key a l = l ++ [a] := by
  induction l with
  | nil => rfl
  | cons b l ih =>
    have hgt : compare (key a) (key b) = .gt := Std.OrientedCmp.gt_iff_lt.2 (h b (by simp))
    simp only [insertInto, hgt, List.cons_append, ih fun c hc => h c (by simp [hc])]

namespace Json

mutual

/-- Whether a text says all there is to a value: its numbers are whole and have 64 bits, and the fields of
its objects are in order. -/
def Plain : Json → Prop
  | .null | .bool _ | .string _ => True
  | .number (.int n) => -0x8000000000000000 ≤ n ∧ n < 0x10000000000000000
  | .number (.double _) => False
  | .array items => PlainItems items
  | .object fields => (fields.Pairwise fun f g => compare f.1 g.1 = .lt) ∧ PlainFields fields

def PlainItems : List Json → Prop
  | [] => True
  | j :: js => j.Plain ∧ PlainItems js

def PlainFields : List (String × Json) → Prop
  | [] => True
  | (_, j) :: fs => j.Plain ∧ PlainFields fs

end

mutual

theorem plain_toOutline : (j : Json) → j.Plain → j.toOutline.Plain
  | .null, _ | .bool _, _ => by simp [toOutline, Outline.Plain]
  | .string s, _ => by simp [toOutline, Outline.Plain]
  | .number (.int n), hp => by
    rw [Plain] at hp
    rw [toOutline, Outline.Plain]
    exact hp
  | .number (.double _), hp => by simp [Plain] at hp
  | .array items, hp => by
    rw [Plain] at hp
    rw [toOutline, Outline.Plain]
    exact plain_itemsOutline items hp
  | .object fields, hp => by
    rw [Plain] at hp
    rw [toOutline, Outline.Plain]
    exact plain_fieldsOutline fields hp.2

theorem plain_itemsOutline : (js : List Json) → PlainItems js → (itemsOutline js).Plain
  | [], _ => by simp [itemsOutline, Items.Plain]
  | j :: js, hp => by
    rw [PlainItems] at hp
    rw [itemsOutline, Items.Plain]
    exact ⟨plain_toOutline j hp.1, plain_itemsOutline js hp.2⟩

theorem plain_fieldsOutline : (fs : List (String × Json)) → PlainFields fs → (fieldsOutline fs).Plain
  | [], _ => by simp [fieldsOutline, Members.Plain]
  | (k, j) :: fs, hp => by
    rw [PlainFields] at hp
    rw [fieldsOutline, Members.Plain]
    exact ⟨plain_toOutline j hp.1, plain_fieldsOutline fs hp.2⟩

end

mutual

theorem ofOutline_toOutline : (j : Json) → j.Plain → ∀ room,
    ofOutline room j.toOutline = if j.toOutline.depth ≤ room then .ok j else .error .malformed
  | .null, _, _ | .bool _, _, _ | .string _, _, _ => by simp [toOutline, ofOutline, Outline.depth]
  | .number (.int n), _, _ => by simp [toOutline, ofOutline, Outline.depth]
  | .number (.double _), hp, _ => by simp [Plain] at hp
  | .array items, _, 0 | .object fields, _, 0 => by simp [toOutline, ofOutline, Outline.depth]
  | .array items, hp, room + 1 => by
    rw [Plain] at hp
    simp only [toOutline, ofOutline, Outline.depth, Nat.add_le_add_iff_right,
      ofItems_itemsOutline items hp room []]
    split <;> rfl
  | .object fields, hp, room + 1 => by
    rw [Plain] at hp
    simp only [toOutline, ofOutline, Outline.depth, Nat.add_le_add_iff_right,
      ofMembers_fieldsOutline fields hp.2 room [] hp.1]
    split <;> rfl

theorem ofItems_itemsOutline : (js : List Json) → PlainItems js → ∀ room done,
    ofItems room done (itemsOutline js) =
      if (itemsOutline js).depth ≤ room then .ok (done.reverse ++ js) else .error .malformed
  | [], _, _, _ => by simp [itemsOutline, ofItems, Items.depth]
  | j :: js, hp, room, done => by
    rw [PlainItems] at hp
    simp only [itemsOutline, ofItems, Items.depth, ofOutline_toOutline j hp.1 room, Nat.max_le]
    by_cases hd : j.toOutline.depth ≤ room
    · simp [hd, ofItems_itemsOutline js hp.2 room (j :: done)]
    · simp [hd]

/-- Fields in order are put back one behind the other. -/
theorem ofMembers_fieldsOutline : (fs : List (String × Json)) → PlainFields fs → ∀ room done,
    ((done ++ fs).Pairwise fun f g => compare f.1 g.1 = .lt) →
    ofMembers room done (fieldsOutline fs) =
      if (fieldsOutline fs).depth ≤ room then .ok (done ++ fs) else .error .malformed
  | [], _, _, _, _ => by simp [fieldsOutline, ofMembers, Members.depth]
  | (k, j) :: fs, hp, room, done, hr => by
    rw [PlainFields] at hp
    simp only [fieldsOutline, ofMembers, Members.depth, ofOutline_toOutline j hp.1 room, Nat.max_le]
    by_cases hd : j.toOutline.depth ≤ room
    · have hlast : Catalog.insertInto Prod.fst (k, j) done = done ++ [(k, j)] :=
        Catalog.insertInto_last fun b hb => (List.pairwise_append.1 hr).2.2 b hb (k, j) (by simp)
      have hrest := ofMembers_fieldsOutline fs hp.2 room (done ++ [(k, j)]) (by simpa using hr)
      simp [hd, hlast, hrest]
    · simp [hd]

end

theorem restores {j : Json} (hp : j.Plain) : Reader.Restores reader j.toOutline j :=
  ofOutline_toOutline j hp

end Json

end SaveSlots
