import SaveSlots.Proofs.Calendar
import SaveSlots.Proofs.Json.Reading
import SaveSlots.Proofs.Rfc3339
import SaveSlots.Slot.Codec
/-!
# Slots as text

Both halves of a slot survive being written and read: `SlotInfo.info_survives` for every info, and
`Snapshot.decode_encode` for every snapshot whose states are plain, as long as its text does not nest
deeper than readers go.
-/

namespace SaveSlots

open Reader

theorem restores_signedWord (n : Int32) : Restores signedWord (.int n.toInt) n := by
  have h := (restores_integer n.minValue_le_toInt n.toInt_le).map Int32.ofInt
  rwa [Int32.ofInt_toInt] at h

theorem restores_word (n : UInt32) : Restores word (.int n.toNat) n := by
  have hlt : n.toNat < Nat.pow 2 32 := n.toNat_lt
  have h := (restores_natural hlt).map UInt32.ofNat
  rwa [UInt32.ofNat_toNat] at h

theorem plain_natural {n : Nat} (h : n < 0x10000000000000000) : (Outline.int n).Plain :=
  Outline.plain_int (by omega) (by omega)

theorem plain_word (n : UInt32) : (Outline.int n.toNat).Plain := by
  have hlt := n.toNat_lt
  exact plain_natural (by omega)

/-! ## Infos -/

namespace SlotId

theorem restores (id : SlotId) : Restores reader id.toOutline id :=
  (restores_signedWord id.number).map SlotId.mk

theorem plain (id : SlotId) : id.toOutline.Plain := by
  have hlow := id.number.minValue_le_toInt
  have hhigh := id.number.toInt_le
  have emin : Int32.minValue.toInt = -2147483648 := rfl
  have emax : Int32.maxValue.toInt = 2147483647 := rfl
  exact Outline.plain_int (by rw [toInt]; omega) (by rw [toInt]; omega)

end SlotId

namespace Screenshot

theorem restores (s : Screenshot) : Restores reader s.toOutline s :=
  Fills.restores
    (.cons rfl rfl (restores_word s.width).fills <|
     .cons rfl rfl (restores_word s.height).fills <|
     .cons rfl rfl (restores_list fun b _ => restores_byte b).fills <|
     .nil _)
    rfl

theorem plain (s : Screenshot) : s.toOutline.Plain := by
  apply Outline.plain_fields
  intro m hm
  simp only [List.mem_cons, List.not_mem_nil, or_false] at hm
  rcases hm with rfl | rfl | rfl
  · exact plain_word s.width
  · exact plain_word s.height
  · apply Outline.plain_list
    intro o ho
    obtain ⟨b, -, rfl⟩ := List.mem_map.1 ho
    have hlt := b.toNat_lt
    exact plain_natural (by omega)

end Screenshot

namespace PlayedTime

theorem of_self (t : PlayedTime) : of? t.secs.toNat t.nanos = some t := by
  have hs : t.secs.toNat < 0x10000000000000000 := t.secs.toNat_lt
  have hdiv : t.nanos.val / 1000000000 = 0 := Nat.div_eq_of_lt t.nanos.isLt
  have hmod : t.nanos.val % 1000000000 = t.nanos.val := Nat.mod_eq_of_lt t.nanos.isLt
  simp only [of?, hdiv, hmod, Nat.add_zero, UInt64.ofNat_toNat]
  exact if_pos hs

theorem restores (t : PlayedTime) : Restores reader t.toOutline t := by
  have hs : t.secs.toNat < 0x10000000000000000 := t.secs.toNat_lt
  have hn : t.nanos.val < Nat.pow 2 32 := Nat.lt_trans t.nanos.isLt (by decide)
  exact Fills.restores
    (.cons rfl rfl (restores_natural hs).fills <|
     .cons rfl rfl (restores_natural hn).fills <|
     .nil _)
    (of_self t)

theorem plain (t : PlayedTime) : t.toOutline.Plain := by
  have hs : t.secs.toNat < 0x10000000000000000 := t.secs.toNat_lt
  have hn := t.nanos.isLt
  apply Outline.plain_fields
  intro m hm
  simp only [List.mem_cons, List.not_mem_nil, or_false] at hm
  rcases hm with rfl | rfl
  · exact plain_natural hs
  · exact plain_natural (by omega)

end PlayedTime

theorem Instant.restores (i : Instant) : Restores reader i.toOutline i :=
  restores_spelled i.ofText?_text

namespace SlotInfo

theorem restores_screenshot (s : Option Screenshot) :
    Restores (optional Screenshot.reader) ((s.map Screenshot.toOutline).getD .null) s := by
  cases s with
  | none => exact restores_none _
  | some s => exact (Screenshot.restores s).some fun h => by cases h

theorem restores (i : SlotInfo) : Restores reader i.toOutline i :=
  Fills.restores
    (.cons rfl rfl (SlotId.restores i.id).fills <|
     .cons rfl rfl (restores_string i.name).fills <|
     .cons rfl rfl (PlayedTime.restores i.played).fills <|
     .cons rfl rfl (Instant.restores i.savedAt).fills <|
     .cons rfl rfl (restores_string i.map).fills <|
     .cons rfl rfl (restores_screenshot i.screenshot).fills <|
     .cons rfl rfl (restores_string i.version).fills <|
     .nil _)
    rfl

theorem plain (i : SlotInfo) : i.toOutline.Plain := by
  apply Outline.plain_fields
  intro m hm
  simp only [List.mem_cons, List.not_mem_nil, or_false] at hm
  rcases hm with rfl | rfl | rfl | rfl | rfl | rfl | rfl
  · exact SlotId.plain i.id
  · exact Outline.plain_text _
  · exact PlayedTime.plain i.played
  · exact Outline.plain_text _
  · exact Outline.plain_text _
  · cases i.screenshot with
    | none => simp [Outline.Plain]
    | some s => exact Screenshot.plain s
  · exact Outline.plain_text _

/-- The pixels of a picture are a list in an object in an object. -/
theorem depth_le (i : SlotInfo) : i.toOutline.depth ≤ depthLimit := by
  have hint : ∀ n, (Outline.int n).depth = 0 := fun n => by simp [Outline.int, Outline.depth]
  have hlist : ∀ bs : List UInt8, (Items.ofList (bs.map fun b => Outline.int b.toNat)).depth = 0 := by
    intro bs
    induction bs with
    | nil => simp [Items.depth]
    | cons b bs ih => simp [Items.depth, hint, ih]
  unfold toOutline
  cases i.screenshot <;>
    simp [Outline.fields, Members.ofList, Outline.depth, Members.depth, SlotId.toOutline,
      PlayedTime.toOutline, Instant.toOutline, Screenshot.toOutline, Outline.text, Outline.list, hint, hlist,
      depthLimit]

/-- An info survives being written and read, in every layout that adds blanks only. -/
theorem decode_render (i : SlotInfo) {l : Layout} (hl : l.Blank) : decode (i.toOutline.render l) = .ok i := by
  rw [decode, run_render i.restores i.plain hl, if_pos i.depth_le]

theorem decode_encode (i : SlotInfo) : decode i.encode = .ok i :=
  i.decode_render Layout.blank_indented

/-- An info survives being written on one line and being written with indentation. Its date is kept to the nanosecond:
outside leap seconds it is the date of just one number of nanoseconds since the epoch, before or behind. -/
theorem info_survives (i : SlotInfo) :
    decode i.toOutline.compact = .ok i ∧ decode i.encode = .ok i ∧
      ∀ nanos, Instant.ofUnixNanos? nanos = some i.savedAt ↔
        i.savedAt.isLeap = false ∧ i.savedAt.unixNanos = nanos :=
  ⟨i.decode_render Layout.blank_compact, i.decode_encode, fun _ => Instant.ofUnixNanos?_eq_some⟩

end SlotInfo

/-! ## Snapshots -/

namespace GameObject

theorem restores {o : GameObject} (hp : o.state.Plain) : Restores reader o.toOutline o := by
  cases ht : o.tags with
  | nil =>
    have hw : o.toOutline = .fields [("name", .text o.name), ("class", .text o.className),
        ("state", o.state.toOutline)] := by simp [toOutline, ht]
    rw [hw]
    refine Fills.restores
      (.cons rfl rfl (restores_string o.name).fills <|
       .cons rfl rfl (restores_string o.className).fills <|
       .cons rfl rfl (Json.restores hp).fills <|
       .nil _) ?_
    obtain ⟨name, className, tags, state⟩ := o
    cases ht
    rfl
  | cons tag tags =>
    have hw : o.toOutline = .fields [("name", .text o.name), ("class", .text o.className),
        ("tags", .list (o.tags.map .text)), ("state", o.state.toOutline)] := by simp [toOutline, ht]
    rw [hw]
    exact Fills.restores
      (.cons rfl rfl (restores_string o.name).fills <|
       .cons rfl rfl (restores_string o.className).fills <|
       .cons rfl rfl (restores_list fun t _ => restores_string t).fills <|
       .cons rfl rfl (Json.restores hp).fills <|
       .nil _) rfl

theorem plain {o : GameObject} (hp : o.state.Plain) : o.toOutline.Plain := by
  have htags : (Outline.list (o.tags.map .text)).Plain := by
    apply Outline.plain_list
    intro t ht
    obtain ⟨t, -, rfl⟩ := List.mem_map.1 ht
    exact Outline.plain_text t
  apply Outline.plain_fields
  intro m hm
  simp only [List.mem_append, List.mem_cons, List.not_mem_nil, or_false] at hm
  rcases hm with ((rfl | rfl) | hm) | rfl
  · exact Outline.plain_text _
  · exact Outline.plain_text _
  · split at hm
    · cases hm
    · rw [List.mem_singleton.1 hm]
      exact htags
  · exact Json.plain_toOutline _ hp

end GameObject

theorem Region.restores {os : List GameObject} (hp : ∀ o ∈ os, o.state.Plain) :
    Restores objectsReader (objectsOutline os) os :=
  Fills.restores (.cons rfl rfl (restores_list fun o ho => GameObject.restores (hp o ho)).fills <| .nil _)
    rfl

theorem Region.plain {os : List GameObject} (hp : ∀ o ∈ os, o.state.Plain) : (objectsOutline os).Plain := by
  apply Outline.plain_fields
  intro m hm
  rw [List.mem_singleton.1 hm]
  apply Outline.plain_list
  intro o ho
  obtain ⟨o, hin, rfl⟩ := List.mem_map.1 ho
  exact GameObject.plain (hp o hin)

/-- The values of a catalog make up the catalog again. -/
theorem Catalog.ofList_toList {α κ : Type} [Ord κ] [Std.TransOrd κ] [Std.LawfulEqOrd κ] {key : α → κ}
    (c : Catalog key) : ofList c.toList = c := by
  have hgo : ∀ (as : List α) (d : Catalog key),
      (d.toList ++ as).Pairwise (fun a b => compare (key a) (key b) = .lt) →
      (as.foldl insert d).toList = d.toList ++ as := by
    intro as
    induction as with
    | nil => simp
    | cons a as ih =>
      intro d hr
      have hlast : (d.insert a).toList = d.toList ++ [a] :=
        insertInto_last fun b hb => (List.pairwise_append.1 hr).2.2 b hb a (by simp)
      rw [List.foldl_cons, ih (d.insert a) (by simpa [hlast] using hr), hlast]
      simp
  exact ext_toList (hgo c.toList empty (by simpa [empty] using c.rising))

namespace Snapshot

/-- Whether the states of all objects are plain. -/
def Plain (s : Snapshot) : Prop :=
  (∀ o ∈ s.globals, o.state.Plain) ∧ ∀ r ∈ s.regions.toList, ∀ o ∈ r.objects, o.state.Plain

theorem restores {s : Snapshot} (hp : s.Plain) : Restores reader s.toOutline s := by
  have hregions : Restores (table Region.objectsReader)
      (.fields (s.regions.toList.map fun r => (r.name, Region.objectsOutline r.objects)))
      (s.regions.toList.map fun r => (r.name, r.objects)) := by
    have h : ∀ a ∈ s.regions.toList.map fun r => (r.name, r.objects),
        Restores Region.objectsReader (Region.objectsOutline a.2) a.2 := by
      intro a ha
      obtain ⟨r, hr, rfl⟩ := List.mem_map.1 ha
      exact Region.restores (hp.2 r hr)
    have ht := restores_table h
    rwa [List.map_map] at ht
  refine Fills.restores
    (.cons rfl rfl (restores_string s.map).fills <|
     .cons rfl rfl (restores_list fun o ho => GameObject.restores (hp.1 o ho)).fills <|
     .cons rfl rfl hregions.fills <|
     .nil _) ?_
  obtain ⟨map, globals, regions⟩ := s
  have hback : Catalog.ofList ((regions.toList.map fun r => (r.name, r.objects)).map fun r =>
      (⟨r.1, r.2⟩ : Region)) = regions := by
    rw [List.map_map]
    exact (congrArg Catalog.ofList (List.map_id _)).trans regions.ofList_toList
  exact congrArg (fun rs => some (⟨map, globals, rs⟩ : Snapshot)) hback

theorem plain {s : Snapshot} (hp : s.Plain) : s.toOutline.Plain := by
  refine Outline.plain_fields fun m hm => ?_
  simp only [List.mem_cons, List.not_mem_nil, or_false] at hm
  rcases hm with rfl | rfl | rfl
  · exact Outline.plain_text _
  · apply Outline.plain_list
    intro o ho
    obtain ⟨o, hin, rfl⟩ := List.mem_map.1 ho
    exact GameObject.plain (hp.1 o hin)
  · apply Outline.plain_fields
    intro m hm
    obtain ⟨r, hin, rfl⟩ := List.mem_map.1 hm
    exact Region.plain (hp.2 r hin)

/-- A snapshot survives being written and read unless it nests too deep, and then it cannot be read. -/
theorem decode_encode {s : Snapshot} (hp : s.Plain) :
    decode s.encode = if s.toOutline.depth ≤ depthLimit then .ok s else .error .malformed :=
  run_render (restores hp) (plain hp) Layout.blank_compact

/-- What is read of a snapshot is the snapshot. -/
theorem eq_of_decode {s s' : Snapshot} (hp : s.Plain) (h : decode s.encode = .ok s') : s' = s := by
  rw [decode_encode hp] at h
  split at h
  · cases h
    rfl
  · cases h

end Snapshot

end SaveSlots
