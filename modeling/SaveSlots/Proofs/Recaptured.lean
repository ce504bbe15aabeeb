import SaveSlots.Proofs.Applied
/-!
# A snapshot that is put back at once

Records are saved by their places and put back by their names. Where no name is used twice the two agree, and a world
that gets back what was just taken of it is as it was. Where a name is used twice in a region, its first object becomes
the last one that was saved.

`capture_apply` is the main theorem, and `capture_apply_twins` shows a region that does not stay as it was.
-/

namespace SaveSlots.World

/-- Whether the first object of every accepted name is the last accepted one with this name. -/
def Settled (f : SaveFilter) (objects : List GameObject) : Prop :=
  ∀ name o, lastNamed? name (f.retain objects) = some o → objects.find? (fun x => x.name = name) = some o

/-- The first object of a name is the one that no object before it shares the name with. -/
theorem find_named_iff {objects : List GameObject} {name : String} {o : GameObject} :
    objects.find? (fun x => x.name = name) = some o ↔
      o.name = name ∧ ∃ i, objects[i]? = some o ∧ name ∉ (objects.take i).map GameObject.name := by
  induction objects with
  | nil => simp
  | cons x xs ih =>
    by_cases hx : x.name = name
    · rw [List.find?_cons_of_pos (by simpa using hx)]
      constructor
      · rintro ⟨⟩
        exact ⟨hx, 0, rfl, by simp⟩
      · rintro ⟨-, i, hi, hfirst⟩
        cases i with
        | zero => exact hi
        | succ i => simp [hx] at hfirst
    · rw [List.find?_cons_of_neg (by simpa using hx), ih]
      constructor
      · rintro ⟨ho, i, hi, hfirst⟩
        exact ⟨ho, i + 1, hi, by simpa [Ne.symm hx] using hfirst⟩
      · rintro ⟨ho, i, hi, hfirst⟩
        cases i with
        | zero =>
          cases hi
          exact absurd ho hx
        | succ i => exact ⟨ho, i, hi, fun hin => hfirst (by simpa using .inr (by simpa using hin))⟩

/-- What was taken of some objects has no new names for them. -/
theorem new_names_retain (f : SaveFilter) (objects : List GameObject) :
    ((f.retain objects).map GameObject.name).filter (fun name => name ∉ objects.map GameObject.name) = [] := by
  refine List.filter_eq_nil_iff.2 fun name hname => ?_
  obtain ⟨o, ho, rfl⟩ := List.mem_map.1 hname
  have hmem : o.name ∈ objects.map GameObject.name := List.mem_map_of_mem (List.mem_filter.1 ho).1
  simp [hmem]

theorem length_putObjects_retain (f : SaveFilter) (objects : List GameObject) :
    (putObjects (f.retain objects) objects).length = objects.length := by
  have hm := merged_putObjects (f.retain objects) objects
  apply Nat.le_antisymm
  · apply List.drop_eq_nil_iff.1
    rw [hm.added, new_names_retain]
    rfl
  · by_contra hlt
    have hi : (putObjects (f.retain objects) objects).length < objects.length := by omega
    have hkept := hm.kept _ _ (List.getElem?_eq_getElem hi)
    rw [List.getElem?_eq_none (Nat.le_refl _)] at hkept
    cases hkept

/-- Objects that get back what was taken of them are as they were if and only if no name has got another object. -/
theorem putObjects_retain_iff (f : SaveFilter) (objects : List GameObject) :
    putObjects (f.retain objects) objects = objects ↔ Settled f objects := by
  rw [eq_comm, ← merged_iff]
  constructor
  · intro h name o ho
    obtain ⟨hmem, rfl⟩ := mem_of_lastNamed ho
    have hthere : (objects.find? fun x => x.name = o.name).isSome = true :=
      List.find?_isSome.2 ⟨o, (List.mem_filter.1 hmem).1, by simp⟩
    obtain ⟨x, hx⟩ := Option.isSome_iff_exists.1 hthere
    obtain ⟨hname, i, hi, hfirst⟩ := find_named_iff.1 hx
    have hkept := h.kept i x hi
    rw [hi, hname, if_neg hfirst, ho] at hkept
    rw [hx, hkept]
    rfl
  · intro h
    refine ⟨fun i o ho => ?_, by rw [new_names_retain]; simp⟩
    rw [ho]
    congr 1
    split
    · rfl
    · next hfirst =>
      cases hlast : lastNamed? o.name (f.retain objects) with
      | none => rfl
      | some x =>
        have hx := find_named_iff.2 ⟨rfl, i, ho, hfirst⟩
        exact Option.some.inj (hx.symm.trans (h _ _ hlast))

theorem globals_capture_apply (w : World) (f : SaveFilter) : (w.apply (w.capture f) f []).1.globals = w.globals := by
  apply Catalog.ext
  intro name
  have hglobal : (w.apply (w.capture f) f []).1.globals.find? name =
      (lastNamed? name (if f.storeGlobals then f.retain (w.capture f).globals else [])).or (w.globals.find? name) :=
    w.global_apply (w.capture f) f [] name
  rw [hglobal]
  cases hlast : lastNamed? name (if f.storeGlobals then f.retain (w.capture f).globals else []) with
  | none => rfl
  | some o =>
    obtain ⟨ho, rfl⟩ := mem_of_lastNamed hlast
    have hmem : o ∈ w.globals.toList := by
      cases hg : f.storeGlobals with
      | false => simp [hg] at ho
      | true =>
        simp only [hg, if_true, capture] at ho
        exact (List.mem_filter.1 (List.mem_filter.1 ho).1).1
    exact (Catalog.find?_of_mem hmem).symm

theorem region_capture_apply (w : World) (f : SaveFilter) (r : String) :
    (w.apply (w.capture f) f []).1.region? r = (w.region? r).map fun objects =>
      if f.storeRegions then putObjects (f.retain objects) objects else objects := by
  have hanswer := w.mem_apply (w.capture f) f [] (r := r)
  rw [region_capture, captureRegion?] at hanswer
  cases hf : f.storeRegions with
  | false =>
    rw [w.region_apply_of_not_mem (w.capture f) f [] (by simp [hanswer, hf])]
    simp
  | true =>
    cases hr : w.region? r with
    | none =>
      rw [w.region_apply_of_not_mem (w.capture f) f [] (by simp [hanswer, hr]), hr]
      rfl
    | some objects =>
      have hsaved : (w.capture f).region? r = some (f.retain objects) := by
        rw [region_capture, captureRegion?, if_pos hf, hr, Option.map_some]
      have htwice : f.retain (f.retain objects) = f.retain objects := by
        simp [SaveFilter.retain]
      rw [w.region_apply_of_mem (w.capture f) f [] (by simp [hanswer, hf, hr]) hsaved, hr, htwice]
      simp

/-- A snapshot that is put back at once leaves the globals as they were, and every region with as many objects. With
regions to store, the first object of a name becomes the last accepted one with this name, and all others are as they
were. -/
theorem capture_apply (w : World) (f : SaveFilter) :
    (w.apply (w.capture f) f []).1.globals = w.globals ∧
    (∀ r, w.region? r = none → (w.apply (w.capture f) f []).1.region? r = none) ∧
    ∀ r objects, w.region? r = some objects → ∃ news, (w.apply (w.capture f) f []).1.region? r = some news ∧
      news.length = objects.length ∧
      (∀ i o, objects[i]? = some o → news[i]? = some (
        if f.storeRegions = true ∧ o.name ∉ (objects.take i).map GameObject.name then
          (lastNamed? o.name (f.retain objects)).getD o
        else o)) ∧
      (news = objects ↔ (f.storeRegions = true → Settled f objects)) := by
  refine ⟨w.globals_capture_apply f, fun r hr => by rw [region_capture_apply, hr, Option.map_none], ?_⟩
  intro r objects hr
  refine ⟨_, by rw [region_capture_apply, hr, Option.map_some], ?_⟩
  cases hf : f.storeRegions with
  | false => simp
  | true =>
    refine ⟨length_putObjects_retain f objects, fun i o ho => ?_, ?_⟩
    · rw [if_pos rfl, getElem_putObjects ho]
      simp
    · simp [putObjects_retain_iff]

/-- A region with two barrels. -/
def twins : World :=
  (World.new "town").loadRegion "cellar" [⟨"barrel", "Barrel", [], .ofInt 1⟩, ⟨"barrel", "Barrel", [], .ofInt 2⟩]

/-- The first of two barrels becomes the second one. -/
theorem capture_apply_twins :
    twins.region? "cellar" = some [⟨"barrel", "Barrel", [], .ofInt 1⟩, ⟨"barrel", "Barrel", [], .ofInt 2⟩] ∧
    (twins.apply (twins.capture .all) .all []).1.region? "cellar" =
      some [⟨"barrel", "Barrel", [], .ofInt 2⟩, ⟨"barrel", "Barrel", [], .ofInt 2⟩] ∧
    (twins.apply (twins.capture .all) .all []).1.region? "cellar" ≠ twins.region? "cellar" := by
  have hafter : (twins.apply (twins.capture .all) .all []).1.region? "cellar" =
      some [⟨"barrel", "Barrel", [], .ofInt 2⟩, ⟨"barrel", "Barrel", [], .ofInt 2⟩] := rfl
  refine ⟨rfl, hafter, ?_⟩
  rw [hafter]
  intro h
  cases h

end SaveSlots.World
