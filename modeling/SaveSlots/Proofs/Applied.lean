import Mathlib.Data.List.Basic
import SaveSlots.Proofs.Catalogs
import SaveSlots.World.Capture
/-!
# What applying a snapshot does to a world

The records of a region are put into its objects one after another, each in the stead of the first object with its
name or at the end. `Merged` says what comes of it place by place and without these steps, and `merged_iff` that
nothing else meets it: the last record of a name counts.

`apply_exact` is the main theorem: applying a snapshot puts in what the filter accepts, and leaves all else as it was.
-/

namespace SaveSlots

/-! ## The last object of a name -/

/-- The last one of some objects with a name. -/
def lastNamed? (name : String) (os : List GameObject) : Option GameObject :=
  (os.filter fun o => o.name = name).getLast?

theorem lastNamed_cons (name : String) (o : GameObject) (os : List GameObject) :
    lastNamed? name (o :: os) = (lastNamed? name os).or (if o.name = name then some o else none) := by
  unfold lastNamed?
  by_cases h : o.name = name
  · rw [List.filter_cons_of_pos (by simpa using h), List.getLast?_cons, if_pos h]
    cases (os.filter fun o => o.name = name).getLast? <;> rfl
  · rw [List.filter_cons_of_neg (by simpa using h), if_neg h, Option.or_none]

/-- Leaving out objects by their names leaves the last one of a name, or none of this name. -/
theorem lastNamed_filter (p : String → Bool) (name : String) (os : List GameObject) :
    lastNamed? name (os.filter fun o => p o.name) = if p name then lastNamed? name os else none := by
  unfold lastNamed?
  rw [List.filter_filter]
  split
  · next h =>
    congr 1
    apply List.filter_congr
    intro o _
    by_cases ho : o.name = name <;> simp [ho, h]
  · next h =>
    rw [List.filter_eq_nil_iff.2, List.getLast?_nil]
    intro o _ ho
    simp only [Bool.and_eq_true, decide_eq_true_eq] at ho
    exact h (ho.1 ▸ ho.2)

theorem mem_of_lastNamed {name : String} {o : GameObject} {os : List GameObject} (h : lastNamed? name os = some o) :
    o ∈ os ∧ o.name = name := by
  simpa using List.mem_of_getLast? h

/-! ## Putting records into objects -/

namespace World

/-- Puts records into objects, one after another. -/
def putObjects (records objects : List GameObject) : List GameObject :=
  records.foldl (fun os r => putObject r os) objects

/-- The first object takes the last record of its name, and leaves all other records to the objects behind it. -/
theorem putObjects_cons (records : List GameObject) (o : GameObject) (os : List GameObject) :
    putObjects records (o :: os) =
      (lastNamed? o.name records).getD o :: putObjects (records.filter fun r => r.name ≠ o.name) os := by
  induction records generalizing o os with
  | nil => rfl
  | cons r rs ih =>
    have hstep : putObjects (r :: rs) (o :: os) = putObjects rs (putObject r (o :: os)) := rfl
    rw [hstep, putObject, lastNamed_cons]
    by_cases h : o.name = r.name
    · rw [if_pos h, ih, if_pos h.symm, List.filter_cons_of_neg (by simpa using h.symm), h]
      cases lastNamed? r.name rs <;> rfl
    · rw [if_neg h, ih, if_neg (Ne.symm h), Option.or_none, List.filter_cons_of_pos (by simpa using Ne.symm h)]
      rfl

/-- What comes of putting records into objects. -/
structure Merged (records objects news : List GameObject) : Prop where
  /-- Every object keeps its place. The first one of a name is now the last record of this name, if there is one;
  all others are as they were. -/
  kept : ∀ i o, objects[i]? = some o → news[i]? =
    some (if o.name ∈ (objects.take i).map GameObject.name then o else (lastNamed? o.name records).getD o)
  /-- Behind them come the names that are new, in the order in which the records name them first, each once and with
  its last record. -/
  added : news.drop objects.length =
    ((records.map GameObject.name).filter fun name => name ∉ objects.map GameObject.name).eraseDups.filterMap
      fun name => lastNamed? name records

theorem getElem_putObjects {objects : List GameObject} {i : Nat} {o : GameObject} (h : objects[i]? = some o)
    (records : List GameObject) : (putObjects records objects)[i]? =
      some (if o.name ∈ (objects.take i).map GameObject.name then o else (lastNamed? o.name records).getD o) := by
  induction objects generalizing records i with
  | nil => cases h
  | cons x xs ih =>
    rw [putObjects_cons]
    cases i with
    | zero =>
      obtain rfl : x = o := by simpa using h
      simp
    | succ i =>
      have hrest := ih (i := i) (by simpa using h) (records.filter fun r => r.name ≠ x.name)
      rw [List.getElem?_cons_succ, hrest, lastNamed_filter (fun name => name ≠ x.name), List.take_succ_cons,
        List.map_cons]
      by_cases hx : o.name = x.name
      · simp [hx]
      · simp [hx]

theorem drop_putObjects (records objects : List GameObject) :
    (putObjects records objects).drop objects.length =
      putObjects (records.filter fun r => r.name ∉ objects.map GameObject.name) [] := by
  induction objects generalizing records with
  | nil =>
    have hall : records.filter (fun r => r.name ∉ ([] : List GameObject).map GameObject.name) = records :=
      List.filter_eq_self.2 (by simp)
    rw [hall]
    rfl
  | cons x xs ih =>
    rw [putObjects_cons, List.length_cons, List.drop_succ_cons, ih, List.filter_filter]
    congr 2
    funext r
    by_cases hx : r.name = x.name <;> simp [hx]

/-- Records that are put into nothing are there in the order of their names' first records. -/
theorem putObjects_nil (records : List GameObject) :
    putObjects records [] =
      (records.map GameObject.name).eraseDups.filterMap fun name => lastNamed? name records := by
  -- all records of one name are settled at once, so the rest is shorter but no tail
  induction hn : records.length using Nat.strongRecOn generalizing records with
  | ind n ih =>
    cases records with
    | nil => rfl
    | cons r rs =>
      have hstep : putObjects (r :: rs) [] = putObjects rs [r] := rfl
      have hshort : (rs.filter fun x => x.name ≠ r.name).length < n := by
        have hle := List.length_filter_le (fun x : GameObject => x.name ≠ r.name) rs
        rw [List.length_cons] at hn
        omega
      have hfirst : lastNamed? r.name (r :: rs) = some ((lastNamed? r.name rs).getD r) := by
        rw [lastNamed_cons, if_pos rfl]
        cases lastNamed? r.name rs <;> rfl
      have hnames : ((rs.filter fun x => x.name ≠ r.name).map GameObject.name) =
          (rs.map GameObject.name).filter fun name => !name == r.name := by
        rw [List.filter_map]
        congr 2
        funext x
        by_cases hx : x.name = r.name <;> simp [hx]
      rw [hstep, putObjects_cons, ih _ hshort _ rfl, hnames, List.map_cons, List.eraseDups_cons, List.filterMap_cons,
        hfirst]
      congr 1
      apply List.filterMap_congr
      intro name hname
      have hne : name ≠ r.name := by simpa using (List.mem_filter.1 (List.mem_eraseDups.1 hname)).2
      rw [lastNamed_filter (fun name => name ≠ r.name), if_pos (by simpa using hne), lastNamed_cons,
        if_neg hne.symm, Option.or_none]

theorem merged_putObjects (records objects : List GameObject) :
    Merged records objects (putObjects records objects) where
  kept _ _ h := getElem_putObjects h records
  added := by
    have hnames : (records.filter fun r => r.name ∉ objects.map GameObject.name).map GameObject.name =
        (records.map GameObject.name).filter fun name => name ∉ objects.map GameObject.name := by
      rw [List.filter_map]
      rfl
    rw [drop_putObjects, putObjects_nil, hnames]
    apply List.filterMap_congr
    intro name hname
    rw [lastNamed_filter (fun name => name ∉ objects.map GameObject.name),
      if_pos (List.mem_filter.1 (List.mem_eraseDups.1 hname)).2]

/-- Only one list of objects is what comes of putting records into others. -/
theorem merged_iff {records objects news : List GameObject} :
    Merged records objects news ↔ news = putObjects records objects := by
  constructor
  · intro h
    have hm := merged_putObjects records objects
    apply List.ext_getElem?
    intro i
    cases ho : objects[i]? with
    | some o => rw [h.kept i o ho, hm.kept i o ho]
    | none =>
      have hdrop := congrArg (fun os => os[i - objects.length]?) (h.added.trans hm.added.symm)
      have hle : objects.length ≤ i := List.getElem?_eq_none_iff.1 ho
      simpa only [List.getElem?_drop, Nat.add_sub_cancel' hle] using hdrop
  · rintro rfl
    exact merged_putObjects records objects

/-! ## Restoring regions and globals -/

theorem region_restoreRegion (w : World) (name : String) (os : List GameObject) (r : String) :
    (w.restoreRegion name os).region? r =
      if name = r then (w.region? r).map (putObjects os) else w.region? r := by
  unfold restoreRegion
  cases hw : w.region? name with
  | none =>
    by_cases hr : name = r
    · subst hr
      simp [hw]
    · simp [hr]
  | some objects =>
    change ((w.regions.insert ⟨name, _⟩).find? r).map Region.objects = _
    rw [Catalog.find?_insert]
    by_cases hr : name = r
    · subst hr
      simp [hw, putObjects]
    · simp only [hr, if_false]
      rfl

/-- A region stays loaded, or not, when some region is restored. -/
theorem isSome_region_restoreRegion (w : World) (name : String) (os : List GameObject) (r : String) :
    ((w.restoreRegion name os).region? r).isSome = (w.region? r).isSome := by
  rw [region_restoreRegion]
  split
  · rw [Option.isSome_map]
  · rfl

theorem restored_restoreRegion (w : World) (name : String) (os : List GameObject) :
    (w.restoreRegion name os).restored = w.restored ++ if (w.region? name).isSome then [name] else [] := by
  unfold restoreRegion
  cases w.region? name with
  | none => simp
  | some objects => rfl

theorem globals_restoreRegion (w : World) (name : String) (os : List GameObject) :
    (w.restoreRegion name os).globals = w.globals := by
  unfold restoreRegion
  split <;> rfl

/-- A world without its objects and without the note of what was restored. -/
def bare (w : World) : World := { w with globals := .empty, regions := .empty, restored := [] }

theorem bare_restoreRegion (w : World) (name : String) (os : List GameObject) :
    (w.restoreRegion name os).bare = w.bare := by
  unfold restoreRegion
  split <;> rfl

/-- Putting in globals changes nothing else. -/
theorem restoreGlobals_keeps {β : Type} (get : World → β) (hget : ∀ w o, get (spawn w o) = get w) (w : World)
    (os : List GameObject) : get (w.restoreGlobals os) = get w := by
  unfold restoreGlobals
  induction os generalizing w with
  | nil => rfl
  | cons o os ih => rw [List.foldl_cons, ih, hget]

theorem global_restoreGlobals (w : World) (os : List GameObject) (name : String) :
    (w.restoreGlobals os).global? name = (lastNamed? name os).or (w.global? name) := by
  unfold restoreGlobals
  induction os generalizing w with
  | nil => rfl
  | cons o os ih =>
    have hspawn : (w.spawn o).global? name = if o.name = name then some o else w.global? name :=
      Catalog.find?_insert ..
    rw [List.foldl_cons, ih, lastNamed_cons, Option.or_assoc, hspawn]
    by_cases h : o.name = name <;> simp [h]

section
variable {s : Snapshot} {f : SaveFilter}

/-- Without regions to store none is restored. -/
theorem applyRegions_off (hf : f.storeRegions = false) (w : World) (rs : List String) :
    w.applyRegions s f rs = (w, []) := by
  induction rs with
  | nil => rfl
  | cons r rs ih => simp [applyRegions, applyRegion?, hf, ih]

/-- What no restoring of a region changes is as it was. -/
theorem applyRegions_keeps {β : Type} (get : World → β) (hget : ∀ w r os, get (restoreRegion w r os) = get w)
    (w : World) (rs : List String) : get (w.applyRegions s f rs).1 = get w := by
  induction rs generalizing w with
  | nil => rfl
  | cons r rs ih =>
    rw [applyRegions]
    cases h : w.applyRegion? s f r with
    | none => exact ih w
    | some w₁ =>
      obtain ⟨os, -, rfl⟩ : ∃ os, s.region? r = some os ∧ w.restoreRegion r (f.retain os) = w₁ := by
        unfold applyRegion? at h
        split at h
        · exact Option.map_eq_some_iff.1 h
        · cases h
      exact (ih _).trans (hget ..)

end

section
variable {s : Snapshot} {f : SaveFilter} (hf : f.storeRegions = true)
include hf

theorem applyRegion_eq (w : World) (r : String) :
    w.applyRegion? s f r = (s.region? r).map fun os => w.restoreRegion r (f.retain os) := by
  rw [applyRegion?, if_pos hf]

theorem applyRegions_cons (w : World) (r : String) (rs : List String) :
    w.applyRegions s f (r :: rs) =
      match s.region? r with
      | some os =>
        (((w.restoreRegion r (f.retain os)).applyRegions s f rs).1,
          r :: ((w.restoreRegion r (f.retain os)).applyRegions s f rs).2)
      | none => w.applyRegions s f rs := by
  rw [applyRegions, applyRegion_eq hf]
  cases s.region? r <;> rfl

/-- The regions that something is saved for are answered. -/
theorem answer_applyRegions (w : World) (rs : List String) :
    (w.applyRegions s f rs).2 = rs.filter fun r => (s.region? r).isSome := by
  induction rs generalizing w with
  | nil => rfl
  | cons r rs ih =>
    rw [applyRegions_cons hf]
    cases hs : s.region? r with
    | none =>
      rw [List.filter_cons_of_neg (by simp [hs])]
      exact ih w
    | some os =>
      rw [List.filter_cons_of_pos (by simp [hs])]
      exact congrArg (r :: ·) (ih _)

/-- A region with something saved for it is restored if it is among those to restore. -/
theorem region_applyRegions {rs : List String} (hd : rs.Nodup) (w : World) {r : String} {os : List GameObject}
    (hs : s.region? r = some os) :
    (w.applyRegions s f rs).1.region? r =
      if r ∈ rs then (w.restoreRegion r (f.retain os)).region? r else w.region? r := by
  induction rs generalizing w with
  | nil => rfl
  | cons x rs ih =>
    obtain ⟨hnot, hd⟩ := List.nodup_cons.1 hd
    rw [applyRegions_cons hf]
    by_cases hx : x = r
    · subst hx
      simp only [hs, ih hd, if_neg hnot, List.mem_cons_self, if_true]
    · have hmem : r ∈ x :: rs ↔ r ∈ rs := by simp [Ne.symm hx]
      simp only [hmem]
      split
      · rw [ih hd, region_restoreRegion, region_restoreRegion, region_restoreRegion, if_neg hx]
      · exact ih hd w

/-- A region that nothing is saved for is left alone. -/
theorem region_applyRegions_unsaved (w : World) (rs : List String) {r : String} (hs : s.region? r = none) :
    (w.applyRegions s f rs).1.region? r = w.region? r := by
  induction rs generalizing w with
  | nil => rfl
  | cons x rs ih =>
    rw [applyRegions_cons hf]
    cases hx : s.region? x with
    | none => exact ih w
    | some os =>
      have hne : x ≠ r := by
        rintro rfl
        rw [hs] at hx
        cases hx
      exact (ih _).trans (by rw [region_restoreRegion, if_neg hne])

/-- The world takes note of all regions that are answered, if they are loaded. -/
theorem restored_applyRegions {w : World} {rs : List String} (hl : ∀ r ∈ rs, (w.region? r).isSome = true) :
    (w.applyRegions s f rs).1.restored = w.restored ++ (w.applyRegions s f rs).2 := by
  induction rs generalizing w with
  | nil => exact (List.append_nil _).symm
  | cons x rs ih =>
    obtain ⟨hx, hl⟩ := List.forall_mem_cons.1 hl
    rw [applyRegions_cons hf]
    cases s.region? x with
    | none => exact ih hl
    | some os =>
      have hrest := ih (w := w.restoreRegion x (f.retain os)) fun r hr => by
        rw [isSome_region_restoreRegion]
        exact hl r hr
      simp only [hrest, restored_restoreRegion, hx, if_true, List.append_assoc, List.singleton_append]

end

/-! ## Applying a snapshot -/

theorem mem_loadedRegions {w : World} {r : String} : r ∈ w.loadedRegions ↔ (w.region? r).isSome = true := by
  rw [loadedRegions, Catalog.mem_keys_iff, region?, Option.isSome_map]

section
variable (w : World) (s : Snapshot) (f : SaveFilter) (skip : List String)

/-- First the globals are put in, and then the loaded regions are restored that are not skipped. -/
theorem apply_eq :
    w.apply s f skip =
      (w.restoreGlobals (if f.storeGlobals then f.retain s.globals else [])).applyRegions s f
        (w.loadedRegions.filter fun r => !skip.contains r) := by
  have hregions : ∀ os, (w.restoreGlobals os).regions = w.regions :=
    w.restoreGlobals_keeps World.regions fun _ _ => rfl
  unfold apply
  split
  · simp [loadedRegions, hregions]
  · rfl

theorem bare_apply : (w.apply s f skip).1.bare = w.bare := by
  rw [apply_eq, applyRegions_keeps bare bare_restoreRegion, restoreGlobals_keeps bare fun _ _ => rfl]

theorem global_apply (name : String) :
    (w.apply s f skip).1.global? name =
      (lastNamed? name (if f.storeGlobals then f.retain s.globals else [])).or (w.global? name) := by
  have hglobals := applyRegions_keeps (s := s) (f := f) World.globals globals_restoreRegion
  rw [apply_eq, global?, hglobals]
  exact global_restoreGlobals ..

theorem region_restoreGlobals (os : List GameObject) (r : String) : (w.restoreGlobals os).region? r = w.region? r := by
  rw [region?, w.restoreGlobals_keeps World.regions (fun _ _ => rfl), region?]

/-- The regions that are answered are loaded, saved and not skipped. -/
theorem mem_apply {r : String} : r ∈ (w.apply s f skip).2 ↔
    f.storeRegions = true ∧ r ∉ skip ∧ (w.region? r).isSome = true ∧ (s.region? r).isSome = true := by
  rw [apply_eq]
  cases hf : f.storeRegions with
  | false => simp [applyRegions_off hf]
  | true =>
    rw [answer_applyRegions hf, List.mem_filter, List.mem_filter, mem_loadedRegions]
    simp [and_comm, and_left_comm]

theorem rising_apply : (w.apply s f skip).2.Pairwise (· < ·) := by
  have hloaded : w.loadedRegions.Pairwise (· < ·) := by
    rw [loadedRegions, Catalog.keys, List.pairwise_map]
    exact w.regions.rising.imp compareOfLessAndEq_eq_lt.1
  rw [apply_eq]
  cases hf : f.storeRegions with
  | false => simp [applyRegions_off hf]
  | true =>
    rw [answer_applyRegions hf]
    exact (hloaded.filter _).filter _

theorem noted_apply : (w.apply s f skip).1.restored = w.restored ++ (w.apply s f skip).2 := by
  rw [apply_eq]
  cases hf : f.storeRegions with
  | false =>
    rw [applyRegions_off hf, List.append_nil]
    exact w.restoreGlobals_keeps World.restored (fun _ _ => rfl) _
  | true =>
    rw [restored_applyRegions hf fun r hr => ?_]
    · rw [w.restoreGlobals_keeps World.restored fun _ _ => rfl]
    · rw [region_restoreGlobals]
      exact mem_loadedRegions.1 (List.mem_filter.1 hr).1

end

section
variable {s : Snapshot} {f : SaveFilter} (hf : f.storeRegions = true) (w : World) (skip : List String)
include hf

/-- Applying a snapshot restores the regions that it has something for, those to skip apart. -/
theorem region_apply {r : String} {os : List GameObject} (hs : s.region? r = some os) :
    (w.apply s f skip).1.region? r =
      if r ∈ skip then w.region? r else (w.restoreRegion r (f.retain os)).region? r := by
  have hd : (w.loadedRegions.filter fun r => !skip.contains r).Nodup := w.regions.nodup_keys.filter _
  rw [apply_eq, region_applyRegions hf hd _ hs, region_restoreRegion, region_restoreRegion, region_restoreGlobals]
  simp only [List.mem_filter, mem_loadedRegions, List.contains_eq_mem, Bool.not_eq_true', decide_eq_false_iff_not]
  by_cases hr : r ∈ skip
  · simp [hr]
  · cases w.region? r <;> simp [hr]

theorem restored_apply :
    ∃ log, (w.apply s f skip).1.restored = w.restored ++ log ∧
      ∀ r, r ∈ log ↔ r ∉ skip ∧ (w.region? r).isSome = true ∧ (s.region? r).isSome = true :=
  ⟨_, w.noted_apply s f skip, fun _ => by simp [mem_apply, hf]⟩

end

section
variable (w : World) (s : Snapshot) (f : SaveFilter) (skip : List String)

/-- A region that is answered has the accepted records put into its objects. -/
theorem region_apply_of_mem {r : String} (h : r ∈ (w.apply s f skip).2) {records : List GameObject}
    (hs : s.region? r = some records) :
    (w.apply s f skip).1.region? r = (w.region? r).map (putObjects (f.retain records)) := by
  obtain ⟨hf, hskip, -, -⟩ := (w.mem_apply s f skip).1 h
  rw [region_apply hf w skip hs, if_neg hskip, region_restoreRegion, if_pos rfl]

theorem region_apply_of_not_mem {r : String} (h : r ∉ (w.apply s f skip).2) :
    (w.apply s f skip).1.region? r = w.region? r := by
  rw [mem_apply] at h
  cases hf : f.storeRegions with
  | false => rw [apply_eq, applyRegions_off hf, region_restoreGlobals]
  | true =>
    cases hs : s.region? r with
    | none => rw [apply_eq, region_applyRegions_unsaved hf _ _ hs, region_restoreGlobals]
    | some records =>
      rw [region_apply hf w skip hs, region_restoreRegion, if_pos rfl]
      by_cases hskip : r ∈ skip
      · rw [if_pos hskip]
      · have hgone : w.region? r = none := by simpa [hf, hskip, hs] using h
        rw [if_neg hskip, hgone]
        rfl

end

/-- What a world and the answer are after a snapshot was applied. -/
structure Applied (w : World) (s : Snapshot) (f : SaveFilter) (skip : List String) (after : World)
    (answer : List String) : Prop where
  /-- Every saved object that is accepted is there under its name, the last one of a name, and every other object as it
  was. -/
  globals : ∀ name, after.global? name =
    (lastNamed? name (if f.storeGlobals then f.retain s.globals else [])).or (w.global? name)
  /-- The regions that are loaded and saved and not skipped are answered, -/
  answered : ∀ r, r ∈ answer ↔
    f.storeRegions = true ∧ r ∉ skip ∧ (w.region? r).isSome = true ∧ (s.region? r).isSome = true
  /-- each once and by name, -/
  rising : answer.Pairwise (· < ·)
  /-- and the world notes them down. -/
  noted : after.restored = w.restored ++ answer
  /-- The accepted records of a region have been put into its objects. -/
  merged : ∀ r ∈ answer, ∀ objects records, w.region? r = some objects → s.region? r = some records →
    ∃ news, after.region? r = some news ∧ Merged (f.retain records) objects news
  /-- All other regions are as they were, loaded or not, -/
  left : ∀ r, r ∉ answer → after.region? r = w.region? r
  /-- and so is all else. -/
  map : after.map = w.map
  played : after.played = w.played
  mapLoading : after.mapLoading = w.mapLoading
  shots : after.shotDelay = w.shotDelay ∧ after.pendingShot = w.pendingShot

/-- Applying a snapshot puts in what the filter accepts, as the world lays down for a repeated name, and leaves all else
as it was. -/
theorem apply_exact (w : World) (s : Snapshot) (f : SaveFilter) (skip : List String) :
    w.Applied s f skip (w.apply s f skip).1 (w.apply s f skip).2 := by
  have hbare := w.bare_apply s f skip
  exact {
    globals := w.global_apply s f skip
    answered := fun _ => w.mem_apply s f skip
    rising := w.rising_apply s f skip
    noted := w.noted_apply s f skip
    merged := by
      intro r hr objects records hobjects hrecords
      refine ⟨putObjects (f.retain records) objects, ?_, merged_putObjects _ _⟩
      rw [w.region_apply_of_mem s f skip hr hrecords, hobjects, Option.map_some]
    left := fun _ => w.region_apply_of_not_mem s f skip
    map := (congrArg World.map hbare :)
    played := (congrArg World.played hbare :)
    mapLoading := (congrArg World.mapLoading hbare :)
    shots := ⟨(congrArg World.shotDelay hbare :), (congrArg World.pendingShot hbare :)⟩ }

/-- What is captured of a region is what is taken of it alone. -/
theorem region_capture (w : World) (f : SaveFilter) (r : String) :
    (w.capture f).region? r = w.captureRegion? f r := by
  unfold Snapshot.region? capture captureRegion? region?
  by_cases hs : f.storeRegions = true
  · simp only [hs, if_true, Catalog.find?_modify, Option.map_map]
    rfl
  · simp [hs]

end World

end SaveSlots
