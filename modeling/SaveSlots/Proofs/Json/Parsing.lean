import SaveSlots.Proofs.Json.Lexing
/-!
# Building what was cut

The tokens of an outline build that outline again (`Document.ofTokens_tokens`), so printing in either
layout and reading gives the same document (`Document.ofBytes_render`).
-/

namespace SaveSlots.Document

/-- Goes on building with more tokens. -/
def Progress.resume : Progress → List Token → Document
  | .at p fs, ts => build p fs ts
  | .finished o, ts => ⟨o, !ts.isEmpty⟩
  | .stopped o, _ => ⟨o, false⟩

theorem build_cons (p : Position) (fs : List Frame) (t : Token) (ts : List Token) :
    build p fs (t :: ts) = (step p fs t).resume ts := by
  rw [build]
  cases step p fs t <;> rfl

/-- Where a first item may stand a value may stand, unless the array is closed at once. -/
theorem build_firstItem {o : Outline} (hp : o.Plain) (fs : List Frame) (ts : List Token) :
    build .firstItem fs (o.tokens ++ ts) = build .value (.array [] :: fs) (o.tokens ++ ts) := by
  cases o with
  | broken f => simp [Outline.Plain] at hp
  | _ => rfl

mutual

/-- The tokens of an outline deliver it to the frames around it. -/
theorem build_outline (fs : List Frame) (ts : List Token) :
    (o : Outline) → o.Plain → build .value fs (o.tokens ++ ts) = (deliver o fs).resume ts
  | .null, _ | .bool _, _ | .number _, _ | .string _, _ => build_cons ..
  | .broken _, hp => by simp [Outline.Plain] at hp
  | .array .closed, _ | .object .closed, _ => by
    simp only [Outline.tokens, Items.tokens, Members.tokens, List.cons_append, List.nil_append]
    rw [build_cons]
    exact build_cons ..
  | .array (.cut _), hp | .object (.cut _), hp => by
    simp [Outline.Plain, Items.Plain, Members.Plain] at hp
  | .array (.item o rest), hp => by
    rw [Outline.Plain, Items.Plain] at hp
    simp only [Outline.tokens, Items.tokens, List.cons_append, List.append_assoc, List.nil_append, if_true]
    rw [build_cons]
    change build .firstItem fs _ = _
    -- the first item is built like any other, on top of an array without items
    rw [build_firstItem hp.1, build_outline (.array [] :: fs) _ o hp.1]
    exact build_items fs [o] ts rest hp.2
  | .object (.member (.name (some k)) o rest), hp => by
    rw [Outline.Plain, Members.Plain] at hp
    simp only [Outline.tokens, Members.tokens, List.cons_append, List.append_assoc, List.nil_append, if_true]
    rw [build_cons]
    change build .firstKey fs _ = _
    rw [build_cons]
    change build (.colon [] (.name (some k))) fs _ = _
    rw [build_cons]
    change build .value (.member [] (.name (some k)) :: fs) _ = _
    rw [build_outline _ _ o hp.1]
    exact build_members fs [(.name (some k), o)] ts rest hp.2
  | .object (.member (.name none) _ _), hp | .object (.member (.broken _) _ _), hp => by
    simp [Outline.Plain, Members.Plain] at hp

theorem build_items (fs : List Frame) (done : List Outline) (ts : List Token) :
    (items : Items) → items.Plain →
      build (.afterItem done) fs (items.tokens false ++ (.closeArray :: ts)) =
        (deliver (.array (items.behind done)) fs).resume ts
  | .closed, _ => build_cons ..
  | .cut _, hp => by simp [Items.Plain] at hp
  | .item o rest, hp => by
    rw [Items.Plain] at hp
    simp only [Items.tokens, List.append_assoc, List.cons_append, List.nil_append, Bool.false_eq_true, if_false]
    rw [build_cons]
    change build .value (.array done :: fs) _ = _
    rw [build_outline _ _ o hp.1]
    exact build_items fs (o :: done) ts rest hp.2

theorem build_members (fs : List Frame) (done : List (Key × Outline)) (ts : List Token) :
    (members : Members) → members.Plain →
      build (.afterMember done) fs (members.tokens false ++ (.closeObject :: ts)) =
        (deliver (.object (members.behind done)) fs).resume ts
  | .closed, _ => build_cons ..
  | .cut _, hp | .member (.broken _) _ _, hp | .member (.name none) _ _, hp => by
    simp [Members.Plain] at hp
  | .member (.name (some k)) o rest, hp => by
    rw [Members.Plain] at hp
    simp only [Members.tokens, List.append_assoc, List.cons_append, List.nil_append, Bool.false_eq_true,
      if_false]
    rw [build_cons]
    change build (.nextKey done) fs _ = _
    rw [build_cons]
    change build (.colon done (.name (some k))) fs _ = _
    rw [build_cons]
    change build .value (.member done (.name (some k)) :: fs) _ = _
    rw [build_outline _ _ o hp.1]
    exact build_members fs ((.name (some k), o) :: done) ts rest hp.2

end

theorem ofTokens_tokens {o : Outline} (hp : o.Plain) : ofTokens o.tokens = ⟨o, false⟩ := by
  have hb := build_outline [] [] o hp
  rwa [List.append_nil] at hb

/-- What was printed is read as it was, in every layout that adds blanks only. -/
theorem ofBytes_render {l : Layout} (hl : l.Blank) {o : Outline} (hp : o.Plain) :
    ofBytes (o.render l) = ⟨o, false⟩ := by
  rw [ofBytes, Outline.ofBytes_render hl hp, ofTokens_tokens hp]

end SaveSlots.Document
