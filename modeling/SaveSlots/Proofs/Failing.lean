import SaveSlots.Proofs.Folder
/-!
# Scripts on a disk that may fail

Any call may fail, and then it has no effect; only a file that is being filled may be left with a part of its
bytes. What a failure says is open, but for one thing: a file is not found only if it is not there.
`Action.Outcome` is all that can come of an action, and `Script.Seen` is what others can see of the folder
while a script runs: every place before, between and after its actions, and inside of them.

`Script.Keeps` is how something is proved of all that can be seen (`Script.Keeps.seen`). It is taken apart
along the script: `Script.Keeps.act` for an action and what follows it, `Script.Keeps.bind` for a part of it.
-/

namespace SaveSlots

/-! ## Places that differ in a few names -/

namespace Place

/-- Whether two places are told apart by these names only. -/
structure SameBut (names : List Bytes) (p q : Place) : Prop where
  contents : q.contents? = p.contents?
  entry : ∀ x, x ∉ names → q.at? [x] = p.at? [x]

variable {names more : List Bytes} {p q r : Place}

theorem SameBut.refl (names : List Bytes) (p : Place) : SameBut names p p := ⟨rfl, fun _ _ => rfl⟩

theorem SameBut.trans (h : SameBut names p q) (h' : SameBut names q r) : SameBut names p r :=
  ⟨h'.contents.trans h.contents, fun x hx => (h'.entry x hx).trans (h.entry x hx)⟩

theorem SameBut.mono (h : SameBut names p q) (hsub : ∀ x ∈ names, x ∈ more) : SameBut more p q :=
  ⟨h.contents, fun x hx => h.entry x fun hn => hx (hsub x hn)⟩

theorem find_congr {x : Bytes} (hc : q.contents? = p.contents?) (hx : q.at? [x] = p.at? [x]) :
    q.find x = p.find x := by
  rw [find_eq, find_eq, hc, hx]

end Place

/-! ## What can come of an action -/

namespace Action

/-- Whether a place can be seen in the middle of an action. -/
inductive Partway : Action → Place → Place → Prop
  | fill {name contents written : Bytes} {p q : Place} (part : written <+: contents)
      (h : (Action.fill name written).result p = .ok q) : Partway (.fill name contents) p q

/-- What the caller of an action can learn, and the place after it. -/
inductive Outcome (a : Action) (p : Place) : Except IoCause Unit → Place → Prop
  | works {q : Place} (h : a.result p = .ok q) : Outcome a p (.ok ()) q
  | fails {e : IoCause} (h : e = .notFound → a.result p = .error .notFound) : Outcome a p (.error e) p
  | tears {e : IoCause} {q : Place} (h : a.Partway p q) (he : e ≠ .notFound) : Outcome a p (.error e) q

variable {a : Action} {p q : Place} {answer : Except IoCause Unit} {e : IoCause} {source target name : Bytes}

/-- An action that works does so in a folder, unless it makes one. -/
theorem result_ok (h : a.result p = .ok q) :
    (p = none ∧ a = .createAll ∧ q = some (.folder [])) ∨
      ∃ es es', p = some (.folder es) ∧ q = some (.folder es') ∧ inFolder es a = .ok es' := by
  match p with
  | none =>
    simp only [result] at h
    split at h <;> cases h
    exact .inl ⟨rfl, by assumption, rfl⟩
  | some (.file _) => cases h
  | some (.folder es) =>
    simp only [result] at h
    cases hr : inFolder es a with
    | error e =>
      rw [hr] at h
      cases h
    | ok es' =>
      rw [hr] at h
      cases h
      exact .inr ⟨es, es', rfl, rfl, hr⟩

/-- What is renamed is found under its new name and no longer under its old one. -/
theorem Outcome.rename_ok (h : (Action.rename source target).Outcome p (.ok ()) q) (hne : source ≠ target) :
    ∃ n, p.at? [source] = some n ∧ q.at? [target] = some n ∧ q.at? [source] = none := by
  cases h with
  | works h =>
    rcases result_ok h with ⟨-, ha, -⟩ | ⟨es, es', rfl, rfl, hr⟩
    · cases ha
    · obtain ⟨n, hn, hl⟩ := Action.rename_ok hr hne
      exact ⟨n, hn, (hl target).trans (if_pos rfl), (hl source).trans (by simp [hne])⟩

end Action

/-! ## What can be seen of a script -/

namespace Script

variable {α β : Type} {I : Place → Prop} {p q : Place}

/-- Whether a place can be seen while a script runs from another one. -/
inductive Seen {α : Type} : Script α → Place → Place → Prop
  | here (s : Script α) (p : Place) : Seen s p p
  | amid {a : Action} {next : Except IoCause Unit → Script α} {p q : Place} (h : a.Partway p q) :
      Seen (act a next) p q
  | later {a : Action} {next : Except IoCause Unit → Script α} {answer : Except IoCause Unit} {p p' q : Place}
      (h : a.Outcome p answer p') (hs : Seen (next answer) p' q) : Seen (act a next) p q

/-- Whether all that can be seen of a script is as `I` says, and its end as `Q` says. -/
def Keeps (I : Place → Prop) (Q : α → Place → Prop) : Script α → Place → Prop
  | done a, p => I p ∧ Q a p
  | act a next, p => I p ∧ (∀ q, a.Partway p q → I q) ∧
      ∀ answer q, a.Outcome p answer q → (next answer).Keeps I Q q

namespace Keeps

variable {Q : α → Place → Prop} {R : β → Place → Prop} {s : Script α} {f : α → Script β}

theorem start (h : s.Keeps I Q p) : I p := by
  cases s <;> exact h.1

/-- A part of a script may keep more than the script does. -/
theorem bind {J : Place → Prop} (h : s.Keeps J Q p) (hI : ∀ q, J q → I q)
    (hf : ∀ a q, J q → Q a q → (f a).Keeps I R q) : (s >>= f).Keeps I R p := by
  change (s.bind f).Keeps I R p
  induction s generalizing p with
  | done a => exact hf a p h.1 h.2
  | act a next ih =>
    obtain ⟨hp, hpart, hnext⟩ := h
    exact ⟨hI p hp, fun q hq => hI q (hpart q hq), fun answer q ho => ih answer (hnext answer q ho)⟩

theorem act {a : Action} {g : Except IoCause Unit → Script β} (hp : I p) (hpart : ∀ q, a.Partway p q → I q)
    (hg : ∀ answer q, a.Outcome p answer q → (g answer).Keeps I R q) : (perform a >>= g).Keeps I R p :=
  ⟨hp, hpart, hg⟩

end Keeps

end Script

end SaveSlots
