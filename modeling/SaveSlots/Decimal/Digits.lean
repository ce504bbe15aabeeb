import SaveSlots.Bytes
/-!
# Decimal digits

The decimal spelling of whole numbers as bytes: `digits` writes, `value` reads, and
`value_digits` says that reading undoes writing. `spell` adds the sign.
-/

namespace SaveSlots.Decimal

def isDigit (b : UInt8) : Bool := 48 ≤ b && b ≤ 57

/-- The canonical spelling: no leading zero, and `0` for zero. -/
def digits (n : Nat) : Bytes :=
  (Nat.toDigits 10 n).map fun c => UInt8.ofNat c.toNat

/-- The number that a row of digits spells. -/
def value (ds : Bytes) : Nat :=
  ds.foldl (fun n d => 10 * n + (d.toNat - 48)) 0

/-- The spelling of a signed number. -/
def spell (n : Int) : Bytes :=
  match n with
  | .ofNat n => digits n
  | .negSucc n => 45 :: digits (n + 1)

/-- Exactly `width` digits of `n`: the low ones, with zeros in front. -/
def padded : (width : Nat) → (n : Nat) → Bytes
  | 0, _ => []
  | w + 1, n => padded w (n / 10) ++ [UInt8.ofNat (48 + n % 10)]

theorem value_digits (n : Nat) : value (digits n) = n := by
  have hd : ∀ c ∈ Nat.toDigits 10 n, c.isDigit = true := fun c hc =>
    Nat.isDigit_of_mem_toDigits (by decide) (by decide) hc
  have key : ∀ (cs : List Char), (∀ c ∈ cs, c.isDigit = true) → ∀ a : Nat,
      (cs.map fun c => UInt8.ofNat c.toNat).foldl (fun n d => 10 * n + (d.toNat - 48)) a =
        Nat.ofDigitChars 10 cs a := by
    intro cs
    induction cs with
    | nil => intro _ a; rfl
    | cons c cs ih =>
      intro h a
      have hc : c.isDigit = true := h c (by simp)
      have h1 : c.toNat < 256 := by
        simp only [Char.isDigit, Bool.and_eq_true, decide_eq_true_eq] at hc
        have := UInt32.le_iff_toNat_le.1 hc.2
        have h9 : '9'.val.toNat = 57 := rfl
        simp only [Char.toNat]
        omega
      have h2 : (UInt8.ofNat c.toNat).toNat = c.toNat := by
        simp [Nat.mod_eq_of_lt h1]
      rw [List.map_cons, List.foldl_cons, h2, ih (fun d hd => h d (by simp [hd]))]
      rw [Nat.ofDigitChars_cons]
      rfl
  exact (key _ hd 0).trans (Nat.ofDigitChars_toDigits (by decide) (by decide))

end SaveSlots.Decimal
