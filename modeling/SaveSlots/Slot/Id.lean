/-!
# Slot numbers

A slot has a number of 32 bits with a sign. Which numbers may be used is a matter of the preset:
`SlotRange` holds `0` to below its limit, or every number from `0` on if the limit is not positive.
-/

namespace SaveSlots

structure SlotId where
  number : Int32
deriving DecidableEq, Inhabited

namespace SlotId

instance : Ord SlotId := ⟨fun a b => compare a.number b.number⟩

instance : Std.TransOrd SlotId where
  eq_swap {a b} := Std.OrientedOrd.eq_swap (a := a.number) (b := b.number)
  isLE_trans {a b c} h₁ h₂ := by
    have h := @Std.TransCmp.isLE_trans Int32 compare _ a.number b.number c.number
    exact h h₁ h₂

instance : Std.LawfulEqOrd SlotId where
  compare_self {a} := Std.ReflOrd.compare_self (a := a.number)
  eq_of_compare {a b} h := by
    cases a; cases b
    exact congrArg _ (Std.LawfulEqOrd.eq_of_compare (α := Int32) h)

def toInt (id : SlotId) : Int := id.number.toInt

/-- The slot with a number, if the number fits. -/
def ofInt? (n : Int) : Option SlotId :=
  if Int32.minValue.toInt ≤ n ∧ n ≤ Int32.maxValue.toInt then some ⟨Int32.ofInt n⟩ else none

instance (n : Nat) : OfNat SlotId n := ⟨⟨OfNat.ofNat n⟩⟩

/-- How messages name a slot. -/
def text (id : SlotId) : String := s!"slot-{id.toInt}"

/-- The name of a slot that nobody named. -/
def defaultName (id : SlotId) : String := s!"Slot {id.toInt}"

end SlotId

/-- The slots that a preset allows. -/
structure SlotRange where
  limit : Int32
deriving DecidableEq, Inhabited

def SlotRange.contains (r : SlotRange) (id : SlotId) : Bool :=
  0 ≤ id.toInt && (r.limit.toInt ≤ 0 || id.toInt < r.limit.toInt)

end SaveSlots
