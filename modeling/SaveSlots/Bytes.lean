/-!
# Byte strings

Payloads, files and encoded text are lists of bytes. `Bytes.ofText` is the UTF-8 form of a text and
`Bytes.text?` reads it back; `text?_ofText` says that nothing is lost on the way.
-/

namespace SaveSlots

abbrev Bytes := List UInt8

namespace Bytes

/-- The UTF-8 form of a text. -/
def ofText (s : String) : Bytes :=
  s.toByteArray.data.toList

/-- The text whose UTF-8 form these bytes are, if there is one. -/
def text? (b : Bytes) : Option String :=
  String.fromUTF8? ⟨b.toArray⟩

@[simp]
theorem text?_ofText (s : String) : text? (ofText s) = some s := by
  have h : (⟨(ofText s).toArray⟩ : ByteArray) = s.toByteArray := by
    simp [ofText]
  rw [text?, h, String.fromUTF8?, dif_pos s.isValidUTF8]
  rfl

/-- Hexadecimal spelling with small letters, two digits a byte. -/
def hex (b : Bytes) : String :=
  String.ofList (b.flatMap fun x => [digit (x.toNat / 16), digit (x.toNat % 16)])
where
  digit (n : Nat) : Char := if n < 10 then Char.ofNat (48 + n) else Char.ofNat (87 + n)

/-- The value of a hexadecimal digit of either case. -/
def hexDigit? (b : UInt8) : Option Nat :=
  if 48 ≤ b ∧ b ≤ 57 then some (b.toNat - 48)
  else if 97 ≤ b ∧ b ≤ 102 then some (b.toNat - 87)
  else if 65 ≤ b ∧ b ≤ 70 then some (b.toNat - 55)
  else none

/-- Reads a hexadecimal spelling, two digits a byte. -/
def ofHex? : Bytes → Option Bytes
  | [] => some []
  | [_] => none
  | a :: b :: rest => do
    let hi ← hexDigit? a
    let lo ← hexDigit? b
    return UInt8.ofNat (hi * 16 + lo) :: (← ofHex? rest)

end Bytes

end SaveSlots
