import SaveSlots.Json.Number
/-!
# Tokens of a JSON text

`tokens` cuts a text into brackets, marks, literals, numbers and strings. Cutting never fails: where
the text stops being JSON the list ends with a `broken` token that says what a reader meets there.

Two kinds of token are well formed but name no value: a number too large for a double, and a string
that is no text (bytes that are not UTF-8, or half of a surrogate pair). They hold `none`, and are an
error only for a reader that wants their value.
-/

namespace SaveSlots

inductive Token where
  | openArray
  | closeArray
  | openObject
  | closeObject
  | colon
  | comma
  | null
  | bool (b : Bool)
  | number (n : Option Number)
  | string (s : Option String)
  /-- The text is not JSON from here on: whether a string begins here, what stops a reader, and what
  stops one that skips the value. -/
  | broken (inString : Bool) (read skip : Fault)
deriving DecidableEq, Inhabited

namespace Token

/-! ## Strings -/

/-- A part of a string: a byte, or a UTF-16 unit that is spelled as an escape. -/
inductive Piece where
  | byte (b : UInt8)
  | unit (u : Nat)
deriving DecidableEq

/-- The byte that a one-letter escape stands for. -/
def escaped? (letter : UInt8) : Option UInt8 :=
  if letter = 34 ∨ letter = 92 ∨ letter = 47 then some letter
  else if letter = 98 then some 8
  else if letter = 102 then some 12
  else if letter = 110 then some 10
  else if letter = 114 then some 13
  else if letter = 116 then some 9
  else none

/-- The unit that four hexadecimal digits spell. -/
def unit? (a b c d : UInt8) : Option Nat := do
  let a ← Bytes.hexDigit? a
  let b ← Bytes.hexDigit? b
  let c ← Bytes.hexDigit? c
  let d ← Bytes.hexDigit? d
  return ((a * 16 + b) * 16 + c) * 16 + d

/-- Reads a string behind its opening quote. Answers the parts read, the last one first, and what is
behind the closing quote. -/
def scanString (parts : List Piece) : Bytes → List Piece × Except Fault Bytes
  | [] => (parts, .error .truncated)
  | b :: s =>
    if b = 34 then (parts, .ok s)
    else if b = 92 then
      match s with
      | [] => (parts, .error .truncated)
      | e :: s =>
        if e = 117 then
          match s with
          | h₁ :: h₂ :: h₃ :: h₄ :: s =>
            match unit? h₁ h₂ h₃ h₄ with
            | some u => scanString (.unit u :: parts) s
            | none => (parts, .error .malformed)
          | _ => (parts, .error .truncated)
        else
          match escaped? e with
          | some c => scanString (.byte c :: parts) s
          | none => (parts, .error .malformed)
    else if b < 32 then (parts, .error .malformed)
    else scanString (.byte b :: parts) s

def isHighHalf (u : Nat) : Bool := 0xD800 ≤ u && u ≤ 0xDBFF
def isLowHalf (u : Nat) : Bool := 0xDC00 ≤ u && u ≤ 0xDFFF

/-- The bytes of a string, onto `done`, which holds the last byte first. A high half must be followed
by a low one, and a low half must follow a high one. -/
def joinPieces : List Piece → (done : Bytes) → Option Bytes
  | [], done => some done.reverse
  | .byte b :: ps, done => joinPieces ps (b :: done)
  | .unit u :: ps, done =>
    if isHighHalf u then
      match ps with
      | .unit v :: ps =>
        if isLowHalf v then
          let c := Char.ofNat (0x10000 + (u - 0xD800) * 0x400 + (v - 0xDC00))
          joinPieces ps ((String.utf8EncodeChar c).reverse ++ done)
        else none
      | _ => none
    else if isLowHalf u then none
    else joinPieces ps ((String.utf8EncodeChar (Char.ofNat u)).reverse ++ done)

/-- Whether some half can no longer find its other half; a high half at the very end still can. -/
def hasLoneHalf : List Piece → Bool
  | [] => false
  | .byte _ :: ps => hasLoneHalf ps
  | .unit u :: ps =>
    if isHighHalf u then
      match ps with
      | [] => false
      | .unit v :: ps => !isLowHalf v || hasLoneHalf ps
      | .byte _ :: _ => true
    else isLowHalf u || hasLoneHalf ps

/-- The string token behind an opening quote. -/
def string? (s : Bytes) : Token × Bytes :=
  match scanString [] s with
  | (parts, .ok rest) => (.string ((joinPieces parts.reverse []).bind Bytes.text?), rest)
  | (parts, .error f) => (.broken true (if hasLoneHalf parts.reverse then .malformed else f) f, [])

/-! ## Words and numbers -/

/-- Takes the bytes of `word` off the front of a text. -/
def scanWord : (word : Bytes) → Bytes → Except Fault Bytes
  | [], s => .ok s
  | _ :: _, [] => .error .truncated
  | w :: ws, b :: s => if b = w then scanWord ws s else .error .malformed

/-- The token of a literal whose first letter has been read. -/
def word (rest : String) (t : Token) (s : Bytes) : Token × Bytes :=
  match scanWord (Bytes.ofText rest) s with
  | .ok s => (t, s)
  | .error f => (.broken false f f, [])

/-- The token of a number. One that is skipped is only looked at for its form. -/
def numeral (s : Bytes) : Token × Bytes :=
  match Numeral.scan s with
  | .ok (n, rest) => (.number n.number?, rest)
  | .error f => (.broken false f .malformed, [])

/-! ## Cutting a text -/

def isBlank (b : UInt8) : Bool := b = 32 || b = 9 || b = 10 || b = 13

/-- The token that a byte is by itself. -/
def mark? (b : UInt8) : Option Token :=
  if b = 123 then some .openObject
  else if b = 125 then some .closeObject
  else if b = 91 then some .openArray
  else if b = 93 then some .closeArray
  else if b = 58 then some .colon
  else if b = 44 then some .comma
  else none

/-- The literal that begins with a letter: its other letters and its token. -/
def literal? (b : UInt8) : Option (String × Token) :=
  if b = 110 then some ("ull", .null)
  else if b = 116 then some ("rue", .bool true)
  else if b = 102 then some ("alse", .bool false)
  else none

/-- The token that begins with the byte `b`, and what is behind it. -/
def next (b : UInt8) (s : Bytes) : Token × Bytes :=
  match mark? b with
  | some t => (t, s)
  | none =>
    if b = 34 then string? s
    else
      match literal? b with
      | some (rest, t) => word rest t s
      | none =>
        if b = 45 ∨ Decimal.isDigit b then numeral (b :: s)
        else (.broken false .malformed .malformed, [])

theorem length_scanWord {w s rest : Bytes} (h : scanWord w s = .ok rest) :
    rest.length ≤ s.length := by
  induction w generalizing s with
  | nil => simp [scanWord] at h; simp [h]
  | cons a w ih =>
    cases s with
    | nil => simp [scanWord] at h
    | cons b s =>
      rw [scanWord] at h
      split at h
      · have := ih h
        simp only [List.length_cons]
        omega
      · simp at h

theorem length_scanString {parts ps : List Piece} {s rest : Bytes}
    (h : scanString parts s = (ps, .ok rest)) : rest.length < s.length := by
  fun_induction scanString parts s <;> simp_all <;> omega

theorem length_next (b : UInt8) (s : Bytes) : (next b s).2.length ≤ s.length := by
  have hword : ∀ r t, (word r t s).2.length ≤ s.length := by
    intro r t
    rw [word]
    split
    · next h => exact length_scanWord h
    · simp
  have hstring : (string? s).2.length ≤ s.length := by
    rw [string?]
    split
    · next h => exact Nat.le_of_lt (length_scanString h)
    · simp
  have hnumeral : (numeral (b :: s)).2.length ≤ s.length := by
    rw [numeral]
    split
    · next h =>
      have := Numeral.length_scan h
      simp only [List.length_cons] at this
      exact Nat.le_of_lt_succ this
    · simp
  rw [next]
  repeat' split
  all_goals
    first
    | exact Nat.le_refl _
    | exact hstring
    | exact hword _ _
    | exact hnumeral
    | exact Nat.zero_le _

/-- Cuts a text, onto the tokens `done`, which holds the last one first. -/
def cut (done : List Token) : Bytes → List Token
  | [] => done.reverse
  | b :: s =>
    if isBlank b then cut done s
    else cut ((next b s).1 :: done) (next b s).2
termination_by s => s.length
decreasing_by
  · simp
  · have := length_next b s
    simp only [List.length_cons]
    omega

/-- The tokens of a text. -/
def ofBytes (s : Bytes) : List Token := cut [] s

end Token

end SaveSlots
