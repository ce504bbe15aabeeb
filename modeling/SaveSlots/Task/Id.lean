import SaveSlots.Bytes
/-!
# Task numbers

A `TaskId` has 128 bits: 48 of the time at which it was made, in milliseconds since 1970, above 80
bits that tell tasks of one millisecond apart. Its spelling has 26 digits of five bits each; the
alphabet leaves out the letters I, L, O and U, and its order is that of the characters.
-/

namespace SaveSlots

structure TaskId where
  value : Nat
  bound : value < 0x100000000000000000000000000000000
deriving DecidableEq

namespace TaskId

instance : Inhabited TaskId := ⟨⟨0, by decide⟩⟩

/-- The low 128 bits of a number. -/
def ofNat (n : Nat) : TaskId := ⟨n % 0x100000000000000000000000000000000, Nat.mod_lt _ (by decide)⟩

/-- The time counts modulo `2 ^ 48`, and `rest` modulo `2 ^ 80`. -/
def ofParts (millis : Int) (rest : Nat) : TaskId :=
  ofNat ((millis % 0x1000000000000).toNat * 0x100000000000000000000 + rest % 0x100000000000000000000)

/-- The upper 48 bits. -/
def millis (id : TaskId) : Nat := id.value / 0x100000000000000000000

theorem millis_ofParts (millis : Int) (rest : Nat) :
    (ofParts millis rest).millis = (millis % 0x1000000000000).toNat := by
  simp only [ofParts, TaskId.millis, ofNat]
  omega

instance : Ord TaskId := ⟨fun a b => compare a.value b.value⟩

/-! ## Spelling -/

/-- The 32 digits in their order. -/
def alphabet : List Char := "0123456789ABCDEFGHJKMNPQRSTVWXYZ".toList

def digit (n : Nat) : Char := alphabet.getD n '0'

/-- The low `width` digits of `n`. -/
def digits : (width : Nat) → (n : Nat) → List Char
  | 0, _ => []
  | w + 1, n => digits w (n / 32) ++ [digit (n % 32)]

/-- The 26 digits of an id. -/
def spelling (id : TaskId) : String := String.ofList (digits 26 id.value)

/-- How messages name a task. -/
def text (id : TaskId) : String := "task-" ++ id.spelling

/-- Why a text spells no id. -/
inductive SpellingError where
  | length
  | digit
deriving DecidableEq

/-- The value of a digit of either case. -/
def digitValue? (c : Char) : Option Nat := alphabet.idxOf? c.toUpper

/-- Reads a spelling. It has 26 bytes; bits beyond the 128th are dropped. -/
def ofSpelling (s : String) : Except SpellingError TaskId :=
  if s.utf8ByteSize ≠ 26 then .error .length
  else
    match s.toList.mapM digitValue? with
    | some ds => .ok (ofNat (ds.foldl (fun n d => n * 32 + d) 0))
    | none => .error .digit

end TaskId

end SaveSlots
