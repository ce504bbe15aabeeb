import SaveSlots.Json.Outline
/-!
# Reading values of a wanted type

A `Reader α` turns an outline into a value of type `α` or tells the first fault that it meets, from
left to right. `room` bounds how many more brackets may be opened; `Reader.run` starts with 127.

A record is read by its `Shape`: from an object with its fields in any order, or from an array of its
fields in their declared order. Unknown fields are skipped; what they hold has to be JSON, but is free
in depth and in the size of its numbers.
-/

namespace SaveSlots

abbrev Reader (α : Type) := (room : Nat) → Outline → Except Fault α

mutual

/-- The first fault that skipping an outline meets. -/
def Outline.skipFault? : Outline → Option Fault
  | .array items => items.skipFault?
  | .object members => members.skipFault?
  | .broken f => some f.skip
  | _ => none

def Items.skipFault? : Items → Option Fault
  | .closed => none
  | .cut f => some f
  | .item o rest =>
    match o.skipFault? with
    | some f => some f
    | none => rest.skipFault?

def Members.skipFault? : Members → Option Fault
  | .closed => none
  | .cut f => some f
  | .member (.broken f) _ _ => some f.skip
  | .member (.name _) o rest =>
    match o.skipFault? with
    | some f => some f
    | none => rest.skipFault?

end

/-- Reads every item, onto the values `done`, which it holds with the last one first. -/
def Items.read {α : Type} (read : Outline → Except Fault α) (done : List α) :
    Items → Except Fault (List α)
  | .closed => .ok done.reverse
  | .cut f => .error f
  | .item o rest =>
    match read o with
    | .ok a => rest.read read (a :: done)
    | .error f => .error f

/-- Reads every member, onto the values `done`, which it holds with the last one first. -/
def Members.read {α : Type} (read : String → Outline → Except Fault α) (done : List α) :
    Members → Except Fault (List α)
  | .closed => .ok done.reverse
  | .cut f => .error f
  | .member (.broken f) _ _ => .error f.named
  | .member (.name none) _ _ => .error .malformed
  | .member (.name (some k)) o rest =>
    match read k o with
    | .ok a => rest.read read (a :: done)
    | .error f => .error f

namespace Reader

def bool : Reader Bool
  | _, .bool b => .ok b
  | _, o => .error o.mismatch

def string : Reader String
  | _, .string (some s) => .ok s
  | _, o => .error o.mismatch

/-- A whole number from `low` to `high`, written without point and exponent. -/
def integer (low high : Int) : Reader Int
  | _, .number (some (.int n)) => if low ≤ n ∧ n ≤ high then .ok n else .error .mismatched
  | _, o => .error o.mismatch

/-- A whole number below `2 ^ bits`. -/
def natural (bits : Nat) : Reader Nat := fun room o =>
  (integer 0 (Nat.pow 2 bits - 1 : Nat) room o).map Int.toNat

def byte : Reader UInt8 := fun room o =>
  (natural 8 room o).map UInt8.ofNat

def list {α : Type} (item : Reader α) : Reader (List α)
  | 0, .array _ => .error .malformed
  | room + 1, .array items => items.read (item room) []
  | _, o => .error o.mismatch

/-- A value under every key, in the order of the text. -/
def table {α : Type} (value : Reader α) : Reader (List (String × α))
  | 0, .object _ => .error .malformed
  | room + 1, .object members =>
    members.read (fun k o => (value room o).map fun a => (k, a)) []
  | _, o => .error o.mismatch

/-- Null stands for no value. -/
def optional {α : Type} (value : Reader α) : Reader (Option α)
  | _, .null => .ok none
  | room, o => (value room o).map some

/-- A text that has to spell a value. -/
def spelled {α : Type} (parse : String → Option α) : Reader α := fun room o =>
  match string room o with
  | .ok s =>
    match parse s with
    | some a => .ok a
    | none => .error .mismatched
  | .error f => .error f

/-! ## One of several names -/

def lookUp {α : Type} (names : List (String × α)) (s : String) : Except Fault α :=
  match names.lookup s with
  | some a => .ok a
  | none => .error .mismatched

/-- A name as a string, or as the only key of an object that holds null under it. -/
def oneOf {α : Type} (names : List (String × α)) : Reader α
  | _, .string (some s) => lookUp names s
  | _, .broken f => .error f.named
  | 0, .object _ => .error .malformed
  | _ + 1, .object (.member (.broken f) _ _) => .error f.named
  | _ + 1, .object (.member (.name (some k)) o rest) =>
    match lookUp names k with
    | .error f => .error f
    | .ok a =>
      match o, rest with
      | .null, .closed => .ok a
      | .null, .cut f => .error f
      | .null, .member _ _ _ => .error .malformed
      | o, _ => .error o.mismatch
  | _, _ => .error .malformed

/-! ## Records -/

/-- A field of a record that is being read into a draft `δ`. -/
structure Field (δ : Type) where
  name : String
  /-- Whether the draft has a value for the field. -/
  filled : δ → Bool
  /-- Reads the value of the field into the draft. -/
  fill : Nat → Outline → δ → Except Fault δ

/-- How a record is read. -/
structure Shape (δ α : Type) where
  draft : δ
  /-- In their declared order. -/
  fields : List (Field δ)
  /-- Whether an unknown field is refused. -/
  strict : Bool
  /-- The record of a draft, unless a field that has no default is missing. -/
  finish : δ → Option α

variable {δ α : Type}

/-- Fills the fields in their order from the items of an array. Answers the items left over. -/
def fillItems (room : Nat) : List (Field δ) → Items → δ → Except Fault (δ × Items)
  | [], items, d => .ok (d, items)
  | _ :: _, .closed, d => .ok (d, .closed)
  | _ :: _, .cut f, _ => .error f
  | field :: fields, .item o rest, d =>
    match field.fill room o d with
    | .ok d => fillItems room fields rest d
    | .error f => .error f

/-- Fills the fields that the members name. A field must not be named twice. -/
def fillMembers (shape : Shape δ α) (room : Nat) : Members → δ → Except Fault δ
  | .closed, d => .ok d
  | .cut f, _ => .error f
  | .member (.broken f) _ _, _ => .error f.named
  | .member (.name none) _ _, _ => .error .malformed
  | .member (.name (some k)) o rest, d =>
    match shape.fields.find? fun field => field.name == k with
    | some field =>
      if field.filled d then .error .mismatched
      else
        match field.fill room o d with
        | .ok d => fillMembers shape room rest d
        | .error f => .error f
    | none =>
      if shape.strict then .error .mismatched
      else
        match o.skipFault? with
        | some f => .error f
        | none => fillMembers shape room rest d

def finish (shape : Shape δ α) (d : δ) : Except Fault α :=
  match shape.finish d with
  | some a => .ok a
  | none => .error .mismatched

/-- A record, from an object or from an array. An array must not go on behind the last field. -/
def record (shape : Shape δ α) : Reader α
  | 0, .array _ | 0, .object _ => .error .malformed
  | room + 1, .array items =>
    match fillItems room shape.fields items shape.draft with
    | .error f => .error f
    | .ok (d, rest) =>
      match finish shape d, rest with
      | .error f, _ => .error f
      | .ok a, .closed => .ok a
      | .ok _, .cut f => .error f
      | .ok _, .item _ _ => .error .malformed
  | room + 1, .object members =>
    match fillMembers shape room members shape.draft with
    | .ok d => finish shape d
    | .error f => .error f
  | _, o => .error o.mismatch

/-- A field that keeps its value in the draft until the record is finished. -/
def field {β : Type} (name : String) (read : Reader β) (get : δ → Option β)
    (set : δ → Option β → δ) : Field δ where
  name
  filled d := (get d).isSome
  fill room o d := (read room o).map fun b => set d (some b)

/-! ## Whole texts -/

/-- How many brackets a text may have open at once. -/
def depthLimit : Nat := 127

/-- Reads a text with room for `room` open brackets; nothing but blanks may stand behind the value. -/
def runWithin (room : Nat) (read : Reader α) (text : Bytes) : Except Fault α :=
  let document := Document.ofBytes text
  match read room document.root with
  | .ok a => if document.trailing then .error .malformed else .ok a
  | .error f => .error f

def run (read : Reader α) (text : Bytes) : Except Fault α :=
  runWithin depthLimit read text

end Reader

end SaveSlots
