import SaveSlots.Json.Token
/-!
# Outlines

An `Outline` is the tree of brackets, members and scalars of a text, in the order of the text, as far
as the text is JSON. Where it stops being JSON the outline holds a mark that says what a reader meets
there, so reading an outline from left to right finds the first fault of the text. A text that is JSON
to its end has an outline without marks.

`Document.ofTokens` builds the outline with a stack of the open brackets, one token a step.
-/

namespace SaveSlots

/-- What stops a reader at a place where the text is broken: one that reads a value there, one that
skips a value, and one that accepts nothing but a string. -/
structure Flaw where
  read : Fault
  skip : Fault
  named : Fault
deriving DecidableEq, Inhabited

def Flaw.all (f : Fault) : Flaw := ⟨f, f, f⟩

/-- What stands in the place of a key. -/
inductive Key where
  /-- A string, with the text it stands for if there is one. -/
  | name (s : Option String)
  | broken (f : Flaw)
deriving DecidableEq, Inhabited

mutual

inductive Outline where
  | null
  | bool (b : Bool)
  | number (n : Option Number)
  | string (s : Option String)
  | array (items : Items)
  | object (members : Members)
  /-- No value can be read here. -/
  | broken (f : Flaw)

/-- The items of an array, to its closing bracket or to where the text stops being JSON. -/
inductive Items where
  | closed
  | cut (f : Fault)
  | item (head : Outline) (rest : Items)

/-- The members of an object, to its closing bracket or to where the text stops being JSON. -/
inductive Members where
  | closed
  | cut (f : Fault)
  | member (key : Key) (value : Outline) (rest : Members)

end

deriving instance Inhabited for Outline, Items, Members

/-- Puts the items of `done`, the last one first, in front of `rest`. -/
def Items.behind (done : List Outline) (rest : Items) : Items :=
  done.foldl (fun is o => .item o is) rest

/-- Puts the members of `done`, the last one first, in front of `rest`. -/
def Members.behind (done : List (Key × Outline)) (rest : Members) : Members :=
  done.foldl (fun ms m => .member m.1 m.2 ms) rest

/-- The items of a list, to its end. -/
def Items.ofList (os : List Outline) : Items := behind os.reverse .closed

@[simp]
theorem Items.ofList_nil : ofList [] = .closed := rfl

@[simp]
theorem Items.ofList_cons (o : Outline) (os : List Outline) :
    ofList (o :: os) = .item o (ofList os) := by
  simp [ofList, behind]

/-- The members with these names and values, to the end. -/
def Members.ofList : List (String × Outline) → Members
  | [] => .closed
  | (k, o) :: ms => .member (.name (some k)) o (ofList ms)

namespace Outline

def list (os : List Outline) : Outline := .array (.ofList os)

def fields (ms : List (String × Outline)) : Outline := .object (.ofList ms)

def text (s : String) : Outline := .string (some s)

def int (n : Int) : Outline := .number (some (.int n))

/-- Why a reader that wants something else cannot use this outline. A bracket is of the wrong type as
soon as it opens; a scalar is read to its end first. -/
def mismatch : Outline → Fault
  | .number none | .string none => .malformed
  | .broken f => f.read
  | _ => .mismatched

end Outline

namespace Token

/-- What stops a reader that wants a value where this token stands. -/
def flaw : Token → Flaw
  | .broken true read skip => ⟨read, skip, read⟩
  | .broken false read skip => ⟨read, skip, .malformed⟩
  | _ => .all .malformed

/-- The value that a token is by itself. -/
def scalar? : Token → Option Outline
  | .null => some .null
  | .bool b => some (.bool b)
  | .number n => some (.number n)
  | .string s => some (.string s)
  | _ => none

/-- What stops a reader that wants a key where this token stands, which is not a string. -/
def keyFlaw : Token → Flaw
  | .broken true read skip => ⟨read, skip, read⟩
  | _ => .all .malformed

end Token

/-- An open bracket whose next item or member value is being read. What came before is kept with the
last one first. -/
inductive Frame where
  | array (items : List Outline)
  | member (members : List (Key × Outline)) (key : Key)

/-- What the next token may be. Brackets that wait for the value are frames and not part of it. -/
inductive Position where
  | value
  | firstItem
  | afterItem (items : List Outline)
  | firstKey
  | nextKey (members : List (Key × Outline))
  | colon (members : List (Key × Outline)) (key : Key)
  | afterMember (members : List (Key × Outline))

/-- The outline of a text, and whether anything but blanks stands behind it. -/
structure Document where
  root : Outline
  trailing : Bool

namespace Document

/-- One token further: at another position, at the end of the root, or where the text is broken. -/
inductive Progress where
  | at (position : Position) (frames : List Frame)
  | finished (root : Outline)
  | stopped (root : Outline)

/-- A whole value has been read. -/
def deliver (o : Outline) : List Frame → Progress
  | [] => .finished o
  | .array items :: fs => .at (.afterItem (o :: items)) fs
  | .member ms k :: fs => .at (.afterMember ((k, o) :: ms)) fs

/-- Closes the brackets around the place where the text is broken; no reader gets behind it. -/
def unwind (o : Outline) : List Frame → Outline
  | [] => o
  | .array items :: fs => unwind (.array (Items.behind items (.item o (.cut .malformed)))) fs
  | .member ms k :: fs => unwind (.object (Members.behind ms (.member k o (.cut .malformed)))) fs

/-- What a reader meets if the text is broken at a position: `f` stands there, and `key` if a key was
wanted. -/
def broken (f key : Flaw) : Position → List Frame → Outline
  | .value, fs => unwind (.broken f) fs
  | .firstItem, fs => unwind (.array (.item (.broken f) (.cut f.named))) fs
  | .afterItem items, fs => unwind (.array (Items.behind items (.cut f.named))) fs
  | .firstKey, fs => unwind (.object (.member (.broken key) .null (.cut f.named))) fs
  | .nextKey ms, fs =>
    unwind (.object (Members.behind ms (.member (.broken key) .null (.cut f.named)))) fs
  | .colon ms k, fs =>
    unwind (.object (Members.behind ms (.member k (.broken (.all f.named)) (.cut f.named)))) fs
  | .afterMember ms, fs => unwind (.object (Members.behind ms (.cut f.named))) fs

/-- A token where a value is wanted. -/
def value (t : Token) (fs : List Frame) : Progress :=
  match t with
  | .openArray => .at .firstItem fs
  | .openObject => .at .firstKey fs
  | t =>
    match t.scalar? with
    | some o => deliver o fs
    | none => .stopped (broken t.flaw t.keyFlaw .value fs)

/-- One token further. Where a comma or a colon is wanted, anything else is a fault of the text and not
of the token that stands there. -/
def step (p : Position) (fs : List Frame) (t : Token) : Progress :=
  match p, t with
  | .value, t => value t fs
  | .firstItem, .closeArray => deliver (.array .closed) fs
  | .firstItem, t => value t (.array [] :: fs)
  | .afterItem items, .comma => .at .value (.array items :: fs)
  | .afterItem items, .closeArray => deliver (.array (Items.behind items .closed)) fs
  | .firstKey, .closeObject => deliver (.object .closed) fs
  | .firstKey, .string s => .at (.colon [] (.name s)) fs
  | .nextKey ms, .string s => .at (.colon ms (.name s)) fs
  | .colon ms k, .colon => .at .value (.member ms k :: fs)
  | .afterMember ms, .comma => .at (.nextKey ms) fs
  | .afterMember ms, .closeObject => deliver (.object (Members.behind ms .closed)) fs
  | p, t => .stopped (broken (.all .malformed) t.keyFlaw p fs)

def build (p : Position) (fs : List Frame) : List Token → Document
  | [] => ⟨broken (.all .truncated) (.all .truncated) p fs, false⟩
  | t :: ts =>
    match step p fs t with
    | .at p fs => build p fs ts
    | .finished o => ⟨o, !ts.isEmpty⟩
    | .stopped o => ⟨o, false⟩

def ofTokens (ts : List Token) : Document := build .value [] ts

def ofBytes (s : Bytes) : Document := ofTokens (Token.ofBytes s)

end Document

end SaveSlots
