import SaveSlots.Json.Outline
/-!
# Writing JSON

`Outline.compact` writes an outline without any blanks, `Outline.indented` with one item or member a
line, two spaces deeper for each open bracket. Both are one printer with two layouts. In a string only
the quote, the backslash and the control characters are escaped.
-/

namespace SaveSlots

/-- What is written at the start of a line of a given depth, and behind a key. -/
structure Layout where
  line : Nat → Bytes
  colon : Bytes

def Layout.compact : Layout := ⟨fun _ => [], [58]⟩

def Layout.indented : Layout := ⟨fun depth => 10 :: List.replicate (2 * depth) 32, [58, 32]⟩

namespace Text

/-- The spelling of a byte inside a string. -/
def escape (b : UInt8) : Bytes :=
  if b = 34 then [92, 34]
  else if b = 92 then [92, 92]
  else if b < 32 then
    if b = 8 then [92, 98]
    else if b = 9 then [92, 116]
    else if b = 10 then [92, 110]
    else if b = 12 then [92, 102]
    else if b = 13 then [92, 114]
    else [92, 117, 48, 48, digit (b / 16), digit (b % 16)]
  else [b]
where
  digit (n : UInt8) : UInt8 := if n < 10 then 48 + n else 87 + n

/-- A string with its quotes. -/
def quoted (s : String) : Bytes :=
  34 :: (Bytes.ofText s).flatMap escape ++ [34]

end Text

/-! The printer writes onto the bytes `done`, which it holds with the last one first. -/

mutual

def Outline.print (l : Layout) (depth : Nat) (done : Bytes) : Outline → Bytes
  | .null => (Bytes.ofText "null").reverse ++ done
  | .bool b => (Bytes.ofText (if b then "true" else "false")).reverse ++ done
  | .number n => (n.map Number.text |>.getD []).reverse ++ done
  | .string s => (Text.quoted (s.getD "")).reverse ++ done
  | .array .closed => 93 :: 91 :: done
  | .array items =>
    93 :: ((l.line depth).reverse ++ items.print l (depth + 1) true (91 :: done))
  | .object .closed => 125 :: 123 :: done
  | .object members =>
    125 :: ((l.line depth).reverse ++ members.print l (depth + 1) true (123 :: done))
  | .broken _ => done

def Items.print (l : Layout) (depth : Nat) (first : Bool) (done : Bytes) : Items → Bytes
  | .closed | .cut _ => done
  | .item o rest =>
    let done := (l.line depth).reverse ++ if first then done else 44 :: done
    rest.print l depth false (o.print l depth done)

def Members.print (l : Layout) (depth : Nat) (first : Bool) (done : Bytes) : Members → Bytes
  | .closed | .cut _ => done
  | .member key o rest =>
    let done := (l.line depth).reverse ++ if first then done else 44 :: done
    let name :=
      match key with
      | .name s => Text.quoted (s.getD "")
      | .broken _ => []
    rest.print l depth false (o.print l depth (l.colon.reverse ++ name.reverse ++ done))

end

namespace Outline

def render (l : Layout) (o : Outline) : Bytes := (o.print l 0 []).reverse

def compact (o : Outline) : Bytes := o.render .compact

def indented (o : Outline) : Bytes := o.render .indented

end Outline

end SaveSlots
