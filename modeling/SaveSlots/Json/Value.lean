import SaveSlots.Catalog
import SaveSlots.Json.Printer
import SaveSlots.Json.Reader
/-!
# Opaque values

A `Json` value is kept for someone else: nothing in it is looked at. The fields of an object are in
the order of their names, each name once, as `Json.ofFields` makes them; when a text names a field
twice the later value counts.
-/

namespace SaveSlots

inductive Json where
  | null
  | bool (b : Bool)
  | number (n : Number)
  | string (s : String)
  | array (items : List Json)
  | object (fields : List (String × Json))
deriving Inhabited

namespace Json

/-- An object with these fields, put into order. -/
def ofFields (fields : List (String × Json)) : Json :=
  .object (fields.foldl (fun fs f => Catalog.insertInto Prod.fst f fs) [])

def ofInt (n : Int) : Json := .number (.int n)

/-- The value of a field of an object. -/
def get? (name : String) : Json → Option Json
  | .object fields => fields.lookup name
  | _ => none

/-! ## Writing -/

mutual

def toOutline : Json → Outline
  | .null => .null
  | .bool b => .bool b
  | .number n => .number (some n)
  | .string s => .string (some s)
  | .array items => .array (itemsOutline items)
  | .object fields => .object (fieldsOutline fields)

def itemsOutline : List Json → Items
  | [] => .closed
  | j :: js => .item j.toOutline (itemsOutline js)

def fieldsOutline : List (String × Json) → Members
  | [] => .closed
  | (k, j) :: fs => .member (.name (some k)) j.toOutline (fieldsOutline fs)

end

/-! ## Reading -/

mutual

def ofOutline (room : Nat) : Outline → Except Fault Json
  | .null => .ok .null
  | .bool b => .ok (.bool b)
  | .number (some n) => .ok (.number n)
  | .number none => .error .malformed
  | .string (some s) => .ok (.string s)
  | .string none => .error .malformed
  | .array items =>
    match room with
    | 0 => .error .malformed
    | room + 1 => (ofItems room [] items).map .array
  | .object members =>
    match room with
    | 0 => .error .malformed
    | room + 1 => (ofMembers room [] members).map .object
  | .broken f => .error f.read

/-- Reads items onto `done`, which holds the last one first. -/
def ofItems (room : Nat) (done : List Json) : Items → Except Fault (List Json)
  | .closed => .ok done.reverse
  | .cut f => .error f
  | .item o rest =>
    match ofOutline room o with
    | .ok j => ofItems room (j :: done) rest
    | .error f => .error f

/-- Reads members into the ordered fields `done`. -/
def ofMembers (room : Nat) (done : List (String × Json)) :
    Members → Except Fault (List (String × Json))
  | .closed => .ok done
  | .cut f => .error f
  | .member (.broken f) _ _ => .error f.named
  | .member (.name none) _ _ => .error .malformed
  | .member (.name (some k)) o rest =>
    match ofOutline room o with
    | .ok j => ofMembers room (Catalog.insertInto Prod.fst (k, j) done) rest
    | .error f => .error f

end

def reader : Reader Json := ofOutline

def compact (j : Json) : Bytes := j.toOutline.compact

def indented (j : Json) : Bytes := j.toOutline.indented

end Json

end SaveSlots
