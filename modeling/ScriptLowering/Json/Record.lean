import ScriptLowering.Json.Basic

/-!
# Records and choices in JSON

How a document spells a record with named fields, and a choice among named alternatives.

* `Json.Slot` — what a document gives for one field;
* `Json.slots?` — the slots of a record, written as an object or as the list of its fields;
* `Slot.required`, `Slot.optional`, `Slot.orElse` — read a field that must be there, that may be missing
  or `null`, or that has a default;
* `Json.choice?` — the name of the chosen alternative and what comes with it.

An object may give the fields in any order and may hold members that are no fields, but no field twice.  A
list gives the fields in their order, and may stop early.
-/

namespace ScriptLowering.Json

/-- What a document gives for one field of a record. -/
inductive Slot where
  | given (value : Json)
  /-- The object has no member of this name. -/
  | missing
  /-- The list ends before this field. -/
  | cut

/-- The slot of a field in an object; nothing when the field is given twice. -/
def slotOf? (name : String) (members : List (String × Json)) : Option Slot :=
  match members.filter (fun member => member.1 = name) with
  | [] => some .missing
  | [(_, value)] => some (.given value)
  | _ => none

/-- The slots of the fields in a list; nothing when the list has more items than there are fields. -/
def slotsOfItems? : List String → List Json → Option (List Slot)
  | [], [] => some []
  | [], _ :: _ => none
  | _ :: names, [] => (slotsOfItems? names []).map (.cut :: ·)
  | _ :: names, item :: rest => (slotsOfItems? names rest).map (.given item :: ·)

/-- The slots of a record with the given fields, one for each field in order. -/
def slots? (names : List String) : Json → Option (List Slot)
  | .object members => names.mapM fun name => slotOf? name members
  | .array items => slotsOfItems? names items
  | _ => none

namespace Slot

variable {α : Type}

/-- Reads a field that has to be given. -/
def required (read : Json → Option α) : Slot → Option α
  | .given value => read value
  | _ => none

/-- Reads a field that an object may leave out, and that may be `null`. -/
def optional (read : Json → Option α) : Slot → Option (Option α)
  | .given .null => some none
  | .given value => (read value).map some
  | .missing => some none
  | .cut => none

/-- Reads a field that stands for `default` when it is not given. -/
def orElse (default : α) (read : Json → Option α) : Slot → Option α
  | .given value => read value
  | _ => some default

end Slot

/-- The alternative that a document names: alone, or as the only key of an object, with its content. -/
def choice? : Json → Option (String × Option Json)
  | .string name => some (name, none)
  | .object [(name, content)] => some (name, some content)
  | _ => none

/-- Whether this is what may come with an alternative that has no content. -/
def isBare : Option Json → Bool
  | none => true
  | some .null => true
  | _ => false

/-- Reads a text. -/
def text? : Json → Option String
  | .string text => some text
  | _ => none

/-- Reads a truth value. -/
def bool? : Json → Option Bool
  | .bool value => some value
  | _ => none

/-- Reads a number of 32 bits. -/
def word32? : Json → Option UInt32
  | .natural value => if value < UInt32.size then some (UInt32.ofNat value) else none
  | _ => none

/-- Reads a list whose items are read by `read`. -/
def list? {α : Type} (read : Json → Option α) : Json → Option (List α)
  | .array items => items.mapM read
  | _ => none

/-- Reads a value, or `null` as none. -/
def nullable? {α : Type} (read : Json → Option α) : Json → Option (Option α)
  | .null => some none
  | document => (read document).map some

end ScriptLowering.Json
