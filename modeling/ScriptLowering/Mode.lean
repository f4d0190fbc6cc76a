import ScriptLowering.Text

/-!
# Modes

A program is lowered in one of two modes.  In native mode a variable of the source is a variable of the
script.  In managed mode it is a record that holds the value together with its declared type and flags, and
every read goes through the record.

* `Mode` — native or managed;
* `Mode.reference` — how a variable is read;
* `Mode.rawName` — the name that receives a value before it is bound;
* `Mode.constructible` — what can stand after `new`;
* `Mode.supportCode` — the support code in front of every script.
-/

namespace ScriptLowering

/-- How variables of the source appear in the script. -/
inductive Mode where
  | native
  | managed
deriving DecidableEq

namespace Mode

/-- The mode that a switch for managed bindings asks for. -/
def ofManaged (managed : Bool) : Mode := if managed then .managed else .native

/-- The name of a mode. -/
def name : Mode → String
  | .native => "native"
  | .managed => "managed"

/-- The mode of the given name. -/
def ofName? : String → Option Mode
  | "native" => some .native
  | "managed" => some .managed
  | _ => none

/-- A mode is found under its name. -/
theorem ofName?_name (mode : Mode) : ofName? mode.name = some mode := by
  cases mode <;> rfl

/-! ### Variables -/

/-- The access to the value of a record. -/
def accessor : String := ".value"

/-- How the variable of the given emitted name is read. -/
def reference : Mode → String → String
  | .native, name => name
  | .managed, name => name ++ accessor

/-- The name that receives a value before it is bound under the given name. -/
def rawName : Mode → String → String
  | .native, name => name
  | .managed, name => "$" ++ name

/-- The part of a callee that can stand after `new`: in managed mode an access at its end is left out. -/
def constructible : Mode → String → String
  | .native, callee => callee
  | .managed, callee => String.ofList (Text.dropTrailing accessor.toList callee.toList)

/-! ### Preludes -/

/-- Lines of text, each ended by a line feed. -/
def ofLines (lines : List String) : String := String.join (lines.map (· ++ "\n"))

/-- The helpers of both modes. -/
def helpers : List String :=
  ["function __isNil(value: unknown): value is null | undefined \x7b",
    "  return value === undefined || value === null;",
    "\x7d",
    "",
    "function __try<T>(body: () => T): T | undefined \x7b",
    "  try \x7b",
    "    return body();",
    "  \x7d catch \x7b",
    "    return undefined;",
    "  \x7d",
    "\x7d",
    "",
    "function __range(lower: number, upper: number): number[] \x7b",
    "  const values: number[] = [];",
    "  for (let i = lower; i < upper; i++) \x7b",
    "    values.push(i);",
    "  \x7d",
    "  return values;",
    "\x7d"]

/-- The helpers for records. -/
def recordHelpers : List String :=
  ["",
    "interface __Record<T = any> \x7b",
    "  value: T;",
    "  type: string;",
    "  constant?: boolean;",
    "  private?: boolean;",
    "  uninitialized?: boolean;",
    "\x7d",
    "",
    "function __isRecord(candidate: unknown): candidate is __Record \x7b",
    "  return (",
    "    typeof candidate === \"object\" &&",
    "    candidate !== null &&",
    "    \"value\" in candidate &&",
    "    \"type\" in candidate",
    "  );",
    "\x7d",
    "",
    "function __typeTag(record: __Record): string \x7b",
    "  return record.type;",
    "\x7d",
    "",
    "function __isConstant(record: __Record): boolean \x7b",
    "  return record.constant === true;",
    "\x7d"]

/-- The support code in front of every script of a mode. -/
def supportCode : Mode → String
  | .native => ofLines ("// Runtime support: native bindings" :: helpers)
  | .managed => ofLines ("// Runtime support: managed bindings" :: helpers ++ recordHelpers)

end Mode

end ScriptLowering
