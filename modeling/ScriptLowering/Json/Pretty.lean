import ScriptLowering.Json.Basic
import ScriptLowering.Text

/-!
# Printing JSON

* `Json.quoted` — a text as a JSON string;
* `Json.pretty` — a document over several lines, with two blanks for each level.
-/

namespace ScriptLowering.Json

/-- The lower-case hexadecimal digit of a number below sixteen. -/
def hexChar (digit : Nat) : Char :=
  if digit < 10 then Char.ofNat ('0'.toNat + digit) else Char.ofNat ('a'.toNat + (digit - 10))

/-- A character as it stands in a JSON string. -/
def quotedChar (c : Char) : List Char :=
  if c = '"' then ['\\', '"']
  else if c = '\\' then ['\\', '\\']
  else if c = '\x08' then ['\\', 'b']
  else if c = '\x0c' then ['\\', 'f']
  else if c = '\n' then ['\\', 'n']
  else if c = '\r' then ['\\', 'r']
  else if c = '\t' then ['\\', 't']
  else if c < ' ' then ['\\', 'u', '0', '0', hexChar (c.toNat / 16), hexChar (c.toNat % 16)]
  else [c]

/-- A text as a JSON string. -/
def quoted (text : String) : String := "\"" ++ String.ofList (text.toList.flatMap quotedChar) ++ "\""

mutual

/-- A document over several lines, whose first line is already indented. -/
def pretty (depth : Nat) : Json → String
  | .null => "null"
  | .bool value => if value then "true" else "false"
  | .natural value => toString value
  | .decimal text => text
  | .string text => quoted text
  | .array [] => "[]"
  | .array (item :: rest) =>
    "[\n" ++ Text.joinWith ",\n" (prettyItems (depth + 1) (item :: rest)) ++ "\n" ++ Text.margin depth ++ "]"
  | .object [] => "\x7b\x7d"
  | .object (member :: rest) =>
    "\x7b\n" ++ Text.joinWith ",\n" (prettyMembers (depth + 1) (member :: rest)) ++ "\n" ++ Text.margin depth ++
      "\x7d"
  | .unreadable => "null"

/-- The lines of some items. -/
def prettyItems (depth : Nat) : List Json → List String
  | [] => []
  | item :: rest => (Text.margin depth ++ item.pretty depth) :: prettyItems depth rest

/-- The lines of some members. -/
def prettyMembers (depth : Nat) : List (String × Json) → List String
  | [] => []
  | (key, value) :: rest =>
    (Text.margin depth ++ quoted key ++ ": " ++ value.pretty depth) :: prettyMembers depth rest

end

end ScriptLowering.Json
