import ScriptLowering.Json.Token

/-!
# Reading JSON

* `Json.value?`, `Json.items?`, `Json.members?` — read a nested document off the front of a token list;
* `Json.parse?` — the document that a text spells, at any depth;
* `Json.depthLimit`, `Json.ofText?` — the document of a text, readable down to the limit.

Every value takes at least one token, and between two values at most two calls are made, so twice the
number of tokens bounds the recursion.
-/

namespace ScriptLowering.Json

/-- The object with the given members; unreadable when one of its keys is. -/
def ofMembers (members : List (Option String × Json)) : Json :=
  match members.mapM fun (key, value) => key.map (·, value) with
  | some members => .object members
  | none => .unreadable

/-- The text of a key, when it can be read; nothing at all for a scalar that is no string. -/
def key? : Json → Option (Option String)
  | .string text => some (some text)
  | .unreadable => some none
  | _ => none

mutual

/-- Reads one value off the front of the tokens. -/
def value? : Nat → List Token → Option (Json × List Token)
  | 0, _ => none
  | _ + 1, .scalar v :: rest => some (v, rest)
  | _ + 1, .mark '[' :: .mark ']' :: rest => some (.array [], rest)
  | n + 1, .mark '[' :: rest => do
    let (read, rest) ← items? n rest
    return (.array read, rest)
  | _ + 1, .mark '{' :: .mark '}' :: rest => some (.object [], rest)
  | n + 1, .mark '{' :: rest => do
    let (read, rest) ← members? n rest
    return (ofMembers read, rest)
  | _ + 1, _ => none

/-- Reads the items of an array up to its closing bracket. -/
def items? : Nat → List Token → Option (List Json × List Token)
  | 0, _ => none
  | n + 1, tokens => do
    let (first, rest) ← value? n tokens
    match rest with
    | .mark ',' :: rest =>
      let (others, rest) ← items? n rest
      return (first :: others, rest)
    | .mark ']' :: rest => return ([first], rest)
    | _ => none

/-- Reads the members of an object up to its closing brace. -/
def members? : Nat → List Token → Option (List (Option String × Json) × List Token)
  | n + 1, .scalar name :: .mark ':' :: tokens => do
    let key ← key? name
    let (first, rest) ← value? n tokens
    match rest with
    | .mark ',' :: rest =>
      let (others, rest) ← members? n rest
      return ((key, first) :: others, rest)
    | .mark '}' :: rest => return ([(key, first)], rest)
    | _ => none
  | _, _ => none

end

/-- The document that a text spells, when the text is one document and nothing else. -/
def parse? (text : String) : Option Json := do
  let tokens ← tokens? text.toList
  let (document, rest) ← value? (2 * tokens.length + 1) tokens
  if rest.isEmpty then return document else none

/-- How many levels of a document can be read. -/
def depthLimit : Nat := 127

/-- The document that a text spells; what lies below the limit cannot be read. -/
def ofText? (text : String) : Option Json := (parse? text).map (limitDepth depthLimit)

end ScriptLowering.Json
