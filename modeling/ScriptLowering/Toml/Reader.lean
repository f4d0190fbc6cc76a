import ScriptLowering.Toml.Scalar

/-!
# Reading TOML

* `Toml.key?`, `Toml.path?` — a key, and keys joined by dots;
* `Toml.value?` — a value;
* `Toml.document?` — the lines of a document, one after another;
* `Toml.parse?` — the table that a text spells.

The readers give what was read and the text after it.  Each call takes at least one character, or is
followed by one that does, so twice the length of the text bounds the recursion.  Lists and tables in braces
may stand inside one another up to `Toml.nestingLimit`, and as many keys may be joined by dots.
-/

namespace ScriptLowering.Toml

/-! ### Lines and keys -/

/-- The text after a comment at its front, which ends with its line. -/
def skipComment : List Char → List Char
  | '#' :: rest => rest.dropWhile isPrintable
  | text => text

/-- The text after the end of the line: blanks, a comment, and a line break or the end of the text. -/
def lineEnd? (text : List Char) : Option (List Char) :=
  match skipComment (text.dropWhile isBlank) with
  | [] => some []
  | rest => lineBreak? rest

/-- The text after the blanks, comments and line breaks at its front; nothing when a comment does not end
with its line. -/
def skipLines? : Nat → List Char → Option (List Char)
  | 0, _ => none
  | n + 1, text =>
    match text.dropWhile isBlank with
    | '#' :: rest => do
      let rest ← lineBreak? (rest.dropWhile isPrintable)
      skipLines? n rest
    | rest =>
      match lineBreak? rest with
      | some rest => skipLines? n rest
      | none => some rest

/-- Reads one key. -/
def key? : List Char → Option (String × List Char)
  | '"' :: rest => do
    let (text, rest) ← basicText? (rest.length + 1) rest
    return (String.ofList text, rest)
  | '\x27' :: rest => do
    let (text, rest) ← literalText? rest
    return (String.ofList text, rest)
  | text =>
    let key := text.takeWhile isKeyChar
    if key.isEmpty then none else some (String.ofList key, text.dropWhile isKeyChar)

/-- How many lists and tables in braces may stand inside one another, and how many keys may be joined. -/
def nestingLimit : Nat := 79

/-- Reads keys joined by dots, with the blanks around them; no more than the given number of them. -/
def path? : Nat → List Char → Option (List String × List Char)
  | 0, _ => none
  | n + 1, text => do
    let (key, rest) ← key? (text.dropWhile isBlank)
    match rest.dropWhile isBlank with
    | '.' :: rest =>
      let (path, rest) ← path? n rest
      return (key :: path, rest)
    | rest => return ([key], rest)

/-! ### Values -/

/-- The text after a line break at its front, if there is one. -/
def skipBreak (text : List Char) : List Char := (lineBreak? text).getD text

mutual

/-- Reads a value, with room for the given number of lists and tables inside one another. -/
def value? : Nat → Nat → List Char → Option (Toml × List Char)
  | 0, _, _ => none
  | _ + 1, _, '"' :: '"' :: '"' :: rest => do
    let (text, rest) ← basicBlock? (rest.length + 1) (skipBreak rest)
    return (.string (String.ofList text), rest)
  | _ + 1, _, '"' :: rest => do
    let (text, rest) ← basicText? (rest.length + 1) rest
    return (.string (String.ofList text), rest)
  | _ + 1, _, '\x27' :: '\x27' :: '\x27' :: rest => do
    let (text, rest) ← literalBlock? (rest.length + 1) (skipBreak rest)
    return (.string (String.ofList text), rest)
  | _ + 1, _, '\x27' :: rest => do
    let (text, rest) ← literalText? rest
    return (.string (String.ofList text), rest)
  | n + 1, room + 1, '[' :: rest => do
    let (items, rest) ← items? n room rest
    return (.list items, rest)
  | n + 1, room + 1, '{' :: rest =>
    match rest.dropWhile isBlank with
    | '}' :: rest => some (.table .inline [], rest)
    | rest => do
      let (entries, rest) ← entries? n room [] rest
      return (.table .inline entries, rest)
  | _ + 1, _, text => do
    let (first, rest) := word text
    let value ← ofWord? first
    return (value, rest)

/-- Reads the items of a list up to its closing bracket; a comma may follow the last of them. -/
def items? : Nat → Nat → List Char → Option (List Toml × List Char)
  | 0, _, _ => none
  | n + 1, room, text => do
    let text ← skipLines? (text.length + 1) text
    match text with
    | ']' :: rest => return ([], rest)
    | text =>
      let (first, rest) ← value? n room text
      let rest ← skipLines? (rest.length + 1) rest
      match rest with
      | ',' :: rest =>
        let (others, rest) ← items? n room rest
        return (first :: others, rest)
      | ']' :: rest => return ([first], rest)
      | _ => none

/-- Reads the entries of a table in braces up to its closing brace, after the entries already read. -/
def entries? : Nat → Nat → Entries → List Char → Option (Entries × List Char)
  | 0, _, _, _ => none
  | n + 1, room, entries, text => do
    let (path, rest) ← path? nestingLimit text
    match rest with
    | '=' :: rest =>
      let (value, rest) ← value? n room (rest.dropWhile isBlank)
      let entries ← put? value path entries
      match rest.dropWhile isBlank with
      | ',' :: rest => entries? n room entries rest
      | '}' :: rest => return (entries, rest)
      | _ => none
    | _ => none

end

/-! ### Documents -/

/-- The table read so far, and the path of the table that the next keys go to. -/
structure Draft where
  root : Entries
  path : List String

namespace Draft

/-- The draft with a value put under a dotted key. -/
def put? (draft : Draft) (path : List String) (value : Toml) : Option Draft := do
  let root ← within? (Toml.put? value path) draft.path draft.root
  return { draft with root }

/-- The draft after the header of a table. -/
def header? (draft : Draft) (path : List String) : Option Draft := do
  let key ← path.getLast?
  let root ← within? (declare? key) path.dropLast draft.root
  return ⟨root, path⟩

/-- The draft after the header of a further table in an array of tables. -/
def nextHeader? (draft : Draft) (path : List String) : Option Draft := do
  let key ← path.getLast?
  let root ← within? (declareNext? key) path.dropLast draft.root
  return ⟨root, path⟩

end Draft

/-- Reads the lines of a document into a draft. -/
def document? : Nat → Draft → List Char → Option Draft
  | 0, _, _ => none
  | n + 1, draft, text =>
    match text.dropWhile isBlank with
    | [] => some draft
    | '[' :: '[' :: rest => do
      let (path, rest) ← path? nestingLimit rest
      match rest with
      | ']' :: ']' :: rest =>
        let rest ← lineEnd? rest
        let draft ← draft.nextHeader? path
        document? n draft rest
      | _ => none
    | '[' :: rest => do
      let (path, rest) ← path? nestingLimit rest
      match rest with
      | ']' :: rest =>
        let rest ← lineEnd? rest
        let draft ← draft.header? path
        document? n draft rest
      | _ => none
    | text =>
      match lineEnd? text with
      | some rest => document? n draft rest
      | none => do
        let (path, rest) ← path? nestingLimit text
        match rest with
        | '=' :: rest =>
          let rest := rest.dropWhile isBlank
          let (value, rest) ← value? (2 * rest.length + 2) nestingLimit rest
          let rest ← lineEnd? rest
          let draft ← draft.put? path value
          document? n draft rest
        | _ => none

/-- The text without a byte order mark at its front. -/
def withoutMark : List Char → List Char
  | '\ufeff' :: rest => rest
  | text => text

/-- The table that a text spells. -/
def parse? (text : String) : Option Entries := do
  let text := withoutMark text.toList
  let draft ← document? (text.length + 1) ⟨[], []⟩ text
  return draft.root

end ScriptLowering.Toml
