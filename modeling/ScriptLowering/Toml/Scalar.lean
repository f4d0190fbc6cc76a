import ScriptLowering.Toml.Basic
import ScriptLowering.Toml.Moment
import ScriptLowering.Toml.Number

/-!
# Scalars of a TOML text

* `Toml.basicText?`, `Toml.literalText?` — strings on one line, after their opening quote;
* `Toml.basicBlock?`, `Toml.literalBlock?` — strings over several lines, after their three opening quotes;
* `Toml.ofWord?` — the value of a bare word: a truth value, a number, or a date or time.

The readers give what was read and the text after it.
-/

namespace ScriptLowering.Toml

/-! ### Character classes -/

/-- Blanks within a line. -/
def isBlank (c : Char) : Bool := c = ' ' || c = '\t'

/-- Characters that may stand in a comment or a string: no control character but the tab. -/
def isPrintable (c : Char) : Bool := c = '\t' || (' ' ≤ c && c ≠ '\x7f')

/-- Characters of a key without quotes. -/
def isKeyChar (c : Char) : Bool := c.isAlphanum || c = '-' || c = '_'

/-- Characters of numbers, truth values, dates and times. -/
def isWordChar (c : Char) : Bool := isKeyChar c || c = '+' || c = '.' || c = ':'

/-! ### Strings -/

/-- The character of the given code, where there is one. -/
def charOfCode? (code : Nat) : Option Char :=
  if code.isValidChar then some (Char.ofNat code) else none

/-- The character that a one-letter escape stands for. -/
def escapedChar? : Char → Option Char
  | 'b' => some '\x08'
  | 't' => some '\t'
  | 'n' => some '\n'
  | 'f' => some '\x0c'
  | 'r' => some '\r'
  | '"' => some '"'
  | '\\' => some '\\'
  | _ => none

/-- The character of an escape after its backslash, and the text after it. -/
def escape? : List Char → Option (Char × List Char)
  | 'u' :: rest => do
    let code ← Numeral.hexValue? (rest.take 4)
    let c ← charOfCode? code
    if (rest.take 4).length = 4 then return (c, rest.drop 4) else none
  | 'U' :: rest => do
    let code ← Numeral.hexValue? (rest.take 8)
    let c ← charOfCode? code
    if (rest.take 8).length = 8 then return (c, rest.drop 8) else none
  | e :: rest => do
    let c ← escapedChar? e
    return (c, rest)
  | [] => none

/-- Reads a string in double quotes, after the first of them. -/
def basicText? : Nat → List Char → Option (List Char × List Char)
  | 0, _ => none
  | _ + 1, [] => none
  | n + 1, c :: rest =>
    if c = '"' then some ([], rest)
    else if c = '\\' then do
      let (e, rest) ← escape? rest
      let (text, rest) ← basicText? n rest
      return (e :: text, rest)
    else if isPrintable c then do
      let (text, rest) ← basicText? n rest
      return (c :: text, rest)
    else none

/-- Reads a string in single quotes, after the first of them. -/
def literalText? : List Char → Option (List Char × List Char)
  | [] => none
  | c :: rest =>
    if c = '\x27' then some ([], rest)
    else if isPrintable c then do
      let (text, rest) ← literalText? rest
      return (c :: text, rest)
    else none

/-- The text after a line feed, or a carriage return and a line feed, at its front. -/
def lineBreak? : List Char → Option (List Char)
  | '\n' :: rest => some rest
  | '\r' :: '\n' :: rest => some rest
  | _ => none

/-- The text after the blanks and line breaks at its front. -/
def skipBlock : Nat → List Char → List Char
  | 0, text => text
  | n + 1, text =>
    match lineBreak? text with
    | some rest => skipBlock n rest
    | none =>
      match text with
      | c :: rest => if isBlank c then skipBlock n rest else text
      | [] => []

/-- The quotes, up to two, that belong to a block in front of its end, when the block ends here. -/
def blockEnd? (quote : Char) : List Char → Option (List Char × List Char)
  | a :: b :: c :: rest =>
    if a = quote ∧ b = quote ∧ c = quote then
      let extra := (rest.take 2).takeWhile (· = quote)
      some (extra, rest.drop extra.length)
    else none
  | _ => none

/-- Reads a block in double quotes, after the first line break.  A backslash at the end of a line takes the
line break and the blanks after it away. -/
def basicBlock? : Nat → List Char → Option (List Char × List Char)
  | 0, _ => none
  | n + 1, text =>
    match blockEnd? '"' text with
    | some ended => some ended
    | none =>
      match lineBreak? text with
      | some rest => do
        let (block, rest) ← basicBlock? n rest
        return ('\n' :: block, rest)
      | none =>
        match text with
        | [] => none
        | '\\' :: rest =>
          match lineBreak? (rest.dropWhile isBlank) with
          | some after => basicBlock? n (skipBlock (after.length + 1) after)
          | none => do
            let (e, rest) ← escape? rest
            let (block, rest) ← basicBlock? n rest
            return (e :: block, rest)
        | c :: rest =>
          if isPrintable c then do
            let (block, rest) ← basicBlock? n rest
            return (c :: block, rest)
          else none

/-- Reads a block in single quotes, after the first line break. -/
def literalBlock? : Nat → List Char → Option (List Char × List Char)
  | 0, _ => none
  | n + 1, text =>
    match blockEnd? '\x27' text with
    | some ended => some ended
    | none =>
      match lineBreak? text with
      | some rest => do
        let (block, rest) ← literalBlock? n rest
        return ('\n' :: block, rest)
      | none =>
        match text with
        | [] => none
        | c :: rest =>
          if isPrintable c then do
            let (block, rest) ← literalBlock? n rest
            return (c :: block, rest)
          else none

/-! ### Words -/

/-- The value of a bare word. -/
def ofWord? (word : List Char) : Option Toml :=
  if word = ['t', 'r', 'u', 'e'] then some (.boolean true)
  else if word = ['f', 'a', 'l', 's', 'e'] then some (.boolean false)
  else if isNumber word then some (.number (String.ofList word))
  else if isMoment word then some (.moment (String.ofList word))
  else none

/-- The bare word at the front of a text, and the text after it.  A blank may stand between a date and a
time. -/
def word (text : List Char) : List Char × List Char :=
  let first := text.takeWhile isWordChar
  let rest := text.dropWhile isWordChar
  match rest with
  | ' ' :: after =>
    let second := after.takeWhile isWordChar
    if isDate first && isOffsetTime second then (first ++ ' ' :: second, after.dropWhile isWordChar)
    else (first, rest)
  | _ => (first, rest)

end ScriptLowering.Toml
