import ScriptLowering.Json.Basic
import ScriptLowering.Numeral

/-!
# Tokens of a JSON text

A JSON text is split into marks and scalars before its nesting is looked at.

* `Json.Token` — a mark or a scalar value;
* `Json.ofWord?` — the value of a bare word: `null`, `true`, `false` or a number;
* `Json.ofQuoted?` — the value of what stands between two quotes;
* `Json.tokens?` — the tokens of a text, or nothing when some part of it is no token.

Two scalars never follow each other in a well-formed document, so a bare word is the longest run of
characters that a word may hold.
-/

namespace ScriptLowering.Json

/-- A lexical element of a JSON text. -/
inductive Token where
  /-- One of the marks of `isMark`. -/
  | mark (symbol : Char)
  /-- A value without parts. -/
  | scalar (value : Json)

/-! ### Character classes -/

/-- Characters that may stand between tokens. -/
def isBlank (c : Char) : Bool := c = ' ' || c = '\t' || c = '\n' || c = '\r'

/-- Characters that are tokens by themselves. -/
def isMark (c : Char) : Bool :=
  c = '{' || c = '}' || c = '[' || c = ']' || c = ':' || c = ','

/-- Characters of names and numbers. -/
def isWordChar (c : Char) : Bool := c.isAlphanum || c = '-' || c = '+' || c = '.'

/-! ### Numbers and names -/

/-- Whether the text is the exponent of a number, or empty. -/
def isExponent : List Char → Bool
  | [] => true
  | e :: '+' :: digits => (e = 'e' || e = 'E') && Numeral.isDigits digits
  | e :: '-' :: digits => (e = 'e' || e = 'E') && Numeral.isDigits digits
  | e :: digits => (e = 'e' || e = 'E') && Numeral.isDigits digits

/-- Whether the text may follow the whole part of a number: a fraction, an exponent, both or nothing. -/
def isNumberTail : List Char → Bool
  | '.' :: rest => !(rest.takeWhile Char.isDigit).isEmpty && isExponent (rest.dropWhile Char.isDigit)
  | rest => isExponent rest

/-- Whether the text is the whole part of a number: digits without a leading zero. -/
def isWholePart : List Char → Bool
  | [] => false
  | ['0'] => true
  | c :: _ => c ≠ '0'

/-- The value of a number without its sign. -/
def ofUnsigned? (text : List Char) : Option Json :=
  let whole := text.takeWhile Char.isDigit
  let tail := text.dropWhile Char.isDigit
  if isWholePart whole && isNumberTail tail then
    if tail.isEmpty then some (.natural (Numeral.value whole)) else some (.decimal (String.ofList text))
  else none

/-- The value of a bare word. -/
def ofWord? : List Char → Option Json
  | ['n', 'u', 'l', 'l'] => some .null
  | ['t', 'r', 'u', 'e'] => some (.bool true)
  | ['f', 'a', 'l', 's', 'e'] => some (.bool false)
  | '-' :: text => (ofUnsigned? text).map fun _ => .decimal (String.ofList ('-' :: text))
  | text => ofUnsigned? text

/-! ### Strings -/

/-- The character that a one-letter escape stands for. -/
def escapedChar? : Char → Option Char
  | '"' => some '"'
  | '\\' => some '\\'
  | '/' => some '/'
  | 'b' => some '\x08'
  | 'f' => some '\x0c'
  | 'n' => some '\n'
  | 'r' => some '\r'
  | 't' => some '\t'
  | _ => none

/-- The code units that the inside of a quoted string spells; nothing when an escape is malformed. -/
def codeUnits? : List Char → Option (List Nat)
  | [] => some []
  | '\\' :: 'u' :: a :: b :: c :: d :: rest => do
    let unit ← Numeral.hexValue? [a, b, c, d]
    let units ← codeUnits? rest
    return unit :: units
  | '\\' :: e :: rest => do
    let c ← escapedChar? e
    let units ← codeUnits? rest
    return c.toNat :: units
  | c :: rest => if c = '\\' then none else (codeUnits? rest).map (c.toNat :: ·)

/-- Whether a code unit is the first half of a pair. -/
def isHighHalf (unit : Nat) : Bool := 0xD800 ≤ unit && unit ≤ 0xDBFF

/-- Whether a code unit is the second half of a pair. -/
def isLowHalf (unit : Nat) : Bool := 0xDC00 ≤ unit && unit ≤ 0xDFFF

/-- The characters that code units stand for; nothing when a half has no partner. -/
def charsOfUnits? : List Nat → Option (List Char)
  | [] => some []
  | high :: low :: rest =>
    if isHighHalf high then
      if isLowHalf low then
        (charsOfUnits? rest).map (Char.ofNat (0x10000 + 0x400 * (high - 0xD800) + (low - 0xDC00)) :: ·)
      else none
    else if isLowHalf high then none
    else (charsOfUnits? (low :: rest)).map (Char.ofNat high :: ·)
  | [unit] => if isHighHalf unit || isLowHalf unit then none else some [Char.ofNat unit]

/-- The value of what stands between two quotes.  Nothing when an escape is malformed; unreadable when the
escapes are well formed and yet spell no text. -/
def ofQuoted? (inside : List Char) : Option Json := do
  let units ← codeUnits? inside
  match charsOfUnits? units with
  | some text => return .string (String.ofList text)
  | none => return .unreadable

/-! ### Scanning -/

/-- What has been read of a token that is not yet complete, in reverse. -/
inductive Unfinished where
  | nothing
  | word (read : List Char)
  | quoted (read : List Char)
  /-- Inside quotes, directly after a backslash. -/
  | escape (read : List Char)

/-- The tokens read so far, in reverse, and the one under way. -/
structure Scan where
  tokens : List Token := []
  unfinished : Unfinished := .nothing

/-- Reads a character that begins a token or stands between tokens. -/
def Scan.start (tokens : List Token) (c : Char) : Option Scan :=
  if isBlank c then some ⟨tokens, .nothing⟩
  else if isMark c then some ⟨.mark c :: tokens, .nothing⟩
  else if c = '"' then some ⟨tokens, .quoted []⟩
  else if isWordChar c then some ⟨tokens, .word [c]⟩
  else none

/-- Reads one character. -/
def Scan.read (scan : Scan) (c : Char) : Option Scan :=
  match scan.unfinished with
  | .nothing => Scan.start scan.tokens c
  | .word read =>
    if isWordChar c then some ⟨scan.tokens, .word (c :: read)⟩
    else do
      let value ← ofWord? read.reverse
      Scan.start (.scalar value :: scan.tokens) c
  | .quoted read =>
    if c = '"' then do
      let value ← ofQuoted? read.reverse
      return ⟨.scalar value :: scan.tokens, .nothing⟩
    else if c = '\\' then some ⟨scan.tokens, .escape (c :: read)⟩
    else if c < ' ' then none
    else some ⟨scan.tokens, .quoted (c :: read)⟩
  | .escape read => some ⟨scan.tokens, .quoted (c :: read)⟩

/-- The tokens when the text ends. -/
def Scan.finish (scan : Scan) : Option (List Token) :=
  match scan.unfinished with
  | .nothing => some scan.tokens.reverse
  | .word read => do
    let value ← ofWord? read.reverse
    return (.scalar value :: scan.tokens).reverse
  | _ => none

/-- The tokens of a text. -/
def tokens? (text : List Char) : Option (List Token) := do
  let scan ← text.foldlM Scan.read {}
  scan.finish

end ScriptLowering.Json
