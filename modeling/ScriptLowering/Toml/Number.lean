import ScriptLowering.Numeral

/-!
# Numbers of a TOML text

* `Toml.isDecimal`, `Toml.isBased` — whole numbers of 64 bits;
* `Toml.Parts` — a number with a fraction or an exponent, taken apart;
* `Toml.Parts.overflows` — whether it is too large for a floating-point number of 64 bits;
* `Toml.isNumber` — any number.
-/

namespace ScriptLowering.Toml

/-! ### Whole numbers -/

/-- Whether the text is one or more digits of the given kind, where an underscore may stand between two
digits. -/
def isSpaced (isDigit : Char → Bool) : List Char → Bool
  | [] => false
  | [c] => isDigit c
  | c :: '_' :: rest => isDigit c && isSpaced isDigit rest
  | c :: rest => isDigit c && isSpaced isDigit rest

/-- The text without its underscores. -/
def unspaced (text : List Char) : List Char := text.filter (· ≠ '_')

/-- The text without a sign at its front. -/
def unsigned : List Char → List Char
  | '+' :: rest => rest
  | '-' :: rest => rest
  | text => text

/-- Whether the text is a decimal whole number without a sign and without leading zeros. -/
def isWhole (text : List Char) : Bool :=
  isSpaced Char.isDigit text && (text.length = 1 || text.head? ≠ some '0')

/-- How many numbers of 64 bits are not negative, and how many are. -/
def halfRange : Nat := 9223372036854775808

/-- Whether the text is a signed decimal number of 64 bits. -/
def isDecimal (text : List Char) : Bool :=
  isWhole (unsigned text) &&
    (let magnitude := Numeral.value (unspaced (unsigned text))
      if text.head? = some '-' then magnitude ≤ halfRange else magnitude < halfRange)

/-- The number that digits of the given base stand for. -/
def baseValue (base : Nat) (digits : List Char) : Nat :=
  digits.foldl (fun number c => base * number + (Numeral.hexDigit? c).getD 0) 0

/-- Whether the text is a number of 64 bits in the given base. -/
def isBased (base : Nat) (digits : List Char) : Bool :=
  isSpaced (fun c => match Numeral.hexDigit? c with
    | some digit => digit < base
    | none => false) digits && baseValue base (unspaced digits) < halfRange

/-! ### Numbers with a fraction or an exponent -/

/-- Whether a character marks an exponent. -/
def isExponentMark (c : Char) : Bool := c = 'e' || c = 'E'

/-- A number without its sign, taken apart at its point and at the mark of its exponent. -/
structure Parts where
  whole : List Char
  fraction : Option (List Char)
  /-- The exponent with its sign. -/
  exponent : Option (List Char)

namespace Parts

/-- The parts of a number without its sign. -/
def ofText (text : List Char) : Parts :=
  let mantissa := text.takeWhile (!isExponentMark ·)
  { whole := mantissa.takeWhile (· ≠ '.')
    fraction := (mantissa.dropWhile (· ≠ '.')).tail?
    exponent := (text.dropWhile (!isExponentMark ·)).tail? }

/-- Whether the parts are those of a number that has a fraction, an exponent or both. -/
def isWellFormed (parts : Parts) : Bool :=
  isWhole parts.whole && (parts.fraction.isSome || parts.exponent.isSome) &&
    parts.fraction.all (isSpaced Char.isDigit) &&
    parts.exponent.all (fun exponent => isSpaced Char.isDigit (unsigned exponent))

/-- The fraction without its underscores. -/
def places (parts : Parts) : List Char := unspaced (parts.fraction.getD [])

/-- The digits of the number from the first that is not zero. -/
def digits (parts : Parts) : List Char :=
  (unspaced parts.whole ++ parts.places).dropWhile (· = '0')

/-- The power of ten by which the number is multiplied. -/
def power (parts : Parts) : Int :=
  match parts.exponent with
  | none => 0
  | some exponent =>
    let magnitude : Int := Numeral.value (unspaced (unsigned exponent))
    if exponent.head? = some '-' then -magnitude else magnitude

/-- Where the point stands: a number that is not zero lies below ten to this power, and not below a tenth of
that. -/
def magnitude (parts : Parts) : Int := parts.digits.length - parts.places.length + parts.power

/-- The least number that is rounded to infinity.  It lies halfway from the greatest floating-point number of
64 bits to the next power of two, and has 309 digits. -/
def ceiling : Nat := (Nat.pow 2 54 - 1) * Nat.pow 2 970

/-- Whether the number is rounded to infinity.  The place of the point decides this, except for numbers with
as many digits before it as `ceiling` has. -/
def overflows (parts : Parts) : Bool :=
  !parts.digits.isEmpty &&
    (309 < parts.magnitude ||
      (parts.magnitude = 309 &&
        ceiling * Nat.pow 10 (parts.digits.length - 309) ≤
          Numeral.value parts.digits * Nat.pow 10 (309 - parts.digits.length)))

end Parts

/-- Whether the text is a number with a fraction, an exponent or both.  It may lie below all floating-point
numbers, but not above them. -/
def isFloat (text : List Char) : Bool :=
  let parts := Parts.ofText (unsigned text)
  parts.isWellFormed && (text.head? = some '-' || !parts.overflows)

/-- Whether the text is a number that is infinite or none. -/
def isSpecial (text : List Char) : Bool :=
  unsigned text = ['i', 'n', 'f'] || unsigned text = ['n', 'a', 'n']

/-- Whether the text is a number. -/
def isNumber : List Char → Bool
  | '0' :: 'x' :: digits => isBased 16 digits
  | '0' :: 'o' :: digits => isBased 8 digits
  | '0' :: 'b' :: digits => isBased 2 digits
  | text => isDecimal text || isFloat text || isSpecial text

end ScriptLowering.Toml
