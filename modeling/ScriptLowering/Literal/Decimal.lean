import ScriptLowering.Numeral

/-!
# Decimal numerals

* `Decimal.read?` — the whole number that a numeral with an optional sign stands for;
* `Decimal.successor?` — the numeral of the next number, where both fit into 64 bits.
-/

namespace ScriptLowering.Decimal

/-- The number that decimal digits stand for; nothing when there is none or one is no digit. -/
def magnitude? (digits : List Char) : Option Nat :=
  if Numeral.isDigits digits then some (Numeral.value digits) else none

/-- The whole number that a numeral stands for. -/
def read? : List Char → Option Int
  | '-' :: digits => (magnitude? digits).map fun n => -(n : Int)
  | '+' :: digits => (magnitude? digits).map fun n => (n : Int)
  | digits => (magnitude? digits).map fun n => (n : Int)

/-- The least number of 64 bits. -/
def least : Int := -9223372036854775808

/-- The greatest number of 64 bits. -/
def greatest : Int := 9223372036854775807

/-- The numeral of the number after the one that the text stands for, when neither leaves 64 bits. -/
def successor? (text : String) : Option String := do
  let value ← read? text.toList
  if least ≤ value ∧ value < greatest then return toString (value + 1) else none

end ScriptLowering.Decimal
