/-!
# Temporaries

Names that the lowering itself brings in.

* `Temporary` — a name made of a stem and a number;
* `CountedLoop` — a loop over the numbers of a range, which keeps its bound in a temporary unless the bound is
  a number.
-/

namespace ScriptLowering

/-- What a temporary is for. -/
inductive Temporary.Stem where
  /-- It holds a value that may be absent. -/
  | opt
  /-- It holds the bound of a loop. -/
  | bound
deriving DecidableEq

/-- A name that the lowering brings in. -/
structure Temporary where
  stem : Temporary.Stem
  number : Nat
deriving DecidableEq

/-- The text of a stem. -/
def Temporary.Stem.text : Temporary.Stem → String
  | .opt => "opt"
  | .bound => "bound"

/-- The name of a temporary in the script. -/
def Temporary.name (temporary : Temporary) : String :=
  "__" ++ temporary.stem.text ++ toString temporary.number

/-- A loop over the numbers of a range. -/
structure CountedLoop where
  /-- The name that the loop counts in. -/
  counter : String
  lower : String
  upper : String
  inclusive : Bool
  /-- Where the upper bound is kept, when it is not a number. -/
  bound : Option Temporary
deriving DecidableEq

namespace CountedLoop

/-- The comparison that the loop goes on for. -/
def comparison (loop : CountedLoop) : String := if loop.inclusive then " <= " else " < "

/-- The text that the counter is compared with. -/
def limit (loop : CountedLoop) : String :=
  match loop.bound with
  | some temporary => temporary.name
  | none => loop.upper

/-- What is declared beside the counter. -/
def keeping (loop : CountedLoop) : String :=
  match loop.bound with
  | some temporary => ", " ++ temporary.name ++ " = " ++ loop.upper
  | none => ""

/-- The header of the loop. -/
def header (loop : CountedLoop) : String :=
  "for (let " ++ loop.counter ++ " = " ++ loop.lower ++ loop.keeping ++ "; " ++ loop.counter ++
    loop.comparison ++ loop.limit ++ "; " ++ loop.counter ++ "++)"

end CountedLoop

end ScriptLowering
