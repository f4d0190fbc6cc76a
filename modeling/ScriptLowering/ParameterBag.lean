import ScriptLowering.Text
import ScriptLowering.Tree.Stmt

/-!
# The parameter bag

Every emitted function takes one object, the bag, that holds its arguments under keys.  The caller and the
function agree on the keys: an argument without a label stands under its position, counted from one.

* `ParameterBag.positionKey` — the key of a position;
* `ParameterBag.argumentKey` — the key under which a caller puts an argument;
* `ParameterBag.parameterKey` — the key under which a function looks for a parameter;
* `ParameterBag.threshold` — the last position that belongs to a parameter of its own;
* `ParameterBag.misplaced?` — the variadic parameter that is not last, if there is one.
-/

namespace ScriptLowering.ParameterBag

/-- The name of the bag in a function. -/
def bagName : String := "__args"

/-- The key of the argument at the given position, counted from zero. -/
def positionKey (index : Nat) : String := "_" ++ toString (index + 1)

/-- The key under which a caller puts the argument at the given position. -/
def argumentKey (index : Nat) : Option String → String
  | some label => if label = "_" then positionKey index else label
  | none => positionKey index

/-- The label by which a parameter is passed; none for a parameter passed by position. -/
def effectiveLabel (parameter : Parameter) : Option String :=
  match parameter.label with
  | some label => if label = "_" then none else some label
  | none => some parameter.name

/-- The key under which a function looks for the parameter at the given position. -/
def parameterKey (index : Nat) (parameter : Parameter) : String :=
  (effectiveLabel parameter).getD (positionKey index)

/-- The bag that a call passes; a call without arguments passes none. -/
def argumentText : List String → String
  | [] => ""
  | entries => "\x7b " ++ Text.joinWith ", " entries ++ " \x7d"

/-- The number of the last parameter in the list that is passed by position and takes one value, counting
from the given number; `found` when there is none. -/
def lastPositional (found : Nat) : Nat → List Parameter → Nat
  | _, [] => found
  | number, parameter :: rest =>
    lastPositional (if !parameter.isVariadic && parameter.isPositional then number else found) (number + 1) rest

/-- The last position, counted from one, that belongs to a parameter of its own.  The positions after it are
left for the variadic parameter. -/
def threshold (parameters : List Parameter) : Nat := lastPositional 0 1 parameters

/-- The first variadic parameter that other parameters follow. -/
def misplaced? : List Parameter → Option Parameter
  | [] => none
  | [_] => none
  | parameter :: next :: rest =>
    if parameter.isVariadic then some parameter else misplaced? (next :: rest)

end ScriptLowering.ParameterBag
