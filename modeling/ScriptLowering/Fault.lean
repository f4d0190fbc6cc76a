import ScriptLowering.Operator
import ScriptLowering.Tree.Program

/-!
# Faults

Why a node cannot be lowered, and where in a program that happened.

* `Unsupported` — nodes that have no place where they stand;
* `Fault` — the causes of failure, with `Fault.message`;
* `ItemFault` — a fault with the item it was found in.
-/

namespace ScriptLowering

/-- A node that has no place where it stands. -/
inductive Unsupported where
  /-- A type among the members of a type. -/
  | nestedType (kind : TypeKind)
  /-- A function `init` that is no member. -/
  | looseInitializer
  | caseWithoutPatterns
  | rangePattern
deriving DecidableEq

namespace Unsupported

/-- The kind of the node. -/
def kind : Unsupported → String
  | .nestedType kind => kind.word
  | .looseInitializer => "initializer"
  | .caseWithoutPatterns => "case"
  | .rangePattern => "range"

/-- Where the node has no place. -/
def context : Unsupported → String
  | .nestedType _ => "inside a type body"
  | .looseInitializer => "outside a type body"
  | .caseWithoutPatterns => "without patterns"
  | .rangePattern => "as a switch case pattern"

end Unsupported

/-- Why a node cannot be lowered. -/
inductive Fault where
  | unsupported (node : Unsupported)
  | unknownOperator (family : OperatorFamily) (spelling : String)
  /-- A variadic parameter that is not the last one. -/
  | misplacedVariadic (function parameter : String)
deriving DecidableEq

/-- The text of a fault. -/
def Fault.message : Fault → String
  | .unsupported node => "unsupported " ++ node.kind ++ " " ++ node.context
  | .unknownOperator family spelling =>
    "unsupported " ++ family.word ++ " operator `" ++ spelling ++ "`"
  | .misplacedVariadic function parameter =>
    "variadic parameter `" ++ parameter ++ "` of `" ++ function ++
      "` must be the only variadic and the last parameter"

/-- A fault in one item of a program. -/
structure ItemFault where
  /-- The position of the item, from zero. -/
  index : Nat
  /-- The word for the item's statement. -/
  kind : String
  span : Option Span
  cause : Fault
deriving DecidableEq

/-- The place of an item, as it follows its kind. -/
def placeText : Option Span → String
  | some span => " at " ++ toString span.line.toNat ++ ":" ++ toString span.column.toNat
  | none => ""

/-- The text of a fault in an item. -/
def ItemFault.message (fault : ItemFault) : String :=
  "item " ++ toString fault.index ++ " (" ++ fault.kind ++ placeText fault.span ++ "): " ++
    fault.cause.message

end ScriptLowering
