import ScriptLowering.Fault
import ScriptLowering.Literal.Comment
import ScriptLowering.Literal.Decimal
import ScriptLowering.Literal.Template
import ScriptLowering.Binding
import ScriptLowering.Identifier
import ScriptLowering.ParameterBag

/-!
# The text of expressions

* `Literal.text`, `Expr.text` — the text emitted for a literal and for an expression;
* `Expr.conditionText` — the text of an expression where parentheses are already around it;
* `Expr.exclusiveLimit` — the upper bound of a range as a limit that is not reached.

Binary, logical and conditional expressions come with parentheses of their own, so that no operator captures
a neighbour.
-/

namespace ScriptLowering

/-! ### Operators -/

/-- The assignment operator of a spelling. -/
def AssignmentOperator.find (spelling : String) : Except Fault AssignmentOperator :=
  match ofSource? spelling with
  | some op => .ok op
  | none => .error (.unknownOperator .assignment spelling)

/-- The binary operator of a spelling. -/
def BinaryOperator.find (spelling : String) : Except Fault BinaryOperator :=
  match ofSource? spelling with
  | some op => .ok op
  | none => .error (.unknownOperator .binary spelling)

/-- The logical operator of a spelling. -/
def LogicalOperator.find (spelling : String) : Except Fault LogicalOperator :=
  match ofSource? spelling with
  | some op => .ok op
  | none => .error (.unknownOperator .logical spelling)

/-- The unary operator of a spelling. -/
def UnaryOperator.find (spelling : String) : Except Fault UnaryOperator :=
  match ofSource? spelling with
  | some op => .ok op
  | none => .error (.unknownOperator .unary spelling)

/-- A unary operator in front of its operand.  A blank keeps two equal signs apart. -/
def UnaryOperator.apply (op : UnaryOperator) (operand : String) : String :=
  if op.isSign ∧ operand.toList.head? = some op.symbol then op.token ++ " " ++ operand
  else op.token ++ operand

/-! ### Literals and shapes -/

/-- The text of a literal. -/
def Literal.text : Literal → String
  | .generic none => "null"
  | .generic (some text) => if text = "nil" then "null" else text
  | .string value true => Template.literal value
  | .string value false => Quoted.literal value
  | .int text => text
  | .double text => text

namespace Expr

/-- Whether the text of an expression comes with parentheses around it. -/
def isParenthesized : Expr → Bool
  | .binary .. => true
  | .logical .. => true
  | .ternary .. => true
  | .grouping _ => true
  | _ => false

/-- Text in parentheses. -/
def parenthesized (text : String) : String := "(" ++ text ++ ")"

/-- The text without its first and last character. -/
def withoutEnds (text : String) : String := String.ofList (text.toList.drop 1).dropLast

/-- Leaving out the ends undoes the parentheses. -/
theorem withoutEnds_parenthesized (text : String) : withoutEnds (parenthesized text) = text := by
  simp [withoutEnds, parenthesized]

/-- The upper bound of a range, given its text, as a limit that is not reached.  The number after an integer
literal is written down; for any other bound of an inclusive range it is left to the script. -/
def exclusiveLimit (upper : Expr) (inclusive : Bool) (text : String) : String :=
  if inclusive then
    match upper with
    | .literal (.int numeral) => (Decimal.successor? numeral).getD (text ++ " + 1")
    | _ => text ++ " + 1"
  else text

/-- The key of a dictionary entry, given the key's text: a string or an unsigned number is a key as it is, and
any other expression is put into brackets. -/
def entryKey (key : Expr) (text : String) : String :=
  match key with
  | .literal (.string _ false) => text
  | .literal (.int numeral) => if numeral.toList.head? = some '-' then "[" ++ text ++ "]" else text
  | _ => "[" ++ text ++ "]"

/-- A dictionary of the given entries; the parentheses keep it from reading as a block. -/
def dictionaryText : List String → String
  | [] => "(\x7b\x7d)"
  | entries => "(\x7b " ++ Text.joinWith ", " entries ++ " \x7d)"

/-! ### Expressions -/

mutual

/-- The text emitted for an expression. -/
def text (mode : Mode) : Expr → Except Fault String
  | .assign target operator value => do
    let op ← AssignmentOperator.find operator
    let target ← target.text mode
    let value ← value.text mode
    return target ++ " " ++ op.token ++ " " ++ value
  | .ternary condition thenValue elseValue => do
    let condition ← condition.text mode
    let thenValue ← thenValue.text mode
    let elseValue ← elseValue.text mode
    return parenthesized (condition ++ " ? " ++ thenValue ++ " : " ++ elseValue)
  | .binary operator left right => do
    let op ← BinaryOperator.find operator
    let left ← left.text mode
    let right ← right.text mode
    return parenthesized (left ++ " " ++ op.token ++ " " ++ right)
  | .logical operator left right => do
    let op ← LogicalOperator.find operator
    let left ← left.text mode
    let right ← right.text mode
    return parenthesized (left ++ " " ++ op.token ++ " " ++ right)
  | .unary operator operand => do
    let op ← UnaryOperator.find operator
    let operand ← operand.text mode
    return op.apply operand
  | .call callee arguments construction => do
    let entries ← argumentTexts mode 0 arguments
    let base ← callee.text mode
    let bag := ParameterBag.argumentText entries
    if construction then return "new " ++ mode.constructible base ++ parenthesized bag
    else return base ++ (if callee.isOptionalChain then "?." else "") ++ parenthesized bag
  | .member object name => do
    let base ← object.text mode
    return base ++ (if object.isOptionalChain then "?." else ".") ++ Identifier.safe name
  | .index object position => do
    let base ← object.text mode
    match position with
    | .range lower upper inclusive =>
      let lower ← lower.text mode
      let limit ← upper.text mode
      return base ++ (if object.isOptionalChain then "?." else ".") ++ "slice(" ++ lower ++ ", " ++
        upper.exclusiveLimit inclusive limit ++ ")"
    | position =>
      let position ← position.text mode
      return base ++ (if object.isOptionalChain then "?." else "") ++ "[" ++ position ++ "]"
  | .optionalChain value _ => value.text mode
  | .cast value _ => value.text mode
  | .typeTest value target => do
    let subject ← value.text mode
    return "true /* " ++ Comment.inside subject ++ " is " ++ Comment.inside target.text ++ " */"
  | .attempt value kind => do
    let value ← value.text mode
    match kind with
    | .optional => return "__try(() => " ++ value ++ ")"
    | .plain => return value
    | .forced => return value
  | .literal value => return value.text
  | .itself => return "this"
  | .variable name => return mode.reference (Identifier.safe name)
  | .grouping inner => do
    let text ← inner.text mode
    return if inner.isParenthesized then text else parenthesized text
  | .array items => do
    let items ← texts mode items
    return "[" ++ Text.joinWith ", " items ++ "]"
  | .dictionary entries => do
    let entries ← entryTexts mode entries
    return dictionaryText entries
  | .range lower upper inclusive => do
    let lower ← lower.text mode
    let limit ← upper.text mode
    return "__range(" ++ lower ++ ", " ++ upper.exclusiveLimit inclusive limit ++ ")"

/-- The texts of some expressions. -/
def texts (mode : Mode) : List Expr → Except Fault (List String)
  | [] => return []
  | item :: rest => do
    let first ← item.text mode
    let others ← texts mode rest
    return first :: others

/-- The entries of a bag of arguments, the first of which stands at the given position. -/
def argumentTexts (mode : Mode) (index : Nat) : List Argument → Except Fault (List String)
  | [] => return []
  | ⟨label, value⟩ :: rest => do
    let value ← value.text mode
    let others ← argumentTexts mode (index + 1) rest
    return (ParameterBag.argumentKey index label ++ ": " ++ value) :: others

/-- The entries of a dictionary. -/
def entryTexts (mode : Mode) : List DictionaryEntry → Except Fault (List String)
  | [] => return []
  | ⟨key, value⟩ :: rest => do
    let keyText ← key.text mode
    let value ← value.text mode
    let others ← entryTexts mode rest
    return (key.entryKey keyText ++ ": " ++ value) :: others

end

/-- The text of an expression where parentheses are already around it. -/
def conditionText (mode : Mode) (condition : Expr) : Except Fault String := do
  let text ← condition.text mode
  match condition with
  | .binary .. => return withoutEnds text
  | .logical .. => return withoutEnds text
  | _ => return text

end Expr

end ScriptLowering
