import ScriptLowering.Statement

/-!
# The nodes of a statement

What a statement holds, as one list in source order: every statement, declaration, parameter, case, pattern and
expression in it, each in front of its own parts.  The one part left out is the value that a variadic parameter
would fall back on, which is never lowered.

* `Node` — a part of a statement, with the role it has there;
* `Expr.nodes`, `Stmt.nodes`, `Decl.nodes` — the nodes of a part, in the order of its fields;
* `Stmt.doubles` — the Double literals of a statement;
* `Word` — a name or a literal that the source spells out;
* `Node.words`, `Stmt.words` — the words of a node itself and of a whole statement;
* `AllWords` — every word of some nodes has a property.
-/

namespace ScriptLowering

/-- A part of a statement, in the role it has there. -/
inductive Node where
  | expr (value : Expr)
  /-- An expression as a pattern of a switch. -/
  | pattern (value : Expr)
  | stmt (value : Stmt)
  | decl (scope : Scope) (value : Decl)
  | parameter (value : Parameter)
  /-- One case of a switch. -/
  | branch (value : SwitchCase)

/-! ### Nodes -/

namespace Expr

mutual

/-- The nodes of an expression. -/
def nodes : Expr → List Node
  | e@(.assign target _ value) => .expr e :: (target.nodes ++ value.nodes)
  | e@(.ternary condition thenValue elseValue) =>
    .expr e :: (condition.nodes ++ (thenValue.nodes ++ elseValue.nodes))
  | e@(.binary _ left right) => .expr e :: (left.nodes ++ right.nodes)
  | e@(.logical _ left right) => .expr e :: (left.nodes ++ right.nodes)
  | e@(.unary _ operand) => .expr e :: operand.nodes
  | e@(.call callee arguments _) => .expr e :: (callee.nodes ++ argumentNodes arguments)
  | e@(.member object _) => .expr e :: object.nodes
  | e@(.index object position) => .expr e :: (object.nodes ++ position.nodes)
  | e@(.optionalChain value _) => .expr e :: value.nodes
  | e@(.cast value _) => .expr e :: value.nodes
  | e@(.typeTest value _) => .expr e :: value.nodes
  | e@(.attempt value _) => .expr e :: value.nodes
  | e@(.literal _) => [.expr e]
  | e@(.itself) => [.expr e]
  | e@(.variable _) => [.expr e]
  | e@(.grouping inner) => .expr e :: inner.nodes
  | e@(.array items) => .expr e :: itemNodes items
  | e@(.dictionary entries) => .expr e :: entryNodes entries
  | e@(.range lower upper _) => .expr e :: (lower.nodes ++ upper.nodes)

/-- The nodes of some expressions. -/
def itemNodes : List Expr → List Node
  | [] => []
  | item :: rest => item.nodes ++ itemNodes rest

/-- The nodes of some arguments. -/
def argumentNodes : List Argument → List Node
  | [] => []
  | ⟨_, value⟩ :: rest => value.nodes ++ argumentNodes rest

/-- The nodes of some entries of a dictionary. -/
def entryNodes : List DictionaryEntry → List Node
  | [] => []
  | ⟨key, value⟩ :: rest => key.nodes ++ (value.nodes ++ entryNodes rest)

end

/-- The nodes of an expression that may be missing. -/
def optionNodes (value : Option Expr) : List Node := value.toList.flatMap nodes

/-- The nodes of the patterns of a case. -/
def patternNodes (patterns : List Expr) : List Node := patterns.flatMap fun value => .pattern value :: value.nodes

end Expr

/-- The nodes of a parameter.  What a variadic parameter would fall back on is not lowered. -/
def Parameter.nodes (parameter : Parameter) : List Node :=
  .parameter parameter :: if parameter.isVariadic then [] else Expr.optionNodes parameter.fallback

mutual

/-- The nodes of a statement. -/
def Stmt.nodes : Stmt → List Node
  | s@(.decl declared) => .stmt s :: declared.nodes .block
  | s@(.expr value) => .stmt s :: value.nodes
  | s@(.block body) => .stmt s :: blockNodes body
  | s@(.ifThen condition thenBranch elseBranch) =>
    .stmt s :: (condition.nodes ++ (blockNodes thenBranch ++ elseNodes elseBranch))
  | s@(.ifLet _ value thenBranch elseBranch) =>
    .stmt s :: (value.nodes ++ (blockNodes thenBranch ++ elseNodes elseBranch))
  | s@(.guard condition body) => .stmt s :: (condition.nodes ++ blockNodes body)
  | s@(.guardLet _ value body) => .stmt s :: (value.nodes ++ blockNodes body)
  | s@(.switch subject cases fallback) =>
    .stmt s :: (subject.nodes ++ (branchNodes cases ++ fallbackNodes fallback))
  | s@(.forIn _ sequence body) => .stmt s :: (sequence.nodes ++ blockNodes body)
  | s@(.whileLoop condition body) => .stmt s :: (condition.nodes ++ blockNodes body)
  | s@(.repeatWhile body condition) => .stmt s :: (blockNodes body ++ condition.nodes)
  | s@(.returns value) => .stmt s :: Expr.optionNodes value
  | s@(.breaks) => [.stmt s]
  | s@(.continues) => [.stmt s]
  | s@(.blank) => [.stmt s]
  | s@(.doCatch body _ handler) => .stmt s :: (blockNodes body ++ blockNodes handler)
  | s@(.throws value) => .stmt s :: value.nodes

/-- The nodes of the statements of a block. -/
def blockNodes : List Stmt → List Node
  | [] => []
  | statement :: rest => statement.nodes ++ blockNodes rest

/-- The nodes of the other branch of a conditional. -/
def elseNodes : Option Stmt → List Node
  | none => []
  | some statement => statement.nodes

/-- The nodes of the cases of a switch. -/
def branchNodes : List SwitchCase → List Node
  | [] => []
  | ⟨patterns, body⟩ :: rest =>
    .branch ⟨patterns, body⟩ :: (Expr.patternNodes patterns ++ (blockNodes body ++ branchNodes rest))

/-- The nodes of what a switch does when no case fits. -/
def fallbackNodes : Option (List Stmt) → List Node
  | none => []
  | some body => blockNodes body

/-- The nodes of a declaration in its scope. -/
def Decl.nodes (scope : Scope) : Decl → List Node
  | d@(.variable decl) => .decl scope d :: Expr.optionNodes decl.initializer
  | d@(.type _ ⟨_, _, members⟩) => .decl scope d :: memberNodes members
  | d@(.function ⟨_, parameters, _, body, _⟩) =>
    .decl scope d :: (parameters.flatMap Parameter.nodes ++ blockNodes body)
  | d@(.enumeration _) => [.decl scope d]
  | d@(.typeAlias _) => [.decl scope d]

/-- The nodes of the members of a type. -/
def memberNodes : List Decl → List Node
  | [] => []
  | member :: rest => member.nodes .member ++ memberNodes rest

end

/-! ### Double literals -/

/-- The text of a literal that is a Double. -/
def Literal.doubles : Literal → List String
  | .double text => [text]
  | _ => []

/-- The Double literal that a node is. -/
def Node.doubles : Node → List String
  | .expr (.literal value) => value.doubles
  | _ => []

/-- The texts of the Double literals of a statement, in source order. -/
def Stmt.doubles (statement : Stmt) : List String := statement.nodes.flatMap Node.doubles

/-! ### Words -/

/-- What the source spells out: a name, a label or the name of a type, or else a literal. -/
inductive Word where
  | name (text : String)
  | literal (value : Literal)
deriving DecidableEq

/-- What the source spells out for a word. -/
def Word.text : Word → String
  | .name text => text
  | .literal (.generic text) => text.getD ""
  | .literal (.string value _) => value
  | .literal (.int text) => text
  | .literal (.double text) => text

/-- Whether a word is a Double literal. -/
def Word.isDouble : Word → Bool
  | .literal (.double _) => true
  | _ => false

/-- Whether a word is a string literal. -/
def Word.isString : Word → Bool
  | .literal (.string ..) => true
  | _ => false

/-- The names in a type. -/
def SourceType.names : SourceType → List String
  | .named name => [name]
  | .array element => element.names
  | .dictionary key value => key.names ++ value.names
  | .optional wrapped => wrapped.names

/-- The words of a type. -/
def SourceType.words (type : SourceType) : List Word := type.names.map .name

/-- The words of a type that may be missing. -/
def SourceType.optionWords (type : Option SourceType) : List Word := type.toList.flatMap words

/-- The words of an expression itself, without those of its parts. -/
def Expr.ownWords : Expr → List Word
  | .call _ arguments _ => (arguments.filterMap (·.label)).map .name
  | .member _ name => [.name name]
  | .cast _ target => target.words
  | .typeTest _ target => target.words
  | .literal value => [.literal value]
  | .variable name => [.name name]
  | _ => []

/-- The words of a statement itself, without those of its parts. -/
def Stmt.ownWords : Stmt → List Word
  | .ifLet name .. => [.name name]
  | .guardLet name .. => [.name name]
  | .forIn counter .. => [.name counter]
  | .doCatch _ binding _ => binding.toList.map .name
  | _ => []

/-- The words of a declaration itself, without those of its parts. -/
def Decl.ownWords : Decl → List Word
  | .variable decl => .name decl.name :: SourceType.optionWords decl.annotation
  | .type _ decl => (decl.name :: decl.parents).map .name
  | .function decl => .name decl.name :: SourceType.optionWords decl.returnType
  | .enumeration decl => (decl.name :: decl.cases).map .name
  | .typeAlias decl => .name decl.name :: decl.target.words

/-- The words of a parameter. -/
def Parameter.ownWords (parameter : Parameter) : List Word :=
  .name parameter.name :: (parameter.label.toList.map .name ++ SourceType.optionWords parameter.annotation)

/-- The words of a node itself, without those of its parts. -/
def Node.words : Node → List Word
  | .expr value => value.ownWords
  | .pattern _ => []
  | .stmt value => value.ownWords
  | .decl _ value => value.ownWords
  | .parameter value => value.ownWords
  | .branch _ => []

/-- The words of a statement, in source order. -/
def Stmt.words (statement : Stmt) : List Word := statement.nodes.flatMap Node.words

/-- A check of all words but some, character by character. -/
theorem Word.all_chars {skipped : Word → Bool} {refused : Char → Bool} {words : List Word}
    (h : words.all (fun word => skipped word || word.text.toList.all fun c => !refused c) = true) :
    ∀ word ∈ words, skipped word = false → ∀ c ∈ word.text.toList, refused c = false := by
  intro word hword hskipped c hc
  have hchars := List.all_eq_true.mp h word hword
  rw [hskipped, Bool.false_or] at hchars
  exact Bool.not_eq_true' _ |>.mp (List.all_eq_true.mp hchars c hc)

/-! ### Properties of all words -/

/-- Every word of some nodes has the property `W`. -/
def AllWords (W : Word → Prop) (nodes : List Node) : Prop := ∀ word ∈ nodes.flatMap Node.words, W word

variable {W : Word → Prop}

@[simp]
theorem allWords_cons (node : Node) (nodes : List Node) :
    AllWords W (node :: nodes) ↔ (∀ word ∈ node.words, W word) ∧ AllWords W nodes := by
  rw [AllWords, List.flatMap_cons, List.forall_mem_append]
  rfl

@[simp]
theorem allWords_append (first second : List Node) :
    AllWords W (first ++ second) ↔ AllWords W first ∧ AllWords W second := by
  rw [AllWords, List.flatMap_append, List.forall_mem_append]
  rfl

end ScriptLowering
