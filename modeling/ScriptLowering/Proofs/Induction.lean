import ScriptLowering.Statement

/-!
# Induction over the tree

The types of the tree hold each other through lists and options.  The principles here have one case for each
form of an expression, a statement or a declaration, and give the property of every part of it.

* `Expr.induction` — over expressions, with a case of its own for a subscript by a range;
* `Expr.text_index` — the text of a subscript by anything else;
* `Stmt.induction` — over statements and over declarations in their scope;
* `chain`, `elseSteps_some` — the other branch of a conditional written through the steps of its statement.
-/

namespace ScriptLowering

/-! ### Expressions -/

/-- Induction over expressions.  A subscript by a range is lowered from the bounds of the range, so it is a
case apart. -/
@[elab_as_elim]
theorem Expr.induction {P : Expr → Prop}
    (assign : ∀ target operator value, P target → P value → P (.assign target operator value))
    (ternary : ∀ condition thenValue elseValue, P condition → P thenValue → P elseValue →
      P (.ternary condition thenValue elseValue))
    (binary : ∀ operator left right, P left → P right → P (.binary operator left right))
    (logical : ∀ operator left right, P left → P right → P (.logical operator left right))
    (unary : ∀ operator operand, P operand → P (.unary operator operand))
    (call : ∀ callee arguments construction, P callee → (∀ argument ∈ arguments, P argument.value) →
      P (.call callee arguments construction))
    (member : ∀ object name, P object → P (.member object name))
    (slice : ∀ object lower upper inclusive, P object → P lower → P upper →
      P (.index object (.range lower upper inclusive)))
    (index : ∀ object position, (∀ lower upper inclusive, position ≠ .range lower upper inclusive) →
      P object → P position → P (.index object position))
    (optionalChain : ∀ value forced, P value → P (.optionalChain value forced))
    (cast : ∀ value target, P value → P (.cast value target))
    (typeTest : ∀ value target, P value → P (.typeTest value target))
    (attempt : ∀ value kind, P value → P (.attempt value kind))
    (literal : ∀ value, P (.literal value))
    (itself : P .itself)
    (var : ∀ name, P (.variable name))
    (grouping : ∀ inner, P inner → P (.grouping inner))
    (array : ∀ items, (∀ item ∈ items, P item) → P (.array items))
    (dictionary : ∀ entries, (∀ entry ∈ entries, P entry.key ∧ P entry.value) → P (.dictionary entries))
    (range : ∀ lower upper inclusive, P lower → P upper → P (.range lower upper inclusive))
    (expr : Expr) : P expr := by
  refine (Expr.text.mutual_induct P (fun entries => ∀ entry ∈ entries, P entry.key ∧ P entry.value)
    (fun items => ∀ item ∈ items, P item) (fun _ arguments => ∀ argument ∈ arguments, P argument.value)
    assign ternary binary logical unary
    (fun callee arguments construction hs h => call callee arguments construction h hs)
    member ?_ optionalChain cast typeTest attempt literal itself var grouping array dictionary range
    ?_ ?_ ?_ ?_ ?_ ?_).1 expr
  · intro object position hobject hposition
    split at hposition
    · next lower upper inclusive => exact slice object lower upper inclusive hobject hposition.1 hposition.2
    · next hrange => exact index object position hrange hobject hposition
  · intro _ argument hargument
    exact absurd hargument List.not_mem_nil
  · intro _ label value rest hvalue hrest argument hargument
    rcases List.mem_cons.mp hargument with rfl | hargument
    · exact hvalue
    · exact hrest argument hargument
  · intro item hitem
    exact absurd hitem List.not_mem_nil
  · intro item rest hfirst hrest other hother
    rcases List.mem_cons.mp hother with rfl | hother
    · exact hfirst
    · exact hrest other hother
  · intro entry hentry
    exact absurd hentry List.not_mem_nil
  · intro key value rest hkey hvalue hrest entry hentry
    rcases List.mem_cons.mp hentry with rfl | hentry
    · exact ⟨hkey, hvalue⟩
    · exact hrest entry hentry

/-- The text of a subscript that is no range. -/
theorem Expr.text_index (mode : Mode) (object : Expr) {position : Expr}
    (h : ∀ lower upper inclusive, position ≠ .range lower upper inclusive) :
    (Expr.index object position).text mode = (do
      let base ← object.text mode
      let inner ← position.text mode
      return base ++ (if object.isOptionalChain then "?." else "") ++ "[" ++ inner ++ "]") := by
  rw [Expr.text]
  congr 1
  funext base
  split
  · next lower upper inclusive => exact absurd rfl (h lower upper inclusive)
  · rfl

/-! ### Statements and declarations -/

/-- Induction over statements and declarations.  A declaration is taken with the scope in which it stands. -/
theorem Stmt.induction {P : Stmt → Prop} {Q : Scope → Decl → Prop}
    (var : ∀ scope decl, Q scope (.variable decl))
    (enumeration : ∀ scope decl, Q scope (.enumeration decl))
    (typeAlias : ∀ scope decl, Q scope (.typeAlias decl))
    (nested : ∀ kind decl, Q .member (.type kind decl))
    (type : ∀ kind name parents members, (∀ decl ∈ members, Q .member decl) →
      Q .block (.type kind ⟨name, parents, members⟩))
    (function : ∀ scope name parameters returnType body isStatic, (∀ statement ∈ body, P statement) →
      Q scope (.function ⟨name, parameters, returnType, body, isStatic⟩))
    (decl : ∀ declared, Q .block declared → P (.decl declared))
    (expr : ∀ value, P (.expr value))
    (block : ∀ body, (∀ statement ∈ body, P statement) → P (.block body))
    (ifThen : ∀ condition thenBranch elseBranch, (∀ statement ∈ thenBranch, P statement) →
      (∀ statement, elseBranch = some statement → P statement) → P (.ifThen condition thenBranch elseBranch))
    (ifLet : ∀ name value thenBranch elseBranch, (∀ statement ∈ thenBranch, P statement) →
      (∀ statement, elseBranch = some statement → P statement) → P (.ifLet name value thenBranch elseBranch))
    (guard : ∀ condition body, (∀ statement ∈ body, P statement) → P (.guard condition body))
    (guardLet : ∀ name value body, (∀ statement ∈ body, P statement) → P (.guardLet name value body))
    (switch : ∀ subject cases fallback, (∀ branch ∈ cases, ∀ statement ∈ branch.body, P statement) →
      (∀ body, fallback = some body → ∀ statement ∈ body, P statement) → P (.switch subject cases fallback))
    (forIn : ∀ counter sequence body, (∀ statement ∈ body, P statement) → P (.forIn counter sequence body))
    (whileLoop : ∀ condition body, (∀ statement ∈ body, P statement) → P (.whileLoop condition body))
    (repeatWhile : ∀ body condition, (∀ statement ∈ body, P statement) → P (.repeatWhile body condition))
    (returns : ∀ value, P (.returns value))
    (breaks : P .breaks) (continues : P .continues) (blank : P .blank)
    (doCatch : ∀ body binding handler, (∀ statement ∈ body, P statement) →
      (∀ statement ∈ handler, P statement) → P (.doCatch body binding handler))
    (throws : ∀ value, P (.throws value)) :
    (∀ statement, P statement) ∧ ∀ scope decl, Q scope decl := by
  have hlist : ∀ {α : Type} {R : α → Prop} (first : α) (rest : List α), R first → (∀ item ∈ rest, R item) →
      ∀ item ∈ first :: rest, R item := fun first rest hfirst hrest =>
    List.forall_mem_cons.mpr ⟨hfirst, hrest⟩
  have hsome : ∀ statement, P statement → ∀ other, some statement = some other → P other := by
    intro statement hstatement other hother
    injection hother with hother
    exact hother ▸ hstatement
  have h := Stmt.steps.mutual_induct P (fun fallback => ∀ body, fallback = some body → ∀ s ∈ body, P s)
    (fun body => ∀ s ∈ body, P s) (fun cases => ∀ branch ∈ cases, ∀ s ∈ branch.body, P s)
    (fun elseBranch => ∀ s, elseBranch = some s → P s) Q (fun members => ∀ member ∈ members, Q .member member)
    var enumeration typeAlias (fun kind name parents members => nested kind ⟨name, parents, members⟩) type function
    decl expr block ifThen ifLet guard guardLet switch forIn whileLoop repeatWhile (returns none)
    (fun value => returns (some value)) breaks continues blank doCatch throws
    (fun _ hmember => nomatch hmember) hlist (fun _ hstatement => nomatch hstatement) hlist
    (fun _ hstatement => nomatch hstatement)
    (fun condition thenBranch elseBranch hthen helse => hsome _ (ifThen condition thenBranch elseBranch hthen helse))
    (fun body hbody => hsome _ (block body hbody)) (fun statement _ _ hstatement => hsome statement hstatement)
    (fun _ hbranch => nomatch hbranch) (fun patterns body rest hbody hrest => hlist ⟨patterns, body⟩ rest hbody hrest)
    (fun _ hbody => nomatch hbody) (fun body hbody other hother => Option.some.inj hother ▸ hbody)
  exact ⟨h.1, h.2.2.2.2.2.1⟩

/-! ### The other branch of a conditional -/

/-- The steps that end an open conditional with a statement in its other branch, from the steps of that
statement.  A conditional goes on in the line of the closing brace. -/
def chain : Stmt → List Step → List Step
  | .ifThen .., .opening header :: rest => .reopening ("else " ++ header) :: rest
  | _, steps => .reopening "else" :: steps ++ [.closing ""]

/-- The other branch of a conditional holds the steps of its statement. -/
theorem elseSteps_some (mode : Mode) (statement : Stmt) :
    elseSteps mode (some statement) = (do
      let steps ← statement.steps mode
      return chain statement steps) := by
  cases statement with
  | ifThen condition thenBranch elseBranch =>
    have hheader : ∀ test : String, "else if (" ++ test ++ ")" = "else " ++ ("if (" ++ test ++ ")") := by
      intro test
      rw [← String.append_assoc, ← String.append_assoc]
      rfl
    rw [elseSteps, Stmt.steps]
    simp only [bind_assoc, pure_bind, chain, List.cons_append, hheader]
  | block body => rw [elseSteps, Stmt.steps]; rfl
  | _ => simp only [elseSteps, chain]

end ScriptLowering
