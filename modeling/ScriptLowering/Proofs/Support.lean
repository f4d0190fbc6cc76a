import ScriptLowering.Proofs.Induction
import ScriptLowering.Proofs.Node
import ScriptLowering.Proofs.Outcome

/-!
# Which statements can be lowered

A statement can be lowered exactly when none of its nodes is out of place, and a fault always names such a node.

* `Offence` — a node that has no place where it stands, with the fault that names it;
* `Offence.message_eq` — what the message of such a fault says about the node;
* `Node.isInnocent` — the forms of nodes that are never one, decided by the form alone;
* `Clear`, `Found` — some nodes hold no offence, or one with a given fault;
* `Judged`, `JudgedWriting` — a run succeeds on clear nodes and else fails with a fault found in them;
* `Expr.text_judged`, `Stmt.steps_judged` — expressions, statements and declarations are judged by their nodes;
* `Stmt.lower_judged` — the text of a statement.
-/

namespace ScriptLowering

/-! ### Offences -/

/-- A node that cannot be lowered where it stands, with the fault that names it. -/
inductive Offence : Node → Fault → Prop where
  | assignment {target operator value} (h : AssignmentOperator.ofSource? operator = none) :
      Offence (.expr (.assign target operator value)) (.unknownOperator .assignment operator)
  | binary {operator left right} (h : BinaryOperator.ofSource? operator = none) :
      Offence (.expr (.binary operator left right)) (.unknownOperator .binary operator)
  | logical {operator left right} (h : LogicalOperator.ofSource? operator = none) :
      Offence (.expr (.logical operator left right)) (.unknownOperator .logical operator)
  | unary {operator operand} (h : UnaryOperator.ofSource? operator = none) :
      Offence (.expr (.unary operator operand)) (.unknownOperator .unary operator)
  | nestedType {kind decl} : Offence (.decl .member (.type kind decl)) (.unsupported (.nestedType kind))
  | looseInitializer {decl : FunctionDecl} (h : decl.name = "init") :
      Offence (.decl .block (.function decl)) (.unsupported .looseInitializer)
  /-- A variadic parameter that another one follows. -/
  | misplacedVariadic {scope parameter} {decl : FunctionDecl} (h : parameter ∈ decl.parameters.dropLast)
      (hvariadic : parameter.isVariadic = true) :
      Offence (.decl scope (.function decl)) (.misplacedVariadic decl.name parameter.name)
  | caseWithoutPatterns {body} : Offence (.branch ⟨[], body⟩) (.unsupported .caseWithoutPatterns)
  | rangePattern {lower upper inclusive} :
      Offence (.pattern (.range lower upper inclusive)) (.unsupported .rangePattern)

/-- The word for a node in messages; a function `init` has one of its own outside of a type. -/
def Node.kind : Node → String
  | .expr value | .pattern value => value.kind
  | .stmt value => value.kind
  | .decl .block (.function declared) => if declared.name = "init" then "initializer" else "function"
  | .decl _ value => value.kind
  | .parameter _ => "parameter"
  | .branch _ => "case"

/-- The message of a fault at a node of the given kind. -/
def Fault.messageFor (kind : String) : Fault → String
  | .unsupported place => "unsupported " ++ kind ++ " " ++ place.context
  | .unknownOperator _ spelling => "unsupported " ++ kind ++ " operator `" ++ spelling ++ "`"
  | .misplacedVariadic function parameter =>
    "variadic parameter `" ++ parameter ++ "` of `" ++ function ++ "` must be the only variadic and the last parameter"

/-- The kind that a message names is that of the offending node. -/
theorem Offence.message_eq {node : Node} {fault : Fault} (h : Offence node fault) :
    fault.message = fault.messageFor node.kind := by
  cases h with
  | looseInitializer hname =>
    rw [Node.kind, if_pos hname]
    rfl
  | _ => rfl

/-- Whether the form of a node alone tells that it is no offence. -/
def Node.isInnocent : Node → Bool
  | .expr (.assign ..) | .expr (.binary ..) | .expr (.logical ..) | .expr (.unary ..) => false
  | .decl scope (.type ..) => scope != .member
  | .decl _ (.function _) => false
  | .branch ⟨patterns, _⟩ => !patterns.isEmpty
  | .pattern (.range ..) => false
  | _ => true

theorem Node.not_offence {node : Node} (h : node.isInnocent = true) (fault : Fault) : ¬ Offence node fault := by
  intro hoffence
  cases hoffence <;> exact Bool.noConfusion h

/-- None of the nodes is an offence. -/
def Clear (nodes : List Node) : Prop := ∀ node ∈ nodes, ∀ fault, ¬ Offence node fault

/-- One of the nodes is an offence with the given fault. -/
def Found (nodes : List Node) (fault : Fault) : Prop := ∃ node ∈ nodes, Offence node fault

/-- A run is judged by some nodes: it succeeds only when they are clear, and fails only with a fault that is
found in them. -/
def Judged {α : Type} (result : Except Fault α) (nodes : List Node) : Prop :=
  Outcome result (fun _ => Clear nodes) (Found nodes)

/-- Writing is judged by some nodes. -/
def JudgedWriting {α : Type} (emission : Emission α) (nodes : List Node) : Prop :=
  Emits emission (fun _ => Clear nodes) (Found nodes)

/-! ### Judging a run by its parts -/

section

variable {α β : Type} {first second nodes others : List Node}

theorem clear_nil : Clear [] := List.forall_mem_nil _

theorem Clear.append (hfirst : Clear first) (hsecond : Clear second) : Clear (first ++ second) :=
  List.forall_mem_append.mpr ⟨hfirst, hsecond⟩

theorem Clear.of_subset (h : Clear nodes) (hsub : others ⊆ nodes) : Clear others :=
  fun node hnode => h node (hsub hnode)

theorem Found.of_subset {fault : Fault} (h : Found nodes fault) (hsub : nodes ⊆ others) : Found others fault := by
  obtain ⟨node, hnode, hoffence⟩ := h
  exact ⟨node, hsub hnode, hoffence⟩

theorem Judged.pure (value : α) : Judged (Pure.pure value : Except Fault α) [] := clear_nil

theorem Judged.bind {x : Except Fault α} {next : α → Except Fault β} (hx : Judged x first)
    (hnext : ∀ value, Judged (next value) second) : Judged (x >>= next) (first ++ second) := by
  refine Outcome.bind (hx.mono (fun _ h => h) fun _ h => h.of_subset (List.subset_append_left _ _)) ?_
  intro value hfirst
  exact (hnext value).mono (fun _ hsecond => hfirst.append hsecond)
    fun _ h => h.of_subset (List.subset_append_right _ _)

/-- The last part of a run that cannot fail does not count. -/
theorem Judged.done {x : Except Fault α} {next : α → Except Fault β} (hx : Judged x nodes)
    (hnext : ∀ value, ∃ result, next value = .ok result) : Judged (x >>= next) nodes := by
  refine Outcome.bind hx fun value hclear => ?_
  obtain ⟨result, hresult⟩ := hnext value
  rw [hresult]
  exact Outcome.ok hclear

/-- Only membership counts among the nodes that judge a run. -/
theorem Judged.congr {x : Except Fault α} (h : Judged x nodes) (hmem : ∀ node, node ∈ nodes ↔ node ∈ others) :
    Judged x others :=
  h.mono (fun _ hclear => hclear.of_subset fun node => (hmem node).mpr)
    fun _ hfound => hfound.of_subset fun node => (hmem node).mp

/-- A node that is never an offence does not count. -/
theorem Judged.cons {x : Except Fault α} {node : Node} (hnode : ∀ fault, ¬ Offence node fault)
    (h : Judged x nodes) : Judged x (node :: nodes) :=
  h.mono (fun _ hclear => List.forall_mem_cons.mpr ⟨hnode, hclear⟩)
    fun _ hfound => hfound.of_subset (List.subset_cons_self _ _)

theorem Judged.skip {x : Except Fault α} {node : Node} (hnode : node.isInnocent = true) (h : Judged x nodes) :
    Judged x (node :: nodes) :=
  Judged.cons (Node.not_offence hnode) h

theorem JudgedWriting.pure (value : α) : JudgedWriting (Pure.pure value) [] := fun _ => clear_nil

theorem JudgedWriting.bind {x : Emission α} {next : α → Emission β} (hx : JudgedWriting x first)
    (hnext : ∀ value, JudgedWriting (next value) second) : JudgedWriting (x >>= next) (first ++ second) := by
  refine Emits.bind (hx.mono (fun _ h => h) fun _ h => h.of_subset (List.subset_append_left _ _)) ?_
  intro value hfirst
  exact (hnext value).mono (fun _ hsecond => hfirst.append hsecond)
    fun _ h => h.of_subset (List.subset_append_right _ _)

theorem JudgedWriting.done {x : Emission α} {next : α → Emission β} (hx : JudgedWriting x nodes)
    (hnext : ∀ value, ∃ result, next value = Pure.pure result) : JudgedWriting (x >>= next) nodes := by
  refine Emits.bind hx fun value hclear => ?_
  obtain ⟨result, hresult⟩ := hnext value
  rw [hresult]
  exact Emits.pure hclear

theorem JudgedWriting.lift {x : Except Fault α} (h : Judged x nodes) :
    JudgedWriting (liftM x : Emission α) nodes :=
  Emits.lift h

theorem JudgedWriting.skip {x : Emission α} {node : Node} (hnode : node.isInnocent = true)
    (h : JudgedWriting x nodes) : JudgedWriting x (node :: nodes) :=
  fun drawn => Judged.skip hnode (h drawn)

end

/-! ### Expressions -/

/-- Looking up an operator fails only for a spelling that is not in the table. -/
theorem Judged.lookup {α : Type} {node : Node} {x : Except Fault α} (known : Option α) (fault : Fault)
    (hoffence : ∀ other, Offence node other ↔ known = none ∧ other = fault)
    (hknown : ∀ op, known = some op → x = .ok op) (hunknown : known = none → x = .error fault) :
    Judged x [node] := by
  cases known with
  | some op =>
    rw [hknown op rfl]
    refine Outcome.ok (List.forall_mem_singleton.mpr ?_)
    intro other hother
    exact nomatch ((hoffence other).mp hother).1
  | none =>
    rw [hunknown rfl]
    exact Outcome.error ⟨node, List.mem_singleton_self node, (hoffence fault).mpr ⟨rfl, rfl⟩⟩

theorem AssignmentOperator.find_judged (target : Expr) (operator : String) (value : Expr) :
    Judged (AssignmentOperator.find operator) [.expr (.assign target operator value)] := by
  refine Judged.lookup (AssignmentOperator.ofSource? operator) (.unknownOperator .assignment operator)
    (fun other => ⟨?_, ?_⟩) (fun op h => ?_) fun h => ?_
  · intro hother
    cases hother with
    | assignment h => exact ⟨h, rfl⟩
  · rintro ⟨h, rfl⟩
    exact .assignment h
  · rw [AssignmentOperator.find, h]
  · rw [AssignmentOperator.find, h]

theorem BinaryOperator.find_judged (operator : String) (left right : Expr) :
    Judged (BinaryOperator.find operator) [.expr (.binary operator left right)] := by
  refine Judged.lookup (BinaryOperator.ofSource? operator) (.unknownOperator .binary operator)
    (fun other => ⟨?_, ?_⟩) (fun op h => ?_) fun h => ?_
  · intro hother
    cases hother with
    | binary h => exact ⟨h, rfl⟩
  · rintro ⟨h, rfl⟩
    exact .binary h
  · rw [BinaryOperator.find, h]
  · rw [BinaryOperator.find, h]

theorem LogicalOperator.find_judged (operator : String) (left right : Expr) :
    Judged (LogicalOperator.find operator) [.expr (.logical operator left right)] := by
  refine Judged.lookup (LogicalOperator.ofSource? operator) (.unknownOperator .logical operator)
    (fun other => ⟨?_, ?_⟩) (fun op h => ?_) fun h => ?_
  · intro hother
    cases hother with
    | logical h => exact ⟨h, rfl⟩
  · rintro ⟨h, rfl⟩
    exact .logical h
  · rw [LogicalOperator.find, h]
  · rw [LogicalOperator.find, h]

theorem UnaryOperator.find_judged (operator : String) (operand : Expr) :
    Judged (UnaryOperator.find operator) [.expr (.unary operator operand)] := by
  refine Judged.lookup (UnaryOperator.ofSource? operator) (.unknownOperator .unary operator)
    (fun other => ⟨?_, ?_⟩) (fun op h => ?_) fun h => ?_
  · intro hother
    cases hother with
    | unary h => exact ⟨h, rfl⟩
  · rintro ⟨h, rfl⟩
    exact .unary h
  · rw [UnaryOperator.find, h]
  · rw [UnaryOperator.find, h]

namespace Expr

variable {mode : Mode}

theorem texts_judged {items : List Expr} (h : ∀ item ∈ items, Judged (item.text mode) item.nodes) :
    Judged (texts mode items) (itemNodes items) := by
  induction items with
  | nil => exact Judged.pure _
  | cons item rest ih =>
    have hrest := ih fun other hother => h other (List.mem_cons_of_mem item hother)
    rw [texts, itemNodes]
    exact (h item List.mem_cons_self).bind fun _ => hrest.done fun _ => ⟨_, rfl⟩

theorem argumentTexts_judged {arguments : List Argument} (index : Nat)
    (h : ∀ argument ∈ arguments, Judged (argument.value.text mode) argument.value.nodes) :
    Judged (argumentTexts mode index arguments) (argumentNodes arguments) := by
  induction arguments generalizing index with
  | nil => exact Judged.pure _
  | cons argument rest ih =>
    obtain ⟨label, value⟩ := argument
    have hvalue : Judged (value.text mode) value.nodes := h ⟨label, value⟩ List.mem_cons_self
    have hrest := ih (index + 1) fun other hother => h other (List.mem_cons_of_mem _ hother)
    rw [argumentTexts, argumentNodes]
    exact hvalue.bind fun _ => hrest.done fun _ => ⟨_, rfl⟩

theorem entryTexts_judged {entries : List DictionaryEntry}
    (h : ∀ entry ∈ entries, Judged (entry.key.text mode) entry.key.nodes ∧
      Judged (entry.value.text mode) entry.value.nodes) :
    Judged (entryTexts mode entries) (entryNodes entries) := by
  induction entries with
  | nil => exact Judged.pure _
  | cons entry rest ih =>
    obtain ⟨key, value⟩ := entry
    obtain ⟨hkey, hvalue⟩ := h ⟨key, value⟩ List.mem_cons_self
    have hrest := ih fun other hother => h other (List.mem_cons_of_mem _ hother)
    rw [entryTexts, entryNodes]
    exact hkey.bind fun _ => hvalue.bind fun _ => hrest.done fun _ => ⟨_, rfl⟩

/-- **Expressions are judged by their nodes.** -/
theorem text_judged (mode : Mode) (e : Expr) : Judged (e.text mode) e.nodes := by
  induction e using Expr.induction with
  | assign target operator value htarget hvalue =>
    rw [text, nodes]
    exact (AssignmentOperator.find_judged target operator value).bind fun _ =>
      htarget.bind fun _ => hvalue.done fun _ => ⟨_, rfl⟩
  | ternary condition thenValue elseValue hcondition hthen helse =>
    rw [text, nodes]
    exact Judged.skip rfl (hcondition.bind fun _ => hthen.bind fun _ => helse.done fun _ => ⟨_, rfl⟩)
  | binary operator left right hleft hright =>
    rw [text, nodes]
    exact (BinaryOperator.find_judged operator left right).bind fun _ =>
      hleft.bind fun _ => hright.done fun _ => ⟨_, rfl⟩
  | logical operator left right hleft hright =>
    rw [text, nodes]
    exact (LogicalOperator.find_judged operator left right).bind fun _ =>
      hleft.bind fun _ => hright.done fun _ => ⟨_, rfl⟩
  | unary operator operand hoperand =>
    rw [text, nodes]
    exact (UnaryOperator.find_judged operator operand).bind fun _ => hoperand.done fun _ => ⟨_, rfl⟩
  | call callee arguments construction hcallee harguments =>
    -- The arguments are lowered before the callee, which stands in front of them.
    rw [text, nodes]
    refine Judged.skip rfl (((argumentTexts_judged 0 harguments).bind fun _ =>
      hcallee.done fun _ => ?_).congr fun node => ?_)
    · split <;> exact ⟨_, rfl⟩
    · rw [List.mem_append, List.mem_append, or_comm]
  | member object name hobject =>
    rw [text, nodes]
    exact Judged.skip rfl (hobject.done fun _ => ⟨_, rfl⟩)
  | slice object lower upper inclusive hobject hlower hupper =>
    rw [text, nodes, nodes]
    exact Judged.skip rfl (hobject.bind fun _ => Judged.skip rfl
      (hlower.bind fun _ => hupper.done fun _ => ⟨_, rfl⟩))
  | index object position hrange hobject hposition =>
    rw [text, nodes]
    refine Judged.skip rfl (hobject.bind fun _ => ?_)
    split
    · next lower upper inclusive => exact absurd rfl (hrange lower upper inclusive)
    · exact hposition.done fun _ => ⟨_, rfl⟩
  | optionalChain value forced hvalue =>
    rw [text, nodes]
    exact Judged.skip rfl hvalue
  | cast value target hvalue =>
    rw [text, nodes]
    exact Judged.skip rfl hvalue
  | typeTest value target hvalue =>
    rw [text, nodes]
    exact Judged.skip rfl (hvalue.done fun _ => ⟨_, rfl⟩)
  | attempt value kind hvalue =>
    rw [text, nodes]
    refine Judged.skip rfl (hvalue.done fun _ => ?_)
    split <;> exact ⟨_, rfl⟩
  | literal value =>
    rw [text, nodes]
    exact Judged.skip rfl (Judged.pure _)
  | itself =>
    rw [text, nodes]
    exact Judged.skip rfl (Judged.pure _)
  | var name =>
    rw [text, nodes]
    exact Judged.skip rfl (Judged.pure _)
  | grouping inner hinner =>
    rw [text, nodes]
    exact Judged.skip rfl (hinner.done fun _ => ⟨_, rfl⟩)
  | array items hitems =>
    rw [text, nodes]
    exact Judged.skip rfl ((texts_judged hitems).done fun _ => ⟨_, rfl⟩)
  | dictionary entries hentries =>
    rw [text, nodes]
    exact Judged.skip rfl ((entryTexts_judged hentries).done fun _ => ⟨_, rfl⟩)
  | range lower upper inclusive hlower hupper =>
    rw [text, nodes]
    exact Judged.skip rfl (hlower.bind fun _ => hupper.done fun _ => ⟨_, rfl⟩)

theorem conditionText_judged (mode : Mode) (condition : Expr) :
    Judged (condition.conditionText mode) condition.nodes := by
  rw [conditionText]
  refine (text_judged mode condition).done fun _ => ?_
  split <;> exact ⟨_, rfl⟩

end Expr

/-! ### Parts of statements -/

theorem unwrap_judged (mode : Mode) (name : String) (value : Expr) :
    JudgedWriting (unwrap mode name value) value.nodes := by
  rw [unwrap]
  refine Emits.bind (Emits.lift (value.text_judged mode)) fun text hclear => ?_
  split
  · exact Emits.pure hclear
  · exact Emits.bind (Emits.drawTemporary .opt) fun _ _ => Emits.pure hclear

theorem loopSteps_judged (mode : Mode) (counter : String) (sequence : Expr) :
    JudgedWriting (loopSteps mode counter sequence) sequence.nodes := by
  unfold loopSteps
  split
  · next lower upper inclusive =>
    rw [Expr.nodes]
    refine JudgedWriting.skip rfl (JudgedWriting.bind (.lift (lower.text_judged mode)) fun _ => ?_)
    refine Emits.bind (Emits.lift (upper.text_judged mode)) fun _ hclear => ?_
    split
    · exact Emits.pure hclear
    · exact Emits.bind (Emits.map (Q := fun _ => True) (Emits.drawTemporary .bound) fun _ _ => trivial)
        fun _ _ => Emits.pure hclear
  · exact JudgedWriting.done (.lift (Expr.text_judged mode _)) fun _ => ⟨_, rfl⟩

theorem caseLabel_judged (mode : Mode) (pattern : Expr) :
    Judged (caseLabel mode pattern) (.pattern pattern :: pattern.nodes) := by
  unfold caseLabel
  split
  · exact Outcome.error ⟨_, List.mem_cons_self, .rangePattern⟩
  · next hrange =>
    refine Judged.cons ?_ ((pattern.text_judged mode).done fun _ => ⟨_, rfl⟩)
    intro fault hoffence
    cases hoffence with
    | rangePattern => exact hrange _ _ _ rfl

/-- A case needs a pattern, and the patterns are judged one by one. -/
theorem patternSteps_judged (mode : Mode) (patterns : List Expr) (body : List Stmt) :
    Judged (patternSteps mode patterns) (.branch ⟨patterns, body⟩ :: Expr.patternNodes patterns) := by
  induction patterns with
  | nil => exact Outcome.error ⟨_, List.mem_cons_self, .caseWithoutPatterns⟩
  | cons pattern rest ih =>
    refine Judged.skip rfl ?_
    rw [Expr.patternNodes, List.flatMap_cons]
    cases rest with
    | nil =>
      rw [patternSteps, List.flatMap_nil, List.append_nil]
      exact (caseLabel_judged mode pattern).done fun _ => ⟨_, rfl⟩
    | cons next rest =>
      -- The rest has a pattern, so the case it would make is no offence either.
      have hrest : Judged (patternSteps mode (next :: rest)) (Expr.patternNodes (next :: rest)) := by
        refine ih.mono (fun _ hclear => hclear.of_subset (List.subset_cons_self _ _)) fun fault hfound => ?_
        obtain ⟨node, hnode, hoffence⟩ := hfound
        rcases List.mem_cons.mp hnode with rfl | hnode
        · exact absurd hoffence (Node.not_offence rfl fault)
        · exact ⟨node, hnode, hoffence⟩
      rw [patternSteps]
      exact (caseLabel_judged mode pattern).bind fun _ => hrest.done fun _ => ⟨_, rfl⟩

/-! ### Parts of declarations -/

theorem VariableDecl.line_judged (mode : Mode) (scope : Scope) (decl : VariableDecl) :
    Judged (decl.line mode scope) (Expr.optionNodes decl.initializer) := by
  rw [VariableDecl.line]
  refine Judged.done ?_ fun _ => ⟨_, rfl⟩
  cases decl.initializer with
  | none => exact Judged.pure _
  | some value =>
    rw [Expr.optionNodes, Option.toList, List.flatMap_singleton]
    exact (value.text_judged mode).done fun _ => ⟨_, rfl⟩

theorem ParameterBag.fallbackText_judged (mode : Mode) (fallback : Option Expr) :
    Judged (fallbackText mode fallback) (Expr.optionNodes fallback) := by
  cases fallback with
  | none => exact Judged.pure _
  | some value =>
    rw [fallbackText, Expr.optionNodes, Option.toList, List.flatMap_singleton]
    exact (value.text_judged mode).done fun _ => ⟨_, rfl⟩

/-- What a variadic parameter falls back on is not looked at. -/
theorem ParameterBag.unpack_judged (mode : Mode) (index : Nat) (parameters : List Parameter) :
    Judged (unpack mode index parameters) (parameters.flatMap Parameter.nodes) := by
  induction parameters generalizing index with
  | nil => exact Judged.pure _
  | cons parameter rest ih =>
    rw [unpack, List.flatMap_cons, Parameter.nodes]
    refine Judged.skip rfl ?_
    split
    · exact ih (index + 1)
    · exact (fallbackText_judged mode parameter.fallback).bind fun _ => (ih (index + 1)).done fun _ => ⟨_, rfl⟩

theorem ParameterBag.parameterSteps_judged (mode : Mode) (parameters : List Parameter) :
    Judged (parameterSteps mode parameters) (parameters.flatMap Parameter.nodes) := by
  rw [parameterSteps]
  exact (unpack_judged mode 0 parameters).done fun _ => ⟨_, rfl⟩

/-- The parameter found out of place is a variadic one that another follows. -/
theorem ParameterBag.misplaced?_some {parameters : List Parameter} {parameter : Parameter}
    (h : misplaced? parameters = some parameter) :
    parameter ∈ parameters.dropLast ∧ parameter.isVariadic = true := by
  fun_induction misplaced? parameters with
  | case1 => exact nomatch h
  | case2 => exact nomatch h
  | case3 first next rest hvariadic =>
    injection h with h
    subst h
    exact ⟨List.mem_cons_self, hvariadic⟩
  | case4 first next rest _ ih => exact ⟨List.mem_cons_of_mem first (ih h).1, (ih h).2⟩

theorem ParameterBag.misplaced?_none {parameters : List Parameter} (h : misplaced? parameters = none) :
    ∀ parameter ∈ parameters.dropLast, parameter.isVariadic = false := by
  fun_induction misplaced? parameters with
  | case1 => exact fun _ hparameter => nomatch hparameter
  | case2 => exact fun _ hparameter => nomatch hparameter
  | case3 first next rest hvariadic => exact nomatch h
  | case4 first next rest hvariadic ih =>
    exact List.forall_mem_cons.mpr ⟨Bool.eq_false_iff.mpr hvariadic, ih h⟩

theorem FunctionDecl.check_judged (scope : Scope) (decl : FunctionDecl) :
    Judged (decl.check scope) [.decl scope (.function decl)] := by
  rw [FunctionDecl.check]
  split
  · next hloose =>
    obtain ⟨hname, rfl⟩ := hloose
    exact Outcome.error ⟨_, List.mem_singleton_self _, .looseInitializer hname⟩
  · next hplace =>
    split
    · next parameter hfound =>
      obtain ⟨hmem, hvariadic⟩ := ParameterBag.misplaced?_some hfound
      exact Outcome.error ⟨_, List.mem_singleton_self _, .misplacedVariadic hmem hvariadic⟩
    · next hnone =>
      refine Outcome.ok (List.forall_mem_singleton.mpr fun fault hoffence => ?_)
      cases hoffence with
      | looseInitializer hname => exact hplace ⟨hname, rfl⟩
      | misplacedVariadic hmem hvariadic =>
        rw [ParameterBag.misplaced?_none hnone _ hmem] at hvariadic
        exact Bool.noConfusion hvariadic

/-! ### Statements and declarations -/

section

variable {mode : Mode}

theorem blockSteps_judged {body : List Stmt}
    (h : ∀ statement ∈ body, JudgedWriting (statement.steps mode) statement.nodes) :
    JudgedWriting (blockSteps mode body) (blockNodes body) := by
  induction body with
  | nil => exact JudgedWriting.pure _
  | cons statement rest ih =>
    have hrest := ih fun other hother => h other (List.mem_cons_of_mem statement hother)
    rw [blockSteps, blockNodes]
    exact (h statement List.mem_cons_self).bind fun _ => hrest.done fun _ => ⟨_, rfl⟩

theorem elseSteps_judged {elseBranch : Option Stmt}
    (h : ∀ statement, elseBranch = some statement → JudgedWriting (statement.steps mode) statement.nodes) :
    JudgedWriting (elseSteps mode elseBranch) (elseNodes elseBranch) := by
  cases elseBranch with
  | none => exact JudgedWriting.pure _
  | some statement =>
    rw [elseSteps_some, elseNodes]
    exact (h statement rfl).done fun _ => ⟨_, rfl⟩

theorem switchSteps_judged {cases : List SwitchCase}
    (h : ∀ branch ∈ cases, ∀ statement ∈ branch.body, JudgedWriting (statement.steps mode) statement.nodes) :
    JudgedWriting (switchSteps mode cases) (branchNodes cases) := by
  induction cases with
  | nil => exact JudgedWriting.pure _
  | cons branch rest ih =>
    obtain ⟨patterns, body⟩ := branch
    have hbody := blockSteps_judged (h ⟨patterns, body⟩ List.mem_cons_self)
    have hrest := ih fun other hother => h other (List.mem_cons_of_mem _ hother)
    rw [switchSteps, branchNodes, ← List.cons_append]
    exact (JudgedWriting.lift (patternSteps_judged mode patterns body)).bind fun _ =>
      hbody.bind fun _ => hrest.done fun _ => ⟨_, rfl⟩

theorem fallbackSteps_judged {fallback : Option (List Stmt)}
    (h : ∀ body, fallback = some body → ∀ statement ∈ body,
      JudgedWriting (statement.steps mode) statement.nodes) :
    JudgedWriting (fallbackSteps mode fallback) (fallbackNodes fallback) := by
  cases fallback with
  | none => exact JudgedWriting.pure _
  | some body =>
    rw [fallbackSteps, fallbackNodes]
    exact (blockSteps_judged (h body rfl)).done fun _ => ⟨_, rfl⟩

theorem memberSteps_judged {members : List Decl}
    (h : ∀ member ∈ members, JudgedWriting (member.steps mode .member) (member.nodes .member)) :
    JudgedWriting (memberSteps mode members) (memberNodes members) := by
  induction members with
  | nil => exact JudgedWriting.pure _
  | cons member rest ih =>
    have hrest := ih fun other hother => h other (List.mem_cons_of_mem member hother)
    rw [memberSteps, memberNodes]
    exact (h member List.mem_cons_self).bind fun _ => hrest.done fun _ => ⟨_, rfl⟩

/-- **Statements and declarations are judged by their nodes.** -/
theorem Stmt.steps_judged (mode : Mode) :
    (∀ statement : Stmt, JudgedWriting (statement.steps mode) statement.nodes) ∧
      ∀ scope (decl : Decl), JudgedWriting (decl.steps mode scope) (decl.nodes scope) := by
  apply Stmt.induction
  case var =>
    intro scope decl
    rw [Decl.steps, Decl.nodes]
    exact JudgedWriting.skip rfl ((JudgedWriting.lift (decl.line_judged mode scope)).done fun _ => ⟨_, rfl⟩)
  case enumeration =>
    intro scope decl
    exact JudgedWriting.skip rfl (JudgedWriting.pure _)
  case typeAlias =>
    intro scope decl
    exact JudgedWriting.skip rfl (JudgedWriting.pure _)
  case nested =>
    rintro kind ⟨name, parents, members⟩
    rw [Decl.steps, Decl.nodes]
    have hnode : Node.decl .member (.type kind ⟨name, parents, members⟩) ∈
      Node.decl .member (.type kind ⟨name, parents, members⟩) :: memberNodes members := List.mem_cons_self
    exact Emits.throw ⟨_, hnode, .nestedType⟩
  case type =>
    intro kind name parents members hmembers
    rw [Decl.steps, Decl.nodes]
    exact JudgedWriting.skip rfl ((memberSteps_judged hmembers).done fun _ => ⟨_, rfl⟩)
  case function =>
    intro scope name parameters returnType body isStatic hbody
    rw [Decl.steps, Decl.nodes]
    exact (JudgedWriting.lift (FunctionDecl.check_judged scope _)).bind fun _ =>
      (JudgedWriting.lift (ParameterBag.parameterSteps_judged mode parameters)).bind fun _ =>
        (blockSteps_judged hbody).done fun _ => ⟨_, rfl⟩
  case decl =>
    intro declared hdeclared
    rw [Stmt.steps, Stmt.nodes]
    exact JudgedWriting.skip rfl hdeclared
  case expr =>
    intro value
    rw [Stmt.steps, Stmt.nodes]
    exact JudgedWriting.skip rfl ((JudgedWriting.lift (value.text_judged mode)).done fun _ => ⟨_, rfl⟩)
  case block =>
    intro body hbody
    rw [Stmt.steps, Stmt.nodes]
    exact JudgedWriting.skip rfl (blockSteps_judged hbody)
  case ifThen =>
    intro condition thenBranch elseBranch hthen helse
    rw [Stmt.steps, Stmt.nodes]
    exact JudgedWriting.skip rfl ((JudgedWriting.lift (condition.conditionText_judged mode)).bind fun _ =>
      (blockSteps_judged hthen).bind fun _ => (elseSteps_judged helse).done fun _ => ⟨_, rfl⟩)
  case ifLet =>
    intro name value thenBranch elseBranch hthen helse
    rw [Stmt.steps, Stmt.nodes]
    exact JudgedWriting.skip rfl ((unwrap_judged mode name value).bind fun _ =>
      (blockSteps_judged hthen).bind fun _ => (elseSteps_judged helse).done fun _ => ⟨_, rfl⟩)
  case guard =>
    intro condition body hbody
    rw [Stmt.steps, Stmt.nodes]
    exact JudgedWriting.skip rfl ((JudgedWriting.lift (condition.text_judged mode)).bind fun _ =>
      (blockSteps_judged hbody).done fun _ => ⟨_, rfl⟩)
  case guardLet =>
    intro name value body hbody
    rw [Stmt.steps, Stmt.nodes]
    exact JudgedWriting.skip rfl ((unwrap_judged mode name value).bind fun _ =>
      (blockSteps_judged hbody).done fun _ => ⟨_, rfl⟩)
  case switch =>
    intro subject cases fallback hcases hfallback
    rw [Stmt.steps, Stmt.nodes]
    exact JudgedWriting.skip rfl ((JudgedWriting.lift (subject.conditionText_judged mode)).bind fun _ =>
      (switchSteps_judged hcases).bind fun _ => (fallbackSteps_judged hfallback).done fun _ => ⟨_, rfl⟩)
  case forIn =>
    intro counter sequence body hbody
    rw [Stmt.steps, Stmt.nodes]
    exact JudgedWriting.skip rfl ((loopSteps_judged mode counter sequence).bind fun _ =>
      (blockSteps_judged hbody).done fun _ => ⟨_, rfl⟩)
  case whileLoop =>
    intro condition body hbody
    rw [Stmt.steps, Stmt.nodes]
    exact JudgedWriting.skip rfl ((JudgedWriting.lift (condition.conditionText_judged mode)).bind fun _ =>
      (blockSteps_judged hbody).done fun _ => ⟨_, rfl⟩)
  case repeatWhile =>
    intro body condition hbody
    rw [Stmt.steps, Stmt.nodes]
    exact JudgedWriting.skip rfl ((blockSteps_judged hbody).bind fun _ =>
      (JudgedWriting.lift (condition.conditionText_judged mode)).done fun _ => ⟨_, rfl⟩)
  case returns =>
    intro value
    cases value with
    | none => exact JudgedWriting.skip rfl (JudgedWriting.pure _)
    | some value =>
      rw [Stmt.steps, Stmt.nodes, Expr.optionNodes, Option.toList, List.flatMap_singleton]
      exact JudgedWriting.skip rfl ((JudgedWriting.lift (value.text_judged mode)).done fun _ => ⟨_, rfl⟩)
  case breaks => exact JudgedWriting.skip rfl (JudgedWriting.pure _)
  case continues => exact JudgedWriting.skip rfl (JudgedWriting.pure _)
  case blank => exact JudgedWriting.skip rfl (JudgedWriting.pure _)
  case doCatch =>
    intro body binding handler hbody hhandler
    rw [Stmt.steps, Stmt.nodes]
    exact JudgedWriting.skip rfl ((blockSteps_judged hbody).bind fun _ =>
      (blockSteps_judged hhandler).done fun _ => ⟨_, rfl⟩)
  case throws =>
    intro value
    rw [Stmt.steps, Stmt.nodes]
    exact JudgedWriting.skip rfl ((JudgedWriting.lift (value.text_judged mode)).done fun _ => ⟨_, rfl⟩)

end

/-- **Which statements can be lowered.**  In either mode a statement has a text exactly when none of its nodes is
an offence, and a fault names an offence among its nodes. -/
theorem Stmt.lower_judged (mode : Mode) (statement : Stmt) :
    ((∃ text, statement.lower mode = .ok text) ↔
      ∀ node ∈ statement.nodes, ∀ fault, ¬ Offence node fault) ∧
    ∀ fault, statement.lower mode = .error fault → ∃ node ∈ statement.nodes, Offence node fault := by
  have hsteps : Judged ((statement.steps mode).run 0) statement.nodes := (Stmt.steps_judged mode).1 statement 0
  have hjudged : Judged (statement.lower mode) statement.nodes :=
    (hsteps.done fun _ => ⟨_, rfl⟩).done fun _ => ⟨_, rfl⟩
  refine ⟨⟨?_, ?_⟩, fun fault hfault => hjudged.of_eq_error hfault⟩
  · rintro ⟨text, htext⟩
    exact hjudged.of_eq_ok htext
  · intro hclear
    cases hresult : statement.lower mode with
    | ok text => exact ⟨text, rfl⟩
    | error fault =>
      obtain ⟨node, hnode, hoffence⟩ := hjudged.of_eq_error hresult
      exact absurd hoffence (hclear node hnode fault)

end ScriptLowering
