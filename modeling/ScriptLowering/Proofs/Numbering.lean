import ScriptLowering.Proofs.Freshness
import ScriptLowering.Proofs.Node

/-!
# How many temporaries a statement declares

A temporary is drawn for every statement that has to keep a value, at whatever depth it stands, and for nothing else.

* `Node.keeps` — the statements that keep a value in a temporary;
* `Stmt.temporaryCount` — how many of them a statement holds;
* `Draws` — writing that draws as many temporaries as some nodes keep;
* `Stmt.steps_draws` — statements and declarations draw for their own nodes;
* `Step.Declares` — the line of a step declares a temporary;
* `Stmt.lower_numbered` — the temporaries of a statement are numbered from zero on, one for each such node.
-/

namespace ScriptLowering

/-! ### Nodes that keep a value -/

/-- Whether a node is a statement that keeps a value in a temporary: one that unwraps anything but the variable of its
own name, or a loop over a range whose upper bound is not the literal of a number. -/
def Node.keeps : Node → Bool
  | .stmt (.ifLet name value _ _) => !value.isVariable name
  | .stmt (.guardLet name value _) => !value.isVariable name
  | .stmt (.forIn _ (.range _ upper _) _) => !upper.isNumber
  | _ => false

/-- How many statements keep a value in a temporary, at any depth of a statement. -/
def Stmt.temporaryCount (statement : Stmt) : Nat := statement.nodes.countP Node.keeps

/-- No node in the list keeps a value. -/
def KeepNothing (nodes : List Node) : Prop := ∀ node ∈ nodes, node.keeps = false

namespace KeepNothing

theorem count {nodes : List Node} (h : KeepNothing nodes) : nodes.countP Node.keeps = 0 :=
  List.countP_eq_zero.mpr fun node hnode => by rw [h node hnode]; exact Bool.false_ne_true

theorem nil : KeepNothing [] := List.forall_mem_nil _

theorem cons {node : Node} {nodes : List Node} (hnode : node.keeps = false) (h : KeepNothing nodes) :
    KeepNothing (node :: nodes) :=
  List.forall_mem_cons.mpr ⟨hnode, h⟩

theorem append {first second : List Node} (hfirst : KeepNothing first) (hsecond : KeepNothing second) :
    KeepNothing (first ++ second) :=
  List.forall_mem_append.mpr ⟨hfirst, hsecond⟩

end KeepNothing

namespace Expr

theorem itemNodes_keepNothing {items : List Expr} (h : ∀ item ∈ items, KeepNothing item.nodes) :
    KeepNothing (itemNodes items) := by
  induction items with
  | nil => exact .nil
  | cons item rest ih =>
    obtain ⟨hitem, hrest⟩ := List.forall_mem_cons.mp h
    exact hitem.append (ih hrest)

theorem argumentNodes_keepNothing {arguments : List Argument}
    (h : ∀ argument ∈ arguments, KeepNothing argument.value.nodes) : KeepNothing (argumentNodes arguments) := by
  induction arguments with
  | nil => exact .nil
  | cons argument rest ih =>
    obtain ⟨label, value⟩ := argument
    obtain ⟨hvalue, hrest⟩ := List.forall_mem_cons.mp h
    exact hvalue.append (ih hrest)

theorem entryNodes_keepNothing {entries : List DictionaryEntry}
    (h : ∀ entry ∈ entries, KeepNothing entry.key.nodes ∧ KeepNothing entry.value.nodes) :
    KeepNothing (entryNodes entries) := by
  induction entries with
  | nil => exact .nil
  | cons entry rest ih =>
    obtain ⟨key, value⟩ := entry
    obtain ⟨⟨hkey, hvalue⟩, hrest⟩ := List.forall_mem_cons.mp h
    exact hkey.append (hvalue.append (ih hrest))

/-- An expression holds no statement. -/
theorem nodes_keepNothing (e : Expr) : KeepNothing e.nodes := by
  induction e using Expr.induction with
  | assign target operator value htarget hvalue => exact .cons rfl (htarget.append hvalue)
  | ternary condition thenValue elseValue hcondition hthen helse =>
    exact .cons rfl (hcondition.append (hthen.append helse))
  | binary operator left right hleft hright => exact .cons rfl (hleft.append hright)
  | logical operator left right hleft hright => exact .cons rfl (hleft.append hright)
  | unary operator operand hoperand => exact .cons rfl hoperand
  | call callee arguments construction hcallee harguments =>
    exact .cons rfl (hcallee.append (argumentNodes_keepNothing harguments))
  | member object name hobject => exact .cons rfl hobject
  | slice object lower upper inclusive hobject hlower hupper =>
    exact .cons rfl (hobject.append (.cons rfl (hlower.append hupper)))
  | index object position hrange hobject hposition => exact .cons rfl (hobject.append hposition)
  | optionalChain value forced hvalue => exact .cons rfl hvalue
  | cast value target hvalue => exact .cons rfl hvalue
  | typeTest value target hvalue => exact .cons rfl hvalue
  | attempt value kind hvalue => exact .cons rfl hvalue
  | literal value => exact .cons rfl .nil
  | itself => exact .cons rfl .nil
  | var name => exact .cons rfl .nil
  | grouping inner hinner => exact .cons rfl hinner
  | array items hitems => exact .cons rfl (itemNodes_keepNothing hitems)
  | dictionary entries hentries => exact .cons rfl (entryNodes_keepNothing hentries)
  | range lower upper inclusive hlower hupper => exact .cons rfl (hlower.append hupper)

theorem optionNodes_keepNothing (value : Option Expr) : KeepNothing (optionNodes value) := by
  intro node hnode
  obtain ⟨e, -, hnode⟩ := List.mem_flatMap.mp hnode
  exact e.nodes_keepNothing node hnode

theorem patternNodes_keepNothing (patterns : List Expr) : KeepNothing (patternNodes patterns) := by
  intro node hnode
  obtain ⟨pattern, -, hnode⟩ := List.mem_flatMap.mp hnode
  exact KeepNothing.cons rfl pattern.nodes_keepNothing node hnode

end Expr

theorem Parameter.nodes_keepNothing (parameters : List Parameter) :
    KeepNothing (parameters.flatMap Parameter.nodes) := by
  intro node hnode
  obtain ⟨parameter, -, hnode⟩ := List.mem_flatMap.mp hnode
  refine KeepNothing.cons rfl ?_ node hnode
  split
  · exact .nil
  · exact Expr.optionNodes_keepNothing parameter.fallback

/-! ### Writing that draws for some nodes -/

/-- Writing draws one temporary for each of the nodes that keeps a value. -/
def Draws {α : Type} (emission : Emission α) (nodes : List Node) : Prop :=
  ∀ drawn, WritesFrom drawn emission fun _ last => last = drawn + nodes.countP Node.keeps

section

variable {α β : Type} {first second nodes : List Node}

theorem Draws.pure (value : α) : Draws (Pure.pure value) [] := fun drawn => (Nat.add_zero drawn).symm

theorem Draws.bind {x : Emission α} {next : α → Emission β} (hx : Draws x first)
    (hnext : ∀ value, Draws (next value) second) : Draws (x >>= next) (first ++ second) := by
  intro drawn
  refine (hx drawn).bind fun value middle hmiddle => (hnext value middle).imp fun _ last hlast => ?_
  rw [hlast, hmiddle, List.countP_append, Nat.add_assoc]

/-- The last part of writing, which draws nothing. -/
theorem Draws.done {x : Emission α} {next : α → Emission β} (hx : Draws x nodes)
    (hnext : ∀ value, ∃ result, next value = Pure.pure result) : Draws (x >>= next) nodes := by
  intro drawn
  refine (hx drawn).bind fun value last hlast => ?_
  obtain ⟨result, hresult⟩ := hnext value
  rw [hresult]
  exact WritesFrom.pure hlast

/-- A run that draws no temporary, beside nodes that keep nothing. -/
theorem Draws.lift (result : Except Fault α) (h : KeepNothing nodes) : Draws (liftM result : Emission α) nodes := by
  intro drawn
  cases result with
  | error fault => exact trivial
  | ok value =>
    show drawn = drawn + nodes.countP Node.keeps
    rw [h.count, Nat.add_zero]

theorem Draws.skip {x : Emission α} {node : Node} (hnode : node.keeps = false) (h : Draws x nodes) :
    Draws x (node :: nodes) := by
  intro drawn
  refine (h drawn).imp fun _ last hlast => ?_
  rw [hlast, List.countP_cons, hnode]
  rfl

end

/-! ### Parts of statements -/

variable (mode : Mode)

/-- Unwrapping draws a temporary exactly where the statement keeps the value. -/
theorem unwrap_draws {node : Node} {name : String} {value : Expr} (hnode : node.keeps = !value.isVariable name) :
    Draws (unwrap mode name value) (node :: value.nodes) := by
  intro drawn
  have hcount : (node :: value.nodes).countP Node.keeps = if value.isVariable name then 0 else 1 := by
    rw [List.countP_cons, value.nodes_keepNothing.count, hnode, Nat.zero_add]
    cases value.isVariable name <;> rfl
  rw [hcount, unwrap]
  refine WritesFrom.lift (Gives.unknown _) fun text _ => ?_
  split
  · exact WritesFrom.pure rfl
  · exact WritesFrom.draw .opt (WritesFrom.pure rfl)

/-- The header of a loop draws a temporary exactly where it has to keep its bound. -/
theorem loopSteps_draws (counter : String) (sequence : Expr) (body : List Stmt) :
    Draws (loopSteps mode counter sequence) (.stmt (.forIn counter sequence body) :: sequence.nodes) := by
  intro drawn
  rw [List.countP_cons, sequence.nodes_keepNothing.count, Nat.zero_add]
  unfold loopSteps
  split
  · next lower upper inclusive =>
    refine WritesFrom.lift (Gives.unknown _) fun lowerText _ => ?_
    refine WritesFrom.lift (Gives.unknown _) fun upperText _ => ?_
    by_cases hnumber : upper.isNumber = true
    · rw [if_pos hnumber, pure_bind, Node.keeps, hnumber]
      exact WritesFrom.pure rfl
    · rw [if_neg hnumber, bind_map_left, Node.keeps, Bool.eq_false_iff.mpr hnumber]
      exact WritesFrom.draw .bound (WritesFrom.pure rfl)
  · next hrange =>
    have hkeeps : (Node.stmt (.forIn counter sequence body)).keeps = false := by
      cases sequence with
      | range lower upper inclusive => exact absurd rfl (hrange lower upper inclusive)
      | _ => rfl
    rw [hkeeps]
    exact WritesFrom.lift (Gives.unknown _) fun text _ => WritesFrom.pure rfl

/-! ### Statements and declarations -/

section

variable {mode}

theorem blockSteps_draws {body : List Stmt}
    (h : ∀ statement ∈ body, Draws (statement.steps mode) statement.nodes) :
    Draws (blockSteps mode body) (blockNodes body) := by
  induction body with
  | nil => exact Draws.pure _
  | cons statement rest ih =>
    obtain ⟨hstatement, hrest⟩ := List.forall_mem_cons.mp h
    rw [blockSteps, blockNodes]
    exact hstatement.bind fun _ => (ih hrest).done fun _ => ⟨_, rfl⟩

theorem elseSteps_draws {elseBranch : Option Stmt}
    (h : ∀ statement, elseBranch = some statement → Draws (statement.steps mode) statement.nodes) :
    Draws (elseSteps mode elseBranch) (elseNodes elseBranch) := by
  cases elseBranch with
  | none => exact Draws.pure _
  | some statement =>
    rw [elseSteps_some, elseNodes]
    exact (h statement rfl).done fun _ => ⟨_, rfl⟩

theorem switchSteps_draws {cases : List SwitchCase}
    (h : ∀ branch ∈ cases, ∀ statement ∈ branch.body, Draws (statement.steps mode) statement.nodes) :
    Draws (switchSteps mode cases) (branchNodes cases) := by
  induction cases with
  | nil => exact Draws.pure _
  | cons branch rest ih =>
    obtain ⟨patterns, body⟩ := branch
    obtain ⟨hbody, hrest⟩ := List.forall_mem_cons.mp h
    rw [switchSteps, branchNodes]
    refine Draws.skip rfl ((Draws.lift _ (Expr.patternNodes_keepNothing patterns)).bind fun _ => ?_)
    exact (blockSteps_draws hbody).bind fun _ => (ih hrest).done fun _ => ⟨_, rfl⟩

theorem fallbackSteps_draws {fallback : Option (List Stmt)}
    (h : ∀ body, fallback = some body → ∀ statement ∈ body, Draws (statement.steps mode) statement.nodes) :
    Draws (fallbackSteps mode fallback) (fallbackNodes fallback) := by
  cases fallback with
  | none => exact Draws.pure _
  | some body =>
    rw [fallbackSteps, fallbackNodes]
    exact (blockSteps_draws (h body rfl)).done fun _ => ⟨_, rfl⟩

theorem memberSteps_draws {members : List Decl}
    (h : ∀ member ∈ members, Draws (member.steps mode .member) (member.nodes .member)) :
    Draws (memberSteps mode members) (memberNodes members) := by
  induction members with
  | nil => exact Draws.pure _
  | cons member rest ih =>
    obtain ⟨hmember, hrest⟩ := List.forall_mem_cons.mp h
    rw [memberSteps, memberNodes]
    exact hmember.bind fun _ => (ih hrest).done fun _ => ⟨_, rfl⟩

end

/-- **Statements and declarations** draw one temporary for each of their nodes that keeps a value. -/
theorem Stmt.steps_draws :
    (∀ statement : Stmt, Draws (statement.steps mode) statement.nodes) ∧
      ∀ scope (decl : Decl), Draws (decl.steps mode scope) (decl.nodes scope) := by
  apply Stmt.induction
  case var =>
    intro scope decl
    rw [Decl.steps, Decl.nodes]
    exact Draws.skip rfl
      ((Draws.lift _ (Expr.optionNodes_keepNothing decl.initializer)).done fun _ => ⟨_, rfl⟩)
  case enumeration =>
    intro scope decl
    exact Draws.skip rfl (Draws.pure _)
  case typeAlias =>
    intro scope decl
    exact Draws.skip rfl (Draws.pure _)
  case nested =>
    rintro kind ⟨name, parents, members⟩ drawn
    rw [Decl.steps]
    exact trivial
  case type =>
    intro kind name parents members hmembers
    rw [Decl.steps, Decl.nodes]
    exact Draws.skip rfl ((memberSteps_draws hmembers).done fun _ => ⟨_, rfl⟩)
  case function =>
    intro scope name parameters returnType body isStatic hbody
    rw [Decl.steps, Decl.nodes]
    -- The check of a function is a run of its own, beside no node.
    refine Draws.skip rfl ((Draws.lift _ .nil).bind fun _ => ?_)
    refine (Draws.lift _ (Parameter.nodes_keepNothing parameters)).bind fun _ => ?_
    exact (blockSteps_draws hbody).done fun _ => ⟨_, rfl⟩
  case decl =>
    intro declared hdeclared
    rw [Stmt.steps, Stmt.nodes]
    exact Draws.skip rfl hdeclared
  case expr =>
    intro value
    rw [Stmt.steps, Stmt.nodes]
    exact Draws.skip rfl ((Draws.lift _ value.nodes_keepNothing).done fun _ => ⟨_, rfl⟩)
  case block =>
    intro body hbody
    rw [Stmt.steps, Stmt.nodes]
    exact Draws.skip rfl (blockSteps_draws hbody)
  case ifThen =>
    intro condition thenBranch elseBranch hthen helse
    rw [Stmt.steps, Stmt.nodes]
    refine Draws.skip rfl ((Draws.lift _ condition.nodes_keepNothing).bind fun _ => ?_)
    exact (blockSteps_draws hthen).bind fun _ => (elseSteps_draws helse).done fun _ => ⟨_, rfl⟩
  case ifLet =>
    intro name value thenBranch elseBranch hthen helse
    rw [Stmt.steps, Stmt.nodes, ← List.cons_append]
    refine (unwrap_draws mode rfl).bind fun _ => ?_
    exact (blockSteps_draws hthen).bind fun _ => (elseSteps_draws helse).done fun _ => ⟨_, rfl⟩
  case guard =>
    intro condition body hbody
    rw [Stmt.steps, Stmt.nodes]
    refine Draws.skip rfl ((Draws.lift _ condition.nodes_keepNothing).bind fun _ => ?_)
    exact (blockSteps_draws hbody).done fun _ => ⟨_, rfl⟩
  case guardLet =>
    intro name value body hbody
    rw [Stmt.steps, Stmt.nodes, ← List.cons_append]
    exact (unwrap_draws mode rfl).bind fun _ => (blockSteps_draws hbody).done fun _ => ⟨_, rfl⟩
  case switch =>
    intro subject cases fallback hcases hfallback
    rw [Stmt.steps, Stmt.nodes]
    refine Draws.skip rfl ((Draws.lift _ subject.nodes_keepNothing).bind fun _ => ?_)
    exact (switchSteps_draws hcases).bind fun _ => (fallbackSteps_draws hfallback).done fun _ => ⟨_, rfl⟩
  case forIn =>
    intro counter sequence body hbody
    rw [Stmt.steps, Stmt.nodes, ← List.cons_append]
    exact (loopSteps_draws mode counter sequence body).bind fun _ => (blockSteps_draws hbody).done fun _ => ⟨_, rfl⟩
  case whileLoop =>
    intro condition body hbody
    rw [Stmt.steps, Stmt.nodes]
    refine Draws.skip rfl ((Draws.lift _ condition.nodes_keepNothing).bind fun _ => ?_)
    exact (blockSteps_draws hbody).done fun _ => ⟨_, rfl⟩
  case repeatWhile =>
    intro body condition hbody
    rw [Stmt.steps, Stmt.nodes]
    refine Draws.skip rfl ((blockSteps_draws hbody).bind fun _ => ?_)
    exact (Draws.lift _ condition.nodes_keepNothing).done fun _ => ⟨_, rfl⟩
  case returns =>
    intro value
    cases value with
    | none => exact Draws.skip rfl (Draws.pure _)
    | some value =>
      rw [Stmt.steps, Stmt.nodes]
      exact Draws.skip rfl ((Draws.lift _ (Expr.optionNodes_keepNothing (some value))).done fun _ => ⟨_, rfl⟩)
  case breaks => exact Draws.skip rfl (Draws.pure _)
  case continues => exact Draws.skip rfl (Draws.pure _)
  case blank => exact Draws.skip rfl (Draws.pure _)
  case doCatch =>
    intro body binding handler hbody hhandler
    rw [Stmt.steps, Stmt.nodes]
    refine Draws.skip rfl ((blockSteps_draws hbody).bind fun _ => ?_)
    exact (blockSteps_draws hhandler).done fun _ => ⟨_, rfl⟩
  case throws =>
    intro value
    rw [Stmt.steps, Stmt.nodes]
    exact Draws.skip rfl ((Draws.lift _ value.nodes_keepNothing).done fun _ => ⟨_, rfl⟩)

/-! ### The temporaries of a statement -/

/-- The line of a step declares a temporary: the line is there for it, or it heads a loop and declares the temporary
behind the counter. -/
def Step.Declares (step : Step) (temporary : Temporary) : Prop :=
  (∃ value, step.written = some ("const " ++ temporary.name ++ " = " ++ value ++ ";")) ∨
    ∃ counter bound rest,
      step.written = some ("for (let " ++ counter ++ ", " ++ temporary.name ++ " = " ++ bound ++ "; " ++ rest)

theorem Step.declares_temporaries {step : Step} {temporary : Temporary} (h : temporary ∈ step.temporaries) :
    step.Declares temporary := by
  cases step with
  | keep kept value =>
    obtain rfl := List.mem_singleton.mp h
    exact .inl ⟨value, rfl⟩
  | loop counted =>
    have hbound : counted.bound = some temporary := Option.mem_toList.mp h
    have hkeeping : counted.keeping = ", " ++ temporary.name ++ " = " ++ counted.upper := by
      simp only [CountedLoop.keeping, hbound]
    have hheader : counted.header = "for (let " ++ counted.counter ++ " = " ++ counted.lower ++ counted.keeping ++
        "; " ++ counted.counter ++ counted.comparison ++ counted.limit ++ "; " ++ counted.counter ++ "++)" := rfl
    refine .inr ⟨counted.counter ++ " = " ++ counted.lower, counted.upper,
      counted.counter ++ counted.comparison ++ counted.limit ++ "; " ++ counted.counter ++ "++)" ++ " \x7b", ?_⟩
    show some (counted.header ++ " \x7b") = _
    rw [hheader, hkeeping]
    simp only [String.append_assoc]
  | _ => exact nomatch h

/-- **Temporaries are numbered without gaps or reuse.**  A statement that is lowered declares as many temporaries as it
holds statements that keep a value, each in a line of its text.  In the order of their declarations they have the
numbers from zero on, whatever they are for, and none is declared twice. -/
theorem Stmt.lower_numbered {mode : Mode} {statement : Stmt} {text : String} (h : statement.lower mode = .ok text) :
    ∃ steps : List Step, (statement.steps mode).run 0 = .ok (steps, statement.temporaryCount) ∧
      text = Step.layoutAt 0 steps ∧
      (∀ step ∈ steps, ∀ temporary ∈ step.temporaries, step.Declares temporary) ∧
      (steps.flatMap Step.temporaries).map (·.number) = List.range statement.temporaryCount ∧
      ((steps.flatMap Step.temporaries).map Temporary.name).Nodup := by
  rw [Stmt.lower_eq_layout] at h
  cases hrun : (statement.steps mode).run 0 with
  | error fault =>
    rw [hrun] at h
    exact nomatch h
  | ok result =>
    obtain ⟨steps, last⟩ := result
    rw [hrun] at h
    injection h with h
    have hlast : last = 0 + statement.temporaryCount := ((Stmt.steps_draws mode).1 statement 0).of_run hrun
    rw [Nat.zero_add] at hlast
    obtain ⟨count, hcount, hnumbers⟩ := (((Stmt.steps_walk mode).1 statement 0).of_run hrun).whole.numbers
    rw [show count = statement.temporaryCount by omega, ← List.range_eq_range'] at hnumbers
    refine ⟨steps, by rw [hlast], h.symm, fun _ _ _ => Step.declares_temporaries, hnumbers, ?_⟩
    -- Names differ because numbers do.
    have hdistinct : ((steps.flatMap Step.temporaries).map (·.number)).Nodup := hnumbers ▸ List.nodup_range
    exact List.pairwise_map.mpr ((List.pairwise_map.mp hdistinct).imp fun hne hname =>
      hne (congrArg Temporary.number (Temporary.name_inj hname)))

/-- A method that loops up to a bound of its own, unwraps in the loop, in a case and in another branch, and unwraps a
variable of the same name. -/
def countingMethod : Decl :=
  .function ⟨"scan", [], none,
    [.forIn "i" (.range (.literal (.int "0")) (.variable "limit") false) [unwrapCall "v" "load" []],
      .switch (.variable "kind") [⟨[.literal (.int "1")], [unwrapCall "w" "load" []]⟩] none,
      .ifThen (.variable "ready") [] (some (unwrapCall "x" "load" [])),
      .guardLet "y" (.variable "y") [.returns none]], false⟩

theorem lower_numbered_countingMethod :
    ∃ steps : List Step,
      ((Stmt.decl (.type .reference ⟨"Reader", [], [countingMethod]⟩)).steps .native).run 0 = .ok (steps, 4) ∧
      (steps.flatMap Step.temporaries).map (·.number) = [0, 1, 2, 3] ∧
      (steps.flatMap Step.temporaries).map Temporary.name = ["__bound0", "__opt1", "__opt2", "__opt3"] := by
  have hlower : (Stmt.decl (.type .reference ⟨"Reader", [], [countingMethod]⟩)).lower .native = .ok _ := rfl
  obtain ⟨steps, hrun, -, -, hnumbers, -⟩ := Stmt.lower_numbered hlower
  refine ⟨steps, hrun, hnumbers, ?_⟩
  obtain ⟨rfl, -⟩ := Prod.mk.inj (Except.ok.inj hrun)
  rfl

end ScriptLowering
