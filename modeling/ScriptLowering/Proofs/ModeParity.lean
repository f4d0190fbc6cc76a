import ScriptLowering.Proofs.Induction
import ScriptLowering.Proofs.Layout
import ScriptLowering.Proofs.Script

/-!
# What the modes share

The two modes walk over a program in the same order.  They write other texts, but they stop at the same faults, draw
the same temporaries and open and close the same braces.

* `Alike`, `Tied` — two runs both succeed, with related or with any results, or both fail with one fault;
* `WritesAlike` — the same for writing that starts from equally many temporaries, and ends with equally many;
* `Brace`, `Step.braces` — the braces that steps open, reopen and close;
* `Expr.text_tied`, `Stmt.steps_alike` — expressions, statements and declarations in any two modes;
* `Program.lower_modes_agree` — statements and whole programs.
-/

namespace ScriptLowering

/-! ### Two runs -/

section

variable {α β γ δ : Type} {R : α → β → Prop} {S : γ → δ → Prop}

/-- Two runs end alike: both in results that `R` relates, or both in the same fault. -/
def Alike (R : α → β → Prop) : Except Fault α → Except Fault β → Prop
  | .ok a, .ok b => R a b
  | .error fault, .error other => fault = other
  | _, _ => False

theorem Alike.pure {a : α} {b : β} (h : R a b) :
    Alike R (Pure.pure a : Except Fault α) (Pure.pure b : Except Fault β) := h

/-- The two ways in which runs end alike. -/
theorem Alike.cases {x : Except Fault α} {y : Except Fault β} (h : Alike R x y) :
    (∃ fault, x = .error fault ∧ y = .error fault) ∨ ∃ a b, x = .ok a ∧ y = .ok b ∧ R a b := by
  cases x with
  | error fault =>
    cases y with
    | error other => exact .inl ⟨fault, rfl, congrArg Except.error (Eq.symm h)⟩
    | ok b => exact h.elim
  | ok a =>
    cases y with
    | error other => exact h.elim
    | ok b => exact .inr ⟨a, b, rfl, rfl, h⟩

/-- Two runs go on from related results. -/
theorem Alike.bind {x : Except Fault α} {y : Except Fault β} {next : α → Except Fault γ} {next' : β → Except Fault δ}
    (h : Alike R x y) (hnext : ∀ a b, R a b → Alike S (next a) (next' b)) : Alike S (x >>= next) (y >>= next') := by
  rcases h.cases with ⟨fault, rfl, rfl⟩ | ⟨a, b, rfl, rfl, hab⟩
  · exact rfl
  · exact hnext a b hab

theorem Alike.imp {R' : α → β → Prop} {x : Except Fault α} {y : Except Fault β} (h : Alike R x y)
    (himp : ∀ a b, R a b → R' a b) : Alike R' x y := by
  rcases h.cases with ⟨fault, rfl, rfl⟩ | ⟨a, b, rfl, rfl, hab⟩
  · exact rfl
  · exact himp a b hab

/-- Writing twice from equally many temporaries ends alike and draws equally many. -/
def WritesAlike (R : α → β → Prop) (x : Emission α) (y : Emission β) : Prop :=
  ∀ drawn, Alike (fun a b => R a.1 b.1 ∧ a.2 = b.2) (x.run drawn) (y.run drawn)

theorem WritesAlike.pure {a : α} {b : β} (h : R a b) :
    WritesAlike R (Pure.pure a) (Pure.pure b) := fun _ => ⟨h, rfl⟩

theorem WritesAlike.bind {x : Emission α} {y : Emission β} {next : α → Emission γ} {next' : β → Emission δ}
    (h : WritesAlike R x y) (hnext : ∀ a b, R a b → WritesAlike S (next a) (next' b)) :
    WritesAlike S (x >>= next) (y >>= next') := by
  intro drawn
  rw [StateT.run_bind, StateT.run_bind]
  refine (h drawn).bind fun a b hab => ?_
  obtain ⟨hvalue, hdrawn⟩ := hab
  rw [hdrawn]
  exact hnext a.1 b.1 hvalue b.2

/-- Runs that draw no temporary are parts of writing. -/
theorem WritesAlike.lift {x : Except Fault α} {y : Except Fault β} (h : Alike R x y) :
    WritesAlike R (liftM x) (liftM y) :=
  fun _ => h.bind fun _ _ hab => Alike.pure ⟨hab, rfl⟩

theorem WritesAlike.refl (x : Emission α) : WritesAlike Eq x x := by
  intro drawn
  cases h : x.run drawn with
  | error fault => exact rfl
  | ok result => exact ⟨rfl, rfl⟩

end

/-! ### Braces -/

/-- What a step does to the braces of a script. -/
inductive Brace where
  | opens
  | reopens
  | closes
deriving DecidableEq

namespace Step

/-- What a step does to the braces of a script, if anything. -/
def brace? : Step → Option Brace
  | .opening _ => some .opens
  | .loop _ => some .opens
  | .reopening _ => some .reopens
  | .closing _ => some .closes
  | _ => none

/-- What some steps do to the braces of a script, in their order. -/
def braces (steps : List Step) : List Brace := steps.filterMap brace?

theorem braces_append (first second : List Step) : braces (first ++ second) = braces first ++ braces second :=
  List.filterMap_append

theorem braces_ofOption (text : Option String) : braces (Step.ofOption text) = [] := by
  cases text <;> rfl

/-- Steps with the same braces. -/
def Parallel (first second : List Step) : Prop := braces first = braces second

theorem Parallel.append {s s' t t' : List Step} (hs : Parallel s s') (ht : Parallel t t') :
    Parallel (s ++ t) (s' ++ t') := by
  rw [Parallel, braces_append, braces_append, hs, ht]

theorem Parallel.cons {step step' : Step} {rest rest' : List Step} (hstep : step.brace? = step'.brace?)
    (hrest : Parallel rest rest') : Parallel (step :: rest) (step' :: rest') := by
  have hfirst : Parallel [step] [step'] := by
    rw [Parallel, braces, braces, List.filterMap_cons, List.filterMap_cons, hstep]
  exact hfirst.append hrest

theorem Parallel.opening (header header' : String) {rest rest' : List Step} (h : Parallel rest rest') :
    Parallel (.opening header :: rest) (.opening header' :: rest') := .cons rfl h

theorem Parallel.closing (trailer trailer' : String) {rest rest' : List Step} (h : Parallel rest rest') :
    Parallel (.closing trailer :: rest) (.closing trailer' :: rest') := .cons rfl h

theorem Parallel.ofOption (text text' : Option String) : Parallel (Step.ofOption text) (Step.ofOption text') := by
  rw [Parallel, braces_ofOption, braces_ofOption]

end Step

/-! ### Expressions -/

/-- Two runs both succeed, or both end in the same fault. -/
def Tied {α β : Type} (x : Except Fault α) (y : Except Fault β) : Prop := Alike (fun _ _ => True) x y

section

variable {α β γ δ : Type} {x : Except Fault α} {y : Except Fault β}

theorem Tied.pure {a : α} {b : β} : Tied (Pure.pure a) (Pure.pure b) := trivial

theorem Tied.bind {next : α → Except Fault γ} {next' : β → Except Fault δ} (h : Tied x y)
    (hnext : ∀ a b, Tied (next a) (next' b)) : Tied (x >>= next) (y >>= next') :=
  Alike.bind h fun a b _ => hnext a b

theorem Tied.refl (x : Except Fault α) : Tied x x := by
  cases x with
  | error fault => exact rfl
  | ok a => exact trivial

end

variable (mode mode' : Mode)

namespace Expr

theorem texts_tied {items : List Expr} (h : ∀ item ∈ items, Tied (item.text mode) (item.text mode')) :
    Tied (texts mode items) (texts mode' items) := by
  induction items with
  | nil => exact Tied.pure
  | cons item rest ih =>
    obtain ⟨hitem, hrest⟩ := List.forall_mem_cons.mp h
    exact hitem.bind fun _ _ => (ih hrest).bind fun _ _ => Tied.pure

theorem argumentTexts_tied {arguments : List Argument} (index : Nat)
    (h : ∀ argument ∈ arguments, Tied (argument.value.text mode) (argument.value.text mode')) :
    Tied (argumentTexts mode index arguments) (argumentTexts mode' index arguments) := by
  induction arguments generalizing index with
  | nil => exact Tied.pure
  | cons argument rest ih =>
    obtain ⟨label, value⟩ := argument
    obtain ⟨hvalue, hrest⟩ := List.forall_mem_cons.mp h
    exact hvalue.bind fun _ _ => (ih (index + 1) hrest).bind fun _ _ => Tied.pure

theorem entryTexts_tied {entries : List DictionaryEntry}
    (h : ∀ entry ∈ entries, Tied (entry.key.text mode) (entry.key.text mode') ∧
      Tied (entry.value.text mode) (entry.value.text mode')) :
    Tied (entryTexts mode entries) (entryTexts mode' entries) := by
  induction entries with
  | nil => exact Tied.pure
  | cons entry rest ih =>
    obtain ⟨key, value⟩ := entry
    obtain ⟨⟨hkey, hvalue⟩, hrest⟩ := List.forall_mem_cons.mp h
    exact hkey.bind fun _ _ => hvalue.bind fun _ _ => (ih hrest).bind fun _ _ => Tied.pure

/-- **Expressions.**  In any two modes an expression has a text in both, or the same fault in both: the parts are
lowered in one order. -/
theorem text_tied (e : Expr) : Tied (e.text mode) (e.text mode') := by
  induction e using Expr.induction with
  | assign target operator value htarget hvalue =>
    rw [text, text]
    exact (Tied.refl _).bind fun _ _ => htarget.bind fun _ _ => hvalue.bind fun _ _ => Tied.pure
  | ternary condition thenValue elseValue hcondition hthen helse =>
    rw [text, text]
    exact hcondition.bind fun _ _ => hthen.bind fun _ _ => helse.bind fun _ _ => Tied.pure
  | binary operator left right hleft hright =>
    rw [text, text]
    exact (Tied.refl _).bind fun _ _ => hleft.bind fun _ _ => hright.bind fun _ _ => Tied.pure
  | logical operator left right hleft hright =>
    rw [text, text]
    exact (Tied.refl _).bind fun _ _ => hleft.bind fun _ _ => hright.bind fun _ _ => Tied.pure
  | unary operator operand hoperand =>
    rw [text, text]
    exact (Tied.refl _).bind fun _ _ => hoperand.bind fun _ _ => Tied.pure
  | call callee arguments construction hcallee harguments =>
    rw [text, text]
    refine (argumentTexts_tied mode mode' 0 harguments).bind fun _ _ => hcallee.bind fun _ _ => ?_
    cases construction with
    | true => exact Tied.pure
    | false => exact Tied.pure
  | member object name hobject =>
    rw [text, text]
    exact hobject.bind fun _ _ => Tied.pure
  | slice object lower upper inclusive hobject hlower hupper =>
    rw [text, text]
    exact hobject.bind fun _ _ => hlower.bind fun _ _ => hupper.bind fun _ _ => Tied.pure
  | index object position hrange hobject hposition =>
    rw [text_index mode object hrange, text_index mode' object hrange]
    exact hobject.bind fun _ _ => hposition.bind fun _ _ => Tied.pure
  | optionalChain value forced hvalue =>
    rw [text, text]
    exact hvalue
  | cast value target hvalue =>
    rw [text, text]
    exact hvalue
  | typeTest value target hvalue =>
    rw [text, text]
    exact hvalue.bind fun _ _ => Tied.pure
  | attempt value kind hvalue =>
    rw [text, text]
    refine hvalue.bind fun _ _ => ?_
    cases kind <;> exact Tied.pure
  | literal value => exact Tied.pure
  | itself => exact Tied.pure
  | var name => exact Tied.pure
  | grouping inner hinner =>
    rw [text, text]
    exact hinner.bind fun _ _ => Tied.pure
  | array items hitems =>
    rw [text, text]
    exact (texts_tied mode mode' hitems).bind fun _ _ => Tied.pure
  | dictionary entries hentries =>
    rw [text, text]
    exact (entryTexts_tied mode mode' hentries).bind fun _ _ => Tied.pure
  | range lower upper inclusive hlower hupper =>
    rw [text, text]
    exact hlower.bind fun _ _ => hupper.bind fun _ _ => Tied.pure

theorem conditionText_tied (condition : Expr) :
    Tied (condition.conditionText mode) (condition.conditionText mode') := by
  rw [conditionText, conditionText]
  refine (text_tied mode mode' condition).bind fun _ _ => ?_
  split <;> exact Tied.pure

end Expr

/-! ### Parts of statements -/

/-- Two ways to unwrap a value, with the same braces. -/
def Unwrapping.Parallel (first second : Unwrapping) : Prop :=
  Step.Parallel first.before second.before ∧ Step.Parallel first.binding second.binding

theorem unwrap_alike (name : String) (value : Expr) :
    WritesAlike Unwrapping.Parallel (unwrap mode name value) (unwrap mode' name value) := by
  rw [unwrap, unwrap]
  refine (WritesAlike.lift (value.text_tied mode mode')).bind fun text text' _ => ?_
  by_cases hself : value.isVariable name = true
  · rw [if_pos hself, if_pos hself]
    exact WritesAlike.pure ⟨rfl, rfl⟩
  · rw [if_neg hself, if_neg hself]
    refine (WritesAlike.refl (drawTemporary .opt)).bind fun temporary temporary' _ => ?_
    exact WritesAlike.pure ⟨rfl, Step.Parallel.ofOption _ _⟩

theorem loopSteps_alike (counter : String) (sequence : Expr) :
    WritesAlike Step.Parallel (loopSteps mode counter sequence) (loopSteps mode' counter sequence) := by
  unfold loopSteps
  split
  · next lower upper inclusive =>
    refine (WritesAlike.lift (lower.text_tied mode mode')).bind fun _ _ _ => ?_
    refine (WritesAlike.lift (upper.text_tied mode mode')).bind fun _ _ _ => ?_
    -- Whether a bound is kept is decided by the tree, not by a text.
    by_cases hnumber : upper.isNumber = true
    · rw [if_pos hnumber, if_pos hnumber]
      exact WritesAlike.pure (Step.Parallel.cons rfl (Step.Parallel.ofOption _ _))
    · rw [if_neg hnumber, if_neg hnumber]
      refine (WritesAlike.refl (some <$> drawTemporary .bound)).bind fun _ _ _ => ?_
      exact WritesAlike.pure (Step.Parallel.cons rfl (Step.Parallel.ofOption _ _))
  · refine (WritesAlike.lift (Expr.text_tied mode mode' _)).bind fun _ _ _ => ?_
    exact WritesAlike.pure (Step.Parallel.cons rfl (Step.Parallel.ofOption _ _))

theorem caseLabel_tied (pattern : Expr) : Tied (caseLabel mode pattern) (caseLabel mode' pattern) := by
  unfold caseLabel
  split
  · exact Tied.refl _
  · exact (pattern.text_tied mode mode').bind fun _ _ => Tied.pure

theorem patternSteps_alike (patterns : List Expr) :
    Alike Step.Parallel (patternSteps mode patterns) (patternSteps mode' patterns) := by
  fun_induction patternSteps mode patterns with
  | case1 => exact rfl
  | case2 pattern =>
    rw [patternSteps]
    exact Alike.bind (caseLabel_tied mode mode' pattern) fun _ _ _ => Alike.pure (Step.Parallel.cons rfl rfl)
  | case3 pattern next rest ih =>
    rw [patternSteps]
    refine Alike.bind (caseLabel_tied mode mode' pattern) fun _ _ _ => ih.bind fun _ _ hothers => ?_
    exact Alike.pure (Step.Parallel.cons rfl hothers)

theorem catchSteps_parallel : Step.Parallel (catchSteps mode) (catchSteps mode') :=
  Step.Parallel.cons rfl (Step.Parallel.ofOption _ _)

/-! ### Parts of declarations -/

theorem VariableDecl.line_tied (scope : Scope) (decl : VariableDecl) :
    Alike (fun line line' => Step.Parallel [line] [line']) (decl.line mode scope) (decl.line mode' scope) := by
  have hinitializer : Tied (decl.initializer.mapM (·.text mode)) (decl.initializer.mapM (·.text mode')) := by
    cases decl.initializer with
    | none => exact Tied.pure
    | some value => exact (value.text_tied mode mode').bind fun _ _ => Tied.pure
  exact Alike.bind hinitializer fun _ _ _ => Alike.pure (Step.Parallel.cons rfl rfl)

theorem ParameterBag.fallbackText_tied (fallback : Option Expr) :
    Tied (fallbackText mode fallback) (fallbackText mode' fallback) := by
  cases fallback with
  | none => exact Tied.pure
  | some value => exact (value.text_tied mode mode').bind fun _ _ => Tied.pure

theorem ParameterBag.unpack_alike (index : Nat) (parameters : List Parameter) :
    Alike (fun taken taken' => Step.Parallel taken.2 taken'.2) (unpack mode index parameters)
      (unpack mode' index parameters) := by
  induction parameters generalizing index with
  | nil => exact Alike.pure rfl
  | cons parameter rest ih =>
    rw [unpack, unpack]
    by_cases hvariadic : parameter.isVariadic = true
    · rw [if_pos hvariadic, if_pos hvariadic]
      exact ih (index + 1)
    · rw [if_neg hvariadic, if_neg hvariadic]
      refine Alike.bind (fallbackText_tied mode mode' parameter.fallback) fun _ _ _ => ?_
      refine (ih (index + 1)).bind fun _ _ hothers => ?_
      exact Alike.pure ((Step.Parallel.ofOption _ _).append hothers)

/-- The lines that collect values write no brace of a block. -/
theorem ParameterBag.braces_collectSteps (label : Option String) (raw : String) (threshold : Nat) :
    Step.braces (collectSteps label raw threshold) = [] := by
  cases label <;> rfl

theorem ParameterBag.variadicSteps_parallel (threshold : Nat) (parameter : Parameter) :
    Step.Parallel (variadicSteps mode threshold parameter) (variadicSteps mode' threshold parameter) := by
  have hcollect : ∀ raw raw' : String, Step.Parallel (collectSteps (effectiveLabel parameter) raw threshold)
      (collectSteps (effectiveLabel parameter) raw' threshold) := by
    intro raw raw'
    rw [Step.Parallel, braces_collectSteps, braces_collectSteps]
  exact (hcollect _ _).append (Step.Parallel.ofOption _ _)

theorem ParameterBag.parameterSteps_alike (parameters : List Parameter) :
    Alike Step.Parallel (parameterSteps mode parameters) (parameterSteps mode' parameters) := by
  rw [parameterSteps, parameterSteps]
  refine (unpack_alike mode mode' 0 parameters).bind fun taken taken' htaken => Alike.pure ?_
  have hline : ∀ (entries : List String) (line : String),
      Step.braces (if entries.isEmpty then [] else [.line line]) = [] := by
    intro entries line
    cases entries <;> rfl
  refine (Step.Parallel.append ?_ htaken).append ?_
  · show Step.braces _ = Step.braces _
    rw [hline, hline]
  · cases parameters.find? (·.isVariadic) with
    | none => exact rfl
    | some parameter => exact variadicSteps_parallel mode mode' _ parameter

/-! ### Statements and declarations -/

/-- Steps of one statement that have the same braces, by themselves and in the other branch of a conditional. -/
structure Stmt.Parallel (statement : Stmt) (first second : List Step) : Prop where
  steps : Step.Parallel first second
  chained : Step.Parallel (chain statement first) (chain statement second)

/-- A statement that is not chained stands between braces of its own. -/
theorem Stmt.Parallel.of_steps {statement : Stmt} {first second : List Step} (h : Step.Parallel first second)
    (hchain : ∀ steps, chain statement steps = .reopening "else" :: steps ++ [.closing ""]) :
    statement.Parallel first second := by
  refine ⟨h, ?_⟩
  rw [hchain, hchain]
  exact (Step.Parallel.cons rfl h).append rfl

section

variable {mode mode'}

theorem blockSteps_alike {body : List Stmt}
    (h : ∀ statement ∈ body, WritesAlike statement.Parallel (statement.steps mode) (statement.steps mode')) :
    WritesAlike Step.Parallel (blockSteps mode body) (blockSteps mode' body) := by
  induction body with
  | nil => exact WritesAlike.pure rfl
  | cons statement rest ih =>
    obtain ⟨hstatement, hrest⟩ := List.forall_mem_cons.mp h
    rw [blockSteps, blockSteps]
    refine hstatement.bind fun _ _ hfirst => (ih hrest).bind fun _ _ hothers => ?_
    exact WritesAlike.pure (hfirst.steps.append hothers)

theorem elseSteps_alike {elseBranch : Option Stmt}
    (h : ∀ statement, elseBranch = some statement →
      WritesAlike statement.Parallel (statement.steps mode) (statement.steps mode')) :
    WritesAlike Step.Parallel (elseSteps mode elseBranch) (elseSteps mode' elseBranch) := by
  cases elseBranch with
  | none => exact WritesAlike.pure rfl
  | some statement =>
    rw [elseSteps_some, elseSteps_some]
    exact (h statement rfl).bind fun _ _ hsteps => WritesAlike.pure hsteps.chained

theorem switchSteps_alike {cases : List SwitchCase}
    (h : ∀ branch ∈ cases, ∀ statement ∈ branch.body,
      WritesAlike statement.Parallel (statement.steps mode) (statement.steps mode')) :
    WritesAlike Step.Parallel (switchSteps mode cases) (switchSteps mode' cases) := by
  induction cases with
  | nil => exact WritesAlike.pure rfl
  | cons branch rest ih =>
    obtain ⟨patterns, body⟩ := branch
    obtain ⟨hbody, hrest⟩ := List.forall_mem_cons.mp h
    rw [switchSteps, switchSteps]
    refine (WritesAlike.lift (patternSteps_alike mode mode' patterns)).bind fun _ _ hlabels => ?_
    refine (blockSteps_alike hbody).bind fun _ _ hsteps => (ih hrest).bind fun _ _ hothers => ?_
    exact WritesAlike.pure (((hlabels.append hsteps).append rfl).append hothers)

theorem fallbackSteps_alike {fallback : Option (List Stmt)}
    (h : ∀ body, fallback = some body → ∀ statement ∈ body,
      WritesAlike statement.Parallel (statement.steps mode) (statement.steps mode')) :
    WritesAlike Step.Parallel (fallbackSteps mode fallback) (fallbackSteps mode' fallback) := by
  cases fallback with
  | none => exact WritesAlike.pure rfl
  | some body =>
    rw [fallbackSteps, fallbackSteps]
    refine (blockSteps_alike (h body rfl)).bind fun _ _ hsteps => ?_
    exact WritesAlike.pure ((Step.Parallel.opening _ _ hsteps).append rfl)

theorem memberSteps_alike {members : List Decl}
    (h : ∀ member ∈ members, WritesAlike Step.Parallel (member.steps mode .member) (member.steps mode' .member)) :
    WritesAlike Step.Parallel (memberSteps mode members) (memberSteps mode' members) := by
  induction members with
  | nil => exact WritesAlike.pure rfl
  | cons member rest ih =>
    obtain ⟨hmember, hrest⟩ := List.forall_mem_cons.mp h
    rw [memberSteps, memberSteps]
    refine hmember.bind fun _ _ hfirst => (ih hrest).bind fun _ _ hothers => ?_
    exact WritesAlike.pure (hfirst.append hothers)

end

/-- **Statements and declarations.**  In any two modes they fail with the same fault, or draw equally many
temporaries and write the same braces. -/
theorem Stmt.steps_alike :
    (∀ statement : Stmt, WritesAlike statement.Parallel (statement.steps mode) (statement.steps mode')) ∧
      ∀ scope (decl : Decl), WritesAlike Step.Parallel (decl.steps mode scope) (decl.steps mode' scope) := by
  apply Stmt.induction
  case var =>
    intro scope decl
    rw [Decl.steps, Decl.steps]
    exact (WritesAlike.lift (decl.line_tied mode mode' scope)).bind fun _ _ hline => WritesAlike.pure hline
  case enumeration =>
    intro scope decl
    exact WritesAlike.pure rfl
  case typeAlias =>
    intro scope decl
    exact WritesAlike.pure rfl
  case nested =>
    rintro kind ⟨name, parents, members⟩ drawn
    rw [Decl.steps, Decl.steps]
    exact rfl
  case type =>
    intro kind name parents members hmembers
    rw [Decl.steps, Decl.steps]
    refine (memberSteps_alike hmembers).bind fun _ _ hsteps => WritesAlike.pure ?_
    exact ((Step.Parallel.opening _ _ rfl).append hsteps).append rfl
  case function =>
    intro scope name parameters returnType body isStatic hbody
    rw [Decl.steps, Decl.steps]
    refine (WritesAlike.lift (Tied.refl _)).bind fun _ _ _ => ?_
    refine (WritesAlike.lift (ParameterBag.parameterSteps_alike mode mode' parameters)).bind fun _ _ htaken => ?_
    refine (blockSteps_alike hbody).bind fun _ _ hsteps => WritesAlike.pure ?_
    exact ((Step.Parallel.opening _ _ htaken).append hsteps).append rfl
  case decl =>
    intro declared hdeclared
    rw [Stmt.steps, Stmt.steps]
    exact fun drawn => (hdeclared drawn).imp fun _ _ h => ⟨.of_steps h.1 fun _ => rfl, h.2⟩
  case expr =>
    intro value
    rw [Stmt.steps, Stmt.steps]
    exact (WritesAlike.lift (value.text_tied mode mode')).bind fun _ _ _ =>
      WritesAlike.pure (.of_steps rfl fun _ => rfl)
  case block =>
    intro body hbody
    rw [Stmt.steps, Stmt.steps]
    exact fun drawn => (blockSteps_alike hbody drawn).imp fun _ _ h => ⟨.of_steps h.1 fun _ => rfl, h.2⟩
  case ifThen =>
    intro condition thenBranch elseBranch hthen helse
    rw [Stmt.steps, Stmt.steps]
    refine (WritesAlike.lift (condition.conditionText_tied mode mode')).bind fun _ _ _ => ?_
    refine (blockSteps_alike hthen).bind fun _ _ hthenSteps => ?_
    refine (elseSteps_alike helse).bind fun _ _ hrest => WritesAlike.pure ?_
    exact ⟨(Step.Parallel.opening _ _ hthenSteps).append hrest, Step.Parallel.cons rfl (hthenSteps.append hrest)⟩
  case ifLet =>
    intro name value thenBranch elseBranch hthen helse
    rw [Stmt.steps, Stmt.steps]
    refine (unwrap_alike mode mode' name value).bind fun _ _ hunwrapping => ?_
    refine (blockSteps_alike hthen).bind fun _ _ hthenSteps => ?_
    refine (elseSteps_alike helse).bind fun _ _ hrest => WritesAlike.pure (.of_steps ?_ fun _ => rfl)
    exact ((hunwrapping.1.append (.opening _ _ hunwrapping.2)).append hthenSteps).append hrest
  case guard =>
    intro condition body hbody
    rw [Stmt.steps, Stmt.steps]
    refine (WritesAlike.lift (condition.text_tied mode mode')).bind fun _ _ _ => ?_
    refine (blockSteps_alike hbody).bind fun _ _ hsteps => WritesAlike.pure (.of_steps ?_ fun _ => rfl)
    exact (Step.Parallel.opening _ _ hsteps).append rfl
  case guardLet =>
    intro name value body hbody
    rw [Stmt.steps, Stmt.steps]
    refine (unwrap_alike mode mode' name value).bind fun _ _ hunwrapping => ?_
    refine (blockSteps_alike hbody).bind fun _ _ hsteps => WritesAlike.pure (.of_steps ?_ fun _ => rfl)
    exact ((hunwrapping.1.append (.opening _ _ hsteps)).append rfl).append (.closing _ _ hunwrapping.2)
  case switch =>
    intro subject cases fallback hcases hfallback
    rw [Stmt.steps, Stmt.steps]
    refine (WritesAlike.lift (subject.conditionText_tied mode mode')).bind fun _ _ _ => ?_
    refine (switchSteps_alike hcases).bind fun _ _ hcaseSteps => ?_
    refine (fallbackSteps_alike hfallback).bind fun _ _ hrest => WritesAlike.pure (.of_steps ?_ fun _ => rfl)
    exact ((Step.Parallel.opening _ _ hcaseSteps).append hrest).append rfl
  case forIn =>
    intro counter sequence body hbody
    rw [Stmt.steps, Stmt.steps]
    refine (loopSteps_alike mode mode' counter sequence).bind fun _ _ hheader => ?_
    refine (blockSteps_alike hbody).bind fun _ _ hsteps => WritesAlike.pure (.of_steps ?_ fun _ => rfl)
    exact (hheader.append hsteps).append rfl
  case whileLoop =>
    intro condition body hbody
    rw [Stmt.steps, Stmt.steps]
    refine (WritesAlike.lift (condition.conditionText_tied mode mode')).bind fun _ _ _ => ?_
    refine (blockSteps_alike hbody).bind fun _ _ hsteps => WritesAlike.pure (.of_steps ?_ fun _ => rfl)
    exact (Step.Parallel.opening _ _ hsteps).append rfl
  case repeatWhile =>
    intro body condition hbody
    rw [Stmt.steps, Stmt.steps]
    refine (blockSteps_alike hbody).bind fun _ _ hsteps => ?_
    refine (WritesAlike.lift (condition.conditionText_tied mode mode')).bind fun _ _ _ => ?_
    refine WritesAlike.pure (.of_steps ?_ fun _ => rfl)
    exact (Step.Parallel.opening _ _ hsteps).append rfl
  case returns =>
    intro value
    cases value with
    | none => exact WritesAlike.pure (.of_steps rfl fun _ => rfl)
    | some value =>
      rw [Stmt.steps, Stmt.steps]
      exact (WritesAlike.lift (value.text_tied mode mode')).bind fun _ _ _ =>
        WritesAlike.pure (.of_steps rfl fun _ => rfl)
  case breaks => exact WritesAlike.pure (.of_steps rfl fun _ => rfl)
  case continues => exact WritesAlike.pure (.of_steps rfl fun _ => rfl)
  case blank => exact WritesAlike.pure (.of_steps rfl fun _ => rfl)
  case doCatch =>
    intro body binding handler hbody hhandler
    rw [Stmt.steps, Stmt.steps]
    refine (blockSteps_alike hbody).bind fun _ _ hsteps => ?_
    refine (blockSteps_alike hhandler).bind fun _ _ hhandlerSteps => WritesAlike.pure (.of_steps ?_ fun _ => rfl)
    exact (((Step.Parallel.opening _ _ hsteps).append (catchSteps_parallel mode mode')).append hhandlerSteps).append rfl
  case throws =>
    intro value
    rw [Stmt.steps, Stmt.steps]
    exact (WritesAlike.lift (value.text_tied mode mode')).bind fun _ _ _ =>
      WritesAlike.pure (.of_steps rfl fun _ => rfl)

/-! ### Programs -/

theorem Stmt.lower_tied (statement : Stmt) : Tied (statement.lower mode) (statement.lower mode') := by
  rw [Stmt.lower_eq_layout, Stmt.lower_eq_layout, ← bind_pure_comp, ← bind_pure_comp]
  exact Alike.bind ((Stmt.steps_alike mode mode').1 statement 0) fun _ _ _ => Tied.pure

/-- The items that cannot be lowered are the same in any two modes, and so are their faults. -/
theorem lowerItems_faults_eq (index : Nat) (items : List Item) :
    (lowerItems mode index items).2 = (lowerItems mode' index items).2 := by
  induction items generalizing index with
  | nil => rfl
  | cons item rest ih =>
    rw [lowerItems, lowerItems, Item.lower, Item.lower]
    rcases Alike.cases (item.node.lower_tied mode mode') with
      ⟨cause, hfirst, hsecond⟩ | ⟨text, text', hfirst, hsecond, -⟩
    · rw [hfirst, hsecond]
      exact congrArg (_ :: ·) (ih (index + 1))
    · rw [hfirst, hsecond]
      exact ih (index + 1)

/-- Whether an output is complete is decided by its faults. -/
theorem Output.isComplete_congr {output other : Output} (h : output.faults = other.faults) :
    output.isComplete = other.isComplete := by
  rw [Output.isComplete, Output.isComplete, h]

/-- **The modes accept and reject alike.**  A statement fails in both modes with one fault, or it is written in both
with equally many temporaries and the same braces.  A program has the same faults in both modes, under either
policy. -/
theorem Program.lower_modes_agree :
    (∀ statement : Stmt,
      (∃ fault, statement.lower .native = .error fault ∧ statement.lower .managed = .error fault) ∨
      ∃ native managed drawn,
        (statement.steps .native).run 0 = .ok (native, drawn) ∧
        (statement.steps .managed).run 0 = .ok (managed, drawn) ∧
        statement.lower .native = .ok (Step.layoutAt 0 native) ∧
        statement.lower .managed = .ok (Step.layoutAt 0 managed) ∧
        Step.braces native = Step.braces managed) ∧
    ∀ (program : Program) (policy : ErrorPolicy),
      (∃ fault, program.lower ⟨.native, policy⟩ = .error fault ∧ program.lower ⟨.managed, policy⟩ = .error fault) ∨
      ∃ native managed : Output,
        program.lower ⟨.native, policy⟩ = .ok native ∧ program.lower ⟨.managed, policy⟩ = .ok managed ∧
        native.faults = managed.faults ∧ native.isComplete = managed.isComplete := by
  constructor
  · intro statement
    rw [Stmt.lower_eq_layout, Stmt.lower_eq_layout]
    rcases ((Stmt.steps_alike .native .managed).1 statement 0).cases with
      ⟨fault, hnative, hmanaged⟩ | ⟨native, managed, hnative, hmanaged, hparallel, hdrawn⟩
    · rw [hnative, hmanaged]
      exact .inl ⟨fault, rfl, rfl⟩
    · rw [hnative, hmanaged]
      refine .inr ⟨native.1, managed.1, native.2, rfl, ?_, rfl, rfl, hparallel.steps⟩
      rw [hdrawn]
  · intro program policy
    have hfaults := lowerItems_faults_eq .native .managed 0 program.items
    cases policy with
    | collect =>
      rw [Program.lower_collect, Program.lower_collect]
      exact .inr ⟨_, _, rfl, rfl, hfaults, Output.isComplete_congr hfaults⟩
    | failFast =>
      rw [Program.lower_failFast, Program.lower_failFast, hfaults]
      cases (lowerItems .managed 0 program.items).2 with
      | nil =>
        have hnone : ∀ script script' : String, (Output.mk script []).faults = (Output.mk script' []).faults :=
          fun _ _ => rfl
        exact .inr ⟨_, _, rfl, rfl, hnone _ _, Output.isComplete_congr (hnone _ _)⟩
      | cons fault others => exact .inl ⟨fault, rfl, rfl⟩

end ScriptLowering
