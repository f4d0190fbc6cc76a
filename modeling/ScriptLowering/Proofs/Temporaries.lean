import ScriptLowering.Proofs.Induction
import ScriptLowering.Proofs.Levels
import ScriptLowering.Proofs.Outcome

/-!
# Temporaries and blocks

What the steps of a statement do to the blocks and levels that are open and to the numbers of temporaries.

* `Scopes` — the blocks that are open around a step, each with a number of its own;
* `Takes` — steps that close and open given numbers of blocks;
* `Numbered` — steps that declare temporaries one after another, without a gap;
* `Walks` — these and the levels of indentation together, which is what a part of a statement does;
* `WritesFrom` — a property of what is written when some temporaries are already drawn;
* `Stmt.steps_walk` — a statement closes every block that it opens and numbers its temporaries in their order.
-/

namespace ScriptLowering

/-! ### Blocks -/

/-- The blocks around a place in a script, the innermost first, and the number that the next block gets.  Blocks are
numbered in the order in which they are opened; around the top level there is none. -/
structure Scopes where
  enclosing : List Nat
  next : Nat
deriving DecidableEq

namespace Scopes

/-- The beginning of a script. -/
def top : Scopes := ⟨[], 0⟩

/-- Inside a new block. -/
def enter (scopes : Scopes) : Scopes := ⟨scopes.next :: scopes.enclosing, scopes.next + 1⟩

/-- Behind the innermost block. -/
def leave (scopes : Scopes) : Scopes := { scopes with enclosing := scopes.enclosing.tail }

/-- The blocks after one step. -/
def after (scopes : Scopes) : Step → Scopes
  | .opening _ => scopes.enter
  | .loop _ => scopes.enter
  | .reopening _ => scopes.leave.enter
  | .closing _ => scopes.leave
  | _ => scopes

/-- The blocks after some steps. -/
def run (scopes : Scopes) (steps : List Step) : Scopes := steps.foldl after scopes

theorem run_append (scopes : Scopes) (first second : List Step) :
    scopes.run (first ++ second) = (scopes.run first).run second :=
  List.foldl_append

theorem run_cons (scopes : Scopes) (step : Step) (rest : List Step) :
    scopes.run (step :: rest) = (scopes.after step).run rest := rfl

end Scopes

/-- The steps close some of the blocks around them and leave some new ones open. -/
def Takes (closed opened : Nat) (steps : List Step) : Prop :=
  ∀ scopes : Scopes, ∃ fresh : List Nat,
    fresh.length = opened ∧ (scopes.run steps).enclosing = fresh ++ scopes.enclosing.drop closed

namespace Takes

theorem nil : Takes 0 0 [] := fun _ => ⟨[], rfl, rfl⟩

/-- A second part closes blocks that the first one opened. -/
theorem append {closed opened closed' opened' : Nat} {first second : List Step} (hfirst : Takes closed opened first)
    (hsecond : Takes closed' opened' second) (hle : closed' ≤ opened) :
    Takes closed (opened' + (opened - closed')) (first ++ second) := by
  intro scopes
  obtain ⟨fresh, hlength, hrun⟩ := hfirst scopes
  obtain ⟨fresh', hlength', hrun'⟩ := hsecond (scopes.run first)
  refine ⟨fresh' ++ fresh.drop closed', ?_, ?_⟩
  · rw [List.length_append, List.length_drop, hlength, hlength']
  · rw [Scopes.run_append, hrun', hrun, List.drop_append_of_le_length (by omega), List.append_assoc]

/-- A step that opens and closes nothing. -/
theorem still {step : Step} (h : ∀ scopes : Scopes, scopes.after step = scopes) : Takes 0 0 [step] := by
  intro scopes
  refine ⟨[], rfl, ?_⟩
  rw [Scopes.run_cons, h]
  rfl

theorem opening (header : String) : Takes 0 1 [.opening header] := fun scopes => ⟨[scopes.next], rfl, rfl⟩

theorem loop (counted : CountedLoop) : Takes 0 1 [.loop counted] := fun scopes => ⟨[scopes.next], rfl, rfl⟩

theorem reopening (header : String) : Takes 1 1 [.reopening header] := by
  intro scopes
  refine ⟨[scopes.next], rfl, ?_⟩
  show scopes.next :: scopes.enclosing.tail = [scopes.next] ++ scopes.enclosing.drop 1
  rw [List.drop_one]
  rfl

theorem closing (trailer : String) : Takes 1 0 [.closing trailer] := by
  intro scopes
  refine ⟨[], rfl, ?_⟩
  show scopes.enclosing.tail = [] ++ scopes.enclosing.drop 1
  rw [List.drop_one, List.nil_append]

end Takes

/-! ### Numbers -/

/-- The steps declare temporaries whose numbers go from `drawn` up to `last`, in their order and without a gap. -/
def Numbered (drawn : Nat) (steps : List Step) (last : Nat) : Prop :=
  ∃ count, last = drawn + count ∧
    (steps.flatMap Step.temporaries).map (·.number) = List.range' drawn count

namespace Numbered

/-- Steps that declare no temporary. -/
theorem none {steps : List Step} (h : steps.flatMap Step.temporaries = []) (drawn : Nat) :
    Numbered drawn steps drawn :=
  ⟨0, rfl, by rw [h]; rfl⟩

theorem append {drawn middle last : Nat} {first second : List Step} (hfirst : Numbered drawn first middle)
    (hsecond : Numbered middle second last) : Numbered drawn (first ++ second) last := by
  obtain ⟨count, rfl, hnumbers⟩ := hfirst
  obtain ⟨count', rfl, hnumbers'⟩ := hsecond
  refine ⟨count + count', by omega, ?_⟩
  rw [List.flatMap_append, List.map_append, hnumbers, hnumbers', List.range'_append_1]

/-- The step that declares the next temporary. -/
theorem single {step : Step} {stem : Temporary.Stem} {drawn : Nat} (h : step.temporaries = [⟨stem, drawn⟩]) :
    Numbered drawn [step] (drawn + 1) := by
  refine ⟨1, rfl, ?_⟩
  rw [List.flatMap_singleton, h]
  rfl

end Numbered

/-! ### All together -/

/-- A step that opens and closes nothing and declares nothing. -/
def Step.isQuiet : Step → Bool
  | .line _ => true
  | _ => false

theorem Step.isQuiet_ofOption (text : Option String) : (Step.ofOption text).all Step.isQuiet = true := by
  cases text <;> rfl

/-- What a part of a statement does: the blocks it closes and opens, which are the levels it closes and opens, and the
temporaries it declares. -/
structure Walks (closed opened drawn : Nat) (steps : List Step) (last : Nat) : Prop where
  blocks : Takes closed opened steps
  levels : Levels closed opened steps
  numbers : Numbered drawn steps last

namespace Walks

variable {closed opened closed' opened' drawn middle last : Nat} {first second : List Step}

theorem append (hfirst : Walks closed opened drawn first middle) (hsecond : Walks closed' opened' middle second last)
    (hle : closed' ≤ opened) : Walks closed (opened' + (opened - closed')) drawn (first ++ second) last :=
  ⟨hfirst.blocks.append hsecond.blocks hle, hfirst.levels.append hsecond.levels hle,
    hfirst.numbers.append hsecond.numbers⟩

/-- A part that stays in its block goes on behind another part. -/
theorem thenStay (hfirst : Walks closed opened drawn first middle) (hsecond : Walks 0 0 middle second last) :
    Walks closed opened drawn (first ++ second) last := by
  have h := hfirst.append hsecond (Nat.zero_le _)
  rwa [Nat.zero_add, Nat.sub_zero] at h

/-- The end of a block. -/
theorem thenClose (hfirst : Walks closed 1 drawn first middle) (hsecond : Walks 1 0 middle second last) :
    Walks closed 0 drawn (first ++ second) last :=
  hfirst.append hsecond (Nat.le_refl 1)

/-- The end of a block and the beginning of the next. -/
theorem thenReopen (hfirst : Walks closed 1 drawn first middle) (hsecond : Walks 1 1 middle second last) :
    Walks closed 1 drawn (first ++ second) last :=
  hfirst.append hsecond (Nat.le_refl 1)

theorem opens (hfirst : Walks 0 0 drawn first middle) (hsecond : Walks 0 1 middle second last) :
    Walks 0 1 drawn (first ++ second) last :=
  hfirst.append hsecond (Nat.le_refl 0)

theorem opening (header : String) (drawn : Nat) : Walks 0 1 drawn [.opening header] drawn :=
  ⟨Takes.opening header, Levels.single _, Numbered.none rfl drawn⟩

theorem reopening (header : String) (drawn : Nat) : Walks 1 1 drawn [.reopening header] drawn :=
  ⟨Takes.reopening header, Levels.single _, Numbered.none rfl drawn⟩

theorem closing (trailer : String) (drawn : Nat) : Walks 1 0 drawn [.closing trailer] drawn :=
  ⟨Takes.closing trailer, Levels.single _, Numbered.none rfl drawn⟩

/-- A line and the end of its block. -/
theorem exit (text trailer : String) (drawn : Nat) : Walks 1 0 drawn [.line text, .closing trailer] drawn :=
  ⟨fun scopes => Takes.closing trailer scopes, fun base => Levels.single (.closing trailer) base,
    Numbered.none rfl drawn⟩

theorem keep (stem : Temporary.Stem) (value : String) (drawn : Nat) :
    Walks 0 0 drawn [.keep ⟨stem, drawn⟩ value] (drawn + 1) :=
  ⟨Takes.still fun _ => rfl, Levels.single _, Numbered.single rfl⟩

theorem loop (counted : CountedLoop) {drawn last : Nat} (hnumbers : Numbered drawn [.loop counted] last) :
    Walks 0 1 drawn [.loop counted] last :=
  ⟨Takes.loop counted, Levels.single _, hnumbers⟩

/-- Lines stay in their block and at their level, and declare nothing. -/
theorem quiet {steps : List Step} (h : steps.all Step.isQuiet = true) (drawn : Nat) :
    Walks 0 0 drawn steps drawn := by
  induction steps with
  | nil => exact ⟨Takes.nil, Levels.nil, Numbered.none rfl drawn⟩
  | cons step rest ih =>
    rw [List.all_cons, Bool.and_eq_true] at h
    have hstep : Walks 0 0 drawn [step] drawn := by
      cases step with
      | line text => exact ⟨Takes.still fun _ => rfl, Levels.single _, Numbered.none rfl drawn⟩
      | _ => exact absurd h.1 Bool.false_ne_true
    exact hstep.thenStay (ih h.2)

/-- The lines of a continuation.  A change of indentation is a level, but no block. -/
theorem indented {steps : List Step} (h : Walks 0 0 drawn steps last) :
    Walks 0 0 drawn (.indent :: steps ++ [.outdent]) last := by
  have hindent : Takes 0 0 [.indent] := Takes.still fun _ => rfl
  have houtdent : Takes 0 0 [.outdent] := Takes.still fun _ => rfl
  refine ⟨?_, h.levels.indented, ?_⟩
  · exact (hindent.append h.blocks (Nat.le_refl 0)).append houtdent (Nat.le_refl 0)
  · have hstart : Numbered drawn [.indent] drawn := Numbered.none rfl drawn
    exact (hstart.append h.numbers).append (Numbered.none rfl last)

end Walks

/-! ### Writing from a number of temporaries on -/

section

variable {α β : Type} {drawn : Nat}

/-- What is written when some temporaries are already drawn, and how many are drawn then. -/
def WritesFrom (drawn : Nat) (emission : Emission α) (P : α → Nat → Prop) : Prop :=
  Gives (emission.run drawn) fun result => P result.1 result.2

theorem WritesFrom.pure {P : α → Nat → Prop} {value : α} (h : P value drawn) :
    WritesFrom drawn (Pure.pure value) P := h

theorem WritesFrom.bind {P : α → Nat → Prop} {Q : β → Nat → Prop} {first : Emission α} {next : α → Emission β}
    (hfirst : WritesFrom drawn first P) (hnext : ∀ value last, P value last → WritesFrom last (next value) Q) :
    WritesFrom drawn (first >>= next) Q := by
  rw [WritesFrom, StateT.run_bind]
  exact Outcome.bind hfirst fun result hresult => hnext result.1 result.2 hresult

/-- A run that draws no temporary leaves their number as it is. -/
theorem WritesFrom.lift {P : α → Prop} {Q : β → Nat → Prop} {result : Except Fault α} {next : α → Emission β}
    (h : Gives result P) (hnext : ∀ value, P value → WritesFrom drawn (next value) Q) :
    WritesFrom drawn (liftM result >>= next) Q := by
  cases result with
  | error fault => exact trivial
  | ok value => exact hnext value h

/-- Drawing takes the next number. -/
theorem WritesFrom.draw {Q : β → Nat → Prop} (stem : Temporary.Stem) {next : Temporary → Emission β}
    (hnext : WritesFrom (drawn + 1) (next ⟨stem, drawn⟩) Q) : WritesFrom drawn (drawTemporary stem >>= next) Q :=
  hnext

theorem WritesFrom.imp {P Q : α → Nat → Prop} {emission : Emission α} (h : WritesFrom drawn emission P)
    (himp : ∀ value last, P value last → Q value last) : WritesFrom drawn emission Q :=
  Gives.imp h fun result => himp result.1 result.2

theorem WritesFrom.of_run {P : α → Nat → Prop} {emission : Emission α} {value : α} {last : Nat}
    (h : WritesFrom drawn emission P) (hrun : emission.run drawn = .ok (value, last)) : P value last := by
  rw [WritesFrom, hrun] at h
  exact h

end

/-! ### Parts of statements -/

variable (mode : Mode)

/-- Unwrapping a value draws a temporary for it, or none. -/
theorem unwrap_walk (name : String) (value : Expr) (drawn : Nat) :
    WritesFrom drawn (unwrap mode name value) fun unwrapping last =>
      Walks 0 0 drawn unwrapping.before last ∧ unwrapping.binding.all Step.isQuiet = true := by
  rw [unwrap]
  refine WritesFrom.lift (Gives.unknown _) fun text _ => ?_
  split
  · exact WritesFrom.pure ⟨.quiet rfl drawn, rfl⟩
  · exact WritesFrom.draw .opt (WritesFrom.pure ⟨.keep .opt text drawn, Step.isQuiet_ofOption _⟩)

/-- The header of a loop opens the block of the loop. -/
theorem loopSteps_walk (counter : String) (sequence : Expr) (drawn : Nat) :
    WritesFrom drawn (loopSteps mode counter sequence) (Walks 0 1 drawn) := by
  unfold loopSteps
  split
  · next lower upper inclusive =>
    refine WritesFrom.lift (Gives.unknown _) fun lowerText _ => ?_
    refine WritesFrom.lift (Gives.unknown _) fun upperText _ => ?_
    by_cases hnumber : upper.isNumber = true
    · rw [if_pos hnumber, pure_bind]
      exact WritesFrom.pure
        ((Walks.loop _ (Numbered.none rfl drawn)).thenStay (.quiet (Step.isQuiet_ofOption _) drawn))
    · rw [if_neg hnumber, bind_map_left]
      refine WritesFrom.draw .bound (WritesFrom.pure ?_)
      exact (Walks.loop _ (Numbered.single rfl)).thenStay (.quiet (Step.isQuiet_ofOption _) (drawn + 1))
  · refine WritesFrom.lift (Gives.unknown _) fun text _ => WritesFrom.pure ?_
    exact (Walks.opening _ drawn).thenStay (.quiet (Step.isQuiet_ofOption _) drawn)

/-- Of the patterns of a case the last one opens the block of the case. -/
theorem patternSteps_walk (patterns : List Expr) :
    Gives (patternSteps mode patterns) fun steps => ∀ drawn, Walks 0 1 drawn steps drawn := by
  fun_induction patternSteps mode patterns with
  | case1 => exact trivial
  | case2 pattern => exact Outcome.bind (Gives.unknown _) fun label _ => Outcome.pure (Walks.opening label)
  | case3 pattern next rest ih =>
    refine Outcome.bind (Gives.unknown _) fun label _ => Outcome.bind ih fun others hothers => Outcome.pure ?_
    exact fun drawn => Walks.opens (.quiet rfl drawn : Walks 0 0 drawn [.line label] drawn) (hothers drawn)

theorem catchSteps_walk (drawn : Nat) : Walks 1 1 drawn (catchSteps mode) drawn :=
  (Walks.reopening _ drawn).thenStay (.quiet (Step.isQuiet_ofOption _) drawn)

theorem TypeDecl.memberwise_walk (kind : TypeKind) (decl : TypeDecl) (drawn : Nat) :
    Walks 0 0 drawn (TypeDecl.memberwise kind decl) drawn := by
  rw [TypeDecl.memberwise]
  split
  · exact ((Walks.opening _ drawn).thenStay (.quiet rfl drawn : Walks 0 0 drawn [.line _] drawn)).thenClose
      (.closing "" drawn)
  · exact .quiet rfl drawn

namespace ParameterBag

theorem unpack_quiet (index : Nat) (parameters : List Parameter) :
    Gives (unpack mode index parameters) fun taken => taken.2.all Step.isQuiet = true := by
  fun_induction unpack mode index parameters with
  | case1 => exact rfl
  | case2 index parameter rest hvariadic ih => exact ih
  | case3 index parameter rest hvariadic name raw ih =>
    refine Outcome.bind (Gives.unknown _) fun fallback _ => Outcome.bind ih fun taken htaken => Outcome.pure ?_
    rw [List.all_append, Step.isQuiet_ofOption, htaken]
    rfl

/-- The lines that collect values go back to the level at which they start. -/
theorem collectSteps_walk (label : Option String) (raw : String) (threshold drawn : Nat) :
    Walks 0 0 drawn (collectSteps label raw threshold) drawn := by
  have htail : ∀ terminator, Walks 0 0 drawn (.indent :: tailSteps threshold terminator ++ [.outdent]) drawn :=
    fun terminator => Walks.indented (.quiet rfl drawn)
  cases label with
  | none =>
    have hstart : Walks 0 0 drawn [.line ("const " ++ raw ++ " = Object.entries(" ++ bagName ++ ")")] drawn :=
      .quiet rfl drawn
    exact hstart.thenStay (htail ";")
  | some label =>
    have hstart : Walks 0 0 drawn [.line ("const " ++ raw ++ " = [")] drawn := .quiet rfl drawn
    have hentries : Walks 0 0 drawn
        [.line ("...(" ++ Quoted.literal label ++ " in " ++ bagName ++ " ? [" ++ bagName ++ "[" ++
          Quoted.literal label ++ "]] : []),"), .line ("...Object.entries(" ++ bagName ++ ")")] drawn :=
      .quiet rfl drawn
    have hend : Walks 0 0 drawn [.line "];"] drawn := .quiet rfl drawn
    -- The tail is a continuation inside the brackets, which are one themselves.
    exact hstart.thenStay ((hentries.thenStay (htail ",")).indented.thenStay hend)

theorem variadicSteps_walk (threshold : Nat) (parameter : Parameter) (drawn : Nat) :
    Walks 0 0 drawn (variadicSteps mode threshold parameter) drawn :=
  (collectSteps_walk _ _ threshold drawn).thenStay (.quiet (Step.isQuiet_ofOption _) drawn)

/-- The lines at the top of a function. -/
theorem parameterSteps_walk (parameters : List Parameter) :
    Gives (parameterSteps mode parameters) fun steps => ∀ drawn, Walks 0 0 drawn steps drawn := by
  rw [parameterSteps]
  refine Outcome.bind (unpack_quiet mode 0 parameters) fun taken htaken => Outcome.pure fun drawn => ?_
  refine (Walks.thenStay ?_ (.quiet htaken drawn)).thenStay ?_
  · split <;> exact .quiet rfl drawn
  · split
    · exact variadicSteps_walk mode _ _ drawn
    · exact .quiet rfl drawn

end ParameterBag

/-! ### Statements and declarations -/

/-- What the steps of a statement do, by themselves and as the end of an open conditional. -/
structure Stmt.Walked (statement : Stmt) (drawn : Nat) (steps : List Step) (last : Nat) : Prop where
  whole : Walks 0 0 drawn steps last
  chained : Walks 1 0 drawn (chain statement steps) last

/-- A statement that is not chained stands between braces of its own. -/
theorem Stmt.Walked.of_steps {statement : Stmt} {drawn last : Nat} {steps : List Step}
    (h : Walks 0 0 drawn steps last)
    (hchain : ∀ steps, chain statement steps = .reopening "else" :: steps ++ [.closing ""]) :
    statement.Walked drawn steps last := by
  refine ⟨h, ?_⟩
  rw [hchain]
  exact ((Walks.reopening "else" drawn).thenStay h).thenClose (.closing "" last)

section

variable {mode}

theorem blockSteps_walk {body : List Stmt}
    (h : ∀ statement ∈ body, ∀ drawn, WritesFrom drawn (statement.steps mode) (statement.Walked drawn))
    (drawn : Nat) : WritesFrom drawn (blockSteps mode body) (Walks 0 0 drawn) := by
  induction body generalizing drawn with
  | nil =>
    rw [blockSteps]
    exact WritesFrom.pure (.quiet rfl drawn)
  | cons statement rest ih =>
    obtain ⟨hstatement, hrest⟩ := List.forall_mem_cons.mp h
    rw [blockSteps]
    refine (hstatement drawn).bind fun first middle hfirst => ?_
    exact (ih hrest middle).bind fun others last hothers => WritesFrom.pure (hfirst.whole.thenStay hothers)

/-- The other branch of a conditional closes the block of the first one. -/
theorem elseSteps_walk {elseBranch : Option Stmt}
    (h : ∀ statement, elseBranch = some statement →
      ∀ drawn, WritesFrom drawn (statement.steps mode) (statement.Walked drawn))
    (drawn : Nat) : WritesFrom drawn (elseSteps mode elseBranch) (Walks 1 0 drawn) := by
  cases elseBranch with
  | none =>
    rw [elseSteps]
    exact WritesFrom.pure (.closing "" drawn)
  | some statement =>
    rw [elseSteps_some]
    exact (h statement rfl drawn).bind fun steps last hsteps => WritesFrom.pure hsteps.chained

theorem switchSteps_walk {cases : List SwitchCase}
    (h : ∀ branch ∈ cases, ∀ statement ∈ branch.body,
      ∀ drawn, WritesFrom drawn (statement.steps mode) (statement.Walked drawn))
    (drawn : Nat) : WritesFrom drawn (switchSteps mode cases) (Walks 0 0 drawn) := by
  induction cases generalizing drawn with
  | nil =>
    rw [switchSteps]
    exact WritesFrom.pure (.quiet rfl drawn)
  | cons branch rest ih =>
    obtain ⟨patterns, body⟩ := branch
    obtain ⟨hbody, hrest⟩ := List.forall_mem_cons.mp h
    rw [switchSteps]
    refine WritesFrom.lift (patternSteps_walk mode patterns) fun labels hlabels => ?_
    refine (blockSteps_walk hbody drawn).bind fun bodySteps middle hsteps => ?_
    refine (ih hrest middle).bind fun others last hothers => WritesFrom.pure ?_
    exact (((hlabels drawn).thenStay hsteps).thenClose (.exit "break;" "" middle)).thenStay hothers

theorem fallbackSteps_walk {fallback : Option (List Stmt)}
    (h : ∀ body, fallback = some body → ∀ statement ∈ body,
      ∀ drawn, WritesFrom drawn (statement.steps mode) (statement.Walked drawn))
    (drawn : Nat) : WritesFrom drawn (fallbackSteps mode fallback) (Walks 0 0 drawn) := by
  cases fallback with
  | none =>
    rw [fallbackSteps]
    exact WritesFrom.pure (.quiet rfl drawn)
  | some body =>
    rw [fallbackSteps]
    refine (blockSteps_walk (h body rfl) drawn).bind fun bodySteps last hsteps => WritesFrom.pure ?_
    exact ((Walks.opening "default:" drawn).thenStay hsteps).thenClose (.exit "break;" "" last)

theorem memberSteps_walk {members : List Decl}
    (h : ∀ decl ∈ members, ∀ drawn, WritesFrom drawn (decl.steps mode .member) (Walks 0 0 drawn))
    (drawn : Nat) : WritesFrom drawn (memberSteps mode members) (Walks 0 0 drawn) := by
  induction members generalizing drawn with
  | nil =>
    rw [memberSteps]
    exact WritesFrom.pure (.quiet rfl drawn)
  | cons decl rest ih =>
    obtain ⟨hdecl, hrest⟩ := List.forall_mem_cons.mp h
    rw [memberSteps]
    refine (hdecl drawn).bind fun first middle hfirst => ?_
    exact (ih hrest middle).bind fun others last hothers => WritesFrom.pure (hfirst.thenStay hothers)

end

/-- **Statements.**  The steps of a statement close the blocks and levels that they open, and number the temporaries
that they declare from the number already drawn on; so do those of a declaration. -/
theorem Stmt.steps_walk :
    (∀ statement drawn, WritesFrom drawn (Stmt.steps mode statement) (statement.Walked drawn)) ∧
      ∀ scope decl drawn, WritesFrom drawn (Decl.steps mode scope decl) (Walks 0 0 drawn) := by
  apply Stmt.induction
  case var =>
    intro scope decl drawn
    rw [Decl.steps, VariableDecl.line]
    refine WritesFrom.lift (P := fun line => line.isQuiet = true)
      (Outcome.bind (Gives.unknown _) fun _ _ => Outcome.pure rfl) fun line hline => WritesFrom.pure ?_
    exact .quiet (by rw [List.all_cons, hline]; rfl) drawn
  case enumeration =>
    intro scope decl drawn
    rw [Decl.steps]
    exact WritesFrom.pure (.quiet rfl drawn)
  case typeAlias =>
    intro scope decl drawn
    rw [Decl.steps]
    exact WritesFrom.pure (.quiet rfl drawn)
  case nested =>
    intro kind decl drawn
    obtain ⟨name, parents, members⟩ := decl
    rw [Decl.steps]
    exact trivial
  case type =>
    intro kind name parents members hmembers drawn
    rw [Decl.steps]
    refine (memberSteps_walk hmembers drawn).bind fun memberSteps last hsteps => WritesFrom.pure ?_
    exact (((Walks.opening _ drawn).thenStay (TypeDecl.memberwise_walk kind _ drawn)).thenStay hsteps).thenClose
      (.closing "" last)
  case function =>
    intro scope name parameters returnType body isStatic hbody drawn
    rw [Decl.steps]
    refine WritesFrom.lift (Gives.unknown _) fun _ _ => ?_
    refine WritesFrom.lift (ParameterBag.parameterSteps_walk mode parameters) fun taken htaken => ?_
    refine (blockSteps_walk hbody drawn).bind fun bodySteps last hsteps => WritesFrom.pure ?_
    exact (((Walks.opening _ drawn).thenStay (htaken drawn)).thenStay hsteps).thenClose (.closing "" last)
  case decl =>
    intro declared hdeclared drawn
    rw [Stmt.steps]
    exact (hdeclared drawn).imp fun _ _ h => .of_steps h fun _ => rfl
  case expr =>
    intro value drawn
    rw [Stmt.steps]
    exact WritesFrom.lift (Gives.unknown _) fun _ _ => WritesFrom.pure (.of_steps (.quiet rfl drawn) fun _ => rfl)
  case block =>
    intro body hbody drawn
    rw [Stmt.steps]
    exact (blockSteps_walk hbody drawn).imp fun _ _ h => .of_steps h fun _ => rfl
  case ifThen =>
    intro condition thenBranch elseBranch hthen helse drawn
    rw [Stmt.steps]
    refine WritesFrom.lift (Gives.unknown _) fun test _ => ?_
    refine (blockSteps_walk hthen drawn).bind fun thenSteps middle hthenSteps => ?_
    -- By itself the conditional opens its block; chained, it closes the one before it first.
    refine (elseSteps_walk helse middle).bind fun rest last hrest => WritesFrom.pure ⟨?_, ?_⟩
    · exact ((Walks.opening _ drawn).thenStay hthenSteps).thenClose hrest
    · exact ((Walks.reopening _ drawn).thenStay hthenSteps).thenClose hrest
  case ifLet =>
    intro name value thenBranch elseBranch hthen helse drawn
    rw [Stmt.steps]
    refine (unwrap_walk mode name value drawn).bind fun unwrapping first hunwrap => ?_
    refine (blockSteps_walk hthen first).bind fun thenSteps middle hthenSteps => ?_
    refine (elseSteps_walk helse middle).bind fun rest last hrest => WritesFrom.pure (.of_steps ?_ fun _ => rfl)
    have hopening := (Walks.opening ("if (!__isNil(" ++ unwrapping.subject ++ "))") first).thenStay
      (.quiet hunwrap.2 first)
    exact ((hunwrap.1.opens hopening).thenStay hthenSteps).thenClose hrest
  case guard =>
    intro condition body hbody drawn
    rw [Stmt.steps]
    refine WritesFrom.lift (Gives.unknown _) fun test _ => ?_
    refine (blockSteps_walk hbody drawn).bind fun bodySteps last hsteps =>
      WritesFrom.pure (.of_steps ?_ fun _ => rfl)
    exact ((Walks.opening _ drawn).thenStay hsteps).thenClose (.closing "" last)
  case guardLet =>
    intro name value body hbody drawn
    rw [Stmt.steps]
    refine (unwrap_walk mode name value drawn).bind fun unwrapping first hunwrap => ?_
    refine (blockSteps_walk hbody first).bind fun bodySteps last hsteps =>
      WritesFrom.pure (.of_steps ?_ fun _ => rfl)
    have hopening := (Walks.opening ("if (__isNil(" ++ unwrapping.subject ++ "))") first).thenStay hsteps
    have hleave : (if endsInExit body then [] else [Step.line "return;"]).all Step.isQuiet = true := by
      split <;> rfl
    exact ((hunwrap.1.opens hopening).thenStay (.quiet hleave last)).thenClose
      ((Walks.closing "" last).thenStay (.quiet hunwrap.2 last))
  case switch =>
    intro subject cases fallback hcases hfallback drawn
    rw [Stmt.steps]
    refine WritesFrom.lift (Gives.unknown _) fun test _ => ?_
    refine (switchSteps_walk hcases drawn).bind fun caseSteps middle hcaseSteps => ?_
    refine (fallbackSteps_walk hfallback middle).bind fun fallbackSteps last hfallbackSteps =>
      WritesFrom.pure (.of_steps ?_ fun _ => rfl)
    exact (((Walks.opening _ drawn).thenStay hcaseSteps).thenStay hfallbackSteps).thenClose (.closing "" last)
  case forIn =>
    intro counter sequence body hbody drawn
    rw [Stmt.steps]
    refine (loopSteps_walk mode counter sequence drawn).bind fun header middle hheader => ?_
    refine (blockSteps_walk hbody middle).bind fun bodySteps last hsteps =>
      WritesFrom.pure (.of_steps ?_ fun _ => rfl)
    exact (hheader.thenStay hsteps).thenClose (.closing "" last)
  case whileLoop =>
    intro condition body hbody drawn
    rw [Stmt.steps]
    refine WritesFrom.lift (Gives.unknown _) fun test _ => ?_
    refine (blockSteps_walk hbody drawn).bind fun bodySteps last hsteps =>
      WritesFrom.pure (.of_steps ?_ fun _ => rfl)
    exact ((Walks.opening _ drawn).thenStay hsteps).thenClose (.closing "" last)
  case repeatWhile =>
    intro body condition hbody drawn
    rw [Stmt.steps]
    refine (blockSteps_walk hbody drawn).bind fun bodySteps last hsteps => ?_
    refine WritesFrom.lift (Gives.unknown _) fun test _ => WritesFrom.pure (.of_steps ?_ fun _ => rfl)
    exact ((Walks.opening _ drawn).thenStay hsteps).thenClose (.closing _ last)
  case returns =>
    intro value drawn
    cases value with
    | none =>
      rw [Stmt.steps]
      exact WritesFrom.pure (.of_steps (.quiet rfl drawn) fun _ => rfl)
    | some value =>
      rw [Stmt.steps]
      exact WritesFrom.lift (Gives.unknown _) fun _ _ => WritesFrom.pure (.of_steps (.quiet rfl drawn) fun _ => rfl)
  case breaks =>
    intro drawn
    rw [Stmt.steps]
    exact WritesFrom.pure (.of_steps (.quiet rfl drawn) fun _ => rfl)
  case continues =>
    intro drawn
    rw [Stmt.steps]
    exact WritesFrom.pure (.of_steps (.quiet rfl drawn) fun _ => rfl)
  case blank =>
    intro drawn
    rw [Stmt.steps]
    exact WritesFrom.pure (.of_steps (.quiet rfl drawn) fun _ => rfl)
  case doCatch =>
    intro body binding handler hbody hhandler drawn
    rw [Stmt.steps]
    refine (blockSteps_walk hbody drawn).bind fun bodySteps middle hsteps => ?_
    refine (blockSteps_walk hhandler middle).bind fun handlerSteps last hhandlerSteps =>
      WritesFrom.pure (.of_steps ?_ fun _ => rfl)
    have htry : Walks 0 1 drawn (.opening "try" :: bodySteps) middle := (Walks.opening "try" drawn).thenStay hsteps
    exact ((htry.thenReopen (catchSteps_walk mode middle)).thenStay hhandlerSteps).thenClose (.closing "" last)
  case throws =>
    intro value drawn
    rw [Stmt.steps]
    exact WritesFrom.lift (Gives.unknown _) fun _ _ => WritesFrom.pure (.of_steps (.quiet rfl drawn) fun _ => rfl)

end ScriptLowering
