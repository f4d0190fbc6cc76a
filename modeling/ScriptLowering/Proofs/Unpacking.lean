import ScriptLowering.Proofs.Bag
import ScriptLowering.Proofs.Literals
import ScriptLowering.Proofs.Pages
import ScriptLowering.Proofs.Script

/-!
# Taking the bag apart

A function has one formal parameter, the bag.  The lines at its top declare a variable for each parameter of one value,
taken from the bag by a key, and a list for the variadic parameter.  What such a line says is given here beside what it
does with a bag.

* `ParameterBag.Binder` — a variable that a declaration takes out of the bag, with its spelling;
* `ParameterBag.Collector` — a list that is built from the bag, with the lines that spell it and the values in it;
* `ParameterBag.Split` — the parameters of one value, and the variadic one behind them;
* `ParameterBag.Unpacks` — the lines that take parameters out of the bag;
* `ParameterBag.Receives` — the lines of a function whose parameters come in a bag;
* `ParameterBag.write_receives` — every function is written by such lines.
-/

namespace ScriptLowering.ParameterBag

variable {α : Type}

/-! ### Variables from the bag -/

/-- A variable that a declaration takes out of the bag: the key under which it looks, the name of the variable, and the
text of the value that it has when nothing is found. -/
structure Binder where
  key : String
  name : String
  fallback : Option String

/-- The text of a binder.  A key that is the name of the variable stands for both. -/
def Binder.text (binder : Binder) : String :=
  (if binder.key = binder.name then binder.name else binder.key ++ ": " ++ binder.name) ++
    match binder.fallback with
    | some value => " = " ++ value
    | none => ""

/-- The declaration that takes variables out of the bag. -/
def destructuring (binders : List Binder) : String :=
  "const \x7b " ++ ", ".intercalate (binders.map Binder.text) ++ " \x7d = __args;"

/-- The variable that receives the value of a parameter. -/
def variableOf (parameter : Parameter) : Mode → String
  | .native => Identifier.safe parameter.name
  | .managed => "$" ++ Identifier.safe parameter.name

theorem rawName_eq_variableOf (mode : Mode) (parameter : Parameter) :
    mode.rawName (Identifier.safe parameter.name) = variableOf parameter mode := by
  cases mode <;> rfl

/-! ### Lists from the bag -/

/-- A list that is built from the bag. -/
inductive Collector where
  /-- The values at positions after a threshold. -/
  | positions (threshold : Nat)
  /-- The value at the key that a string literal spells, and behind it the values at positions after a threshold. -/
  | leading (literal : String) (threshold : Nat)

namespace Collector

/-- The lines that go from the entries of the bag to the values at positions after a threshold. -/
def chain (level threshold : Nat) (terminator : String) : List Line :=
  [⟨level, (Method.positional (α := String)).line⟩, ⟨level, (Method.numbered (α := String)).line⟩,
    ⟨level, (Method.above (α := String) threshold).line⟩, ⟨level, (Method.ascending (α := String)).line⟩,
    ⟨level, (Method.values (α := String)).line ++ terminator⟩]

/-- The lines that declare the list under a name, in the body of a function. -/
def lines (name : String) : Collector → List Line
  | .positions threshold => ⟨1, "const " ++ name ++ " = Object.entries(__args)"⟩ :: chain 2 threshold ";"
  | .leading literal threshold =>
    [⟨1, "const " ++ name ++ " = ["⟩, ⟨2, "...(" ++ literal ++ " in __args ? [__args[" ++ literal ++ "]] : []),"⟩,
      ⟨2, "...Object.entries(__args)"⟩] ++ chain 3 threshold "," ++ [⟨1, "];"⟩]

/-- The values in the list. -/
def values (bag : List (String × α)) : Collector → List α
  | .positions threshold => tailValues threshold bag
  | .leading literal threshold =>
    (match Quoted.readLiteral? literal with
      | some (label, "") => (bag.lookup label).toList
      | _ => []) ++ tailValues threshold bag

/-- The list for a variadic parameter under the given label, when the last parameter by position has the given
number. -/
def ofLabel (threshold : Nat) : Option String → Collector
  | none => .positions threshold
  | some label => .leading (Quoted.literal label) threshold

/-- The literal of a label leads to the value under the label. -/
theorem values_ofLabel (label : Option String) (threshold : Nat) (bag : List (String × α)) :
    (ofLabel threshold label).values bag = collected label threshold bag := by
  cases label with
  | none => rfl
  | some label =>
    have hread := Quoted.readLiteral?_literal label ""
    rw [String.append_empty] at hread
    rw [ofLabel, values, hread]
    rfl

/-- The lines that collect a variadic parameter declare this list. -/
theorem lines_collectSteps (label : Option String) (name : String) (threshold : Nat) :
    Step.lines 1 (collectSteps label name threshold) = (ofLabel threshold label).lines name := by
  cases label with
  | none =>
    have hentries : "const " ++ name ++ " = Object.entries(" ++ bagName ++ ")" =
        "const " ++ name ++ " = Object.entries(__args)" := by
      rw [String.append_assoc, String.append_assoc]
      rfl
    rw [collectSteps, hentries]
    rfl
  | some label =>
    have hmiddle : " in __args ? [__args[" = " in " ++ bagName ++ " ? [" ++ bagName ++ "[" := rfl
    have hlabel (key : String) : "...(" ++ key ++ " in __args ? [__args[" ++ key ++ "]] : [])," =
        "...(" ++ key ++ " in " ++ bagName ++ " ? [" ++ bagName ++ "[" ++ key ++ "]] : [])," := by
      rw [hmiddle]
      simp only [String.append_assoc]
    rw [ofLabel, lines, hlabel]
    rfl

end Collector

/-! ### Parameters of one value and the variadic parameter -/

/-- The parameters of one value, and the variadic parameter after them, if there is one. -/
structure Split (parameters singles : List Parameter) (last : Option Parameter) : Prop where
  parts : parameters = singles ++ last.toList
  single : ∀ parameter ∈ singles, parameter.isVariadic = false
  variadic : ∀ parameter, last = some parameter → parameter.isVariadic = true

theorem exists_split {parameters : List Parameter} (h : misplaced? parameters = none) :
    ∃ singles last, Split parameters singles last := by
  fun_induction misplaced? parameters with
  | case1 => exact ⟨[], none, rfl, by simp, by simp⟩
  | case2 parameter =>
    cases hvariadic : parameter.isVariadic with
    | true => exact ⟨[], some parameter, rfl, by simp, by simp [hvariadic]⟩
    | false => exact ⟨[parameter], none, rfl, by simp [hvariadic], by simp⟩
  | case3 first next rest hvariadic => exact nomatch h
  | case4 first next rest hvariadic ih =>
    obtain ⟨singles, last, hparts, hsingle, hlast⟩ := ih h
    refine ⟨first :: singles, last, by rw [hparts, List.cons_append], ?_, hlast⟩
    exact List.forall_mem_cons.mpr ⟨Bool.eq_false_iff.mpr hvariadic, hsingle⟩

namespace Split

variable {parameters singles : List Parameter} {last : Option Parameter}

theorem filter_eq (h : Split parameters singles last) :
    (parameters.filter fun parameter => !parameter.isVariadic) = singles := by
  have hsingles : (singles.filter fun parameter => !parameter.isVariadic) = singles :=
    List.filter_eq_self.mpr fun parameter hparameter => by simp [h.single parameter hparameter]
  rw [h.parts, List.filter_append, hsingles]
  cases last with
  | none => simp
  | some parameter => simp [h.variadic parameter rfl]

theorem find?_eq (h : Split parameters singles last) : parameters.find? (·.isVariadic) = last := by
  have hsingles : singles.find? (·.isVariadic) = none :=
    List.find?_eq_none.mpr fun parameter hparameter => by simp [h.single parameter hparameter]
  rw [h.parts, List.find?_append, hsingles, Option.none_or]
  cases last with
  | none => rfl
  | some parameter => simp [h.variadic parameter rfl]

theorem getElem?_single (h : Split parameters singles last) {j : Nat} {parameter : Parameter} :
    parameters[j]? = some parameter ∧ parameter.isVariadic = false ↔ singles[j]? = some parameter := by
  constructor
  · rintro ⟨hparameter, hsingle⟩
    rw [h.parts, List.getElem?_append] at hparameter
    split at hparameter
    · exact hparameter
    · have hlast : parameter ∈ last.toList := List.mem_of_getElem? hparameter
      rw [h.variadic parameter (by simpa using hlast)] at hsingle
      exact absurd hsingle (by decide)
  · intro hparameter
    obtain ⟨hj, -⟩ := List.getElem?_eq_some_iff.mp hparameter
    refine ⟨?_, h.single parameter (List.mem_of_getElem? hparameter)⟩
    rw [h.parts, List.getElem?_append_left hj, hparameter]

end Split

/-! ### The lines at the top of a function -/

/-- The lines that take parameters out of the bag: one declares a variable for each single parameter, from the key of
the parameter, and others declare the list of the variadic parameter. -/
structure Unpacks (mode : Mode) (parameters : List Parameter) (lines : List Line) : Prop where
  single : ∃ binders : List Binder, (binders ≠ [] → ⟨1, destructuring binders⟩ ∈ lines) ∧
    binders.length = parameters.countP (!·.isVariadic) ∧
    ∀ (j : Nat) (parameter : Parameter), parameters[j]? = some parameter → parameter.isVariadic = false →
      ∃ fallback, parameter.fallback.mapM (·.text mode) = .ok fallback ∧
        binders[j]? = some ⟨parameterKey j parameter, variableOf parameter mode, fallback⟩
  variadic : ∀ parameter, parameters.find? (·.isVariadic) = some parameter →
    (Collector.ofLabel (threshold parameters) (effectiveLabel parameter)).lines (variableOf parameter mode) <:+: lines

/-- The lines of a function whose parameters come in a bag: the bag is its formal parameter, and the parameters are
taken out of it in front of the body. -/
def Receives (mode : Mode) (parameters : List Parameter) (lines : List Line) : Prop :=
  ∃ lead trail taken body,
    lines = ⟨0, lead ++ (if parameters = [] then "()" else "(__args: any = \x7b\x7d)") ++ trail ++ " \x7b"⟩ ::
      (taken ++ body ++ [⟨0, "\x7d"⟩]) ∧
    Unpacks mode parameters taken

/-- What a parameter falls back on is the text of its default value, where it has one. -/
theorem fallbackText_gives (mode : Mode) (fallback : Option Expr) :
    Gives (fallbackText mode fallback) fun text => ∃ value, fallback.mapM (·.text mode) = .ok value ∧
      text = (value.map (" = " ++ ·)).getD "" := by
  cases fallback with
  | none => exact ⟨none, rfl, rfl⟩
  | some value =>
    refine Outcome.bind (Gives.self _) fun text htext => Outcome.pure ⟨some text, ?_, rfl⟩
    rw [Option.mapM_some, htext]
    rfl

/-- An entry is the text of a binder. -/
theorem entryText_eq (key name : String) (fallback : Option String) :
    entryText key name ++ (fallback.map (" = " ++ ·)).getD "" = Binder.text ⟨key, name, fallback⟩ := by
  rw [entryText, Binder.text]
  by_cases h : key = name
  · rw [if_pos h, if_pos h, h]
    cases fallback <;> rfl
  · rw [if_neg h, if_neg h]
    cases fallback <;> rfl

/-- Variadic parameters have no entries. -/
theorem unpack_variadic (mode : Mode) {parameters : List Parameter}
    (h : ∀ parameter ∈ parameters, parameter.isVariadic = true) (index : Nat) :
    unpack mode index parameters = .ok ([], []) := by
  induction parameters generalizing index with
  | nil => rfl
  | cons first rest ih =>
    obtain ⟨hfirst, hrest⟩ := List.forall_mem_cons.mp h
    rw [unpack, if_pos hfirst, ih hrest]

/-- The entries for single parameters are binders, in the order of the parameters. -/
theorem unpack_binds (mode : Mode) {singles : List Parameter}
    (hsingle : ∀ parameter ∈ singles, parameter.isVariadic = false) (others : List Parameter)
    (hothers : ∀ parameter ∈ others, parameter.isVariadic = true) (index : Nat) :
    Gives (unpack mode index (singles ++ others)) fun result => ∃ binders : List Binder,
      result.1 = binders.map Binder.text ∧ binders.length = singles.length ∧
        ∀ (j : Nat) (parameter : Parameter), singles[j]? = some parameter →
          ∃ fallback, parameter.fallback.mapM (·.text mode) = .ok fallback ∧
            binders[j]? = some ⟨parameterKey (index + j) parameter, variableOf parameter mode, fallback⟩ := by
  induction singles generalizing index with
  | nil =>
    rw [List.nil_append, unpack_variadic mode hothers]
    exact ⟨[], rfl, rfl, fun j parameter hparameter => nomatch hparameter⟩
  | cons first singles ih =>
    obtain ⟨hfirst, hrest⟩ := List.forall_mem_cons.mp hsingle
    rw [List.cons_append, unpack, if_neg (by simp [hfirst])]
    refine Outcome.bind (fallbackText_gives mode first.fallback) fun fallback hfallback => ?_
    obtain ⟨value, hvalue, rfl⟩ := hfallback
    refine Outcome.bind (ih hrest (index + 1)) fun result hresult => Outcome.pure ?_
    obtain ⟨binders, hentries, hlength, hbinders⟩ := hresult
    refine ⟨⟨parameterKey index first, variableOf first mode, value⟩ :: binders, ?_, congrArg (· + 1) hlength,
      fun j parameter hparameter => ?_⟩
    · rw [rawName_eq_variableOf, entryText_eq, hentries, List.map_cons]
    · cases j with
      | zero =>
        obtain rfl : first = parameter := by simpa using hparameter
        exact ⟨value, hvalue, rfl⟩
      | succ j =>
        rw [show index + (j + 1) = index + 1 + j by omega]
        exact hbinders j parameter hparameter

/-- The line that declares the variables of some binders. -/
theorem destructuring_eq (binders : List Binder) :
    "const \x7b " ++ Text.joinWith ", " (binders.map Binder.text) ++ " \x7d = " ++ bagName ++ ";" =
      destructuring binders := by
  rw [destructuring, Text.joinWith_eq_intercalate, String.append_assoc, String.append_assoc]
  rfl

/-- The lines for a variadic parameter begin with those that declare its list. -/
theorem variadicSteps_lines (mode : Mode) (threshold : Nat) (parameter : Parameter) :
    (Collector.ofLabel threshold (effectiveLabel parameter)).lines (variableOf parameter mode) <+:
      Step.lines 1 (variadicSteps mode threshold parameter) := by
  have hlevels := (collectSteps_walk (effectiveLabel parameter) (variableOf parameter mode) threshold 0).levels
  rw [variadicSteps, rawName_eq_variableOf, Step.lines_append (hlevels 1), Collector.lines_collectSteps]
  exact List.prefix_append _ _

theorem parameterSteps_unpacks (mode : Mode) {parameters : List Parameter} (hplaced : misplaced? parameters = none) :
    Gives (parameterSteps mode parameters) fun steps => Unpacks mode parameters (Step.lines 1 steps) := by
  obtain ⟨singles, last, hsplit⟩ := exists_split hplaced
  have hbinds := unpack_binds mode hsplit.single last.toList
    (fun parameter hparameter => hsplit.variadic parameter (by simpa using hparameter)) 0
  rw [← hsplit.parts] at hbinds
  rw [parameterSteps]
  refine Outcome.bind (Gives.self _) fun result hresult => Outcome.pure ?_
  obtain ⟨binders, hentries, hlength, hbinders⟩ := hbinds.of_eq_ok hresult
  -- The three parts of the lines stand at one level.
  have hbindings : Levels 0 0 result.2 := (Walks.quiet ((unpack_quiet mode 0 parameters).of_eq_ok hresult) 0).levels
  have htaken : Levels 0 0 (if result.1.isEmpty then ([] : List Step)
      else [.line ("const \x7b " ++ Text.joinWith ", " result.1 ++ " \x7d = " ++ bagName ++ ";")]) := by
    split
    · exact Levels.nil
    · exact Levels.single _
  have hfront := htaken.append hbindings (Nat.le_refl 0)
  rw [Step.lines_append (hfront 1), Step.lines_append (htaken 1)]
  rw [← hsplit.filter_eq, ← List.countP_eq_length_filter] at hlength
  refine ⟨⟨binders, fun hne => ?_, hlength, fun j parameter hparameter hsingle => ?_⟩, fun parameter hfind => ?_⟩
  · have hsome : ¬ (binders.map Binder.text).isEmpty = true := by simpa using hne
    rw [hentries, if_neg hsome, destructuring_eq]
    exact List.mem_append_left _ (List.mem_append_left _ (List.mem_singleton_self _))
  · obtain ⟨fallback, hfallback, hbinder⟩ := hbinders j parameter (hsplit.getElem?_single.mp ⟨hparameter, hsingle⟩)
    rw [Nat.zero_add] at hbinder
    exact ⟨fallback, hfallback, hbinder⟩
  · rw [hfind]
    exact (variadicSteps_lines mode (threshold parameters) parameter).isInfix.trans (List.suffix_append _ _).isInfix

/-! ### Functions -/

/-- The bag is the formal parameter in the header of a function. -/
theorem header_formal (scope : Scope) (decl : FunctionDecl) :
    ∃ lead trail, FunctionDecl.header scope decl =
      lead ++ (if decl.parameters = [] then "()" else "(__args: any = \x7b\x7d)") ++ trail := by
  have hformal : formalText decl.parameters = if decl.parameters = [] then "()" else "(__args: any = \x7b\x7d)" := by
    rw [formalText]
    simp only [List.isEmpty_iff]
    rfl
  rw [FunctionDecl.header.eq_def, hformal]
  generalize (if decl.parameters = [] then "()" else "(__args: any = \x7b\x7d)") = formal
  dsimp only
  split
  · exact ⟨"constructor", "", (String.append_empty).symm⟩
  · exact ⟨_, Mode.annotationText decl.returnType, rfl⟩

/-- Only a function whose variadic parameter is the last one is written. -/
theorem placed_of_check {scope : Scope} {decl : FunctionDecl} (h : decl.check scope = .ok ()) :
    misplaced? decl.parameters = none := by
  rw [FunctionDecl.check] at h
  split at h
  · exact nomatch h
  · split at h
    · exact nomatch h
    · assumption

/-- The lines of a block that closes what it opens. -/
theorem block_lines (header : String) {inner : List Step} (h : Levels 0 0 inner) :
    Step.lines 0 (.opening header :: inner ++ [.closing ""]) =
      ⟨0, header ++ " \x7b"⟩ :: (Step.lines 1 inner ++ [⟨0, "\x7d"⟩]) := by
  show _ :: Step.lines 1 (inner ++ [.closing ""]) = _
  rw [Step.lines_append (h 1)]
  rfl

/-- The steps of a function receive its parameters. -/
theorem steps_receive (mode : Mode) (scope : Scope) (decl : FunctionDecl) (drawn : Nat) :
    WritesFrom drawn ((Decl.function decl).steps mode scope) fun steps _ =>
      Receives mode decl.parameters (Step.lines 0 steps) := by
  obtain ⟨name, parameters, returnType, body, isStatic⟩ := decl
  rw [Decl.steps]
  refine WritesFrom.lift (Gives.self _) fun _ hcheck => ?_
  refine WritesFrom.lift (Gives.self _) fun taken htaken => ?_
  refine (blockSteps_walk (fun statement _ => (Stmt.steps_walk mode).1 statement) drawn).bind
    fun bodySteps last hbody => WritesFrom.pure ?_
  have hlevels := ((parameterSteps_walk mode parameters).of_eq_ok htaken drawn).levels
  have hunpacks := (parameterSteps_unpacks mode (placed_of_check hcheck)).of_eq_ok htaken
  obtain ⟨lead, trail, hheader⟩ := header_formal scope ⟨name, parameters, returnType, body, isStatic⟩
  refine ⟨lead, trail, Step.lines 1 taken, Step.lines 1 bodySteps, ?_, hunpacks⟩
  rw [← hheader, List.cons_append, block_lines _ (hlevels.append hbody.levels (Nat.le_refl 0)),
    Step.lines_append (hlevels 1)]

/-- **Functions and the bag.**  Wherever a function is written, its lines take its parameters out of the bag. -/
theorem write_receives {mode : Mode} {scope : Scope} {decl : FunctionDecl} {page after : Page} {drawn last : Nat}
    (h : (Decl.function decl).write mode scope page drawn = .ok (after, last)) :
    ∃ lines, after = ⟨page.text ++ Line.layout page.depth lines, page.depth⟩ ∧
      Receives mode decl.parameters lines := by
  obtain ⟨steps, hrun, -, -, hafter⟩ := ((Stmt.steps_walk mode).2 scope (.function decl) drawn).restores h
  exact ⟨Step.lines 0 steps, hafter, (steps_receive mode scope decl drawn).of_run hrun⟩

end ScriptLowering.ParameterBag
