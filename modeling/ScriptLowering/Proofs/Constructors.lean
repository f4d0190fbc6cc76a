import Mathlib.Data.List.Basic
import ScriptLowering.Proofs.Pages
import ScriptLowering.Proofs.SafeNames

/-!
# The constructors of a class

A class of a script has room for one constructor.  Every member `init` of a type is written as one, a struct without an
`init` is given one, and a method called `constructor` in the source is one as well.

* `Line.isConstructor`, `constructorHeaders` — the lines of a class that begin a constructor of it;
* `Decl.isConstructorMethod`, `Decl.constructorHeader?` — the members that are a constructor, by their names;
* `memberSteps_constructors` — the constructors among the members of a type;
* `TypeDecl.constructors_counted` — the constructors of a class, and when it has just one;
* `TypeDecl.constructors_repeated` — classes with two.
-/

namespace ScriptLowering

theorem WritesFrom.and {α : Type} {drawn : Nat} {P Q : α → Nat → Prop} {emission : Emission α}
    (hfirst : WritesFrom drawn emission P) (hsecond : WritesFrom drawn emission Q) :
    WritesFrom drawn emission fun value last => P value last ∧ Q value last := by
  rw [WritesFrom] at *
  cases hrun : emission.run drawn with
  | error fault => trivial
  | ok result =>
    rw [hrun] at hfirst hsecond
    exact ⟨hfirst, hsecond⟩

/-! ### Constructors -/

/-- The name in front of the parameters of a method. -/
def methodName (header : List Char) : List Char := header.takeWhile (· ≠ '(')

/-- Whether a line begins a constructor of the class around it: a member `constructor` with a body. -/
def Line.isConstructor (line : Line) : Bool :=
  line.level = 1 && line.text.toList.getLast? = some '{' && methodName line.text.toList = "constructor".toList

/-- The lines with which the steps of a class begin its constructors. -/
def constructorHeaders (level : Nat) (steps : List Step) : List String :=
  ((Step.lines level steps).filter Line.isConstructor).map Line.text

/-- Whether a member is a constructor by its name in the source. -/
def Decl.isConstructorMethod : Decl → Bool
  | .function decl => !decl.isStatic && methodName decl.name.toList = "constructor".toList
  | _ => false

/-- The line with which a member begins a constructor, if it is one. -/
def Decl.constructorHeader? : Decl → Option String
  | .function decl =>
    if (Decl.function decl).isInitializer || (Decl.function decl).isConstructorMethod then
      some (FunctionDecl.header .member decl ++ " \x7b")
    else none
  | _ => none

theorem constructorHeaders_append {level last : Nat} {first second : List Step}
    (h : Step.levelsAfter? level first = some last) :
    constructorHeaders level (first ++ second) = constructorHeaders level first ++ constructorHeaders last second := by
  rw [constructorHeaders, Step.lines_append h, List.filter_append, List.map_append]
  rfl

/-- Inside the body of a member there is no constructor of the class. -/
theorem constructorHeaders_deeper {steps : List Step} (h : Levels 0 0 steps) : constructorHeaders 2 steps = [] := by
  have hlines := Step.lines_add (h 0) 2
  rw [constructorHeaders, show 2 = 2 + (0 + 0) from rfl, hlines, List.map_eq_nil_iff, List.filter_eq_nil_iff]
  intro line hline
  obtain ⟨inner, -, rfl⟩ := List.mem_map.mp hline
  have hlevel : 2 + inner.level ≠ 1 := by omega
  simp [Line.isConstructor, hlevel]

/-- A line that ends in a semicolon begins nothing. -/
theorem constructorHeaders_line (text : String) : constructorHeaders 1 [.line (text ++ ";")] = [] := by
  have hlast : (text ++ ";").toList.getLast? = some ';' := by
    rw [String.toList_append, List.getLast?_append]
    rfl
  have hline : Line.isConstructor ⟨1, text ++ ";"⟩ = false := by
    rw [Line.isConstructor, hlast]
    rfl
  have hlines : Step.lines 1 [.line (text ++ ";")] = [⟨1, text ++ ";"⟩] := rfl
  rw [constructorHeaders, hlines, List.filter_cons, hline]
  rfl

/-- A line that opens a block begins a constructor or nothing. -/
theorem constructorHeaders_opening (header : String) : constructorHeaders 1 [.opening header] =
    if methodName (header ++ " \x7b").toList = "constructor".toList then [header ++ " \x7b"] else [] := by
  have hbrace : (header ++ " \x7b").toList.getLast? = some '{' := by
    rw [String.toList_append, List.getLast?_append]
    rfl
  have hline : Line.isConstructor ⟨1, header ++ " \x7b"⟩ =
      decide (methodName (header ++ " \x7b").toList = "constructor".toList) := by
    rw [Line.isConstructor, hbrace]
    rfl
  have hlines : Step.lines 1 [.opening header] = [⟨1, header ++ " \x7b"⟩] := rfl
  rw [constructorHeaders, hlines, List.filter_cons, hline, List.filter_nil]
  simp only [decide_eq_true_eq]
  split <;> rfl

/-! ### Headers of methods -/

/-- What comes behind the parameters is no part of the name. -/
theorem methodName_append (name rest : List Char) : methodName (name ++ '(' :: rest) = methodName name := by
  induction name with
  | nil => rfl
  | cons c name ih =>
    rw [methodName, methodName, List.cons_append, List.takeWhile_cons, List.takeWhile_cons]
    split
    · rw [← methodName, ih]
      rfl
    · rfl

/-- The name of a method is what stands in front of its formal parameter. -/
theorem methodName_formal (name rest : String) (parameters : List Parameter) :
    methodName (name ++ ParameterBag.formalText parameters ++ rest).toList = methodName name.toList := by
  obtain ⟨formal, hformal⟩ : ∃ formal, (ParameterBag.formalText parameters).toList = '(' :: formal := by
    rw [ParameterBag.formalText]
    split
    · exact ⟨_, rfl⟩
    · exact ⟨_, rfl⟩
  rw [String.toList_append, String.toList_append, hformal, List.append_assoc, List.cons_append, methodName_append]

/-- No reserved word is a constructor, as it is or as it is emitted. -/
theorem reserved_not_constructor : ∀ word ∈ Identifier.reserved,
    methodName word.toList ≠ "constructor".toList ∧ methodName (word.toList ++ ['_']) ≠ "constructor".toList := by
  decide +kernel

/-- A method is emitted as a constructor just when its name in the source says so. -/
theorem methodName_safe (name : String) :
    methodName (Identifier.safe name).toList = "constructor".toList ↔ methodName name.toList = "constructor".toList := by
  rcases Identifier.safe_cases name with ⟨hreserved, hsafe⟩ | ⟨digits, hdigits, hsafe⟩ | ⟨-, -, hsafe⟩
  · obtain ⟨hword, hemitted⟩ := reserved_not_constructor name (List.contains_iff_mem.mp hreserved)
    rw [hsafe, String.toList_append]
    exact iff_of_false hemitted hword
  · rw [hsafe, String.toList_append, (Identifier.anonymousDigits?_eq_some hdigits).1]
    exact iff_of_false (by simp [methodName]) (by simp [methodName])
  · rw [hsafe]

/-- The name of a member function in its class. -/
theorem FunctionDecl.methodName_header (decl : FunctionDecl) (rest : String) :
    methodName (FunctionDecl.header .member decl ++ rest).toList = "constructor".toList ↔
      (Decl.function decl).isInitializer = true ∨ (Decl.function decl).isConstructorMethod = true := by
  simp only [Decl.isInitializer, Decl.isConstructorMethod, Bool.and_eq_true, Bool.not_eq_true', decide_eq_true_eq]
  rw [FunctionDecl.header]
  by_cases hinit : decl.name = initializerName
  · rw [if_pos hinit, methodName_formal]
    exact iff_of_true rfl (.inl hinit)
  · rw [if_neg hinit, or_iff_right hinit]
    dsimp only
    rw [String.append_assoc, methodName_formal]
    cases decl.isStatic with
    | true => exact iff_of_false (by simp [methodName]) (fun h => Bool.noConfusion h.1)
    | false =>
      rw [if_neg Bool.false_ne_true, String.empty_append, methodName_safe]
      exact (and_iff_right rfl).symm

/-- An initializer is not called `constructor` in the source. -/
theorem Decl.not_isConstructorMethod {decl : Decl} (h : decl.isInitializer = true) :
    decl.isConstructorMethod = false := by
  cases decl with
  | function decl =>
    have hname : decl.name = initializerName := of_decide_eq_true h
    rw [Decl.isConstructorMethod, hname, Bool.and_eq_false_iff]
    exact .inr (by decide)
  | _ => contradiction

/-! ### Members -/

/-- Of the lines of a member function only its header may begin a constructor of the class. -/
theorem FunctionDecl.constructorHeaders_method (decl : FunctionDecl) {inner : List Step} (h : Levels 0 0 inner) :
    constructorHeaders 1 (.opening (FunctionDecl.header .member decl) :: inner ++ [.closing ""]) =
      (Decl.function decl).constructorHeader?.toList := by
  have hopens : Step.levelsAfter? 1 [.opening (FunctionDecl.header .member decl)] = some 2 := rfl
  have hbody : constructorHeaders 2 (inner ++ [.closing ""]) = [] := by
    rw [constructorHeaders_append (h 2), constructorHeaders_deeper h]
    decide
  have hheader : constructorHeaders 1 [.opening (FunctionDecl.header .member decl)] =
      (Decl.function decl).constructorHeader?.toList := by
    rw [constructorHeaders_opening, Decl.constructorHeader?]
    simp only [methodName_header, Bool.or_eq_true]
    split <;> rfl
  rw [List.cons_append, ← List.singleton_append, constructorHeaders_append hopens, hbody, List.append_nil, hheader]

/-- A member of a type is a constructor of the class where it is one in the source. -/
theorem Decl.constructorHeaders_member (mode : Mode) (decl : Decl) (drawn : Nat) :
    WritesFrom drawn (decl.steps mode .member) fun steps _ =>
      constructorHeaders 1 steps = decl.constructorHeader?.toList := by
  cases decl with
  | «variable» field =>
    rw [Decl.steps]
    refine WritesFrom.lift (P := fun step => constructorHeaders 1 [step] = []) ?_ fun step hstep => WritesFrom.pure hstep
    refine Outcome.bind (Gives.unknown _) fun initial _ => Outcome.pure ?_
    cases mode with
    | native => exact constructorHeaders_line _
    | managed => exact constructorHeaders_line _
  | enumeration decl =>
    rw [Decl.steps]
    refine WritesFrom.pure ?_
    cases mode with
    | native => exact constructorHeaders_line _
    | managed => exact constructorHeaders_line _
  | typeAlias decl =>
    rw [Decl.steps]
    exact WritesFrom.pure (constructorHeaders_line _)
  | type kind decl =>
    obtain ⟨name, parents, members⟩ := decl
    rw [Decl.steps]
    exact trivial
  | function decl =>
    obtain ⟨name, parameters, returnType, body, isStatic⟩ := decl
    rw [Decl.steps]
    refine WritesFrom.lift (Gives.unknown _) fun _ _ => ?_
    refine WritesFrom.lift (ParameterBag.parameterSteps_walk mode parameters) fun taken htaken => ?_
    refine (blockSteps_walk (fun statement _ => (Stmt.steps_walk mode).1 statement) drawn).bind
      fun bodySteps last hbody => WritesFrom.pure ?_
    have hinner : Levels 0 0 (taken ++ bodySteps) := ((htaken drawn).thenStay hbody).levels
    exact FunctionDecl.constructorHeaders_method _ hinner

/-- **The constructors among the members of a type.** -/
theorem memberSteps_constructors (mode : Mode) (members : List Decl) (drawn : Nat) :
    WritesFrom drawn (memberSteps mode members) fun steps _ =>
      Levels 0 0 steps ∧ constructorHeaders 1 steps = members.filterMap Decl.constructorHeader? := by
  induction members generalizing drawn with
  | nil =>
    rw [memberSteps]
    exact WritesFrom.pure ⟨Levels.nil, rfl⟩
  | cons decl rest ih =>
    rw [memberSteps]
    refine (((Stmt.steps_walk mode).2 .member decl drawn).and (decl.constructorHeaders_member mode drawn)).bind
      fun first middle hfirst => (ih middle).bind fun others last hothers => WritesFrom.pure ⟨?_, ?_⟩
    · exact hfirst.1.levels.append hothers.1 (Nat.le_refl 0)
    · rw [constructorHeaders_append (hfirst.1.levels 1), hfirst.2, hothers.2, List.filterMap_eq_flatMap_toList,
        List.filterMap_eq_flatMap_toList, List.flatMap_cons]

theorem Decl.isSome_constructorHeader? (decl : Decl) :
    decl.constructorHeader?.isSome = (decl.isInitializer || decl.isConstructorMethod) := by
  cases decl with
  | function decl =>
    rw [Decl.constructorHeader?]
    cases (Decl.function decl).isInitializer || (Decl.function decl).isConstructorMethod <;> rfl
  | _ => rfl

/-- A member counts once: it is an initializer, or it is called `constructor`. -/
theorem length_constructorHeaders (members : List Decl) :
    (members.filterMap Decl.constructorHeader?).length =
      members.countP Decl.isInitializer + members.countP Decl.isConstructorMethod := by
  rw [List.length_filterMap_eq_countP]
  induction members with
  | nil => rfl
  | cons decl rest ih =>
    rw [List.countP_cons, List.countP_cons, List.countP_cons, ih, decl.isSome_constructorHeader?]
    cases hinit : decl.isInitializer with
    | true =>
      rw [Decl.not_isConstructorMethod hinit]
      simp only [Bool.or_false, if_true, Bool.false_eq_true, if_false]
      omega
    | false =>
      simp only [Bool.false_or, Bool.false_eq_true, if_false]
      omega

/-! ### Classes -/

/-- The line with which a struct without an initializer begins the constructor that it is given. -/
def TypeDecl.givenHeader : String := "constructor(" ++ ParameterBag.bagName ++ ": any = \x7b\x7d) \x7b"

theorem TypeDecl.constructorHeaders_memberwise (kind : TypeKind) (decl : TypeDecl) :
    constructorHeaders 1 (TypeDecl.memberwise kind decl) =
      if kind = .struct ∧ decl.members.countP Decl.isInitializer = 0 then [TypeDecl.givenHeader] else [] := by
  have hany : (!decl.members.any Decl.isInitializer) = true ↔ decl.members.countP Decl.isInitializer = 0 := by
    simp [List.countP_eq_zero]
  rw [TypeDecl.memberwise]
  simp only [Bool.and_eq_true, decide_eq_true_eq, hany]
  split
  · decide
  · rfl

/-- The steps of a type begin the constructor that it is given and those of its members. -/
theorem TypeDecl.constructorHeaders_type (mode : Mode) (kind : TypeKind) (decl : TypeDecl) (drawn : Nat) :
    WritesFrom drawn ((Decl.type kind decl).steps mode .block) fun steps _ =>
      constructorHeaders 0 steps =
        (if kind = .struct ∧ decl.members.countP Decl.isInitializer = 0 then [TypeDecl.givenHeader] else []) ++
          decl.members.filterMap Decl.constructorHeader? := by
  obtain ⟨name, parents, members⟩ := decl
  rw [Decl.steps]
  refine (memberSteps_constructors mode members drawn).bind fun memberSteps last hmembers => WritesFrom.pure ?_
  generalize TypeDecl.header kind ⟨name, parents, members⟩ = header
  generalize hgiven : TypeDecl.memberwise kind ⟨name, parents, members⟩ = given
  have hopens : Step.levelsAfter? 0 [.opening header] = some 1 := rfl
  have hlevels : Levels 0 0 given := by
    rw [← hgiven]
    exact (TypeDecl.memberwise_walk kind _ drawn).levels
  have hopening : constructorHeaders 0 [.opening header] = [] := rfl
  have hclosing : constructorHeaders 1 [.closing ""] = [] := by decide
  rw [List.cons_append, List.cons_append, ← List.singleton_append, constructorHeaders_append hopens, List.append_assoc,
    constructorHeaders_append (hlevels 1), constructorHeaders_append (hmembers.1 1), hopening, hclosing, hmembers.2,
    ← hgiven, constructorHeaders_memberwise, List.nil_append, List.append_nil]

/-- **The constructors of a class** are the one that a struct without an initializer is given, and then the initializers
and the methods called `constructor` in the order of the members.  So a struct has just one constructor if and only if
it declares at most one initializer and no such method; any other type has at most one if and only if it declares at
most one initializer or such method in all. -/
theorem TypeDecl.constructors_counted {mode : Mode} {kind : TypeKind} {decl : TypeDecl} {page after : Page}
    {drawn last : Nat} (h : (Decl.type kind decl).write mode .block page drawn = .ok (after, last)) :
    let initializers := decl.members.countP Decl.isInitializer
    let methods := decl.members.countP Decl.isConstructorMethod
    ∃ steps, ((Decl.type kind decl).steps mode .block).run drawn = .ok (steps, last) ∧
      after = ⟨page.text ++ Line.layout page.depth (Step.lines 0 steps), page.depth⟩ ∧
      constructorHeaders 0 steps =
        (if kind = .struct ∧ initializers = 0 then [TypeDecl.givenHeader] else []) ++
          decl.members.filterMap Decl.constructorHeader? ∧
      (kind = .struct → (constructorHeaders 0 steps).length = max 1 initializers + methods ∧
        ((constructorHeaders 0 steps).length = 1 ↔ initializers ≤ 1 ∧ methods = 0)) ∧
      (kind ≠ .struct → (constructorHeaders 0 steps).length = initializers + methods ∧
        ((constructorHeaders 0 steps).length ≤ 1 ↔ initializers + methods ≤ 1)) := by
  intro initializers methods
  obtain ⟨steps, hrun, -, -, hafter⟩ := ((Stmt.steps_walk mode).2 .block (.type kind decl) drawn).restores h
  have hheaders := (TypeDecl.constructorHeaders_type mode kind decl drawn).of_run hrun
  have hlength : (constructorHeaders 0 steps).length =
      (if kind = .struct ∧ initializers = 0 then 1 else 0) + (initializers + methods) := by
    rw [hheaders, List.length_append, length_constructorHeaders]
    split <;> rfl
  refine ⟨steps, hrun, hafter, hheaders, fun hkind => ?_, fun hkind => ?_⟩
  · have hcount : (constructorHeaders 0 steps).length = max 1 initializers + methods := by
      rw [hlength]
      simp only [hkind, true_and]
      split <;> omega
    refine ⟨hcount, ?_⟩
    rw [hcount]
    omega
  · have hcount : (constructorHeaders 0 steps).length = initializers + methods := by
      rw [hlength, if_neg (fun hgiven => hkind hgiven.1), Nat.zero_add]
    exact ⟨hcount, by rw [hcount]⟩

/-- A point with a field, an initializer that takes it and a static method called `constructor`. -/
def pointDecl : TypeDecl :=
  ⟨"Point", [], [.variable ⟨"x", none, none, false, false, false⟩,
    .function ⟨"init", [⟨"x", none, none, false, none⟩], none,
      [.expr (.assign (.member .itself "x") "=" (.variable "x"))], false⟩,
    .function ⟨"constructor", [], none, [], true⟩]⟩

/-- The declared constructor of a struct is its only one. -/
theorem TypeDecl.constructors_counted_point :
    ∃ steps, ((Decl.type .struct pointDecl).steps .native .block).run 0 = .ok (steps, 0) ∧
      Line.layout 0 (Step.lines 0 steps) = "class Point \x7b\n  x;\n  constructor(__args: any = \x7b\x7d) \x7b\n" ++
        "    const \x7b x \x7d = __args;\n    this.x = x;\n  \x7d\n  static constructor() \x7b\n  \x7d\n\x7d\n" ∧
      constructorHeaders 0 steps = ["constructor(__args: any = \x7b\x7d) \x7b"] ∧
      (constructorHeaders 0 steps).length = 1 := by
  have hwritten : (Decl.type .struct pointDecl).write .native .block .blank 0 =
      .ok (⟨"class Point \x7b\n  x;\n  constructor(__args: any = \x7b\x7d) \x7b\n" ++
        "    const \x7b x \x7d = __args;\n    this.x = x;\n  \x7d\n  static constructor() \x7b\n  \x7d\n\x7d\n", 0⟩,
        0) := rfl
  obtain ⟨steps, hrun, hafter, hheaders, hstruct, -⟩ := TypeDecl.constructors_counted hwritten
  refine ⟨steps, hrun, ?_, hheaders, (hstruct rfl).2.mpr ⟨by decide, by decide⟩⟩
  exact (Page.mk.inj hafter).1.symm

/-- Each `init` of a struct is a constructor of its class, and so is a method called `constructor`. -/
theorem TypeDecl.constructors_repeated :
    (Stmt.decl (.type .struct ⟨"P", [], [.function ⟨"init", [], none, [], false⟩,
        .function ⟨"init", [], none, [], false⟩]⟩)).lower .native =
      .ok "class P \x7b\n  constructor() \x7b\n  \x7d\n  constructor() \x7b\n  \x7d\n\x7d\n" ∧
    (Stmt.decl (.type .reference ⟨"C", [], [.function ⟨"init", [], none, [], false⟩,
        .function ⟨"constructor", [], none, [], false⟩]⟩)).lower .managed =
      .ok "class C \x7b\n  constructor() \x7b\n  \x7d\n  constructor() \x7b\n  \x7d\n\x7d\n" ∧
    ¬ ∀ (mode : Mode) (kind : TypeKind) (decl : TypeDecl) (drawn last : Nat) (steps : List Step),
      ((Decl.type kind decl).steps mode .block).run drawn = .ok (steps, last) →
        (constructorHeaders 0 steps).length ≤ 1 ∧ (kind = .struct → (constructorHeaders 0 steps).length = 1) := by
  refine ⟨rfl, rfl, fun h => ?_⟩
  have hcount := (h .native .struct ⟨"P", [], [.function ⟨"init", [], none, [], false⟩,
    .function ⟨"init", [], none, [], false⟩]⟩ 0 0 _ rfl).1
  exact absurd hcount (by decide)

end ScriptLowering
