import ScriptLowering.Statement
import ScriptLowering.Proofs.Calling
import ScriptLowering.Proofs.SafeNames

/-!
# Memberwise construction

A struct that declares no initializer is given a constructor, which assigns the bag of its call to the new object.  The
keys of the bag are the labels of the call.  The class declares a field under the name that is emitted for it, and an
access reads it there.  So an argument reaches its field only when the name of the field is emitted as it is.

* `VariableDecl.Declares` — a line that declares a field under a given name;
* `Identifier.IsKept` — the names that are a key, and a field, as they are;
* `assign` — an object after a bag has been assigned to it;
* `memberSteps_declare` — every field of a type is declared under its emitted name;
* `TypeDecl.memberwise_reaches_kept_fields` — which arguments of a memberwise call reach their fields;
* `TypeDecl.memberwise_misses_reserved_field` — one that does not.
-/

namespace ScriptLowering

/-! ### Fields of a class -/

/-- Whether a line declares the field under the given name. -/
def VariableDecl.Declares (field : VariableDecl) (property : String) (step : Step) : Prop :=
  ∃ initial, field.initializer.mapM (·.text .native) = .ok initial ∧
    step = .line ((if field.isStatic then "static " else "") ++ property ++ Mode.annotationText field.annotation ++
      Mode.initialText initial ++ ";")

theorem VariableDecl.line_declares (field : VariableDecl) :
    Gives (field.line .native .member) (field.Declares (Identifier.safe field.name)) :=
  (Gives.self _).bind fun initial hinitial => Outcome.pure ⟨initial, hinitial, rfl⟩

/-- Every field among the members of a type is declared under its emitted name. -/
theorem memberSteps_declare (members : List Decl) :
    GivesWriting (memberSteps .native members) fun steps =>
      ∀ field, Decl.variable field ∈ members →
        ∃ step ∈ steps, field.Declares (Identifier.safe field.name) step := by
  induction members with
  | nil =>
    rw [memberSteps]
    exact Emits.pure fun field hfield => absurd hfield List.not_mem_nil
  | cons decl rest ih =>
    have hfirst : GivesWriting (decl.steps .native .member) fun steps =>
        ∀ field, Decl.variable field = decl →
          ∃ step ∈ steps, field.Declares (Identifier.safe field.name) step := by
      cases decl with
      | «variable» field =>
        rw [Decl.steps]
        refine (Emits.lift field.line_declares).bind fun step hstep => Emits.pure ?_
        rintro other ⟨⟩
        exact ⟨step, List.mem_singleton_self step, hstep⟩
      | _ => exact fun _ => (Gives.unknown _).imp fun _ _ _ hfield => by contradiction
    rw [memberSteps]
    refine hfirst.bind fun first hfirst => ih.bind fun others hothers => Emits.pure fun field hfield => ?_
    rcases List.mem_cons.mp hfield with hfield | hfield
    · obtain ⟨step, hstep, hdeclares⟩ := hfirst field hfield
      exact ⟨step, List.mem_append_left others hstep, hdeclares⟩
    · obtain ⟨step, hstep, hdeclares⟩ := hothers field hfield
      exact ⟨step, List.mem_append_right first hstep, hdeclares⟩

/-- The constructor that assigns its bag to the new object. -/
def assigningConstructor : List Step :=
  [.opening "constructor(__args: any = \x7b\x7d)", .line "Object.assign(this, __args);", .closing ""]

/-- A struct without an initializer is a class that begins with this constructor and declares every field. -/
theorem TypeDecl.struct_declares (name : String) (parents : List String) {members : List Decl}
    (hplain : members.any Decl.isInitializer = false) :
    GivesWriting ((Decl.type .struct ⟨name, parents, members⟩).steps .native .block) fun steps =>
      ∃ body, steps = .opening ("class " ++ Identifier.safe name) :: assigningConstructor ++ body ++ [.closing ""] ∧
        ∀ field, Decl.variable field ∈ members →
          ∃ step ∈ body, field.Declares (Identifier.safe field.name) step := by
  have hheader : TypeDecl.header .struct ⟨name, parents, members⟩ = "class " ++ Identifier.safe name := by
    simp [TypeDecl.header]
  have hconstructor : TypeDecl.memberwise .struct ⟨name, parents, members⟩ = assigningConstructor := by
    rw [TypeDecl.memberwise, hplain]
    rfl
  rw [Decl.steps, hheader, hconstructor]
  exact (memberSteps_declare members).bind fun body hbody => Emits.pure ⟨body, rfl, hbody⟩

/-- An access reads the property of the emitted name. -/
theorem Expr.member_text (object : Expr) (name : String) :
    Gives ((Expr.member object name).text .native) fun text =>
      ∃ base, object.text .native = .ok base ∧
        text = base ++ (if object.isOptionalChain then "?." else ".") ++ Identifier.safe name := by
  rw [Expr.text]
  exact (Gives.self _).bind fun base hbase => Outcome.pure ⟨base, hbase, rfl⟩

/-! ### Names that are kept -/

/-- The names that stand as they are, as the key of an argument and as the name of a field. -/
def Identifier.IsKept (name : String) : Prop := name ≠ "_" ∧ isReserved name = false ∧ isAnonymous name = false

instance (name : String) : Decidable (Identifier.IsKept name) :=
  inferInstanceAs (Decidable (_ ∧ _ ∧ _))

namespace ParameterBag

/-- A key is the emitted name of its label just when the label is kept. -/
theorem argumentKey_eq_safe_iff (index : Nat) (name : String) :
    argumentKey index (some name) = Identifier.safe name ↔ Identifier.IsKept name := by
  by_cases hname : name = "_"
  · subst hname
    refine iff_of_false (fun h => ?_) fun h => h.1 rfl
    -- The key of a position has a number behind the underscore.
    have hposition := position?_positionKey index
    rw [show positionKey index = "_" from h, show position? "_" = none from by decide] at hposition
    exact nomatch hposition
  · rw [argumentKey, if_neg hname, eq_comm, Identifier.safe_eq_self_iff, Identifier.IsKept, and_iff_right hname]

theorem getElem?_callKeys (index i : Nat) (arguments : List Argument) :
    (callKeys index arguments)[i]? = arguments[i]?.map fun argument => argumentKey (index + i) argument.label := by
  rw [callKeys_eq, getElem?_keysFrom, List.getElem?_map, Option.map_map]
  congr 1
  funext argument
  exact (argumentKey_eq (index + i) argument).symm

/-- The key of a labelled argument is the emitted name of the label just when the label is kept. -/
theorem callKeys_eq_safe_iff {arguments : List Argument} {i : Nat} {argument : Argument} {label : String}
    (hargument : arguments[i]? = some argument) (hlabel : argument.label = some label) :
    (callKeys 0 arguments)[i]? = some (Identifier.safe label) ↔ Identifier.IsKept label := by
  rw [getElem?_callKeys, hargument, Option.map_some, hlabel, Option.some.injEq, argumentKey_eq_safe_iff]

/-- Labels that are no position are keys as they are. -/
theorem map_some_callKeys {arguments : List Argument}
    (h : ∀ argument ∈ arguments, ∃ label, argument.label = some label ∧ label ≠ "_") (index : Nat) :
    (callKeys index arguments).map some = arguments.map (·.label) := by
  induction arguments generalizing index with
  | nil => rfl
  | cons argument rest ih =>
    obtain ⟨hfirst, hrest⟩ := List.forall_mem_cons.mp h
    obtain ⟨label, hlabel, hne⟩ := hfirst
    rw [callKeys, List.map_cons, ih hrest, List.map_cons, hlabel, argumentKey, if_neg hne]

/-- The text of a call that makes a value spells its bag. -/
theorem construction_text (callee : Expr) (arguments : List Argument) :
    Gives ((Expr.call callee arguments true).text .native) fun text =>
      ∃ base texts, callee.text .native = .ok base ∧ arguments.mapM (·.value.text .native) = .ok texts ∧
        text = "new " ++ base ++ Expr.parenthesized (argumentText ((callBag arguments texts).map bindingText)) := by
  rw [Expr.text, argumentTexts_eq]
  simp only [bind_assoc, pure_bind]
  exact (Gives.self _).bind fun texts htexts => (Gives.self _).bind fun base hbase =>
    Outcome.pure ⟨base, texts, hbase, htexts, rfl⟩

end ParameterBag

/-! ### Assigning a bag -/

section

variable {α : Type}

/-- The properties of an object after the entries of a bag have been assigned to it, one after another.  Every key is
taken for an ordinary property, also `__proto__`, which a script treats apart. -/
def assign (object : String → Option α) (bag : List (String × α)) : String → Option α :=
  bag.foldl (fun object entry property => if property = entry.1 then some entry.2 else object property) object

/-- A property that is no key of the bag is not touched. -/
theorem assign_of_not_mem {bag : List (String × α)} {property : String} (h : property ∉ bag.map Prod.fst)
    (object : String → Option α) : assign object bag property = object property := by
  induction bag generalizing object with
  | nil => rfl
  | cons entry rest ih =>
    obtain ⟨hfirst, hrest⟩ := not_or.mp (mt List.mem_cons.mpr h)
    exact (ih hrest _).trans (if_neg hfirst)

/-- A key that occurs once leaves its value in the object. -/
theorem assign_of_mem {bag : List (String × α)} (hnodup : (bag.map Prod.fst).Nodup) {property : String} {value : α}
    (h : (property, value) ∈ bag) (object : String → Option α) : assign object bag property = some value := by
  induction bag generalizing object with
  | nil => exact absurd h List.not_mem_nil
  | cons entry rest ih =>
    obtain ⟨hfirst, hrest⟩ := List.nodup_cons.mp hnodup
    rcases List.mem_cons.mp h with rfl | h
    · exact (assign_of_not_mem hfirst _).trans (if_pos rfl)
    · exact ih hrest h _

/-- When all labels are kept and no two are the same, every value ends up in the property of its label. -/
theorem assign_callBag {arguments : List Argument} {values : List α} (hlength : values.length = arguments.length)
    (hkept : ∀ argument ∈ arguments, ∃ label, argument.label = some label ∧ Identifier.IsKept label)
    (hnodup : (arguments.map (·.label)).Nodup) (object : String → Option α) {i : Nat} {argument : Argument}
    {label : String} (hargument : arguments[i]? = some argument) (hlabel : argument.label = some label) :
    assign object (ParameterBag.callBag arguments values) (Identifier.safe label) = values[i]? := by
  have hplain : ∀ argument ∈ arguments, ∃ label, argument.label = some label ∧ label ≠ "_" := by
    intro argument hmem
    obtain ⟨label, hlabel, hkept⟩ := hkept argument hmem
    exact ⟨label, hlabel, hkept.1⟩
  have hkeys : (ParameterBag.callKeys 0 arguments).Nodup := by
    rw [← ParameterBag.map_some_callKeys hplain 0] at hnodup
    exact List.Nodup.of_map some hnodup
  have hkey : (ParameterBag.callKeys 0 arguments)[i]? = some (Identifier.safe label) := by
    obtain ⟨other, hother, hkept⟩ := hkept argument (List.mem_of_getElem? hargument)
    obtain rfl : other = label := Option.some.inj (hother.symm.trans hlabel)
    exact (ParameterBag.callKeys_eq_safe_iff hargument hlabel).mpr hkept
  obtain ⟨hi, -⟩ := List.getElem?_eq_some_iff.mp hargument
  have hvalue : values[i]? = some (values.get ⟨i, by omega⟩) := List.getElem?_eq_getElem (by omega)
  rw [hvalue]
  refine assign_of_mem ?_ ?_ object
  · rw [ParameterBag.callBag, List.map_fst_zip]
    · exact hkeys
    · refine Nat.le_of_eq ?_
      rw [ParameterBag.callKeys_eq, ParameterBag.length_keysFrom, List.length_map, hlength]
  · refine List.mem_of_getElem? (i := i) ?_
    rw [ParameterBag.callBag, List.getElem?_zip_eq_some]
    exact ⟨hkey, hvalue⟩

end

/-! ### Calls and their fields -/

/-- A struct without an initializer assigns the bag of a call to the new object.  Its class declares every field
under the emitted name, and an access reads that property.  The key of an argument that is labelled with the name of
a field is that property just when the name is kept.  When all labels are kept and distinct, every field that the
call names has its value after the assignment, whatever the object held before. -/
theorem TypeDecl.memberwise_reaches_kept_fields {α : Type} (name : String) (parents : List String)
    {members : List Decl} {arguments : List Argument} (hplain : members.any Decl.isInitializer = false)
    (hlabels : ∀ argument ∈ arguments, ∃ field, Decl.variable field ∈ members ∧ argument.label = some field.name) :
    (GivesWriting ((Decl.type .struct ⟨name, parents, members⟩).steps .native .block) fun steps =>
      ∃ body, steps = .opening ("class " ++ Identifier.safe name) :: assigningConstructor ++ body ++ [.closing ""] ∧
        ∀ field, Decl.variable field ∈ members →
          ∃ step ∈ body, field.Declares (Identifier.safe field.name) step) ∧
    (∀ callee, Gives ((Expr.call callee arguments true).text .native) fun text =>
      ∃ base texts, callee.text .native = .ok base ∧ arguments.mapM (·.value.text .native) = .ok texts ∧
        text = "new " ++ base ++ Expr.parenthesized
          (ParameterBag.argumentText ((ParameterBag.callBag arguments texts).map ParameterBag.bindingText))) ∧
    (∀ object property, Gives ((Expr.member object property).text .native) fun text =>
      ∃ base, object.text .native = .ok base ∧
        text = base ++ (if object.isOptionalChain then "?." else ".") ++ Identifier.safe property) ∧
    (∀ (i : Nat) (argument : Argument), arguments[i]? = some argument →
      ∃ field, Decl.variable field ∈ members ∧ argument.label = some field.name ∧
        ((ParameterBag.callKeys 0 arguments)[i]? = some (Identifier.safe field.name) ↔
          Identifier.IsKept field.name)) ∧
    ((∀ argument ∈ arguments, ∃ label, argument.label = some label ∧ Identifier.IsKept label) →
      (arguments.map (·.label)).Nodup →
      ∀ (object : String → Option α) (values : List α), values.length = arguments.length →
        ∀ (i : Nat) (argument : Argument) (label : String),
          arguments[i]? = some argument → argument.label = some label →
          assign object (ParameterBag.callBag arguments values) (Identifier.safe label) = values[i]?) := by
  refine ⟨struct_declares name parents hplain, fun callee => ParameterBag.construction_text callee arguments,
    Expr.member_text, fun i argument hargument => ?_, ?_⟩
  · obtain ⟨field, hfield, hlabel⟩ := hlabels argument (List.mem_of_getElem? hargument)
    exact ⟨field, hfield, hlabel, ParameterBag.callKeys_eq_safe_iff hargument hlabel⟩
  · intro hkept hnodup object values hlength i argument label hargument hlabel
    exact assign_callBag hlength hkept hnodup object hargument hlabel

/-- A changeable field that begins as zero. -/
def zeroField (name : String) : VariableDecl := ⟨name, none, some (.literal (.int "0")), false, false, false⟩

/-- The fields `x`, `default` and `y`. -/
def threeFields : List Decl := ["x", "default", "y"].map fun name => .variable (zeroField name)

/-- The arguments of a call that names `y` before `x`. -/
def swappedArguments : List Argument := [⟨some "y", .literal (.int "2")⟩, ⟨some "x", .literal (.int "1")⟩]

theorem TypeDecl.memberwise_reaches_swapped_fields :
    threeFields.any Decl.isInitializer = false ∧
    (∀ argument ∈ swappedArguments,
      ∃ field, Decl.variable field ∈ threeFields ∧ argument.label = some field.name) ∧
    assign (fun _ => some 0) (ParameterBag.callBag swappedArguments [2, 1]) "x" = some 1 := by
  have hplain : threeFields.any Decl.isInitializer = false := rfl
  have hlabels : ∀ argument ∈ swappedArguments,
      ∃ field, Decl.variable field ∈ threeFields ∧ argument.label = some field.name := by
    simp [swappedArguments, threeFields, zeroField]
  have hkept : ∀ argument ∈ swappedArguments,
      ∃ label, argument.label = some label ∧ Identifier.IsKept label := by
    simp only [swappedArguments, List.forall_mem_cons, Option.some.injEq, exists_eq_left']
    exact ⟨by decide, by decide, fun _ h => absurd h List.not_mem_nil⟩
  have hreached := (memberwise_reaches_kept_fields "Point" [] hplain hlabels).2.2.2.2 hkept (by decide)
    (fun _ => some 0) ([2, 1] : List Nat) rfl 1 _ "x" rfl rfl
  exact ⟨hplain, hlabels, hreached⟩

/-- An argument for the field `default` does not reach it: the key in the call is `default`, and the field that the
class declares is `default_`. -/
theorem TypeDecl.memberwise_misses_reserved_field :
    (Stmt.block [.decl (.type .struct ⟨"Flags", [], [.variable (zeroField "default")]⟩),
        .expr (.call (.variable "Flags") [⟨some "default", .literal (.int "1")⟩] true)]).lower .native =
      .ok ("class Flags \x7b\n  constructor(__args: any = \x7b\x7d) \x7b\n    Object.assign(this, __args);\n" ++
        "  \x7d\n  default_ = 0;\n\x7d\nnew Flags(\x7b default: 1 \x7d);\n") ∧
    ¬ ∀ (members : List Decl) (arguments : List Argument), members.any Decl.isInitializer = false →
      (∀ argument ∈ arguments, ∃ field, Decl.variable field ∈ members ∧ argument.label = some field.name) →
      ∀ (i : Nat) (argument : Argument) (field : VariableDecl), arguments[i]? = some argument →
        Decl.variable field ∈ members → argument.label = some field.name →
        (ParameterBag.callKeys 0 arguments)[i]? = some (Identifier.safe field.name) := by
  refine ⟨by decide +kernel, fun h => ?_⟩
  have hmissed := h [.variable (zeroField "default")] [⟨some "default", .literal (.int "1")⟩] rfl
    (by simp [zeroField]) 0 _ (zeroField "default") rfl (List.mem_singleton_self _) rfl
  exact absurd hmissed (by decide)

end ScriptLowering
