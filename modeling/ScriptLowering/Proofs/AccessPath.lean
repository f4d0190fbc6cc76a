import ScriptLowering.Proofs.SafeNames
import ScriptLowering.Statement

/-!
# Constructions through a path

The type of a construction may be reached by accesses from a variable or from `self`.  In managed mode the variable is
read through its record, and in front of the bag the read at the end of the callee is taken off.  It is found by its
text, so that the access to a member of the same name is taken for it.

* `AccessPath` — a root and accesses to members, with `AccessPath.expr` and `AccessPath.text`;
* `AccessPath.EndsLikeRead` — the members whose access ends like the read of a record;
* `AccessPath.text_expr` — the text of a path names its root and all its members;
* `AccessPath.construction_keeps_members` — what stands after `new` in managed mode;
* `AccessPath.construction_loses_value` — a path that loses its last member there.
-/

namespace ScriptLowering

/-- A variable or `self`, and accesses to members one after another. -/
structure AccessPath where
  /-- The variable at the root; without one the root is `self`. -/
  root : Option String
  members : List String
deriving DecidableEq

namespace AccessPath

/-! ### The text of a path -/

/-- The root as an expression. -/
def rootExpr : Option String → Expr
  | some name => .variable name
  | none => .itself

/-- The path as an expression. -/
def expr (path : AccessPath) : Expr := path.members.foldl .member (rootExpr path.root)

/-- The text of the root. -/
def rootText (mode : Mode) : Option String → String
  | some name => mode.reference (Identifier.safe name)
  | none => "this"

/-- The text of accesses to members. -/
def accessText (members : List String) : String := String.join (members.map fun name => "." ++ Identifier.safe name)

/-- The text of the path: its root and then every member, each behind a dot. -/
def text (mode : Mode) (path : AccessPath) : String := rootText mode path.root ++ accessText path.members

/-- One more member at the end. -/
theorem text_concat (mode : Mode) (root : Option String) (members : List String) (last : String) :
    text mode ⟨root, members ++ [last]⟩ = text mode ⟨root, members⟩ ++ ("." ++ Identifier.safe last) := by
  simp [text, accessText, String.append_assoc]

/-- Accesses go behind the text of their object. -/
theorem text_foldl_member (mode : Mode) {members : List String} {object : Expr} {base : String}
    (hbase : object.text mode = .ok base) (hchain : object.isOptionalChain = false) :
    (members.foldl Expr.member object).text mode = .ok (base ++ accessText members) := by
  induction members generalizing object base with
  | nil =>
    rw [List.foldl_nil, hbase, accessText, List.map_nil, String.join_nil, String.append_empty]
  | cons name rest ih =>
    have hmember : (Expr.member object name).text mode = .ok (base ++ "." ++ Identifier.safe name) := by
      rw [Expr.text, hbase, hchain]
      rfl
    rw [List.foldl_cons, ih hmember rfl, accessText, accessText, List.map_cons, String.join_cons]
    simp only [String.append_assoc]

/-- **The text of a path** names its root and every member of it, in either mode. -/
theorem text_expr (mode : Mode) (path : AccessPath) : path.expr.text mode = .ok (path.text mode) := by
  obtain ⟨root, members⟩ := path
  cases root with
  | some name =>
    have hroot : (Expr.variable name).text mode = .ok (mode.reference (Identifier.safe name)) := rfl
    exact text_foldl_member mode hroot rfl
  | none =>
    have hroot : Expr.itself.text mode = .ok "this" := rfl
    exact text_foldl_member mode hroot rfl

/-! ### Reads at the end of a path -/

/-- Whether the access to a member ends like the read of a record.  Of the names without a dot this is `value` alone. -/
def EndsLikeRead (name : String) : Prop := name = "value" ∨ Mode.accessor.toList <:+ name.toList

instance (name : String) : Decidable (EndsLikeRead name) := inferInstanceAs (Decidable (_ ∨ _))

theorem endsLikeRead_iff {name : String} : EndsLikeRead name ↔ Mode.accessor.toList <:+ '.' :: name.toList := by
  have hvalue : name = "value" ↔ Mode.accessor.toList = '.' :: name.toList := by
    rw [← String.toList_inj, eq_comm]
    simp [Mode.accessor]
  rw [EndsLikeRead, hvalue, List.suffix_cons_iff]

theorem EndsLikeRead.getLast? {name : String} (h : EndsLikeRead name) : name.toList.getLast? = some 'e' := by
  rcases h with rfl | ⟨start, hname⟩
  · rfl
  · rw [← hname, List.getLast?_append]
    rfl

/-- No reserved word ends like a read. -/
theorem reserved_not_endsLikeRead : ∀ word ∈ Identifier.reserved, ¬ EndsLikeRead word := by
  decide +kernel

/-- A name that is not emitted as it is ends like a read neither before nor after. -/
theorem endsLikeRead_safe (name : String) : EndsLikeRead (Identifier.safe name) ↔ EndsLikeRead name := by
  rcases Identifier.safe_cases name with ⟨hreserved, hsafe⟩ | ⟨digits, hdigits, hsafe⟩ | ⟨-, -, hsafe⟩
  · refine iff_of_false (fun h => ?_) (reserved_not_endsLikeRead name (List.contains_iff_mem.mp hreserved))
    have hlast : (name.toList ++ ['_']).getLast? = some 'e' := by
      have hlast := h.getLast?
      rwa [hsafe, String.toList_append] at hlast
    rw [List.getLast?_concat] at hlast
    exact absurd hlast (by decide)
  · obtain ⟨hname, hne, hall⟩ := Identifier.anonymousDigits?_eq_some hdigits
    -- The last character would be a digit.
    have hdigit : digits.getLast? ≠ some 'e' := fun hlast =>
      absurd (List.all_eq_true.mp hall 'e' (List.mem_of_getLast? hlast)) (by decide)
    refine iff_of_false (fun h => hdigit ?_) (fun h => hdigit ?_)
    · have hlast := h.getLast?
      rw [hsafe, String.toList_append, String.toList_ofList, String.toList_ofList, List.getLast?_append,
        Option.or_eq_some_iff] at hlast
      exact hlast.resolve_right fun hempty => hne (List.getLast?_eq_none_iff.mp hempty.1)
    · have hlast := h.getLast?
      rwa [hname, List.getLast?_cons_of_ne_nil hne] at hlast
  · rw [hsafe]

/-- A read at the end of a text that ends in an access belongs to the access. -/
theorem accessor_suffix_iff {base name : List Char} :
    Mode.accessor.toList <:+ base ++ '.' :: name ↔ Mode.accessor.toList <:+ '.' :: name := by
  refine ⟨fun h => ?_, fun h => h.trans (List.suffix_append base _)⟩
  have haccess : '.' :: name <:+ base ++ '.' :: name := List.suffix_append base _
  by_cases hlength : Mode.accessor.toList.length ≤ ('.' :: name).length
  · exact List.suffix_of_suffix_length_le h haccess hlength
  · -- A shorter access would be an ending of the read, and there is no dot behind its first character.
    have hshort : '.' :: name <:+ Mode.accessor.toList :=
      List.suffix_of_suffix_length_le haccess h (Nat.le_of_not_le hlength)
    rcases List.suffix_cons_iff.mp hshort with heq | hsuffix
    · rw [heq] at hlength
      exact absurd (Nat.le_refl _) hlength
    · exact absurd (hsuffix.subset List.mem_cons_self) (by decide)

/-! ### What stands after `new` -/

/-- A read at the end of a callee is taken off. -/
theorem constructible_append_accessor {callee : String} (h : Mode.accessor.toList <:+ callee.toList) :
    Mode.managed.constructible callee ++ Mode.accessor = callee := by
  obtain ⟨start, hcallee⟩ := h
  have hdropped : Text.dropTrailing Mode.accessor.toList callee.toList = start := by
    rw [Text.dropTrailing, if_pos (List.isSuffixOf_iff_suffix.mpr ⟨start, hcallee⟩), ← hcallee, List.length_append,
      Nat.add_sub_cancel, List.take_left]
  rw [← String.toList_inj, String.toList_append, Mode.constructible, String.toList_ofList, hdropped, hcallee]

theorem constructible_reference (name : String) : Mode.managed.constructible (Mode.managed.reference name) = name := by
  have hreference : Mode.managed.reference name = name ++ Mode.accessor := rfl
  have hsuffix : Mode.accessor.toList <:+ (Mode.managed.reference name).toList :=
    ⟨name.toList, by rw [hreference, String.toList_append]⟩
  exact (String.append_left_inj _).mp ((constructible_append_accessor hsuffix).trans hreference)

/-- Just a callee without a read at its end stays as it is. -/
theorem constructible_eq_self_iff {callee : String} :
    Mode.managed.constructible callee = callee ↔ ¬ Mode.accessor.toList <:+ callee.toList := by
  constructor
  · intro hkept hsuffix
    have hlength := congrArg String.length (constructible_append_accessor hsuffix)
    rw [hkept, String.length_append] at hlength
    have haccessor : Mode.accessor.length = 6 := rfl
    omega
  · intro h
    rw [Mode.constructible, Text.dropTrailing, if_neg (mt List.isSuffixOf_iff_suffix.mp h), String.ofList_toList]

/-- A path ends in a read just when its last member ends like one. -/
theorem accessor_suffix_text (mode : Mode) (root : Option String) (members : List String) (last : String) :
    Mode.accessor.toList <:+ (text mode ⟨root, members ++ [last]⟩).toList ↔ EndsLikeRead last := by
  rw [text_concat, String.toList_append, String.toList_append]
  exact accessor_suffix_iff.trans (endsLikeRead_iff.symm.trans (endsLikeRead_safe last))

/-- The access to a member `value` at the end of a path is taken off. -/
theorem constructible_text_value (root : Option String) (members : List String) :
    Mode.managed.constructible (text .managed ⟨root, members ++ ["value"]⟩) = text .managed ⟨root, members⟩ := by
  have hwhole := constructible_append_accessor ((accessor_suffix_text .managed root members "value").mpr (.inl rfl))
  have haccess : "." ++ Identifier.safe "value" = Mode.accessor := by decide
  have hvalue := text_concat .managed root members "value"
  rw [haccess] at hvalue
  exact (String.append_left_inj _).mp (hwhole.trans hvalue)

/-- A construction is written with its callee as it can stand after `new`. -/
theorem construction_text (path : AccessPath) (arguments : List Argument) :
    (Expr.call path.expr arguments true).text .managed = (do
      let entries ← Expr.argumentTexts .managed 0 arguments
      return "new " ++ Mode.managed.constructible (path.text .managed) ++
        Expr.parenthesized (ParameterBag.argumentText entries)) := by
  rw [Expr.text, text_expr]
  rfl

/-- **Constructions in managed mode.**  After `new` stands the emitted name of a variable, `this` for `self`, and the
whole text of a path with accesses in it unless its last member ends like the read of a record.  Such an ending is
lost, and with it the whole last access when the member is `value`. -/
theorem construction_keeps_members (path : AccessPath) (arguments : List Argument) :
    let constructed := Mode.managed.constructible (path.text .managed)
    path.expr.text .managed = .ok (path.text .managed) ∧
    (Expr.call path.expr arguments true).text .managed = (do
      let entries ← Expr.argumentTexts .managed 0 arguments
      return "new " ++ constructed ++ Expr.parenthesized (ParameterBag.argumentText entries)) ∧
    (∀ name, path = ⟨some name, []⟩ → constructed = Identifier.safe name) ∧
    (path = ⟨none, []⟩ → constructed = "this") ∧
    ∀ members last, path.members = members ++ [last] →
      (constructed = path.text .managed ↔ ¬ EndsLikeRead last) ∧
      (EndsLikeRead last → constructed ++ ".value" = path.text .managed) ∧
      (last = "value" → constructed = text .managed ⟨path.root, members⟩) := by
  intro constructed
  refine ⟨text_expr .managed path, construction_text path arguments, ?_, ?_, ?_⟩
  · rintro name rfl
    show Mode.managed.constructible (Mode.managed.reference (Identifier.safe name) ++ "") = _
    rw [String.append_empty, constructible_reference]
  · rintro rfl
    rfl
  · intro members last hmembers
    obtain ⟨root, _⟩ := path
    obtain rfl : _ = members ++ [last] := hmembers
    have hsuffix := accessor_suffix_text .managed root members last
    refine ⟨constructible_eq_self_iff.trans (not_congr hsuffix),
      fun hread => constructible_append_accessor (hsuffix.mpr hread), ?_⟩
    rintro rfl
    exact constructible_text_value root members

/-- The access to a member `value` is lost: it reads like the read of the record. -/
theorem construction_loses_value :
    (Stmt.expr (.call (.member (.variable "a") "value") [] true)).lower .managed = .ok "new a.value();\n" ∧
    (Expr.member (.variable "a") "value").text .managed = .ok "a.value.value" ∧
    ¬ ∀ (path : AccessPath) (arguments : List Argument), path.members ≠ [] →
      (Expr.call path.expr arguments true).text .managed = (do
        let entries ← Expr.argumentTexts .managed 0 arguments
        return "new " ++ path.text .managed ++ Expr.parenthesized (ParameterBag.argumentText entries)) := by
  refine ⟨rfl, rfl, fun h => ?_⟩
  have hkept : (Except.ok "new a.value()" : Except Fault String) = .ok "new a.value.value()" :=
    h ⟨some "a", ["value"]⟩ [] (List.cons_ne_nil _ _)
  exact absurd (Except.ok.inj hkept) (by decide)

end AccessPath

end ScriptLowering
