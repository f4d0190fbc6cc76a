import Mathlib.Data.List.Nodup
import ScriptLowering.Proofs.Decoding
import ScriptLowering.Proofs.JsonText
import ScriptLowering.Tree.ToJson

/-!
# Trees survive being written and read

Writing and reading meet at the spellings of a tree: the written document is one of them, and the reader accepts
just them.

* `Json.PlainSpelling` — a document that spells a value and can be printed;
* `Expr.plainSpelling`, `Stmt.plainSpelling`, `Program.plainSpelling` — a tree is written as a spelling of itself;
* `RoundTrips` — what is written and printed is read as the same value, and no other value is written so;
* `trees_roundTrip` — every kind of tree, and the options, survive being written and read.
-/

namespace ScriptLowering

namespace Json

variable {α : Type}

/-! ### Plain spellings -/

/-- The document spells what is asked for, and reads back when it is printed. -/
def PlainSpelling (spelling : Json → Prop) (document : Json) : Prop := document.Plain ∧ spelling document

theorem plainSpelling_text (text : String) : PlainSpelling (IsText text) (.string text) := by
  simp [PlainSpelling, IsText, Plain]

theorem plainSpelling_bool (value : Bool) : PlainSpelling (IsBool value) (.bool value) := by
  simp [PlainSpelling, IsBool, Plain]

theorem plainSpelling_word32 (value : UInt32) : PlainSpelling (IsWord32 value) (.natural value.toNat) := by
  simp [PlainSpelling, IsWord32, Plain]

theorem plainSpelling_alone (name : String) : PlainSpelling (IsAlone name) (.string name) := by
  simp [PlainSpelling, IsAlone, Plain]

theorem plainSpelling_ofText (text : Option String) : PlainSpelling (IsNullable IsText text) (ofText text) := by
  cases text <;> simp [PlainSpelling, IsNullable, IsText, ofText, Plain]

/-- A value that may be missing is written as the value or as nothing. -/
theorem plainSpelling_ofOption {spelling : α → Json → Prop} {write : α → Json}
    (hwrite : ∀ value, PlainSpelling (spelling value) (write value)) (value : Option α) :
    PlainSpelling (IsNullable spelling value) (ofOption (value.map write)) := by
  cases value with
  | none => simp [PlainSpelling, IsNullable, ofOption, Plain]
  | some value => exact hwrite value

theorem plainSpelling_form {name : String} {content : Json → Prop} {document : Json}
    (h : PlainSpelling content document) : PlainSpelling (IsChoice name content) (form name document) := by
  simpa [PlainSpelling, form, isChoice_object, Plain, PlainMembers] using h

theorem plainSpelling_array {content : List Json → Prop} {items : List Json}
    (h : PlainItems items ∧ content items) : PlainSpelling (IsArray content) (.array items) := h

/-- The items of a list are written one by one. -/
theorem plainSpelling_list {spelling : α → Json → Prop} {write : α → Json}
    (hwrite : ∀ value, PlainSpelling (spelling value) (write value)) (values : List α) :
    PlainSpelling (IsList spelling values) (.array (values.map write)) := by
  apply plainSpelling_array
  induction values with
  | nil => simp [PlainItems]
  | cons value values ih => simp [PlainItems, (hwrite value).1, (hwrite value).2, ih]

/-- A record is written with a member for each field, in order. -/
theorem plainSpelling_record {fields : List Field} {members : List (String × Json)}
    (hnodup : (members.map Prod.fst).Nodup)
    (hfields : List.Forall₂ (fun field member => field.name = member.1 ∧ PlainSpelling field.spelling member.2)
      fields members) :
    PlainSpelling (IsRecord fields) (.object members) := by
  have hplain : PlainMembers members := by
    clear hnodup
    induction hfields with
    | nil => trivial
    | cons hfield _ ih => exact ⟨hfield.2.1, ih⟩
  have hgiven : ∀ field ∈ fields, ∃ value, (field.name, value) ∈ members ∧ field.spelling value := by
    clear hnodup hplain
    induction hfields with
    | nil => simp
    | @cons field member fields members hfield _ ih =>
      intro other hother
      rcases List.mem_cons.mp hother with rfl | hother
      · exact ⟨member.2, by simp [hfield.1], hfield.2.2⟩
      · obtain ⟨value, hmem, hspelling⟩ := ih other hother
        exact ⟨value, List.mem_cons_of_mem _ hmem, hspelling⟩
  refine ⟨hplain, fun field hfield => .inl ?_⟩
  obtain ⟨value, hmem, hspelling⟩ := hgiven field hfield
  have hname : field.name ∈ members.map Prod.fst := List.mem_map_of_mem hmem
  exact ⟨List.count_eq_one_of_mem hnodup hname, value, hmem, hspelling⟩

/-- The same for an alternative whose content is a record. -/
theorem plainSpelling_recordForm {name : String} {fields : List Field} {members : List (String × Json)}
    (hnodup : (members.map Prod.fst).Nodup)
    (hfields : List.Forall₂ (fun field member => field.name = member.1 ∧ PlainSpelling field.spelling member.2)
      fields members) :
    PlainSpelling (IsChoice name (IsRecord fields)) (recordForm name members) :=
  plainSpelling_form (plainSpelling_record hnodup hfields)

end Json

open Json (PlainSpelling PlainItems plainSpelling_text plainSpelling_bool plainSpelling_word32 plainSpelling_alone
  plainSpelling_ofText plainSpelling_ofOption plainSpelling_form plainSpelling_array plainSpelling_list
  plainSpelling_record plainSpelling_recordForm)

/-! ### Types and expressions -/

theorem SourceType.plainSpelling : ∀ type : SourceType, PlainSpelling type.Spelling type.toJson
  | .named name => plainSpelling_form (plainSpelling_text name)
  | .array element => plainSpelling_form element.plainSpelling
  | .dictionary key value => plainSpelling_recordForm (by simp) <|
    .cons ⟨rfl, key.plainSpelling⟩ <| .cons ⟨rfl, value.plainSpelling⟩ .nil
  | .optional wrapped => plainSpelling_form wrapped.plainSpelling

theorem Literal.plainSpelling : ∀ literal : Literal, PlainSpelling literal.Spelling literal.toJson
  | .generic text => plainSpelling_form (plainSpelling_ofText text)
  | .string value multiline => plainSpelling_recordForm (by simp) <|
    .cons ⟨rfl, plainSpelling_text value⟩ <| .cons ⟨rfl, plainSpelling_bool multiline⟩ .nil
  | .int text => plainSpelling_form (plainSpelling_text text)
  | .double text => plainSpelling_form (plainSpelling_text text)

theorem TryKind.plainSpelling (kind : TryKind) : PlainSpelling (Json.IsAlone kind.formName) kind.toJson := by
  cases kind <;> exact plainSpelling_alone _

mutual

/-- An expression is written as a spelling of itself. -/
theorem Expr.plainSpelling : ∀ expr : Expr, PlainSpelling expr.Spelling expr.toJson
  | .assign target operator value => plainSpelling_recordForm (by simp) <|
    .cons ⟨rfl, target.plainSpelling⟩ <| .cons ⟨rfl, plainSpelling_text operator⟩ <|
    .cons ⟨rfl, value.plainSpelling⟩ .nil
  | .ternary condition thenValue elseValue => plainSpelling_recordForm (by simp) <|
    .cons ⟨rfl, condition.plainSpelling⟩ <| .cons ⟨rfl, thenValue.plainSpelling⟩ <|
    .cons ⟨rfl, elseValue.plainSpelling⟩ .nil
  | .binary operator left right => plainSpelling_recordForm (by simp) <|
    .cons ⟨rfl, plainSpelling_text operator⟩ <| .cons ⟨rfl, left.plainSpelling⟩ <|
    .cons ⟨rfl, right.plainSpelling⟩ .nil
  | .logical operator left right => plainSpelling_recordForm (by simp) <|
    .cons ⟨rfl, plainSpelling_text operator⟩ <| .cons ⟨rfl, left.plainSpelling⟩ <|
    .cons ⟨rfl, right.plainSpelling⟩ .nil
  | .unary operator operand => plainSpelling_recordForm (by simp) <|
    .cons ⟨rfl, plainSpelling_text operator⟩ <| .cons ⟨rfl, operand.plainSpelling⟩ .nil
  | .call callee arguments construction => plainSpelling_recordForm (by simp) <|
    .cons ⟨rfl, callee.plainSpelling⟩ <|
    .cons ⟨rfl, plainSpelling_array (argumentsToJson_spelling arguments)⟩ <|
    .cons ⟨rfl, plainSpelling_bool construction⟩ .nil
  | .member object name => plainSpelling_recordForm (by simp) <|
    .cons ⟨rfl, object.plainSpelling⟩ <| .cons ⟨rfl, plainSpelling_text name⟩ .nil
  | .index object position => plainSpelling_recordForm (by simp) <|
    .cons ⟨rfl, object.plainSpelling⟩ <| .cons ⟨rfl, position.plainSpelling⟩ .nil
  | .optionalChain value forced => plainSpelling_recordForm (by simp) <|
    .cons ⟨rfl, value.plainSpelling⟩ <| .cons ⟨rfl, plainSpelling_bool forced⟩ .nil
  | .cast value target => plainSpelling_recordForm (by simp) <|
    .cons ⟨rfl, value.plainSpelling⟩ <| .cons ⟨rfl, target.plainSpelling⟩ .nil
  | .typeTest value target => plainSpelling_recordForm (by simp) <|
    .cons ⟨rfl, value.plainSpelling⟩ <| .cons ⟨rfl, target.plainSpelling⟩ .nil
  | .attempt value kind => plainSpelling_recordForm (by simp) <|
    .cons ⟨rfl, value.plainSpelling⟩ <| .cons ⟨rfl, kind.plainSpelling⟩ .nil
  | .literal value => plainSpelling_form value.plainSpelling
  | .itself => plainSpelling_alone _
  | .variable name => plainSpelling_form (plainSpelling_text name)
  | .grouping inner => plainSpelling_form inner.plainSpelling
  | .array items => plainSpelling_form (plainSpelling_array (listToJson_spelling items))
  | .dictionary entries => plainSpelling_form (plainSpelling_array (entriesToJson_spelling entries))
  | .range lower upper inclusive => plainSpelling_recordForm (by simp) <|
    .cons ⟨rfl, lower.plainSpelling⟩ <| .cons ⟨rfl, upper.plainSpelling⟩ <|
    .cons ⟨rfl, plainSpelling_bool inclusive⟩ .nil

theorem Expr.listToJson_spelling : ∀ items : List Expr,
    PlainItems (listToJson items) ∧ itemsSpelling items (listToJson items)
  | [] => ⟨trivial, trivial⟩
  | item :: rest =>
    have hfirst := item.plainSpelling
    have hrest := listToJson_spelling rest
    ⟨⟨hfirst.1, hrest.1⟩, hfirst.2, hrest.2⟩

theorem Expr.argumentsToJson_spelling : ∀ arguments : List Argument,
    PlainItems (argumentsToJson arguments) ∧ argumentsSpelling arguments (argumentsToJson arguments)
  | [] => ⟨trivial, trivial⟩
  | ⟨label, value⟩ :: rest =>
    have hfirst : PlainSpelling (Argument.mk label value).Spelling
        (.object [("label", Json.ofText label), ("value", value.toJson)]) :=
      plainSpelling_record (by simp) <|
        .cons ⟨rfl, plainSpelling_ofText label⟩ <| .cons ⟨rfl, value.plainSpelling⟩ .nil
    have hrest := argumentsToJson_spelling rest
    ⟨⟨hfirst.1, hrest.1⟩, hfirst.2, hrest.2⟩

theorem Expr.entriesToJson_spelling : ∀ entries : List DictionaryEntry,
    PlainItems (entriesToJson entries) ∧ entriesSpelling entries (entriesToJson entries)
  | [] => ⟨trivial, trivial⟩
  | ⟨key, value⟩ :: rest =>
    have hfirst : PlainSpelling (DictionaryEntry.mk key value).Spelling
        (.object [("key", key.toJson), ("value", value.toJson)]) :=
      plainSpelling_record (by simp) <| .cons ⟨rfl, key.plainSpelling⟩ <| .cons ⟨rfl, value.plainSpelling⟩ .nil
    have hrest := entriesToJson_spelling rest
    ⟨⟨hfirst.1, hrest.1⟩, hfirst.2, hrest.2⟩

end

/-! ### Statements and declarations -/

theorem VariableDecl.plainSpelling (decl : VariableDecl) : PlainSpelling decl.Spelling decl.toJson :=
  plainSpelling_record (by simp) <|
    .cons ⟨rfl, plainSpelling_text decl.name⟩ <|
    .cons ⟨rfl, plainSpelling_ofOption SourceType.plainSpelling decl.annotation⟩ <|
    .cons ⟨rfl, plainSpelling_ofOption Expr.plainSpelling decl.initializer⟩ <|
    .cons ⟨rfl, plainSpelling_bool decl.isConstant⟩ <| .cons ⟨rfl, plainSpelling_bool decl.isPrivate⟩ <|
    .cons ⟨rfl, plainSpelling_bool decl.isStatic⟩ .nil

theorem Parameter.plainSpelling (parameter : Parameter) : PlainSpelling parameter.Spelling parameter.toJson :=
  plainSpelling_record (by simp) <|
    .cons ⟨rfl, plainSpelling_text parameter.name⟩ <| .cons ⟨rfl, plainSpelling_ofText parameter.label⟩ <|
    .cons ⟨rfl, plainSpelling_ofOption Expr.plainSpelling parameter.fallback⟩ <|
    .cons ⟨rfl, plainSpelling_bool parameter.isVariadic⟩ <|
    .cons ⟨rfl, plainSpelling_ofOption SourceType.plainSpelling parameter.annotation⟩ .nil

theorem EnumDecl.plainSpelling (decl : EnumDecl) : PlainSpelling decl.Spelling decl.toJson :=
  plainSpelling_record (by simp) <|
    .cons ⟨rfl, plainSpelling_text decl.name⟩ <|
    .cons ⟨rfl, plainSpelling_list plainSpelling_text decl.cases⟩ .nil

theorem AliasDecl.plainSpelling (decl : AliasDecl) : PlainSpelling decl.Spelling decl.toJson :=
  plainSpelling_record (by simp) <|
    .cons ⟨rfl, plainSpelling_text decl.name⟩ <| .cons ⟨rfl, decl.target.plainSpelling⟩ .nil

mutual

/-- A declaration is written as a spelling of itself. -/
theorem Decl.plainSpelling : ∀ decl : Decl, PlainSpelling decl.Spelling decl.toJson
  | .variable decl => plainSpelling_form decl.plainSpelling
  | .type kind ⟨name, parents, members⟩ => plainSpelling_recordForm (by simp) <|
    .cons ⟨rfl, plainSpelling_text name⟩ <| .cons ⟨rfl, plainSpelling_list plainSpelling_text parents⟩ <|
    .cons ⟨rfl, plainSpelling_array (membersToJson_spelling members)⟩ .nil
  | .function ⟨name, parameters, returnType, body, isStatic⟩ => plainSpelling_recordForm (by simp) <|
    .cons ⟨rfl, plainSpelling_text name⟩ <|
    .cons ⟨rfl, plainSpelling_list Parameter.plainSpelling parameters⟩ <|
    .cons ⟨rfl, plainSpelling_ofOption SourceType.plainSpelling returnType⟩ <|
    .cons ⟨rfl, plainSpelling_array (blockToJson_spelling body)⟩ <|
    .cons ⟨rfl, plainSpelling_bool isStatic⟩ .nil
  | .enumeration decl => plainSpelling_form decl.plainSpelling
  | .typeAlias decl => plainSpelling_form decl.plainSpelling

theorem membersToJson_spelling : ∀ members : List Decl,
    PlainItems (membersToJson members) ∧ membersSpelling members (membersToJson members)
  | [] => ⟨trivial, trivial⟩
  | member :: rest =>
    have hfirst := member.plainSpelling
    have hrest := membersToJson_spelling rest
    ⟨⟨hfirst.1, hrest.1⟩, hfirst.2, hrest.2⟩

/-- A statement is written as a spelling of itself. -/
theorem Stmt.plainSpelling : ∀ statement : Stmt, PlainSpelling statement.Spelling statement.toJson
  | .decl declared => plainSpelling_form declared.plainSpelling
  | .expr value => plainSpelling_form value.plainSpelling
  | .block body => plainSpelling_form (plainSpelling_array (blockToJson_spelling body))
  | .ifThen condition thenBranch elseBranch => plainSpelling_recordForm (by simp) <|
    .cons ⟨rfl, condition.plainSpelling⟩ <|
    .cons ⟨rfl, plainSpelling_array (blockToJson_spelling thenBranch)⟩ <|
    .cons ⟨rfl, elseToJson_spelling elseBranch⟩ .nil
  | .ifLet name value thenBranch elseBranch => plainSpelling_recordForm (by simp) <|
    .cons ⟨rfl, plainSpelling_text name⟩ <| .cons ⟨rfl, value.plainSpelling⟩ <|
    .cons ⟨rfl, plainSpelling_array (blockToJson_spelling thenBranch)⟩ <|
    .cons ⟨rfl, elseToJson_spelling elseBranch⟩ .nil
  | .guard condition body => plainSpelling_recordForm (by simp) <|
    .cons ⟨rfl, condition.plainSpelling⟩ <| .cons ⟨rfl, plainSpelling_array (blockToJson_spelling body)⟩ .nil
  | .guardLet name value body => plainSpelling_recordForm (by simp) <|
    .cons ⟨rfl, plainSpelling_text name⟩ <| .cons ⟨rfl, value.plainSpelling⟩ <|
    .cons ⟨rfl, plainSpelling_array (blockToJson_spelling body)⟩ .nil
  | .switch subject cases fallback => plainSpelling_recordForm (by simp) <|
    .cons ⟨rfl, subject.plainSpelling⟩ <| .cons ⟨rfl, plainSpelling_array (casesToJson_spelling cases)⟩ <|
    .cons ⟨rfl, fallbackToJson_spelling fallback⟩ .nil
  | .forIn counter sequence body => plainSpelling_recordForm (by simp) <|
    .cons ⟨rfl, plainSpelling_text counter⟩ <| .cons ⟨rfl, sequence.plainSpelling⟩ <|
    .cons ⟨rfl, plainSpelling_array (blockToJson_spelling body)⟩ .nil
  | .whileLoop condition body => plainSpelling_recordForm (by simp) <|
    .cons ⟨rfl, condition.plainSpelling⟩ <| .cons ⟨rfl, plainSpelling_array (blockToJson_spelling body)⟩ .nil
  | .repeatWhile body condition => plainSpelling_recordForm (by simp) <|
    .cons ⟨rfl, plainSpelling_array (blockToJson_spelling body)⟩ <| .cons ⟨rfl, condition.plainSpelling⟩ .nil
  | .returns value => plainSpelling_form (plainSpelling_ofOption Expr.plainSpelling value)
  | .breaks => plainSpelling_alone _
  | .continues => plainSpelling_alone _
  | .blank => plainSpelling_alone _
  | .doCatch body binding handler => plainSpelling_recordForm (by simp) <|
    .cons ⟨rfl, plainSpelling_array (blockToJson_spelling body)⟩ <|
    .cons ⟨rfl, plainSpelling_ofText binding⟩ <|
    .cons ⟨rfl, plainSpelling_array (blockToJson_spelling handler)⟩ .nil
  | .throws value => plainSpelling_form value.plainSpelling

theorem blockToJson_spelling : ∀ body : List Stmt,
    PlainItems (blockToJson body) ∧ blockSpelling body (blockToJson body)
  | [] => ⟨trivial, trivial⟩
  | statement :: rest =>
    have hfirst := statement.plainSpelling
    have hrest := blockToJson_spelling rest
    ⟨⟨hfirst.1, hrest.1⟩, hfirst.2, hrest.2⟩

theorem elseToJson_spelling : ∀ elseBranch : Option Stmt,
    PlainSpelling (elseSpelling elseBranch) (elseToJson elseBranch)
  | none => ⟨trivial, rfl⟩
  | some statement => statement.plainSpelling

theorem fallbackToJson_spelling : ∀ fallback : Option (List Stmt),
    PlainSpelling (fallbackSpelling fallback) (fallbackToJson fallback)
  | none => ⟨trivial, rfl⟩
  | some body => plainSpelling_array (blockToJson_spelling body)

theorem casesToJson_spelling : ∀ cases : List SwitchCase,
    PlainItems (casesToJson cases) ∧ casesSpelling cases (casesToJson cases)
  | [] => ⟨trivial, trivial⟩
  | ⟨patterns, body⟩ :: rest =>
    have hfirst : PlainSpelling (SwitchCase.mk patterns body).Spelling
        (.object [("patterns", .array (patterns.map (·.toJson))), ("body", .array (blockToJson body))]) :=
      plainSpelling_record (by simp) <|
        .cons ⟨rfl, plainSpelling_list Expr.plainSpelling patterns⟩ <|
        .cons ⟨rfl, plainSpelling_array (blockToJson_spelling body)⟩ .nil
    have hrest := casesToJson_spelling rest
    ⟨⟨hfirst.1, hrest.1⟩, hfirst.2, hrest.2⟩

end

/-! ### Programs and options -/

theorem Span.plainSpelling (span : Span) : PlainSpelling span.Spelling span.toJson :=
  plainSpelling_record (by simp) <|
    .cons ⟨rfl, plainSpelling_word32 span.line⟩ <| .cons ⟨rfl, plainSpelling_word32 span.column⟩ .nil

theorem Item.plainSpelling (item : Item) : PlainSpelling item.Spelling item.toJson :=
  plainSpelling_record (by simp) <|
    .cons ⟨rfl, item.node.plainSpelling⟩ <|
    .cons ⟨rfl, plainSpelling_ofOption Span.plainSpelling item.span⟩ .nil

theorem Program.plainSpelling (program : Program) : PlainSpelling program.Spelling program.toJson :=
  plainSpelling_record (by simp) <|
    .cons ⟨rfl, plainSpelling_list Item.plainSpelling program.items⟩ .nil

theorem Options.plainSpelling (options : Options) : PlainSpelling options.Spelling options.toJson :=
  plainSpelling_record (by simp) <|
    .cons ⟨rfl, plainSpelling_alone options.mode.name⟩ <|
    .cons ⟨rfl, plainSpelling_alone options.policy.name⟩ .nil

/-! ### Round trips -/

/-- What is written is read as the same value: from the document itself, and from the printed document when it
does not nest below the limit of the reader.  No two values are printed alike. -/
structure RoundTrips {α : Type} (write : α → Json) (read : Json → Option α) : Prop where
  document : ∀ value, read (write value) = some value
  text : ∀ value, (write value).depth ≤ Json.depthLimit →
    (Json.ofText? ((write value).pretty 0)).bind read = some value
  distinct : ∀ value other, (write value).pretty 0 = (write other).pretty 0 → value = other

/-- A writer of plain spellings and a reader of spellings fit together. -/
theorem RoundTrips.of_spelling {α : Type} {write : α → Json} {read : Json → Option α} {spelling : α → Json → Prop}
    (hwrite : ∀ value, PlainSpelling (spelling value) (write value)) (hread : ∀ n, Json.Reads n read spelling) :
    RoundTrips write read := by
  have hdocument : ∀ value, read (write value) = some value := fun value =>
    (hread _ (write value) (Nat.lt_succ_self _) value).mp (hwrite value).2
  have hparse : ∀ value, Json.parse? ((write value).pretty 0) = some (write value) := fun value =>
    Json.parse?_pretty (write value) 0 (hwrite value).1
  refine ⟨hdocument, ?_, ?_⟩
  · intro value hdepth
    simp [Json.ofText?, hparse, Json.limitDepth_eq_self _ _ hdepth, hdocument]
  · intro value other htext
    have hsame : write value = write other := by
      have h := hparse value
      rw [htext, hparse other] at h
      exact (Option.some.inj h).symm
    have h := hdocument value
    rw [hsame, hdocument other] at h
    exact (Option.some.inj h).symm

/-- Every kind of tree, and the options, survive being written and read. -/
theorem trees_roundTrip :
    RoundTrips Program.toJson Program.ofJson? ∧ RoundTrips Item.toJson Item.ofJson? ∧
      RoundTrips Stmt.toJson Stmt.ofJson? ∧ RoundTrips Decl.toJson Decl.ofJson? ∧
      RoundTrips Expr.toJson Expr.ofJson? ∧ RoundTrips Parameter.toJson Parameter.ofJson? ∧
      RoundTrips SourceType.toJson SourceType.ofJson? ∧ RoundTrips Options.toJson Options.ofJson? := by
  refine ⟨?_, ?_, ?_, ?_, ?_, ?_, ?_, ?_⟩
  · exact .of_spelling Program.plainSpelling fun _ => Program.reads
  · exact .of_spelling Item.plainSpelling fun _ => Item.reads
  · exact .of_spelling Stmt.plainSpelling fun _ => Stmt.reads
  · exact .of_spelling Decl.plainSpelling fun _ => Decl.reads
  · exact .of_spelling Expr.plainSpelling fun _ => Expr.reads
  · exact .of_spelling Parameter.plainSpelling fun _ => Parameter.reads
  · exact .of_spelling SourceType.plainSpelling fun _ => SourceType.reads
  · exact .of_spelling Options.plainSpelling fun _ => Options.reads

/-- A program with forms that hold nothing, a text that needs escapes and the largest line there is. -/
theorem program_reads_back_from_text :
    let program : Program :=
      ⟨[⟨.returns none, some ⟨4294967295, 0⟩⟩, ⟨.expr (.call .itself [⟨none, .literal (.generic none)⟩] false), none⟩,
        ⟨.expr (.literal (.string "\"\n\x01é" true)), none⟩]⟩
    program.toJson.depth ≤ Json.depthLimit ∧ Program.ofText? (program.toJson.pretty 0) = some program := by
  intro program
  have hdepth : program.toJson.depth ≤ Json.depthLimit := by decide
  exact ⟨hdepth, trees_roundTrip.1.text program hdepth⟩

end ScriptLowering
