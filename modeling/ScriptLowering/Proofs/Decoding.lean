import ScriptLowering.Options.Document
import ScriptLowering.Proofs.Document
import ScriptLowering.Tree.FromJson

/-!
# Readers accept exactly the spellings

The readers are compared with the spellings form by form.  A reader looks at the name of the form first, and a
spelling fixes that name, so a value and a document have to be compared only where the document names the form of
the value.  What remains is the content, which most often is a record and is read slot by slot.

* `Json.Names` — a document names a form;
* `Json.Reads.of_forms` — a reader is right when it is right on the documents that name a form;
* `SourceType.reads`, `Expr.reads`, `Decl.reads`, `Stmt.reads`, `Program.reads`, `Options.reads` — every reader
  accepts exactly the spellings of each value;
* `ofJson?_iff_spelling` — the same for documents within the limit of depth, and for texts.

Readers of trees recurse to the depth of the document, so each statement is about documents below a depth and goes
by induction on that depth.
-/

namespace ScriptLowering

open Json (Reads IsRecord IsChoice IsAlone IsText IsBool IsWord32 IsArray IsList IsNullable Slot text? bool? word32?
  list? reads_text reads_bool reads_word32 isChoice_object isRecord_two isRecord_three isRecord_iff_bind)

variable {n : Nat} {α β : Type}

/-! ### Forms -/

/-- A result, when there is one, has the property. -/
def Only (P : β → Prop) (result : Option β) : Prop := ∀ value, result = some value → P value

namespace Only

variable {P : β → Prop}

theorem none : Only P (none : Option β) := fun _ h => nomatch h

theorem pure {value : β} (h : P value) : Only P (Pure.pure value) := by
  intro other hother
  exact Option.some.inj hother ▸ h

theorem bind {first : Option α} {next : α → Option β} (h : ∀ value, Only P (next value)) :
    Only P (first >>= next) := by
  intro result hresult
  obtain ⟨value, -, hnext⟩ := Option.bind_eq_some_iff.mp hresult
  exact h value result hnext

end Only

/-- Whether a document names the given form. -/
def Json.Names (document : Json) (form : String) : Prop := ∃ content, document.choice? = some (form, content)

/-- To compare a reader with the spellings it is enough to look at documents that name the form of the value: the
name alone, and an object with the name as its only key. -/
theorem Json.Reads.of_forms {read : Json → Option α} {spelling : α → Json → Prop} (form : α → String)
    (hread : ∀ document : Json, Only (fun value => document.Names (form value)) (read document))
    (hspelling : ∀ (document : Json) value, spelling value document → document.Names (form value))
    (halone : ∀ value, spelling value (.string (form value)) ↔ read (.string (form value)) = some value)
    (hcontent : ∀ value content, content.depth < n →
      (spelling value (.object [(form value, content)]) ↔ read (.object [(form value, content)]) = some value)) :
    Reads (n + 1) read spelling := by
  intro document hdepth value
  by_cases hform : document.Names (form value)
  · obtain ⟨_ | content, hchoice⟩ := hform
    · obtain rfl := Json.choice?_eq_string hchoice
      exact halone value
    · obtain rfl := Json.choice?_eq_object hchoice
      have := Json.depth_content_lt (form value) content
      exact hcontent value content (by omega)
  · exact iff_of_false (hform ∘ hspelling document value) (hform ∘ hread document value)

/-- A form whose content is read by a reader of its own. -/
theorem Json.Reads.content {read : Json → Option α} {spelling : α → Json → Prop} (h : Reads n read spelling)
    {f : α → β} (hf : Function.Injective f) {name : String} {content : Json} (hdepth : content.depth < n) (value : α) :
    IsChoice name (spelling value) (.object [(name, content)]) ↔
      (do return f (← read content)) = some (f value) := by
  rw [isChoice_object, h content hdepth value]
  simp [Option.bind_eq_some_iff, hf.eq_iff]

/-- Spellings of some values one by one, which are given by recursion because the values hold further values, are
those of the list. -/
theorem Json.isArray_eq_isList {each : List α → List Json → Prop} {spelling : α → Json → Prop} (hnil : each [] [])
    (hlong : ∀ document rest, ¬ each [] (document :: rest)) (hshort : ∀ value rest, ¬ each (value :: rest) [])
    (hcons : ∀ value values document documents,
      each (value :: values) (document :: documents) ↔ spelling value document ∧ each values documents)
    (values : List α) : IsArray (each values) = IsList spelling values := by
  refine congrArg IsArray (funext fun documents => propext ?_)
  induction values generalizing documents with
  | nil =>
    cases documents with
    | nil => simp [hnil]
    | cons document rest => simp [hlong]
  | cons value values ih =>
    cases documents with
    | nil => simp [hshort]
    | cons document documents => rw [hcons, ih, List.forall₂_cons]

/-! ### Types -/

/-- The name under which a type is spelled. -/
def SourceType.formName : SourceType → String
  | .named _ => "named"
  | .array _ => "array"
  | .dictionary .. => "dictionary"
  | .optional _ => "optional"

/-- Every branch of the reader gives the form whose name was read. -/
theorem SourceType.names_of_read (document : Json) :
    Only (fun type => document.Names type.formName) (SourceType.read? (n + 1) document) := by
  rw [SourceType.read?]
  cases hchoice : document.choice? with
  | none => exact .none
  | some choice =>
    obtain ⟨form, _ | content⟩ := choice
    · exact .none
    · dsimp only [bind, Option.bind_some]
      split
      all_goals repeat first | exact .pure ⟨_, hchoice⟩ | exact .none | refine .bind fun _ => ?_ | split

theorem SourceType.reads_read? : Reads n (SourceType.read? n) SourceType.Spelling := by
  induction n with
  | zero => exact fun _ hdepth => absurd hdepth (Nat.not_lt_zero _)
  | succ n ih =>
    refine .of_forms SourceType.formName SourceType.names_of_read ?_ ?_ ?_
    · intro document type h
      cases type <;> exact IsChoice.choice? h
    · intro type
      cases type <;> exact iff_of_false id nofun
    · intro type content hdepth
      cases type with
      | named name => exact reads_text.content (fun _ _ => SourceType.named.inj) hdepth name
      | array element => exact ih.content (fun _ _ => SourceType.array.inj) hdepth element
      | dictionary key value =>
        refine isChoice_object.trans (isRecord_two (Nat.le_of_lt hdepth) fun a b ha hb => ?_)
        rw [ha.required ih, hb.required ih]
        simp [Option.bind_eq_some_iff]
      | optional wrapped => exact ih.content (fun _ _ => SourceType.optional.inj) hdepth wrapped

theorem SourceType.reads : Reads n SourceType.ofJson? SourceType.Spelling :=
  fun document _ => SourceType.reads_read? document (Nat.lt_succ_self _)

/-! ### Expressions -/

/-- The name under which a literal is spelled. -/
def Literal.formName : Literal → String
  | .generic _ => "generic"
  | .string .. => "string"
  | .int _ => "int"
  | .double _ => "double"

theorem Literal.names_of_read (document : Json) :
    Only (fun literal => document.Names literal.formName) (Literal.ofJson? document) := by
  rw [Literal.ofJson?]
  cases hchoice : document.choice? with
  | none => exact .none
  | some choice =>
    obtain ⟨form, _ | content⟩ := choice
    · exact .none
    · dsimp only [bind, Option.bind_some]
      split
      all_goals repeat first | exact .pure ⟨_, hchoice⟩ | exact .none | refine .bind fun _ => ?_ | split

theorem Literal.reads : Reads n Literal.ofJson? Literal.Spelling := by
  have hreads : ∀ m, Reads (m + 1) Literal.ofJson? Literal.Spelling := by
    intro m
    refine .of_forms Literal.formName Literal.names_of_read ?_ ?_ ?_
    · intro document literal h
      cases literal <;> exact IsChoice.choice? h
    · intro literal
      cases literal <;> exact iff_of_false id nofun
    · intro literal content hdepth
      cases literal with
      | generic text => exact (reads_text.nullable rfl).content (fun _ _ => Literal.generic.inj) hdepth text
      | string value multiline =>
        refine isChoice_object.trans (isRecord_two (Nat.le_of_lt hdepth) fun a b ha hb => ?_)
        rw [ha.required reads_text, hb.defaulted reads_bool]
        simp [Option.bind_eq_some_iff]
      | int text => exact reads_text.content (fun _ _ => Literal.int.inj) hdepth text
      | double text => exact reads_text.content (fun _ _ => Literal.double.inj) hdepth text
  exact fun document _ => hreads document.depth document (Nat.lt_succ_self _)

/-- Reading an alternative without content by its name. -/
theorem Json.isAlone_iff_find (name : α → String) (find? : String → Option α)
    (hfind : ∀ form value, find? form = some value ↔ form = name value) {document : Json} {value : α} :
    IsAlone (name value) document ↔
      (do
        let (form, content) ← document.choice?
        if Json.isBare content then find? form else none) = some value := by
  rw [Json.isAlone_iff]
  cases document.choice? with
  | none => simp
  | some choice =>
    obtain ⟨form, content⟩ := choice
    cases hbare : Json.isBare content <;> simp [hbare, hfind]

/-- The kind of `try` of the given name. -/
def TryKind.ofForm? : String → Option TryKind
  | "plain" => some .plain
  | "optional" => some .optional
  | "forced" => some .forced
  | _ => none

theorem TryKind.ofForm?_eq_some_iff (form : String) (kind : TryKind) :
    ofForm? form = some kind ↔ form = kind.formName := by
  constructor
  · intro h
    unfold ofForm? at h
    split at h <;> first | exact Option.some.inj h ▸ rfl | exact nomatch h
  · rintro rfl
    cases kind <;> rfl

theorem TryKind.reads : Reads n TryKind.ofJson? (fun kind => IsAlone kind.formName) :=
  fun _ _ _ => Json.isAlone_iff_find TryKind.formName TryKind.ofForm? TryKind.ofForm?_eq_some_iff

/-- The name under which an expression is spelled. -/
def Expr.formName : Expr → String
  | .assign .. => "assign"
  | .ternary .. => "ternary"
  | .binary .. => "binary"
  | .logical .. => "logical"
  | .unary .. => "unary"
  | .call .. => "call"
  | .member .. => "member"
  | .index .. => "index"
  | .optionalChain .. => "optional_chain"
  | .cast .. => "cast"
  | .typeTest .. => "type_test"
  | .attempt .. => "try"
  | .literal _ => "literal"
  | .itself => "self"
  | .variable _ => "variable"
  | .grouping _ => "grouping"
  | .array _ => "array"
  | .dictionary _ => "dictionary"
  | .range .. => "range"

theorem Expr.names_of_read (document : Json) :
    Only (fun expr => document.Names expr.formName) (Expr.read? (n + 1) document) := by
  rw [Expr.read?]
  cases hchoice : document.choice? with
  | none => exact .none
  | some choice =>
    obtain ⟨form, content⟩ := choice
    dsimp only [bind, Option.bind_some]
    split
    · next hself =>
      subst hself
      split
      · exact .pure ⟨_, hchoice⟩
      · exact .none
    · cases content with
      | none => exact .none
      | some content =>
        dsimp only
        split
        all_goals repeat first | exact .pure ⟨_, hchoice⟩ | exact .none | refine .bind fun _ => ?_ | split

theorem isArray_itemsSpelling (items : List Expr) :
    IsArray (itemsSpelling items) = IsList Expr.Spelling items :=
  Json.isArray_eq_isList trivial (fun _ _ => id) (fun _ _ => id) (fun _ _ _ _ => .rfl) items

theorem isArray_argumentsSpelling (arguments : List Argument) :
    IsArray (argumentsSpelling arguments) = IsList Argument.Spelling arguments :=
  Json.isArray_eq_isList trivial (fun _ _ => id) (fun _ _ => id) (fun _ _ _ _ => .rfl) arguments

theorem isArray_entriesSpelling (entries : List DictionaryEntry) :
    IsArray (entriesSpelling entries) = IsList DictionaryEntry.Spelling entries :=
  Json.isArray_eq_isList trivial (fun _ _ => id) (fun _ _ => id) (fun _ _ _ _ => .rfl) entries

section

variable {value? : Json → Option Expr} (h : Reads n value? Expr.Spelling)

include h

theorem Argument.reads : Reads n (Argument.read? value?) Argument.Spelling := by
  rintro document hdepth ⟨label, value⟩
  refine isRecord_two (Nat.le_of_lt hdepth) fun a b ha hb => ?_
  rw [ha.optional reads_text rfl, hb.required h]
  simp [Option.bind_eq_some_iff]

theorem DictionaryEntry.reads : Reads n (DictionaryEntry.read? value?) DictionaryEntry.Spelling := by
  rintro document hdepth ⟨key, value⟩
  refine isRecord_two (Nat.le_of_lt hdepth) fun a b ha hb => ?_
  rw [ha.required h, hb.required h]
  simp [Option.bind_eq_some_iff]

end

theorem Expr.reads_read? : Reads n (Expr.read? n) Expr.Spelling := by
  induction n with
  | zero => exact fun _ hdepth => absurd hdepth (Nat.not_lt_zero _)
  | succ n ih =>
    -- Only `self` has no content, so it is the one form that a name alone can spell.
    refine .of_forms Expr.formName Expr.names_of_read ?_ ?_ ?_
    · intro document expr h
      cases expr with
      | itself =>
        obtain ⟨content, hchoice, -⟩ := Json.isAlone_iff.mp h
        exact ⟨content, hchoice⟩
      | _ => exact IsChoice.choice? h
    · intro expr
      cases expr with
      | itself => exact iff_of_true (.inl rfl) rfl
      | _ => exact iff_of_false id nofun
    · intro expr content hdepth
      have hle := Nat.le_of_lt hdepth
      cases expr with
      | assign target operator value =>
        refine isChoice_object.trans (isRecord_three hle fun a b c ha hb hc => ?_)
        rw [ha.required ih, hb.required reads_text, hc.required ih]
        simp [Option.bind_eq_some_iff]
      | ternary condition thenValue elseValue =>
        refine isChoice_object.trans (isRecord_three hle fun a b c ha hb hc => ?_)
        rw [ha.required ih, hb.required ih, hc.required ih]
        simp [Option.bind_eq_some_iff]
      | binary operator left right =>
        refine isChoice_object.trans (isRecord_three hle fun a b c ha hb hc => ?_)
        rw [ha.required reads_text, hb.required ih, hc.required ih]
        simp [Option.bind_eq_some_iff]
      | logical operator left right =>
        refine isChoice_object.trans (isRecord_three hle fun a b c ha hb hc => ?_)
        rw [ha.required reads_text, hb.required ih, hc.required ih]
        simp [Option.bind_eq_some_iff]
      | unary operator operand =>
        refine isChoice_object.trans (isRecord_two hle fun a b ha hb => ?_)
        rw [ha.required reads_text, hb.required ih]
        simp [Option.bind_eq_some_iff]
      | call callee arguments construction =>
        refine isChoice_object.trans (isRecord_three hle fun a b c ha hb hc => ?_)
        rw [ha.required ih, isArray_argumentsSpelling, hb.defaulted (Argument.reads ih).list,
          hc.defaulted reads_bool]
        simp [Option.bind_eq_some_iff, -Bool.exists_bool]
      | member base name =>
        refine isChoice_object.trans (isRecord_two hle fun a b ha hb => ?_)
        rw [ha.required ih, hb.required reads_text]
        simp [Option.bind_eq_some_iff]
      | index base position =>
        refine isChoice_object.trans (isRecord_two hle fun a b ha hb => ?_)
        rw [ha.required ih, hb.required ih]
        simp [Option.bind_eq_some_iff]
      | optionalChain value forced =>
        refine isChoice_object.trans (isRecord_two hle fun a b ha hb => ?_)
        rw [ha.required ih, hb.defaulted reads_bool]
        simp [Option.bind_eq_some_iff]
      | cast value target =>
        refine isChoice_object.trans (isRecord_two hle fun a b ha hb => ?_)
        rw [ha.required ih, hb.required SourceType.reads]
        simp [Option.bind_eq_some_iff]
      | typeTest value target =>
        refine isChoice_object.trans (isRecord_two hle fun a b ha hb => ?_)
        rw [ha.required ih, hb.required SourceType.reads]
        simp [Option.bind_eq_some_iff]
      | attempt value kind =>
        refine isChoice_object.trans (isRecord_two hle fun a b ha hb => ?_)
        rw [ha.required ih, hb.defaulted TryKind.reads]
        simp [Option.bind_eq_some_iff]
      | literal value => exact Literal.reads.content (fun _ _ => Expr.literal.inj) hdepth value
      | itself => exact Json.isAlone_object.trans (by simp [Expr.read?, Json.choice?, Expr.formName])
      | «variable» name => exact reads_text.content (fun _ _ => Expr.variable.inj) hdepth name
      | grouping inner => exact ih.content (fun _ _ => Expr.grouping.inj) hdepth inner
      | array items =>
        rw [Expr.Spelling, isArray_itemsSpelling]
        exact ih.list.content (fun _ _ => Expr.array.inj) hdepth items
      | dictionary entries =>
        rw [Expr.Spelling, isArray_entriesSpelling]
        exact (DictionaryEntry.reads ih).list.content (fun _ _ => Expr.dictionary.inj) hdepth entries
      | range lower upper inclusive =>
        refine isChoice_object.trans (isRecord_three hle fun a b c ha hb hc => ?_)
        rw [ha.required ih, hb.required ih, hc.required reads_bool]
        simp [Option.bind_eq_some_iff, -Bool.exists_bool]

theorem Expr.reads : Reads n Expr.ofJson? Expr.Spelling :=
  fun document _ => Expr.reads_read? document (Nat.lt_succ_self _)

/-! ### Declarations without statements inside -/

theorem VariableDecl.reads : Reads n VariableDecl.ofJson? VariableDecl.Spelling := by
  rintro document hdepth ⟨name, annotation, initializer, isConstant, isPrivate, isStatic⟩
  refine isRecord_iff_bind (Nat.le_of_lt hdepth) fun slots hlength hslots => ?_
  match slots, hlength with
  | [a, b, c, d, e, f], _ =>
    simp only [List.forall_mem_cons] at hslots
    obtain ⟨ha, hb, hc, hd, he, hf, -⟩ := hslots
    simp only [List.forall₂_cons, List.Forall₂.nil, and_true]
    rw [ha.required reads_text, hb.optional SourceType.reads rfl, hc.optional Expr.reads rfl,
      hd.defaulted reads_bool, he.defaulted reads_bool, hf.defaulted reads_bool]
    simp [Option.bind_eq_some_iff, -Bool.exists_bool]

theorem Parameter.reads : Reads n Parameter.ofJson? Parameter.Spelling := by
  rintro document hdepth ⟨name, label, fallback, isVariadic, annotation⟩
  refine isRecord_iff_bind (Nat.le_of_lt hdepth) fun slots hlength hslots => ?_
  match slots, hlength with
  | [a, b, c, d, e], _ =>
    simp only [List.forall_mem_cons] at hslots
    obtain ⟨ha, hb, hc, hd, he, -⟩ := hslots
    simp only [List.forall₂_cons, List.Forall₂.nil, and_true]
    rw [ha.required reads_text, hb.optional reads_text rfl, hc.optional Expr.reads rfl,
      hd.defaulted reads_bool, he.optional SourceType.reads rfl]
    simp [Option.bind_eq_some_iff, -Bool.exists_bool]

theorem EnumDecl.reads : Reads n EnumDecl.ofJson? EnumDecl.Spelling := by
  rintro document hdepth ⟨name, cases⟩
  refine isRecord_two (Nat.le_of_lt hdepth) fun a b ha hb => ?_
  rw [ha.required reads_text, hb.defaulted reads_text.list]
  simp [Option.bind_eq_some_iff]

theorem AliasDecl.reads : Reads n AliasDecl.ofJson? AliasDecl.Spelling := by
  rintro document hdepth ⟨name, target⟩
  refine isRecord_two (Nat.le_of_lt hdepth) fun a b ha hb => ?_
  rw [ha.required reads_text, hb.required SourceType.reads]
  simp [Option.bind_eq_some_iff]

/-! ### Statements and declarations -/

theorem isArray_membersSpelling (members : List Decl) :
    IsArray (membersSpelling members) = IsList Decl.Spelling members :=
  Json.isArray_eq_isList trivial (fun _ _ => id) (fun _ _ => id) (fun _ _ _ _ => .rfl) members

theorem isArray_blockSpelling (body : List Stmt) :
    IsArray (blockSpelling body) = IsList Stmt.Spelling body :=
  Json.isArray_eq_isList trivial (fun _ _ => id) (fun _ _ => id) (fun _ _ _ _ => .rfl) body

theorem isArray_casesSpelling (cases : List SwitchCase) :
    IsArray (casesSpelling cases) = IsList SwitchCase.Spelling cases :=
  Json.isArray_eq_isList trivial (fun _ _ => id) (fun _ _ => id) (fun _ _ _ _ => .rfl) cases

theorem elseSpelling_eq (elseBranch : Option Stmt) :
    elseSpelling elseBranch = IsNullable Stmt.Spelling elseBranch := by
  cases elseBranch <;> rfl

theorem fallbackSpelling_eq (fallback : Option (List Stmt)) :
    fallbackSpelling fallback = IsNullable (IsList Stmt.Spelling) fallback := by
  cases fallback with
  | none => rfl
  | some body => exact isArray_blockSpelling body

theorem TypeDecl.reads {member? : Json → Option Decl} (h : Reads n member? Decl.Spelling) :
    Reads n (TypeDecl.read? member?) TypeDecl.Spelling := by
  rintro document hdepth ⟨name, parents, members⟩
  refine isRecord_three (Nat.le_of_lt hdepth) fun a b c ha hb hc => ?_
  rw [ha.required reads_text, hb.defaulted reads_text.list, isArray_membersSpelling, hc.defaulted h.list]
  simp [Option.bind_eq_some_iff]

section

variable {statement? : Json → Option Stmt} (h : Reads n statement? Stmt.Spelling)

include h

theorem FunctionDecl.reads : Reads n (FunctionDecl.read? statement?) FunctionDecl.Spelling := by
  rintro document hdepth ⟨name, parameters, returnType, body, isStatic⟩
  refine isRecord_iff_bind (Nat.le_of_lt hdepth) fun slots hlength hslots => ?_
  match slots, hlength with
  | [a, b, c, d, e], _ =>
    simp only [List.forall_mem_cons] at hslots
    obtain ⟨ha, hb, hc, hd, he, -⟩ := hslots
    simp only [List.forall₂_cons, List.Forall₂.nil, and_true]
    rw [ha.required reads_text, hb.defaulted Parameter.reads.list, hc.optional SourceType.reads rfl,
      isArray_blockSpelling, hd.defaulted h.list, he.defaulted reads_bool]
    simp [Option.bind_eq_some_iff, -Bool.exists_bool]

theorem SwitchCase.reads : Reads n (SwitchCase.read? statement?) SwitchCase.Spelling := by
  rintro document hdepth ⟨patterns, body⟩
  refine isRecord_two (Nat.le_of_lt hdepth) fun a b ha hb => ?_
  rw [ha.required Expr.reads.list, isArray_blockSpelling, hb.defaulted h.list]
  simp [Option.bind_eq_some_iff]

end

/-- The name under which a declaration is spelled. -/
def Decl.formName : Decl → String
  | .variable _ => "variable"
  | .type kind _ => kind.word
  | .function _ => "function"
  | .enumeration _ => "enum"
  | .typeAlias _ => "type_alias"

/-- The name under which a statement is spelled. -/
def Stmt.formName : Stmt → String
  | .decl _ => "decl"
  | .expr _ => "expr"
  | .block _ => "block"
  | .ifThen .. => "if"
  | .ifLet .. => "if_let"
  | .guard .. => "guard"
  | .guardLet .. => "guard_let"
  | .switch .. => "switch"
  | .forIn .. => "for_in"
  | .whileLoop .. => "while"
  | .repeatWhile .. => "repeat"
  | .returns _ => "return"
  | .breaks => "break"
  | .continues => "continue"
  | .blank => "blank"
  | .doCatch .. => "do_catch"
  | .throws _ => "throw"

theorem Decl.names_of_read (document : Json) :
    Only (fun decl => document.Names decl.formName) (Decl.read? (n + 1) document) := by
  rw [Decl.read?]
  cases hchoice : document.choice? with
  | none => exact .none
  | some choice =>
    obtain ⟨form, _ | content⟩ := choice
    · exact .none
    · dsimp only [bind, Option.bind_some]
      split
      all_goals repeat first | exact .pure ⟨_, hchoice⟩ | exact .none | refine .bind fun _ => ?_

theorem Stmt.names_of_read (document : Json) :
    Only (fun statement => document.Names statement.formName) (Stmt.read? (n + 1) document) := by
  rw [Stmt.read?]
  cases hchoice : document.choice? with
  | none => exact .none
  | some choice =>
    obtain ⟨form, content⟩ := choice
    dsimp only [bind, Option.bind_some]
    split
    iterate 3
      split
      · exact .pure ⟨_, hchoice⟩
      · exact .none
    cases content with
    | none => exact .none
    | some content =>
      dsimp only
      split
      all_goals repeat first | exact .pure ⟨_, hchoice⟩ | exact .none | refine .bind fun _ => ?_ | split

/-- One level of a declaration, from the readers of the levels below. -/
theorem Decl.reads_succ (hdecl : Reads n (Decl.read? n) Decl.Spelling) (hstmt : Reads n (Stmt.read? n) Stmt.Spelling) :
    Reads (n + 1) (Decl.read? (n + 1)) Decl.Spelling := by
  refine .of_forms Decl.formName Decl.names_of_read ?_ ?_ ?_
  · intro document decl h
    cases decl <;> exact IsChoice.choice? h
  · intro decl
    match decl with
    | .type .struct _ | .type .reference _ | .type .protocol _ => exact iff_of_false id nofun
    | .variable _ | .function _ | .enumeration _ | .typeAlias _ => exact iff_of_false id nofun
  · intro decl content hdepth
    have hinj : ∀ kind, Function.Injective (Decl.type kind) := fun kind _ _ h => (Decl.type.inj h).2
    match decl with
    | .variable decl => exact VariableDecl.reads.content (fun _ _ => Decl.variable.inj) hdepth decl
    | .type .struct decl => exact (TypeDecl.reads hdecl).content (hinj _) hdepth decl
    | .type .reference decl => exact (TypeDecl.reads hdecl).content (hinj _) hdepth decl
    | .type .protocol decl => exact (TypeDecl.reads hdecl).content (hinj _) hdepth decl
    | .function decl => exact (FunctionDecl.reads hstmt).content (fun _ _ => Decl.function.inj) hdepth decl
    | .enumeration decl => exact EnumDecl.reads.content (fun _ _ => Decl.enumeration.inj) hdepth decl
    | .typeAlias decl => exact AliasDecl.reads.content (fun _ _ => Decl.typeAlias.inj) hdepth decl

/-- No statement is spelled by `null`, so in the other branch of a conditional `null` is left for nothing. -/
theorem Stmt.read?_null : Stmt.read? n .null = none := by
  cases n <;> rfl

/-- One level of a statement, from the readers of the levels below. -/
theorem Stmt.reads_succ (hdecl : Reads n (Decl.read? n) Decl.Spelling) (hstmt : Reads n (Stmt.read? n) Stmt.Spelling) :
    Reads (n + 1) (Stmt.read? (n + 1)) Stmt.Spelling := by
  refine .of_forms Stmt.formName Stmt.names_of_read ?_ ?_ ?_
  · intro document statement h
    have halone : ∀ {name : String}, IsAlone name document → document.Names name := fun h =>
      (Json.isAlone_iff.mp h).imp fun _ => And.left
    cases statement with
    | breaks | continues | blank => exact halone h
    | _ => exact IsChoice.choice? h
  · intro statement
    cases statement with
    | breaks | continues | blank => exact iff_of_true (.inl rfl) rfl
    | _ => exact iff_of_false id nofun
  · intro statement content hdepth
    have hle := Nat.le_of_lt hdepth
    cases statement with
    | decl declared => exact hdecl.content (fun _ _ => Stmt.decl.inj) hdepth declared
    | expr value => exact Expr.reads.content (fun _ _ => Stmt.expr.inj) hdepth value
    | block body =>
      rw [Stmt.Spelling, isArray_blockSpelling]
      exact hstmt.list.content (fun _ _ => Stmt.block.inj) hdepth body
    | ifThen condition thenBranch elseBranch =>
      refine isChoice_object.trans (isRecord_three hle fun a b c ha hb hc => ?_)
      rw [ha.required Expr.reads, isArray_blockSpelling, hb.required hstmt.list, elseSpelling_eq,
        hc.optional hstmt Stmt.read?_null]
      simp [Option.bind_eq_some_iff]
    | ifLet name value thenBranch elseBranch =>
      refine isChoice_object.trans (isRecord_iff_bind hle fun slots hlength hslots => ?_)
      match slots, hlength with
      | [a, b, c, d], _ =>
        simp only [List.forall_mem_cons] at hslots
        obtain ⟨ha, hb, hc, hd, -⟩ := hslots
        simp only [List.forall₂_cons, List.Forall₂.nil, and_true]
        rw [ha.required reads_text, hb.required Expr.reads, isArray_blockSpelling, hc.required hstmt.list,
          elseSpelling_eq, hd.optional hstmt Stmt.read?_null]
        simp [Option.bind_eq_some_iff]
    | guard condition body =>
      refine isChoice_object.trans (isRecord_two hle fun a b ha hb => ?_)
      rw [ha.required Expr.reads, isArray_blockSpelling, hb.required hstmt.list]
      simp [Option.bind_eq_some_iff]
    | guardLet name value body =>
      refine isChoice_object.trans (isRecord_three hle fun a b c ha hb hc => ?_)
      rw [ha.required reads_text, hb.required Expr.reads, isArray_blockSpelling, hc.required hstmt.list]
      simp [Option.bind_eq_some_iff]
    | switch subject cases fallback =>
      refine isChoice_object.trans (isRecord_three hle fun a b c ha hb hc => ?_)
      rw [ha.required Expr.reads, isArray_casesSpelling, hb.defaulted (SwitchCase.reads hstmt).list,
        fallbackSpelling_eq, hc.optional hstmt.list rfl]
      simp [Option.bind_eq_some_iff]
    | forIn counter sequence body =>
      refine isChoice_object.trans (isRecord_three hle fun a b c ha hb hc => ?_)
      rw [ha.required reads_text, hb.required Expr.reads, isArray_blockSpelling, hc.required hstmt.list]
      simp [Option.bind_eq_some_iff]
    | whileLoop condition body =>
      refine isChoice_object.trans (isRecord_two hle fun a b ha hb => ?_)
      rw [ha.required Expr.reads, isArray_blockSpelling, hb.required hstmt.list]
      simp [Option.bind_eq_some_iff]
    | repeatWhile body condition =>
      refine isChoice_object.trans (isRecord_two hle fun a b ha hb => ?_)
      rw [isArray_blockSpelling, ha.required hstmt.list, hb.required Expr.reads]
      simp [Option.bind_eq_some_iff]
    | returns value => exact (Expr.reads.nullable rfl).content (fun _ _ => Stmt.returns.inj) hdepth value
    | breaks | continues | blank => exact Json.isAlone_object.trans (by simp [Stmt.read?, Json.choice?, Stmt.formName])
    | doCatch body binding handler =>
      refine isChoice_object.trans (isRecord_three hle fun a b c ha hb hc => ?_)
      rw [isArray_blockSpelling, ha.required hstmt.list, hb.optional reads_text rfl, isArray_blockSpelling,
        hc.required hstmt.list]
      simp [Option.bind_eq_some_iff]
    | throws value => exact Expr.reads.content (fun _ _ => Stmt.throws.inj) hdepth value

/-- Declarations and statements hold each other, so their readers are compared at the same depth. -/
theorem Stmt.reads_read? : Reads n (Decl.read? n) Decl.Spelling ∧ Reads n (Stmt.read? n) Stmt.Spelling := by
  induction n with
  | zero =>
    exact ⟨fun _ hdepth => absurd hdepth (Nat.not_lt_zero _), fun _ hdepth => absurd hdepth (Nat.not_lt_zero _)⟩
  | succ n ih => exact ⟨Decl.reads_succ ih.1 ih.2, Stmt.reads_succ ih.1 ih.2⟩

theorem Decl.reads : Reads n Decl.ofJson? Decl.Spelling :=
  fun document _ => Stmt.reads_read?.1 document (Nat.lt_succ_self _)

theorem Stmt.reads : Reads n Stmt.ofJson? Stmt.Spelling :=
  fun document _ => Stmt.reads_read?.2 document (Nat.lt_succ_self _)

/-! ### Programs and options -/

theorem Span.reads : Reads n Span.ofJson? Span.Spelling := by
  rintro document hdepth ⟨line, column⟩
  refine isRecord_two (Nat.le_of_lt hdepth) fun a b ha hb => ?_
  rw [ha.required reads_word32, hb.required reads_word32]
  simp [Option.bind_eq_some_iff]

theorem Item.reads : Reads n Item.ofJson? Item.Spelling := by
  rintro document hdepth ⟨node, span⟩
  refine isRecord_two (Nat.le_of_lt hdepth) fun a b ha hb => ?_
  rw [ha.required Stmt.reads, hb.optional Span.reads rfl]
  simp [Option.bind_eq_some_iff]

theorem Program.reads : Reads n Program.ofJson? Program.Spelling := by
  rintro document hdepth ⟨items⟩
  refine isRecord_iff_bind (Nat.le_of_lt hdepth) fun slots hlength hslots => ?_
  match slots, hlength with
  | [a], _ =>
    have ha : a.Below n := hslots a List.mem_cons_self
    simp only [List.forall₂_cons, List.Forall₂.nil, and_true]
    rw [ha.defaulted Item.reads.list]
    simp [Option.bind_eq_some_iff]

theorem Mode.ofName?_eq_some_iff (name : String) (mode : Mode) : ofName? name = some mode ↔ name = mode.name := by
  constructor
  · intro h
    unfold ofName? at h
    split at h <;> first | exact Option.some.inj h ▸ rfl | exact nomatch h
  · rintro rfl
    exact ofName?_name mode

theorem ErrorPolicy.ofName?_eq_some_iff (name : String) (policy : ErrorPolicy) :
    ofName? name = some policy ↔ name = policy.name := by
  constructor
  · intro h
    unfold ofName? at h
    split at h <;> first | exact Option.some.inj h ▸ rfl | exact nomatch h
  · rintro rfl
    exact ofName?_name policy

theorem Options.reads : Reads n Options.ofJson? Options.Spelling := by
  have hmode : Reads n Mode.ofJson? (fun mode => IsAlone mode.name) :=
    fun _ _ _ => Json.isAlone_iff_find Mode.name Mode.ofName? Mode.ofName?_eq_some_iff
  have hpolicy : Reads n ErrorPolicy.ofJson? (fun policy => IsAlone policy.name) :=
    fun _ _ _ => Json.isAlone_iff_find ErrorPolicy.name ErrorPolicy.ofName? ErrorPolicy.ofName?_eq_some_iff
  rintro document hdepth ⟨mode, policy⟩
  refine isRecord_two (Nat.le_of_lt hdepth) fun a b ha hb => ?_
  rw [ha.defaulted hmode, hb.defaulted hpolicy]
  simp [Option.bind_eq_some_iff]

/-! ### Documents within the limit -/

/-- A document that nests no deeper than the limit is read as a tree exactly when it spells the tree. -/
theorem ofJson?_iff_spelling (document : Json) (hdepth : document.depth ≤ Json.depthLimit) :
    (∀ type, SourceType.ofJson? (document.limitDepth Json.depthLimit) = some type ↔ type.Spelling document) ∧
      (∀ expr, Expr.ofJson? (document.limitDepth Json.depthLimit) = some expr ↔ expr.Spelling document) ∧
      (∀ decl, Decl.ofJson? (document.limitDepth Json.depthLimit) = some decl ↔ decl.Spelling document) ∧
      (∀ statement, Stmt.ofJson? (document.limitDepth Json.depthLimit) = some statement ↔
        statement.Spelling document) ∧
      (∀ program, Program.ofJson? (document.limitDepth Json.depthLimit) = some program ↔
        program.Spelling document) ∧
      ∀ text, Json.parse? text = some document → ∀ program,
        (Program.ofText? text = some program ↔ program.Spelling document) := by
  have hbelow : document.depth < Json.depthLimit + 1 := Nat.lt_succ_of_le hdepth
  have hprogram := fun program => (Program.reads document hbelow program).symm
  rw [Json.limitDepth_eq_self _ _ hdepth]
  refine ⟨?_, ?_, ?_, ?_, hprogram, ?_⟩
  · exact fun type => (SourceType.reads document hbelow type).symm
  · exact fun expr => (Expr.reads document hbelow expr).symm
  · exact fun decl => (Decl.reads document hbelow decl).symm
  · exact fun statement => (Stmt.reads document hbelow statement).symm
  · intro text htext program
    simp [Program.ofText?, Json.ofText?, htext, Json.limitDepth_eq_self _ _ hdepth, hprogram]

/-- The fields of a conditional in another order, with a key of no field and without the other branch; inside it
a function as a list that ends before its body. -/
theorem spelling_of_unordered_conditional :
    let document : Json := .object [("if", .object [("note", .natural 1),
      ("then_branch", .array [.object [("decl", .object [("function", .array [.string "f", .array [], .null])])]]),
      ("condition", .object [("self", .null)])])]
    document.depth ≤ Json.depthLimit ∧
      (Stmt.ifThen .itself [.decl (.function ⟨"f", [], none, [], false⟩)] none).Spelling document := by
  intro document
  have hdepth : document.depth ≤ Json.depthLimit := by decide
  exact ⟨hdepth, ((ofJson?_iff_spelling document hdepth).2.2.2.1 _).mp rfl⟩

end ScriptLowering
