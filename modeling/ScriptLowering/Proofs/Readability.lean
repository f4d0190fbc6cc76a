import ScriptLowering.Proofs.ExpressionReader
import ScriptLowering.Proofs.Induction

/-!
# The text of an expression determines it

Parentheses are written around every operation, and left out where they stand already.  What is written is enough:
two expressions of the plain fragment have the same text only when they differ in what is not written at all.

* `Expr.Plain` — the expressions that this is about;
* `Expr.canonical` — an expression with names, operators and keys as they are emitted, and with no parentheses twice;
* `Expr.text_canonical` — that much does not show in the text;
* `Expr.Readable` — a text from which the canonical expression is read back;
* `Expr.Plain.readable` — so is the text of every plain expression;
* `Expr.text_eq_iff_canonical` — equal texts, equal canonical expressions.
-/

namespace ScriptLowering

/-! ### Operators and keys as they are emitted -/

section

variable {α : Type} (ofSource? : String → Option α) (token : α → String)

/-- The token for an operator of one family; a spelling that the family does not know stays as it is. -/
def emittedToken (spelling : String) : String := ((ofSource? spelling).map token).getD spelling

variable {ofSource? token} {spelling : String}

theorem emittedToken_of_some {op : α} (h : ofSource? spelling = some op) :
    emittedToken ofSource? token spelling = token op := by
  rw [emittedToken, h]
  rfl

theorem emittedToken_of_none (h : ofSource? spelling = none) : emittedToken ofSource? token spelling = spelling := by
  rw [emittedToken, h]
  rfl

end

/-- Two binary operators may share a token; the token leads to one of them. -/
theorem BinaryOperator.exists_ofSource?_token (op : BinaryOperator) :
    ∃ other, ofSource? op.token = some other ∧ other.token = op.token := by
  cases op <;> exact ⟨_, rfl, rfl⟩

theorem UnaryOperator.ofSource?_token (op : UnaryOperator) : ofSource? op.token = some op := by
  cases op <;> rfl

theorem LogicalOperator.find_emittedToken (spelling : String) :
    find (emittedToken ofSource? token spelling) = find spelling := by
  cases h : ofSource? spelling with
  | none => rw [emittedToken_of_none h]
  | some op => rw [emittedToken_of_some h, find, find, ofSource?_token, h]

theorem UnaryOperator.find_emittedToken (spelling : String) :
    find (emittedToken ofSource? token spelling) = find spelling := by
  cases h : ofSource? spelling with
  | none => rw [emittedToken_of_none h]
  | some op => rw [emittedToken_of_some h, find, find, ofSource?_token, h]

namespace ParameterBag

/-- A key is a position or the label itself. -/
theorem argumentKey_cases (index : Nat) (label : Option String) :
    argumentKey index label = positionKey index ∨ ∃ name, label = some name ∧ name ≠ "_" ∧
      argumentKey index label = name := by
  cases label with
  | none => exact .inl rfl
  | some name =>
    by_cases hname : name = "_"
    · exact .inl (if_pos hname)
    · exact .inr ⟨name, rfl, hname, if_neg hname⟩

theorem toList_positionKey (index : Nat) : (positionKey index).toList = '_' :: Nat.toDigits 10 (index + 1) := by
  simp [positionKey]

/-- A key stands for itself. -/
theorem argumentKey_argumentKey (index : Nat) (label : Option String) :
    argumentKey index (some (argumentKey index label)) = argumentKey index label := by
  have hkey : argumentKey index label ≠ "_" := by
    rcases argumentKey_cases index label with hposition | ⟨name, -, hname, hlabel⟩
    · intro heq
      have hchars := toList_positionKey index
      rw [← hposition, heq] at hchars
      injection hchars with _ hdigits
      exact Nat.toDigits_ne_nil hdigits.symm
    · rwa [hlabel]
  exact if_neg hkey

/-- A key is made of the characters of names. -/
theorem argumentKey_word (index : Nat) {label : Option String}
    (h : ∀ name, label = some name → Identifier.isWord name = true) :
    (argumentKey index label).toList.all Identifier.isWordChar = true := by
  rcases argumentKey_cases index label with hposition | ⟨name, hname, -, hlabel⟩
  · rw [hposition, toList_positionKey, List.all_cons, List.all_eq_true.mpr fun c hc =>
      Identifier.isWordChar_of_isDigit (Numeral.isDigit_toDigits (index + 1) c hc)]
    rfl
  · obtain ⟨c, rest, hchars, -, hall⟩ := Identifier.isWord_iff.mp (h name hname)
    rw [hlabel, hchars]
    exact hall

end ParameterBag

namespace Expr

/-! ### Canonical expressions -/

mutual

/-- An expression with every name, operator and key as it is emitted, and without parentheses around an expression
that comes with its own. -/
def canonical : Expr → Expr
  | .ternary condition thenValue elseValue =>
    .ternary condition.canonical thenValue.canonical elseValue.canonical
  | .binary operator left right =>
    .binary (emittedToken BinaryOperator.ofSource? BinaryOperator.token operator) left.canonical right.canonical
  | .logical operator left right =>
    .logical (emittedToken LogicalOperator.ofSource? LogicalOperator.token operator) left.canonical right.canonical
  | .unary operator operand =>
    .unary (emittedToken UnaryOperator.ofSource? UnaryOperator.token operator) operand.canonical
  | .call callee arguments construction => .call callee.canonical (canonicalArguments 0 arguments) construction
  | .member object name => .member object.canonical (Identifier.safe name)
  | .index object position => .index object.canonical position.canonical
  | .optionalChain value forced => .optionalChain value.canonical forced
  | .variable name => .variable (Identifier.safe name)
  | .grouping inner => if inner.isParenthesized then inner.canonical else .grouping inner.canonical
  | .array items => .array (canonicalItems items)
  | other => other

/-- The items of an array, each canonical. -/
def canonicalItems : List Expr → List Expr
  | [] => []
  | item :: rest => item.canonical :: canonicalItems rest

/-- The arguments of a call, each canonical and under its key; the first stands at the given position. -/
def canonicalArguments (index : Nat) : List Argument → List Argument
  | [] => []
  | ⟨label, value⟩ :: rest =>
    ⟨some (ParameterBag.argumentKey index label), value.canonical⟩ :: canonicalArguments (index + 1) rest

end

/-- Canonical expressions come with parentheses where the original ones do. -/
theorem isParenthesized_canonical (e : Expr) : e.canonical.isParenthesized = e.isParenthesized := by
  induction e using Expr.induction with
  | grouping inner hinner =>
    rw [canonical]
    by_cases h : inner.isParenthesized = true
    · rw [if_pos h, hinner, h]
      rfl
    · rw [if_neg h]
      rfl
  | _ => rfl

theorem isOptionalChain_canonical (e : Expr) : e.canonical.isOptionalChain = e.isOptionalChain := by
  cases e with
  | grouping inner =>
    have hparentheses := isParenthesized_canonical (.grouping inner)
    cases hshape : (Expr.grouping inner).canonical with
    | optionalChain value forced =>
      rw [hshape] at hparentheses
      exact nomatch hparentheses
    | _ => rfl
  | _ => rfl

theorem canonical_ne_range {e : Expr} (h : ∀ lower upper inclusive, e ≠ .range lower upper inclusive)
    (lower upper : Expr) (inclusive : Bool) : e.canonical ≠ .range lower upper inclusive := by
  intro hshape
  cases e with
  | grouping inner =>
    have hparentheses := isParenthesized_canonical (.grouping inner)
    rw [hshape] at hparentheses
    exact nomatch hparentheses
  | range lower upper inclusive => exact h lower upper inclusive rfl
  | _ => exact nomatch hshape

/-! ### What does not show in the text -/

section

variable (mode : Mode)

theorem texts_canonical {items : List Expr} (h : ∀ item ∈ items, item.canonical.text mode = item.text mode) :
    texts mode (canonicalItems items) = texts mode items := by
  induction items with
  | nil => rfl
  | cons item rest ih =>
    obtain ⟨hitem, hrest⟩ := List.forall_mem_cons.mp h
    rw [canonicalItems, texts, texts, hitem, ih hrest]

theorem argumentTexts_canonical {arguments : List Argument} (index : Nat)
    (h : ∀ argument ∈ arguments, argument.value.canonical.text mode = argument.value.text mode) :
    argumentTexts mode index (canonicalArguments index arguments) = argumentTexts mode index arguments := by
  induction arguments generalizing index with
  | nil => rfl
  | cons argument rest ih =>
    obtain ⟨label, value⟩ := argument
    obtain ⟨hvalue, hrest⟩ := List.forall_mem_cons.mp h
    rw [canonicalArguments, argumentTexts, argumentTexts, hvalue, ih (index + 1) hrest,
      ParameterBag.argumentKey_argumentKey]

/-- **Canonical text.**  An expression and its canonical form have the same text. -/
theorem text_canonical (e : Expr) : e.canonical.text mode = e.text mode := by
  induction e using Expr.induction with
  | ternary condition thenValue elseValue hcondition hthen helse =>
    rw [canonical, text, text, hcondition, hthen, helse]
  | binary operator left right hleft hright =>
    rw [canonical, text, text, hleft, hright]
    cases h : BinaryOperator.ofSource? operator with
    | none => rw [emittedToken_of_none h]
    | some op =>
      -- The token may lead to another operator, but only the token is written.
      obtain ⟨other, hother, htoken⟩ := op.exists_ofSource?_token
      rw [emittedToken_of_some h, BinaryOperator.find, BinaryOperator.find, hother, h]
      show (do
        let left ← left.text mode
        let right ← right.text mode
        return parenthesized (left ++ " " ++ other.token ++ " " ++ right)) = _
      rw [htoken]
      rfl
  | logical operator left right hleft hright =>
    rw [canonical, text, text, hleft, hright, LogicalOperator.find_emittedToken]
  | unary operator operand hoperand => rw [canonical, text, text, hoperand, UnaryOperator.find_emittedToken]
  | call callee arguments construction hcallee harguments =>
    rw [canonical, text, text, argumentTexts_canonical mode 0 harguments, hcallee, isOptionalChain_canonical]
  | member object name hobject =>
    rw [canonical, text, text, hobject, isOptionalChain_canonical, Identifier.safe_safe]
  | slice object lower upper inclusive hobject hlower hupper =>
    rw [canonical, text, text, hobject, isOptionalChain_canonical]
    rfl
  | index object position hrange hobject hposition =>
    rw [canonical, text_index mode _ (canonical_ne_range hrange), text_index mode object hrange, hobject, hposition,
      isOptionalChain_canonical]
  | optionalChain value forced hvalue => rw [canonical, text, text, hvalue]
  | var name => rw [canonical, text, text, Identifier.safe_safe]
  | grouping inner hinner =>
    rw [canonical]
    by_cases h : inner.isParenthesized = true
    · rw [if_pos h, text, hinner]
      simp only [h, if_true, bind_pure]
    · rw [if_neg h, text, text, hinner, isParenthesized_canonical]
  | array items hitems => rw [canonical, text, text, texts_canonical mode hitems]
  | _ => rfl

end

/-! ### Plain expressions -/

/-- The expression under an optional access, or under a plain one. -/
def chained (e : Expr) (optional : Bool) : Expr := if optional then .optionalChain e false else e

/-- Whether the expression may stand in front of an access: a sign in front of it would capture the access, and a
point behind a number would belong to the number. -/
def isBase : Expr → Bool
  | .unary .. => false
  | .literal (.int _) => false
  | _ => true

/-- Expressions of names, decimal numbers and strings under operators, accesses and calls.  Every operator is known,
and an optional stands only under an access. -/
inductive Plain : Expr → Prop where
  | var {name : String} (hname : Identifier.isWord name = true) : Plain (.variable name)
  | itself : Plain .itself
  | int {numeral : String} (hdigits : Numeral.isDigits numeral.toList = true) : Plain (.literal (.int numeral))
  | string (value : String) : Plain (.literal (.string value false))
  | array {items : List Expr} (hitems : ∀ item ∈ items, Plain item) : Plain (.array items)
  | grouping {inner : Expr} (hinner : Plain inner) : Plain (.grouping inner)
  | unary {operator : String} {operand : Expr} (hoperator : (UnaryOperator.ofSource? operator).isSome = true)
    (hoperand : Plain operand) : Plain (.unary operator operand)
  | binary {operator : String} {left right : Expr} (hoperator : (BinaryOperator.ofSource? operator).isSome = true)
    (hleft : Plain left) (hright : Plain right) : Plain (.binary operator left right)
  | logical {operator : String} {left right : Expr} (hoperator : (LogicalOperator.ofSource? operator).isSome = true)
    (hleft : Plain left) (hright : Plain right) : Plain (.logical operator left right)
  | ternary {condition thenValue elseValue : Expr} (hcondition : Plain condition) (hthen : Plain thenValue)
    (helse : Plain elseValue) : Plain (.ternary condition thenValue elseValue)
  | member {object : Expr} {name : String} (optional : Bool) (hobject : Plain object) (hbase : object.isBase = true)
    (hname : Identifier.isWord name = true) : Plain (.member (object.chained optional) name)
  | index {object position : Expr} (optional : Bool) (hobject : Plain object) (hbase : object.isBase = true)
    (hposition : Plain position) : Plain (.index (object.chained optional) position)
  | call {callee : Expr} {arguments : List Argument} (optional : Bool) (hcallee : Plain callee)
    (hbase : callee.isBase = true) (harguments : ∀ argument ∈ arguments, Plain argument.value)
    (hlabels : ∀ argument ∈ arguments, ∀ label, argument.label = some label → Identifier.isWord label = true) :
    Plain (.call (callee.chained optional) arguments false)

theorem canonical_chained (e : Expr) (optional : Bool) :
    (e.chained optional).canonical = e.canonical.chained optional := by
  cases optional <;> rfl

theorem text_chained (mode : Mode) (e : Expr) (optional : Bool) : (e.chained optional).text mode = e.text mode := by
  cases optional with
  | false => rfl
  | true => exact text.eq_def mode _

theorem Plain.isOptionalChain_chained {e : Expr} (h : e.Plain) (optional : Bool) :
    (e.chained optional).isOptionalChain = optional := by
  cases optional with
  | false => cases h <;> rfl
  | true => rfl

theorem Plain.ne_range {e : Expr} (h : e.Plain) (lower upper : Expr) (inclusive : Bool) :
    e ≠ .range lower upper inclusive := by
  cases h <;> exact nofun

/-! ### Texts that are read back -/

open Reading

/-- The text of an expression, from which its canonical form is read back.  Where accesses may follow, they are read as
accesses to the expression. -/
structure Readable (e : Expr) (text : String) : Prop where
  lowered : e.text .native = .ok text
  begins : Begins text.toList
  reads : ReadsAs text.toList e.canonical
  base : e.isBase = true → ∀ rest result, EndsWord rest →
    Settles (fun depth width => suffixes (operand depth) width e.canonical rest) result →
    Settles (fun depth _ => operand depth (text.toList ++ rest)) result

/-- An expression that is read in one piece. -/
theorem Readable.of_primary {e : Expr} {text : String} (hlowered : e.text .native = .ok text) {c : Char}
    {chars : List Char} (hchars : text.toList = c :: chars) (hsign : isSign c = false) (hblank : c ≠ ' ')
    (hclose : c ≠ ']')
    (h : ∀ rest, EndsWord rest →
      Settles (fun depth width => primary (operand depth) width (text.toList ++ rest)) (e.canonical, rest)) :
    e.Readable text := by
  have hbase : ∀ rest result, EndsWord rest →
      Settles (fun depth width => suffixes (operand depth) width e.canonical rest) result →
      Settles (fun depth _ => operand depth (text.toList ++ rest)) result := by
    intro rest result hrest hsuffixes
    have hprimary := h rest hrest
    rw [hchars] at hprimary ⊢
    exact settles_operand hsign hprimary hsuffixes
  exact ⟨hlowered, ⟨c, chars, hchars, hblank, hclose⟩, fun rest hrest => hbase rest _ hrest.endsWord (suffixes_end hrest),
    fun _ => hbase⟩

/-- An access to an expression. -/
theorem Readable.of_suffix {e object : Expr} {text objectText : String} {mark : Char} {chars : List Char}
    (hobject : object.Readable objectText) (hbase : object.isBase = true) (hlowered : e.text .native = .ok text)
    (hchars : text.toList = objectText.toList ++ mark :: chars) (hmark : Identifier.isWordChar mark = false)
    (h : ∀ rest result, EndsWord rest →
      Settles (fun depth width => suffixes (operand depth) width e.canonical rest) result →
      Settles (fun depth width => suffixes (operand depth) width object.canonical (mark :: (chars ++ rest))) result) :
    e.Readable text := by
  have hread : ∀ rest result, EndsWord rest →
      Settles (fun depth width => suffixes (operand depth) width e.canonical rest) result →
      Settles (fun depth _ => operand depth (text.toList ++ rest)) result := by
    intro rest result hrest hsuffixes
    rw [hchars, List.append_assoc]
    exact hobject.base hbase _ result (EndsWord.cons hmark _) (h rest result hrest hsuffixes)
  obtain ⟨c, others, hfirst, hc⟩ := hobject.begins
  refine ⟨hlowered, ⟨c, others ++ mark :: chars, ?_, hc⟩, ?_, fun _ => hread⟩
  · rw [hchars, hfirst]
    rfl
  · exact fun rest hrest => hread rest _ hrest.endsWord (suffixes_end hrest)

/-! ### Names, numbers and strings -/

theorem Readable.of_word {e : Expr} {word : String} (hlowered : e.text .native = .ok word) (hne : word.toList ≠ [])
    (hall : word.toList.all Identifier.isWordChar = true) (hword : ofWord word.toList = e.canonical) :
    e.Readable word := by
  obtain ⟨c, chars, hchars⟩ := List.exists_cons_of_ne_nil hne
  obtain ⟨hsign, hblank, hclose⟩ := isWordChar_apart (List.all_eq_true.mp hall c (hchars ▸ List.mem_cons_self))
  refine Readable.of_primary hlowered hchars hsign hblank hclose fun rest hrest => ?_
  rw [← hword]
  exact primary_word hne hall hrest

theorem readable_variable {name : String} (hname : Identifier.isWord name = true) :
    (Expr.variable name).Readable (Identifier.safe name) := by
  obtain ⟨c, chars, hchars, hdigit, hall⟩ := Identifier.isWord_iff.mp (Identifier.isWord_safe hname)
  have hthis : Identifier.safe name ≠ "this" := by
    intro heq
    have hreserved := Identifier.isReserved_safe name
    rw [heq] at hreserved
    exact absurd hreserved (by decide)
  refine Readable.of_word rfl (by rw [hchars]; exact List.cons_ne_nil c chars) (by rw [hchars]; exact hall) ?_
  have hhead : (Identifier.safe name).toList.head?.any Char.isDigit = false := by
    rw [hchars]
    exact hdigit
  rw [ofWord, hhead, String.ofList_toList, if_neg Bool.false_ne_true, if_neg hthis, canonical]

theorem readable_int {numeral : String} (hdigits : Numeral.isDigits numeral.toList = true) :
    (Expr.literal (.int numeral)).Readable numeral := by
  rw [Numeral.isDigits, Bool.and_eq_true, Bool.not_eq_true', List.isEmpty_eq_false_iff] at hdigits
  obtain ⟨hne, hall⟩ := hdigits
  obtain ⟨c, chars, hchars⟩ := List.exists_cons_of_ne_nil hne
  refine Readable.of_word rfl hne (List.all_eq_true.mpr fun d hd =>
    Identifier.isWordChar_of_isDigit (List.all_eq_true.mp hall d hd)) ?_
  have hhead : numeral.toList.head?.any Char.isDigit = true := by
    rw [hchars] at hall ⊢
    exact List.all_eq_true.mp hall c List.mem_cons_self
  rw [ofWord, if_pos hhead, String.ofList_toList]
  rfl

theorem readable_string (value : String) : (Expr.literal (.string value false)).Readable (Quoted.literal value) := by
  have hchars : (Quoted.literal value).toList = '"' :: (Quoted.escapeChars value.toList ++ ['"']) := by
    simp [Quoted.literal, Quoted.escape]
  refine Readable.of_primary rfl hchars rfl (by decide) (by decide) fun rest _ => ?_
  rw [hchars, List.cons_append, List.append_assoc]
  exact primary_string value rest

/-! ### Parentheses and operators -/

theorem toList_parenthesized (text : String) : (parenthesized text).toList = '(' :: (text.toList ++ [')']) := by
  simp [parenthesized]

/-- An expression in parentheses that it comes with. -/
theorem Readable.of_parentheses {e : Expr} {text : String} (hlowered : e.text .native = .ok (parenthesized text))
    (h : ∀ rest, Settles (fun depth width => primary (operand depth) width ('(' :: (text.toList ++ ')' :: rest)))
      (e.canonical, rest)) : e.Readable (parenthesized text) := by
  refine Readable.of_primary hlowered (toList_parenthesized text) rfl (by decide) (by decide) fun rest _ => ?_
  rw [toList_parenthesized, List.cons_append, List.append_assoc]
  exact h rest

theorem readable_grouping {inner : Expr} {text : String} (hinner : inner.Readable text) :
    ∃ text, (Expr.grouping inner).Readable text := by
  by_cases h : inner.isParenthesized = true
  · have hcanonical : (Expr.grouping inner).canonical = inner.canonical := by rw [canonical, if_pos h]
    have hbase : inner.isBase = true := by
      cases inner <;> first | rfl | exact nomatch h
    refine ⟨text, ?_, hinner.begins, ?_, ?_⟩
    · rw [Expr.text, hinner.lowered]
      simp only [h, if_true, bind_pure]
    · rw [hcanonical]
      exact hinner.reads
    · rw [hcanonical]
      exact fun _ => hinner.base hbase
  · refine ⟨parenthesized text, Readable.of_parentheses ?_ fun rest => ?_⟩
    · rw [Expr.text, hinner.lowered]
      show Except.ok (if inner.isParenthesized then text else parenthesized text) = _
      rw [if_neg h]
    · rw [canonical, if_neg h]
      exact primary_grouping hinner.reads rest

/-- A binary or logical operation is read back by its token. -/
theorem Readable.of_operation {e left right : Expr} {leftText rightText token : String}
    (hlowered : e.text .native = .ok (parenthesized (leftText ++ " " ++ token ++ " " ++ rightText)))
    (hblank : ' ' ∉ token.toList) (hmark : token ≠ "?") (hleft : left.Readable leftText)
    (hright : right.Readable rightText)
    (hcanonical : e.canonical = if (LogicalOperator.ofSource? token).isSome then
      .logical token left.canonical right.canonical else .binary token left.canonical right.canonical) :
    e.Readable (parenthesized (leftText ++ " " ++ token ++ " " ++ rightText)) := by
  refine Readable.of_parentheses hlowered fun rest => ?_
  have hprimary := primary_operation hblank hmark hleft.reads hright.reads rest
  rw [hcanonical]
  simpa using hprimary

theorem readable_binary {operator : String} {left right : Expr} {leftText rightText : String}
    (hoperator : (BinaryOperator.ofSource? operator).isSome = true) (hleft : left.Readable leftText)
    (hright : right.Readable rightText) : ∃ text, (Expr.binary operator left right).Readable text := by
  obtain ⟨op, hop⟩ := Option.isSome_iff_exists.mp hoperator
  refine ⟨parenthesized (leftText ++ " " ++ op.token ++ " " ++ rightText),
    Readable.of_operation ?_ ?_ ?_ hleft hright ?_⟩
  · rw [Expr.text, hleft.lowered, hright.lowered, BinaryOperator.find, hop]
    rfl
  · cases op <;> decide
  · cases op <;> decide
  · rw [canonical, emittedToken_of_some hop]
    cases op <;> rfl

theorem readable_logical {operator : String} {left right : Expr} {leftText rightText : String}
    (hoperator : (LogicalOperator.ofSource? operator).isSome = true) (hleft : left.Readable leftText)
    (hright : right.Readable rightText) : ∃ text, (Expr.logical operator left right).Readable text := by
  obtain ⟨op, hop⟩ := Option.isSome_iff_exists.mp hoperator
  refine ⟨parenthesized (leftText ++ " " ++ op.token ++ " " ++ rightText),
    Readable.of_operation ?_ ?_ ?_ hleft hright ?_⟩
  · rw [Expr.text, hleft.lowered, hright.lowered, LogicalOperator.find, hop]
    rfl
  · cases op <;> decide
  · cases op <;> decide
  · rw [canonical, emittedToken_of_some hop]
    cases op <;> rfl

theorem readable_ternary {condition thenValue elseValue : Expr} {conditionText thenText elseText : String}
    (hcondition : condition.Readable conditionText) (hthen : thenValue.Readable thenText)
    (helse : elseValue.Readable elseText) :
    (Expr.ternary condition thenValue elseValue).Readable
      (parenthesized (conditionText ++ " ? " ++ thenText ++ " : " ++ elseText)) := by
  refine Readable.of_parentheses ?_ fun rest => ?_
  · rw [Expr.text, hcondition.lowered, hthen.lowered, helse.lowered]
    rfl
  · have hprimary := primary_ternary hcondition.reads hthen.reads helse.reads rest
    rw [canonical]
    simpa using hprimary

theorem readable_unary {operator : String} {inner : Expr} {text : String}
    (hoperator : (UnaryOperator.ofSource? operator).isSome = true) (hinner : inner.Readable text) :
    ∃ text, (Expr.unary operator inner).Readable text := by
  obtain ⟨op, hop⟩ := Option.isSome_iff_exists.mp hoperator
  obtain ⟨c, chars, hchars, hblank, -⟩ := hinner.begins
  -- The blank that keeps two equal signs apart is skipped; without it the operand follows at once.
  obtain ⟨between, happly, hskip⟩ : ∃ between, (op.apply text).toList = op.symbol :: (between ++ text.toList) ∧
      ∀ rest, skipBlank (between ++ text.toList ++ rest) = text.toList ++ rest := by
    rw [UnaryOperator.apply]
    split
    · exact ⟨[' '], by simp [UnaryOperator.token], fun rest => rfl⟩
    · refine ⟨[], by simp [UnaryOperator.token], fun rest => ?_⟩
      rw [List.nil_append, hchars, List.cons_append, skipBlank]
      intro others heq
      injection heq with heq
      exact hblank heq
  refine ⟨op.apply text, ?_, ⟨op.symbol, _, happly, ?_⟩, fun rest hrest => ?_, fun hbase => nomatch hbase⟩
  · rw [Expr.text, hinner.lowered, UnaryOperator.find, hop]
    rfl
  · cases op <;> decide
  · rw [happly, canonical, emittedToken_of_some hop, List.cons_append]
    refine settles_sign ?_
    rw [hskip rest]
    exact hinner.reads rest hrest

/-! ### Accesses -/

theorem readable_member {object : Expr} {name text : String} (optional : Bool) (hplain : object.Plain)
    (hbase : object.isBase = true) (hname : Identifier.isWord name = true) (hobject : object.Readable text) :
    (Expr.member (object.chained optional) name).Readable
      (text ++ (if optional then "?." else ".") ++ Identifier.safe name) := by
  have hsafe := Identifier.isWord_safe hname
  have hlowered : (Expr.member (object.chained optional) name).text .native =
      .ok (text ++ (if optional then "?." else ".") ++ Identifier.safe name) := by
    rw [Expr.text, text_chained, hobject.lowered, hplain.isOptionalChain_chained]
    rfl
  cases optional with
  | false =>
    have hchars : (text ++ "." ++ Identifier.safe name).toList =
        text.toList ++ '.' :: (Identifier.safe name).toList := by simp
    exact Readable.of_suffix hobject hbase hlowered hchars (by decide) fun rest result hrest hsuffixes =>
      suffixes_member hsafe hrest hsuffixes
  | true =>
    have hchars : (text ++ "?." ++ Identifier.safe name).toList =
        text.toList ++ '?' :: '.' :: (Identifier.safe name).toList := by simp
    exact Readable.of_suffix hobject hbase hlowered hchars (by decide) fun rest result hrest hsuffixes =>
      suffixes_chained (undotted_word hsafe rest) (suffixes_member hsafe hrest hsuffixes)

/-- An access that begins with a bracket is written in the same way behind `?.`. -/
theorem Readable.of_access {e object : Expr} {text objectText : String} {mark : Char} {chars : List Char}
    (optional : Bool) (hobject : object.Readable objectText) (hbase : object.isBase = true)
    (hmark : mark = '[' ∨ mark = '(') (hlowered : e.text .native = .ok text)
    (hchars : text.toList = objectText.toList ++ ((if optional then "?." else "").toList ++ mark :: chars))
    (h : ∀ rest result, Settles (fun depth width => suffixes (operand depth) width e.canonical rest) result →
      Settles (fun depth width => suffixes (operand depth) width (object.canonical.chained optional)
        (mark :: (chars ++ rest))) result) : e.Readable text := by
  have hword : Identifier.isWordChar mark = false := by
    rcases hmark with rfl | rfl <;> decide
  cases optional with
  | false =>
    exact Readable.of_suffix hobject hbase hlowered hchars hword fun rest result _ hsuffixes => h rest result hsuffixes
  | true =>
    have hundotted : ∀ rest, undotted (mark :: rest) = mark :: rest := by
      rcases hmark with rfl | rfl <;> exact fun rest => rfl
    exact Readable.of_suffix hobject hbase hlowered hchars (by decide) fun rest result _ hsuffixes =>
      suffixes_chained (hundotted (chars ++ rest)) (h rest result hsuffixes)

theorem readable_index {object position : Expr} {text positionText : String} (optional : Bool) (hplain : object.Plain)
    (hbase : object.isBase = true) (hposition : position.Plain) (hobject : object.Readable text)
    (hread : position.Readable positionText) :
    ∃ text, (Expr.index (object.chained optional) position).Readable text := by
  have hchars : (text ++ (if optional then "?." else "") ++ "[" ++ positionText ++ "]").toList =
      text.toList ++ ((if optional then "?." else "").toList ++ '[' :: (positionText.toList ++ [']'])) := by
    simp
  refine ⟨_, Readable.of_access optional hobject hbase (.inl rfl) ?_ hchars fun rest result hsuffixes => ?_⟩
  · rw [text_index .native _ hposition.ne_range, text_chained, hobject.lowered, hread.lowered,
      hplain.isOptionalChain_chained]
    rfl
  · rw [canonical, canonical_chained] at hsuffixes
    rw [List.append_assoc]
    exact suffixes_index hread.reads hsuffixes

/-- The items of an array, each with its text. -/
theorem texts_readable {items : List Expr} (h : ∀ item ∈ items, ∃ text, item.Readable text) :
    ∃ entries : List (String × Expr), texts .native items = .ok (entries.map (·.1)) ∧
      canonicalItems items = entries.map (·.2) ∧
      (∀ entry ∈ entries, ReadsAs entry.1.toList entry.2) ∧ ∀ entry ∈ entries, Begins entry.1.toList := by
  induction items with
  | nil => exact ⟨[], rfl, rfl, nofun, nofun⟩
  | cons item rest ih =>
    obtain ⟨⟨text, hitem⟩, hrest⟩ := List.forall_mem_cons.mp h
    obtain ⟨entries, htexts, hcanonical, hreads, hbegins⟩ := ih hrest
    refine ⟨(text, item.canonical) :: entries, ?_, ?_, List.forall_mem_cons.mpr ⟨hitem.reads, hreads⟩,
      List.forall_mem_cons.mpr ⟨hitem.begins, hbegins⟩⟩
    · rw [texts, hitem.lowered, htexts]
      rfl
    · rw [canonicalItems, hcanonical]
      rfl

theorem readable_array {items : List Expr} (h : ∀ item ∈ items, ∃ text, item.Readable text) :
    ∃ text, (Expr.array items).Readable text := by
  obtain ⟨entries, htexts, hcanonical, hreads, hbegins⟩ := texts_readable h
  have hchars : ("[" ++ Text.joinWith ", " (entries.map (·.1)) ++ "]").toList =
      '[' :: ((Text.joinWith ", " (entries.map (·.1))).toList ++ [']']) := by simp
  refine ⟨"[" ++ Text.joinWith ", " (entries.map (·.1)) ++ "]",
    Readable.of_primary ?_ hchars rfl (by decide) (by decide) fun rest _ => ?_⟩
  · rw [Expr.text, htexts]
    rfl
  · rw [hchars, List.cons_append, List.append_assoc, canonical, hcanonical]
    exact primary_array hreads hbegins rest

/-- The arguments of a call, each with its entry in the bag. -/
theorem argumentTexts_readable (index : Nat) {arguments : List Argument}
    (h : ∀ argument ∈ arguments, ∃ text, argument.value.Readable text)
    (hlabels : ∀ argument ∈ arguments, ∀ label, argument.label = some label → Identifier.isWord label = true) :
    ∃ entries : List (String × Argument), argumentTexts .native index arguments = .ok (entries.map (·.1)) ∧
      canonicalArguments index arguments = entries.map (·.2) ∧
      ∀ entry ∈ entries, ∀ rest, Ends rest →
        Settles (fun depth _ => argument (operand depth) (entry.1.toList ++ rest)) (entry.2, rest) := by
  induction arguments generalizing index with
  | nil => exact ⟨[], rfl, rfl, nofun⟩
  | cons argument others ih =>
    obtain ⟨⟨text, hvalue⟩, hothers⟩ := List.forall_mem_cons.mp h
    obtain ⟨hlabel, hlabels⟩ := List.forall_mem_cons.mp hlabels
    obtain ⟨entries, htexts, hcanonical, hreads⟩ := ih (index + 1) hothers hlabels
    obtain ⟨label, value⟩ := argument
    refine ⟨(ParameterBag.argumentKey index label ++ ": " ++ text,
      ⟨some (ParameterBag.argumentKey index label), value.canonical⟩) :: entries, ?_, ?_, ?_⟩
    · rw [argumentTexts, hvalue.lowered, htexts]
      rfl
    · rw [canonicalArguments, hcanonical]
      rfl
    · refine List.forall_mem_cons.mpr ⟨fun rest hrest => ?_, hreads⟩
      have hargument := settles_argument (ParameterBag.argumentKey_word index hlabel) hvalue.reads hrest
      simpa using hargument

theorem readable_call {callee : Expr} {arguments : List Argument} {text : String} (optional : Bool)
    (hplain : callee.Plain) (hbase : callee.isBase = true) (hcallee : callee.Readable text)
    (harguments : ∀ argument ∈ arguments, ∃ text, argument.value.Readable text)
    (hlabels : ∀ argument ∈ arguments, ∀ label, argument.label = some label → Identifier.isWord label = true) :
    ∃ text, (Expr.call (callee.chained optional) arguments false).Readable text := by
  obtain ⟨entries, htexts, hcanonical, hreads⟩ := argumentTexts_readable 0 harguments hlabels
  have hchars : (text ++ (if optional then "?." else "") ++
      parenthesized (ParameterBag.argumentText (entries.map (·.1)))).toList =
      text.toList ++ ((if optional then "?." else "").toList ++
        '(' :: ((ParameterBag.argumentText (entries.map (·.1))).toList ++ [')'])) := by
    simp [toList_parenthesized]
  refine ⟨_, Readable.of_access optional hcallee hbase (.inr rfl) ?_ hchars fun rest result hsuffixes => ?_⟩
  · rw [Expr.text, htexts, text_chained, hcallee.lowered, hplain.isOptionalChain_chained]
    rfl
  · rw [canonical, canonical_chained, hcanonical] at hsuffixes
    rw [List.append_assoc]
    exact suffixes_call (settles_bag hreads rest) hsuffixes

/-! ### All plain expressions -/

/-- **Reading back.**  A plain expression has a text, from which its canonical form is read back. -/
theorem Plain.readable {e : Expr} (h : e.Plain) : ∃ text, e.Readable text := by
  induction h with
  | var hname => exact ⟨_, readable_variable hname⟩
  | itself => exact ⟨"this", Readable.of_word rfl (by decide) (by decide) rfl⟩
  | int hdigits => exact ⟨_, readable_int hdigits⟩
  | string value => exact ⟨_, readable_string value⟩
  | array _ hitems => exact readable_array hitems
  | grouping _ hinner =>
    obtain ⟨text, hinner⟩ := hinner
    exact readable_grouping hinner
  | unary hoperator _ hoperand =>
    obtain ⟨text, hoperand⟩ := hoperand
    exact readable_unary hoperator hoperand
  | binary hoperator _ _ hleft hright =>
    obtain ⟨leftText, hleft⟩ := hleft
    obtain ⟨rightText, hright⟩ := hright
    exact readable_binary hoperator hleft hright
  | logical hoperator _ _ hleft hright =>
    obtain ⟨leftText, hleft⟩ := hleft
    obtain ⟨rightText, hright⟩ := hright
    exact readable_logical hoperator hleft hright
  | ternary _ _ _ hcondition hthen helse =>
    obtain ⟨conditionText, hcondition⟩ := hcondition
    obtain ⟨thenText, hthen⟩ := hthen
    obtain ⟨elseText, helse⟩ := helse
    exact ⟨_, readable_ternary hcondition hthen helse⟩
  | member optional hplain hbase hname hobject =>
    obtain ⟨text, hobject⟩ := hobject
    exact ⟨_, readable_member optional hplain hbase hname hobject⟩
  | index optional hplain hbase hposition hobject hread =>
    obtain ⟨text, hobject⟩ := hobject
    obtain ⟨positionText, hread⟩ := hread
    exact readable_index optional hplain hbase hposition hobject hread
  | call optional hplain hbase _ hlabels hcallee harguments =>
    obtain ⟨text, hcallee⟩ := hcallee
    exact readable_call optional hplain hbase hcallee harguments hlabels

/-- **The text determines the expression.**  Every plain expression has a text, and two of them have the same text
exactly when their canonical forms are equal: no operator captures a neighbour. -/
theorem text_eq_iff_canonical {e e' : Expr} (h : e.Plain) (h' : e'.Plain) :
    (∃ text, e.text .native = .ok text) ∧
      (e.text .native = e'.text .native ↔ e.canonical = e'.canonical) := by
  obtain ⟨text, hread⟩ := h.readable
  obtain ⟨text', hread'⟩ := h'.readable
  refine ⟨⟨text, hread.lowered⟩, fun htexts => ?_, fun hcanonical => ?_⟩
  · -- One text is read once: what it settles on is both canonical forms.
    rw [hread.lowered, hread'.lowered] at htexts
    injection htexts with htexts
    have hresult := hread.reads [] Ends.nil
    have hresult' := hread'.reads [] Ends.nil
    rw [← htexts] at hresult'
    exact (Prod.mk.inj (hresult.unique hresult')).1
  · rw [← text_canonical .native e, hcanonical, text_canonical]

/-- A name and a number with two signs, under a binary operator. -/
def signedSum (operator name : String) : Expr :=
  .binary operator (.variable name) (.unary "-" (.unary "-" (.literal (.int "1"))))

theorem plain_signedSum {operator name : String} (hoperator : (BinaryOperator.ofSource? operator).isSome = true)
    (hname : Identifier.isWord name = true) : (signedSum operator name).Plain :=
  .binary hoperator (.var hname) (.unary rfl (.unary rfl (.int rfl)))

/-- Names, operators and parentheses that do not show in the text, under an optional access. -/
theorem text_eq_iff_canonical_signedSum :
    (Expr.member ((Expr.grouping (signedSum "&+" "this")).chained true) "class").text .native =
        .ok "(this_ + - -1)?.class_" ∧
      (Expr.member ((signedSum "+" "this_").chained true) "class_").text .native = .ok "(this_ + - -1)?.class_" ∧
      (Expr.member ((Expr.grouping (signedSum "&+" "this")).chained true) "class").canonical =
        (Expr.member ((signedSum "+" "this_").chained true) "class_").canonical := by
  have hgrouped : (Expr.member ((Expr.grouping (signedSum "&+" "this")).chained true) "class").Plain :=
    .member true (.grouping (plain_signedSum rfl rfl)) rfl rfl
  have hbare : (Expr.member ((signedSum "+" "this_").chained true) "class_").Plain :=
    .member true (plain_signedSum rfl rfl) rfl rfl
  exact ⟨rfl, rfl, (text_eq_iff_canonical hgrouped hbare).2.mp rfl⟩

end Expr

end ScriptLowering
