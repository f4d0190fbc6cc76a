import Mathlib.Data.List.Chain
import ScriptLowering.Proofs.Induction
import ScriptLowering.Proofs.Node
import ScriptLowering.Proofs.Outcome
import ScriptLowering.Proofs.SafeNames

/-!
# Signs that stay apart

Two plus signs or two minus signs in a row are one token of a script, and that token changes a variable.  The lowering
writes signs as operators, and literals may begin and end with signs, so texts that are put next to each other could
make such a token.

* `Text.isSign`, `Text.Apart` — the signs, and characters that may stand next to each other;
* `SignsApart` — a text without two equal signs in a row;
* `Text.isFence`, `Sealed` — fixed texts that keep what is on their two sides apart, and texts that end in one;
* `Word.IsCalm` — what is asked of the names and literals of the source;
* `Expr.text_signsApart`, `Expr.text_without_doubled_signs` — the text of an expression.

Every two parts of a text have a fence between them, except for a unary operator and its operand.
-/

namespace ScriptLowering

/-! ### Signs -/

namespace Text

/-- The characters that are another token when they are doubled. -/
def isSign (c : Char) : Bool := c = '+' || c = '-'

/-- Whether the second character may follow the first. -/
def Apart (a b : Char) : Prop := isSign a = true → a ≠ b

instance (a b : Char) : Decidable (Apart a b) := inferInstanceAs (Decidable (_ → _))

/-- Characters stay apart when neither token stands among them. -/
theorem isChain_apart_iff {chars : List Char} :
    chars.IsChain Apart ↔ ¬ "++".toList <:+: chars ∧ ¬ "--".toList <:+: chars := by
  constructor
  · intro h
    refine ⟨fun hplus => ?_, fun hminus => ?_⟩
    · have hpair := List.IsChain.infix h hplus
      exact List.isChain_pair.mp hpair rfl rfl
    · have hpair := List.IsChain.infix h hminus
      exact List.isChain_pair.mp hpair rfl rfl
  · rintro ⟨hplus, hminus⟩
    refine (List.isChain_isInfix chars).imp fun a b hinfix hsign hab => ?_
    subst hab
    simp only [isSign, Bool.or_eq_true, decide_eq_true_eq] at hsign
    rcases hsign with rfl | rfl
    · exact hplus hinfix
    · exact hminus hinfix

/-- Characters without a sign stay apart. -/
theorem isChain_apart_of_signless {chars : List Char} (h : ∀ c ∈ chars, isSign c = false) : chars.IsChain Apart := by
  induction chars with
  | nil => exact .nil
  | cons c rest ih =>
    rw [List.forall_mem_cons] at h
    refine List.isChain_cons.mpr ⟨fun d _ hsign => ?_, ih h.2⟩
    rw [h.1] at hsign
    contradiction

end Text

/-- No two equal signs stand next to each other in the text. -/
def SignsApart (text : String) : Prop := text.toList.IsChain Text.Apart

/-- The text holds no sign. -/
def Signless (text : String) : Prop := ∀ c ∈ text.toList, Text.isSign c = false

theorem Signless.apart {text : String} (h : Signless text) : SignsApart text := Text.isChain_apart_of_signless h

@[simp]
theorem signless_append (first second : String) : Signless (first ++ second) ↔ Signless first ∧ Signless second := by
  simp only [Signless, String.toList_append, List.forall_mem_append]

theorem Signless.ofList {chars : List Char} (h : chars.all (!Text.isSign ·) = true) :
    Signless (String.ofList chars) := by
  intro c hc
  rw [String.toList_ofList] at hc
  simpa using List.all_eq_true.mp h c hc

/-- Digits are no signs. -/
theorem Text.isSign_of_isDigit {c : Char} (h : c.isDigit = true) : isSign c = false := by
  rw [isSign, Bool.or_eq_false_iff, decide_eq_false_iff_not, decide_eq_false_iff_not]
  constructor
  · rintro rfl
    exact absurd h (by decide)
  · rintro rfl
    exact absurd h (by decide)

theorem signless_nat (n : Nat) : Signless (toString n) := by
  intro c hc
  rw [Nat.toString_eq_ofList_toDigits, String.toList_ofList] at hc
  exact Text.isSign_of_isDigit (Nat.isDigit_of_mem_toDigits (by decide) (by decide) hc)

/-! ### Fences -/

/-- Whether a fixed text neither begins nor ends with a sign, and holds no doubled one. -/
def Text.isFence (chars : List Char) : Bool :=
  decide (chars.IsChain Apart) && chars.head?.any (!isSign ·) && chars.getLast?.any (!isSign ·)

/-- A text that can be followed by any other. -/
structure Sealed (text : String) : Prop where
  apart : SignsApart text
  last : ∀ c ∈ text.toList.getLast?, Text.isSign c = false

namespace Sealed

theorem append {first second : String} (hfirst : Sealed first) (hsecond : SignsApart second) :
    SignsApart (first ++ second) := by
  rw [SignsApart, String.toList_append, List.isChain_append]
  refine ⟨hfirst.apart, hsecond, fun c hc d _ hsign => ?_⟩
  rw [hfirst.last c hc] at hsign
  contradiction

end Sealed

/-- A fence keeps what comes after it apart from what is in front of it. -/
theorem SignsApart.thenFence {text : String} {fence : List Char} (h : SignsApart text)
    (hfence : Text.isFence fence = true) : Sealed (text ++ String.ofList fence) := by
  simp only [Text.isFence, Bool.and_eq_true, decide_eq_true_eq, Option.any_eq_true, Bool.not_eq_true'] at hfence
  obtain ⟨⟨hchain, first, hfirst, hfirstSign⟩, last, hlast, hlastSign⟩ := hfence
  constructor
  · rw [SignsApart, String.toList_append, String.toList_ofList, List.isChain_append]
    refine ⟨h, hchain, fun c _ d hd hsign => ?_⟩
    rw [hfirst] at hd
    rintro rfl
    rw [Option.mem_some_iff.mp hd, hsign] at hfirstSign
    contradiction
  · intro c hc
    rw [String.toList_append, String.toList_ofList, List.getLast?_append, hlast] at hc
    rw [← Option.mem_some_iff.mp hc]
    exact hlastSign

theorem signsApart_empty : SignsApart "" := List.IsChain.nil

theorem Sealed.fence {chars : List Char} (h : Text.isFence chars = true) : Sealed (String.ofList chars) := by
  have hempty := signsApart_empty.thenFence h
  rwa [String.empty_append] at hempty

theorem Sealed.thenFence {text : String} {fence : List Char} (h : Sealed text) (hfence : Text.isFence fence = true) :
    Sealed (text ++ String.ofList fence) :=
  h.apart.thenFence hfence

namespace SignsApart

/-- A text between two fences. -/
theorem between {text : String} {before after : List Char} (h : SignsApart text)
    (hbefore : Text.isFence before = true) (hafter : Text.isFence after = true) :
    SignsApart (String.ofList before ++ text ++ String.ofList after) :=
  (((Sealed.fence hbefore).append h).thenFence hafter).apart

theorem parenthesized {text : String} (h : SignsApart text) : SignsApart (Expr.parenthesized text) :=
  h.between rfl rfl

theorem thenParenthesized {first text : String} (hfirst : SignsApart first) (h : SignsApart text) :
    SignsApart (first ++ Expr.parenthesized text) := by
  rw [Expr.parenthesized, ← String.append_assoc, ← String.append_assoc]
  exact (((hfirst.thenFence rfl).append h).thenFence rfl).apart

/-- An access, which is a fence whether it goes through a chain or not. -/
theorem thenAccess {text : String} (h : SignsApart text) (chained : Bool) :
    Sealed (text ++ if chained then "?." else ".") := by
  split
  · exact h.thenFence rfl
  · exact h.thenFence rfl

/-- What a chain puts in front of brackets. -/
theorem thenChain {text : String} (h : SignsApart text) (chained : Bool) :
    SignsApart (text ++ if chained then "?." else "") := by
  split
  · exact (h.thenFence rfl).apart
  · rwa [String.append_empty]

/-- Texts with a comma between each two. -/
theorem join {texts : List String} (h : ∀ text ∈ texts, SignsApart text) : SignsApart (Text.joinWith ", " texts) := by
  fun_induction Text.joinWith ", " texts with
  | case1 => exact signsApart_empty
  | case2 text => exact h text List.mem_cons_self
  | case3 text next rest ih =>
    obtain ⟨htext, hrest⟩ := List.forall_mem_cons.mp h
    exact (htext.thenFence rfl).append (ih hrest)

end SignsApart

/-! ### Replaced characters -/

namespace Text

/-- What stands in place of other characters: something, and no sign. -/
def IsSubstitute (replacement : List Char) : Prop := replacement ≠ [] ∧ ∀ c ∈ replacement, isSign c = false

instance (replacement : List Char) : Decidable (IsSubstitute replacement) :=
  decidable_of_iff (replacement.isEmpty = false ∧ replacement.all (!isSign ·) = true) (by simp [IsSubstitute])

variable {replacement : List Char}

/-- What stands in place of other characters does not meet the signs after it. -/
theorem IsSubstitute.append (hr : IsSubstitute replacement) {chars : List Char} (h : chars.IsChain Apart) :
    (replacement ++ chars).IsChain Apart := by
  refine List.isChain_append.mpr ⟨isChain_apart_of_signless hr.2, h, fun c hc d _ hsign => ?_⟩
  rw [hr.2 c (List.mem_of_getLast? hc)] at hsign
  contradiction

/-- What stands in place of other characters does not begin with a sign. -/
theorem IsSubstitute.head (hr : IsSubstitute replacement) {chars : List Char} {sign : Char} (hsign : isSign sign = true) :
    (replacement ++ chars).head? ≠ some sign := by
  obtain ⟨first, rest, rfl⟩ := List.exists_cons_of_ne_nil hr.1
  intro hfirst
  rw [List.cons_append, List.head?_cons, Option.some.injEq] at hfirst
  have hsignless := hr.2 first List.mem_cons_self
  rw [hfirst, hsign] at hsignless
  contradiction

theorem head_replaceChar (hr : IsSubstitute replacement) {a sign : Char} (hsign : isSign sign = true)
    {text : List Char} (h : (replaceChar a replacement text).head? = some sign) : text.head? = some sign := by
  cases text with
  | nil => exact h
  | cons c rest =>
    rw [replaceChar, List.flatMap_cons] at h
    split at h
    · exact absurd h (hr.head hsign)
    · exact h

theorem isChain_replaceChar (hr : IsSubstitute replacement) (a : Char) {text : List Char}
    (h : text.IsChain Apart) : (replaceChar a replacement text).IsChain Apart := by
  induction text with
  | nil => exact .nil
  | cons c rest ih =>
    rw [List.isChain_cons] at h
    have hrest := ih h.2
    rw [replaceChar, List.flatMap_cons]
    split
    · exact hr.append hrest
    · refine List.isChain_cons.mpr ⟨fun d hd hsign hcd => ?_, hrest⟩
      subst hcd
      exact h.1 c (head_replaceChar hr hsign hd) hsign rfl

theorem head_replacePair (hr : IsSubstitute replacement) {a b sign : Char} (hsign : isSign sign = true)
    {text : List Char} (h : (replacePair a b replacement text).head? = some sign) : text.head? = some sign := by
  match text with
  | [] => exact h
  | [c] => exact h
  | c :: d :: rest =>
    rw [replacePair] at h
    split at h
    · exact absurd h (hr.head hsign)
    · exact h

theorem isChain_replacePair (hr : IsSubstitute replacement) (a b : Char) :
    ∀ {text : List Char}, text.IsChain Apart → (replacePair a b replacement text).IsChain Apart
  | [], h => h
  | [_], h => h
  | c :: d :: rest, h => by
    rw [replacePair]
    split
    · exact hr.append (isChain_replacePair hr a b h.tail.tail)
    · refine List.isChain_cons.mpr ⟨fun e he hsign hce => ?_, isChain_replacePair hr a b h.tail⟩
      subst hce
      exact (List.isChain_cons.mp h).1 c (head_replacePair hr hsign he) hsign rfl

end Text

theorem Quoted.literal_signsApart {text : String} (h : SignsApart text) : SignsApart (Quoted.literal text) := by
  have hescaped : SignsApart (Quoted.escape text) := by
    rw [SignsApart, Quoted.escape, String.toList_ofList]
    exact Text.isChain_replaceChar (by decide) _ <| Text.isChain_replaceChar (by decide) _ <|
      Text.isChain_replaceChar (by decide) _ <| Text.isChain_replaceChar (by decide) _ <|
        Text.isChain_replaceChar (by decide) _ h
  exact hescaped.between rfl rfl

theorem Template.literal_signsApart {text : String} (h : SignsApart text) : SignsApart (Template.literal text) := by
  have hescaped : SignsApart (Template.escape text) := by
    rw [SignsApart, Template.escape, String.toList_ofList]
    exact Text.isChain_replacePair (by decide) _ _ <| Text.isChain_replaceChar (by decide) _ <|
      Text.isChain_replaceChar (by decide) _ h
  exact hescaped.between rfl rfl

theorem Comment.inside_signsApart {text : String} (h : SignsApart text) : SignsApart (Comment.inside text) := by
  rw [SignsApart, Comment.inside, String.toList_ofList]
  exact Text.isChain_replacePair (by decide) _ _ h

/-- What can stand after `new` is the beginning of a callee. -/
theorem Mode.constructible_signsApart (mode : Mode) {callee : String} (h : SignsApart callee) :
    SignsApart (mode.constructible callee) := by
  cases mode with
  | native => exact h
  | managed =>
    rw [SignsApart, Mode.constructible, String.toList_ofList, Text.dropTrailing]
    split
    · exact h.take _
    · exact h

/-! ### Words -/

/-- A name without signs, or a literal without doubled ones. -/
def Word.IsCalm : Word → Prop
  | .name text => Signless text
  | .literal value => SignsApart (Word.literal value).text

theorem Identifier.safe_signless {name : String} (h : Signless name) : Signless (Identifier.safe name) := by
  rcases Identifier.safe_cases name with ⟨-, hsafe⟩ | ⟨digits, hdigits, hsafe⟩ | ⟨-, -, hsafe⟩
  · rw [hsafe, signless_append]
    exact ⟨h, Signless.ofList rfl⟩
  · obtain ⟨-, -, hall⟩ := Identifier.anonymousDigits?_eq_some hdigits
    rw [hsafe, signless_append]
    refine ⟨Signless.ofList rfl, fun c hc => ?_⟩
    rw [String.toList_ofList] at hc
    exact Text.isSign_of_isDigit (List.all_eq_true.mp hall c hc)
  · rw [hsafe]
    exact h

theorem Mode.reference_signsApart (mode : Mode) {name : String} (h : Signless name) :
    SignsApart (mode.reference name) := by
  cases mode with
  | native => exact h.apart
  | managed => exact (h.apart.thenFence rfl).apart

namespace SourceType

theorem nameText_signless {name : String} (h : Signless name) : Signless (nameText name) := by
  unfold nameText
  split
  case h_23 => exact h
  all_goals exact Signless.ofList rfl

/-- The text of a type holds no sign when its names hold none. -/
theorem text_signless {type : SourceType} (h : ∀ name ∈ type.names, Signless name) : Signless type.text := by
  induction type with
  | named name => exact nameText_signless (h name List.mem_cons_self)
  | array element ih =>
    rw [text, arrayText]
    split
    · exact (signless_append _ _).mpr ⟨(signless_append _ _).mpr ⟨Signless.ofList rfl, ih h⟩, Signless.ofList rfl⟩
    · exact (signless_append _ _).mpr ⟨ih h, Signless.ofList rfl⟩
  | dictionary key value hkey hvalue =>
    rw [names, List.forall_mem_append] at h
    simp only [text, signless_append, hkey h.1, hvalue h.2, and_true]
    exact ⟨⟨Signless.ofList rfl, Signless.ofList rfl⟩, Signless.ofList rfl⟩
  | optional wrapped ih =>
    rw [text, optionalText]
    split
    · exact ih h
    · exact (signless_append _ _).mpr ⟨ih h, Signless.ofList rfl⟩

end SourceType

/-- A literal is written without doubled signs when the source spells it without them. -/
theorem Literal.text_signsApart {value : Literal} (h : (Word.literal value).IsCalm) : SignsApart value.text := by
  fun_cases Literal.text value with
  | case1 => exact (Sealed.fence rfl).apart
  | case2 => exact (Sealed.fence rfl).apart
  | case3 => exact h
  | case4 => exact Template.literal_signsApart h
  | case5 => exact Quoted.literal_signsApart h
  | case6 => exact h
  | case7 => exact h

/-! ### Parts of expressions -/

theorem UnaryOperator.isSign_of_symbol {op : UnaryOperator} (h : Text.isSign op.symbol = true) : op.isSign = true := by
  cases op <;> revert h <;> decide

/-- A unary operator and its operand do not make a doubled sign: between two equal ones there is a blank. -/
theorem UnaryOperator.apply_signsApart (op : UnaryOperator) {operand : String} (h : SignsApart operand) :
    SignsApart (op.apply operand) := by
  rw [UnaryOperator.apply]
  split
  · have htoken : SignsApart op.token := by
      rw [SignsApart, UnaryOperator.token, String.toList_singleton]
      exact .singleton _
    exact (htoken.thenFence rfl).append h
  · next hdoubled =>
    rw [SignsApart, String.toList_append, UnaryOperator.token, String.toList_singleton, List.singleton_append]
    refine List.isChain_cons.mpr ⟨fun first hfirst hsymbol hsame => ?_, h⟩
    rw [← hsame] at hfirst
    exact hdoubled ⟨isSign_of_symbol hsymbol, hfirst⟩

theorem ParameterBag.argumentKey_signless {label : Option String} (index : Nat)
    (h : ∀ text, label = some text → Signless text) : Signless (ParameterBag.argumentKey index label) := by
  have hposition : Signless (ParameterBag.positionKey index) := by
    rw [ParameterBag.positionKey, signless_append]
    exact ⟨Signless.ofList rfl, signless_nat (index + 1)⟩
  cases label with
  | none => exact hposition
  | some text =>
    rw [ParameterBag.argumentKey]
    split
    · exact hposition
    · exact h text rfl

theorem ParameterBag.argumentText_signsApart {entries : List String} (h : ∀ entry ∈ entries, SignsApart entry) :
    SignsApart (ParameterBag.argumentText entries) := by
  cases entries with
  | nil => exact signsApart_empty
  | cons => exact (SignsApart.join h).between rfl rfl

namespace Expr

theorem dictionaryText_signsApart {entries : List String} (h : ∀ entry ∈ entries, SignsApart entry) :
    SignsApart (dictionaryText entries) := by
  cases entries with
  | nil => exact (Sealed.fence rfl).apart
  | cons => exact (SignsApart.join h).between rfl rfl

/-- The numeral of a number begins with one sign at most. -/
theorem int_signsApart (n : Int) : SignsApart (toString n) := by
  cases n with
  | ofNat n => exact (signless_nat n).apart
  | negSucc n =>
    show ("-" ++ toString (n + 1)).toList.IsChain Text.Apart
    have hdigits := signless_nat (n + 1)
    rw [String.toList_append]
    refine List.isChain_cons.mpr ⟨fun d hd _ hsame => ?_, hdigits.apart⟩
    have hd := hdigits d (List.mem_of_head? hd)
    rw [← hsame] at hd
    contradiction

theorem exclusiveLimit_signsApart (upper : Expr) (inclusive : Bool) {text : String} (h : SignsApart text) :
    SignsApart (upper.exclusiveLimit inclusive text) := by
  have hopen : SignsApart (text ++ " + 1") := (h.thenFence rfl).apart
  unfold exclusiveLimit
  split
  · split
    · next numeral =>
      cases hnext : Decimal.successor? numeral with
      | none => exact hopen
      | some next =>
        rw [Decimal.successor?] at hnext
        obtain ⟨value, -, hnext⟩ := Option.bind_eq_some_iff.mp hnext
        split at hnext
        · rw [Option.getD_some, ← Option.some.inj hnext]
          exact int_signsApart (value + 1)
        · contradiction
    · exact hopen
  · exact h

theorem entryKey_signsApart (key : Expr) {text : String} (h : SignsApart text) : SignsApart (key.entryKey text) := by
  have hbrackets : SignsApart ("[" ++ text ++ "]") := h.between rfl rfl
  unfold entryKey
  split
  · exact h
  · split
    · exact hbrackets
    · exact h
  · exact hbrackets

/-- An operator stands between blanks. -/
theorem operation_signsApart {left token right : String} (hleft : SignsApart left)
    (htoken : SignsApart token) (hright : SignsApart right) :
    SignsApart (left ++ " " ++ token ++ " " ++ right) :=
  (((hleft.thenFence rfl).append htoken).thenFence rfl).append hright

end Expr

theorem AssignmentOperator.token_signsApart (op : AssignmentOperator) : SignsApart op.token := by
  cases op <;> simp [SignsApart, AssignmentOperator.token, Text.Apart, Text.isSign]

theorem BinaryOperator.token_signsApart (op : BinaryOperator) : SignsApart op.token := by
  cases op <;> simp [SignsApart, BinaryOperator.token, Text.Apart, Text.isSign]

theorem LogicalOperator.token_signsApart (op : LogicalOperator) : SignsApart op.token := by
  cases op <;> simp [SignsApart, LogicalOperator.token, Text.Apart, Text.isSign]

/-! ### Expressions -/

namespace Expr

/-- The expression is written without doubled signs when its words are calm. -/
def WritesSignsApart (mode : Mode) (e : Expr) : Prop :=
  AllWords Word.IsCalm e.nodes → Gives (e.text mode) SignsApart

variable {mode : Mode}

theorem texts_signsApart {items : List Expr} (h : ∀ item ∈ items, WritesSignsApart mode item)
    (hwords : AllWords Word.IsCalm (itemNodes items)) :
    Gives (texts mode items) fun texts => ∀ text ∈ texts, SignsApart text := by
  induction items with
  | nil => exact Outcome.pure nofun
  | cons item rest ih =>
    obtain ⟨hitem, hrest⟩ := List.forall_mem_cons.mp h
    rw [itemNodes, allWords_append] at hwords
    rw [texts]
    refine (hitem hwords.1).bind fun first hfirst => (ih hrest hwords.2).bind fun others hothers => ?_
    exact Outcome.pure (List.forall_mem_cons.mpr ⟨hfirst, hothers⟩)

theorem argumentTexts_signsApart {arguments : List Argument} (index : Nat)
    (h : ∀ argument ∈ arguments, WritesSignsApart mode argument.value)
    (hlabels : ∀ argument ∈ arguments, ∀ label, argument.label = some label → Signless label)
    (hwords : AllWords Word.IsCalm (argumentNodes arguments)) :
    Gives (argumentTexts mode index arguments) fun entries => ∀ entry ∈ entries, SignsApart entry := by
  induction arguments generalizing index with
  | nil => exact Outcome.pure nofun
  | cons argument rest ih =>
    obtain ⟨label, value⟩ := argument
    obtain ⟨hvalue, hrest⟩ := List.forall_mem_cons.mp h
    obtain ⟨hlabel, hlabels⟩ := List.forall_mem_cons.mp hlabels
    rw [argumentNodes, allWords_append] at hwords
    rw [argumentTexts]
    refine (hvalue hwords.1).bind fun text htext => ?_
    refine (ih (index + 1) hrest hlabels hwords.2).bind fun others hothers => ?_
    refine Outcome.pure (List.forall_mem_cons.mpr ⟨?_, hothers⟩)
    exact ((ParameterBag.argumentKey_signless index hlabel).apart.thenFence rfl).append htext

theorem entryTexts_signsApart {entries : List DictionaryEntry}
    (h : ∀ entry ∈ entries, WritesSignsApart mode entry.key ∧ WritesSignsApart mode entry.value)
    (hwords : AllWords Word.IsCalm (entryNodes entries)) :
    Gives (entryTexts mode entries) fun entries => ∀ entry ∈ entries, SignsApart entry := by
  induction entries with
  | nil => exact Outcome.pure nofun
  | cons entry rest ih =>
    obtain ⟨key, value⟩ := entry
    obtain ⟨⟨hkey, hvalue⟩, hrest⟩ := List.forall_mem_cons.mp h
    rw [entryNodes, allWords_append, allWords_append] at hwords
    rw [entryTexts]
    refine (hkey hwords.1).bind fun keyText hkeyText => (hvalue hwords.2.1).bind fun text htext => ?_
    refine (ih hrest hwords.2.2).bind fun others hothers => ?_
    refine Outcome.pure (List.forall_mem_cons.mpr ⟨?_, hothers⟩)
    exact ((entryKey_signsApart key hkeyText).thenFence rfl).append htext

/-- **Rendering doubles no sign**: the parts of an expression are put together with fences between them. -/
theorem text_signsApart (mode : Mode) (e : Expr) : WritesSignsApart mode e := by
  induction e using Expr.induction with
  | assign target operator value htarget hvalue =>
    intro hwords
    rw [nodes, allWords_cons, allWords_append] at hwords
    rw [text]
    refine (Gives.unknown _).bind fun op _ => (htarget hwords.2.1).bind fun target htarget => ?_
    refine (hvalue hwords.2.2).bind fun value hvalue => Outcome.pure ?_
    exact operation_signsApart htarget op.token_signsApart hvalue
  | ternary condition thenValue elseValue hcondition hthen helse =>
    intro hwords
    rw [nodes, allWords_cons, allWords_append, allWords_append] at hwords
    rw [text]
    refine (hcondition hwords.2.1).bind fun condition hcondition => ?_
    refine (hthen hwords.2.2.1).bind fun first hfirst => (helse hwords.2.2.2).bind fun second hsecond => ?_
    exact Outcome.pure
      ((((hcondition.thenFence rfl).append hfirst).thenFence rfl).append hsecond).parenthesized
  | binary operator left right hleft hright =>
    intro hwords
    rw [nodes, allWords_cons, allWords_append] at hwords
    rw [text]
    refine (Gives.unknown _).bind fun op _ => (hleft hwords.2.1).bind fun left hleft => ?_
    refine (hright hwords.2.2).bind fun right hright => Outcome.pure ?_
    exact (operation_signsApart hleft op.token_signsApart hright).parenthesized
  | logical operator left right hleft hright =>
    intro hwords
    rw [nodes, allWords_cons, allWords_append] at hwords
    rw [text]
    refine (Gives.unknown _).bind fun op _ => (hleft hwords.2.1).bind fun left hleft => ?_
    refine (hright hwords.2.2).bind fun right hright => Outcome.pure ?_
    exact (operation_signsApart hleft op.token_signsApart hright).parenthesized
  | unary operator operand hoperand =>
    intro hwords
    rw [nodes, allWords_cons] at hwords
    rw [text]
    refine (Gives.unknown _).bind fun op _ => (hoperand hwords.2).bind fun operand hoperand => ?_
    exact Outcome.pure (op.apply_signsApart hoperand)
  | call callee arguments construction hcallee harguments =>
    intro hwords
    rw [nodes, allWords_cons, allWords_append] at hwords
    obtain ⟨hown, hcalleeWords, hargumentWords⟩ := hwords
    have hlabels : ∀ argument ∈ arguments, ∀ label, argument.label = some label → Signless label := by
      intro argument hargument label hlabel
      exact hown (.name label) (List.mem_map_of_mem (List.mem_filterMap.mpr ⟨argument, hargument, hlabel⟩))
    rw [text]
    refine (argumentTexts_signsApart 0 harguments hlabels hargumentWords).bind fun entries hentries => ?_
    refine (hcallee hcalleeWords).bind fun base hbase => ?_
    have hbag := ParameterBag.argumentText_signsApart hentries
    split
    · refine Outcome.pure (SignsApart.thenParenthesized ?_ hbag)
      exact (Sealed.fence rfl).append (mode.constructible_signsApart hbase)
    · exact Outcome.pure ((hbase.thenChain _).thenParenthesized hbag)
  | member object name hobject =>
    intro hwords
    rw [nodes, allWords_cons] at hwords
    have hname : Signless name := hwords.1 (.name name) List.mem_cons_self
    rw [text]
    refine (hobject hwords.2).bind fun base hbase => Outcome.pure ?_
    exact (hbase.thenAccess _).append (Identifier.safe_signless hname).apart
  | slice object lower upper inclusive hobject hlower hupper =>
    intro hwords
    rw [nodes, nodes, allWords_cons, allWords_append, allWords_cons, allWords_append] at hwords
    obtain ⟨-, hobjectWords, -, hlowerWords, hupperWords⟩ := hwords
    rw [text]
    refine (hobject hobjectWords).bind fun base hbase => (hlower hlowerWords).bind fun lower hlower => ?_
    refine (hupper hupperWords).bind fun limit hlimit => Outcome.pure ?_
    refine (SignsApart.thenFence ?_ rfl).apart
    exact ((((hbase.thenAccess _).thenFence rfl).append hlower).thenFence rfl).append
      (exclusiveLimit_signsApart upper inclusive hlimit)
  | index object position hrange hobject hposition =>
    intro hwords
    rw [nodes, allWords_cons, allWords_append] at hwords
    rw [text_index mode object hrange]
    refine (hobject hwords.2.1).bind fun base hbase => (hposition hwords.2.2).bind fun inner hinner => ?_
    exact Outcome.pure ((((hbase.thenChain _).thenFence rfl).append hinner).thenFence rfl).apart
  | optionalChain value forced hvalue =>
    intro hwords
    rw [nodes, allWords_cons] at hwords
    rw [text]
    exact hvalue hwords.2
  | cast value target hvalue =>
    intro hwords
    rw [nodes, allWords_cons] at hwords
    rw [text]
    exact hvalue hwords.2
  | typeTest value target hvalue =>
    intro hwords
    rw [nodes, allWords_cons] at hwords
    have htarget : SignsApart target.text :=
      (SourceType.text_signless fun name hname => hwords.1 (.name name) (List.mem_map_of_mem hname)).apart
    rw [text]
    refine (hvalue hwords.2).bind fun subject hsubject => Outcome.pure ?_
    refine (SignsApart.thenFence ?_ rfl).apart
    exact (((Sealed.fence rfl).append (Comment.inside_signsApart hsubject)).thenFence rfl).append
      (Comment.inside_signsApart htarget)
  | attempt value kind hvalue =>
    intro hwords
    rw [nodes, allWords_cons] at hwords
    rw [text]
    refine (hvalue hwords.2).bind fun text htext => ?_
    cases kind with
    | optional => exact Outcome.pure (htext.between rfl rfl)
    | plain => exact Outcome.pure htext
    | forced => exact Outcome.pure htext
  | literal value =>
    intro hwords
    rw [nodes, allWords_cons] at hwords
    exact Outcome.pure (Literal.text_signsApart (hwords.1 _ List.mem_cons_self))
  | itself => exact fun _ => Outcome.pure (Sealed.fence rfl).apart
  | var name =>
    intro hwords
    rw [nodes, allWords_cons] at hwords
    have hname : Signless name := hwords.1 (.name name) List.mem_cons_self
    exact Outcome.pure (mode.reference_signsApart (Identifier.safe_signless hname))
  | grouping inner hinner =>
    intro hwords
    rw [nodes, allWords_cons] at hwords
    rw [text]
    refine (hinner hwords.2).bind fun text htext => Outcome.pure ?_
    split
    · exact htext
    · exact htext.parenthesized
  | array items hitems =>
    intro hwords
    rw [nodes, allWords_cons] at hwords
    rw [text]
    exact (texts_signsApart hitems hwords.2).bind fun items hitems =>
      Outcome.pure ((SignsApart.join hitems).between rfl rfl)
  | dictionary entries hentries =>
    intro hwords
    rw [nodes, allWords_cons] at hwords
    rw [text]
    exact (entryTexts_signsApart hentries hwords.2).bind fun entries hentries =>
      Outcome.pure (dictionaryText_signsApart hentries)
  | range lower upper inclusive hlower hupper =>
    intro hwords
    rw [nodes, allWords_cons, allWords_append] at hwords
    rw [text]
    refine (hlower hwords.2.1).bind fun lower hlower => (hupper hwords.2.2).bind fun limit hlimit => ?_
    refine Outcome.pure (SignsApart.thenFence ?_ rfl).apart
    exact (((Sealed.fence rfl).append hlower).thenFence rfl).append (exclusiveLimit_signsApart upper inclusive hlimit)

/-- The words of an expression, in source order. -/
def words (e : Expr) : List Word := e.nodes.flatMap Node.words

/-- **No increment and no decrement.**  When no word of an expression holds `++` or `--`, and no name, label or name of
a type holds a sign at all, the text of the expression holds neither token. -/
theorem text_without_doubled_signs {mode : Mode} {e : Expr} {text : String}
    (hpairs : ∀ word ∈ e.words, ¬ "++".toList <:+: word.text.toList ∧ ¬ "--".toList <:+: word.text.toList)
    (hnames : ∀ name, Word.name name ∈ e.words → '+' ∉ name.toList ∧ '-' ∉ name.toList)
    (h : e.text mode = .ok text) : ¬ "++".toList <:+: text.toList ∧ ¬ "--".toList <:+: text.toList := by
  have hcalm : AllWords Word.IsCalm e.nodes := by
    intro word hword
    cases word with
    | name name =>
      obtain ⟨hplus, hminus⟩ := hnames name hword
      intro c hc
      rw [Text.isSign, Bool.or_eq_false_iff, decide_eq_false_iff_not, decide_eq_false_iff_not]
      exact ⟨ne_of_mem_of_not_mem hc hplus, ne_of_mem_of_not_mem hc hminus⟩
    | literal value => exact Text.isChain_apart_iff.mpr (hpairs _ hword)
  exact Text.isChain_apart_iff.mp ((text_signsApart mode e hcalm).of_eq_ok h)

/-- Signs of three kinds in a row: two operators in front of a negative literal, a subtraction, and a bound. -/
theorem text_without_doubled_signs_threefold :
    let e : Expr := .binary "-" (.unary "-" (.unary "-" (.literal (.int "-1"))))
      (.range (.unary "+" (.variable "a")) (.literal (.string "+-" false)) true)
    (∀ word ∈ e.words, ¬ "++".toList <:+: word.text.toList ∧ ¬ "--".toList <:+: word.text.toList) ∧
      (∀ name, Word.name name ∈ e.words → '+' ∉ name.toList ∧ '-' ∉ name.toList) ∧
      e.text .managed = .ok "(- - -1 - __range(+a.value, \"+-\" + 1))" ∧
      ¬ "--".toList <:+: "(- - -1 - __range(+a.value, \"+-\" + 1))".toList := by
  intro e
  have hpairs : ∀ word ∈ e.words, ¬ "++".toList <:+: word.text.toList ∧ ¬ "--".toList <:+: word.text.toList := by
    decide
  have hnames : ∀ name, Word.name name ∈ e.words → '+' ∉ name.toList ∧ '-' ∉ name.toList := by
    intro name hname
    have hwords : e.words = [.literal (.int "-1"), .name "a", .literal (.string "+-" false)] := rfl
    obtain rfl : name = "a" := by simpa [hwords] using hname
    decide
  have htext : e.text .managed = .ok "(- - -1 - __range(+a.value, \"+-\" + 1))" := rfl
  exact ⟨hpairs, hnames, htext, (text_without_doubled_signs hpairs hnames htext).2⟩

end Expr

end ScriptLowering
