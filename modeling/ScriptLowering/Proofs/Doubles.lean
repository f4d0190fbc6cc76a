import ScriptLowering.Proofs.Spelling

/-!
# Double literals are written once, in their order

Characters that neither the lowering nor any other word of a statement writes mark what comes from its Double
literals.  In the script they stand exactly as in the literals, one literal after another.

* `Foreign` — characters that the lowering does not write by itself;
* `Silent` — a text without marks;
* `Phrase.marks_eq` — the marks of a phrase are those of the literals it writes;
* `Stmt.lower_marks` — the marks of a script;
* `inclusive_bound_writes_digits` — why a digit is no mark: a bound may be written as another number.
-/

namespace ScriptLowering

/-- Characters that the lowering does not write by itself.  It writes numbers of its own: positions, the numbers
of temporaries and the number after a bound. -/
structure Foreign (m : Char → Bool) : Prop where
  fixed : ∀ c ∈ fixedCharacters, m c = false
  digit : ∀ c : Char, c.isDigit = true → m c = false

/-- None of the characters is a mark. -/
def Silent (m : Char → Bool) (text : List Char) : Prop := ∀ c ∈ text, m c = false

variable {m : Char → Bool}

theorem Silent.filter {text : List Char} (h : Silent m text) : text.filter m = [] :=
  List.filter_eq_nil_iff.mpr fun c hc => Bool.not_eq_true _ ▸ h c hc

theorem Silent.append {first second : List Char} (hfirst : Silent m first) (hsecond : Silent m second) :
    Silent m (first ++ second) :=
  List.forall_mem_append.mpr ⟨hfirst, hsecond⟩

theorem Foreign.silent (hm : Foreign m) {chars : List Char} (h : chars.all fixedCharacters.contains = true) :
    Silent m chars :=
  fun c hc => hm.fixed c (List.contains_iff_mem.mp (List.all_eq_true.mp h c hc))

/-- A text that the lowering writes itself holds no mark. -/
theorem Foreign.silent_text (hm : Foreign m) {chars : List Char} (h : chars.all fixedCharacters.contains = true) :
    Silent m (String.ofList chars).toList := by
  rw [String.toList_ofList]
  exact hm.silent h

/-! ### Replaced characters -/

namespace Text

theorem silent_replaceChar {c : Char} {replacement text : List Char} (hr : Silent m replacement)
    (ht : Silent m text) : Silent m (replaceChar c replacement text) := by
  intro d hd
  obtain ⟨e, he, hde⟩ := List.mem_flatMap.mp hd
  split at hde
  · exact hr d hde
  · rw [List.mem_singleton.mp hde]
    exact ht e he

/-- Replacing unmarked characters by unmarked ones keeps the marks. -/
theorem filter_replacePair {a b : Char} {replacement : List Char} (ha : m a = false) (hb : m b = false)
    (hr : Silent m replacement) (text : List Char) :
    (replacePair a b replacement text).filter m = text.filter m := by
  fun_induction replacePair a b replacement text with
  | case1 c d rest hpair ih =>
    obtain ⟨rfl, rfl⟩ := hpair
    rw [List.filter_append, hr.filter, List.nil_append, ih, List.filter_cons_of_neg (ne_true_of_eq_false ha),
      List.filter_cons_of_neg (ne_true_of_eq_false hb)]
  | case2 c d rest _ ih => rw [List.filter_cons, List.filter_cons, ih]
  | case3 => rfl

/-- Taking an unmarked ending off keeps the marks. -/
theorem filter_dropTrailing {ending : List Char} (h : Silent m ending) (text : List Char) :
    (dropTrailing ending text).filter m = text.filter m := by
  rw [dropTrailing]
  split
  · next hsuffix =>
    obtain ⟨start, rfl⟩ := List.isSuffixOf_iff_suffix.mp hsuffix
    rw [List.length_append, Nat.add_sub_cancel, List.take_left, List.filter_append, h.filter, List.append_nil]
  · rfl

end Text

theorem Quoted.literal_silent (hm : Foreign m) {text : String} (h : Silent m text.toList) :
    Silent m (Quoted.literal text).toList := by
  have hquote : Silent m ['"'] := hm.silent rfl
  have hescaped : Silent m (Quoted.escapeChars text.toList) :=
    Text.silent_replaceChar (hm.silent rfl) (Text.silent_replaceChar (hm.silent rfl) (Text.silent_replaceChar
      (hm.silent rfl) (Text.silent_replaceChar (hm.silent rfl) (Text.silent_replaceChar (hm.silent rfl) h))))
  rw [Quoted.literal, Quoted.escape, String.toList_append, String.toList_append, String.toList_ofList,
    String.toList_ofList]
  exact (hquote.append hescaped).append hquote

theorem Template.literal_silent (hm : Foreign m) {text : String} (h : Silent m text.toList) :
    Silent m (Template.literal text).toList := by
  have hquote : Silent m ['`'] := hm.silent rfl
  have hescaped : Silent m (Template.escapeChars text.toList) := by
    have hquoted : Silent m (Text.replaceChar '`' ['\\', '`'] (Text.replaceChar '\\' ['\\', '\\'] text.toList)) :=
      Text.silent_replaceChar (hm.silent rfl) (Text.silent_replaceChar (hm.silent rfl) h)
    have hsubstitution : Silent m ['\\', '$', '{'] := hm.silent rfl
    have hfilter : (Template.escapeChars text.toList).filter m = [] := by
      rw [Template.escapeChars, Text.filter_replacePair (hm.fixed '$' (by decide)) (hm.fixed '{' (by decide))
        hsubstitution, hquoted.filter]
    exact fun c hc => Bool.eq_false_iff.mpr (List.filter_eq_nil_iff.mp hfilter c hc)
  rw [Template.literal, Template.escape, String.toList_append, String.toList_append, String.toList_ofList,
    String.toList_ofList]
  exact (hquote.append hescaped).append hquote

/-! ### Marks of phrases -/

/-- The marks of some texts, one after another. -/
def marks (m : Char → Bool) (texts : List String) : List Char := texts.flatMap (·.toList.filter m)

theorem marks_append (first second : List String) : marks m (first ++ second) = marks m first ++ marks m second :=
  List.flatMap_append

/-- The words other than Double literals hold no mark. -/
def Unmarked (m : Char → Bool) (word : Word) : Prop := word.isDouble = false → Silent m word.text.toList

theorem Literal.marks_text (hm : Foreign m) {value : Literal} (h : Unmarked m (.literal value)) :
    value.text.toList.filter m = marks m value.doubles := by
  cases value with
  | double text => exact (List.append_nil _).symm
  | int text => exact (h rfl).filter
  | string text multiline =>
    cases multiline with
    | true => exact (Template.literal_silent hm (h rfl)).filter
    | false => exact (Quoted.literal_silent hm (h rfl)).filter
  | generic text =>
    have hnull : Silent m "null".toList := hm.silent_text rfl
    cases text with
    | none => exact hnull.filter
    | some text =>
      rw [Literal.text]
      split
      · exact hnull.filter
      · exact (h rfl).filter

/-- **The marks of a phrase** are those of the Double literals that it writes. -/
theorem Phrase.marks_eq {W : Word → Prop} {p q : Pending} {text : String} (hm : Foreign m)
    (hW : ∀ word, W word → Unmarked m word) (h : Phrase W p q text) :
    text.toList.filter m ++ marks m q.doubles = marks m p.doubles := by
  induction h with
  | fixed chars h => rw [String.toList_ofList, (hm.silent (closersAfter_eq_some.mp h).2).filter, List.nil_append]
  | append _ _ hfirst hsecond => rw [String.toList_append, List.filter_append, List.append_assoc, hsecond, hfirst]
  | @digits p chars hdigits =>
    have hsilent : Silent m chars := fun c hc => hm.digit c (hdigits c hc)
    rw [String.toList_ofList, hsilent.filter, List.nil_append]
  | @name p text hname =>
    have hsilent : Silent m text.toList := hW _ hname rfl
    rw [hsilent.filter, List.nil_append]
  | literal hvalue => rw [Literal.marks_text hm (hW _ hvalue), marks_append]
  | quoted _ ih =>
    have hsilent := List.filter_eq_nil_iff.mp (List.append_left_eq_self.mp ih)
    rw [(Quoted.literal_silent hm fun c hc => Bool.eq_false_iff.mpr (hsilent c hc)).filter, List.nil_append]
  | @typeTest a b before after subject target _ _ hsubject htarget =>
    have hstart : Silent m "true /* ".toList := hm.silent_text rfl
    have hmiddle : Silent m " is ".toList := hm.silent_text rfl
    have hend : Silent m " */".toList := hm.silent_text rfl
    have hinside : ∀ text : String, (Comment.inside text).toList.filter m = text.toList.filter m := by
      intro text
      rw [Comment.inside, String.toList_ofList, Comment.insideChars]
      exact Text.filter_replacePair (hm.fixed '*' (by decide)) (hm.fixed '/' (by decide)) (hm.silent rfl) _
    simp only [String.toList_append, List.filter_append, hstart.filter, hmiddle.filter, hend.filter, hinside,
      List.nil_append, List.append_nil, List.append_assoc]
    rw [htarget, hsubject]
  | @construction a before between after callee bag mode _ _ hcallee hbag =>
    have hstart : Silent m "new ".toList := hm.silent_text rfl
    have hcallable : (mode.constructible callee).toList.filter m = callee.toList.filter m := by
      cases mode with
      | native => rfl
      | managed =>
        rw [Mode.constructible, String.toList_ofList]
        exact Text.filter_dropTrailing (hm.silent_text rfl) _
    rw [String.toList_append, String.toList_append, List.filter_append, List.filter_append, hstart.filter,
      List.nil_append, hcallable, List.append_assoc, hbag, hcallee]

/-! ### Marks of scripts -/

/-- **Every Double literal is written exactly once, and in source order.**  Take any set of characters without
digits that stand in no fixed text and in no word of the statement but its Double literals.  In the script they
stand exactly as in those literals, one after another. -/
theorem Stmt.lower_marks {m : Char → Bool} {mode : Mode} {statement : Stmt} {text : String}
    (hfixed : ∀ c ∈ fixedCharacters, m c = false) (hdigit : ∀ c : Char, c.isDigit = true → m c = false)
    (hwords : ∀ word ∈ statement.words, word.isDouble = false → ∀ c ∈ word.text.toList, m c = false)
    (h : statement.lower mode = .ok text) :
    text.toList.filter m = statement.doubles.flatMap (·.toList.filter m) := by
  have hphrase := (Stmt.lower_phrase hwords h).marks_eq ⟨hfixed, hdigit⟩ fun _ hword => hword
  have hnone : marks m [] = [] := rfl
  rwa [hnone, List.append_nil] at hphrase

/-- The value of an `if let` and the condition of a loop below it, each with marks of its own. -/
theorem lower_marks_unwrapped_call :
    let m : Char → Bool := ['E', 'X', 'P'].contains
    let statement : Stmt := .ifLet "v" (.call (.variable "f") [⟨some "by", .literal (.double "1E5")⟩] false)
      [.repeatWhile [.blank] (.binary "<" (.literal (.double "0X1P3")) (.variable "v"))] none
    let text := "const __opt0 = f(\x7b by: 1E5 \x7d);\nif (!__isNil(__opt0)) \x7b\n  const v = __opt0;\n" ++
      "  do \x7b\n    ;\n  \x7d while (0X1P3 < v);\n\x7d\n"
    statement.lower .native = .ok text ∧ text.toList.filter m = ['E', 'X', 'P'] := by
  intro m statement text
  have hlower : statement.lower .native = .ok text := rfl
  have hfixed : fixedCharacters.all (fun c => !m c) = true := rfl
  have hdigit : ∀ c : Char, c.isDigit = true → m c = false := by
    intro c hc
    have hletters : ['E', 'X', 'P'].all (fun d => !d.isDigit) = true := rfl
    cases hmark : m c with
    | false => rfl
    | true =>
      have hletter := List.all_eq_true.mp hletters c (List.contains_iff_mem.mp hmark)
      rw [hc] at hletter
      exact nomatch hletter
  refine ⟨hlower, Stmt.lower_marks (fun c hc => ?_) hdigit (Word.all_chars rfl) hlower⟩
  exact Bool.not_eq_true' _ |>.mp (List.all_eq_true.mp hfixed c hc)

/-- A digit may come from no literal at all: the bound 8 of an inclusive range is written as the number after
it. -/
theorem inclusive_bound_writes_digits :
    ¬ ∀ (m : Char → Bool) (mode : Mode) (statement : Stmt) (text : String),
      (∀ c ∈ fixedCharacters, m c = false) →
      (∀ word ∈ statement.words, word.isDouble = false → ∀ c ∈ word.text.toList, m c = false) →
      statement.lower mode = .ok text →
      text.toList.filter m = statement.doubles.flatMap (·.toList.filter m) := by
  intro h
  have hfixed : fixedCharacters.all (fun c => !(c == '9')) = true := rfl
  have hnine := h (· == '9') .native (.expr (.range (.literal (.int "0")) (.literal (.int "8")) true))
    "__range(0, 9);\n" (fun c hc => Bool.not_eq_true' _ |>.mp (List.all_eq_true.mp hfixed c hc))
    (Word.all_chars rfl) rfl
  exact absurd hnine (by decide)

end ScriptLowering
