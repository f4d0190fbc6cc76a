import ScriptLowering.Proofs.Spelling

/-!
# Scripts are lexically well formed

Source text cannot break out of its literal: a lexer ends every script in code, with all brackets closed.

* `Lexer.special` — the characters that mean something to the lexer in code;
* `Quoted.scan_literal`, `Template.scan_literal`, `Comment.scan_inside` — the lexer passes over literals and stays
  in comments, whatever the text in them;
* `Mode.scan_constructible` — leaving out an access at the end keeps the lexer in code;
* `Phrase.scan_eq` — a phrase takes the lexer from code to code and closes the brackets it should;
* `Stmt.lower_scan` — the lexer on a whole script.
-/

namespace ScriptLowering

namespace Lexer

/-- The characters that mean something to the lexer in code. -/
def special : List Char := ['(', ')', '[', ']', '{', '}', '"', '`', '/']

theorem inCode_plain {c : Char} (h : c ∉ special) (closers : List Char) :
    inCode closers c = some ⟨.code, closers⟩ := by
  unfold inCode
  split
  case h_10 => rfl
  all_goals exact absurd (by decide) h

theorem scan_plain {text : List Char} (h : ∀ c ∈ text, c ∉ special) (closers : List Char) :
    scan ⟨.code, closers⟩ text = some ⟨.code, closers⟩ := by
  induction text with
  | nil => rfl
  | cons c rest ih =>
    obtain ⟨hc, hrest⟩ := List.forall_mem_cons.mp h
    rw [scan, step, inCode_plain hc]
    exact ih hrest

theorem digit_plain {c : Char} (h : c.isDigit = true) : c ∉ special := by
  have hspecial : special.all (fun d => !d.isDigit) = true := rfl
  intro hc
  have hplain := List.all_eq_true.mp hspecial c hc
  rw [h] at hplain
  exact nomatch hplain

end Lexer

/-! ### Between double quotes -/

namespace Quoted

/-- One character stays between the quotes, and no line ends there. -/
theorem scan_escapeChar (closers : List Char) (c : Char) :
    Lexer.scan ⟨.quoted, closers⟩ (escapeChars [c]) = some ⟨.quoted, closers⟩ := by
  by_cases hescaped : c ∈ ['\\', '"', '\n', '\r', '\t']
  · simp only [List.mem_cons, List.not_mem_nil, or_false] at hescaped
    rcases hescaped with rfl | rfl | rfl | rfl | rfl <;> rfl
  · simp only [List.mem_cons, List.not_mem_nil, or_false, not_or] at hescaped
    obtain ⟨hbackslash, hquote, hfeed, hreturn, htab⟩ := hescaped
    have hself : escapeChars [c] = [c] := by
      simp [escapeChars, Text.replaceChar, hbackslash, hquote, hfeed, hreturn, htab]
    have hstep : Lexer.inQuotes closers c = some ⟨.quoted, closers⟩ := by
      unfold Lexer.inQuotes
      split
      case h_5 => rfl
      all_goals contradiction
    rw [hself, Lexer.scan, Lexer.step, hstep]
    rfl

theorem scan_escapeChars (closers : List Char) (text : List Char) :
    Lexer.scan ⟨.quoted, closers⟩ (escapeChars text) = some ⟨.quoted, closers⟩ := by
  induction text with
  | nil => rfl
  | cons c rest ih =>
    rw [← List.singleton_append, escapeChars_append]
    exact Lexer.scan_trans (scan_escapeChar closers c) ih

/-- The lexer passes over a quoted text. -/
theorem scan_literal (closers : List Char) (text : String) :
    Lexer.scan ⟨.code, closers⟩ (literal text).toList = some ⟨.code, closers⟩ := by
  rw [literal, escape, String.toList_append, String.toList_append, String.toList_ofList, String.toList_ofList]
  have hopen : Lexer.scan ⟨.code, closers⟩ ['"'] = some ⟨.quoted, closers⟩ := rfl
  have hclose : Lexer.scan ⟨.quoted, closers⟩ ['"'] = some ⟨.code, closers⟩ := rfl
  exact Lexer.scan_trans (Lexer.scan_trans hopen (scan_escapeChars closers text.toList)) hclose

end Quoted

/-! ### Between back quotes -/

/-- A character that does not begin a pair is kept. -/
theorem Text.replacePair_cons {a b c : Char} {replacement rest : List Char} (h : c ≠ a ∨ rest.head? ≠ some b) :
    replacePair a b replacement (c :: rest) = c :: replacePair a b replacement rest := by
  cases rest with
  | nil => rfl
  | cons d rest =>
    rw [replacePair]
    split
    · next hpair =>
      rcases h with hfirst | hsecond
      · exact absurd hpair.1 hfirst
      · exact absurd (congrArg some hpair.2) hsecond
    · rfl

namespace Template

/-- The characters as they stand before dollar signs are looked at. -/
def masked (text : List Char) : List Char :=
  Text.replaceChar '`' ['\\', '`'] (Text.replaceChar '\\' ['\\', '\\'] text)

theorem masked_append (s t : List Char) : masked (s ++ t) = masked s ++ masked t := by
  rw [masked, Text.replaceChar_append, Text.replaceChar_append]
  rfl

theorem masked_cons {c : Char} (hbackslash : c ≠ '\\') (hquote : c ≠ '`') (rest : List Char) :
    masked (c :: rest) = c :: masked rest := by
  have hself : masked [c] = [c] := by simp [masked, Text.replaceChar, hbackslash, hquote]
  rw [← List.singleton_append, masked_append, hself]
  rfl

/-- A brace in front comes only from a brace. -/
theorem head_masked {text : List Char} (h : text.head? ≠ some '{') : (masked text).head? ≠ some '{' := by
  cases text with
  | nil => exact nofun
  | cons c rest =>
    by_cases hbackslash : c = '\\'
    · subst hbackslash
      exact nofun
    · by_cases hquote : c = '`'
      · subst hquote
        exact nofun
      · rwa [masked_cons hbackslash hquote]

theorem escapeChars_backslash (rest : List Char) : escapeChars ('\\' :: rest) = '\\' :: '\\' :: escapeChars rest := by
  have hmasked : masked ('\\' :: rest) = '\\' :: '\\' :: masked rest := masked_append ['\\'] rest
  rw [escapeChars, ← masked, hmasked, Text.replacePair_cons (.inl (by decide)),
    Text.replacePair_cons (.inl (by decide))]
  rfl

theorem escapeChars_quote (rest : List Char) : escapeChars ('`' :: rest) = '\\' :: '`' :: escapeChars rest := by
  have hmasked : masked ('`' :: rest) = '\\' :: '`' :: masked rest := masked_append ['`'] rest
  rw [escapeChars, ← masked, hmasked, Text.replacePair_cons (.inl (by decide)),
    Text.replacePair_cons (.inl (by decide))]
  rfl

theorem escapeChars_cons {c : Char} {rest : List Char} (hbackslash : c ≠ '\\') (hquote : c ≠ '`')
    (hdollar : c ≠ '$' ∨ rest.head? ≠ some '{') : escapeChars (c :: rest) = c :: escapeChars rest := by
  rw [escapeChars, ← masked, masked_cons hbackslash hquote, Text.replacePair_cons (hdollar.imp_right head_masked)]
  rfl

/-- A dollar sign in front of a brace is written after a backslash. -/
theorem escapeChars_dollar (rest : List Char) :
    escapeChars ('$' :: '{' :: rest) = '\\' :: '$' :: escapeChars ('{' :: rest) := by
  have hbrace : escapeChars ('{' :: rest) = '{' :: escapeChars rest :=
    escapeChars_cons (by decide) (by decide) (.inl (by decide))
  rw [hbrace, escapeChars, ← masked, masked_cons (by decide) (by decide), masked_cons (by decide) (by decide)]
  rfl

/-- The lexer ends between the back quotes, maybe right after a dollar sign. -/
def Stays (closers : List Char) (result : Option Lexer) : Prop :=
  result = some ⟨.template, closers⟩ ∨ result = some ⟨.templateDollar, closers⟩

/-- No text leaves the back quotes or opens a substitution.  Right after a dollar sign this holds of texts that do
not begin with a brace. -/
theorem scan_escapeChars (closers text : List Char) :
    Stays closers (Lexer.scan ⟨.template, closers⟩ (escapeChars text)) ∧
      (text.head? ≠ some '{' → Stays closers (Lexer.scan ⟨.templateDollar, closers⟩ (escapeChars text))) := by
  induction text with
  | nil => exact ⟨.inl rfl, fun _ => .inr rfl⟩
  | cons c rest ih =>
    by_cases hbackslash : c = '\\'
    · subst hbackslash
      rw [escapeChars_backslash]
      exact ⟨ih.1, fun _ => ih.1⟩
    by_cases hquote : c = '`'
    · subst hquote
      rw [escapeChars_quote]
      exact ⟨ih.1, fun _ => ih.1⟩
    by_cases hdollar : c = '$'
    · subst hdollar
      by_cases hbrace : rest.head? = some '{'
      · obtain ⟨tail, rfl⟩ := List.head?_eq_some_iff.mp hbrace
        rw [escapeChars_dollar]
        exact ⟨ih.1, fun _ => ih.1⟩
      · rw [escapeChars_cons hbackslash hquote (.inr hbrace)]
        exact ⟨ih.2 hbrace, fun _ => ih.2 hbrace⟩
    · have hstep : Lexer.inTemplate closers c = some ⟨.template, closers⟩ := by
        unfold Lexer.inTemplate
        split
        case h_4 => rfl
        all_goals contradiction
      rw [escapeChars_cons hbackslash hquote (.inl hdollar), Lexer.scan, Lexer.scan, Lexer.step, Lexer.step, hstep]
      refine ⟨ih.1, fun hbrace => ?_⟩
      rw [if_neg fun h => hbrace (congrArg some h)]
      exact ih.1

/-- The lexer passes over a template literal. -/
theorem scan_literal (closers : List Char) (text : String) :
    Lexer.scan ⟨.code, closers⟩ (literal text).toList = some ⟨.code, closers⟩ := by
  rw [literal, escape, String.toList_append, String.toList_append, String.toList_ofList, String.toList_ofList]
  have hopen : Lexer.scan ⟨.code, closers⟩ ['`'] = some ⟨.template, closers⟩ := rfl
  rcases (scan_escapeChars closers text.toList).1 with hinside | hinside
  · exact Lexer.scan_trans (Lexer.scan_trans hopen hinside) rfl
  · exact Lexer.scan_trans (Lexer.scan_trans hopen hinside) rfl

end Template

/-! ### In comments -/

namespace Comment

/-- An asterisk and a slash are kept apart. -/
theorem insideChars_pair (rest : List Char) :
    insideChars ('*' :: '/' :: rest) = '*' :: ' ' :: insideChars ('/' :: rest) := by
  have hslash : insideChars ('/' :: rest) = '/' :: insideChars rest := Text.replacePair_cons (.inl (by decide))
  rw [hslash]
  rfl

/-- The lexer ends in the comment, maybe right after an asterisk. -/
def Stays (closers : List Char) (result : Option Lexer) : Prop :=
  result = some ⟨.comment, closers⟩ ∨ result = some ⟨.commentStar, closers⟩

/-- No text ends the comment.  Right after an asterisk this holds of texts that do not begin with a slash. -/
theorem scan_insideChars (closers text : List Char) :
    Stays closers (Lexer.scan ⟨.comment, closers⟩ (insideChars text)) ∧
      (text.head? ≠ some '/' → Stays closers (Lexer.scan ⟨.commentStar, closers⟩ (insideChars text))) := by
  induction text with
  | nil => exact ⟨.inl rfl, fun _ => .inr rfl⟩
  | cons c rest ih =>
    by_cases hstar : c = '*'
    · subst hstar
      by_cases hslash : rest.head? = some '/'
      · obtain ⟨tail, rfl⟩ := List.head?_eq_some_iff.mp hslash
        rw [insideChars_pair]
        exact ⟨ih.1, fun _ => ih.1⟩
      · rw [insideChars, Text.replacePair_cons (.inr hslash)]
        exact ⟨ih.2 hslash, fun _ => ih.2 hslash⟩
    · have hstep : Lexer.inComment closers c = some ⟨.comment, closers⟩ := by
        rw [Lexer.inComment, if_neg hstar]
      rw [insideChars, Text.replacePair_cons (.inl hstar), Lexer.scan, Lexer.scan, Lexer.step, Lexer.step, hstep]
      refine ⟨ih.1, fun hslash => ?_⟩
      rw [if_neg fun h => hslash (congrArg some h)]
      exact ih.1

/-- What follows a text in a comment decides alone where the lexer goes. -/
theorem scan_inside {closers rest : List Char} {next : Lexer} (text : String)
    (hcomment : Lexer.scan ⟨.comment, closers⟩ rest = some next)
    (hstar : Lexer.scan ⟨.commentStar, closers⟩ rest = some next) :
    Lexer.scan ⟨.comment, closers⟩ ((inside text).toList ++ rest) = some next := by
  rw [inside, String.toList_ofList]
  rcases (scan_insideChars closers text.toList).1 with hinside | hinside
  · exact Lexer.scan_trans hinside hcomment
  · exact Lexer.scan_trans hinside hstar

end Comment

/-! ### Constructions -/

/-- Leaving out an access at the end keeps the lexer in code, maybe right after a slash. -/
theorem Mode.scan_constructible {closers : List Char} {callee : String} (mode : Mode)
    (h : Lexer.scan ⟨.code, closers⟩ callee.toList = some ⟨.code, closers⟩) :
    Lexer.scan ⟨.code, closers⟩ (mode.constructible callee).toList = some ⟨.code, closers⟩ ∨
      Lexer.scan ⟨.code, closers⟩ (mode.constructible callee).toList = some ⟨.slash, closers⟩ := by
  cases mode with
  | native => exact .inl h
  | managed =>
    rw [Mode.constructible, String.toList_ofList, Text.dropTrailing]
    split
    · next hsuffix =>
      obtain ⟨start, hstart⟩ := List.isSuffixOf_iff_suffix.mp hsuffix
      have haccess : Mode.accessor.toList = ['.', 'v', 'a', 'l', 'u', 'e'] := rfl
      rw [← hstart, Lexer.scan_append] at h
      obtain ⟨⟨region, between⟩, hbetween, hrest⟩ := Option.bind_eq_some_iff.mp h
      rw [← hstart, List.length_append, Nat.add_sub_cancel, List.take_left, hbetween]
      rw [haccess] at hrest
      -- The access is read as code only from code, and it changes no bracket.
      cases region with
      | code => exact .inl hrest
      | slash =>
        have hclosers : between = closers := congrArg Lexer.closers (Option.some.inj hrest)
        rw [hclosers]
        exact .inr rfl
      | _ => exact nomatch congrArg (Option.map Lexer.region) hrest
    · exact .inl h

/-! ### Phrases -/

/-- The words other than strings hold no character that means something to the lexer. -/
def Harmless (word : Word) : Prop := word.isString = false → ∀ c ∈ word.text.toList, c ∉ Lexer.special

theorem Literal.scan_text {value : Literal} (h : Harmless (.literal value)) (closers : List Char) :
    Lexer.scan ⟨.code, closers⟩ value.text.toList = some ⟨.code, closers⟩ := by
  cases value with
  | double text => exact Lexer.scan_plain (h rfl) closers
  | int text => exact Lexer.scan_plain (h rfl) closers
  | string text multiline =>
    cases multiline with
    | true => exact Template.scan_literal closers text
    | false => exact Quoted.scan_literal closers text
  | generic text =>
    cases text with
    | none => rfl
    | some text =>
      rw [Literal.text]
      split
      · rfl
      · exact Lexer.scan_plain (h rfl) closers

/-- **The lexer on a phrase**: it starts and ends in code, and waits for the brackets that are pending. -/
theorem Phrase.scan_eq {W : Word → Prop} {p q : Pending} {text : String} (hW : ∀ word, W word → Harmless word)
    (h : Phrase W p q text) : Lexer.scan ⟨.code, p.closers⟩ text.toList = some ⟨.code, q.closers⟩ := by
  induction h with
  | fixed chars h =>
    rw [String.toList_ofList]
    exact (closersAfter_eq_some.mp h).1
  | append _ _ hfirst hsecond =>
    rw [String.toList_append]
    exact Lexer.scan_trans hfirst hsecond
  | digits hdigits =>
    rw [String.toList_ofList]
    exact Lexer.scan_plain (fun c hc => Lexer.digit_plain (hdigits c hc)) _
  | name hname => exact Lexer.scan_plain (hW _ hname rfl) _
  | literal hvalue => exact Literal.scan_text (hW _ hvalue) _
  | quoted _ _ => exact Quoted.scan_literal _ _
  | @typeTest a b before after subject target _ _ _ _ =>
    have hstart : Lexer.scan ⟨.code, a⟩ "true /* ".toList = some ⟨.comment, a⟩ := rfl
    have htarget : Lexer.scan ⟨.comment, a⟩ ((Comment.inside target).toList ++ " */".toList) = some ⟨.code, a⟩ :=
      Comment.scan_inside target rfl rfl
    have hcomment : Lexer.scan ⟨.comment, a⟩ " is ".toList = some ⟨.comment, a⟩ := rfl
    have hstar : Lexer.scan ⟨.commentStar, a⟩ " is ".toList = some ⟨.comment, a⟩ := rfl
    simp only [String.toList_append, List.append_assoc]
    exact Lexer.scan_trans hstart (Comment.scan_inside subject (Lexer.scan_trans hcomment htarget)
      (Lexer.scan_trans hstar htarget))
  | @construction a before between after callee bag mode _ _ hcallee hbag =>
    have hstart : Lexer.scan ⟨.code, a⟩ "new ".toList = some ⟨.code, a⟩ := rfl
    rw [String.toList_append, String.toList_append, List.append_assoc]
    refine Lexer.scan_trans hstart ?_
    rcases mode.scan_constructible hcallee with hcallable | hcallable
    · exact Lexer.scan_trans hcallable hbag
    · -- A parenthesis after a slash is read like one in code.
      refine Lexer.scan_trans hcallable ?_
      have hopen : "(".toList = ['('] := rfl
      rw [Expr.parenthesized, String.toList_append, String.toList_append, hopen] at hbag ⊢
      exact hbag

/-! ### Scripts -/

/-- **Scripts are lexically well formed.**  When no name and no literal but a string holds a bracket, a quote or a
slash, the lexer ends in code with every bracket closed, whatever the strings hold. -/
theorem Stmt.lower_scan {mode : Mode} {statement : Stmt} {text : String}
    (hwords : ∀ word ∈ statement.words, word.isString = false → ∀ c ∈ word.text.toList, c ∉ Lexer.special)
    (h : statement.lower mode = .ok text) : Lexer.scan ⟨.code, []⟩ text.toList = some ⟨.code, []⟩ :=
  (Stmt.lower_phrase hwords h).scan_eq fun _ hword => hword

/-- Strings that look like the ends of literals and comments stay inside theirs. -/
theorem lower_scan_hostile_strings :
    let statement : Stmt := .returns (some (.array [.literal (.string "a\"(\\" false),
      .literal (.string "`$\x7b" true), .typeTest (.literal (.string "*/" false)) (.named "T")]))
    let text := "return [\"a\\\"(\\\\\", `\\`\\$\x7b`, true /* \"* /\" is T */];\n"
    statement.lower .native = .ok text ∧ Lexer.scan ⟨.code, []⟩ text.toList = some ⟨.code, []⟩ := by
  intro statement text
  have hlower : statement.lower .native = .ok text := rfl
  have hwords : ∀ word ∈ statement.words, word.isString = false →
      ∀ c ∈ word.text.toList, Lexer.special.contains c = false := Word.all_chars rfl
  refine ⟨hlower, Stmt.lower_scan (fun word hword hstring c hc hspecial => ?_) hlower⟩
  have hplain := hwords word hword hstring c hc
  rw [List.contains_iff_mem.mpr hspecial] at hplain
  exact nomatch hplain

end ScriptLowering
