import ScriptLowering.Proofs.ExpressionReader
import ScriptLowering.Proofs.Nesting

/-!
# Literals are read back

A string of the source stands in the script between double quotes or, when it has several lines, between back quotes.
A reader of such a literal gets the string back, whatever the string holds and whatever stands behind the literal.

* `Quoted.written` — a character as it stands between double quotes;
* `Quoted.readLiteral?` — the string of a quoted literal, and what stands behind it;
* `Quoted.literal_read_unchanged` — a quoted literal gives its string back;
* `Template.Ending`, `Template.read` — how the reading of a template literal ends;
* `Text.lineFeeds` — a text with one kind of line ending;
* `Template.literal_read_with_lineFeeds` — a template literal gives its string back up to the line endings.

Between back quotes a line may end, but a script does not tell the endings of lines apart: a carriage return, alone or
in front of a line feed, is read as a line feed.
-/

namespace ScriptLowering

/-! ### Between double quotes -/

namespace Quoted

/-- One character as it stands between double quotes. -/
def written : Char → List Char
  | '\\' => ['\\', '\\']
  | '"' => ['\\', '"']
  | '\n' => ['\\', 'n']
  | '\r' => ['\\', 'r']
  | '\t' => ['\\', 't']
  | c => [c]

theorem escapeChars_singleton (c : Char) : escapeChars [c] = written c := by
  unfold written
  split
  case h_6 => simp_all [escapeChars, Text.replaceChar]
  all_goals rfl

/-- The replacements, made one after another, come to one replacement for each character. -/
theorem escapeChars_eq_flatMap (text : List Char) : escapeChars text = text.flatMap written := by
  induction text with
  | nil => rfl
  | cons c rest ih =>
    rw [← List.singleton_append, escapeChars_append, escapeChars_singleton, ih, List.flatMap_append,
      List.flatMap_singleton]

/-- The string of the quoted literal that begins a text, and what stands behind the literal. -/
def readLiteral? (text : String) : Option (String × String) :=
  match text.toList with
  | '"' :: rest => (read? rest).map fun (inner, rest) => (String.ofList inner, String.ofList rest)
  | _ => none

theorem readLiteral?_literal (text rest : String) : readLiteral? (literal text ++ rest) = some (text, rest) := by
  have hchars : (literal text ++ rest).toList = '"' :: (escapeChars text.toList ++ '"' :: rest.toList) := by
    simp [literal, escape]
  rw [readLiteral?, hchars]
  simp only [read?_escapeChars, Option.map_some, String.ofList_toList]

theorem escape_injective : Function.Injective escape := by
  intro text other h
  have hread := readLiteral?_literal text ""
  rw [literal, h, ← literal, readLiteral?_literal] at hread
  exact (congrArg Prod.fst (Option.some.inj hread)).symm

/-- **A quoted literal gives its string back.**  It is read up to the quote that the writer put there, whatever stands
behind it.  So no two strings are escaped alike, and each character is escaped by itself. -/
theorem literal_read_unchanged :
    (∀ text rest : String, (Literal.string text false).text = "\"" ++ escape text ++ "\"" ∧
      readLiteral? ("\"" ++ escape text ++ "\"" ++ rest) = some (text, rest)) ∧
    Function.Injective escape ∧
    ∀ text : String, (escape text).toList = text.toList.flatMap written := by
  refine ⟨fun text rest => ⟨rfl, readLiteral?_literal text rest⟩, escape_injective, fun text => ?_⟩
  rw [escape, String.toList_ofList, escapeChars_eq_flatMap]

end Quoted

/-! ### Line endings -/

namespace Text

/-- The text with a line feed for each carriage return; a carriage return and a line feed count as one. -/
def lineFeeds : List Char → List Char
  | [] => []
  | '\r' :: '\n' :: rest => '\n' :: lineFeeds rest
  | '\r' :: rest => '\n' :: lineFeeds rest
  | c :: rest => c :: lineFeeds rest

theorem return_not_mem_lineFeeds (text : List Char) : '\r' ∉ lineFeeds text := by
  fun_induction lineFeeds text with
  | case1 => exact List.not_mem_nil
  | case2 rest ih => exact List.not_mem_cons_of_ne_of_not_mem (by decide) ih
  | case3 rest _ ih => exact List.not_mem_cons_of_ne_of_not_mem (by decide) ih
  | case4 c rest _ hreturn ih => exact List.not_mem_cons_of_ne_of_not_mem (Ne.symm hreturn) ih

/-- Just the texts without carriage returns stay as they are. -/
theorem lineFeeds_eq_self_iff (text : List Char) : lineFeeds text = text ↔ '\r' ∉ text := by
  constructor
  · intro h
    rw [← h]
    exact return_not_mem_lineFeeds text
  · intro h
    fun_induction lineFeeds text with
    | case1 => rfl
    | case2 rest ih => exact absurd List.mem_cons_self h
    | case3 rest _ ih => exact absurd List.mem_cons_self h
    | case4 c rest _ hreturn ih => rw [ih fun hmem => h (List.mem_cons_of_mem c hmem)]

end Text

/-! ### Between back quotes -/

namespace Template

/-- How the reading of a template literal ends. -/
inductive Ending where
  /-- At the closing back quote: the string, and what stands behind the quote. -/
  | closed (text rest : List Char)
  /-- At a substitution: the string in front of it, and what stands behind its opening brace. -/
  | substitution (text rest : List Char)
  /-- At the end of the text, or at a backslash that stands for nothing. -/
  | failed
deriving DecidableEq

/-- The ending with more of the string in front. -/
def Ending.prepend (front : List Char) : Ending → Ending
  | .closed text rest => .closed (front ++ text) rest
  | .substitution text rest => .substitution (front ++ text) rest
  | .failed => .failed

/-- What a backslash in front of the given character stands for.  The end of a line is left out with its backslash.
Escapes by number are never written, and are not read here. -/
def unescape? : Char → Option (List Char)
  | 'b' => some ['\x08']
  | 't' => some ['\t']
  | 'n' => some ['\n']
  | 'v' => some ['\x0b']
  | 'f' => some ['\x0c']
  | 'r' => some ['\r']
  | '\n' => some []
  | '\r' => some []
  | '\u2028' => some []
  | '\u2029' => some []
  | 'x' => none
  | 'u' => none
  | c => if c.isDigit then none else some [c]

/-- Reads a template literal from behind its opening quote. -/
def read : List Char → Ending
  | [] => .failed
  | '`' :: rest => .closed [] rest
  | '$' :: '{' :: rest => .substitution [] rest
  | '\\' :: '\r' :: '\n' :: rest => read rest
  | '\\' :: c :: rest =>
    match unescape? c with
    | some front => (read rest).prepend front
    | none => .failed
  | '\r' :: '\n' :: rest => (read rest).prepend ['\n']
  | '\r' :: rest => (read rest).prepend ['\n']
  | c :: rest => (read rest).prepend [c]

/-- A character that means nothing to the reader stands for itself. -/
theorem read_cons {c : Char} {rest : List Char} (hbackslash : c ≠ '\\') (hquote : c ≠ '`') (hreturn : c ≠ '\r')
    (hdollar : c ≠ '$' ∨ rest.head? ≠ some '{') : read (c :: rest) = (read rest).prepend [c] := by
  rw [read]
  · exact hquote
  · rintro tail rfl rfl
    exact hdollar.elim (absurd rfl) (absurd rfl)
  · exact fun _ h => absurd h hbackslash
  · exact fun _ _ h => absurd h hbackslash
  · exact fun _ h => absurd h hreturn
  · exact hreturn

theorem read_return {rest : List Char} (h : rest.head? ≠ some '\n') :
    read ('\r' :: rest) = (read rest).prepend ['\n'] := by
  rw [read]
  rintro tail rfl
  exact h rfl

/-- A character is written after a backslash or as it is. -/
theorem escapeChars_cons_cases (c : Char) (rest : List Char) :
    (c = '\\' ∨ c = '`' ∨ c = '$') ∧ escapeChars (c :: rest) = '\\' :: c :: escapeChars rest ∨
      (c ≠ '\\' ∧ c ≠ '`' ∧ (c ≠ '$' ∨ rest.head? ≠ some '{')) ∧ escapeChars (c :: rest) = c :: escapeChars rest := by
  by_cases hbackslash : c = '\\'
  · subst hbackslash
    exact .inl ⟨.inl rfl, escapeChars_backslash rest⟩
  by_cases hquote : c = '`'
  · subst hquote
    exact .inl ⟨.inr (.inl rfl), escapeChars_quote rest⟩
  by_cases hdollar : c = '$' ∧ rest.head? = some '{'
  · obtain ⟨rfl, hbrace⟩ := hdollar
    obtain ⟨tail, rfl⟩ := List.head?_eq_some_iff.mp hbrace
    exact .inl ⟨.inr (.inr rfl), escapeChars_dollar tail⟩
  · have hkept : c ≠ '$' ∨ rest.head? ≠ some '{' := Decidable.not_and_iff_not_or_not.mp hdollar
    exact .inr ⟨⟨hbackslash, hquote, hkept⟩, escapeChars_cons hbackslash hquote hkept⟩

/-- Escaping puts no other character than a backslash in front of a text. -/
theorem head_escapeChars {c : Char} (hbackslash : c ≠ '\\') (hquote : c ≠ '`') {text : List Char}
    (h : text.head? ≠ some c) (rest : List Char) : (escapeChars text ++ '`' :: rest).head? ≠ some c := by
  cases text with
  | nil => exact fun hhead => hquote (Option.some.inj hhead).symm
  | cons d text =>
    rcases escapeChars_cons_cases d text with ⟨-, hwritten⟩ | ⟨-, hwritten⟩
    · rw [hwritten]
      exact fun hhead => hbackslash (Option.some.inj hhead).symm
    · rw [hwritten]
      exact h

/-- A text is read back from between its quotes, with line feeds for its line endings. -/
theorem read_escapeChars (text rest : List Char) :
    read (escapeChars text ++ '`' :: rest) = .closed (Text.lineFeeds text) rest := by
  -- The recursion of `lineFeeds`, which takes a carriage return and a line feed together as the reader does.
  fun_induction Text.lineFeeds text with
  | case1 => rfl
  | case2 text ih =>
    rw [escapeChars_cons (by decide) (by decide) (.inl (by decide)),
      escapeChars_cons (by decide) (by decide) (.inl (by decide))]
    show (read (escapeChars text ++ '`' :: rest)).prepend ['\n'] = _
    rw [ih]
    rfl
  | case3 text hfeed ih =>
    have hhead : text.head? ≠ some '\n' := fun h => by
      obtain ⟨tail, rfl⟩ := List.head?_eq_some_iff.mp h
      exact hfeed tail rfl
    rw [escapeChars_cons (by decide) (by decide) (.inl (by decide)), List.cons_append,
      read_return (head_escapeChars (by decide) (by decide) hhead rest), ih]
    rfl
  | case4 c text _ hreturn ih =>
    rcases escapeChars_cons_cases c text with ⟨hmarked, hwritten⟩ | ⟨⟨hbackslash, hquote, hdollar⟩, hwritten⟩
    · rw [hwritten]
      rcases hmarked with rfl | rfl | rfl
      all_goals
        show (read (escapeChars text ++ '`' :: rest)).prepend _ = _
        rw [ih]
        rfl
    · have hopen : c ≠ '$' ∨ (escapeChars text ++ '`' :: rest).head? ≠ some '{' :=
        hdollar.imp_right fun hbrace => head_escapeChars (by decide) (by decide) hbrace rest
      rw [hwritten, List.cons_append, read_cons hbackslash hquote hreturn hopen, ih]
      rfl

/-- Reads the template literal that begins a text. -/
def readLiteral (text : String) : Ending :=
  match text.toList with
  | '`' :: rest => read rest
  | _ => .failed

theorem readLiteral_literal (text rest : String) :
    readLiteral (literal text ++ rest) = .closed (Text.lineFeeds text.toList) rest.toList := by
  have hchars : (literal text ++ rest).toList = '`' :: (escapeChars text.toList ++ '`' :: rest.toList) := by
    simp [literal, escape]
  rw [readLiteral, hchars]
  exact read_escapeChars text.toList rest.toList

/-- **A template literal gives its string back, up to line endings.**  It is read up to the back quote that the writer
put there, no substitution opens on the way, and carriage returns are read as line feeds.  So the string comes back
unchanged just when it holds no carriage return. -/
theorem literal_read_with_lineFeeds (text rest : String) :
    (Literal.string text true).text = "`" ++ escape text ++ "`" ∧
    readLiteral ("`" ++ escape text ++ "`" ++ rest) = .closed (Text.lineFeeds text.toList) rest.toList ∧
    (readLiteral ("`" ++ escape text ++ "`" ++ rest) = .closed text.toList rest.toList ↔ '\r' ∉ text.toList) := by
  have hread := readLiteral_literal text rest
  rw [literal] at hread
  refine ⟨rfl, hread, ?_⟩
  rw [hread, Ending.closed.injEq, and_iff_left rfl]
  exact Text.lineFeeds_eq_self_iff text.toList

/-- A dollar sign in front of a brace that nothing escapes opens a substitution. -/
example : read ['a', '$', '$', '{', 'b', '}', '`'] = .substitution ['a', '$'] ['b', '}', '`'] := by decide

end Template

end ScriptLowering
