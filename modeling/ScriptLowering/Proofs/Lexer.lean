import ScriptLowering.Text

/-!
# A lexer for scripts

A lexer that knows just enough of a script to tell code from what stands in literals and comments.

* `Region` — where the lexer stands: in code, between double quotes, between back quotes, in a comment;
* `Lexer` — a region, and the closing brackets that are waited for;
* `Lexer.step`, `Lexer.scan` — the lexer after one character and after a text.

Brackets count in code only.  A raw line feed or carriage return between double quotes and an opening
substitution between back quotes are refused, and so is a closing bracket that is not the one waited for.
-/

namespace ScriptLowering

/-- Where a lexer stands. -/
inductive Region where
  | code
  /-- In code, right after a slash. -/
  | slash
  | quoted
  /-- Between double quotes, right after a backslash. -/
  | quotedEscape
  | template
  /-- Between back quotes, right after a backslash. -/
  | templateEscape
  /-- Between back quotes, right after a dollar sign. -/
  | templateDollar
  | comment
  /-- In a comment, right after an asterisk. -/
  | commentStar
deriving DecidableEq

/-- A lexer on its way: where it stands, and the closing brackets it waits for, the innermost first. -/
structure Lexer where
  region : Region
  closers : List Char
deriving DecidableEq

namespace Lexer

/-- The lexer after a closing bracket. -/
def close (closers : List Char) (c : Char) : Option Lexer :=
  match closers with
  | [] => none
  | closer :: rest => if closer = c then some ⟨.code, rest⟩ else none

/-- The lexer after a character in code. -/
def inCode (closers : List Char) (c : Char) : Option Lexer :=
  match c with
  | '"' => some ⟨.quoted, closers⟩
  | '`' => some ⟨.template, closers⟩
  | '/' => some ⟨.slash, closers⟩
  | '(' => some ⟨.code, ')' :: closers⟩
  | '[' => some ⟨.code, ']' :: closers⟩
  | '{' => some ⟨.code, '}' :: closers⟩
  | ')' => close closers ')'
  | ']' => close closers ']'
  | '}' => close closers '}'
  | _ => some ⟨.code, closers⟩

/-- The lexer after a character between double quotes, where no line may end. -/
def inQuotes (closers : List Char) (c : Char) : Option Lexer :=
  match c with
  | '"' => some ⟨.code, closers⟩
  | '\\' => some ⟨.quotedEscape, closers⟩
  | '\n' => none
  | '\r' => none
  | _ => some ⟨.quoted, closers⟩

/-- The lexer after a character between back quotes. -/
def inTemplate (closers : List Char) (c : Char) : Option Lexer :=
  match c with
  | '`' => some ⟨.code, closers⟩
  | '\\' => some ⟨.templateEscape, closers⟩
  | '$' => some ⟨.templateDollar, closers⟩
  | _ => some ⟨.template, closers⟩

/-- The lexer after a character in a comment. -/
def inComment (closers : List Char) (c : Char) : Option Lexer :=
  some ⟨if c = '*' then .commentStar else .comment, closers⟩

/-- The lexer after one more character; nothing when the character may not stand there. -/
def step (lexer : Lexer) (c : Char) : Option Lexer :=
  match lexer.region with
  | .code => inCode lexer.closers c
  | .slash => if c = '*' then some ⟨.comment, lexer.closers⟩ else inCode lexer.closers c
  | .quoted => inQuotes lexer.closers c
  | .quotedEscape => if c = '\n' ∨ c = '\r' then none else some ⟨.quoted, lexer.closers⟩
  | .template => inTemplate lexer.closers c
  | .templateEscape => some ⟨.template, lexer.closers⟩
  | .templateDollar => if c = '{' then none else inTemplate lexer.closers c
  | .comment => inComment lexer.closers c
  | .commentStar => if c = '/' then some ⟨.code, lexer.closers⟩ else inComment lexer.closers c

/-- The lexer after a text. -/
def scan : Lexer → List Char → Option Lexer
  | lexer, [] => some lexer
  | lexer, c :: rest =>
    match lexer.step c with
    | some next => next.scan rest
    | none => none

/-- A text may be scanned in parts. -/
theorem scan_append (lexer : Lexer) (s t : List Char) :
    lexer.scan (s ++ t) = (lexer.scan s).bind (scan · t) := by
  induction s generalizing lexer with
  | nil => rfl
  | cons c rest ih =>
    rw [List.cons_append, scan, scan]
    cases lexer.step c with
    | none => rfl
    | some next => exact ih next

/-- A scan goes on from where its first part ends. -/
theorem scan_trans {first second third : Lexer} {s t : List Char} (hs : first.scan s = some second)
    (ht : second.scan t = some third) : first.scan (s ++ t) = some third := by
  rw [scan_append, hs]
  exact ht

end Lexer

end ScriptLowering
