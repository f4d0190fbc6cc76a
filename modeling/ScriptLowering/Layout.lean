import ScriptLowering.Temporary
import ScriptLowering.Text

/-!
# Layout

A script is written as a sequence of steps, which are laid out afterwards as indented lines.

* `Step` — a line, the opening or closing of a brace, or a change of indentation;
* `Step.temporaries` — the temporaries that a step declares;
* `Page` — the text so far and the depth of its indentation;
* `Page.write` — the page after some steps.

Indentation is two blanks for each level.
-/

namespace ScriptLowering

/-- One step of writing. -/
inductive Step where
  | line (text : String)
  /-- The line that keeps a value in a temporary. -/
  | keep (temporary : Temporary) (value : String)
  /-- A header and an opening brace; what follows is one level deeper. -/
  | opening (header : String)
  /-- The opening of a loop over numbers. -/
  | loop (counted : CountedLoop)
  /-- A closing brace, a header and an opening brace on one line. -/
  | reopening (header : String)
  /-- A closing brace and what comes after it. -/
  | closing (trailer : String)
  /-- What follows continues a line, one level deeper. -/
  | indent
  /-- The end of a continuation. -/
  | outdent
deriving DecidableEq

/-- The temporaries that a step declares. -/
def Step.temporaries : Step → List Temporary
  | .keep temporary _ => [temporary]
  | .loop counted => counted.bound.toList
  | _ => []

/-- A line for a statement that may not be needed. -/
def Step.ofOption : Option String → List Step
  | some text => [.line text]
  | none => []

/-- A text under way. -/
structure Page where
  text : String
  depth : Nat
deriving DecidableEq

namespace Page

/-- The page on which nothing is written. -/
def blank : Page := ⟨"", 0⟩

/-- The page with one more line. -/
def addLine (page : Page) (text : String) : Page :=
  { page with text := page.text ++ Text.margin page.depth ++ text ++ "\n" }

/-- The page, one level deeper. -/
def deeper (page : Page) : Page := { page with depth := page.depth + 1 }

/-- The page, one level less deep. -/
def shallower (page : Page) : Page := { page with depth := page.depth - 1 }

/-- The page after one step. -/
def apply (page : Page) : Step → Page
  | .line text => page.addLine text
  | .keep temporary value => page.addLine ("const " ++ temporary.name ++ " = " ++ value ++ ";")
  | .opening header => (page.addLine (header ++ " \x7b")).deeper
  | .loop counted => (page.addLine (counted.header ++ " \x7b")).deeper
  | .reopening header => (page.shallower.addLine ("\x7d " ++ header ++ " \x7b")).deeper
  | .closing trailer => page.shallower.addLine ("\x7d" ++ trailer)
  | .indent => page.deeper
  | .outdent => page.shallower

/-- The page after some steps. -/
def write (page : Page) (steps : List Step) : Page := steps.foldl apply page

end Page

/-- The text of some steps on a blank page. -/
def Step.layout (steps : List Step) : String := (Page.blank.write steps).text

end ScriptLowering
