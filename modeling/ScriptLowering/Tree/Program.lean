import ScriptLowering.Tree.Stmt

/-!
# Programs

* `Span` — where an item stands in its source;
* `Item`, `Program` — the statements of a program, in source order.
-/

namespace ScriptLowering

/-- A place in the source, by line and column. -/
structure Span where
  line : UInt32
  column : UInt32
deriving DecidableEq

/-- A statement at the top level, with its place if known. -/
structure Item where
  node : Stmt
  span : Option Span

/-- The items of a program, in source order. -/
structure Program where
  items : List Item

/-- The program of the given statements, with no places known. -/
def Program.ofStmts (statements : List Stmt) : Program :=
  ⟨statements.map fun statement => ⟨statement, none⟩⟩

end ScriptLowering
