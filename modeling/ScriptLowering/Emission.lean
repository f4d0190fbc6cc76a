import ScriptLowering.Fault
import ScriptLowering.Layout

/-!
# Emission

* `Emission` — writing that may fail and that draws numbered temporaries;
* `drawTemporary` — the next temporary.

A temporary is numbered by how many were drawn before it in the same item.
-/

namespace ScriptLowering

/-- Writing that may fail, and that counts the temporaries drawn so far. -/
abbrev Emission := StateT Nat (Except Fault)

/-- Draws the next temporary. -/
def drawTemporary (stem : Temporary.Stem) : Emission Temporary := do
  let number ← get
  set (number + 1)
  return ⟨stem, number⟩

end ScriptLowering
