import ScriptLowering.Options
import ScriptLowering.Statement

/-!
# Lowering programs

* `Output` — the script of a program, and the faults of the items left out of it;
* `Program.lower` — the script of a program;
* `cutScript?` — a script cut in two at its first separator.

Items are lowered one by one and share nothing, so the script is decided item by item.
-/

namespace ScriptLowering

/-- A script, and the faults of the items that were left out of it, in source order. -/
structure Output where
  script : String
  faults : List ItemFault
deriving DecidableEq

/-- Whether no item was left out. -/
def Output.isComplete (output : Output) : Bool := output.faults.isEmpty

/-- The line between the support code and the lowered items. -/
def separator : String := "// ---- generated code ----"

/-- The script of the given lowered items. -/
def assemble (mode : Mode) (parts : List String) : String :=
  mode.supportCode ++ "\n" ++ separator ++ "\n" ++ Text.joinWith "\n" parts

/-- An item's text, or its fault. -/
def Item.lower (mode : Mode) (index : Nat) (item : Item) : Except ItemFault String :=
  match item.node.lower mode with
  | .ok text => .ok text
  | .error cause => .error ⟨index, item.node.kind, item.span, cause⟩

/-- The texts of the items that can be lowered and the faults of the others; the first item has the given
index. -/
def lowerItems (mode : Mode) (index : Nat) : List Item → List String × List ItemFault
  | [] => ([], [])
  | item :: rest =>
    let (texts, faults) := lowerItems mode (index + 1) rest
    match item.lower mode index with
    | .ok text => (text :: texts, faults)
    | .error fault => (texts, fault :: faults)

/-- The script of a program. -/
def Program.lower (options : Options) (program : Program) : Except ItemFault Output :=
  let (texts, faults) := lowerItems options.mode 0 program.items
  match options.policy, faults with
  | .failFast, fault :: _ => .error fault
  | _, faults => .ok ⟨assemble options.mode texts, faults⟩

/-- A script cut at its first separator. -/
def cutScript? (script : String) : Option (String × String) :=
  (Text.cut? separator.toList script.toList).map fun (before, after) =>
    (String.ofList before, String.ofList after)

end ScriptLowering
