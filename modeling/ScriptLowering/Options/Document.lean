import ScriptLowering.Json.Record
import ScriptLowering.Options

/-!
# Options as documents

* `Options.ofJson?`, `Options.toJson` — the options that a document spells, and the document of options.
-/

namespace ScriptLowering

open Json (isBare)

/-- The mode that a document spells. -/
def Mode.ofJson? (document : Json) : Option Mode := do
  let (form, content) ← document.choice?
  if isBare content then Mode.ofName? form else none

/-- The policy that a document spells. -/
def ErrorPolicy.ofJson? (document : Json) : Option ErrorPolicy := do
  let (form, content) ← document.choice?
  if isBare content then ErrorPolicy.ofName? form else none

/-- The options that a document spells; what it leaves out has its default. -/
def Options.ofJson? (document : Json) : Option Options := do
  let [mode, policy] ← document.slots? ["mode", "error_policy"] | none
  return ⟨← mode.orElse .native Mode.ofJson?, ← policy.orElse .failFast ErrorPolicy.ofJson?⟩

/-- The document of options. -/
def Options.toJson (options : Options) : Json :=
  .object [("mode", .string options.mode.name), ("error_policy", .string options.policy.name)]

end ScriptLowering
