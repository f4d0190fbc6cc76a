import ScriptLowering.Mode

/-!
# Options

* `ErrorPolicy` — what to do about items that cannot be lowered;
* `Options` — how a program is lowered.
-/

namespace ScriptLowering

/-- What to do about an item that cannot be lowered. -/
inductive ErrorPolicy where
  /-- Give up at the first such item. -/
  | failFast
  /-- Leave the item out and go on. -/
  | collect
deriving DecidableEq

namespace ErrorPolicy

/-- The name of a policy. -/
def name : ErrorPolicy → String
  | .failFast => "fail_fast"
  | .collect => "collect"

/-- The policy of the given name. -/
def ofName? : String → Option ErrorPolicy
  | "fail_fast" => some .failFast
  | "collect" => some .collect
  | _ => none

/-- A policy is found under its name. -/
theorem ofName?_name (policy : ErrorPolicy) : ofName? policy.name = some policy := by
  cases policy <;> rfl

end ErrorPolicy

/-- How a program is lowered. -/
structure Options where
  mode : Mode := .native
  policy : ErrorPolicy := .failFast
deriving DecidableEq

end ScriptLowering
