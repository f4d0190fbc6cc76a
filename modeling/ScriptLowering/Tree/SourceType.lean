/-!
# Declared types

* `SourceType` — the type that a declaration writes down.
-/

namespace ScriptLowering

/-- A type as a declaration writes it. -/
inductive SourceType where
  | named (name : String)
  | array (element : SourceType)
  | dictionary (key value : SourceType)
  | optional (wrapped : SourceType)
deriving DecidableEq

end ScriptLowering
