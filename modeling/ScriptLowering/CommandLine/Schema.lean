import ScriptLowering.Json.Pretty

/-!
# The schema of configuration files

* `CommandLine.schemaText` — what the program prints when it is asked for the schema of its configuration.
-/

namespace ScriptLowering.CommandLine

/-- A setting that refers to one of the named definitions, or is missing. -/
def settingSchema (definition description : String) : Json :=
  .object
    [("anyOf", .array
      [.object [("$ref", .string ("#/$defs/" ++ definition))], .object [("type", .string "null")]]),
      ("default", .null), ("description", .string description)]

/-- One of the names that a setting may have. -/
def nameSchema (name description : String) : Json :=
  .object [("const", .string name), ("description", .string description), ("type", .string "string")]

/-- The section for lowering. -/
def sectionSchema : Json :=
  .object
    [("description", .string "`[codegen]` section."),
      ("properties", .object
        [("error_policy", settingSchema "PolicyArg"
            "What to do with items that cannot be translated. Default: fail_fast."),
          ("mode", settingSchema "ModeArg" "Generation mode. Default: native.")]),
      ("type", .string "object")]

/-- The names of modes. -/
def modeSchema : Json :=
  .object
    [("description", .string "Generation mode as spelled in config files and on the command line."),
      ("oneOf", .array
        [nameSchema "native" "Plain target bindings.",
          nameSchema "managed" "Bindings wrapped in tagged records."])]

/-- The names of policies. -/
def policySchema : Json :=
  .object
    [("oneOf", .array
      [nameSchema "fail_fast" "Stop at the first item that cannot be translated.",
        nameSchema "collect" "Translate what can be translated and report the rest."])]

/-- The schema of a whole configuration file. -/
def rootSchema : Json :=
  .object
    [("$defs", .object
        [("CodegenConfig", sectionSchema), ("ModeArg", modeSchema), ("PolicyArg", policySchema)]),
      ("$schema", .string "https://json-schema.org/draft/2020-12/schema"),
      ("description", .string "Root configuration structure."),
      ("properties", .object
        [("codegen", .object
          [("$ref", .string "#/$defs/CodegenConfig"),
            ("default", .object [("error_policy", .null), ("mode", .null)])])]),
      ("title", .string "TransposeConfig"), ("type", .string "object")]

/-- What is printed for the schema: where configuration is looked for, its format, and its schema. -/
def schemaText : String :=
  (Json.object
    [("config_path", .string ".transpose/config.toml"), ("format", .string "toml"),
      ("schema", rootSchema)]).pretty 0 ++ "\n"

end ScriptLowering.CommandLine
