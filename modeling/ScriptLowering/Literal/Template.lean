import ScriptLowering.Text

/-!
# Template literals

* `Template.escape` — a text as it stands between back quotes;
* `Template.literal` — the text with its back quotes.

A backslash and a back quote are written after a backslash, and so is a dollar sign in front of a brace,
which would open a substitution.
-/

namespace ScriptLowering.Template

/-- Characters as they stand between back quotes. -/
def escapeChars (text : List Char) : List Char :=
  let text := Text.replaceChar '\\' ['\\', '\\'] text
  let text := Text.replaceChar '`' ['\\', '`'] text
  Text.replacePair '$' '{' ['\\', '$', '{'] text

/-- A text as it stands between back quotes. -/
def escape (text : String) : String := String.ofList (escapeChars text.toList)

/-- The template literal of a text. -/
def literal (text : String) : String := "`" ++ escape text ++ "`"

end ScriptLowering.Template
