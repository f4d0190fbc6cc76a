import ScriptLowering.Text

/-!
# Quoted literals

* `Quoted.escape` — a text as it stands between double quotes;
* `Quoted.literal` — the text with its quotes.

A backslash, a quote, a line feed, a carriage return and a tab are each written as a backslash and one
further character.  The backslash comes first, so that no backslash put in for another character is
escaped again.
-/

namespace ScriptLowering.Quoted

/-- Characters as they stand between double quotes. -/
def escapeChars (text : List Char) : List Char :=
  let text := Text.replaceChar '\\' ['\\', '\\'] text
  let text := Text.replaceChar '"' ['\\', '"'] text
  let text := Text.replaceChar '\n' ['\\', 'n'] text
  let text := Text.replaceChar '\r' ['\\', 'r'] text
  Text.replaceChar '\t' ['\\', 't'] text

/-- Escaping works on each part of a text separately. -/
theorem escapeChars_append (s t : List Char) : escapeChars (s ++ t) = escapeChars s ++ escapeChars t := by
  simp [escapeChars, Text.replaceChar_append]

/-- A text as it stands between double quotes. -/
def escape (text : String) : String := String.ofList (escapeChars text.toList)

/-- The quoted literal of a text. -/
def literal (text : String) : String := "\"" ++ escape text ++ "\""

end ScriptLowering.Quoted
