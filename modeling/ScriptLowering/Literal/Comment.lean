import ScriptLowering.Text

/-!
# Texts inside comments

* `Comment.inside` — a text as it stands inside a block comment, where `*/` would end the comment.
-/

namespace ScriptLowering.Comment

/-- Characters as they stand inside a block comment: an asterisk and a slash are kept apart. -/
def insideChars (text : List Char) : List Char := Text.replacePair '*' '/' ['*', ' ', '/'] text

/-- A text as it stands inside a block comment. -/
def inside (text : String) : String := String.ofList (insideChars text.toList)

end ScriptLowering.Comment
