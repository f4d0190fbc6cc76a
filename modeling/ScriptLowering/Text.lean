/-!
# Text

Operations on sequences of characters that the readers and writers of this library share.  They work on
`List Char`, so that each of them is a recursion on the text itself.

* `replaceChar`, `replacePair` — put a replacement for every occurrence of one or two characters;
* `occurs`, `cut?` — look for a pattern, and cut a text at its first occurrence;
* `dropTrailing` — take a given ending off a text;
* `joinWith` — write texts one after another with a separator between them;
* `margin` — the blanks in front of an indented line.
-/

namespace ScriptLowering.Text

/-! ### Replacing -/

/-- The text with `replacement` in place of every `c`. -/
def replaceChar (c : Char) (replacement text : List Char) : List Char :=
  text.flatMap fun d => if d = c then replacement else [d]

/-- Replacing works on each part of a text separately. -/
theorem replaceChar_append (c : Char) (r s t : List Char) :
    replaceChar c r (s ++ t) = replaceChar c r s ++ replaceChar c r t := by
  simp [replaceChar]

/-- The text with `replacement` in place of every `a` directly followed by `b`; occurrences are taken from
left to right and do not overlap. -/
def replacePair (a b : Char) (replacement : List Char) : List Char → List Char
  | c :: d :: rest =>
    if c = a ∧ d = b then replacement ++ replacePair a b replacement rest
    else c :: replacePair a b replacement (d :: rest)
  | short => short

/-! ### Looking for a pattern -/

/-- Whether `pattern` occurs somewhere in the text. -/
def occurs (pattern : List Char) : List Char → Bool
  | [] => pattern.isEmpty
  | c :: rest => pattern.isPrefixOf (c :: rest) || occurs pattern rest

/-- The text before the first occurrence of `pattern` and the text after it. -/
def cut? (pattern : List Char) : List Char → Option (List Char × List Char)
  | [] => if pattern.isEmpty then some ([], []) else none
  | c :: rest =>
    if pattern.isPrefixOf (c :: rest) then some ([], (c :: rest).drop pattern.length)
    else (cut? pattern rest).map fun (before, after) => (c :: before, after)

/-- The two parts of a cut, with the pattern between them, are the whole text. -/
theorem append_of_cut? {pattern text before after : List Char} (h : cut? pattern text = some (before, after)) :
    before ++ pattern ++ after = text := by
  induction text generalizing before with
  | nil =>
    simp only [cut?, List.isEmpty_iff] at h
    split at h
    · simp_all
    · simp at h
  | cons c rest ih =>
    simp only [cut?] at h
    split at h
    · next hp =>
      simp only [Option.some.injEq, Prod.mk.injEq] at h
      obtain ⟨rfl, rfl⟩ := h
      obtain ⟨tail, ht⟩ := List.isPrefixOf_iff_prefix.mp hp
      simp [← ht]
    · simp only [Option.map_eq_some_iff, Prod.mk.injEq] at h
      obtain ⟨⟨b, a⟩, hb, rfl, rfl⟩ := h
      simpa using ih hb

/-- The text without the given ending, when it has that ending. -/
def dropTrailing (ending text : List Char) : List Char :=
  if ending.isSuffixOf text then text.take (text.length - ending.length) else text

/-! ### Joining and indenting -/

/-- The texts one after another, with the separator between each two. -/
def joinWith (separator : String) : List String → String
  | [] => ""
  | [text] => text
  | text :: next :: rest => text ++ separator ++ joinWith separator (next :: rest)

/-- The blanks in front of a line at the given depth, two for each level. -/
def margin (depth : Nat) : String := String.ofList (List.replicate (2 * depth) ' ')

end ScriptLowering.Text
