import Mathlib.Data.List.Chain
import ScriptLowering.Expression
import ScriptLowering.Proofs.Script

/-!
# Where a comment ends

A test for a type is emitted as `true` with a comment that shows the test.  The comment holds the text of the value,
which may have strings, names and comments of its own in it, and ends at the first `*/` nevertheless.

* `Text.Unpaired` — no first character stands directly in front of a second one;
* `Text.unpaired_replacePair`, `Text.replacePair_eq_self` — replacing a pair leaves none, and nothing else changes;
* `Text.cut?_append` — a text is cut at a pattern when there is none before;
* `Comment.unpaired_inside`, `Comment.inside_eq_self` — no text ends the comment that it stands in;
* `Expr.typeTest_comment_ends_last` — the comment of a test for a type ends where the text of the test does.
-/

namespace ScriptLowering

/-! ### Pairs of characters -/

namespace Text

/-- No `a` stands directly in front of a `b`. -/
def Unpaired (a b : Char) (text : List Char) : Prop := text.IsChain fun c d => ¬ (c = a ∧ d = b)

variable {a b : Char}

theorem unpaired_iff {text : List Char} : Unpaired a b text ↔ ¬ [a, b] <:+: text := by
  constructor
  · intro h hpart
    have hpair := List.IsChain.infix h hpart
    exact List.isChain_pair.mp hpair ⟨rfl, rfl⟩
  · intro h
    refine (List.isChain_isInfix text).imp fun c d hpart hpair => h ?_
    rwa [hpair.1, hpair.2] at hpart

/-- Two texts may stand one after another unless the first ends and the second begins like the pair. -/
theorem Unpaired.append {s t : List Char} (hs : Unpaired a b s) (ht : Unpaired a b t)
    (hbetween : s.getLast? ≠ some a ∨ t.head? ≠ some b) : Unpaired a b (s ++ t) := by
  refine List.isChain_append.mpr ⟨hs, ht, ?_⟩
  rintro c hc d hd ⟨rfl, rfl⟩
  rcases hbetween with hlast | hhead
  · exact hlast hc
  · exact hhead hd

/-- A replacement that begins like the pair keeps the first character of a text. -/
theorem head?_replacePair (a b : Char) (replacement text : List Char) :
    (replacePair a b (a :: replacement) text).head? = text.head? := by
  match text with
  | [] => rfl
  | [c] => rfl
  | c :: d :: rest =>
    rw [replacePair]
    split
    · next hpair => exact congrArg some hpair.1.symm
    · rfl

/-- No pair is left where a third character is put into each of them, and none comes up. -/
theorem unpaired_replacePair {between : Char} (hab : a ≠ b) (ha : between ≠ a) (hb : between ≠ b) :
    ∀ text : List Char, Unpaired a b (replacePair a b [a, between, b] text)
  | [] => .nil
  | [c] => .singleton c
  | c :: d :: rest => by
    rw [replacePair]
    split
    · have hreplacement : Unpaired a b [a, between, b] :=
        .cons_cons (fun h => hb h.2) (.cons_cons (fun h => ha h.1) (.singleton b))
      exact hreplacement.append (unpaired_replacePair hab ha hb rest)
        (.inl fun hlast => hab (Option.some.inj hlast).symm)
    · next hpair =>
      refine List.isChain_cons.mpr ⟨fun e he => ?_, unpaired_replacePair hab ha hb (d :: rest)⟩
      rw [head?_replacePair] at he
      obtain rfl : d = e := Option.some.inj he
      exact hpair

/-- A text without the pair stays as it is. -/
theorem replacePair_eq_self (replacement : List Char) :
    ∀ {text : List Char}, Unpaired a b text → replacePair a b replacement text = text
  | [], _ => rfl
  | [c], _ => rfl
  | c :: d :: rest, h => by
    obtain ⟨hpair, hrest⟩ := List.isChain_cons_cons.mp h
    rw [replacePair, if_neg hpair, replacePair_eq_self replacement hrest]

/-! ### The first occurrence of a pattern -/

/-- A text is cut at a pattern that does not occur before, even in part. -/
theorem cut?_append {pattern before : List Char} (hne : pattern ≠ []) (h : ¬ pattern <:+: before ++ pattern.dropLast)
    (after : List Char) : cut? pattern (before ++ pattern ++ after) = some (before, after) := by
  induction before with
  | nil => exact cut?_self hne after
  | cons c rest ih =>
    -- A pattern at the beginning ends before the last character of the one behind.
    have hstart : ¬ pattern.isPrefixOf (c :: (rest ++ pattern ++ after)) = true := by
      rw [List.isPrefixOf_iff_prefix]
      intro hpattern
      have hbefore : c :: rest ++ pattern.dropLast <+: c :: rest ++ pattern ++ after :=
        ((List.prefix_append_right_inj _).mpr (List.dropLast_prefix pattern)).trans (List.prefix_append _ _)
      have hlength : pattern.length ≤ (c :: rest ++ pattern.dropLast).length := by
        rw [List.length_append, List.length_cons, List.length_dropLast]
        omega
      exact h (List.prefix_of_prefix_length_le hpattern hbefore hlength).isInfix
    have hrest : ¬ pattern <:+: rest ++ pattern.dropLast := fun hpart => h (hpart.trans (List.suffix_cons c _).isInfix)
    rw [List.cons_append, List.cons_append, cut?, if_neg hstart, ih hrest]
    rfl

end Text

/-! ### Texts in comments -/

namespace Comment

/-- No text ends the comment that it stands in. -/
theorem unpaired_inside (text : String) : Text.Unpaired '*' '/' (inside text).toList := by
  rw [inside, String.toList_ofList]
  exact Text.unpaired_replacePair (by decide) (by decide) (by decide) text.toList

/-- A text that would not end the comment stands there as it is. -/
theorem inside_eq_self {text : String} (h : Text.Unpaired '*' '/' text.toList) : inside text = text := by
  rw [inside, insideChars, Text.replacePair_eq_self _ h, String.ofList_toList]

/-- No two texts end the comment that shows a test of one against the other. -/
theorem unpaired_test (subject target : String) :
    Text.Unpaired '*' '/' (inside subject ++ " is " ++ inside target).toList := by
  have hblanks : Text.Unpaired '*' '/' " is ".toList := Text.unpaired_iff.mpr (by decide)
  rw [String.append_assoc, String.toList_append, String.toList_append]
  have htarget : Text.Unpaired '*' '/' (" is ".toList ++ (inside target).toList) :=
    hblanks.append (unpaired_inside target) (.inl (by decide))
  exact (unpaired_inside subject).append htarget (.inr (by simp))

/-- With blanks around it, such a text is followed by the first end of a comment. -/
theorem cut?_end {body : List Char} (h : Text.Unpaired '*' '/' body) :
    Text.cut? "*/".toList (' ' :: (body ++ " */".toList)) = some (' ' :: (body ++ [' ']), []) := by
  have hlast : Text.Unpaired '*' '/' [' ', '*'] := .cons_cons (by decide) (.singleton '*')
  have hbody : Text.Unpaired '*' '/' (body ++ [' ', '*']) := h.append hlast (.inr (by decide))
  have hbefore : Text.Unpaired '*' '/' ([' '] ++ (body ++ [' ', '*'])) :=
    Text.Unpaired.append (.singleton ' ') hbody (.inl (by decide))
  -- The asterisk of the end belongs to what must not hold a pair.
  have hend : ¬ "*/".toList <:+: ' ' :: (body ++ [' ']) ++ "*/".toList.dropLast := by
    simpa using Text.unpaired_iff.mp hbefore
  have hcut := Text.cut?_append (by decide) hend []
  simpa using hcut

end Comment

/-- **The comment of a test for a type.**  Whatever is tested, the text is `true` and one comment, which ends where the
text does.  A text in a comment holds no `*/`, and it stands there as it is when it did not hold one before. -/
theorem Expr.typeTest_comment_ends_last {mode : Mode} {value : Expr} {subject : String}
    (h : value.text mode = .ok subject) (target : SourceType) :
    let body := Comment.inside subject ++ " is " ++ Comment.inside target.text
    (Expr.typeTest value target).text mode = .ok ("true /* " ++ body ++ " */") ∧
    ¬ "*/".toList <:+: body.toList ∧
    (∃ rest, Text.cut? "/*".toList ("true /* " ++ body ++ " */").toList = some ("true ".toList, rest) ∧
      Text.cut? "*/".toList rest = some ((" " ++ body ++ " ").toList, [])) ∧
    ∀ text : String, ¬ "*/".toList <:+: (Comment.inside text).toList ∧
      (¬ "*/".toList <:+: text.toList → Comment.inside text = text) := by
  intro body
  have hbody : Text.Unpaired '*' '/' body.toList := Comment.unpaired_test subject target.text
  refine ⟨?_, Text.unpaired_iff.mp hbody, ⟨' ' :: (body.toList ++ " */".toList), ?_, ?_⟩, fun text => ⟨?_, ?_⟩⟩
  · rw [Expr.text, h]
    simp only [bind, Except.bind, pure, Except.pure, body, String.append_assoc]
  · have hopening : ¬ "/*".toList <:+: "true ".toList ++ "/*".toList.dropLast := by decide
    have hcut := Text.cut?_append (by decide) hopening (' ' :: (body.toList ++ " */".toList))
    simpa using hcut
  · rw [Comment.cut?_end hbody]
    simp
  · exact Text.unpaired_iff.mp (Comment.unpaired_inside text)
  · intro hclear
    exact Comment.inside_eq_self (Text.unpaired_iff.mpr hclear)

/-- Two tests inside one another, of a string with an end of a comment in it, against types that begin and end like
one. -/
theorem Expr.typeTest_comment_ends_last_nested :
    let value : Expr := .typeTest (.literal (.string "**//" false)) (.named "/A*")
    value.text .native = .ok "true /* \"** //\" is /A* */" ∧
    (Expr.typeTest value (.named "*/")).text .native =
      .ok "true /* true /* \"** //\" is /A* * / is * / */" ∧
    ¬ "*/".toList <:+: "true /* \"** //\" is /A* * / is * /".toList := by
  intro value
  have hvalue : value.text .native = .ok "true /* \"** //\" is /A* */" := rfl
  obtain ⟨htext, hbody, -, -⟩ := Expr.typeTest_comment_ends_last hvalue (.named "*/")
  exact ⟨hvalue, htext, hbody⟩

end ScriptLowering
