import ScriptLowering.Expression
import ScriptLowering.Proofs.SafeNames

/-!
# Reading expressions

A reader for the text of expressions.  It reads from left to right and never goes back: signs, then a word, a string, a
list or something in parentheses, then the accesses behind it.

* `Quoted.read?` — the text of a quoted literal, up to its closing quote;
* `Reading.operand` — an expression, and what stands behind it;
* `Settles` — what reading gives as soon as there is enough fuel;
* `Reading.suffixes_member` … — the accesses, one by one.
-/

namespace ScriptLowering

/-! ### Strings -/

namespace Quoted

/-- The character that a backslash and the given character stand for. -/
def unescape? : Char → Option Char
  | '\\' => some '\\'
  | '"' => some '"'
  | 'n' => some '\n'
  | 'r' => some '\r'
  | 't' => some '\t'
  | _ => none

/-- The text of a literal up to its closing quote, and what stands behind the quote.  A line does not end inside. -/
def read? : List Char → Option (List Char × List Char)
  | [] => none
  | '"' :: rest => some ([], rest)
  | '\n' :: _ => none
  | '\r' :: _ => none
  | '\\' :: c :: rest => do
    let first ← unescape? c
    let (text, rest) ← read? rest
    return (first :: text, rest)
  | c :: rest => do
    let (text, rest) ← read? rest
    return (c :: text, rest)

/-- One character, as it stands between quotes, is read back. -/
theorem read?_escapeChar (c : Char) {rest text after : List Char} (h : read? rest = some (text, after)) :
    read? (escapeChars [c] ++ rest) = some (c :: text, after) := by
  by_cases hescaped : c ∈ ['\\', '"', '\n', '\r', '\t']
  · simp only [List.mem_cons, List.not_mem_nil, or_false] at hescaped
    rcases hescaped with rfl | rfl | rfl | rfl | rfl
    all_goals
      show (read? rest).bind _ = _
      rw [h]
      rfl
  · simp only [List.mem_cons, List.not_mem_nil, or_false, not_or] at hescaped
    obtain ⟨hbackslash, hquote, hfeed, hreturn, htab⟩ := hescaped
    have hself : escapeChars [c] = [c] := by
      simp [escapeChars, Text.replaceChar, hbackslash, hquote, hfeed, hreturn, htab]
    rw [hself, List.singleton_append]
    simp [read?, hbackslash, h]

/-- A text is read back from between its quotes. -/
theorem read?_escapeChars (text rest : List Char) :
    read? (escapeChars text ++ '"' :: rest) = some (text, rest) := by
  induction text with
  | nil => rfl
  | cons c text ih =>
    rw [← List.singleton_append, escapeChars_append, List.append_assoc]
    exact read?_escapeChar c ih

end Quoted

/-! ### The reader -/

namespace Reading

/-- What stands behind a fixed text. -/
def after? : List Char → List Char → Option (List Char)
  | [], text => some text
  | _ :: _, [] => none
  | c :: mark, d :: text => if c = d then after? mark text else none

theorem after?_append (mark rest : List Char) : after? mark (mark ++ rest) = some rest := by
  induction mark with
  | nil => rfl
  | cons c mark ih => rw [List.cons_append, after?, if_pos rfl, ih]

/-- The items of a list with a comma and a blank between them, up to the end of the list. -/
def listed {α : Type} (item : List Char → Option (α × List Char)) (close : List Char) :
    Nat → List Char → Option (List α × List Char)
  | 0, _ => none
  | fuel + 1, text => do
    let (first, rest) ← item text
    match after? [',', ' '] rest with
    | some rest =>
      let (others, rest) ← listed item close fuel rest
      return (first :: others, rest)
    | none =>
      let rest ← after? close rest
      return ([first], rest)

/-- What a word stands for: a number, the object itself or a variable. -/
def ofWord (word : List Char) : Expr :=
  if word.head?.any Char.isDigit then .literal (.int (String.ofList word))
  else if String.ofList word = "this" then .itself
  else .variable (String.ofList word)

/-- Whether a character is a sign in front of an operand. -/
def isSign (c : Char) : Bool := c = '!' || c = '-' || c = '+' || c = '~'

/-- The text without the blank at its beginning. -/
def skipBlank : List Char → List Char
  | ' ' :: rest => rest
  | text => text

/-- The access behind `?.`, as it stands behind an expression that is not optional. -/
def undotted : List Char → List Char
  | '[' :: rest => '[' :: rest
  | '(' :: rest => '(' :: rest
  | rest => '.' :: rest

section

variable (operand : List Char → Option (Expr × List Char))

/-- An argument in a bag, under its key. -/
def argument (text : List Char) : Option (Argument × List Char) := do
  let rest ← after? [':', ' '] (text.dropWhile Identifier.isWordChar)
  let (value, rest) ← operand rest
  return (⟨some (String.ofList (text.takeWhile Identifier.isWordChar)), value⟩, rest)

/-- The arguments of a call, up to its closing parenthesis. -/
def bag (fuel : Nat) : List Char → Option (List Argument × List Char)
  | ')' :: rest => some ([], rest)
  | '{' :: ' ' :: rest => listed (argument operand) [' ', '}', ')'] fuel rest
  | _ => none

/-- What stands behind an expression in parentheses: their end, or an operator and more. -/
def group (first : Expr) : List Char → Option (Expr × List Char)
  | ')' :: rest => some (.grouping first, rest)
  | ' ' :: rest => do
    let token := String.ofList (rest.takeWhile (· != ' '))
    let (second, rest) ← operand ((rest.dropWhile (· != ' ')).drop 1)
    if token = "?" then
      let rest ← after? [' ', ':', ' '] rest
      let (third, rest) ← operand rest
      let rest ← after? [')'] rest
      return (.ternary first second third, rest)
    else
      let rest ← after? [')'] rest
      if (LogicalOperator.ofSource? token).isSome then return (.logical token first second, rest)
      else return (.binary token first second, rest)
  | _ => none

/-- What an operand without signs begins with. -/
def primary (fuel : Nat) : List Char → Option (Expr × List Char)
  | '(' :: rest => do
    let (first, rest) ← operand rest
    group operand first rest
  | '[' :: ']' :: rest => some (.array [], rest)
  | '[' :: rest => do
    let (items, rest) ← listed operand [']'] fuel rest
    return (.array items, rest)
  | '"' :: rest => do
    let (text, rest) ← Quoted.read? rest
    return (.literal (.string (String.ofList text) false), rest)
  | text => some (ofWord (text.takeWhile Identifier.isWordChar), text.dropWhile Identifier.isWordChar)

/-- The accesses behind an expression. -/
def suffixes : Nat → Expr → List Char → Option (Expr × List Char)
  | 0, _, _ => none
  | fuel + 1, base, '.' :: rest =>
    suffixes fuel (.member base (String.ofList (rest.takeWhile Identifier.isWordChar)))
      (rest.dropWhile Identifier.isWordChar)
  | fuel + 1, base, '[' :: rest => do
    let (position, rest) ← operand rest
    let rest ← after? [']'] rest
    suffixes fuel (.index base position) rest
  | fuel + 1, base, '(' :: rest => do
    let (arguments, rest) ← bag operand fuel rest
    suffixes fuel (.call base arguments false) rest
  | fuel + 1, base, '?' :: '.' :: rest => suffixes fuel (.optionalChain base false) (undotted rest)
  | _ + 1, base, rest => some (base, rest)

end

/-- An operand, and what stands behind it. -/
def operand : Nat → List Char → Option (Expr × List Char)
  | 0, _ => none
  | _ + 1, [] => none
  | fuel + 1, c :: rest =>
    if isSign c then do
      let (inner, rest) ← operand fuel (skipBlank rest)
      return (.unary (String.singleton c) inner, rest)
    else do
      let (base, rest) ← primary (operand fuel) fuel (c :: rest)
      suffixes (operand fuel) fuel base rest

end Reading

/-! ### Enough fuel -/

section

variable {α β : Type}

/-- What reading gives with any fuel from some amount on, both for the depth of an expression and for the width of
its lists. -/
def Settles (read : Nat → Nat → Option α) (result : α) : Prop :=
  ∃ least, ∀ depth width, least ≤ depth → least ≤ width → read depth width = some result

namespace Settles

/-- Reading settles on one result. -/
theorem unique {read : Nat → Nat → Option α} {result other : α} (h : Settles read result)
    (hother : Settles read other) : result = other := by
  obtain ⟨least, hread⟩ := h
  obtain ⟨least', hread'⟩ := hother
  have hfirst := hread (max least least') (max least least') (by omega) (by omega)
  have hsecond := hread' (max least least') (max least least') (by omega) (by omega)
  exact Option.some.inj (hfirst.symm.trans hsecond)

theorem of_eq {read : Nat → Nat → Option α} {result : α} (h : ∀ depth width, read depth width = some result) :
    Settles read result :=
  ⟨0, fun depth width _ _ => h depth width⟩

/-- Reading goes on from the result of its first part. -/
theorem bind {first : Nat → Nat → Option α} {next : Nat → Nat → α → Option β} {value : α} {result : β}
    (hfirst : Settles first value) (hnext : Settles (fun depth width => next depth width value) result) :
    Settles (fun depth width => first depth width >>= next depth width) result := by
  obtain ⟨least, hread⟩ := hfirst
  obtain ⟨least', hread'⟩ := hnext
  refine ⟨max least least', fun depth width hdepth hwidth => ?_⟩
  show (first depth width).bind (next depth width) = some result
  rw [hread depth width (by omega) (by omega)]
  exact hread' depth width (by omega) (by omega)

/-- One more item or access. -/
theorem wider {read next : Nat → Nat → Option α} {result : α}
    (hstep : ∀ depth width, read depth (width + 1) = next depth width) (h : Settles next result) :
    Settles read result := by
  obtain ⟨least, hread⟩ := h
  refine ⟨least + 1, fun depth width hdepth hwidth => ?_⟩
  obtain ⟨width, rfl⟩ : ∃ less, width = less + 1 := ⟨width - 1, by omega⟩
  rw [hstep]
  exact hread depth width (by omega) (by omega)

/-- One operand inside another; the fuel for its depth is enough for its lists. -/
theorem deeper {read : Nat → Option α} {next : Nat → Nat → Option α} {result : α}
    (hstep : ∀ depth, read (depth + 1) = next depth depth) (h : Settles next result) :
    Settles (fun depth _ => read depth) result := by
  obtain ⟨least, hread⟩ := h
  refine ⟨least + 1, fun depth _ hdepth _ => ?_⟩
  obtain ⟨depth, rfl⟩ : ∃ less, depth = less + 1 := ⟨depth - 1, by omega⟩
  show read (depth + 1) = some result
  rw [hstep]
  exact hread depth depth (by omega) (by omega)

end Settles

end

/-! ### Places where reading stops -/

namespace Reading

/-- A text that does not go on with the word in front of it. -/
def EndsWord (text : List Char) : Prop := ∀ c ∈ text.head?, Identifier.isWordChar c = false

/-- A text that does not go on with the expression in front of it. -/
def Ends (text : List Char) : Prop := ∀ c ∈ text.head?, c ∈ [' ', ',', ')', ']']

theorem EndsWord.cons {c : Char} (h : Identifier.isWordChar c = false) (rest : List Char) : EndsWord (c :: rest) := by
  intro d hd
  cases hd
  exact h

theorem Ends.cons {c : Char} (h : c ∈ [' ', ',', ')', ']']) (rest : List Char) : Ends (c :: rest) := by
  intro d hd
  cases hd
  exact h

theorem Ends.nil : Ends [] := fun _ hc => nomatch hc

theorem Ends.endsWord {text : List Char} (h : Ends text) : EndsWord text := by
  intro c hc
  have hmark := h c hc
  simp only [List.mem_cons, List.not_mem_nil, or_false] at hmark
  rcases hmark with rfl | rfl | rfl | rfl <;> rfl

/-- A text that is read back as an expression wherever the expression may end. -/
def ReadsAs (text : List Char) (e : Expr) : Prop :=
  ∀ rest, Ends rest → Settles (fun depth _ => operand depth (text ++ rest)) (e, rest)

/-- A word ends where the text behind it does not go on with it. -/
theorem takeWhile_word {word rest : List Char} (hword : word.all Identifier.isWordChar = true)
    (hrest : EndsWord rest) : (word ++ rest).takeWhile Identifier.isWordChar = word := by
  rw [List.takeWhile_append_of_pos (List.all_eq_true.mp hword)]
  cases rest with
  | nil => rw [List.takeWhile_nil, List.append_nil]
  | cons c rest => rw [List.takeWhile_cons_of_neg (by rw [hrest c rfl]; decide), List.append_nil]

theorem dropWhile_word {word rest : List Char} (hword : word.all Identifier.isWordChar = true)
    (hrest : EndsWord rest) : (word ++ rest).dropWhile Identifier.isWordChar = rest := by
  rw [List.dropWhile_append_of_pos (List.all_eq_true.mp hword)]
  cases rest with
  | nil => rw [List.dropWhile_nil]
  | cons c rest => rw [List.dropWhile_cons_of_neg (by rw [hrest c rfl]; decide)]

/-- A character of a name is no sign, no blank and no bracket. -/
theorem isWordChar_apart {c : Char} (h : Identifier.isWordChar c = true) :
    isSign c = false ∧ c ≠ ' ' ∧ c ≠ ']' := by
  have hmarks : ∀ d ∈ ['!', '-', '+', '~', ' ', ']'], c ≠ d := by
    intro d hd hcd
    subst hcd
    simp only [List.mem_cons, List.not_mem_nil, or_false] at hd
    rcases hd with rfl | rfl | rfl | rfl | rfl | rfl <;> exact absurd h (by decide)
  simp only [List.forall_mem_cons] at hmarks
  obtain ⟨hnot, hneg, hplus, htilde, hblank, hclose, -⟩ := hmarks
  exact ⟨by simp [isSign, hnot, hneg, hplus, htilde], hblank, hclose⟩

/-! ### Lists -/

/-- A list is read back when each of its items is. -/
theorem settles_listed {α : Type} {item : Nat → List Char → Option (α × List Char)} {close rest : List Char}
    (hclose : Ends (close ++ rest)) (hcomma : after? [',', ' '] (close ++ rest) = none)
    {entries : List (String × α)} (hne : entries ≠ [])
    (hitems : ∀ entry ∈ entries, ∀ rest, Ends rest →
      Settles (fun depth _ => item depth (entry.1.toList ++ rest)) (entry.2, rest)) :
    Settles (fun depth width => listed (item depth) close width
      ((Text.joinWith ", " (entries.map (·.1))).toList ++ (close ++ rest))) (entries.map (·.2), rest) := by
  induction entries with
  | nil => exact absurd rfl hne
  | cons entry others ih =>
    obtain ⟨hentry, hothers⟩ := List.forall_mem_cons.mp hitems
    cases others with
    | nil =>
      refine Settles.wider (fun depth width => rfl) ((hentry _ hclose).bind (Settles.of_eq fun depth width => ?_))
      simp only [hcomma, after?_append]
      rfl
    | cons next others =>
      have htext : (Text.joinWith ", " ((entry :: next :: others).map (·.1))).toList ++ (close ++ rest) =
          entry.1.toList ++ ([',', ' '] ++ ((Text.joinWith ", " ((next :: others).map (·.1))).toList ++
            (close ++ rest))) := by
        simp [Text.joinWith]
      rw [htext]
      refine Settles.wider (fun depth width => rfl) ((hentry _ (Ends.cons (by decide) _)).bind ?_)
      exact (ih (List.cons_ne_nil _ _) hothers).bind (Settles.of_eq fun depth width => rfl)

/-! ### Accesses -/

theorem suffixes_end {base : Expr} {rest : List Char} (h : Ends rest) :
    Settles (fun depth width => suffixes (operand depth) width base rest) (base, rest) := by
  refine Settles.wider (fun depth width => ?_) (Settles.of_eq fun _ _ => rfl)
  cases rest with
  | nil => rfl
  | cons c rest =>
    have hc := h c rfl
    simp only [List.mem_cons, List.not_mem_nil, or_false] at hc
    rcases hc with rfl | rfl | rfl | rfl <;> rfl

variable {base : Expr} {rest : List Char} {result : Expr × List Char}

/-- A member of an expression. -/
theorem suffixes_member {name : String} (hname : Identifier.isWord name = true) (hrest : EndsWord rest)
    (h : Settles (fun depth width => suffixes (operand depth) width (.member base name) rest) result) :
    Settles (fun depth width => suffixes (operand depth) width base ('.' :: (name.toList ++ rest))) result := by
  obtain ⟨c, others, hchars, -, hall⟩ := Identifier.isWord_iff.mp hname
  rw [← hchars] at hall
  refine Settles.wider (fun depth width => ?_) h
  rw [suffixes, takeWhile_word hall hrest, dropWhile_word hall hrest, String.ofList_toList]

/-- A place in an expression. -/
theorem suffixes_index {position : Expr} {text : List Char} (hposition : ReadsAs text position)
    (h : Settles (fun depth width => suffixes (operand depth) width (.index base position) rest) result) :
    Settles (fun depth width => suffixes (operand depth) width base ('[' :: (text ++ ']' :: rest))) result := by
  exact Settles.wider (fun _ _ => rfl) ((hposition _ (Ends.cons (by decide) rest)).bind h)

/-- A call of an expression. -/
theorem suffixes_call {arguments : List Argument} {text : List Char}
    (harguments : Settles (fun depth width => bag (operand depth) width text) (arguments, rest))
    (h : Settles (fun depth width => suffixes (operand depth) width (.call base arguments false) rest) result) :
    Settles (fun depth width => suffixes (operand depth) width base ('(' :: text)) result :=
  Settles.wider (fun _ _ => rfl) (harguments.bind h)

/-- An access through `?.` is the access to an optional. -/
theorem suffixes_chained {access : List Char} (hundotted : undotted rest = access)
    (h : Settles (fun depth width => suffixes (operand depth) width (.optionalChain base false) access) result) :
    Settles (fun depth width => suffixes (operand depth) width base ('?' :: '.' :: rest)) result := by
  refine Settles.wider (fun depth width => ?_) h
  rw [suffixes, hundotted]

theorem undotted_word {name : String} (hname : Identifier.isWord name = true) (rest : List Char) :
    undotted (name.toList ++ rest) = '.' :: (name.toList ++ rest) := by
  obtain ⟨c, others, hchars, -, hall⟩ := Identifier.isWord_iff.mp hname
  rw [hchars]
  unfold undotted
  split
  · next heq =>
    injection heq with hc
    subst hc
    exact absurd hall (by simp [Identifier.isWordChar])
  · next heq =>
    injection heq with hc
    subst hc
    exact absurd hall (by simp [Identifier.isWordChar])
  · rfl

/-! ### Operands -/

/-- An operand without signs: what it begins with, and the accesses behind that. -/
theorem settles_operand {c : Char} {text : List Char} (hc : isSign c = false)
    (hprimary : Settles (fun depth width => primary (operand depth) width (c :: text)) (base, rest))
    (h : Settles (fun depth width => suffixes (operand depth) width base rest) result) :
    Settles (fun depth _ => operand depth (c :: text)) result := by
  have hread : Settles (fun depth width => primary (operand depth) width (c :: text) >>= fun found =>
      suffixes (operand depth) width found.1 found.2) result := hprimary.bind h
  refine Settles.deeper (fun depth => ?_) hread
  rw [operand, hc]
  rfl

/-- A sign and its operand, with or without a blank between them. -/
theorem settles_sign {op : UnaryOperator} {inner : Expr} {text : List Char}
    (h : Settles (fun depth _ => operand depth (skipBlank text)) (inner, rest)) :
    Settles (fun depth _ => operand depth (op.symbol :: text)) (.unary op.token inner, rest) := by
  have hread : Settles (fun depth _ => operand depth (skipBlank text) >>= fun found =>
      some (Expr.unary op.token found.1, found.2)) (.unary op.token inner, rest) :=
    h.bind (Settles.of_eq fun _ _ => rfl)
  refine Settles.deeper (fun depth => ?_) hread
  cases op <;> rfl

/-- A word: a name, a number or the object itself. -/
theorem primary_word {word : List Char} (hne : word ≠ []) (hword : word.all Identifier.isWordChar = true)
    (hrest : EndsWord rest) :
    Settles (fun depth width => primary (operand depth) width (word ++ rest)) (ofWord word, rest) := by
  refine Settles.of_eq fun depth width => ?_
  have hprimary : primary (operand depth) width (word ++ rest) =
      some (ofWord ((word ++ rest).takeWhile Identifier.isWordChar), (word ++ rest).dropWhile Identifier.isWordChar) := by
    obtain ⟨c, others, rfl⟩ := List.exists_cons_of_ne_nil hne
    have hc := (List.forall_mem_cons.mp (List.all_eq_true.mp hword)).1
    rw [List.cons_append]
    unfold primary
    split
    case h_5 => rfl
    all_goals
      next heq =>
      injection heq with hmark
      rw [hmark] at hc
      exact absurd hc (by decide)
  rw [hprimary, takeWhile_word hword hrest, dropWhile_word hword hrest]

theorem primary_string (value : String) (rest : List Char) :
    Settles (fun depth width => primary (operand depth) width ('"' :: (Quoted.escapeChars value.toList ++ '"' :: rest)))
      (.literal (.string value false), rest) := by
  refine Settles.of_eq fun depth width => ?_
  rw [primary, Quoted.read?_escapeChars]
  show some (Expr.literal (.string (String.ofList value.toList) false), rest) = _
  rw [String.ofList_toList]

theorem primary_grouping {inner : Expr} {text : List Char} (h : ReadsAs text inner) (rest : List Char) :
    Settles (fun depth width => primary (operand depth) width ('(' :: (text ++ ')' :: rest)))
      (.grouping inner, rest) :=
  (h _ (Ends.cons (by decide) rest)).bind (Settles.of_eq fun _ _ => rfl)

/-- The text of an operator, up to the blank behind it. -/
theorem takeWhile_token {token : List Char} (htoken : ' ' ∉ token) (rest : List Char) :
    (token ++ ' ' :: rest).takeWhile (· != ' ') = token ∧ (token ++ ' ' :: rest).dropWhile (· != ' ') = ' ' :: rest := by
  have hpos : ∀ c ∈ token, (c != ' ') = true := by
    intro c hc
    rw [bne_iff_ne]
    exact fun heq => htoken (heq ▸ hc)
  rw [List.takeWhile_append_of_pos hpos, List.dropWhile_append_of_pos hpos]
  exact ⟨List.append_nil token, rfl⟩

/-- Two operands with an operator between them. -/
theorem primary_operation {token : String} (hblank : ' ' ∉ token.toList) (hmark : token ≠ "?") {left right : Expr}
    {leftText rightText : List Char} (hleft : ReadsAs leftText left) (hright : ReadsAs rightText right)
    (rest : List Char) :
    Settles (fun depth width => primary (operand depth) width
        ('(' :: (leftText ++ ' ' :: (token.toList ++ ' ' :: (rightText ++ ')' :: rest)))))
      (if (LogicalOperator.ofSource? token).isSome then .logical token left right else .binary token left right,
        rest) := by
  have hgroup : Settles (fun depth _ => group (operand depth) left
      (' ' :: (token.toList ++ ' ' :: (rightText ++ ')' :: rest))))
      (if (LogicalOperator.ofSource? token).isSome then .logical token left right else .binary token left right,
        rest) := by
    have htoken := takeWhile_token hblank (rightText ++ ')' :: rest)
    simp only [group, htoken, String.ofList_toList, if_neg hmark]
    refine (hright _ (Ends.cons (by decide) rest)).bind (Settles.of_eq fun _ _ => ?_)
    cases (LogicalOperator.ofSource? token).isSome <;> rfl
  exact (hleft _ (Ends.cons (by decide) _)).bind hgroup

/-- A condition and two values. -/
theorem primary_ternary {condition thenValue elseValue : Expr} {conditionText thenText elseText : List Char}
    (hcondition : ReadsAs conditionText condition) (hthen : ReadsAs thenText thenValue)
    (helse : ReadsAs elseText elseValue) (rest : List Char) :
    Settles (fun depth width => primary (operand depth) width
        ('(' :: (conditionText ++ ' ' :: '?' :: ' ' :: (thenText ++ ' ' :: ':' :: ' ' :: (elseText ++ ')' :: rest)))))
      (.ternary condition thenValue elseValue, rest) := by
  have hgroup : Settles (fun depth _ => group (operand depth) condition
      (' ' :: '?' :: ' ' :: (thenText ++ ' ' :: ':' :: ' ' :: (elseText ++ ')' :: rest))))
      (.ternary condition thenValue elseValue, rest) := by
    refine (hthen _ (Ends.cons (by decide) _)).bind ?_
    exact (helse _ (Ends.cons (by decide) rest)).bind (Settles.of_eq fun _ _ => rfl)
  exact (hcondition _ (Ends.cons (by decide) _)).bind hgroup

/-- A text that begins with neither a blank nor the end of a list. -/
def Begins (text : List Char) : Prop := ∃ c rest, text = c :: rest ∧ c ≠ ' ' ∧ c ≠ ']'

/-- A list of expressions. -/
theorem primary_array {entries : List (String × Expr)} (hentries : ∀ entry ∈ entries, ReadsAs entry.1.toList entry.2)
    (hbegins : ∀ entry ∈ entries, Begins entry.1.toList) (rest : List Char) :
    Settles (fun depth width => primary (operand depth) width
        ('[' :: ((Text.joinWith ", " (entries.map (·.1))).toList ++ ']' :: rest)))
      (.array (entries.map (·.2)), rest) := by
  cases entries with
  | nil => exact Settles.of_eq fun _ _ => rfl
  | cons entry others =>
    obtain ⟨c, chars, hchars, -, hc⟩ := hbegins entry List.mem_cons_self
    obtain ⟨tail, htail⟩ : ∃ tail,
        (Text.joinWith ", " ((entry :: others).map (·.1))).toList ++ ']' :: rest = c :: tail := by
      cases others <;> simp [Text.joinWith, hchars]
    have hlisted : Settles (fun depth width => listed (operand depth) [']'] width
        ((Text.joinWith ", " ((entry :: others).map (·.1))).toList ++ ([']'] ++ rest)))
        ((entry :: others).map (·.2), rest) :=
      settles_listed (Ends.cons (by decide) rest) rfl (List.cons_ne_nil entry others) hentries
    rw [List.singleton_append, htail] at hlisted
    have hprimary : ∀ depth width, primary (operand depth) width ('[' :: c :: tail) =
        (listed (operand depth) [']'] width (c :: tail) >>= fun found => some (.array found.1, found.2)) := by
      intro depth width
      rw [primary]
      · rfl
      · intro others heq
        injection heq with heq
        exact hc heq
    simp only [htail, hprimary]
    exact hlisted.bind (Settles.of_eq fun _ _ => rfl)

/-- The arguments of a call. -/
theorem settles_bag {entries : List (String × Argument)}
    (hentries : ∀ entry ∈ entries, ∀ rest, Ends rest →
      Settles (fun depth _ => argument (operand depth) (entry.1.toList ++ rest)) (entry.2, rest)) (rest : List Char) :
    Settles (fun depth width => bag (operand depth) width
      ((ParameterBag.argumentText (entries.map (·.1))).toList ++ ')' :: rest)) (entries.map (·.2), rest) := by
  cases entries with
  | nil => exact Settles.of_eq fun _ _ => rfl
  | cons entry others =>
    have htext : (ParameterBag.argumentText ((entry :: others).map (·.1))).toList ++ ')' :: rest =
        '{' :: ' ' :: ((Text.joinWith ", " ((entry :: others).map (·.1))).toList ++ ([' ', '}', ')'] ++ rest)) := by
      simp [ParameterBag.argumentText]
    rw [htext]
    exact settles_listed (Ends.cons (by decide) _) rfl (List.cons_ne_nil entry others) hentries

/-- An argument is read back under its key. -/
theorem settles_argument {key : String} (hkey : key.toList.all Identifier.isWordChar = true) {value : Expr}
    {text : List Char} (hvalue : ReadsAs text value) {rest : List Char} (hrest : Ends rest) :
    Settles (fun depth _ => argument (operand depth) (key.toList ++ ':' :: ' ' :: (text ++ rest)))
      (⟨some key, value⟩, rest) := by
  have hends : EndsWord (':' :: ' ' :: (text ++ rest)) := EndsWord.cons (by decide) _
  simp only [argument, dropWhile_word hkey hends, takeWhile_word hkey hends, String.ofList_toList]
  exact (hvalue rest hrest).bind (Settles.of_eq fun _ _ => rfl)

end Reading

end ScriptLowering
