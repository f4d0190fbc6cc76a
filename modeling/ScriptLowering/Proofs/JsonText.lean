import ScriptLowering.Json.Pretty
import ScriptLowering.Json.Reader

/-!
# A printed document reads back

Reading goes through tokens, so printing is compared with reading at the tokens of a document.

* `Json.Plain` — no part of the document is unreadable or a number other than digits;
* `Json.tokens` — the tokens of a document;
* `Json.scan_pretty` — a printed document is scanned into its tokens, whatever follows it;
* `Json.value?_tokens` — the tokens of a document are read into the document;
* `Json.parse?_pretty` — a printed document reads back.
-/

namespace ScriptLowering.Json

/-! ### Plain documents and their tokens -/

mutual

/-- No part of the document is unreadable or a number other than digits. -/
def Plain : Json → Prop
  | .decimal _ => False
  | .unreadable => False
  | .array items => PlainItems items
  | .object members => PlainMembers members
  | _ => True

/-- Every item is plain. -/
def PlainItems : List Json → Prop
  | [] => True
  | item :: rest => item.Plain ∧ PlainItems rest

/-- Every member has a plain value. -/
def PlainMembers : List (String × Json) → Prop
  | [] => True
  | (_, value) :: rest => value.Plain ∧ PlainMembers rest

end

mutual

/-- The tokens of a document. -/
def tokens : Json → List Token
  | .array items => .mark '[' :: itemTokens items ++ [.mark ']']
  | .object members => .mark '{' :: memberTokens members ++ [.mark '}']
  | .null => [.scalar .null]
  | .bool value => [.scalar (.bool value)]
  | .natural value => [.scalar (.natural value)]
  | .decimal text => [.scalar (.decimal text)]
  | .string text => [.scalar (.string text)]
  | .unreadable => [.scalar .unreadable]

/-- The tokens of some items, with a comma between each two. -/
def itemTokens : List Json → List Token
  | [] => []
  | [item] => item.tokens
  | item :: next :: rest => item.tokens ++ .mark ',' :: itemTokens (next :: rest)

/-- The tokens of some members, with a comma between each two. -/
def memberTokens : List (String × Json) → List Token
  | [] => []
  | [(key, value)] => .scalar (.string key) :: .mark ':' :: value.tokens
  | (key, value) :: next :: rest =>
    .scalar (.string key) :: .mark ':' :: value.tokens ++ .mark ',' :: memberTokens (next :: rest)

end

/-! ### Scanning -/

/-- The tokens of a text, after some that have been read, in reverse. -/
def scanFrom (read : List Token) (text : List Char) : Option (List Token) := do
  let scan ← text.foldlM Scan.read ⟨read, .nothing⟩
  scan.finish

theorem tokens?_eq_scanFrom (text : List Char) : tokens? text = scanFrom [] text := rfl

variable (read : List Token) (rest : List Char)

theorem scanFrom_blank {c : Char} (hc : isBlank c = true) : scanFrom read (c :: rest) = scanFrom read rest := by
  simp [scanFrom, Scan.read, Scan.start, hc]

theorem scanFrom_mark {c : Char} (hblank : isBlank c = false) (hmark : isMark c = true) :
    scanFrom read (c :: rest) = scanFrom (.mark c :: read) rest := by
  simp [scanFrom, Scan.read, Scan.start, hblank, hmark]

theorem scanFrom_margin (depth : Nat) :
    scanFrom read ((Text.margin depth).toList ++ rest) = scanFrom read rest := by
  have hblanks : ∀ count, scanFrom read (List.replicate count ' ' ++ rest) = scanFrom read rest := by
    intro count
    induction count with
    | zero => rfl
    | succ count ih => rw [List.replicate_succ, List.cons_append, scanFrom_blank _ _ (by decide), ih]
  rw [Text.margin, String.toList_ofList, hblanks]

/-- The text ends, or goes on with a character that no word holds. -/
def EndsWord (text : List Char) : Prop := ∀ c ∈ text.head?, isWordChar c = false

/-- Reading the characters of a word. -/
theorem foldlM_word (word : List Char) (hword : ∀ c ∈ word, isWordChar c = true) (before : List Char) :
    word.foldlM Scan.read ⟨read, .word before⟩ = some ⟨read, .word (word.reverse ++ before)⟩ := by
  induction word generalizing before with
  | nil => rfl
  | cons c word ih =>
    simp only [List.forall_mem_cons] at hword
    rw [List.foldlM_cons]
    simp [Scan.read, hword.1, ih hword.2]

/-- A word character neither stands between tokens nor begins a token of another kind. -/
theorem start_wordChar {c : Char} (hc : isWordChar c = true) : Scan.start read c = some ⟨read, .word [c]⟩ := by
  have hother : ∀ d : Char, isWordChar d = false → c ≠ d := by
    rintro d hd rfl
    exact Bool.false_ne_true (hd.symm.trans hc)
  have hblank : isBlank c = false := by
    simp [isBlank, hother ' ' (by decide), hother '\t' (by decide), hother '\n' (by decide), hother '\r' (by decide)]
  have hmark : isMark c = false := by
    simp [isMark, hother '{' (by decide), hother '}' (by decide), hother '[' (by decide), hother ']' (by decide),
      hother ':' (by decide), hother ',' (by decide)]
  simp [Scan.start, hblank, hmark, hother '"' (by decide), hc]

theorem scanFrom_word (word : List Char) {value : Json} (hne : word ≠ [])
    (hword : word.all isWordChar = true) (hvalue : ofWord? word = some value) (hend : EndsWord rest) :
    scanFrom read (word ++ rest) = scanFrom (.scalar value :: read) rest := by
  obtain ⟨c, others, rfl⟩ := List.exists_cons_of_ne_nil hne
  have hread : (c :: others).foldlM Scan.read ⟨read, .nothing⟩ = some ⟨read, .word (c :: others).reverse⟩ := by
    simp only [List.all_eq_true, List.forall_mem_cons] at hword
    rw [List.foldlM_cons]
    simp [Scan.read, start_wordChar read hword.1, foldlM_word read others hword.2]
  rw [scanFrom, List.foldlM_append, hread]
  cases rest with
  | nil => simp [scanFrom, Scan.finish, hvalue]
  | cons d rest =>
    have hd : isWordChar d = false := hend d rfl
    simp [scanFrom, Scan.read, hd, hvalue]

/-! ### Strings -/

theorem hexChar_plain : ∀ digit < 16, hexChar digit ≠ '"' ∧ hexChar digit ≠ '\\' ∧ ¬ hexChar digit < ' ' := by
  decide

theorem hexDigit?_hexChar : ∀ digit < 16, Numeral.hexDigit? (hexChar digit) = some digit := by
  decide

/-- A control character is written with two hexadecimal digits. -/
theorem hexValue?_of_lt {n : Nat} (hn : n < 256) :
    Numeral.hexValue? ['0', '0', hexChar (n / 16), hexChar (n % 16)] = some n := by
  have hzero : Numeral.hexDigit? '0' = some 0 := by decide
  have hhigh := hexDigit?_hexChar (n / 16) (by omega)
  have hlow := hexDigit?_hexChar (n % 16) (by omega)
  simp only [Numeral.hexValue?, List.foldlM_cons, List.foldlM_nil, hzero, hhigh, hlow, Option.map_some,
    Option.bind_eq_bind, Option.bind_some, Option.pure_def]
  congr 1
  omega

/-- A character is written with a letter, with its code, or as itself. -/
theorem quotedChar_cases (c : Char) :
    (∃ e, quotedChar c = ['\\', e] ∧ e ≠ 'u' ∧ escapedChar? e = some c) ∨
      (quotedChar c = ['\\', 'u', '0', '0', hexChar (c.toNat / 16), hexChar (c.toNat % 16)] ∧ c.toNat < 32) ∨
      (quotedChar c = [c] ∧ c ≠ '"' ∧ c ≠ '\\' ∧ ¬ c < ' ') := by
  by_cases hletter : c ∈ ['"', '\\', '\x08', '\x0c', '\n', '\r', '\t']
  · left
    simp only [List.mem_cons, List.not_mem_nil, or_false] at hletter
    rcases hletter with rfl | rfl | rfl | rfl | rfl | rfl | rfl <;> exact ⟨_, rfl, by decide, rfl⟩
  · right
    simp only [List.mem_cons, List.not_mem_nil, or_false, not_or] at hletter
    by_cases hcontrol : c < ' '
    · left
      exact ⟨by simp [quotedChar, hletter, hcontrol], hcontrol⟩
    · right
      exact ⟨by simp [quotedChar, hletter, hcontrol], hletter.1, hletter.2.1, hcontrol⟩

/-- What stands for a character inside quotes keeps the scan inside them. -/
theorem foldlM_quotedChar (c : Char) (before : List Char) :
    (quotedChar c).foldlM Scan.read ⟨read, .quoted before⟩ =
      some ⟨read, .quoted ((quotedChar c).reverse ++ before)⟩ := by
  rcases quotedChar_cases c with ⟨e, heq, -, -⟩ | ⟨heq, hlt⟩ | ⟨heq, hquote, hslash, hcontrol⟩
  · simp [heq, Scan.read]
  · have hhigh := hexChar_plain (c.toNat / 16) (by omega)
    have hlow := hexChar_plain (c.toNat % 16) (by omega)
    simp [heq, Scan.read, hhigh, hlow]
  · simp [heq, Scan.read, hquote, hslash, hcontrol]

/-- What stands for a character inside quotes spells its code. -/
theorem codeUnits?_quotedChar (c : Char) (rest : List Char) :
    codeUnits? (quotedChar c ++ rest) = (codeUnits? rest).map (c.toNat :: ·) := by
  rcases quotedChar_cases c with ⟨e, heq, hu, hchar⟩ | ⟨heq, hlt⟩ | ⟨heq, -, hslash, -⟩
  · cases hrest : codeUnits? rest <;> simp [heq, codeUnits?, hu, hchar, hrest]
  · have hcode := hexValue?_of_lt (n := c.toNat) (by omega)
    cases hrest : codeUnits? rest <;> simp [heq, codeUnits?, hcode, hrest]
  · simp [heq, codeUnits?, hslash]

theorem foldlM_quotedChars (text before : List Char) :
    (text.flatMap quotedChar).foldlM Scan.read ⟨read, .quoted before⟩ =
      some ⟨read, .quoted ((text.flatMap quotedChar).reverse ++ before)⟩ := by
  induction text generalizing before with
  | nil => rfl
  | cons c text ih =>
    rw [List.flatMap_cons, List.foldlM_append, foldlM_quotedChar]
    simp [ih]

theorem codeUnits?_quotedChars (text : List Char) :
    codeUnits? (text.flatMap quotedChar) = some (text.map Char.toNat) := by
  induction text with
  | nil => rfl
  | cons c text ih => rw [List.flatMap_cons, codeUnits?_quotedChar, ih, Option.map_some, List.map_cons]

/-- No character is half of a pair. -/
theorem not_half (c : Char) : isHighHalf c.toNat = false ∧ isLowHalf c.toNat = false := by
  have hvalid : c.toNat < 0xD800 ∨ 0xDFFF < c.toNat ∧ c.toNat < 0x110000 := c.valid
  simp only [isHighHalf, isLowHalf, Bool.and_eq_false_iff, decide_eq_false_iff_not, Nat.not_le]
  omega

theorem charsOfUnits?_map_toNat (text : List Char) : charsOfUnits? (text.map Char.toNat) = some text := by
  induction text with
  | nil => rfl
  | cons c text ih =>
    cases text with
    | nil => simp [charsOfUnits?, not_half]
    | cons d text => simpa [charsOfUnits?, not_half] using ih

/-- What stands for the characters of a text inside quotes reads as the text. -/
theorem ofQuoted?_quotedChars (text : String) :
    ofQuoted? (text.toList.flatMap quotedChar) = some (.string text) := by
  simp [ofQuoted?, codeUnits?_quotedChars, charsOfUnits?_map_toNat]

theorem scanFrom_quoted (text : String) :
    scanFrom read ((quoted text).toList ++ rest) = scanFrom (.scalar (.string text) :: read) rest := by
  have hchars : (quoted text).toList = '"' :: (text.toList.flatMap quotedChar ++ ['"']) := by
    simp [quoted]
  have hopen : Scan.start read '"' = some ⟨read, .quoted []⟩ := by
    simp [Scan.start, isBlank, isMark]
  simp [scanFrom, hchars, hopen, foldlM_quotedChars, Scan.read, ofQuoted?_quotedChars]

/-! ### Numbers -/

theorem isWordChar_of_isDigit {c : Char} (hc : c.isDigit = true) : isWordChar c = true := by
  simp [isWordChar, Char.isAlphanum, hc]

/-- The numeral of a positive number does not start with a zero. -/
theorem head?_toDigits_ne_zero (n : Nat) (hn : 0 < n) : ∃ c rest, Nat.toDigits 10 n = c :: rest ∧ c ≠ '0' := by
  induction n using Nat.strongRecOn with
  | _ n ih =>
    by_cases hlt : n < 10
    · have hdigit : ∀ m < 10, 0 < m → Nat.digitChar m ≠ '0' := by decide
      exact ⟨n.digitChar, [], Nat.toDigits_of_lt_base hlt, hdigit n hlt hn⟩
    · obtain ⟨c, rest, heq, hc⟩ := ih (n / 10) (by omega) (by omega)
      have hsplit := Nat.toDigits_of_base_le (b := 10) (n := n) (by decide) (by omega)
      exact ⟨c, rest ++ [(n % 10).digitChar], by rw [hsplit, heq, List.cons_append], hc⟩

theorem isWholePart_toDigits (n : Nat) : isWholePart (Nat.toDigits 10 n) = true := by
  rcases Nat.eq_zero_or_pos n with rfl | hn
  · rfl
  · obtain ⟨c, rest, heq, hc⟩ := head?_toDigits_ne_zero n hn
    simp [heq, isWholePart, hc]

theorem ofWord?_toDigits (n : Nat) : ofWord? (Nat.toDigits 10 n) = some (.natural n) := by
  have hwhole : (Nat.toDigits 10 n).takeWhile Char.isDigit = Nat.toDigits 10 n := by
    rw [← List.append_nil (Nat.toDigits 10 n), List.takeWhile_append_of_pos (Numeral.isDigit_toDigits n),
      List.takeWhile_nil]
  have htail : (Nat.toDigits 10 n).dropWhile Char.isDigit = [] := by
    rw [← List.append_nil (Nat.toDigits 10 n), List.dropWhile_append_of_pos (Numeral.isDigit_toDigits n),
      List.dropWhile_nil]
  have hvalue : ofUnsigned? (Nat.toDigits 10 n) = some (.natural n) := by
    simp [ofUnsigned?, hwhole, htail, isWholePart_toDigits, isNumberTail, isExponent, Numeral.value_toDigits]
  -- No digit begins a name or is the sign, so the last case of `ofWord?` is taken.
  have hhead : ∀ c rest, Nat.toDigits 10 n = c :: rest → c.isDigit = true :=
    fun c rest heq => Numeral.isDigit_toDigits n c (by simp [heq])
  unfold ofWord?
  split
  case h_5 => exact hvalue
  all_goals
    rename_i heq
    exact absurd (hhead _ _ heq) (by decide)

theorem scanFrom_natural (n : Nat) (hend : EndsWord rest) :
    scanFrom read ((toString n).toList ++ rest) = scanFrom (.scalar (.natural n) :: read) rest := by
  rw [Nat.toString_eq_ofList_toDigits, String.toList_ofList]
  have hword : (Nat.toDigits 10 n).all isWordChar = true :=
    List.all_eq_true.mpr fun c hc => isWordChar_of_isDigit (Numeral.isDigit_toDigits n c hc)
  exact scanFrom_word read rest _ Nat.toDigits_ne_nil hword (ofWord?_toDigits n) hend

/-! ### Documents -/

theorem endsWord_cons {c : Char} (hc : isWordChar c = false) : EndsWord (c :: rest) := by
  rintro d ⟨⟩
  exact hc

theorem endsWord_comma : EndsWord (",\n".toList ++ rest) := endsWord_cons _ (by decide)

/-- The two characters between the lines of two items. -/
theorem scanFrom_comma_newline : scanFrom read (",\n".toList ++ rest) = scanFrom (.mark ',' :: read) rest := by
  show scanFrom read (',' :: '\n' :: rest) = _
  rw [scanFrom_mark _ _ (by decide) (by decide), scanFrom_blank _ _ (by decide)]

/-- The two characters after a key. -/
theorem scanFrom_colon_blank : scanFrom read (": ".toList ++ rest) = scanFrom (.mark ':' :: read) rest := by
  show scanFrom read (':' :: ' ' :: rest) = _
  rw [scanFrom_mark _ _ (by decide) (by decide), scanFrom_blank _ _ (by decide)]

/-- Some lines between a bracket and the bracket that closes it. -/
theorem scanFrom_bracketed (first last : Char) {inner : List Char} {found : List Token} (depth : Nat)
    (hfirst : isBlank first = false ∧ isMark first = true) (hlast : isBlank last = false ∧ isMark last = true)
    (hinner : ∀ read rest, EndsWord rest → scanFrom read (inner ++ rest) = scanFrom (found.reverse ++ read) rest) :
    scanFrom read (first :: '\n' :: (inner ++ '\n' :: ((Text.margin depth).toList ++ last :: rest))) =
      scanFrom ((Token.mark first :: found ++ [Token.mark last]).reverse ++ read) rest := by
  rw [scanFrom_mark _ _ hfirst.1 hfirst.2, scanFrom_blank _ _ (by decide), hinner _ _ (endsWord_cons _ (by decide)),
    scanFrom_blank _ _ (by decide), scanFrom_margin, scanFrom_mark _ _ hlast.1 hlast.2]
  simp

mutual

/-- A printed document is scanned into its tokens, whatever follows it. -/
theorem scan_pretty : ∀ (document : Json) (depth : Nat) (read : List Token) (rest : List Char), document.Plain →
    EndsWord rest →
      scanFrom read ((document.pretty depth).toList ++ rest) = scanFrom (document.tokens.reverse ++ read) rest
  | .null, _, read, rest, _, hend => by
    rw [pretty, tokens]
    exact scanFrom_word read rest "null".toList (by decide) (by decide) rfl hend
  | .bool true, _, read, rest, _, hend => by
    rw [pretty, tokens]
    exact scanFrom_word read rest "true".toList (by decide) (by decide) rfl hend
  | .bool false, _, read, rest, _, hend => by
    rw [pretty, tokens]
    exact scanFrom_word read rest "false".toList (by decide) (by decide) rfl hend
  | .natural value, _, read, rest, _, hend => by
    rw [pretty, tokens]
    exact scanFrom_natural read rest value hend
  | .string text, _, read, rest, _, _ => by
    rw [pretty, tokens]
    exact scanFrom_quoted read rest text
  | .array [], _, read, rest, _, _ => by
    rw [pretty]
    show scanFrom read ('[' :: ']' :: rest) = _
    rw [scanFrom_mark _ _ (by decide) (by decide), scanFrom_mark _ _ (by decide) (by decide)]
    simp [tokens, itemTokens]
  | .array (item :: others), depth, read, rest, hplain, _ => by
    have hinner := fun read rest => scan_prettyItems (item :: others) (depth + 1) read rest hplain
    have hall := scanFrom_bracketed read rest '[' ']' depth (by decide) (by decide) hinner
    simpa [pretty, tokens] using hall
  | .object [], _, read, rest, _, _ => by
    rw [pretty]
    show scanFrom read ('{' :: '}' :: rest) = _
    rw [scanFrom_mark _ _ (by decide) (by decide), scanFrom_mark _ _ (by decide) (by decide)]
    simp [tokens, memberTokens]
  | .object (member :: others), depth, read, rest, hplain, _ => by
    have hinner := fun read rest => scan_prettyMembers (member :: others) (depth + 1) read rest hplain
    have hall := scanFrom_bracketed read rest '{' '}' depth (by decide) (by decide) hinner
    simpa [pretty, tokens] using hall

theorem scan_prettyItems : ∀ (items : List Json) (depth : Nat) (read : List Token) (rest : List Char),
    PlainItems items → EndsWord rest →
      scanFrom read ((Text.joinWith ",\n" (prettyItems depth items)).toList ++ rest) =
        scanFrom ((itemTokens items).reverse ++ read) rest
  | [], _, _, _, _, _ => by simp [prettyItems, Text.joinWith, itemTokens]
  | [item], depth, read, rest, hplain, hend => by
    simp only [prettyItems, Text.joinWith, itemTokens, String.toList_append, List.append_assoc]
    rw [scanFrom_margin, scan_pretty item depth read rest hplain.1 hend]
  | item :: next :: others, depth, read, rest, hplain, hend => by
    have hrest := fun read => scan_prettyItems (next :: others) depth read rest hplain.2 hend
    simp only [prettyItems, Text.joinWith, itemTokens, String.toList_append, List.append_assoc] at hrest ⊢
    rw [scanFrom_margin, scan_pretty item depth read _ hplain.1 (endsWord_comma _), scanFrom_comma_newline, hrest]
    simp

theorem scan_prettyMembers : ∀ (members : List (String × Json)) (depth : Nat) (read : List Token) (rest : List Char),
    PlainMembers members → EndsWord rest →
      scanFrom read ((Text.joinWith ",\n" (prettyMembers depth members)).toList ++ rest) =
        scanFrom ((memberTokens members).reverse ++ read) rest
  | [], _, _, _, _, _ => by simp [prettyMembers, Text.joinWith, memberTokens]
  | [(key, value)], depth, read, rest, hplain, hend => by
    simp only [prettyMembers, Text.joinWith, memberTokens, String.toList_append, List.append_assoc]
    rw [scanFrom_margin, scanFrom_quoted, scanFrom_colon_blank, scan_pretty value depth _ rest hplain.1 hend]
    simp
  | (key, value) :: next :: others, depth, read, rest, hplain, hend => by
    have hrest := fun read => scan_prettyMembers (next :: others) depth read rest hplain.2 hend
    simp only [prettyMembers, Text.joinWith, memberTokens, String.toList_append, List.append_assoc] at hrest ⊢
    rw [scanFrom_margin, scanFrom_quoted, scanFrom_colon_blank,
      scan_pretty value depth _ _ hplain.1 (endsWord_comma _), scanFrom_comma_newline, hrest]
    simp

end

/-! ### Nesting -/

/-- The tokens of a document start with a scalar or an opening bracket. -/
theorem tokens_eq_cons (document : Json) : ∃ head tail, document.tokens = head :: tail ∧ head ≠ .mark ']' := by
  cases document <;> simp [tokens]

theorem itemTokens_ne_close (item : Json) (others : List Json) (rest tail : List Token) :
    itemTokens (item :: others) ++ rest ≠ .mark ']' :: tail := by
  obtain ⟨head, inner, heq, hne⟩ := tokens_eq_cons item
  cases others <;> simp [itemTokens, heq, hne]

theorem memberTokens_ne_close (member : String × Json) (others : List (String × Json)) (rest tail : List Token) :
    memberTokens (member :: others) ++ rest ≠ .mark '}' :: tail := by
  cases others <;> simp [memberTokens]

theorem mapM_some_keys {f : Option String × Json → Option (String × Json)}
    (hf : ∀ key value, f (some key, value) = some (key, value)) (members : List (String × Json)) :
    (members.map fun member => (some member.1, member.2)).mapM f = some members := by
  induction members with
  | nil => rfl
  | cons member members ih => simp [List.mapM_cons, hf, ih]

/-- Keys that are texts make an object. -/
theorem ofMembers_some (members : List (String × Json)) :
    ofMembers (members.map fun member => (some member.1, member.2)) = .object members := by
  rw [ofMembers, mapM_some_keys fun _ _ => rfl]

/- A bracket and its first item take two calls, and so do a comma and the next item, which is why twice the
number of tokens is enough; the items of a list are given one call more than their tokens ask for. -/
mutual

/-- The tokens of a document are read into the document. -/
theorem value?_tokens : ∀ (document : Json) (rest : List Token) (n : Nat), 2 * document.tokens.length ≤ n →
    value? n (document.tokens ++ rest) = some (document, rest)
  | .array [], rest, n + 1, _ => by simp [tokens, itemTokens, value?]
  | .array (item :: others), rest, n + 1, hn => by
    simp only [tokens, List.cons_append, List.append_assoc, List.nil_append, List.length_cons,
      List.length_append] at hn ⊢
    rw [value?]
    · rw [items?_tokens item others rest n (by omega)]
      rfl
    · exact fun tail h => itemTokens_ne_close item others _ tail h
  | .object [], rest, n + 1, _ => by simp [tokens, memberTokens, value?]
  | .object (member :: others), rest, n + 1, hn => by
    simp only [tokens, List.cons_append, List.append_assoc, List.nil_append, List.length_cons,
      List.length_append] at hn ⊢
    rw [value?]
    · rw [members?_tokens member others rest n (by omega), ← ofMembers_some]
      rfl
    · exact fun tail h => memberTokens_ne_close member others _ tail h
  | .null, _, n + 1, _ => rfl
  | .bool _, _, n + 1, _ => rfl
  | .natural _, _, n + 1, _ => rfl
  | .decimal _, _, n + 1, _ => rfl
  | .string _, _, n + 1, _ => rfl
  | .unreadable, _, n + 1, _ => rfl

theorem items?_tokens : ∀ (item : Json) (others : List Json) (rest : List Token) (n : Nat),
    2 * (itemTokens (item :: others)).length < n →
      items? n (itemTokens (item :: others) ++ .mark ']' :: rest) = some (item :: others, rest)
  | item, [], rest, n + 1, hn => by
    simp only [itemTokens] at hn ⊢
    rw [items?, value?_tokens item _ n (by omega)]
    rfl
  | item, next :: others, rest, n + 1, hn => by
    simp only [itemTokens, List.length_append, List.length_cons, List.append_assoc, List.cons_append] at hn ⊢
    rw [items?, value?_tokens item _ n (by omega)]
    simp [items?_tokens next others rest n (by omega)]

theorem members?_tokens : ∀ (member : String × Json) (others : List (String × Json)) (rest : List Token) (n : Nat),
    2 * (memberTokens (member :: others)).length < n →
      members? n (memberTokens (member :: others) ++ .mark '}' :: rest) =
        some ((member :: others).map fun member => (some member.1, member.2), rest)
  | (key, value), [], rest, n + 1, hn => by
    simp only [memberTokens, List.length_cons, List.cons_append] at hn ⊢
    rw [members?]
    simp [key?, value?_tokens value _ n (by omega)]
  | (key, value), next :: others, rest, n + 1, hn => by
    simp only [memberTokens, List.length_append, List.length_cons, List.append_assoc, List.cons_append] at hn ⊢
    rw [members?]
    simp [key?, value?_tokens value _ n (by omega), members?_tokens next others rest n (by omega)]

end

/-- A printed document reads back. -/
theorem parse?_pretty (document : Json) (depth : Nat) (hplain : document.Plain) :
    parse? (document.pretty depth) = some document := by
  have htokens : tokens? (document.pretty depth).toList = some document.tokens := by
    have hscan := scan_pretty document depth [] [] hplain (by simp [EndsWord])
    simpa [tokens?_eq_scanFrom, scanFrom, Scan.finish] using hscan
  have hvalue := value?_tokens document [] (2 * document.tokens.length + 1) (by omega)
  rw [List.append_nil] at hvalue
  simp [parse?, htokens, hvalue]

end ScriptLowering.Json
