import ScriptLowering.Identifier
import ScriptLowering.Numeral

/-!
# Names that are emitted

* `Identifier.isWordChar`, `Identifier.isWord` — the characters of a name, and names that are one word;
* `Identifier.isReserved_safe` — no emitted name is reserved;
* `Identifier.safe_safe` — an emitted name is emitted as it is;
* `Identifier.safe_eq_self_iff` — the names that are emitted as they are;
* `Identifier.Merges`, `Identifier.safe_eq_safe_iff` — the names that are emitted as one;
* `Identifier.safe_merges_known_pairs` — what emitted names are, and which names become one;
* `Identifier.safe_eq_dollar_iff` — the names that are emitted with a dollar sign in front;
* `Identifier.isWord_safe` — a word is emitted as a word.
-/

namespace ScriptLowering.Identifier

/-- A character that may stand in a name: a letter, a digit, `_`, `$` or any character beyond ASCII. -/
def isWordChar (c : Char) : Bool := c.isAlphanum || c = '_' || c = '$' || 128 ≤ c.toNat

/-- Whether a name is one word that a digit does not begin. -/
def isWord (name : String) : Bool :=
  match name.toList with
  | [] => false
  | c :: rest => isWordChar c && !c.isDigit && rest.all isWordChar

/-! ### Reserved words -/

/-- No reserved word begins or ends with an underscore. -/
theorem reserved_ends : ∀ word ∈ reserved,
    word.toList.head? ≠ some '_' ∧ word.toList.getLast? ≠ some '_' := by
  decide +kernel

/-- No reserved word begins with a dollar sign. -/
theorem reserved_head : ∀ word ∈ reserved, word.toList.head? ≠ some '$' := by
  decide +kernel

theorem isReserved_underscore (name : String) : isReserved (name ++ "_") = false := by
  rw [isReserved, List.contains_eq_mem, decide_eq_false_iff_not]
  intro hmem
  refine (reserved_ends _ hmem).2 ?_
  rw [String.toList_append]
  exact List.getLast?_concat

theorem isReserved_argument (digits : String) : isReserved ("__arg" ++ digits) = false := by
  rw [isReserved, List.contains_eq_mem, decide_eq_false_iff_not]
  intro hmem
  refine (reserved_ends _ hmem).1 ?_
  rw [String.toList_append]
  rfl

/-! ### Anonymous parameters -/

/-- An anonymous parameter is a dollar sign and digits. -/
theorem anonymousDigits?_eq_some {name : String} {digits : List Char} (h : anonymousDigits? name = some digits) :
    name.toList = '$' :: digits ∧ digits ≠ [] ∧ digits.all Char.isDigit = true := by
  unfold anonymousDigits? at h
  split at h
  · next c rest hname =>
    by_cases hdigits : (c :: rest).all Char.isDigit = true
    · rw [if_pos hdigits] at h
      injection h with h
      exact h ▸ ⟨hname, List.cons_ne_nil c rest, hdigits⟩
    · rw [if_neg hdigits] at h
      exact nomatch h
  · exact nomatch h

theorem toList_dollar (digits : List Char) : ("$" ++ String.ofList digits).toList = '$' :: digits := by
  rw [String.toList_append, String.toList_ofList, String.toList_ofList]
  rfl

/-- The anonymous parameters are the names that are a dollar sign and digits. -/
theorem anonymousDigits?_eq_some_iff {name : String} {digits : List Char} : anonymousDigits? name = some digits ↔
    name = "$" ++ String.ofList digits ∧ Numeral.isDigits digits = true := by
  constructor
  · intro h
    obtain ⟨hname, hne, hall⟩ := anonymousDigits?_eq_some h
    refine ⟨?_, ?_⟩
    · rw [← String.toList_inj, hname, toList_dollar]
    · rw [Numeral.isDigits, hall, List.isEmpty_eq_false_iff.mpr hne]
      rfl
  · rintro ⟨rfl, hdigits⟩
    rw [Numeral.isDigits, Bool.and_eq_true] at hdigits
    rw [anonymousDigits?, toList_dollar]
    cases digits with
    | nil => exact absurd hdigits.1 (by decide)
    | cons c rest => exact if_pos hdigits.2

theorem anonymousDigits?_underscore (name : String) : anonymousDigits? (name ++ "_") = none := by
  cases h : anonymousDigits? (name ++ "_") with
  | none => rfl
  | some digits =>
    obtain ⟨hname, hne, hdigits⟩ := anonymousDigits?_eq_some h
    -- The last character would be a digit and an underscore.
    have hlast : ('$' :: digits).getLast? = some '_' := by
      rw [← hname, String.toList_append]
      exact List.getLast?_concat
    have hmem : '_' ∈ digits := by
      rw [List.getLast?_cons_of_ne_nil hne] at hlast
      exact List.mem_of_getLast? hlast
    exact absurd (List.all_eq_true.mp hdigits '_' hmem) (by decide)

theorem anonymousDigits?_argument (digits : String) : anonymousDigits? ("__arg" ++ digits) = none := by
  unfold anonymousDigits?
  split
  · next c rest hname =>
    rw [String.toList_append] at hname
    exact nomatch hname
  · rfl

/-! ### Emitted names -/

/-- The three ways in which a name is emitted. -/
theorem safe_cases (name : String) :
    isReserved name = true ∧ safe name = name ++ "_" ∨
      (∃ digits, anonymousDigits? name = some digits ∧ safe name = "__arg" ++ String.ofList digits) ∨
      isReserved name = false ∧ anonymousDigits? name = none ∧ safe name = name := by
  by_cases hreserved : isReserved name = true
  · exact .inl ⟨hreserved, by rw [safe, if_pos hreserved]⟩
  · rw [safe, if_neg hreserved]
    cases hdigits : anonymousDigits? name with
    | some digits => exact .inr (.inl ⟨digits, rfl, rfl⟩)
    | none => exact .inr (.inr ⟨Bool.eq_false_iff.mpr hreserved, rfl, rfl⟩)

/-- No emitted name is reserved. -/
theorem isReserved_safe (name : String) : isReserved (safe name) = false := by
  rcases safe_cases name with ⟨-, hsafe⟩ | ⟨digits, -, hsafe⟩ | ⟨hreserved, -, hsafe⟩
  · rw [hsafe, isReserved_underscore]
  · rw [hsafe, isReserved_argument]
  · rw [hsafe, hreserved]

/-- An emitted name is emitted as it is. -/
theorem safe_safe (name : String) : safe (safe name) = safe name := by
  refine safe_eq_self (isReserved_safe name) ?_
  rcases safe_cases name with ⟨-, hsafe⟩ | ⟨digits, -, hsafe⟩ | ⟨-, hdigits, hsafe⟩
  · rw [hsafe, anonymousDigits?_underscore]
  · rw [hsafe, anonymousDigits?_argument]
  · rw [hsafe, hdigits]

/-- Just the names that are neither reserved nor anonymous are emitted as they are. -/
theorem safe_eq_self_iff {name : String} :
    safe name = name ↔ isReserved name = false ∧ isAnonymous name = false := by
  constructor
  · intro h
    have hreserved := isReserved_safe name
    rw [h] at hreserved
    refine ⟨hreserved, ?_⟩
    rcases safe_cases name with ⟨-, hsafe⟩ | ⟨digits, -, hsafe⟩ | ⟨-, hdigits, -⟩
    · rw [isAnonymous, ← h, hsafe, anonymousDigits?_underscore]
      rfl
    · rw [isAnonymous, ← h, hsafe, anonymousDigits?_argument]
      rfl
    · rw [isAnonymous, hdigits]
      rfl
  · rintro ⟨hreserved, hanonymous⟩
    exact safe_eq_self hreserved (Option.isNone_iff_eq_none.mp (Option.isSome_eq_false_iff.mp hanonymous))

/-- No emitted name is a dollar sign and digits. -/
theorem safe_ne_dollar (name : String) {digits : String} (hdigits : Numeral.isDigits digits.toList = true) :
    safe name ≠ "$" ++ digits := by
  intro h
  have hsafe : anonymousDigits? (safe name) = some digits.toList :=
    anonymousDigits?_eq_some_iff.mpr ⟨by rw [h, String.ofList_toList], hdigits⟩
  have hanonymous := (safe_eq_self_iff.mp (safe_safe name)).2
  rw [isAnonymous, hsafe, Option.isSome_some] at hanonymous
  exact absurd hanonymous (by decide)

/-! ### Names that are emitted as one -/

/-- The first name is emitted as the second, which is another one. -/
def Merges (a b : String) : Prop :=
  isReserved a = true ∧ b = a ++ "_" ∨ ∃ digits, anonymousDigits? a = some digits ∧ b = "__arg" ++ String.ofList digits

/-- The names that go over into another one are the reserved words, and a dollar sign in front of digits. -/
theorem merges_iff {a b : String} : Merges a b ↔ a ∈ reserved ∧ b = a ++ "_" ∨
    ∃ digits : String, Numeral.isDigits digits.toList = true ∧ a = "$" ++ digits ∧ b = "__arg" ++ digits := by
  refine or_congr (and_congr_left' List.contains_iff_mem) ⟨?_, ?_⟩
  · rintro ⟨digits, hdigits, hb⟩
    obtain ⟨ha, hall⟩ := anonymousDigits?_eq_some_iff.mp hdigits
    exact ⟨String.ofList digits, by rwa [String.toList_ofList], ha, hb⟩
  · rintro ⟨digits, hall, ha, hb⟩
    rw [← String.ofList_toList (s := digits)] at ha hb
    exact ⟨digits.toList, anonymousDigits?_eq_some_iff.mpr ⟨ha, hall⟩, hb⟩

theorem Merges.safe_eq {a b : String} (h : Merges a b) : safe a = b := by
  rcases h with ⟨hreserved, rfl⟩ | ⟨digits, hdigits, rfl⟩
  · rw [safe, if_pos hreserved]
  · have hreserved : isReserved a = false := by
      rw [isReserved, List.contains_eq_mem, decide_eq_false_iff_not]
      intro hmem
      refine reserved_head a hmem ?_
      rw [(anonymousDigits?_eq_some hdigits).1]
      rfl
    rw [safe, hreserved, hdigits]
    rfl

theorem safe_eq_self_or_merges (name : String) : safe name = name ∨ Merges name (safe name) := by
  rcases safe_cases name with ⟨hreserved, hsafe⟩ | ⟨digits, hdigits, hsafe⟩ | ⟨-, -, hsafe⟩
  · exact .inr (.inl ⟨hreserved, hsafe⟩)
  · exact .inr (.inr ⟨digits, hdigits, hsafe⟩)
  · exact .inl hsafe

/-- A name behind `__arg` does not end in an underscore. -/
theorem argument_ne_underscore {name : String} {digits : List Char} (h : anonymousDigits? name = some digits)
    (other : String) : "__arg" ++ String.ofList digits ≠ other ++ "_" := by
  intro heq
  obtain ⟨-, hne, hall⟩ := anonymousDigits?_eq_some h
  have hlast := congrArg (fun text : String => text.toList.getLast?) heq
  simp only [String.toList_append, String.toList_ofList, List.getLast?_append] at hlast
  obtain ⟨last, hlastDigit⟩ := Option.ne_none_iff_exists'.mp (mt List.getLast?_eq_none_iff.mp hne)
  rw [hlastDigit] at hlast
  obtain rfl : last = '_' := Option.some.inj hlast
  exact absurd (List.all_eq_true.mp hall '_' (List.mem_of_getLast? hlastDigit)) (by decide)

/-- No two names go over into the same other name. -/
theorem Merges.left_unique {a b c : String} (ha : Merges a c) (hb : Merges b c) : a = b := by
  rcases ha with ⟨-, rfl⟩ | ⟨digits, hdigits, rfl⟩
  · rcases hb with ⟨-, hb⟩ | ⟨digits, hdigits, hb⟩
    · exact (String.append_left_inj _).mp hb
    · exact absurd hb.symm (argument_ne_underscore hdigits a)
  · rcases hb with ⟨-, hb⟩ | ⟨digits', hdigits', hb⟩
    · exact absurd hb (argument_ne_underscore hdigits b)
    · obtain rfl : digits = digits' := String.ofList_injective ((String.append_right_inj _).mp hb)
      rw [← String.toList_inj, (anonymousDigits?_eq_some hdigits).1, (anonymousDigits?_eq_some hdigits').1]

/-- Two names are emitted as one just when they are the same or one is emitted as the other. -/
theorem safe_eq_safe_iff {a b : String} : safe a = safe b ↔ a = b ∨ Merges a b ∨ Merges b a := by
  constructor
  · intro h
    rcases safe_eq_self_or_merges a with ha | ha <;> rcases safe_eq_self_or_merges b with hb | hb
    · exact .inl (ha.symm.trans (h.trans hb))
    · rw [← h, ha] at hb
      exact .inr (.inr hb)
    · rw [h, hb] at ha
      exact .inr (.inl ha)
    · rw [h] at ha
      exact .inl (ha.left_unique hb)
  · rintro (rfl | h | h)
    · rfl
    · rw [← h.safe_eq, safe_safe]
    · rw [← h.safe_eq, safe_safe]

/-- **Emitted names.**  An emitted name is neither reserved nor a dollar sign and digits, and it is emitted as it is.
Two names are emitted as one just when one is a reserved word and the other this word with an underscore, or one is `$`
and the other `__arg` in front of the same digits. -/
theorem safe_merges_known_pairs (a b : String) :
    safe a ∉ reserved ∧
    (∀ digits : String, Numeral.isDigits digits.toList = true → safe a ≠ "$" ++ digits) ∧
    safe (safe a) = safe a ∧
    (a ≠ b → (safe a = safe b ↔
      a ∈ reserved ∧ b = a ++ "_" ∨ b ∈ reserved ∧ a = b ++ "_" ∨
      ∃ digits : String, Numeral.isDigits digits.toList = true ∧
        (a = "$" ++ digits ∧ b = "__arg" ++ digits ∨ b = "$" ++ digits ∧ a = "__arg" ++ digits))) := by
  refine ⟨?_, fun digits => safe_ne_dollar a, safe_safe a, fun hne => ?_⟩
  · intro hmem
    exact absurd (List.contains_iff_mem.mpr hmem) (Bool.eq_false_iff.mp (isReserved_safe a))
  · rw [safe_eq_safe_iff, or_iff_right hne, merges_iff, merges_iff]
    constructor
    · rintro ((hword | ⟨digits, hdigits, hpair⟩) | (hword | ⟨digits, hdigits, hpair⟩))
      · exact .inl hword
      · exact .inr (.inr ⟨digits, hdigits, .inl hpair⟩)
      · exact .inr (.inl hword)
      · exact .inr (.inr ⟨digits, hdigits, .inr hpair⟩)
    · rintro (hword | hword | ⟨digits, hdigits, hpair | hpair⟩)
      · exact .inl (.inl hword)
      · exact .inr (.inl hword)
      · exact .inl (.inr ⟨digits, hdigits, hpair⟩)
      · exact .inr (.inr ⟨digits, hdigits, hpair⟩)

theorem safe_merges_known_pairs_swapped :
    "default_" ≠ "default" ∧ safe "default_" = safe "default" ∧
    "__arg07" ≠ "$07" ∧ safe "__arg07" = safe "$07" ∧ (∀ digits : String,
      Numeral.isDigits digits.toList = true → safe "$07" ≠ "$" ++ digits) := by
  have hword : "default_" ≠ "default" := by decide
  have hposition : "__arg07" ≠ "$07" := by decide
  obtain ⟨-, -, -, hwords⟩ := safe_merges_known_pairs "default_" "default"
  obtain ⟨-, -, -, hpositions⟩ := safe_merges_known_pairs "__arg07" "$07"
  obtain ⟨-, hanonymous, -, -⟩ := safe_merges_known_pairs "$07" "$07"
  refine ⟨hword, (hwords hword).mpr (.inr (.inl ⟨by decide, rfl⟩)), hposition, ?_, hanonymous⟩
  exact (hpositions hposition).mpr (.inr (.inr ⟨"07", rfl, .inr ⟨rfl, rfl⟩⟩))

/-- A name with a dollar sign in front is emitted just for itself, unless it is anonymous. -/
theorem safe_eq_dollar_iff {name rest : String} :
    safe name = "$" ++ rest ↔ name = "$" ++ rest ∧ isAnonymous name = false := by
  have hdollar : ("$" ++ rest).toList.head? = some '$' := by
    rw [String.toList_append]
    rfl
  constructor
  · intro h
    rcases safe_eq_self_or_merges name with hself | ⟨hreserved, hname⟩ | ⟨digits, -, hname⟩
    · exact ⟨hself.symm.trans h, (safe_eq_self_iff.mp hself).2⟩
    · -- A reserved word would begin with the dollar sign.
      have hword := List.contains_iff_mem.mp hreserved
      rw [← h, hname, String.toList_append] at hdollar
      cases hchars : name.toList with
      | nil =>
        rw [hchars] at hdollar
        exact absurd hdollar (by decide)
      | cons c chars =>
        rw [hchars] at hdollar
        refine absurd ?_ (reserved_head name hword)
        rw [hchars]
        exact hdollar
    · rw [← h, hname, String.toList_append] at hdollar
      exact absurd hdollar (by simp)
  · rintro ⟨rfl, hanonymous⟩
    refine safe_eq_self_iff.mpr ⟨?_, hanonymous⟩
    rw [isReserved, List.contains_eq_mem, decide_eq_false_iff_not]
    exact fun hmem => reserved_head _ hmem hdollar

/-! ### Words -/

/-- A word is not empty, holds characters of names and does not begin with a digit. -/
theorem isWord_iff {name : String} : isWord name = true ↔
    ∃ c rest, name.toList = c :: rest ∧ c.isDigit = false ∧ (c :: rest).all isWordChar = true := by
  unfold isWord
  split
  · next hname => simp [hname]
  · next c rest hname =>
    simp only [hname, List.cons.injEq, List.all_cons, Bool.and_eq_true, Bool.not_eq_true']
    constructor
    · intro h
      exact ⟨c, rest, ⟨rfl, rfl⟩, h.1.2, h.1.1, h.2⟩
    · rintro ⟨c', rest', ⟨rfl, rfl⟩, hdigit, hfirst, hrest⟩
      exact ⟨⟨hfirst, hdigit⟩, hrest⟩

theorem isWordChar_of_isDigit {c : Char} (h : c.isDigit = true) : isWordChar c = true := by
  simp [isWordChar, Char.isAlphanum, h]

/-- A word is emitted as a word. -/
theorem isWord_safe {name : String} (h : isWord name = true) : isWord (safe name) = true := by
  rcases safe_cases name with ⟨-, hsafe⟩ | ⟨digits, hdigits, hsafe⟩ | ⟨-, -, hsafe⟩
  · obtain ⟨c, rest, hname, hfirst, hall⟩ := isWord_iff.mp h
    refine isWord_iff.mpr ⟨c, rest ++ ['_'], ?_, hfirst, ?_⟩
    · rw [hsafe, String.toList_append, hname]
      rfl
    · rw [← List.cons_append, List.all_append, hall]
      rfl
  · obtain ⟨-, -, hall⟩ := anonymousDigits?_eq_some hdigits
    refine isWord_iff.mpr ⟨'_', ['_', 'a', 'r', 'g'] ++ digits, ?_, rfl, ?_⟩
    · rw [hsafe, String.toList_append, String.toList_ofList, String.toList_ofList]
      rfl
    · rw [← List.cons_append, List.all_append, List.all_eq_true.mpr fun c hc =>
        isWordChar_of_isDigit (List.all_eq_true.mp hall c hc)]
      rfl
  · rw [hsafe, h]

end ScriptLowering.Identifier
