import ScriptLowering.Proofs.Nesting

/-!
# A type can be read off its text

Two types have one text only where the text is meant to leave something out: which of the names of a basic type was
used, and how often a type was made optional in a row.

* `SourceType.normal` — a type without what its text leaves out;
* `SourceType.Plain` — names that hold no blank and nothing that means something in a script;
* `SourceType.shownMark_text` — the end of a text shows what kind of type it is for;
* `SourceType.arrayText_inj`, `Lexer.cut_inj` — the parts of arrays and dictionaries can be told apart;
* `SourceType.text_eq_iff_normal` — equal texts, equal normal types.
-/

namespace ScriptLowering

/-- A pattern occurs in a text where it is a part of it. -/
theorem Text.occurs_iff {pattern text : List Char} : occurs pattern text = true ↔ pattern <:+: text := by
  induction text with
  | nil => rw [occurs, List.isEmpty_iff, List.infix_nil]
  | cons c rest ih => rw [occurs, Bool.or_eq_true, List.isPrefixOf_iff_prefix, ih, List.infix_cons_iff]

/-- A bracket that nothing opened ends what the lexer can read, so what stands in front of it is determined. -/
theorem Lexer.cut_inj {first second : List Char} {rest rest' : List Char}
    (hfirst : Lexer.scan ⟨.code, []⟩ first = some ⟨.code, []⟩)
    (hsecond : Lexer.scan ⟨.code, []⟩ second = some ⟨.code, []⟩)
    (h : first ++ ']' :: rest = second ++ ']' :: rest') : first = second ∧ rest = rest' := by
  have hstuck : ∀ {start : List Char} (tail : List Char), Lexer.scan ⟨.code, []⟩ start = some ⟨.code, []⟩ →
      Lexer.scan ⟨.code, []⟩ (start ++ ']' :: tail) = none := by
    intro start tail hstart
    rw [Lexer.scan_append, hstart]
    rfl
  rcases List.append_eq_append_iff.mp h with ⟨between, hbetween, hrest⟩ | ⟨between, hbetween, hrest⟩
  · cases between with
    | nil => exact ⟨by rw [hbetween, List.append_nil], (List.cons.inj hrest).2⟩
    | cons c tail =>
      obtain ⟨rfl, -⟩ := List.cons.inj hrest
      rw [hbetween, hstuck tail hfirst] at hsecond
      exact nomatch hsecond
  · cases between with
    | nil => exact ⟨by rw [hbetween, List.append_nil], (List.cons.inj hrest).2.symm⟩
    | cons c tail =>
      obtain ⟨rfl, -⟩ := List.cons.inj hrest
      rw [hbetween, hstuck tail hsecond] at hfirst
      exact nomatch hfirst

namespace SourceType

/-! ### Normal types -/

/-- The optional of a type: an optional type is its own. -/
def collapsed : SourceType → SourceType
  | .optional wrapped => .optional wrapped
  | type => .optional type

/-- The type with every name as it is emitted, and with one optional in place of several in a row. -/
def normal : SourceType → SourceType
  | .named name => .named (nameText name)
  | .array element => .array element.normal
  | .dictionary key value => .dictionary key.normal value.normal
  | .optional wrapped => wrapped.normal.collapsed

/-- The end of what is written for a type: a closing bracket, a blank in front of a last word, or neither. -/
def mark : SourceType → Option Char
  | .named _ => none
  | .array _ => some ']'
  | .dictionary .. => some '}'
  | .optional _ => some ' '

/-- Names are emitted as they are, and no optional type is made optional. -/
def Normal : SourceType → Prop
  | .named name => nameText name = name
  | .array element => element.Normal
  | .dictionary key value => key.Normal ∧ value.Normal
  | .optional wrapped => wrapped.Normal ∧ wrapped.mark ≠ some ' '

/-- The names that basic types are emitted as. -/
def basicNames : List String := ["number", "string", "boolean", "any", "void"]

theorem nameText_cases (name : String) : nameText name = name ∨ nameText name ∈ basicNames := by
  unfold nameText
  split
  case h_23 => exact .inl rfl
  all_goals exact .inr (by decide)

theorem nameText_nameText (name : String) : nameText (nameText name) = nameText name := by
  rcases nameText_cases name with hkept | hbasic
  · rw [hkept, hkept]
  · have hfixed : ∀ basic ∈ basicNames, nameText basic = basic := by decide
    exact hfixed _ hbasic

theorem Normal.collapsed {type : SourceType} (h : type.Normal) : type.collapsed.Normal := by
  cases type with
  | optional wrapped => exact h
  | _ => exact ⟨h, nofun⟩

theorem normal_normal (type : SourceType) : type.normal.Normal := by
  induction type with
  | named name => exact nameText_nameText name
  | array element ih => exact ih
  | dictionary key value hkey hvalue => exact ⟨hkey, hvalue⟩
  | optional wrapped ih => exact ih.collapsed

/-- Making a text optional twice is making it optional once. -/
theorem optionalText_optionalText (text : String) : optionalText (optionalText text) = optionalText text := by
  have hsuffix : absence.toList.isSuffixOf (optionalText text).toList = true := by
    rw [optionalText]
    split
    · next h => exact h
    · rw [String.toList_append]
      exact List.isSuffixOf_iff_suffix.mpr (List.suffix_append _ _)
  rw [optionalText, if_pos hsuffix]

theorem text_collapsed (type : SourceType) : type.collapsed.text = optionalText type.text := by
  cases type with
  | optional wrapped => exact (optionalText_optionalText wrapped.text).symm
  | _ => rfl

/-- A type and its normal type have the same text. -/
theorem text_normal (type : SourceType) : type.normal.text = type.text := by
  induction type with
  | named name => exact nameText_nameText name
  | array element ih => rw [normal, text, ih, text]
  | dictionary key value hkey hvalue => rw [normal, text, hkey, hvalue, text]
  | optional wrapped ih => rw [normal, text_collapsed, ih, text]

/-! ### Plain names -/

/-- No name in the type holds a blank or a character that means something to the lexer.  Names made of letters, digits,
`_`, `$` and `.` are such. -/
def Plain (type : SourceType) : Prop := ∀ name ∈ type.names, ∀ c ∈ name.toList, c ≠ ' ' ∧ c ∉ Lexer.special

instance (type : SourceType) : Decidable type.Plain :=
  decidable_of_iff
    (type.names.all (fun name => name.toList.all fun c => c != ' ' && !Lexer.special.contains c) = true)
    (by simp [Plain])

theorem plain_array {element : SourceType} : (array element).Plain ↔ element.Plain := Iff.rfl

theorem plain_optional {wrapped : SourceType} : (optional wrapped).Plain ↔ wrapped.Plain := Iff.rfl

theorem plain_dictionary {key value : SourceType} : (dictionary key value).Plain ↔ key.Plain ∧ value.Plain :=
  List.forall_mem_append

theorem names_collapsed (type : SourceType) : type.collapsed.names = type.names := by
  cases type <;> rfl

theorem plain_nameText {name : String} (h : (named name).Plain) : (named (nameText name)).Plain := by
  rcases nameText_cases name with hkept | hbasic
  · rwa [hkept]
  · have hplain : ∀ basic ∈ basicNames, (named basic).Plain := by decide
    exact hplain _ hbasic

theorem Plain.normal {type : SourceType} (h : type.Plain) : type.normal.Plain := by
  induction type with
  | named name => exact plain_nameText h
  | array element ih => exact ih h
  | dictionary key value hkey hvalue =>
    obtain ⟨hk, hv⟩ := plain_dictionary.mp h
    exact plain_dictionary.mpr ⟨hkey hk, hvalue hv⟩
  | optional wrapped ih =>
    show ∀ name ∈ wrapped.normal.collapsed.names, _
    rw [names_collapsed]
    exact ih h

/-- The lexer passes over the text of a type. -/
theorem Plain.scan {type : SourceType} (h : type.Plain) :
    Lexer.scan ⟨.code, []⟩ type.text.toList = some ⟨.code, []⟩ := by
  have hphrase : Phrase Harmless ⟨[], []⟩ ⟨[], []⟩ type.text := by
    refine text_phrase fun word hword => ?_
    obtain ⟨name, hname, rfl⟩ := List.mem_map.mp hword
    exact fun _ c hc => (h name hname c hc).2
  exact hphrase.scan_eq fun _ hword => hword

/-! ### What the end of a text shows -/

/-- The mark that a text shows: the bracket at its end, or else a blank in it. -/
def shownMark (text : List Char) : Option Char :=
  if text.getLast? = some ']' then some ']'
  else if text.getLast? = some '}' then some '}'
  else if ' ' ∈ text then some ' '
  else none

theorem shownMark_plain {text : List Char} (h : ∀ c ∈ text, c ≠ ' ' ∧ c ∉ Lexer.special) : shownMark text = none := by
  have hlast : ∀ c ∈ Lexer.special, text.getLast? ≠ some c := fun c hc hlast =>
    (h c (List.mem_of_getLast? hlast)).2 hc
  rw [shownMark, if_neg (hlast _ (by decide)), if_neg (hlast _ (by decide)), if_neg fun hblank => (h _ hblank).1 rfl]

theorem shownMark_absence (stem : List Char) : shownMark (stem ++ absence.toList) = some ' ' := by
  have hlast : (stem ++ absence.toList).getLast? = some 'd' := by
    rw [List.getLast?_append]
    rfl
  have hblank : ' ' ∈ stem ++ absence.toList := List.mem_append_right _ (by decide)
  rw [shownMark, hlast, if_neg (by decide), if_neg (by decide), if_pos hblank]

theorem arrayText_suffix (element : String) : ['[', ']'] <:+ (arrayText element).toList := by
  rw [arrayText]
  split
  · rw [String.toList_append]
    exact List.suffix_append_of_suffix (by decide)
  · rw [String.toList_append]
    exact List.suffix_append _ _

theorem optionalText_suffix (wrapped : String) : absence.toList <:+ (optionalText wrapped).toList := by
  rw [optionalText]
  split
  · next h => exact List.isSuffixOf_iff_suffix.mp h
  · rw [String.toList_append]
    exact List.suffix_append _ _

/-- **The end of a text shows the kind of the type.** -/
theorem shownMark_text {type : SourceType} (h : type.Plain) : shownMark type.text.toList = type.mark := by
  cases type with
  | named name => exact shownMark_plain (plain_nameText h _ List.mem_cons_self)
  | array element =>
    obtain ⟨stem, hstem⟩ := arrayText_suffix element.text
    have hlast : (arrayText element.text).toList.getLast? = some ']' := by
      rw [← hstem, List.getLast?_append]
      rfl
    rw [text, shownMark, if_pos hlast, mark]
  | dictionary key value =>
    have hlast : (dictionary key value).text.toList.getLast? = some '}' := by
      rw [text, String.toList_append, List.getLast?_append]
      rfl
    rw [shownMark, hlast, if_neg (by decide), if_pos rfl, mark]
  | optional wrapped =>
    obtain ⟨stem, hstem⟩ := optionalText_suffix wrapped.text
    rw [text, ← hstem, shownMark_absence, mark]

/-- A type that is not optional is made optional by what is added to its text. -/
theorem optionalText_text {type : SourceType} (h : type.Plain) (hmark : type.mark ≠ some ' ') :
    optionalText type.text = type.text ++ absence := by
  rw [optionalText, if_neg]
  intro hsuffix
  obtain ⟨stem, hstem⟩ := List.isSuffixOf_iff_suffix.mp hsuffix
  rw [← shownMark_text h, ← hstem, shownMark_absence] at hmark
  exact hmark rfl

/-- Types with one text are of one kind. -/
theorem mark_eq {first second : SourceType} (hfirst : first.Plain) (hsecond : second.Plain)
    (h : first.text = second.text) : first.mark = second.mark := by
  rw [← shownMark_text hfirst, h, shownMark_text hsecond]

/-! ### The parts of a text -/

/-- A union in parentheses is not the text of elements that are no union. -/
theorem parenthesized_ne {union element : String} (hunion : Text.occurs " | ".toList union.toList = true)
    (helement : ¬ Text.occurs " | ".toList element.toList = true) : "(" ++ union ++ ")[]" ≠ element ++ "[]" := by
  intro h
  have hsplit : "(" ++ union ++ ")[]" = ("(" ++ union ++ ")") ++ "[]" := by
    rw [String.append_assoc, String.append_assoc, String.append_assoc]
    rfl
  rw [hsplit, String.append_left_inj] at h
  rw [← h, Text.occurs_iff, String.toList_append, String.toList_append] at helement
  obtain ⟨before, after, hparts⟩ := Text.occurs_iff.mp hunion
  exact helement ⟨"(".toList ++ before, after ++ ")".toList, by rw [← hparts]; simp only [List.append_assoc]⟩

/-- The elements of an array are determined by its text. -/
theorem arrayText_inj {first second : String} (h : arrayText first = arrayText second) : first = second := by
  rw [arrayText, arrayText] at h
  split at h
  · next hfirst =>
    split at h
    · rwa [String.append_left_inj, String.append_right_inj] at h
    · next hsecond => exact absurd h (parenthesized_ne hfirst hsecond)
  · next hfirst =>
    split at h
    · next hsecond => exact absurd h.symm (parenthesized_ne hsecond hfirst)
    · rwa [String.append_left_inj] at h

/-- The keys and values of a dictionary are determined by its text. -/
theorem dictionary_text_inj {key value key' value' : SourceType} (hkey : key.Plain) (hkey' : key'.Plain)
    (h : (dictionary key value).text = (dictionary key' value').text) :
    key.text = key'.text ∧ value.text = value'.text := by
  have hopen : ∀ k v : String, "\x7b [key: " ++ k ++ "]: " ++ v ++ " \x7d" =
      "\x7b [key: " ++ (k ++ ("]: " ++ v)) ++ " \x7d" := by
    intro k v
    simp only [String.append_assoc]
  rw [text, text, hopen, hopen, String.append_left_inj, String.append_right_inj] at h
  replace h := congrArg String.toList h
  rw [String.toList_append, String.toList_append, String.toList_append, String.toList_append] at h
  obtain ⟨hkeys, hrest⟩ := Lexer.cut_inj hkey.scan hkey'.scan h
  exact ⟨String.toList_injective hkeys, String.toList_injective (List.append_cancel_left hrest)⟩

/-! ### Types from their texts -/

/-- Normal types with one text are one type. -/
theorem text_inj {first second : SourceType} (hnormal : first.Normal) (hnormal' : second.Normal)
    (hplain : first.Plain) (hplain' : second.Plain) (h : first.text = second.text) : first = second := by
  induction first generalizing second with
  | named name =>
    have hmark := mark_eq hplain hplain' h
    cases second with
    | named name' =>
      rw [Normal] at hnormal hnormal'
      rw [text, text, hnormal, hnormal'] at h
      rw [h]
    | _ => simp [mark] at hmark
  | array element ih =>
    have hmark := mark_eq hplain hplain' h
    cases second with
    | array element' =>
      rw [plain_array] at hplain hplain'
      rw [Normal] at hnormal hnormal'
      rw [text, text] at h
      rw [ih hnormal hnormal' hplain hplain' (arrayText_inj h)]
    | _ => simp [mark] at hmark
  | dictionary key value hkey hvalue =>
    have hmark := mark_eq hplain hplain' h
    cases second with
    | dictionary key' value' =>
      rw [plain_dictionary] at hplain hplain'
      obtain ⟨hkeys, hvalues⟩ := dictionary_text_inj hplain.1 hplain'.1 h
      rw [hkey hnormal.1 hnormal'.1 hplain.1 hplain'.1 hkeys, hvalue hnormal.2 hnormal'.2 hplain.2 hplain'.2 hvalues]
    | _ => simp [mark] at hmark
  | optional wrapped ih =>
    have hmark := mark_eq hplain hplain' h
    cases second with
    | optional wrapped' =>
      rw [plain_optional] at hplain hplain'
      rw [text, text, optionalText_text hplain hnormal.2, optionalText_text hplain' hnormal'.2,
        String.append_left_inj] at h
      rw [ih hnormal.1 hnormal'.1 hplain hplain' h]
    | _ => simp [mark] at hmark

/-- **The text of a type determines the type**, up to the names of basic types and to optionals of optionals. -/
theorem text_eq_iff_normal {first second : SourceType} (hfirst : first.Plain) (hsecond : second.Plain) :
    first.text = second.text ↔ first.normal = second.normal := by
  constructor
  · intro h
    rw [← text_normal first, ← text_normal second] at h
    exact text_inj first.normal_normal second.normal_normal hfirst.normal hsecond.normal h
  · intro h
    rw [← text_normal first, h, text_normal]

/-- Two optionals in a row are one, while arrays of optionals, optional arrays and dictionaries that hold them keep
apart. -/
theorem text_eq_iff_normal_nested :
    (dictionary (.named "Int") (.optional (.optional (.named "geo.Point")))).text =
        (dictionary (.named "Double") (.optional (.named "geo.Point"))).text ∧
      (array (.optional (.named "Int"))).text ≠ (optional (.array (.named "Int"))).text ∧
      (dictionary (.optional (.named "Int")) (.array (.named "Int"))).text ≠
        (dictionary (.named "Int") (.optional (.array (.named "Int")))).text := by
  refine ⟨(text_eq_iff_normal (by decide) (by decide)).mpr (by decide), ?_, ?_⟩
  · exact mt (text_eq_iff_normal (by decide) (by decide)).mp (by decide)
  · exact mt (text_eq_iff_normal (by decide) (by decide)).mp (by decide)

end SourceType

end ScriptLowering
