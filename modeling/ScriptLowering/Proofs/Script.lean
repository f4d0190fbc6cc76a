import ScriptLowering.Output

/-!
# Scripts are decided item by item

A program is lowered one item at a time, so both error policies are read off the list of its items.

* `Text.occurs_line`, `Text.cut?_line` — a pattern without a line feed is looked for line by line;
* `Mode.separator_not_in_supportCode` — the support code does not hold the separator;
* `lowerItems_faults`, `lowerItems_texts` — what each item adds to the faults and to the texts;
* `Program.lower_itemwise` — the two policies, the faults, the script and its first separator.
-/

namespace ScriptLowering

/-! ### Looking for a pattern line by line -/

namespace Text

/-- The texts one after another are what the library calls their intercalation. -/
theorem joinWith_eq_intercalate (separator : String) (texts : List String) :
    joinWith separator texts = separator.intercalate texts := by
  fun_induction joinWith separator texts with
  | case1 => rw [String.intercalate_nil]
  | case2 text => rw [String.intercalate_singleton]
  | case3 text next rest ih => rw [ih, String.intercalate_cons_cons]

/-- A pattern without a line feed that begins a text ends before the text's first line feed. -/
theorem isPrefixOf_line {pattern : List Char} (hp : '\n' ∉ pattern) (line rest : List Char) :
    pattern.isPrefixOf (line ++ '\n' :: rest) = pattern.isPrefixOf line := by
  induction line generalizing pattern with
  | nil =>
    cases pattern with
    | nil => rfl
    | cons p ps =>
      have hne : p ≠ '\n' := fun h => hp (h ▸ List.mem_cons_self)
      simp [List.isPrefixOf, hne]
  | cons c line ih =>
    cases pattern with
    | nil => rfl
    | cons p ps =>
      have hps : '\n' ∉ ps := fun h => hp (List.mem_cons_of_mem p h)
      rw [List.cons_append, List.isPrefixOf, List.isPrefixOf, ih hps]

/-- Nothing but the empty pattern begins the empty text. -/
theorem isPrefixOf_nil {pattern : List Char} (hne : pattern ≠ []) : pattern.isPrefixOf [] = false := by
  cases pattern with
  | nil => exact absurd rfl hne
  | cons p ps => rfl

/-- A non-empty pattern without a line feed occurs in one of the lines or in none. -/
theorem occurs_line {pattern : List Char} (hp : '\n' ∉ pattern) (hne : pattern ≠ [])
    (line rest : List Char) :
    occurs pattern (line ++ '\n' :: rest) = (occurs pattern line || occurs pattern rest) := by
  have hempty : pattern.isEmpty = false := by simpa using hne
  induction line with
  | nil =>
    have hstart := isPrefixOf_line hp [] rest
    rw [List.nil_append] at hstart
    rw [List.nil_append, occurs, occurs, hstart, hempty, isPrefixOf_nil hne]
  | cons c line ih =>
    have hstart := isPrefixOf_line hp (c :: line) rest
    rw [List.cons_append] at hstart
    rw [List.cons_append, occurs, occurs, hstart, ih, Bool.or_assoc]

/-- Where a pattern does not occur in the first line, the text is cut after that line. -/
theorem cut?_line {pattern : List Char} (hp : '\n' ∉ pattern) (hne : pattern ≠ [])
    {line : List Char} (hline : occurs pattern line = false) (rest : List Char) :
    cut? pattern (line ++ '\n' :: rest) =
      (cut? pattern rest).map fun (before, after) => (line ++ '\n' :: before, after) := by
  induction line with
  | nil =>
    have hstart := isPrefixOf_line hp [] rest
    rw [List.nil_append, isPrefixOf_nil hne] at hstart
    rw [List.nil_append, cut?, hstart]
    rfl
  | cons c line ih =>
    rw [occurs, Bool.or_eq_false_iff] at hline
    have hstart := isPrefixOf_line hp (c :: line) rest
    rw [List.cons_append, hline.1] at hstart
    rw [List.cons_append, cut?, hstart, ih hline.2]
    cases cut? pattern rest <;> rfl

/-- A text that begins with the pattern is cut at its beginning. -/
theorem cut?_self {pattern : List Char} (hne : pattern ≠ []) (after : List Char) :
    cut? pattern (pattern ++ after) = some ([], after) := by
  cases pattern with
  | nil => exact absurd rfl hne
  | cons p ps =>
    have hstart : (p :: ps).isPrefixOf (p :: (ps ++ after)) = true :=
      List.isPrefixOf_iff_prefix.mpr ⟨after, rfl⟩
    rw [List.cons_append, cut?, if_pos hstart, ← List.cons_append, List.drop_left]

/-- A cut is made at the first occurrence of the pattern. -/
theorem cut?_first {pattern text before after : List Char} (h : cut? pattern text = some (before, after))
    {before' after' : List Char} (htext : text = before' ++ pattern ++ after') :
    before.length ≤ before'.length := by
  induction before' generalizing text before with
  | nil =>
    cases text with
    | nil =>
      have hempty := append_of_cut? h
      simp only [List.append_eq_nil_iff] at hempty
      simp [hempty.1.1]
    | cons c text =>
      have hstart : pattern.isPrefixOf (c :: text) = true :=
        List.isPrefixOf_iff_prefix.mpr ⟨after', by rw [htext]; rfl⟩
      rw [cut?, if_pos hstart] at h
      simp only [Option.some.injEq, Prod.mk.injEq] at h
      simp [← h.1]
  | cons c before' ih =>
    rw [List.cons_append, List.cons_append] at htext
    subst htext
    rw [cut?] at h
    split at h
    · simp only [Option.some.injEq, Prod.mk.injEq] at h
      simp [← h.1]
    · simp only [Option.map_eq_some_iff, Prod.mk.injEq] at h
      obtain ⟨⟨b, a⟩, hb, rfl, rfl⟩ := h
      have hle := ih hb rfl
      simp only [List.length_cons]
      omega

end Text

/-! ### The separator -/

theorem separator_toList : separator.toList =
    ['/', '/', ' ', '-', '-', '-', '-', ' ', 'g', 'e', 'n', 'e', 'r', 'a', 't', 'e', 'd', ' ', 'c', 'o', 'd', 'e',
      ' ', '-', '-', '-', '-'] :=
  String.toList_ofList

/-- The separator does not hold a line feed. -/
theorem lineFeed_not_in_separator : '\n' ∉ separator.toList := by
  rw [separator_toList]
  decide

theorem separator_ne_nil : separator.toList ≠ [] := by
  rw [separator_toList]
  exact List.cons_ne_nil _ _

namespace Mode

/-- A pattern without a line feed is looked for line by line in a text made of lines. -/
theorem occurs_ofLines_cons {pattern : List Char} (hp : '\n' ∉ pattern) (hne : pattern ≠ [])
    {line : List Char} {lines : List String} (hline : Text.occurs pattern line = false)
    (hlines : Text.occurs pattern (ofLines lines).toList = false) :
    Text.occurs pattern (ofLines (String.ofList line :: lines)).toList = false := by
  have htext : (ofLines (String.ofList line :: lines)).toList = line ++ '\n' :: (ofLines lines).toList := by
    simp [ofLines]
  rw [htext, Text.occurs_line hp hne, hline, hlines]
  rfl

theorem occurs_ofLines_nil {pattern : List Char} (hne : pattern ≠ []) :
    Text.occurs pattern (ofLines []).toList = false := by
  simpa [ofLines, Text.occurs] using hne

/-- The support code does not hold the separator. -/
theorem separator_not_in_supportCode (mode : Mode) :
    Text.occurs separator.toList mode.supportCode.toList = false := by
  have hp := lineFeed_not_in_separator
  have hne := separator_ne_nil
  rw [separator_toList] at hp hne ⊢
  cases mode with
  | native =>
    rw [supportCode]
    repeat refine occurs_ofLines_cons hp hne (by rfl) ?_
    exact occurs_ofLines_nil hne
  | managed =>
    rw [supportCode]
    repeat refine occurs_ofLines_cons hp hne (by rfl) ?_
    exact occurs_ofLines_nil hne

end Mode

/-- A script is cut right after its support code, whatever the lowered items hold. -/
theorem cutScript?_assemble (mode : Mode) (parts : List String) :
    cutScript? (assemble mode parts) =
      some (mode.supportCode ++ "\n", "\n" ++ Text.joinWith "\n" parts) := by
  have htext : (assemble mode parts).toList =
      mode.supportCode.toList ++ '\n' :: (separator.toList ++ ("\n" ++ Text.joinWith "\n" parts).toList) := by
    simp [assemble]
  rw [cutScript?, htext,
    Text.cut?_line lineFeed_not_in_separator separator_ne_nil mode.separator_not_in_supportCode,
    Text.cut?_self separator_ne_nil]
  simp

/-! ### Items one by one -/

/-- Whether an item can be lowered. -/
def Item.isLowered (mode : Mode) (item : Item) : Bool := (item.node.lower mode).isOk

/-- The program without the items that cannot be lowered. -/
def Program.lowered (mode : Mode) (program : Program) : Program := ⟨program.items.filter (·.isLowered mode)⟩

/-- The texts are those of the items that can be lowered, in their order. -/
theorem lowerItems_texts (mode : Mode) (index : Nat) (items : List Item) :
    (lowerItems mode index items).1 = items.filterMap fun item => (item.node.lower mode).toOption := by
  induction items generalizing index with
  | nil => rfl
  | cons item rest ih =>
    rw [lowerItems, Item.lower]
    cases h : item.node.lower mode with
    | ok text =>
      rw [List.filterMap_cons_some (by rw [h]; rfl)]
      exact congrArg (text :: ·) (ih (index + 1))
    | error cause =>
      rw [List.filterMap_cons_none (by rw [h]; rfl)]
      exact ih (index + 1)

/-- A fault is found exactly at the item that cannot be lowered, with that item's index, kind and place. -/
theorem lowerItems_faults (mode : Mode) (index : Nat) (items : List Item) (fault : ItemFault) :
    fault ∈ (lowerItems mode index items).2 ↔
      ∃ position item, items[position]? = some item ∧ item.node.lower mode = .error fault.cause ∧
        fault.index = index + position ∧ fault.kind = item.node.kind ∧ fault.span = item.span := by
  induction items generalizing index with
  | nil => simp [lowerItems]
  | cons item rest ih =>
    -- The first item stands at position zero, and position `n` of the rest is position `n + 1` here.
    have hsplit : (∃ position other, (item :: rest)[position]? = some other ∧
        other.node.lower mode = .error fault.cause ∧ fault.index = index + position ∧
        fault.kind = other.node.kind ∧ fault.span = other.span) ↔
        (item.node.lower mode = .error fault.cause ∧ fault.index = index ∧
          fault.kind = item.node.kind ∧ fault.span = item.span) ∨
        fault ∈ (lowerItems mode (index + 1) rest).2 := by
      rw [ih (index + 1)]
      constructor
      · rintro ⟨position, other, hat, hrest⟩
        cases position with
        | zero =>
          obtain rfl : item = other := by simpa using hat
          exact .inl hrest
        | succ position =>
          refine .inr ⟨position, other, by simpa using hat, hrest.1, ?_, hrest.2.2⟩
          rw [hrest.2.1]
          omega
      · rintro (hfirst | ⟨position, other, hat, hcause, hindex, hshape⟩)
        · exact ⟨0, item, rfl, hfirst⟩
        · refine ⟨position + 1, other, by simpa using hat, hcause, ?_, hshape⟩
          rw [hindex]
          omega
    rw [hsplit, lowerItems, Item.lower]
    cases h : item.node.lower mode with
    | ok text => simp
    | error cause =>
      simp only [List.mem_cons, Except.error.injEq]
      refine or_congr_left ?_
      constructor
      · rintro rfl
        exact ⟨rfl, rfl, rfl, rfl⟩
      · rintro ⟨rfl, rfl, hkind, hspan⟩
        cases fault
        simp_all

/-- Faults come in the order of their items. -/
theorem lowerItems_sorted (mode : Mode) (index : Nat) (items : List Item) :
    ((lowerItems mode index items).2.map (·.index)).Pairwise (· < ·) := by
  induction items generalizing index with
  | nil => exact List.Pairwise.nil
  | cons item rest ih =>
    rw [lowerItems, Item.lower]
    cases h : item.node.lower mode with
    | ok text => exact ih (index + 1)
    | error cause =>
      refine List.pairwise_cons.mpr ⟨?_, ih (index + 1)⟩
      intro other hother
      obtain ⟨fault, hfault, rfl⟩ := List.mem_map.mp hother
      obtain ⟨position, _, _, _, hindex, _⟩ := (lowerItems_faults mode (index + 1) rest fault).mp hfault
      rw [hindex]
      show index < index + 1 + position
      omega

/-- Items that can all be lowered leave no fault. -/
theorem lowerItems_lowered (mode : Mode) (index : Nat) (items : List Item) :
    lowerItems mode index (items.filter (·.isLowered mode)) = ((lowerItems mode 0 items).1, []) := by
  have hfaults : (lowerItems mode index (items.filter (·.isLowered mode))).2 = [] := by
    rw [List.eq_nil_iff_forall_not_mem]
    intro fault hfault
    obtain ⟨_, item, hat, hcause, _⟩ := (lowerItems_faults mode index _ fault).mp hfault
    have hlowered := (List.mem_filter.mp (List.mem_of_getElem? hat)).2
    rw [Item.isLowered, hcause] at hlowered
    exact Bool.noConfusion hlowered
  have htexts : (lowerItems mode index (items.filter (·.isLowered mode))).1 = (lowerItems mode 0 items).1 := by
    rw [lowerItems_texts, lowerItems_texts, List.filterMap_filter]
    congr 1
    funext item
    cases h : item.node.lower mode <;> simp [Item.isLowered, h, Except.isOk, Except.toBool, Except.toOption]
  rw [← htexts, ← hfaults]

/-! ### Programs -/

theorem Program.lower_collect (program : Program) (mode : Mode) :
    program.lower ⟨mode, .collect⟩ =
      .ok ⟨assemble mode (lowerItems mode 0 program.items).1, (lowerItems mode 0 program.items).2⟩ := rfl

theorem Program.lower_failFast (program : Program) (mode : Mode) :
    program.lower ⟨mode, .failFast⟩ =
      match (lowerItems mode 0 program.items).2 with
      | [] => .ok ⟨assemble mode (lowerItems mode 0 program.items).1, []⟩
      | fault :: _ => .error fault := by
  rw [Program.lower]
  rcases lowerItems mode 0 program.items with ⟨texts, _ | ⟨fault, faults⟩⟩ <;> rfl

/-- Whatever the policy, a script that is produced is the one of the items that can be lowered, and the faults beside
it are those of the others. -/
theorem Program.output_eq {program : Program} {options : Options} {output : Output}
    (h : program.lower options = .ok output) :
    output = ⟨assemble options.mode (lowerItems options.mode 0 program.items).1,
      (lowerItems options.mode 0 program.items).2⟩ := by
  obtain ⟨mode, policy⟩ := options
  cases policy with
  | collect =>
    rw [Program.lower_collect] at h
    injection h with h
    exact h.symm
  | failFast =>
    rw [Program.lower_failFast] at h
    split at h
    · next hfaults =>
      injection h with h
      rw [← h, hfaults]
    · exact nomatch h

theorem Program.script_eq_assemble {program : Program} {options : Options} {output : Output}
    (h : program.lower options = .ok output) :
    output.script = assemble options.mode (lowerItems options.mode 0 program.items).1 :=
  congrArg Output.script (Program.output_eq h)

/-- **A program is decided by its items.**  Collecting always gives a script: its faults are those of the items
that cannot be lowered, in the order of the items, and its text is that of the other items, the same as that
of the program without the failing ones.  Failing fast gives up with the first of these faults, or else
gives the same script.  The first separator of a script is the one after the support code. -/
theorem Program.lower_itemwise (program : Program) (mode : Mode) :
    ∃ output : Output,
      program.lower ⟨mode, .collect⟩ = .ok output ∧
      (∀ fault : ItemFault, fault ∈ output.faults ↔
        ∃ item, program.items[fault.index]? = some item ∧ item.node.lower mode = .error fault.cause ∧
          fault.kind = item.node.kind ∧ fault.span = item.span) ∧
      (output.faults.map (·.index)).Pairwise (· < ·) ∧
      output.script = mode.supportCode ++ "\n" ++ separator ++ "\n" ++
        "\n".intercalate (program.items.filterMap fun item => (item.node.lower mode).toOption) ∧
      (program.lowered mode).lower ⟨mode, .failFast⟩ = .ok ⟨output.script, []⟩ ∧
      (program.lower ⟨mode, .failFast⟩ =
        match output.faults with
        | [] => .ok ⟨output.script, []⟩
        | fault :: _ => .error fault) ∧
      ∀ policy result, program.lower ⟨mode, policy⟩ = .ok result →
        (∃ rest, cutScript? result.script = some (mode.supportCode ++ "\n", rest)) ∧
        ∀ before after : String, result.script = before ++ separator ++ after →
          (mode.supportCode ++ "\n").length ≤ before.length := by
  refine ⟨_, Program.lower_collect program mode, ?_, lowerItems_sorted mode 0 program.items, ?_, ?_,
    Program.lower_failFast program mode, ?_⟩
  · intro fault
    rw [lowerItems_faults]
    constructor
    · rintro ⟨position, item, hat, hcause, hindex, hshape⟩
      rw [Nat.zero_add] at hindex
      exact ⟨item, hindex ▸ hat, hcause, hshape⟩
    · rintro ⟨item, hat, hcause, hshape⟩
      exact ⟨fault.index, item, hat, hcause, (Nat.zero_add _).symm, hshape⟩
  · rw [assemble, lowerItems_texts, Text.joinWith_eq_intercalate]
  · rw [Program.lower_failFast, Program.lowered, lowerItems_lowered]
  · intro policy result hresult
    have hcut := cutScript?_assemble mode (lowerItems mode 0 program.items).1
    rw [Program.script_eq_assemble hresult]
    refine ⟨⟨_, hcut⟩, ?_⟩
    intro before after hscript
    rw [cutScript?, Option.map_eq_some_iff] at hcut
    obtain ⟨⟨front, back⟩, hchars, hfront⟩ := hcut
    simp only [Prod.mk.injEq] at hfront
    have hsplit : (assemble mode (lowerItems mode 0 program.items).1).toList =
        before.toList ++ separator.toList ++ after.toList := by
      rw [hscript, String.toList_append, String.toList_append]
    have hle := Text.cut?_first hchars hsplit
    rw [String.length_toList] at hle
    rw [← hfront.1, String.length_ofList]
    exact hle

end ScriptLowering
