import Mathlib.Data.List.Nodup
import ScriptLowering.Numeral
import ScriptLowering.ParameterBag.Unpacking

/-!
# Keys of the bag

An argument stands in the bag under its label or under its position.  Here the keys are looked at by themselves:
which of them stand for positions, that labels which are told apart give different keys, and what the lines for a
variadic parameter collect from the entries under them.

* `ParameterBag.position?` — the position that a key stands for;
* `ParameterBag.Method` — a line of the chain that collects values, with what it does;
* `ParameterBag.collected` — what the lines for a variadic parameter collect from a bag;
* `ParameterBag.keysFrom` — the keys of arguments under given labels;
* `ParameterBag.Apart.nodup_keysFrom` — no key occurs twice;
* `ParameterBag.collected_of_labels` — the values behind the threshold are those of the variadic parameter.
-/

namespace ScriptLowering.ParameterBag

variable {α β : Type}

/-! ### Positions -/

/-- The position that a key stands for. -/
def position? (key : String) : Option Nat :=
  match key.toList with
  | '_' :: digits => if Numeral.isDigits digits then some (Numeral.value digits) else none
  | _ => none

theorem position?_positionKey (index : Nat) : position? (positionKey index) = some (index + 1) := by
  have hchars : (positionKey index).toList = '_' :: Nat.toDigits 10 (index + 1) := by
    simp [positionKey]
  simp [position?, hchars, Numeral.isDigits_toDigits, Numeral.value_toDigits]

theorem positionKey_inj {i j : Nat} (h : positionKey i = positionKey j) : i = j := by
  have hposition := position?_positionKey i
  rw [h, position?_positionKey j] at hposition
  injection hposition with hposition
  omega

/-! ### Collecting values from a bag -/

/-- A method in the chain that collects a variadic parameter: its line, and what it does to a list. -/
structure Method (α β : Type) where
  line : String
  apply : List α → List β

namespace Method

/-- Keeps the entries whose keys stand for positions. -/
def positional : Method (String × α) (String × α) where
  line := ".filter(([key]) => /^_\\d+$/.test(key))"
  apply := List.filter fun entry => (position? entry.1).isSome

/-- Puts the positions for the keys. -/
def numbered : Method (String × α) (Nat × α) where
  line := ".map(([key, value]): [number, any] => [Number(key.slice(1)), value])"
  apply := List.map fun entry => ((position? entry.1).getD 0, entry.2)

/-- Keeps the entries at positions after the threshold. -/
def above (threshold : Nat) : Method (Nat × α) (Nat × α) where
  line := ".filter(([position]) => position > " ++ toString threshold ++ ")"
  apply := List.filter fun entry => threshold < entry.1

/-- Puts the entries into the order of their positions. -/
def ascending : Method (Nat × α) (Nat × α) where
  line := ".sort((a, b) => a[0] - b[0])"
  apply := fun entries => entries.mergeSort fun a b => a.1 ≤ b.1

/-- Keeps the values alone. -/
def values : Method (Nat × α) α where
  line := ".map(([, value]) => value)"
  apply := List.map Prod.snd

end Method

/-- The entries at positions after the threshold, with their positions. -/
def selected (threshold : Nat) (bag : List (String × α)) : List (Nat × α) :=
  (Method.above threshold).apply (Method.numbered.apply (Method.positional.apply bag))

theorem selected_eq (threshold : Nat) (bag : List (String × α)) :
    selected threshold bag = ((bag.filter fun entry => (position? entry.1).isSome).map fun entry =>
      ((position? entry.1).getD 0, entry.2)).filter fun entry => threshold < entry.1 := rfl

/-- The values at positions after the threshold, in the order of the positions. -/
def tailValues (threshold : Nat) (bag : List (String × α)) : List α :=
  Method.values.apply (Method.ascending.apply (selected threshold bag))

/-- What the lines for a variadic parameter collect: the value under its label, if the bag has one, and the
values at positions after the threshold. -/
def collected (label : Option String) (threshold : Nat) (bag : List (String × α)) : List α :=
  (label.bind fun label => bag.lookup label).toList ++ tailValues threshold bag

/-! ### Keys from labels -/

/-- The keys of arguments under the given labels, the first of which stands at the given position. -/
def keysFrom (index : Nat) : List (Option String) → List String
  | [] => []
  | label :: rest => label.getD (positionKey index) :: keysFrom (index + 1) rest

theorem length_keysFrom (index : Nat) (labels : List (Option String)) :
    (keysFrom index labels).length = labels.length := by
  induction labels generalizing index with
  | nil => rfl
  | cons label rest ih => rw [keysFrom, List.length_cons, ih, List.length_cons]

theorem keysFrom_append (index : Nat) (labels others : List (Option String)) :
    keysFrom index (labels ++ others) = keysFrom index labels ++ keysFrom (index + labels.length) others := by
  induction labels generalizing index with
  | nil => rfl
  | cons label rest ih =>
    have hnext : index + 1 + rest.length = index + (rest.length + 1) := by omega
    rw [List.cons_append, keysFrom, ih, keysFrom, List.cons_append, List.length_cons, hnext]

theorem getElem?_keysFrom (index j : Nat) (labels : List (Option String)) :
    (keysFrom index labels)[j]? = labels[j]?.map fun label => label.getD (positionKey (index + j)) := by
  induction labels generalizing index j with
  | nil => simp [keysFrom]
  | cons label rest ih =>
    cases j with
    | zero => simp [keysFrom]
    | succ j =>
      have hnext : index + 1 + j = index + (j + 1) := by omega
      rw [keysFrom, List.getElem?_cons_succ, ih, List.getElem?_cons_succ, hnext]

theorem mem_keysFrom {index : Nat} {labels : List (Option String)} {key : String} (h : key ∈ keysFrom index labels) :
    some key ∈ labels ∨ ∃ j, index ≤ j ∧ key = positionKey j := by
  obtain ⟨j, hj⟩ := List.mem_iff_getElem?.mp h
  rw [getElem?_keysFrom, Option.map_eq_some_iff] at hj
  obtain ⟨label, hlabel, hkey⟩ := hj
  cases label with
  | none => exact .inr ⟨index + j, by omega, hkey.symm⟩
  | some label => exact .inl (hkey ▸ List.mem_of_getElem? hlabel)

/-- No two of the labels are the same, and none of them stands for a position. -/
structure Apart (labels : List (Option String)) : Prop where
  nodup : (labels.filterMap id).Nodup
  plain : ∀ label, some label ∈ labels → position? label = none

theorem Apart.sublist {labels others : List (Option String)} (h : Apart labels) (hsub : others.Sublist labels) :
    Apart others :=
  ⟨h.nodup.sublist (hsub.filterMap id), fun label hlabel => h.plain label (hsub.subset hlabel)⟩

/-- Labels that tell arguments apart give them different keys. -/
theorem Apart.nodup_keysFrom {labels : List (Option String)} (h : Apart labels) (index : Nat) :
    (keysFrom index labels).Nodup := by
  induction labels generalizing index with
  | nil => exact List.nodup_nil
  | cons label rest ih =>
    have hrest : Apart rest := h.sublist (List.sublist_cons_self label rest)
    refine List.nodup_cons.mpr ⟨fun hmem => ?_, ih hrest (index + 1)⟩
    -- A later key is a label or a later position; neither is the first key.
    cases label with
    | none =>
      rcases mem_keysFrom hmem with hlabel | ⟨j, hj, hkey⟩
      · have hnone := hrest.plain _ hlabel
        simp [position?_positionKey] at hnone
      · have := positionKey_inj hkey
        omega
    | some label =>
      rcases mem_keysFrom hmem with hlabel | ⟨j, -, hkey⟩
      · have hnodup := h.nodup
        simp only [List.filterMap_cons, id_eq, List.nodup_cons] at hnodup
        exact hnodup.1 (List.mem_filterMap.mpr ⟨some label, hlabel, rfl⟩)
      · have hnone : position? (positionKey j) = none := hkey ▸ h.plain label List.mem_cons_self
        simp [position?_positionKey] at hnone

/-! ### Looking up a key -/

/-- A key that occurs once leads to the value beside it. -/
theorem lookup_zip {keys : List String} {key : String} (hnodup : keys.Nodup) (values : List α) {j : Nat}
    (hkey : keys[j]? = some key) : (keys.zip values).lookup key = values[j]? := by
  induction keys generalizing values j with
  | nil => simp at hkey
  | cons first rest ih =>
    obtain ⟨habsent, hrest⟩ := List.nodup_cons.mp hnodup
    cases values with
    | nil => simp
    | cons value values =>
      cases j with
      | zero =>
        have hfirst : first = key := by simpa using hkey
        simp [hfirst]
      | succ j =>
        have hother : key ≠ first := fun h => habsent (h ▸ List.mem_of_getElem? hkey)
        rw [List.zip_cons_cons, List.lookup_cons, beq_false_of_ne hother]
        exact ih hrest values hkey

theorem lookup_zip_of_not_mem {keys : List String} {key : String} (habsent : key ∉ keys) (values : List α) :
    (keys.zip values).lookup key = none := by
  induction keys generalizing values with
  | nil => simp
  | cons first rest ih =>
    cases values with
    | nil => simp
    | cons value values =>
      obtain ⟨hfirst, hrest⟩ := not_or.mp (mt List.mem_cons.mpr habsent)
      rw [List.zip_cons_cons, List.lookup_cons, beq_false_of_ne hfirst]
      exact ih hrest values

/-! ### Selecting positions -/

theorem selected_append (threshold : Nat) (bag others : List (String × α)) :
    selected threshold (bag ++ others) = selected threshold bag ++ selected threshold others := by
  simp only [selected_eq, List.filter_append, List.map_append]

theorem selected_cons_label (threshold : Nat) {key : String} (hkey : position? key = none) (value : α)
    (bag : List (String × α)) : selected threshold ((key, value) :: bag) = selected threshold bag := by
  simp [selected_eq, hkey]

theorem selected_cons_position (threshold index : Nat) (value : α) (bag : List (String × α)) :
    selected threshold ((positionKey index, value) :: bag) =
      (if threshold ≤ index then [(index + 1, value)] else []) ++ selected threshold bag := by
  by_cases hle : threshold ≤ index
  · have hlt : threshold < index + 1 := by omega
    simp [selected_eq, position?_positionKey, hle, hlt]
  · have hlt : ¬ threshold < index + 1 := by omega
    simp [selected_eq, position?_positionKey, hle, hlt]

/-- Nothing is selected among labels and positions up to the threshold. -/
theorem selected_keysFrom_eq_nil {threshold index : Nat} {labels : List (Option String)}
    (hplain : ∀ label, some label ∈ labels → position? label = none)
    (hbelow : ∀ j, labels[j]? = some none → index + j < threshold) (values : List α) :
    selected threshold ((keysFrom index labels).zip values) = [] := by
  induction labels generalizing index values with
  | nil => rfl
  | cons label rest ih =>
    cases values with
    | nil => rfl
    | cons value values =>
      have hrest : selected threshold ((keysFrom (index + 1) rest).zip values) = [] := by
        refine ih (fun other hother => hplain other (List.mem_cons_of_mem _ hother)) (fun j hj => ?_) values
        have := hbelow (j + 1) hj
        omega
      rw [keysFrom, List.zip_cons_cons]
      cases label with
      | some label => rw [Option.getD_some, selected_cons_label _ (hplain label List.mem_cons_self), hrest]
      | none =>
        have hpast : ¬ threshold ≤ index := by
          have := hbelow 0 rfl
          omega
        rw [Option.getD_none, selected_cons_position, if_neg hpast, hrest, List.nil_append]

/-- At positions after the threshold, all values are selected, and they are in order. -/
theorem selected_positions {threshold index : Nat} (hle : threshold ≤ index) (values : List α) :
    let found := selected threshold ((keysFrom index (List.replicate values.length none)).zip values)
    found.map Prod.snd = values ∧ (∀ entry ∈ found, index < entry.1) ∧
      found.Pairwise fun a b => (decide (a.1 ≤ b.1)) = true := by
  induction values generalizing index with
  | nil => simp [selected_eq, keysFrom]
  | cons value values ih =>
    obtain ⟨hvalues, hafter, hsorted⟩ := ih (Nat.le_succ_of_le hle)
    rw [List.length_cons, List.replicate_succ, keysFrom, List.zip_cons_cons, Option.getD_none, selected_cons_position,
      if_pos hle]
    refine ⟨by simp [hvalues], ?_, ?_⟩
    · intro entry hentry
      rcases List.mem_cons.mp hentry with rfl | hentry
      · exact Nat.lt_succ_self index
      · exact Nat.lt_of_succ_lt (hafter entry hentry)
    · refine List.pairwise_cons.mpr ⟨fun entry hentry => ?_, hsorted⟩
      exact decide_eq_true (Nat.le_of_lt (hafter entry hentry))

theorem tailValues_positions {threshold index : Nat} (hle : threshold ≤ index) (values : List α) :
    tailValues threshold ((keysFrom index (List.replicate values.length none)).zip values) = values := by
  obtain ⟨hvalues, -, hsorted⟩ := selected_positions hle values
  show (List.mergeSort (selected threshold _) fun a b => a.1 ≤ b.1).map Prod.snd = values
  rw [List.mergeSort_of_pairwise hsorted, hvalues]

theorem tailValues_append {threshold : Nat} {bag : List (String × α)} (h : selected threshold bag = [])
    (others : List (String × α)) : tailValues threshold (bag ++ others) = tailValues threshold others := by
  simp only [tailValues, selected_append, h, List.nil_append]

/-! ### The values of a variadic parameter -/

/-- The labels of the arguments for a variadic parameter: the first under its label, the others under none. -/
def variadicLabels (label : Option String) : Nat → List (Option String)
  | 0 => []
  | count + 1 => label :: List.replicate count none

theorem Apart.append_variadicLabels {labels : List (Option String)} {label : Option String}
    (h : Apart (labels ++ [label])) (count : Nat) : Apart (labels ++ variadicLabels label count) := by
  cases count with
  | zero => exact h.sublist (by simp [variadicLabels])
  | succ count =>
    have hnothing : (List.replicate count (none : Option String)).filterMap id = [] := by simp
    refine ⟨?_, fun other hother => h.plain other ?_⟩
    · have hnodup := h.nodup
      rw [List.filterMap_append] at hnodup ⊢
      rw [variadicLabels, ← List.singleton_append, List.filterMap_append, hnothing, List.append_nil]
      exact hnodup
    · simpa [variadicLabels] using hother

/-- What is collected, when every position of the labels in front lies at or before the threshold and the
threshold lies before the other positions: just the values of the variadic parameter. -/
theorem collected_of_labels {labels : List (Option String)} {label : Option String} {threshold : Nat}
    (hapart : Apart (labels ++ [label])) (hbelow : ∀ j, labels[j]? = some none → j < threshold)
    (hthreshold : threshold ≤ labels.length) (given extra : List α) (hgiven : given.length = labels.length) :
    collected label threshold ((keysFrom 0 (labels ++ variadicLabels label extra.length)).zip (given ++ extra)) =
      extra := by
  have hfixed : selected threshold ((keysFrom 0 labels).zip given) = [] :=
    selected_keysFrom_eq_nil (fun other hother => hapart.plain other (List.mem_append_left _ hother))
      (fun j hj => by have := hbelow j hj; omega) given
  have hbag : (keysFrom 0 (labels ++ variadicLabels label extra.length)).zip (given ++ extra) =
      (keysFrom 0 labels).zip given ++ (keysFrom labels.length (variadicLabels label extra.length)).zip extra := by
    rw [keysFrom_append, List.zip_append (by rw [length_keysFrom, hgiven]), Nat.zero_add]
  have hfront := hapart.nodup_keysFrom 0
  rw [keysFrom_append, Nat.zero_add] at hfront
  cases label with
  | none =>
    -- Without a label all values stand at positions.
    have hlabels : variadicLabels none extra.length = List.replicate extra.length none := by
      cases extra <;> rfl
    rw [collected, hbag, tailValues_append hfixed, hlabels, tailValues_positions hthreshold]
    rfl
  | some label =>
    have habsent : label ∉ keysFrom 0 labels := fun hmem =>
      (List.nodup_append.mp hfront).2.2 label hmem label List.mem_cons_self rfl
    have hlookup := lookup_zip_of_not_mem habsent given
    rw [collected, hbag, tailValues_append hfixed, Option.bind_some, List.lookup_append, hlookup]
    cases extra with
    | nil => simp [variadicLabels, keysFrom, tailValues, selected_eq, Method.ascending, Method.values]
    | cons first others =>
      -- The first value stands at the label, and the others at positions after it.
      have hplain : position? label = none := hapart.plain label (by simp)
      have htail : tailValues threshold ((label, first) ::
          (keysFrom (labels.length + 1) (List.replicate others.length none)).zip others) = others := by
        rw [tailValues, selected_cons_label _ hplain]
        exact tailValues_positions (Nat.le_succ_of_le hthreshold) others
      simp [variadicLabels, keysFrom, htail]

end ScriptLowering.ParameterBag
