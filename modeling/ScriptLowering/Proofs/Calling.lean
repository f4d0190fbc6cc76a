import Mathlib.Data.List.Forall2
import Mathlib.Data.List.InsertIdx
import ScriptLowering.Proofs.Unpacking

/-!
# Calls and functions agree on the bag

A call puts its arguments into the bag under keys, and the function takes its parameters out of it.  Each side
counts positions by itself: the call counts its arguments, the function its parameters.

* `ParameterBag.callKeys`, `ParameterBag.callBag` — what a call puts into the bag;
* `ParameterBag.CallsPass`, `ParameterBag.FunctionsReceive` — the text of the calls with given arguments, and that of
  the functions with given parameters;
* `ParameterBag.Distinguished`, `ParameterBag.Supplies` — parameters that labels tell apart, and a call with an
  argument for each of them;
* `ParameterBag.Delivers` — what the function finds in a bag;
* `ParameterBag.call_reaches_parameters` — every argument of a call reaches its parameter;
* `ParameterBag.shortened_call_reaches_parameters` — when this is so after an argument has been left out.

The variadic parameter is the last one, so the single parameters are a list by themselves in front of it, and a
call is seen through the labels of its arguments: those of the single parameters, and those of the variadic one.
-/

namespace ScriptLowering.ParameterBag

variable {α β : Type}

/-! ### What a call puts into the bag -/

/-- The keys of some arguments, the first of which stands at the given position. -/
def callKeys (index : Nat) : List Argument → List String
  | [] => []
  | argument :: rest => argumentKey index argument.label :: callKeys (index + 1) rest

/-- The bag of a call whose arguments have the given values. -/
def callBag (arguments : List Argument) (values : List α) : List (String × α) := (callKeys 0 arguments).zip values

/-- An entry of the bag as a call spells it. -/
def bindingText (entry : String × String) : String := entry.1 ++ ": " ++ entry.2

/-- A call spells its bag, with the texts of the arguments for their values. -/
theorem argumentTexts_eq (mode : Mode) (index : Nat) (arguments : List Argument) :
    Expr.argumentTexts mode index arguments = (do
      let texts ← arguments.mapM (·.value.text mode)
      return ((callKeys index arguments).zip texts).map bindingText) := by
  induction arguments generalizing index with
  | nil => rfl
  | cons argument rest ih =>
    obtain ⟨label, value⟩ := argument
    rw [Expr.argumentTexts, ih, List.mapM_cons]
    simp [callKeys, bindingText]

/-- The bag as a call spells it; without arguments there is none. -/
def bagText (bag : List (String × String)) : String :=
  if bag = [] then "" else "\x7b " ++ ", ".intercalate (bag.map bindingText) ++ " \x7d"

theorem argumentText_eq (bag : List (String × String)) : argumentText (bag.map bindingText) = bagText bag := by
  cases bag with
  | nil => rfl
  | cons entry rest =>
    show "\x7b " ++ Text.joinWith ", " ((entry :: rest).map bindingText) ++ " \x7d" = _
    rw [Text.joinWith_eq_intercalate, bagText, if_neg (List.cons_ne_nil entry rest)]

/-- Every call with these arguments passes their bag: between parentheses, behind what the callee comes to. -/
def CallsPass (mode : Mode) (arguments : List Argument) : Prop :=
  ∀ callee construction, ∃ front : String → String,
    (Expr.call callee arguments construction).text mode = (do
      let texts ← arguments.mapM (·.value.text mode)
      let base ← callee.text mode
      return front base ++ "(" ++ bagText (callBag arguments texts) ++ ")")

/-- Every function with these parameters takes them out of its bag, wherever it is written. -/
def FunctionsReceive (mode : Mode) (parameters : List Parameter) : Prop :=
  ∀ (decl : FunctionDecl) (scope : Scope) (page after : Page) (drawn last : Nat), decl.parameters = parameters →
    (Decl.function decl).write mode scope page drawn = .ok (after, last) →
      ∃ lines, after = ⟨page.text ++ Line.layout page.depth lines, page.depth⟩ ∧ Receives mode parameters lines

theorem callsPass (mode : Mode) (arguments : List Argument) : CallsPass mode arguments := by
  intro callee construction
  refine ⟨fun base => if construction then "new " ++ mode.constructible base
    else base ++ (if callee.isOptionalChain then "?." else ""), ?_⟩
  rw [Expr.text, argumentTexts_eq, bind_assoc]
  refine bind_congr fun texts => ?_
  rw [pure_bind]
  refine bind_congr fun base => ?_
  cases construction <;>
    simp only [if_true, Bool.false_eq_true, if_false, Expr.parenthesized, callBag, argumentText_eq, String.append_assoc]

theorem functionsReceive (mode : Mode) (parameters : List Parameter) : FunctionsReceive mode parameters := by
  rintro decl scope page after drawn last rfl h
  exact write_receives h

/-! ### Parameters and calls that fit -/

/-- The variadic parameter is the last, and the labels tell the parameters apart, from each other and from
positions. -/
structure Distinguished (parameters : List Parameter) : Prop where
  placed : misplaced? parameters = none
  nodup : (parameters.filterMap effectiveLabel).Nodup
  plain : ∀ label ∈ parameters.filterMap effectiveLabel, label ≠ "_" ∧ position? label = none

/-- Whether the argument has no label. -/
def Unlabelled (argument : Argument) : Prop := argument.label = none ∨ argument.label = some "_"

/-- The argument stands as the parameter asks for: under its label, under its name if it has no label, and without any
if the label is an underscore. -/
inductive Suits (parameter : Parameter) (argument : Argument) : Prop where
  | named (hparameter : parameter.label = none) (hargument : argument.label = some parameter.name)
  | labelled {label : String} (hparameter : parameter.label = some label) (hlabel : label ≠ "_")
      (hargument : argument.label = some label)
  | positional (hparameter : parameter.label = some "_") (hargument : Unlabelled argument)

/-- The arguments for a variadic parameter: the first as the parameter asks for, and the others by position. -/
def Fills (parameter : Parameter) : List Argument → Prop
  | [] => True
  | first :: others => Suits parameter first ∧ ∀ argument ∈ others, Unlabelled argument

/-- A call with an argument for each parameter of one value, in order, and any arguments for the variadic
parameter after them. -/
structure Supplies (parameters : List Parameter) (fixed rest : List Argument) : Prop where
  each : List.Forall₂ Suits (parameters.filter fun parameter => !parameter.isVariadic) fixed
  variadic : ∀ parameter, parameters.find? (·.isVariadic) = some parameter → Fills parameter rest
  nothingElse : parameters.find? (·.isVariadic) = none → rest = []

/-! ### The labels of a call -/

/-- The label under which an argument is passed; none for an argument passed by position. -/
def passedLabel (argument : Argument) : Option String :=
  match argument.label with
  | some label => if label = "_" then none else some label
  | none => none

theorem argumentKey_eq (index : Nat) (argument : Argument) :
    argumentKey index argument.label = (passedLabel argument).getD (positionKey index) := by
  unfold passedLabel
  cases argument.label with
  | none => rfl
  | some label => by_cases hlabel : label = "_" <;> simp [argumentKey, hlabel]

theorem Unlabelled.passedLabel_eq {argument : Argument} (h : Unlabelled argument) : passedLabel argument = none := by
  rcases h with h | h <;> simp [passedLabel, h]

theorem Suits.passedLabel_eq {parameter : Parameter} {argument : Argument} (h : Suits parameter argument)
    (hplain : ∀ label, effectiveLabel parameter = some label → label ≠ "_") :
    passedLabel argument = effectiveLabel parameter := by
  cases h with
  | named hparameter hargument =>
    have hlabel : effectiveLabel parameter = some parameter.name := by rw [effectiveLabel, hparameter]
    simp [passedLabel, hargument, hlabel, hplain parameter.name hlabel]
  | labelled hparameter hlabel hargument => simp [passedLabel, effectiveLabel, hparameter, hargument, hlabel]
  | positional hparameter hargument => simp [hargument.passedLabel_eq, effectiveLabel, hparameter]

theorem callKeys_eq (index : Nat) (arguments : List Argument) :
    callKeys index arguments = keysFrom index (arguments.map passedLabel) := by
  induction arguments generalizing index with
  | nil => rfl
  | cons argument rest ih => rw [callKeys, argumentKey_eq, ih, List.map_cons, keysFrom]

theorem passedLabels_of_suits {parameters : List Parameter} {arguments : List Argument}
    (h : List.Forall₂ Suits parameters arguments)
    (hplain : ∀ parameter ∈ parameters, ∀ label, effectiveLabel parameter = some label → label ≠ "_") :
    arguments.map passedLabel = parameters.map effectiveLabel := by
  induction h with
  | nil => rfl
  | cons hsuits _ ih =>
    obtain ⟨hfirst, hothers⟩ := List.forall_mem_cons.mp hplain
    rw [List.map_cons, List.map_cons, hsuits.passedLabel_eq hfirst, ih hothers]

theorem Fills.passedLabels_eq {parameter : Parameter} {arguments : List Argument} (h : Fills parameter arguments)
    (hplain : ∀ label, effectiveLabel parameter = some label → label ≠ "_") :
    arguments.map passedLabel = variadicLabels (effectiveLabel parameter) arguments.length := by
  cases arguments with
  | nil => rfl
  | cons first others =>
    have hothers : others.map passedLabel = List.replicate others.length none :=
      List.eq_replicate_iff.mpr ⟨by simp, fun label hlabel => by
        obtain ⟨argument, hargument, rfl⟩ := List.mem_map.mp hlabel
        exact (h.2 argument hargument).passedLabel_eq⟩
    rw [List.map_cons, h.1.passedLabel_eq hplain, hothers, List.length_cons, variadicLabels]

/-! ### The threshold -/

theorem effectiveLabel_eq_none_iff (parameter : Parameter) :
    effectiveLabel parameter = none ↔ parameter.isPositional = true := by
  unfold effectiveLabel Parameter.isPositional
  cases parameter.label with
  | none => simp
  | some label => by_cases hlabel : label = "_" <;> simp [hlabel]

/-- The last number is that of a single parameter passed by position, and no such parameter comes after it. -/
theorem lastPositional_spec (parameters : List Parameter) {found number : Nat} (hfound : found < number) :
    found ≤ lastPositional found number parameters ∧
      (∀ j parameter, parameters[j]? = some parameter → parameter.isVariadic = false →
        parameter.isPositional = true → number + j ≤ lastPositional found number parameters) ∧
      (lastPositional found number parameters = found ∨ ∃ j parameter, parameters[j]? = some parameter ∧
        parameter.isVariadic = false ∧ parameter.isPositional = true ∧
        lastPositional found number parameters = number + j) := by
  induction parameters generalizing found number with
  | nil => simp [lastPositional]
  | cons first rest ih =>
    rw [lastPositional]
    split
    · next hfirst =>
      simp only [Bool.and_eq_true, Bool.not_eq_true'] at hfirst
      obtain ⟨hle, hall, hlast⟩ := ih (show number < number + 1 by omega)
      refine ⟨by omega, ?_, .inr ?_⟩
      · intro j parameter hparameter hsingle hpositional
        cases j with
        | zero => exact hle
        | succ j =>
          have := hall j parameter hparameter hsingle hpositional
          omega
      · rcases hlast with hlast | ⟨j, parameter, hparameter, hsingle, hpositional, hlast⟩
        · exact ⟨0, first, rfl, hfirst.1, hfirst.2, hlast⟩
        · exact ⟨j + 1, parameter, hparameter, hsingle, hpositional, by omega⟩
    · next hfirst =>
      simp only [Bool.and_eq_true, Bool.not_eq_true', not_and] at hfirst
      obtain ⟨hle, hall, hlast⟩ := ih (show found < number + 1 by omega)
      refine ⟨hle, ?_, ?_⟩
      · intro j parameter hparameter hsingle hpositional
        cases j with
        | zero =>
          obtain rfl : first = parameter := by simpa using hparameter
          exact absurd hpositional (hfirst hsingle)
        | succ j =>
          have := hall j parameter hparameter hsingle hpositional
          omega
      · rcases hlast with hlast | ⟨j, parameter, hparameter, hsingle, hpositional, hlast⟩
        · exact .inl hlast
        · exact .inr ⟨j + 1, parameter, hparameter, hsingle, hpositional, by omega⟩

/-- Every position of a single parameter lies before the threshold. -/
theorem lt_threshold {parameters : List Parameter} {j : Nat} {parameter : Parameter}
    (hparameter : parameters[j]? = some parameter) (hsingle : parameter.isVariadic = false)
    (hpositional : parameter.isPositional = true) : j < threshold parameters := by
  have := (lastPositional_spec parameters Nat.zero_lt_one).2.1 j parameter hparameter hsingle hpositional
  show j < lastPositional 0 1 parameters
  omega

/-- A bound on all positions of single parameters bounds the threshold. -/
theorem threshold_le {parameters : List Parameter} {bound : Nat}
    (h : ∀ j parameter, parameters[j]? = some parameter → parameter.isVariadic = false →
      parameter.isPositional = true → j < bound) : threshold parameters ≤ bound := by
  show lastPositional 0 1 parameters ≤ bound
  rcases (lastPositional_spec parameters Nat.zero_lt_one).2.2 with
    hnone | ⟨j, parameter, hparameter, hsingle, hpositional, hlast⟩
  · omega
  · have := h j parameter hparameter hsingle hpositional
    omega

/-! ### The labels of parameters and of their arguments -/

section

variable {parameters singles : List Parameter} {last : Option Parameter} {fixed rest : List Argument}

theorem Distinguished.apart (h : Distinguished parameters) (hsplit : Split parameters singles last) :
    Apart (singles.map effectiveLabel ++ [last.bind effectiveLabel]) := by
  have hlabels : (singles.map effectiveLabel ++ [last.bind effectiveLabel]).filterMap id =
      parameters.filterMap effectiveLabel := by
    rw [hsplit.parts, List.filterMap_append, List.filterMap_append, List.filterMap_map]
    cases last with
    | none => simp
    | some parameter => cases hlabel : effectiveLabel parameter <;> simp [hlabel]
  refine ⟨hlabels ▸ h.nodup, fun label hlabel => (h.plain label ?_).2⟩
  rw [← hlabels]
  exact List.mem_filterMap.mpr ⟨some label, hlabel, rfl⟩

/-- The arguments of a call stand under the labels of the parameters that they are for. -/
theorem Supplies.passedLabels_eq (hparameters : Distinguished parameters) (hsplit : Split parameters singles last)
    (h : Supplies parameters fixed rest) :
    fixed.map passedLabel = singles.map effectiveLabel ∧
      rest.map passedLabel = variadicLabels (last.bind effectiveLabel) rest.length := by
  have hplain : ∀ parameter ∈ parameters, ∀ label, effectiveLabel parameter = some label → label ≠ "_" :=
    fun parameter hparameter label hlabel =>
      (hparameters.plain label (List.mem_filterMap.mpr ⟨parameter, hparameter, hlabel⟩)).1
  constructor
  · refine passedLabels_of_suits (hsplit.filter_eq ▸ h.each) fun parameter hparameter => hplain parameter ?_
    rw [hsplit.parts]
    exact List.mem_append_left _ hparameter
  · have hfind := hsplit.find?_eq
    cases last with
    | none =>
      rw [h.nothingElse hfind]
      rfl
    | some parameter =>
      exact (h.variadic parameter hfind).passedLabels_eq (hplain parameter (List.mem_of_find?_eq_some hfind))

end

/-! ### Calls with all arguments -/

/-- The function finds in the bag: at the key of each single parameter its value, if it has one, and in the list of the
variadic parameter the extra values. -/
structure Delivers (parameters : List Parameter) (bag : List (String × α)) (value : Nat → Option α)
    (extra : List α) : Prop where
  single : ∀ j parameter, parameters[j]? = some parameter → parameter.isVariadic = false →
    bag.lookup (parameterKey j parameter) = value j
  variadic : ∀ parameter, parameters.find? (·.isVariadic) = some parameter →
    (Collector.ofLabel (threshold parameters) (effectiveLabel parameter)).values bag = extra

section

variable {parameters singles : List Parameter} {last : Option Parameter} {fixed rest : List Argument}

theorem Split.lt_threshold (hsplit : Split parameters singles last) {j : Nat}
    (h : (singles.map effectiveLabel)[j]? = some none) : j < threshold parameters := by
  rw [List.getElem?_map, Option.map_eq_some_iff] at h
  obtain ⟨parameter, hparameter, hlabel⟩ := h
  obtain ⟨hmember, hsingle⟩ := hsplit.getElem?_single.mpr hparameter
  exact ParameterBag.lt_threshold hmember hsingle ((effectiveLabel_eq_none_iff parameter).mp hlabel)

theorem Split.threshold_le_length (hsplit : Split parameters singles last) :
    threshold parameters ≤ singles.length := by
  refine threshold_le fun j parameter hparameter hsingle _ => ?_
  exact (List.getElem?_eq_some_iff.mp (hsplit.getElem?_single.mp ⟨hparameter, hsingle⟩)).1

theorem Supplies.callKeys_eq (hparameters : Distinguished parameters) (hsplit : Split parameters singles last)
    (h : Supplies parameters fixed rest) :
    callKeys 0 (fixed ++ rest) =
      keysFrom 0 (singles.map effectiveLabel ++ variadicLabels (last.bind effectiveLabel) rest.length) := by
  obtain ⟨hfixed, hrest⟩ := h.passedLabels_eq hparameters hsplit
  rw [ParameterBag.callKeys_eq, List.map_append, hfixed, hrest]

theorem Supplies.length_eq (hsplit : Split parameters singles last) (h : Supplies parameters fixed rest) :
    singles.length = fixed.length := by
  have hlength := h.each.length_eq
  rwa [hsplit.filter_eq] at hlength

end

/-- **A call and its function agree on the bag.**  The call spells an entry for each argument, and the function declares
a variable for each single parameter and a list for the variadic one.  A variable is taken from the key of its own
argument, and the list holds just the values that are for it, in order. -/
theorem call_reaches_parameters (mode : Mode) {parameters : List Parameter} {fixed rest : List Argument}
    (hparameters : Distinguished parameters) (hcall : Supplies parameters fixed rest) (given extra : List α)
    (hgiven : given.length = fixed.length) (hextra : extra.length = rest.length) :
    CallsPass mode (fixed ++ rest) ∧ FunctionsReceive mode parameters ∧
      (callKeys 0 (fixed ++ rest)).Nodup ∧
      (∀ j parameter, parameters[j]? = some parameter → parameter.isVariadic = false →
        (callKeys 0 (fixed ++ rest))[j]? = some (parameterKey j parameter)) ∧
      Delivers parameters (callBag (fixed ++ rest) (given ++ extra)) (fun j => given[j]?) extra := by
  obtain ⟨singles, last, hsplit⟩ := exists_split hparameters.placed
  -- From here on only the labels matter: those of the single parameters, then those of the variadic one.
  have hapart := hparameters.apart hsplit
  have hkeys := hcall.callKeys_eq hparameters hsplit
  have hnodup : (callKeys 0 (fixed ++ rest)).Nodup := by
    rw [hkeys]
    exact (hapart.append_variadicLabels rest.length).nodup_keysFrom 0
  have hkey : ∀ j parameter, parameters[j]? = some parameter → parameter.isVariadic = false →
      j < fixed.length ∧ (callKeys 0 (fixed ++ rest))[j]? = some (parameterKey j parameter) := by
    intro j parameter hparameter hsingle
    have hmember := hsplit.getElem?_single.mp ⟨hparameter, hsingle⟩
    obtain ⟨hj, -⟩ := List.getElem?_eq_some_iff.mp hmember
    refine ⟨hcall.length_eq hsplit ▸ hj, ?_⟩
    rw [hkeys, getElem?_keysFrom, List.getElem?_append_left (by simpa using hj), List.getElem?_map, hmember,
      Nat.zero_add]
    rfl
  refine ⟨callsPass mode _, functionsReceive mode parameters, hnodup,
    fun j parameter hparameter hsingle => (hkey j parameter hparameter hsingle).2, ?_, ?_⟩
  · intro j parameter hparameter hsingle
    obtain ⟨hj, hfound⟩ := hkey j parameter hparameter hsingle
    rw [callBag, lookup_zip hnodup _ hfound, List.getElem?_append_left (by omega)]
  · intro parameter hfind
    have hlast : last = some parameter := hsplit.find?_eq.symm.trans hfind
    have hlength : given.length = (singles.map effectiveLabel).length := by
      rw [List.length_map, hgiven, hcall.length_eq hsplit]
    have hcollected := collected_of_labels hapart (fun j hj => hsplit.lt_threshold hj)
      (by simpa using hsplit.threshold_le_length) given extra hlength
    rw [Collector.values_ofLabel, callBag, hkeys, ← hextra]
    subst hlast
    exact hcollected

/-- The parameters of `func tally(start = 0, _ first, with values...)`. -/
def tallyParameters : List Parameter :=
  [⟨"start", none, some (.literal (.int "0")), false, none⟩, ⟨"first", some "_", none, false, none⟩,
    ⟨"values", some "with", none, true, none⟩]

/-- A function with these parameters and an empty body. -/
def tallyText : String :=
  "function tally(__args: any = \x7b\x7d) \x7b\n  const \x7b start = 0, _2: first \x7d = __args;\n" ++
    "  const values = [\n    ...(\"with\" in __args ? [__args[\"with\"]] : []),\n    ...Object.entries(__args)\n" ++
    "      .filter(([key]) => /^_\\d+$/.test(key))\n" ++
    "      .map(([key, value]): [number, any] => [Number(key.slice(1)), value])\n" ++
    "      .filter(([position]) => position > 2)\n      .sort((a, b) => a[0] - b[0])\n" ++
    "      .map(([, value]) => value),\n  ];\n\x7d\n"

/-- Values at positions past the ninth: the position of the tenth has one digit more, and comes after it. -/
theorem call_reaches_tenth_value :
    let fixed : List Argument := [⟨some "start", .itself⟩, ⟨none, .itself⟩]
    let rest : List Argument := ⟨some "with", .itself⟩ :: List.replicate 9 ⟨none, .itself⟩
    let given : List Nat := [1, 2]
    let extra : List Nat := [3, 4, 5, 6, 7, 8, 9, 10, 11, 12]
    Distinguished tallyParameters ∧ Supplies tallyParameters fixed rest ∧
      (∃ lines, Receives .native tallyParameters lines ∧ Line.layout 0 lines = tallyText) ∧
      Delivers tallyParameters (callBag (fixed ++ rest) (given ++ extra)) (fun j => given[j]?) extra := by
  intro fixed rest given extra
  have hparameters : Distinguished tallyParameters := ⟨rfl, by decide, by decide⟩
  have hcall : Supplies tallyParameters fixed rest := by
    refine ⟨.cons (.named rfl rfl) (.cons (.positional rfl (.inl rfl)) .nil), ?_, by simp [tallyParameters]⟩
    rintro parameter ⟨⟩
    exact ⟨.labelled rfl (by decide) rfl, fun argument hargument => .inl (by rw [List.eq_of_mem_replicate hargument])⟩
  obtain ⟨-, hfunctions, -, -, hdelivers⟩ := call_reaches_parameters .native hparameters hcall given extra rfl rfl
  obtain ⟨lines, hafter, hlines⟩ :=
    hfunctions ⟨"tally", tallyParameters, none, [], false⟩ .block .blank ⟨tallyText, 0⟩ 0 0 rfl (by decide +kernel)
  refine ⟨hparameters, hcall, ⟨lines, hlines, ?_⟩, hdelivers⟩
  rw [(Page.mk.inj hafter).1]
  exact String.empty_append.symm

/-! ### Calls that leave an argument out -/

/-- No single parameter behind the given place is passed by position. -/
def NoneByPosition (parameters : List Parameter) (index : Nat) : Prop :=
  ∀ j parameter, index < j → parameters[j]? = some parameter → parameter.isVariadic = false →
    parameter.isPositional = false

/-- The place of an argument after another one has been left out. -/
def shifted (omitted j : Nat) : Nat := if j < omitted then j else j - 1

theorem shifted_lt {omitted j length : Nat} (h : j ≠ omitted) (homitted : omitted < length) (hj : j < length) :
    shifted omitted j < length - 1 := by
  unfold shifted
  split <;> omega

theorem getElem?_eraseIdx_shifted (values : List β) {omitted j : Nat} (h : j ≠ omitted) :
    (values.eraseIdx omitted)[shifted omitted j]? = values[j]? := by
  unfold shifted
  split
  · next hlt => rw [List.getElem?_eraseIdx_of_lt hlt]
  · next hge =>
    have hj : j - 1 + 1 = j := by omega
    rw [List.getElem?_eraseIdx_of_ge (by omega), hj]

/-- The key of an argument that is left out does not occur among the others. -/
theorem Apart.not_mem_keysFrom_eraseIdx {labels : List (Option String)} (h : Apart labels) {i : Nat} {label : String}
    (hlabel : labels[i]? = some (some label)) : label ∉ keysFrom 0 (labels.eraseIdx i) := by
  intro hmem
  rcases mem_keysFrom hmem with hother | ⟨j, -, hkey⟩
  · obtain ⟨j, hj, hsame⟩ := List.mem_eraseIdx_iff_getElem?.mp hother
    have hkey : (keysFrom 0 labels)[j]? = (keysFrom 0 labels)[i]? := by
      rw [getElem?_keysFrom, getElem?_keysFrom, hlabel, hsame]
      rfl
    have hbound : j < (keysFrom 0 labels).length := by
      rw [length_keysFrom]
      exact (List.getElem?_eq_some_iff.mp hsame).1
    exact hj ((List.getElem?_inj hbound (h.nodup_keysFrom 0)).mp hkey)
  · have hnone : position? (positionKey j) = none := hkey ▸ h.plain label (List.mem_of_getElem? hlabel)
    simp [position?_positionKey] at hnone

section

variable {parameters singles : List Parameter} {last : Option Parameter} {fixed rest : List Argument}

/-- The keys of a call that leaves out one of its single arguments. -/
theorem Supplies.callKeys_eraseIdx (hparameters : Distinguished parameters) (hsplit : Split parameters singles last)
    (h : Supplies parameters fixed rest) {i : Nat} (hi : i < singles.length) :
    callKeys 0 ((fixed ++ rest).eraseIdx i) = keysFrom 0 ((singles.map effectiveLabel).eraseIdx i ++
      variadicLabels (last.bind effectiveLabel) rest.length) := by
  obtain ⟨hfixed, hrest⟩ := h.passedLabels_eq hparameters hsplit
  have hlength : i < fixed.length := h.length_eq hsplit ▸ hi
  rw [ParameterBag.callKeys_eq, List.eraseIdx_append_of_lt_length hlength, List.map_append, ← List.eraseIdx_map,
    hfixed, hrest]

/-- A parameter reads the key of its argument, unless it is passed by position and stands behind the argument
that is left out. -/
theorem parameterKey_shifted_iff (parameter : Parameter) {i j : Nat} (h : j ≠ i) :
    (effectiveLabel parameter).getD (positionKey (shifted i j)) = parameterKey j parameter ↔
      (i < j → parameter.isPositional = false) := by
  unfold parameterKey
  cases hlabel : effectiveLabel parameter with
  | some label =>
    have hlabelled : parameter.isPositional = false := by
      rw [Bool.eq_false_iff, ne_eq, ← effectiveLabel_eq_none_iff, hlabel]
      exact Option.some_ne_none label
    simp [hlabelled]
  | none =>
    have hpositional := (effectiveLabel_eq_none_iff parameter).mp hlabel
    by_cases hlt : j < i
    · have hbefore : ¬ i < j := by omega
      simp [shifted, hlt, hbefore]
    · have hbehind : i < j := by omega
      simp only [Option.getD_none, shifted, hlt, if_false, hbehind, hpositional, forall_const, Bool.true_eq_false,
        iff_false]
      intro hsame
      have := positionKey_inj hsame
      omega

/-- The threshold lies at or before an omitted parameter behind which none is passed by position. -/
theorem threshold_le_omitted {i : Nat} {omitted : Parameter} (homitted : parameters[i]? = some omitted)
    (hlabelled : omitted.isPositional = false) (hbehind : NoneByPosition parameters i) : threshold parameters ≤ i := by
  refine threshold_le fun j parameter hparameter hsingle hpositional => ?_
  rcases Nat.lt_trichotomy j i with hlt | rfl | hgt
  · exact hlt
  · obtain rfl : omitted = parameter := Option.some.inj (homitted.symm.trans hparameter)
    simp [hlabelled] at hpositional
  · simp [hbehind j parameter hgt hparameter hsingle] at hpositional

/-- The key of a single argument after the argument of another parameter has been left out. -/
theorem Supplies.getElem?_callKeys_eraseIdx (hparameters : Distinguished parameters)
    (hsplit : Split parameters singles last) (h : Supplies parameters fixed rest) {i j : Nat} (hi : i < singles.length)
    (hj : j ≠ i) {parameter : Parameter} (hparameter : singles[j]? = some parameter) :
    (callKeys 0 ((fixed ++ rest).eraseIdx i))[shifted i j]? =
      some ((effectiveLabel parameter).getD (positionKey (shifted i j))) := by
  obtain ⟨hbound, -⟩ := List.getElem?_eq_some_iff.mp hparameter
  have hplace : shifted i j < ((singles.map effectiveLabel).eraseIdx i).length := by
    rw [List.length_eraseIdx_of_lt (by simpa using hi), List.length_map]
    exact shifted_lt hj hi hbound
  rw [h.callKeys_eraseIdx hparameters hsplit hi, getElem?_keysFrom, List.getElem?_append_left hplace,
    getElem?_eraseIdx_shifted _ hj, List.getElem?_map, hparameter, Nat.zero_add]
  rfl

/-- Nothing stands at the key of the parameter whose argument is left out. -/
theorem Supplies.parameterKey_not_mem_eraseIdx (hparameters : Distinguished parameters)
    (hsplit : Split parameters singles last) (h : Supplies parameters fixed rest) {i : Nat} {omitted : Parameter}
    (homitted : singles[i]? = some omitted) (hlabelled : omitted.isPositional = false) :
    parameterKey i omitted ∉ callKeys 0 ((fixed ++ rest).eraseIdx i) := by
  obtain ⟨hi, -⟩ := List.getElem?_eq_some_iff.mp homitted
  have hwhole := (hparameters.apart hsplit).append_variadicLabels rest.length
  have hsome : effectiveLabel omitted ≠ none := by
    rw [ne_eq, effectiveLabel_eq_none_iff, hlabelled]
    exact Bool.false_ne_true
  obtain ⟨label, hlabel⟩ := Option.ne_none_iff_exists'.mp hsome
  rw [parameterKey, hlabel, Option.getD_some, h.callKeys_eraseIdx hparameters hsplit hi,
    ← List.eraseIdx_append_of_lt_length (by simpa using hi)]
  refine hwhole.not_mem_keysFrom_eraseIdx ?_
  rw [List.getElem?_append_left (by simpa using hi), List.getElem?_map, homitted, Option.map_some, hlabel]

/-- With no parameter by position behind the omitted one, the function finds what the shortened call puts into
the bag. -/
theorem Supplies.delivers_eraseIdx (hparameters : Distinguished parameters) (h : Supplies parameters fixed rest)
    (given extra : List α) (hgiven : given.length = fixed.length) (hextra : extra.length = rest.length) {i : Nat}
    {omitted : Parameter} (homitted : parameters[i]? = some omitted) (hsingle : omitted.isVariadic = false)
    (hlabelled : omitted.isPositional = false) (hnone : NoneByPosition parameters i) :
    (callKeys 0 ((fixed ++ rest).eraseIdx i)).Nodup ∧
      Delivers parameters (callBag ((fixed ++ rest).eraseIdx i) ((given ++ extra).eraseIdx i))
        (fun j => if j = i then none else given[j]?) extra := by
  obtain ⟨singles, last, hsplit⟩ := exists_split hparameters.placed
  have hmember := hsplit.getElem?_single.mp ⟨homitted, hsingle⟩
  obtain ⟨hi, -⟩ := List.getElem?_eq_some_iff.mp hmember
  have hlength := h.length_eq hsplit
  have hkeys := h.callKeys_eraseIdx hparameters hsplit hi
  have hapart := hparameters.apart hsplit
  have hshort : Apart ((singles.map effectiveLabel).eraseIdx i ++ [last.bind effectiveLabel]) :=
    hapart.sublist ((List.eraseIdx_sublist _ _).append_right _)
  have hnodup : (callKeys 0 ((fixed ++ rest).eraseIdx i)).Nodup := by
    rw [hkeys]
    exact (hshort.append_variadicLabels rest.length).nodup_keysFrom 0
  refine ⟨hnodup, ⟨fun j parameter hparameter hvariadic => ?_, fun parameter hfind => ?_⟩⟩
  · split
    · next hj =>
      subst hj
      obtain rfl : omitted = parameter := Option.some.inj (homitted.symm.trans hparameter)
      exact lookup_zip_of_not_mem (h.parameterKey_not_mem_eraseIdx hparameters hsplit hmember hlabelled) _
    · next hj =>
      have hother := hsplit.getElem?_single.mp ⟨hparameter, hvariadic⟩
      obtain ⟨hbound, -⟩ := List.getElem?_eq_some_iff.mp hother
      have hfound := h.getElem?_callKeys_eraseIdx hparameters hsplit hi hj hother
      rw [(parameterKey_shifted_iff parameter hj).mpr fun hbehind => hnone j parameter hbehind hparameter hvariadic]
        at hfound
      rw [callBag, lookup_zip hnodup _ hfound, getElem?_eraseIdx_shifted _ hj, List.getElem?_append_left (by omega)]
  · have hlast : last = some parameter := hsplit.find?_eq.symm.trans hfind
    -- Positions behind the gap have moved down, and so lie before the threshold all the more.
    have hbelow : ∀ j, ((singles.map effectiveLabel).eraseIdx i)[j]? = some none → j < threshold parameters := by
      intro j hj
      by_cases hlt : j < i
      · rw [List.getElem?_eraseIdx_of_lt hlt] at hj
        exact hsplit.lt_threshold hj
      · rw [List.getElem?_eraseIdx_of_ge (by omega)] at hj
        exact Nat.lt_of_succ_lt (hsplit.lt_threshold hj)
    -- The values of the variadic parameter have moved down too, but not to the threshold.
    have hthreshold := threshold_le_omitted homitted hlabelled hnone
    have hshorter : ((singles.map effectiveLabel).eraseIdx i).length = singles.length - 1 := by
      rw [List.length_eraseIdx_of_lt (by simpa using hi), List.length_map]
    have hcollected := collected_of_labels hshort hbelow (by omega) (given.eraseIdx i) extra
      (by rw [List.length_eraseIdx_of_lt (by omega)]; omega)
    rw [Collector.values_ofLabel, callBag, hkeys, List.eraseIdx_append_of_lt_length (by omega), ← hextra]
    subst hlast
    exact hcollected

end

/-- **Leaving out a labelled argument.**  The other single parameters still read the keys of their arguments
exactly when none of those behind it is passed by position.  Then the omitted parameter finds nothing, the others
find their values, and the variadic parameter collects just its own. -/
theorem shortened_call_reaches_parameters (mode : Mode) {parameters : List Parameter} {fixed rest : List Argument}
    (hparameters : Distinguished parameters) (hcall : Supplies parameters fixed rest) (given extra : List α)
    (hgiven : given.length = fixed.length) (hextra : extra.length = rest.length) {i : Nat} {omitted : Parameter}
    (homitted : parameters[i]? = some omitted) (hsingle : omitted.isVariadic = false)
    (hlabelled : omitted.isPositional = false) :
    CallsPass mode ((fixed ++ rest).eraseIdx i) ∧ FunctionsReceive mode parameters ∧
    ((∀ j parameter, j ≠ i → parameters[j]? = some parameter → parameter.isVariadic = false →
        (callKeys 0 ((fixed ++ rest).eraseIdx i))[shifted i j]? = some (parameterKey j parameter)) ↔
      NoneByPosition parameters i) ∧
    (NoneByPosition parameters i →
      (callKeys 0 ((fixed ++ rest).eraseIdx i)).Nodup ∧
        Delivers parameters (callBag ((fixed ++ rest).eraseIdx i) ((given ++ extra).eraseIdx i))
          (fun j => if j = i then none else given[j]?) extra) := by
  obtain ⟨singles, last, hsplit⟩ := exists_split hparameters.placed
  obtain ⟨hi, -⟩ := List.getElem?_eq_some_iff.mp (hsplit.getElem?_single.mp ⟨homitted, hsingle⟩)
  have hkey : ∀ j parameter, j ≠ i → parameters[j]? = some parameter → parameter.isVariadic = false →
      ((callKeys 0 ((fixed ++ rest).eraseIdx i))[shifted i j]? = some (parameterKey j parameter) ↔
        (i < j → parameter.isPositional = false)) := by
    intro j parameter hj hparameter hvariadic
    have hother := hsplit.getElem?_single.mp ⟨hparameter, hvariadic⟩
    rw [hcall.getElem?_callKeys_eraseIdx hparameters hsplit hi hj hother, Option.some.injEq]
    exact parameterKey_shifted_iff parameter hj
  refine ⟨callsPass mode _, functionsReceive mode parameters, ⟨?_, ?_⟩,
    hcall.delivers_eraseIdx hparameters given extra hgiven hextra homitted hsingle hlabelled⟩
  · intro hreads j parameter hbehind hparameter hvariadic
    have hj : j ≠ i := by omega
    exact (hkey j parameter hj hparameter hvariadic).mp (hreads j parameter hj hparameter hvariadic) hbehind
  · intro hnone j parameter hj hparameter hvariadic
    exact (hkey j parameter hj hparameter hvariadic).mpr fun hbehind => hnone j parameter hbehind hparameter hvariadic

/-- The values of a variadic parameter move down by one position, and are collected all the same. -/
theorem shortened_call_reaches_values :
    let omitted : Parameter := ⟨"start", none, some (.literal (.int "0")), false, none⟩
    let parameters : List Parameter := [⟨"first", some "_", none, false, none⟩, omitted,
      ⟨"tag", some "with", none, false, none⟩, ⟨"values", some "_", none, true, none⟩]
    let fixed : List Argument := [⟨none, .itself⟩, ⟨some "start", .itself⟩, ⟨some "with", .itself⟩]
    let rest : List Argument := [⟨none, .itself⟩, ⟨some "_", .itself⟩]
    let given : List Nat := [10, 20, 30]
    let extra : List Nat := [40, 50]
    Distinguished parameters ∧ Supplies parameters fixed rest ∧ NoneByPosition parameters 1 ∧
      Delivers parameters (callBag ((fixed ++ rest).eraseIdx 1) ((given ++ extra).eraseIdx 1))
        (fun j => if j = 1 then none else given[j]?) extra := by
  intro omitted parameters fixed rest given extra
  have hparameters : Distinguished parameters := ⟨rfl, by decide, by decide⟩
  have hcall : Supplies parameters fixed rest := by
    have htag : Suits ⟨"tag", some "with", none, false, none⟩ ⟨some "with", .itself⟩ := .labelled rfl (by decide) rfl
    refine ⟨.cons (.positional rfl (.inl rfl)) (.cons (.named rfl rfl) (.cons htag .nil)), ?_,
      by simp [parameters, omitted]⟩
    rintro parameter ⟨⟩
    exact ⟨.positional rfl (.inl rfl), by simp [Unlabelled]⟩
  have hnone : NoneByPosition parameters 1 := by
    rintro (_ | _ | _ | _ | j) parameter hbehind hparameter hsingle
    · omega
    · omega
    · obtain rfl := Option.some.inj hparameter
      rfl
    · obtain rfl := Option.some.inj hparameter
      exact absurd hsingle (by decide)
    · simp [parameters] at hparameter
  have hreaches := shortened_call_reaches_parameters .native hparameters hcall given extra rfl rfl (i := 1) rfl rfl rfl
  exact ⟨hparameters, hcall, hnone, (hreaches.2.2.2 hnone).2⟩

/-- A parameter by position behind the omitted one does not get its value: of the parameters `a = 0` and `_ b`,
the call with `b` alone puts it at the first position, and the function looks for it at the second. -/
theorem shortened_call_misses_position :
    (Stmt.block [.decl (.function ⟨"f", [⟨"a", none, some (.literal (.int "0")), false, none⟩,
          ⟨"b", some "_", none, false, none⟩], none, [], false⟩),
        .expr (.call (.variable "f") [⟨none, .literal (.int "2")⟩] false)]).lower .native =
      .ok ("function f(__args: any = \x7b\x7d) \x7b\n  const \x7b a = 0, _2: b \x7d = __args;\n\x7d\n" ++
        "f(\x7b _1: 2 \x7d);\n") ∧
    ¬ ∀ (parameters : List Parameter) (fixed rest : List Argument) (i : Nat) (omitted : Parameter),
      Distinguished parameters → Supplies parameters fixed rest → parameters[i]? = some omitted →
      omitted.isVariadic = false → omitted.isPositional = false → omitted.fallback.isSome = true →
      ∀ j parameter, j ≠ i → parameters[j]? = some parameter → parameter.isVariadic = false →
        (callKeys 0 ((fixed ++ rest).eraseIdx i))[shifted i j]? = some (parameterKey j parameter) := by
  refine ⟨rfl, fun h => ?_⟩
  have hmissed := h [⟨"a", none, some (.literal (.int "0")), false, none⟩, ⟨"b", some "_", none, false, none⟩]
    [⟨some "a", .literal (.int "1")⟩, ⟨none, .literal (.int "2")⟩] [] 0 _ ⟨rfl, by decide, by decide⟩
    ⟨.cons (.named rfl rfl) (.cons (.positional rfl (.inl rfl)) .nil), by simp, by simp⟩ rfl rfl rfl rfl
    1 _ (by decide) rfl rfl
  exact absurd hmissed (by decide)

end ScriptLowering.ParameterBag
