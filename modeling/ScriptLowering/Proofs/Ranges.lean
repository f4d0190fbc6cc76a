import Mathlib.Data.List.TakeWhile
import ScriptLowering.Proofs.ExpressionReader
import ScriptLowering.Proofs.Layout
import ScriptLowering.Proofs.Outcome

/-!
# Ranges are lowered alike

A range is lowered in three places.  A loop over it compares its counter with the upper bound as it stands, while a
range as a value and a range as a subscript write down a limit that is not reached.  Here the texts are given a
meaning, and it turns out that they stand for the same numbers.

* `Decimal.IsNumeral` — the numerals of a whole number;
* `Counting`, `Counting.visited` — a loop that counts, and the values that its counter takes;
* `Counting.header?` — the loop that a header describes;
* `rangeValues` — what the support code gives for a range with the given bounds;
* `Expr.WritesLimit` — the limit that a range as a value and as a subscript writes down;
* `Expr.range_lowerings_agree` — the values of the counter, the values of the range, and the limits of inclusive ranges.
-/

namespace ScriptLowering

/-! ### Numerals -/

namespace Decimal

/-- The numerals of a whole number: decimal digits, with or without a sign. -/
inductive IsNumeral : List Char → Int → Prop where
  | unsigned {digits : List Char} (h : Numeral.isDigits digits = true) : IsNumeral digits (Numeral.value digits)
  | positive {digits : List Char} (h : Numeral.isDigits digits = true) :
      IsNumeral ('+' :: digits) (Numeral.value digits)
  | negative {digits : List Char} (h : Numeral.isDigits digits = true) :
    IsNumeral ('-' :: digits) (-(Numeral.value digits : Int))

theorem magnitude?_eq_some_iff {digits : List Char} {n : Nat} :
    magnitude? digits = some n ↔ Numeral.isDigits digits = true ∧ Numeral.value digits = n := by
  unfold magnitude?
  split
  · next h => simp [h]
  · next h => simp [h]

/-- A numeral is read as its number, and nothing else is read. -/
theorem read?_eq_some_iff {text : List Char} {n : Int} : read? text = some n ↔ IsNumeral text n := by
  constructor
  · intro h
    unfold read? at h
    split at h
    all_goals
      simp only [Option.map_eq_some_iff, Option.bind_eq_bind, Option.bind_eq_some_iff, Option.pure_def,
        Option.some.injEq, magnitude?_eq_some_iff] at h
      obtain ⟨_, ⟨_, ⟨hdigits, rfl⟩, rfl⟩, rfl⟩ := h
    · exact .negative hdigits
    · exact .positive hdigits
    · exact .unsigned hdigits
  · intro h
    cases h with
    | negative hdigits =>
      rw [read?, magnitude?, if_pos hdigits]
      rfl
    | positive hdigits =>
      rw [read?, magnitude?, if_pos hdigits]
      rfl
    | unsigned hdigits =>
      have hmagnitude : magnitude? text = some (Numeral.value text) := if_pos hdigits
      rw [Numeral.isDigits, Bool.and_eq_true] at hdigits
      -- A digit is no sign.
      rw [read?, hmagnitude]
      · rfl
      · rintro rest rfl
        exact absurd hdigits.2 (by simp)
      · rintro rest rfl
        exact absurd hdigits.2 (by simp)

/-- A numeral stands for one number. -/
theorem IsNumeral.unique {text : List Char} {n m : Int} (h : IsNumeral text n) (hother : IsNumeral text m) : n = m := by
  rw [← read?_eq_some_iff] at h hother
  exact Option.some.inj (h.symm.trans hother)

theorem isNumeral_toString (n : Int) : IsNumeral (toString n).toList n := by
  have hdigits : ∀ m : Nat, (toString m).toList = Nat.toDigits 10 m := fun m => by
    rw [Nat.toString_eq_ofList_toDigits, String.toList_ofList]
  cases n with
  | ofNat m =>
    have hnumeral := IsNumeral.unsigned (Numeral.isDigits_toDigits m)
    rw [Numeral.value_toDigits, ← hdigits] at hnumeral
    exact hnumeral
  | negSucc m =>
    have hnumeral := IsNumeral.negative (Numeral.isDigits_toDigits (m + 1))
    rw [Numeral.value_toDigits, ← hdigits] at hnumeral
    have htext : (toString (Int.negSucc m)).toList = '-' :: (toString (m + 1)).toList :=
      String.toList_append (s := "-")
    rw [htext]
    exact hnumeral

/-- A numeral is made of digits and signs. -/
theorem IsNumeral.char_cases {text : List Char} {n : Int} (h : IsNumeral text n) :
    ∀ c ∈ text, c.isDigit = true ∨ c = '+' ∨ c = '-' := by
  have hall : ∀ {digits : List Char}, Numeral.isDigits digits = true → ∀ c ∈ digits, c.isDigit = true := by
    intro digits hdigits
    rw [Numeral.isDigits, Bool.and_eq_true] at hdigits
    exact List.all_eq_true.mp hdigits.2
  intro c hc
  cases h with
  | unsigned hdigits => exact .inl (hall hdigits c hc)
  | positive hdigits =>
    rcases List.mem_cons.mp hc with rfl | hc
    · exact .inr (.inl rfl)
    · exact .inl (hall hdigits c hc)
  | negative hdigits =>
    rcases List.mem_cons.mp hc with rfl | hc
    · exact .inr (.inr rfl)
    · exact .inl (hall hdigits c hc)

theorem IsNumeral.ne_of_mem {text : List Char} {n : Int} (h : IsNumeral text n) (mark : Char)
    (hmark : mark.isDigit = false ∧ mark ≠ '+' ∧ mark ≠ '-') : ∀ c ∈ text, (c != mark) = true := by
  intro c hc
  rw [bne_iff_ne]
  rintro rfl
  rcases h.char_cases c hc with hdigit | hplus | hminus
  · exact absurd hdigit (by rw [hmark.1]; decide)
  · exact hmark.2.1 hplus
  · exact hmark.2.2 hminus

/-- The number after one of 64 bits, unless that leaves the 64 bits. -/
theorem successor?_of_isNumeral {text : String} {n : Int} (h : IsNumeral text.toList n) :
    successor? text =
      if Int64.minValue.toInt ≤ n ∧ n < Int64.maxValue.toInt then some (toString (n + 1)) else none := by
  have hleast : Int64.minValue.toInt = least := by decide
  have hgreatest : Int64.maxValue.toInt = greatest := by decide
  rw [successor?, read?_eq_some_iff.mpr h, hleast, hgreatest]
  rfl

theorem successor?_of_not_isNumeral {text : String} (h : ∀ n, ¬ IsNumeral text.toList n) : successor? text = none := by
  have hread : read? text.toList = none :=
    Option.eq_none_iff_forall_ne_some.mpr fun n hn => h n (read?_eq_some_iff.mp hn)
  rw [successor?, hread]
  rfl

end Decimal

/-! ### Loops that count -/

/-- A loop whose counter goes up by one from `first`, as long as it is below the limit or, when the limit is included,
not above it. -/
structure Counting where
  first : Int
  inclusive : Bool
  limit : Int
deriving DecidableEq

namespace Counting

/-- Whether the loop goes on at a value of its counter. -/
def goesOn (loop : Counting) (i : Int) : Prop := if loop.inclusive then i ≤ loop.limit else i < loop.limit

instance (loop : Counting) (i : Int) : Decidable (loop.goesOn i) := by
  unfold goesOn
  infer_instance

theorem goesOn_le {loop : Counting} {i : Int} (h : loop.goesOn i) : i ≤ loop.limit := by
  unfold goesOn at h
  split at h <;> omega

theorem goesOn_of_le {loop : Counting} {i j : Int} (h : loop.goesOn j) (hle : i ≤ j) : loop.goesOn i := by
  unfold goesOn at h ⊢
  split at h <;> split <;> omega

/-- The values that the counter takes from `i` on. -/
def visitedFrom (loop : Counting) (i : Int) : List Int :=
  if loop.goesOn i then i :: loop.visitedFrom (i + 1) else []
termination_by (loop.limit + 1 - i).toNat
decreasing_by
  next h =>
    have := goesOn_le h
    omega

/-- The values that the counter takes, one for each time the body runs. -/
def visited (loop : Counting) : List Int := loop.visitedFrom loop.first

theorem mem_visitedFrom {loop : Counting} {i j : Int} : j ∈ loop.visitedFrom i ↔ i ≤ j ∧ loop.goesOn j := by
  induction i using visitedFrom.induct loop with
  | case1 i h ih =>
    rw [visitedFrom, if_pos h, List.mem_cons, ih]
    constructor
    · rintro (rfl | ⟨hle, hj⟩)
      · exact ⟨Int.le_refl j, h⟩
      · exact ⟨by omega, hj⟩
    · rintro ⟨hle, hj⟩
      rcases Int.le_iff_eq_or_lt.mp hle with rfl | hlt
      · exact .inl rfl
      · exact .inr ⟨hlt, hj⟩
  | case2 i h =>
    rw [visitedFrom, if_neg h]
    exact iff_of_false List.not_mem_nil fun hj => h (goesOn_of_le hj.2 hj.1)

theorem visitedFrom_increasing (loop : Counting) (i : Int) : (loop.visitedFrom i).Pairwise (· < ·) := by
  induction i using visitedFrom.induct loop with
  | case1 i h ih =>
    rw [visitedFrom, if_pos h]
    refine List.pairwise_cons.mpr ⟨fun j hj => ?_, ih⟩
    have := (mem_visitedFrom.mp hj).1
    omega
  | case2 i h =>
    rw [visitedFrom, if_neg h]
    exact List.Pairwise.nil

/-- Up to a limit and below the next number is the same. -/
theorem visitedFrom_next (first limit i : Int) :
    visitedFrom ⟨first, false, limit + 1⟩ i = visitedFrom ⟨first, true, limit⟩ i := by
  induction i using visitedFrom.induct ⟨first, true, limit⟩ with
  | case1 i h ih =>
    have hnext : goesOn ⟨first, false, limit + 1⟩ i := Int.lt_add_one_of_le h
    rw [visitedFrom, if_pos hnext, ih, visitedFrom.eq_def ⟨first, true, limit⟩ i, if_pos h]
  | case2 i h =>
    have hnext : ¬ goesOn ⟨first, false, limit + 1⟩ i := fun hlt => h (Int.le_of_lt_add_one hlt)
    rw [visitedFrom, if_neg hnext, visitedFrom, if_neg h]

/-! ### Headers -/

/-- The number that a name or a numeral stands for. -/
def operand? (names : List (String × Int)) (text : List Char) : Option Int :=
  (names.lookup (String.ofList text)).or (Decimal.read? text)

/-- The number that a bound stands for: an operand, or an operand and one. -/
def bound? (names : List (String × Int)) (text : List Char) : Option Int :=
  let value := operand? names (text.takeWhile (· != ' '))
  match text.dropWhile (· != ' ') with
  | [] => value
  | [' ', '+', ' ', '1'] => value.map (· + 1)
  | _ => none

/-- A comparison with a limit, and what stands behind it: whether the limit is included. -/
def comparison? (text : List Char) : Option (Bool × List Char) :=
  match Reading.after? [' ', '<', '=', ' '] text with
  | some rest => some (true, rest)
  | none => (Reading.after? [' ', '<', ' '] text).map fun rest => (false, rest)

/-- The loop that a header describes, when its counter has the given name. -/
def header? (names : List (String × Int)) (counter header : String) : Option Counting := do
  let text ← Reading.after? ("for (let " ++ counter ++ " = ").toList header.toList
  let first ← bound? names (text.takeWhile (· != ';'))
  let text ← Reading.after? ("; " ++ counter).toList (text.dropWhile (· != ';'))
  let (inclusive, text) ← comparison? text
  let limit ← bound? names (text.takeWhile (· != ';'))
  let rest ← Reading.after? ("; " ++ counter ++ "++)").toList (text.dropWhile (· != ';'))
  if rest = [] then return ⟨first, inclusive, limit⟩ else none

/-- The values that the counter of a header takes. -/
def headerValues (names : List (String × Int)) (counter header : String) : Option (List Int) :=
  (header? names counter header).map visited

theorem bound?_numeral {text : List Char} {n : Int} (h : Decimal.IsNumeral text n) : bound? [] text = some n := by
  have hplain := h.ne_of_mem ' ' (by decide)
  have htake : text.takeWhile (· != ' ') = text := List.takeWhile_eq_self_iff.mpr hplain
  have hdrop : text.dropWhile (· != ' ') = [] := List.dropWhile_eq_nil_iff.mpr hplain
  rw [bound?, htake, hdrop]
  exact Decimal.read?_eq_some_iff.mpr h

theorem bound?_next {text : List Char} {n : Int} (h : Decimal.IsNumeral text n) :
    bound? [] (text ++ [' ', '+', ' ', '1']) = some (n + 1) := by
  have hplain := h.ne_of_mem ' ' (by decide)
  have hblank : List.takeWhile (· != ' ') [' ', '+', ' ', '1'] = [] := rfl
  have htake : (text ++ [' ', '+', ' ', '1']).takeWhile (· != ' ') = text := by
    rw [List.takeWhile_append_of_pos hplain, hblank, List.append_nil]
  have hdrop : (text ++ [' ', '+', ' ', '1']).dropWhile (· != ' ') = [' ', '+', ' ', '1'] := by
    rw [List.dropWhile_append_of_pos hplain]
    rfl
  rw [bound?, htake, hdrop]
  have hread := Decimal.read?_eq_some_iff.mpr h
  simp [operand?, hread]

/-- A bound ends at the semicolon behind it. -/
theorem span_bound {text rest : List Char} (h : ∀ c ∈ text, (c != ';') = true) (hrest : rest.head? = some ';') :
    (text ++ rest).takeWhile (· != ';') = text ∧ (text ++ rest).dropWhile (· != ';') = rest := by
  obtain ⟨tail, rfl⟩ := List.head?_eq_some_iff.mp hrest
  constructor
  · rw [List.takeWhile_append_of_pos h, List.takeWhile_cons_of_neg (by decide), List.append_nil]
  · rw [List.dropWhile_append_of_pos h, List.dropWhile_cons_of_neg (by decide)]

theorem comparison?_comparison (loop : CountedLoop) (rest : List Char) :
    comparison? (loop.comparison.toList ++ rest) = some (loop.inclusive, rest) := by
  unfold CountedLoop.comparison
  cases loop.inclusive with
  | true =>
    have hmark : " <= ".toList = [' ', '<', '=', ' '] := rfl
    rw [if_pos rfl, hmark, comparison?, Reading.after?_append]
  | false =>
    have hmark : " < ".toList = [' ', '<', ' '] := rfl
    rw [if_neg Bool.false_ne_true, hmark, comparison?, Reading.after?_append]
    rfl

/-- The header of a loop describes the loop. -/
theorem header?_header (names : List (String × Int)) (loop : CountedLoop) {first limit : Int}
    (hbound : loop.bound = none) (hlower : ∀ c ∈ loop.lower.toList, (c != ';') = true)
    (hupper : ∀ c ∈ loop.upper.toList, (c != ';') = true)
    (hfirst : bound? names loop.lower.toList = some first) (hlimit : bound? names loop.upper.toList = some limit) :
    header? names loop.counter loop.header = some ⟨first, loop.inclusive, limit⟩ := by
  have hheader : loop.header.toList = ("for (let " ++ loop.counter ++ " = ").toList ++ (loop.lower.toList ++
      (("; " ++ loop.counter).toList ++ (loop.comparison.toList ++ (loop.upper.toList ++
        (("; " ++ loop.counter ++ "++)").toList ++ []))))) := by
    unfold CountedLoop.header
    simp only [CountedLoop.keeping, CountedLoop.limit, hbound, String.append_empty, String.toList_append,
      List.append_assoc, List.append_nil]
  have htest : ∀ rest, (("; " ++ loop.counter).toList ++ rest).head? = some ';' := fun rest => by simp
  have hstep : (("; " ++ loop.counter ++ "++)").toList ++ []).head? = some ';' := by simp
  obtain ⟨htakeLower, hdropLower⟩ := span_bound hlower (htest (loop.comparison.toList ++ (loop.upper.toList ++
    (("; " ++ loop.counter ++ "++)").toList ++ []))))
  obtain ⟨htakeUpper, hdropUpper⟩ := span_bound hupper hstep
  simp only [header?, hheader, Reading.after?_append, htakeLower, hdropLower, hfirst, comparison?_comparison,
    htakeUpper, hdropUpper, hlimit, Option.bind_eq_bind, Option.bind_some]
  rfl

end Counting

/-! ### Ranges as values -/

/-- The header of the loop in the support code. -/
def rangeHeader : String := "for (let i = lower; i < upper; i++)"

/-- The function of the support code that gives the numbers of a range, with the header of its loop. -/
def rangeFunction (header : String) : List String :=
  ["function __range(lower: number, upper: number): number[] \x7b",
    "  const values: number[] = [];",
    "  " ++ header ++ " \x7b",
    "    values.push(i);",
    "  \x7d",
    "  return values;",
    "\x7d"]

theorem Mode.ofLines_append (first second : List String) :
    Mode.ofLines (first ++ second) = Mode.ofLines first ++ Mode.ofLines second := by
  rw [ofLines, List.map_append, String.join_append]
  rfl

theorem rangeFunction_in_supportCode (mode : Mode) :
    ∃ before after, mode.supportCode = before ++ Mode.ofLines (rangeFunction rangeHeader) ++ after := by
  have hcode : ∀ (comment : String) (after : List String), Mode.ofLines (comment :: Mode.helpers ++ after) =
      Mode.ofLines (comment :: Mode.helpers.take 12) ++ Mode.ofLines (rangeFunction rangeHeader) ++
        Mode.ofLines after := by
    intro comment after
    rw [← Mode.ofLines_append, ← Mode.ofLines_append]
    rfl
  cases mode with
  | native =>
    have hnative := hcode "// Runtime support: native bindings" []
    rw [List.append_nil] at hnative
    exact ⟨_, _, hnative⟩
  | managed => exact ⟨_, _, hcode "// Runtime support: managed bindings" Mode.recordHelpers⟩

/-- The numbers that the support code gives for a range with the given bounds. -/
def rangeValues (first limit : String) : Option (List Int) := do
  let lower ← Counting.bound? [] first.toList
  let upper ← Counting.bound? [] limit.toList
  Counting.headerValues [("lower", lower), ("upper", upper)] "i" rangeHeader

theorem rangeValues_eq {first limit : String} {lower upper : Int}
    (hfirst : Counting.bound? [] first.toList = some lower) (hlimit : Counting.bound? [] limit.toList = some upper) :
    rangeValues first limit = some (Counting.visited ⟨lower, false, upper⟩) := by
  have hheader : Counting.header? [("lower", lower), ("upper", upper)] "i" rangeHeader = some ⟨lower, false, upper⟩ :=
    Counting.header?_header _ ⟨"i", "lower", "upper", false, none⟩ rfl (by simp) (by simp) rfl rfl
  simp only [rangeValues, hfirst, hlimit, Option.bind_eq_bind, Option.bind_some, Counting.headerValues, hheader,
    Option.map_some]

/-! ### Limits -/

namespace Expr

/-- The limit that is written down for a range, the same for the range as a value and as a subscript. -/
def WritesLimit (mode : Mode) (lower upper : Expr) (inclusive : Bool) (limit : String) : Prop :=
  ∀ first, lower.text mode = .ok first →
    (Expr.range lower upper inclusive).text mode = .ok ("__range(" ++ first ++ ", " ++ limit ++ ")") ∧
    ∀ (object : Expr) (base : String), object.text mode = .ok base →
      (Expr.index object (.range lower upper inclusive)).text mode =
        .ok (base ++ (if object.isOptionalChain then "?." else ".") ++ "slice(" ++ first ++ ", " ++ limit ++ ")")

theorem writesLimit_exclusiveLimit {mode : Mode} {upper : Expr} {text : String} (hupper : upper.text mode = .ok text)
    (lower : Expr) (inclusive : Bool) :
    WritesLimit mode lower upper inclusive (upper.exclusiveLimit inclusive text) := by
  intro first hfirst
  constructor
  · rw [Expr.text, hfirst, hupper]
    rfl
  · intro object base hbase
    simp only [Expr.text, hbase, hfirst, hupper]
    rfl

/-- The number after an upper bound that has 64 bits is written down when it has 64 bits too. -/
theorem exclusiveLimit_folded {numeral : String} {n : Int} (h : Decimal.IsNumeral numeral.toList n)
    (hrange : Int64.minValue.toInt ≤ n ∧ n < Int64.maxValue.toInt) :
    exclusiveLimit (.literal (.int numeral)) true numeral = toString (n + 1) := by
  have hnext : Decimal.successor? numeral = some (toString (n + 1)) := by
    rw [Decimal.successor?_of_isNumeral h, if_pos hrange]
  show (Decimal.successor? numeral).getD _ = _
  rw [hnext, Option.getD_some]

/-- The number after any other upper bound is left to the script. -/
theorem exclusiveLimit_open {numeral : String}
    (h : ∀ n, Decimal.IsNumeral numeral.toList n → ¬ (Int64.minValue.toInt ≤ n ∧ n < Int64.maxValue.toInt)) :
    exclusiveLimit (.literal (.int numeral)) true numeral = numeral ++ " + 1" := by
  have hnone : Decimal.successor? numeral = none := by
    by_cases hnumeral : ∃ n, Decimal.IsNumeral numeral.toList n
    · obtain ⟨n, hn⟩ := hnumeral
      rw [Decimal.successor?_of_isNumeral hn, if_neg (h n hn)]
    · exact Decimal.successor?_of_not_isNumeral fun n hn => hnumeral ⟨n, hn⟩
  show (Decimal.successor? numeral).getD _ = _
  rw [hnone, Option.getD_none]

/-- The limit stands for the upper bound, or for the number after it when the bound is included. -/
theorem bound?_exclusiveLimit {numeral : String} {n : Int} (h : Decimal.IsNumeral numeral.toList n) (inclusive : Bool) :
    Counting.bound? [] (exclusiveLimit (.literal (.int numeral)) inclusive numeral).toList =
      some (if inclusive then n + 1 else n) := by
  cases inclusive with
  | false => exact Counting.bound?_numeral h
  | true =>
    rw [if_pos rfl]
    by_cases hrange : Int64.minValue.toInt ≤ n ∧ n < Int64.maxValue.toInt
    · rw [exclusiveLimit_folded h hrange]
      exact Counting.bound?_numeral (Decimal.isNumeral_toString (n + 1))
    · have hopen : ∀ m, Decimal.IsNumeral numeral.toList m →
          ¬ (Int64.minValue.toInt ≤ m ∧ m < Int64.maxValue.toInt) := by
        intro m hm
        rw [hm.unique h]
        exact hrange
      rw [exclusiveLimit_open hopen, String.toList_append]
      exact Counting.bound?_next h

end Expr

/-! ### Loops over ranges -/

/-- The steps of a loop over a range of two numerals are its header, which draws no temporary, and its body. -/
theorem Stmt.forIn_steps (mode : Mode) (counter lower upper : String) (inclusive : Bool) (body : List Stmt) :
    let loop : CountedLoop := ⟨mode.rawName (Identifier.safe counter), lower, upper, inclusive, none⟩
    (Stmt.forIn counter (.range (.literal (.int lower)) (.literal (.int upper)) inclusive) body).steps mode = (do
      let bodySteps ← blockSteps mode body
      return .loop loop :: Step.ofOption (mode.bindRaw (Identifier.safe counter) loop.counter "number") ++ bodySteps ++
        [.closing ""]) := by
  intro loop
  have hloop : loopSteps mode counter (.range (.literal (.int lower)) (.literal (.int upper)) inclusive) =
      pure (.loop loop :: Step.ofOption (mode.bindRaw (Identifier.safe counter) loop.counter "number")) := rfl
  rw [Stmt.steps, hloop, pure_bind]

/-- A loop over a range of two numerals is lowered when its body is. -/
theorem Stmt.forIn_lowers {mode : Mode} {body : List Stmt} {written : List Step × Nat}
    (h : (blockSteps mode body).run 0 = .ok written) (counter lower upper : String) (inclusive : Bool) :
    ∃ script, (Stmt.forIn counter (.range (.literal (.int lower)) (.literal (.int upper)) inclusive) body).lower mode =
      .ok script := by
  rw [Stmt.lower, Stmt.write, Stmt.forIn_steps, StateT.run_bind, h]
  exact ⟨_, rfl⟩

/-- A loop over a range of two numerals begins with its header. -/
theorem Stmt.forIn_lower_header {mode : Mode} {counter lower upper : String} {inclusive : Bool} {body : List Stmt}
    {script : String}
    (h : (Stmt.forIn counter (.range (.literal (.int lower)) (.literal (.int upper)) inclusive) body).lower mode =
      .ok script) :
    ∃ rest, script =
      CountedLoop.header ⟨mode.rawName (Identifier.safe counter), lower, upper, inclusive, none⟩ ++ " \x7b\n" ++
        rest := by
  let loop : CountedLoop := ⟨mode.rawName (Identifier.safe counter), lower, upper, inclusive, none⟩
  have hsteps : GivesWriting
      ((Stmt.forIn counter (.range (.literal (.int lower)) (.literal (.int upper)) inclusive) body).steps mode)
      fun steps => ∃ rest, steps = .loop loop :: rest := by
    rw [Stmt.forIn_steps]
    exact Emits.bind (P := fun _ => True) (fun _ => Gives.unknown _) fun bodySteps _ => Emits.pure ⟨_, rfl⟩
  obtain ⟨steps, drawn, hrun, rfl⟩ := Stmt.lower_eq_layoutAt h
  obtain ⟨rest, rfl⟩ := (hsteps 0).of_eq_ok hrun
  refine ⟨Step.layoutAt 1 rest, ?_⟩
  have hbrace : loop.header ++ " \x7b" ++ "\n" = loop.header ++ " \x7b\n" := by
    rw [String.append_assoc]
    rfl
  show "" ++ (loop.header ++ " \x7b") ++ "\n" ++ Step.layoutAt 1 rest = _
  rw [String.empty_append, hbrace]

/-- A loop over a range, and the range as a value, go through the numbers between its bounds. -/
theorem Expr.range_visits (mode : Mode) {lower upper : String} {lo hi : Int}
    (hlower : Decimal.IsNumeral lower.toList lo) (hupper : Decimal.IsNumeral upper.toList hi) (inclusive : Bool) :
    let loop : Counting := ⟨lo, inclusive, hi⟩
    rangeValues lower (exclusiveLimit (.literal (.int upper)) inclusive upper) = some loop.visited ∧
      ∀ counter : String, Counting.headerValues [] (mode.rawName (Identifier.safe counter))
        (CountedLoop.header ⟨mode.rawName (Identifier.safe counter), lower, upper, inclusive, none⟩) =
          some loop.visited := by
  intro loop
  constructor
  · rw [rangeValues_eq (Counting.bound?_numeral hlower) (bound?_exclusiveLimit hupper inclusive)]
    cases inclusive with
    | false => rfl
    | true => exact congrArg some (Counting.visitedFrom_next lo hi lo)
  · intro counter
    have hheader := Counting.header?_header []
      ⟨mode.rawName (Identifier.safe counter), lower, upper, inclusive, none⟩ rfl
      (hlower.ne_of_mem ';' (by decide)) (hupper.ne_of_mem ';' (by decide)) (Counting.bound?_numeral hlower)
      (Counting.bound?_numeral hupper)
    rw [Counting.headerValues, hheader, Option.map_some]

/-- **Ranges are lowered alike.**  Between two numerals, a loop over a range and the support code's function for the
range as a value go through the same numbers in the same order: all from the lower bound on that are below the upper
bound or, in an inclusive range, not above it.  The loop is lowered whenever its body is.  The range as a subscript has
the limit of the range as a value.  For an inclusive range whose upper bound is a literal, the limit is the next numeral
where both numbers have 64 bits, and is left to the script otherwise. -/
theorem Expr.range_lowerings_agree (mode : Mode) :
    (∃ before after, mode.supportCode = before ++ Mode.ofLines (rangeFunction rangeHeader) ++ after) ∧
    (∀ (lower upper : String) (lo hi : Int) (inclusive : Bool),
      Decimal.IsNumeral lower.toList lo → Decimal.IsNumeral upper.toList hi →
        let range : Expr := .range (.literal (.int lower)) (.literal (.int upper)) inclusive
        ∃ (limit : String) (visited : List Int),
          WritesLimit mode (.literal (.int lower)) (.literal (.int upper)) inclusive limit ∧
          rangeValues lower limit = some visited ∧
          (∀ (counter : String) (body : List Stmt) (written : List Step × Nat),
            (blockSteps mode body).run 0 = .ok written →
              ∃ script, (Stmt.forIn counter range body).lower mode = .ok script) ∧
          (∀ (counter : String) (body : List Stmt) (script : String),
            (Stmt.forIn counter range body).lower mode = .ok script →
              ∃ header rest, script = header ++ " \x7b\n" ++ rest ∧
                Counting.headerValues [] (mode.rawName (Identifier.safe counter)) header = some visited) ∧
          visited.Pairwise (· < ·) ∧ ∀ i, i ∈ visited ↔ lo ≤ i ∧ if inclusive then i ≤ hi else i < hi) ∧
    ∀ (lower : Expr) (numeral : String),
      (∀ n, Decimal.IsNumeral numeral.toList n → Int64.minValue.toInt ≤ n ∧ n < Int64.maxValue.toInt →
        WritesLimit mode lower (.literal (.int numeral)) true (toString (n + 1)) ∧
          Decimal.IsNumeral (toString (n + 1)).toList (n + 1)) ∧
      ((∀ n, Decimal.IsNumeral numeral.toList n → ¬ (Int64.minValue.toInt ≤ n ∧ n < Int64.maxValue.toInt)) →
        WritesLimit mode lower (.literal (.int numeral)) true (numeral ++ " + 1")) := by
  have hnumeral : ∀ numeral : String, (Expr.literal (.int numeral)).text mode = .ok numeral := fun _ => rfl
  refine ⟨rangeFunction_in_supportCode mode, fun lower upper lo hi inclusive hlower hupper => ?_,
    fun lower numeral => ⟨fun n hn hrange => ?_, fun hopen => ?_⟩⟩
  · obtain ⟨hvalues, hheader⟩ := range_visits mode hlower hupper inclusive
    refine ⟨_, _, writesLimit_exclusiveLimit (hnumeral upper) _ inclusive, hvalues,
      fun counter body written h => Stmt.forIn_lowers h counter lower upper inclusive, fun counter body script h => ?_,
      Counting.visitedFrom_increasing _ _, fun i => Counting.mem_visitedFrom⟩
    obtain ⟨rest, hscript⟩ := Stmt.forIn_lower_header h
    exact ⟨_, rest, hscript, hheader counter⟩
  · have hlimit := writesLimit_exclusiveLimit (hnumeral numeral) lower true
    rw [exclusiveLimit_folded hn hrange] at hlimit
    exact ⟨hlimit, Decimal.isNumeral_toString (n + 1)⟩
  · have hlimit := writesLimit_exclusiveLimit (hnumeral numeral) lower true
    rwa [exclusiveLimit_open hopen] at hlimit

/-- Up to the greatest number of 64 bits the limit is left to the script, and signs and zeros in front of a numeral go
away where it is folded. -/
theorem range_lowerings_agree_at_greatest :
    (∃ limit visited, rangeValues "-1" limit = some visited ∧ 9223372036854775807 ∈ visited ∧
      9223372036854775808 ∉ visited ∧ -2 ∉ visited) ∧
    Expr.WritesLimit .native .itself (.literal (.int "+041")) true "42" ∧
    Expr.WritesLimit .native .itself (.literal (.int "9223372036854775807")) true "9223372036854775807 + 1" := by
  have hgreatest : Decimal.IsNumeral "9223372036854775807".toList 9223372036854775807 :=
    Decimal.isNumeral_toString 9223372036854775807
  have hleast : Decimal.IsNumeral "-1".toList (-1) := @Decimal.IsNumeral.negative ['1'] rfl
  have hsmall : Decimal.IsNumeral "+041".toList 41 := @Decimal.IsNumeral.positive ['0', '4', '1'] rfl
  obtain ⟨-, hagree, hlimits⟩ := Expr.range_lowerings_agree .native
  refine ⟨?_, ((hlimits .itself "+041").1 41 hsmall (by decide)).1, (hlimits .itself _).2 fun n hn => ?_⟩
  · obtain ⟨limit, visited, -, hvalues, -, -, -, hmem⟩ :=
      hagree "-1" "9223372036854775807" (-1) _ true hleast hgreatest
    exact ⟨limit, visited, hvalues, (hmem _).mpr (by decide), mt (hmem _).mp (by decide), mt (hmem _).mp (by decide)⟩
  · rw [hn.unique hgreatest]
    decide

end ScriptLowering
