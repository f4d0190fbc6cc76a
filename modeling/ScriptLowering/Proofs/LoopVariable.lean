import ScriptLowering.Proofs.Layout
import ScriptLowering.Proofs.Node
import ScriptLowering.Proofs.Outcome
import ScriptLowering.Proofs.SafeNames

/-!
# The variable of a loop and its sequence

In the source the variable of a loop is not yet visible in the sequence that the loop goes over.  In a script the header
declares the variable and reads the sequence, and a name that the header declares hides the same name outside.

* `Expr.variables` — the variables that an expression reads;
* `LoopHeader` — the header of a loop, with the name that it declares;
* `Mode.Captures` — which variables the header hides, by their names in the source;
* `Stmt.forIn_header_captures` — the header of every loop, and when it hides nothing that its sequence reads;
* `Stmt.forIn_captures_itself` — loops that do.
-/

namespace ScriptLowering

/-! ### Variables and headers -/

/-- The name of a node that is a variable. -/
def Node.variable? : Node → Option String
  | .expr (.variable name) => some name
  | _ => none

/-- The variables that an expression reads, in source order. -/
def Expr.variables (e : Expr) : List String := e.nodes.filterMap Node.variable?

/-- The header of a loop over a sequence.  Every form declares the given name and reads the sequence behind it. -/
inductive LoopHeader (mode : Mode) (declared : String) : Expr → String → Prop where
  /-- A loop over a range counts from its lower bound to a number. -/
  | counted {lower upper : Expr} {inclusive : Bool} {lowerText upperText : String} (hnumber : upper.isNumber = true)
      (hlower : lower.text mode = .ok lowerText) (hupper : upper.text mode = .ok upperText) :
      LoopHeader mode declared (.range lower upper inclusive)
        ("for (let " ++ declared ++ " = " ++ lowerText ++ "; " ++ declared ++ (if inclusive then " <= " else " < ") ++
          upperText ++ "; " ++ declared ++ "++)")
  /-- Any other upper bound is kept in a temporary that the header declares as well. -/
  | bounded {lower upper : Expr} {inclusive : Bool} {lowerText upperText : String} (number : Nat)
      (hnumber : upper.isNumber = false) (hlower : lower.text mode = .ok lowerText)
      (hupper : upper.text mode = .ok upperText) :
      LoopHeader mode declared (.range lower upper inclusive)
        ("for (let " ++ declared ++ " = " ++ lowerText ++ ", __bound" ++ toString number ++ " = " ++ upperText ++
          "; " ++ declared ++ (if inclusive then " <= " else " < ") ++ "__bound" ++ toString number ++
          "; " ++ declared ++ "++)")
  | over {sequence : Expr} {text : String} (hrange : ∀ lower upper inclusive, sequence ≠ .range lower upper inclusive)
      (htext : sequence.text mode = .ok text) :
      LoopHeader mode declared sequence ("for (const " ++ declared ++ " of " ++ text ++ ")")

theorem CountedLoop.header_counted (counter lower upper : String) (inclusive : Bool) :
    header ⟨counter, lower, upper, inclusive, none⟩ =
      "for (let " ++ counter ++ " = " ++ lower ++ "; " ++ counter ++ (if inclusive then " <= " else " < ") ++
        upper ++ "; " ++ counter ++ "++)" := by
  have hfront : "for (let " ++ counter ++ " = " ++ lower ++ "" = "for (let " ++ counter ++ " = " ++ lower :=
    String.append_empty
  exact congrArg (· ++ "; " ++ counter ++ (if inclusive then " <= " else " < ") ++ upper ++ "; " ++ counter ++ "++)")
    hfront

theorem CountedLoop.header_bounded (counter lower upper : String) (inclusive : Bool) (number : Nat) :
    header ⟨counter, lower, upper, inclusive, some ⟨.bound, number⟩⟩ =
      "for (let " ++ counter ++ " = " ++ lower ++ ", __bound" ++ toString number ++ " = " ++ upper ++
        "; " ++ counter ++ (if inclusive then " <= " else " < ") ++ "__bound" ++ toString number ++
        "; " ++ counter ++ "++)" := by
  have hheader : header ⟨counter, lower, upper, inclusive, some ⟨.bound, number⟩⟩ =
      "for (let " ++ counter ++ " = " ++ lower ++ (", " ++ ("__bound" ++ toString number) ++ " = " ++ upper) ++ "; " ++
        counter ++ (if inclusive then " <= " else " < ") ++ ("__bound" ++ toString number) ++ "; " ++ counter ++
        "++)" := rfl
  have hcomma : ", __bound" = ", " ++ "__bound" := rfl
  rw [hheader, hcomma]
  simp only [String.append_assoc]

/-- The header is the first line of a loop. -/
theorem loopSteps_header (mode : Mode) (counter : String) (sequence : Expr) :
    GivesWriting (loopSteps mode counter sequence) fun steps => ∃ step rest header, steps = step :: rest ∧
      (∀ depth, step.textAt depth = Text.margin depth ++ (header ++ " \x7b") ++ "\n") ∧
      LoopHeader mode (mode.rawName (Identifier.safe counter)) sequence header := by
  unfold loopSteps
  split
  · next lower upper inclusive =>
    refine (Emits.lift (Gives.self _)).bind fun lowerText hlower => ?_
    refine (Emits.lift (Gives.self _)).bind fun upperText hupper => ?_
    by_cases hnumber : upper.isNumber = true
    · rw [if_pos hnumber, pure_bind]
      refine Emits.pure ⟨_, _, _, rfl, fun _ => rfl, ?_⟩
      rw [CountedLoop.header_counted]
      exact .counted hnumber hlower hupper
    · rw [if_neg hnumber, bind_map_left]
      refine (Emits.drawTemporary .bound).bind fun bound hstem => Emits.pure ⟨_, _, _, rfl, fun _ => rfl, ?_⟩
      obtain ⟨stem, number⟩ := bound
      obtain rfl : stem = .bound := hstem
      rw [CountedLoop.header_bounded]
      exact .bounded number (Bool.eq_false_iff.mpr hnumber) hlower hupper
  · next hrange =>
    refine (Emits.lift (Gives.self _)).bind fun text htext => ?_
    exact Emits.pure ⟨_, _, _, rfl, fun _ => rfl, .over hrange htext⟩

/-- What is written on a page is the text of the steps. -/
theorem Stmt.write_eq_layoutAt {mode : Mode} {statement : Stmt} {page after : Page} {drawn last : Nat}
    (h : statement.write mode page drawn = .ok (after, last)) :
    ∃ steps, (statement.steps mode).run drawn = .ok (steps, last) ∧
      after.text = page.text ++ Step.layoutAt page.depth steps := by
  rw [Stmt.write] at h
  cases hsteps : (statement.steps mode).run drawn with
  | error fault =>
    rw [hsteps] at h
    contradiction
  | ok result =>
    obtain ⟨steps, number⟩ := result
    rw [hsteps] at h
    obtain ⟨rfl, rfl⟩ : page.write steps = after ∧ number = last := by
      injection h with h
      exact Prod.mk.inj h
    exact ⟨steps, rfl, page.write_text steps⟩

/-- A loop begins with its header. -/
theorem Stmt.forIn_write_header {mode : Mode} {counter : String} {sequence : Expr} {body : List Stmt}
    {page after : Page} {drawn last : Nat}
    (h : (Stmt.forIn counter sequence body).write mode page drawn = .ok (after, last)) :
    ∃ header rest, after.text = page.text ++ (Text.margin page.depth ++ (header ++ " \x7b") ++ "\n" ++ rest) ∧
      LoopHeader mode (mode.rawName (Identifier.safe counter)) sequence header := by
  have hsteps : GivesWriting ((Stmt.forIn counter sequence body).steps mode) fun steps =>
      ∃ step rest header, steps = step :: rest ∧
        (∀ depth, step.textAt depth = Text.margin depth ++ (header ++ " \x7b") ++ "\n") ∧
        LoopHeader mode (mode.rawName (Identifier.safe counter)) sequence header := by
    rw [Stmt.steps]
    refine (loopSteps_header mode counter sequence).bind fun steps hsteps => ?_
    obtain ⟨step, rest, header, rfl, hstep⟩ := hsteps
    refine Emits.bind (P := fun _ => True) (fun _ => Gives.unknown _) fun bodySteps _ => ?_
    exact Emits.pure ⟨step, _, header, rfl, hstep⟩
  obtain ⟨steps, hrun, htext⟩ := Stmt.write_eq_layoutAt h
  obtain ⟨step, rest, header, rfl, hstep, hheader⟩ := (hsteps drawn).of_eq_ok hrun
  refine ⟨header, Step.layoutAt (step.depthAfter page.depth) rest, ?_, hheader⟩
  rw [htext, Step.layoutAt, hstep]

/-! ### Captured variables -/

/-- Whether the header of a loop hides a variable, by their names in the source.  In native mode it hides the variables
that are emitted as the loop variable is, and in managed mode the one with its emitted name behind a dollar sign. -/
def Mode.Captures (mode : Mode) (counter name : String) : Prop :=
  match mode with
  | .native => name = counter ∨ Identifier.Merges name counter ∨ Identifier.Merges counter name
  | .managed => name = "$" ++ Identifier.safe counter ∧ Identifier.isAnonymous name = false

theorem Mode.safe_eq_rawName_iff (mode : Mode) (counter name : String) :
    Identifier.safe name = mode.rawName (Identifier.safe counter) ↔ mode.Captures counter name := by
  cases mode with
  | native => exact Identifier.safe_eq_safe_iff
  | managed => exact Identifier.safe_eq_dollar_iff

/-- A managed loop does not hide the variable of its own name. -/
theorem Mode.not_managed_captures (counter : String) : ¬ Mode.managed.Captures counter counter := by
  intro h
  have hlength := congrArg String.length ((safe_eq_rawName_iff .managed counter counter).mpr h)
  rw [Mode.rawName, String.length_append] at hlength
  have hdollar : "$".length = 1 := rfl
  omega

/-- **The header of a loop** declares the loop variable under its emitted name, in managed mode behind a dollar sign,
and reads the variables of the sequence under theirs.  So the sequence is read as outside the loop just when it reads
no variable that the header captures; in managed mode it may read a variable of the loop variable's own name. -/
theorem Stmt.forIn_header_captures {mode : Mode} {counter : String} {sequence : Expr} {body : List Stmt}
    {page after : Page} {drawn last : Nat}
    (h : (Stmt.forIn counter sequence body).write mode page drawn = .ok (after, last)) :
    let declared := mode.rawName (Identifier.safe counter)
    (∃ header rest, after.text = page.text ++ (Text.margin page.depth ++ (header ++ " \x7b") ++ "\n" ++ rest) ∧
      LoopHeader mode declared sequence header) ∧
    (∀ name, (Expr.variable name).text mode = .ok (mode.reference (Identifier.safe name))) ∧
    ((∀ name ∈ sequence.variables, Identifier.safe name ≠ declared) ↔
      ∀ name ∈ sequence.variables, ¬ mode.Captures counter name) ∧
    (mode = .managed → Identifier.safe counter ≠ declared) := by
  intro declared
  refine ⟨Stmt.forIn_write_header h, fun _ => rfl, ?_, ?_⟩
  · exact forall₂_congr fun name _ => not_congr (mode.safe_eq_rawName_iff counter name)
  · rintro rfl hdeclared
    exact Mode.not_managed_captures counter ((Mode.safe_eq_rawName_iff .managed counter counter).mp hdeclared)

/-- In managed mode a loop may go over the variable that its own variable hides in its body. -/
theorem Stmt.forIn_header_captures_same_name :
    (Stmt.forIn "x" (.variable "x") []).write .managed .blank 0 =
      .ok (⟨"for (const $x of x.value) \x7b\n  const x = \x7b value: $x, type: \"any\", constant: true \x7d;\n\x7d\n", 0⟩,
        0) ∧
    ∀ name ∈ (Expr.variable "x").variables, Identifier.safe name ≠ "$x" := by
  have hwritten : (Stmt.forIn "x" (.variable "x") []).write .managed .blank 0 =
      .ok (⟨"for (const $x of x.value) \x7b\n  const x = \x7b value: $x, type: \"any\", constant: true \x7d;\n\x7d\n", 0⟩,
        0) := rfl
  refine ⟨hwritten, (Stmt.forIn_header_captures hwritten).2.2.1.mpr fun name hname => ?_⟩
  obtain rfl : name = "x" := List.mem_singleton.mp hname
  exact Mode.not_managed_captures "x"

/-- The header hides what its sequence reads: in native mode a variable of the same name, in managed mode one with a
dollar sign in front. -/
theorem Stmt.forIn_captures_itself :
    (Stmt.forIn "x" (.variable "x") []).lower .native = .ok "for (const x of x) \x7b\n\x7d\n" ∧
    (Stmt.forIn "x" (.variable "$x") []).lower .managed = .ok ("for (const $x of $x.value) \x7b\n" ++
      "  const x = \x7b value: $x, type: \"any\", constant: true \x7d;\n\x7d\n") ∧
    ¬ ∀ (mode : Mode) (counter : String) (sequence : Expr) (body : List Stmt) (script : String),
      (Stmt.forIn counter sequence body).lower mode = .ok script →
        ∀ name ∈ sequence.variables, Identifier.safe name ≠ mode.rawName (Identifier.safe counter) := by
  refine ⟨rfl, rfl, fun h => ?_⟩
  exact h .native "x" (.variable "x") [] _ rfl "x" (List.mem_singleton_self "x") rfl

end ScriptLowering
