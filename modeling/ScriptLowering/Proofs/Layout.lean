import ScriptLowering.Statement

/-!
# Laid-out steps as text

Writing steps on a page appends to its text, and what is appended depends on the steps and on the depth alone.

* `Step.written` — the line that a step writes, without its margin;
* `Step.depthAfter` — the depth after a step;
* `Step.layoutAt` — the text of some steps from a given depth on;
* `Page.write_text` — writing appends that text;
* `Stmt.lower_eq_layout`, `Stmt.lower_eq_layoutAt` — the text of a statement is that of its steps.
-/

namespace ScriptLowering

namespace Step

/-- The line that a step writes, without its margin; a change of indentation writes none. -/
def written : Step → Option String
  | .line text => some text
  | .keep temporary value => some ("const " ++ temporary.name ++ " = " ++ value ++ ";")
  | .opening header => some (header ++ " \x7b")
  | .loop counted => some (counted.header ++ " \x7b")
  | .reopening header => some ("\x7d " ++ header ++ " \x7b")
  | .closing trailer => some ("\x7d" ++ trailer)
  | .indent => none
  | .outdent => none

/-- The depth at which the line of a step stands. -/
def depthAt (depth : Nat) : Step → Nat
  | .reopening _ => depth - 1
  | .closing _ => depth - 1
  | _ => depth

/-- The depth after a step. -/
def depthAfter (depth : Nat) : Step → Nat
  | .opening _ => depth + 1
  | .loop _ => depth + 1
  | .reopening _ => depth - 1 + 1
  | .closing _ => depth - 1
  | .indent => depth + 1
  | .outdent => depth - 1
  | _ => depth

/-- The text of one step at a given depth. -/
def textAt (depth : Nat) (step : Step) : String :=
  match step.written with
  | some text => Text.margin (step.depthAt depth) ++ text ++ "\n"
  | none => ""

/-- The text of some steps from a given depth on. -/
def layoutAt : Nat → List Step → String
  | _, [] => ""
  | depth, step :: rest => step.textAt depth ++ layoutAt (step.depthAfter depth) rest

/-- The text of steps in parts: the second part goes on at the depth that the first one leaves. -/
theorem layoutAt_append (depth : Nat) (first second : List Step) :
    layoutAt depth (first ++ second) = layoutAt depth first ++ layoutAt (first.foldl depthAfter depth) second := by
  induction first generalizing depth with
  | nil => rw [List.nil_append, layoutAt, String.empty_append, List.foldl_nil]
  | cons step rest ih => rw [List.cons_append, layoutAt, layoutAt, ih, List.foldl_cons, String.append_assoc]

end Step

namespace Page

/-- A step appends its text and changes the depth. -/
theorem apply_eq (page : Page) (step : Step) :
    page.apply step = ⟨page.text ++ step.textAt page.depth, step.depthAfter page.depth⟩ := by
  cases step <;>
    simp only [apply, addLine, deeper, shallower, Step.textAt, Step.written, Step.depthAt, Step.depthAfter,
      String.append_assoc, String.append_empty]

/-- Writing appends the text of the steps. -/
theorem write_text (page : Page) (steps : List Step) :
    (page.write steps).text = page.text ++ Step.layoutAt page.depth steps := by
  induction steps generalizing page with
  | nil => rw [write, List.foldl_nil, Step.layoutAt, String.append_empty]
  | cons step rest ih =>
    have hrest := ih (page.apply step)
    rw [write] at hrest
    rw [write, List.foldl_cons, hrest, apply_eq, Step.layoutAt, String.append_assoc]

end Page

/-- Steps on a page of their own. -/
theorem Step.layout_eq_layoutAt (steps : List Step) : Step.layout steps = Step.layoutAt 0 steps := by
  have hwrite : (Page.blank.write steps).text = "" ++ Step.layoutAt 0 steps := Page.blank.write_text steps
  rw [Step.layout, hwrite, String.empty_append]

/-- The text of a statement is the layout of its steps, and a fault is that of its steps. -/
theorem Stmt.lower_eq_layout (mode : Mode) (statement : Stmt) :
    statement.lower mode = (fun result => Step.layoutAt 0 result.1) <$> (statement.steps mode).run 0 := by
  rw [Stmt.lower, Stmt.write]
  cases (statement.steps mode).run 0 with
  | error fault => rfl
  | ok result => exact congrArg Except.ok (Step.layout_eq_layoutAt result.1)

/-- The text of a statement is that of its steps. -/
theorem Stmt.lower_eq_layoutAt {mode : Mode} {statement : Stmt} {text : String}
    (h : statement.lower mode = .ok text) :
    ∃ steps drawn, (statement.steps mode).run 0 = .ok (steps, drawn) ∧ text = Step.layoutAt 0 steps := by
  rw [Stmt.lower_eq_layout] at h
  cases hsteps : (statement.steps mode).run 0 with
  | error fault =>
    rw [hsteps] at h
    exact nomatch h
  | ok result =>
    rw [hsteps] at h
    injection h with h
    exact ⟨result.1, result.2, rfl, h.symm⟩

end ScriptLowering
