import ScriptLowering.Proofs.Layout

/-!
# Levels of indentation

How many braces and continuations are open while steps are written.  The depth of a page stops at zero, so a step that
closes too much would leave no trace there; the count of levels fails instead.

* `Step.levelAfter?`, `Step.levelsAfter?` — the levels that are open after a step and after some steps;
* `Levels` — steps that close and open given numbers of levels, whatever is open around them;
* `Line`, `Step.lines` — the lines that steps write, each with the number of levels around it;
* `Step.lines_append`, `Step.lines_add` — the lines of steps in parts, and on a deeper level;
* `Step.Restores` — steps that leave a page at its depth and write every line at the margin of its level;
* `Levels.restores` — steps that close what they open are such steps.
-/

namespace ScriptLowering

/-! ### Counting levels -/

namespace Step

/-- How many levels a step closes, before it writes its line. -/
def closes : Step → Nat
  | .reopening _ => 1
  | .closing _ => 1
  | .outdent => 1
  | _ => 0

/-- How many levels a step opens, after it has written its line. -/
def opens : Step → Nat
  | .opening _ => 1
  | .loop _ => 1
  | .reopening _ => 1
  | .indent => 1
  | _ => 0

/-- The levels that are open after a step, one for each brace and each continuation.  A step that closes a level needs
one that is open. -/
def levelAfter? (level : Nat) (step : Step) : Option Nat :=
  if step.closes ≤ level then some (level - step.closes + step.opens) else none

/-- The levels that are open after some steps. -/
def levelsAfter? (level : Nat) (steps : List Step) : Option Nat := steps.foldlM levelAfter? level

theorem levelAfter?_eq_some {level next : Nat} {step : Step} :
    step.levelAfter? level = some next ↔ step.closes ≤ level ∧ next = level - step.closes + step.opens := by
  rw [levelAfter?, Option.ite_none_right_eq_some, Option.some.injEq, eq_comm (a := next)]

theorem levelsAfter?_cons_eq_some {level last : Nat} {step : Step} {rest : List Step} :
    levelsAfter? level (step :: rest) = some last ↔
      ∃ next, step.levelAfter? level = some next ∧ levelsAfter? next rest = some last := by
  rw [levelsAfter?, List.foldlM_cons]
  exact Option.bind_eq_some_iff

theorem levelsAfter?_append_eq_some {level last : Nat} {first second : List Step} :
    levelsAfter? level (first ++ second) = some last ↔
      ∃ middle, levelsAfter? level first = some middle ∧ levelsAfter? middle second = some last := by
  rw [levelsAfter?, List.foldlM_append]
  exact Option.bind_eq_some_iff

/-- Where no level is missing, the depth of a page follows the levels. -/
theorem depthAfter_add {level next : Nat} {step : Step} (h : step.levelAfter? level = some next) (depth : Nat) :
    step.depthAfter (depth + level) = depth + next := by
  obtain ⟨hle, rfl⟩ := levelAfter?_eq_some.mp h
  cases step <;> simp only [depthAfter, closes, opens] at * <;> omega

/-- A line stands inside the levels that its step does not close. -/
theorem depthAt_add {level : Nat} {step : Step} {text : String} (hle : step.closes ≤ level)
    (htext : step.written = some text) (depth : Nat) :
    step.depthAt (depth + level) = depth + (level - step.closes) := by
  cases step with
  | indent => exact nomatch htext
  | outdent => exact nomatch htext
  | _ =>
    simp only [depthAt, closes] at *
    omega

end Step

/-! ### Steps that close and open levels -/

/-- The steps close some of the levels around them and leave some new ones open.  They need no other level than those
that they close. -/
def Levels (closed opened : Nat) (steps : List Step) : Prop :=
  ∀ base, Step.levelsAfter? (base + closed) steps = some (base + opened)

namespace Levels

variable {closed opened closed' opened' : Nat} {first second steps : List Step}

theorem nil : Levels 0 0 [] := fun _ => rfl

theorem single (step : Step) : Levels step.closes step.opens [step] := by
  intro base
  refine Step.levelsAfter?_cons_eq_some.mpr ⟨base + step.opens, Step.levelAfter?_eq_some.mpr ⟨?_, ?_⟩, rfl⟩
  · omega
  · omega

/-- A second part closes levels that the first one opened. -/
theorem append (hfirst : Levels closed opened first) (hsecond : Levels closed' opened' second)
    (hle : closed' ≤ opened) : Levels closed (opened' + (opened - closed')) (first ++ second) := by
  intro base
  refine Step.levelsAfter?_append_eq_some.mpr ⟨base + opened, hfirst base, ?_⟩
  -- What the first part leaves open beyond the needs of the second one belongs to the base of the second one.
  have h := hsecond (base + (opened - closed'))
  rwa [show base + (opened - closed') + closed' = base + opened by omega,
    show base + (opened - closed') + opened' = base + (opened' + (opened - closed')) by omega] at h

/-- Steps between a change of indentation and the change back. -/
theorem indented (h : Levels 0 0 steps) : Levels 0 0 (.indent :: steps ++ [.outdent]) :=
  (((single .indent).append h (Nat.zero_le 1)).append (single .outdent) (Nat.le_refl 1))

end Levels

/-! ### Lines -/

/-- A line that is written, and the number of levels that are open around it. -/
structure Line where
  level : Nat
  text : String
deriving DecidableEq

namespace Line

/-- The line as it is shown on a page of depth zero. -/
def shown (line : Line) : String := Text.margin line.level ++ line.text ++ "\n"

/-- Lines on a page of the given depth: each as on a page of depth zero, behind the margin of the page. -/
def layout (depth : Nat) (lines : List Line) : String :=
  String.join (lines.map fun line => Text.margin depth ++ line.shown)

end Line

/-- The margin of two depths together. -/
theorem Text.margin_add (depth level : Nat) : margin (depth + level) = margin depth ++ margin level := by
  rw [margin, margin, margin, ← String.ofList_append, List.replicate_append_replicate, Nat.mul_add]

namespace Step

/-- The lines that some steps write when the given number of levels is open. -/
def lines : Nat → List Step → List Line
  | _, [] => []
  | level, step :: rest =>
    (step.written.map (⟨level - step.closes, ·⟩)).toList ++ lines (level - step.closes + step.opens) rest

theorem textAt_of_written {step : Step} {text : String} (htext : step.written = some text) (depth : Nat) :
    step.textAt depth = Text.margin (step.depthAt depth) ++ text ++ "\n" := by
  rw [textAt, htext]

theorem textAt_eq_layout {level : Nat} {step : Step} (hle : step.closes ≤ level) (depth : Nat) :
    step.textAt (depth + level) = Line.layout depth (step.written.map (⟨level - step.closes, ·⟩)).toList := by
  cases htext : step.written with
  | none =>
    rw [textAt, htext]
    rfl
  | some text =>
    show _ = String.join [Text.margin depth ++ Line.shown ⟨level - step.closes, text⟩]
    rw [textAt_of_written htext, depthAt_add hle htext, String.join_cons, String.join_nil, String.append_empty,
      Text.margin_add, Line.shown, String.append_assoc, String.append_assoc, String.append_assoc]

theorem layoutAt_eq_layout {level last : Nat} {steps : List Step} (h : levelsAfter? level steps = some last)
    (depth : Nat) : layoutAt (depth + level) steps = Line.layout depth (lines level steps) := by
  induction steps generalizing level with
  | nil => rfl
  | cons step rest ih =>
    obtain ⟨next, hnext, hrest⟩ := levelsAfter?_cons_eq_some.mp h
    obtain ⟨hle, rfl⟩ := levelAfter?_eq_some.mp hnext
    rw [layoutAt, lines, depthAfter_add hnext, ih hrest, textAt_eq_layout hle, Line.layout, Line.layout, Line.layout,
      List.map_append, String.join_append]

/-- The lines of a second part stand at the level that the first one leaves. -/
theorem lines_append {level last : Nat} {first second : List Step} (h : levelsAfter? level first = some last) :
    lines level (first ++ second) = lines level first ++ lines last second := by
  induction first generalizing level with
  | nil =>
    injection h with h
    rw [h]
    rfl
  | cons step rest ih =>
    obtain ⟨next, hnext, hrest⟩ := levelsAfter?_cons_eq_some.mp h
    obtain ⟨-, rfl⟩ := levelAfter?_eq_some.mp hnext
    rw [List.cons_append, lines, lines, ih hrest, List.append_assoc]

/-- On a deeper level the same lines are written. -/
theorem lines_add {level last : Nat} {steps : List Step} (h : levelsAfter? level steps = some last) (base : Nat) :
    lines (base + level) steps = (lines level steps).map fun line => ⟨base + line.level, line.text⟩ := by
  induction steps generalizing level with
  | nil => rfl
  | cons step rest ih =>
    obtain ⟨next, hnext, hrest⟩ := levelsAfter?_cons_eq_some.mp h
    obtain ⟨hle, rfl⟩ := levelAfter?_eq_some.mp hnext
    have hlevel : base + level - step.closes = base + (level - step.closes) := by omega
    have hnext : base + level - step.closes + step.opens = base + (level - step.closes + step.opens) := by omega
    rw [lines, lines, List.map_append, ← ih hrest, hnext, hlevel]
    cases step.written <;> rfl

end Step

/-! ### Pages -/

/-- Writing takes the depth of a page through the depths after the steps. -/
theorem Page.write_depth {level last : Nat} {steps : List Step} (h : Step.levelsAfter? level steps = some last)
    {page : Page} {depth : Nat} (hdepth : page.depth = depth + level) : (page.write steps).depth = depth + last := by
  induction steps generalizing level page with
  | nil =>
    injection h with h
    rw [← h]
    exact hdepth
  | cons step rest ih =>
    obtain ⟨next, hnext, hrest⟩ := Step.levelsAfter?_cons_eq_some.mp h
    have hstep : (page.apply step).depth = depth + next := by
      rw [Page.apply_eq, hdepth]
      exact Step.depthAfter_add hnext depth
    exact ih hrest hstep

/-- What steps do to every page that they are written on, when they close what they open. -/
structure Step.Restores (steps : List Step) : Prop where
  /-- The same lines go behind what the page holds, each behind the margin of the page, and the depth is restored. -/
  appends : ∀ page : Page, page.write steps = ⟨page.text ++ Line.layout page.depth (Step.lines 0 steps), page.depth⟩
  /-- A step closes only levels that the steps before it have opened. -/
  inside : ∀ (page : Page) (before : List Step) (step : Step) (after : List Step), steps = before ++ step :: after →
    page.depth + step.closes ≤ (page.write before).depth
  /-- In front of a line stand two blanks for each level of the page, and two for each brace and each continuation
  that the steps have open around the line. -/
  margins : ∀ (page : Page) (before : List Step) (step : Step) (after : List Step) (text : String),
    steps = before ++ step :: after → step.written = some text →
      ∃ level, Step.levelsAfter? 0 before = some (level + step.closes) ∧
        ((page.write before).apply step).text =
          (page.write before).text ++ String.ofList (List.replicate (2 * (page.depth + level)) ' ') ++ text ++ "\n"

/-- **Steps that close what they open** leave a page at its depth. -/
theorem Levels.restores {steps : List Step} (h : Levels 0 0 steps) : Step.Restores steps := by
  have hlevels : Step.levelsAfter? 0 steps = some 0 := h 0
  have hwithin : ∀ (before : List Step) (step : Step) (after : List Step), steps = before ++ step :: after →
      ∃ level, Step.levelsAfter? 0 before = some level ∧ step.closes ≤ level := by
    intro before step after hsteps
    rw [hsteps] at hlevels
    obtain ⟨level, hbefore, hafter⟩ := Step.levelsAfter?_append_eq_some.mp hlevels
    obtain ⟨next, hnext, -⟩ := Step.levelsAfter?_cons_eq_some.mp hafter
    exact ⟨level, hbefore, (Step.levelAfter?_eq_some.mp hnext).1⟩
  refine ⟨fun page => ?_, fun page before step after hsteps => ?_, fun page before step after text hsteps htext => ?_⟩
  · have htext := page.write_text steps
    have hdepth : (page.write steps).depth = page.depth := Page.write_depth hlevels rfl
    have hlayout : Step.layoutAt page.depth steps = Line.layout page.depth (Step.lines 0 steps) :=
      Step.layoutAt_eq_layout hlevels page.depth
    rw [hlayout] at htext
    rw [← htext, ← hdepth]
  · obtain ⟨level, hbefore, hle⟩ := hwithin before step after hsteps
    have hdepth : (page.write before).depth = page.depth + level := Page.write_depth hbefore rfl
    omega
  · obtain ⟨level, hbefore, hle⟩ := hwithin before step after hsteps
    have hdepth : (page.write before).depth = page.depth + level := Page.write_depth hbefore rfl
    refine ⟨level - step.closes, ?_, ?_⟩
    · rw [hbefore, Nat.sub_add_cancel hle]
    · rw [Page.apply_eq, hdepth, Step.textAt_of_written htext, Step.depthAt_add hle htext, ← String.append_assoc,
        ← String.append_assoc]
      rfl

end ScriptLowering
