import ScriptLowering.Proofs.Temporaries

/-!
# Statements on a page

Writing a statement adds lines to a page and changes nothing else about it.

* `Decl.write` — a declaration on a page;
* `WritesFrom.restores` — what is written by steps that close what they open;
* `Stmt.write_restores` — statements and declarations, from any page and any number of temporaries.
-/

namespace ScriptLowering

/-- Writes a declaration on a page, when some temporaries are already drawn.  Gives the page and the number of
temporaries drawn after that. -/
def Decl.write (mode : Mode) (scope : Scope) (decl : Decl) (page : Page) (drawn : Nat) : Except Fault (Page × Nat) := do
  let (steps, drawn) ← (decl.steps mode scope).run drawn
  return (page.write steps, drawn)

/-- Numbers are drawn upwards. -/
theorem Numbered.le {drawn last : Nat} {steps : List Step} (h : Numbered drawn steps last) : drawn ≤ last := by
  obtain ⟨count, rfl, -⟩ := h
  exact Nat.le_add_right drawn count

/-- What is written on a page by steps that close what they open. -/
theorem WritesFrom.restores {emission : Emission (List Step)} {page after : Page} {drawn last : Nat}
    (hwalk : WritesFrom drawn emission (Walks 0 0 drawn))
    (h : (do let (steps, drawn) ← emission.run drawn; return (page.write steps, drawn)) = .ok (after, last)) :
    ∃ steps : List Step, emission.run drawn = .ok (steps, last) ∧ drawn ≤ last ∧ Step.Restores steps ∧
      after = ⟨page.text ++ Line.layout page.depth (Step.lines 0 steps), page.depth⟩ := by
  cases hrun : emission.run drawn with
  | error fault =>
    rw [hrun] at h
    exact nomatch h
  | ok result =>
    obtain ⟨steps, number⟩ := result
    have hsteps := hwalk.of_run hrun
    rw [hrun] at h
    obtain ⟨rfl, rfl⟩ : page.write steps = after ∧ number = last := by
      injection h with h
      exact Prod.mk.inj h
    exact ⟨steps, rfl, hsteps.numbers.le, hsteps.levels.restores, hsteps.levels.restores.appends page⟩

/-- **Writing appends and restores.**  Written on any page, a statement adds its lines behind the text that is there and
leaves the depth as it was; on a deeper page the same lines get a wider margin.  Temporaries are only ever added.  On
the way no level is closed that the statement did not open, and every line stands at the margin of the levels around
it.  The same holds for a declaration in either scope. -/
theorem Stmt.write_restores (mode : Mode) :
    (∀ (statement : Stmt) (page after : Page) (drawn last : Nat),
      statement.write mode page drawn = .ok (after, last) →
        ∃ steps : List Step, (statement.steps mode).run drawn = .ok (steps, last) ∧ drawn ≤ last ∧
          Step.Restores steps ∧ after = ⟨page.text ++ Line.layout page.depth (Step.lines 0 steps), page.depth⟩) ∧
    ∀ (scope : Scope) (decl : Decl) (page after : Page) (drawn last : Nat),
      decl.write mode scope page drawn = .ok (after, last) →
        ∃ steps : List Step, (decl.steps mode scope).run drawn = .ok (steps, last) ∧ drawn ≤ last ∧
          Step.Restores steps ∧ after = ⟨page.text ++ Line.layout page.depth (Step.lines 0 steps), page.depth⟩ := by
  constructor
  · intro statement page after drawn last h
    have hwalk : WritesFrom drawn (statement.steps mode) (Walks 0 0 drawn) :=
      ((Stmt.steps_walk mode).1 statement drawn).imp fun _ _ hsteps => hsteps.whole
    exact hwalk.restores h
  · intro scope decl page after drawn last h
    exact ((Stmt.steps_walk mode).2 scope decl drawn).restores h

/-- A method with a variadic parameter that unwraps a value. -/
def collectingMethod : Decl :=
  .function ⟨"add", [⟨"values", none, none, true, none⟩], none,
    [.ifLet "v" (.call (.variable "load") [] false) [] (some (.block []))], false⟩

theorem write_restores_collectingMethod :
    (∃ steps : List Step, ((Stmt.decl (.type .reference ⟨"Log", [], [collectingMethod]⟩)).steps .native).run 4 =
        .ok (steps, 5) ∧ Step.Restores steps ∧
      (Step.lines 0 steps).map (·.level) = [0, 1, 2, 3, 3, 4, 4, 4, 4, 4, 2, 2, 2, 3, 2, 2, 1, 0]) ∧
    ∃ steps : List Step, (collectingMethod.steps .managed .member).run 4 = .ok (steps, 5) ∧ Step.Restores steps ∧
      (Step.lines 0 steps).map (·.level) = [0, 1, 2, 2, 3, 3, 3, 3, 3, 1, 1, 1, 1, 2, 1, 1, 0] := by
  constructor
  · obtain ⟨steps, hrun, -, hrestores, -⟩ := (Stmt.write_restores .native).1
      (.decl (.type .reference ⟨"Log", [], [collectingMethod]⟩)) ⟨"x\n", 1⟩ _ 4 5 rfl
    refine ⟨steps, hrun, hrestores, ?_⟩
    obtain ⟨rfl, -⟩ := Prod.mk.inj (Except.ok.inj hrun)
    rfl
  · obtain ⟨steps, hrun, -, hrestores, -⟩ :=
      (Stmt.write_restores .managed).2 .member collectingMethod ⟨"x\n", 1⟩ _ 4 5 rfl
    refine ⟨steps, hrun, hrestores, ?_⟩
    obtain ⟨rfl, -⟩ := Prod.mk.inj (Except.ok.inj hrun)
    rfl

end ScriptLowering
