import ScriptLowering.Proofs.Layout
import ScriptLowering.Proofs.Script
import ScriptLowering.Proofs.Temporaries

/-!
# Temporaries in a whole script

Where the temporaries of a script are declared, and which of them have the same name.  Numbers start again with each
item, and all items stand in one scope at the top level.

* `Temporary.name_inj` — a temporary has a name of its own;
* `Kept`, `keptFrom` — the temporaries that the lines of a script declare, each with its item and its block;
* `Scopes.Within` — the blocks opened since a given place;
* `Program.lower_temporaries_apart` — in one block names differ, except at the top level between items;
* `temporaries_meet_at_top` — the exception occurs.
-/

namespace ScriptLowering

/-! ### Names -/

/-- The stem and the number can be read off the name of a temporary. -/
theorem Temporary.name_inj {first second : Temporary} (h : first.name = second.name) : first = second := by
  have hchars := congrArg String.toList h
  obtain ⟨stem, number⟩ := first
  obtain ⟨stem', number'⟩ := second
  have hstem : stem = stem' := by
    cases stem <;> cases stem' <;> simp [name, Stem.text] at hchars ⊢
  have hnumber : Nat.toDigits 10 number = Nat.toDigits 10 number' := by
    simpa [name, hstem] using hchars
  rw [hstem, ← Numeral.value_toDigits number, hnumber, Numeral.value_toDigits]

/-! ### Declared temporaries -/

/-- A temporary that a line of a script declares. -/
structure Kept where
  /-- The index of the item in which it is declared. -/
  item : Nat
  /-- The number of the innermost block around the line; there is none at the top level. -/
  block : Option Nat
  temporary : Temporary
deriving DecidableEq

/-- The temporary that a step declares by a line of its own. -/
def Step.kept? : Step → Option Temporary
  | .keep temporary _ => some temporary
  | _ => none

/-- The temporaries that the lines of one item declare, inside the given blocks. -/
def keptIn (item : Nat) (scopes : Scopes) : List Step → List Kept
  | [] => []
  | step :: rest =>
    (step.kept?.map fun temporary => ⟨item, scopes.enclosing.head?, temporary⟩).toList ++
      keptIn item (scopes.after step) rest

/-- The temporaries that the lines of the following items declare; the first item has the given index. -/
def keptFrom (item : Nat) (scopes : Scopes) : List (List Step) → List Kept
  | [] => []
  | steps :: rest => keptIn item scopes steps ++ keptFrom (item + 1) (scopes.run steps) rest

/-- The steps of the items of a program. -/
def Program.parts (mode : Mode) (program : Program) : Except Fault (List (List Step)) :=
  program.items.mapM fun item => (·.1) <$> (item.node.steps mode).run 0

theorem keptIn_temporaries (item : Nat) (scopes : Scopes) (steps : List Step) :
    (keptIn item scopes steps).map (·.temporary) = steps.filterMap Step.kept? := by
  induction steps generalizing scopes with
  | nil => rfl
  | cons step rest ih =>
    rw [keptIn, List.map_append, ih]
    cases step <;> rfl

/-- What lines declare is part of what steps declare. -/
theorem kept?_sublist (steps : List Step) :
    (steps.filterMap Step.kept?).Sublist (steps.flatMap Step.temporaries) := by
  induction steps with
  | nil => exact List.Sublist.refl []
  | cons step rest ih =>
    rw [List.flatMap_cons]
    cases step with
    | keep temporary value => exact ih.cons_cons temporary
    | _ => exact List.sublist_append_of_sublist_right ih

/-- In one item all names differ. -/
theorem keptIn_names {drawn last : Nat} {steps : List Step} (h : Numbered drawn steps last) (item : Nat)
    (scopes : Scopes) :
    (keptIn item scopes steps).Pairwise fun first second => first.temporary.name ≠ second.temporary.name := by
  obtain ⟨count, -, hnumbers⟩ := h
  have hall : (steps.flatMap Step.temporaries).Pairwise fun first second => first.number ≠ second.number := by
    have hrange : (List.range' drawn count).Nodup := List.nodup_range'
    rw [← hnumbers] at hrange
    exact List.pairwise_map.mp hrange
  have hkept := hall.sublist (kept?_sublist steps)
  rw [← keptIn_temporaries item scopes, List.pairwise_map] at hkept
  refine hkept.imp fun hnumber hname => hnumber ?_
  rw [Temporary.name_inj hname]

/-! ### Blocks of different items -/

namespace Scopes

/-- All blocks around a place were opened at or after a given one. -/
structure Within (first : Nat) (scopes : Scopes) : Prop where
  le : first ≤ scopes.next
  enclosing : ∀ block ∈ scopes.enclosing, first ≤ block ∧ block < scopes.next

variable {first : Nat} {scopes : Scopes}

theorem Within.enter (h : scopes.Within first) : scopes.enter.Within first := by
  refine ⟨Nat.le_succ_of_le h.le, List.forall_mem_cons.mpr ⟨⟨h.le, Nat.lt_succ_self _⟩, ?_⟩⟩
  intro block hblock
  obtain ⟨hle, hlt⟩ := h.enclosing block hblock
  exact ⟨hle, Nat.lt_succ_of_lt hlt⟩

theorem Within.leave (h : scopes.Within first) : scopes.leave.Within first :=
  ⟨h.le, fun block hblock => h.enclosing block (List.mem_of_mem_tail hblock)⟩

/-- One step opens a block with a new number, or none. -/
theorem Within.after (h : scopes.Within first) (step : Step) : (scopes.after step).Within first := by
  cases step with
  | opening header => exact h.enter
  | loop counted => exact h.enter
  | reopening header => exact h.leave.enter
  | closing trailer => exact h.leave
  | _ => exact h

theorem next_le_after (scopes : Scopes) (step : Step) : scopes.next ≤ (scopes.after step).next := by
  cases step with
  | opening header => exact Nat.le_succ _
  | loop counted => exact Nat.le_succ _
  | reopening header => exact Nat.le_succ _
  | _ => exact Nat.le_refl _

theorem next_le_run (scopes : Scopes) (steps : List Step) : scopes.next ≤ (scopes.run steps).next := by
  induction steps generalizing scopes with
  | nil => exact Nat.le_refl _
  | cons step rest ih => exact Nat.le_trans (scopes.next_le_after step) (ih (scopes.after step))

end Scopes

/-- The blocks of an item are those opened in it. -/
theorem mem_keptIn {item first : Nat} {scopes : Scopes} {steps : List Step} (h : scopes.Within first)
    {kept : Kept} (hkept : kept ∈ keptIn item scopes steps) :
    kept.item = item ∧ ∀ block, kept.block = some block → first ≤ block ∧ block < (scopes.run steps).next := by
  induction steps generalizing scopes with
  | nil => exact absurd hkept List.not_mem_nil
  | cons step rest ih =>
    rw [keptIn] at hkept
    rcases List.mem_append.mp hkept with hfirst | hrest
    · obtain ⟨temporary, -, rfl⟩ := Option.map_eq_some_iff.mp (Option.mem_toList.mp hfirst)
      refine ⟨rfl, fun block hblock => ?_⟩
      obtain ⟨hle, hlt⟩ := h.enclosing block (List.mem_of_mem_head? hblock)
      exact ⟨hle, Nat.lt_of_lt_of_le hlt (scopes.next_le_run (step :: rest))⟩
    · exact ih (h.after step) hrest

/-- At the top level no block is open. -/
theorem Scopes.within_top {scopes : Scopes} (h : scopes.enclosing = []) : scopes.Within scopes.next := by
  refine ⟨Nat.le_refl _, fun block hblock => ?_⟩
  rw [h] at hblock
  exact absurd hblock List.not_mem_nil

/-- An item leaves no block open. -/
theorem Walks.enclosing_run {scopes : Scopes} {steps : List Step} {drawn last : Nat}
    (h : Walks 0 0 drawn steps last) : (scopes.run steps).enclosing = scopes.enclosing := by
  obtain ⟨fresh, hlength, hrun⟩ := h.blocks scopes
  rw [hrun, List.length_eq_zero_iff.mp hlength]
  rfl

theorem mem_keptFrom {item : Nat} {scopes : Scopes} {parts : List (List Step)} (htop : scopes.enclosing = [])
    (h : ∀ steps ∈ parts, ∃ last, Walks 0 0 0 steps last) {kept : Kept} (hkept : kept ∈ keptFrom item scopes parts) :
    item ≤ kept.item ∧ ∀ block, kept.block = some block → scopes.next ≤ block := by
  induction parts generalizing item scopes with
  | nil => exact absurd hkept List.not_mem_nil
  | cons steps rest ih =>
    obtain ⟨⟨last, hsteps⟩, hrest⟩ := List.forall_mem_cons.mp h
    rcases List.mem_append.mp hkept with hfirst | hothers
    · obtain ⟨hitem, hblock⟩ := mem_keptIn (Scopes.within_top htop) hfirst
      exact ⟨Nat.le_of_eq hitem.symm, fun block hat => (hblock block hat).1⟩
    · obtain ⟨hitem, hblock⟩ := ih (hsteps.enclosing_run.trans htop) hrest hothers
      exact ⟨by omega, fun block hat => Nat.le_trans (scopes.next_le_run steps) (hblock block hat)⟩

/-- Two temporaries of one name stand in different blocks, or both at the top level in different items. -/
theorem keptFrom_apart {item : Nat} {scopes : Scopes} {parts : List (List Step)} (htop : scopes.enclosing = [])
    (h : ∀ steps ∈ parts, ∃ last, Walks 0 0 0 steps last) :
    (keptFrom item scopes parts).Pairwise fun first second =>
      first.block = second.block → first.temporary.name = second.temporary.name →
        first.block = none ∧ first.item ≠ second.item := by
  induction parts generalizing item scopes with
  | nil => exact List.Pairwise.nil
  | cons steps rest ih =>
    obtain ⟨⟨last, hsteps⟩, hrest⟩ := List.forall_mem_cons.mp h
    have hafter : (scopes.run steps).enclosing = [] := hsteps.enclosing_run.trans htop
    rw [keptFrom, List.pairwise_append]
    refine ⟨?_, ih hafter hrest, fun first hfirst second hsecond hblock _ => ?_⟩
    · exact (keptIn_names hsteps.numbers item scopes).imp fun hname _ heq => absurd heq hname
    · obtain ⟨hitem, hopened⟩ := mem_keptIn (Scopes.within_top htop) hfirst
      obtain ⟨hitem', hopened'⟩ := mem_keptFrom hafter hrest hsecond
      refine ⟨?_, by omega⟩
      -- A block of the first item was numbered before any block of a later one.
      cases hat : first.block with
      | none => rfl
      | some block =>
        have hlt := (hopened block hat).2
        have hle := hopened' block (hblock ▸ hat)
        omega

/-! ### Programs -/

/-- When no item fails, the texts of the items are laid out from their steps. -/
theorem lowerItems_parts {mode : Mode} {index : Nat} {items : List Item} (h : (lowerItems mode index items).2 = []) :
    ∃ parts : List (List Step), (items.mapM fun item => (·.1) <$> (item.node.steps mode).run 0) = .ok parts ∧
      (lowerItems mode index items).1 = parts.map (Step.layoutAt 0) ∧
      ∀ steps ∈ parts, ∃ last, Walks 0 0 0 steps last := by
  induction items generalizing index with
  | nil => exact ⟨[], rfl, rfl, fun steps hsteps => absurd hsteps List.not_mem_nil⟩
  | cons item rest ih =>
    have hwalk := (Stmt.steps_walk mode).1 item.node 0
    have hlower := item.node.lower_eq_layout mode
    cases hrun : (item.node.steps mode).run 0 with
    | error fault =>
      rw [lowerItems, Item.lower, hlower, hrun] at h
      exact absurd h (List.cons_ne_nil _ _)
    | ok result =>
      have hitem : item.lower mode index = .ok (Step.layoutAt 0 result.1) := by
        rw [Item.lower, hlower, hrun]
        rfl
      rw [lowerItems, hitem] at h ⊢
      obtain ⟨parts, hparts, htexts, hwalks⟩ := ih h
      refine ⟨result.1 :: parts, ?_, ?_, List.forall_mem_cons.mpr ⟨⟨result.2, ?_⟩, hwalks⟩⟩
      · rw [List.mapM_cons, hrun, hparts]
        rfl
      · exact congrArg (Step.layoutAt 0 result.1 :: ·) htexts
      · exact (Outcome.of_eq_ok hwalk hrun).whole

/-- **Temporaries of a script.**  When no item is left out, two temporaries that the lines of one block declare have
different names, unless the block is the top level and they belong to different items. -/
theorem Program.lower_temporaries_apart {program : Program} {options : Options} {output : Output}
    (h : program.lower options = .ok output) (hcomplete : output.faults = []) :
    ∃ parts : List (List Step), program.parts options.mode = .ok parts ∧
      output.script = assemble options.mode (parts.map (Step.layoutAt 0)) ∧
      (keptFrom 0 .top parts).Pairwise fun first second =>
        first.block = second.block → first.temporary.name = second.temporary.name →
          first.block = none ∧ first.item ≠ second.item := by
  have houtput := Program.output_eq h
  rw [houtput] at hcomplete
  obtain ⟨parts, hparts, htexts, hwalks⟩ := lowerItems_parts hcomplete
  refine ⟨parts, hparts, ?_, keptFrom_apart rfl hwalks⟩
  rw [houtput, htexts]

/-- The statement that unwraps the result of a function of the given name. -/
def unwrapCall (name function : String) (body : List Stmt) : Stmt :=
  .ifLet name (.call (.variable function) [] false) body none

theorem lower_temporaries_apart_nested :
    ∃ parts, (Program.ofStmts [unwrapCall "v" "load" [unwrapCall "w" "load" [], unwrapCall "x" "load" []],
          unwrapCall "v" "load" []]).parts .managed = .ok parts ∧
      (keptFrom 0 .top parts).map (fun kept => (kept.item, kept.block, kept.temporary.name)) =
        [(0, none, "__opt0"), (0, some 0, "__opt1"), (0, some 0, "__opt2"), (1, none, "__opt0")] ∧
      (keptFrom 0 .top parts).Pairwise fun first second =>
        first.block = second.block → first.temporary.name = second.temporary.name →
          first.block = none ∧ first.item ≠ second.item := by
  have hlower : (Program.ofStmts [unwrapCall "v" "load" [unwrapCall "w" "load" [], unwrapCall "x" "load" []],
      unwrapCall "v" "load" []]).lower ⟨.managed, .failFast⟩ = .ok ⟨_, []⟩ := rfl
  obtain ⟨parts, hparts, -, hapart⟩ := Program.lower_temporaries_apart hlower rfl
  refine ⟨parts, hparts, ?_, hapart⟩
  injection hparts with hparts
  rw [← hparts]
  decide

/-- **Numbers start again with each item.**  Two items that each unwrap a value declare one name twice at the top
level of a complete script. -/
theorem temporaries_meet_at_top :
    ∃ output parts, (Program.ofStmts [unwrapCall "v" "load" [], unwrapCall "v" "load" []]).lower {} = .ok output ∧
      output.faults = [] ∧
      (Program.ofStmts [unwrapCall "v" "load" [], unwrapCall "v" "load" []]).parts .native = .ok parts ∧
      output.script = assemble .native (parts.map (Step.layoutAt 0)) ∧
      parts.map (Step.layoutAt 0) = List.replicate 2
        "const __opt0 = load();\nif (!__isNil(__opt0)) \x7b\n  const v = __opt0;\n\x7d\n" ∧
      ¬ (keptFrom 0 .top parts).Pairwise fun first second =>
        first.block = second.block → first.temporary.name ≠ second.temporary.name := by
  refine ⟨_, _, rfl, rfl, rfl, rfl, rfl, ?_⟩
  decide

end ScriptLowering
