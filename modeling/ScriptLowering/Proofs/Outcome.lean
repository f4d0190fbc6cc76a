import ScriptLowering.Emission

/-!
# Outcomes of runs that may fail

Lowering stops at the first fault.  What it ends in is stated by two properties, one of the result and one of
the fault, and follows the run part by part.

* `Outcome` — a result has the one property, a fault the other;
* `Emits` — the same for writing, whatever the number of temporaries drawn before;
* `Outcome.bind`, `Emits.bind` — from the parts of a run to the whole;
* `Gives`, `GivesWriting` — the same where nothing is said of a fault.
-/

namespace ScriptLowering

variable {α β : Type} {F G : Fault → Prop}

/-- What a run ends in: a result with the property `P` or a fault with the property `F`. -/
def Outcome (result : Except Fault α) (P : α → Prop) (F : Fault → Prop) : Prop :=
  match result with
  | .ok value => P value
  | .error fault => F fault

namespace Outcome

theorem ok {P : α → Prop} {value : α} (h : P value) : Outcome (.ok value) P F := h

theorem error {P : α → Prop} {fault : Fault} (h : F fault) : Outcome (.error fault) P F := h

theorem pure {P : α → Prop} {value : α} (h : P value) : Outcome (Pure.pure value) P F := h

/-- A run goes on from the result of its first part. -/
theorem bind {P : α → Prop} {Q : β → Prop} {first : Except Fault α} {next : α → Except Fault β}
    (hfirst : Outcome first P F) (hnext : ∀ value, P value → Outcome (next value) Q F) :
    Outcome (first >>= next) Q F := by
  cases first with
  | error fault => exact hfirst
  | ok value => exact hnext value hfirst

theorem mono {P Q : α → Prop} {result : Except Fault α} (h : Outcome result P F)
    (hresult : ∀ value, P value → Q value) (hfault : ∀ fault, F fault → G fault) : Outcome result Q G := by
  cases result with
  | error fault => exact hfault fault h
  | ok value => exact hresult value h

theorem of_eq_ok {P : α → Prop} {result : Except Fault α} {value : α} (h : Outcome result P F)
    (hresult : result = .ok value) : P value := by
  rw [hresult] at h
  exact h

theorem of_eq_error {P : α → Prop} {result : Except Fault α} {fault : Fault} (h : Outcome result P F)
    (hresult : result = .error fault) : F fault := by
  rw [hresult] at h
  exact h

end Outcome

/-- What writing ends in, whatever the number of temporaries drawn before. -/
def Emits (emission : Emission α) (P : α → Prop) (F : Fault → Prop) : Prop :=
  ∀ drawn, Outcome (emission.run drawn) (fun result => P result.1) F

namespace Emits

theorem pure {P : α → Prop} {value : α} (h : P value) : Emits (Pure.pure value) P F := fun _ => h

theorem throw {P : α → Prop} {fault : Fault} (h : F fault) : Emits (MonadExcept.throw fault) P F := fun _ => h

/-- Writing goes on from the result of its first part. -/
theorem bind {P : α → Prop} {Q : β → Prop} {first : Emission α} {next : α → Emission β}
    (hfirst : Emits first P F) (hnext : ∀ value, P value → Emits (next value) Q F) :
    Emits (first >>= next) Q F := by
  intro drawn
  rw [StateT.run_bind]
  exact (hfirst drawn).bind fun result hresult => hnext result.1 hresult result.2

theorem map {P : α → Prop} {Q : β → Prop} {emission : Emission α} {f : α → β} (h : Emits emission P F)
    (hresult : ∀ value, P value → Q (f value)) : Emits (f <$> emission) Q F := by
  rw [← bind_pure_comp]
  exact h.bind fun value hvalue => Emits.pure (hresult value hvalue)

/-- A run that draws no temporary is a part of writing. -/
theorem lift {P : α → Prop} {result : Except Fault α} (h : Outcome result P F) :
    Emits (liftM result) P F := by
  intro drawn
  exact h.bind fun value hvalue => Outcome.pure hvalue

theorem mono {P Q : α → Prop} {emission : Emission α} (h : Emits emission P F)
    (hresult : ∀ value, P value → Q value) (hfault : ∀ fault, F fault → G fault) : Emits emission Q G :=
  fun drawn => (h drawn).mono (fun result => hresult result.1) hfault

/-- A temporary is drawn for the stem asked for, and drawing never fails. -/
theorem drawTemporary (stem : Temporary.Stem) :
    Emits (ScriptLowering.drawTemporary stem) (fun temporary => temporary.stem = stem) F :=
  fun _ => rfl

end Emits

/-! ### Results alone -/

/-- A result, when there is one, has the property `P`. -/
def Gives (result : Except Fault α) (P : α → Prop) : Prop := Outcome result P fun _ => True

/-- What is written, when writing succeeds, has the property `P`. -/
def GivesWriting (emission : Emission α) (P : α → Prop) : Prop := Emits emission P fun _ => True

theorem Gives.imp {P Q : α → Prop} {result : Except Fault α} (h : Gives result P)
    (hresult : ∀ value, P value → Q value) : Gives result Q :=
  h.mono hresult fun _ _ => trivial

/-- Of a run that is not looked into nothing is known. -/
theorem Gives.unknown (result : Except Fault α) : Gives result fun _ => True := by
  cases result <;> exact trivial

/-- The result of a run, when there is one, is what the run ends in. -/
theorem Gives.self (result : Except Fault α) : Gives result fun value => result = .ok value := by
  cases result with
  | error fault => exact trivial
  | ok value => exact rfl

theorem GivesWriting.imp {P Q : α → Prop} {emission : Emission α} (h : GivesWriting emission P)
    (hresult : ∀ value, P value → Q value) : GivesWriting emission Q :=
  h.mono hresult fun _ _ => trivial

end ScriptLowering
