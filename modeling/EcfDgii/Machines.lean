import Mathlib.Data.List.Basic

/-!
Machines that take one step after another.

A `Machine` is a step function; what it is given in a step decides what it does.
`Machine.run` is any number of steps, `Machine.Meets` a condition on each of
them in the state it starts from, and `Machine.invariant` the induction: what a
step keeps under the condition, a run keeps.
-/

set_option autoImplicit false

namespace EcfDgii.Machines

/-- A deterministic machine. -/
structure Machine (σ ι : Type) where
  step : σ → ι → σ

variable {σ ι : Type} {m : Machine σ ι} {C : σ → ι → Prop}

/-- The state after a list of steps. -/
def Machine.run (m : Machine σ ι) : σ → List ι → σ := List.foldl m.step

@[simp] theorem Machine.run_nil (s : σ) : m.run s [] = s := rfl

@[simp] theorem Machine.run_cons (s : σ) (i : ι) (rest : List ι) :
    m.run s (i :: rest) = m.run (m.step s i) rest := rfl

theorem Machine.run_append (s : σ) (first rest : List ι) :
    m.run s (first ++ rest) = m.run (m.run s first) rest :=
  List.foldl_append

/-- Every step meets a condition in the state it starts from. -/
def Machine.Meets (m : Machine σ ι) (C : σ → ι → Prop) : σ → List ι → Prop
  | _, [] => True
  | s, i :: rest => C s i ∧ m.Meets C (m.step s i) rest

/-- A condition that can be checked in a state can be checked along a run. -/
instance Machine.Meets.decidable (m : Machine σ ι) (C : σ → ι → Prop)
    [∀ s i, Decidable (C s i)] : (s : σ) → (steps : List ι) → Decidable (m.Meets C s steps)
  | _, [] => .isTrue trivial
  | s, i :: rest =>
    match (inferInstance : Decidable (C s i)), Machine.Meets.decidable m C (m.step s i) rest with
    | .isTrue now, .isTrue later => .isTrue ⟨now, later⟩
    | .isFalse now, _ => .isFalse fun met => now met.1
    | _, .isFalse later => .isFalse fun met => later met.2

theorem Machine.Meets.mono {C' : σ → ι → Prop} (weaker : ∀ s i, C s i → C' s i) {steps : List ι} :
    ∀ {s : σ}, m.Meets C s steps → m.Meets C' s steps := by
  induction steps with
  | nil => exact fun _ => trivial
  | cons i rest ih => exact fun met => ⟨weaker _ i met.1, ih met.2⟩

/-- A list of steps meets a condition when its first part does, and its second
part does from there. -/
theorem Machine.meets_append {s : σ} {first rest : List ι} :
    m.Meets C s (first ++ rest) ↔ m.Meets C s first ∧ m.Meets C (m.run s first) rest := by
  induction first generalizing s with
  | nil => exact ⟨fun met => ⟨trivial, met⟩, fun met => met.2⟩
  | cons i first ih => exact (and_congr_right fun _ => ih).trans and_assoc.symm

theorem Machine.Meets.and {C' : σ → ι → Prop} {s : σ} {steps : List ι} (met : m.Meets C s steps)
    (met' : m.Meets C' s steps) : m.Meets (fun s i => C s i ∧ C' s i) s steps := by
  induction steps generalizing s with
  | nil => trivial
  | cons i rest ih => exact ⟨⟨met.1, met'.1⟩, ih met.2 met'.2⟩

/-- A condition on what is given alone. -/
theorem Machine.meets_of_forall {P : ι → Prop} {steps : List ι} (given : ∀ i ∈ steps, P i) (s : σ) :
    m.Meets (fun _ i => P i) s steps := by
  induction steps generalizing s with
  | nil => trivial
  | cons i rest ih =>
    exact ⟨given i List.mem_cons_self, ih (fun j here => given j (List.mem_cons_of_mem _ here)) _⟩

theorem Machine.meets_true (s : σ) (steps : List ι) : m.Meets (fun _ _ => True) s steps := by
  induction steps generalizing s with
  | nil => trivial
  | cons i rest ih => exact ⟨trivial, ih _⟩

/-- **Run rule.** What every step keeps under the condition, a run keeps. -/
theorem Machine.invariant {J : σ → Prop} (keeps : ∀ s i, J s → C s i → J (m.step s i)) {s : σ}
    {steps : List ι} (initial : J s) (met : m.Meets C s steps) : J (m.run s steps) := by
  induction steps generalizing s with
  | nil => exact initial
  | cons i rest ih => exact ih (keeps s i initial met.1) met.2

end EcfDgii.Machines
