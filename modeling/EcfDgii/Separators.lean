import Mathlib.Data.List.Basic
import Mathlib.Data.List.TakeWhile
import Mathlib.Tactic.Common

/-!
Lists joined with a separator.

A list in which the separator occurs can be cut at its first and at its last
occurrence.  `cut_first` and `cut_last` say that a part without the separator is
determined by the joined list, and so is what stands on the other side of it;
a list of parts in which at most one holds the separator is read back by cutting
from both ends.
-/

set_option autoImplicit false

namespace EcfDgii.Separators

variable {α : Type} {sep : α} {a b c d : List α}

/-- The first separator ends the first part. -/
theorem cut_first (left : sep ∉ a) (right : sep ∉ c) (same : a ++ sep :: b = c ++ sep :: d) :
    a = c ∧ b = d := by
  induction a generalizing c with
  | nil =>
    cases c with
    | nil => exact ⟨rfl, (List.cons.inj same).2⟩
    | cons x c =>
      obtain ⟨rfl, -⟩ := List.cons.inj same
      exact absurd List.mem_cons_self right
  | cons x a ih =>
    cases c with
    | nil =>
      obtain ⟨rfl, -⟩ := List.cons.inj same
      exact absurd List.mem_cons_self left
    | cons y c =>
      obtain ⟨rfl, tail⟩ := List.cons.inj same
      obtain ⟨rfl, rfl⟩ := ih (fun h => left (List.mem_cons_of_mem _ h))
        (fun h => right (List.mem_cons_of_mem _ h)) tail
      exact ⟨rfl, rfl⟩

/-- The last separator begins the last part. -/
theorem cut_last (left : sep ∉ b) (right : sep ∉ d) (same : a ++ sep :: b = c ++ sep :: d) :
    a = c ∧ b = d := by
  have reversed : b.reverse ++ sep :: a.reverse = d.reverse ++ sep :: c.reverse := by
    have h := congrArg List.reverse same
    simpa using h
  obtain ⟨last, first⟩ := cut_first (by simpa using left) (by simpa using right) reversed
  exact ⟨List.reverse_injective first, List.reverse_injective last⟩

/-- Blocks of one length, joined without a separator, are read back. -/
theorem flatMap_injective {β : Type} {code : β → List α} {n : ℕ} (length : ∀ x, (code x).length = n)
    (positive : 0 < n) (injective : Function.Injective code) :
    Function.Injective fun xs : List β => xs.flatMap code := by
  intro xs
  induction xs with
  | nil =>
    intro ys same
    cases ys with
    | nil => rfl
    | cons y ys =>
      have := congrArg List.length same
      simp [length] at this
      omega
  | cons x xs ih =>
    intro ys same
    cases ys with
    | nil =>
      have := congrArg List.length same
      simp [length] at this
      omega
    | cons y ys =>
      simp only [List.flatMap_cons] at same
      obtain ⟨first, rest⟩ := List.append_inj same ((length x).trans (length y).symm)
      rw [injective first, ih rest]

end EcfDgii.Separators
