import Mathlib.Data.List.Basic
import Mathlib.Tactic.Common

/-!
Resources taken and given back.

A log of events takes resources and gives them back, as `effect` says of each
event; `held` is what has been taken and not given back.  `Clean` says of a log
that it gives back only what it holds and ends with nothing held: whatever it
takes it gives back later (`Clean.given_back`), and it gives back nothing that
it has not taken before (`Clean.taken_before`).
-/

set_option autoImplicit false

namespace EcfDgii.Custody

/-- What an event does with the resources. -/
inductive Effect (ρ : Type)
  | takes (r : ρ)
  | gives (r : ρ)
  | nothing

variable {ε ρ : Type} [DecidableEq ρ] (effect : ε → Effect ρ)

/-- What is held after an event. -/
def heldStep (held : List ρ) (e : ε) : List ρ :=
  match effect e with
  | .takes r => r :: held
  | .gives r => held.erase r
  | .nothing => held

/-- What is held at the end of a log, with what was held before it. -/
def heldFrom (start : List ρ) (log : List ε) : List ρ := log.foldl (heldStep effect) start

/-- What a log leaves held. -/
abbrev held (log : List ε) : List ρ := heldFrom effect [] log

/-- An event that gives something back gives back what is held. -/
def Lawful (before : List ε) (e : ε) : Prop := ∀ r, effect e = .gives r → r ∈ held effect before

/-- A log that gives back all it takes, and nothing else. -/
structure Clean (log : List ε) : Prop where
  lawful : ∀ before e after, log = before ++ e :: after → Lawful effect before e
  settled : held effect log = []

variable {effect} {start : List ρ} {log before after : List ε} {e : ε} {r : ρ}

theorem held_append (log : List ε) (e : ε) :
    held effect (log ++ [e]) = heldStep effect (held effect log) e := by
  simp [heldFrom]

/-- The only thing held is given back. -/
theorem held_give (holds : held effect log = [r]) (gives : effect e = .gives r) :
    held effect (log ++ [e]) = [] := by
  rw [held_append, heldStep, gives, holds]
  exact List.erase_cons_head r []

/-- What is held was held at the start, or has been taken. -/
theorem taken_of_mem_heldFrom (member : r ∈ heldFrom effect start log) :
    r ∈ start ∨ ∃ e ∈ log, effect e = .takes r := by
  induction log generalizing start with
  | nil => exact .inl member
  | cons e log ih =>
    rcases ih member with early | ⟨e', later, takes⟩
    · unfold heldStep at early
      split at early
      · next r' same =>
        rcases List.mem_cons.mp early with rfl | old
        · exact .inr ⟨e, List.mem_cons_self, same⟩
        · exact .inl old
      · exact .inl (List.mem_of_mem_erase early)
      · exact .inl early
    · exact .inr ⟨e', List.mem_cons_of_mem e later, takes⟩

/-- What is held stays held until it is given back. -/
theorem heldFrom_of_kept (member : r ∈ start) (kept : ∀ e ∈ log, effect e ≠ .gives r) :
    r ∈ heldFrom effect start log := by
  induction log generalizing start with
  | nil => exact member
  | cons e log ih =>
    refine ih ?_ fun e' later => kept e' (List.mem_cons_of_mem e later)
    unfold heldStep
    split
    · exact List.mem_cons_of_mem _ member
    · next r' same =>
      have other : r ≠ r' := fun equal => kept e List.mem_cons_self (equal ▸ same)
      exact (List.mem_erase_of_ne other).mpr member
    · exact member

/-- **Nothing leaks.** What a clean log takes it gives back later. -/
theorem Clean.given_back (clean : Clean effect (before ++ e :: after))
    (takes : effect e = .takes r) : ∃ e' ∈ after, effect e' = .gives r := by
  by_contra never
  have taken : r ∈ heldStep effect (held effect before) e := by
    rw [heldStep, takes]
    exact List.mem_cons_self
  have still : r ∈ heldFrom effect (heldStep effect (held effect before) e) after :=
    heldFrom_of_kept taken fun e' member gives => never ⟨e', member, gives⟩
  have whole : held effect (before ++ e :: after) =
      heldFrom effect (heldStep effect (held effect before) e) after := by
    simp [heldFrom]
  rw [← whole, clean.settled] at still
  exact absurd still List.not_mem_nil

/-- A clean log gives back only what it has taken. -/
theorem Clean.taken_before (clean : Clean effect (before ++ e :: after))
    (gives : effect e = .gives r) : ∃ e' ∈ before, effect e' = .takes r := by
  have holds : r ∈ held effect before := clean.lawful before e after rfl r gives
  exact (taken_of_mem_heldFrom holds).resolve_left List.not_mem_nil

end EcfDgii.Custody
