import EcfDgii.Programs

/-!
Programs against strategies.

A `Strategy` answers every request from what has been asked and answered before,
so every run of a program is the one against some strategy.  `against` is that
run.  A program that asks only one kind of request does not notice the answers
to others: `against_local` replaces the strategy by one that sees only part of
the log, and `against_keeps` carries along what that kind of request does not
change.
-/

set_option autoImplicit false

namespace EcfDgii.Programs

variable {I : Interface} {α β : Type}

/-- An answer for every request, whatever has been asked before. -/
abbrev Strategy (I : Interface) := List (Event I) → (r : I.Request) → I.Reply r

namespace Program

/-- The result of a program against a strategy, and its log. -/
def against (σ : Strategy I) : List (Event I) → Program I α → Except String α × List (Event I)
  | log, done a => (.ok a, log)
  | log, throw e => (.error e, log)
  | log, ask r next => against σ (log ++ [⟨r, σ log r⟩]) (next (σ log r))

variable {σ τ : Strategy I} {log : List (Event I)} {S : I.Request → Prop}

@[simp] theorem against_done (a : α) : (done a : Program I α).against σ log = (.ok a, log) := rfl

@[simp] theorem against_pure (a : α) : (pure a : Program I α).against σ log = (.ok a, log) := rfl

/-- A sequence runs as its parts do. -/
theorem against_bind (p : Program I α) (k : α → Program I β) :
    (p >>= k).against σ log =
      match p.against σ log with
      | (.ok a, log') => (k a).against σ log'
      | (.error e, log') => (.error e, log') := by
  induction p generalizing log with
  | done a => rfl
  | throw e => rfl
  | ask r next ih => exact ih _

/-- What is caught is returned. -/
theorem against_caught (p : Program I α) :
    ((p.bind fun a => done (Except.ok a)).tryCatch fun e => done (.error e)).against σ log =
      (.ok (p.against σ log).1, (p.against σ log).2) := by
  induction p generalizing log with
  | done a => rfl
  | throw e => rfl
  | ask r next ih => exact ih _

/-- What one kind of request does not change is as it was. -/
theorem against_keeps {γ : Type} {f : List (Event I) → γ} {p : Program I α} (only : p.Only S)
    (keeps : ∀ log r x, S r → f (log ++ [⟨r, x⟩]) = f log) :
    f (p.against σ log).2 = f log := by
  induction p generalizing log with
  | done a => rfl
  | throw e => rfl
  | ask r next ih => exact (ih _ (only.2 _)).trans (keeps log r _ only.1)

/-- **Local rule.** As long as a condition holds that these requests keep, a
program of one kind of request runs alike against a strategy that answers them
alike, from a view of the log. -/
theorem against_local {P : List (Event I) → Prop} {v : List (Event I) → List (Event I)}
    {p : Program I α} (only : p.Only S) (holds : P log)
    (kept : ∀ log r x, S r → P log → P (log ++ [⟨r, x⟩]))
    (alike : ∀ log r, S r → P log → σ log r = τ (v log) r)
    (sees : ∀ log r x, S r → v (log ++ [⟨r, x⟩]) = v log ++ [⟨r, x⟩]) :
    (p.against σ log).1 = (p.against τ (v log)).1 := by
  induction p generalizing log with
  | done a => rfl
  | throw e => rfl
  | ask r next ih =>
    have rest := ih (σ log r) (only.2 _) (kept log r (σ log r) only.1 holds)
    rw [sees log r _ only.1, alike log r only.1 holds] at rest
    rw [against, against, alike log r only.1 holds]
    exact rest

end Program

end EcfDgii.Programs
