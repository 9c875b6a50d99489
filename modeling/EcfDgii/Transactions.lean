import Mathlib.Data.Nat.Notation

/-!
Transactions on a table: a copy to work on, and a commit.

An `Atomic` body reads and changes the copy that it sees, may throw on the way,
and replaces the table by its copy when it commits; what was not committed when
the connection is closed is lost.  `Uncommitted` says that a body commits
nothing, and composes through `bind`; a body that ends in its only commit
leaves the table as it was whenever it throws (`outcome_throws`).
-/

set_option autoImplicit false

namespace EcfDgii.Transactions

/-- A table as it is committed, and as a transaction sees it. -/
structure Work (τ : Type) where
  committed : τ
  current : τ

/-- The body of a transaction on a table. -/
def Atomic (τ α : Type) : Type := Work τ → Except String α × Work τ

variable {τ α β : Type}

namespace Atomic

/-- The continuation runs on what the first part has left, unless it threw. -/
protected def bind (t : Atomic τ α) (k : α → Atomic τ β) : Atomic τ β := fun w =>
  match t w with
  | (.ok a, w') => k a w'
  | (.error e, w') => (.error e, w')

instance : Monad (Atomic τ) where
  pure a := fun w => (.ok a, w)
  bind := Atomic.bind

/-- The copy. -/
def get : Atomic τ τ := fun w => (.ok w.current, w)

/-- A change of the copy. -/
def modify (f : τ → τ) : Atomic τ Unit := fun w => (.ok (), { w with current := f w.current })

/-- An error value as a throw. -/
def raise (x : Except String α) : Atomic τ α := fun w => (x, w)

/-- The table is replaced by the copy. -/
def commit : Atomic τ Unit := fun w => (.ok (), { w with committed := w.current })

/-- The answer of a transaction on a table, and the table when its connection is
closed. -/
def outcome (t : Atomic τ α) (table : τ) : Except String α × τ :=
  ((t ⟨table, table⟩).1, (t ⟨table, table⟩).2.committed)

variable {w : Work τ}

@[simp] theorem pure_apply (a : α) : (pure a : Atomic τ α) w = (.ok a, w) := rfl

@[simp] theorem get_apply : (get : Atomic τ τ) w = (.ok w.current, w) := rfl

@[simp] theorem modify_apply (f : τ → τ) :
    modify f w = (.ok (), { w with current := f w.current }) := rfl

@[simp] theorem raise_apply (x : Except String α) : (raise x : Atomic τ α) w = (x, w) := rfl

@[simp] theorem commit_apply :
    (commit : Atomic τ Unit) w = (.ok (), { w with committed := w.current }) := rfl

theorem bind_of_ok {t : Atomic τ α} {k : α → Atomic τ β} {a : α} {w' : Work τ}
    (first : t w = (.ok a, w')) : (t >>= k) w = k a w' := by
  change Atomic.bind t k w = k a w'
  rw [Atomic.bind, first]

theorem bind_of_error {t : Atomic τ α} {k : α → Atomic τ β} {e : String} {w' : Work τ}
    (first : t w = (.error e, w')) : (t >>= k) w = (.error e, w') := by
  change Atomic.bind t k w = _
  rw [Atomic.bind, first]

/-- A body that commits nothing. -/
def Uncommitted (t : Atomic τ α) : Prop := ∀ w, (t w).2.committed = w.committed

theorem uncommitted_pure (a : α) : Uncommitted (pure a : Atomic τ α) := fun _ => rfl

theorem uncommitted_get : Uncommitted (get : Atomic τ τ) := fun _ => rfl

theorem uncommitted_modify (f : τ → τ) : Uncommitted (modify f) := fun _ => rfl

theorem uncommitted_raise (x : Except String α) : Uncommitted (raise x : Atomic τ α) :=
  fun _ => rfl

theorem Uncommitted.bind {t : Atomic τ α} {k : α → Atomic τ β} (first : Uncommitted t)
    (rest : ∀ a, Uncommitted (k a)) : Uncommitted (t >>= k) := by
  intro w
  cases ran : t w with
  | mk answer w' =>
    have kept := first w
    rw [ran] at kept
    cases answer with
    | ok a => rw [bind_of_ok ran, rest a w', kept]
    | error e => rw [bind_of_error ran, kept]

/-- **All or nothing.** A body that ends in its only commit leaves the table as it
was when it throws. -/
theorem outcome_throws {t : Atomic τ α} (first : Uncommitted t) {f : α → β} {table : τ}
    {e : String} (throws : (outcome (t >>= fun a => commit >>= fun _ => pure (f a)) table).1 =
      .error e) :
    (outcome (t >>= fun a => commit >>= fun _ => pure (f a)) table).2 = table := by
  unfold outcome at throws ⊢
  cases ran : t ⟨table, table⟩ with
  | mk answer w' =>
    have kept := first ⟨table, table⟩
    rw [ran] at kept
    cases answer with
    | ok a =>
      rw [bind_of_ok ran] at throws
      cases throws
    | error e' =>
      rw [bind_of_error ran]
      exact kept

end Atomic

end EcfDgii.Transactions
