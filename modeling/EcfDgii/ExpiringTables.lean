import Mathlib.Data.Option.Basic
import Mathlib.Logic.Function.Basic
import Mathlib.Data.Int.Notation

/-!
Tables whose values last for a time.

A `Table` maps a key to a value and the last moment it is there, if there is
one.  Nothing is ever removed by the passing of time: `Table.lookup` is given
the moment it reads at, and an entry past its own is not found.  `Within` says
that all a table still shows is what another one holds; it only gets weaker as
time passes.
-/

set_option autoImplicit false

namespace EcfDgii.ExpiringTables

/-- A value, and the last moment it is there; `none` is for ever. -/
structure Entry (ν : Type) where
  value : ν
  expiresAt : Option ℤ
  deriving DecidableEq

/-- Keys with their entries. -/
abbrev Table (κ ν : Type) := κ → Option (Entry ν)

variable {κ ν : Type} {t spec : Table κ ν} {key other : κ} {e : Entry ν} {now later : ℤ}

/-- The entry is there at a moment. -/
def Entry.Live (now : ℤ) (e : Entry ν) : Prop := ∀ last ∈ e.expiresAt, now ≤ last

instance (now : ℤ) (e : Entry ν) : Decidable (e.Live now) :=
  inferInstanceAs (Decidable (∀ last ∈ e.expiresAt, now ≤ last))

theorem Entry.Live.earlier (live : e.Live later) (order : now ≤ later) : e.Live now :=
  fun last member => Int.le_trans order (live last member)

/-- Nothing anywhere. -/
def Table.empty : Table κ ν := fun _ => none

/-- The value of a key, at a moment. -/
def Table.lookup (t : Table κ ν) (key : κ) (now : ℤ) : Option ν :=
  ((t key).filter fun e => e.Live now).map Entry.value

theorem lookup_eq_some {v : ν} :
    t.lookup key now = some v ↔ ∃ e, t key = some e ∧ e.Live now ∧ e.value = v := by
  simp only [Table.lookup, Option.map_eq_some_iff, Option.filter_eq_some_iff, decide_eq_true_eq,
    and_assoc]

theorem lookup_eq_none : t.lookup key now = none ↔ ∀ e, t key = some e → ¬ e.Live now := by
  simp only [Table.lookup, Option.map_eq_none_iff, Option.filter_eq_none_iff, decide_eq_true_eq]

/-- What a table still shows is what another one holds. -/
def Within (t spec : Table κ ν) (now : ℤ) : Prop :=
  ∀ key e, t key = some e → e.Live now → spec key = some e

theorem Within.mono (h : Within t spec now) (order : now ≤ later) : Within t spec later :=
  fun key e found live => h key e found (live.earlier order)

theorem within_empty (spec : Table κ ν) (now : ℤ) : Within Table.empty spec now := nofun

theorem Within.lookup (h : Within t spec now) {v : ν} (found : t.lookup key now = some v) :
    spec.lookup key now = some v := by
  obtain ⟨e, here, live, rfl⟩ := lookup_eq_some.mp found
  exact lookup_eq_some.mpr ⟨e, h key e here live, live, rfl⟩

/-! ## Changes -/

variable [DecidableEq κ]

def Table.put (t : Table κ ν) (key : κ) (e : Entry ν) : Table κ ν :=
  Function.update t key (some e)

def Table.erase (t : Table κ ν) (key : κ) : Table κ ν := Function.update t key none

@[simp] theorem put_self : t.put key e key = some e := Function.update_self ..

@[simp] theorem put_other (h : other ≠ key) : t.put key e other = t other :=
  Function.update_of_ne h ..

@[simp] theorem erase_self : t.erase key key = none := Function.update_self ..

@[simp] theorem erase_other (h : other ≠ key) : t.erase key other = t other :=
  Function.update_of_ne h ..

theorem lookup_put_self (live : e.Live now) : (t.put key e).lookup key now = some e.value :=
  lookup_eq_some.mpr ⟨e, put_self, live, rfl⟩

theorem lookup_put_other (h : other ≠ key) : (t.put key e).lookup other now = t.lookup other now := by
  rw [Table.lookup, put_other h, Table.lookup]

theorem lookup_erase_self : (t.erase key).lookup key now = none := by
  rw [Table.lookup, erase_self]
  rfl

theorem lookup_erase_other (h : other ≠ key) : (t.erase key).lookup other now = t.lookup other now := by
  rw [Table.lookup, erase_other h, Table.lookup]

/-- The same entry on both sides. -/
theorem Within.put (h : Within t spec now) (key : κ) (e : Entry ν) :
    Within (t.put key e) (spec.put key e) now := by
  intro other found here live
  by_cases same : other = key
  · subst same
    rw [put_self] at here ⊢
    exact here
  · rw [put_other same] at here ⊢
    exact h other found here live

/-- An entry removed on the left only. -/
theorem Within.erase_left (h : Within t spec now) (key : κ) : Within (t.erase key) spec now := by
  intro other found here live
  by_cases same : other = key
  · subst same
    rw [erase_self] at here
    exact absurd here nofun
  · rw [erase_other same] at here
    exact h other found here live

/-- The right side may change at a key the left one shows nothing of. -/
theorem Within.update_right (h : Within t spec now) (gone : t.lookup key now = none)
    (entry : Option (Entry ν)) : Within t (Function.update spec key entry) now := by
  intro other found here live
  by_cases same : other = key
  · subst same
    exact absurd live (lookup_eq_none.mp gone found here)
  · rw [Function.update_of_ne same]
    exact h other found here live

theorem Within.erase (h : Within t spec now) (key : κ) :
    Within (t.erase key) (spec.erase key) now :=
  (h.erase_left key).update_right lookup_erase_self none

end EcfDgii.ExpiringTables
