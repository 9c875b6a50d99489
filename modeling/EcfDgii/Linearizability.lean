import EcfDgii.Execution
import Mathlib.Data.List.Induction

/-!
Operations at the same time that behave as if each happened at once.

A specification says what an operation may answer in a state, and the state it
leads to.  An `order` lists operations with their answers, as far as a schedule
has come.  It is a `Linearization` if it only grows, names an operation once, and
not before it has begun, holds every proper answer that has been returned, and
can be replayed against the specification up to the state the world stands for.
What returned before another operation began then comes before it
(`Linearization.before`).

`exists_linearization` builds the order move by move, from an invariant that
every move keeps for some entries it adds.
-/

set_option autoImplicit false

namespace EcfDgii.Linearizability

open EcfDgii.Programs EcfDgii.Execution

variable {I : Interface} {Ω α σ ι S : Type} {Spec : Ω → S → α → S → Prop}
  {operations : ℕ → Ω} {entries : List (ℕ × α)} {s s' s'' : S}

/-- Operations one after another, each with what it answers. -/
inductive Replays (Spec : Ω → S → α → S → Prop) (operations : ℕ → Ω) (s : S) :
    List (ℕ × α) → S → Prop
  | nil : Replays Spec operations s [] s
  | concat {entries s' t a s''} (before : Replays Spec operations s entries s')
    (next : Spec (operations t) s' a s'') :
    Replays Spec operations s (entries ++ [(t, a)]) s''

/-- Operations that lead from a state back to itself, with answers of their own. -/
theorem Replays.extend (h : Replays Spec operations s entries s') (more : List (ℕ × α))
    (P : S → Prop) (here : P s')
    (stays : ∀ t a, (t, a) ∈ more → ∀ s, P s → ∃ s', Spec (operations t) s a s' ∧ P s') :
    ∃ s'', Replays Spec operations s (entries ++ more) s'' ∧ P s'' := by
  induction more using List.reverseRecOn with
  | nil => exact ⟨s', by simpa using h, here⟩
  | append_singleton more entry ih =>
    obtain ⟨t, a⟩ := entry
    obtain ⟨mid, replay, holds⟩ :=
      ih fun t a member => stays t a (List.mem_append_left _ member)
    obtain ⟨next, step, holds⟩ :=
      stays t a (List.mem_append_right _ List.mem_cons_self) mid holds
    exact ⟨next, by simpa using replay.concat step, holds⟩

/-- The last operation. -/
theorem Replays.last {t : ℕ} {a : α} (h : Replays Spec operations s (entries ++ [(t, a)]) s'') :
    ∃ s', Replays Spec operations s entries s' ∧ Spec (operations t) s' a s'' := by
  generalize whole : entries ++ [(t, a)] = all at h
  cases h with
  | nil => exact absurd whole (by simp)
  | concat before next =>
    obtain ⟨rfl, same⟩ := List.append_inj' whole rfl
    obtain ⟨rfl, rfl⟩ := Prod.mk.inj (List.singleton_inj.mp same)
    exact ⟨_, before, next⟩

/-- An operation in the middle, with what it found and what it left. -/
theorem Replays.cut {first rest : List (ℕ × α)} {t : ℕ} {a : α}
    (h : Replays Spec operations s (first ++ (t, a) :: rest) s'') :
    ∃ mid mid', Replays Spec operations s first mid ∧ Spec (operations t) mid a mid' ∧
      Replays Spec operations mid' rest s'' := by
  induction rest using List.reverseRecOn generalizing s'' with
  | nil =>
    obtain ⟨mid, before, next⟩ := h.last
    exact ⟨mid, s'', before, next, .nil⟩
  | append_singleton rest entry ih =>
    rw [← List.cons_append, ← List.append_assoc] at h
    obtain ⟨late, before, next⟩ := h.last
    obtain ⟨mid, mid', first, here, after⟩ := ih before
    exact ⟨mid, mid', first, here, after.concat next⟩

/-- What every operation keeps holds at the end. -/
theorem Replays.keeps {P : S → Prop} (h : Replays Spec operations s entries s') (here : P s)
    (each : ∀ entry ∈ entries, ∀ s s', Spec (operations entry.1) s entry.2 s' → P s → P s') :
    P s' := by
  induction h with
  | nil => exact here
  | concat before next ih =>
    refine each _ (List.mem_append_right _ List.mem_cons_self) _ _ next (ih fun entry member => ?_)
    exact each entry (List.mem_append_left _ member)

/-- An order of the operations of a pool, in every schedule. -/
structure Linearization (h : Host I σ ι) (Spec : Ω → S → α → S → Prop) (state : σ → S)
    (Proper : α → Prop) (pool : Pool Ω I α σ) (order : List (Move ι) → List (ℕ × α)) : Prop where
  grows : ∀ first rest, order first <+: order (first ++ rest)
  once : ∀ moves, ((order moves).map Prod.fst).Nodup
  begun : ∀ moves, ∀ entry ∈ order moves, ((pool.play h moves).thread entry.1).log ≠ []
  returned : ∀ moves t a, ((pool.play h moves).thread t).result = some a → Proper a →
    (t, a) ∈ order moves
  legal : ∀ moves, Replays Spec (fun t => (pool.thread t).operation) (state pool.world)
    (order moves) (state (pool.play h moves).world)

variable {h : Host I σ ι} {state : σ → S} {Proper : α → Prop} {pool : Pool Ω I α σ}
  {order : List (Move ι) → List (ℕ × α)}

/-- An operation that returned before another one began comes before it. -/
theorem Linearization.before (l : Linearization h Spec state Proper pool order)
    {first rest : List (Move ι)} {t u : ℕ} {a b : α}
    (returned : ((pool.play h first).thread t).result = some a) (proper : Proper a)
    (later : ((pool.play h first).thread u).log = [])
    (answered : (u, b) ∈ order (first ++ rest)) :
    ∃ before between after,
      order (first ++ rest) = before ++ (t, a) :: between ++ (u, b) :: after := by
  obtain ⟨more, grown⟩ := l.grows first rest
  have here := l.returned first t a returned proper
  have new : (u, b) ∈ more := by
    rw [← grown] at answered
    rcases List.mem_append.mp answered with old | new
    · exact absurd later (l.begun first _ old)
    · exact new
  obtain ⟨before, between, split⟩ := List.append_of_mem here
  obtain ⟨between', after, split'⟩ := List.append_of_mem new
  exact ⟨before, between ++ between', after, by simp [← grown, split, split']⟩

section Building

variable (h) (Inv : List (ℕ × α) → Pool Ω I α σ → Prop)
  (keeps : ∀ entries p m, Inv entries p → ∃ more, Inv (entries ++ more) (p.move h m))

/-- An order so far, with the pool it is for. -/
abbrev Stage := { stage : List (ℕ × α) × Pool Ω I α σ // Inv stage.1 stage.2 }

/-- The order after one more move. -/
noncomputable def Stage.move (stage : Stage Inv) (m : Move ι) : Stage Inv :=
  ⟨(stage.1.1 ++ (keeps _ _ m stage.2).choose, stage.1.2.move h m),
    (keeps _ _ m stage.2).choose_spec⟩

theorem Stage.pool_foldl (stage : Stage Inv) (moves : List (Move ι)) :
    (moves.foldl (Stage.move h Inv keeps) stage).1.2 = stage.1.2.play h moves := by
  induction moves generalizing stage with
  | nil => rfl
  | cons m moves ih => exact ih _

theorem Stage.grows (stage : Stage Inv) (moves : List (Move ι)) :
    stage.1.1 <+: (moves.foldl (Stage.move h Inv keeps) stage).1.1 := by
  induction moves generalizing stage with
  | nil => exact List.prefix_rfl
  | cons m moves ih =>
    exact (List.prefix_append ..).trans (ih (Stage.move h Inv keeps stage m))

end Building

/-- **The rule.** If every move can add entries so that an invariant of the order
and the pool holds, there is an order that grows and keeps it. -/
theorem exists_order {Inv : List (ℕ × α) → Pool Ω I α σ → Prop}
    (keeps : ∀ entries p m, Inv entries p → ∃ more, Inv (entries ++ more) (p.move h m))
    (initial : Inv [] pool) :
    ∃ order : List (Move ι) → List (ℕ × α), (∀ first rest, order first <+: order (first ++ rest)) ∧
      ∀ moves, Inv (order moves) (pool.play h moves) := by
  let stage (moves : List (Move ι)) : Stage Inv :=
    moves.foldl (Stage.move h Inv keeps) ⟨([], pool), initial⟩
  refine ⟨fun moves => (stage moves).1.1, fun first rest => ?_, fun moves => ?_⟩
  · simp only [stage, List.foldl_append]
    exact Stage.grows h Inv keeps _ rest
  · have holds := (stage moves).2
    rwa [Stage.pool_foldl h Inv keeps ⟨([], pool), initial⟩ moves] at holds

/-- What an invariant of order and pool has to give for a linearization. -/
structure Accounts (Spec : Ω → S → α → S → Prop) (state : σ → S) (Proper : α → Prop)
    (pool : Pool Ω I α σ) (entries : List (ℕ × α)) (p : Pool Ω I α σ) : Prop where
  once : (entries.map Prod.fst).Nodup
  begun : ∀ entry ∈ entries, (p.thread entry.1).log ≠ []
  returned : ∀ t a, (p.thread t).result = some a → Proper a → (t, a) ∈ entries
  legal : Replays Spec (fun t => (pool.thread t).operation) (state pool.world) entries
    (state p.world)

/-- **Linearizability**, from an invariant that accounts for the answers, and
holds along the order. -/
theorem exists_linearization {Inv : List (ℕ × α) → Pool Ω I α σ → Prop}
    (keeps : ∀ entries p m, Inv entries p → ∃ more, Inv (entries ++ more) (p.move h m))
    (accounts : ∀ entries p, Inv entries p → Accounts Spec state Proper pool entries p)
    (initial : Inv [] pool) :
    ∃ order, Linearization h Spec state Proper pool order ∧
      ∀ moves, Inv (order moves) (pool.play h moves) := by
  obtain ⟨order, grows, holds⟩ := exists_order keeps initial
  exact ⟨order, ⟨grows, fun moves => (accounts _ _ (holds moves)).once,
    fun moves => (accounts _ _ (holds moves)).begun,
    fun moves => (accounts _ _ (holds moves)).returned,
    fun moves => (accounts _ _ (holds moves)).legal⟩, holds⟩

end EcfDgii.Linearizability
