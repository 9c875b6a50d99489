import EcfDgii.DocumentInvariants
import EcfDgii.Reservations

/-!
Who holds an idempotency key (`DbIdempotencyStore`).

A pool of calls of the store, interleaved statement by statement, while other
operations write documents.  A call that returns Reserved should be the only one
until its reservation is completed or released or its lease expires.

The INSERT and the reclaim see to it themselves.  A renewal does not: its UPDATE
names the key and nothing else, so of two calls that read the same failed record
both renew it and both return Reserved.  `reserved_exclusively` is the guarantee
for the schedules in which a renewal still finds the record free.
-/

set_option autoImplicit false

namespace EcfDgii.ExclusiveReservations

open EcfDgii.Documents EcfDgii.Tables EcfDgii.Programs EcfDgii.Execution EcfDgii.Engine
open EcfDgii.Submission EcfDgii.Traces EcfDgii.DocumentInvariants EcfDgii.Reservations

/-- A call of the store, or another operation that writes documents. -/
inductive StoreCall
  | reserveOrGet (key payloadHash workerKeyId : String)
  | complete (key : String) (statusCode : ℕ) (contentType body : String)
  | release (key : String)
  | saveDocuments (writes : List Write)

/-- The call, statement by statement. -/
def StoreCall.program (ext : Externals) : StoreCall → Procedure (Option Reservation)
  | .reserveOrGet key payloadHash workerKeyId => do
    return some (← Submission.reserveOrGet ext key payloadHash workerKeyId)
  | .complete key statusCode contentType body => do
    let _ ← ask (.idempotency (.complete key statusCode contentType body))
    return none
  | .release key => do
    let _ ← ask (.idempotency (.release key))
    return none
  | .saveDocuments writes => do
    let _ ← ask (.saveChanges writes)
    return none

/-- The call reserves a key. -/
def StoreCall.isFor (key : String) : StoreCall → Bool
  | .reserveOrGet key' _ _ => key' = key
  | _ => false

abbrev Calls := Pool StoreCall Api (Option Reservation) World

variable {ext : Externals} {key : String} {since : ℕ} {p : Calls} {m : Move Input}
  {operations : ℕ → StoreCall} {w : World} {moves : List (Move Input)}

/-- The calls at their start. -/
def calls (ext : Externals) (operations : ℕ → StoreCall) (w : World) : Calls :=
  Pool.start (StoreCall.program ext) operations w

/-- The move lets a call return Reserved for the key. -/
def Reserves (ext : Externals) (key : String) (p : Calls) : Move Input → Prop
  | .kill _ => False
  | .step t i =>
    (p.thread t).operation.isFor key = true ∧ (p.thread t).result = none ∧
      ((p.move (host ext) (.step t i)).thread t).result = some (some .reserved)

instance (ext : Externals) (key : String) (p : Calls) : DecidablePred (Reserves ext key p)
  | .kill _ => .isFalse id
  | .step _ _ => inferInstanceAs (Decidable (_ ∧ _ ∧ _ = some (some Reservation.reserved)))

/-- The move does not end the reservation of the key. -/
def LeavesReserved (key : String) (p : Calls) (m : Move Input) : Prop :=
  p.Next (fun i r => ¬ Settles key i r) m
  deriving Decidable

/-- A renewal finds the record of the key there, and free. -/
def RenewsFree (key : String) (p : Calls) (m : Move Input) : Prop :=
  p.Next (fun i r => Renews key i r →
    Renewable key (p.world.clock + i.elapsed) p.world.idempotency) m
  deriving Decidable

/-- **Exclusive.** After a call has returned Reserved, no other does while the
reservation is neither completed nor released and its lease runs. -/
def Exclusive (ext : Externals) (key : String) (start : Calls) (moves : List (Move Input)) :
    Prop :=
  ∀ first m between m' rest, moves = first ++ m :: (between ++ m' :: rest) →
    let p := start.play (host ext) first
    let q := (p.move (host ext) m).play (host ext) between
    Reserves ext key p m →
    (p.move (host ext) m).Meets (host ext) (LeavesReserved key) between →
    (q.move (host ext) m').world.clock ≤ (p.move (host ext) m).world.clock + lease →
    ¬ Reserves ext key q m'

/-! ## One move -/

/-- What a call asks of the store. -/
def CallAsks : StoreCall → Log → Request → Prop
  | .reserveOrGet key payloadHash workerKeyId, log, r =>
    ∃ statement, r = .idempotency statement ∧ ReserveAsks key payloadHash workerKeyId log statement
  | _, _, _ => True

/-- What a call's result shows of its log. -/
def CallShows : StoreCall → Log → Option Reservation → Prop
  | .reserveOrGet key payloadHash _, log, some reservation => Shows key payloadHash log reservation
  | .reserveOrGet .., _, none => False
  | _, _, _ => True

theorem program_follows (call : StoreCall) :
    (call.program ext).Follows (.logging (CallAsks call)) (CallShows call) (fun _ _ => True) [] := by
  cases call with
  | reserveOrGet key payloadHash workerKeyId =>
    refine (reserveOrGet_follows fun log statement asks => ⟨statement, rfl, asks⟩).bind ?_
    exact fun log reservation shows => shows
  | complete key code contentType body => exact ⟨trivial, fun _ _ _ => trivial⟩
  | release key => exact ⟨trivial, fun _ _ _ => trivial⟩
  | saveDocuments writes => exact ⟨trivial, fun _ _ _ => trivial⟩

/-- Every call keeps to its permissions, and will show what its result says. -/
def Verified (p : Calls) : Prop :=
  ∀ t, (p.thread t).rest.Follows (.logging (CallAsks (p.thread t).operation))
    (CallShows (p.thread t).operation) (fun _ _ => True) (p.thread t).log

theorem verified_play (ext : Externals) (operations : ℕ → StoreCall) (w : World) (moves : List (Move Input)) :
    Verified ((calls ext operations w).play (host ext) moves) :=
  fun t => Pool.follows_play program_follows moves t

/-- A call returns Reserved with the statement that gave it the key. -/
theorem Reserves.acquires {t : ℕ} {i : Input} (reserves : Reserves ext key p (.step t i))
    (verified : Verified p) :
    ∃ r next, (p.thread t).rest = .ask r next ∧
      Acquires key ⟨r, ((host ext).answer i p.world r).1⟩ := by
  obtain ⟨isFor, before, after⟩ := reserves
  have follows := verified t
  cases rest : (p.thread t).rest with
  | done a => simp [Thread.result, rest] at before
  | throw e =>
    have idle : ¬ (p.thread t).Running := fun ⟨r, next, eq⟩ => by rw [rest] at eq; cases eq
    rw [Pool.move_idle idle, before] at after
    cases after
  | ask r next =>
    refine ⟨r, next, rfl, ?_⟩
    rw [Pool.move_step rest] at after
    simp only [Function.update_self] at after
    rw [rest, follows_logging_ask] at follows
    have shown := follows.2 ((host ext).answer i p.world r).1
    cases returned : next ((host ext).answer i p.world r).1 with
    | throw e => simp [Thread.result, returned] at after
    | ask r' next' => simp [Thread.result, returned] at after
    | done a =>
      simp only [Thread.result, returned, Option.some.injEq] at after
      subst after
      rw [returned] at shown
      cases call : (p.thread t).operation with
      | reserveOrGet key' hash worker =>
        rw [call] at shown isFor
        obtain ⟨b, e, same, acquires⟩ := shown
        obtain ⟨-, same⟩ := List.append_inj' same rfl
        rw [← of_decide_eq_true isFor, List.singleton_inj.mp same]
        exact acquires
      | complete => rw [call] at isFor; cases isFor
      | release => rw [call] at isFor; cases isFor
      | saveDocuments => rw [call] at isFor; cases isFor

/-- The primary key holds in every pool a schedule reaches. -/
theorem primaryKey_play (unique : PrimaryKey p.world.idempotency) (moves : List (Move Input)) :
    PrimaryKey (p.play (host ext) moves).world.idempotency := by
  exact Pool.play_invariant (J := fun p => PrimaryKey p.world.idempotency)
    (fun p m unique _ => unique.move ext m) unique (Pool.meets_true p moves)

/-- The key is held until the lease expires. -/
def HeldWithin (key : String) (since : ℕ) (p : Calls) : Prop :=
  PrimaryKey p.world.idempotency ∧
    (p.world.clock ≤ since + lease → HeldSince key since p.world.idempotency)

/-- **Step.** A move that leaves the key reserved, and renews it only when it is
free, keeps it held. -/
theorem HeldWithin.move (held : HeldWithin key since p) (leaves : LeavesReserved key p m)
    (renews : RenewsFree key p m) : HeldWithin key since (p.move (host ext) m) := by
  obtain ⟨unique, held⟩ := held
  rcases Pool.move_world (host ext) p m with same | ⟨t, i, r, next, rfl, rest, same⟩
  · rw [HeldWithin, same]
    exact ⟨unique, held⟩
  · rw [HeldWithin, same]
    refine ⟨unique.answer ext i r, fun within => ?_⟩
    rw [answer_clock] at within
    exact (held (by omega)).answer unique within (Pool.Next.ask leaves rest)
      (Pool.Next.ask renews rest)

/-- Who returns Reserved holds the key from then on. -/
theorem Reserves.held (reserves : Reserves ext key p m) (verified : Verified p)
    (unique : PrimaryKey p.world.idempotency) (renews : RenewsFree key p m) :
    HeldWithin key (p.move (host ext) m).world.clock (p.move (host ext) m) := by
  cases m with
  | kill t => exact reserves.elim
  | step t i =>
    obtain ⟨r, next, rest, acquires⟩ := reserves.acquires verified
    have held := acquires.held fun renewal => by
      obtain ⟨row, here, named, -⟩ := Pool.Next.ask renews rest renewal
      exact ⟨row, here, named⟩
    have world : (p.move (host ext) (.step t i)).world = ((host ext).answer i p.world r).2 := by
      rw [Pool.move_step rest]
    rw [HeldWithin, world, answer_clock]
    exact ⟨unique.answer ext i r, fun _ => held⟩

/-- While the key is held and its lease runs, no call returns Reserved. -/
theorem HeldWithin.not_reserves (held : HeldWithin key since p) (verified : Verified p)
    (renews : RenewsFree key p m) (within : (p.move (host ext) m).world.clock ≤ since + lease) :
    ¬ Reserves ext key p m := by
  intro reserves
  cases m with
  | kill t => exact reserves
  | step t i =>
    obtain ⟨r, next, rest, acquires⟩ := reserves.acquires verified
    rw [Pool.move_step rest, answer_clock] at within
    exact (held.2 (by omega)).not_acquires held.1 within (Pool.Next.ask renews rest) acquires

/-- **Reserved exclusively.** In every schedule of the statements of any number
of calls, from any records, in which every renewal of the key finds its record
there and free, at most one call holds the key. -/
theorem reserved_exclusively (ext : Externals) (key : String) (operations : ℕ → StoreCall)
    (w : World) (moves : List (Move Input)) (unique : PrimaryKey w.idempotency)
    (met : (calls ext operations w).Meets (host ext) (RenewsFree key) moves) :
    Exclusive ext key (calls ext operations w) moves := by
  rintro first m between m' rest rfl p q reserves unsettled within
  obtain ⟨-, renews, met⟩ := Pool.meets_append.mp met
  obtain ⟨free, renews', -⟩ := Pool.meets_append.mp met
  have verified : Verified q := by
    have verified := verified_play ext operations w (first ++ m :: between)
    rwa [Pool.play_append] at verified
  have held : HeldWithin key (p.move (host ext) m).world.clock (p.move (host ext) m) :=
    reserves.held (verified_play ext operations w first) (primaryKey_play unique first) renews
  have still : HeldWithin key (p.move (host ext) m).world.clock q :=
    Pool.play_invariant (fun p m held both => held.move both.1 both.2) held
      (unsettled.and free)
  exact still.not_reserves verified renews' within

/-! ## Two calls that read the same failed record -/

/-- A key whose last attempt was refused. -/
def refusedWorld : World where
  clock := 1700000000000000000
  documents := emptyTable
  sequences := []
  idempotency := [⟨"tenant:key", "worker", "hash", "Completed", 422,
    "application/json; charset=utf-8", "", 1699999990000000000, 1702591990000000000⟩]

/-- Two retries of the refused request. -/
def retries : ℕ → StoreCall := fun _ => .reserveOrGet "tenant:key" "hash" "worker"

theorem reserved_exclusively_refused :
    Exclusive sampleExternals "tenant:key" (calls sampleExternals retries refusedWorld)
      [.step 0 {}, .step 0 {}, .step 1 {}] :=
  reserved_exclusively sampleExternals "tenant:key" retries refusedWorld _ (by decide)
    (by decide +kernel)

/-- Both retries read the record before either renews it, and both renew it. -/
theorem retries_both_reserve :
    ¬ Exclusive sampleExternals "tenant:key" (calls sampleExternals retries refusedWorld)
      [.step 0 {}, .step 1 {}, .step 0 {}, .step 1 {}] := by
  intro exclusive
  refine exclusive [.step 0 {}, .step 1 {}] (.step 0 {}) [] (.step 1 {}) [] rfl ?_ trivial ?_ ?_
  · decide +kernel
  · decide +kernel
  · decide +kernel

end EcfDgii.ExclusiveReservations
