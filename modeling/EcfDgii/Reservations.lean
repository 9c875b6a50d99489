import EcfDgii.Submission
import EcfDgii.Traces

/-!
The reservations of `DbIdempotencyStore`.

`reserveOrGet` is a SELECT followed by one of four statements that may give the
key to the caller: an INSERT, which the primary key guards; the reclaim of an
expired lease, which its WHERE clause guards; and the two renewals of a record
that failed, which nothing guards.  `ReserveAsks` says what a call may ask after
what it has read, and `reserveOrGet_follows` what each result shows of its log.

A key is held while its record is Processing.  `HeldSince` is what the
statements of other calls keep, as long as none renews the record and the lease
has not expired; under it no statement gives the key away (`not_acquires`).
-/

set_option autoImplicit false

namespace EcfDgii.Reservations

open EcfDgii.Documents EcfDgii.Tables EcfDgii.Programs EcfDgii.Execution EcfDgii.Engine
open EcfDgii.Submission EcfDgii.Traces

variable {ext : Externals} {w : World} {i : Input} {r : Request} {log : Log}
  {key hash worker : String} {since : ℕ} {records : List IdempotencyRecord}

/-! ## What a call asks -/

/-- A call has read the record of its key. -/
def Fetched (key : String) (record : IdempotencyRecord) (expired : Bool) (log : Log) : Prop :=
  (⟨.idempotency (.fetch key),
    (.ok (some (record, expired)) : Except String (Option (IdempotencyRecord × Bool)))⟩ :
      Event Api) ∈ log

theorem Fetched.append {record : IdempotencyRecord} {expired : Bool}
    (h : Fetched key record expired log) (e : Event Api) :
    Fetched key record expired (log ++ [e]) :=
  List.mem_append_left _ h

/-- The events that give a key to the caller. -/
inductive Acquires (key : String) : Event Api → Prop
  | renewWithHash {hash worker : String} :
      Acquires key ⟨.idempotency (.renewWithHash key hash worker), (.ok () : Except String Unit)⟩
  | renew {worker : String} :
      Acquires key ⟨.idempotency (.renew key worker), (.ok () : Except String Unit)⟩
  | reclaim {worker : String} :
      Acquires key ⟨.idempotency (.reclaim key worker), (.ok true : Except String Bool)⟩
  | insert {hash worker : String} :
      Acquires key ⟨.idempotency (.insert key hash worker), (.ok true : Except String Bool)⟩

/-- What `reserveOrGet` asks of the store after what it has read. -/
inductive ReserveAsks (key hash worker : String) (log : Log) : IdempotencyStatement → Prop
  | fetch : ReserveAsks key hash worker log (.fetch key)
  | documentState (id : String) : ReserveAsks key hash worker log (.documentState id)
  | renewWithHash {record : IdempotencyRecord} {expired : Bool}
      (read : Fetched key record expired log) (other : record.payloadHash ≠ hash) :
      ReserveAsks key hash worker log (.renewWithHash key hash worker)
  | renew {record : IdempotencyRecord} {expired : Bool} (read : Fetched key record expired log)
      (same : record.payloadHash = hash) (completed : record.status = "Completed") :
      ReserveAsks key hash worker log (.renew key worker)
  | reclaim {record : IdempotencyRecord} {expired : Bool} (read : Fetched key record expired log)
      (same : record.payloadHash = hash) (processing : record.status = "Processing") :
      ReserveAsks key hash worker log (.reclaim key worker)
  | insert : ReserveAsks key hash worker log (.insert key hash worker)

/-- What a result of `reserveOrGet` shows of the log it was reached in. -/
def Shows (key hash : String) (log : Log) : Reservation → Prop
  | .reserved => ∃ b e, log = b ++ [e] ∧ Acquires key e
  | .alreadyProcessing => True
  | .payloadMismatch => ∃ record expired, Fetched key record expired log ∧
      record.payloadHash ≠ hash
  | .alreadyCompleted statusCode contentType body => ∃ record expired,
      Fetched key record expired log ∧ record.payloadHash = hash ∧
      record.status = "Completed" ∧ record.statusCode = statusCode ∧
      record.contentType = contentType ∧ record.responseBody = body

section Follows

variable {permits : Log → Request → Prop}

/-- A question about the document of a stored response keeps what was read. -/
theorem isUnderlyingDocumentRejected_follows {P : Log → Prop}
    (allowed : ∀ log id, permits log (.idempotency (.documentState id)))
    (kept : ∀ log e, P log → P (log ++ [e])) (holds : P log) (responseBody : String) :
    (isUnderlyingDocumentRejected ext responseBody).Follows (.logging permits)
      (fun b _ => P b) (fun _ _ => True) log := by
  unfold isUnderlyingDocumentRejected
  split
  · exact holds
  · refine (follows_logging_bind (I := Api) _ _).mpr ⟨allowed log _, fun x => ?_⟩
    have holds := kept log ⟨.idempotency (.documentState _), x⟩ holds
    split <;> exact holds

/-- A renewal gives the key unless it fails. -/
theorem renewing_follows {statement : IdempotencyStatement}
    (allowed : permits log (.idempotency statement))
    {read : statement.Reply → Except String Unit}
    (acquires : ∀ x, read x = .ok () → Acquires key ⟨.idempotency statement, x⟩) :
    (ask (.idempotency statement) >>= fun x => .raise (read x) >>= fun _ => pure .reserved :
      Procedure Reservation).Follows (.logging permits) (Shows key hash) (fun _ _ => True) log := by
  refine (follows_logging_bind (I := Api) _ _).mpr ⟨allowed, fun x => ?_⟩
  refine (Program.follows_raise_bind _ _).mpr ⟨fun u ok => ?_, fun _ _ => trivial⟩
  exact ⟨log, _, rfl, acquires x ok⟩

/-- A guarded statement says whether it gave the key. -/
theorem acquiring_follows {statement : IdempotencyStatement}
    (allowed : permits log (.idempotency statement))
    {read : statement.Reply → Except String Bool}
    (acquires : ∀ x, read x = .ok true → Acquires key ⟨.idempotency statement, x⟩) :
    (ask (.idempotency statement) >>= fun x => .raise (read x) >>= fun got =>
      if got then pure .reserved else pure .alreadyProcessing : Procedure Reservation).Follows
        (.logging permits) (Shows key hash) (fun _ _ => True) log := by
  refine (follows_logging_bind (I := Api) _ _).mpr ⟨allowed, fun x => ?_⟩
  refine (Program.follows_raise_bind _ _).mpr ⟨fun got ok => ?_, fun _ _ => trivial⟩
  refine .ite (fun yes => ?_) fun _ => trivial
  exact ⟨log, _, rfl, acquires x (yes ▸ ok)⟩

/-- **What `reserveOrGet` asks, and what its result shows.** -/
theorem reserveOrGet_follows
    (allowed : ∀ log statement, ReserveAsks key hash worker log statement →
      permits log (.idempotency statement)) :
    (reserveOrGet ext key hash worker).Follows (.logging permits) (Shows key hash)
      (fun _ _ => True) log := by
  unfold reserveOrGet
  refine (follows_logging_bind (I := Api) _ _).mpr ⟨allowed _ _ .fetch, ?_⟩
  intro (x : Except String (Option (IdempotencyRecord × Bool)))
  refine (Program.follows_raise_bind _ _).mpr ⟨?_, fun _ _ => trivial⟩
  rintro (_ | ⟨record, expired⟩) rfl
  · refine acquiring_follows (allowed _ _ .insert) fun x ok => ?_
    rw [show x = .ok true from ok]
    exact .insert
  · have read : Fetched key record expired (log ++ [⟨.idempotency (.fetch key),
        (.ok (some (record, expired)) : Except String (Option (IdempotencyRecord × Bool)))⟩]) :=
      List.mem_append_right _ (List.mem_singleton_self _)
    generalize log ++ [_] = a at read
    have rejected : (isUnderlyingDocumentRejected ext record.responseBody).Follows
        (.logging permits) (fun b _ => Fetched key record expired b) (fun _ _ => True) a :=
      isUnderlyingDocumentRejected_follows (fun _ id => allowed _ _ (.documentState id))
        (fun _ e h => h.append e) read _
    unfold reserveExisting
    refine .ite (fun other => ?_) fun same => .ite (fun completed => ?_) fun _ =>
      .ite (fun ⟨processing, _⟩ => ?_) fun _ => trivial
    · refine Program.Follows.bind (M := fun b _ => Fetched key record expired b)
        (.ite (fun _ => read) fun _ => rejected) fun b failed read => ?_
      refine .ite (fun _ => ?_) fun _ => ⟨record, expired, read, other⟩
      refine renewing_follows (allowed _ _ (.renewWithHash read other)) fun x ok => ?_
      rw [show x = .ok () from ok]
      exact .renewWithHash
    · refine Program.Follows.bind (M := fun b _ => Fetched key record expired b)
        (.ite (fun _ => rejected.bind fun _ _ h => h) fun _ => read) fun b stands read => ?_
      have same := Classical.not_not.mp same
      refine .ite (fun _ => ⟨record, expired, read, same, completed, rfl, rfl, rfl⟩) fun _ => ?_
      refine renewing_follows (allowed _ _ (.renew read same completed)) fun x ok => ?_
      rw [show x = .ok () from ok]
      exact .renew
    · refine acquiring_follows
        (allowed _ _ (.reclaim read (Classical.not_not.mp same) processing)) fun x ok => ?_
      rw [show x = .ok true from ok]
      exact .reclaim

end Follows

/-! ## What the statements do -/

/-- Only idempotency statements touch the records. -/
theorem answer_idempotency (outside : ∀ statement, r ≠ .idempotency statement) :
    ((host ext).answer i w r).2.idempotency = w.idempotency := by
  cases r with
  | idempotency statement => exact absurd rfl (outside statement)
  | saveChanges writes => simp only [host, answerAt]; split <;> rfl
  | getNextEncf scope tipo => simp only [host, answerAt]; split <;> rfl
  | releaseUnusedEncf scope tipo encf => simp only [host, answerAt]; split <;> rfl
  | _ => rfl

/-- The clock of a world after a request. -/
theorem answer_clock (ext : Externals) (i : Input) (w : World) (r : Request) :
    ((host ext).answer i w r).2.clock = w.clock + i.elapsed := by
  cases r with
  | idempotency statement =>
    cases statement <;> simp only [host, answerAt, idempotencyAnswer] <;> repeat' split
    all_goals rfl
  | saveChanges writes => simp only [host, answerAt]; split <;> rfl
  | getNextEncf scope tipo => simp only [host, answerAt]; split <;> rfl
  | releaseUnusedEncf scope tipo encf => simp only [host, answerAt]; split <;> rfl
  | _ => rfl

/-- The primary key of the records. -/
def PrimaryKey (records : List IdempotencyRecord) : Prop := (records.map (·.key)).Nodup
  deriving Decidable

/-- The key is Processing, under a lease that began at a time or later. -/
def HeldSince (key : String) (since : ℕ) (records : List IdempotencyRecord) : Prop :=
  ∃ r ∈ records, r.key = key ∧ r.status = "Processing" ∧ since ≤ r.createdAt

/-- The key whose reservation a request ends. -/
def settledKey : Request → Option String
  | .idempotency (.complete key ..) => some key
  | .idempotency (.release key) => some key
  | _ => none

/-- The key whose record a request renews, whoever holds it. -/
def renewedKey : Request → Option String
  | .idempotency (.renew key _) => some key
  | .idempotency (.renewWithHash key ..) => some key
  | _ => none

/-- A request that runs ends the reservation of a key. -/
def Settles (key : String) (i : Input) (r : Request) : Prop :=
  settledKey r = some key ∧ i.databaseError = none
  deriving Decidable

/-- A request that runs renews the record of a key. -/
def Renews (key : String) (i : Input) (r : Request) : Prop :=
  renewedKey r = some key ∧ i.databaseError = none
  deriving Decidable

/-- The record of the key is there, and nobody holds it under a lease. -/
def Renewable (key : String) (time : ℕ) (records : List IdempotencyRecord) : Prop :=
  ∃ r ∈ records, r.key = key ∧ ¬ (r.status = "Processing" ∧ time ≤ r.createdAt + lease)
  deriving Decidable

theorem mem_onRecord {change : IdempotencyRecord → IdempotencyRecord} {row : IdempotencyRecord}
    (here : row ∈ onRecord key change records) :
    row ∈ records ∨ ∃ old ∈ records, old.key = key ∧ row = change old := by
  obtain ⟨old, member, rfl⟩ := List.mem_map.mp here
  by_cases named : old.key = key
  · exact .inr ⟨old, member, named, if_pos named⟩
  · exact .inl ((if_neg named).symm ▸ member)

theorem map_key_onRecord (change : IdempotencyRecord → IdempotencyRecord)
    (kept : ∀ r, (change r).key = r.key) :
    (onRecord key change records).map (·.key) = records.map (·.key) := by
  rw [onRecord, List.map_map]
  refine List.map_congr_left fun r _ => ?_
  rw [Function.comp]
  split
  · exact kept r
  · rfl

/-- The statements keep the primary key. -/
theorem PrimaryKey.answer (unique : PrimaryKey w.idempotency) (ext : Externals) (i : Input) (r : Request) :
    PrimaryKey ((host ext).answer i w r).2.idempotency := by
  unfold PrimaryKey at unique ⊢
  by_cases store : ∃ statement, r = .idempotency statement
  · obtain ⟨statement, rfl⟩ := store
    simp only [host, answerAt]
    cases failed : i.databaseError with
    | some e => cases statement <;> simpa only [idempotencyAnswer, failed] using unique
    | none =>
      cases statement with
      | fetch key => exact unique
      | documentState id => exact unique
      | renewWithHash key hash worker =>
        simp only [idempotencyAnswer, failed]
        rw [map_key_onRecord]
        · exact unique
        · exact fun _ => rfl
      | renew key worker =>
        simp only [idempotencyAnswer, failed]
        rw [map_key_onRecord]
        · exact unique
        · exact fun _ => rfl
      | reclaim key worker =>
        simp only [idempotencyAnswer, failed, List.map_map]
        convert unique using 2
        funext r
        dsimp only [Function.comp]
        split <;> rfl
      | insert key hash worker =>
        simp only [idempotencyAnswer, failed]
        split
        · exact unique
        · next absent =>
          rw [List.map_append, List.nodup_append]
          refine ⟨unique, List.nodup_singleton _, ?_⟩
          rintro k member _ last rfl
          rw [List.map_singleton, List.mem_singleton] at last
          obtain ⟨r, here, same⟩ := List.mem_map.mp member
          exact absent (List.any_eq_true.mpr ⟨r, here, decide_eq_true (same.trans last)⟩)
      | complete key code contentType body =>
        simp only [idempotencyAnswer, failed]
        rwa [map_key_onRecord]
        intro r
        split <;> rfl
      | release key =>
        simp only [idempotencyAnswer, failed]
        exact unique.sublist (List.filter_sublist.map _)
  · rwa [answer_idempotency (not_exists.mp store)]

/-- A move of any pool keeps the primary key. -/
theorem PrimaryKey.move {Ω α : Type} {p : Pool Ω Api α World}
    (unique : PrimaryKey p.world.idempotency) (ext : Externals) (m : Move Input) :
    PrimaryKey (p.move (host ext) m).world.idempotency := by
  rcases Pool.move_world (host ext) p m with same | ⟨t, i, r, next, -, -, same⟩
  · rwa [same]
  · rw [same]
    exact unique.answer ext i r

/-- The record of a key is one. -/
theorem PrimaryKey.same (unique : PrimaryKey records) {r r' : IdempotencyRecord}
    (h : r ∈ records) (h' : r' ∈ records) (same : r.key = r'.key) : r = r' :=
  List.inj_on_of_nodup_map unique h h' same

/-- What is held under a lease is not renewable. -/
theorem HeldSince.not_renewable {time : ℕ} (held : HeldSince key since records)
    (unique : PrimaryKey records) (within : time ≤ since + lease) : ¬ Renewable key time records := by
  rintro ⟨r, here, named, free⟩
  obtain ⟨r', here', named', processing, late⟩ := held
  obtain rfl := unique.same here here' (named.trans named'.symm)
  exact free ⟨processing, by omega⟩

/-- A statement that changes rows keeps a key held, if it leaves that row
Processing. -/
theorem HeldSince.map (held : HeldSince key since records)
    {change : IdempotencyRecord → IdempotencyRecord}
    (kept : ∀ r, r.key = key → r.status = "Processing" → since ≤ r.createdAt →
      (change r).key = key ∧ (change r).status = "Processing" ∧ since ≤ (change r).createdAt) :
    HeldSince key since (records.map change) := by
  obtain ⟨r, here, named, processing, late⟩ := held
  exact ⟨change r, List.mem_map_of_mem here, kept r named processing late⟩

/-- A statement on the row of another key. -/
theorem HeldSince.onRecord {k : String} (held : HeldSince key since records) (other : k ≠ key)
    (change : IdempotencyRecord → IdempotencyRecord) :
    HeldSince key since (onRecord k change records) :=
  held.map fun r named processing late => by
    rw [if_neg (named ▸ other.symm)]
    exact ⟨named, processing, late⟩

/-- **What others keep.** A key stays held through a request that neither
settles it nor renews it while it is held, until the lease expires. -/
theorem HeldSince.answer (held : HeldSince key since w.idempotency)
    (unique : PrimaryKey w.idempotency)
    (within : w.clock + i.elapsed ≤ since + lease) (unsettled : ¬ Settles key i r)
    (renewals : Renews key i r → Renewable key (w.clock + i.elapsed) w.idempotency) :
    HeldSince key since ((host ext).answer i w r).2.idempotency := by
  have unrenewed : ¬ Renews key i r := fun h => held.not_renewable unique within (renewals h)
  by_cases store : ∃ statement, r = .idempotency statement
  · obtain ⟨statement, rfl⟩ := store
    simp only [host, answerAt]
    cases failed : i.databaseError with
    | some e => cases statement <;> simpa only [idempotencyAnswer, failed] using held
    | none =>
      cases statement with
      | fetch k => exact held
      | documentState id => exact held
      | renewWithHash k hash worker =>
        simp only [idempotencyAnswer, failed]
        exact held.onRecord (fun same => unrenewed ⟨congrArg some same, failed⟩) _
      | renew k worker =>
        simp only [idempotencyAnswer, failed]
        exact held.onRecord (fun same => unrenewed ⟨congrArg some same, failed⟩) _
      | reclaim k worker =>
        simp only [idempotencyAnswer, failed]
        refine held.map fun r named processing late => ?_
        split
        · next expired =>
          simp only [Bool.and_eq_true, decide_eq_true_eq] at expired
          exact ⟨named, processing, by dsimp only; omega⟩
        · exact ⟨named, processing, late⟩
      | insert k hash worker =>
        simp only [idempotencyAnswer, failed]
        split
        · exact held
        · obtain ⟨r, here, rest⟩ := held
          exact ⟨r, List.mem_append_left _ here, rest⟩
      | complete k code contentType body =>
        simp only [idempotencyAnswer, failed]
        exact held.onRecord (fun same => unsettled ⟨congrArg some same, failed⟩) _
      | release k =>
        have other : key ≠ k := fun same => unsettled ⟨congrArg some same.symm, failed⟩
        simp only [idempotencyAnswer, failed]
        obtain ⟨r, here, named, rest⟩ := held
        refine ⟨r, List.mem_filter.mpr ⟨here, ?_⟩, named, rest⟩
        simp [named, other]
  · rwa [answer_idempotency (not_exists.mp store)]

/-- What a request that gives a key away has found: it renews the record, it
reclaims it past its lease, or it inserts it where there was none. -/
inductive Grant (key : String) (i : Input) (time : ℕ) (records : List IdempotencyRecord) :
    Request → Prop
  | renewal {r : Request} (renews : Renews key i r) : Grant key i time records r
  | reclaim {worker : String} {row : IdempotencyRecord} (here : row ∈ records)
      (named : row.key = key) (processing : row.status = "Processing")
      (expired : row.createdAt + lease < time) (runs : i.databaseError = none) :
      Grant key i time records (.idempotency (.reclaim key worker))
  | insert {hash worker : String} (absent : ∀ row ∈ records, row.key ≠ key)
      (runs : i.databaseError = none) :
      Grant key i time records (.idempotency (.insert key hash worker))

theorem Acquires.grant (acquires : Acquires key ⟨r, ((host ext).answer i w r).1⟩) :
    Grant key i (w.clock + i.elapsed) w.idempotency r := by
  generalize answered : ((host ext).answer i w r).1 = x at acquires
  cases failed : i.databaseError with
  | some e =>
    cases acquires <;> simp [host, answerAt, idempotencyAnswer, failed] at answered
  | none =>
    cases acquires with
    | renewWithHash => exact .renewal ⟨rfl, failed⟩
    | renew => exact .renewal ⟨rfl, failed⟩
    | reclaim =>
      simp only [host, answerAt, idempotencyAnswer, failed] at answered
      obtain ⟨row, here, expired⟩ := List.any_eq_true.mp (Except.ok.inj answered)
      simp only [Bool.and_eq_true, decide_eq_true_eq] at expired
      exact .reclaim here expired.1.1 expired.1.2 expired.2 failed
    | insert =>
      refine .insert (fun row here named => ?_) failed
      have present : w.idempotency.any (fun r => decide (r.key = key)) = true :=
        List.any_eq_true.mpr ⟨row, here, decide_eq_true named⟩
      simp only [host, answerAt, idempotencyAnswer, failed, present, if_true] at answered
      cases answered

/-- **Nobody else gets it.** While a key is held, and its lease has not expired,
no request gives it away. -/
theorem HeldSince.not_acquires (held : HeldSince key since w.idempotency)
    (unique : PrimaryKey w.idempotency) (within : w.clock + i.elapsed ≤ since + lease)
    (renewals : Renews key i r → Renewable key (w.clock + i.elapsed) w.idempotency) :
    ¬ Acquires key ⟨r, ((host ext).answer i w r).1⟩ := by
  intro acquires
  obtain ⟨row, here, named, processing, late⟩ := id held
  cases acquires.grant with
  | renewal renews => exact held.not_renewable unique within (renewals renews)
  | reclaim member same processing expired runs =>
    obtain rfl := unique.same here member (named.trans same.symm)
    omega
  | insert absent runs => exact absent row here named

/-- **Who gets a key holds it**, from the time of the statement; a renewal needs
the record it renews to be there. -/
theorem Acquires.held (acquires : Acquires key ⟨r, ((host ext).answer i w r).1⟩)
    (renewals : Renews key i r → ∃ row ∈ w.idempotency, row.key = key) :
    HeldSince key (w.clock + i.elapsed) ((host ext).answer i w r).2.idempotency := by
  cases acquires.grant with
  | renewal renews =>
    obtain ⟨row, here, named⟩ := renewals renews
    generalize ((host ext).answer i w r).1 = x at acquires
    cases acquires with
    | renewWithHash =>
      simp only [host, answerAt, idempotencyAnswer, renews.2]
      refine ⟨_, List.mem_map_of_mem here, ?_⟩
      rw [if_pos named]
      exact ⟨named, rfl, le_refl _⟩
    | renew =>
      simp only [host, answerAt, idempotencyAnswer, renews.2]
      refine ⟨_, List.mem_map_of_mem here, ?_⟩
      rw [if_pos named]
      exact ⟨named, rfl, le_refl _⟩
    | reclaim => cases renews.1
    | insert => cases renews.1
  | reclaim here named processing expired runs =>
    simp only [host, answerAt, idempotencyAnswer, runs]
    refine ⟨_, List.mem_map_of_mem here, ?_⟩
    rw [if_pos (by simp [named, processing, expired])]
    exact ⟨named, processing, le_refl _⟩
  | insert absent runs =>
    have missing : ¬ w.idempotency.any (fun r => decide (r.key = key)) = true := fun present => by
      obtain ⟨row, here, named⟩ := List.any_eq_true.mp present
      exact absent row here (of_decide_eq_true named)
    simp only [host, answerAt, idempotencyAnswer, runs, if_neg missing]
    exact ⟨_, List.mem_append_right _ (List.mem_singleton_self _), rfl, rfl, le_refl _⟩

/-- **Where completed records come from.** A record that is Completed after a
statement was so before, or the statement completed a record of its key that was
Processing. -/
theorem completed_after {statement : IdempotencyStatement} {row : IdempotencyRecord}
    (here : row ∈ ((host ext).answer i w (.idempotency statement)).2.idempotency)
    (completed : row.status = "Completed") :
    row ∈ w.idempotency ∨
      statement = .complete row.key row.statusCode row.contentType row.responseBody ∧
        i.databaseError = none ∧
        ∃ old ∈ w.idempotency, old.key = row.key ∧ old.payloadHash = row.payloadHash ∧
          old.status = "Processing" := by
  simp only [host, answerAt] at here
  cases failed : i.databaseError with
  | some e =>
    left
    cases statement <;> simpa only [idempotencyAnswer, failed] using here
  | none =>
    cases statement with
    | fetch key => exact .inl here
    | documentState id => exact .inl here
    | renewWithHash key hash worker =>
      simp only [idempotencyAnswer, failed] at here
      rcases mem_onRecord here with same | ⟨old, member, named, rfl⟩
      · exact .inl same
      · exact absurd (show "Processing" = "Completed" from completed) (by decide)
    | renew key worker =>
      simp only [idempotencyAnswer, failed] at here
      rcases mem_onRecord here with same | ⟨old, member, named, rfl⟩
      · exact .inl same
      · exact absurd (show "Processing" = "Completed" from completed) (by decide)
    | reclaim key worker =>
      simp only [idempotencyAnswer, failed] at here
      obtain ⟨old, member, rfl⟩ := List.mem_map.mp here
      split at completed
      · next expired =>
        simp only [Bool.and_eq_true, decide_eq_true_eq] at expired
        exact absurd (expired.1.2.symm.trans completed) (by decide)
      · next other => exact .inl ((if_neg other).symm ▸ member)
    | insert key hash worker =>
      simp only [idempotencyAnswer, failed] at here
      split at here
      · exact .inl here
      · rcases List.mem_append.mp here with old | new
        · exact .inl old
        · rw [List.mem_singleton.mp new] at completed
          exact absurd (show "Processing" = "Completed" from completed) (by decide)
    | complete key code contentType body =>
      simp only [idempotencyAnswer, failed] at here
      rcases mem_onRecord here with same | ⟨old, member, named, rfl⟩
      · exact .inl same
      · by_cases processing : old.status = "Processing"
        · simp only [if_pos processing]
          exact .inr ⟨named ▸ rfl, trivial, old, member, rfl, rfl, processing⟩
        · simp only [if_neg processing]
          exact .inl member
    | release key =>
      simp only [idempotencyAnswer, failed] at here
      exact .inl (List.mem_filter.mp here).1

/-! ## A call on its own -/

/-- The statements of a reservation delete no record and end no reservation. -/
theorem reserve_records {statement : IdempotencyStatement}
    (asks : ReserveAsks key hash worker log statement) :
    ∃ change added, ((host ext).answer i w (.idempotency statement)).2.idempotency =
        w.idempotency.map change ++ added ∧
      ∀ r, (change r).key = r.key ∧ (r.status = "Processing" → (change r).status = "Processing") := by
  have unchanged : ∃ change added, w.idempotency = w.idempotency.map change ++ added ∧
      ∀ r : IdempotencyRecord, (change r).key = r.key ∧
        (r.status = "Processing" → (change r).status = "Processing") :=
    ⟨id, [], by simp, fun r => ⟨rfl, id⟩⟩
  simp only [host, answerAt]
  cases failed : i.databaseError with
  | some e => cases asks <;> simpa only [idempotencyAnswer, failed] using unchanged
  | none =>
    cases asks with
    | fetch => exact unchanged
    | documentState id => exact unchanged
    | renewWithHash read other =>
      refine ⟨_, [], by simp only [idempotencyAnswer, failed, onRecord, List.append_nil]; rfl, ?_⟩
      intro r
      split
      · exact ⟨rfl, fun _ => rfl⟩
      · exact ⟨rfl, id⟩
    | renew read same completed =>
      refine ⟨_, [], by simp only [idempotencyAnswer, failed, onRecord, List.append_nil]; rfl, ?_⟩
      intro r
      split
      · exact ⟨rfl, fun _ => rfl⟩
      · exact ⟨rfl, id⟩
    | reclaim read same processing =>
      refine ⟨_, [], by simp only [idempotencyAnswer, failed, List.append_nil]; rfl, ?_⟩
      intro r
      split <;> exact ⟨rfl, id⟩
    | insert =>
      simp only [idempotencyAnswer, failed]
      split
      · exact unchanged
      · exact ⟨id, _, by rw [List.map_id], fun r => ⟨rfl, id⟩⟩

/-- What a call has read was in the table. -/
theorem fetched_mem {record : IdempotencyRecord} {expired : Bool}
    (read : Fetched key record expired [⟨r, ((host ext).answer i w r).1⟩]) :
    record ∈ w.idempotency ∧ record.key = key := by
  have same := List.mem_singleton.mp read
  generalize answered : ((host ext).answer i w r).1 = x at same
  cases same
  simp only [host, answerAt, idempotencyAnswer, Input.database] at answered
  split at answered
  · cases answered
  · obtain ⟨found, here, same⟩ := Option.map_eq_some_iff.mp (Except.ok.inj answered)
    cases same
    exact ⟨List.mem_of_find?_eq_some here, of_decide_eq_true (List.find?_some here :)⟩

/-- A call under way: it has answered nobody, what it read is still there, and
once it has the key it holds it. -/
structure Reserving (key : String) (log : Log) (w : World) : Prop where
  silent : answers log = []
  present : ∀ record expired, Fetched key record expired log →
    ∃ row ∈ w.idempotency, row.key = key
  held : ∀ e ∈ log, Acquires key e → HeldSince key 0 w.idempotency

theorem Reserving.step {statement : IdempotencyStatement} (reserving : Reserving key log w)
    (asks : ReserveAsks key hash worker log statement) :
    Reserving key
      (log ++ [⟨.idempotency statement, ((host ext).answer i w (.idempotency statement)).1⟩])
      ((host ext).answer i w (.idempotency statement)).2 := by
  obtain ⟨change, added, records, kept⟩ := reserve_records (i := i) (w := w) asks
  have stays : ∀ row ∈ w.idempotency,
      change row ∈ ((host ext).answer i w (.idempotency statement)).2.idempotency :=
    fun row here => records ▸ List.mem_append_left _ (List.mem_map_of_mem here)
  refine ⟨by rw [answers_append, reserving.silent]; rfl, fun record expired read => ?_,
    fun e member acquires => ?_⟩
  · rcases List.mem_append.mp read with old | new
    · obtain ⟨row, here, named⟩ := reserving.present record expired old
      exact ⟨_, stays row here, (kept row).1.trans named⟩
    · obtain ⟨here, named⟩ := fetched_mem new
      exact ⟨_, stays record here, (kept record).1.trans named⟩
  · rcases List.mem_append.mp member with old | new
    · obtain ⟨row, here, named, processing, -⟩ := reserving.held e old acquires
      exact ⟨_, stays row here, (kept row).1.trans named, (kept row).2 processing, Nat.zero_le _⟩
    · rw [List.mem_singleton.mp new] at acquires
      obtain ⟨row, here, named, processing, -⟩ := acquires.held fun renews => by
        cases asks with
        | renewWithHash read other => exact reserving.present _ _ read
        | renew read same completed => exact reserving.present _ _ read
        | _ => cases renews.1
      exact ⟨row, here, named, processing, Nat.zero_le _⟩

/-- A call that returns Reserved has left the key Processing, and has answered
nobody. -/
theorem reserveOrGet_reserved {inputs : ℕ → Option Input} {w₁ : World} {log₁ : Log}
    (reserved : (host ext).run inputs w [] (reserveOrGet ext key hash worker) =
      ⟨.returned .reserved, log₁, w₁⟩) :
    answers log₁ = [] ∧ HeldSince key 0 w₁.idempotency := by
  have follows : (reserveOrGet ext key hash worker).Follows
      (.logging fun (b : Log) r => ∃ statement, r = .idempotency statement ∧
        ReserveAsks key hash worker b statement) _ _ [] :=
    reserveOrGet_follows fun b statement asks => ⟨statement, rfl, asks⟩
  have step : ∀ b u r i, (∃ statement, r = .idempotency statement ∧
      ReserveAsks key hash worker b statement) → Reserving key b u →
      Reserving key (b ++ [⟨r, ((host ext).answer i u r).1⟩]) ((host ext).answer i u r).2 :=
    fun b u r i ⟨statement, same, asks⟩ reserving => same ▸ reserving.step asks
  have start : Reserving key [] w :=
    ⟨rfl, fun _ _ read => absurd read List.not_mem_nil, fun _ member => absurd member
      List.not_mem_nil⟩
  have run : _ ∧ ((host ext).run inputs w [] (reserveOrGet ext key hash worker)).outcome.Satisfies
      _ _ := Host.run_keeps step follows start
  rw [reserved] at run
  obtain ⟨reserving, b, e, same, acquires⟩ := run
  exact ⟨reserving.silent, reserving.held e (same ▸ by simp) acquires⟩

end EcfDgii.Reservations
