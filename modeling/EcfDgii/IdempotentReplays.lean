import EcfDgii.Machines
import EcfDgii.SettledReservations

/-!
What a client that retries may rely on (`IdempotencyHandler`,
`DbIdempotencyStore`).

Here `reserveOrGet`, `complete` and `release` run as one transaction each, none
fails, and no lease expires.  A `Desk` is the database with the executions under
way; requests arrive, executions finish, documents change and time passes, in
any order.

A key has at most one execution, whose record is Processing and blank
(`Consistent`).  Its 2xx response is replayed as long as its document is not
rejected, and its failure frees the key (`idempotent_replays`).
-/

set_option autoImplicit false

namespace EcfDgii.IdempotentReplays

open EcfDgii.Text EcfDgii.Timestamps EcfDgii.Documents EcfDgii.Tables EcfDgii.Programs
open EcfDgii.Execution EcfDgii.Engine EcfDgii.Submission EcfDgii.Traces
open EcfDgii.DocumentInvariants EcfDgii.Reservations EcfDgii.WrappedOperations EcfDgii.Machines

variable {ext : Externals} {w : World} {log : Log} {key hash worker : String}
  {record : IdempotencyRecord}

/-! ## Transactions -/

/-- A call of the store on its own, in a database that does not fail. -/
def atomically {α : Type} (ext : Externals) (w : World) (p : Procedure α) : Run Api α World :=
  (host ext).run (fun _ => some {}) w [] p

/-- The document a stored response names is rejected. -/
def underlyingRejected (ext : Externals) (w : World) (responseBody : String) : Bool :=
  match storedDocumentId ext responseBody with
  | none => false
  | some id =>
    match (w.documents.rows.find? (·.id = id)).map (·.state) with
    | some state => state = "RejectedByDgii" || state = "SchemaInvalid" || state = "SigningFailed"
    | none => false

/-- One statement of a call on its own. -/
theorem statement_run {α : Type} (r : Request) {k : r.Reply → Procedure α} (x : r.Reply)
    (v : World) (answered : (host ext).answer {} w r = (x, v)) :
    (host ext).run (fun _ => some {}) w log (ask r >>= k) =
      (host ext).run (fun _ => some {}) v (log ++ [⟨r, x⟩]) (k x) := by
  rw [Host.run_perform_bind, answered]

theorem isUnderlyingDocumentRejected_run (w : World) (log : Log) (responseBody : String) :
    ∃ b, (host ext).run (fun _ => some {}) w log (isUnderlyingDocumentRejected ext responseBody) =
      ⟨.returned (underlyingRejected ext w responseBody), b, w⟩ := by
  unfold isUnderlyingDocumentRejected underlyingRejected
  cases storedDocumentId ext responseBody with
  | none => exact ⟨_, rfl⟩
  | some id =>
    dsimp only
    rw [statement_run (.idempotency (.documentState id))
      (.ok ((w.documents.rows.find? (·.id = id)).map (·.state)) :
        Except String (Option String)) w rfl]
    cases (w.documents.rows.find? (·.id = id)).map (·.state) with
    | none => exact ⟨_, rfl⟩
    | some state => exact ⟨_, rfl⟩

/-- The stored attempt failed, at this moment. -/
def failedNow (ext : Externals) (w : World) (record : IdempotencyRecord) : Bool :=
  decide (400 ≤ record.statusCode) || underlyingRejected ext w record.responseBody

/-- The stored result stands, at this moment. -/
def standsNow (ext : Externals) (w : World) (record : IdempotencyRecord) : Bool :=
  decide (200 ≤ record.statusCode ∧ record.statusCode < 300) &&
    !underlyingRejected ext w record.responseBody

theorem failedBefore_run (w : World) (log : Log) (record : IdempotencyRecord) :
    ∃ b, (host ext).run (fun _ => some {}) w log (failedBefore ext record) =
      ⟨.returned (failedNow ext w record), b, w⟩ := by
  unfold failedBefore failedNow
  by_cases failed : 400 ≤ record.statusCode
  · rw [if_pos failed, decide_eq_true failed]
    exact ⟨_, rfl⟩
  · rw [if_neg failed, decide_eq_false failed]
    exact isUnderlyingDocumentRejected_run w log record.responseBody

theorem standsCompleted_run (w : World) (log : Log) (record : IdempotencyRecord) :
    ∃ b, (host ext).run (fun _ => some {}) w log (standsCompleted ext record) =
      ⟨.returned (standsNow ext w record), b, w⟩ := by
  unfold standsCompleted standsNow
  by_cases success : 200 ≤ record.statusCode ∧ record.statusCode < 300
  · obtain ⟨b, run⟩ := isUnderlyingDocumentRejected_run w log record.responseBody
    rw [if_pos success, decide_eq_true success, Host.run_bind, run]
    exact ⟨_, rfl⟩
  · rw [if_neg success, decide_eq_false success]
    exact ⟨_, rfl⟩

/-- What `reserveOrGet` decides about the record of its key, when no lease has
expired. -/
def verdict (ext : Externals) (w : World) (hash : String) :
    Option IdempotencyRecord → Reservation
  | none => .reserved
  | some record =>
    if record.payloadHash ≠ hash then
      if failedNow ext w record then .reserved else .payloadMismatch
    else if record.status = "Completed" then
      if standsNow ext w record then
        .alreadyCompleted record.statusCode record.contentType record.responseBody
      else .reserved
    else .alreadyProcessing

/-- No lease has expired. -/
def LeasesRun (w : World) : Prop :=
  ∀ row ∈ w.idempotency, row.status = "Processing" → w.clock ≤ row.createdAt + lease

instance (w : World) : Decidable (LeasesRun w) :=
  inferInstanceAs (Decidable (∀ row ∈ w.idempotency, row.status = "Processing" →
    w.clock ≤ row.createdAt + lease))

/-- The arrival of a request: `reserveOrGet` at once. -/
def arrival (ext : Externals) (w : World) (key hash worker : String) : Run Api Reservation World :=
  atomically ext w (reserveOrGet ext key hash worker)

/-- The record of an execution under way. -/
structure Blank (key hash : String) (row : IdempotencyRecord) : Prop where
  key : row.key = key
  payloadHash : row.payloadHash = hash
  status : row.status = "Processing"
  statusCode : row.statusCode = 0
  responseBody : row.responseBody = ""

/-- What an arrival leaves of the records. -/
structure Arrived (key hash : String) (reservation : Reservation)
    (records after : List IdempotencyRecord) : Prop where
  others : ∀ row, row.key ≠ key → (row ∈ after ↔ row ∈ records)
  refused : reservation ≠ .reserved → after = records
  reserved : reservation = .reserved → ∃ row ∈ after, Blank key hash row

theorem Arrived.same {reservation : Reservation} {records : List IdempotencyRecord}
    (refused : reservation ≠ .reserved) : Arrived key hash reservation records records :=
  ⟨fun _ _ => Iff.rfl, fun _ => rfl, fun reserved => absurd reserved refused⟩

/-- A renewal of the record of the key. -/
theorem Arrived.renewal {records : List IdempotencyRecord}
    {change : IdempotencyRecord → IdempotencyRecord} (here : record ∈ records)
    (named : record.key = key)
    (changed : Blank key hash (change record))
    (kept : ∀ r, (change r).key = r.key) :
    Arrived key hash .reserved records (onRecord key change records) := by
  refine ⟨fun row other => ⟨fun member => ?_, fun member => ?_⟩, fun h => absurd rfl h, fun _ => ?_⟩
  · rcases mem_onRecord member with same | ⟨old, -, named, rfl⟩
    · exact same
    · exact absurd ((kept old).trans named) other
  · exact List.mem_map.mpr ⟨row, member, if_neg other⟩
  · exact ⟨change record, List.mem_map.mpr ⟨record, here, if_pos named⟩, changed⟩

theorem fetchRecord_some {records : List IdempotencyRecord}
    (found : fetchRecord key records = some record) : record ∈ records ∧ record.key = key :=
  ⟨List.mem_of_find?_eq_some found, of_decide_eq_true (List.find?_some found :)⟩

theorem insert_answer (absent : ∀ row ∈ w.idempotency, row.key ≠ key) :
    (host ext).answer {} w (.idempotency (.insert key hash worker)) =
      (.ok true, { w with idempotency := w.idempotency ++ [⟨key, worker, hash, "Processing", 0,
        "application/json", "", w.clock, w.clock + retention⟩] }) := by
  have missing : ¬ w.idempotency.any (fun r => decide (r.key = key)) = true := fun present => by
    obtain ⟨row, here, named⟩ := List.any_eq_true.mp present
    exact absent row here (of_decide_eq_true named)
  show (if _ then _ else _) = _
  exact if_neg missing

/-- Nothing is reclaimed while the leases run. -/
theorem reclaim_answer (leases : LeasesRun w) :
    (host ext).answer {} w (.idempotency (.reclaim key worker)) = (.ok false, w) := by
  have running : ∀ r ∈ w.idempotency, (decide (r.key = key) && decide (r.status = "Processing") &&
      decide (r.createdAt + lease < w.clock)) = false := by
    intro r here
    by_cases processing : r.status = "Processing"
    · have bound := leases r here processing
      simp [Nat.not_lt.mpr bound]
    · simp [processing]
  have none : (w.idempotency.any fun r => decide (r.key = key) &&
      decide (r.status = "Processing") && decide (r.createdAt + lease < w.clock)) = false :=
    List.any_eq_false.mpr fun r here => by simp only [running r here]; decide
  have unchanged : (w.idempotency.map fun r => if decide (r.key = key) &&
      decide (r.status = "Processing") && decide (r.createdAt + lease < w.clock) then
        { r with createdAt := w.clock, createdByWorkerKeyId := worker } else r) =
      w.idempotency := by
    refine (List.map_congr_left fun r here => ?_).trans (List.map_id _)
    rw [running r here]
    rfl
  show (Except.ok (w.idempotency.any _), { w with idempotency := w.idempotency.map _ }) = _
  exact congrArg₂ (fun got records => (Except.ok got, { w with idempotency := records }))
    none unchanged

/-- **An arrival.** `reserveOrGet` returns its verdict, and leaves the records
accordingly. -/
theorem arrival_run (ext : Externals) (w : World) (key hash worker : String)
    (leases : LeasesRun w) :
    ∃ b v, arrival ext w key hash worker =
        ⟨.returned (verdict ext w hash (fetchRecord key w.idempotency)), b, v⟩ ∧
      v.documents = w.documents ∧ v.clock = w.clock ∧
      Arrived key hash (verdict ext w hash (fetchRecord key w.idempotency)) w.idempotency
        v.idempotency := by
  unfold arrival atomically reserveOrGet
  rw [statement_run (.idempotency (.fetch key)) (.ok ((fetchRecord key w.idempotency).map fun r =>
    (r, IdempotencyRecord.leaseExpired w.clock r)) :
      Except String (Option (IdempotencyRecord × Bool))) w rfl]
  generalize ([] : Log) ++ [_] = log
  cases found : fetchRecord key w.idempotency with
  | none =>
    have absent : ∀ row ∈ w.idempotency, row.key ≠ key := fun row member named =>
      List.find?_eq_none.mp found row member (decide_eq_true named)
    simp only [Option.map_none, Program.raise, Program.bind_done, verdict]
    rw [statement_run (.idempotency (.insert key hash worker)) (.ok true : Except String Bool) _
      (insert_answer absent)]
    refine ⟨_, _, rfl, rfl, rfl, fun row other => ?_, fun other => absurd rfl other, fun _ => ?_⟩
    · refine List.mem_append.trans (or_iff_left fun last => other ?_)
      rw [List.mem_singleton.mp last]
    · exact ⟨_, List.mem_append_right _ (List.mem_singleton_self _), rfl, rfl, rfl, rfl, rfl⟩
  | some record =>
    obtain ⟨here, named⟩ := fetchRecord_some found
    simp only [Option.map_some, Program.raise, Program.bind_done, reserveExisting, verdict]
    by_cases other : record.payloadHash ≠ hash
    · obtain ⟨b, run⟩ := failedBefore_run w log record
      rw [if_pos other, if_pos other, Host.run_bind, run]
      dsimp only
      cases failedNow ext w record with
      | false => exact ⟨b, w, rfl, rfl, rfl, .same (by rintro ⟨⟩)⟩
      | true =>
        simp only [if_true]
        rw [statement_run (.idempotency (.renewWithHash key hash worker)) (.ok () :
          Except String Unit) _ rfl]
        refine ⟨_, _, rfl, rfl, rfl, ?_⟩
        exact .renewal here named ⟨named, rfl, rfl, rfl, rfl⟩ fun _ => rfl
    · rw [if_neg other, if_neg other]
      have same := Classical.not_not.mp other
      by_cases completed : record.status = "Completed"
      · obtain ⟨b, run⟩ := standsCompleted_run w log record
        rw [if_pos completed, if_pos completed, Host.run_bind, run]
        dsimp only
        cases standsNow ext w record with
        | true => exact ⟨b, w, rfl, rfl, rfl, .same (by rintro ⟨⟩)⟩
        | false =>
          simp only [Bool.false_eq_true, if_false]
          rw [statement_run (.idempotency (.renew key worker)) (.ok () : Except String Unit) _ rfl]
          refine ⟨_, _, rfl, rfl, rfl, ?_⟩
          exact .renewal here named ⟨named, same, rfl, rfl, rfl⟩ fun _ => rfl
      · rw [if_neg completed, if_neg completed]
        split
        · rw [statement_run (.idempotency (.reclaim key worker)) (.ok false : Except String Bool) _
            (reclaim_answer leases)]
          exact ⟨_, w, rfl, rfl, rfl, .same (by rintro ⟨⟩)⟩
        · exact ⟨_, w, rfl, rfl, rfl, .same (by rintro ⟨⟩)⟩

/-! ## The end of an execution -/

/-- The response of an ending. -/
def responseOf : Ending → HttpResponse
  | .answer response => response
  | .answerInTry response _ => response

/-- What the handler does when the operation has ended, or thrown. -/
def conclude (ext : Externals) (key : String) : Except String Ending → Procedure Unit
  | .ok ending => .tryCatch (ending.deliver (idempotentCallback ext key)) fun _ => do
    let _ ← ask (.idempotency (.release key))
    .throw "bad_function_call"
  | .error _ => do
    let _ ← ask (.idempotency (.release key))
    .throw "bad_function_call"

/-- An execution works, and is concluded. -/
theorem executeReserved_eq (op : IdempotentOperation) :
    executeReserved ext key op.next =
      (op.work.bind fun ending => .done (Except.ok ending)).tryCatch (fun e => .done (.error e)) >>=
        conclude ext key := by
  unfold executeReserved IdempotentOperation.next
  rw [Program.tryCatch_bind]
  congr 1
  funext result
  cases result <;> rfl

/-- The record of the key with a response. -/
def completedWith (ext : Externals) (response : HttpResponse) (row : IdempotencyRecord) :
    IdempotencyRecord :=
  if row.status = "Processing" then
    { row with
      status := "Completed", statusCode := response.statusCode
      contentType := (HttpResponse.content ext response).1
      responseBody := (HttpResponse.content ext response).2 }
  else row

/-- The records after an execution of the key: its response stored, or its
reservation released. -/
def concluded (ext : Externals) (key : String) (result : Except String Ending)
    (records : List IdempotencyRecord) : List IdempotencyRecord :=
  match (result.toOption.map responseOf).filter fun response => shouldCache response.statusCode with
  | some response => onRecord key (completedWith ext response) records
  | none => records.filter fun r => !(r.key = key && r.status = "Processing")

theorem callback_run (response : HttpResponse) :
    ∃ b, (host ext).run (fun _ => some {}) w log (idempotentCallback ext key response) =
      ⟨.returned (), b,
        { w with idempotency := concluded ext key (.ok (.answer response)) w.idempotency }⟩ := by
  unfold idempotentCallback concluded
  by_cases kept : shouldCache response.statusCode = true
  · rw [if_pos kept]
    dsimp only
    rw [statement_run (.idempotency (.complete key response.statusCode
      (HttpResponse.content ext response).1 (HttpResponse.content ext response).2))
      (.ok () : Except String Unit) _ rfl]
    simp only [Except.toOption, Option.map_some, Option.filter, responseOf, kept, if_true]
    exact ⟨_, rfl⟩
  · rw [if_neg kept, statement_run (.idempotency (.release key)) (.ok () : Except String Unit) _ rfl]
    simp only [Except.toOption, Option.map_some, Option.filter, responseOf, kept,
      Bool.false_eq_true, if_false]
    exact ⟨_, rfl⟩

/-- **The end of an execution.** -/
theorem conclude_world (ext : Externals) (w : World) (key : String)
    (result : Except String Ending) :
    (atomically ext w (conclude ext key result)).world =
      { w with idempotency := concluded ext key result w.idempotency } := by
  unfold atomically
  cases result with
  | error e =>
    rw [conclude, statement_run (.idempotency (.release key)) (.ok () : Except String Unit) _ rfl]
    rfl
  | ok ending =>
    cases ending with
    | answer response =>
      obtain ⟨b, run⟩ := callback_run (w := w) response
      rw [conclude, Ending.deliver, Host.run_tryCatch, run]
    | answerInTry response label =>
      obtain ⟨b, run⟩ := callback_run (w := w) response
      rw [conclude, Ending.deliver, Host.run_tryCatch, Host.run_tryCatch, run]
      rfl

/-! ## The desk -/

/-- An execution under way. -/
structure Execution where
  id : ℕ
  key : String
  payloadHash : String

/-- The database, and the executions under way. -/
structure Desk where
  world : World
  running : List Execution := []
  arrivals : ℕ := 0

/-- What happens next. -/
inductive Happening
  | arrive (key payloadHash workerKeyId : String)
  | finish (id : ℕ) (result : Except String Ending)
  | saveDocuments (documents : DocumentTable)
  | pass (elapsed : ℕ)

/-- The answer of the store to a request that arrives. -/
def Desk.reservation (ext : Externals) (s : Desk) (key payloadHash workerKeyId : String) :
    Outcome Reservation :=
  (arrival ext s.world key payloadHash workerKeyId).outcome

/-- The handler goes on so with a request that arrives, given its operation. -/
def Desk.Handles (ext : Externals) (s : Desk) (key payloadHash workerKeyId : String)
    (goesOn : ((HttpResponse → Procedure Unit) → Procedure Unit) → Procedure Unit) : Prop :=
  ∃ reservation, s.reservation ext key payloadHash workerKeyId = .returned reservation ∧
    ∀ next, answerReservation ext key next reservation = goesOn next

/-- The desk after a happening.  A request that reserves its key starts an
execution. -/
def Desk.step (ext : Externals) (s : Desk) : Happening → Desk
  | .arrive key payloadHash workerKeyId =>
    let run := arrival ext s.world key payloadHash workerKeyId
    { world := run.world
      running := match run.outcome with
        | .returned .reserved => s.running ++ [⟨s.arrivals, key, payloadHash⟩]
        | _ => s.running
      arrivals := s.arrivals + 1 }
  | .finish id result =>
    match s.running.find? (·.id = id) with
    | some e =>
      { s with
        world := (atomically ext s.world (conclude ext e.key result)).world
        running := s.running.filter (·.id ≠ id) }
    | none => s
  | .saveDocuments documents => { s with world := { s.world with documents := documents } }
  | .pass elapsed => { s with world := { s.world with clock := s.world.clock + elapsed } }

/-- The desk as a machine. -/
def desk (ext : Externals) : Machine Desk Happening := ⟨Desk.step ext⟩

/-! ## One execution at a time -/

/-- Every execution under way has its own key, whose record is Processing and
blank. -/
structure Consistent (s : Desk) : Prop where
  unique : PrimaryKey s.world.idempotency
  keys : (s.running.map (·.key)).Nodup
  held : ∀ e ∈ s.running, ∃ row ∈ s.world.idempotency, Blank e.key e.payloadHash row

theorem fetchRecord_of_mem {records : List IdempotencyRecord} (unique : PrimaryKey records)
    (here : record ∈ records) (named : record.key = key) :
    fetchRecord key records = some record := by
  cases found : fetchRecord key records with
  | none => exact absurd (decide_eq_true named) (List.find?_eq_none.mp found record here)
  | some other =>
    obtain ⟨member, same⟩ := fetchRecord_some found
    rw [unique.same member here (same.trans named.symm)]

/-- A blank record names no document. -/
theorem underlyingRejected_blank (ext : Externals) (w : World) :
    underlyingRejected ext w "" = false := by
  have blank : contains "" "\"documentId\"" = false := by decide
  simp [underlyingRejected, storedDocumentId, blank]

/-- A key with an execution under way is not reserved again. -/
theorem verdict_blank {records : List IdempotencyRecord} {other : String}
    (unique : PrimaryKey records) (here : record ∈ records) (blank : Blank key other record) :
    verdict ext w hash (fetchRecord key records) ≠ .reserved := by
  have unfailed : failedNow ext w record = false := by
    simp [failedNow, blank.statusCode, blank.responseBody, underlyingRejected_blank]
  have processing : record.status ≠ "Completed" := by
    rw [blank.status]
    decide
  rw [fetchRecord_of_mem unique here blank.key, verdict, unfailed, if_neg processing]
  split
  · exact nofun
  · exact nofun

/-- What the end of an execution leaves of a record: nothing new, or the record
of its key completed. -/
theorem mem_concluded {k : String} {result : Except String Ending} {row : IdempotencyRecord}
    {records : List IdempotencyRecord} (here : row ∈ concluded ext k result records) :
    row ∈ records ∨ ∃ old ∈ records, old.key = k ∧ old.status = "Processing" ∧ row.key = k := by
  unfold concluded at here
  split at here
  · rcases mem_onRecord here with same | ⟨old, member, named, rfl⟩
    · exact .inl same
    · unfold completedWith
      by_cases processing : old.status = "Processing"
      · exact .inr ⟨old, member, named, processing, by rw [if_pos processing]; exact named⟩
      · rw [if_neg processing]
        exact .inl member
  · exact .inl (List.mem_filter.mp here).1

/-- It leaves every other record. -/
theorem concluded_mem {k : String} {result : Except String Ending} {row : IdempotencyRecord}
    {records : List IdempotencyRecord} (here : row ∈ records)
    (other : row.key ≠ k ∨ row.status ≠ "Processing") : row ∈ concluded ext k result records := by
  unfold concluded
  split
  · refine List.mem_map.mpr ⟨row, here, ?_⟩
    rcases other with other | settled
    · exact if_neg other
    · rw [completedWith, if_neg settled, ite_self]
  · refine List.mem_filter.mpr ⟨here, ?_⟩
    rcases other with other | settled
    · simp [other]
    · simp [settled]

theorem concluded_unique {k : String} {result : Except String Ending}
    {records : List IdempotencyRecord} (unique : PrimaryKey records) :
    PrimaryKey (concluded ext k result records) := by
  unfold concluded
  split
  · rw [PrimaryKey, map_key_onRecord]
    · exact unique
    · intro r
      unfold completedWith
      split <;> rfl
  · exact unique.sublist (List.filter_sublist.map _)

theorem arrival_unique (unique : PrimaryKey w.idempotency) :
    PrimaryKey (arrival ext w key hash worker).world.idempotency := by
  have follows : (reserveOrGet ext key hash worker).Follows (.logging fun _ _ => True) _ _ [] :=
    reserveOrGet_follows fun _ _ _ => trivial
  exact (Host.run_keeps (J := fun _ (v : World) => PrimaryKey v.idempotency)
    (fun _ _ r i _ unique => unique.answer ext i r) follows unique).1

/-- **Step.** A happening keeps the desk consistent, while the leases run. -/
theorem Consistent.step {s : Desk} (consistent : Consistent s) (happening : Happening)
    (leases : LeasesRun s.world) : Consistent (s.step ext happening) := by
  cases happening with
  | saveDocuments documents => exact ⟨consistent.unique, consistent.keys, consistent.held⟩
  | pass elapsed => exact ⟨consistent.unique, consistent.keys, consistent.held⟩
  | arrive key hash worker =>
    obtain ⟨b, v, run, -, -, arrived⟩ := arrival_run ext s.world key hash worker leases
    have unique : PrimaryKey (arrival ext s.world key hash worker).world.idempotency :=
      arrival_unique consistent.unique
    have busy : ∀ e ∈ s.running, e.key = key →
        verdict ext s.world hash (fetchRecord key s.world.idempotency) ≠ .reserved := by
      rintro e member rfl
      obtain ⟨row, here, blank⟩ := consistent.held e member
      exact verdict_blank consistent.unique here blank
    have held : ∀ e ∈ s.running, ∃ row ∈ v.idempotency, Blank e.key e.payloadHash row := by
      intro e member
      obtain ⟨row, here, blank⟩ := consistent.held e member
      by_cases named : e.key = key
      · rw [arrived.refused (busy e member named)]
        exact ⟨row, here, blank⟩
      · exact ⟨row, (arrived.others row (blank.key ▸ named)).mpr here, blank⟩
    rw [run] at unique
    simp only [Desk.step, run]
    generalize verdict ext s.world hash (fetchRecord key s.world.idempotency) = reservation
      at arrived busy
    cases reservation with
    | alreadyProcessing => exact ⟨unique, consistent.keys, held⟩
    | payloadMismatch => exact ⟨unique, consistent.keys, held⟩
    | alreadyCompleted statusCode contentType body => exact ⟨unique, consistent.keys, held⟩
    | reserved =>
      refine ⟨unique, ?_, fun e member => ?_⟩
      · rw [List.map_append, List.nodup_append]
        refine ⟨consistent.keys, List.nodup_singleton _, ?_⟩
        rintro k old _ new rfl
        obtain ⟨e, member, named⟩ := List.mem_map.mp old
        rw [List.map_singleton, List.mem_singleton] at new
        exact busy e member (named.trans new) rfl
      · rcases List.mem_append.mp member with old | new
        · exact held e old
        · rw [List.mem_singleton.mp new]
          exact arrived.reserved rfl
  | finish id result =>
    cases found : s.running.find? (·.id = id) with
    | none =>
      simp only [Desk.step, found]
      exact consistent
    | some e =>
      simp only [Desk.step, found, conclude_world]
      have finishing := List.mem_of_find?_eq_some found
      refine ⟨concluded_unique consistent.unique, consistent.keys.sublist
        (List.filter_sublist.map _), fun e' member => ?_⟩
      obtain ⟨still, others⟩ := List.mem_filter.mp member
      obtain ⟨row, here, blank⟩ := consistent.held e' still
      refine ⟨row, concluded_mem here (.inl fun same => ?_), blank⟩
      have same : e' = e := List.inj_on_of_nodup_map consistent.keys still finishing
        (blank.key.symm.trans same)
      rw [same] at others
      exact of_decide_eq_true others (of_decide_eq_true (List.find?_some found :))

theorem consistent_run {s : Desk} (consistent : Consistent s) {happenings : List Happening}
    (met : (desk ext).Meets (fun s _ => LeasesRun s.world) s happenings) :
    Consistent ((desk ext).run s happenings) :=
  Machine.invariant (fun _ happening consistent leases => consistent.step happening leases)
    consistent met

theorem consistent_start (empty : w.idempotency = []) : Consistent ⟨w, [], 0⟩ :=
  ⟨by rw [PrimaryKey, empty]; exact List.nodup_nil, List.nodup_nil, nofun⟩

/-- The arrival of a request, in terms of the desk. -/
theorem reservation_eq (ext : Externals) {s : Desk} (leases : LeasesRun s.world) (key hash worker : String) :
    s.reservation ext key hash worker =
      .returned (verdict ext s.world hash (fetchRecord key s.world.idempotency)) := by
  obtain ⟨b, v, run, -⟩ := arrival_run ext s.world key hash worker leases
  rw [Desk.reservation, run]

/-! ## A response that stands -/

/-- The stored response of a key. -/
structure Stored (ext : Externals) (e : Execution) (response : HttpResponse)
    (row : IdempotencyRecord) : Prop where
  key : row.key = e.key
  payloadHash : row.payloadHash = e.payloadHash
  status : row.status = "Completed"
  statusCode : row.statusCode = response.statusCode
  contentType : row.contentType = (HttpResponse.content ext response).1
  responseBody : row.responseBody = (HttpResponse.content ext response).2

/-- The document the response names is not rejected. -/
def DocumentStands (ext : Externals) (response : HttpResponse) (s : Desk) : Prop :=
  underlyingRejected ext s.world (HttpResponse.content ext response).2 = false

/-- A 2xx response is kept. -/
theorem shouldCache_success {statusCode : ℕ} (success : 200 ≤ statusCode ∧ statusCode < 300) :
    shouldCache statusCode = true := by
  have low : statusCode ∉ [401, 403, 408, 409, 429] := fun member => by
    simp only [List.mem_cons, List.not_mem_nil, or_false] at member
    omega
  simp only [shouldCache, low, not_false_eq_true, decide_true, Bool.and_true, decide_eq_true_eq]
  omega

/-- What the store answers while the response stands. -/
theorem verdict_stored {e : Execution} {response : HttpResponse} {s : Desk}
    (unique : PrimaryKey s.world.idempotency) {row : IdempotencyRecord}
    (here : row ∈ s.world.idempotency) (stored : Stored ext e response row)
    (success : 200 ≤ response.statusCode ∧ response.statusCode < 300)
    (stands : DocumentStands ext response s) (hash : String) :
    verdict ext s.world hash (fetchRecord e.key s.world.idempotency) =
      if hash = e.payloadHash then .alreadyCompleted response.statusCode
        (HttpResponse.content ext response).1 (HttpResponse.content ext response).2
      else .payloadMismatch := by
  have unfailed : failedNow ext s.world row = false := by
    have below : ¬ 400 ≤ response.statusCode := by omega
    rw [failedNow, stored.statusCode, stored.responseBody, stands, decide_eq_false below]
    rfl
  have standing : standsNow ext s.world row = true := by
    rw [standsNow, stored.statusCode, stored.responseBody, stands, decide_eq_true success]
    rfl
  rw [fetchRecord_of_mem unique here stored.key, verdict, stored.payloadHash, unfailed, standing,
    if_pos stored.status, stored.statusCode, stored.contentType, stored.responseBody]
  by_cases same : hash = e.payloadHash
  · rw [if_pos same, if_neg (not_not_intro same.symm)]
    rfl
  · rw [if_neg same, if_pos (Ne.symm same)]
    rfl

/-- **Step.** A stored response stays, while its document is not rejected. -/
theorem stored_step {e : Execution} {response : HttpResponse} {s : Desk}
    (consistent : Consistent s) (leases : LeasesRun s.world)
    (stands : DocumentStands ext response s)
    (success : 200 ≤ response.statusCode ∧ response.statusCode < 300)
    (stored : ∃ row ∈ s.world.idempotency, Stored ext e response row) (happening : Happening) :
    ∃ row ∈ (s.step ext happening).world.idempotency, Stored ext e response row := by
  obtain ⟨row, here, stored⟩ := stored
  have settled : row.status ≠ "Processing" := by
    rw [stored.status]
    decide
  cases happening with
  | saveDocuments documents => exact ⟨row, here, stored⟩
  | pass elapsed => exact ⟨row, here, stored⟩
  | arrive key hash worker =>
    obtain ⟨b, v, run, -, -, arrived⟩ := arrival_run ext s.world key hash worker leases
    simp only [Desk.step, run]
    by_cases same : row.key = key
    · obtain rfl := stored.key.symm.trans same
      have refused := verdict_stored consistent.unique here stored success stands hash
      rw [arrived.refused ?_]
      · exact ⟨row, here, stored⟩
      · rw [refused]
        split <;> exact nofun
    · exact ⟨row, (arrived.others row same).mpr here, stored⟩
  | finish id result =>
    simp only [Desk.step]
    split
    · rw [conclude_world]
      exact ⟨row, concluded_mem here (.inr settled), stored⟩
    · exact ⟨row, here, stored⟩

/-- An execution that finishes with a 2xx stores its response. -/
theorem stored_of_finish {e : Execution} {s : Desk} {id : ℕ} {ending : Ending}
    (consistent : Consistent s) (found : s.running.find? (·.id = id) = some e)
    (success : 200 ≤ (responseOf ending).statusCode ∧ (responseOf ending).statusCode < 300) :
    ∃ row ∈ (s.step ext (.finish id (.ok ending))).world.idempotency,
      Stored ext e (responseOf ending) row := by
  obtain ⟨row, here, blank⟩ := consistent.held e (List.mem_of_find?_eq_some found)
  simp only [Desk.step, found, conclude_world]
  refine ⟨completedWith ext (responseOf ending) row, ?_, ?_⟩
  · simp only [concluded, Except.toOption, Option.map_some, Option.filter,
      shouldCache_success success, if_true]
    exact List.mem_map.mpr ⟨row, here, if_pos blank.key⟩
  · rw [completedWith, if_pos blank.status]
    exact ⟨blank.key, blank.payloadHash, rfl, rfl, rfl, rfl⟩

/-- The answer to a request whose key has a response that stands. -/
def repeatedAnswer (ext : Externals) (e : Execution) (response : HttpResponse)
    (hash : String) : HttpResponse :=
  if hash = e.payloadHash then
    { statusCode := response.statusCode, headers := [("X-Cache-Lookup", "Hit-Idempotent")]
      body := .text (HttpResponse.content ext response).1 (HttpResponse.content ext response).2 }
  else err "Idempotency key payload mismatch. The same key was used with a different request body." 422

/-- **Replays.** After an execution has finished with a 2xx, and while the
document of its response is not rejected, a request with its key is answered
with that response when it has its hash, and with a payload mismatch otherwise;
its operation is not called. -/
def Replays (ext : Externals) (start : Desk) (happenings : List Happening) : Prop :=
  ∀ before id ending after e hash worker rest,
    happenings = before ++ .finish id (.ok ending) :: (after ++ .arrive e.key hash worker :: rest) →
    ((desk ext).run start before).running.find? (·.id = id) = some e →
    200 ≤ (responseOf ending).statusCode ∧ (responseOf ending).statusCode < 300 →
    let finished := ((desk ext).run start before).step ext (.finish id (.ok ending))
    (desk ext).Meets (fun s _ => DocumentStands ext (responseOf ending) s) finished
      (after ++ [.arrive e.key hash worker]) →
    ((desk ext).run finished after).Handles ext e.key hash worker fun _ =>
      respond (repeatedAnswer ext e (responseOf ending) hash)

theorem handles_stored {e : Execution} {response : HttpResponse} {s : Desk}
    (consistent : Consistent s) (leases : LeasesRun s.world)
    (stored : ∃ row ∈ s.world.idempotency, Stored ext e response row)
    (success : 200 ≤ response.statusCode ∧ response.statusCode < 300)
    (stands : DocumentStands ext response s) (hash worker : String) :
    s.Handles ext e.key hash worker fun _ => respond (repeatedAnswer ext e response hash) := by
  obtain ⟨row, here, stored⟩ := stored
  refine ⟨_, (reservation_eq ext leases e.key hash worker).trans (congrArg Outcome.returned
    (verdict_stored consistent.unique here stored success stands hash)), fun next => ?_⟩
  unfold repeatedAnswer
  by_cases same : hash = e.payloadHash
  · rw [if_pos same, if_pos same]
    rfl
  · rw [if_neg same, if_neg same]
    rfl

theorem replays {start : Desk} (consistent : Consistent start) {happenings : List Happening}
    (met : (desk ext).Meets (fun s _ => LeasesRun s.world) start happenings) :
    Replays ext start happenings := by
  rintro before id ending after e hash worker rest rfl found success finished stands
  obtain ⟨earlier, here, later⟩ := Machine.meets_append.mp met
  obtain ⟨leases, now, -⟩ := Machine.meets_append.mp later
  have running := consistent_run consistent earlier
  have kept : ∀ s happening, (Consistent s ∧ ∃ row ∈ s.world.idempotency,
      Stored ext e (responseOf ending) row) →
      (LeasesRun s.world ∧ DocumentStands ext (responseOf ending) s) →
      (Consistent (s.step ext happening) ∧ ∃ row ∈ (s.step ext happening).world.idempotency,
        Stored ext e (responseOf ending) row) := fun s happening held condition =>
    ⟨held.1.step happening condition.1,
      stored_step held.1 condition.1 condition.2 success held.2 happening⟩
  obtain ⟨standing, stands, -⟩ := Machine.meets_append.mp stands
  obtain ⟨consistent, stored⟩ := Machine.invariant (m := desk ext) kept
    ⟨running.step (.finish id (.ok ending)) here, stored_of_finish running found success⟩
    (leases.and standing)
  exact handles_stored consistent now stored success stands hash worker

/-! ## A failure that frees its key -/

/-- The status an execution ends with; an exception is answered by the
application's handler, with a 500. -/
def statusOf : Except String Ending → ℕ
  | .ok ending => (responseOf ending).statusCode
  | .error _ => 500

/-- **Retries.** After an execution has finished with a 4xx or 5xx, the next
request with its key, whatever its payload, is executed, and no further one is
until that execution finishes. -/
def Retries (ext : Externals) (start : Desk) (happenings : List Happening) : Prop :=
  ∀ before id result between e hash worker rest,
    happenings = before ++ .finish id result :: (between ++ .arrive e.key hash worker :: rest) →
    ((desk ext).run start before).running.find? (·.id = id) = some e →
    400 ≤ statusOf result →
    (∀ hash' worker', .arrive e.key hash' worker' ∉ between) →
    let finished := ((desk ext).run start before).step ext (.finish id result)
    let waiting := (desk ext).run finished between
    (waiting.Handles ext e.key hash worker fun next => executeReserved ext e.key next) ∧
      ∀ meanwhile hash' worker' rest', rest = meanwhile ++ .arrive e.key hash' worker' :: rest' →
        (∀ result', .finish waiting.arrivals result' ∉ meanwhile) →
        ∃ response, ((desk ext).run (waiting.step ext (.arrive e.key hash worker)) meanwhile).Handles
          ext e.key hash' worker' fun _ => respond response

/-- Nothing stands in the way of a request with the key. -/
def Free (key : String) (s : Desk) : Prop :=
  ∀ row ∈ s.world.idempotency, row.key = key → row.status = "Completed" ∧ 400 ≤ row.statusCode

theorem verdict_free {s : Desk} (free : Free key s) :
    verdict ext s.world hash (fetchRecord key s.world.idempotency) = .reserved := by
  cases found : fetchRecord key s.world.idempotency with
  | none => rfl
  | some record =>
    obtain ⟨here, named⟩ := fetchRecord_some found
    obtain ⟨completed, failed⟩ := free record here named
    have failing : failedNow ext s.world record = true := by
      rw [failedNow, decide_eq_true failed, Bool.true_or]
    have falls : standsNow ext s.world record = false := by
      have beyond : ¬ (200 ≤ record.statusCode ∧ record.statusCode < 300) := by omega
      rw [standsNow, decide_eq_false beyond, Bool.false_and]
    rw [verdict, failing, falls, if_pos completed]
    split <;> rfl

/-- The end of an execution with a 4xx or 5xx frees its key. -/
theorem free_of_finish {e : Execution} {s : Desk} {id : ℕ} {result : Except String Ending}
    (consistent : Consistent s) (found : s.running.find? (·.id = id) = some e)
    (failed : 400 ≤ statusOf result) : Free e.key (s.step ext (.finish id result)) := by
  obtain ⟨blankRow, blankHere, blank⟩ := consistent.held e (List.mem_of_find?_eq_some found)
  have only : ∀ row ∈ s.world.idempotency, row.key = e.key → row = blankRow :=
    fun row here named => consistent.unique.same here blankHere (named.trans blank.key.symm)
  intro row here named
  simp only [Desk.step, found, conclude_world, concluded] at here
  split at here
  next response kept =>
    obtain ⟨answered, -⟩ := Option.filter_eq_some_iff.mp kept
    have status : 400 ≤ response.statusCode := by
      cases result with
      | error what => exact absurd answered nofun
      | ok ending => exact Option.some.inj answered ▸ failed
    obtain ⟨old, member, rfl⟩ := List.mem_map.mp here
    by_cases mine : old.key = e.key
    · rw [only old member mine, if_pos blank.key, completedWith, if_pos blank.status]
      exact ⟨rfl, status⟩
    · rw [if_neg mine] at named
      exact absurd named mine
  next =>
    obtain ⟨member, settled⟩ := List.mem_filter.mp here
    rw [only row member named, blank.key, blank.status] at settled
    simp at settled

/-- **Step.** A free key stays free until a request arrives with it. -/
theorem free_step {s : Desk} (leases : LeasesRun s.world) (free : Free key s)
    {happening : Happening} (other : ∀ hash worker, happening ≠ .arrive key hash worker) :
    Free key (s.step ext happening) := by
  cases happening with
  | saveDocuments documents => exact free
  | pass elapsed => exact free
  | arrive k hash worker =>
    obtain ⟨b, v, run, -, -, arrived⟩ := arrival_run ext s.world k hash worker leases
    intro row here named
    simp only [Desk.step, run] at here
    have apart : row.key ≠ k := fun same => other hash worker (by rw [← same, named])
    exact free row ((arrived.others row apart).mp here) named
  | finish id result =>
    intro row here named
    simp only [Desk.step] at here
    split at here
    · rw [conclude_world] at here
      rcases mem_concluded here with member | ⟨old, member, mine, processing, same⟩
      · exact free row member named
      · have completed := (free old member (mine.trans (same.symm.trans named))).1
        rw [processing] at completed
        exact absurd completed (by decide)
    · exact free row here named

/-- **Step.** An execution goes on until it finishes. -/
theorem running_step {e : Execution} {s : Desk} (running : e ∈ s.running) {happening : Happening}
    (other : ∀ result, happening ≠ .finish e.id result) :
    e ∈ (s.step ext happening).running := by
  cases happening with
  | saveDocuments documents => exact running
  | pass elapsed => exact running
  | arrive k hash worker =>
    simp only [Desk.step]
    split
    · exact List.mem_append_left _ running
    · exact running
  | finish id result =>
    simp only [Desk.step]
    split
    · refine List.mem_filter.mpr ⟨running, decide_eq_true fun same => ?_⟩
      exact other result (by rw [same])
    · exact running

/-- A request whose key has an execution under way is answered at once. -/
theorem handles_running {e : Execution} {s : Desk} (consistent : Consistent s)
    (leases : LeasesRun s.world) (running : e ∈ s.running) (hash worker : String) :
    ∃ response, s.Handles ext e.key hash worker fun _ => respond response := by
  obtain ⟨row, here, blank⟩ := consistent.held e running
  have busy : verdict ext s.world hash (fetchRecord e.key s.world.idempotency) ≠ .reserved :=
    verdict_blank consistent.unique here blank
  have answered := reservation_eq ext leases e.key hash worker
  generalize verdict ext s.world hash (fetchRecord e.key s.world.idempotency) = reservation
    at busy answered
  cases reservation with
  | reserved => exact absurd rfl busy
  | alreadyProcessing => exact ⟨_, _, answered, fun next => rfl⟩
  | payloadMismatch => exact ⟨_, _, answered, fun next => rfl⟩
  | alreadyCompleted statusCode contentType body => exact ⟨_, _, answered, fun next => rfl⟩

theorem retries {start : Desk} (consistent : Consistent start) {happenings : List Happening}
    (met : (desk ext).Meets (fun s _ => LeasesRun s.world) start happenings) :
    Retries ext start happenings := by
  rintro before id result between e hash worker rest rfl found failed unasked finished waiting
  obtain ⟨earlier, here, later⟩ := Machine.meets_append.mp met
  obtain ⟨leases, now, afterwards⟩ := Machine.meets_append.mp later
  have running := consistent_run consistent earlier
  have finishing : Consistent finished := running.step (.finish id result) here
  have consistent : Consistent waiting := consistent_run finishing leases
  have others : ∀ happening ∈ between, ∀ hash worker, happening ≠ .arrive e.key hash worker :=
    fun happening member hash worker same => unasked hash worker (same ▸ member)
  have free : Free e.key waiting :=
    Machine.invariant (m := desk ext) (J := Free e.key) (fun s happening free condition =>
        free_step condition.1 free condition.2)
      (free_of_finish running found failed) (leases.and (Machine.meets_of_forall others _))
  have reserved : waiting.reservation ext e.key hash worker = .returned .reserved :=
    (reservation_eq ext now e.key hash worker).trans (congrArg Outcome.returned (verdict_free free))
  refine ⟨⟨_, reserved, fun next => rfl⟩, ?_⟩
  rintro meanwhile hash' worker' rest' rfl unfinished
  obtain ⟨leases, later, -⟩ := Machine.meets_append.mp afterwards
  have started : (⟨waiting.arrivals, e.key, hash⟩ : Execution) ∈
      (waiting.step ext (.arrive e.key hash worker)).running := by
    have outcome : (arrival ext waiting.world e.key hash worker).outcome = .returned .reserved :=
      reserved
    simp only [Desk.step, outcome]
    exact List.mem_append_right _ (List.mem_singleton_self _)
  have others : ∀ happening ∈ meanwhile, ∀ result, happening ≠ .finish waiting.arrivals result :=
    fun happening member result same => unfinished result (same ▸ member)
  have goesOn := Machine.invariant (m := desk ext)
    (J := fun s => (⟨waiting.arrivals, e.key, hash⟩ : Execution) ∈ s.running)
    (fun s happening running condition => running_step running condition) started
    (Machine.meets_of_forall others _)
  exact handles_running (consistent_run (consistent.step _ now) leases) later goesOn hash' worker'

/-- **Idempotent replay.** From an empty store, and while no lease expires, a
response that stands is replayed and an execution that fails frees its key. -/
theorem idempotent_replays (ext : Externals) (w : World) (empty : w.idempotency = [])
    (happenings : List Happening)
    (met : (desk ext).Meets (fun s _ => LeasesRun s.world) ⟨w, [], 0⟩ happenings) :
    Replays ext ⟨w, [], 0⟩ happenings ∧ Retries ext ⟨w, [], 0⟩ happenings :=
  ⟨replays (consistent_start empty) met, retries (consistent_start empty) met⟩

/-- A request is answered, repeated and changed; another one fails and is sent
again. -/
def sampleHappenings : List Happening :=
  [.arrive "t:1" "payload" "worker", .pass 1000, .finish 0 (.ok (.answer (json [] 201))),
    .arrive "t:1" "payload" "worker", .arrive "t:1" "changed" "worker",
    .arrive "t:2" "payload" "worker", .finish 3 (.error "timeout"), .arrive "t:2" "changed" "worker"]

theorem idempotent_replays_sample :
    Replays sampleExternals ⟨sampleWorld, [], 0⟩ sampleHappenings ∧
      Retries sampleExternals ⟨sampleWorld, [], 0⟩ sampleHappenings :=
  idempotent_replays sampleExternals sampleWorld rfl sampleHappenings (by decide +kernel)

end EcfDgii.IdempotentReplays
