import EcfDgii.SettledReservations

/-!
Whose response a replay answers with (`DbIdempotencyStore`, `IdempotencyHandler`).

A pool of requests under the handler, interleaved statement by statement, with
the clock advancing in between: leases expire, reservations are reclaimed, and
the first holder completes late.  A record that is replayed should hold the
response of an execution that had reserved the key with the record's hash.

`complete` and `release` name the key and the status of its record, not the
reservation they end.  A holder whose lease was reclaimed and released may
complete the reservation of another payload.  `replays_match` is the guarantee
for the schedules in which a completion meets a record of its own hash.
-/

set_option autoImplicit false

namespace EcfDgii.ReplayedResponses

open EcfDgii.Timestamps EcfDgii.Documents EcfDgii.Tables EcfDgii.Programs EcfDgii.Execution
open EcfDgii.Engine EcfDgii.Submission EcfDgii.Traces EcfDgii.DocumentInvariants
open EcfDgii.Reservations EcfDgii.WrappedOperations EcfDgii.SettledReservations

/-- A request with an idempotency key, as the handler sees it. -/
structure IdempotentRequest where
  scopedKey : String
  payloadHash : String
  workerKeyId : String
  operation : IdempotentOperation

/-- `IdempotencyHandler::handle` of the request; its result is what
`reserveOrGet` returned. -/
def IdempotentRequest.handle (ext : Externals) (q : IdempotentRequest) : Procedure Reservation := do
  let reservation ← reserveOrGet ext q.scopedKey q.payloadHash q.workerKeyId
  answerReservation ext q.scopedKey q.operation.next reservation
  return reservation

abbrev Handlers := Pool IdempotentRequest Api Reservation World

variable {ext : Externals} {requests : ℕ → IdempotentRequest} {w : World} {log : Log}
  {history : List (ℕ × Event Api)} {q : IdempotentRequest} {p : Handlers}

/-- The requests at their start. -/
def handlers (ext : Externals) (requests : ℕ → IdempotentRequest) (w : World) : Handlers :=
  Pool.start (IdempotentRequest.handle ext) requests w

/-- The key a request completes. -/
def completedKey : Request → Option String
  | .idempotency (.complete key ..) => some key
  | _ => none

/-- An execution that had reserved the key with the hash has completed it with
the response. -/
def Produced (requests : ℕ → IdempotentRequest) (history : List (ℕ × Event Api))
    (key hash : String) (statusCode : ℕ) (contentType body : String) : Prop :=
  ∃ t, (requests t).scopedKey = key ∧ (requests t).payloadHash = hash ∧
    (∃ e, (t, e) ∈ history ∧ Acquires key e) ∧
    (t, (⟨.idempotency (.complete key statusCode contentType body),
      (.ok () : Except String Unit)⟩ : Event Api)) ∈ history

/-- Every replay answers with the response of an execution of its own key and
hash. -/
def ReplaysMatch (p : Handlers) : Prop :=
  ∀ t statusCode contentType body,
    (p.thread t).result = some (.alreadyCompleted statusCode contentType body) →
    Produced (fun t => (p.thread t).operation) p.history (p.thread t).operation.scopedKey
      (p.thread t).operation.payloadHash statusCode contentType body

/-- A completion meets no reservation of its key with another hash. -/
def CompletesOwn (p : Handlers) : Move Input → Prop
  | .kill _ => True
  | .step t i => ∀ r ∈ (p.thread t).request, i.databaseError = none →
      ∀ row ∈ p.world.idempotency, completedKey r = some row.key → row.status = "Processing" →
        row.payloadHash = (p.thread t).operation.payloadHash

instance (p : Handlers) : DecidablePred (CompletesOwn p)
  | .kill _ => .isTrue trivial
  | .step t i => inferInstanceAs (Decidable (∀ r ∈ (p.thread t).request, i.databaseError = none →
      ∀ row ∈ p.world.idempotency, completedKey r = some row.key → row.status = "Processing" →
        row.payloadHash = (p.thread t).operation.payloadHash))

/-! ## What a request asks -/

/-- What a request may ask: its own work and answer, its reservation, and, once
it holds the key, the completion or the release. -/
inductive HandleAsks (q : IdempotentRequest) (log : Log) : Request → Prop
  | works {r : Request} (works : Working r) : HandleAsks q log r
  | answers (response : HttpResponse) : HandleAsks q log (.respond response)
  | reserves {statement : IdempotencyStatement}
      (asks : ReserveAsks q.scopedKey q.payloadHash q.workerKeyId log statement) :
      HandleAsks q log (.idempotency statement)
  | completes {statusCode : ℕ} {contentType body : String}
      (acquired : ∃ e ∈ log, Acquires q.scopedKey e) :
      HandleAsks q log (.idempotency (.complete q.scopedKey statusCode contentType body))
  | releases : HandleAsks q log (.idempotency (.release q.scopedKey))

/-- What the result of a request shows of its log. -/
def HandleShows (q : IdempotentRequest) (log : Log) : Reservation → Prop
  | .alreadyCompleted statusCode contentType body =>
    Shows q.scopedKey q.payloadHash log (.alreadyCompleted statusCode contentType body)
  | _ => True

/-- The request has got its key. -/
def Acquired (q : IdempotentRequest) (log : Log) : Prop := ∃ e ∈ log, Acquires q.scopedKey e

theorem Acquired.append (h : Acquired q log) (e : Event Api) : Acquired q (log ++ [e]) := by
  obtain ⟨e', member, acquires⟩ := h
  exact ⟨e', List.mem_append_left _ member, acquires⟩

/-- The callback of a request that holds the key. -/
theorem callback_follows (response : HttpResponse) (acquired : Acquired q log) :
    (idempotentCallback ext q.scopedKey response).Follows (.logging (HandleAsks q))
      (fun _ _ => True) (fun b _ => Acquired q b) log := by
  unfold idempotentCallback
  split
  · refine (follows_logging_bind (I := Api) _ _).mpr
      ⟨.completes acquired, fun (x : Except String Unit) => ?_⟩
    refine (Program.follows_raise_bind _ _).mpr ⟨fun _ _ => ?_, fun _ _ => acquired.append _⟩
    exact (follows_logging_perform (I := Api) _).mpr ⟨.answers response, fun _ => trivial⟩
  · refine (follows_logging_bind (I := Api) _ _).mpr ⟨.releases, fun x => ?_⟩
    exact (follows_logging_perform (I := Api) _).mpr ⟨.answers response, fun _ => trivial⟩

/-- The operation of a request that holds the key. -/
theorem executeReserved_follows (acquired : Acquired q log) :
    (executeReserved ext q.scopedKey q.operation.next).Follows (.logging (HandleAsks q))
      (fun _ _ => True) (fun _ _ => True) log := by
  unfold executeReserved IdempotentOperation.next
  refine Program.Follows.tryCatch (M := fun b _ => Acquired q b) ?_ fun b e acquired => ?_
  · refine (q.operation.working.follows (P := Acquired q) (fun _ _ works => .works works)
      (fun _ e h => h.append e) acquired).bind fun b ending acquired => ?_
    cases ending with
    | answer response => exact callback_follows response acquired
    | answerInTry response label =>
      exact (callback_follows response acquired).tryCatch fun b e acquired =>
        callback_follows _ acquired
  · exact (follows_logging_bind (I := Api) _ _).mpr ⟨.releases, fun _ => trivial⟩

theorem handle_follows (ext : Externals) (q : IdempotentRequest) :
    (q.handle ext).Follows (.logging (HandleAsks q)) (HandleShows q) (fun _ _ => True) [] := by
  unfold IdempotentRequest.handle
  refine (reserveOrGet_follows fun log statement asks => .reserves asks).bind
    fun b reservation shows => ?_
  cases reservation with
  | alreadyProcessing =>
    exact (follows_logging_bind (I := Api) _ _).mpr ⟨.answers _, fun _ => trivial⟩
  | payloadMismatch =>
    exact (follows_logging_bind (I := Api) _ _).mpr ⟨.answers _, fun _ => trivial⟩
  | alreadyCompleted statusCode contentType body =>
    refine (follows_logging_bind (I := Api) _ _).mpr ⟨.answers _, fun _ => ?_⟩
    obtain ⟨record, expired, read, rest⟩ := shows
    exact ⟨record, expired, read.append _, rest⟩
  | reserved =>
    obtain ⟨a, e, rfl, acquires⟩ := shows
    exact (executeReserved_follows ⟨e, by simp, acquires⟩).bind fun _ _ _ => trivial

/-! ## The records -/

theorem Produced.mono {key hash contentType body : String} {statusCode : ℕ}
    {longer : List (ℕ × Event Api)}
    (h : Produced requests history key hash statusCode contentType body)
    (grows : ∀ e ∈ history, e ∈ longer) :
    Produced requests longer key hash statusCode contentType body := by
  obtain ⟨t, sameKey, sameHash, ⟨e, acquired, acquires⟩, completed⟩ := h
  exact ⟨t, sameKey, sameHash, ⟨e, grows _ acquired, acquires⟩, grows _ completed⟩

/-- The response of the record was produced for its key and hash. -/
def Genuine (requests : ℕ → IdempotentRequest) (history : List (ℕ × Event Api))
    (row : IdempotencyRecord) : Prop :=
  row.status = "Completed" → Produced requests history row.key row.payloadHash row.statusCode
    row.contentType row.responseBody

/-- The invariant of the table. -/
def RecordsGenuine (requests : ℕ → IdempotentRequest) (w : World)
    (history : List (ℕ × Event Api)) : Prop :=
  ∀ row ∈ w.idempotency, Genuine requests history row

/-- The invariant of a request: its events are in the history, and the record it
read is genuine. -/
structure ReadsGenuine (requests : ℕ → IdempotentRequest) (t : ℕ)
    (th : Thread IdempotentRequest Api Reservation) (w : World)
    (history : List (ℕ × Event Api)) : Prop where
  operation : th.operation = requests t
  recorded : ∀ e ∈ th.log, (t, e) ∈ history
  read : ∀ record expired, Fetched th.operation.scopedKey record expired th.log →
    record.key = th.operation.scopedKey ∧ Genuine requests history record

/-- **Step.** A request keeps every record genuine, if its completion meets a
record of its own hash. -/
theorem records_step {t : ℕ} {i : Input} {r : Request}
    (genuine : RecordsGenuine requests w history) (recorded : ∀ e ∈ log, (t, e) ∈ history)
    (asks : HandleAsks (requests t) log r)
    (own : i.databaseError = none → ∀ row ∈ w.idempotency, completedKey r = some row.key →
      row.status = "Processing" → row.payloadHash = (requests t).payloadHash) :
    RecordsGenuine requests ((host ext).answer i w r).2
      (history ++ [(t, ⟨r, ((host ext).answer i w r).1⟩)]) := by
  have grows : ∀ e ∈ history, e ∈ history ++ [(t, ⟨r, ((host ext).answer i w r).1⟩)] :=
    fun e member => List.mem_append_left _ member
  intro row here completed
  by_cases store : ∃ statement, r = .idempotency statement
  · obtain ⟨statement, rfl⟩ := store
    rcases completed_after here completed with before | ⟨rfl, runs, old, member, key, hash, processing⟩
    · exact (genuine row before completed).mono grows
    · have sameHash := own runs old member (congrArg some key.symm) processing
      obtain ⟨sameKey, e, acquired, acquires⟩ : (requests t).scopedKey = row.key ∧
          Acquired (requests t) log := by
        generalize same : IdempotencyStatement.complete row.key row.statusCode row.contentType
          row.responseBody = statement at asks
        cases asks with
        | works works => exact works.elim
        | reserves asks => cases asks <;> cases same
        | completes acquired => exact ⟨(IdempotencyStatement.complete.inj same).1.symm, acquired⟩
        | releases => cases same
      refine ⟨t, sameKey, sameHash.symm.trans hash, ⟨e, grows _ (recorded e acquired), ?_⟩, ?_⟩
      · exact sameKey ▸ acquires
      · rw [(complete_runs runs _ _ _).1]
        exact List.mem_append_right _ (List.mem_singleton_self _)
  · rw [answer_idempotency (not_exists.mp store)] at here
    exact (genuine row here completed).mono grows

/-- What holds of a thread holds of it with more history. -/
theorem ReadsGenuine.mono {t : ℕ} {th : Thread IdempotentRequest Api Reservation} {v : World}
    {longer : List (ℕ × Event Api)} (h : ReadsGenuine requests t th w history)
    (grows : ∀ e ∈ history, e ∈ longer) : ReadsGenuine requests t th v longer where
  operation := h.operation
  recorded e member := grows _ (h.recorded e member)
  read record expired read := by
    obtain ⟨named, genuine⟩ := h.read record expired read
    exact ⟨named, fun completed => (genuine completed).mono grows⟩

/-- **Replays match.** In every schedule, from no records, in which a completion
never meets a reservation of its key with another hash, every replay answers
with the response of an execution of its own key and hash. -/
theorem replays_match (ext : Externals) (requests : ℕ → IdempotentRequest) (w : World)
    (moves : List (Move Input)) (empty : w.idempotency = [])
    (met : (handlers ext requests w).Meets (host ext) CompletesOwn moves) :
    ReplaysMatch ((handlers ext requests w).play (host ext) moves) := by
  have sound : ((handlers ext requests w).play (host ext) moves).Sound HandleAsks
      (RecordsGenuine requests) (ReadsGenuine requests) := by
    refine Pool.Sound.play (C := CompletesOwn) ?_ (fun t th w history h => ?_) ?_ met
    · intro p t i r next sound rest own asks
      have mine := sound.threads t
      have grows : ∀ e ∈ p.history,
          e ∈ p.history ++ [(t, ⟨r, ((host ext).answer i p.world r).1⟩)] :=
        fun e member => List.mem_append_left _ member
      have own := own r (by simp [Thread.request, rest])
      rw [mine.operation] at own asks
      refine ⟨records_step sound.world mine.recorded asks own, ?_,
        fun t' _ => (sound.threads t').mono grows⟩
      refine ⟨mine.operation, fun e member => ?_, fun record expired read => ?_⟩
      · rcases List.mem_append.mp member with old | new
        · exact grows _ (mine.recorded e old)
        · rw [List.mem_singleton.mp new]
          exact List.mem_append_right _ (List.mem_singleton_self _)
      · rcases List.mem_append.mp read with old | new
        · exact (mine.mono grows (v := p.world)).read record expired old
        · obtain ⟨here, named⟩ := fetched_mem new
          exact ⟨named, fun completed => (sound.world record here completed).mono grows⟩
    · exact ⟨h.operation, h.recorded, h.read⟩
    · refine Pool.Sound.start (handle_follows ext · |>.mono (fun _ _ _ => trivial)
        fun _ _ _ => trivial) (fun row here => ?_) fun t => ⟨rfl, ?_, ?_⟩
      · rw [empty] at here
        exact absurd here List.not_mem_nil
      · exact fun _ member => absurd member List.not_mem_nil
      · exact fun _ _ read => absurd read List.not_mem_nil
  intro t statusCode contentType body returned
  have follows : let th := ((handlers ext requests w).play (host ext) moves).thread t
      th.rest.Follows (.logging (HandleAsks th.operation)) (HandleShows th.operation)
        (fun _ _ => True) th.log :=
    Pool.follows_play (handle_follows ext) moves t
  have mine := sound.threads t
  generalize (handlers ext requests w).play (host ext) moves = p at *
  have operation : (fun t => (p.thread t).operation) = requests :=
    funext fun t => (sound.threads t).operation
  rw [operation]
  cases rest : (p.thread t).rest with
  | throw e => simp [Thread.result, rest] at returned
  | ask r next => simp [Thread.result, rest] at returned
  | done reservation =>
    simp only [Thread.result, rest, Option.some.injEq] at returned
    subst returned
    dsimp only at follows
    rw [rest] at follows
    obtain ⟨record, expired, read, hash, completed, rfl, rfl, rfl⟩ := follows
    obtain ⟨named, genuine⟩ := mine.read record expired read
    rw [← named, ← hash]
    exact genuine completed

/-! ## A late completion -/

/-- A request whose operation answers with one status. -/
def answeringWith (payloadHash : String) (statusCode : ℕ) : IdempotentRequest where
  scopedKey := "tenant:key"
  payloadHash := payloadHash
  workerKeyId := "worker"
  operation := ⟨return .answer (json [] statusCode), trivial⟩

/-- An accepted request and its retry. -/
def retried : ℕ → IdempotentRequest := fun _ => answeringWith "hash" 200

theorem replays_match_retried :
    ReplaysMatch ((handlers sampleExternals retried sampleWorld).play (host sampleExternals)
      [.step 0 {}, .step 0 {}, .step 0 {}, .step 0 {}, .step 1 {}, .step 1 {}]) :=
  replays_match sampleExternals retried sampleWorld _ rfl (by decide +kernel)

/-- The first request is accepted late; the second, after the lease, fails and
releases the key; the others carry another payload. -/
def overtaken : ℕ → IdempotentRequest
  | 0 => answeringWith "first" 200
  | 1 => answeringWith "first" 500
  | _ => answeringWith "second" 200

/-- The first request reserves; six minutes later the second reclaims and
releases the key; the third reserves it; the first completes; the fourth asks. -/
def overtakenMoves : List (Move Input) :=
  [.step 0 {}, .step 0 {}, .step 1 { elapsed := 360 * second }, .step 1 {}, .step 1 {},
    .step 1 {}, .step 2 {}, .step 2 {}, .step 0 {}, .step 0 {}, .step 3 {}, .step 3 {}]

/-- The fourth request is answered with the response of the first, whose payload
was another. -/
theorem late_completion_replayed :
    ¬ ReplaysMatch ((handlers sampleExternals overtaken sampleWorld).play (host sampleExternals)
      overtakenMoves) := by
  intro matching
  obtain ⟨t, -, hash, -, completed⟩ :=
    matching 3 200 "application/json; charset=utf-8" "" (by decide +kernel)
  have completers : ((((handlers sampleExternals overtaken sampleWorld).play
      (host sampleExternals) overtakenMoves).history.filter
        fun e => (completedKey e.2.request).isSome).map Prod.fst) = [0] := by decide +kernel
  have first : t ∈ [0] := completers ▸ List.mem_map_of_mem (List.mem_filter.mpr ⟨completed, rfl⟩)
  obtain rfl := List.mem_singleton.mp first
  revert hash
  decide +kernel

end EcfDgii.ReplayedResponses
