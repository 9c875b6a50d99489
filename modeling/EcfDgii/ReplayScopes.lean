import EcfDgii.ReplayedResponses
import EcfDgii.IdempotentReplays
import EcfDgii.Separators

/-!
Which request a replayed response was recorded for (`IdempotencyHandler`).

The record of a request is named by its tenant and its key, joined with a colon,
and holds the hash of its body.  Three operations share the table.  `recorder`
follows who has recorded the response of a name; `Unshared` asks that whoever is
answered with it is the same request, and `Coincide` is what the handler really
compares.
-/

set_option autoImplicit false

namespace EcfDgii.ReplayScopes

open EcfDgii.Text EcfDgii.Timestamps EcfDgii.Documents EcfDgii.Tables EcfDgii.Programs EcfDgii.Execution
open EcfDgii.Engine EcfDgii.Submission EcfDgii.Traces EcfDgii.DocumentInvariants
open EcfDgii.Reservations EcfDgii.WrappedOperations EcfDgii.ReplayedResponses EcfDgii.Separators

/-! ## The property -/

/-- The operations under the handler: `POST /api/documents`, `POST /api/ecf/send`
and `POST /api/ecf/send-rfce`. -/
inductive ApiOperation
  | documents
  | send
  | sendRfce
  deriving DecidableEq

/-- A request with an idempotency key. -/
structure Caller where
  operation : ApiOperation
  tenantId : String
  idempotencyKey : String
  body : String
  workerKeyId : String
  keyed : idempotencyKey ≠ ""

/-- The name of its record. -/
def Caller.scopedKey (c : Caller) : String := c.tenantId ++ ":" ++ c.idempotencyKey

/-- The request under the handler, whatever its operation comes to. -/
def Caller.request (ext : Externals) (c : Caller) (work : IdempotentOperation) :
    IdempotentRequest where
  scopedKey := c.scopedKey
  payloadHash := ext.sha256 c.body
  workerKeyId := c.workerKeyId
  operation := work

/-- Requests of callers under way. -/
def callPool (ext : Externals) (callers : ℕ → Caller) (works : ℕ → IdempotentOperation)
    (w : World) : Handlers :=
  handlers ext (fun t => (callers t).request ext (works t)) w

/-- One request, sent again. -/
def SameRequest (a b : Caller) : Prop :=
  a.tenantId = b.tenantId ∧ a.operation = b.operation ∧ a.idempotencyKey = b.idempotencyKey ∧
    a.body = b.body

/-- What the handler compares. -/
def Coincide (a b : Caller) : Prop := a.scopedKey = b.scopedKey ∧ a.body = b.body

/-- Who records the response of a name with a move: who completes its reservation. -/
def recordsAt (p : Handlers) (key : String) : Move Input → Option ℕ
  | .kill _ => none
  | .step t i =>
    if i.databaseError = none ∧ ((p.thread t).request.bind completedKey) = some key ∧
        ∃ row ∈ p.world.idempotency, row.key = key ∧ row.status = "Processing"
    then some t else none

/-- Who has recorded the response of a name last. -/
def recorder (ext : Externals) (key : String) : Handlers → List (Move Input) → Option ℕ
  | _, [] => none
  | p, m :: rest => (recorder ext key (p.move (host ext) m) rest).or (recordsAt p key m)

/-- The event of a request that finds its record. -/
def found (key : String) (record : IdempotencyRecord) (expired : Bool) : Event Api :=
  ⟨.idempotency (.fetch key),
    (.ok (some (record, expired)) : Except String (Option (IdempotencyRecord × Bool)))⟩

/-- In a schedule the response recorded for one request is replayed to another:
the other finds the completed record, and its result is the response. -/
def Replayed (ext : Externals) (start : Handlers) (moves : List (Move Input)) (u t : ℕ) : Prop :=
  ∃ first i rest key record expired statusCode contentType body,
    moves = first ++ .step t i :: rest ∧
    (start.play (host ext) first).nextEvent (host ext) t i = some (found key record expired) ∧
    recorder ext key start first = some u ∧
    ((start.play (host ext) moves).thread t).result =
      some (.alreadyCompleted statusCode contentType body)

/-- Every replay repeats a response to the request it was recorded for. -/
def Unshared (ext : Externals) (callers : ℕ → Caller) (start : Handlers)
    (moves : List (Move Input)) : Prop :=
  ∀ u t, Replayed ext start moves u t → SameRequest (callers u) (callers t)

/-! ## The handler's own request -/

variable {ext : Externals} {callers : ℕ → Caller} {works : ℕ → IdempotentOperation}
  {requests : ℕ → IdempotentRequest} {p : Handlers} {w : World} {key : String}

theorem bind_done_unit (program : Procedure Unit) : (program >>= fun _ => pure ()) = program := by
  induction program with
  | done a => rfl
  | throw e => rfl
  | ask r next ih => exact congrArg (Program.ask r) (funext ih)

/-- The pool runs the handler, whose result it also returns. -/
theorem request_handle (c : Caller) (work : IdempotentOperation) (method : String)
    (writes : method ∈ ["POST", "PUT", "PATCH"]) :
    idempotencyHandle ext method c.idempotencyKey c.tenantId c.workerKeyId c.body work.next =
      (c.request ext work).handle ext >>= fun _ => pure () := by
  unfold idempotencyHandle IdempotentRequest.handle
  rw [if_neg (by simp [c.keyed, writes]), Program.bind_assoc]
  refine congrArg (reserveOrGet ext _ _ _ >>= ·) (funext fun reservation => ?_)
  rw [Program.bind_assoc]
  exact (bind_done_unit _).symm

/-! ## Who recorded a response -/

/-- The rest of every request keeps to what the handler may ask. -/
abbrev Handled (p : Handlers) : Prop := p.Verified HandleAsks fun q => HandleShows q

theorem recordsAt_some {m : Move Input} {u : ℕ} (recorded : recordsAt p key m = some u) :
    ∃ i, m = .step u i ∧ i.databaseError = none ∧
      (p.thread u).request.bind completedKey = some key ∧
      ∃ row ∈ p.world.idempotency, row.key = key ∧ row.status = "Processing" := by
  cases m with
  | kill t => cases recorded
  | step t i =>
    simp only [recordsAt, Option.ite_none_right_eq_some, Option.some.injEq] at recorded
    obtain ⟨meets, rfl⟩ := recorded
    exact ⟨i, rfl, meets⟩

theorem completedKey_some {r : Request} (named : completedKey r = some key) :
    ∃ code contentType body, r = .idempotency (.complete key code contentType body) := by
  unfold completedKey at named
  split at named
  · next key' code contentType body =>
    cases named
    exact ⟨code, contentType, body, rfl⟩
  · cases named

/-- Who completes a reservation completes its own. -/
theorem Handled.completes (handled : Handled p) {t : ℕ}
    (completes : (p.thread t).request.bind completedKey = some key) :
    (p.thread t).operation.scopedKey = key := by
  obtain ⟨r, asks, named⟩ := Option.bind_eq_some_iff.mp completes
  obtain ⟨next, rest⟩ := Thread.rest_of_request asks
  have permitted := handled.permitted rest
  obtain ⟨code, contentType, body, rfl⟩ := completedKey_some named
  cases permitted with
  | works works => exact works.elim
  | reserves asks => cases asks
  | completes acquired => rfl

/-- **Step.** A record that is completed after a move was so before, or the move
has recorded it, with the hash and the name of the request that moved. -/
theorem completed_move (handled : Handled p) {m : Move Input} (own : CompletesOwn p m)
    {row : IdempotencyRecord} (here : row ∈ (p.move (host ext) m).world.idempotency)
    (completed : row.status = "Completed") :
    row ∈ p.world.idempotency ∨ ∃ u, recordsAt p row.key m = some u ∧
      (p.thread u).operation.scopedKey = row.key ∧
      row.payloadHash = (p.thread u).operation.payloadHash := by
  cases m with
  | kill t => exact .inl here
  | step t i =>
    by_cases running : (p.thread t).Running
    · obtain ⟨r, next, rest⟩ := running
      have asks : (p.thread t).request = some r := by simp [Thread.request, rest]
      rw [Pool.move_step rest] at here
      by_cases store : ∃ statement, r = .idempotency statement
      · obtain ⟨statement, rfl⟩ := store
        rcases completed_after here completed with
          before | ⟨rfl, runs, old, member, sameKey, hash, processing⟩
        · exact .inl before
        · have names : (p.thread t).request.bind completedKey = some row.key := by rw [asks]; rfl
          have recorded : recordsAt p row.key (.step t i) = some t :=
            if_pos ⟨runs, names, old, member, sameKey, processing⟩
          have same := own _ asks runs old member (congrArg some sameKey.symm) processing
          exact .inr ⟨t, recorded, handled.completes names, hash.symm.trans same⟩
      · rw [answer_idempotency (not_exists.mp store)] at here
        exact .inl here
    · rw [Pool.move_idle running] at here
      exact .inl here

/-- Who records a response with a move finds the reservation under way. -/
theorem recordsAt_fresh {m : Move Input} {u : ℕ} (recorded : recordsAt p key m = some u)
    (unique : PrimaryKey p.world.idempotency) {row : IdempotencyRecord}
    (here : row ∈ p.world.idempotency) (named : row.key = key) : row.status = "Processing" := by
  obtain ⟨i, -, -, -, old, member, same, processing⟩ := recordsAt_some recorded
  rw [unique.same here member (named.trans same.symm)]
  exact processing

/-- **Run.** What a schedule leaves completed is as before, unless somebody has
recorded it: then it has the name and the hash of who was last. -/
theorem recorder_spec {moves : List (Move Input)} : ∀ {start : Handlers}, Handled start →
    PrimaryKey start.world.idempotency → start.Meets (host ext) CompletesOwn moves →
    ∀ {row : IdempotencyRecord}, row ∈ (start.play (host ext) moves).world.idempotency →
    row.status = "Completed" →
    (recorder ext row.key start moves = none ∧ row ∈ start.world.idempotency) ∨
      ∃ u, recorder ext row.key start moves = some u ∧
        (start.thread u).operation.scopedKey = row.key ∧
        row.payloadHash = (start.thread u).operation.payloadHash := by
  induction moves with
  | nil => exact fun _ _ _ row here _ => .inl ⟨rfl, here⟩
  | cons m rest ih =>
    intro start handled unique met row here completed
    rcases ih (handled.move m) (unique.move ext m) met.2 here completed with
      ⟨nobody, before⟩ | ⟨u, recorded, own⟩
    · rcases completed_move handled met.1 before completed with earlier | ⟨u, recorded, own⟩
      · refine .inl ⟨?_, earlier⟩
        cases now : recordsAt start row.key m with
        | none => simp [recorder, nobody, now]
        | some u =>
          have processing := recordsAt_fresh now unique earlier rfl
          exact absurd (processing.symm.trans completed) (by decide)
      · exact .inr ⟨u, by simp [recorder, nobody, recorded], own⟩
    · rw [Pool.operation_move] at own
      exact .inr ⟨u, by simp [recorder, recorded], own⟩

/-! ## What a request finds -/

/-- The question for the record of a name. -/
def Fetches : Request → Prop
  | .idempotency (.fetch _) => True
  | _ => False

/-- Any other question. -/
def Proceeds (r : Request) : Prop := ¬ Fetches r

/-- A request asks for its record first, and once. -/
def AsksFirst (log : Log) (r : Request) : Prop := Fetches r → log = []

theorem proceeds_ask {r : Request} (proceeds : Proceeds r) : (ask r).Only Proceeds :=
  ⟨proceeds, fun _ => trivial⟩

theorem proceeds_bind {α : Type} {r : Request} {k : r.Reply → Procedure α}
    (proceeds : Proceeds r) (rest : ∀ x, (k x).Only Proceeds) : (ask r >>= k).Only Proceeds :=
  (proceeds_ask proceeds).bind rest

theorem rejected_proceeds (responseBody : String) :
    (isUnderlyingDocumentRejected ext responseBody).Only Proceeds := by
  unfold isUnderlyingDocumentRejected
  split
  · trivial
  · refine proceeds_bind (fun h => h) fun x => ?_
    split <;> trivial

theorem reserveExisting_proceeds (hash worker : String) (record : IdempotencyRecord)
    (expired : Bool) :
    (reserveExisting ext key hash worker record expired).Only Proceeds := by
  unfold reserveExisting
  refine .ite (fun _ => ?_) fun _ => .ite (fun _ => ?_) fun _ => .ite (fun _ => ?_) fun _ => trivial
  · refine Program.Only.bind (.ite (fun _ => trivial) fun _ => rejected_proceeds _) fun failed => ?_
    refine .ite (fun _ => ?_) fun _ => trivial
    exact proceeds_bind (fun h => h) fun x => (Program.only_raise _).bind fun _ => trivial
  · refine Program.Only.bind (.ite (fun _ => (rejected_proceeds _).bind fun _ => trivial)
      fun _ => trivial) fun stands => ?_
    refine .ite (fun _ => trivial) fun _ => ?_
    exact proceeds_bind (fun h => h) fun x => (Program.only_raise _).bind fun _ => trivial
  · refine proceeds_bind (fun h => h) fun x => (Program.only_raise _).bind fun got => ?_
    exact .ite (fun _ => trivial) fun _ => trivial

theorem working_proceeds (r : Request) (works : Working r) : Proceeds r := by
  intro fetches
  cases r with
  | idempotency statement => exact works
  | _ => exact fetches

theorem callback_proceeds (response : HttpResponse) :
    (idempotentCallback ext key response).Only Proceeds := by
  unfold idempotentCallback
  refine .ite (fun _ => ?_) fun _ => ?_
  · exact proceeds_bind (fun h => h) fun x =>
      (Program.only_raise _).bind fun _ => proceeds_ask fun h => h
  · exact proceeds_bind (fun h => h) fun x => proceeds_ask fun h => h

theorem answerReservation_proceeds (op : IdempotentOperation) (reservation : Reservation) :
    (answerReservation ext key op.next reservation).Only Proceeds := by
  cases reservation with
  | alreadyCompleted statusCode contentType body => exact proceeds_ask fun h => h
  | alreadyProcessing => exact proceeds_ask fun h => h
  | payloadMismatch => exact proceeds_ask fun h => h
  | reserved =>
    refine Program.Only.tryCatch ?_ fun e => proceeds_bind (fun h => h) fun _ => trivial
    refine Program.Only.bind (op.working.mono working_proceeds) fun ending => ?_
    cases ending with
    | answer response => exact callback_proceeds response
    | answerInTry response label =>
      exact (callback_proceeds response).tryCatch fun e => callback_proceeds _

theorem handle_asks_first (ext : Externals) (q : IdempotentRequest) :
    (q.handle ext).Follows (.logging AsksFirst) (fun _ _ => True) (fun _ _ => True) [] := by
  have later : ∀ {p : Procedure Reservation} {log : Log}, p.Only Proceeds →
      p.Follows (.logging AsksFirst) (fun _ _ => True) (fun _ _ => True) log := fun only =>
    only.follows (fun _ _ proceeds fetches => absurd fetches proceeds) (fun _ _ h => h) trivial
  unfold IdempotentRequest.handle reserveOrGet
  rw [Program.bind_assoc]
  refine (follows_logging_bind (I := Api) _ _).mpr ⟨fun _ => rfl, fun x => later ?_⟩
  refine Program.Only.bind ((Program.only_raise _).bind fun read => ?_) fun reservation =>
    (answerReservation_proceeds q.operation reservation).bind fun _ => trivial
  split
  · exact reserveExisting_proceeds _ _ _ _
  · refine proceeds_bind (fun h => h) fun x => (Program.only_raise _).bind fun got => ?_
    exact .ite (fun _ => trivial) fun _ => trivial

/-- No request has fetched twice. -/
def FetchedOnce (p : Handlers) : Prop :=
  ∀ t, ∀ e ∈ (p.thread t).log, ∀ e' ∈ (p.thread t).log, Fetches e.request → Fetches e'.request → e = e'

theorem FetchedOnce.move (once : FetchedOnce p)
    (first : p.Verified (fun _ => AsksFirst) fun _ _ _ => True) (m : Move Input) :
    FetchedOnce (p.move (host ext) m) := by
  intro u e here e' here' fetches fetches'
  cases m with
  | kill t =>
    rw [Pool.log_kill] at here here'
    exact once u e here e' here' fetches fetches'
  | step t i =>
    by_cases running : (p.thread t).Running
    · obtain ⟨r, next, rest⟩ := running
      rw [Pool.log_step rest] at here here'
      split at here
      · next same =>
        rw [if_pos same] at here'
        have earlier : ∀ {x}, x ∈ (p.thread t).log → Fetches r → False := fun member asks => by
          rw [first.permitted rest asks] at member
          exact absurd member List.not_mem_nil
        rcases List.mem_append.mp here with old | new <;>
          rcases List.mem_append.mp here' with old' | new'
        · exact once t e old e' old' fetches fetches'
        · obtain rfl := List.mem_singleton.mp new'
          exact (earlier old fetches').elim
        · obtain rfl := List.mem_singleton.mp new
          exact (earlier old' fetches).elim
        · rw [List.mem_singleton.mp new, List.mem_singleton.mp new']
      · next other =>
        rw [if_neg other] at here'
        exact once u e here e' here' fetches fetches'
    · rw [Pool.move_idle running] at here here'
      exact once u e here e' here' fetches fetches'

theorem fetchedOnce_play (requests : ℕ → IdempotentRequest) (w : World)
    (moves : List (Move Input)) :
    FetchedOnce ((handlers ext requests w).play (host ext) moves) := by
  have start : (handlers ext requests w).Verified (fun _ => AsksFirst) (fun _ _ _ => True) ∧
      FetchedOnce (handlers ext requests w) :=
    ⟨fun t => handle_asks_first ext (requests t), fun _ _ member => absurd member List.not_mem_nil⟩
  exact (Pool.play_invariant (J := fun p : Handlers =>
      p.Verified (fun _ => AsksFirst) (fun _ _ _ => True) ∧ FetchedOnce p)
    (fun p m ⟨first, once⟩ _ => ⟨first.move m, once.move first m⟩) start
    (Pool.meets_true _ moves)).2

/-- A request fetches the record of its own name. -/
theorem Handled.fetches (handled : Handled p) {t : ℕ} {next}
    (rest : (p.thread t).rest = .ask (.idempotency (.fetch key)) next) :
    (p.thread t).operation.scopedKey = key := by
  have permitted := handled.permitted rest
  cases permitted with
  | works works => exact works.elim
  | reserves asks =>
    cases asks
    rfl

/-- **Provenance.** A response is replayed to requests of the same name and the
same hash as the one it was recorded for, while no completion meets a
reservation with another hash. -/
theorem Replayed.coincides {moves : List (Move Input)} {u t : ℕ} (empty : w.idempotency = [])
    (met : (handlers ext requests w).Meets (host ext) CompletesOwn moves)
    (replayed : Replayed ext (handlers ext requests w) moves u t) :
    (requests u).scopedKey = (requests t).scopedKey ∧
      (requests u).payloadHash = (requests t).payloadHash := by
  obtain ⟨first, i, rest, key, record, expired, statusCode, contentType, body, rfl, reads, recorded,
    returned⟩ := replayed
  have start : Handled (handlers ext requests w) := fun t => handle_follows ext (requests t)
  have unique : PrimaryKey (handlers ext requests w).world.idempotency := by
    change PrimaryKey w.idempotency
    rw [empty]
    exact List.nodup_nil
  obtain ⟨metFirst, -⟩ := Pool.meets_append.mp met
  have named : ∀ moves t, (((handlers ext requests w).play (host ext) moves).thread t).operation =
      requests t := fun moves t => Pool.operation_play t moves
  have handled : ∀ moves, Handled ((handlers ext requests w).play (host ext) moves) := fun moves =>
    Pool.play_invariant (fun _ m handled _ => handled.move m) start (Pool.meets_true _ moves)
  -- the record was in the table when it was found
  obtain ⟨next, asks, answered⟩ := Pool.nextEvent_some reads
  have own := (handled first).fetches asks
  rw [named] at own
  obtain ⟨here, sameKey⟩ := fetched_mem (List.mem_singleton.mpr (congrArg (Event.mk _) answered.symm))
  -- and is the one the result was made from
  have result := (handled _).returned returned
  obtain ⟨record', expired', read, hash, completed, -⟩ := result
  rw [named] at read hash
  have event := Pool.history_play (h := host ext) (Pool.history_step reads) rest
  have played : ((handlers ext requests w).play (host ext) first |>.move (host ext) (.step t i)).play
      (host ext) rest = (handlers ext requests w).play (host ext) (first ++ .step t i :: rest) :=
    (Pool.play_append _ first (.step t i :: rest)).symm
  rw [played] at event
  have seen := (Pool.told_play (IdempotentRequest.handle ext) requests w _ t _).mp event
  have same := fetchedOnce_play requests w _ t _ seen _ read trivial trivial
  obtain rfl : record = record' := by
    have replies := eq_of_heq (Event.mk.inj same).2
    exact (Prod.mk.inj (Option.some.inj (Except.ok.inj replies))).1
  rcases recorder_spec start unique metFirst here completed with ⟨-, before⟩ | ⟨v, last, name, equal⟩
  · change record ∈ w.idempotency at before
    rw [empty] at before
    exact absurd before List.not_mem_nil
  · rw [sameKey, recorded] at last
    obtain rfl := Option.some.inj last
    exact ⟨name.trans (sameKey.trans own.symm), equal.symm.trans hash⟩

/-! ## Two requests, one after the other -/

/-- Where a request is, and the world it is in. -/
structure Stands (p : Handlers) (t : ℕ) (w : World) (rest : Procedure Reservation) : Prop where
  world : p.world = w
  rest : (p.thread t).rest = rest

theorem Stands.step {t : ℕ} {r : Request} {next : r.Reply → Procedure Reservation} {x : r.Reply}
    {w' : World} (stands : Stands p t w (.ask r next))
    (answer : (host ext).answer {} w r = (x, w')) :
    Stands (p.move (host ext) (.step t {})) t w' (next x) := by
  obtain ⟨rfl, rest⟩ := stands
  rw [Pool.move_step (show (p.thread t).rest = .ask (I := Api) r next from rest), answer]
  refine ⟨rfl, ?_⟩
  dsimp only
  rw [Function.update_self]

theorem Stands.request {t : ℕ} {r : Request} {next : r.Reply → Procedure Reservation}
    (stands : Stands p t w (.ask r next)) : (p.thread t).request = some r := by
  simp [Thread.request, stands.rest]

/-- A question that completes nothing completes nothing of others. -/
theorem Stands.completesOwn {t : ℕ} {r : Request} {next : r.Reply → Procedure Reservation}
    (stands : Stands p t w (.ask r next)) (nothing : completedKey r = none) :
    CompletesOwn p (.step t {}) := by
  intro r' asks _ row _ completes
  rw [stands.request] at asks
  cases asks
  rw [nothing] at completes
  cases completes

/-- An operation that succeeds. -/
def succeeds : IdempotentOperation where
  work := return .answer { statusCode := 200, body := .text "" "" }
  working := trivial

/-- The record of a request under way. -/
def reservedRecord (q : IdempotentRequest) (clock : ℕ) : IdempotencyRecord :=
  ⟨q.scopedKey, q.workerKeyId, q.payloadHash, "Processing", 0, "application/json", "", clock,
    clock + retention⟩

/-- And after it has succeeded. -/
def successRecord (q : IdempotentRequest) (clock : ℕ) : IdempotencyRecord :=
  { reservedRecord q clock with
    status := "Completed", statusCode := 200, contentType := "", responseBody := "" }

theorem fetch_answer (ext : Externals) (w : World) (key : String) :
    (host ext).answer {} w (.idempotency (.fetch key)) =
      ((.ok ((fetchRecord key w.idempotency).map fun r =>
        (r, IdempotencyRecord.leaseExpired w.clock r)) :
          Except String (Option (IdempotencyRecord × Bool))), w) := rfl

theorem complete_answer (ext : Externals) (q : IdempotentRequest) (clock : ℕ)
    (reserved : w.idempotency = [reservedRecord q clock]) :
    (host ext).answer {} w (.idempotency (.complete q.scopedKey 200 "" "")) =
      ((.ok () : Except String Unit), { w with idempotency := [successRecord q clock] }) := by
  have changed : onRecord q.scopedKey (fun r => if r.status = "Processing" then
      { r with status := "Completed", statusCode := 200, contentType := "", responseBody := "" }
      else r) w.idempotency = [successRecord q clock] := by
    simp [onRecord, reserved, reservedRecord, successRecord]
  change (_, { w with idempotency := onRecord q.scopedKey _ w.idempotency }) = _
  rw [changed]
  rfl

/-- The handler on an empty table: it reserves, completes and answers. -/
theorem first_stands (ext : Externals) {c : Caller} {u : ℕ} {p : Handlers} (empty : w.idempotency = [])
    (stands : Stands p u w ((c.request ext succeeds).handle ext)) :
    let q := c.request ext succeeds
    let p₁ := p.move (host ext) (.step u {})
    let p₂ := p₁.move (host ext) (.step u {})
    let p₃ := p₂.move (host ext) (.step u {})
    (∃ next, Stands p₁ u w
      (.ask (.idempotency (.insert q.scopedKey q.payloadHash q.workerKeyId)) next)) ∧
    (∃ next, Stands p₂ u { w with idempotency := [reservedRecord q w.clock] }
      (.ask (.idempotency (.complete q.scopedKey 200 "" "")) next)) ∧
    ∃ response next, Stands p₃ u { w with idempotency := [successRecord q w.clock] }
      (.ask (.respond response) next) := by
  have absent : fetchRecord c.scopedKey w.idempotency = none := by simp [fetchRecord, empty]
  have fetched := fetch_answer ext w c.scopedKey
  rw [absent] at fetched
  have inserted : (host ext).answer {} w
        (.idempotency (.insert c.scopedKey (ext.sha256 c.body) c.workerKeyId)) =
      ((.ok true : Except String Bool), { w with
        idempotency := w.idempotency ++ [reservedRecord (c.request ext succeeds) w.clock] }) :=
    IdempotentReplays.insert_answer (by simp [empty])
  rw [empty] at inserted
  have s₁ := Stands.step stands fetched
  have s₂ := Stands.step s₁ inserted
  have s₃ := Stands.step s₂ (complete_answer ext (c.request ext succeeds) w.clock rfl)
  exact ⟨⟨_, s₁⟩, ⟨_, s₂⟩, _, _, s₃⟩

/-- The record of a coinciding request stands. -/
theorem reserveExisting_success (ext : Externals) {a c : Caller} (coincide : Coincide a c)
    (clock : ℕ) (expired : Bool) :
    reserveExisting ext c.scopedKey (ext.sha256 c.body) c.workerKeyId
      (successRecord (a.request ext succeeds) clock) expired =
        .done (.alreadyCompleted 200 "" "") := by
  have same : (successRecord (a.request ext succeeds) clock).payloadHash = ext.sha256 c.body :=
    congrArg ext.sha256 coincide.2
  have blank : storedDocumentId ext "" = none := by
    have absent : contains "" "\"documentId\"" = false := by decide
    simp [storedDocumentId, absent]
  have unrejected : isUnderlyingDocumentRejected ext "" = pure false := by
    simp [isUnderlyingDocumentRejected, blank]
  have standing : standsCompleted ext (successRecord (a.request ext succeeds) clock) = pure true := by
    unfold standsCompleted
    rw [if_pos (by simp [successRecord])]
    change (isUnderlyingDocumentRejected ext "" >>= fun rejected => pure !rejected) = _
    rw [unrejected]
    rfl
  have completed : (successRecord (a.request ext succeeds) clock).status = "Completed" := rfl
  unfold reserveExisting
  rw [if_neg (not_not_intro same), if_pos completed, standing]
  rfl

/-- The handler on the record of a coinciding request: it finds the record and
answers with its response. -/
theorem second_stands (ext : Externals) {a c : Caller} {t clock : ℕ} {p : Handlers}
    (coincide : Coincide a c)
    (kept : w.idempotency = [successRecord (a.request ext succeeds) clock])
    (stands : Stands p t w ((c.request ext succeeds).handle ext)) :
    let p₁ := p.move (host ext) (.step t {})
    let p₂ := p₁.move (host ext) (.step t {})
    (∃ expired, p.nextEvent (host ext) t {} =
      some (found c.scopedKey (successRecord (a.request ext succeeds) clock) expired)) ∧
    (∃ response next, Stands p₁ t w (.ask (.respond response) next)) ∧
    (p₂.thread t).result = some (.alreadyCompleted 200 "" "") := by
  have there : fetchRecord c.scopedKey w.idempotency =
      some (successRecord (a.request ext succeeds) clock) := by
    rw [kept, ← coincide.1]
    simp [fetchRecord, successRecord, reservedRecord, Caller.request]
  have fetched := fetch_answer ext w c.scopedKey
  rw [there] at fetched
  have s₁ := Stands.step stands fetched
  change Stands _ t w ((reserveExisting ext c.scopedKey (ext.sha256 c.body) c.workerKeyId _ _).bind
    fun reservation => do
      answerReservation ext c.scopedKey succeeds.next reservation
      pure reservation) at s₁
  rw [reserveExisting_success ext coincide] at s₁
  refine ⟨⟨IdempotencyRecord.leaseExpired w.clock (successRecord (a.request ext succeeds) clock), ?_⟩,
    ⟨_, _, s₁⟩, ?_⟩
  · unfold Pool.nextEvent
    rw [stands.rest]
    change some (⟨.idempotency (.fetch c.scopedKey),
      ((host ext).answer {} p.world (.idempotency (.fetch c.scopedKey))).1⟩ : Event Api) = _
    rw [stands.world, fetched]
    rfl
  · have answered : ∀ response, (host ext).answer {} w (.respond response) = ((), w) := fun _ => rfl
    have s₂ := Stands.step s₁ (answered _)
    unfold Thread.result
    rw [s₂.rest]
    rfl

/-- **Crossing.** Of two coinciding requests one gets the response recorded for
the other: it only has to succeed, and the other to come after it. -/
theorem coinciding_replayed (ext : Externals) (callers : ℕ → Caller) (empty : w.idempotency = [])
    {u t : ℕ} (other : t ≠ u) (coincide : Coincide (callers u) (callers t)) :
    let moves := [.step u {}, .step u {}, .step u {}, .step u {}, .step t {}, .step t {}]
    let start := callPool ext callers (fun _ => succeeds) w
    start.Meets (host ext) CompletesOwn moves ∧ Replayed ext start moves u t := by
  intro moves start
  have s₀ : Stands start u w (((callers u).request ext succeeds).handle ext) := ⟨rfl, rfl⟩
  obtain ⟨⟨next₁, s₁⟩, ⟨next₂, s₂⟩, response, next₃, s₃⟩ := first_stands ext empty s₀
  have answered : ∀ v response, (host ext).answer {} v (.respond response) = ((), v) :=
    fun _ _ => rfl
  have s₄ := Stands.step s₃ (answered _ response)
  have idle : Stands (start.play (host ext) [.step u {}, .step u {}, .step u {}, .step u {}]) t
      { w with idempotency := [successRecord ((callers u).request ext succeeds) w.clock] }
      (((callers t).request ext succeeds).handle ext) := by
    refine ⟨s₄.world, ?_⟩
    simp only [Pool.play, List.foldl, Pool.thread_step other]
    rfl
  obtain ⟨⟨expired, finds⟩, ⟨response', next₅, s₅⟩, returned⟩ :=
    second_stands ext coincide rfl idle
  refine ⟨⟨s₀.completesOwn rfl, s₁.completesOwn rfl, ?_, s₃.completesOwn rfl,
    idle.completesOwn rfl, s₅.completesOwn rfl, trivial⟩,
    [.step u {}, .step u {}, .step u {}, .step u {}], {}, [.step t {}], _, _, expired, 200, "", "",
    rfl, finds, ?_, returned⟩
  · intro r asks _ row here _ _
    rw [s₂.world] at here
    rw [List.mem_singleton.mp here, Pool.operation_move, Pool.operation_move]
    rfl
  · have last : recordsAt ((((start.move (host ext) (.step u {})).move (host ext)
        (.step u {}))).move (host ext) (.step u {})) (callers t).scopedKey (.step u {}) = none := by
      simp [recordsAt, s₃.request, completedKey]
    have completes : recordsAt ((start.move (host ext) (.step u {})).move (host ext) (.step u {}))
        (callers t).scopedKey (.step u {}) = some u := by
      refine if_pos ⟨rfl, ?_, reservedRecord ((callers u).request ext succeeds) w.clock, ?_,
        coincide.1, rfl⟩
      · rw [s₂.request]
        exact congrArg some coincide.1
      · rw [s₂.world]
        exact List.mem_singleton_self _
    simp only [recorder, last, completes, Option.or_none, Option.none_or, Option.some_or]

/-! ## Replays and requests -/

/-- **Scopes.** Whatever the operations come to, and in every schedule from no
records in which a completion never meets a reservation of its name with another
hash, a response is replayed only to the request it was recorded for, exactly
when requests that coincide are the same. -/
theorem replays_unshared_iff (ext : Externals) (collisionFree : Function.Injective ext.sha256)
    (callers : ℕ → Caller) (w : World) (empty : w.idempotency = []) :
    (∀ works moves, (callPool ext callers works w).Meets (host ext) CompletesOwn moves →
        Unshared ext callers (callPool ext callers works w) moves) ↔
      ∀ u t, Coincide (callers u) (callers t) → SameRequest (callers u) (callers t) := by
  constructor
  · intro unshared u t coincide
    by_cases same : t = u
    · subst same
      exact ⟨rfl, rfl, rfl, rfl⟩
    · obtain ⟨met, replayed⟩ := coinciding_replayed ext callers empty same coincide
      exact unshared _ _ met u t replayed
  · intro distinct works moves met u t replayed
    obtain ⟨name, hash⟩ := replayed.coincides empty met
    exact distinct u t ⟨name, collisionFree hash⟩

/-- With tenants that hold no colon, a name is of one tenant and one key. -/
theorem same_of_plain {a b : Caller} (left : ':' ∉ a.tenantId.toList)
    (right : ':' ∉ b.tenantId.toList) (operation : a.operation = b.operation)
    (coincide : Coincide a b) : SameRequest a b := by
  have names := congrArg String.toList coincide.1
  simp only [Caller.scopedKey, String.toList_append, List.append_assoc] at names
  obtain ⟨tenant, key⟩ := cut_first left right names
  exact ⟨String.toList_inj.mp tenant, operation, String.toList_inj.mp key, coincide.2⟩

/-- One request of a tenant, and others with other keys. -/
def sampleCallers (t : ℕ) : Caller where
  operation := .send
  tenantId := "tenant"
  idempotencyKey := if t = 0 then "a" else "b"
  body := "\x7b\"xmlContent\":\"<ECF/>\",\"fileName\":\"101672919E310000000001.xml\"," ++
    "\"rncEmisor\":\"101672919\",\"eNcf\":\"E310000000001\"\x7d"
  workerKeyId := "worker"
  keyed := by split <;> decide

theorem tenant_plain : ':' ∉ "tenant".toList := by decide

theorem replays_unshared_sample : Unshared sampleExternals sampleCallers
    (callPool sampleExternals sampleCallers (fun _ => succeeds) sampleWorld)
    [.step 1 {}, .step 1 {}, .step 1 {}, .step 1 {}, .step 2 {}, .step 2 {}] :=
  (replays_unshared_iff sampleExternals (fun _ _ same => same) sampleCallers sampleWorld rfl).mpr
    (fun _ _ coincide => same_of_plain tenant_plain tenant_plain rfl coincide)
    (fun _ => succeeds) _ (by decide +kernel)

/-! ## One key for two operations -/

/-- The same tenant, key and body, for `/api/ecf/send` and for `/api/ecf/send-rfce`. -/
def crossedCallers (t : ℕ) : Caller :=
  { sampleCallers 0 with operation := if t = 0 then .send else .sendRfce }

/-- The second is answered with the response of the first. -/
theorem operations_share_responses : ¬ Unshared sampleExternals crossedCallers
    (callPool sampleExternals crossedCallers (fun _ => succeeds) sampleWorld)
    [.step 0 {}, .step 0 {}, .step 0 {}, .step 0 {}, .step 1 {}, .step 1 {}] := by
  intro unshared
  have distinct : (1 : ℕ) ≠ 0 := by decide
  have replayed := (coinciding_replayed (w := sampleWorld) sampleExternals crossedCallers rfl
    distinct ⟨rfl, rfl⟩).2
  exact absurd (unshared 0 1 replayed).2.1 (by decide)

end EcfDgii.ReplayScopes
