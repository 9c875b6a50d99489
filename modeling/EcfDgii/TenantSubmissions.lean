import EcfDgii.TenantData

/-!
Submissions of one tenant beside the others.

All tenants share the tables, the indexes and the process.  A submission whose
document is for the tenant that asks (`OfTenant`) behaves as if the others were
not there: it answers the same, changes the tenant's documents, sequences and
records the same, and leaves everybody else's as they were.

The comparison is of a run with the run in the tenant's own part of the store,
request by request (`run_ownData`); two stores with the same part are compared
through it.  `Known` is what a submission has seen: the rows it looked up and
the numbers it was issued are the tenant's, so what it writes is apart.
-/

set_option autoImplicit false

namespace EcfDgii.TenantSubmissions

open EcfDgii.Text EcfDgii.Documents EcfDgii.Tables EcfDgii.Programs EcfDgii.Execution
open EcfDgii.Engine EcfDgii.CanonicalXml EcfDgii.Transmission EcfDgii.Submission EcfDgii.Traces
open EcfDgii.SubmissionTrace EcfDgii.SubmissionFollows EcfDgii.StatusTrace
open EcfDgii.DocumentInvariants EcfDgii.SequenceNumbers EcfDgii.FiscalNumbers
open EcfDgii.WrappedOperations EcfDgii.ReplayScopes EcfDgii.TenantData

/-! ## Stores that keep the tenants apart -/

variable {ext : Externals} {services : Services} {req : SubmitRequest} {T : String}
  {start w v : World} {log : Log} {t : SubmissionTarget} {r : Request} {row : EcfDocumentRow}
  {d : EcfDocument} {input : Input}

/-- The key of the request's idempotency record. -/
def scopedKey (req : SubmitRequest) : String := requestedTenant req ++ ":" ++ req.idempotencyKey

/-- A document of another tenant. -/
def Foreign (T : String) (w : World) (row : EcfDocumentRow) : Prop :=
  row ∈ w.documents.rows ∧ row.tenantId ≠ T

/-- A number the tenant may put on a document: one of its ranges, or of one of
its documents. -/
def MayCarry (T ambiente : String) (w : World) (eNcf : String) : Prop :=
  MayIssue w.sequences T ambiente eNcf ∨
    ∃ row ∈ w.documents.rows, row.tenantId = T ∧ row.eNcf = eNcf

/-- A store in which what the tenants have is apart. -/
structure Separate (ext : Externals) (services : Services) (req : SubmitRequest) (T : String)
    (w : World) : Prop where
  /-- The primary key of the sequences. -/
  sequences : (w.sequences.map (·.id)).Nodup
  /-- No other tenant's document of the issuer carries a number the tenant may. -/
  numbers : ∀ t, resolveTarget services req = .ok t → ∀ row, Foreign T w row →
    row.rncEmisor = t.emisorRnc → row.ambiente = some (ambienteToString t.ambiente) →
      ¬ MayCarry T (ambienteToString t.ambiente) w row.eNcf
  /-- The response stored for the request names no other tenant's document. -/
  records : ∀ record ∈ w.idempotency, record.key = scopedKey req →
    ∀ id, storedDocumentId ext record.responseBody = some id →
      ∀ row, Foreign T w row → row.id ≠ id

/-- A drawn uuid is no id of another tenant's document. -/
def Unused (T : String) (w : World) (e : Event Api) : Prop :=
  ∀ id : String, e = ⟨.newUuid, id⟩ → ∀ row, Foreign T w row → row.id ≠ id

/-! ## What a run knows -/

/-- What a submission of the tenant has seen, beside the others' documents. -/
structure Known (ext : Externals) (services : Services) (req : SubmitRequest) (T : String)
    (start : World) (log : Log) (w : World) : Prop where
  beside : Beside T (Foreign T start) w
  asked : Along (fun before e => SubmitAsks ext services req before e.request) log
  shown : Along (fun _ e => Shown start.sequences e) log
  drawn : ∀ e ∈ log, Unused T start e
  origins : ∀ s ∈ w.sequences, Origin start.sequences s
  unwritten : (progress log).written = none → w.documents = start.documents
  found : ∀ row, (progress log).found = some row → row ∈ start.documents.rows
  written : ∀ d, (progress log).written = some d → Apart T (Foreign T start) d
  first : log = [] → w.idempotency = start.idempotency
  fetched : ∀ record expired, (⟨.idempotency (.fetch (scopedKey req)),
    (.ok (some (record, expired)) : Except String (Option (IdempotencyRecord × Bool)))⟩ :
      Event Api) ∈ log → record ∈ start.idempotency ∧ record.key = scopedKey req

/-- The request goes through the idempotency store. -/
def Keyed (req : SubmitRequest) : Prop :=
  ¬ (req.idempotencyKey = "" ∨ req.method ∉ ["POST", "PUT", "PATCH"])
  deriving Decidable

/-- A request of a tenant that stays in it. -/
structure OfTenant (services : Services) (req : SubmitRequest) (T : String) : Prop where
  record : Keyed req → InScope T (scopedKey req)
  target : ∀ t, resolveTarget services req = .ok t → t.tenantId = T ∧ Plain T

/-- A request asks for its record first, and for none without a key. -/
def AsksStore (req : SubmitRequest) (log : Log) (r : Request) : Prop :=
  AsksFirst log r ∧ ∀ statement, r = .idempotency statement → Keyed req

theorem submit_asks_store (ext : Externals) (services : Services) (req : SubmitRequest) :
    (submit ext services req).Follows (.logging (AsksStore req)) (fun _ _ => True)
      (fun _ _ => True) [] := by
  rw [submit_eq]
  by_cases keyed : Keyed req
  · obtain ⟨named, method⟩ := not_or.mp keyed
    let caller : Caller := ⟨.documents, requestedTenant req, req.idempotencyKey, req.bodyText,
      req.workerKeyId.getD "default-worker", named⟩
    have first : (idempotencyHandle ext req.method req.idempotencyKey (requestedTenant req)
        (req.workerKeyId.getD "default-worker") req.bodyText
        (submitOperation ext services req).next).Follows (.logging AsksFirst) (fun _ _ => True)
        (fun _ _ => True) [] := by
      rw [request_handle caller (submitOperation ext services req) req.method
        (Classical.not_not.mp method)]
      exact (handle_asks_first ext _).bind fun _ _ _ => trivial
    exact first.and first (fun _ _ asks _ => ⟨asks, fun _ _ => keyed⟩) fun _ _ _ _ h => ⟨h, h⟩
  · unfold idempotencyHandle
    rw [if_pos (Classical.not_not.mp keyed)]
    have silent : ((submitOperation ext services req).next respond).Only
        fun r : Request => ∀ statement, r ≠ .idempotency statement := by
      refine ((submitOperation ext services req).working.mono ?_).bind fun ending => ?_
      · rintro r works statement rfl
        exact works
      · cases ending with
        | answer response => exact ⟨fun _ => nofun, fun _ => trivial⟩
        | answerInTry response label =>
          exact Program.Only.tryCatch ⟨fun _ => nofun, fun _ => trivial⟩ fun _ =>
            ⟨fun _ => nofun, fun _ => trivial⟩
    refine silent.follows (P := fun _ => True) (fun log r other => ⟨fun fetches => ?_, ?_⟩)
      (fun _ _ _ => trivial) trivial
    · cases r with
      | idempotency statement => exact absurd rfl (other statement)
      | _ => exact fetches.elim
    · exact fun statement same => absurd same (other statement)

theorem known_start (separate : Separate ext services req T start) :
    Known ext services req T start [] start where
  beside := ⟨⟨fun _ member other => ⟨member, other⟩, fun _ other => other.2⟩, separate.sequences⟩
  asked := along_nil _
  shown := along_nil _
  drawn _ member := absurd member List.not_mem_nil
  origins s member := ⟨s, member, rfl, .refl⟩
  unwritten _ := rfl
  found _ none := by cases none
  written _ none := by cases none
  first _ := rfl
  fetched _ _ member := absurd member List.not_mem_nil

/-- A document of the tenant, as it is, is apart. -/
theorem apart_own (member : row ∈ start.documents.rows) (own : row.tenantId = T) :
    Apart T (Foreign T start) row.toEcfDocument := by
  have other : ∀ row', Foreign T start row' → row'.id ≠ row.id := by
    rintro row' ⟨present, foreign⟩ same
    exact foreign (DocumentTable.eq_of_id present member same ▸ own)
  refine ⟨own, other, fun row' foreign key named same => ?_⟩
  obtain ⟨a, here, rfl⟩ := Option.map_eq_some_iff.mp named
  obtain ⟨b, there, eq⟩ := Option.map_eq_some_iff.mp same
  obtain ⟨rnc, ambiente, number⟩ : row.rncEmisor = row'.rncEmisor ∧ b = a ∧
      row.eNcf = row'.eNcf := by simpa using eq
  subst ambiente
  exact eNcf_ne_of_index foreign.1 member (other row' foreign) here there rnc.symm number.symm

/-- A document with the submitted content is apart when its number is one the
tenant may put on it. -/
theorem apart_withContent (separate : Separate ext services req T start)
    (target : resolveTarget services req = .ok t) {time : ℕ} (own : d.tenantId = T)
    (id : ∀ row, Foreign T start row → row.id ≠ d.id)
    (ambiente : d.ambiente = none ∨ d.ambiente = some (ambienteToString t.ambiente))
    (number : MayCarry T (ambienteToString t.ambiente) start d.eNcf) :
    Apart T (Foreign T start) (withContent ext t time d) := by
  refine ⟨own, id, fun row foreign key named same => ?_⟩
  have fiscal : fiscalOf (withContent ext t time d) =
      d.ambiente.map fun ambiente => (t.emisorRnc, ambiente, d.eNcf) := rfl
  rw [fiscal] at same
  rcases ambiente with none' | some'
  · rw [none'] at same
    cases same
  · obtain ⟨a, here, rfl⟩ := Option.map_eq_some_iff.mp named
    rw [some', Option.map_some, Option.some.injEq, Prod.mk.injEq, Prod.mk.injEq] at same
    obtain ⟨rnc, rfl, same⟩ := same
    exact separate.numbers t target row foreign rnc.symm here (same ▸ number)

section Step

variable (separate : Separate ext services req T start) (tenant : OfTenant services req T)
  (known : Known ext services req T start log w)

include known in
/-- The row a submission finds is the tenant's, of the target's ambiente if any. -/
theorem Known.found_own (target : resolveTarget services req = .ok t) (own : t.tenantId = T)
    (found : (progress log).found = some row) :
    row ∈ start.documents.rows ∧ row.tenantId = T ∧
      (row.ambiente = none ∨ row.ambiente = some (ambienteToString t.ambiente)) := by
  obtain ⟨same, ambiente⟩ := found_matches target known.asked known.shown found
  exact ⟨known.found row found, same.trans own, ambiente⟩

include separate tenant known in
/-- **What a submission of the tenant writes is apart.** -/
theorem Known.apart {write : Write} (target : resolveTarget services req = .ok t)
    (h : SubmitWrite ext t log write) : Apart T (Foreign T start) write.doc := by
  obtain ⟨own, -⟩ := tenant.target t target
  have issued : ∀ {eNcf}, Issued t log eNcf → MayCarry T (ambienteToString t.ambiente) start eNcf :=
    fun issued => .inl (own ▸ mayIssue_of_issued target known.shown issued)
  cases h with
  | create fresh uuid number =>
    exact apart_withContent separate target own (known.drawn _ uuid _ rfl) (.inr rfl)
      (issued number)
  | @refresh row at' time found fresh allowed =>
    obtain ⟨member, mine, ambiente⟩ := known.found_own target own found
    exact apart_withContent separate target mine (apart_own member mine).id ambiente
      (.inr ⟨row, member, mine, rfl⟩)
  | @reissue row eNcf at' time found fresh state number =>
    obtain ⟨member, mine, ambiente⟩ := known.found_own target own found
    exact apart_withContent separate target mine (apart_own member mine).id ambiente
      (issued number)
  | @reconcile row d answer time found fresh state only =>
    obtain ⟨member, mine, -⟩ := known.found_own target own found
    dsimp only [Write.doc]
    exact ((apart_own member mine).status only).reconciled (estadoOf ext answer)
  | signingFailed written =>
    have apart := known.written _ written
    exact ⟨apart.tenant, apart.id, apart.fiscal⟩
  | schemaInvalid written =>
    have apart := known.written _ written
    exact ⟨apart.tenant, apart.id, apart.fiscal⟩
  | unsigned written =>
    have apart := known.written _ written
    exact ⟨apart.tenant, apart.id, apart.fiscal⟩
  | awaiting written =>
    have apart := known.written _ written
    exact ⟨apart.tenant, apart.id, apart.fiscal⟩
  | outcome written state outcome => exact (known.written _ written).status outcome.only

include separate tenant known in
/-- **What a submission of the tenant asks stays in it.** -/
theorem Known.inTenant (asks : SubmitAsks ext services req log r)
    (store : ∀ statement, r = .idempotency statement → Keyed req) :
    InTenant T (Foreign T start) r := by
  cases asks with
  | outside h => exact .outside h
  | reservation h =>
    cases h with
    | @documentState record expired id read named =>
      obtain ⟨member, key⟩ := known.fetched record expired read
      exact .state fun row foreign => separate.records record member key id named row foreign
    | _ => exact .record rfl (tenant.record (store _ rfl))
  | lookup target fresh =>
    obtain ⟨own, -⟩ := tenant.target _ target
    rw [own]
    exact .lookup
  | @allocate t target =>
    obtain ⟨own, plain⟩ := tenant.target _ target
    rcases scopeOf_cases target with ⟨bare, default⟩ | named
    · refine .allocate (bare ▸ own ▸ inScope_self T) fun other renamed => ?_
      rw [bare, default, show alternativeScope "default-tenant" = none by decide] at renamed
      cases renamed
    · rw [named, own]
      exact .allocate (inScope_colon ..) fun other renamed => alternativeScope_inScope T _ renamed
  | @release t eNcf target =>
    obtain ⟨own, plain⟩ := tenant.target _ target
    rcases scopeOf_cases target with ⟨bare, default⟩ | named
    · refine .release (bare ▸ own ▸ inScope_self T) fun other before => ?_
      rw [bare, default, show beforeColon "default-tenant" = none by decide] at before
      cases before
    · rw [named, own]
      exact .release (inScope_colon ..) fun other before => beforeColon_scope plain before
  | save target staged h => exact .save (known.apart separate tenant target h)
  | transmit => exact .post

/-- A lookup that finds a row shows it. -/
theorem found_next {p : Progress} {tenantId sourceTxnId : String} {ambiente : Option String}
    {x : Except String (Option EcfDocumentRow)}
    (h : (p.after ⟨.documentBySourceTxnId tenantId sourceTxnId ambiente, x⟩).found = some row) :
    p.found = some row ∨ row ∈ answered x :=
  match x, h with
  | .ok (some _), h => .inr (List.mem_singleton.mpr (Option.some.inj h).symm)
  | .ok none, h => .inl h
  | .error _, h => .inl h

include separate tenant known in
/-- **Step.** -/
theorem Known.step (asks : SubmitAsks ext services req log r) (store : AsksStore req log r)
    (unused : Unused T start ⟨r, ((host ext).answer input w r).1⟩) :
    Known ext services req T start (log ++ [⟨r, ((host ext).answer input w r).1⟩])
      ((host ext).answer input w r).2 := by
  let now := { w with clock := w.clock + input.elapsed }
  have beside : Beside T (Foreign T start) now := ⟨known.beside.covers, known.beside.ids⟩
  obtain ⟨-, spared, ids⟩ := (known.inTenant separate tenant asks store.2).answer ext input beside
  obtain ⟨origins, shown⟩ := answer_shown (w := now) ext input r known.origins
  refine ⟨beside.later spared ids, known.asked.append asks, known.shown.append shown, ?_, origins,
    fun fresh => ?_, fun row found => ?_, fun d written => ?_, fun empty => by simp at empty, ?_⟩
  · intro e member
    rcases List.mem_append.mp member with old | new
    · exact known.drawn e old
    · rw [List.mem_singleton.mp new]
      exact unused
  · rw [progress_append] at fresh
    by_cases commits : ∃ writes, r = .saveChanges writes
    · obtain ⟨writes, rfl⟩ := commits
      cases asks with
      | outside h => exact h.elim
      | @save t write target staged h =>
        rcases answer_saveChanges ext input now [write] with ⟨⟨e, refused⟩, same⟩ | ⟨done, -⟩
        · rw [show ((host ext).answer input w (.saveChanges [write])).1 = .error e from refused]
            at fresh
          exact (congrArg World.documents same).trans (known.unwritten fresh)
        · rw [show ((host ext).answer input w (.saveChanges [write])).1 = .ok () from done] at fresh
          cases fresh
    · have other := fun writes same => commits ⟨writes, same⟩
      rw [after_written other] at fresh
      exact (documents_of_other (w := now) other).trans (known.unwritten fresh)
  · rw [progress_append] at found
    by_cases looks : ∃ tenantId txn ambiente, r = .documentBySourceTxnId tenantId txn ambiente
    · obtain ⟨tenantId, txn, ambiente, rfl⟩ := looks
      rcases found_next found with old | new
      · exact known.found row old
      · cases asks with
        | outside h => exact h.elim
        | lookup target fresh =>
          rw [← known.unwritten fresh.2]
          exact (getBySourceTxnId_mem (answered_database new)).1
    · rw [after_found fun a b c same => looks ⟨a, b, c, same⟩] at found
      exact known.found row found
  · rw [progress_append] at written
    by_cases commits : ∃ writes, r = .saveChanges writes
    · obtain ⟨writes, rfl⟩ := commits
      rcases after_saveChanges written with old | ⟨-, write, among, rfl⟩
      · exact known.written d old
      · cases asks with
        | outside h => exact h.elim
        | save target staged h =>
          obtain rfl := List.mem_singleton.mp among
          exact known.apart separate tenant target h
    · rw [after_written fun writes same => commits ⟨writes, same⟩] at written
      exact known.written d written
  · intro record expired member
    rcases List.mem_append.mp member with old | new
    · exact known.fetched record expired old
    · have same : .idempotency (.fetch (scopedKey req)) = r :=
        congrArg Event.request (List.mem_singleton.mp new)
      have fetches : Fetches r := same ▸ trivial
      obtain ⟨among, key⟩ := Reservations.fetched_mem new
      exact ⟨known.first (store.1 fetches) ▸ among, key⟩

end Step

/-! ## Runs -/

/-- A run of a submission, in one store. -/
def runOf (ext : Externals) (services : Services) (req : SubmitRequest) (w : World)
    (inputs : ℕ → Option Input) : Run Api Unit World :=
  (host ext).run inputs w [] (submit ext services req)

/-- No uuid drawn in the run is the id of another tenant's document. -/
def Fresh (ext : Externals) (services : Services) (req : SubmitRequest) (T : String) (w : World)
    (inputs : ℕ → Option Input) : Prop :=
  ∀ e ∈ (runOf ext services req w inputs).log, Unused T w e

/-- **A run of the tenant** goes as it goes without the others, whom it leaves as
they were. -/
theorem run_ownData (separate : Separate ext services req T w) (tenant : OfTenant services req T)
    {inputs : ℕ → Option Input} (fresh : Fresh ext services req T w inputs) :
    (runOf ext services req w inputs).log = (runOf ext services req (ownData T w) inputs).log ∧
      ownData T (runOf ext services req w inputs).world =
        (runOf ext services req (ownData T w) inputs).world ∧
      others T (runOf ext services req w inputs).world = others T w := by
  have follows : (submit ext services req).Follows
      (.logging fun log r => SubmitAsks ext services req log r ∧ AsksStore req log r)
      (fun _ _ => True) (fun _ _ => True) [] :=
    ((submit_follows ext services req).mono (fun _ _ _ => trivial) fun _ _ _ => trivial).and
      (submit_asks_store ext services req) (fun _ _ asks store => ⟨asks, store⟩)
      fun _ _ _ _ h => ⟨h, h⟩
  obtain ⟨-, logs, same, -, spared⟩ := Host.run_agree_along
    (R := fun log u v => ownData T u = v ∧ Known ext services req T w log u ∧
      others T u = others T w)
    (C := fun _ e => Unused T w e) (v := ownData T w)
    (fun log u v r i ⟨asks, store⟩ ⟨same, known, spared⟩ unused => by
      subst same
      let now := { u with clock := u.clock + i.elapsed }
      have beside : Beside T (Foreign T w) now := ⟨known.beside.covers, known.beside.ids⟩
      obtain ⟨answers, kept, -⟩ := (known.inTenant separate tenant asks store.2).answer ext i beside
      have alike : (host ext).answer i (ownData T u) r = ((answerAt ext i now r).1,
        ownData T (answerAt ext i now r).2) := answers
      exact ⟨(congrArg Prod.fst alike).symm, (congrArg Prod.snd alike).symm,
        known.step separate tenant asks store unused, kept.trans spared⟩)
    follows ⟨rfl, known_start separate, rfl⟩ fun before e cut =>
      fresh e (cut.subset (List.mem_append_right _ (List.mem_singleton_self e)))
  exact ⟨logs, same, spared⟩

/-- **Isolated.** In two stores a submission is answered the same and changes the
tenant's data the same, and nobody else's. -/
structure Isolated (ext : Externals) (services : Services) (req : SubmitRequest) (T : String)
    (w v : World) (inputs : ℕ → Option Input) : Prop where
  answers : answers (runOf ext services req w inputs).log =
    answers (runOf ext services req v inputs).log
  own : ownData T (runOf ext services req w inputs).world =
    ownData T (runOf ext services req v inputs).world
  others : others T (runOf ext services req w inputs).world = others T w ∧
    others T (runOf ext services req v inputs).world = others T v

/-- A request of the tenant is isolated. -/
theorem isolated_of_tenant (tenant : OfTenant services req T)
    (left : Separate ext services req T w) (right : Separate ext services req T v)
    (agree : ownData T w = ownData T v) {inputs : ℕ → Option Input}
    (fresh : Fresh ext services req T w inputs) (fresh' : Fresh ext services req T v inputs) :
    Isolated ext services req T w v inputs := by
  obtain ⟨logs, same, spared⟩ := run_ownData left tenant fresh
  obtain ⟨logs', same', spared'⟩ := run_ownData right tenant fresh'
  rw [← agree] at logs' same'
  exact ⟨congrArg answers (logs.trans logs'.symm), same.trans same'.symm, spared, spared'⟩

/-- A request made under one tenant's name: a user's, who has his claims' or his
header's, or one whose header names it. -/
def UnderOneName (req : SubmitRequest) : Prop :=
  isWorkerOrSuperAdmin req.role req.clientType = false ∨ req.xTenantId ≠ ""

/-- Such a request, if it is accepted, is for that tenant. -/
theorem target_of_name (named : UnderOneName req) (resolved : resolveTarget services req = .ok t) :
    t.tenantId = requestedTenant req := by
  obtain ⟨-, -, -, tenant, -⟩ := resolveTarget_ok resolved
  unfold effectiveTenant at tenant
  dsimp only at tenant
  by_cases header : req.xTenantId ≠ ""
  · have requested : requestedTenant req = req.xTenantId := if_pos header
    split_ifs at tenant
    · exact (Except.ok.inj tenant).symm.trans requested.symm
    · exact (Except.ok.inj tenant).symm
  · rw [named.resolve_right header, if_neg Bool.false_ne_true] at tenant
    split_ifs at tenant
    exact (Except.ok.inj tenant).symm

theorem ofTenant_of_name (named : UnderOneName req) (plain : Plain (requestedTenant req)) :
    OfTenant services req (requestedTenant req) :=
  ⟨fun _ => inScope_colon .., fun _ resolved => ⟨target_of_name named resolved, plain⟩⟩

/-- **Submissions stay in their tenant.** Two stores that hold the same of the
tenant and keep the others apart answer the same, come to hold the same of the
tenant, and keep the others' as they were; at every interruption as well. -/
theorem submissions_stay_in_tenant (ext : Externals) (services : Services) (req : SubmitRequest)
    (named : UnderOneName req) (plain : Plain (requestedTenant req))
    (left : Separate ext services req (requestedTenant req) w)
    (right : Separate ext services req (requestedTenant req) v)
    (agree : ownData (requestedTenant req) w = ownData (requestedTenant req) v)
    {inputs : ℕ → Option Input} (fresh : Fresh ext services req (requestedTenant req) w inputs)
    (fresh' : Fresh ext services req (requestedTenant req) v inputs) :
    Isolated ext services req (requestedTenant req) w v inputs :=
  isolated_of_tenant (ofTenant_of_name named plain) left right agree fresh fresh'

/-! ## Two companies -/

/-- The document another company has under the same number. -/
def sucursalRow : EcfDocumentRow where
  id := "D-2"
  eNcf := "E310000000001"
  rncEmisor := "131988032"
  tenantId := "sucursal"
  sourceTxnId := "TXN-1"
  editSequence := "1"
  state := "AcceptedByDgii"
  ambiente := some "PreCertificacion"
  createdAt := ""

/-- Two tenants' sequences, and the other's document. -/
def companiesWorld : World :=
  { tenantsWorld with
    documents := ⟨[sucursalRow], by decide, by decide, by decide⟩ }

/-- The first tenant's request. -/
def casaRequest : SubmitRequest := tenants "101672919" "131988032" 0

/-- An event draws no uuid, or another than the document's. -/
def drawsOther : Event Api → Bool
  | ⟨.newUuid, (drawn : String)⟩ => drawn ≠ sucursalRow.id
  | _ => true

theorem casa_target {t : SubmissionTarget}
    (resolved : resolveTarget sampleServices casaRequest = .ok t) : t.emisorRnc = "101672919" := by
  have known : (resolveTarget sampleServices casaRequest).toOption.map (·.emisorRnc) =
      some "101672919" := by decide +kernel
  rw [resolved] at known
  exact Option.some.inj known

/-- The submission of one answers the same without the other. -/
theorem submissions_stay_in_tenant_casa :
    Isolated sampleExternals sampleServices casaRequest "casa" companiesWorld
      (ownData "casa" companiesWorld) fun _ => some (answering "trackId") := by
  have alone : ∀ row, ¬ Foreign "casa" (ownData "casa" companiesWorld) row := fun row foreign => by
    have none : (ownData "casa" companiesWorld).documents.rows = [] := by decide
    exact List.not_mem_nil (none ▸ foreign.1)
  have foreign : ∀ row, Foreign "casa" companiesWorld row → row = sucursalRow := fun row foreign =>
    List.mem_singleton.mp foreign.1
  have draws : ∀ e ∈ (runOf sampleExternals sampleServices casaRequest companiesWorld
      fun _ => some (answering "trackId")).log, drawsOther e = true := by
    decide +kernel
  refine submissions_stay_in_tenant sampleExternals sampleServices casaRequest (.inl (by decide))
    ?plain ?left ?right ?agree ?fresh ?fresh'
  case plain =>
    intro name before
    rw [show beforeColon (requestedTenant casaRequest) = none by decide] at before
    cases before
  case left =>
    refine ⟨by decide, fun t resolved row other issuer => ?_, fun record stored => ?_⟩
    · rw [foreign row other, casa_target resolved] at issuer
      exact absurd issuer (by decide)
    · exact absurd stored List.not_mem_nil
  case right =>
    exact ⟨by decide, fun t _ row other => absurd other (alone row),
      fun _ _ _ _ _ row other => absurd other (alone row)⟩
  case agree => exact (ownData_ownData _ _).symm
  case fresh =>
    rintro _ among id rfl row other same
    have differs : id ≠ sucursalRow.id := of_decide_eq_true (draws _ among)
    exact differs (foreign row other ▸ same.symm)
  case fresh' => exact fun _ _ _ _ row other => absurd other (alone row)

end EcfDgii.TenantSubmissions
