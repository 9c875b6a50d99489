import EcfDgii.TenantSubmissions

/-!
Submissions of a user, and the tenant his claims name.

`submit` takes the tenant from the X-Tenant-Id header, whoever sends it.  A request
without the header, or with the user's own tenant in it, keeps to that tenant
(`isolated_of_tenant`).  One that names another tenant is answered from what the
other one has: from the response stored under the request's key (`strays_of_keyed`),
or from the document of its source transaction (`strays_of_accepted`).
`submit_keeps_to_claims` puts them together.
-/

set_option autoImplicit false

namespace EcfDgii.UserTenants

open EcfDgii.Text EcfDgii.Documents EcfDgii.Tables EcfDgii.Programs EcfDgii.Execution
open EcfDgii.Engine EcfDgii.CanonicalXml EcfDgii.Transmission EcfDgii.Submission EcfDgii.Traces
open EcfDgii.SubmissionFollows EcfDgii.DocumentInvariants EcfDgii.FiscalNumbers
open EcfDgii.WrappedOperations EcfDgii.TenantData
open EcfDgii.TenantSubmissions

variable {ext : Externals} {services : Services} {req : SubmitRequest} {T : String}
  {w v : World} {t : SubmissionTarget} {r : Request} {row : EcfDocumentRow}

/-! ## A run without failures -/

/-- Neither an answer to the caller nor a uuid. -/
def Inward : Request → Prop
  | .respond _ | .newUuid => False
  | _ => True

/-- In a run that meets no certificate and no failure, a procedure comes to a value,
and leaves a world. -/
def Comes {α : Type} (ext : Externals) (w : World) (p : Procedure α) (a : α) (w' : World) :
    Prop :=
  ∀ log, ∃ more : Log, (∀ e ∈ more, Inward e.request) ∧
    (host ext).run (fun _ => some {}) w log p = ⟨.returned a, log ++ more, w'⟩

section

variable {α β : Type} {w' w'' : World} {a : α} {b : β} {p : Procedure α}

theorem comes_pure (a : α) (w : World) : Comes ext w (.done a) a w := fun log =>
  ⟨[], fun _ member => absurd member List.not_mem_nil, by rw [List.append_nil]; rfl⟩

theorem comes_ask {x : r.Reply} (inward : Inward r)
    (answered : (host ext).answer {} w r = (x, w')) : Comes ext w (ask r) x w' := by
  intro log
  refine ⟨[⟨r, x⟩], fun e member => List.mem_singleton.mp member ▸ inward, ?_⟩
  have run := Host.run_perform_bind (host ext) {} w log r .done
  rw [answered] at run
  exact run

theorem Comes.bind {k : α → Procedure β} (first : Comes ext w p a w')
    (second : Comes ext w' (k a) b w'') : Comes ext w (p >>= k) b w'' := by
  intro log
  obtain ⟨more, inward, run⟩ := first log
  obtain ⟨rest, inward', run'⟩ := second (log ++ more)
  refine ⟨more ++ rest, fun e member => ?_, ?_⟩
  · exact (List.mem_append.mp member).elim (inward e) (inward' e)
  · rw [Host.run_bind, run, ← List.append_assoc]
    exact run'

theorem Comes.ite {cond : Prop} [Decidable cond] {q : Procedure α}
    (pos : cond → Comes ext w p a w') (neg : ¬cond → Comes ext w q a w') :
    Comes ext w (if cond then p else q) a w' := by
  split
  · next holds => exact pos holds
  · next fails => exact neg fails

theorem Comes.attempt (comes : Comes ext w p a w') : Comes ext w (attempt p) (.ok a) w' := by
  intro log
  obtain ⟨more, inward, run⟩ := comes log
  refine ⟨more, inward, ?_⟩
  exact (Host.run_attempt (host ext) (fun _ => some {}) w log p).trans (by rw [run])

end

theorem comes_resolveSigner (tenantId rncEmisor : String)
    (certificate : Option CanonicalCertificateDto) (isDefaultFallback : Bool) (w : World) :
    Comes ext w (resolveSigner services tenantId rncEmisor certificate isDefaultFallback)
      services.signer w := by
  have file (safe : Bool) (name password : String) :
      Comes ext w (fileSigner safe name password) none w :=
    .ite (fun _ => comes_ask trivial rfl) fun _ => comes_pure _ w
  have inline : Comes ext w (inlineSigner rncEmisor certificate) none w :=
    .ite (fun _ => comes_ask trivial rfl) fun _ => comes_pure _ w
  have own : Comes ext w (tenantSigner services tenantId rncEmisor) (.ok none) w :=
    .ite (fun _ => comes_ask trivial rfl) fun _ => comes_pure _ w
  exact .ite (fun _ => comes_pure _ w) fun _ =>
    inline.bind (own.bind ((file _ _ _).bind ((file _ _ _).bind (comes_pure _ w))))

/-- After the checks `submit` looks the document up. -/
theorem comes_submitEnding {client : EcfClient} {ending : Ending} {w' : World}
    (resolved : resolveTarget services req = .ok t)
    (configured : resolveEcfClient services t.emisorRnc services.signer t.ambiente
      t.isDefaultFallback = .ok client)
    (comes : Comes ext w (resolvedEnding ext services
      { t with signer := services.signer, client := client }) ending w') :
    Comes ext w (submitEnding ext services req) ending w' := by
  rw [submitEnding, resolved]
  refine (comes_resolveSigner _ _ _ _ w).bind ?_
  rw [configured]
  exact comes

theorem comes_lookup {s : Submission} {found : Option EcfDocumentRow}
    (reads : getBySourceTxnId ext.instant 0 s.tenantId s.dto.sourceReference.txnId
      (some (ambienteToString s.ambiente)) w.documents = found) :
    Comes ext w (lookup s) (.ok found) w :=
  comes_ask (r := .documentBySourceTxnId s.tenantId s.dto.sourceReference.txnId
    (some (ambienteToString s.ambiente))) trivial (congrArg (fun rows => (Except.ok rows, w)) reads)

/-- A document found that was accepted is answered for as it is. -/
theorem comes_accepted {s : Submission}
    (found : getBySourceTxnId ext.instant 0 s.tenantId s.dto.sourceReference.txnId
      (some (ambienteToString s.ambiente)) w.documents = some row)
    (accepted : row.state = "AcceptedByDgii") (same : row.editSequence = s.editSequence) :
    Comes ext w (resolvedEnding ext services s)
      (.answerInTry (existingResponse row.toEcfDocument) "Database query error: ") w := by
  have handled : handleExistingDocument ext services s row =
      .done (existingResponse row.toEcfDocument) := by
    simp [handleExistingDocument, accepted, same, neverTransmittedStates]
  have lookedUp : Comes ext w (lookup s) (.ok (some row)) w :=
    comes_lookup found
  have inner : Comes ext w (handleExistingDocument ext services s row >>= fun response =>
      .done (some response)) (some (existingResponse row.toEcfDocument)) w := by
    rw [handled]
    exact comes_pure _ w
  exact (lookedUp.bind inner).attempt.bind (comes_pure _ w)

theorem getNextEncf_nil (time : ℕ) (scope tipo : String) :
    ∃ what, getNextEncf time scope tipo [] = .error what := by
  cases other : alternativeScope scope <;> simp [getNextEncf, activeSequence, other]

/-- Without a document and without a range of numbers there is no document. -/
theorem comes_unnumbered {s : Submission} {what : String} (noRange : w.sequences = [])
    (nothing : getNextEncf w.clock (scopeOf s.toSubmissionTarget) s.dto.tipoComprobante [] =
      .error what)
    (missing : getBySourceTxnId ext.instant 0 s.tenantId s.dto.sourceReference.txnId
      (some (ambienteToString s.ambiente)) w.documents = none) :
    Comes ext w (resolvedEnding ext services s) (.answer (err what 503)) w := by
  have refused : (host ext).answer {} w (.getNextEncf (scopeOf s.toSubmissionTarget)
      s.dto.tipoComprobante) = (.error what, w) := by
    cases w with
    | mk clock documents sequences idempotency connections =>
      subst noRange
      simp [host, answerAt, Input.database, nothing]
  have numbered : Comes ext w (submitNew ext services s) (err what 503) w :=
    (comes_ask (r := .getNextEncf (scopeOf s.toSubmissionTarget) s.dto.tipoComprobante)
      trivial refused).bind (comes_pure _ w)
  exact ((comes_lookup missing).bind (comes_pure none w)).attempt.bind
    (numbered.bind (comes_pure (Ending.answer (err what 503)) w))

/-! ## Through the handler -/

/-- In a run that meets no certificate and no failure, the caller is given one
answer, and no uuid is drawn. -/
def Replies (ext : Externals) (w : World) (p : Procedure Unit) (response : HttpResponse) : Prop :=
  ∀ log, ∃ (more : Log) (w' : World), answers more = [response] ∧
    (∀ id : String, (⟨.newUuid, id⟩ : Event Api) ∉ more) ∧
    (host ext).run (fun _ => some {}) w log p = ⟨.returned (), log ++ more, w'⟩

section

variable {response : HttpResponse} {w' : World} {α : Type} {a : α} {ending : Ending}

theorem replies_respond : Replies ext w (respond response) response := by
  refine fun log => ⟨[⟨.respond response, ()⟩], w, rfl, fun id member => ?_, rfl⟩
  cases List.mem_singleton.mp member

theorem answers_inward {more : Log} (inward : ∀ e ∈ more, Inward e.request) :
    answers more = [] := by
  refine List.filterMap_eq_nil_iff.mpr fun e member => ?_
  have own := inward e member
  obtain ⟨r, x⟩ := e
  cases r <;> first | rfl | exact own.elim

theorem Comes.replies {p : Procedure α} {k : α → Procedure Unit} (first : Comes ext w p a w')
    (second : Replies ext w' (k a) response) : Replies ext w (p >>= k) response := by
  intro log
  obtain ⟨more, inward, run⟩ := first log
  obtain ⟨rest, w'', told, undrawn, run'⟩ := second (log ++ more)
  refine ⟨more ++ rest, w'', ?_, fun id member => ?_, ?_⟩
  · rw [answers_append, answers_inward inward, told, List.nil_append]
  · exact (List.mem_append.mp member).elim (fun earlier => inward _ earlier) (undrawn id)
  · rw [Host.run_bind, run, ← List.append_assoc]
    exact run'

theorem Replies.tryCatch {p : Procedure Unit} (replies : Replies ext w p response)
    (handler : String → Procedure Unit) : Replies ext w (p.tryCatch handler) response := by
  intro log
  obtain ⟨more, w', told, undrawn, run⟩ := replies log
  exact ⟨more, w', told, undrawn, by rw [Host.run_tryCatch, run]⟩

/-- What an ending answers. -/
def reply : Ending → HttpResponse
  | .answer response => response
  | .answerInTry response _ => response

theorem replies_deliver {cb : HttpResponse → Procedure Unit}
    (replies : ∀ response, Replies ext w (cb response) response) :
    Replies ext w (ending.deliver cb) (reply ending) := by
  cases ending with
  | answer response => exact replies response
  | answerInTry response label => exact (replies response).tryCatch _

theorem replies_callback (key : String) (response : HttpResponse) :
    Replies ext w (idempotentCallback ext key response) response := by
  have completed (contentType body : String) : ∃ w', Comes ext w
      (ask (.idempotency (.complete key response.statusCode contentType body))) (.ok ()) w' :=
    ⟨_, comes_ask (r := .idempotency (.complete key response.statusCode contentType body)) trivial
      rfl⟩
  have released : ∃ w', Comes ext w (ask (.idempotency (.release key))) (.ok ()) w' :=
    ⟨_, comes_ask (r := .idempotency (.release key)) trivial rfl⟩
  by_cases cached : shouldCache response.statusCode = true
  · obtain ⟨w', completed⟩ := completed (HttpResponse.content ext response).1
      (HttpResponse.content ext response).2
    have kept : idempotentCallback ext key response =
        ask (.idempotency (.complete key response.statusCode (HttpResponse.content ext response).1
          (HttpResponse.content ext response).2)) >>= fun stored : Except String Unit =>
            .raise stored >>= fun _ => respond response := by
      unfold idempotentCallback
      rw [if_pos cached]
      rfl
    rw [kept]
    exact completed.replies replies_respond
  · obtain ⟨w', released⟩ := released
    have dropped : idempotentCallback ext key response =
        ask (.idempotency (.release key)) >>= fun _ => respond response := by
      unfold idempotentCallback
      rw [if_neg cached]
    rw [dropped]
    exact released.replies replies_respond

/-- The record of the request's key, as it is reserved. -/
def reservedRecord (ext : Externals) (req : SubmitRequest) (time : ℕ) : IdempotencyRecord :=
  ⟨scopedKey req, req.workerKeyId.getD "default-worker", ext.sha256 req.bodyText, "Processing", 0,
    "application/json", "", time, time + retention⟩

theorem comes_reserved (empty : w.idempotency = []) :
    Comes ext w (reserveOrGet ext (scopedKey req) (ext.sha256 req.bodyText)
      (req.workerKeyId.getD "default-worker")) .reserved
      { w with idempotency := [reservedRecord ext req w.clock] } := by
  cases w with
  | mk clock documents sequences idempotency connections =>
    subst empty
    have fetched : Comes ext ⟨clock, documents, sequences, [], connections⟩
        (ask (.idempotency (.fetch (scopedKey req)))) (.ok none)
        ⟨clock, documents, sequences, [], connections⟩ :=
      comes_ask (r := .idempotency (.fetch (scopedKey req))) trivial rfl
    have inserted : Comes ext ⟨clock, documents, sequences, [], connections⟩
        (ask (.idempotency (.insert (scopedKey req) (ext.sha256 req.bodyText)
          (req.workerKeyId.getD "default-worker")))) (.ok true)
        ⟨clock, documents, sequences, [reservedRecord ext req clock], connections⟩ :=
      comes_ask (r := .idempotency (.insert ..)) trivial rfl
    exact fetched.bind (inserted.bind (comes_pure _ _))

/-- What a submission answers that comes to an ending. -/
theorem replies_submit (empty : w.idempotency = [])
    (comes : ∀ records, Comes ext { w with idempotency := records }
      (submitEnding ext services req) ending { w with idempotency := records }) :
    Replies ext w (submit ext services req) (reply ending) := by
  rw [submit_eq]
  by_cases keyed : Keyed req
  · unfold idempotencyHandle
    rw [if_neg keyed]
    exact (comes_reserved empty).replies
      (((comes _).replies (replies_deliver (replies_callback _))).tryCatch _)
  · unfold idempotencyHandle
    rw [if_pos (Classical.not_not.mp keyed)]
    exact (comes w.idempotency).replies (replies_deliver fun _ => replies_respond)

/-- A response stored for a request. -/
def storedRecord (ext : Externals) (req : SubmitRequest) (statusCode : ℕ) : IdempotencyRecord :=
  ⟨scopedKey req, "default-worker", ext.sha256 req.bodyText, "Completed", statusCode,
    "application/json", "[]", 0, retention⟩

/-- A response of success that is stored for a request is what it is answered. -/
theorem replies_stored {code : ℕ} (keyed : Keyed req) (success : 200 ≤ code ∧ code < 300)
    (only : w.idempotency = [storedRecord ext req code]) :
    Replies ext w (submit ext services req)
      { statusCode := code, headers := [("X-Cache-Lookup", "Hit-Idempotent")]
        body := .text "application/json" "[]" } := by
  let record := storedRecord ext req code
  have found : fetchRecord (scopedKey req) w.idempotency = some record := by
    rw [only]
    simp [fetchRecord, record, storedRecord]
  have fetched : Comes ext w (ask (.idempotency (.fetch (scopedKey req))))
      (.ok (some (record, IdempotencyRecord.leaseExpired w.clock record))) w := by
    refine comes_ask (r := .idempotency (.fetch (scopedKey req))) trivial ?_
    show (Except.ok ((fetchRecord (scopedKey req) w.idempotency).map _), w) = _
    rw [found]
    rfl
  have names : storedDocumentId ext "[]" = none := if_neg (by decide)
  have rejected : isUnderlyingDocumentRejected ext "[]" = .done false := by
    rw [isUnderlyingDocumentRejected, names]
    rfl
  have stands : Comes ext w (standsCompleted ext record) true w := by
    refine .ite (fun _ => ?_) fun fails => absurd success fails
    show Comes ext w (isUnderlyingDocumentRejected ext "[]" >>= _) true w
    rw [rejected]
    exact comes_pure _ w
  have existing : Comes ext w (reserveExisting ext (scopedKey req) (ext.sha256 req.bodyText)
      (req.workerKeyId.getD "default-worker") record
      (IdempotencyRecord.leaseExpired w.clock record))
      (.alreadyCompleted code "application/json" "[]") w :=
    .ite (fun differs => absurd rfl differs) fun _ =>
      .ite (fun _ => stands.bind (comes_pure _ w)) fun other => absurd rfl other
  rw [submit_eq]
  unfold idempotencyHandle
  rw [if_neg keyed]
  exact (fetched.bind existing).replies replies_respond

end

/-! ## The tenant of the claims -/

/-- A request keeps to a tenant when it is isolated in any two stores that hold the
same of it and keep the others apart. -/
def KeepsTo (ext : Externals) (services : Services) (req : SubmitRequest) (T : String) : Prop :=
  ∀ (w v : World) (inputs : ℕ → Option Input),
    Separate ext services req T w → Separate ext services req T v →
    ownData T w = ownData T v →
    Fresh ext services req T w inputs → Fresh ext services req T v inputs →
    Isolated ext services req T w v inputs

/-- Stores of others, in which the request is answered otherwise. -/
theorem not_keepsTo {response response' : HttpResponse} (left : Separate ext services req T w)
    (right : Separate ext services req T v) (agree : ownData T w = ownData T v)
    (replies : Replies ext w (submit ext services req) response)
    (replies' : Replies ext v (submit ext services req) response')
    (differ : response ≠ response') : ¬ KeepsTo ext services req T := by
  intro keeps
  obtain ⟨more, w', told, undrawn, run⟩ := replies []
  obtain ⟨more', v', told', undrawn', run'⟩ := replies' []
  have log : (runOf ext services req w fun _ => some {}).log = more := by rw [runOf, run]; rfl
  have log' : (runOf ext services req v fun _ => some {}).log = more' := by rw [runOf, run']; rfl
  have isolated := keeps w v (fun _ => some {}) left right agree
    (fun e member id drawn => absurd (drawn ▸ log ▸ member) (undrawn id))
    (fun e member id drawn => absurd (drawn ▸ log' ▸ member) (undrawn' id))
  have same := isolated.answers
  rw [log, log', told, told'] at same
  exact differ (List.head_eq_of_cons_eq same)

/-- A store with these documents and records, and nothing else. -/
def storeOf (documents : DocumentTable) (records : List IdempotencyRecord) : World :=
  ⟨0, documents, [], records, 0⟩

def oneDocument (row : EcfDocumentRow) : DocumentTable where
  rows := [row]
  ids := List.nodup_singleton _
  fiscals := by cases fiscal : fiscalKey row <;> simp [fiscal]
  sources := by cases source : sourceKey row <;> simp [source]

/-- A document of the tenant a submission is for, which was accepted. -/
def acceptedRow (t : SubmissionTarget) : EcfDocumentRow where
  id := "D-1"
  eNcf := "E310000000001"
  rncEmisor := t.emisorRnc ++ "0"
  tenantId := t.tenantId
  sourceTxnId := t.dto.sourceReference.txnId
  editSequence := t.editSequence
  state := "AcceptedByDgii"
  ambiente := some (ambienteToString t.ambiente)
  createdAt := ""

/-- Another tenant's stored responses are answered. -/
theorem strays_of_keyed (keyed : Keyed req) (outside : ¬ InScope T (scopedKey req)) :
    ¬ KeepsTo ext services req T := by
  have separate (code : ℕ) :
      Separate ext services req T (storeOf emptyTable [storedRecord ext req code]) :=
    ⟨List.nodup_nil, fun _ _ _ foreign => absurd foreign.1 List.not_mem_nil,
      fun _ _ _ _ _ _ foreign => absurd foreign.1 List.not_mem_nil⟩
  have agree : ownData T (storeOf emptyTable [storedRecord ext req 200]) =
      ownData T (storeOf emptyTable [storedRecord ext req 201]) := by
    simp [ownData, storeOf, ownRecord, storedRecord, outside]
  refine not_keepsTo (separate 200) (separate 201) agree
    (replies_stored keyed (by decide) rfl) (replies_stored keyed (by decide) rfl) fun same => ?_
  exact absurd (congrArg HttpResponse.statusCode same) (by decide)

/-- Another tenant's documents are answered for. -/
theorem strays_of_accepted {client : EcfClient} (resolved : resolveTarget services req = .ok t)
    (other : t.tenantId ≠ T)
    (configured : resolveEcfClient services t.emisorRnc services.signer t.ambiente
      t.isDefaultFallback = .ok client) : ¬ KeepsTo ext services req T := by
  let row := acceptedRow t
  have found : getBySourceTxnId ext.instant 0 t.tenantId t.dto.sourceReference.txnId
      (some (ambienteToString t.ambiente)) (oneDocument row) = some row := by
    simp [getBySourceTxnId, oneDocument, row, acceptedRow, matchesSource, choose]
  have missing : getBySourceTxnId ext.instant 0 t.tenantId t.dto.sourceReference.txnId
      (some (ambienteToString t.ambiente)) emptyTable = none := by
    simp [getBySourceTxnId, emptyTable, choose]
  have left : Separate ext services req T (storeOf (oneDocument row) []) := by
    refine ⟨List.nodup_nil, fun t' resolved' other foreign issuer => ?_,
      fun _ member => absurd member List.not_mem_nil⟩
    obtain rfl := List.mem_singleton.mp foreign.1
    obtain rfl := Except.ok.inj (resolved.symm.trans resolved')
    have length := congrArg (·.toList.length) issuer
    simp [row, acceptedRow] at length
  have right : Separate ext services req T (storeOf emptyTable []) :=
    ⟨List.nodup_nil, fun _ _ _ foreign => absurd foreign.1 List.not_mem_nil,
      fun _ member => absurd member List.not_mem_nil⟩
  have agree : ownData T (storeOf (oneDocument row) []) = ownData T (storeOf emptyTable []) := by
    simp [ownData, storeOf, ownDocuments, oneDocument, emptyTable, ownDocument, row, acceptedRow,
      other]
  obtain ⟨what, nothing⟩ := getNextEncf_nil 0 (scopeOf t) t.dto.tipoComprobante
  refine not_keepsTo left right agree
    (replies_submit rfl fun records => comes_submitEnding resolved configured
      (comes_accepted found rfl rfl))
    (replies_submit rfl fun records => comes_submitEnding resolved configured
      (comes_unnumbered rfl nothing missing)) fun same => ?_
  exact absurd (congrArg HttpResponse.statusCode same) (by
    simp [reply, existingResponse, json, err, row, acceptedRow])

/-- The header names no other tenant; or the request is refused by the checks, and
has no key or one of the tenant's. -/
def Within (services : Services) (req : SubmitRequest) (T : String) : Prop :=
  (req.xTenantId = "" ∨ req.xTenantId = T) ∨
    (Keyed req → InScope T (scopedKey req)) ∧ ∀ t, resolveTarget services req ≠ .ok t

theorem requestedTenant_of_claims (claims : req.tenantId = some T)
    (header : req.xTenantId = "" ∨ req.xTenantId = T) : requestedTenant req = T := by
  unfold requestedTenant
  split
  · next given => exact header.resolve_left given
  · rw [claims, Option.getD_some]

/-- **A user's submissions** keep to the tenant of his claims when the header names no
other, and otherwise only if they are refused before anything is asked of the store;
where the server has a client of its own. -/
theorem submit_keeps_to_claims (ext : Externals) (services : Services) (req : SubmitRequest)
    (user : isWorkerOrSuperAdmin req.role req.clientType = false)
    (claims : req.tenantId = some T) :
    (Plain T → Within services req T → KeepsTo ext services req T) ∧
    ((∀ t, resolveTarget services req = .ok t → ∃ client,
        resolveEcfClient services t.emisorRnc services.signer t.ambiente t.isDefaultFallback =
          .ok client) →
      KeepsTo ext services req T → Within services req T) := by
  constructor
  · intro plain within w v inputs left right agree fresh fresh'
    refine isolated_of_tenant ?_ left right agree fresh fresh'
    rcases within with header | ⟨record, refused⟩
    · have own : requestedTenant req = T := requestedTenant_of_claims claims header
      exact own ▸ ofTenant_of_name (.inl user) (own.symm ▸ plain)
    · exact ⟨record, fun t resolved => absurd resolved (refused t)⟩
  · intro configured keeps
    by_contra beyond
    obtain ⟨header, strays⟩ := not_or.mp beyond
    obtain ⟨given, other⟩ := not_or.mp header
    have requested : requestedTenant req = req.xTenantId := if_pos given
    by_cases record : Keyed req → InScope T (scopedKey req)
    · obtain ⟨t, resolved⟩ := not_forall_not.mp (not_and.mp strays record)
      obtain ⟨client, configured⟩ := configured t resolved
      refine strays_of_accepted resolved ?_ configured keeps
      rw [target_of_name (.inl user) resolved, requested]
      exact other
    · obtain ⟨keyed, outside⟩ := Classical.not_imp.mp record
      exact strays_of_keyed keyed outside keeps

theorem casa_keeps_to_claims : KeepsTo sampleExternals sampleServices casaRequest "casa" := by
  refine (submit_keeps_to_claims sampleExternals sampleServices casaRequest rfl rfl).1 ?_
    (.inl (.inl rfl))
  intro name before
  rw [show beforeColon "casa" = none by decide] at before
  cases before

/-- A user of one company names the other. -/
def strayRequest : SubmitRequest := { casaRequest with xTenantId := "sucursal" }

theorem header_leaves_tenant : ¬ KeepsTo sampleExternals sampleServices strayRequest "casa" := by
  have known : (resolveTarget sampleServices strayRequest).toOption.any (fun t =>
      (resolveEcfClient sampleServices t.emisorRnc sampleServices.signer t.ambiente
        t.isDefaultFallback).toOption.isSome) = true := by decide +kernel
  cases resolved : resolveTarget sampleServices strayRequest with
  | error response =>
    rw [resolved] at known
    cases known
  | ok t =>
    cases configured : resolveEcfClient sampleServices t.emisorRnc sampleServices.signer t.ambiente
        t.isDefaultFallback with
    | error what => simp [resolved, Except.toOption, configured] at known
    | ok client =>
      refine strays_of_accepted resolved ?_ configured
      rw [target_of_name (.inl rfl) resolved]
      decide

end EcfDgii.UserTenants
