import EcfDgii.Traces

/-!
What a submission may ask, given what it has seen.

`SubmitAsks` states the purpose of `submit` as permissions over its log: it
looks its document up once before it owns one, allocates and releases numbers
of its own scope and type, writes the row only in the ways of `SubmitWrite`, and
transmits only the row it has just committed in AwaitingTransmission, one
unrefused transmission at a time.  Each way of writing the row names its
evidence: the row that was found, the number that was issued, the signature
that was made or failed, DGII's answer.

`submit_follows` is the refinement: every path of the code's `submit` keeps to
these permissions.  The invariants of the row are derived from `SubmitWrite`
alone and never look at the code again.
-/

set_option autoImplicit false

namespace EcfDgii.SubmissionTrace

open EcfDgii.Text EcfDgii.Timestamps EcfDgii.Documents EcfDgii.DgiiReplies EcfDgii.Tables
open EcfDgii.Programs EcfDgii.Engine EcfDgii.CanonicalXml EcfDgii.Transport
open EcfDgii.Transmission EcfDgii.Submission EcfDgii.Traces

/-! ## The permissions -/

/-- Only the status fields differ. -/
def OnlyStatus (d d' : EcfDocument) : Prop :=
  d' = { d with
    state := d'.state, trackId := d'.trackId, sentToDgiiAt := d'.sentToDgiiAt
    dgiiResponseXml := d'.dgiiResponseXml }

/-- Two versions of a document with the same fiscal content. -/
structure SameContent (d d' : EcfDocument) : Prop where
  id : d'.id = d.id
  eNcf : d'.eNcf = d.eNcf
  rncEmisor : d'.rncEmisor = d.rncEmisor
  xmlContent : d'.xmlContent = d.xmlContent
  signedXmlContent : d'.signedXmlContent = d.signedXmlContent

theorem SameContent.trans {d d' d'' : EcfDocument} (h : SameContent d d')
    (k : SameContent d' d'') : SameContent d d'' :=
  ⟨k.id.trans h.id, k.eNcf.trans h.eNcf, k.rncEmisor.trans h.rncEmisor,
    k.xmlContent.trans h.xmlContent, k.signedXmlContent.trans h.signedXmlContent⟩

theorem OnlyStatus.content {d d' : EcfDocument} (h : OnlyStatus d d') : SameContent d d' := by
  unfold OnlyStatus at h
  constructor <;> rw [h]

theorem reconciled_content (doc : EcfDocument) (estado : String) :
    SameContent doc (reconciled doc estado) := by
  constructor <;> rw [reconciled_only]

variable (ext : Externals) (services : Services)

/-- The state after a transmission, with its evidence. -/
inductive OutcomeState (log : Log) (d d' : EcfDocument) : Prop
  | accepted (state : d'.state = "AcceptedByDgii")
  | uncertain (state : d'.state = "Uncertain")
  | signed (state : d'.state = "Signed") (sentAt : d'.sentToDgiiAt.isSome)
  | rejected (state : d'.state = "RejectedByDgii") (seen : RejectionSeen ext log d.eNcf)
      (carried : RejectionCarried ext log)
  | undecided (state : d'.state = "RejectedByDgii") (seen : UndecidedSeen ext log d.eNcf)
      (last : lastVerdict ext log = some .undecided)

/-- A transmission changed the status fields alone, to a state with evidence. -/
structure Outcome (log : Log) (d d' : EcfDocument) : Prop where
  only : OnlyStatus d d'
  state : OutcomeState ext log d d'

/-- The content signature failed: the signer threw, or its output has no
security code. -/
def SignatureFailed (log : Log) (d : EcfDocument) : Prop :=
  ∃ signer out, Signs log signer d.xmlContent d.rncEmisor out ∧
    ∀ x, out = .ok x → ∃ e, calcularCodigoSeguridad ext x = .error e

/-- The content was signed. -/
def ContentSigned (log : Log) (d : EcfDocument) (signedXml : String) : Prop :=
  ∃ signer, Signs log signer d.xmlContent d.rncEmisor (.ok signedXml)

/-- The two minutes since the row's timestamp have passed, or it cannot be read. -/
def OldEnough (log : Log) (row : EcfDocumentRow) : Prop :=
  row.updatedAt.getD row.createdAt = "" ∨ parseIsoSeconds (row.updatedAt.getD row.createdAt) = 0 ∨
    ∃ time : ℕ, (⟨.now, time⟩ : Event Api) ∈ log ∧
      minimumUncertainAge ≤
        (time : ℤ) - parseIsoSeconds (row.updatedAt.getD row.createdAt) * second

/-- The states whose fate DGII is asked about first. -/
def Unconfirmed (state : String) : Prop := state = "Uncertain" ∨ state = "AwaitingTransmission"

/-- When a found row may be given the submitted content under its eNCF. -/
inductive Refreshable (log : Log) (row : EcfDocumentRow) : Prop
  | neverTransmitted (state : row.state ∈ neverTransmittedStates)
  | notFound (state : Unconfirmed row.state) {answer : HttpReply}
      (queried : QueriedFound log row (.estado row.rncEmisor row.eNcf none none) answer)
      (missing : notFound (estadoOf ext answer) = true) (old : OldEnough log row)

/-- A number was issued for the target. -/
def Issued (t : SubmissionTarget) (log : Log) (eNcf : String) : Prop :=
  (⟨.getNextEncf (scopeOf t) (tipoOf t), .ok eNcf⟩ : Event Api) ∈ log

/-- The ways `submit` writes its row. -/
inductive SubmitWrite (t : SubmissionTarget) (log : Log) : Write → Prop
  | create {id eNcf : String} {at' time : ℕ}
      (fresh : (progress log).found = none ∧ (progress log).written = none)
      (uuid : (⟨.newUuid, id⟩ : Event Api) ∈ log) (issued : Issued t log eNcf) :
      SubmitWrite t log (.insert (withContent ext t at' (newDocument t id eNcf)) time)
  | refresh {row : EcfDocumentRow} {at' time : ℕ} (found : (progress log).found = some row)
      (fresh : (progress log).written = none) (allowed : Refreshable ext log row) :
      SubmitWrite t log (.update (withContent ext t at' row.toEcfDocument) time)
  | reissue {row : EcfDocumentRow} {eNcf : String} {at' time : ℕ}
      (found : (progress log).found = some row) (fresh : (progress log).written = none)
      (state : row.state = "RejectedByDgii") (issued : Issued t log eNcf) :
      SubmitWrite t log (.update (withContent ext t at' (reissued row.toEcfDocument eNcf)) time)
  | reconcile {row : EcfDocumentRow} {d : EcfDocument} {answer : HttpReply} {time : ℕ}
      (found : (progress log).found = some row) (fresh : (progress log).written = none)
      (state : Unconfirmed row.state) (only : OnlyStatus row.toEcfDocument d)
      (sentAt : d.sentToDgiiAt.isSome)
      (queried : QueriedFound log row (.estado row.rncEmisor row.eNcf none none) answer)
      (known : notFound (estadoOf ext answer) = false) :
      SubmitWrite t log (.update (reconciled d (estadoOf ext answer)) time)
  | signingFailed {d : EcfDocument} {time : ℕ} (written : (progress log).written = some d)
      (state : d.state = "SequenceAllocated") (failed : SignatureFailed ext log d) :
      SubmitWrite t log (.update (signingFailed d) time)
  | schemaInvalid {d : EcfDocument} {x c : String} {time : ℕ}
      (written : (progress log).written = some d) (state : d.state = "SequenceAllocated")
      (made : ContentSigned log d x) :
      SubmitWrite t log (.update { signed d x c with state := "SchemaInvalid" } time)
  | unsigned {d : EcfDocument} {x c : String} {time : ℕ}
      (written : (progress log).written = some d) (state : d.state = "SequenceAllocated") :
      SubmitWrite t log (.update (unsigned (signed d x c)) time)
  | awaiting {d : EcfDocument} {x c : String} {time : ℕ}
      (written : (progress log).written = some d) (state : d.state = "SequenceAllocated")
      (made : ContentSigned log d x) : SubmitWrite t log (.update (signed d x c) time)
  | outcome {d d' : EcfDocument} {time : ℕ} (written : (progress log).written = some d)
      (state : d.state = "AwaitingTransmission") (outcome : Outcome ext log d d') :
      SubmitWrite t log (.update d' time)

/-- What goes out: the signed XML of the row, or the signed summary of it. -/
inductive Payload (log : Log) (d : EcfDocument) : Route → String → Prop
  | ecf {xml : String} (stored : d.signedXmlContent = some xml) : Payload log d .recepcion xml
  | rfce {xml : String} {signer : Signer} {time : ℕ} {dto : CanonicalDocumentDto} {razon : String}
      (small : isRfce d = true)
      (made : Signs log signer (buildRfceXml ext time d dto razon) d.rncEmisor (.ok xml)) :
      Payload log d .recepcionFc xml

/-- What `submit` asks of the idempotency store: its own key, and the document
the stored response names. -/
inductive ReservationAsks (req : SubmitRequest) (log : Log) : IdempotencyStatement → Prop
  | fetch : ReservationAsks req log (.fetch (requestedTenant req ++ ":" ++ req.idempotencyKey))
  | documentState {record : IdempotencyRecord} {expired : Bool} {id : String}
      (read : (⟨.idempotency (.fetch (requestedTenant req ++ ":" ++ req.idempotencyKey)),
        (.ok (some (record, expired)) : Except String (Option (IdempotencyRecord × Bool)))⟩ :
          Event Api) ∈ log)
      (named : storedDocumentId ext record.responseBody = some id) :
      ReservationAsks req log (.documentState id)
  | renewWithHash {hash worker : String} : ReservationAsks req log
      (.renewWithHash (requestedTenant req ++ ":" ++ req.idempotencyKey) hash worker)
  | renew {worker : String} : ReservationAsks req log
      (.renew (requestedTenant req ++ ":" ++ req.idempotencyKey) worker)
  | reclaim {worker : String} : ReservationAsks req log
      (.reclaim (requestedTenant req ++ ":" ++ req.idempotencyKey) worker)
  | insert {hash worker : String} : ReservationAsks req log
      (.insert (requestedTenant req ++ ":" ++ req.idempotencyKey) hash worker)
  | complete {code : ℕ} {contentType body : String} : ReservationAsks req log
      (.complete (requestedTenant req ++ ":" ++ req.idempotencyKey) code contentType body)
  | release : ReservationAsks req log
      (.release (requestedTenant req ++ ":" ++ req.idempotencyKey))

/-- Requests that touch no table. -/
def Outside : Request → Prop
  | .now => True
  | .newUuid => True
  | .certificateSigner .. => True
  | .tenantSigner .. => True
  | .fileSigner .. => True
  | .signXml .. => True
  | .getToken _ => True
  | .invalidateToken _ => True
  | .await _ => True
  | .get .. => True
  | .respond _ => True
  | _ => False

/-- What `submit` may ask. -/
inductive SubmitAsks (req : SubmitRequest) (log : Log) : Request → Prop
  | outside {r : Request} (h : Outside r) : SubmitAsks req log r
  | reservation {statement : IdempotencyStatement} (h : ReservationAsks ext req log statement) :
      SubmitAsks req log (.idempotency statement)
  | lookup {t : SubmissionTarget} (target : resolveTarget services req = .ok t)
      (fresh : (progress log).found = none ∧ (progress log).written = none) :
      SubmitAsks req log (.documentBySourceTxnId t.tenantId t.dto.sourceReference.txnId
        (some (ambienteToString t.ambiente)))
  | allocate {t : SubmissionTarget} (target : resolveTarget services req = .ok t) :
      SubmitAsks req log (.getNextEncf (scopeOf t) (tipoOf t))
  | release {t : SubmissionTarget} {eNcf : String} (target : resolveTarget services req = .ok t) :
      SubmitAsks req log (.releaseUnusedEncf (scopeOf t) (tipoOf t) eNcf)
  | save {t : SubmissionTarget} {write : Write} (target : resolveTarget services req = .ok t)
      (staged : (⟨.now, write.time⟩ : Event Api) ∈ log) (h : SubmitWrite ext t log write) :
      SubmitAsks req log (.saveChanges [write])
  | transmit {client : EcfClient} {route : Route} {token xml : String} {d : EcfDocument}
      (written : (progress log).written = some d) (state : d.state = "AwaitingTransmission")
      (once : (progress log).sent = false) (payload : Payload ext log d route xml) :
      SubmitAsks req log (.post client route token xml ⟨d.rncEmisor, d.eNcf⟩)

end EcfDgii.SubmissionTrace
