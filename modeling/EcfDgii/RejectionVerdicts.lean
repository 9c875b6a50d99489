import EcfDgii.DocumentInvariants

/-!
Rejection needs a verdict: what `signAndSend` leaves, against what DGII said.

RejectedByDgii is the state from which the next submission takes a new eNCF, so
it must not be entered without a rejection.  On the reception route it never is.
On the RFCE route every reply that is not an acceptance is taken for one, so
the property holds of a run exactly when its last reply is not `undecided`.
-/

set_option autoImplicit false

namespace EcfDgii.RejectionVerdicts

open EcfDgii.Documents EcfDgii.DgiiReplies EcfDgii.Tables EcfDgii.Programs EcfDgii.Execution
open EcfDgii.Engine EcfDgii.Transmission EcfDgii.Submission EcfDgii.Traces
open EcfDgii.SubmissionTrace EcfDgii.TransportTrace EcfDgii.TransmissionTrace
open EcfDgii.DocumentInvariants

variable {ext : Externals} {services : Services} {s : Submission} {doc d : EcfDocument} {log : Log}

/-- The version of the document a log ends with: the last one written, whether
or not the database took it. -/
def left (log : Log) : Option EcfDocument :=
  log.foldl (fun d e =>
    match e with
    | ⟨.saveChanges [write], _⟩ => some write.doc
    | _ => d) none

/-- The document is left rejected only on a rejection, and under its number. -/
def Justified (ext : Externals) (doc : EcfDocument) (log : Log) : Prop :=
  ∀ d, left log = some d → d.eNcf = doc.eNcf ∧
    (d.state = "RejectedByDgii" → RejectionCarried ext log)

/-- A reply without a verdict carries no rejection. -/
theorem not_carried_of_undecided (undecided : lastVerdict ext log = some .undecided) :
    ¬ RejectionCarried ext log := by
  rintro (rejected | ⟨trackId, answer, r, received, -⟩)
  · exact absurd (undecided.symm.trans rejected) (by decide)
  · exact absurd (undecided.symm.trans received) (by simp)

/-! ## Writes -/

/-- A longer log that ends with a version of the document, and no reply more. -/
structure Saved (log b : Log) (d : EcfDocument) : Prop where
  longer : log <+: b
  left : left b = some d
  sent : (progress b).sent = (progress log).sent
  posted : (progress b).posted = (progress log).posted
  reply : (progress b).reply = (progress log).reply

theorem Saved.verdict {b : Log} (h : Saved log b d) (ext : Externals) :
    lastVerdict ext b = lastVerdict ext log := by
  simp only [lastVerdict, h.posted, h.reply]

theorem Saved.again {a b : Log} {d' : EcfDocument} (h : Saved log a d') (k : Saved a b d) :
    Saved log b d :=
  ⟨h.longer.trans k.longer, k.left, k.sent.trans h.sent, k.posted.trans h.posted,
    k.reply.trans h.reply⟩

/-- Everything may be asked. -/
def Anything : Log → Request → Prop := fun _ _ => True

theorem anything_outside : AllowsOutside Anything := fun _ _ _ _ => trivial

/-- An update is what the log ends with, done or refused. -/
theorem update_saves (d : EcfDocument) (log : Log) :
    (update d).Follows (.logging Anything) (fun b _ => Saved log b d) (fun b _ => Saved log b d)
      log := by
  unfold update
  refine ask_bind_follows .now trivial fun (time : ℕ) => ?_
  refine ask_bind_follows (.saveChanges [.update d time]) trivial
    fun (answer : Except String Unit) => ?_
  have saved : Saved log (log ++ [⟨.now, time⟩] ++ [⟨.saveChanges [.update d time], answer⟩]) d := by
    have same : ∀ p : Progress, (p.after ⟨.saveChanges [.update d time], answer⟩).sent = p.sent ∧
        (p.after ⟨.saveChanges [.update d time], answer⟩).posted = p.posted ∧
        (p.after ⟨.saveChanges [.update d time], answer⟩).reply = p.reply := by
      intro p
      cases answer <;> exact ⟨rfl, rfl, rfl⟩
    obtain ⟨sent, posted, reply⟩ := same (progress (log ++ [⟨.now, time⟩]))
    have timed : progress (log ++ [⟨.now, time⟩]) = progress log := by
      rw [progress_append]
      exact after_neutral (r := .now) trivial _ _
    rw [timed] at sent posted reply
    refine ⟨by simp, by simp [left, Write.doc], ?_, ?_, ?_⟩ <;> rw [progress_append, timed] <;>
      assumption
  exact (Program.follows_raise _).mpr ⟨fun _ _ => saved, fun _ _ => saved⟩

theorem saveOutcome_saves (d : EcfDocument) (log : Log) :
    (saveOutcome d).Follows (.logging Anything) (fun b _ => Saved log b d) (fun _ _ => False)
      log := by
  refine Program.Follows.tryCatch (update_saves d log) fun a _ first => ?_
  refine Program.Follows.tryCatch (M := fun b _ => Saved log b d) ?_ fun b _ saved => saved
  exact (update_saves d a).mono (fun _ _ second => first.again second)
    fun _ _ second => first.again second

/-! ## What is left -/

/-- What a finished `signAndSend` leaves. -/
structure Leaves (ext : Externals) (doc : EcfDocument) (b : Log) : Prop where
  number : ∀ d, left b = some d → d.eNcf = doc.eNcf
  rejected : ∀ d, left b = some d → d.state = "RejectedByDgii" →
    RejectionCarried ext b ∨ lastVerdict ext b = some .undecided
  undecided : lastVerdict ext b = some .undecided →
    ∃ d, left b = some d ∧ d.state = "RejectedByDgii"

/-- A version written before anything was transmitted. -/
theorem leaves_of_saved {b : Log} (saved : Saved log b d) (silent : progress log = {})
    (number : d.eNcf = doc.eNcf) (state : d.state ≠ "RejectedByDgii") : Leaves ext doc b := by
  have none : lastVerdict ext b = none := by
    rw [saved.verdict]
    simp [lastVerdict, silent]
  refine ⟨fun d' last => ?_, fun d' last rejected => ?_, fun undecided => ?_⟩
  · rwa [← Option.some.inj (saved.left.symm.trans last)]
  · rw [← Option.some.inj (saved.left.symm.trans last)] at rejected
    exact absurd rejected state
  · rw [none] at undecided
    cases undecided

/-- The version written after the transmission. -/
theorem leaves_of_concluded {a b c : Log} {d' : EcfDocument} (silent : (progress a).reply = none)
    (concluded : Concluded ext a b d d') (saved : Saved b c d') (number : d.eNcf = doc.eNcf) :
    Leaves ext doc c := by
  have same := saved.verdict ext
  refine ⟨fun d'' last => ?_, fun d'' last rejected => ?_, fun undecided => ?_⟩
  · rw [← Option.some.inj (saved.left.symm.trans last)]
    exact concluded.outcome.only.content.eNcf.trans number
  · rw [← Option.some.inj (saved.left.symm.trans last)] at rejected
    cases concluded.outcome.state with
    | accepted state => exact absurd (state.symm.trans rejected) (by decide)
    | uncertain state => exact absurd (state.symm.trans rejected) (by decide)
    | signed state => exact absurd (state.symm.trans rejected) (by decide)
    | rejected _ _ carried => exact .inl (carried.mono (fun _ m => saved.longer.subset m) same)
    | undecided _ _ last => exact .inr (same.trans last)
  · exact ⟨d', saved.left, concluded.undecided silent (same.symm.trans undecided)⟩

theorem sendSigned_leaves {signedXml codigo : String} (silent : progress log = {}) :
    (sendSigned ext services s (signed doc signedXml codigo)).Follows (.logging Anything)
      (fun b _ => Leaves ext doc b) (fun b _ => Leaves ext doc b) log := by
  unfold sendSigned
  have fallback : ∀ b, Saved log b (unsigned (signed doc signedXml codigo)) → Leaves ext doc b :=
    fun _ saved => leaves_of_saved saved silent rfl (by simp [unsigned])
  have awaiting : ∀ b, Saved log b (signed doc signedXml codigo) → Leaves ext doc b :=
    fun _ saved => leaves_of_saved saved silent rfl (by simp [signed])
  split
  · refine ((update_saves _ log).mono (fun _ _ h => h) fun b _ saved => fallback b saved).bind ?_
    exact fun b _ saved => fallback b saved
  · refine ((update_saves _ log).mono (fun _ _ h => h) fun b _ saved => awaiting b saved).bind ?_
    intro a _ first
    have unsent : (progress a).sent = false := by rw [first.sent, silent]
    refine ((transmission_follows anything_outside (fun _ _ _ _ _ _ _ _ => trivial) unsent
      rfl).mono (fun _ _ h => h) fun _ _ h => h.elim).bind ?_
    intro b d' concluded
    refine ((saveOutcome_saves d' b).mono (fun _ _ h => h) fun _ _ h => h.elim).bind ?_
    intro c _ last
    exact leaves_of_concluded (by rw [first.reply, silent]) concluded last rfl

theorem signAndSend_leaves (ext : Externals) (services : Services) (s : Submission)
    (doc : EcfDocument) : (signAndSend ext services s doc).Follows (.logging Anything)
      (fun b _ => Leaves ext doc b) (fun b _ => Leaves ext doc b) [] := by
  unfold signAndSend
  refine ((signContent_follows anything_outside).mono (fun _ _ h => h)
    fun _ _ h => h.elim).bind ?_
  rintro a x ⟨quiet, -⟩
  have silent : progress a = {} := quiet.same
  have written : ∀ d : EcfDocument, d.eNcf = doc.eNcf → d.state ≠ "RejectedByDgii" →
      ∀ response : HttpResponse, (do update d; return response : Procedure HttpResponse).Follows
        (.logging Anything) (fun b _ => Leaves ext doc b) (fun b _ => Leaves ext doc b) a := by
    intro d number state response
    have early : ∀ b, Saved a b d → Leaves ext doc b := fun b saved =>
      leaves_of_saved saved silent number state
    exact ((update_saves d a).mono (fun _ _ h => h) fun b _ saved => early b saved).bind
      fun b _ saved => early b saved
  cases x with
  | error what => exact written (signingFailed doc) rfl (by simp [signingFailed]) _
  | ok x =>
    obtain ⟨signedXml, codigo⟩ := x
    dsimp only
    split
    · exact written { signed doc signedXml codigo with state := "SchemaInvalid" } rfl (by simp) _
    · exact sendSigned_leaves silent

/-- **Rejection needs a verdict.** Whatever the replies to a run of
`signAndSend`, it leaves the document in RejectedByDgii only on a rejection, and
always under its eNCF, if and only if its last reply is not an RFCE reply that
is neither an acceptance nor a rejection. -/
theorem rejected_only_on_rejection (ext : Externals) (services : Services) (s : Submission)
    (doc : EcfDocument) (inputs : ℕ → Input) (w : World) :
    Justified ext doc ((host ext).run (fun n => some (inputs n)) w []
        (signAndSend ext services s doc)).log ↔
      lastVerdict ext ((host ext).run (fun n => some (inputs n)) w []
        (signAndSend ext services s doc)).log ≠ some .undecided := by
  have leaves : Leaves ext doc ((host ext).run (fun n => some (inputs n)) w []
      (signAndSend ext services s doc)).log :=
    (Host.run_keeps (J := fun _ _ => True) (fun _ _ _ _ _ _ => trivial)
      (signAndSend_leaves ext services s doc) trivial).2.ended (Host.run_ends _ _ _ _ _)
  generalize ((host ext).run (fun n => some (inputs n)) w []
    (signAndSend ext services s doc)).log = b at leaves ⊢
  constructor
  · intro justified undecided
    obtain ⟨d, last, state⟩ := leaves.undecided undecided
    exact not_carried_of_undecided undecided ((justified d last).2 state)
  · intro decided d last
    exact ⟨leaves.number d last, fun state => (leaves.rejected d last state).resolve_right decided⟩

/-! ## A consumer invoice -/

/-- A consumer invoice of RD$100, numbered and not yet signed. -/
def consumerInvoice : EcfDocument where
  id := "D1"
  sourceTxnId := "TXN-1"
  editSequence := "1"
  rncEmisor := "101672919"
  eNcf := "E320000000001"
  totalAmount := 100
  ambiente := some "PreCertificacion"
  state := "SequenceAllocated"

def consumerSubmission : Submission where
  dto := { sampleDocument with tipoComprobante := "E32" }
  editSequence := "1"
  tenantId := "default-tenant"
  ambiente := .preCertificacion
  emisorRnc := "101672919"
  emisorRazonSocial := "EMPRESA EMISORA"
  isDefaultFallback := true
  signer := sampleSigner
  client := ⟨"101672919", .preCertificacion, false, sampleSigner⟩

/-- Its transmission, when DGII answers with an estado. -/
def summaryRun (estado : String) : Run Api HttpResponse World :=
  (host sampleExternals).run (fun _ => some (answering estado)) sampleWorld []
    (signAndSend sampleExternals sampleServices consumerSubmission consumerInvoice)

/-- DGII is still processing the summary, and the document is left rejected. -/
theorem rejected_while_processing :
    ¬ Justified sampleExternals consumerInvoice (summaryRun "En Proceso").log := by
  intro justified
  have rejected : (left (summaryRun "En Proceso").log).map (·.state) = some "RejectedByDgii" := by
    decide +kernel
  have undecided : lastVerdict sampleExternals (summaryRun "En Proceso").log = some .undecided := by
    decide +kernel
  obtain ⟨d, last, state⟩ := Option.map_eq_some_iff.mp rejected
  exact not_carried_of_undecided undecided ((justified d last).2 state)

end EcfDgii.RejectionVerdicts
