import EcfDgii.Submission

/-!
The operations the idempotency handler wraps.

The operation of a controller works, and then calls its callback once, or
throws.  `DocumentsController::submit` and `EcfController::send` make some of
these calls inside a `try` block whose handler calls the callback again, with a
500: an `Ending` says which of the two a call is, and an `IdempotentOperation`
is the work that leads to one.  The work itself never touches the idempotency
store.

`submitBody_eq` shows that the body of `submit` is such an operation.
-/

set_option autoImplicit false

namespace EcfDgii.WrappedOperations

open EcfDgii.Documents EcfDgii.DgiiReplies EcfDgii.Programs EcfDgii.Engine EcfDgii.Transport
open EcfDgii.CanonicalXml EcfDgii.Transmission EcfDgii.Submission

/-- How an operation calls its callback: at once, or in a `try` block that
answers an exception with a 500. -/
inductive Ending
  | answer (response : HttpResponse)
  | answerInTry (response : HttpResponse) (label : String)

/-- The call of the callback. -/
def Ending.deliver (cb : HttpResponse → Procedure Unit) : Ending → Procedure Unit
  | .answer response => cb response
  | .answerInTry response label =>
    .tryCatch (cb response) fun what => cb (err (label ++ what) 500)

/-- Requests of an operation's own work: neither the idempotency store nor the
caller. -/
def Working : Request → Prop
  | .idempotency _ => False
  | .respond _ => False
  | _ => True

/-- An operation under the handler. -/
structure IdempotentOperation where
  work : Procedure Ending
  working : work.Only Working

/-- The operation as the handler calls it. -/
def IdempotentOperation.next (op : IdempotentOperation) (cb : HttpResponse → Procedure Unit) :
    Procedure Unit := do
  (← op.work).deliver cb

variable {ext : Externals} {services : Services} {s : Submission} {doc : EcfDocument}
  {client : EcfClient}

/-! ## Nothing but work -/

theorem working_ask {r : Request} (h : Working r) : (ask r).Only Working :=
  ⟨h, fun _ => trivial⟩

theorem working_bind {α : Type} {r : Request} {k : r.Reply → Procedure α} (h : Working r)
    (rest : ∀ x, (k x).Only Working) : (ask r >>= k).Only Working :=
  ⟨h, rest⟩

theorem raise_bind {α β : Type} {x : Except String α} {k : α → Procedure β}
    (rest : ∀ a, (k a).Only Working) : (Program.raise x >>= k).Only Working :=
  (Program.only_raise x).bind rest

theorem working_attempt {α : Type} {p : Procedure α} (h : p.Only Working) :
    (attempt p).Only Working :=
  attempt_only h

theorem sendWithReactiveAuth_working {send : String → Procedure HttpReply}
    (h : ∀ token, (send token).Only Working) :
    (sendWithReactiveAuth client send).Only Working :=
  sendWithReactiveAuth_only trivial trivial h

theorem transmit_working (route : Route) (xml : String) (file : EcfFileName) (token : String) :
    (transmit client route xml file token).Only Working :=
  working_bind trivial fun _ => working_ask trivial

theorem consultar_working (consulta : Consulta) : (consultar client consulta).Only Working :=
  consultar_only trivial trivial fun _ => trivial

theorem update_working : (update doc).Only Working :=
  working_bind trivial fun _ => working_bind trivial fun _ => Program.only_raise _

theorem transmission_working : (transmission ext services s doc).Only Working := by
  have send : ∀ route xml file,
      (sendWithReactiveAuth s.client (transmit s.client route xml file)).Only Working :=
    fun route xml file => sendWithReactiveAuth_working fun token => transmit_working ..
  have rfce : (sendAsRfce ext services s doc).Only Working := by
    unfold sendAsRfce sendRfce
    refine working_bind trivial fun time => working_bind trivial fun signed => ?_
    refine raise_bind fun xml => ?_
    refine (raise_bind fun _ => (send ..).bind fun resp =>
      Program.only_raise _).bind fun resp => ?_
    exact working_bind trivial fun _ => trivial
  have ecf : (sendAsEcf ext s doc).Only Working := by
    unfold sendAsEcf sendEcf
    refine (raise_bind fun _ => (send ..).bind fun resp =>
      Program.only_raise _).bind fun response => .ite (fun _ => ?_) fun _ => trivial
    refine working_bind trivial fun _ => (working_attempt ?_).bind fun resultado => ?_
    · exact (consultar_working _).bind fun _ => Program.only_raise _
    · split <;> trivial
  exact Program.Only.tryCatch (.ite (fun _ => rfce) fun _ => ecf) fun _ => trivial

theorem signAndSend_working : (signAndSend ext services s doc).Only Working := by
  have save : ∀ doc, (saveOutcome doc).Only Working := fun doc =>
    Program.Only.tryCatch update_working fun _ => update_working.tryCatch fun _ => trivial
  have content : (signContent ext s doc).Only Working := by
    refine working_bind trivial fun signed => raise_bind fun xml => ?_
    exact raise_bind fun _ => trivial
  unfold signAndSend sendSigned
  refine (working_attempt content).bind fun signed => ?_
  split
  · exact update_working.bind fun _ => trivial
  · dsimp only
    split
    · exact update_working.bind fun _ => trivial
    · refine .ite (fun _ => update_working.bind fun _ => trivial) fun _ => ?_
      refine update_working.bind fun _ => transmission_working.bind fun sent => ?_
      exact (save _).bind fun _ => trivial

theorem refresh_working : (refresh ext s doc).Only Working :=
  working_bind trivial fun _ => trivial

theorem handleExistingDocument_working (row : EcfDocumentRow) :
    (handleExistingDocument ext services s row).Only Working := by
  have young : (tooYoung row).Only Working :=
    .ite (fun _ => working_bind trivial fun _ => trivial) fun _ => trivial
  have trackIds : ∀ doc : EcfDocument,
      (consultarTrackIds ext s.client doc.rncEmisor doc.eNcf).Only Working :=
    fun doc => (consultar_working _).bind fun _ => trivial
  have estado : ∀ doc : EcfDocument,
      (consultarEstado ext s.client doc.rncEmisor doc.eNcf none none).Only Working :=
    fun doc => (consultar_working _).bind fun _ => trivial
  have track : ∀ doc, (recoverTrackId ext s.client doc).Only Working := by
    refine fun doc => .ite (fun _ => ?_) fun _ => trivial
    refine (working_attempt (trackIds _)).bind fun found => ?_
    split
    · exact .ite (fun _ => trivial) fun _ => trivial
    · trivial
  have sentAt : ∀ fecha doc, (recoverSentAt fecha doc).Only Working := fun fecha doc =>
    .ite (fun _ => .ite (fun _ => trivial) fun _ => working_bind trivial fun _ => trivial)
      fun _ => trivial
  have resend : ∀ doc, (do
      let doc ← refresh ext s doc
      update doc
      signAndSend ext services s doc : Procedure HttpResponse).Only Working := fun doc =>
    refresh_working.bind fun _ => update_working.bind fun _ => signAndSend_working
  have uncertain : (reconcileUncertain ext services s row).Only Working := by
    unfold reconcileUncertain
    refine young.bind fun tooYoung => .ite (fun _ => trivial) fun _ => ?_
    refine (working_attempt (estado _)).bind fun status => ?_
    split
    · trivial
    · refine .ite (fun _ => resend _) fun _ => ?_
      exact (track _).bind fun _ => (sentAt ..).bind fun _ => update_working.bind fun _ => trivial
  have again : (reissue ext services s row.toEcfDocument).Only Working := by
    unfold reissue
    refine working_bind trivial fun encf => raise_bind fun encf => ?_
    refine refresh_working.bind fun doc => (working_attempt update_working).bind fun saved => ?_
    split
    · exact signAndSend_working
    · exact working_bind trivial fun _ => trivial
  unfold handleExistingDocument
  refine .ite (fun _ => resend _) fun _ => .ite (fun _ => uncertain) fun _ => ?_
  exact .ite (fun _ => again) fun _ => .ite (fun _ => trivial) fun _ => trivial

theorem submitNew_working : (submitNew ext services s).Only Working := by
  have added : ∀ doc, (add doc).Only Working := fun doc =>
    working_bind trivial fun _ => working_bind trivial fun _ => Program.only_raise _
  unfold submitNew recoverInsert
  refine working_bind trivial fun encf => ?_
  split
  · trivial
  · refine working_bind trivial fun id => refresh_working.bind fun doc => ?_
    refine (working_attempt (added _)).bind fun added => ?_
    split
    · exact signAndSend_working
    · refine working_bind trivial fun _ => .ite (fun _ => ?_) fun _ => trivial
      refine working_bind trivial fun found => raise_bind fun winner => ?_
      split
      · exact handleExistingDocument_working _
      · trivial

/-- Requests for a certificate. -/
def Resolving : Request → Prop
  | .certificateSigner .. => True
  | .tenantSigner .. => True
  | .fileSigner .. => True
  | _ => False

theorem resolveSigner_resolving (tenantId rnc : String)
    (certificate : Option CanonicalCertificateDto) (isDefaultFallback : Bool) :
    (resolveSigner services tenantId rnc certificate isDefaultFallback).Only Resolving := by
  have file : ∀ safe name password, (fileSigner safe name password).Only Resolving :=
    fun _ _ _ => .ite (fun _ => ⟨trivial, fun _ => trivial⟩) fun _ => trivial
  have directory : ∀ password,
      (directorySigner services tenantId rnc password).Only Resolving := by
    intro password
    refine (file ..).bind fun found => ?_
    split
    · trivial
    · refine (file ..).bind fun found => ?_
      split <;> trivial
  have inline : (inlineSigner rnc certificate).Only Resolving :=
    .ite (fun _ => ⟨trivial, fun _ => trivial⟩) fun _ => trivial
  have tenant : (tenantSigner services tenantId rnc).Only Resolving :=
    .ite (fun _ => ⟨trivial, fun _ => trivial⟩) fun _ => trivial
  unfold resolveSigner
  refine .ite (fun _ => trivial) fun _ => inline.bind fun found => ?_
  split
  · trivial
  · refine tenant.bind fun found => ?_
    split
    · exact .ite (fun _ => trivial) fun _ => directory _
    · exact directory _

theorem resolveSigner_working (tenantId rnc : String)
    (certificate : Option CanonicalCertificateDto) (isDefaultFallback : Bool) :
    (resolveSigner services tenantId rnc certificate isDefaultFallback).Only Working := by
  refine (resolveSigner_resolving tenantId rnc certificate isDefaultFallback).mono ?_
  intro r resolving
  cases r with
  | idempotency => exact resolving
  | respond => exact resolving
  | _ => trivial

/-! ## Submit -/

/-- What `submitResolved` answers: a document found is answered inside the `try`
block of the lookup. -/
def resolvedEnding (ext : Externals) (services : Services) (s : Submission) :
    Procedure Ending := do
  let found ← attempt do
    match ← .raise (← lookup s) with
    | some existing => return some (← handleExistingDocument ext services s existing)
    | none => return none
  match found with
  | .error what => return .answer (err ("Database query error: " ++ what) 500)
  | .ok (some response) => return .answerInTry response "Database query error: "
  | .ok none => return .answer (← submitNew ext services s)

theorem resolvedEnding_working : (resolvedEnding ext services s).Only Working := by
  unfold resolvedEnding
  refine (working_attempt ?_).bind fun found => ?_
  · refine working_bind trivial fun read => raise_bind fun row => ?_
    split
    · exact (handleExistingDocument_working _).bind fun _ => trivial
    · trivial
  · split
    · trivial
    · trivial
    · exact submitNew_working.bind fun _ => trivial

/-- The work of `submitBody`. -/
def submitEnding (ext : Externals) (services : Services) (req : SubmitRequest) :
    Procedure Ending := do
  match resolveTarget services req with
  | .error response => return .answer response
  | .ok target =>
    let signer ← resolveSigner services target.tenantId target.emisorRnc target.dto.certificate
      target.isDefaultFallback
    let client ← .raise (resolveEcfClient services target.emisorRnc signer target.ambiente
      target.isDefaultFallback)
    resolvedEnding ext services { target with signer := signer, client := client }

/-- `submit` as an operation of the handler. -/
def submitOperation (ext : Externals) (services : Services) (req : SubmitRequest) :
    IdempotentOperation where
  work := submitEnding ext services req
  working := by
    unfold submitEnding
    split
    · trivial
    · refine (resolveSigner_working ..).bind fun signer => raise_bind fun client =>
        resolvedEnding_working

/-- An attempt at a sequence: at its first part, and then at what follows. -/
theorem attempt_bind {α β : Type} (p : Procedure α) (k : α → Procedure β) :
    attempt (p >>= k) = attempt p >>= fun
      | .ok a => attempt (k a)
      | .error e => return .error e := by
  unfold attempt
  rw [Program.bind_assoc]
  exact Program.tryCatch_bind p _ _

/-- The result of an attempt, looked at once, is a handler. -/
theorem attempt_handled {p : Procedure Unit} {k : Except String Bool → Procedure Unit}
    (returns : k (.ok true) = return ()) :
    (attempt (p >>= fun _ => return true) >>= k) =
      p.tryCatch fun e => k (.error e) := by
  induction p with
  | done a => exact returns
  | throw e => rfl
  | ask r next ih => exact congrArg (Program.ask r) (funext ih)

theorem submitResolved_eq (cb : HttpResponse → Procedure Unit) :
    submitResolved ext services s cb = resolvedEnding ext services s >>= (·.deliver cb) := by
  unfold submitResolved resolvedEnding
  have looked : (do
      match ← Program.raise (← lookup s) with
      | some existing =>
        let res ← handleExistingDocument ext services s existing
        cb res
        return true
      | none => return false : Procedure Bool) = (do
      match ← Program.raise (← lookup s) with
      | some existing => return some (← handleExistingDocument ext services s existing)
      | none => return none : Procedure (Option HttpResponse)) >>= fun
        | some res => cb res >>= fun _ => return true
        | none => return false := by
    simp only [Program.bind_assoc]
    congr 1
    funext read
    congr 1
    funext row
    cases row with
    | none => rfl
    | some existing => simp only [Program.bind_assoc, Program.pure_eq, Program.bind_done]
  refine (congrArg (fun p => attempt p >>= _) looked).trans ?_
  rw [attempt_bind]
  simp only [Program.bind_assoc]
  congr 1
  funext found
  cases found with
  | error what => rfl
  | ok found =>
    cases found with
    | none => simp only [Program.bind_assoc]; rfl
    | some res => exact attempt_handled rfl

/-- **The body of `submit` is an operation of the handler.** -/
theorem submitBody_eq (req : SubmitRequest) (cb : HttpResponse → Procedure Unit) :
    submitBody ext services req cb = (submitOperation ext services req).next cb := by
  unfold submitBody IdempotentOperation.next submitOperation submitEnding
  dsimp only
  cases resolveTarget services req with
  | error response => rfl
  | ok target => simp only [Program.bind_assoc, submitResolved_eq]

theorem submit_eq (req : SubmitRequest) :
    submit ext services req =
      idempotencyHandle ext req.method req.idempotencyKey (requestedTenant req)
        (req.workerKeyId.getD "default-worker") req.bodyText
        (submitOperation ext services req).next :=
  congrArg (idempotencyHandle ext _ _ _ _ _) (funext (submitBody_eq req))

end EcfDgii.WrappedOperations
