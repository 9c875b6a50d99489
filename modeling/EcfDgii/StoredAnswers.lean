import EcfDgii.DirectSending
import EcfDgii.Reservations
import EcfDgii.WrappedOperations
import EcfDgii.WrittenAhead

/-!
What the callers of the document endpoints are told.

An answer that names a document tells its number, its state and its signed XML.
A `Version` is what the operation has read of the document or has committed of
it; `Tellable` adds the one case in which an answer tells more than the table
has: DGII's outcome, when its commit was refused.  Then only the status fields are
more than a version says, and the version is one that is still asked about.
`answers_are_stored` says this of every answer on every schedule, and that the row
is there.
-/

set_option autoImplicit false

namespace EcfDgii.StoredAnswers

open EcfDgii.Documents EcfDgii.DgiiReplies EcfDgii.Tables EcfDgii.Programs EcfDgii.Execution
open EcfDgii.Engine EcfDgii.Transport EcfDgii.CanonicalXml EcfDgii.Transmission
open EcfDgii.Submission EcfDgii.StatusPolling EcfDgii.StatusUpdates EcfDgii.Traces
open EcfDgii.SubmissionTrace EcfDgii.TransportTrace EcfDgii.StatusTrace EcfDgii.WrappedOperations EcfDgii.DocumentInvariants
open EcfDgii.SubmissionFollows EcfDgii.WrittenAhead

/-! ## Answers about a document -/

/-- Fields that tell a document's id, number and state, and no other signed XML
than its own. -/
structure Tells (fields : List (String × Json)) (d : EcfDocument) : Prop where
  id : ∀ id, ("documentId", Json.string id) ∈ fields → id = d.id
  eNcf : ("eNcf", Json.string d.eNcf) ∈ fields
  state : ("state", Json.string d.state) ∈ fields
  signedXml : ∀ xml, ("signedXml", Json.string xml) ∈ fields → xml = d.signedXmlContent.getD ""

/-- The commit of a version. -/
def commitOf (write : Write) (outcome : Except String Unit) : Event Api :=
  ⟨.saveChanges [write], outcome⟩

/-- A version of a document that an operation has read, or has committed. -/
inductive Version (log : Log) : EcfDocument → Prop
  | read {row : EcfDocumentRow} (h : Read log row) : Version log row.toEcfDocument
  | committed (write : Write) (h : commitOf write (.ok ()) ∈ log) : Version log write.doc

/-- An update of the document was refused. -/
def Refused (log : Log) (d : EcfDocument) : Prop :=
  ∃ time what, commitOf (.update d time) (.error what) ∈ log

/-- What an operation may tell of a document: a version of it, or DGII's outcome for
a version without one, which could not be committed. -/
inductive Tellable (log : Log) : EcfDocument → Prop
  | version {d : EcfDocument} (h : Version log d) : Tellable log d
  | outcome {stored d : EcfDocument} (version : Version log stored)
      (pending : stored.state ∈ polledStates) (only : OnlyStatus stored d)
      (refused : Refused log d) : Tellable log d

/-- Whatever the answer tells is tellable. -/
def Backed (log : Log) (response : HttpResponse) : Prop :=
  ∀ fields, response.body = .json (.object fields) →
    (∃ id, ("documentId", Json.string id) ∈ fields) → ∃ d, Tells fields d ∧ Tellable log d

/-- Only backed answers are given. -/
def Backs (log : Log) (r : Request) : Prop :=
  ∀ response, r = .respond response → Backed log response

variable {ext : Externals} {services : Services} {log b : Log} {d doc : EcfDocument}
  {row : EcfDocumentRow} {s : Submission} {α β : Type}

theorem Version.mono (h : Version log d) (grows : log <+: b) : Version b d := by
  cases h with
  | read h => exact .read (h.mono fun _ member => grows.subset member)
  | committed write h => exact .committed write (grows.subset h)

theorem Refused.mono (h : Refused log d) (grows : log <+: b) : Refused b d := by
  obtain ⟨time, what, member⟩ := h
  exact ⟨time, what, grows.subset member⟩

theorem Tellable.mono (h : Tellable log d) (grows : log <+: b) : Tellable b d := by
  cases h with
  | version h => exact .version (h.mono grows)
  | outcome version pending only refused =>
    exact .outcome (version.mono grows) pending only (refused.mono grows)

theorem Backed.mono {response : HttpResponse} (h : Backed log response) (grows : log <+: b) :
    Backed b response := by
  intro fields body names
  obtain ⟨d, tells, tellable⟩ := h fields body names
  exact ⟨d, tells, tellable.mono grows⟩

theorem backs_outside : AllowsOutside Backs := fun _ _ _ silent response same =>
  absurd same (silent response)

theorem backs_working {r : Request} (h : Working r) : Backs log r := by
  rintro response rfl
  exact h.elim

theorem backs_idempotency {statement : IdempotencyStatement} :
    Backs log (.idempotency statement) :=
  fun _ same => absurd same nofun

/-! ## The answers -/

/-- An answer without a document. -/
theorem backed_err (message : String) (code : ℕ) : Backed log (err message code) := by
  rintro fields body ⟨id, names⟩
  cases body
  simp at names

theorem backed_text {response : HttpResponse} {contentType content : String}
    (text : response.body = .text contentType content) : Backed log response :=
  fun _ body => absurd (text.symm.trans body) nofun

/-- An answer that tells a tellable document. -/
theorem backed_json {fields : List (String × Json)} (tells : Tells fields d)
    (tellable : Tellable log d) (code : ℕ) : Backed log (json fields code) := by
  rintro _ body -
  cases body
  exact ⟨d, tells, tellable⟩

/-- The texts of a field that is null when absent. -/
theorem orNull_string {field : Option String} {text : String}
    (h : Json.string text = orNull field) : text = field.getD "" := by
  cases field with
  | none => cases h
  | some value => exact Json.string.inj h

/-- Another field beside them tells nothing of the document. -/
theorem Tells.beside {fields : List (String × Json)} {field : String} (h : Tells fields d)
    (value : Json) (other : field ≠ "documentId" ∧ field ≠ "signedXml") :
    Tells (fields ++ [(field, value)]) d where
  id id member := h.id id ((List.mem_append.mp member).resolve_right
    (by simp [other.1.symm]))
  eNcf := List.mem_append_left _ h.eNcf
  state := List.mem_append_left _ h.state
  signedXml xml member := h.signedXml xml ((List.mem_append.mp member).resolve_right
    (by simp [other.2.symm]))

theorem Tells.error {fields : List (String × Json)} (h : Tells fields d) (error : Json) :
    Tells (fields ++ [("error", error)]) d := h.beside error (by decide)

theorem uncertainFields_tell (d : EcfDocument) : Tells (uncertainFields d) d where
  id id member := by simpa [uncertainFields] using member
  eNcf := by simp [uncertainFields]
  state := by simp [uncertainFields]
  signedXml xml member := by
    simp [uncertainFields] at member
    exact orNull_string member

theorem documentFields_tell (d : EcfDocument) : Tells (documentFields d) d where
  id id member := by simpa [documentFields] using member
  eNcf := by simp [documentFields]
  state := by simp [documentFields]
  signedXml xml member := by simpa [documentFields] using member

theorem outcomeResponse_backed (tellable : Tellable log d) : Backed log (outcomeResponse d) := by
  unfold outcomeResponse
  extract_lets out
  have tells : Tells out d := by
    refine ⟨fun id member => ?_, by simp [out], by simp [out], fun xml member => ?_⟩
    · simpa [out] using member
    · simp [out] at member
      exact orNull_string member
  repeat' split
  all_goals first
    | exact backed_json tells tellable _
    | exact backed_json (tells.error _) tellable _

theorem unsignedResponse_backed (tellable : Tellable log (unsigned d)) :
    Backed log (unsignedResponse (unsigned d)) := by
  refine backed_json ⟨fun id member => ?_, by simp, by simp, fun xml member => ?_⟩ tellable 422
  · simpa using member
  · simp at member

theorem reconciledResponse_backed (tellable : Tellable log d) :
    Backed log (reconciledResponse d) := by
  unfold reconciledResponse
  repeat' split
  · exact backed_json (uncertainFields_tell d) tellable _
  · exact backed_json ((uncertainFields_tell d).error _) tellable _
  · exact backed_json (uncertainFields_tell d) tellable _

theorem editConflict_backed (tellable : Tellable log d) (editSequence : String) :
    Backed log (editConflict d editSequence) := by
  refine backed_json ⟨fun id member => ?_, by simp, by simp, fun xml member => ?_⟩ tellable 409
  · simpa using member
  · simp at member

theorem existingResponse_backed (tellable : Tellable log d) : Backed log (existingResponse d) := by
  refine backed_json ⟨fun id member => ?_, by simp, by simp, fun xml member => ?_⟩ tellable _
  · simpa using member
  · simpa using member

/-! ## Procedures -/

/-- A procedure answers nobody with what is not backed, and what it returns has a
property of the longer log. -/
def Leads (log : Log) (p : Procedure α) (post : Log → α → Prop) : Prop :=
  p.Follows (.logging Backs) (fun b a => log <+: b ∧ post b a) (fun b _ => log <+: b) log

namespace Leads

variable {p : Procedure α} {post M : Log → α → Prop}

theorem done {a : α} (holds : post log a) : Leads log (.done a) post := ⟨List.prefix_rfl, holds⟩

theorem throws (e : String) : Leads log (.throw e) post := List.prefix_rfl

theorem later (h : Leads b p post) (grows : log <+: b) :
    p.Follows (.logging Backs) (fun c a => log <+: c ∧ post c a) (fun c _ => log <+: c) b :=
  h.mono (fun _ _ ends => ⟨grows.trans ends.1, ends.2⟩) fun _ _ ends => grows.trans ends

theorem bind {k : α → Procedure β} {post : Log → β → Prop} (h : Leads log p M)
    (rest : ∀ b a, log <+: b → M b a → Leads b (k a) post) : Leads log (p >>= k) post :=
  Program.Follows.bind h fun b a ends => (rest b a ends.1 ends.2).later ends.1

theorem mono (h : Leads log p M) (weaker : ∀ b a, log <+: b → M b a → post b a) :
    Leads log p post :=
  Program.Follows.mono h (fun b a ends => ⟨ends.1, weaker b a ends.1 ends.2⟩) fun _ _ ends => ends

theorem ite {c : Prop} [Decidable c] {q : Procedure α} (yes : c → Leads log p post)
    (no : ¬ c → Leads log q post) : Leads log (if c then p else q) post :=
  Program.Follows.ite yes no

theorem tryCatch {handler : String → Procedure α} (h : Leads log p post)
    (rest : ∀ b e, log <+: b → Leads b (handler e) post) :
    Leads log (p.tryCatch handler) post :=
  Program.Follows.tryCatch h fun b e grows => (rest b e grows).later grows

theorem attempt (h : Leads log p post) :
    Leads log (Engine.attempt p) (fun b x => ∀ a, x = .ok a → post b a) :=
  attempt_follows h (fun _ _ ends => ⟨ends.1, fun _ same => Except.ok.inj same ▸ ends.2⟩)
    fun _ _ grows => ⟨grows, nofun⟩

theorem raise {x : Except String α} (holds : ∀ a, x = .ok a → post log a) :
    Leads log (Program.raise x) post :=
  (Program.follows_raise x).mpr
    ⟨fun a same => ⟨List.prefix_rfl, holds a same⟩, fun _ _ => List.prefix_rfl⟩

/-- A request of an operation's own work. -/
theorem ask {r : Request} (allowed : Backs log r) {post : Log → r.Reply → Prop}
    (holds : ∀ x, post (log ++ [⟨r, x⟩]) x) : Leads log (Engine.ask r) post :=
  ask_follows r allowed fun x => ⟨List.prefix_append _ _, holds x⟩

theorem asked {r : Request} (allowed : Backs log r) :
    Leads log (Engine.ask r) fun _ _ => True := ask allowed fun _ => trivial

/-- Work that is not looked at. -/
theorem working (h : p.Only Working) : Leads log p fun _ _ => True :=
  (h.follows (P := fun b => log <+: b) (fun _ _ works => backs_working works)
    (fun _ _ grows => grows.trans (List.prefix_append _ _)) List.prefix_rfl).mono
    (fun _ _ grows => ⟨grows, trivial⟩) fun _ _ grows => grows

end Leads

/-- A statement commits the document, or is refused. -/
theorem update_commits (d : EcfDocument) (log : Log) :
    (update d).Follows (.logging Backs) (fun b _ => log <+: b ∧ Version b d)
      (fun b _ => log <+: b ∧ Refused b d) log := by
  unfold update
  refine ask_bind_follows .now (backs_working trivial) fun (time : ℕ) => ?_
  refine ask_bind_follows (.saveChanges [.update d time]) (backs_working trivial)
    fun (outcome : Except String Unit) => ?_
  have grows : log <+: log ++ [⟨.now, time⟩] ++ [commitOf (.update d time) outcome] := by
    rw [List.append_assoc]
    exact List.prefix_append _ _
  have last : commitOf (.update d time) outcome ∈
      log ++ [⟨.now, time⟩] ++ [commitOf (.update d time) outcome] :=
    List.mem_append_right _ (List.mem_singleton_self _)
  refine (Program.follows_raise _).mpr ⟨?_, ?_⟩
  · rintro ⟨⟩ rfl
    exact ⟨grows, .committed (.update d time) last⟩
  · rintro what rfl
    exact ⟨grows, time, what, last⟩

theorem update_leads (d : EcfDocument) : Leads log (update d) fun b _ => Version b d :=
  (update_commits d log).mono (fun _ _ ends => ends) fun _ _ ends => ends.1

/-- An update whose failure is not looked at. -/
theorem update_or_refused {p : Procedure Unit} (rest : ∀ b, Leads b p fun _ _ => True) :
    Leads log ((update d).tryCatch fun _ => p) fun b _ => Version b d ∨ Refused b d := by
  refine Program.Follows.tryCatch ((update_commits d log).mono
    (fun _ _ ends => ⟨ends.1, .inl ends.2⟩) fun _ _ ends => ends) ?_
  rintro b - ⟨grows, refused⟩
  exact ((rest b).mono fun c _ grows _ => .inr (refused.mono grows)).later grows

theorem saveOutcome_leads (d : EcfDocument) :
    Leads log (saveOutcome d) fun b _ => Version b d ∨ Refused b d :=
  update_or_refused fun _ => (update_or_refused fun _ => .done trivial).mono fun _ _ _ _ => trivial

theorem afterResultado_only {resultado : ConsultaResultadoResponse}
    (verdict : afterResultado doc resultado = some d) : OnlyStatus doc d := by
  unfold OnlyStatus
  rw [(afterResultado_some verdict).1]

/-- A transmission touches the status fields alone. -/
theorem transmission_leads (doc : EcfDocument) :
    Leads log (transmission ext services s doc) fun _ d => OnlyStatus doc d := by
  have rfce : Leads log (sendAsRfce ext services s doc) fun _ d => OnlyStatus doc d := by
    unfold sendAsRfce
    refine Leads.bind (.working (working_ask trivial)) fun a time _ _ => ?_
    refine Leads.bind (.working (working_ask trivial)) fun a signed _ _ => ?_
    refine Leads.bind (.working (Program.only_raise _)) fun a xml _ _ => ?_
    refine Leads.bind (.working (DirectSending.sendRfce_working ..)) fun a resp _ _ => ?_
    refine Leads.bind (.working (working_ask trivial)) fun a sentAt _ _ => .done ?_
    unfold afterRfce
    split <;> rfl
  have ecf : Leads log (sendAsEcf ext s doc) fun _ d => OnlyStatus doc d := by
    unfold sendAsEcf
    refine Leads.bind (.working (DirectSending.sendEcf_working ..)) fun a response _ _ => ?_
    refine .ite (fun _ => ?_) fun _ => .done ?_
    · refine Leads.bind (.working (working_ask trivial)) fun a sentAt _ _ => ?_
      refine Leads.bind (.working (working_attempt ((consultar_working _).bind fun _ =>
        Program.only_raise _))) fun a resultado _ _ => ?_
      cases resultado with
      | error e => exact .done rfl
      | ok resultado =>
        refine .done ?_
        cases verdict : afterResultado (received sentAt doc response.trackId) resultado with
        | none => rfl
        | some d =>
          have tracked : OnlyStatus doc (received sentAt doc response.trackId) := rfl
          exact OnlyStatus.trans tracked (afterResultado_only verdict)
    · simp only [notReceived]
      split <;> rfl
  exact Leads.tryCatch (.ite (fun _ => rfce) fun _ => ecf) fun _ _ _ => .done rfl

/-- **`signAndSend`** answers with what it has committed, or with the outcome of
a transmission that it could not commit. -/
theorem signAndSend_leads (doc : EcfDocument) :
    Leads log (signAndSend ext services s doc) Backed := by
  unfold signAndSend
  refine Leads.bind (.working (working_attempt ?_)) fun a content _ _ => ?_
  · exact working_bind trivial fun _ => raise_bind fun _ => raise_bind fun _ => trivial
  · cases content with
    | error what => exact (update_leads _).bind fun b _ _ _ => .done (backed_err _ 500)
    | ok content =>
      obtain ⟨signedXml, codigo⟩ := content
      dsimp only
      split
      · refine (update_leads _).bind fun b _ _ _ => .done ?_
        rintro fields body ⟨id, names⟩
        cases body
        simp at names
      · unfold sendSigned
        refine .ite (fun _ => ?_) fun _ => ?_
        · exact (update_leads _).bind fun b _ _ committed =>
            .done (unsignedResponse_backed (.version committed))
        · refine (update_leads _).bind fun b _ _ committed => ?_
          refine (transmission_leads _).bind fun c d grows only => ?_
          refine (saveOutcome_leads d).bind fun e _ grows' saved => .done ?_
          refine outcomeResponse_backed ?_
          rcases saved with committed' | refused
          · exact .version committed'
          · have pending : "AwaitingTransmission" ∈ polledStates := by decide
            exact .outcome (committed.mono (grows.trans grows')) pending only refused

/-! ## A submission -/

theorem uncertain_backed (read : Read log row) (code : ℕ) :
    Backed log (json (uncertainFields row.toEcfDocument) code) :=
  backed_json (uncertainFields_tell _) (.version (.read read)) code

/-- The submitted content, committed and sent. -/
theorem resend_leads (doc : EcfDocument) :
    Leads log (do
      let doc ← refresh ext s doc
      update doc
      signAndSend ext services s doc) Backed :=
  (Leads.working refresh_working).bind fun _ doc _ _ =>
    (update_leads doc).bind fun _ _ _ _ => signAndSend_leads doc

theorem reconcileUncertain_leads (read : Read log row) :
    Leads log (reconcileUncertain ext services s row) Backed := by
  unfold reconcileUncertain
  refine Leads.bind ((tooYoung_follows backs_outside).mono
    (fun _ _ ends => ⟨ends.1.longer, trivial⟩) fun _ _ ends => ends.elim) fun a young grows _ => ?_
  have read := read.mono fun _ member => grows.subset member
  refine .ite (fun _ => .done (uncertain_backed read _)) fun _ => ?_
  refine (Leads.working (working_attempt (Program.Only.bind (consultar_working _) fun _ =>
    Program.only_pure _))).bind fun b status grows _ => ?_
  have read := read.mono fun _ member => grows.subset member
  cases status with
  | error e =>
    exact .done (backed_json ((uncertainFields_tell _).error _) (.version (.read read)) 503)
  | ok status =>
    refine .ite (fun _ => resend_leads _) fun _ => ?_
    refine Leads.bind ((recoverTrackId_follows backs_outside).mono
      (fun _ _ ends => ⟨ends.1.longer, trivial⟩) fun _ _ ends => ends.elim) fun c tracked _ _ => ?_
    refine Leads.bind ((recoverSentAt_follows backs_outside).mono
      (fun _ _ ends => ⟨ends.1.longer, trivial⟩) fun _ _ ends => ends.elim) fun d dated _ _ => ?_
    exact (update_leads _).bind fun e _ _ committed =>
      .done (reconciledResponse_backed (.version committed))

theorem reissue_leads (doc : EcfDocument) : Leads log (reissue ext services s doc) Backed := by
  unfold reissue
  refine (Leads.working (working_ask (r := .getNextEncf ..) trivial)).bind fun a number _ _ => ?_
  refine (Leads.working (Program.only_raise _)).bind fun a eNcf _ _ => ?_
  refine (Leads.working refresh_working).bind fun b doc _ _ => ?_
  refine (Leads.working (working_attempt update_working)).bind fun c saved _ _ => ?_
  cases saved with
  | ok value => exact signAndSend_leads doc
  | error what =>
    exact (Leads.working (working_ask (r := .releaseUnusedEncf ..) trivial)).bind
      fun _ _ _ _ => .throws what

theorem handleExistingDocument_leads (read : Read log row) :
    Leads log (handleExistingDocument ext services s row) Backed := by
  unfold handleExistingDocument
  refine .ite (fun _ => resend_leads _) fun _ => ?_
  refine .ite (fun _ => reconcileUncertain_leads read) fun _ => ?_
  refine .ite (fun _ => reissue_leads _) fun _ => ?_
  refine .ite (fun _ => .done (editConflict_backed (.version (.read read)) _)) fun _ => ?_
  exact .done (existingResponse_backed (.version (.read read)))

/-- The row found, if any, is one that was read. -/
def Finds (log : Log) (found : Option EcfDocumentRow) : Prop :=
  ∀ row, found = some row → Read log row

/-- A lookup that shows what it finds, and what is done with it. -/
theorem found_leads {p : Procedure (Except String (Option EcfDocumentRow))}
    {k : Option EcfDocumentRow → Procedure α} {post : Log → α → Prop}
    (h : Leads log p fun b x => ∀ row, x = .ok (some row) → Read b row)
    (rest : ∀ b found, log <+: b → Finds b found → Leads b (k found) post) :
    Leads log (p >>= fun x => Program.raise x >>= k) post := by
  refine h.bind fun b x grows shown => ?_
  refine Leads.bind (M := Finds) (.raise ?_) fun c found grows' finds =>
    rest c found (grows.trans grows') finds
  rintro found rfl row rfl
  exact shown row rfl

theorem lookup_leads {k : Option EcfDocumentRow → Procedure α} {post : Log → α → Prop}
    (rest : ∀ b found, log <+: b → Finds b found → Leads b (k found) post) :
    Leads log (lookup s >>= fun x => Program.raise x >>= k) post := by
  refine found_leads (Leads.ask (r := .documentBySourceTxnId ..) (backs_working trivial) ?_) rest
  rintro _ row rfl
  exact .last (List.mem_singleton_self row)

theorem submitNew_leads : Leads log (submitNew ext services s) Backed := by
  unfold submitNew
  refine (Leads.working (working_ask (r := .getNextEncf ..) trivial)).bind fun a number _ _ => ?_
  cases number with
  | error what => exact .done (backed_err what 503)
  | ok eNcf =>
    refine (Leads.working (working_ask (r := .newUuid) trivial)).bind fun b id _ _ => ?_
    refine (Leads.working refresh_working).bind fun c doc _ _ => ?_
    refine (Leads.working (working_attempt ?_)).bind fun e added _ _ => ?_
    · exact working_bind trivial fun _ => working_bind trivial fun _ => Program.only_raise _
    cases added with
    | ok value => exact signAndSend_leads doc
    | error what =>
      unfold recoverInsert
      refine (Leads.working (working_ask (r := .releaseUnusedEncf ..) trivial)).bind
        fun _ _ _ _ => ?_
      refine .ite (fun _ => ?_) fun _ => .done (backed_err _ 500)
      refine lookup_leads fun f winner _ shown => ?_
      cases winner with
      | none => exact .done (backed_err _ 500)
      | some winner => exact handleExistingDocument_leads (shown winner rfl)

/-- The answer an operation ends with. -/
def told : Ending → HttpResponse
  | .answer response => response
  | .answerInTry response _ => response

theorem resolvedEnding_leads :
    Leads log (resolvedEnding ext services s) fun b ending => Backed b (told ending) := by
  unfold resolvedEnding
  refine Leads.bind (Leads.attempt (?_ : Leads log _ fun b found =>
    ∀ response, found = some response → Backed b response)) fun b found _ backed => ?_
  · refine lookup_leads fun a existing _ shown => ?_
    cases existing with
    | none => exact .done nofun
    | some existing =>
      refine (handleExistingDocument_leads (shown existing rfl)).bind fun c response _ backed => ?_
      exact .done fun _ same => Option.some.inj same ▸ backed
  · rcases found with what | _ | response
    · exact .done (backed_err _ 500)
    · exact submitNew_leads.bind fun c response _ backed => .done backed
    · exact .done (backed _ rfl _ rfl)

/-- A refusal names no document. -/
theorem refusal_backed {req : SubmitRequest} {response : HttpResponse}
    (refused : resolveTarget services req = .error response) : Backed log response := by
  have plain : ∀ what code, err what code = response → Backed log response := by
    rintro what code rfl
    exact backed_err what code
  unfold resolveTarget at refused
  simp only [bind, Except.bind] at refused
  cases body : req.body with
  | invalid =>
    simp only [body] at refused
    exact plain _ _ (Except.error.inj refused)
  | unreadable what =>
    simp only [body] at refused
    exact plain _ _ (Except.error.inj refused)
  | document submitted =>
    cases passed : checkDocument submitted with
    | error message =>
      simp only [body, passed] at refused
      exact plain _ _ (Except.error.inj refused)
    | ok dto =>
      cases tenant : effectiveTenant req dto with
      | error other =>
        simp only [body, passed, tenant] at refused
        obtain rfl := Except.error.inj refused
        unfold effectiveTenant at tenant
        dsimp only at tenant
        repeat' split at tenant
        all_goals cases tenant
        exact plain _ _ rfl
      | ok tenantId =>
        cases resolved : resolveAmbiente services req dto with
        | error other =>
          simp only [body, passed, tenant, resolved] at refused
          obtain rfl := Except.error.inj refused
          unfold resolveAmbiente at resolved
          dsimp only at resolved
          repeat' split at resolved
          all_goals cases resolved
          exact plain _ _ rfl
        | ok ambiente => simp [body, passed, tenant, resolved] at refused

theorem submitEnding_leads (req : SubmitRequest) :
    Leads log (submitEnding ext services req) fun b ending => Backed b (told ending) := by
  unfold submitEnding
  cases resolved : resolveTarget services req with
  | error response => exact .done (refusal_backed resolved)
  | ok target =>
    refine (Leads.working (resolveSigner_working ..)).bind fun a signer _ _ => ?_
    refine (Leads.working (Program.only_raise _)).bind fun b client _ _ => ?_
    exact resolvedEnding_leads

/-- A procedure that gives none but backed answers. -/
def Answers (log : Log) (p : Procedure Unit) : Prop :=
  p.Follows (.logging Backs) (fun _ _ => True) (fun _ _ => True) log

theorem Leads.answers {p : Procedure Unit} (h : Leads log p fun _ _ => True) : Answers log p :=
  Program.Follows.mono h (fun _ _ _ => trivial) fun _ _ _ => trivial

theorem respond_leads {response : HttpResponse} (backed : Backed log response) :
    Leads log (respond response) fun _ _ => True :=
  Leads.ask (r := .respond response) (by rintro _ ⟨⟩; exact backed) fun _ => trivial

/-- A callback that passes a backed answer on. -/
def Passes (cb : HttpResponse → Procedure Unit) : Prop :=
  ∀ log response, Backed log response → Leads log (cb response) fun _ _ => True

theorem respond_passes : Passes respond := fun _ _ => respond_leads

theorem idempotentCallback_passes (key : String) : Passes (idempotentCallback ext key) := by
  intro log response backed
  unfold idempotentCallback
  refine .ite (fun _ => ?_) fun _ => ?_
  · refine Leads.bind (.asked (r := .idempotency (.complete ..)) backs_idempotency) fun a done grows _ => ?_
    refine (Leads.working (Program.only_raise _)).bind fun b _ grows' _ => ?_
    exact respond_leads (backed.mono (grows.trans grows'))
  · exact Leads.bind (.asked (r := .idempotency (.release _)) backs_idempotency) fun a _ grows _ =>
      respond_leads (backed.mono grows)

theorem next_leads (req : SubmitRequest) {cb : HttpResponse → Procedure Unit} (passes : Passes cb) :
    Leads log ((submitOperation ext services req).next cb) fun _ _ => True := by
  refine (submitEnding_leads req).bind fun b ending _ backed => ?_
  cases ending with
  | answer response => exact passes b response backed
  | answerInTry response label =>
    exact (passes b response backed).tryCatch fun c what _ => passes c _ (backed_err _ 500)

/-- **The answers of `submit` are backed.** -/
theorem submit_answers (req : SubmitRequest) : Answers [] (submit ext services req) := by
  rw [submit_eq]
  unfold idempotencyHandle
  refine .ite (fun _ => (next_leads req respond_passes).answers) fun _ => ?_
  have text {b : Log} {response : HttpResponse} (backed : Backed b response) :
      Answers b (respond response) := (respond_leads backed).answers
  refine (Reservations.reserveOrGet_follows fun _ _ _ => backs_idempotency).bind fun b reservation _ => ?_
  cases reservation with
  | alreadyCompleted code contentType body => exact text (backed_text rfl)
  | alreadyProcessing => exact text (backed_err _ 409)
  | payloadMismatch => exact text (backed_err _ 422)
  | reserved =>
    refine Leads.answers (.tryCatch (next_leads req (idempotentCallback_passes _))
      fun c what _ => ?_)
    exact Leads.bind (.asked (r := .idempotency (.release _)) backs_idempotency) fun _ _ _ _ => .throws _

/-! ## The read endpoints -/

/-- The document found is one that was read. -/
theorem findDocument_leads (req : ReadRequest) (tenantId : String) :
    Leads log (findDocument req tenantId) Finds := by
  unfold findDocument
  refine found_leads (Leads.ask (r := .documentBySourceTxnId ..) (backs_working trivial) ?_)
    fun a bySource _ shown => ?_
  · rintro _ row rfl
    exact .last (List.mem_singleton_self row)
  cases bySource with
  | some row => exact .done shown
  | none =>
    refine found_leads (Leads.ask (r := .documentByTrackId ..) (backs_working trivial) ?_)
      fun a byTrack _ shown => ?_
    · rintro _ row rfl
      exact .last (List.mem_singleton_self row)
    split
    · next row taken =>
      refine .done ?_
      rintro _ ⟨⟩
      exact shown row (Option.filter_eq_some_iff.mp taken).1
    · refine found_leads (Leads.ask (r := .documentByENcf ..) (backs_working trivial) ?_)
        fun a byNcf _ shown => ?_
      · rintro _ row rfl
        exact .last (List.mem_singleton_self row)
      · exact .done fun row taken => shown row (Option.filter_eq_some_iff.mp taken).1

/-- What an answer may show of a row. -/
def Shown (row : EcfDocumentRow) (log : Log) (d : EcfDocument) : Prop :=
  d = row.toEcfDocument ∨ OnlyStatus row.toEcfDocument d ∧ (Version log d ∨ Refused log d)

theorem Shown.tellable (h : Shown row log d) (read : Read log row)
    (state : row.state ∈ polledStates) : Tellable log d := by
  rcases h with rfl | ⟨only, committed | refused⟩
  · exact .version (.read read)
  · exact .version committed
  · exact .outcome (.read read) state only refused

theorem savePolled_leads (only : OnlyStatus row.toEcfDocument d) :
    Leads log (savePolled d) (Shown row) :=
  (update_or_refused fun _ => .done trivial).bind fun _ _ _ saved => .done (.inr ⟨only, saved⟩)

/-- The poll of a row answers with the row, or with a verdict on it that it has tried
to commit. -/
theorem poll_leads (row : EcfDocumentRow) :
    Leads log (poll ext services row.toEcfDocument) (Shown row) := by
  have byENcf : ∀ a client, Leads a (pollByENcf ext client row.toEcfDocument) (Shown row) := by
    intro a client
    unfold pollByENcf
    refine (Leads.working ((consultar_working _).bind fun _ => Program.only_pure _)).bind
      fun b status _ _ => ?_
    refine .ite (fun _ => .done (.inl rfl)) fun _ => ?_
    refine Leads.bind ((askTrackId_follows backs_outside).mono
      (fun _ _ ends => ⟨ends.1.longer, ends.2⟩) fun _ _ ends => ends.elim)
      fun c tracked _ only => ?_
    refine savePolled_leads ?_
    rw [OnlyStatus, reconciled_only, only]
  unfold poll
  refine (Leads.working (resolveSigner_working ..)).bind fun a signer _ _ => ?_
  refine (Leads.working (Program.only_raise _)).bind fun b client _ _ => ?_
  have byTrackId : ∀ trackId,
      Leads b (pollByTrackId ext client row.toEcfDocument trackId) (Shown row) := by
    intro trackId
    refine (Leads.working ((consultar_working _).bind fun _ => Program.only_raise _)).bind
      fun c resultado _ _ => ?_
    split
    · next verdict found => exact savePolled_leads (afterResultado_only found)
    · exact .done (.inl rfl)
  split
  · refine .ite (fun _ => byTrackId _) fun _ => ?_
    exact .ite (fun _ => byENcf _ _) fun _ => .done (.inl rfl)
  · exact .ite (fun _ => byENcf _ _) fun _ => .done (.inl rfl)

/-- The document an answer shows of a row is tellable. -/
theorem refreshed_leads (read : Read log row) :
    Leads log (refreshed ext services row.toEcfDocument) Tellable := by
  have stored : ∀ b, log <+: b → Tellable b row.toEcfDocument := fun b grows =>
    .version (.read (read.mono fun _ member => grows.subset member))
  refine .ite (fun state => ?_) fun _ => .done (stored log List.prefix_rfl)
  refine Leads.tryCatch ((poll_leads row).mono fun b d grows shown => ?_) fun b _ grows =>
    .done (stored b grows)
  exact shown.tellable (read.mono fun _ member => grows.subset member) state

/-- An endpoint whose exceptions become answers without a document. -/
theorem endpoint_answers {p : Procedure Unit} {f : String → HttpResponse}
    (h : ∀ log, Leads log p fun _ _ => True) (plain : ∀ log what, Backed log (f what)) :
    Answers [] (.tryCatch p fun what => respond (f what)) :=
  (Leads.tryCatch (h []) fun _ what _ => respond_leads (plain _ what)).answers

theorem getBySourceTxnId_answers (req : ReadRequest) :
    Answers [] (getBySourceTxnId ext services req) := by
  refine endpoint_answers (fun log => ?_) fun _ _ => backed_err _ _
  refine (findDocument_leads req _).bind fun b found _ shown => ?_
  cases found with
  | none => exact respond_leads (backed_err _ _)
  | some row =>
    refine .ite (fun _ => respond_leads (backed_err _ _)) fun _ => ?_
    exact (refreshed_leads (shown row rfl)).bind fun c d _ tellable =>
      respond_leads (backed_json (documentFields_tell d) tellable 200)

theorem reconcileBySourceTxnId_answers (req : ReadRequest) :
    Answers [] (reconcileBySourceTxnId req) := by
  refine endpoint_answers (fun log => ?_) fun _ _ => backed_err _ _
  refine (findDocument_leads req _).bind fun b found _ shown => ?_
  cases found with
  | none => exact respond_leads (backed_err _ _)
  | some row =>
    exact respond_leads (backed_json ((documentFields_tell _).beside _ (by decide))
      (.version (.read (shown row rfl))) 200)

/-- The answers that hand a row's XML out. -/
theorem xml_leads {missing : HttpResponse} (plain : Backed log missing) (row : EcfDocumentRow) :
    Leads log (match row.signedXmlContent with
      | none => respond missing
      | some xml => if xml = "" then respond missing
        else respond (xmlResponse row.toEcfDocument xml)) fun _ _ => True := by
  split
  · exact respond_leads plain
  · exact .ite (fun _ => respond_leads plain) fun _ => respond_leads (backed_text rfl)

theorem getXmlBySourceTxnId_answers (req : ReadRequest) :
    Answers [] (getXmlBySourceTxnId req) := by
  refine endpoint_answers (fun log => ?_) fun _ _ => backed_err _ _
  refine (findDocument_leads req _).bind fun b found _ shown => ?_
  cases found with
  | none => exact respond_leads (backed_err _ _)
  | some row => exact xml_leads (backed_err _ _) row

theorem getById_answers (req : ReadRequest) : Answers [] (getById req) := by
  refine .ite (fun _ => (respond_leads (backed_err _ _)).answers) fun _ =>
    endpoint_answers (f := fun _ => _) (fun log => ?_) fun _ _ => backed_err _ _
  refine found_leads (Leads.ask (r := .documentById req.txnId) (backs_working trivial) ?_)
    fun b found _ shown => ?_
  · rintro _ row rfl
    exact .last (List.mem_singleton_self row)
  cases found with
  | none => exact respond_leads (backed_err _ _)
  | some row =>
    refine .ite (fun _ => respond_leads (backed_err _ _)) fun _ => ?_
    exact respond_leads (backed_json (documentFields_tell _) (.version (.read (shown row rfl))) 200)

theorem getXmlById_answers (req : ReadRequest) : Answers [] (getXmlById req) := by
  refine .ite (fun _ => (respond_leads (backed_err _ _)).answers) fun _ =>
    endpoint_answers (fun log => ?_) fun _ _ => backed_err _ _
  refine found_leads (Leads.ask (r := .documentById req.txnId) (backs_working trivial) ?_)
    fun b found _ shown => ?_
  · rintro _ row rfl
    exact .last (List.mem_singleton_self row)
  cases found with
  | none => exact respond_leads (backed_err _ _)
  | some row =>
    exact .ite (fun _ => respond_leads (backed_err _ _)) fun _ => xml_leads (backed_err _ _) row

/-! ## The status query and the background pass -/

theorem storeState_working (doc : EcfDocument) (state : String) :
    (storeState doc state).Only Working := .ite (fun _ => update_working) fun _ => trivial

theorem handleStatusQuery_working (rncEmisor eNcf : String) :
    (handleStatusQuery ext services rncEmisor eNcf).Only Working := by
  unfold handleStatusQuery
  refine Program.Only.bind (working_attempt (working_bind trivial fun found =>
    raise_bind fun localDoc => .ite (fun _ => trivial) fun _ => ?_)) fun answer => ?_
  · cases localDoc with
    | none =>
      refine raise_bind fun _ => Program.Only.bind ?_ fun _ => Program.only_pure _
      exact (consultar_working _).bind fun _ => Program.only_pure _
    | some row =>
      refine .ite (fun _ => trivial) fun _ => raise_bind fun _ => ?_
      refine ((consultar_working _).bind fun _ => Program.only_pure _).bind fun live => ?_
      exact (storeState_working _ _).bind fun _ => trivial
  · cases answer with
    | ok result => trivial
    | error what => trivial

/-- The status answers name no document. -/
theorem status_answers (rncEmisor eNcf : String) :
    Answers [] (status ext services rncEmisor eNcf) := by
  refine .ite (fun _ => (respond_leads (backed_err _ _)).answers) fun _ => ?_
  split
  · exact (respond_leads (backed_err _ _)).answers
  · refine ((Leads.working (handleStatusQuery_working ..)).bind fun b answer _ _ => ?_).answers
    cases answer with
    | error message => exact respond_leads (backed_err _ _)
    | ok live =>
      refine respond_leads ?_
      rintro fields body ⟨id, names⟩
      cases body
      simp [statusFields] at names

theorem clientFor_working (client : EcfClient) (cache : ClientCache) (doc : EcfDocument) :
    (clientFor services client cache doc).Only Working := by
  unfold clientFor
  dsimp only
  split
  · trivial
  · refine .ite (fun _ => working_bind trivial fun resolved => ?_) fun _ => trivial
    split <;> trivial

theorem reconcileOne_working (time : ℕ) (client : EcfClient) (doc : EcfDocument) :
    (reconcileOne ext time client doc).Only Working := by
  unfold reconcileOne askResultado
  refine Program.Only.bind (.ite (fun _ => ?_) fun _ => trivial) fun asked => ?_
  · refine (working_attempt ((consultar_working _).bind fun _ => Program.only_raise _)).bind
      fun answer => ?_
    split <;> trivial
  · refine .ite (fun _ => ?_) fun _ => trivial
    refine (working_attempt ((consultar_working _).bind fun _ => Program.only_pure _)).bind
      fun answer => ?_
    split <;> trivial

theorem reconcileAll_working (time : ℕ) (client : EcfClient) (cache : ClientCache)
    (due : List EcfDocumentRow) :
    (reconcileAll ext services time client cache due).Only Working := by
  induction due generalizing cache with
  | nil => trivial
  | cons row rest ih =>
    refine .ite (fun _ => working_bind trivial fun staged => (ih _).bind fun _ => trivial)
      fun _ => ?_
    refine (clientFor_working ..).bind fun built => (reconcileOne_working ..).bind fun checked => ?_
    exact working_bind trivial fun staged => (ih _).bind fun _ => trivial

/-- The background pass answers nobody. -/
theorem reconcilePass_working : (reconcilePass ext services).Only Working := by
  unfold reconcilePass
  split
  · trivial
  · refine working_bind trivial fun time => working_bind trivial fun found => ?_
    split
    · trivial
    · refine (reconcileAll_working ..).bind fun writes => ?_
      exact .ite (fun _ => working_bind trivial fun _ => trivial) fun _ => trivial

/-- **Every operation gives none but backed answers.** -/
theorem program_answers (ext : Externals) (services : Services) (op : Operation) :
    Answers [] (program ext services op) := by
  cases op with
  | submit req => exact submit_answers req
  | getBySourceTxnId req => exact getBySourceTxnId_answers req
  | reconcileBySourceTxnId req => exact reconcileBySourceTxnId_answers req
  | getXmlBySourceTxnId req => exact getXmlBySourceTxnId_answers req
  | getById req => exact getById_answers req
  | getXmlById req => exact getXmlById_answers req
  | status rncEmisor eNcf => exact status_answers rncEmisor eNcf
  | reconcile => exact (Leads.working reconcilePass_working).answers

/-! ## Every schedule -/

/-- What an operation has read or committed is in the table. -/
structure Stored (log : Log) (w : World) : Prop where
  current : Current log w
  committed : ∀ write, commitOf write (.ok ()) ∈ log → Has w.documents write.doc

theorem Stored.later {w u : World} (h : Stored log w) (lasting : Lasting w.documents u.documents) :
    Stored log u :=
  ⟨h.current.later lasting, fun write member => (h.committed write member).later lasting⟩

theorem stored_nil (w : World) : Stored [] w where
  current d knows := by
    cases knows with
    | read h => exact absurd h.choose_spec.1 List.not_mem_nil
    | wrote h => cases h
  committed _ member := absurd member List.not_mem_nil

theorem stored_step (ext : Externals) (services : Services) :
    Pool.StepKeeps (host ext) (Asks ext services) (fun _ _ => True)
      (fun _ (th : Thread Operation Api Unit) w _ => Stored th.log w) fun _ _ => True := by
  intro p t input r next sound running _ permitted
  obtain ⟨lasting, own⟩ := Current.step
    (w := { p.world with clock := p.world.clock + input.elapsed }) ext input (sound.threads t).current permitted
  refine ⟨trivial, ⟨own, fun write member => ?_⟩, fun t' _ => (sound.threads t').later lasting⟩
  rcases List.mem_append.mp member with old | new
  · exact ((sound.threads t).committed write old).later lasting
  · have wrote := congrArg (fun e => ((progress (p.thread t).log).after e).written)
      (List.mem_singleton.mp new)
    refine own _ (.wrote ?_)
    rw [progress_append]
    exact wrote.symm

theorem Version.has {w : World} (h : Version log d) (stored : Stored log w) :
    Has w.documents d := by
  cases h with
  | read h => exact stored.current _ (.read h)
  | committed write h => exact stored.committed write h

/-- What may be told of a document is told of one in the table. -/
theorem Tellable.has {w : World} (h : Tellable log d) (stored : Stored log w) :
    Has w.documents d := by
  cases h with
  | version h => exact h.has stored
  | outcome version _ only _ =>
    obtain ⟨row, member, same⟩ := version.has stored
    exact ⟨row, member, same.trans (OnlyStatus.identity only).symm⟩

/-- A submission about to answer. -/
def aboutToAnswer : EnginePool :=
  (engine sampleExternals sampleServices (fun _ => .submit sampleRequest) sampleWorld).play
    (host sampleExternals) (steps 0 17 "trackId")

/-- The answer's fields. -/
def sampleFields : List (String × Json) :=
  [("documentId", .string "SIGNATURE"), ("eNcf", .string "E310000000001"),
    ("state", .string "Signed"), ("totalAmount", .number 100), ("itbisAmount", .number 0),
    ("trackId", .string "T1"), ("securityCode", .string "SIGNAT"),
    ("signedXml", .string "SIGNATURE"), ("dgiiResponse", .null), ("dgiiResponseXml", .null)]

/-- Its next event. -/
theorem aboutToAnswer_answers : aboutToAnswer.nextEvent (host sampleExternals) 0
    (answering "trackId") = some ⟨.respond (json sampleFields 202), ()⟩ := rfl

end EcfDgii.StoredAnswers
