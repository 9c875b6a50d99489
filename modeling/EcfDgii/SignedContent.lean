import EcfDgii.DocumentInvariants

/-!
The signed XML belongs to the row.

A row's content carries the row's eNCF, and its signed XML is what the signer
made of that content.  `signAndSend` commits a signature together with the
content it signs, but two other commits break the pair: a failed signature
leaves the unsigned content in the signed column, and a resubmission replaces
the content of a row that is signed already.  Everywhere else the law holds, at
every commit, with processes dying between any two.
-/

set_option autoImplicit false

namespace EcfDgii.SignedContent

open EcfDgii.Documents EcfDgii.Tables EcfDgii.Programs EcfDgii.Execution EcfDgii.Engine
open EcfDgii.CanonicalXml EcfDgii.Transmission EcfDgii.Submission EcfDgii.StatusPolling
open EcfDgii.Traces EcfDgii.SubmissionTrace EcfDgii.SubmissionFollows EcfDgii.StatusTrace
open EcfDgii.DocumentInvariants

/-- An e-CF text that carries an eNCF. -/
def Carries (xml eNcf : String) : Prop := ∃ tipo rest, xml = encabezado "ECF" tipo eNcf ++ rest

/-- A signer made `signedXml` of the document's content. -/
def SignedFrom (history : History) (d : EcfDocument) (signedXml : String) : Prop :=
  Carries d.xmlContent d.eNcf ∧ ∃ t signer,
    (t, (⟨.signXml signer d.xmlContent d.rncEmisor, (.ok signedXml : Except String String)⟩ :
      Event Api)) ∈ history

/-- The content carries the eNCF, and a signed XML is the signer's of it. -/
def Belongs (history : History) (d : EcfDocument) : Prop :=
  Carries d.xmlContent d.eNcf ∧
    ∀ signedXml, d.signedXmlContent = some signedXml → SignedFrom history d signedXml

/-- Submissions and downloads. -/
def SubmitsOrDownloads : Operation → Prop
  | .submit _ => True
  | .getXmlBySourceTxnId _ => True
  | .getXmlById _ => True
  | _ => False

/-- The signature of a document does not fail. -/
def SignsContent (ext : Externals) (e : Event Api) : Prop :=
  ∀ signer tipo eNcf rest rnc out,
    e = ⟨.signXml signer (encabezado "ECF" tipo eNcf ++ rest) rnc, out⟩ →
    ∃ x codigo, out = .ok x ∧ calcularCodigoSeguridad ext x = .ok codigo

/-- A submission that is about to replace the content of a found row finds it
without a signed XML; or it keeps the eNCF, and its content is the row's own. -/
def KeepsSigned (ext : Externals) (services : Services) (op : Operation) (log : Log)
    (e : Event Api) : Prop :=
  ∀ req t row writes, op = .submit req → resolveTarget services req = .ok t →
    (progress log).found = some row → (progress log).written = none →
    e = ⟨.saveChanges writes, (.ok () : Except String Unit)⟩ →
    (row.state = "RejectedByDgii" → row.signedXmlContent = none) ∧
    (Refreshable ext log row → row.signedXmlContent = none ∨
      t.emisorRnc = row.rncEmisor ∧
        ∀ time, (withContent ext t time row.toEcfDocument).xmlContent = row.xmlContent)

/-- The condition on a schedule. -/
def Pairs (ext : Externals) (services : Services) (op : Operation) (log : Log) (e : Event Api) :
    Prop :=
  SignsContent ext e ∧ KeepsSigned ext services op log e

variable {ext : Externals} {services : Services} {history : History} {log : Log}
  {d d' : EcfDocument}

/-- The builder puts the eNCF into the content. -/
theorem carries_withContent (t : SubmissionTarget) (time : ℕ) (doc : EcfDocument) :
    Carries (withContent ext t time doc).xmlContent (withContent ext t time doc).eNcf :=
  ⟨_, _, rfl⟩

theorem Belongs.same (h : Belongs history d) (same : SameContent d d') : Belongs history d' := by
  unfold Belongs SignedFrom at h ⊢
  rwa [same.xmlContent, same.eNcf, same.rncEmisor, same.signedXmlContent]

/-- Signing belongs to the content it signs. -/
theorem Belongs.signed (h : Belongs history d) (state : String)
    (logged : ∀ e ∈ log, ∃ t, (t, e) ∈ history) {x codigo : String} (made : ContentSigned log d x) :
    Belongs history { signed d x codigo with state := state } := by
  refine ⟨h.1, fun signedXml same => ⟨h.1, ?_⟩⟩
  obtain ⟨signer, event⟩ := made
  obtain ⟨t, member⟩ := logged _ event
  exact ⟨t, signer, Option.some.inj same ▸ member⟩

/-- New content on a document without a signed XML. -/
theorem belongs_unsigned (t : SubmissionTarget) (at' : ℕ) (unsigned : d.signedXmlContent = none) :
    Belongs history (withContent ext t at' d) :=
  ⟨carries_withContent t at' d, fun _ stored => absurd (unsigned.symm.trans stored) nofun⟩

/-- The row's own content, built again. -/
theorem Belongs.rebuilt {t : SubmissionTarget} {at' : ℕ} (h : Belongs history d)
    (rnc : t.emisorRnc = d.rncEmisor) (xml : (withContent ext t at' d).xmlContent = d.xmlContent) :
    Belongs history (withContent ext t at' d) :=
  h.same ⟨rfl, rfl, rnc, xml, rfl⟩

/-- A signature that failed contradicts the condition. -/
theorem not_signatureFailed {req : SubmitRequest} (carries : Carries d.xmlContent d.eNcf)
    (along : Along (Pairs ext services (.submit req)) log) : ¬ SignatureFailed ext log d := by
  rintro ⟨signer, out, event, failed⟩
  obtain ⟨tipo, rest, xml⟩ := carries
  obtain ⟨before, -, signs, -⟩ := along.of_mem event
  obtain ⟨x, codigo, ok, code⟩ := signs signer tipo d.eNcf rest d.rncEmisor out (by rw [← xml])
  obtain ⟨e, bad⟩ := failed x ok
  exact absurd (code.symm.trans bad) nofun

/-- Belonging is a law. -/
theorem belongs_lawful : Lawful ext services SubmitsOrDownloads (Pairs ext services) Belongs where
  mono history e d h := ⟨h.1, fun signedXml stored => ⟨h.1, by
    obtain ⟨-, t, signer, member⟩ := h.2 signedXml stored
    exact ⟨t, signer, List.mem_append_left _ member⟩⟩⟩
  writes op log history writes write obeys condition h := by
    cases h with
    | poll => exact obeys.kind.elim
    | status => exact obeys.kind.elim
    | reconcile => exact obeys.kind.elim
    | submit target h =>
      have written := fun d => obeys.written (d := d) List.prefix_rfl
      cases h with
      | create fresh uuid issued =>
        exact ⟨carries_withContent _ _ _, fun signedXml stored => nomatch stored⟩
      | @refresh row at' time found fresh allowed =>
        rcases (condition.2 _ _ row _ rfl target found fresh rfl).2 allowed with unsigned | ⟨rnc, xml⟩
        · exact belongs_unsigned _ _ unsigned
        · exact (obeys.read row (read_of_found found)).rebuilt rnc (xml at')
      | @reissue row eNcf at' time found fresh state issued =>
        exact belongs_unsigned _ _ ((condition.2 _ _ row _ rfl target found fresh rfl).1 state)
      | @reconcile row d answer time found fresh state only =>
        have same := only.content.trans (reconciled_content d (estadoOf ext answer))
        dsimp only [Write.doc]
        exact (obeys.read row (read_of_found found)).same same
      | signingFailed last state failed =>
        exact (not_signatureFailed (written _ last).1 obeys.along failed).elim
      | schemaInvalid last state made =>
        exact (written _ last).signed "SchemaInvalid" obeys.logged made
      | unsigned last state => exact ⟨(written _ last).1, fun signedXml stored => nomatch stored⟩
      | awaiting last state made =>
        exact (written _ last).signed "AwaitingTransmission" obeys.logged made
      | outcome last state outcome => exact (written _ last).same outcome.only.content

/-- A download, in its last word, gives the signed XML of a row it has read. -/
theorem download_of_obeys {op : Operation} {response : HttpResponse} {contentType content : String}
    (obeys : Obeys ext services SubmitsOrDownloads (Pairs ext services) Belongs op log history)
    (download : ∀ req, op ≠ .submit req) (text : response.body = .text contentType content)
    (answered : (⟨.respond response, ()⟩ : Event Api) ∈ log) :
    ∃ row, Read log row ∧ row.signedXmlContent = some content ∧
      SignedFrom history row.toEcfDocument content := by
  obtain ⟨before, cut, asks⟩ := obeys.asked.of_mem answered
  have served : XmlAsks before (.respond response) := by
    cases op with
    | submit req => exact absurd rfl (download req)
    | getXmlBySourceTxnId req => exact asks
    | getXmlById req => exact asks
    | _ => exact obeys.kind.elim
  cases served with
  | lookup h => exact h.elim
  | refuse => exact absurd text nofun
  | @serve row xml read stored =>
    cases text
    have read := read.mono fun e member => cut.subset (List.mem_append_left _ member)
    exact ⟨row, read, stored, (obeys.read row read).2 _ stored⟩

/-- **Signed XML belongs to the row.** On every schedule of submissions and
downloads, processes dying at any point, whose document signatures succeed and
whose resubmissions never replace the content of a signed row: in every state
reached a row's signed XML is the signer's output for the row's own content and
eNCF, and so is every XML served as a signed document. -/
theorem signed_xml_belongs_to_row (ext : Externals) (services : Services)
    (operations : ℕ → Operation) (kinds : ∀ t, SubmitsOrDownloads (operations t)) (w : World)
    (initial : ∀ row ∈ w.documents.rows,
      row.signedXmlContent = none ∧ Carries row.xmlContent row.eNcf)
    (moves : List (Move Input))
    (met : (engine ext services operations w).Meets (host ext) (Each ext (Pairs ext services)) moves) :
    (∀ row ∈ ((engine ext services operations w).play (host ext) moves).world.documents.rows,
      ∀ signedXml, row.signedXmlContent = some signedXml →
        SignedFrom ((engine ext services operations w).play (host ext) moves).history
          row.toEcfDocument signedXml) ∧
    ∀ t response contentType content,
      (∀ req, (((engine ext services operations w).play (host ext) moves).thread t).operation ≠
        .submit req) →
      response.body = .text contentType content →
      (⟨.respond response, ()⟩ : Event Api) ∈
        (((engine ext services operations w).play (host ext) moves).thread t).log →
      ∃ row, Read (((engine ext services operations w).play (host ext) moves).thread t).log row ∧
        row.signedXmlContent = some content ∧
        SignedFrom ((engine ext services operations w).play (host ext) moves).history
          row.toEcfDocument content := by
  have start : ∀ row ∈ w.documents.rows, Belongs [] row.toEcfDocument := fun row member =>
    ⟨(initial row member).2, fun signedXml stored =>
      absurd ((initial row member).1.symm.trans stored) nofun⟩
  have sound := belongs_lawful.play kinds start met
  exact ⟨fun row member => (sound.world row member).2,
    fun t response contentType content download text answered =>
      download_of_obeys (sound.threads t) download text answered⟩

/-- A submission, and a download of its document. -/
def submitThenDownload : ℕ → Operation
  | 0 => .submit sampleRequest
  | _ => .getXmlBySourceTxnId { txnId := "TXN-1" }

theorem submitThenDownload_kinds (t : ℕ) : SubmitsOrDownloads (submitThenDownload t) := by
  cases t <;> trivial

/-- The condition, where no signature fails and no found row is written. -/
def pairs (_ : Operation) (log : Log) : Event Api → Bool
  | ⟨.signXml .., out⟩ =>
    match out with
    | .ok x => (calcularCodigoSeguridad sampleExternals x).isOk
    | .error _ => false
  | ⟨.saveChanges _, _⟩ => (progress log).found.isNone
  | _ => true

theorem pairs_sound (op : Operation) (log : Log) (e : Event Api) (h : pairs op log e = true) :
    Pairs sampleExternals sampleServices op log e := by
  refine ⟨?_, ?_⟩
  · rintro signer tipo eNcf rest rnc out rfl
    cases out with
    | error e => exact absurd h nofun
    | ok x =>
      cases code : calcularCodigoSeguridad sampleExternals x with
      | error e => exact absurd h (by simp [pairs, code, Except.isOk, Except.toBool])
      | ok codigo => exact ⟨x, codigo, rfl, code⟩
  · rintro req t row writes - - found - rfl
    exact absurd h (by simp [pairs, found])

/-- What the downloads of a log have served. -/
def servedXml (log : Log) : List String := log.filterMap fun e =>
  match e with
  | ⟨.respond response, _⟩ =>
    match response.body with
    | .text _ content => some content
    | .json _ => none
  | _ => none

/-- A document signed, sent and downloaded. -/
def signedRun : EnginePool :=
  (engine sampleExternals sampleServices submitThenDownload sampleWorld).play
    (host sampleExternals) (steps 0 18 "trackId" ++ steps 1 2 "")

theorem signed_xml_belongs_to_row_sample :
    (∀ row ∈ signedRun.world.documents.rows, ∀ signedXml, row.signedXmlContent = some signedXml →
      SignedFrom signedRun.history row.toEcfDocument signedXml) ∧
    ∀ t response contentType content, (∀ req, (signedRun.thread t).operation ≠ .submit req) →
      response.body = .text contentType content →
      (⟨.respond response, ()⟩ : Event Api) ∈ (signedRun.thread t).log →
      ∃ row, Read (signedRun.thread t).log row ∧ row.signedXmlContent = some content ∧
        SignedFrom signedRun.history row.toEcfDocument content :=
  signed_xml_belongs_to_row sampleExternals sampleServices submitThenDownload
    submitThenDownload_kinds sampleWorld (fun _ member => absurd member List.not_mem_nil) _
    (each_of_checked pairs_sound (by decide +kernel))

/-- The signer fails once; the download then serves what was never signed. -/
def unsignedRun : EnginePool :=
  (engine sampleExternals sampleServices submitThenDownload sampleWorld).play
    (host sampleExternals)
    (List.replicate 12 (.step 0 { failure := some "sin certificado" }) ++ steps 1 2 "")

/-- Nothing was signed, and yet the row has a signed XML, its own content, and
the download serves it. -/
theorem signing_failure_serves_unsigned :
    (unsignedRun.history.all fun (_, e) =>
      match e with
      | ⟨.signXml .., .ok _⟩ => false
      | _ => true) = true ∧
    unsignedRun.world.documents.rows.map (fun row => (row.state, row.signedXmlContent)) =
      unsignedRun.world.documents.rows.map (fun row => ("SigningFailed", some row.xmlContent)) ∧
    servedXml (unsignedRun.thread 1).log =
      unsignedRun.world.documents.rows.map (·.xmlContent) ∧
    unsignedRun.world.documents.rows ≠ [] := by
  decide +kernel

end EcfDgii.SignedContent
