import EcfDgii.DocumentInvariants

/-!
The type of a document and its eNCF.

A number issued for a type carries the type's digits, because every sequence
row's letters are E and the digits of its type.  A document keeps its number
when its content is replaced, and the content then takes its type from the
request: the two agree on the schedules where such a request is of the type the
number was issued for.  The summary of a consumer invoice always says 32, and
is only sent for numbers that say 32 too.
-/

set_option autoImplicit false

namespace EcfDgii.DocumentTypes

open EcfDgii.Text EcfDgii.Documents EcfDgii.Tables EcfDgii.Programs EcfDgii.Execution
open EcfDgii.Engine EcfDgii.CanonicalXml EcfDgii.Transmission EcfDgii.Submission EcfDgii.Traces
open EcfDgii.SubmissionTrace EcfDgii.SubmissionFollows EcfDgii.StatusTrace
open EcfDgii.DocumentInvariants

/-- A text whose TipoeCF is the type of the eNCF it carries. -/
def Agrees (xml eNcf : String) : Prop :=
  ∃ root rest, xml = encabezado root (tipoDigits eNcf) eNcf ++ rest

/-- An e-CF text, or what a signer made of one, whose type agrees with its eNCF. -/
def Typed (history : History) (xml : String) : Prop :=
  ∃ text eNcf, Agrees text eNcf ∧ (xml = text ∨ ∃ t signer rnc,
    (t, (⟨.signXml signer text rnc, (.ok xml : Except String String)⟩ : Event Api)) ∈ history)

/-- The content agrees with the row's eNCF, and the signed XML is typed. -/
def TypedDocument (history : History) (d : EcfDocument) : Prop :=
  Agrees d.xmlContent d.eNcf ∧
    ∀ signedXml, d.signedXmlContent = some signedXml → Typed history signedXml

/-- A sequence row whose letters are those of its type. -/
def SequenceTyped (s : EcfSequence) : Prop := s.prefijo = "E" ++ tipoEcf s.tipoComprobante

instance : DecidablePred SequenceTyped := fun _ => inferInstanceAs (Decidable (_ = _))

/-- The operations are submissions. -/
def Submits : Operation → Prop
  | .submit _ => True
  | _ => False

/-- A submission that is about to replace the content of a found row under its
eNCF is of the type that eNCF was issued for. -/
def KeepsType (ext : Externals) (services : Services) (op : Operation) (log : Log)
    (e : Event Api) : Prop :=
  ∀ req t row writes, op = .submit req → resolveTarget services req = .ok t →
    (progress log).found = some row → (progress log).written = none →
    Refreshable ext log row → e = ⟨.saveChanges writes, (.ok () : Except String Unit)⟩ →
    tipoEcf t.dto.tipoComprobante = tipoDigits row.eNcf

variable {ext : Externals} {services : Services} {history : History} {log : Log}
  {d d' : EcfDocument}

theorem sequenceTyped_law : SequenceLaw SequenceTyped :=
  ⟨fun _ _ h => h, fun _ _ h => h⟩

/-- A lawful number says the type it was issued for. -/
theorem tipoDigits_of_issued {s : EcfSequence} (typed : SequenceTyped s)
    (valid : s.tipoComprobante ∈ validTipoEcfSet) :
    tipoDigits s.getCurrentEncfFormatted = tipoEcf s.tipoComprobante := by
  have two : ∀ tipo ∈ validTipoEcfSet, (tipoEcf tipo).toList.length = 2 := by decide
  obtain ⟨number, formatted⟩ : ∃ number, s.getCurrentEncfFormatted = s.prefijo ++ number :=
    ⟨_, rfl⟩
  refine tipoDigits_of_opens _ 'E' number.toList (two _ valid) ?_
  rw [formatted, typed, String.toList_append, String.toList_append]
  rfl

/-- The builder's text is of the request's type. -/
theorem agrees_withContent {t : SubmissionTarget} {time : ℕ}
    (same : tipoEcf t.dto.tipoComprobante = tipoDigits d.eNcf) :
    Agrees (withContent ext t time d).xmlContent (withContent ext t time d).eNcf := by
  refine ⟨"ECF", (ext.cuerpoEcf t.dto d.eNcf t.emisorRnc t.emisorRazonSocial time).1, ?_⟩
  show encabezado "ECF" (tipoEcf t.dto.tipoComprobante) d.eNcf ++ _ = _
  rw [same]
  rfl

/-- The summary of a consumer invoice says 32, as its number does. -/
theorem agrees_rfce {time : ℕ} {dto : CanonicalDocumentDto} {razon : String}
    (small : isRfce d = true) : Agrees (buildRfceXml ext time d dto razon) d.eNcf := by
  have digits : tipoDigits d.eNcf = "32" := by
    simp only [isRfce, Bool.and_eq_true, Bool.or_eq_true] at small
    rcases small.1 with upper | lower
    · obtain ⟨rest, eq⟩ := List.isPrefixOf_iff_prefix.mp upper
      exact tipoDigits_of_opens "32" _ _ rfl eq.symm
    · obtain ⟨rest, eq⟩ := List.isPrefixOf_iff_prefix.mp lower
      exact tipoDigits_of_opens "32" _ _ rfl eq.symm
  exact ⟨"RFCE", _, by rw [digits]; rfl⟩

theorem Typed.mono {xml : String} {e : ℕ × Event Api} (h : Typed history xml) :
    Typed (history ++ [e]) xml := by
  obtain ⟨text, eNcf, agrees, same | ⟨t, signer, rnc, member⟩⟩ := h
  · exact ⟨text, eNcf, agrees, .inl same⟩
  · exact ⟨text, eNcf, agrees, .inr ⟨t, signer, rnc, List.mem_append_left _ member⟩⟩

theorem typed_of_agrees {xml eNcf : String} (h : Agrees xml eNcf) : Typed history xml :=
  ⟨xml, eNcf, h, .inl rfl⟩

theorem typed_of_signs (logged : ∀ e ∈ log, ∃ t, (t, e) ∈ history) {signer : Signer}
    {text eNcf rnc xml : String} (h : Agrees text eNcf) (made : Signs log signer text rnc (.ok xml)) :
    Typed history xml := by
  obtain ⟨t, member⟩ := logged _ made
  exact ⟨text, eNcf, h, .inr ⟨t, signer, rnc, member⟩⟩

theorem TypedDocument.same (h : TypedDocument history d) (same : SameContent d d') :
    TypedDocument history d' := by
  unfold TypedDocument at h ⊢
  rwa [same.xmlContent, same.eNcf, same.signedXmlContent]

theorem TypedDocument.signed {codigo : String} (h : TypedDocument history d) (state : String)
    (logged : ∀ e ∈ log, ∃ t, (t, e) ∈ history) {x : String} (made : ContentSigned log d x) :
    TypedDocument history { signed d x codigo with state := state } := by
  obtain ⟨signer, event⟩ := made
  exact ⟨h.1, fun signedXml same => Option.some.inj same ▸ typed_of_signs logged h.1 event⟩

/-- New content of the number's type, over whatever signed XML the row had. -/
theorem typed_withContent {t : SubmissionTarget} {time : ℕ}
    (same : tipoEcf t.dto.tipoComprobante = tipoDigits d.eNcf)
    (signed : ∀ signedXml, d.signedXmlContent = some signedXml → Typed history signedXml) :
    TypedDocument history (withContent ext t time d) :=
  ⟨agrees_withContent same, signed⟩

/-- The condition, with the numbers of lawful sequences. -/
def TypesKept (ext : Externals) (services : Services) (op : Operation) (log : Log)
    (e : Event Api) : Prop :=
  KeepsType ext services op log e ∧ Numbered SequenceTyped e

/-- An issued number is of the target's type. -/
theorem tipo_of_issued {req : SubmitRequest} {op : Operation} {t : SubmissionTarget}
    {eNcf : String} (along : Along (TypesKept ext services op) log)
    (target : resolveTarget services req = .ok t) (issued : Issued t log eNcf) :
    tipoEcf t.dto.tipoComprobante = tipoDigits eNcf := by
  obtain ⟨before, -, -, numbered⟩ := along.of_mem issued
  obtain ⟨s, typed, same, rfl⟩ := numbered _ _ _ rfl
  obtain ⟨submitted, -, passed, -⟩ := resolveTarget_ok target
  rw [tipoOf_of_resolved target] at same
  rw [tipoDigits_of_issued typed (same ▸ (checkDocument_ok passed).2), same]

/-- Agreement is a law. -/
theorem typed_lawful : Lawful ext services Submits (TypesKept ext services) TypedDocument where
  mono history e d h := ⟨h.1, fun signedXml stored => (h.2 signedXml stored).mono⟩
  writes op log history writes write obeys condition h := by
    cases h with
    | poll => exact obeys.kind.elim
    | status => exact obeys.kind.elim
    | reconcile => exact obeys.kind.elim
    | @submit req _ _ _ target h =>
      have written := fun d => obeys.written (d := d) List.prefix_rfl
      cases h with
      | create fresh uuid issued =>
        exact typed_withContent (tipo_of_issued obeys.along target issued)
          fun _ stored => nomatch stored
      | @refresh row at' time found fresh allowed =>
        exact typed_withContent (condition.1 req _ row _ rfl target found fresh allowed rfl)
          (obeys.read row (read_of_found found)).2
      | @reissue row eNcf at' time found fresh state issued =>
        exact typed_withContent (tipo_of_issued obeys.along target issued)
          (obeys.read row (read_of_found found)).2
      | @reconcile row d answer time found fresh state only =>
        have same := only.content.trans (reconciled_content d (estadoOf ext answer))
        dsimp only [Write.doc]
        exact (obeys.read row (read_of_found found)).same same
      | @signingFailed d time last state failed =>
        exact ⟨(written d last).1, fun signedXml stored =>
          Option.some.inj stored ▸ typed_of_agrees (written d last).1⟩
      | schemaInvalid last state made =>
        exact (written _ last).signed "SchemaInvalid" obeys.logged made
      | unsigned last state => exact ⟨(written _ last).1, fun signedXml stored => nomatch stored⟩
      | awaiting last state made =>
        exact (written _ last).signed "AwaitingTransmission" obeys.logged made
      | outcome last state outcome => exact (written _ last).same outcome.only.content

/-- What a submission transmits is typed. -/
theorem typed_of_posted {op : Operation} {client : EcfClient} {route : Route}
    {token xml : String} {file : EcfFileName} {connection : ℕ}
    (obeys : Obeys ext services Submits (TypesKept ext services) TypedDocument op log history)
    (posted : (⟨.post client route token xml file, connection⟩ : Event Api) ∈ log) :
    Typed history xml := by
  obtain ⟨before, cut, asks⟩ := obeys.asked.of_mem posted
  have earlier : before <+: log := (List.prefix_append _ _).trans cut
  cases op with
  | submit req =>
    cases asks with
    | outside h => exact h.elim
    | transmit written state once payload =>
      have typed := obeys.written earlier written
      cases payload with
      | ecf stored => exact typed.2 xml stored
      | rfce small made =>
        exact typed_of_signs (fun e member => obeys.logged e (earlier.subset member))
          (agrees_rfce small) made
  | _ => exact obeys.kind.elim

/-- **Types agree with eNCFs.** On every schedule of submissions over sequences
that carry their types, whose requests keep the type of every eNCF they reuse,
every XML stored or transmitted is of the type of the eNCF it carries. -/
theorem types_agree (ext : Externals) (services : Services) (operations : ℕ → Operation)
    (kinds : ∀ t, Submits (operations t)) (w : World)
    (sequences : ∀ s ∈ w.sequences, SequenceTyped s)
    (initial : ∀ row ∈ w.documents.rows, TypedDocument [] row.toEcfDocument)
    (moves : List (Move Input))
    (met : (engine ext services operations w).Meets (host ext)
      (Each ext (KeepsType ext services)) moves) :
    (∀ row ∈ ((engine ext services operations w).play (host ext) moves).world.documents.rows,
      TypedDocument ((engine ext services operations w).play (host ext) moves).history
        row.toEcfDocument) ∧
    ∀ t client route token xml file connection,
      (⟨.post client route token xml file, connection⟩ : Event Api) ∈
        (((engine ext services operations w).play (host ext) moves).thread t).log →
      Typed ((engine ext services operations w).play (host ext) moves).history xml := by
  have sound := typed_lawful.play kinds initial (meets_numbered sequenceTyped_law sequences met)
  exact ⟨sound.world, fun t _ _ _ _ _ _ posted => typed_of_posted (sound.threads t) posted⟩

/-- The same document submitted twice. -/
def submitTwice : ℕ → Operation := fun _ => .submit sampleRequest

/-- The condition, computed. -/
def keepsType (op : Operation) (log : Log) (_ : Event Api) : Bool :=
  match op, (progress log).found with
  | .submit req, some row =>
    match resolveTarget sampleServices req with
    | .ok t => tipoEcf t.dto.tipoComprobante = tipoDigits row.eNcf
    | .error _ => true
  | _, _ => true

theorem keepsType_sound (op : Operation) (log : Log) (e : Event Api)
    (h : keepsType op log e = true) : KeepsType sampleExternals sampleServices op log e := by
  rintro req t row writes rfl target found - - -
  simpa [keepsType, found, target] using h

/-- The first submission dies after its insert; the second one sends the row. -/
def resumedRun : EnginePool :=
  (engine sampleExternals sampleServices submitTwice sampleWorld).play (host sampleExternals)
    (steps 0 7 "" ++ [.kill 0] ++ steps 1 18 "trackId")

theorem types_agree_sample :
    (∀ row ∈ resumedRun.world.documents.rows,
      TypedDocument resumedRun.history row.toEcfDocument) ∧
    ∀ t client route token xml file connection,
      (⟨.post client route token xml file, connection⟩ : Event Api) ∈ (resumedRun.thread t).log →
      Typed resumedRun.history xml :=
  types_agree sampleExternals sampleServices submitTwice (fun _ => trivial) sampleWorld
    (by decide +kernel) (fun _ member => absurd member List.not_mem_nil) _
    (each_of_checked keepsType_sound (by decide +kernel))

/-- A document submitted as E31, and again as E44. -/
def submitAsOtherType : ℕ → Operation
  | 0 => .submit sampleRequest
  | _ => .submit { body := .document { sampleDocument with tipoComprobante := "E44" } }

/-- A number issued for E31 ends up in a text of type 44. -/
theorem resubmission_changes_type :
    ((engine sampleExternals sampleServices submitAsOtherType sampleWorld).play
      (host sampleExternals)
      (steps 0 7 "" ++ [.kill 0] ++ steps 1 18 "trackId")).world.documents.rows.map
        (fun row => (row.eNcf, row.xmlContent)) =
      [("E310000000001", encabezado "ECF" "44" "E310000000001")] ∧
    tipoDigits "E310000000001" = "31" := by
  decide +kernel

end EcfDgii.DocumentTypes
