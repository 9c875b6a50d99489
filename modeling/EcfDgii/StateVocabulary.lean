import EcfDgii.DocumentInvariants

/-!
The vocabulary of the state column.

`submit`, polling and the background pass write states of their own, whatever
DGII answers.  The status query alone stores what DGII says where it knows no
translation, so the vocabulary is closed on the schedules where every status
query about a document without a verdict is answered with a word that has one.
-/

set_option autoImplicit false

namespace EcfDgii.StateVocabulary

open EcfDgii.Documents EcfDgii.DgiiReplies EcfDgii.Tables EcfDgii.Programs EcfDgii.Execution
open EcfDgii.Engine EcfDgii.Transmission EcfDgii.Submission EcfDgii.StatusUpdates EcfDgii.Traces
open EcfDgii.SubmissionTrace EcfDgii.SubmissionFollows EcfDgii.StatusTrace
open EcfDgii.DocumentInvariants

/-- The engine's own states. -/
def vocabulary : List String :=
  ["Received", "SequenceAllocated", "SigningFailed", "SchemaInvalid", "Unsigned",
    "AwaitingTransmission", "Uncertain", "Signed", "SentToDgii", "Processing", "AcceptedByDgii",
    "RejectedByDgii", "RequiresManualReview"]

variable {ext : Externals} {services : Services} {Other : String → Prop}

/-- The answer to a status query about a document without a verdict translates
into the vocabulary. -/
def Translates (ext : Externals) (Other : String → Prop) (op : Operation) (log : Log)
    (e : Event Api) : Prop :=
  ∀ rncEmisor eNcf client token consulta answer row, op = .status rncEmisor eNcf →
    e = ⟨.get client token consulta, answer⟩ → validateDgiiResponse answer = .ok () →
    Read log row → ¬ Other row.id → row.state ≠ "AcceptedByDgii" →
    mappedState (estadoOf ext answer) ∈ vocabulary

/-- A submission writes states of the vocabulary. -/
theorem state_of_submitWrite {t : SubmissionTarget} {log : Log} {write : Write}
    (h : SubmitWrite ext t log write) : write.doc.state ∈ vocabulary := by
  cases h with
  | create => simp [Write.doc, vocabulary]
  | refresh => simp [Write.doc, vocabulary]
  | reissue => simp [Write.doc, vocabulary]
  | @reconcile row d answer =>
    rcases reconciled_state d (estadoOf ext answer) with state | state | ⟨state, -⟩ <;>
      simp [Write.doc, state, vocabulary]
  | signingFailed => simp [Write.doc, signingFailed, vocabulary]
  | schemaInvalid => simp [Write.doc, vocabulary]
  | unsigned => simp [Write.doc, unsigned, vocabulary]
  | awaiting => simp [Write.doc, signed, vocabulary]
  | outcome _ _ outcome =>
    cases outcome.state with
    | accepted state => simp [Write.doc, state, vocabulary]
    | uncertain state => simp [Write.doc, state, vocabulary]
    | signed state => simp [Write.doc, state, vocabulary]
    | rejected state => simp [Write.doc, state, vocabulary]
    | undecided state => simp [Write.doc, state, vocabulary]

theorem state_of_pollWrite {row : EcfDocumentRow} {log : Log} {d : EcfDocument}
    (h : PollWrite ext log row d) : d.state ∈ vocabulary := by
  cases h with
  | resultado queried read verdict =>
    rcases (afterResultado_some verdict).2 with state | state <;> simp [state, vocabulary]
  | @estado trackId answer =>
    rcases reconciled_state { row.toEcfDocument with trackId := trackId } (estadoOf ext answer)
      with state | state | ⟨state, -⟩ <;> simp [state, vocabulary]

/-- The condition gives the word a status query stores. -/
theorem mappedState_of_queried {rncEmisor eNcf : String} {log : Log} {row : EcfDocumentRow}
    {consulta : Consulta} {answer : HttpReply}
    (along : Along (Translates ext Other (.status rncEmisor eNcf)) log)
    (queried : QueriedAbout log row consulta answer) (ours : ¬ Other row.id)
    (undecided : row.state ≠ "AcceptedByDgii") :
    mappedState (estadoOf ext answer) ∈ vocabulary := by
  obtain ⟨start, read, ⟨before, client, token, since, cut⟩, valid⟩ := queried
  exact along before _ cut rncEmisor eNcf client token consulta answer row rfl rfl valid
    (read.mono fun _ member => since.subset member) ours undecided

/-- The vocabulary is a law. -/
theorem vocabulary_lawful : Lawful ext services (fun _ => True) (Translates ext Other)
    (fun _ d => Other d.id ∨ d.state ∈ vocabulary) where
  mono _ _ _ law := law
  writes op log history writes write obeys _ h := by
    cases h with
    | submit _ h => exact .inr (state_of_submitWrite h)
    | poll _ read state h => exact .inr (state_of_pollWrite h)
    | @status _ _ _ row consulta answer d time _ read undecided queried only =>
      subst only
      by_cases ours : Other row.id
      · exact .inl ours
      · exact .inr (mappedState_of_queried obeys.along queried ours undecided)
    | @reconcile _ row d time _ due h =>
      rcases h.state with state | state | state | state
      · have law := obeys.read row due.read
        rwa [← h.id, ← state] at law
      all_goals exact .inr (by simp [Write.doc, state, vocabulary])

/-- **Closed vocabulary.** On every schedule of the engine's operations whose
status queries are answered with words it can translate, every document that
was not in the store before has a state of the vocabulary. -/
theorem states_stay_in_vocabulary (ext : Externals) (services : Services)
    (operations : ℕ → Operation) (w : World) (Other : String → Prop)
    (initial : ∀ row ∈ w.documents.rows, Other row.id ∨ row.state ∈ vocabulary)
    (moves : List (Move Input))
    (met : (engine ext services operations w).Meets (host ext) (Each ext (Translates ext Other))
      moves) :
    ∀ row ∈ ((engine ext services operations w).play (host ext) moves).world.documents.rows,
      Other row.id ∨ row.state ∈ vocabulary :=
  (vocabulary_lawful.play (fun _ => trivial) initial met).world

/-- A submission, then a status query about its document. -/
def submitThenStatus : ℕ → Operation
  | 0 => .submit sampleRequest
  | _ => .status "101672919" "E310000000001"

/-- The condition, where the answer translates. -/
def translates : Operation → Log → Event Api → Bool
  | .status .., _, ⟨.get .., answer⟩ => mappedState (estadoOf sampleExternals answer) ∈ vocabulary
  | _, _, _ => true

theorem translates_sound (op : Operation) (log : Log) (e : Event Api)
    (h : translates op log e = true) : Translates sampleExternals (fun _ => False) op log e := by
  rintro _ _ client token consulta answer _ rfl rfl _ _ _ _
  exact of_decide_eq_true h

/-- A document sent, then found in process by a status query. -/
theorem states_stay_in_vocabulary_sample :
    let run := (engine sampleExternals sampleServices submitThenStatus sampleWorld).play
      (host sampleExternals) (steps 0 18 "trackId" ++ steps 1 6 "En Proceso")
    run.world.documents.rows.length = 1 ∧
      ∀ row ∈ run.world.documents.rows, False ∨ row.state ∈ vocabulary :=
  ⟨by decide +kernel,
    states_stay_in_vocabulary sampleExternals sampleServices submitThenStatus sampleWorld
      (fun _ => False) (fun _ member => absurd member List.not_mem_nil) _
      (each_of_checked translates_sound (by decide +kernel))⟩

/-- DGII's words for a conditional acceptance end up in the state column. -/
theorem status_query_stores_estado :
    ((engine sampleExternals sampleServices submitThenStatus sampleWorld).play
      (host sampleExternals)
      (steps 0 18 "trackId" ++ steps 1 6 "Aceptado Condicional")).world.documents.rows.map
        (·.state) = ["Aceptado Condicional"] ∧
      "Aceptado Condicional" ∉ vocabulary := by
  decide +kernel

end EcfDgii.StateVocabulary
