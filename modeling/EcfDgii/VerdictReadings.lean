import EcfDgii.StatusUpdates

/-!
What an estado of DGII means, place by place.

Seven places compare the estado of a reply with words of their own: the check
right after a transmission, the reconciliation of an uncertain document, the
polling of a read with and without a trackId, the two queries of the background
pass, and the status query.  Six of them trim the estado and lower its letters;
the status query compares it as it came.  `readings_agree_iff` says for which
estados that makes no difference.
-/

set_option autoImplicit false

namespace EcfDgii.VerdictReadings

open EcfDgii.Text EcfDgii.Documents EcfDgii.DgiiReplies EcfDgii.Transmission EcfDgii.Submission
open EcfDgii.StatusUpdates

/-! ## Verdicts -/

/-- What a document's state says of DGII's decision. -/
inductive Verdict
  | accepted
  | rejected
  | notFinal
  deriving DecidableEq

def verdictOf (state : String) : Verdict :=
  if state = "AcceptedByDgii" then .accepted
  else if state = "RejectedByDgii" then .rejected
  else .notFinal

/-- The places that read an estado. -/
inductive Place
  | immediateCheck
  | reconcileUncertain
  | pollByTrackId
  | pollByENcf
  | backgroundResultado
  | backgroundEstado
  | statusQuery

/-- The state a place leaves a document in, given DGII's replies about it.  An
estado that means "not found" leaves the document as it is; in
`reconcileUncertain` and in the background pass another request follows. -/
def Place.state (place : Place) (doc : EcfDocument) (resultado : ConsultaResultadoResponse)
    (estado : ConsultaEstadoResponse) : String :=
  match place with
  | .immediateCheck | .pollByTrackId => ((afterResultado doc resultado).getD doc).state
  | .reconcileUncertain | .pollByENcf =>
    if notFound estado.estado then doc.state else (reconciled doc estado.estado).state
  | .backgroundResultado =>
    let (estado, doc) := fromResultado doc resultado
    (withVerdict estado doc).state
  | .backgroundEstado =>
    let (estado, doc) := fromEstado "" doc estado
    (withVerdict estado doc).state
  | .statusQuery => mappedState estado.estado

/-- The verdict a place derives. -/
def Place.verdict (place : Place) (doc : EcfDocument) (resultado : ConsultaResultadoResponse)
    (estado : ConsultaEstadoResponse) : Verdict :=
  verdictOf (place.state doc resultado estado)

/-! ## One place at a time -/

/-- The verdict of an estado that is trimmed and lowered. -/
def read (estado : String) : Verdict :=
  if Accepted estado then .accepted else if Rejected estado then .rejected else .notFinal

variable {doc : EcfDocument} {s : String}

theorem accepted_trim (s : String) : Accepted (trim s) = Accepted s := by
  rw [Accepted, Accepted, trim_trim]

theorem rejected_trim (s : String) : Rejected (trim s) = Rejected s := by
  rw [Rejected, Rejected, trim_trim]

theorem read_trim (s : String) : read (trim s) = read s := by
  rw [read, read, accepted_trim, rejected_trim]

theorem verdict_afterResultado (waits : verdictOf doc.state = .notFinal)
    (resultado : ConsultaResultadoResponse) :
    verdictOf ((afterResultado doc resultado).getD doc).state = read resultado.estado := by
  unfold afterResultado read
  by_cases empty : resultado.estado = ""
  · rw [if_pos empty, empty]
    exact waits
  rw [if_neg empty]
  by_cases accepted : Accepted resultado.estado = true
  · rw [if_pos accepted, if_pos accepted]
    rfl
  rw [if_neg accepted, if_neg accepted]
  by_cases rejected : Rejected resultado.estado = true
  · rw [if_pos rejected, if_pos rejected]
    rfl
  · rw [if_neg rejected, if_neg rejected]
    exact waits

theorem verdict_reconciled (waits : verdictOf doc.state = .notFinal) (s : String) :
    verdictOf (if notFound s then doc.state else (reconciled doc s).state) = read s := by
  by_cases absent : notFound s = true
  · have words : trim s = "No encontrado" ∨ trim s = "no encontrado" ∨ trim s = "" := by
      simpa [notFound, or_assoc] using absent
    rw [if_pos absent, waits, ← read_trim]
    rcases words with word | word | word <;> rw [word] <;> decide
  · rw [if_neg absent]
    unfold reconciled read
    split_ifs <;> rfl

theorem verdict_withVerdict (waits : verdictOf doc.state = .notFinal) (s : String) :
    verdictOf (withVerdict s doc).state = read s := by
  unfold withVerdict read
  split_ifs
  · rfl
  · rfl
  · exact waits

theorem verdict_resultado (waits : verdictOf doc.state = .notFinal)
    (resultado : ConsultaResultadoResponse) :
    verdictOf (withVerdict (fromResultado doc resultado).1 (fromResultado doc resultado).2).state =
      read resultado.estado := by
  by_cases empty : resultado.estado = ""
  · rw [fromResultado, if_pos empty, empty]
    dsimp only
    exact verdict_withVerdict waits ""
  · rw [fromResultado, if_neg empty, ← read_trim]
    dsimp only
    apply verdict_withVerdict
    exact waits

theorem verdict_estado (waits : verdictOf doc.state = .notFinal) (estado : ConsultaEstadoResponse) :
    verdictOf (withVerdict (fromEstado "" doc estado).1 (fromEstado "" doc estado).2).state =
      read estado.estado := by
  by_cases empty : estado.estado = ""
  · rw [fromEstado, if_pos empty, empty]
    dsimp only
    exact verdict_withVerdict waits ""
  · rw [fromEstado, if_neg empty, ← read_trim]
    dsimp only
    apply verdict_withVerdict
    exact waits

/-- The status query knows its words as they are, and takes over any other. -/
theorem verdict_mappedState (s : String) :
    verdictOf (mappedState s) =
      if s ∈ ["Aceptado", "Accepted", "AcceptedByDgii"] then .accepted
      else if s ∈ ["Rechazado", "Rejected", "RejectedByDgii"] then .rejected
      else .notFinal := by
  by_cases accepts : s ∈ ["Aceptado", "Accepted", "AcceptedByDgii"]
  · rw [if_pos accepts]
    simp only [List.mem_cons, List.not_mem_nil, or_false] at accepts
    rcases accepts with rfl | rfl | rfl <;> decide
  rw [if_neg accepts]
  by_cases rejects : s ∈ ["Rechazado", "Rejected", "RejectedByDgii"]
  · rw [if_pos rejects]
    simp only [List.mem_cons, List.not_mem_nil, or_false] at rejects
    rcases rejects with rfl | rfl | rfl <;> decide
  rw [if_neg rejects]
  simp only [List.mem_cons, List.not_mem_nil, or_false, not_or] at accepts rejects
  obtain ⟨aceptado, accepted, own⟩ := accepts
  obtain ⟨rechazado, rejected, own'⟩ := rejects
  simp only [mappedState, aceptado, accepted, rechazado, rejected, or_self, ↓reduceIte]
  split_ifs
  · rfl
  · rw [verdictOf, if_neg own, if_neg own']

/-! ## All places -/

/-- The estados that every place reads alike: the two words as DGII spells them, and
what neither the trimmed words nor the words of the status query cover. -/
def ReadAlike (s : String) : Prop :=
  s = "Aceptado" ∨ s = "Rechazado" ∨
    (Accepted s = false ∧ Rejected s = false ∧
      s ∉ ["Accepted", "AcceptedByDgii", "Rejected", "RejectedByDgii"])

/-- Six places trim and lower. -/
theorem verdict_trimmed (waits : verdictOf doc.state = .notFinal)
    (resultado : ConsultaResultadoResponse) (estado : ConsultaEstadoResponse)
    (same : resultado.estado = s) (same' : estado.estado = s) (place : Place) :
    place.verdict doc resultado estado =
      match place with
      | .statusQuery => verdictOf (mappedState s)
      | _ => read s := by
  subst same
  cases place with
  | immediateCheck => exact verdict_afterResultado waits resultado
  | pollByTrackId => exact verdict_afterResultado waits resultado
  | reconcileUncertain => exact same' ▸ verdict_reconciled waits estado.estado
  | pollByENcf => exact same' ▸ verdict_reconciled waits estado.estado
  | backgroundResultado => exact verdict_resultado waits resultado
  | backgroundEstado => exact same' ▸ verdict_estado waits estado
  | statusQuery => exact congrArg (fun s => verdictOf (mappedState s)) same'

instance : DecidablePred ReadAlike := fun _ => inferInstanceAs (Decidable (_ ∨ _))

theorem read_eq_mapped (s : String) : read s = verdictOf (mappedState s) ↔ ReadAlike s := by
  by_cases known : s ∈ ["Aceptado", "Accepted", "AcceptedByDgii", "Rechazado", "Rejected",
      "RejectedByDgii"]
  · simp only [List.mem_cons, List.not_mem_nil, or_false] at known
    rcases known with rfl | rfl | rfl | rfl | rfl | rfl <;> decide
  · simp only [List.mem_cons, List.not_mem_nil, or_false, not_or] at known
    obtain ⟨aceptado, accepted, own, rechazado, rejected, own'⟩ := known
    have mapped : verdictOf (mappedState s) = .notFinal := by
      rw [verdict_mappedState]
      simp [aceptado, accepted, own, rechazado, rejected, own']
    have alike : ReadAlike s ↔ Accepted s = false ∧ Rejected s = false := by
      simp [ReadAlike, aceptado, accepted, own, rechazado, rejected, own']
    rw [mapped, alike, read]
    cases Accepted s <;> cases Rejected s <;> decide

/-- **One estado, one verdict.** -/
theorem readings_agree_iff (waits : verdictOf doc.state = .notFinal)
    (resultado : ConsultaResultadoResponse) (estado : ConsultaEstadoResponse)
    (same : resultado.estado = s) (same' : estado.estado = s) :
    (∀ a b : Place, a.verdict doc resultado estado = b.verdict doc resultado estado) ↔
      ReadAlike s := by
  have verdict := verdict_trimmed waits resultado estado same same'
  rw [← read_eq_mapped]
  constructor
  · intro agree
    have two := agree .immediateCheck .statusQuery
    rwa [verdict, verdict] at two
  · intro agree
    have all (place : Place) : place.verdict doc resultado estado = read s := by
      rw [verdict]
      cases place with
      | statusQuery => exact agree.symm
      | _ => rfl
    intro a b
    rw [all a, all b]

/-- A document whose transmission DGII has acknowledged. -/
def sent : EcfDocument where
  id := "1"
  eNcf := "E310000000001"
  rncEmisor := "101672919"
  sourceTxnId := "INV-1"
  editSequence := "1"
  state := "Signed"

theorem proceso_agree :
    (∀ a b : Place, a.verdict sent { estado := "En Proceso" } { estado := "En Proceso" } =
      b.verdict sent { estado := "En Proceso" } { estado := "En Proceso" }) ↔
    ReadAlike "En Proceso" :=
  readings_agree_iff (by decide) _ _ rfl rfl

/-- A conditional acceptance is an acceptance, except to the status query. -/
theorem condicional_apart :
    ¬ ∀ (doc : EcfDocument) (resultado : ConsultaResultadoResponse)
      (estado : ConsultaEstadoResponse), verdictOf doc.state = .notFinal →
      resultado.estado = estado.estado →
      ∀ a b : Place, a.verdict doc resultado estado = b.verdict doc resultado estado := by
  intro agree
  have two := agree sent { estado := "Aceptado Condicional" } { estado := "Aceptado Condicional" }
    (by decide) rfl .immediateCheck .statusQuery
  revert two
  decide

end EcfDgii.VerdictReadings
