import Mathlib.Data.List.Induction
import EcfDgii.Submission

/-!
What a log shows.

A log is the list of requests of one operation with their answers, or of all
operations in the order they happened.  This module reads it: which document
was found, which was last committed, whether a transmission is out
(`Progress`); and what DGII has said, as facts that stay true however the log
grows (`Posted`, `Replied`, `Queried`, `RejectionSeen`).

`verdict` is the meaning of one reception reply, stated once for both routes:
DGII refused to look at it, received it, accepted it, rejected it, or gave no
verdict.
-/

set_option autoImplicit false

namespace EcfDgii.Traces

open EcfDgii.Text EcfDgii.Documents EcfDgii.DgiiReplies EcfDgii.Tables EcfDgii.Programs
open EcfDgii.Engine EcfDgii.Transmission EcfDgii.Submission

abbrev Log := List (Event Api)

/-- What the caller was answered. -/
def answers (log : Log) : List HttpResponse := log.filterMap fun e =>
  match e with
  | ⟨.respond response, _⟩ => some response
  | _ => none

@[simp] theorem answers_nil : answers [] = [] := rfl

@[simp] theorem answers_append (a b : Log) : answers (a ++ b) = answers a ++ answers b :=
  List.filterMap_append

/-! ## Progress of one operation -/

/-- The document an operation found, the last one it committed, whether it has
a transmission out that DGII did not refuse, and the connection, route and reply
of its last transmission. -/
structure Progress where
  found : Option EcfDocumentRow := none
  written : Option EcfDocument := none
  sent : Bool := false
  posted : Option (ℕ × Route) := none
  reply : Option HttpReply := none

/-- One event's part in the progress. -/
def Progress.after (p : Progress) : Event Api → Progress
  | ⟨.documentBySourceTxnId .., .ok (some row)⟩ => { p with found := some row }
  | ⟨.saveChanges [write], .ok ()⟩ => { p with written := some write.doc }
  | ⟨.post _ route .., connection⟩ =>
    { p with sent := true, posted := some (connection, route), reply := none }
  | ⟨.await connection, resp⟩ =>
    if p.posted.map Prod.fst = some connection then
      { p with sent := p.sent && decide (resp.statusCode ≠ 401), reply := some resp }
    else p
  | _ => p

/-- The progress a log shows. -/
def progress (log : Log) : Progress := log.foldl Progress.after {}

@[simp] theorem progress_nil : progress [] = {} := rfl

@[simp] theorem progress_append (log : Log) (e : Event Api) :
    progress (log ++ [e]) = (progress log).after e := by
  simp [progress]

/-- Requests that neither find nor commit a document, nor transmit one, nor
answer the caller. -/
def Neutral : Request → Prop
  | .documentBySourceTxnId .. => False
  | .saveChanges _ => False
  | .post .. => False
  | .await _ => False
  | .respond _ => False
  | _ => True

theorem after_neutral {r : Request} (h : Neutral r) (p : Progress) (x : r.Reply) :
    p.after ⟨r, x⟩ = p := by
  cases r <;> first | rfl | exact h.elim

/-- Only a commit changes what was committed last. -/
theorem after_written {r : Request} (h : ∀ writes, r ≠ .saveChanges writes) (p : Progress)
    (x : r.Reply) : (p.after ⟨r, x⟩).written = p.written := by
  unfold Progress.after
  split
  · rfl
  · next same => exact absurd (congrArg Event.request same) (h _)
  · rfl
  · split <;> rfl
  · rfl

/-- Only a lookup changes what was found. -/
theorem after_found {r : Request} (h : ∀ tenant txn amb, r ≠ .documentBySourceTxnId tenant txn amb)
    (p : Progress) (x : r.Reply) : (p.after ⟨r, x⟩).found = p.found := by
  unfold Progress.after
  split
  · next same => exact absurd (congrArg Event.request same) (h _ _ _)
  · rfl
  · rfl
  · split <;> rfl
  · rfl

/-- What was committed last before or after an attempt to commit. -/
theorem after_saveChanges {p : Progress} {writes : List Write} {x : Except String Unit}
    {d : EcfDocument} (h : (p.after ⟨.saveChanges writes, x⟩).written = some d) :
    p.written = some d ∨ x = .ok () ∧ ∃ write ∈ writes, write.doc = d := by
  match writes, x, h with
  | [write], .ok (), h => exact .inr ⟨rfl, write, List.mem_singleton_self write, Option.some.inj h⟩
  | [], .ok (), h => exact .inl h
  | _ :: _ :: _, .ok (), h => exact .inl h
  | [], .error _, h => exact .inl h
  | [_], .error _, h => exact .inl h
  | _ :: _ :: _, .error _, h => exact .inl h

/-- What was found stays found. -/
theorem found_of_earlier {start log : Log} (cut : start <+: log)
    (h : (progress start).found ≠ none) : (progress log).found ≠ none := by
  have stays : ∀ {p : Progress}, p.found ≠ none → ∀ e, (p.after e).found ≠ none := by
    intro p found e
    unfold Progress.after
    split
    · exact nofun
    · exact found
    · exact found
    · split <;> exact found
    · exact found
  obtain ⟨rest, rfl⟩ := cut
  induction rest using List.reverseRecOn with
  | nil => simpa using h
  | append_singleton rest e ih =>
    rw [← List.append_assoc, progress_append]
    exact stays ih e

/-- The last reply came on the connection of the last transmission. -/
theorem replied_of_reply {log : Log} {connection : ℕ} {route : Route} {resp : HttpReply}
    (posted : (progress log).posted = some (connection, route))
    (reply : (progress log).reply = some resp) :
    (⟨.await connection, resp⟩ : Event Api) ∈ log := by
  have last : ∀ {p : Progress} {e : Event Api}, (p.after e).posted = some (connection, route) →
      (p.after e).reply = some resp → p.posted = some (connection, route) ∧
        p.reply = some resp ∨ e = ⟨.await connection, resp⟩ := by
    intro p e
    unfold Progress.after
    split
    · exact fun posted reply => .inl ⟨posted, reply⟩
    · exact fun posted reply => .inl ⟨posted, reply⟩
    · exact fun _ reply => nomatch reply
    · split
      · next own =>
        intro posted reply
        dsimp only at posted reply
        rw [posted] at own
        obtain rfl := Option.some.inj own
        obtain rfl := Option.some.inj reply
        exact .inr rfl
      · exact fun posted reply => .inl ⟨posted, reply⟩
    · exact fun posted reply => .inl ⟨posted, reply⟩
  induction log using List.reverseRecOn with
  | nil => cases posted
  | append_singleton log e ih =>
    rw [progress_append] at posted reply
    rcases last posted reply with ⟨posted, reply⟩ | rfl
    · exact List.mem_append_left _ (ih posted reply)
    · exact List.mem_append_right _ (List.mem_singleton_self _)

/-- A longer log on which nothing was found, committed or transmitted. -/
structure Quiet (log log' : Log) : Prop where
  longer : log <+: log'
  same : progress log' = progress log

namespace Quiet

theorem refl (log : Log) : Quiet log log := ⟨List.prefix_rfl, rfl⟩

theorem trans {a b c : Log} (h : Quiet a b) (k : Quiet b c) : Quiet a c :=
  ⟨h.longer.trans k.longer, k.same.trans h.same⟩

theorem neutral {r : Request} (h : Neutral r) (log : Log) (x : r.Reply) :
    Quiet log (log ++ [⟨r, x⟩]) :=
  ⟨List.prefix_append _ _, by rw [progress_append, after_neutral h]⟩

theorem mem {log log' : Log} (h : Quiet log log') {e : Event Api} (m : e ∈ log) : e ∈ log' :=
  h.longer.subset m

end Quiet

/-- A longer log with the same document found and committed; a transmission may
have gone out. -/
structure Kept (log log' : Log) : Prop where
  longer : log <+: log'
  found : (progress log').found = (progress log).found
  written : (progress log').written = (progress log).written

namespace Kept

theorem refl (log : Log) : Kept log log := ⟨List.prefix_rfl, rfl, rfl⟩

theorem trans {a b c : Log} (h : Kept a b) (k : Kept b c) : Kept a c :=
  ⟨h.longer.trans k.longer, k.found.trans h.found, k.written.trans h.written⟩

theorem mem {log log' : Log} (h : Kept log log') {e : Event Api} (m : e ∈ log) : e ∈ log' :=
  h.longer.subset m

end Kept

theorem Quiet.kept {log log' : Log} (h : Quiet log log') : Kept log log' :=
  ⟨h.longer, congrArg Progress.found h.same, congrArg Progress.written h.same⟩

/-! ## Reads -/

/-- The row of a lookup's answer. -/
def answered : Except String (Option EcfDocumentRow) → List EcfDocumentRow
  | .ok (some row) => [row]
  | _ => []

/-- The rows an answer shows. -/
def revealed : Event Api → List EcfDocumentRow
  | ⟨.documentBySourceTxnId .., x⟩ => answered x
  | ⟨.documentById _, x⟩ => answered x
  | ⟨.documentByENcf _, x⟩ => answered x
  | ⟨.documentByTrackId _, x⟩ => answered x
  | ⟨.documentsDue .., .ok rows⟩ => rows
  | _ => []

/-- A row some answer in the log has shown. -/
def Read (log : Log) (row : EcfDocumentRow) : Prop := ∃ e ∈ log, row ∈ revealed e

theorem Read.mono {log log' : Log} {row : EcfDocumentRow} (h : Read log row)
    (grows : ∀ e ∈ log, e ∈ log') : Read log' row :=
  h.imp fun _ k => ⟨grows _ k.1, k.2⟩

theorem Read.last {log : Log} {e : Event Api} {row : EcfDocumentRow} (h : row ∈ revealed e) :
    Read (log ++ [e]) row :=
  ⟨e, List.mem_append_right _ (List.mem_singleton_self e), h⟩

/-- A row read is shown by the last answer or was read before. -/
theorem read_append {log : Log} {e : Event Api} {row : EcfDocumentRow} :
    Read (log ++ [e]) row ↔ Read log row ∨ row ∈ revealed e := by
  simp [Read, or_and_right, exists_or]

/-- The row a submission has found is the answer of a lookup. -/
theorem answered_of_found {log : Log} {row : EcfDocumentRow}
    (h : (progress log).found = some row) : ∃ tenantId sourceTxnId ambiente,
      (⟨.documentBySourceTxnId tenantId sourceTxnId ambiente,
        (.ok (some row) : Except String (Option EcfDocumentRow))⟩ : Event Api) ∈ log := by
  induction log using List.reverseRecOn with
  | nil => exact absurd h (by simp [progress])
  | append_singleton log e ih =>
    have earlier : (progress log).found = some row → ∃ tenantId sourceTxnId ambiente,
        (⟨.documentBySourceTxnId tenantId sourceTxnId ambiente,
          (.ok (some row) : Except String (Option EcfDocumentRow))⟩ : Event Api) ∈ log ++ [e] := by
      intro h
      obtain ⟨tenantId, sourceTxnId, ambiente, member⟩ := ih h
      exact ⟨tenantId, sourceTxnId, ambiente, List.mem_append_left _ member⟩
    rw [progress_append] at h
    unfold Progress.after at h
    split at h
    · cases h
      exact ⟨_, _, _, List.mem_append_right _ (List.mem_singleton_self _)⟩
    · exact earlier h
    · exact earlier h
    · split at h <;> exact earlier h
    · exact earlier h

/-- And so one it has read. -/
theorem read_of_found {log : Log} {row : EcfDocumentRow}
    (h : (progress log).found = some row) : Read log row := by
  obtain ⟨tenantId, sourceTxnId, ambiente, member⟩ := answered_of_found h
  exact ⟨_, member, List.mem_singleton_self row⟩

/-! ## What DGII was sent and what it said -/

/-- A transmission went out on a connection. -/
def Posted (log : Log) (connection : ℕ) (route : Route) (file : EcfFileName) : Prop :=
  ∃ client token xml, (⟨.post client route token xml file, connection⟩ : Event Api) ∈ log

/-- A reply came back on a connection. -/
def Replied (log : Log) (connection : ℕ) (resp : HttpReply) : Prop :=
  (⟨.await connection, resp⟩ : Event Api) ∈ log

/-- A query was answered, and the answer says something. -/
def Queried (log : Log) (consulta : Consulta) (resp : HttpReply) : Prop :=
  (∃ client token, (⟨.get client token consulta, resp⟩ : Event Api) ∈ log) ∧
    validateDgiiResponse resp = .ok ()

/-- The same, with the query asked after everything in an earlier log. -/
def QueriedSince (start log : Log) (consulta : Consulta) (resp : HttpReply) : Prop :=
  (∃ before client token, start <+: before ∧
    before ++ [(⟨.get client token consulta, resp⟩ : Event Api)] <+: log) ∧
  validateDgiiResponse resp = .ok ()

/-- The same, asked after the operation found a row. -/
def QueriedFound (log : Log) (row : EcfDocumentRow) (consulta : Consulta) (resp : HttpReply) :
    Prop :=
  ∃ start, (progress start).found = some row ∧ QueriedSince start log consulta resp

/-- A signature was asked for. -/
def Signs (log : Log) (signer : Signer) (xml rnc : String) (out : Except String String) : Prop :=
  (⟨.signXml signer xml rnc, out⟩ : Event Api) ∈ log

/-- The meaning of a reception reply. -/
inductive Verdict
  /-- A 401: the document was not looked at. -/
  | refused
  /-- A trackId. -/
  | received (trackId : String)
  | accepted
  | rejected
  /-- An RFCE reply that is neither an acceptance nor a rejection. -/
  | undecided
  /-- No answer, or one that cannot be read. -/
  | unknown
  deriving DecidableEq

variable (ext : Externals)

/-- What DGII said about the document it was sent. -/
def verdict (route : Route) (resp : HttpReply) : Verdict :=
  if resp.statusCode = 401 then .refused
  else
    match validateDgiiResponse resp with
    | .error _ => .unknown
    | .ok () =>
      match route with
      | .recepcion =>
        match ecfRecepcion ext.toParsers resp with
        | .error _ => .unknown
        | .ok r =>
          if r.trackId ≠ "" then .received r.trackId
          else if r.error.isSome then .rejected
          else .unknown
      | .recepcionFc =>
        match rfceRecepcion ext.toParsers resp with
        | .error _ => .unknown
        | .ok r =>
          if r.codigo = 1 ∨ Accepted r.estado then .accepted
          else if Rejected r.estado then .rejected
          else .undecided

variable {ext}

/-- A reception that can be read gives a trackId or names an error. -/
theorem verdict_recepcion {resp : HttpReply} {r : EcfRecepcionResponse}
    (valid : validateDgiiResponse resp = .ok ()) (read : ecfRecepcion ext.toParsers resp = .ok r) :
    verdict ext .recepcion resp = if r.trackId ≠ "" then .received r.trackId else .rejected := by
  simp only [verdict, if_neg (statusCode_of_valid valid), valid, read]
  split
  · rfl
  · next missing =>
    obtain ⟨e, named, -⟩ := (ecfRecepcion_answers ext.toParsers read).resolve_left missing
    simp [named]

theorem verdict_recepcionFc {resp : HttpReply} {r : RfceRecepcionResponse}
    (valid : validateDgiiResponse resp = .ok ()) (read : rfceRecepcion ext.toParsers resp = .ok r) :
    verdict ext .recepcionFc resp =
      if r.codigo = 1 ∨ Accepted r.estado then .accepted
      else if Rejected r.estado then .rejected else .undecided := by
  simp only [verdict, if_neg (statusCode_of_valid valid), valid, read]

/-- A reply that cannot be read carries no verdict. -/
theorem verdict_of_error (ext : Externals) (route : Route) {resp : HttpReply} {e : String}
    (invalid : validateDgiiResponse resp = .error e) :
    verdict ext route resp = .refused ∨ verdict ext route resp = .unknown := by
  unfold verdict
  split
  · exact .inl rfl
  · rw [invalid]
    exact .inr rfl

/-- Only an RFCE reply is read without being a verdict. -/
theorem verdict_recepcion_decided (resp : HttpReply) :
    verdict ext .recepcion resp ≠ .undecided := by
  unfold verdict
  dsimp only
  repeat' split
  all_goals exact nofun

variable (ext)

/-- The estado a query's answer carries. -/
def estadoOf (resp : HttpReply) : String := (consultaEstado ext.toParsers resp).estado

/-- DGII has rejected an eNCF: in its reception, in the result of the trackId
the reception gave, or in the status of the eNCF. -/
inductive RejectionSeen (log : Log) (eNcf : String) : Prop
  | reception {connection route file resp} (posted : Posted log connection route file)
      (replied : Replied log connection resp) (same : file.eNcf = eNcf)
      (rejects : verdict ext route resp = .rejected)
  | resultado {connection route file resp trackId answer r}
      (posted : Posted log connection route file) (replied : Replied log connection resp)
      (same : file.eNcf = eNcf) (receives : verdict ext route resp = .received trackId)
      (queried : Queried log (.resultado trackId) answer)
      (read : consultaResultado ext.toParsers trackId answer = .ok r)
      (rejects : Rejected r.estado = true)
  | estado {rncEmisor rncComprador codigoSeguridad answer}
      (queried : Queried log (.estado rncEmisor eNcf rncComprador codigoSeguridad) answer)
      (rejects : Rejected (estadoOf ext answer) = true)

/-- The last transmission of a log was answered, and with what. -/
def lastVerdict (log : Log) : Option Verdict :=
  match (progress log).posted, (progress log).reply with
  | some (_, route), some resp => some (verdict ext route resp)
  | _, _ => none

/-- The answer to the last transmission carries a rejection: in itself, or in
the result of the trackId it gave. -/
def RejectionCarried (log : Log) : Prop :=
  lastVerdict ext log = some .rejected ∨
    ∃ trackId answer r, lastVerdict ext log = some (.received trackId) ∧
      Queried log (.resultado trackId) answer ∧
      consultaResultado ext.toParsers trackId answer = .ok r ∧ Rejected r.estado = true

/-- An RFCE reply without a verdict came back. -/
def UndecidedSeen (log : Log) (eNcf : String) : Prop :=
  ∃ connection file resp, Posted log connection .recepcionFc file ∧
    Replied log connection resp ∧ file.eNcf = eNcf ∧
    verdict ext .recepcionFc resp = .undecided

section Growth

variable {ext} {log log' : Log} (grows : ∀ e ∈ log, e ∈ log')

theorem Posted.mono {connection : ℕ} {route : Route} {file : EcfFileName}
    (h : Posted log connection route file) (grows : ∀ e ∈ log, e ∈ log') :
    Posted log' connection route file := by
  obtain ⟨client, token, xml, member⟩ := h
  exact ⟨client, token, xml, grows _ member⟩

theorem Queried.mono {consulta : Consulta} {resp : HttpReply}
    (h : Queried log consulta resp) (grows : ∀ e ∈ log, e ∈ log') :
    Queried log' consulta resp := by
  obtain ⟨⟨client, token, member⟩, valid⟩ := h
  exact ⟨⟨client, token, grows _ member⟩, valid⟩

/-- A transmission went out before, or is the last event. -/
theorem posted_append {e : Event Api} {connection : ℕ} {route : Route} {file : EcfFileName} :
    Posted (log ++ [e]) connection route file ↔ Posted log connection route file ∨
      ∃ client token xml, e = ⟨.post client route token xml file, connection⟩ := by
  constructor
  · rintro ⟨client, token, xml, member⟩
    rcases List.mem_append.mp member with old | new
    · exact .inl ⟨client, token, xml, old⟩
    · exact .inr ⟨client, token, xml, (List.mem_singleton.mp new).symm⟩
  · rintro (old | ⟨client, token, xml, rfl⟩)
    · exact old.mono fun _ => List.mem_append_left _
    · exact ⟨client, token, xml, List.mem_append_right _ (List.mem_singleton_self _)⟩

theorem QueriedSince.queried {consulta : Consulta} {resp : HttpReply}
    (h : QueriedSince log log' consulta resp) : Queried log' consulta resp := by
  obtain ⟨⟨before, client, token, -, cut⟩, valid⟩ := h
  exact ⟨⟨client, token, cut.subset (List.mem_append_right _ (List.mem_singleton_self _))⟩, valid⟩

theorem QueriedSince.mono {start : Log} {consulta : Consulta} {resp : HttpReply}
    (h : QueriedSince start log consulta resp) (longer : log <+: log') :
    QueriedSince start log' consulta resp := by
  obtain ⟨⟨before, client, token, since, cut⟩, valid⟩ := h
  exact ⟨⟨before, client, token, since, cut.trans longer⟩, valid⟩

theorem QueriedFound.mono {row : EcfDocumentRow} {consulta : Consulta} {resp : HttpReply}
    (h : QueriedFound log row consulta resp) (longer : log <+: log') :
    QueriedFound log' row consulta resp :=
  h.imp fun _ k => ⟨k.1, k.2.mono longer⟩

theorem QueriedFound.queried {row : EcfDocumentRow} {consulta : Consulta} {resp : HttpReply}
    (h : QueriedFound log row consulta resp) : Queried log consulta resp :=
  h.choose_spec.2.queried

/-- A query asked since a row was found was asked before, or is the last event. -/
theorem queriedFound_append {e : Event Api} {row : EcfDocumentRow} {consulta : Consulta}
    {answer : HttpReply} (h : QueriedFound (log ++ [e]) row consulta answer) :
    QueriedFound log row consulta answer ∨
      validateDgiiResponse answer = .ok () ∧
        ∃ client token, e = ⟨.get client token consulta, answer⟩ := by
  obtain ⟨start, found, ⟨before, client, token, since, cut⟩, valid⟩ := h
  rcases List.prefix_concat_iff.mp cut with whole | earlier
  · obtain ⟨-, same⟩ := List.append_inj' whole rfl
    exact .inr ⟨valid, client, token, (List.singleton_inj.mp same).symm⟩
  · exact .inl ⟨start, found, ⟨before, client, token, since, earlier⟩, valid⟩

/-- What the last answer carries stays carried until the next transmission. -/
theorem RejectionCarried.mono (h : RejectionCarried ext log) (grows : ∀ e ∈ log, e ∈ log')
    (same : lastVerdict ext log' = lastVerdict ext log) : RejectionCarried ext log' := by
  rcases h with rejected | ⟨trackId, answer, r, received, queried, read, rejects⟩
  · exact .inl (same.trans rejected)
  · exact .inr ⟨trackId, answer, r, same.trans received,
      queried.mono grows, read, rejects⟩

include grows in
theorem RejectionSeen.mono {eNcf : String} (h : RejectionSeen ext log eNcf) :
    RejectionSeen ext log' eNcf := by
  cases h with
  | reception posted replied same rejects =>
    exact .reception (posted.mono grows) (grows _ replied) same rejects
  | resultado posted replied same receives queried read rejects =>
    exact .resultado (posted.mono grows) (grows _ replied) same receives
      (queried.mono grows) read rejects
  | estado queried rejects => exact .estado (queried.mono grows) rejects

include grows in
theorem UndecidedSeen.mono {eNcf : String} (h : UndecidedSeen ext log eNcf) :
    UndecidedSeen ext log' eNcf := by
  obtain ⟨connection, file, resp, posted, replied, rest⟩ := h
  exact ⟨connection, file, resp, posted.mono grows, grows _ replied, rest⟩

end Growth

end EcfDgii.Traces
