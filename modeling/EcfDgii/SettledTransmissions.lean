import EcfDgii.DocumentInvariants

/-!
Transmissions of one document, and what became of them.

Everything the submissions of one source transaction did is one log.  A
transmission in it is settled (`Resolved`) when DGII refused it, accepted or
rejected it, or when a status asked after it went out says what became of its
number.  `OneAtATime` asks that at most one is not settled, and that no number
follows another that was not rejected.

`Accounts` is what a version of the document's row has to tell of them for the
next submission to go on from it.
-/

set_option autoImplicit false

namespace EcfDgii.SettledTransmissions

open EcfDgii.Text EcfDgii.Documents EcfDgii.DgiiReplies EcfDgii.Tables EcfDgii.Programs
open EcfDgii.Execution EcfDgii.Engine EcfDgii.Transmission EcfDgii.Submission EcfDgii.Traces
open EcfDgii.SubmissionTrace EcfDgii.DocumentInvariants

/-! ## The property -/

/-- Everything that has happened, whoever did it. -/
def events (history : History) : Log := history.map Prod.snd

/-- An estado that says what became of a number: accepted, rejected or unknown
to DGII. -/
def Definite (estado : String) : Prop :=
  Accepted estado = true ∨ Rejected estado = true ∨ tolower (trim estado) = "no encontrado"

/-- A transmission is settled: by its reply, by the result of the trackId it was
given, or by the status of its number, asked after it went out. -/
inductive Resolved (ext : Externals) (log : Log) (connection : ℕ) (route : Route)
    (file : EcfFileName) : Prop
  | reply {resp : HttpReply} (replied : Replied log connection resp)
      (settles : verdict ext route resp = .refused ∨ verdict ext route resp = .accepted ∨
        verdict ext route resp = .rejected)
  | resultado {resp answer : HttpReply} {trackId : String} {r : ConsultaResultadoResponse}
      (replied : Replied log connection resp)
      (receives : verdict ext route resp = .received trackId)
      (queried : Queried log (.resultado trackId) answer)
      (read : consultaResultado ext.toParsers trackId answer = .ok r)
      (settles : Accepted r.estado = true ∨ Rejected r.estado = true)
  | estado {before : Log} {client : EcfClient} {token : String}
      {rncComprador codigo : Option String} {answer : HttpReply}
      (posted : Posted before connection route file)
      (asked : before ++ [(⟨.get client token
        (.estado file.rncEmisor file.eNcf rncComprador codigo), answer⟩ : Event Api)] <+: log)
      (valid : validateDgiiResponse answer = .ok ())
      (settles : Definite (estadoOf ext answer))

/-- A transmission that went out and is not settled. -/
def Unresolved (ext : Externals) (log : Log) (connection : ℕ) (route : Route)
    (file : EcfFileName) : Prop :=
  Posted log connection route file ∧ ¬ Resolved ext log connection route file

/-- A transmission goes out under another number than an earlier one only when
DGII has rejected that one. -/
def Renumbered (ext : Externals) (before : Log) (e : Event Api) : Prop :=
  ∀ client route token xml file (connection : ℕ),
    e = ⟨.post client route token xml file, connection⟩ →
      ∀ earlier route' file', Posted before earlier route' file' →
        file'.eNcf = file.eNcf ∨ RejectionSeen ext before file'.eNcf

/-- **One at a time.** At most one transmission is unsettled, and no number
follows another that was not rejected.  The host gives each transmission a
connection of its own. -/
structure OneAtATime (ext : Externals) (log : Log) : Prop where
  single : ∀ {c c' route route' file file'}, Unresolved ext log c route file →
    Unresolved ext log c' route' file' → c = c'
  numbers : Along (Renumbered ext) log

/-! ## Longer logs -/

variable {ext : Externals} {log : Log} {e : Event Api} {c : ℕ} {route : Route}
  {file : EcfFileName} {d d' : EcfDocument}

@[simp] theorem events_append (history : History) (x : ℕ × Event Api) :
    events (history ++ [x]) = events history ++ [x.2] := by
  simp [events]

/-- The event is a transmission. -/
def transmits : Event Api → Bool
  | ⟨.post .., _⟩ => true
  | _ => false

/-- Only a transmission adds one. -/
theorem posted_of_silent (silent : transmits e = false)
    (posted : Posted (log ++ [e]) c route file) : Posted log c route file := by
  refine (posted_append.mp posted).resolve_right ?_
  rintro ⟨client, token, xml, rfl⟩
  cases silent

theorem Resolved.append (h : Resolved ext log c route file) (e : Event Api) :
    Resolved ext (log ++ [e]) c route file := by
  have grows : ∀ e' ∈ log, e' ∈ log ++ [e] := fun _ => List.mem_append_left _
  cases h with
  | reply replied settles => exact .reply (grows _ replied) settles
  | resultado replied receives queried read settles =>
    exact .resultado (grows _ replied) receives (queried.mono grows) read settles
  | estado posted asked valid settles =>
    exact .estado posted (asked.trans (List.prefix_append _ _)) valid settles

theorem Unresolved.before (silent : transmits e = false)
    (h : Unresolved ext (log ++ [e]) c route file) : Unresolved ext log c route file :=
  ⟨posted_of_silent silent h.1, fun settled => h.2 (settled.append e)⟩

/-- Every transmission is settled. -/
def Settled (ext : Externals) (log : Log) : Prop :=
  ∀ c route file, Posted log c route file → Resolved ext log c route file

theorem Settled.append (h : Settled ext log) (silent : transmits e = false) :
    Settled ext (log ++ [e]) :=
  fun _ _ _ posted => (h _ _ _ (posted_of_silent silent posted)).append e

theorem settled_of_unresolved (h : ∀ c route file, ¬ Unresolved ext log c route file) :
    Settled ext log :=
  fun _ _ _ posted => Classical.not_not.mp fun unsettled => h _ _ _ ⟨posted, unsettled⟩

theorem Settled.none (h : Settled ext log) : ¬ Unresolved ext log c route file :=
  fun unresolved => unresolved.2 (h _ _ _ unresolved.1)

/-- A transmission made while the others are settled is the one that is not. -/
theorem Settled.post {client : EcfClient} {token xml : String} {c' : ℕ} {route' : Route}
    {file' : EcfFileName} (h : Settled ext log)
    (unresolved : Unresolved ext (log ++ [⟨.post client route token xml file, c⟩]) c' route'
      file') : c' = c ∧ route' = route ∧ file' = file := by
  rcases posted_append.mp unresolved.1 with old | ⟨_, _, _, same⟩
  · exact absurd ((h _ _ _ old).append _) unresolved.2
  · cases same
    exact ⟨rfl, rfl, rfl⟩

/-- What is not a transmission keeps the property. -/
theorem OneAtATime.append (h : OneAtATime ext log) (silent : transmits e = false) :
    OneAtATime ext (log ++ [e]) := by
  refine ⟨fun first second => h.single (first.before silent) (second.before silent),
    h.numbers.append ?_⟩
  rintro _ _ _ _ _ _ rfl
  cases silent

/-! ## The row -/

/-- What a version of the row tells of the transmissions: those that are not
settled went out under its number, any other number was rejected, and in the
states from which it is sent again nothing is left unsettled. -/
structure Accounts (ext : Externals) (log : Log) (d : EcfDocument) : Prop where
  files : ∀ {c route file}, Unresolved ext log c route file → file = ⟨d.rncEmisor, d.eNcf⟩
  numbers : ∀ {c route file}, Posted log c route file →
    file.eNcf = d.eNcf ∨ RejectionSeen ext log file.eNcf
  quiet : d.state ∈ neverTransmittedStates ∨ d.state = "RejectedByDgii" → Settled ext log
  rejected : d.state = "RejectedByDgii" → ∀ {c route file}, Posted log c route file →
    RejectionSeen ext log file.eNcf

theorem RejectionSeen.append {eNcf : String} (h : RejectionSeen ext log eNcf) (e : Event Api) :
    RejectionSeen ext (log ++ [e]) eNcf :=
  h.mono fun _ => List.mem_append_left _

theorem Accounts.append (h : Accounts ext log d) (silent : transmits e = false) :
    Accounts ext (log ++ [e]) d where
  files unresolved := h.files (unresolved.before silent)
  numbers posted :=
    (h.numbers (posted_of_silent silent posted)).imp_right (RejectionSeen.append · e)
  quiet state := (h.quiet state).append silent
  rejected state _ _ _ posted :=
    RejectionSeen.append (h.rejected state (posted_of_silent silent posted)) e

/-- A version under the same number, with nothing unsettled. -/
theorem Accounts.settled (h : Accounts ext log d) (settled : Settled ext log)
    (number : d'.eNcf = d.eNcf) (state : d'.state ≠ "RejectedByDgii") : Accounts ext log d' where
  files unresolved := (settled.none unresolved).elim
  numbers posted := number ▸ h.numbers posted
  quiet _ := settled
  rejected rejects := absurd rejects state

/-- A version under a new number, once all the others were rejected. -/
theorem accounts_renumbered (settled : Settled ext log)
    (rejected : ∀ {c route file}, Posted log c route file → RejectionSeen ext log file.eNcf) :
    Accounts ext log d where
  files unresolved := (settled.none unresolved).elim
  numbers posted := .inr (rejected posted)
  quiet _ := settled
  rejected _ _ _ _ posted := rejected posted

/-- The states a document is left in once it has been sent. -/
def sentStates : List String := ["AcceptedByDgii", "RejectedByDgii", "Signed", "Uncertain"]

/-- A version with the status of one that was sent: a rejection has been seen and
leaves nothing unsettled. -/
theorem Accounts.status (h : Accounts ext log d) (content : SameContent d d')
    (sent : d'.state ∈ sentStates)
    (rejects : d'.state = "RejectedByDgii" → Settled ext log ∧ RejectionSeen ext log d.eNcf) :
    Accounts ext log d' where
  files unresolved := by
    rw [h.files unresolved, content.rncEmisor, content.eNcf]
  numbers posted := content.eNcf ▸ h.numbers posted
  quiet state := by
    have apart : ∀ state ∈ sentStates, state ∉ neverTransmittedStates := by decide
    exact (rejects (state.resolve_left (apart _ sent))).1
  rejected state _ _ _ posted := by
    rcases h.numbers posted with same | seen
    · rw [same]
      exact (rejects state).2
    · exact seen

/-- A transmission of the row, awaiting it and with nothing unsettled. -/
theorem Accounts.post {client : EcfClient} {token xml : String} (h : Accounts ext log d)
    (settled : Settled ext log) (state : d.state = "AwaitingTransmission") :
    Accounts ext (log ++ [⟨.post client route token xml ⟨d.rncEmisor, d.eNcf⟩, c⟩]) d := by
  have busy : ¬ (d.state ∈ neverTransmittedStates ∨ d.state = "RejectedByDgii") := by
    rw [state]
    decide
  refine ⟨fun unresolved => (settled.post unresolved).2.2, fun posted => ?_,
    fun calm => absurd calm busy, fun calm => absurd (.inr calm) busy⟩
  rcases posted_append.mp posted with old | ⟨_, _, _, same⟩
  · exact (h.numbers old).imp_right (RejectionSeen.append · _)
  · cases same
    exact .inl rfl

/-- And it is the only one that is not settled. -/
theorem Accounts.one {client : EcfClient} {token xml : String} (h : Accounts ext log d)
    (settled : Settled ext log) (one : OneAtATime ext log) :
    OneAtATime ext (log ++ [⟨.post client route token xml ⟨d.rncEmisor, d.eNcf⟩, c⟩]) := by
  refine ⟨fun first second => (settled.post first).1.trans (settled.post second).1.symm,
    one.numbers.append ?_⟩
  intro _ _ _ _ _ _ same _ _ _ earlier
  cases same
  exact h.numbers earlier

/-- A status that says something, asked of the row's number, leaves nothing
unsettled. -/
theorem Accounts.asked {client : EcfClient} {token : String} {answer : HttpReply}
    {rncComprador codigo : Option String} (h : Accounts ext log d)
    (valid : validateDgiiResponse answer = .ok ()) (definite : Definite (estadoOf ext answer)) :
    Settled ext
      (log ++ [⟨.get client token (.estado d.rncEmisor d.eNcf rncComprador codigo), answer⟩]) := by
  refine settled_of_unresolved fun c route file unresolved => ?_
  have before := unresolved.before rfl
  obtain rfl := h.files before
  exact unresolved.2 (.estado before.1 List.prefix_rfl valid definite)

/-! ## The row of a key -/

variable {table next : DocumentTable} {row : EcfDocumentRow} {write : Write}
  {key : String × String × String}

/-- The columns of the unique index, of a document. -/
def sourceOf (d : EcfDocument) : Option (String × String × String) :=
  d.ambiente.map fun ambiente => (d.tenantId, d.sourceTxnId, ambiente)

theorem sourceKey_eq (row : EcfDocumentRow) : sourceKey row = sourceOf row.toEcfDocument := rfl

/-- An INSERT of a key goes through only where there is no row of it. -/
theorem no_source_of_insert {time : ℕ} (done : commit table [.insert d time] = .ok next)
    (source : sourceOf d = some key) (member : row ∈ table.rows) : sourceKey row ≠ some key := by
  intro same
  have rows : next.rows = table.rows ++ [inserted d time] := commit_rows done
  have old : row ∈ next.rows := rows ▸ List.mem_append_left _ member
  have new : inserted d time ∈ next.rows :=
    rows ▸ List.mem_append_right _ (List.mem_singleton_self _)
  have eq : row = inserted d time := eq_of_key next.sources old new same source
  exact commit_insert_new done member (congrArg (·.id) eq)

/-- The row a write is of, if it is not a new one. -/
def Target (key : String × String × String) (table : DocumentTable) : Write → Prop
  | .insert _ _ => True
  | .update d _ => ∃ row ∈ table.rows, sourceKey row = some key ∧ row.id = d.id

/-- After a commit the row of the key is the document committed. -/
theorem written_of_commit (done : commit table [write] = .ok next)
    (source : sourceOf write.doc = some key) (target : Target key table write) :
    (∃ row ∈ next.rows, sourceKey row = some key ∧ row.toEcfDocument = write.doc) ∧
      ∀ row ∈ next.rows, sourceKey row = some key → row.toEcfDocument = write.doc := by
  have rows : next.rows = write.apply table.rows := commit_rows done
  have found : ∃ row ∈ next.rows, row.toEcfDocument = write.doc := by
    rw [rows]
    cases write with
    | insert d time => exact ⟨_, List.mem_append_right _ (List.mem_singleton_self _), rfl⟩
    | update d time =>
      obtain ⟨old, member, -, id⟩ := target
      exact ⟨_, List.mem_map_of_mem member, by rw [if_pos id]; rfl⟩
  obtain ⟨row, member, doc⟩ := found
  have named : sourceKey row = some key := by rw [sourceKey_eq, doc, source]
  exact ⟨⟨row, member, named, doc⟩, fun other among same =>
    eq_of_key next.sources among member same named ▸ doc⟩

/-- A commit of the row's document leaves a row of its key. -/
theorem kept_of_commit (done : commit table [write] = .ok next)
    (source : sourceOf write.doc = some key) (member : row ∈ table.rows)
    (named : sourceKey row = some key) :
    ∃ later ∈ next.rows, sourceKey later = some key ∧ later.id = row.id := by
  obtain ⟨later, member, same, kept⟩ := commit_keeps
    (P := fun row => sourceKey row = some key) done member named fun old d time among _ => by
      rw [← List.mem_singleton.mp among] at source
      exact source
  exact ⟨later, member, kept, same⟩

/-- What a lookup of a key finds, where every row of its tenant and TxnId has an
ambiente. -/
theorem named_of_source {T X : String} {ambiente : Option String}
    (matched : matchesSource T X ambiente row = true) {a : String} (chosen : ambiente = some a)
    (blank : a ≠ "") (stored : row.ambiente ≠ none) : sourceKey row = some (T, X, a) := by
  subst chosen
  simp only [matchesSource, Bool.and_eq_true, Bool.or_eq_true, decide_eq_true_eq] at matched
  obtain ⟨⟨tenant, source⟩, (blank' | none) | same⟩ := matched
  · exact absurd blank' blank
  · exact absurd none stored
  · rw [sourceKey, same, tenant, source]
    rfl

end EcfDgii.SettledTransmissions
