import EcfDgii.StatusTrace

/-!
Invariants of the documents, for every schedule of the engine's operations.

The first half says what one answer of the host does to the documents: only a
commit changes them, and a read shows rows of the table.  The second half is
the induction behind every law about single documents.  `Lawful` says that
whatever an operation may write obeys a law, given that every row it has read
and the last document it committed obey it; then every row of every reachable
table does (`Lawful.play`).  A law may refer to the history, as long as it
stays true when more happens.  Rows whose ids are set apart (`Other`) need not
obey it: they are the ones the engine did not create.
-/

set_option autoImplicit false

namespace EcfDgii.DocumentInvariants

open EcfDgii.Timestamps EcfDgii.Documents EcfDgii.Tables EcfDgii.Programs EcfDgii.Execution
open EcfDgii.Engine EcfDgii.Transmission EcfDgii.Submission EcfDgii.Traces EcfDgii.StatusTrace

variable {ext : Externals} {services : Services} {input : Input} {w : World} {r : Request}

/-! ## One answer -/

/-- Only a commit changes the documents. -/
theorem documents_of_other (h : ∀ writes, r ≠ .saveChanges writes) :
    (answerAt ext input w r).2.documents = w.documents := by
  cases r with
  | saveChanges writes => exact absurd rfl (h writes)
  | getNextEncf scope tipo =>
    simp only [answerAt]
    split <;> rfl
  | releaseUnusedEncf scope tipo encf =>
    simp only [answerAt]
    split <;> rfl
  | idempotency statement =>
    cases statement <;> simp only [answerAt, idempotencyAnswer] <;> repeat' split
    all_goals rfl
  | _ => rfl

/-- A commit is refused and changes nothing, or is done. -/
theorem answer_saveChanges (ext : Externals) (input : Input) (w : World) (writes : List Write) :
    ((∃ e, (answerAt ext input w (.saveChanges writes)).1 = .error e) ∧
        (answerAt ext input w (.saveChanges writes)).2 = w) ∨
      (answerAt ext input w (.saveChanges writes)).1 = .ok () ∧
        commit w.documents writes =
          .ok (answerAt ext input w (.saveChanges writes)).2.documents := by
  simp only [answerAt, Input.database]
  split
  · next e _ => exact .inl ⟨⟨e, rfl⟩, rfl⟩
  · next documents done =>
    refine .inr ⟨rfl, ?_⟩
    split at done
    · cases done
    · exact done

theorem answered_database {found : Option EcfDocumentRow} {row : EcfDocumentRow}
    (h : row ∈ answered (input.database (.ok found))) : found = some row := by
  unfold Input.database at h
  split at h
  · exact absurd h List.not_mem_nil
  · cases found with
    | none => exact absurd h List.not_mem_nil
    | some shown => rw [List.mem_singleton.mp h]

/-- A read shows rows of the table. -/
theorem revealed_mem {row : EcfDocumentRow}
    (h : row ∈ revealed ⟨r, (answerAt ext input w r).1⟩) : row ∈ w.documents.rows := by
  cases r with
  | documentBySourceTxnId => exact (getBySourceTxnId_mem (answered_database h)).1
  | documentById => exact (queryOne_mem (answered_database h)).1
  | documentByENcf => exact (queryOne_mem (answered_database h)).1
  | documentByTrackId => exact (queryOne_mem (answered_database h)).1
  | documentsDue minAge pollDue limit =>
    simp only [answerAt, Input.database] at h
    split at h
    · exact absurd h List.not_mem_nil
    · exact (getDueForStatusCheck_mem h).1
  | _ => exact absurd h List.not_mem_nil

/-- A row after an answer was there before, or is a document just committed. -/
theorem mem_documents {row : EcfDocumentRow}
    (h : row ∈ (answerAt ext input w r).2.documents.rows) :
    row ∈ w.documents.rows ∨ ∃ writes, r = .saveChanges writes ∧
      (⟨r, (answerAt ext input w r).1⟩ : Event Api) =
        ⟨.saveChanges writes, (.ok () : Except String Unit)⟩ ∧
      ∃ write ∈ writes, row.toEcfDocument = write.doc := by
  by_cases commits : ∃ writes, r = .saveChanges writes
  · obtain ⟨writes, rfl⟩ := commits
    rcases answer_saveChanges ext input w writes with
      ⟨-, same⟩ | ⟨answer, done⟩
    · exact .inl (same ▸ h)
    · rcases mem_commit done h with old | new
      · exact .inl old
      · obtain ⟨write, among, wrote⟩ := new
        exact .inr ⟨writes, rfl, by rw [answer], write, among, wrote.doc⟩
  · rw [documents_of_other fun writes same => commits ⟨writes, same⟩] at h
    exact .inl h

/-- The last document committed was committed by an event of the log. -/
theorem mem_of_written {log : Log} {d : EcfDocument} (h : (progress log).written = some d) :
    ∃ write, (⟨.saveChanges [write], (.ok () : Except String Unit)⟩ : Event Api) ∈ log ∧
      write.doc = d := by
  induction log using List.reverseRecOn with
  | nil => exact absurd h (by simp [progress])
  | append_singleton log e ih =>
    have earlier : (progress log).written = some d → ∃ write,
        (⟨.saveChanges [write], (.ok () : Except String Unit)⟩ : Event Api) ∈ log ++ [e] ∧
          write.doc = d := fun h =>
      (ih h).imp fun _ k => ⟨List.mem_append_left _ k.1, k.2⟩
    rw [progress_append] at h
    unfold Progress.after at h
    split at h
    · exact earlier h
    · next write =>
      exact ⟨write, List.mem_append_right _ (List.mem_singleton_self _), Option.some.inj h⟩
    · exact earlier h
    · split at h <;> exact earlier h
    · exact earlier h

/-! ## Laws of documents -/

/-- Everything that has happened, by thread. -/
abbrev History := List (ℕ × Event Api)

/-- Operations of the engine under way. -/
abbrev EnginePool := Pool Operation Api Unit World

/-- The engine before the first move. -/
def engine (ext : Externals) (services : Services) (operations : ℕ → Operation) (w : World) :
    EnginePool :=
  Pool.start (program ext services) operations w

/-- A condition on the events of a schedule, each seen by the operation it
happens to. -/
def Each (ext : Externals) (Cond : Operation → Log → Event Api → Prop) (p : EnginePool) :
    Move Input → Prop
  | .step t input => ∀ e, p.nextEvent (host ext) t input = some e →
      Cond (p.thread t).operation (p.thread t).log e
  | .kill _ => True

/-- The same condition, checked. -/
def Checked (ext : Externals) (check : Operation → Log → Event Api → Bool) (p : EnginePool) :
    Move Input → Bool
  | .step t input =>
    match p.nextEvent (host ext) t input with
    | some e => check (p.thread t).operation (p.thread t).log e
    | none => true
  | .kill _ => true

/-- A schedule that passes a check meets the condition the check implies. -/
theorem each_of_checked {Cond : Operation → Log → Event Api → Prop}
    {check : Operation → Log → Event Api → Bool}
    (sound : ∀ op log e, check op log e = true → Cond op log e) {p : EnginePool}
    {moves : List (Move Input)}
    (passed : p.Meets (host ext) (fun p m => Checked ext check p m = true) moves) :
    p.Meets (host ext) (Each ext Cond) moves := by
  refine passed.mono fun p m h => ?_
  cases m with
  | kill t => trivial
  | step t input =>
    intro e next
    simp only [Checked, next] at h
    exact sound _ _ _ h

/-- What every thread knows under a law: its log is part of the history, was
permitted and met the condition, and the documents it has read or committed obey
the law. -/
structure Obeys (ext : Externals) (services : Services) (Ops : Operation → Prop) (Cond : Operation → Log → Event Api → Prop)
    (Law : History → EcfDocument → Prop) (op : Operation) (log : Log) (history : History) :
    Prop where
  kind : Ops op
  logged : ∀ e ∈ log, ∃ t, (t, e) ∈ history
  asked : Along (fun before e => Asks ext services op before e.request) log
  along : Along (Cond op) log
  read : ∀ row, Read log row → Law history row.toEcfDocument
  committed : ∀ write, (⟨.saveChanges [write], (.ok () : Except String Unit)⟩ : Event Api) ∈ log →
    Law history write.doc

/-- A law every write keeps, on schedules of the given operations whose events
meet the condition. -/
structure Lawful (ext : Externals) (services : Services) (Ops : Operation → Prop)
    (Cond : Operation → Log → Event Api → Prop) (Law : History → EcfDocument → Prop) : Prop where
  mono : ∀ history e d, Law history d → Law (history ++ [e]) d
  writes : ∀ op log history writes write, Obeys ext services Ops Cond Law op log history →
    Cond op log ⟨.saveChanges writes, (.ok () : Except String Unit)⟩ →
    EngineWrite ext services op log writes write → Law history write.doc

variable {Ops : Operation → Prop} {Cond : Operation → Log → Event Api → Prop}
  {Law : History → EcfDocument → Prop}

/-- The law of the table and of every thread. -/
abbrev Sound (ext : Externals) (services : Services) (Ops : Operation → Prop)
    (Cond : Operation → Log → Event Api → Prop) (Law : History → EcfDocument → Prop)
    (p : EnginePool) : Prop :=
  p.Sound (Asks ext services)
    (fun w history => ∀ row ∈ w.documents.rows, Law history row.toEcfDocument)
    (fun _ th _ history => Obeys ext services Ops Cond Law th.operation th.log history)

theorem Obeys.mono (mono : ∀ history e d, Law history d → Law (history ++ [e]) d) {op : Operation}
    {log : Log} {history : History} (h : Obeys ext services Ops Cond Law op log history) (e : ℕ × Event Api) :
    Obeys ext services Ops Cond Law op log (history ++ [e]) where
  kind := h.kind
  logged e' member := (h.logged e' member).imp fun _ => List.mem_append_left _
  asked := h.asked
  along := h.along
  read row read := mono _ _ _ (h.read row read)
  committed write member := mono _ _ _ (h.committed write member)

/-- Whatever the operation had committed at some point obeys the law. -/
theorem Obeys.written {op : Operation} {log before : Log} {history : History} {d : EcfDocument}
    (h : Obeys ext services Ops Cond Law op log history) (cut : before <+: log)
    (written : (progress before).written = some d) : Law history d := by
  obtain ⟨write, member, rfl⟩ := mem_of_written written
  exact h.committed write (cut.subset member)

theorem obeys_nil {op : Operation} (kind : Ops op) : Obeys ext services Ops Cond Law op [] [] where
  kind := kind
  logged _ member := absurd member List.not_mem_nil
  asked := along_nil _
  along := along_nil _
  read _ read := absurd read.choose_spec.1 List.not_mem_nil
  committed _ member := absurd member List.not_mem_nil

/-- One permitted answer keeps the law, in the table and for its operation. -/
theorem Lawful.step (lawful : Lawful ext services Ops Cond Law) (input : Input) (w : World)
    (t : ℕ) {op : Operation} {log : Log} {history : History} (obeys : Obeys ext services Ops Cond Law op log history)
    (law : ∀ row ∈ w.documents.rows, Law history row.toEcfDocument)
    (permitted : Asks ext services op log r)
    (condition : Cond op log ⟨r, (answerAt ext input w r).1⟩) :
    (∀ row ∈ (answerAt ext input w r).2.documents.rows,
      Law (history ++ [(t, ⟨r, (answerAt ext input w r).1⟩)]) row.toEcfDocument) ∧
    Obeys ext services Ops Cond Law op (log ++ [⟨r, (answerAt ext input w r).1⟩])
      (history ++ [(t, ⟨r, (answerAt ext input w r).1⟩)]) := by
  have committed : ∀ writes, r = .saveChanges writes →
      (⟨r, (answerAt ext input w r).1⟩ : Event Api) =
        ⟨.saveChanges writes, (.ok () : Except String Unit)⟩ →
      ∀ write ∈ writes, Law history write.doc := by
    rintro writes rfl same
    rw [same] at condition
    exact fun write member => lawful.writes op log history writes write obeys condition
      (engineWrite_of_asks permitted write member)
  have later := obeys.mono lawful.mono (t, ⟨r, (answerAt ext input w r).1⟩)
  refine ⟨fun row member => ?_, later.kind, ?_, obeys.asked.append permitted,
    obeys.along.append condition, ?_, ?_⟩
  · apply lawful.mono
    rcases mem_documents member with old | ⟨writes, asked, same, write, member, eq⟩
    · exact law row old
    · exact eq ▸ committed writes asked same write member
  · intro e member
    rcases List.mem_append.mp member with old | new
    · exact later.logged e old
    · exact ⟨t, List.mem_append_right _ (by rw [List.mem_singleton.mp new]; exact List.mem_singleton_self _)⟩
  · intro row read
    rcases read_append.mp read with old | new
    · exact later.read row old
    · exact lawful.mono _ _ _ (law row (revealed_mem new))
  · intro write member
    rcases List.mem_append.mp member with old | new
    · exact later.committed write old
    · have same := (List.mem_singleton.mp new).symm
      have asked : r = .saveChanges [write] := congrArg Event.request same
      exact lawful.mono _ _ _ (committed [write] asked same write (List.mem_singleton_self _))

/-- A move that meets the condition keeps the law. -/
theorem Lawful.move (lawful : Lawful ext services Ops Cond Law) {p : EnginePool} (m : Move Input)
    (sound : Sound ext services Ops Cond Law p) (met : Each ext Cond p m) :
    Sound ext services Ops Cond Law (p.move (host ext) m) := by
  refine Pool.Sound.move (C := Each ext Cond) ?_ (fun _ _ _ _ obeys => obeys) m sound met
  intro p t input r next sound running condition permitted
  have happens := condition ⟨r, ((host ext).answer input p.world r).1⟩
    (by simp only [Pool.nextEvent, running])
  obtain ⟨table, own⟩ := lawful.step input
    { p.world with clock := p.world.clock + input.elapsed } t (sound.threads t) sound.world
    permitted happens
  exact ⟨table, own, fun t' _ => (sound.threads t').mono lawful.mono _⟩

/-- The engine starts under a law of its documents. -/
theorem sound_start {operations : ℕ → Operation} (allowed : ∀ t, Ops (operations t))
    (initial : ∀ row ∈ w.documents.rows, Law [] row.toEcfDocument) :
    Sound ext services Ops Cond Law (engine ext services operations w) :=
  Pool.Sound.start (program_follows ext services) initial fun t => obeys_nil (allowed t)

/-- **A law of single documents holds in every reachable state.** -/
theorem Lawful.play (lawful : Lawful ext services Ops Cond Law) {operations : ℕ → Operation}
    {w : World} {moves : List (Move Input)} (allowed : ∀ t, Ops (operations t))
    (initial : ∀ row ∈ w.documents.rows, Law [] row.toEcfDocument)
    (met : (engine ext services operations w).Meets (host ext) (Each ext Cond) moves) :
    Sound ext services Ops Cond Law ((engine ext services operations w).play (host ext) moves) :=
  Pool.play_invariant (fun _ m sound met => lawful.move m sound met) (sound_start allowed initial)
    met

/-- A law that asks nothing of the answers holds in every reachable state of every
schedule. -/
theorem Lawful.play_always (lawful : Lawful ext services Ops (fun _ _ _ => True) Law)
    {w : World} (operations : ℕ → Operation) (moves : List (Move Input))
    (allowed : ∀ t, Ops (operations t))
    (initial : ∀ row ∈ w.documents.rows, Law [] row.toEcfDocument) :
    Sound ext services Ops (fun _ _ _ => True) Law
      ((engine ext services operations w).play (host ext) moves) := by
  refine lawful.play allowed initial ((Pool.meets_true _ moves).mono fun p m _ => ?_)
  cases m with
  | step t input => exact fun _ _ => trivial
  | kill t => trivial

/-! ## Sequences -/

/-- A number issued is the next one of a lawful row of its type. -/
def Numbered (P : EcfSequence → Prop) (e : Event Api) : Prop :=
  ∀ scope tipo encf, e = ⟨.getNextEncf scope tipo, (.ok encf : Except String String)⟩ →
    ∃ s, P s ∧ s.tipoComprobante = tipo ∧ encf = s.getCurrentEncfFormatted

/-- One answer keeps a law of the sequence rows, and issues lawful numbers. -/
theorem answer_sequences {P : EcfSequence → Prop} (law : SequenceLaw P)
    (lawful : ∀ s ∈ w.sequences, P s) :
    (∀ s ∈ (answerAt ext input w r).2.sequences, P s) ∧
      Numbered P ⟨r, (answerAt ext input w r).1⟩ := by
  cases r with
  | getNextEncf scope tipo =>
    simp only [answerAt, Input.database]
    split
    · next e same => exact ⟨lawful, fun _ _ _ eq => by cases eq⟩
    · next encf sequences done =>
      have ok : getNextEncf w.clock scope tipo w.sequences = .ok (encf, sequences) := by
        split at done
        · cases done
        · exact done
      obtain ⟨rows, issued⟩ := getNextEncf_lawful law lawful ok
      refine ⟨rows, fun scope' tipo' encf' eq => ?_⟩
      cases eq
      exact issued
  | releaseUnusedEncf scope tipo encf =>
    refine ⟨?_, fun _ _ _ eq => nomatch congrArg Event.request eq⟩
    simp only [answerAt]
    split
    · exact lawful
    · exact releaseUnusedEncf_lawful law lawful
  | saveChanges writes =>
    refine ⟨?_, fun _ _ _ eq => nomatch congrArg Event.request eq⟩
    simp only [answerAt]
    split <;> exact lawful
  | idempotency statement =>
    refine ⟨?_, fun _ _ _ eq => nomatch congrArg Event.request eq⟩
    cases statement <;> simp only [answerAt, idempotencyAnswer] <;> repeat' split
    all_goals exact lawful
  | _ => exact ⟨lawful, fun _ _ _ eq => nomatch congrArg Event.request eq⟩

/-- On every schedule the numbers issued are those of lawful rows. -/
theorem meets_numbered {P : EcfSequence → Prop} (law : SequenceLaw P)
    {operations : ℕ → Operation} {moves : List (Move Input)} (lawful : ∀ s ∈ w.sequences, P s)
    (met : (engine ext services operations w).Meets (host ext) (Each ext Cond) moves) :
    (engine ext services operations w).Meets (host ext)
      (Each ext fun op log e => Cond op log e ∧ Numbered P e) moves := by
  refine Pool.Meets.strengthen (J := fun p : EnginePool => ∀ s ∈ p.world.sequences, P s)
    ?_ ?_ lawful met
  · rintro p (⟨t, input⟩ | t) kept -
    · by_cases running : (p.thread t).Running
      · obtain ⟨r, next, running⟩ := running
        rw [Pool.move_step running]
        exact (answer_sequences (w := { p.world with clock := p.world.clock + input.elapsed })
          law kept).1
      · rwa [Pool.move_idle running]
    · exact kept
  · rintro p (⟨t, input⟩ | t) kept now
    · intro e next
      refine ⟨now e next, ?_⟩
      unfold Pool.nextEvent at next
      split at next
      · next r rest _ =>
        cases next
        exact (answer_sequences (w := { p.world with clock := p.world.clock + input.elapsed })
          law kept).2
      · cases next
    · trivial

/-! ## Deletion -/

theorem isDeleted_answer {row : EcfDocumentRow}
    (h : row ∈ (answerAt ext input w r).2.documents.rows) (deleted : row.isDeleted = true) :
    ∃ old ∈ w.documents.rows, old.id = row.id ∧ old.isDeleted = true := by
  by_cases commits : ∃ writes, r = .saveChanges writes
  · obtain ⟨writes, rfl⟩ := commits
    rcases answer_saveChanges ext input w writes with
      ⟨-, same⟩ | ⟨-, done⟩
    · exact ⟨row, same ▸ h, rfl, deleted⟩
    · exact isDeleted_commit done h deleted
  · rw [documents_of_other fun writes same => commits ⟨writes, same⟩] at h
    exact ⟨row, h, rfl, deleted⟩

/-- **No operation deletes a document.** -/
theorem isDeleted_play {operations : ℕ → Operation} {moves : List (Move Input)}
    {row : EcfDocumentRow}
    (h : row ∈ ((engine ext services operations w).play (host ext) moves).world.documents.rows)
    (deleted : row.isDeleted = true) :
    ∃ old ∈ w.documents.rows, old.id = row.id ∧ old.isDeleted = true := by
  refine Pool.play_invariant (h := host ext) (C := fun _ _ => True)
    (J := fun p : EnginePool => ∀ row ∈ p.world.documents.rows, row.isDeleted = true →
      ∃ old ∈ w.documents.rows, old.id = row.id ∧ old.isDeleted = true) ?_
    (fun row member deleted => ⟨row, member, rfl, deleted⟩) (Pool.meets_true _ moves) row h deleted
  rintro p (⟨t, input⟩ | t) kept - row member deleted
  · by_cases running : (p.thread t).Running
    · obtain ⟨r, next, running⟩ := running
      rw [Pool.move_step running] at member
      obtain ⟨middle, member, same, deleted⟩ := isDeleted_answer member deleted
      obtain ⟨old, member, same', deleted⟩ := kept middle member deleted
      exact ⟨old, member, same'.trans same, deleted⟩
    · rw [Pool.move_idle running] at member
      exact kept row member deleted
  · exact kept row member deleted

/-! ## A small deployment

One issuer with one sequence of E31 numbers, a certificate that signs, and a
DGII that speaks JSON: the concrete engine the examples of the following
modules run. -/

def sampleExternals : Externals where
  parseJson text := match text with
    | "trackId" => .object [("trackId", .string "T1")]
    | "" => .discarded
    | estado => .object [("estado", .string estado)]
  dump _ := ""
  parseXml _ := none
  stod _ := none
  validate _ := none
  signatureValue xml := xml
  cuerpoEcf dto _ _ _ _ := ("", dto.totals.montoTotal, 0)
  cuerpoRfce _ _ _ _ := ""
  sha256 text := text
  render _ := ""
  parseStored _ := none
  instant := parseIsoSeconds

def sampleSigner : Signer := ⟨"certificate", false⟩

def sampleServices : Services where
  signer := sampleSigner
  ecfClient := .ok ⟨"101672919", .preCertificacion, false, sampleSigner⟩

def sampleDocument : CanonicalDocumentDto where
  sourceReference := { txnId := "TXN-1", editSequence := "1" }
  tipoComprobante := "E31"
  header := { rncComprador := "131988032" }
  lines := [{ itemName := "Servicio", quantity := 1, unitPrice := 100, amount := 100 }]
  totals := { montoSubtotal := 100, montoTotal := 100 }

def sampleRequest : SubmitRequest := { body := .document sampleDocument }

def sampleSequence : EcfSequence where
  id := 1
  tipoComprobante := "E31"
  prefijo := "E31"
  fechaVencimiento := some "2030-01-01 00:00:00+00"

def emptyTable : DocumentTable := ⟨[], List.nodup_nil, List.nodup_nil, List.nodup_nil⟩

def sampleWorld : World where
  clock := 1700000000000000000
  documents := emptyTable
  sequences := [sampleSequence]
  idempotency := []

/-- The services answer with a signature, and DGII with a text. -/
def answering (text : String) : Input := { text := "SIGNATURE", http := { text := text } }

/-- A thread's next `n` steps, each answered alike. -/
def steps (t n : ℕ) (text : String) : List (Move Input) :=
  List.replicate n (.step t (answering text))

/-- An operation run alone, every step answered alike. -/
def alone (op : Operation) (text : String) (w : World) : Run Api Unit World :=
  (host sampleExternals).run (fun _ => some (answering text)) w []
    (program sampleExternals sampleServices op)

end EcfDgii.DocumentInvariants
