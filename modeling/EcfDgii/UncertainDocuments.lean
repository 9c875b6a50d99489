import EcfDgii.DocumentInvariants

/-!
Documents whose transmission is unconfirmed, over submissions one at a time.

Such a document may be given new content and be sent again only when DGII has
said that it does not know the eNCF and two minutes have passed since the row
was last written: `Cleared`.  The code takes a blank estado for the same answer,
so the theorem asks that no status query is answered with one.  A run carries
one of two things: the evidence, or the row as it was and no transmission.
-/

set_option autoImplicit false

namespace EcfDgii.UncertainDocuments

open EcfDgii.Text EcfDgii.Timestamps EcfDgii.Documents EcfDgii.DgiiReplies EcfDgii.Tables
open EcfDgii.Programs EcfDgii.Execution EcfDgii.Engine EcfDgii.Transmission EcfDgii.Submission
open EcfDgii.Traces EcfDgii.SubmissionTrace EcfDgii.SubmissionFollows EcfDgii.StatusTrace
open EcfDgii.DocumentInvariants

variable {ext : Externals} {services : Services} {req : SubmitRequest} {log : Log} {w : World}
  {row : EcfDocumentRow} {r : Request} {input : Input}

/-- The row was last written at a time of the clock. -/
def Recorded (row : EcfDocumentRow) (time : ℕ) : Prop :=
  row.updatedAt = some (pgTimestamptz time) ∧ second ≤ time

/-- DGII has said that it does not know the row's eNCF, and two minutes had
passed since the row's last attempt, as recorded to the second. -/
structure Cleared (ext : Externals) (log : Log) (row : EcfDocumentRow) : Prop where
  missing : ∃ answer, Queried log (.estado row.rncEmisor row.eNcf none none) answer ∧
    tolower (trim (estadoOf ext answer)) = "no encontrado"
  old : ∃ time recorded : ℕ, (⟨.now, time⟩ : Event Api) ∈ log ∧ Recorded row recorded ∧
    recorded / second * second + 120 * second ≤ time

/-- A status query that is answered says something. -/
def Says (ext : Externals) (e : Event Api) : Prop :=
  ∀ client token rncEmisor eNcf rncComprador codigo (answer : HttpReply),
    e = ⟨.get client token (.estado rncEmisor eNcf rncComprador codigo), answer⟩ →
    validateDgiiResponse answer = .ok () → trim (estadoOf ext answer) ≠ ""

theorem Cleared.append {e : Event Api} (h : Cleared ext log row) : Cleared ext (log ++ [e]) row := by
  have grows : ∀ e' ∈ log, e' ∈ log ++ [e] := fun _ => List.mem_append_left _
  obtain ⟨⟨answer, queried, missing⟩, time, recorded, now, old⟩ := h
  exact ⟨⟨answer, queried.mono grows, missing⟩, time, recorded, grows _ now, old⟩

/-- A status query that was answered said something. -/
theorem spoke_of_queried {rncEmisor eNcf : String} {rncComprador codigo : Option String}
    {answer : HttpReply} (spoke : ∀ e ∈ log, Says ext e)
    (queried : Queried log (.estado rncEmisor eNcf rncComprador codigo) answer) :
    trim (estadoOf ext answer) ≠ "" := by
  obtain ⟨⟨client, token, member⟩, valid⟩ := queried
  exact spoke _ member client token _ _ _ _ answer rfl valid

/-- What `reconcileUncertain` takes for a number that DGII does not know says so,
unless it is blank. -/
theorem missing_of_notFound {estado : String} (missing : notFound estado = true)
    (spoken : trim estado ≠ "") : tolower (trim estado) = "no encontrado" := by
  simp only [notFound, Bool.or_eq_true, decide_eq_true_eq] at missing
  rcases missing with (upper | lower) | blank
  · rw [upper]
    decide
  · rw [lower]
    decide
  · exact absurd blank spoken

/-- What `reconcileUncertain` takes for evidence is evidence, when the answer
says something. -/
theorem cleared_of_notFound {answer : HttpReply} {recorded : ℕ}
    (spoke : ∀ e ∈ log, Says ext e) (known : Recorded row recorded)
    (queried : Queried log (.estado row.rncEmisor row.eNcf none none) answer)
    (missing : notFound (estadoOf ext answer) = true) (old : OldEnough log row) :
    Cleared ext log row := by
  have parsed : parseIsoSeconds (row.updatedAt.getD row.createdAt) = ((recorded / second : ℕ) : ℤ) := by
    rw [known.1, Option.getD_some, parseIsoSeconds_pgTimestamptz]
  have positive : 0 < recorded / second := Nat.div_pos known.2 (by decide)
  constructor
  · exact ⟨answer, queried, missing_of_notFound missing (spoke_of_queried spoke queried)⟩
  · rcases old with blank | unread | ⟨time, now, elapsed⟩
    · rw [blank] at parsed
      have zero : parseIsoSeconds "" = 0 := by decide
      omega
    · omega
    · refine ⟨time, recorded, now, known, ?_⟩
      rw [parsed] at elapsed
      simp only [minimumUncertainAge] at elapsed
      omega

/-! ## The row's timestamp -/

/-- Every row whose transmission is unconfirmed records its last attempt. -/
structure Stamped (w : World) : Prop where
  clock : second ≤ w.clock
  rows : ∀ row ∈ w.documents.rows, Unconfirmed row.state → ∃ time, Recorded row time

/-- The clock only moves forward, and an operation sees nothing else of it. -/
structure Ticking (log : Log) (w : World) : Prop where
  stamped : Stamped w
  seen : ∀ time : ℕ, (⟨.now, time⟩ : Event Api) ∈ log → second ≤ time

theorem clock_answer : (answerAt ext input w r).2.clock = w.clock := by
  cases r with
  | saveChanges writes =>
    simp only [answerAt]
    split <;> rfl
  | getNextEncf scope tipo =>
    simp only [answerAt]
    split <;> rfl
  | releaseUnusedEncf scope tipo encf =>
    simp only [answerAt]
    split <;> rfl
  | idempotency statement =>
    cases statement <;> simp only [answerAt, idempotencyAnswer] <;> repeat' split
    all_goals rfl
  | _ => rfl

/-- One answer to a submission keeps the timestamps. -/
theorem Ticking.step (h : Ticking log w) (permitted : SubmitAsks ext services req log r) :
    Ticking (log ++ [⟨r, (answerAt ext input w r).1⟩]) (answerAt ext input w r).2 := by
  refine ⟨⟨by rw [clock_answer]; exact h.stamped.clock, ?_⟩, ?_⟩
  · intro row member state
    by_cases commits : ∃ writes, r = .saveChanges writes
    · obtain ⟨writes, rfl⟩ := commits
      rcases answer_saveChanges ext input w writes with ⟨-, same⟩ | ⟨-, done⟩
      · rw [same] at member
        exact h.stamped.rows row member state
      · rcases mem_commit done member with old | ⟨write, among, wrote⟩
        · exact h.stamped.rows row old state
        · cases permitted with
          | outside outside => exact outside.elim
          | save target staged writes =>
            obtain rfl := List.mem_singleton.mp among
            cases wrote with
            | insert eq =>
              cases writes
              have new : row.state = "SequenceAllocated" := by rw [eq]; rfl
              rw [new] at state
              rcases state with state | state <;> exact absurd state (by decide)
            | update eq => exact ⟨_, by rw [eq]; rfl, h.seen _ staged⟩
    · rw [documents_of_other fun writes eq => commits ⟨writes, eq⟩] at member
      exact h.stamped.rows row member state
  · intro time member
    rcases List.mem_append.mp member with old | new
    · exact h.seen time old
    · have eq := List.mem_singleton.mp new
      cases r with
      | now =>
        cases eq
        exact h.stamped.clock
      | _ => exact nomatch congrArg Event.request eq

/-! ## The row while there is no evidence -/

/-- A submission without evidence: the row is as it was, up to its state; the
submission knows no other version of it; and if it is the row it found, nothing
was transmitted. -/
structure Guarded (row : EcfDocumentRow) (log : Log) (w : World) : Prop where
  present : ∃ row' ∈ w.documents.rows, row'.id = row.id ∧
    SameContent row.toEcfDocument row'.toEcfDocument
  fresh : (progress log).written = none → row ∈ w.documents.rows ∧
    (∀ seen, Read log seen → seen.id = row.id → seen = row) ∧
    ∀ connection route file, ¬ Posted log connection route file
  settled : ∀ d, (progress log).written = some d → d.id = row.id →
    d.state ≠ "SequenceAllocated" ∧ d.state ≠ "AwaitingTransmission"
  silent : (progress log).found = some row →
    (∀ d, (progress log).written = some d → d.id = row.id) ∧
    ∀ connection route file, ¬ Posted log connection route file

/-- What a submission without evidence writes: another row, or the row's
settled state. -/
inductive Spares (row : EcfDocumentRow) (log : Log) (write : Write) : Prop
  | other (id : write.doc.id ≠ row.id) (found : (progress log).found ≠ some row)
  | settled (content : SameContent row.toEcfDocument write.doc)
      (state : write.doc.state ≠ "SequenceAllocated" ∧ write.doc.state ≠ "AwaitingTransmission")

/-- A write made from the document committed last is of another row. -/
theorem Guarded.other {d d' : EcfDocument} {time : ℕ} (h : Guarded row log w)
    (written : (progress log).written = some d)
    (state : d.state = "SequenceAllocated" ∨ d.state = "AwaitingTransmission")
    (id : d'.id = d.id) : Spares row log (.update d' time) := by
  have differs : d.id ≠ row.id := by
    intro same
    obtain ⟨allocated, awaiting⟩ := h.settled d written same
    exact state.elim allocated awaiting
  exact .other (fun same => differs (id.symm.trans same))
    fun found => differs ((h.silent found).1 d written)

/-- Every write spares the row, or there is evidence. -/
theorem Guarded.write {t : SubmissionTarget} {write : Write} {recorded : ℕ}
    {next : DocumentTable} (h : Guarded row log w) (spoke : ∀ e ∈ log, Says ext e)
    (known : Recorded row recorded) (state : Unconfirmed row.state)
    (writes : SubmitWrite ext t log write) (done : commit w.documents [write] = .ok next) :
    Cleared ext log row ∨ Spares row log write := by
  have same : ∀ seen, (progress log).found = some seen → (progress log).written = none →
      seen.id = row.id → seen = row := fun seen found fresh =>
    (h.fresh fresh).2.1 seen (read_of_found found)
  cases writes with
  | create fresh =>
    obtain ⟨row', member, id, -⟩ := h.present
    refine .inr (.other (fun eq => commit_insert_new done member (id.trans eq.symm)) ?_)
    rw [fresh.1]
    exact nofun
  | @refresh seen at' time found fresh allowed =>
    by_cases id : seen.id = row.id
    · obtain rfl := same seen found fresh id
      cases allowed with
      | neverTransmitted never =>
        rcases state with eq | eq <;> rw [eq] at never <;> exact absurd never (by decide)
      | notFound _ queried missing old =>
        exact .inl (cleared_of_notFound spoke known queried.queried missing old)
    · refine .inr (.other id fun eq => id ?_)
      rw [found] at eq
      rw [Option.some.inj eq]
  | @reissue seen eNcf at' time found fresh rejected =>
    have id : seen.id ≠ row.id := by
      intro id
      rw [same seen found fresh id] at rejected
      rcases state with eq | eq <;> rw [eq] at rejected <;> exact absurd rejected (by decide)
    refine .inr (.other id fun eq => id ?_)
    rw [found] at eq
    rw [Option.some.inj eq]
  | @reconcile seen d answer time found fresh _ only =>
    have content := only.content.trans (reconciled_content d (estadoOf ext answer))
    by_cases id : seen.id = row.id
    · obtain rfl := same seen found fresh id
      refine .inr (.settled ?_ ?_) <;> dsimp only [Write.doc]
      · exact content
      · rcases reconciled_state d (estadoOf ext answer) with eq | eq | ⟨eq, -⟩ <;>
          exact ⟨by rw [eq]; decide, by rw [eq]; decide⟩
    · refine .inr (.other ?_ ?_)
      · dsimp only [Write.doc]
        exact fun eq => id (content.id.symm.trans eq)
      · intro eq
        rw [found] at eq
        exact id (by rw [Option.some.inj eq])
  | signingFailed written allocated => exact .inr (h.other written (.inl allocated) rfl)
  | schemaInvalid written allocated => exact .inr (h.other written (.inl allocated) rfl)
  | unsigned written allocated => exact .inr (h.other written (.inl allocated) rfl)
  | awaiting written allocated => exact .inr (h.other written (.inl allocated) rfl)
  | outcome written awaiting outcome =>
    exact .inr (h.other written (.inr awaiting) outcome.only.content.id)

/-- A guarded row stays so while nothing is found, committed or transmitted. -/
theorem Guarded.keep {log' : Log} {w' : World} (h : Guarded row log w)
    (documents : w'.documents = w.documents)
    (written : (progress log').written = (progress log).written)
    (found : (progress log').found = (progress log).found)
    (read : ∀ seen, Read log' seen → Read log seen ∨ seen ∈ w.documents.rows)
    (posted : ∀ connection route file, Posted log' connection route file →
      Posted log connection route file) : Guarded row log' w' := by
  refine ⟨by rw [documents]; exact h.present, fun fresh => ?_, fun d last => ?_, fun same => ?_⟩
  · obtain ⟨member, known, unsent⟩ := h.fresh (written ▸ fresh)
    refine ⟨by rw [documents]; exact member, fun seen shown id => ?_,
      fun connection route file sent => unsent _ _ _ (posted _ _ _ sent)⟩
    rcases read seen shown with old | present
    · exact known seen old id
    · exact DocumentTable.eq_of_id present member id
  · exact h.settled d (written ▸ last)
  · obtain ⟨own, unsent⟩ := h.silent (found ▸ same)
    exact ⟨fun d last => own d (written ▸ last),
      fun connection route file sent => unsent _ _ _ (posted _ _ _ sent)⟩

/-- A commit that spares the row guards it. -/
theorem Guarded.commit {write : Write} {next : DocumentTable} {log' : Log} {w' : World}
    (h : Guarded row log w) (spares : Spares row log write)
    (done : commit w.documents [write] = .ok next) (documents : w'.documents = next)
    (written : (progress log').written = some write.doc)
    (found : (progress log').found = (progress log).found)
    (posted : ∀ connection route file, Posted log' connection route file →
      Posted log connection route file) : Guarded row log' w' := by
  obtain ⟨now, member, same, content⟩ := h.present
  have not_fresh : (progress log').written = none → False := fun none =>
    absurd (written.symm.trans none) nofun
  cases spares with
  | other id unfound =>
    obtain ⟨row', present, same', content'⟩ := commit_keeps
      (P := fun row' => SameContent row.toEcfDocument row'.toEcfDocument) done member content
      fun old d time among target => by
        rw [← List.mem_singleton.mp among] at id
        exact absurd (target.trans same) id
    refine ⟨⟨row', by rw [documents]; exact present, same'.trans same, content'⟩,
      fun none => (not_fresh none).elim, fun d last target => ?_, fun last => ?_⟩
    · rw [written] at last
      exact absurd (by rw [Option.some.inj last]; exact target) id
    · rw [found] at last
      exact absurd last unfound
  | settled content' state =>
    obtain ⟨row', present, same', content''⟩ := commit_keeps
      (P := fun row' => SameContent row.toEcfDocument row'.toEcfDocument) done member content
      fun old d time among target => by
        rw [← List.mem_singleton.mp among] at content'
        exact content'
    refine ⟨⟨row', by rw [documents]; exact present, same'.trans same, content''⟩,
      fun none => (not_fresh none).elim, fun d last target => ?_, fun last => ⟨fun d own => ?_, ?_⟩⟩
    · rw [written] at last
      rw [← Option.some.inj last]
      exact state
    · rw [written] at own
      rw [← Option.some.inj own]
      exact content'.id
    · rw [found] at last
      exact fun connection route file sent => (h.silent last).2 _ _ _ (posted _ _ _ sent)

/-- One answer to a submission brings evidence, or guards the row. -/
theorem Guarded.step {recorded : ℕ} (h : Guarded row log w) (spoke : ∀ e ∈ log, Says ext e)
    (known : Recorded row recorded) (state : Unconfirmed row.state)
    (permitted : SubmitAsks ext services req log r) :
    Cleared ext (log ++ [⟨r, (answerAt ext input w r).1⟩]) row ∨
      Guarded row (log ++ [⟨r, (answerAt ext input w r).1⟩]) (answerAt ext input w r).2 := by
  have posted : ∀ connection route file, Posted (log ++ [⟨r, (answerAt ext input w r).1⟩])
      connection route file → Posted log connection route file ∨
        ∃ client token xml, r = .post client route token xml file := fun _ _ _ sent =>
    (posted_append.mp sent).imp_right fun ⟨client, token, xml, same⟩ =>
      ⟨client, token, xml, congrArg Event.request same⟩
  have read : ∀ seen, Read (log ++ [⟨r, (answerAt ext input w r).1⟩]) seen →
      Read log seen ∨ seen ∈ w.documents.rows := fun seen shown =>
    (read_append.mp shown).imp_right revealed_mem
  have written : (∀ writes, r ≠ .saveChanges writes) →
      (progress (log ++ [⟨r, (answerAt ext input w r).1⟩])).written = (progress log).written := by
    intro commits
    rw [progress_append, after_written commits]
  have quiet : (∀ tenant txn amb, r ≠ .documentBySourceTxnId tenant txn amb) →
      (∀ writes, r ≠ .saveChanges writes) →
      (∀ client route token xml file, r ≠ .post client route token xml file) →
      Guarded row (log ++ [⟨r, (answerAt ext input w r).1⟩]) (answerAt ext input w r).2 := by
    intro finds commits posts
    refine h.keep (documents_of_other commits) (written commits) ?_ read
      fun connection route file sent => (posted connection route file sent).resolve_right
        fun ⟨_, _, _, eq⟩ => posts _ _ _ _ _ eq
    rw [progress_append, after_found finds]
  cases permitted with
  | @save t write target staged writes =>
    have unsent : ∀ connection route file, Posted (log ++ [⟨.saveChanges [write],
        (answerAt ext input w (.saveChanges [write])).1⟩]) connection route file →
        Posted log connection route file := fun connection route file sent =>
      (posted connection route file sent).resolve_right fun ⟨_, _, _, eq⟩ => nomatch eq
    rcases answer_saveChanges ext input w [write] with ⟨⟨e, failed⟩, same⟩ | ⟨ok, done⟩
    · refine .inr (h.keep (by rw [same]) ?_ ?_ read unsent) <;>
      · rw [progress_append, failed]
        rfl
    · rcases h.write spoke known state writes done with cleared | spares
      · exact .inl cleared.append
      · refine .inr (h.commit spares done rfl ?_ ?_ unsent) <;>
        · rw [progress_append, ok]
          rfl
  | @transmit client route token xml d committed awaiting once payload =>
    have unfound : (progress log).found ≠ some row := fun found =>
      (h.settled d committed ((h.silent found).1 d committed)).2 awaiting
    refine .inr ⟨h.present, fun none => ?_, ?_, ?_⟩
    · rw [progress_append] at none
      exact absurd (committed.symm.trans none) nofun
    · intro d last
      rw [progress_append] at last
      exact h.settled d last
    · intro found
      rw [progress_append] at found
      exact absurd found unfound
  | lookup target fresh =>
    obtain ⟨member, known, unsent⟩ := h.fresh fresh.2
    have written := (written nofun).trans fresh.2
    refine .inr ⟨h.present, fun _ => ⟨member, fun seen shown id => ?_, fun _ _ _ sent => ?_⟩,
      fun d last => absurd (written.symm.trans last) nofun, fun _ =>
        ⟨fun d last => absurd (written.symm.trans last) nofun, fun _ _ _ sent => ?_⟩⟩
    · rcases read seen shown with old | present
      · exact known seen old id
      · exact DocumentTable.eq_of_id present member id
    all_goals exact unsent _ _ _ ((posted _ _ _ sent).resolve_right fun ⟨_, _, _, eq⟩ => nomatch eq)
  | @outside r outside =>
    refine .inr (quiet ?_ ?_ ?_)
    · rintro _ _ _ rfl
      exact outside.elim
    · rintro _ rfl
      exact outside.elim
    · rintro _ _ _ _ _ rfl
      exact outside.elim
  | reservation => exact .inr (quiet nofun nofun nofun)
  | allocate => exact .inr (quiet nofun nofun nofun)
  | release => exact .inr (quiet nofun nofun nofun)

/-! ## Sessions of submissions -/

/-- What a finished submission did with a row whose transmission is
unconfirmed: it had evidence, or it left number, XML and signed XML as they were
and, where it is the row it found, transmitted nothing. -/
def Resent (ext : Externals) (e : Episode SubmitRequest Api Unit World)
    (row : EcfDocumentRow) : Prop :=
  Cleared ext e.run.log row ∨
    (∃ row' ∈ e.run.world.documents.rows, row'.id = row.id ∧ row'.eNcf = row.eNcf ∧
      row'.xmlContent = row.xmlContent ∧ row'.signedXmlContent = row.signedXmlContent) ∧
    ((progress e.run.log).found = some row →
      ∀ connection route file, ¬ Posted e.run.log connection route file)

/-- One submission, run to its end or killed. -/
theorem resent_of_run {inputs : ℕ → Option Input} (stamped : Stamped w)
    (spoke : ∀ e ∈ ((host ext).run inputs w [] (submit ext services req)).log, Says ext e) :
    Stamped ((host ext).run inputs w [] (submit ext services req)).world ∧
      ∀ row ∈ w.documents.rows, Unconfirmed row.state →
        Resent ext ⟨req, w, (host ext).run inputs w [] (submit ext services req)⟩ row := by
  have along : Along (fun _ e => Says ext e)
      ((host ext).run inputs w [] (submit ext services req)).log := fun before e cut =>
    spoke e (cut.subset (List.mem_append_right _ (List.mem_singleton_self e)))
  have unseen : ∀ e, e ∉ ([] : Log) := fun e => List.not_mem_nil
  constructor
  · refine (Host.run_keeps (J := Ticking) ?_ (submit_follows ext services req)
      ⟨stamped, fun time member => absurd member (unseen _)⟩).1.stamped
    intro log w r input permitted h
    refine Ticking.step (w := { w with clock := w.clock + input.elapsed })
      ⟨⟨?_, h.stamped.rows⟩, h.seen⟩ permitted
    have clock := h.stamped.clock
    dsimp only
    omega
  · intro row member state
    obtain ⟨recorded, known⟩ := stamped.rows row member state
    have start : Guarded row [] w :=
      ⟨⟨row, member, rfl, ⟨rfl, rfl, rfl, rfl, rfl⟩⟩,
        fun _ => ⟨member, fun seen read => absurd read.choose_spec.1 (unseen _),
          fun _ _ _ sent => absurd sent.choose_spec.choose_spec.choose_spec (unseen _)⟩,
        (fun _ last => nomatch last), (fun found => nomatch found)⟩
    have run := (Host.run_sound (J := fun log (w : World) => (∀ e ∈ log, Says ext e) ∧
      (Cleared ext log row ∨ Guarded row log w)) ?_ (submit_follows ext services req)
      ⟨fun e among => absurd among (unseen e), .inr start⟩ along).1.2
    · rcases run with cleared | guarded
      · exact .inl cleared
      · obtain ⟨row', present, same, content⟩ := guarded.present
        exact .inr ⟨⟨row', present, same, content.eNcf, content.xmlContent,
          content.signedXmlContent⟩, fun found => (guarded.silent found).2⟩
    · rintro log w r input permitted ⟨heard, holds⟩ spoken
      refine ⟨fun e among => ?_, ?_⟩
      · rcases List.mem_append.mp among with old | new
        · exact heard e old
        · rw [List.mem_singleton.mp new]
          exact spoken
      · rcases holds with cleared | guarded
        · exact .inl cleared.append
        · exact Guarded.step (w := { w with clock := w.clock + input.elapsed })
            ⟨guarded.present, guarded.fresh, guarded.settled, guarded.silent⟩ heard known state
            permitted

/-- **Uncertain documents are re-sent only on positive evidence.** In every
session of submissions in which no status query is answered with a blank estado,
each submission treats every document that is Uncertain or AwaitingTransmission
as `Resent` says. -/
theorem resent_only_on_evidence (ext : Externals) (services : Services) {w₀ w : World}
    {past : List (Episode SubmitRequest Api Unit World)} (initial : Stamped w₀)
    (session : Session (host ext) (submit ext services) w₀ past w)
    (spoke : ∀ e ∈ past, ∀ event ∈ e.run.log, Says ext event) :
    ∀ e ∈ past, ∀ row ∈ e.before.documents.rows, Unconfirmed row.state → Resent ext e row :=
  (Session.episodes (C := fun e => ∀ event ∈ e.run.log, Says ext event)
    (Q := fun e => ∀ row ∈ e.before.documents.rows, Unconfirmed row.state → Resent ext e row)
    (fun _ _ _ stamped spoke => resent_of_run stamped spoke) initial session spoke).2

/-- Every step answered alike, the first one after five minutes. -/
def lateInputs (text : String) (n : ℕ) : Option Input :=
  some { answering text with elapsed := if n = 0 then 300 * second else 0 }

/-- A submission run alone, five minutes after the last step. -/
def later (text : String) (w : World) : Run Api Unit World :=
  (host sampleExternals).run (lateInputs text) w []
    (submit sampleExternals sampleServices sampleRequest)

/-- A document whose transmission had no answer. -/
def uncertainWorld : World := (later "" sampleWorld).world

/-- The estados DGII has answered with. -/
def estados (log : Log) : List String := log.filterMap fun e =>
  match e with
  | ⟨.get _ _ (.estado ..), answer⟩ => some (estadoOf sampleExternals answer)
  | _ => none

/-- The files transmitted. -/
def transmissions (log : Log) : List EcfFileName := log.filterMap fun e =>
  match e with
  | ⟨.post _ _ _ _ file, _⟩ => some file
  | _ => none

theorem spoke_of_estados {log : Log} (h : (estados log).all (fun s => trim s ≠ "") = true) :
    ∀ e ∈ log, Says sampleExternals e := by
  rintro e member client token rncEmisor eNcf rncComprador codigo answer rfl -
  have among : estadoOf sampleExternals answer ∈ estados log :=
    List.mem_filterMap.mpr ⟨_, member, rfl⟩
  simpa using List.all_eq_true.mp h _ among

/-- The submission without an answer, and the same one again. -/
theorem resubmission : Session (host sampleExternals) (submit sampleExternals sampleServices)
    sampleWorld [⟨sampleRequest, sampleWorld, later "" sampleWorld⟩,
      ⟨sampleRequest, uncertainWorld, later "No encontrado" uncertainWorld⟩]
    (later "No encontrado" uncertainWorld).world :=
  .operate sampleRequest (lateInputs "No encontrado")
    (.operate sampleRequest (lateInputs "") .start)

/-- DGII does not know the eNCF: the document is sent again, on evidence. -/
theorem resent_only_on_evidence_sample :
    (estados (later "No encontrado" uncertainWorld).log,
      transmissions (later "No encontrado" uncertainWorld).log) =
      (["No encontrado"], [⟨"101672919", "E310000000001"⟩]) ∧
    ∀ row ∈ uncertainWorld.documents.rows, Unconfirmed row.state →
      Resent sampleExternals ⟨sampleRequest, uncertainWorld, later "No encontrado" uncertainWorld⟩
        row := by
  refine ⟨by decide +kernel, resent_only_on_evidence sampleExternals sampleServices
    ⟨by decide, fun _ member => absurd member List.not_mem_nil⟩ resubmission ?_ _
    (List.mem_cons_of_mem _ (List.mem_singleton_self _))⟩
  intro e member
  rcases List.mem_cons.mp member with rfl | member
  · exact spoke_of_estados (by decide +kernel)
  · rw [List.mem_singleton.mp member]
    exact spoke_of_estados (by decide +kernel)

/-- DGII answers the status query with an empty page: the document is sent
again all the same. -/
theorem blank_estado_resends :
    (uncertainWorld.documents.rows.map (·.state), estados (later "" uncertainWorld).log,
      transmissions (later "" uncertainWorld).log) =
    (["Uncertain"], [""], [⟨"101672919", "E310000000001"⟩]) := by
  decide +kernel

end EcfDgii.UncertainDocuments
