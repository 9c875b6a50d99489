import Mathlib.Data.List.Pairwise
import Mathlib.Logic.Relation
import EcfDgii.DocumentInvariants
import EcfDgii.SequenceNumbers

/-!
Fiscal numbers across documents (`DocumentsController::submit`).

DGII knows an issuer by the digits of its RNC.  The unique index compares the
text of the column, and the sequence rows are kept by tenant: two tenants that
spell one issuer differently, one with hyphens, may be issued the same number,
and both documents are stored and transmitted.

`FiscalNumbersUnique` is the guarantee, and `WritesApart` the condition on each
write under which it holds: no document of the same issuer under another
spelling carries a number of the ranges of the writer's tenant.  Documents of
one spelling are kept apart by the index, the others by the ranges their numbers
come from (`MayIssue`), which every document of a run obeys.
-/

set_option autoImplicit false

namespace EcfDgii.FiscalNumbers

open EcfDgii.Text EcfDgii.Documents EcfDgii.Tables EcfDgii.Programs EcfDgii.Execution
open EcfDgii.Engine EcfDgii.Transmission EcfDgii.Submission EcfDgii.Traces EcfDgii.SubmissionTrace
open EcfDgii.SubmissionFollows EcfDgii.StatusTrace EcfDgii.DocumentInvariants EcfDgii.SequenceNumbers

/-! ## The property -/

/-- The event sends a document under its number. -/
def sends (d : EcfDocument) : Event Api → Bool
  | ⟨.post _ _ _ _ file, _⟩ => file = ⟨d.rncEmisor, d.eNcf⟩
  | _ => false

/-- The document went out under its number. -/
def Transmitted (history : History) (d : EcfDocument) : Prop :=
  ∃ e ∈ history, sends d e.2 = true
  deriving Decidable

/-- The same issuer, as DGII compares it. -/
def SameIssuer (a b : EcfDocument) : Prop := cleanDigits a.rncEmisor = cleanDigits b.rncEmisor
  deriving Decidable

/-- **Unique.** No two stored documents that were transmitted carry one number
for one issuer in one ambiente. -/
def FiscalNumbersUnique (p : EnginePool) : Prop :=
  ∀ a ∈ p.world.documents.rows, ∀ b ∈ p.world.documents.rows, a.id ≠ b.id →
    Transmitted p.history a.toEcfDocument → Transmitted p.history b.toEcfDocument →
    a.ambiente = b.ambiente → SameIssuer a.toEcfDocument b.toEcfDocument → a.eNcf ≠ b.eNcf
  deriving Decidable

/-- Submissions under way. -/
def submissions (ext : Externals) (services : Services) (requests : ℕ → SubmitRequest)
    (w : World) : EnginePool :=
  engine ext services (fun t => .submit (requests t)) w

/-! ## The condition -/

/-- The two names of a scope's ambiente: an allocation may rename a row. -/
def Renames (a b : String) : Prop := alternativeScope b = some a

/-- A number that one of the rows of a scope may print. -/
def Printable (rows : List EcfSequence) (scope eNcf : String) : Prop :=
  ∃ s ∈ rows, Relation.ReflTransGen Renames s.tenantId scope ∧
    ∃ n, s.rangoDesde ≤ n ∧ n ≤ s.rangoHasta ∧
      eNcf = { s with secuenciaActual := n }.getCurrentEncfFormatted

/-- The scopes of a tenant in an ambiente. -/
def scopesOf (tenantId ambiente : String) : List String :=
  (tenantId ++ ":" ++ ambiente) ::
    if tenantId = "default-tenant" then ["default-tenant"] else []

/-- A number that the tenant may be issued in the ambiente. -/
def MayIssue (rows : List EcfSequence) (tenantId ambiente eNcf : String) : Prop :=
  ∃ scope ∈ scopesOf tenantId ambiente, Printable rows scope eNcf

/-- The same issuer in the same ambiente, under another spelling. -/
def SpelledDifferently (a b : EcfDocument) : Prop :=
  a.ambiente = b.ambiente ∧ SameIssuer a b ∧ a.rncEmisor ≠ b.rncEmisor
  deriving Decidable

/-- The documents a request writes. -/
def writtenBy : Request → List EcfDocument
  | .saveChanges writes => writes.map Write.doc
  | _ => []

/-- **The condition.** A document is written only while no other document of its
issuer under another spelling carries a number its tenant may be issued. -/
def WritesApart (rows : List EcfSequence) (p : EnginePool) (m : Move Input) : Prop :=
  p.Next (fun _ r => ∀ d ∈ writtenBy r, ∀ row ∈ p.world.documents.rows, row.id ≠ d.id →
    SpelledDifferently row.toEcfDocument d → ∀ ambiente, d.ambiente = some ambiente →
      ¬ MayIssue rows d.tenantId ambiente row.eNcf) m

/-! ## The numbers of a run -/

variable {ext : Externals} {services : Services} {rows : List EcfSequence} {w : World} {i : Input}
  {r : Request} {scope tipo encf : String}

/-- A row as it was at first, but for its scope and its current number. -/
def Origin (rows : List EcfSequence) (s : EcfSequence) : Prop :=
  ∃ s₀ ∈ rows, s = { s₀ with tenantId := s.tenantId, secuenciaActual := s.secuenciaActual } ∧
    Relation.ReflTransGen Renames s₀.tenantId s.tenantId

theorem Origin.counted {s : EcfSequence} (h : Origin rows s) (n : ℤ) :
    Origin rows { s with secuenciaActual := n } := by
  obtain ⟨s₀, member, same, renamed⟩ := h
  exact ⟨s₀, member, by rw [same], renamed⟩

/-- The row an allocation finds is one of its scope, as it was at first. -/
theorem sequenceFor_origin {seq : EcfSequence} (origins : ∀ s ∈ w.sequences, Origin rows s)
    (found : sequenceFor scope tipo w.sequences = .ok seq) :
    Origin rows seq ∧ seq.tenantId = scope := by
  have active : ∀ {name : String} {s : EcfSequence},
      activeSequence name tipo w.sequences = some s → s ∈ w.sequences ∧ s.tenantId = name := by
    intro name s active
    have matched := List.find?_some active
    simp only [Bool.and_eq_true, decide_eq_true_eq] at matched
    exact ⟨(activeSequence_mem active).1, matched.1.1⟩
  unfold sequenceFor at found
  split at found
  · next here =>
    cases found
    exact ⟨origins _ (active here).1, (active here).2⟩
  · split at found
    · next s here =>
      obtain ⟨other, named, here⟩ := Option.bind_eq_some_iff.mp here
      split at found
      · cases found
      · cases found
        obtain ⟨member, same⟩ := active here
        obtain ⟨s₀, first, eq, renamed⟩ := origins _ member
        refine ⟨⟨s₀, first, by rw [eq], renamed.tail ?_⟩, rfl⟩
        rw [same]
        exact named
    · cases found

/-- The next number is in the range of the row. -/
theorem issueNext_range {time : ℕ} {seq next : EcfSequence} (issued : issueNext time tipo seq = .ok next) :
    seq.rangoDesde ≤ next.secuenciaActual ∧ next.secuenciaActual ≤ seq.rangoHasta ∧
      next = { seq with secuenciaActual := next.secuenciaActual } := by
  simp only [issueNext] at issued
  repeat' split at issued
  all_goals cases issued
  refine ⟨?_, ?_, rfl⟩
  · dsimp only
    omega
  · dsimp only
    omega

/-- **An allocation.** It prints a number of the ranges of its scope, and leaves
the rows as they were at first, but for scopes and current numbers. -/
theorem getNextEncf_printable {time : ℕ} {rows' : List EcfSequence}
    (origins : ∀ s ∈ w.sequences, Origin rows s)
    (done : getNextEncf time scope tipo w.sequences = .ok (encf, rows')) :
    Printable rows scope encf ∧ ∀ s ∈ rows', Origin rows s := by
  rw [getNextEncf_eq] at done
  unfold nextSequence at done
  cases found : sequenceFor scope tipo w.sequences with
  | error e =>
    rw [found] at done
    cases done
  | ok seq =>
    rw [found] at done
    dsimp only at done
    cases issued : issueNext time tipo seq with
    | error e =>
      rw [issued] at done
      cases done
    | ok next =>
      rw [issued] at done
      cases done
      obtain ⟨origin, same⟩ := sequenceFor_origin origins found
      obtain ⟨above, below, eq⟩ := issueNext_range issued
      have stays : Origin rows next := eq ▸ origin.counted _
      refine ⟨?_, fun s member => ?_⟩
      · obtain ⟨s₀, first, eq₀, renamed⟩ := origin
        refine ⟨s₀, first, same ▸ renamed, next.secuenciaActual, ?_, ?_, ?_⟩
        · rw [eq₀] at above
          exact above
        · rw [eq₀] at below
          exact below
        · rw [eq, eq₀]
          rfl
      · obtain ⟨old, among, rfl⟩ := List.mem_map.mp member
        split
        · exact stays
        · exact origins old among

/-- A release leaves them so too. -/
theorem releaseUnusedEncf_origins (origins : ∀ s ∈ w.sequences, Origin rows s) :
    ∀ s ∈ releaseUnusedEncf scope tipo encf w.sequences, Origin rows s := by
  intro s member
  rw [releaseUnusedEncf_eq] at member
  obtain ⟨old, among, rfl⟩ := List.mem_map.mp member
  split
  · exact (origins old among).counted _
  · exact origins old among

/-- What the host answers: numbers of the scope's ranges, and rows that match. -/
def Shown (rows : List EcfSequence) : Event Api → Prop
  | ⟨.getNextEncf scope _, .ok encf⟩ => Printable rows scope encf
  | ⟨.documentBySourceTxnId tenantId sourceTxnId ambiente, .ok (some row)⟩ =>
    matchesSource tenantId sourceTxnId ambiente row = true
  | _ => True

/-- **One answer.** -/
theorem answer_shown (ext : Externals) (i : Input) (r : Request)
    (origins : ∀ s ∈ w.sequences, Origin rows s) :
    (∀ s ∈ (answerAt ext i w r).2.sequences, Origin rows s) ∧
      Shown rows ⟨r, (answerAt ext i w r).1⟩ := by
  cases r with
  | getNextEncf scope tipo =>
    simp only [answerAt, Input.database]
    split
    · exact ⟨origins, trivial⟩
    · next encf sequences done =>
      have ok : getNextEncf w.clock scope tipo w.sequences = .ok (encf, sequences) := by
        split at done
        · cases done
        · exact done
      obtain ⟨printable, kept⟩ := getNextEncf_printable origins ok
      exact ⟨kept, printable⟩
  | documentBySourceTxnId tenantId sourceTxnId ambiente =>
    refine ⟨origins, ?_⟩
    unfold Shown
    split
    · next same => cases same
    · next row same =>
      obtain ⟨rfl, rfl, rfl⟩ := Request.documentBySourceTxnId.inj (Event.mk.inj same).1
      have answer := eq_of_heq (Event.mk.inj same).2
      have shown : row ∈ answered (i.database (.ok (getBySourceTxnId ext.instant i.pick tenantId
          sourceTxnId ambiente w.documents))) := by
        rw [show i.database _ = _ from answer]
        exact List.mem_singleton_self row
      exact (getBySourceTxnId_mem (answered_database shown)).2
    · trivial
  | releaseUnusedEncf scope tipo encf =>
    refine ⟨?_, trivial⟩
    simp only [answerAt]
    split
    · exact origins
    · exact releaseUnusedEncf_origins origins
  | saveChanges writes =>
    refine ⟨?_, trivial⟩
    simp only [answerAt]
    split <;> exact origins
  | idempotency statement =>
    refine ⟨?_, trivial⟩
    cases statement <;> simp only [answerAt, idempotencyAnswer] <;> repeat' split
    all_goals exact origins
  | _ => exact ⟨origins, trivial⟩

/-- On every schedule. -/
theorem meets_shown {operations : ℕ → Operation} (moves : List (Move Input))
    (origins : ∀ s ∈ w.sequences, Origin rows s) :
    (engine ext services operations w).Meets (host ext) (Each ext fun _ _ e => Shown rows e)
      moves := by
  refine Pool.Meets.strengthen (J := fun p : EnginePool => ∀ s ∈ p.world.sequences, Origin rows s)
    ?_ ?_ origins (Pool.meets_true _ moves)
  · rintro p (⟨t, i⟩ | t) kept -
    · rcases Pool.move_world (host ext) p (.step t i) with same | ⟨t', i', r, next, -, -, same⟩
      · rwa [same]
      · rw [same]
        exact (answer_shown (w := { p.world with clock := p.world.clock + i'.elapsed }) ext i' r
          kept).1
    · exact kept
  · rintro p (⟨t, i⟩ | t) kept -
    · rintro ⟨r, x⟩ happens
      obtain ⟨next, -, rfl⟩ := Pool.nextEvent_some happens
      exact (answer_shown (w := { p.world with clock := p.world.clock + i.elapsed }) ext i r
        kept).2
    · trivial

/-! ## The law of the documents -/

variable {history : History} {log : Log} {d d' : EcfDocument} {req : SubmitRequest}
  {t : SubmissionTarget}

/-- The operations of a run of submissions. -/
def Submits : Operation → Prop
  | .submit _ => True
  | _ => False

/-- A document carries a number of its tenant's ranges, in its ambiente. -/
def Numbered (rows : List EcfSequence) (_ : History) (d : EcfDocument) : Prop :=
  ∃ ambiente, d.ambiente = some ambiente ∧ MayIssue rows d.tenantId ambiente d.eNcf

theorem Numbered.same (h : Numbered rows history d) (tenant : d'.tenantId = d.tenantId)
    (ambiente : d'.ambiente = d.ambiente) (number : d'.eNcf = d.eNcf) :
    Numbered rows history d' := by
  unfold Numbered at h ⊢
  rwa [tenant, ambiente, number]

theorem Numbered.status (h : Numbered rows history d) (only : OnlyStatus d d') :
    Numbered rows history d' := by
  unfold OnlyStatus at only
  rw [only]
  exact h.same rfl rfl rfl

/-- The scope of a submission is one of its tenant's. -/
theorem scopeOf_mem (target : resolveTarget services req = .ok t) :
    scopeOf t ∈ scopesOf t.tenantId (ambienteToString t.ambiente) := by
  have default : t.isDefaultFallback = true → t.tenantId = "default-tenant" := by
    intro fallback
    obtain ⟨submitted, body, passed, tenant, ambiente⟩ := resolveTarget_ok target
    simp only [resolveTarget, body, passed, tenant, ambiente, bind, Except.bind,
      Except.ok.injEq] at target
    have decided := (congrArg SubmissionTarget.isDefaultFallback target).trans fallback
    simp only [Bool.and_eq_true, decide_eq_true_eq] at decided
    exact decided.1.1.1
  unfold scopeOf sequenceScope scopesOf
  by_cases fallback : t.isDefaultFallback = true
  · rw [if_pos fallback, if_pos (default fallback)]
    exact List.mem_cons_of_mem _ (List.mem_singleton_self _)
  · rw [if_neg fallback]
    exact List.mem_cons_self

/-- A number issued to a submission is one its tenant may be issued. -/
theorem mayIssue_of_issued (target : resolveTarget services req = .ok t)
    (along : Along (fun _ e => Shown rows e) log) {eNcf : String}
    (issued : SubmissionTrace.Issued t log eNcf) :
    MayIssue rows t.tenantId (ambienteToString t.ambiente) eNcf := by
  obtain ⟨before, -, shown⟩ := along.of_mem issued
  exact ⟨scopeOf t, scopeOf_mem target, shown⟩

/-- The row a submission finds is its tenant's, and of its ambiente if of any. -/
theorem found_matches (target : resolveTarget services req = .ok t)
    (asked : Along (fun before e => Asks ext services (.submit req) before e.request) log)
    (along : Along (fun _ e => Shown rows e) log) {row : EcfDocumentRow}
    (found : (progress log).found = some row) :
    row.tenantId = t.tenantId ∧
      (row.ambiente = none ∨ row.ambiente = some (ambienteToString t.ambiente)) := by
  obtain ⟨tenantId, sourceTxnId, ambiente, member⟩ := answered_of_found found
  obtain ⟨_, -, asks⟩ := asked.of_mem member
  obtain ⟨_, -, shown⟩ := along.of_mem member
  have named : ambienteToString t.ambiente ≠ "" := by
    cases t.ambiente <;> decide
  cases asks with
  | outside h => exact h.elim
  | lookup target' fresh =>
    obtain rfl := Except.ok.inj (target.symm.trans target')
    simp only [Shown, matchesSource, Bool.and_eq_true, Bool.or_eq_true, decide_eq_true_eq] at shown
    refine ⟨shown.1.1, ?_⟩
    rcases shown.2 with (blank | none') | same
    · exact absurd blank named
    · exact .inl none'
    · exact .inr same

/-- **Numbers stay in their ranges.** -/
theorem numbered_lawful (rows : List EcfSequence) :
    Lawful ext services Submits (fun _ _ e => Shown rows e) (Numbered rows) where
  mono _ _ _ h := h
  writes op log history writes write obeys _ h := by
    cases h with
    | poll => exact obeys.kind.elim
    | status => exact obeys.kind.elim
    | reconcile => exact obeys.kind.elim
    | @submit req t log write target h =>
      have written := fun d => obeys.written (d := d) List.prefix_rfl
      have read := fun {row} found => obeys.read row (read_of_found found)
      cases h with
      | create fresh uuid issued =>
        exact ⟨_, rfl, mayIssue_of_issued target obeys.along issued⟩
      | @refresh row at' time found fresh allowed => exact (read found).same rfl rfl rfl
      | @reissue row eNcf at' time found fresh state issued =>
        obtain ⟨tenant, ambiente⟩ := found_matches target obeys.asked obeys.along found
        obtain ⟨_, named, -⟩ := read found
        have ambiente := ambiente.resolve_left fun none' => nomatch none'.symm.trans named
        refine ⟨_, ambiente, ?_⟩
        change MayIssue rows row.tenantId _ eNcf
        rw [tenant]
        exact mayIssue_of_issued target obeys.along issued
      | @reconcile row d answer time found fresh state only =>
        have same : Numbered rows history d := (read found).status only
        dsimp only [Write.doc]
        rw [reconciled_only]
        exact same.same rfl rfl rfl
      | signingFailed last state failed => exact (written _ last).same rfl rfl rfl
      | schemaInvalid last state made => exact (written _ last).same rfl rfl rfl
      | unsigned last state => exact (written _ last).same rfl rfl rfl
      | awaiting last state made => exact (written _ last).same rfl rfl rfl
      | outcome last state outcome =>
        dsimp only [Write.doc]
        exact (written _ last).status outcome.only

/-! ## Every run -/

variable {p : EnginePool} {a b : EcfDocumentRow} {table next : DocumentTable} {write : Write}

/-- No two documents have one number for one issuer in one ambiente. -/
def Distinct (table : DocumentTable) : Prop :=
  ∀ a ∈ table.rows, ∀ b ∈ table.rows, a.id ≠ b.id → a.ambiente = b.ambiente →
    SameIssuer a.toEcfDocument b.toEcfDocument → a.eNcf ≠ b.eNcf

/-- The unique index, for two rows of one spelling. -/
theorem eNcf_ne_of_index (ha : a ∈ table.rows) (hb : b ∈ table.rows) (other : a.id ≠ b.id)
    {ambiente : String} (na : a.ambiente = some ambiente) (nb : b.ambiente = some ambiente)
    (same : a.rncEmisor = b.rncEmisor) : a.eNcf ≠ b.eNcf := by
  intro number
  refine other (congrArg (·.id) (eq_of_key (k := (a.rncEmisor, ambiente, a.eNcf)) table.fiscals
    ha hb ?_ ?_))
  · rw [fiscalKey, na]
    rfl
  · rw [fiscalKey, nb, same, number]
    rfl

/-- The document just written, against one that was there. -/
theorem eNcf_ne_of_written
    (numbered : ∀ row ∈ next.rows, Numbered rows history row.toEcfDocument)
    (apart : ∀ row ∈ table.rows, row.id ≠ write.doc.id →
      SpelledDifferently row.toEcfDocument write.doc → ∀ ambiente,
        write.doc.ambiente = some ambiente → ¬ MayIssue rows write.doc.tenantId ambiente row.eNcf)
    (ha : a ∈ next.rows) (wrote : Wrote a write) (hb : b ∈ next.rows) (old : b ∈ table.rows)
    (other : a.id ≠ b.id) (ambiente : a.ambiente = b.ambiente)
    (issuer : SameIssuer a.toEcfDocument b.toEcfDocument) : a.eNcf ≠ b.eNcf := by
  obtain ⟨named, at', issued⟩ := numbered a ha
  by_cases spelling : a.rncEmisor = b.rncEmisor
  · exact eNcf_ne_of_index ha hb other at' (ambiente.symm.trans at') spelling
  · intro number
    have doc := wrote.doc
    rw [← doc] at apart
    refine apart b old other.symm ⟨ambiente.symm, issuer.symm, fun same => spelling same.symm⟩ named
      at' ?_
    rwa [← number]

/-- **Step.** A commit that meets the condition keeps the documents distinct. -/
theorem Distinct.commit (distinct : Distinct table) (done : commit table [write] = .ok next)
    (numbered : ∀ row ∈ next.rows, Numbered rows history row.toEcfDocument)
    (apart : ∀ row ∈ table.rows, row.id ≠ write.doc.id →
      SpelledDifferently row.toEcfDocument write.doc → ∀ ambiente,
        write.doc.ambiente = some ambiente → ¬ MayIssue rows write.doc.tenantId ambiente row.eNcf) :
    Distinct next := by
  have wrote : ∀ row ∈ next.rows, row ∈ table.rows ∨ Wrote row write := by
    intro row member
    rcases mem_commit done member with old | ⟨w, among, wrote⟩
    · exact .inl old
    · exact .inr (List.mem_singleton.mp among ▸ wrote)
  intro a ha b hb other ambiente issuer
  rcases wrote a ha with oldA | newA
  · rcases wrote b hb with oldB | newB
    · exact distinct a oldA b oldB other ambiente issuer
    · exact (eNcf_ne_of_written numbered apart hb newB ha oldA other.symm ambiente.symm
        issuer.symm).symm
  · rcases wrote b hb with oldB | newB
    · exact eNcf_ne_of_written numbered apart ha newA hb oldB other ambiente issuer
    · exact absurd (congrArg EcfDocument.id (newA.doc.trans newB.doc.symm)) other

/-- The invariant of a run of submissions. -/
abbrev RunsNumbered (ext : Externals) (services : Services) (rows : List EcfSequence)
    (p : EnginePool) : Prop :=
  Sound ext services Submits (fun _ _ e => Shown rows e) (Numbered rows) p ∧
    Distinct p.world.documents

/-- **Step.** -/
theorem runsNumbered_move {m : Move Input} (kept : RunsNumbered ext services rows p)
    (shown : Each ext (fun _ _ e => Shown rows e) p m) (apart : WritesApart rows p m) :
    RunsNumbered ext services rows (p.move (host ext) m) := by
  obtain ⟨sound, distinct⟩ := kept
  have after := (numbered_lawful rows).move m sound shown
  refine ⟨after, ?_⟩
  rcases Pool.move_world (host ext) p m with same | ⟨t, i, r, next, rfl, rest, same⟩
  · rwa [same]
  · have numbered := after.world
    rw [same] at numbered ⊢
    by_cases commits : ∃ writes, r = .saveChanges writes
    · obtain ⟨writes, rfl⟩ := commits
      rcases answer_saveChanges ext i { p.world with clock := p.world.clock + i.elapsed } writes with
        ⟨-, unchanged⟩ | ⟨-, done⟩
      · change Distinct (answerAt ext i _ _).2.documents
        rw [unchanged]
        exact distinct
      · have permitted := sound.follows t
        rw [rest, follows_logging_ask] at permitted
        have kind := (sound.threads t).kind
        cases op : (p.thread t).operation with
        | submit req =>
          rw [op] at permitted
          cases permitted.1 with
          | outside h => exact h.elim
          | save target staged h =>
            refine distinct.commit done numbered fun row member other => ?_
            exact Pool.Next.ask apart rest _ (List.mem_singleton_self _) row member other
        | _ =>
          rw [op] at kind
          exact kind.elim
    · have unchanged : ∀ r : Request, (∀ writes, r ≠ .saveChanges writes) →
          (answerAt ext i { p.world with clock := p.world.clock + i.elapsed } r).2.documents =
            p.world.documents := fun r other => documents_of_other other
      change Distinct (answerAt ext i _ _).2.documents
      rw [unchanged _ fun writes eq => commits ⟨writes, eq⟩]
      exact distinct

/-- **Unique.** In every schedule of any number of submissions by any tenants,
over any sequence rows, from no documents, whose writes all meet the condition,
no two transmitted documents have one number for one issuer in one ambiente. -/
theorem fiscal_numbers_unique (ext : Externals) (services : Services)
    (requests : ℕ → SubmitRequest) (w : World) (moves : List (Move Input))
    (empty : w.documents.rows = [])
    (met : (submissions ext services requests w).Meets (host ext) (WritesApart w.sequences) moves) :
    FiscalNumbersUnique ((submissions ext services requests w).play (host ext) moves) := by
  have origins : ∀ s ∈ w.sequences, Origin w.sequences s := fun s member =>
    ⟨s, member, rfl, .refl⟩
  have start : RunsNumbered ext services w.sequences (submissions ext services requests w) := by
    refine ⟨sound_start (fun _ => trivial) fun row member => ?_, fun row member => ?_⟩
    · rw [empty] at member
      cases member
    · change row ∈ w.documents.rows at member
      rw [empty] at member
      cases member
  have kept := Pool.play_invariant (J := RunsNumbered ext services w.sequences)
    (fun _ _ kept met => runsNumbered_move kept met.1 met.2) start
    ((meets_shown moves origins).and met)
  exact fun a ha b hb other _ _ => kept.2 a ha b hb other

/-! ## Two tenants of one issuer -/

/-- A document of an issuer. -/
def documentOf (rncEmisor : String) : CanonicalDocumentDto :=
  { sampleDocument with header := { sampleDocument.header with rncEmisor := rncEmisor } }

/-- Two tenants that issue for one RNC, each with its spelling. -/
def tenants (casa sucursal : String) : ℕ → SubmitRequest
  | 0 => { tenantId := some "casa", body := .document (documentOf casa) }
  | _ => { tenantId := some "sucursal", body := .document (documentOf sucursal) }

/-- Each has its own row of E31 numbers, from the first. -/
def tenantsWorld : World :=
  { sampleWorld with
    sequences :=
      [{ sampleSequence with tenantId := "casa:PreCertificacion" },
        { sampleSequence with id := 2, tenantId := "sucursal:PreCertificacion" }] }

/-- A submission, every step answered; what it signs is its uuid and signature. -/
def submitted (t : ℕ) (text : String) : List (Move Input) :=
  List.replicate 18
    (.step t { text := text, signer := some sampleSigner, http := { text := "trackId" } })

/-- The submissions of both tenants, one after the other. -/
def bothSubmitted : List (Move Input) := submitted 0 "SIGNATURE-A" ++ submitted 1 "SIGNATURE-B"

/-- The condition, where no issuer is spelled differently. -/
def SpelledAlike (p : EnginePool) (m : Move Input) : Prop :=
  p.Next (fun _ r => ∀ d ∈ writtenBy r, ∀ row ∈ p.world.documents.rows,
    ¬ SpelledDifferently row.toEcfDocument d) m
  deriving Decidable

theorem SpelledAlike.apart {m : Move Input} (alike : SpelledAlike p m) : WritesApart rows p m := by
  cases m with
  | kill t => trivial
  | step t i =>
    intro r asks d among row member _ spelled
    exact absurd spelled (alike r asks d among row member)

/-- Spelled alike, the index refuses the second document of the number. -/
theorem fiscal_numbers_unique_alike :
    FiscalNumbersUnique ((submissions sampleExternals sampleServices
      (tenants "101672919" "101672919") tenantsWorld).play (host sampleExternals) bothSubmitted) :=
  fiscal_numbers_unique sampleExternals sampleServices (tenants "101672919" "101672919")
    tenantsWorld bothSubmitted rfl
    (Pool.Meets.mono (C := SpelledAlike) (fun _ _ alike => alike.apart) (by decide +kernel))

/-- With hyphens, the second is stored and transmitted under the number of the
first. -/
theorem hyphens_share_number :
    ¬ FiscalNumbersUnique ((submissions sampleExternals sampleServices
      (tenants "101672919" "1-01-67291-9") tenantsWorld).play (host sampleExternals)
        bothSubmitted) := by
  decide +kernel

end EcfDgii.FiscalNumbers
