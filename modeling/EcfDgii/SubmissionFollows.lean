import EcfDgii.TransmissionTrace

/-!
`submit` keeps to its permissions.

One specification per procedure, from the reconciliation of an uncertain
document up to the idempotency handler; `submit_follows` at the end is the only
one other modules use.  The procedures below the lookup start from a log in
which the row was found or nothing was, and never look at more of the log than
its `Progress`.
-/

set_option autoImplicit false

namespace EcfDgii.SubmissionFollows

open EcfDgii.Text EcfDgii.Timestamps EcfDgii.Documents EcfDgii.DgiiReplies EcfDgii.Tables
open EcfDgii.Programs EcfDgii.Engine EcfDgii.CanonicalXml EcfDgii.Transport
open EcfDgii.Transmission EcfDgii.Submission EcfDgii.Traces EcfDgii.SubmissionTrace
open EcfDgii.TransportTrace EcfDgii.TransmissionTrace

variable {ext : Externals} {services : Services} {req : SubmitRequest} {log : Log}
  {permits : Log → Request → Prop} {s : Submission} {doc : EcfDocument} {row : EcfDocumentRow}

/-- A procedure of a submission, under no obligation at its end. -/
def Submits {α : Type} (ext : Externals) (services : Services) (req : SubmitRequest) (log : Log)
    (p : Procedure α) : Prop :=
  p.Follows (.logging (SubmitAsks ext services req)) (fun _ _ => True) (fun _ _ => True) log

@[simp] theorem withContent_state (target : SubmissionTarget) (time : ℕ) :
    (withContent ext target time doc).state = "SequenceAllocated" := rfl

/-- The content of a target committed on a document, and nothing sent yet. -/
theorem fresh_of_committed {b : Log} {target : SubmissionTarget} {time : ℕ}
    (committed : Committed log b (withContent ext target time doc))
    (unsent : (progress log).sent = false) : Fresh b (withContent ext target time doc) :=
  ⟨committed.written, rfl, committed.sent.trans unsent⟩

/-! ## Where the target comes from -/

/-- Of a checked document only the type is touched, and it is a valid one. -/
theorem checkDocument_ok {submitted dto : CanonicalDocumentDto}
    (h : checkDocument submitted = .ok dto) :
    dto = { submitted with tipoComprobante := normalizedTipo submitted.tipoComprobante } ∧
      dto.tipoComprobante ∈ validTipoEcfSet := by
  unfold checkDocument at h
  simp only [bind, Except.bind, pure, Except.pure] at h
  repeat' split at h
  all_goals cases h
  next valid _ _ _ _ _ _ _ _ _ =>
    refine ⟨rfl, ?_⟩
    dsimp only
    exact Classical.not_not.mp valid

/-- A resolved target comes from a document that passed every check. -/
theorem resolveTarget_ok {target : SubmissionTarget}
    (h : resolveTarget services req = .ok target) :
    ∃ submitted, req.body = .document submitted ∧ checkDocument submitted = .ok target.dto ∧
      effectiveTenant req target.dto = .ok target.tenantId ∧
      resolveAmbiente services req target.dto = .ok target.ambiente := by
  unfold resolveTarget at h
  simp only [bind, Except.bind] at h
  cases body : req.body with
  | invalid => simp [body] at h
  | unreadable what => simp [body] at h
  | document submitted =>
    cases passed : checkDocument submitted with
    | error message => simp [body, passed] at h
    | ok dto =>
      cases tenant : effectiveTenant req dto with
      | error response => simp [body, passed, tenant] at h
      | ok tenantId =>
        cases resolved : resolveAmbiente services req dto with
        | error response => simp [body, passed, tenant, resolved] at h
        | ok ambiente =>
          simp only [body, passed, tenant, resolved, Except.ok.injEq] at h
          subst h
          exact ⟨submitted, rfl, passed, tenant, resolved⟩

/-- The type asked of the sequence manager is the document's. -/
theorem tipoOf_of_resolved {target : SubmissionTarget}
    (h : resolveTarget services req = .ok target) : tipoOf target = target.dto.tipoComprobante := by
  obtain ⟨submitted, -, passed, -⟩ := resolveTarget_ok h
  obtain ⟨-, valid⟩ := checkDocument_ok passed
  refine if_neg fun blank => ?_
  rw [blank] at valid
  revert valid
  decide

/-! ## An uncertain document -/

/-- The row was found and nothing has been written or sent. -/
structure Found (log : Log) (row : EcfDocumentRow) : Prop where
  found : (progress log).found = some row
  unwritten : (progress log).written = none
  unsent : (progress log).sent = false

theorem Found.quiet (h : Found log row) {b : Log} (quiet : Quiet log b) : Found b row :=
  ⟨quiet.same ▸ h.found, quiet.same ▸ h.unwritten, quiet.same ▸ h.unsent⟩

theorem OldEnough.mono {b : Log} (h : OldEnough log row) (grows : ∀ e ∈ log, e ∈ b) :
    OldEnough b row := by
  rcases h with blank | unread | ⟨time, read, old⟩
  · exact .inl blank
  · exact .inr (.inl unread)
  · exact .inr (.inr ⟨time, grows _ read, old⟩)

/-- An attempt that is not too young is old enough, or its timestamp unreadable. -/
theorem tooYoung_follows (outside : AllowsOutside permits) :
    (tooYoung row).Follows (.logging permits)
      (fun b young => Quiet log b ∧ (young = false → OldEnough b row)) (fun _ _ => False) log := by
  unfold tooYoung
  dsimp only
  split
  · refine quiet_bind_follows outside .now trivial trivial fun (time : ℕ) b timed member => ?_
    refine ⟨timed, fun old => .inr (.inr ⟨time, member, ?_⟩)⟩
    exact not_lt.mp (of_decide_eq_false old)
  · next unreadable =>
    refine ⟨.refl log, fun _ => ?_⟩
    rcases Classical.em (row.updatedAt.getD row.createdAt = "") with blank | known
    · exact .inl blank
    · exact .inr (.inl (not_not.mp fun read => unreadable ⟨known, read⟩))

/-- Asking for a trackId touches the trackId alone. -/
theorem askTrackId_follows (outside : AllowsOutside permits) {client : EcfClient} :
    (askTrackId ext client doc).Follows (.logging permits)
      (fun b d => Quiet log b ∧ d = { doc with trackId := d.trackId }) (fun _ _ => False) log := by
  unfold askTrackId
  refine (attempt_follows (R := fun b _ => Quiet log b) (F := fun _ _ => False)
    (consultarTrackIds_follows outside doc.rncEmisor doc.eNcf) (fun _ _ h => h)
    fun _ _ h => h).bind ?_
  intro b answer quiet
  split
  · exact .ite (fun _ => ⟨quiet, rfl⟩) fun _ => ⟨quiet, rfl⟩
  · exact ⟨quiet, rfl⟩

/-- Recovering a trackId touches the status fields alone. -/
theorem recoverTrackId_follows (outside : AllowsOutside permits) {client : EcfClient} :
    (recoverTrackId ext client doc).Follows (.logging permits)
      (fun b d => Quiet log b ∧ OnlyStatus doc d) (fun _ _ => False) log := by
  refine .ite (fun _ => ?_) fun _ => ⟨.refl log, rfl⟩
  refine (askTrackId_follows outside).mono ?_ fun _ _ h => h
  rintro b d ⟨quiet, only⟩
  refine ⟨quiet, ?_⟩
  unfold OnlyStatus
  rw [only]

/-- Recovering the transmission time leaves one, and touches nothing else. -/
theorem recoverSentAt_follows (outside : AllowsOutside permits) {fechaEmision : String} :
    (recoverSentAt fechaEmision doc).Follows (.logging permits)
      (fun b d => Quiet log b ∧ OnlyStatus doc d ∧ d.sentToDgiiAt.isSome) (fun _ _ => False)
      log := by
  unfold recoverSentAt
  split
  · split
    · exact ⟨.refl log, rfl, rfl⟩
    · refine quiet_bind_follows outside .now trivial trivial fun (time : ℕ) b timed _ => ?_
      exact ⟨timed, rfl, rfl⟩
  · next known =>
    refine ⟨.refl log, rfl, ?_⟩
    cases sent : doc.sentToDgiiAt with
    | none => exact absurd (by rw [sent]; rfl) known
    | some time => rfl

theorem OnlyStatus.trans {d d' d'' : EcfDocument} (h : OnlyStatus d d') (k : OnlyStatus d' d'') :
    OnlyStatus d d'' := by
  unfold OnlyStatus at h k ⊢
  rw [h] at k
  exact k

/-- The submitted content committed on a found row, then signed and sent. -/
theorem refresh_submits (resolved : resolveTarget services req = .ok s.toSubmissionTarget)
    {doc : EcfDocument} (unsent : (progress log).sent = false)
    (allowed : ∀ b at' time, Quiet log b →
      SubmitWrite ext s.toSubmissionTarget b
        (.update (withContent ext s.toSubmissionTarget at' doc) time)) :
    Submits ext services req log (do
      let doc ← refresh ext s doc
      update doc
      signAndSend ext services s doc) := by
  unfold refresh
  refine Program.Follows.bind (M := fun b d => Quiet log b ∧
    ∃ at', d = withContent ext s.toSubmissionTarget at' doc) ?_ ?_
  · refine quiet_bind_follows submitAsks_outside .now trivial trivial
      fun (time : ℕ) b timed _ => ⟨timed, time, rfl⟩
  rintro b _ ⟨timed, at', rfl⟩
  refine (update_follows submitAsks_outside fun c time quiet staged =>
    save_allowed resolved staged (allowed c at' time (timed.trans quiet))).mono
      (fun _ _ h => h) (fun _ _ _ => trivial) |>.bind ?_
  rintro c - committed
  exact signAndSend_follows resolved (fresh_of_committed committed (timed.same ▸ unsent))

/-- The reconciliation of an uncertain document. -/
theorem reconcileUncertain_submits
    (resolved : resolveTarget services req = .ok s.toSubmissionTarget) (found : Found log row)
    (state : Unconfirmed row.state) :
    Submits ext services req log (reconcileUncertain ext services s row) := by
  unfold reconcileUncertain
  refine ((tooYoung_follows submitAsks_outside).mono (fun _ _ h => h)
    fun _ _ h => h.elim).bind ?_
  rintro a young ⟨timed, old⟩
  have found := found.quiet timed
  split
  · trivial
  · next late =>
    have old := old (Bool.eq_false_iff.mpr late)
    refine (attempt_follows (F := fun _ _ => True)
      (R := fun b x => Quiet a b ∧ ∀ status, x = .ok status →
        ∃ answer, QueriedSince a b (.estado row.rncEmisor row.eNcf none none) answer ∧
          status = consultaEstado ext.toParsers answer)
      (consultarEstado_follows submitAsks_outside row.rncEmisor row.eNcf none none) ?_ ?_).bind ?_
    · rintro b status ⟨quiet, answered⟩
      obtain ⟨answer, queried, read⟩ := answered
      exact ⟨quiet, fun _ same => ⟨answer, queried, Except.ok.inj same ▸ read⟩⟩
    · exact fun b e quiet => ⟨quiet, fun _ same => nomatch same⟩
    rintro b x ⟨quiet, answered⟩
    cases x with
    | error e => trivial
    | ok status =>
      obtain ⟨answer, queried, rfl⟩ := answered status rfl
      have queried : QueriedFound b row _ answer := ⟨a, found.found, queried⟩
      have found := found.quiet quiet
      dsimp only
      split
      · next missing =>
        refine refresh_submits resolved found.unsent fun c at' time quiet' => ?_
        have found := found.quiet quiet'
        exact .refresh found.found found.unwritten (.notFound state
          (queried.mono quiet'.longer) missing
          (OldEnough.mono old fun _ member => quiet'.mem (quiet.mem member)))
      · next known =>
        refine ((recoverTrackId_follows submitAsks_outside).mono (fun _ _ h => h)
          fun _ _ h => h.elim).bind ?_
        rintro c d ⟨tracked, only⟩
        refine ((recoverSentAt_follows submitAsks_outside).mono (fun _ _ h => h)
          fun _ _ h => h.elim).bind ?_
        rintro e d' ⟨dated, only', sentAt⟩
        have quiet' := tracked.trans dated
        refine (update_follows submitAsks_outside fun f time last staged => ?_).mono
          (fun _ _ h => h) (fun _ _ _ => trivial) |>.bind fun _ _ _ => trivial
        have found := (found.quiet quiet').quiet last
        exact save_allowed resolved staged (.reconcile found.found found.unwritten state
          (OnlyStatus.trans only only') sentAt (queried.mono (quiet'.longer.trans last.longer))
          (Bool.eq_false_iff.mpr known))

/-! ## A document found, and one not found -/

/-- The reissue of a rejected document. -/
theorem reissue_submits (resolved : resolveTarget services req = .ok s.toSubmissionTarget)
    (found : Found log row) (state : row.state = "RejectedByDgii") :
    Submits ext services req log (reissue ext services s row.toEcfDocument) := by
  unfold reissue
  refine neutral_bind_follows (.getNextEncf ..) trivial (.allocate resolved)
    fun (number : Except String String) a allocated member => ?_
  refine (Program.follows_raise_bind _ _).mpr ⟨?_, fun _ _ => trivial⟩
  rintro eNcf rfl
  have found := found.quiet allocated
  refine Program.Follows.bind (M := fun b d => Quiet a b ∧
    ∃ at', d = withContent ext s.toSubmissionTarget at' (reissued row.toEcfDocument eNcf)) ?_ ?_
  · exact quiet_bind_follows submitAsks_outside .now trivial trivial
      fun (time : ℕ) b timed _ => ⟨timed, time, rfl⟩
  rintro b _ ⟨timed, at', rfl⟩
  refine (attempt_follows (F := fun _ _ => True)
    (R := fun c x => x = .ok () →
      Fresh c (withContent ext s.toSubmissionTarget at' (reissued row.toEcfDocument eNcf)))
    (update_follows submitAsks_outside fun c time quiet staged => ?_) ?_ ?_).bind ?_
  · have issued : Issued s.toSubmissionTarget c eNcf := quiet.mem (timed.mem member)
    have found := (found.quiet timed).quiet quiet
    exact save_allowed resolved staged (.reissue found.found found.unwritten state issued)
  · exact fun c _ committed _ => fresh_of_committed committed (timed.same ▸ found.unsent)
  · exact fun _ _ _ same => nomatch same
  · rintro c x fresh
    cases x with
    | ok value => exact signAndSend_follows resolved (fresh rfl)
    | error what =>
      exact ask_bind_follows (.releaseUnusedEncf ..) (.release resolved) fun _ => trivial

/-- The row found is handled by its state. -/
theorem handleExistingDocument_submits
    (resolved : resolveTarget services req = .ok s.toSubmissionTarget) (found : Found log row) :
    Submits ext services req log (handleExistingDocument ext services s row) := by
  unfold handleExistingDocument
  split
  · next state =>
    refine refresh_submits resolved found.unsent fun b at' time quiet => ?_
    have found := found.quiet quiet
    exact .refresh found.found found.unwritten (.neverTransmitted state)
  · split
    · next state => exact reconcileUncertain_submits resolved found state
    · split
      · next state => exact reissue_submits resolved found state
      · split <;> trivial

/-- The lookup of a submission that has found and written nothing. -/
theorem lookup_follows (resolved : resolveTarget services req = .ok s.toSubmissionTarget)
    (blank : progress log = {}) :
    (lookup s).Follows (.logging (SubmitAsks ext services req))
      (fun b x => (∀ row, x = .ok (some row) → Found b row) ∧
        ((∀ row, x ≠ .ok (some row)) → Quiet log b)) (fun _ _ => False) log := by
  refine ask_follows (.documentBySourceTxnId ..)
    (.lookup resolved (by rw [blank]; exact ⟨rfl, rfl⟩)) ?_
  intro (x : Except String (Option EcfDocumentRow))
  refine ⟨?_, fun missing => ⟨List.prefix_append _ _, ?_⟩⟩
  · rintro row rfl
    constructor <;> rw [progress_append, blank] <;> rfl
  · rw [progress_append]
    match x, missing with
    | .error _, _ => rfl
    | .ok none, _ => rfl
    | .ok (some row), missing => exact absurd rfl (missing row)

/-- The loser of an insert handles the winner's row. -/
theorem recoverInsert_submits
    (resolved : resolveTarget services req = .ok s.toSubmissionTarget)
    (blank : progress log = {}) {eNcf what : String} :
    Submits ext services req log (recoverInsert ext services s eNcf what) := by
  unfold recoverInsert
  rw [← tipoOf_of_resolved resolved]
  refine neutral_bind_follows (.releaseUnusedEncf ..) trivial (.release resolved)
    fun _ a released _ => ?_
  have blank := released.same.trans blank
  split
  · refine ((lookup_follows resolved blank).mono (fun _ _ h => h) fun _ _ h => h.elim).bind ?_
    rintro b x ⟨found, -⟩
    refine (Program.follows_raise_bind _ _).mpr ⟨?_, fun _ _ => trivial⟩
    rintro (_ | winner) rfl
    · trivial
    · exact handleExistingDocument_submits resolved (found winner rfl)
  · trivial

/-- A document not found is numbered, inserted and sent. -/
theorem submitNew_submits (resolved : resolveTarget services req = .ok s.toSubmissionTarget)
    (blank : progress log = {}) :
    Submits ext services req log (submitNew ext services s) := by
  unfold submitNew
  rw [← tipoOf_of_resolved resolved]
  refine neutral_bind_follows (.getNextEncf ..) trivial (.allocate resolved)
    fun (number : Except String String) a allocated member => ?_
  cases number with
  | error what => trivial
  | ok eNcf =>
    refine quiet_bind_follows submitAsks_outside .newUuid trivial trivial
      fun (id : String) a' named uuid => ?_
    refine Program.Follows.bind (M := fun b d => Quiet a' b ∧
      ∃ at', d = withContent ext s.toSubmissionTarget at'
        (newDocument s.toSubmissionTarget id eNcf)) ?_ ?_
    · exact quiet_bind_follows submitAsks_outside .now trivial trivial
        fun (time : ℕ) b timed _ => ⟨timed, time, rfl⟩
    rintro b _ ⟨timed, at', rfl⟩
    have quiet := (allocated.trans named).trans timed
    unfold add
    refine (attempt_follows (F := fun _ _ => True) (E := fun c _ => Quiet log c)
      (Q := fun c _ => Committed log c
        (withContent ext s.toSubmissionTarget at' (newDocument s.toSubmissionTarget id eNcf)))
      (R := fun c x => (x = .ok () →
          Fresh c (withContent ext s.toSubmissionTarget at'
            (newDocument s.toSubmissionTarget id eNcf))) ∧
        ∀ what, x = .error what → Quiet log c) ?_ ?_ ?_).bind ?_
    · refine quiet_bind_follows submitAsks_outside .now trivial trivial
        fun (time : ℕ) c timed' staged => ?_
      have quiet := quiet.trans timed'
      refine (saveChanges_follows ?_).mono ?_ fun _ _ h => quiet.trans h
      · have nothing : (progress c).found = none ∧ (progress c).written = none := by
          rw [quiet.same, blank]
          exact ⟨rfl, rfl⟩
        exact save_allowed resolved staged (.create nothing (timed'.mem (timed.mem uuid))
          (timed'.mem (timed.mem (named.mem member))))
      · exact fun d _ h => ⟨quiet.longer.trans h.longer, h.found.trans (congrArg _ quiet.same),
          h.written, h.sent.trans (congrArg _ quiet.same)⟩
    · exact fun c _ committed => ⟨fun _ => fresh_of_committed committed (by rw [blank]),
        fun _ same => nomatch same⟩
    · exact fun c _ quiet => ⟨(nomatch ·), fun _ _ => quiet⟩
    · rintro c x ⟨fresh, failed⟩
      cases x with
      | ok value => exact signAndSend_follows resolved (fresh rfl)
      | error what => exact recoverInsert_submits resolved ((failed what rfl).same.trans blank)

/-- A callback that is allowed whatever it is given. -/
def Answers (ext : Externals) (services : Services) (req : SubmitRequest)
    (cb : HttpResponse → Procedure Unit) : Prop :=
  ∀ response log, Submits ext services req log (cb response)

/-- The submission from the lookup on. -/
theorem submitResolved_submits
    (resolved : resolveTarget services req = .ok s.toSubmissionTarget)
    (blank : progress log = {}) {cb : HttpResponse → Procedure Unit}
    (answers : Answers ext services req cb) :
    Submits ext services req log (submitResolved ext services s cb) := by
  unfold submitResolved
  refine (attempt_follows (F := fun _ _ => True)
    (Q := fun b handled => handled = false → progress b = {}) (E := fun _ _ => True)
    (R := fun b x => x = .ok false → progress b = {}) ?_ ?_ ?_).bind ?_
  · refine ((lookup_follows resolved blank).mono (fun _ _ h => h) fun _ _ h => h.elim).bind ?_
    rintro b x ⟨found, missing⟩
    refine (Program.follows_raise_bind _ _).mpr ⟨?_, fun _ _ => trivial⟩
    rintro (_ | existing) rfl
    · exact fun _ => (missing (by simp)).same.trans blank
    · refine Program.Follows.bind (handleExistingDocument_submits resolved (found existing rfl)) ?_
      intro c response _
      refine Program.Follows.bind (answers response c) ?_
      exact fun _ _ _ => (nomatch ·)
  · exact fun b handled h same => h (Except.ok.inj same)
  · exact fun _ _ _ => (nomatch ·)
  · rintro b x h
    match x, h with
    | .error what, _ => exact answers _ b
    | .ok true, _ => trivial
    | .ok false, h =>
      refine Program.Follows.bind (submitNew_submits resolved (h rfl)) ?_
      exact fun c response _ => answers response c

/-! ## The signer -/

/-- A procedure that leaves the progress as it was and never throws. -/
def Silent {α : Type} (permits : Log → Request → Prop) (p : Procedure α) : Prop :=
  ∀ log, p.Follows (.logging permits) (fun b _ => Quiet log b) (fun _ _ => False) log

theorem Silent.done {α : Type} (a : α) : Silent permits (.done a) := fun log => .refl log

theorem Silent.ask (outside : AllowsOutside permits) (r : Request) (h : Outside r)
    (neutral : Neutral r) : Silent permits (ask r) :=
  fun log => ask_follows r (outside _ _ h (silent_of_neutral neutral)) fun x => .neutral neutral log x

theorem Silent.ite {α : Type} {c : Prop} [Decidable c] {p q : Procedure α}
    (yes : Silent permits p) (no : Silent permits q) : Silent permits (if c then p else q) :=
  fun log => .ite (fun _ => yes log) fun _ => no log

theorem Silent.bind {α β : Type} {p : Procedure α} {k : α → Procedure β}
    (h : Silent permits p) (rest : ∀ a, Silent permits (k a)) : Silent permits (p >>= k) :=
  fun log => (h log).bind fun _ a quiet =>
    (rest a _).mono (fun _ _ last => quiet.trans last) fun _ _ h => h

theorem directorySigner_silent (outside : AllowsOutside permits) (tenantId rnc password : String) :
    Silent permits (directorySigner services tenantId rnc password) := by
  have file : ∀ safe name, Silent permits (fileSigner safe name password) := fun safe name =>
    .ite (.ask outside (.fileSigner ..) trivial trivial) (.done none)
  unfold directorySigner
  refine (file _ _).bind fun found => ?_
  split
  · exact .done _
  · refine (file _ _).bind fun found => ?_
    split <;> exact .done _

/-- Resolving the signer is silent. -/
theorem resolveSigner_silent (outside : AllowsOutside permits) (tenantId rnc : String)
    (certificate : Option CanonicalCertificateDto) (isDefaultFallback : Bool) :
    Silent permits (resolveSigner services tenantId rnc certificate isDefaultFallback) := by
  have inline : Silent permits (inlineSigner rnc certificate) :=
    .ite (.ask outside (.certificateSigner ..) trivial trivial) (.done none)
  have tenant : Silent permits (tenantSigner services tenantId rnc) :=
    .ite (.ask outside (.tenantSigner ..) trivial trivial) (.done (Except.ok none))
  unfold resolveSigner
  refine .ite (.done _) (inline.bind fun found => ?_)
  split
  · exact .done _
  · refine tenant.bind fun found => ?_
    split
    · exact .ite (.done _) (directorySigner_silent outside _ _ _)
    · exact directorySigner_silent outside _ _ _

/-- The body of `submit`. -/
theorem submitBody_submits (blank : progress log = {}) {cb : HttpResponse → Procedure Unit}
    (answers : Answers ext services req cb) :
    Submits ext services req log (submitBody ext services req cb) := by
  unfold submitBody
  split
  · exact answers _ log
  · next target resolved =>
    refine ((resolveSigner_silent submitAsks_outside _ _ _ _ log).mono (fun _ _ h => h)
      fun _ _ h => h.elim).bind ?_
    intro b signer quiet
    refine (Program.follows_raise_bind _ _).mpr ⟨fun client _ => ?_, fun _ _ => trivial⟩
    exact submitResolved_submits (s := { target with signer := signer, client := client })
      resolved (quiet.same.trans blank) answers

/-! ## Idempotency -/

/-- The statements of the reservation are neutral. -/
theorem idempotency_bind_follows {α : Type} {post : Log → α → Prop} {exn : Log → String → Prop}
    (statement : IdempotencyStatement) (allowed : ReservationAsks ext req log statement)
    {k : statement.Reply → Procedure α}
    (rest : ∀ (x : statement.Reply) b, Quiet log b →
      (⟨.idempotency statement, x⟩ : Event Api) ∈ b →
      (k x).Follows (.logging (SubmitAsks ext services req)) post exn b) :
    (ask (.idempotency statement) >>= k).Follows (.logging (SubmitAsks ext services req))
      post exn log :=
  neutral_bind_follows (.idempotency statement) trivial (.reservation allowed) rest

/-- The document asked about is the one a read record names. -/
theorem isUnderlyingDocumentRejected_follows (ext : Externals) (services : Services)
    {record : IdempotencyRecord} {expired : Bool}
    (read : (⟨.idempotency (.fetch (requestedTenant req ++ ":" ++ req.idempotencyKey)),
      (.ok (some (record, expired)) : Except String (Option (IdempotencyRecord × Bool)))⟩ :
        Event Api) ∈ log) :
    (isUnderlyingDocumentRejected ext record.responseBody).Follows
      (.logging (SubmitAsks ext services req)) (fun b _ => Quiet log b) (fun _ _ => False)
      log := by
  unfold isUnderlyingDocumentRejected
  split
  · exact Quiet.refl log
  · next id named =>
    refine idempotency_bind_follows (.documentState id) (.documentState read named)
      fun (state : Except String (Option String)) b quiet _ => ?_
    match state with
    | .ok (some state) => exact quiet
    | .ok none => exact quiet
    | .error _ => exact quiet

/-- A statement that may fail, after which the reservation is settled. -/
theorem reserving_follows (statement : IdempotencyStatement)
    (allowed : ReservationAsks ext req log statement)
    {read : statement.Reply → Except String Unit} {result : Reservation} :
    (ask (.idempotency statement) >>= fun x => .raise (read x) >>= fun _ => pure result :
      Procedure Reservation).Follows (.logging (SubmitAsks ext services req))
        (fun b _ => Quiet log b) (fun _ _ => True) log := by
  refine idempotency_bind_follows statement allowed fun x b quiet _ => ?_
  exact (Program.follows_raise_bind _ _).mpr ⟨fun _ _ => quiet, fun _ _ => trivial⟩

/-- A statement that says whether it got the key. -/
theorem acquiring_follows (statement : IdempotencyStatement)
    (allowed : ReservationAsks ext req log statement)
    {read : statement.Reply → Except String Bool} :
    (ask (.idempotency statement) >>= fun x => .raise (read x) >>= fun got =>
      if got then pure Reservation.reserved else pure .alreadyProcessing :
      Procedure Reservation).Follows (.logging (SubmitAsks ext services req))
        (fun b _ => Quiet log b) (fun _ _ => True) log := by
  refine idempotency_bind_follows statement allowed fun x b quiet _ => ?_
  refine (Program.follows_raise_bind _ _).mpr ⟨fun got _ => ?_, fun _ _ => trivial⟩
  exact .ite (fun _ => quiet) fun _ => quiet

/-- Reserving the key leaves the progress as it was. -/
theorem reserveOrGet_follows (hash worker : String) :
    (reserveOrGet ext (requestedTenant req ++ ":" ++ req.idempotencyKey) hash worker).Follows
      (.logging (SubmitAsks ext services req)) (fun b _ => Quiet log b) (fun _ _ => True) log := by
  unfold reserveOrGet
  refine idempotency_bind_follows (.fetch _) .fetch
    fun (x : Except String (Option (IdempotencyRecord × Bool))) a quiet read => ?_
  refine (Program.follows_raise_bind _ _).mpr ⟨?_, fun _ _ => trivial⟩
  rintro (_ | ⟨record, expired⟩) rfl
  · exact (acquiring_follows (.insert ..) .insert).mono
      (fun _ _ last => quiet.trans last) fun _ _ h => h
  · have rejected := isUnderlyingDocumentRejected_follows ext services read
    unfold reserveExisting
    refine .ite (fun _ => ?_) fun _ => .ite (fun _ => ?_) fun _ => .ite (fun _ => ?_)
      fun _ => quiet
    · refine Program.Follows.bind (M := fun b _ => Quiet a b) (.ite (fun _ => .refl a)
        fun _ => rejected.mono (fun _ _ h => h) fun _ _ h => h.elim) fun b failed asked => ?_
      refine .ite (fun _ => ?_) fun _ => quiet.trans asked
      exact (reserving_follows (.renewWithHash ..) .renewWithHash).mono
        (fun _ _ last => (quiet.trans asked).trans last) fun _ _ h => h
    · refine Program.Follows.bind (M := fun b _ => Quiet a b) (.ite (fun _ =>
        (rejected.mono (fun _ _ h => h) fun _ _ h => h.elim).bind fun _ _ h => h)
          fun _ => .refl a) fun b failed asked => ?_
      refine .ite (fun _ => quiet.trans asked) fun _ => ?_
      exact (reserving_follows (.renew ..) .renew).mono
        (fun _ _ last => (quiet.trans asked).trans last) fun _ _ h => h
    · exact (acquiring_follows (.reclaim ..) .reclaim).mono
        (fun _ _ last => quiet.trans last) fun _ _ h => h

/-- The callback of the handler may always be called. -/
theorem idempotentCallback_answers :
    Answers ext services req
      (idempotentCallback ext (requestedTenant req ++ ":" ++ req.idempotencyKey)) := by
  intro response log
  have answer : ∀ log, Submits ext services req log (respond response) := fun log =>
    ask_follows (.respond response) (.outside trivial) fun _ => trivial
  unfold idempotentCallback
  refine .ite (fun _ => ?_) fun _ => ?_
  · refine idempotency_bind_follows (.complete ..) .complete fun (x : Except String Unit) b _ _ => ?_
    exact (Program.follows_raise_bind _ _).mpr ⟨fun _ _ => answer b, fun _ _ => trivial⟩
  · exact idempotency_bind_follows (.release _) .release fun x b _ _ => answer b

theorem respond_answers : Answers ext services req respond := fun response _ =>
  ask_follows (.respond response) (.outside trivial) fun _ => trivial

/-- **Submit keeps to its permissions.** -/
theorem submit_follows (ext : Externals) (services : Services) (req : SubmitRequest) :
    Submits ext services req [] (submit ext services req) := by
  have answer : ∀ response log, Submits ext services req log (respond response) :=
    respond_answers
  unfold submit idempotencyHandle
  refine .ite (fun _ => submitBody_submits rfl respond_answers) fun _ => ?_
  refine (reserveOrGet_follows _ _).bind fun b reservation quiet => ?_
  cases reservation with
  | alreadyCompleted code contentType body => exact answer _ b
  | alreadyProcessing => exact answer _ b
  | payloadMismatch => exact answer _ b
  | reserved =>
    refine Program.Follows.tryCatch
      (submitBody_submits quiet.same idempotentCallback_answers) fun c what _ => ?_
    exact idempotency_bind_follows (.release _) .release fun _ _ _ _ => trivial

end EcfDgii.SubmissionFollows
