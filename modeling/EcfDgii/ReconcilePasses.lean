import EcfDgii.StatusTrace
import EcfDgii.Strategies

/-!
What one pass of the background thread stages.

The surroundings of a pass give the due rows, the signers and the clock, and
answer what is asked of DGII about each row as they like.  `stagedDocument` is
what a pass over one row alone would write; `reconcileAll_against` says that a
pass over any rows stages just that for each of them, in order, so that no
answer about one row reaches another one.  `reconcile_exact` adds what a staged
document may differ in from its row (`Stages`).
-/

set_option autoImplicit false

namespace EcfDgii.ReconcilePasses

open EcfDgii.Text EcfDgii.Timestamps EcfDgii.Documents EcfDgii.DgiiReplies EcfDgii.Tables
open EcfDgii.Programs EcfDgii.Engine EcfDgii.Transport EcfDgii.Transmission EcfDgii.Submission
open EcfDgii.StatusUpdates EcfDgii.Traces EcfDgii.StatusTrace

/-! ## Surroundings -/

/-- What a pass meets.  The signers depend on the RNC alone; the answers are to
what is asked about the row of a number, after what has been asked about it. -/
structure PassSurroundings where
  due : List EcfDocumentRow
  signer : String → Except String (Option Signer)
  clock : ℕ → ℕ
  answers : ℕ → Strategy Api
  saved : Except String Unit := .ok ()

/-- Requests to DGII through a client. -/
def Queries (client : EcfClient) : Request → Prop
  | .getToken c => c = client
  | .invalidateToken c => c = client
  | .get c _ _ => c = client
  | _ => False

/-- Requests to DGII through any client. -/
def Querying (r : Request) : Prop := ∃ client, Queries client r

/-- The times the clock was read, and what has been asked of DGII since. -/
def positionStep : ℕ × Log → Event Api → ℕ × Log
  | (n, asked), e =>
    match e.request with
    | .now => (n + 1, [])
    | .getToken _ | .invalidateToken _ | .get .. => (n, asked ++ [e])
    | _ => (n, asked)

def position (log : Log) : ℕ × Log := log.foldl positionStep (0, [])

/-- The surroundings as a strategy: the clock is read at the beginning of the
pass and after each row. -/
def PassSurroundings.strategy (s : PassSurroundings) : Strategy Api := fun log r =>
  match r with
  | .now => s.clock (position log).1
  | .documentsDue .. => .ok s.due
  | .tenantSigner rncEmisor _ => s.signer rncEmisor
  | .saveChanges _ => s.saved
  | r => s.answers (position log).1 (position log).2 r

/-! ## One row -/

variable (ext : Externals) (services : Services)

/-- The client of a row. -/
def rowClient (signer : String → Except String (Option Signer)) (client : EcfClient)
    (doc : EcfDocument) : EcfClient :=
  if services.hasTenantSignerResolver ∧ doc.rncEmisor ≠ "" then
    match signer doc.rncEmisor with
    | .ok resolved =>
      { rncEmisor := doc.rncEmisor, ambiente := reconcilerEnvironment doc.ambiente
        signer := resolved.getD services.signer }
    | .error _ => client
  else client

/-- The row that is past its window. -/
def reviewed (time : ℕ) (doc : EcfDocument) : EcfDocument :=
  { doc with state := "RequiresManualReview", lastStatusCheckAt := some (toIsoUtc time) }

/-- The document a pass over one row stages, whatever is asked about others. -/
def stagedDocument (time : ℕ) (client : EcfClient) (answers : Strategy Api)
    (doc : EcfDocument) : EcfDocument :=
  if windowExhausted services time doc then reviewed time doc
  else ((reconcileOne ext time client doc).against answers []).1.toOption.getD doc

/-- What a row that is checked may differ in: it is counted. -/
structure Checked (time : ℕ) (doc d : EcfDocument) : Prop where
  only : d = { doc with
    state := d.state, lastStatusCheckAt := some (toIsoUtc time)
    statusCheckAttempts := doc.statusCheckAttempts + 1, dgiiResponseXml := d.dgiiResponseXml }
  state : d.state = doc.state ∨ d.state = "AcceptedByDgii" ∨ d.state = "RejectedByDgii"

variable {ext services} {time : ℕ} {client : EcfClient} {doc d : EcfDocument} {estado : String}
  {σ : Strategy Api} {log : Log}

/-- A document that differs in its response text. -/
def SameButResponse (doc d : EcfDocument) : Prop :=
  d = { doc with dgiiResponseXml := d.dgiiResponseXml }

theorem SameButResponse.checked (same : SameButResponse doc d) :
    Checked time doc (checked (toIsoUtc time) d) := by
  rw [same]
  exact ⟨rfl, .inl rfl⟩

theorem Checked.withVerdict (h : Checked time doc d) : Checked time doc (withVerdict estado d) := by
  unfold StatusUpdates.withVerdict
  split
  · exact ⟨by rw [h.only], .inr (.inl rfl)⟩
  · split
    · exact ⟨by rw [h.only], .inr (.inr rfl)⟩
    · exact h

theorem fromResultado_same (r : ConsultaResultadoResponse) :
    SameButResponse doc (fromResultado doc r).2 := by
  unfold fromResultado
  split
  · rfl
  · rfl

theorem fromEstado_same (same : SameButResponse doc d) (r : ConsultaEstadoResponse) :
    SameButResponse doc (fromEstado estado d r).2 := by
  unfold fromEstado
  split
  · exact same
  · rw [same]
    rfl

/-- A request is answered, and the rest goes on. -/
theorem ask_against {α : Type} (r : Request) (k : r.Reply → Procedure α) :
    (ask r >>= k).against σ log = (k (σ log r)).against σ (log ++ [⟨r, σ log r⟩]) := rfl

/-- An attempt ends with what it attempts. -/
theorem attempt_against {α : Type} (p : Procedure α) :
    (attempt p).against σ log = (.ok (p.against σ log).1, (p.against σ log).2) :=
  Program.against_caught p

theorem askResultado_against (ext : Externals) (client : EcfClient) (doc : EcfDocument)
    (σ : Strategy Api) (log : Log) : ∃ estado d log',
      (askResultado ext client doc).against σ log = (.ok (estado, d), log') ∧
        SameButResponse doc d := by
  unfold askResultado
  split
  · rw [Program.against_bind, attempt_against]
    dsimp only
    cases ((consultarResultado ext client (doc.trackId.getD "")).against σ log).1 with
    | ok r => exact ⟨_, _, _, rfl, fromResultado_same r⟩
    | error e => exact ⟨_, _, _, rfl, rfl⟩
  · exact ⟨_, _, _, rfl, rfl⟩

/-- **One row** is checked, whatever DGII answers and whatever fails. -/
theorem reconcileOne_against (ext : Externals) (time : ℕ) (client : EcfClient)
    (doc : EcfDocument) (σ : Strategy Api) (log : Log) : ∃ d log',
      (reconcileOne ext time client doc).against σ log = (.ok d, log') ∧ Checked time doc d := by
  obtain ⟨estado, d, log', asked, same⟩ := askResultado_against ext client doc σ log
  unfold reconcileOne
  rw [Program.against_bind, asked]
  dsimp only
  split
  · rw [Program.against_bind, attempt_against]
    dsimp only
    cases ((consultarEstado ext client d.rncEmisor d.eNcf d.rncComprador
        d.securityCode).against σ log').1 with
    | ok r => exact ⟨_, _, rfl, (fromEstado_same same r).checked.withVerdict⟩
    | error e => exact ⟨_, _, rfl, same.checked⟩
  · exact ⟨_, _, rfl, same.checked.withVerdict⟩

/-! ## What is asked about a row -/

theorem consultar_queries (consulta : Consulta) :
    (consultar client consulta).Only (Queries client) :=
  consultar_only rfl rfl fun _ => rfl

theorem askResultado_queries : (askResultado ext client doc).Only (Queries client) := by
  refine .ite (fun _ => ?_) fun _ => trivial
  have query : (consultarResultado ext client (doc.trackId.getD "")).Only (Queries client) :=
    (consultar_queries _).bind fun _ => Program.only_raise _
  refine (attempt_only query).bind fun answer => ?_
  cases answer with
  | ok r => exact Program.only_pure _
  | error e => exact Program.only_pure _

/-- A row's check asks DGII through its client, and nothing else. -/
theorem reconcileOne_queries : (reconcileOne ext time client doc).Only (Queries client) := by
  refine askResultado_queries.bind fun answer => .ite (fun _ => ?_) fun _ => trivial
  have query : (consultarEstado ext client answer.2.rncEmisor answer.2.eNcf answer.2.rncComprador
      answer.2.securityCode).Only (Queries client) :=
    (consultar_queries _).bind fun _ => Program.only_pure _
  refine (attempt_only query).bind fun reply => ?_
  cases reply with
  | ok r => exact Program.only_pure _
  | error e => exact Program.only_pure _

theorem reconcileOne_querying : (reconcileOne ext time client doc).Only Querying :=
  reconcileOne_queries.mono fun _ query => ⟨client, query⟩

theorem position_append (log : Log) (e : Event Api) :
    position (log ++ [e]) = positionStep (position log) e := by
  simp [position]

/-- What is asked of DGII is asked about the row at hand. -/
theorem position_query {r : Request} (query : Querying r) (x : r.Reply) :
    position (log ++ [⟨r, x⟩]) = ((position log).1, (position log).2 ++ [⟨r, x⟩]) := by
  obtain ⟨client, query⟩ := query
  rw [position_append]
  cases r with
  | getToken => rfl
  | invalidateToken => rfl
  | get => rfl
  | _ => exact query.elim

theorem strategy_query (s : PassSurroundings) {r : Request} (query : Querying r) :
    s.strategy log r = s.answers (position log).1 (position log).2 r := by
  obtain ⟨client, query⟩ := query
  cases r with
  | getToken => rfl
  | invalidateToken => rfl
  | get => rfl
  | _ => exact query.elim

/-- **A row's check is local**: only the answers about this row count. -/
theorem reconcileOne_local (s : PassSurroundings) (fresh : (position log).2 = []) :
    ((reconcileOne ext time client doc).against s.strategy log).1 =
      ((reconcileOne ext time client doc).against (s.answers (position log).1) []).1 := by
  rw [← fresh]
  refine Program.against_local (v := fun b => (position b).2)
    (P := fun b => (position b).1 = (position log).1)
    reconcileOne_querying rfl ?_ ?_ ?_
  · intro b r x query here
    rw [position_query query]
    exact here
  · intro b r query here
    rw [strategy_query s query, here]
  · intro b r x query
    rw [position_query query]

/-- It leaves the next row's number as it is. -/
theorem reconcileOne_position (ext : Externals) (time : ℕ) (client : EcfClient)
    (doc : EcfDocument) (s : PassSurroundings) (log : Log) :
    (position ((reconcileOne ext time client doc).against s.strategy log).2).1 =
      (position log).1 :=
  Program.against_keeps (f := fun b => (position b).1) reconcileOne_querying
    fun b r x query => by rw [position_query query]

/-! ## Clients -/

/-- A client built for a key of the cache. -/
def BuiltFor (services : Services) (signer : String → Except String (Option Signer))
    (key : String × AmbienteEnum) (built : EcfClient) : Prop :=
  (services.hasTenantSignerResolver ∧ key.1 ≠ "") ∧ ∃ resolved, signer key.1 = .ok resolved ∧
    built = { rncEmisor := key.1, ambiente := key.2, signer := resolved.getD services.signer }

/-- The cache of a pass holds what would be built anew. -/
def CacheSound (services : Services) (signer : String → Except String (Option Signer))
    (cache : ClientCache) : Prop :=
  ∀ key built, cache.lookup key = some built → BuiltFor services signer key built

theorem CacheSound.cons {signer : String → Except String (Option Signer)} {cache : ClientCache}
    {key : String × AmbienteEnum} {built : EcfClient} (sound : CacheSound services signer cache)
    (fresh : BuiltFor services signer key built) :
    CacheSound services signer ((key, built) :: cache) := by
  intro other found hit
  by_cases same : other = key
  · subst same
    rw [List.lookup_cons_self] at hit
    exact Option.some.inj hit ▸ fresh
  · have differs : (other == key) = false := beq_false_of_ne same
    rw [List.lookup_cons, differs] at hit
    exact sound other found hit

/-- A row's client is the same whether it comes from the cache or is built. -/
theorem clientFor_against (s : PassSurroundings) (log : Log) {cache : ClientCache}
    (sound : CacheSound services s.signer cache) (client : EcfClient) (doc : EcfDocument) :
    ∃ cache' log',
      (clientFor services client cache doc).against s.strategy log =
        (.ok (rowClient services s.signer client doc, cache'), log') ∧
      CacheSound services s.signer cache' ∧ position log' = position log := by
  unfold clientFor rowClient
  dsimp only
  split
  · next cached hit =>
    obtain ⟨resolves, resolved, answer, rfl⟩ := sound _ _ hit
    rw [if_pos resolves, answer]
    exact ⟨cache, log, rfl, sound, rfl⟩
  · by_cases resolves : services.hasTenantSignerResolver ∧ doc.rncEmisor ≠ ""
    · rw [if_pos resolves, if_pos resolves]
      have placed : ∀ x, position (log ++ [⟨.tenantSigner doc.rncEmisor "", x⟩]) = position log :=
        fun x => position_append log _
      have asked : s.strategy log (.tenantSigner doc.rncEmisor "") = s.signer doc.rncEmisor := rfl
      cases answer : s.signer doc.rncEmisor with
      | ok resolved =>
        have built : BuiltFor services s.signer (doc.rncEmisor, reconcilerEnvironment doc.ambiente)
            { rncEmisor := doc.rncEmisor, ambiente := reconcilerEnvironment doc.ambiente
              signer := resolved.getD services.signer } := ⟨resolves, resolved, answer, rfl⟩
        refine ⟨_, _, (ask_against _ _).trans ?_, sound.cons built, placed (.ok resolved)⟩
        rw [asked, answer]
        rfl
      | error e =>
        refine ⟨_, _, (ask_against _ _).trans ?_, sound, placed (.error e)⟩
        rw [asked, answer]
        rfl
    · rw [if_neg resolves, if_neg resolves]
      exact ⟨_, _, rfl, sound, rfl⟩

/-! ## All rows -/

/-- What a pass stages from a row of a number on. -/
def stagedFrom (ext : Externals) (services : Services) (s : PassSurroundings) (time : ℕ)
    (client : EcfClient) : ℕ → List EcfDocumentRow → List Write
  | _, [] => []
  | n, row :: rest =>
    .update (stagedDocument ext services time (rowClient services s.signer client row.toEcfDocument)
      (s.answers n) row.toEcfDocument) (s.clock n) ::
      stagedFrom ext services s time client (n + 1) rest

theorem position_now (log : Log) (x : ℕ) :
    position (log ++ [⟨.now, x⟩]) = ((position log).1 + 1, []) :=
  position_append log _

/-- The end of a row: the clock is read, and the next row follows. -/
theorem stage_against (s : PassSurroundings) {log : Log} {d : EcfDocument}
    {rows : Procedure (List Write)} {writes : List Write}
    (rest : ∀ log' : Log, position log' = ((position log).1 + 1, []) →
      ∃ last, rows.against s.strategy log' = (.ok writes, last)) :
    ∃ last, (do
        let staged ← now
        let writes ← rows
        return .update d staged :: writes : Procedure (List Write)).against s.strategy log =
      (.ok (.update d (s.clock (position log).1) :: writes), last) := by
  have asked : s.strategy log .now = s.clock (position log).1 := rfl
  obtain ⟨last, ran⟩ := rest (log ++ [⟨.now, s.strategy log .now⟩]) (position_now log _)
  refine ⟨last, (ask_against _ _).trans ?_⟩
  rw [Program.against_bind, ran]
  rfl

/-- **A pass stages each row by itself**, in order. -/
theorem reconcileAll_against (ext : Externals) (services : Services) (s : PassSurroundings)
    (time : ℕ) (client : EcfClient) (due : List EcfDocumentRow) {cache : ClientCache}
    (sound : CacheSound services s.signer cache) {log : Log} (fresh : (position log).2 = []) :
    ∃ last, (reconcileAll ext services time client cache due).against s.strategy log =
      (.ok (stagedFrom ext services s time client (position log).1 due), last) := by
  induction due generalizing log cache with
  | nil => exact ⟨log, rfl⟩
  | cons row rest ih =>
    have next : ∀ {cache : ClientCache} {before log' : Log},
        CacheSound services s.signer cache → (position before).1 = (position log).1 →
        position log' = ((position before).1 + 1, []) →
        ∃ last, (reconcileAll ext services time client cache rest).against s.strategy log' =
          (.ok (stagedFrom ext services s time client ((position log).1 + 1) rest), last) := by
      intro cache before log' sound here there
      have fresh : (position log').2 = [] := by rw [there]
      obtain ⟨last, ran⟩ := ih sound fresh
      exact ⟨last, by rw [ran, there, here]⟩
    rw [reconcileAll, stagedFrom, stagedDocument]
    dsimp only
    by_cases exhausted : windowExhausted services time row.toEcfDocument = true
    · rw [if_pos exhausted, if_pos exhausted]
      exact stage_against s fun log' there => next sound rfl there
    · rw [if_neg exhausted, if_neg exhausted]
      obtain ⟨cache', log', chosen, sound', placed⟩ :=
        clientFor_against s log sound client row.toEcfDocument
      generalize rowClient services s.signer client row.toEcfDocument = own at chosen ⊢
      obtain ⟨d, after, ran, -⟩ :=
        reconcileOne_against ext time own row.toEcfDocument s.strategy log'
      have alone : ((reconcileOne ext time own row.toEcfDocument).against
          (s.answers (position log).1) []).1 = .ok d := by
        rw [← placed, ← reconcileOne_local s (by rw [placed, fresh]), ran]
      have here : (position after).1 = (position log).1 := by
        have kept := reconcileOne_position ext time own row.toEcfDocument s log'
        rwa [ran, placed] at kept
      have staged := stage_against s (d := d) fun log' there => next sound' here there
      rw [Program.against_bind, chosen]
      dsimp only
      rw [Program.against_bind, ran, alone]
      rwa [here] at staged

/-- What a log stages. -/
def stagedWrites (log : Log) : List Write :=
  log.flatMap fun e =>
    match e.request with
    | .saveChanges writes => writes
    | _ => []

/-- Requests that stage nothing. -/
def Unsaved : Request → Prop
  | .saveChanges _ => False
  | _ => True

theorem stagedWrites_unsaved {r : Request} (unsaved : Unsaved r) (x : r.Reply) :
    stagedWrites (log ++ [⟨r, x⟩]) = stagedWrites log := by
  have nothing : stagedWrites [⟨r, x⟩] = [] := by
    cases r with
    | saveChanges => exact unsaved.elim
    | _ => rfl
  have split : stagedWrites (log ++ [⟨r, x⟩]) = stagedWrites log ++ stagedWrites [⟨r, x⟩] :=
    List.flatMap_append
  rw [split, nothing, List.append_nil]

theorem clientFor_unsaved {cache : ClientCache} :
    (clientFor services client cache doc).Only Unsaved := by
  unfold clientFor
  dsimp only
  split
  · trivial
  · refine .ite (fun _ => ⟨trivial, fun resolved => ?_⟩) fun _ => trivial
    cases resolved with
    | ok signer => trivial
    | error e => trivial

theorem reconcileAll_unsaved (cache : ClientCache) (due : List EcfDocumentRow) :
    (reconcileAll ext services time client cache due).Only Unsaved := by
  induction due generalizing cache with
  | nil => trivial
  | cons row rest ih =>
    have stage : ∀ d cache, (do
        let staged ← now
        let writes ← reconcileAll ext services time client cache rest
        return .update d staged :: writes : Procedure (List Write)).Only Unsaved :=
      fun d cache => ⟨trivial, fun staged => (ih cache).bind fun writes => trivial⟩
    rw [reconcileAll]
    refine .ite (fun _ => stage _ cache) fun _ => clientFor_unsaved.bind fun chosen => ?_
    refine (reconcileOne_querying.mono ?_).bind fun d => stage d chosen.2
    intro r query
    obtain ⟨client, query⟩ := query
    cases r with
    | saveChanges => exact query.elim
    | _ => trivial

theorem reconcileAll_stages_nothing (cache : ClientCache) (due : List EcfDocumentRow) :
    stagedWrites ((reconcileAll ext services time client cache due).against σ log).2 =
      stagedWrites log :=
  Program.against_keeps (f := stagedWrites) (reconcileAll_unsaved cache due)
    fun _ _ x unsaved => stagedWrites_unsaved unsaved x

/-- **What one pass stages**: every due row's update, each by itself. -/
theorem reconcile_stages (ext : Externals) (services : Services) (client : EcfClient)
    (s : PassSurroundings) :
    stagedWrites ((reconcile ext services client).against s.strategy []).2 =
      stagedFrom ext services s (s.clock 0) client 1 s.due := by
  have sound : CacheSound services s.signer [] := nofun
  obtain ⟨begun, whole, start, nothing⟩ : ∃ begun,
      (reconcile ext services client).against s.strategy [] =
        (do
          let writes ← reconcileAll ext services (s.clock 0) client [] s.due
          if writes ≠ [] then
            let _ ← saveChanges writes : Procedure Unit).against s.strategy begun ∧
      position begun = (1, []) ∧ stagedWrites begun = [] := ⟨_, rfl, rfl, rfl⟩
  have fresh : (position begun).2 = [] := by rw [start]
  obtain ⟨last, ran⟩ := reconcileAll_against ext services s (s.clock 0) client s.due sound fresh
  have unsaved : stagedWrites last = [] := by
    have same : last = ((reconcileAll ext services (s.clock 0) client [] s.due).against
        s.strategy begun).2 := by rw [ran]
    rw [same, reconcileAll_stages_nothing, nothing]
  rw [whole, Program.against_bind, ran, start]
  dsimp only
  split
  · have split : ∀ writes x, stagedWrites (last ++ [⟨.saveChanges writes, x⟩]) =
        stagedWrites last ++ writes := fun writes x => by simp [stagedWrites]
    exact (split _ _).trans (by rw [unsaved, List.nil_append])
  · next no_write =>
    rw [not_not.mp no_write]
    exact unsaved

/-! ## One pass -/

/-- The row is past its polling window: its transmission is a moment, and as many
hours ago. -/
def OutOfWindow (services : Services) (time : ℕ) (doc : EcfDocument) : Prop :=
  ∃ sent, doc.sentToDgiiAt = some sent ∧ parseIsoSeconds sent ≠ 0 ∧
    services.maxPollingWindowHours * 3600 * second ≤ (time : ℤ) - parseIsoSeconds sent * second

theorem windowExhausted_iff : windowExhausted services time doc = true ↔
    OutOfWindow services time doc := by
  unfold windowExhausted OutOfWindow
  cases doc.sentToDgiiAt with
  | none => simp
  | some sent => simp

/-- What a pass stages for a row: an update of its verdict and its bookkeeping. -/
structure Stages (services : Services) (time : ℕ) (doc d : EcfDocument) : Prop
    extends ReconcileWrite doc d where
  /-- A row past its window is left to a person, and not counted. -/
  exhausted : OutOfWindow services time doc → d.state = "RequiresManualReview"
  /-- Every other row is counted, and gets a verdict of DGII at most. -/
  counted : ¬ OutOfWindow services time doc →
    d.statusCheckAttempts = doc.statusCheckAttempts + 1 ∧
      (d.state = doc.state ∨ d.state = "AcceptedByDgii" ∨ d.state = "RejectedByDgii")

/-- A row that was not under review is so exactly past its window. -/
theorem Stages.review_iff (h : Stages services time doc d)
    (before : doc.state ≠ "RequiresManualReview") :
    d.state = "RequiresManualReview" ↔ OutOfWindow services time doc := by
  refine ⟨fun review => ?_, h.exhausted⟩
  by_contra within
  rcases (h.counted within).2 with same | same | same
  · exact before (same ▸ review)
  · exact absurd (same.symm.trans review) (by decide)
  · exact absurd (same.symm.trans review) (by decide)

/-- The rows of `getDueForStatusCheck` are not under review. -/
theorem due_not_reviewed {instant : String → ℤ} {minAge pollDue : String} {limit : ℕ}
    {table : DocumentTable} {row : EcfDocumentRow}
    (due : row ∈ getDueForStatusCheck instant minAge pollDue limit table) :
    row.toEcfDocument.state ≠ "RequiresManualReview" := by
  have chosen := (getDueForStatusCheck_mem due).2
  simp only [dueForStatusCheck, Bool.and_eq_true, Bool.or_eq_true, decide_eq_true_eq] at chosen
  rcases chosen.1.1.1 with state | state
  · rw [state]
    decide
  · rw [state]
    decide

theorem stagedDocument_stages (ext : Externals) (services : Services) (time : ℕ)
    (client : EcfClient) (answers : Strategy Api) (doc : EcfDocument) :
    Stages services time doc (stagedDocument ext services time client answers doc) := by
  unfold stagedDocument
  by_cases past : windowExhausted services time doc = true
  · rw [if_pos past]
    exact { only := rfl, state := .inr (.inr (.inr rfl)), exhausted := fun _ => rfl
            counted := fun within => absurd (windowExhausted_iff.mp past) within }
  · obtain ⟨d, log', ran, checked⟩ := reconcileOne_against ext time client doc answers []
    rw [if_neg past, ran]
    show Stages services time doc d
    exact { only := by rw [checked.only]
            state := checked.state.imp_right fun verdict => verdict.imp_right .inl
            exhausted := fun out => absurd (windowExhausted_iff.mpr out) past
            counted := fun _ => ⟨by rw [checked.only], checked.state⟩ }

/-- Another pass, which meets the same in the row of a number. -/
structure AgreesAt (s s' : PassSurroundings) (i : ℕ) (row : EcfDocumentRow) : Prop where
  due : s'.due[i]? = some row
  signer : s'.signer row.rncEmisor = s.signer row.rncEmisor
  begins : s'.clock 0 = s.clock 0
  answers : s'.answers (i + 1) = s.answers (i + 1)

theorem stagedFrom_length (s : PassSurroundings) (n : ℕ) (due : List EcfDocumentRow) :
    (stagedFrom ext services s time client n due).length = due.length := by
  induction due generalizing n with
  | nil => rfl
  | cons row rest ih => rw [stagedFrom, List.length_cons, ih, List.length_cons]

theorem stagedFrom_at (s : PassSurroundings) {n i : ℕ} {due : List EcfDocumentRow}
    {row : EcfDocumentRow} (found : due[i]? = some row) :
    (stagedFrom ext services s time client n due)[i]? =
      some (.update (stagedDocument ext services time
        (rowClient services s.signer client row.toEcfDocument) (s.answers (n + i))
        row.toEcfDocument) (s.clock (n + i))) := by
  induction due generalizing n i with
  | nil => exact absurd found nofun
  | cons first rest ih =>
    cases i with
    | zero =>
      obtain rfl : first = row := Option.some.inj found
      rfl
    | succ i =>
      rw [stagedFrom, List.getElem?_cons_succ, ih found, Nat.add_right_comm n 1 i, Nat.add_assoc]

/-- **A pass changes only what it should.** It stages one update for every due
row, of its verdict and its bookkeeping; a row goes under review exactly when its
window is over and is counted otherwise; and a pass that meets the same in this
row stages the same for it, whatever it meets in the others. -/
theorem reconcile_exact (ext : Externals) (services : Services) (client : EcfClient)
    (s : PassSurroundings) :
    let staged (s : PassSurroundings) :=
      stagedWrites ((reconcile ext services client).against s.strategy []).2
    (staged s).length = s.due.length ∧
      ∀ i row, s.due[i]? = some row → ∃ d,
        (staged s)[i]? = some (.update d (s.clock (i + 1))) ∧
        Stages services (s.clock 0) row.toEcfDocument d ∧
        (row.state ≠ "RequiresManualReview" →
          (d.state = "RequiresManualReview" ↔
            OutOfWindow services (s.clock 0) row.toEcfDocument)) ∧
        ∀ s', AgreesAt s s' i row → (staged s')[i]? = some (.update d (s'.clock (i + 1))) := by
  intro staged
  have stages : ∀ s, staged s = stagedFrom ext services s (s.clock 0) client 1 s.due :=
    reconcile_stages ext services client
  refine ⟨by rw [stages, stagedFrom_length], fun i row found => ?_⟩
  have own := stagedDocument_stages ext services (s.clock 0)
    (rowClient services s.signer client row.toEcfDocument) (s.answers (i + 1)) row.toEcfDocument
  refine ⟨_, ?_, own, own.review_iff, fun s' agrees => ?_⟩
  · rw [stages, stagedFrom_at s found, Nat.add_comm 1 i]
  · have signer : rowClient services s'.signer client row.toEcfDocument =
        rowClient services s.signer client row.toEcfDocument := by
      unfold rowClient
      rw [show s'.signer row.toEcfDocument.rncEmisor = s.signer row.toEcfDocument.rncEmisor from
        agrees.signer]
    rw [stages, stagedFrom_at s' agrees.due, Nat.add_comm 1 i, signer, agrees.begins,
      agrees.answers]

end EcfDgii.ReconcilePasses
