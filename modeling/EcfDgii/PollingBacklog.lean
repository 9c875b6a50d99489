import EcfDgii.AwaitedVerdicts
import EcfDgii.ReconcilePasses
import EcfDgii.UncertainDocuments
import Mathlib.Data.List.Sort

/-!
What passes of the background thread do to a backlog.

A pass asks about a hundred due rows at most, those sent first, and commits all of
its updates at once.  While more rows than that await a verdict, the later ones
are not asked about.  None waits for ever: once the polling window of a row is
over, so is that of every row sent before it, and each pass that gets through
leaves a hundred of them to a person.  `backlog_drains` counts this over any
sequence of passes, of which some fail or die.
-/

set_option autoImplicit false

namespace EcfDgii.PollingBacklog

open EcfDgii.Timestamps EcfDgii.Documents EcfDgii.Tables EcfDgii.Programs EcfDgii.Execution
open EcfDgii.Engine EcfDgii.Transmission EcfDgii.StatusUpdates EcfDgii.Traces EcfDgii.StatusTrace
open EcfDgii.TransportTrace EcfDgii.DocumentInvariants EcfDgii.AwaitedVerdicts
open EcfDgii.ReconcilePasses

/-! ## Lists -/

/-- Lists related one by one: what is in the first has its own in the second. -/
theorem forall₂_left {α β : Type} {R : α → β → Prop} {l : List α} {m : List β}
    (h : List.Forall₂ R l m) {a : α} (member : a ∈ l) : ∃ b ∈ m, R a b := by
  induction h with
  | nil => exact absurd member List.not_mem_nil
  | cons related _ ih =>
    rcases List.mem_cons.mp member with rfl | later
    · exact ⟨_, List.mem_cons_self, related⟩
    · obtain ⟨b, among, related⟩ := ih later
      exact ⟨b, List.mem_cons_of_mem _ among, related⟩

theorem forall₂_right {α β : Type} {R : α → β → Prop} {l : List α} {m : List β}
    (h : List.Forall₂ R l m) {b : β} (member : b ∈ m) : ∃ a ∈ l, R a b :=
  forall₂_left h.flip member

/-- The first elements of a sorted list are those of a property that holds below. -/
theorem length_filter_drop {α : Type} {r : α → α → Prop} {p : α → Bool} {l : List α}
    (sorted : l.Pairwise r) (below : ∀ a ∈ l, ∀ b ∈ l, r a b → p b = true → p a = true) (n : ℕ) :
    ((l.drop n).filter p).length = (l.filter p).length - n := by
  induction l generalizing n with
  | nil => simp
  | cons a rest ih =>
    obtain ⟨first, sorted⟩ := List.pairwise_cons.mp sorted
    have below' : ∀ b ∈ rest, p b = true → p a = true := fun b member =>
      below a List.mem_cons_self b (List.mem_cons_of_mem _ member) (first b member)
    cases n with
    | zero => simp
    | succ n =>
      rw [List.drop_succ_cons, ih sorted fun b member c member' =>
        below b (List.mem_cons_of_mem _ member) c (List.mem_cons_of_mem _ member')]
      by_cases here : p a = true
      · rw [List.filter_cons_of_pos here, List.length_cons, Nat.add_sub_add_right]
      · have none : rest.filter p = [] := List.filter_eq_nil_iff.mpr fun b member later =>
          here (below' b member later)
        rw [List.filter_cons_of_neg here, none, List.length_nil, Nat.zero_sub, Nat.zero_sub]

/-! ## The backlog -/

variable (ext : Externals) (services : Services) (T : ℤ)

/-- The row awaits its verdict and was sent by a moment. -/
def Overdue (row : EcfDocumentRow) : Bool :=
  decide (Awaited row.state) && !row.isDeleted &&
    match row.sentToDgiiAt with
    | some sent => ext.instant sent ≤ T
    | none => false

/-- The rows sent by a moment that still await their verdict. -/
def backlog (table : DocumentTable) : List EcfDocumentRow := table.rows.filter (Overdue ext T)

/-- The cutoff so many minutes before a time. -/
def cutoff (time : ℕ) (minutes : ℤ) : String := toIsoUtc (time - minutes * 60 * second).toNat

/-- The rows a pass at a time is about. -/
def dueAt (time : ℕ) (table : DocumentTable) : List EcfDocumentRow :=
  getDueForStatusCheck ext.instant (cutoff time services.minDocumentAgeMinutes)
    (cutoff time services.pollingIntervalMinutes) 100 table

/-- What a pass makes of a document: one past its window it leaves to a person. -/
structure Leaves (time : ℕ) (doc d : EcfDocument) : Prop where
  write : ReconcileWrite doc d
  review : OutOfWindow services time doc → d.state = "RequiresManualReview"

/-- What a pass stages of a row. -/
inductive Covers (time : ℕ) (row : EcfDocumentRow) : Write → Prop
  | update {d : EcfDocument} (staged : ℕ) (leaves : Leaves services time row.toEcfDocument d) :
      Covers time row (.update d staged)

/-- What a pass that gets through does to the table. -/
def Passed (time : ℕ) (table next : DocumentTable) : Prop :=
  ∃ writes, List.Forall₂ (Covers services time) (dueAt ext services time table) writes ∧
    commit table writes = .ok next

/-- The database has answered a pass: with the due rows, or that its updates are
committed. -/
def databaseAnswered : Event Api → Bool
  | ⟨.documentsDue .., .ok _⟩ => true
  | ⟨.saveChanges _, .ok _⟩ => true
  | _ => false

/-- A pass has come to its end, and the database has answered what it asked last. -/
def completed (run : Run Api Unit World) : Bool :=
  match run.outcome with
  | .returned _ => run.log.getLast?.any databaseAnswered
  | _ => false

variable {ext services T} {row : EcfDocumentRow} {table next : DocumentTable} {time : ℕ}
  {log : Log} {w : World} {write : Write}

theorem overdue_iff : Overdue ext T row = true ↔
    Awaited row.state ∧ row.isDeleted = false ∧
      ∃ sent, row.sentToDgiiAt = some sent ∧ ext.instant sent ≤ T := by
  unfold Overdue
  cases row.sentToDgiiAt with
  | none => simp
  | some sent => simp [and_assoc]

theorem mem_backlog : row ∈ backlog ext T table ↔
    row ∈ table.rows ∧ Overdue ext T row = true := List.mem_filter

/-! ## One pass -/

/-- **A pass stages an update of each row**, whatever DGII answers. -/
theorem reconcileAll_covers (time : ℕ) (client : EcfClient) (cache : ClientCache)
    (due : List EcfDocumentRow) :
    (reconcileAll ext services time client cache due).Follows (.logging ReconcileAsks)
      (fun _ writes => List.Forall₂ (Covers services time) due writes) (fun _ _ => False) log := by
  induction due generalizing log cache with
  | nil => exact .nil
  | cons row rest ih =>
    have tail : ∀ a d staged cache, Covers services time row (.update d staged) →
        (reconcileAll ext services time client cache rest >>= fun writes =>
          pure (.update d staged :: writes)).Follows (.logging ReconcileAsks)
          (fun _ writes => List.Forall₂ (Covers services time) (row :: rest) writes)
          (fun _ _ => False) a := fun a d staged cache covers =>
      (ih cache).bind fun b writes others => .cons covers others
    rw [reconcileAll]
    dsimp only
    by_cases spent : windowExhausted services time row.toEcfDocument = true
    · rw [if_pos spent]
      refine quiet_bind_follows reconcileAsks_outside .now trivial trivial
        fun (staged : ℕ) a _ _ => ?_
      exact tail a _ staged cache (.update staged ⟨⟨rfl, .inr (.inr (.inr rfl))⟩, fun _ => rfl⟩)
    · rw [if_neg spent]
      refine (clientFor_silent client cache row.toEcfDocument log).bind ?_
      rintro a ⟨rowClient, cache⟩ -
      refine (reconcileOne_follows time rowClient row.toEcfDocument).bind ?_
      rintro b d ⟨-, write⟩
      refine quiet_bind_follows reconcileAsks_outside .now trivial trivial
        fun (staged : ℕ) c _ _ => ?_
      exact tail c d staged cache (.update staged ⟨write, fun out =>
        absurd (windowExhausted_iff.mpr out) spent⟩)

/-- A run of a program that commits nothing leaves the documents. -/
theorem documents_of_unsaved {α : Type} {p : Procedure α} (unsaved : p.Only Unsaved)
    (inputs : ℕ → Option Input) (w : World) (log : Log) :
    ((host ext).run inputs w log p).world.documents = w.documents := by
  have follows : p.Follows (.logging fun _ => Unsaved) (fun _ _ => True) (fun _ _ => True) log :=
    unsaved.follows (P := fun _ => True) (fun _ _ h => h) (fun _ _ _ => trivial) trivial
  refine (Host.run_keeps (J := fun _ (u : World) => u.documents = w.documents) ?_ follows rfl).1
  intro log u r input unsaved same
  refine (documents_of_other fun writes saves => ?_).trans same
  rw [saves] at unsaved
  exact unsaved

/-- The clock does not go back. -/
theorem clock_run {α : Type} (inputs : ℕ → Option Input) (w : World) (log : Log)
    (p : Procedure α) : w.clock ≤ ((host ext).run inputs w log p).world.clock := by
  induction p generalizing inputs w log with
  | done a => exact le_rfl
  | throw e => exact le_rfl
  | ask r next ih =>
    rw [Host.run]
    split
    · exact le_rfl
    · next input _ =>
      refine le_trans ?_ (ih _ _ _ _)
      show w.clock ≤ (answerAt ext input { w with clock := w.clock + input.elapsed } r).2.clock
      rw [UncertainDocuments.clock_answer]
      exact Nat.le_add_right _ _

theorem completed_last (log : Log) (e : Event Api) (w : World) :
    completed ⟨.returned (), log ++ [e], w⟩ = databaseAnswered e := by
  simp [completed]

/-- A request is answered, and the rest runs on. -/
theorem run_asked {α : Type} {p : Procedure α} {r : Request} {next : r.Reply → Procedure α}
    {inputs : ℕ → Option Input} {input : Input} (asks : p = .ask r next)
    (given : inputs 0 = some input) (w : World) (log : Log) :
    (host ext).run inputs w log p =
      (host ext).run (fun n => inputs (n + 1)) ((host ext).answer input w r).2
        (log ++ [⟨r, ((host ext).answer input w r).1⟩]) (next ((host ext).answer input w r).1) := by
  rw [asks, Host.run, given]

theorem run_killed {α : Type} {p : Procedure α} {r : Request} {next : r.Reply → Procedure α}
    {inputs : ℕ → Option Input} (asks : p = .ask r next) (killed : inputs 0 = none) (w : World)
    (log : Log) : (host ext).run inputs w log p = ⟨.killed, log, w⟩ := by
  rw [asks, Host.run, killed]

/-- The commit of a pass. -/
theorem commit_run (writes : List Write) (inputs : ℕ → Option Input) (w : World) (log : Log) :
    let run := (host ext).run inputs w log (do let _ ← saveChanges writes : Procedure Unit)
    completed run = true ∧ commit w.documents writes = .ok run.world.documents ∨
      completed run = false ∧ run.world.documents = w.documents := by
  intro run
  cases given : inputs 0 with
  | none =>
    have killed : run = ⟨.killed, log, w⟩ := run_killed rfl given w log
    rw [killed]
    exact .inr ⟨rfl, rfl⟩
  | some input =>
    let u : World := { w with clock := w.clock + input.elapsed }
    have whole : run = ⟨.returned (),
        log ++ [⟨.saveChanges writes, (answerAt ext input u (.saveChanges writes)).1⟩],
        (answerAt ext input u (.saveChanges writes)).2⟩ := run_asked rfl given w log
    rw [whole, completed_last]
    obtain ⟨⟨e, refused⟩, same⟩ | ⟨saved, committed⟩ := answer_saveChanges ext input u writes
    · rw [refused, same]
      exact .inr ⟨rfl, rfl⟩
    · rw [saved]
      exact .inl ⟨rfl, committed⟩

/-- The updates of a pass, and their commit. -/
theorem updates_run (client : EcfClient) {row : EcfDocumentRow} {rest : List EcfDocumentRow}
    (inputs : ℕ → Option Input) :
    let run := (host ext).run inputs w log (do
      let writes ← reconcileAll ext services time client [] (row :: rest)
      if writes ≠ [] then
        let _ ← saveChanges writes)
    (completed run = true ∧ ∃ writes, List.Forall₂ (Covers services time) (row :: rest) writes ∧
        commit w.documents writes = .ok run.world.documents) ∨
      completed run = false ∧ run.world.documents = w.documents := by
  have same : ((host ext).run inputs w log
      (reconcileAll ext services time client [] (row :: rest))).world.documents = w.documents :=
    documents_of_unsaved (reconcileAll_unsaved [] _) inputs w log
  have staged : ((host ext).run inputs w log
      (reconcileAll ext services time client [] (row :: rest))).outcome.Satisfies
        (List.Forall₂ (Covers services time) (row :: rest)) fun _ => False :=
    (Host.run_keeps (J := fun _ _ => True) (fun _ _ _ _ _ _ => trivial)
      (reconcileAll_covers time client [] (row :: rest)) trivial).2
  rw [Host.run_bind_remaining]
  generalize (host ext).run inputs w log
    (reconcileAll ext services time client [] (row :: rest)) = first at same staged
  obtain ⟨outcome, log', u⟩ := first
  cases outcome with
  | threw e => exact staged.elim
  | killed => exact .inr ⟨rfl, same⟩
  | returned writes =>
    have covers : List.Forall₂ (Covers services time) (row :: rest) writes := staged
    have some_writes : writes ≠ [] := by
      rintro rfl
      cases covers
    dsimp only
    rw [if_pos some_writes]
    rw [show w.documents = u.documents from same.symm]
    exact (commit_run writes (remaining inputs log log') u log').imp_left fun whole =>
      ⟨whole.1, writes, covers, whole.2⟩

/-- A pass from its query on. -/
theorem query_run (client : EcfClient) {inputs : ℕ → Option Input}
    {next : Except String (List EcfDocumentRow) → Procedure Unit}
    (failed : ∀ e, next (.error e) = .done ())
    (found : ∀ due, next (.ok due) = do
      let writes ← reconcileAll ext services time client [] due
      if writes ≠ [] then
        let _ ← saveChanges writes) :
    let run := (host ext).run inputs w log (.ask (.documentsDue
      (cutoff time services.minDocumentAgeMinutes) (cutoff time services.pollingIntervalMinutes)
      100) next)
    completed run = true ∧ Passed ext services time w.documents run.world.documents ∨
      completed run = false ∧ run.world.documents = w.documents := by
  intro run
  cases given : inputs 0 with
  | none =>
    have killed : run = ⟨.killed, log, w⟩ := run_killed rfl given w log
    rw [killed]
    exact .inr ⟨rfl, rfl⟩
  | some input =>
    let r : Request := .documentsDue (cutoff time services.minDocumentAgeMinutes)
      (cutoff time services.pollingIntervalMinutes) 100
    let u : World := { w with clock := w.clock + input.elapsed }
    have asked : run = (host ext).run (fun n => inputs (n + 1)) u
        (log ++ [⟨r, input.database (.ok (dueAt ext services time w.documents))⟩])
        (next (input.database (.ok (dueAt ext services time w.documents)))) :=
      run_asked rfl given w log
    cases failure : input.databaseError with
    | some e =>
      have refused : run = ⟨.returned (), log ++ [⟨r, .error e⟩], u⟩ := by
        rw [asked, Input.database, failure]
        dsimp only
        rw [failed]
        rfl
      rw [refused, completed_last]
      exact .inr ⟨rfl, rfl⟩
    | none =>
      rw [Input.database, failure] at asked
      dsimp only at asked
      rw [found] at asked
      cases due : dueAt ext services time w.documents with
      | nil =>
        have idle : run = ⟨.returned (), log ++ [⟨r, .ok []⟩], u⟩ := by
          rw [asked, due]
          rfl
        rw [idle, completed_last]
        exact .inl ⟨rfl, [], due ▸ .nil, rfl⟩
      | cons row rest =>
        rw [asked, due, Passed, due]
        exact updates_run client _

/-- **One pass** updates the rows that are due, or leaves the table. -/
theorem pass_run (inputs : ℕ → Option Input) (w : World) :
    let run := (host ext).run inputs w [] (reconcilePass ext services)
    (completed run = true ∧ ∃ time, w.clock ≤ time ∧
        Passed ext services time w.documents run.world.documents) ∨
      completed run = false ∧ run.world.documents = w.documents := by
  intro run
  cases begins : services.ecfClient with
  | error e =>
    have idle : run = ⟨.returned (), [], w⟩ := by
      show Host.run _ _ _ _ (reconcilePass ext services) = _
      rw [reconcilePass, begins]
      rfl
    rw [idle]
    exact .inr ⟨rfl, rfl⟩
  | ok client =>
    have pass : run = (host ext).run inputs w [] (reconcile ext services client) := by
      show Host.run _ _ _ _ (reconcilePass ext services) = _
      rw [reconcilePass, begins]
    cases first : inputs 0 with
    | none =>
      have killed : run = ⟨.killed, [], w⟩ := pass.trans (run_killed rfl first w [])
      rw [killed]
      exact .inr ⟨rfl, rfl⟩
    | some input =>
      have asked := pass.trans (run_asked rfl first w [])
      rw [asked]
      exact (query_run client (fun _ => rfl) fun _ => rfl).imp_left fun whole =>
        ⟨whole.1, _, Nat.le_add_right _ _, whole.2⟩

/-! ## The table after a pass -/

/-- The backlog can be taken on: it is old enough, its polling window is over, and no
row of it has been checked too recently.  Its transmissions are read in the code as
they are in the database. -/
structure Ready (ext : Externals) (services : Services) (T : ℤ) (time : ℕ)
    (table : DocumentTable) : Prop where
  old : T ≤ ((time - services.minDocumentAgeMinutes * 60 * second).toNat / second : ℕ)
  spent : services.maxPollingWindowHours * 3600 * second ≤ (time : ℤ) - T * second
  read : ∀ row ∈ backlog ext T table, ∀ sent, row.sentToDgiiAt = some sent →
    parseIsoSeconds sent ≠ 0 ∧ ext.instant sent = parseIsoSeconds sent
  rested : ∀ row ∈ backlog ext T table, ∀ checked, row.lastStatusCheckAt = some checked →
    ext.instant checked ≤ ((time - services.pollingIntervalMinutes * 60 * second).toNat / second : ℕ)

theorem Ready.later {time' : ℕ} (ready : Ready ext services T time table) (later : time ≤ time')
    (fewer : ∀ row ∈ backlog ext T next, row ∈ backlog ext T table) :
    Ready ext services T time' next where
  old := ready.old.trans (by gcongr ((?_ / _ : ℕ) : ℤ); omega)
  spent := ready.spent.trans (by gcongr)
  read row member := ready.read row (fewer row member)
  rested row member checked last := (ready.rested row (fewer row member) checked last).trans
    (by gcongr ((?_ / _ : ℕ) : ℤ); omega)

/-- The database reads what the code writes. -/
def Stamps (ext : Externals) : Prop :=
  ∀ time, ext.instant (toIsoUtc time) = (time / second : ℕ)

theorem Ready.due (ready : Ready ext services T time table) (stamps : Stamps ext)
    (member : row ∈ backlog ext T table) :
    dueForStatusCheck ext.instant (cutoff time services.minDocumentAgeMinutes)
      (cutoff time services.pollingIntervalMinutes) row = true := by
  obtain ⟨awaited, present, sent, sentAt, early⟩ := overdue_iff.mp (mem_backlog.mp member).2
  refine due_of_dated (fun _ => by rw [sentAt]; rfl) awaited present ?_ ?_
  · intro sent' sentAt'
    obtain rfl := Option.some.inj (sentAt.symm.trans sentAt')
    rw [cutoff, stamps]
    exact early.trans ready.old
  · intro checked last
    rw [cutoff, stamps]
    exact ready.rested row member checked last

theorem Ready.out (ready : Ready ext services T time table) (member : row ∈ backlog ext T table) :
    OutOfWindow services time row.toEcfDocument := by
  obtain ⟨-, -, sent, sentAt, early⟩ := overdue_iff.mp (mem_backlog.mp member).2
  obtain ⟨dated, same⟩ := ready.read row member sent sentAt
  refine ⟨sent, sentAt, dated, ready.spent.trans ?_⟩
  rw [same] at early
  gcongr

/-- A row after updates is one of them, or was there and is not among them. -/
theorem mem_updates {writes : List Write} {rows : List EcfDocumentRow}
    (updates : ∀ write ∈ writes, ∃ d staged, write = .update d staged)
    (member : row ∈ writes.foldl Write.apply rows) :
    (∃ write ∈ writes, write.doc.id = row.id ∧ row.toEcfDocument = write.doc) ∨
      row ∈ rows ∧ ∀ write ∈ writes, write.doc.id ≠ row.id := by
  induction writes generalizing rows with
  | nil => exact .inr ⟨member, fun _ among => absurd among List.not_mem_nil⟩
  | cons write rest ih =>
    rcases ih (fun other among => updates other (List.mem_cons_of_mem _ among)) member with
      ⟨other, among, written⟩ | ⟨earlier, others⟩
    · exact .inl ⟨other, List.mem_cons_of_mem _ among, written⟩
    · obtain ⟨d, staged, rfl⟩ := updates write List.mem_cons_self
      obtain ⟨old, here, rfl⟩ := List.mem_map.mp earlier
      by_cases same : old.id = d.id
      · rw [if_pos same]
        exact .inl ⟨_, List.mem_cons_self, rfl, rfl⟩
      · rw [if_neg same] at others ⊢
        refine .inr ⟨here, fun write among => ?_⟩
        rcases List.mem_cons.mp among with rfl | later
        · exact Ne.symm same
        · exact others write later

/-- What a pass has left of a row: what it makes of a row that was due, or the row
itself, which was not. -/
theorem Passed.leaves (passed : Passed ext services time table next) (member : row ∈ next.rows) :
    (∃ old ∈ dueAt ext services time table,
        Leaves services time old.toEcfDocument row.toEcfDocument) ∨
      row ∈ table.rows ∧ row ∉ dueAt ext services time table := by
  obtain ⟨writes, covers, committed⟩ := passed
  have updates : ∀ write ∈ writes, ∃ d staged, write = .update d staged := by
    intro write among
    obtain ⟨old, -, covered⟩ := forall₂_right covers among
    cases covered with
    | update => exact ⟨_, _, rfl⟩
  rw [commit_rows committed] at member
  rcases mem_updates updates member with ⟨write, among, -, written⟩ | ⟨here, others⟩
  · obtain ⟨old, due, covered⟩ := forall₂_right covers among
    cases covered with
    | update staged leaves => exact .inl ⟨old, due, written ▸ leaves⟩
  · refine .inr ⟨here, fun due => ?_⟩
    obtain ⟨write, among, covered⟩ := forall₂_left covers due
    cases covered with
    | update staged leaves => exact others _ among leaves.write.id

/-- A pass keeps the rows, under their ids. -/
theorem Passed.keeps (passed : Passed ext services time table next) (member : row ∈ table.rows) :
    ∃ later ∈ next.rows, later.id = row.id := by
  obtain ⟨writes, -, committed⟩ := passed
  obtain ⟨later, here, same, -⟩ := commit_keeps (P := fun _ => True) committed member trivial
    fun _ _ _ _ _ => trivial
  exact ⟨later, here, same⟩

/-- A due row awaits its verdict, and has been sent. -/
theorem due_iff {minAge pollDue : String}
    (due : dueForStatusCheck ext.instant minAge pollDue row = true) :
    Awaited row.state ∧ row.isDeleted = false ∧ ∃ sent, row.sentToDgiiAt = some sent := by
  simp only [dueForStatusCheck, Bool.and_eq_true, Bool.or_eq_true, decide_eq_true_eq,
    Bool.not_eq_true'] at due
  refine ⟨due.1.1.1, due.2, ?_⟩
  cases sentAt : row.sentToDgiiAt with
  | none => simp [sentAt] at due
  | some sent => exact ⟨sent, rfl⟩

theorem due_mem (due : row ∈ dueAt ext services time table) :
    row ∈ table.rows ∧ Awaited row.state ∧ row.isDeleted = false := by
  obtain ⟨member, chosen⟩ := getDueForStatusCheck_mem due
  obtain ⟨awaited, kept, -⟩ := due_iff chosen
  exact ⟨member, awaited, kept⟩

/-- A pass leaves a row that was not due. -/
theorem Passed.others (passed : Passed ext services time table next) (member : row ∈ table.rows)
    (other : row ∉ dueAt ext services time table) : row ∈ next.rows := by
  obtain ⟨later, here, same⟩ := passed.keeps member
  rcases passed.leaves here with ⟨old, due, leaves⟩ | ⟨there, -⟩
  · have own : old.id = row.id := leaves.write.id.symm.trans same
    obtain rfl := DocumentTable.eq_of_id (due_mem due).1 member own
    exact absurd due other
  · rwa [← DocumentTable.eq_of_id there member same]

/-- What is left of the backlog was in it, and not due. -/
theorem Passed.remains (passed : Passed ext services time table next)
    (ready : Ready ext services T time table) (member : row ∈ backlog ext T next) :
    row ∈ backlog ext T table ∧ row ∉ dueAt ext services time table := by
  obtain ⟨here, overdue⟩ := mem_backlog.mp member
  rcases passed.leaves here with ⟨old, due, leaves⟩ | ⟨there, other⟩
  · obtain ⟨awaited, -, sent, sentAt, early⟩ := overdue_iff.mp overdue
    obtain ⟨present, before, kept⟩ := due_mem due
    have was : old ∈ backlog ext T table := mem_backlog.mpr ⟨present, overdue_iff.mpr
      ⟨before, kept, sent, leaves.write.sentAt.symm.trans sentAt, early⟩⟩
    have review : row.state = "RequiresManualReview" := leaves.review (ready.out was)
    rw [review] at awaited
    exact absurd awaited (by decide)
  · exact ⟨mem_backlog.mpr ⟨there, overdue⟩, other⟩

/-- The order of a pass: by the time of transmission. -/
def BySent (ext : Externals) (a b : EcfDocumentRow) : Prop :=
  ext.instant (a.sentToDgiiAt.getD "") ≤ ext.instant (b.sentToDgiiAt.getD "")

instance : IsTrans EcfDocumentRow (BySent ext) := ⟨fun _ _ _ => le_trans⟩

instance : Std.Total (BySent ext) := ⟨fun _ _ => le_total _ _⟩

instance : DecidableRel (BySent ext) := fun _ _ => inferInstanceAs (Decidable (_ ≤ _))

/-- All rows that are due, in that order. -/
def queue (ext : Externals) (services : Services) (time : ℕ) (table : DocumentTable) :
    List EcfDocumentRow :=
  (table.rows.filter (dueForStatusCheck ext.instant (cutoff time services.minDocumentAgeMinutes)
    (cutoff time services.pollingIntervalMinutes))).insertionSort (BySent ext)

theorem mem_queue : row ∈ queue ext services time table ↔ row ∈ table.rows ∧
    dueForStatusCheck ext.instant (cutoff time services.minDocumentAgeMinutes)
      (cutoff time services.pollingIntervalMinutes) row = true :=
  (List.mem_insertionSort _).trans List.mem_filter

/-- Whoever is before an overdue row is overdue. -/
theorem overdue_before {a b : EcfDocumentRow} (member : a ∈ queue ext services time table)
    (before : BySent ext a b) (overdue : Overdue ext T b = true) : Overdue ext T a = true := by
  obtain ⟨awaited, kept, sent, sentAt⟩ := due_iff (mem_queue.mp member).2
  obtain ⟨-, -, sent', sentAt', early⟩ := overdue_iff.mp overdue
  rw [BySent, sentAt, sentAt'] at before
  exact overdue_iff.mpr ⟨awaited, kept, sent, sentAt, before.trans early⟩

/-- **A pass takes a hundred off the backlog.** -/
theorem Passed.fewer (passed : Passed ext services time table next)
    (ready : Ready ext services T time table) (stamps : Stamps ext) :
    (backlog ext T next).length ≤ (backlog ext T table).length - 100 := by
  have unique : (backlog ext T next).Nodup := (List.Nodup.of_map _ next.ids).filter _
  have behind : ∀ row ∈ backlog ext T next,
      row ∈ ((queue ext services time table).drop 100).filter (Overdue ext T) := by
    intro row member
    obtain ⟨was, other⟩ := passed.remains ready member
    have queued : row ∈ queue ext services time table :=
      mem_queue.mpr ⟨(mem_backlog.mp was).1, ready.due stamps was⟩
    rw [← List.take_append_drop 100 (queue ext services time table)] at queued
    exact List.mem_filter.mpr ⟨(List.mem_append.mp queued).resolve_left other,
      (mem_backlog.mp was).2⟩
  have sorted : (queue ext services time table).Pairwise (BySent ext) :=
    List.pairwise_insertionSort _ _
  have among : ((queue ext services time table).filter (Overdue ext T)).length ≤
      (backlog ext T table).length := by
    rw [queue, ((List.perm_insertionSort (BySent ext) _).filter (Overdue ext T)).length_eq]
    exact (List.filter_sublist.filter _).length_le
  calc (backlog ext T next).length
      ≤ (((queue ext services time table).drop 100).filter (Overdue ext T)).length :=
        (List.subperm_of_subset unique behind).length_le
    _ = ((queue ext services time table).filter (Overdue ext T)).length - 100 :=
        length_filter_drop sorted (fun a member _ _ => overdue_before member) 100
    _ ≤ (backlog ext T table).length - 100 := Nat.sub_le_sub_right among 100

/-! ## Passes one after another -/

/-- A row of the backlog is as it was, or left to a person. -/
def Left (row : EcfDocumentRow) (table : DocumentTable) : Prop :=
  row ∈ table.rows ∨ ∃ later ∈ table.rows, later.id = row.id ∧ later.state = "RequiresManualReview"

/-- A pass leaves it so. -/
theorem Passed.left (passed : Passed ext services time table next)
    (ready : Ready ext services T time table) (overdue : Overdue ext T row = true)
    (left : Left row table) : Left row next := by
  rcases left with here | ⟨later, here, same, review⟩
  · by_cases due : row ∈ dueAt ext services time table
    · obtain ⟨after, there, same⟩ := passed.keeps here
      refine .inr ⟨after, there, same, ?_⟩
      rcases passed.leaves there with ⟨old, due', leaves⟩ | ⟨before, other⟩
      · have own : old.id = row.id := leaves.write.id.symm.trans same
        obtain rfl := DocumentTable.eq_of_id (due_mem due').1 here own
        exact leaves.review (ready.out (mem_backlog.mpr ⟨here, overdue⟩))
      · exact absurd (DocumentTable.eq_of_id before here same ▸ due) other
    · exact .inl (passed.others here due)
  · refine .inr ⟨later, passed.others here fun due => ?_, same, review⟩
    have awaited := (due_mem due).2.1
    rw [review] at awaited
    exact absurd awaited (by decide)

/-- What passes have done to a backlog, of which so many got through. -/
structure Drained (ext : Externals) (T : ℤ) (w₀ w : World) (n : ℕ) : Prop where
  clock : w₀.clock ≤ w.clock
  within : ∀ row ∈ backlog ext T w.documents, row ∈ backlog ext T w₀.documents
  fewer : (backlog ext T w.documents).length ≤ (backlog ext T w₀.documents).length - 100 * n
  left : ∀ row ∈ backlog ext T w₀.documents, Left row w.documents

theorem drained_start (ext : Externals) (T : ℤ) (w : World) : Drained ext T w w 0 where
  clock := le_rfl
  within _ member := member
  fewer := le_rfl
  left _ member := .inl (mem_backlog.mp member).1

/-- **Step.** One more pass. -/
theorem Drained.step {w₀ : World} {n : ℕ} (drained : Drained ext T w₀ w n)
    (ready : Ready ext services T w₀.clock w₀.documents) (stamps : Stamps ext)
    (inputs : ℕ → Option Input) :
    let run := (host ext).run inputs w [] (reconcilePass ext services)
    Drained ext T w₀ run.world (n + if completed run then 1 else 0) := by
  intro run
  have clock : w₀.clock ≤ run.world.clock := drained.clock.trans (clock_run inputs w [] _)
  obtain ⟨whole, time, later, passed⟩ | ⟨part, same⟩ : (completed run = true ∧
      ∃ time, w.clock ≤ time ∧ Passed ext services time w.documents run.world.documents) ∨
        completed run = false ∧ run.world.documents = w.documents := pass_run inputs w
  · have ready := ready.later (drained.clock.trans later) drained.within
    rw [if_pos whole]
    refine ⟨clock, fun row member => drained.within row (passed.remains ready member).1, ?_,
      fun row member => passed.left ready (mem_backlog.mp member).2 (drained.left row member)⟩
    have fewer := passed.fewer ready stamps
    have before := drained.fewer
    omega
  · rw [if_neg (by rw [part]; exact Bool.false_ne_true)]
    exact ⟨clock, same ▸ drained.within, same ▸ drained.fewer, same ▸ drained.left⟩

/-- **Backlogs drain.** Passes of the background thread run one after another, some of
them killed or refused by the database, whatever DGII answers.  Each that gets
through takes a hundred rows off a backlog whose polling window is over, or all that
are left; and a row of the backlog is as it was, or left to a person. -/
theorem backlog_drains (ext : Externals) (services : Services) (T : ℤ) (stamps : Stamps ext)
    {w₀ w : World} {past : List (Episode Operation Api Unit World)}
    (session : Session (host ext) (program ext services) w₀ past w)
    (passes : ∀ e ∈ past, e.operation = .reconcile)
    (ready : Ready ext services T w₀.clock w₀.documents) :
    (backlog ext T w.documents).length ≤
        (backlog ext T w₀.documents).length - 100 * past.countP (fun e => completed e.run) ∧
      ∀ row ∈ backlog ext T w₀.documents, Left row w.documents := by
  have drained : Drained ext T w₀ w (past.countP fun e => completed e.run) := by
    induction session with
    | start => exact drained_start ext T w₀
    | operate op inputs before ih =>
      have earlier := ih fun e member => passes e (List.mem_append_left _ member)
      obtain rfl : op = .reconcile := passes _ (List.mem_append_right _ (List.mem_singleton_self _))
      rw [List.countP_append, List.countP_singleton]
      exact earlier.step ready stamps inputs
  exact ⟨drained.fewer, drained.left⟩

/-- A row sent long ago. -/
def forgottenRow : EcfDocumentRow where
  id := "D-1"
  eNcf := "E310000000001"
  rncEmisor := "101672919"
  sourceTxnId := "TXN-1"
  editSequence := "1"
  state := "SentToDgii"
  sentToDgiiAt := some "2023-11-01 00:00:00+00"
  createdAt := ""

def forgottenWorld : World :=
  { sampleWorld with documents := ⟨[forgottenRow], by decide, by decide, by decide⟩ }

/-- A pass over it. -/
def forgottenPass : Episode Operation Api Unit World where
  operation := .reconcile
  before := forgottenWorld
  run := (host sampleExternals).run (fun _ => some {}) forgottenWorld []
    (program sampleExternals sampleServices .reconcile)

theorem forgotten_session : Session (host sampleExternals)
    (program sampleExternals sampleServices) forgottenWorld [forgottenPass]
    forgottenPass.run.world :=
  have begun : Session (host sampleExternals) (program sampleExternals sampleServices)
      forgottenWorld [] forgottenWorld := .start
  begun.operate Operation.reconcile fun _ => some ({} : Input)

theorem forgotten_ready : Ready sampleExternals sampleServices 1699000000 forgottenWorld.clock
    forgottenWorld.documents where
  old := by decide
  spent := by decide
  read row member sent sentAt := by
    obtain rfl := List.mem_singleton.mp (mem_backlog.mp member).1
    cases sentAt
    exact ⟨by decide, rfl⟩
  rested row member checked last := by
    obtain rfl := List.mem_singleton.mp (mem_backlog.mp member).1
    cases last

theorem backlog_drains_forgotten :
    (backlog sampleExternals 1699000000 forgottenPass.run.world.documents).length ≤ 1 - 100 * 1 ∧
      ∀ row ∈ backlog sampleExternals 1699000000 forgottenWorld.documents,
        Left row forgottenPass.run.world.documents :=
  backlog_drains sampleExternals sampleServices 1699000000 parseIsoSeconds_toIsoUtc forgotten_session
    (by simp [forgottenPass]) forgotten_ready

end EcfDgii.PollingBacklog
