import EcfDgii.TenantReads

/-!
Lookups by eNCF beside other issuers' documents.

An eNCF is unique per issuer and ambiente, but the repository looks documents
up by the eNCF alone and takes whichever row comes first; the callers compare
the issuer or the tenant afterwards.  So the answer about a document depends on
the others that carry its eNCF, unless all of them are deleted.

The comparison is of two runs, with some documents in the table and without
them.  Where they are deleted the runs agree request by request.  Where one is
not, the database has a choice on which the answers differ.
-/

set_option autoImplicit false

namespace EcfDgii.EncfLookups

open EcfDgii.Documents EcfDgii.DgiiReplies EcfDgii.Tables EcfDgii.Programs EcfDgii.Execution
open EcfDgii.Engine EcfDgii.Transmission EcfDgii.Submission EcfDgii.StatusPolling EcfDgii.Traces
open EcfDgii.SubmissionTrace EcfDgii.TransportTrace EcfDgii.StatusTrace EcfDgii.DocumentInvariants
open EcfDgii.TenantReads

variable {ext : Externals} {services : Services} {table next : DocumentTable}
  {additional : String → Bool} {log : Log} {w : World} {r : Request} {input : Input}

/-! ## A table without some documents -/

/-- The table without the documents of some ids. -/
def without (additional : String → Bool) (table : DocumentTable) : DocumentTable where
  rows := table.rows.filter fun row => !additional row.id
  ids := table.ids.sublist (List.filter_sublist.map _)
  fiscals := table.fiscals.sublist (List.filter_sublist.filterMap _)
  sources := table.sources.sublist (List.filter_sublist.filterMap _)

theorem without_rows (additional : String → Bool) (table : DocumentTable) :
    (without additional table).rows = table.rows.filter fun row => !additional row.id := rfl

/-- None of the documents is visible to a query. -/
def AllDeleted (additional : String → Bool) (table : DocumentTable) : Prop :=
  ∀ row ∈ table.rows, additional row.id = true → row.isDeleted = true

/-- A query that skips deleted rows finds the same rows without deleted ones. -/
theorem filter_without (deleted : AllDeleted additional table) (matching : EcfDocumentRow → Bool) :
    (without additional table).rows.filter (fun row => matching row && !row.isDeleted) =
      table.rows.filter fun row => matching row && !row.isDeleted := by
  rw [without, List.filter_filter]
  refine List.filter_congr fun row member => ?_
  cases among : additional row.id with
  | false => simp
  | true => simp [deleted row member among]

theorem queryOne_without (deleted : AllDeleted additional table) (pick : ℕ)
    (matching : EcfDocumentRow → Bool) :
    queryOne pick matching (without additional table) = queryOne pick matching table := by
  rw [queryOne, filter_without deleted, queryOne]

theorem getBySourceTxnId_without (deleted : AllDeleted additional table) (instant : String → ℤ)
    (pick : ℕ) (tenantId sourceTxnId : String) (ambiente : Option String) :
    Tables.getBySourceTxnId instant pick tenantId sourceTxnId ambiente (without additional table) =
      Tables.getBySourceTxnId instant pick tenantId sourceTxnId ambiente table := by
  simp only [Tables.getBySourceTxnId, filter_without deleted]

/-- Documents are left out by their ids, which an UPDATE keeps. -/
theorem apply_without (d : EcfDocument) (time : ℕ) (rows : List EcfDocumentRow) :
    Write.apply (rows.filter fun row => !additional row.id) (.update d time) =
      (Write.apply rows (.update d time)).filter fun row => !additional row.id := by
  rw [Write.apply, Write.apply, List.filter_map]
  congr 1
  refine List.filter_congr fun row _ => ?_
  by_cases same : row.id = d.id
  · simp [same, updated]
  · simp [same]

/-! ## The same requests in both -/

/-- What the two lookups may ask: reads, and one update of the status fields of
a row read. -/
inductive LookupAsks (log : Log) : Request → Prop
  | outside {r : Request} (h : Outside r) : LookupAsks log r
  | lookup {r : Request} (h : Lookup r) : LookupAsks log r
  | save {row : EcfDocumentRow} {d : EcfDocument} {time : ℕ} (fresh : (progress log).written = none)
      (read : Read log row) (only : OnlyStatus row.toEcfDocument d) :
      LookupAsks log (.saveChanges [.update d time])

theorem lookupAsks_of_poll (h : PollAsks ext log r) : LookupAsks log r := by
  cases h with
  | outside h => exact .outside h
  | lookup h => exact .lookup h
  | save fresh read _ write => exact .save fresh read (PollWrite.only write)

theorem lookupAsks_of_status (h : StatusAsks ext log r) : LookupAsks log r := by
  cases h with
  | outside h => exact .outside h
  | lookup h => exact .lookup h
  | save fresh read => exact .save fresh read rfl

/-- Two worlds that differ in deleted documents, and what has been read of them. -/
structure Beside (additional : String → Bool) (log : Log) (w v : World) : Prop where
  same : v = { w with documents := without additional w.documents }
  deleted : AllDeleted additional w.documents
  read : (progress log).written = none → ∀ row, Read log row → row ∈ w.documents.rows

/-- A status update goes through in both tables and leaves them beside each other. -/
theorem commit_beside {row : EcfDocumentRow} {d : EcfDocument} (time : ℕ)
    (present : row ∈ table.rows) (only : OnlyStatus row.toEcfDocument d) :
    ∃ next, commit table [.update d time] = .ok next ∧
      commit (without additional table) [.update d time] = .ok (without additional next) := by
  have keys : ∀ old ∈ table.rows, old.id = d.id →
      fiscalKey (updated old d time) = fiscalKey old ∧
        sourceKey (updated old d time) = sourceKey old := by
    intro old member same
    obtain rfl := DocumentTable.eq_of_id member present (same.trans (OnlyStatus.owner only).1.symm)
    unfold OnlyStatus at only
    rw [only]
    exact ⟨rfl, rfl⟩
  obtain ⟨next, done, rows⟩ := commit_update
    (fun old member same => (keys old member same).1) fun old member same => (keys old member same).2
  obtain ⟨next', done', rows'⟩ := commit_update
    (fun old (member : old ∈ (without additional table).rows) same =>
      (keys old (List.mem_of_mem_filter member) same).1)
    fun old member same => (keys old (List.mem_of_mem_filter member) same).2
  refine ⟨next, done, done'.trans (congrArg _ (DocumentTable.ext ?_))⟩
  rw [rows', without_rows, without_rows, rows, apply_without]

/-- An UPDATE brings no document back. -/
theorem AllDeleted.update (deleted : AllDeleted additional table) {d : EcfDocument} {time : ℕ}
    (done : commit table [.update d time] = .ok next) : AllDeleted additional next := by
  intro row member among
  have rows : next.rows = Write.apply table.rows (.update d time) := commit_rows done
  rw [rows] at member
  obtain ⟨old, present, rfl⟩ := List.mem_map.mp member
  by_cases same : old.id = d.id
  · rw [if_pos same] at among ⊢
    exact deleted old present (same ▸ among)
  · rw [if_neg same] at among ⊢
    exact deleted old present among

theorem Beside.refl (deleted : AllDeleted additional w.documents) :
    Beside additional [] w { w with documents := without additional w.documents } :=
  ⟨rfl, deleted, fun _ _ read => absurd read.choose_spec.1 List.not_mem_nil⟩

/-- Reads and the world's other parts do not tell the two apart. -/
theorem answer_beside (deleted : AllDeleted additional w.documents) (reads : Outside r ∨ Lookup r) :
    (answerAt ext input { w with documents := without additional w.documents } r).1 =
        (answerAt ext input w r).1 ∧
      (answerAt ext input w r).2 = w ∧
      (answerAt ext input { w with documents := without additional w.documents } r).2 =
        { w with documents := without additional w.documents } := by
  have shown : ∀ {a b : Option EcfDocumentRow}, a = b →
      input.database (.ok a) = input.database (.ok b) := fun same => by rw [same]
  cases r with
  | documentBySourceTxnId tenantId txnId ambiente =>
    exact ⟨shown (getBySourceTxnId_without deleted _ _ _ _ _), rfl, rfl⟩
  | documentById id => exact ⟨shown (queryOne_without deleted _ _), rfl, rfl⟩
  | documentByENcf eNcf => exact ⟨shown (queryOne_without deleted _ _), rfl, rfl⟩
  | documentByTrackId trackId => exact ⟨shown (queryOne_without deleted _ _), rfl, rfl⟩
  | _ => first | exact ⟨rfl, rfl, rfl⟩ | exact (reads.elim id id).elim

/-- One request is answered alike in both worlds, and leaves them beside each
other. -/
theorem Beside.answer {v : World} (beside : Beside additional log w v)
    (permitted : LookupAsks log r) :
    (answerAt ext input w r).1 = (answerAt ext input v r).1 ∧
      Beside additional (log ++ [⟨r, (answerAt ext input w r).1⟩]) (answerAt ext input w r).2
        (answerAt ext input v r).2 := by
  obtain ⟨rfl, deleted, known⟩ := beside
  by_cases reads : Outside r ∨ Lookup r
  · obtain ⟨same, here, there⟩ := answer_beside deleted reads
    refine ⟨same.symm, there.trans (by rw [here]), by rwa [here], ?_⟩
    intro unwritten row read
    have fresh : (progress log).written = none := by
      rw [progress_append, after_written] at unwritten
      · exact unwritten
      · rintro writes rfl
        exact reads.elim id id
    rw [here]
    rcases read_append.mp read with old | new
    · exact known fresh row old
    · exact revealed_mem new
  · cases permitted with
    | outside h => exact absurd (.inl h) reads
    | lookup h => exact absurd (.inr h) reads
    | @save row d time fresh read only =>
      obtain ⟨next, done, done'⟩ := commit_beside time
        (known fresh row read) only
      cases failed : input.databaseError with
      | some e =>
        have stays : ∀ u : World, answerAt ext input u (.saveChanges [.update d time]) =
            (.error e, u) := fun u => by simp only [answerAt, Input.database, failed]
        rw [stays, stays]
        refine ⟨rfl, rfl, deleted, fun unwritten row read => ?_⟩
        exact known fresh row ((read_append.mp read).resolve_right List.not_mem_nil)
      | none =>
        have commits : ∀ (u : World) (after : DocumentTable),
            commit u.documents [.update d time] = .ok after →
            answerAt ext input u (.saveChanges [.update d time]) =
              (.ok (), { u with documents := after }) := fun u after ok => by
          simp only [answerAt, Input.database, failed, ok]
        rw [commits w next done, commits _ _ done']
        refine ⟨rfl, rfl, deleted.update done, fun unwritten => ?_⟩
        rw [progress_append] at unwritten
        cases unwritten

/-! ## Two runs -/

/-- An operation run with the documents and without them. -/
def runs (ext : Externals) (services : Services) (additional : String → Bool) (w : World)
    (op : Operation) (inputs : ℕ → Option Input) : Run Api Unit World × Run Api Unit World :=
  ((host ext).run inputs w [] (program ext services op),
    (host ext).run inputs { w with documents := without additional w.documents } []
      (program ext services op))

/-- The caller gets the same answer, and the other rows are left the same. -/
structure SameAnswer (ext : Externals) (services : Services) (additional : String → Bool)
    (w : World) (op : Operation) (inputs : ℕ → Option Input) : Prop where
  answers : answers (runs ext services additional w op inputs).1.log =
    answers (runs ext services additional w op inputs).2.log
  documents : (runs ext services additional w op inputs).2.world.documents =
    without additional (runs ext services additional w op inputs).1.world.documents

/-- Deleted documents make no difference. -/
theorem sameAnswer_of_deleted (op : Operation)
    (asks : ∀ log r, Asks ext services op log r → LookupAsks log r)
    (deleted : AllDeleted additional w.documents) (inputs : ℕ → Option Input) :
    SameAnswer ext services additional w op inputs := by
  have lookups : (program ext services op).Follows (.logging LookupAsks) (fun _ _ => True)
      (fun _ _ => True) [] :=
    (program_follows ext services op).and (program_follows ext services op)
      (fun b r h _ => asks b r h) fun _ _ _ _ h => ⟨h, h⟩
  have agree : ∀ log w v r i, LookupAsks log r → Beside additional log w v →
      ((host ext).answer i w r).1 = ((host ext).answer i v r).1 ∧
        Beside additional (log ++ [⟨r, ((host ext).answer i w r).1⟩]) ((host ext).answer i w r).2
          ((host ext).answer i v r).2 := by
    intro log w v r i permitted beside
    have later : Beside additional log { w with clock := w.clock + i.elapsed }
        { v with clock := v.clock + i.elapsed } := by
      obtain ⟨rfl, deleted, known⟩ := beside
      exact ⟨rfl, deleted, known⟩
    exact later.answer permitted
  obtain ⟨-, same, beside⟩ := Host.run_agree agree lookups (Beside.refl deleted)
  exact ⟨congrArg answers same, congrArg World.documents beside.same⟩

/-! ## The database's choice -/

/-- A steady environment in which the database takes the row at one place. -/
def picking (k : ℕ) : Input := { pick := k }

/-- The identifier of a request is the eNCF of a document, and no TxnId of the
tenant's or trackId. -/
structure NamesENcf (req : ReadRequest) (table : DocumentTable) : Prop where
  source : ∀ row ∈ table.rows, row.isDeleted = false →
    matchesSource (req.tenant true) req.txnId req.ambiente row = false
  track : ∀ row ∈ table.rows, row.isDeleted = false → row.trackId ≠ some req.txnId

theorem queryOne_none {pick : ℕ} {matching : EcfDocumentRow → Bool}
    (absent : ∀ row ∈ table.rows, row.isDeleted = false → matching row = false) :
    queryOne pick matching table = none := by
  have empty : table.rows.filter (fun row => matching row && !row.isDeleted) = [] := by
    refine List.filter_eq_nil_iff.mpr fun row member => ?_
    cases deleted : row.isDeleted with
    | true => simp
    | false => simp [absent row member deleted]
  rw [queryOne, empty]
  rfl

/-- A lookup by an eNCF, request by request. -/
theorem findDocument_run {req : ReadRequest} {k : ℕ} {row : EcfDocumentRow}
    (names : NamesENcf req w.documents)
    (found : queryOne k (·.eNcf = req.txnId) w.documents = some row) :
    ∃ log, answers log = [] ∧ Read log row ∧
      (host ext).run (fun _ => some (picking k)) w [] (findDocument req (req.tenant true)) =
        ⟨.returned ((some row).filter (visible req (req.tenant true))), log, w⟩ := by
  have source : (host ext).answer (picking k) w
      (.documentBySourceTxnId (req.tenant true) req.txnId req.ambiente) = (.ok none, w) := by
    have empty : w.documents.rows.filter (fun row =>
        matchesSource (req.tenant true) req.txnId req.ambiente row && !row.isDeleted) = [] := by
      refine List.filter_eq_nil_iff.mpr fun row member => ?_
      cases deleted : row.isDeleted with
      | true => simp
      | false => simp [names.source row member deleted]
    have none : Tables.getBySourceTxnId ext.instant k (req.tenant true) req.txnId req.ambiente
        w.documents = none := by
      simp only [Tables.getBySourceTxnId, empty]
      rfl
    show (_, _) = _
    simp only [picking, Input.database, none]
    rfl
  have track : (host ext).answer (picking k) w (.documentByTrackId req.txnId) = (.ok none, w) := by
    have none : queryOne k (·.trackId = some req.txnId) w.documents = none :=
      queryOne_none fun row member shown => decide_eq_false (names.track row member shown)
    show (_, _) = _
    simp only [picking, Input.database, none]
    rfl
  have number : (host ext).answer (picking k) w (.documentByENcf req.txnId) =
      (.ok (some row), w) := by
    show (_, _) = _
    simp only [picking, Input.database, found]
    rfl
  refine ⟨[⟨.documentBySourceTxnId (req.tenant true) req.txnId req.ambiente,
      (.ok none : Except String (Option EcfDocumentRow))⟩,
    ⟨.documentByTrackId req.txnId, (.ok none : Except String (Option EcfDocumentRow))⟩,
    ⟨.documentByENcf req.txnId, (.ok (some row) : Except String (Option EcfDocumentRow))⟩],
    rfl, ⟨⟨.documentByENcf req.txnId, (.ok (some row) : Except String (Option EcfDocumentRow))⟩,
      by simp, List.mem_singleton_self row⟩, ?_⟩
  rw [findDocument, Host.run_perform_bind, source]
  simp only [Program.raise, Program.bind_done]
  rw [Host.run_perform_bind, track]
  simp only [Program.bind_done, Option.filter_none]
  rw [Host.run_perform_bind, number]
  rfl

/-- Nobody is answered. -/
def Unanswering : Log → Request → Prop := fun _ r => ∀ response, r ≠ .respond response

theorem answers_of_unanswering {r : Request} (h : ∀ response, r ≠ .respond response) (log : Log)
    (x : r.Reply) : answers (log ++ [⟨r, x⟩]) = answers log := by
  rw [answers_append]
  cases r with
  | respond response => exact absurd rfl (h response)
  | _ => exact List.append_nil _

/-- Refreshing a document answers nobody and shows the same document. -/
theorem refreshed_run (services : Services) {row : EcfDocumentRow} (read : Read log row)
    (inputs : ℕ → Input) (w : World) :
    ∃ d b v, d.id = row.id ∧ answers b = answers log ∧
      (host ext).run (fun n => some (inputs n)) w log (refreshed ext services row.toEcfDocument) =
        ⟨.returned d, b, v⟩ := by
  have follows : (refreshed ext services row.toEcfDocument).Follows (.logging Unanswering) _ _ log :=
    refreshed_follows (fun _ _ _ silent => silent) read fun _ _ _ _ _ _ => nofun
  have ends := Host.run_ends (host ext) inputs w log (refreshed ext services row.toEcfDocument)
  have kept : answers ((host ext).run (fun n => some (inputs n)) w log
      (refreshed ext services row.toEcfDocument)).log = answers log ∧ _ :=
    Host.run_keeps (J := fun b (_ : World) => answers b = answers log)
      (fun b u r i silent same => (answers_of_unanswering silent b _).trans same) follows rfl
  generalize (host ext).run (fun n => some (inputs n)) w log
    (refreshed ext services row.toEcfDocument) = run at kept ends
  obtain ⟨outcome, b, v⟩ := run
  obtain ⟨same, leaf⟩ := kept
  cases outcome with
  | killed => exact absurd rfl ends
  | threw e => exact leaf.elim
  | returned d =>
    refine ⟨d, b, v, ?_, same, rfl⟩
    rcases leaf.2 with stays | write
    · rw [stays]
    · exact write.id

/-- The answer to a lookup by an eNCF: the row the database takes, or nothing. -/
theorem getBySourceTxnId_answers (ext : Externals) (services : Services) {req : ReadRequest} {k : ℕ}
    {row : EcfDocumentRow} (names : NamesENcf req w.documents)
    (found : queryOne k (·.eNcf = req.txnId) w.documents = some row) :
    let run := (host ext).run (fun _ => some (picking k)) w []
      (program ext services (.getBySourceTxnId req))
    if visible req (req.tenant true) row then
      ∃ d : EcfDocument, d.id = row.id ∧ answers run.log = [json (documentFields d) 200]
    else answers run.log = [notFoundResponse req.txnId] := by
  obtain ⟨log, silent, read, lookup⟩ := findDocument_run names found
  intro run
  have shape : run = (host ext).run (fun _ => some (picking k)) w []
    (program ext services (.getBySourceTxnId req)) := rfl
  rw [program, StatusPolling.getBySourceTxnId, Host.run_tryCatch, Host.run_bind, lookup] at shape
  by_cases shown : visible req (req.tenant true) row = true
  · rw [if_pos shown]
    rw [Option.filter_some, if_pos shown] at shape
    have mine : ¬ (!req.privileged && decide (row.tenantId ≠ req.tenant true)) = true := by
      simp only [visible, Bool.and_eq_true, Bool.or_eq_true, decide_eq_true_eq] at shown
      rcases shown.1 with privileged | tenant
      · simp [privileged]
      · simp [tenant]
    dsimp only at shape
    rw [if_neg mine, Host.run_bind] at shape
    obtain ⟨d, b, v, same, quiet, refreshes⟩ := refreshed_run services read
      (fun _ => picking k) w
    rw [refreshes] at shape
    refine ⟨d, same, ?_⟩
    rw [shape]
    show answers (b ++ [⟨.respond (json (documentFields d) 200), ()⟩]) = _
    rw [answers_append, quiet, silent]
    rfl
  · rw [if_neg shown]
    rw [Option.filter_some, if_neg shown] at shape
    rw [shape]
    show answers (log ++ [⟨.respond (notFoundResponse req.txnId), ()⟩]) = _
    rw [answers_append, silent]
    rfl

/-- Of two results the longer can be read at a place where it shows another row. -/
theorem exists_pick {α : Type} {small large : List α} {a : α} (member : a ∈ small)
    (longer : small.length < large.length) (nodup : large.Nodup) :
    ∃ k b, choose k small = some a ∧ choose k large = some b ∧ b ≠ a := by
  obtain ⟨i, inside, at'⟩ := List.getElem_of_mem member
  have shown : ∀ k, ∃ b, choose k large = some b := fun k =>
    ⟨_, List.getElem?_eq_getElem (Nat.mod_lt k (by omega))⟩
  have here : ∀ k, k % small.length = i → choose k small = some a := by
    intro k same
    rw [choose, same, List.getElem?_eq_getElem inside, at']
  obtain ⟨b, first⟩ := shown i
  by_cases other : b = a
  · obtain ⟨c, second⟩ := shown (i + small.length)
    refine ⟨i + small.length, c, here _ ?_, second, fun same => ?_⟩
    · rw [Nat.add_mod_right, Nat.mod_eq_of_lt inside]
    · have twice : large[i % large.length]? = large[(i + small.length) % large.length]? :=
        first.trans (other ▸ same ▸ second.symm)
      have places := (List.getElem?_inj (Nat.mod_lt i (by omega)) nodup).mp twice
      rw [Nat.mod_eq_of_lt (by omega : i < large.length)] at places
      by_cases wraps : i + small.length < large.length
      · rw [Nat.mod_eq_of_lt wraps] at places
        omega
      · rw [Nat.mod_eq_sub_mod (by omega), Nat.mod_eq_of_lt (by omega)] at places
        omega
  · exact ⟨i, b, here i (Nat.mod_eq_of_lt inside), first, other⟩

/-- The owner of a document asks for it by its eNCF, which the additional
documents carry too. -/
structure OwnerAsks (req : ReadRequest) (additional : String → Bool) (table : DocumentTable)
    (o : EcfDocumentRow) : Prop where
  present : o ∈ table.rows
  own : additional o.id = false
  kept : o.isDeleted = false
  number : o.eNcf = req.txnId
  shown : visible req (req.tenant true) o = true
  carries : ∀ row ∈ table.rows, additional row.id = true → row.eNcf = req.txnId
  names : NamesENcf req table

theorem NamesENcf.without {req : ReadRequest} (h : NamesENcf req table) :
    NamesENcf req (without additional table) :=
  ⟨fun row member => h.source row (List.mem_of_mem_filter member),
    fun row member => h.track row (List.mem_of_mem_filter member)⟩

/-- Documents that are not deleted make a difference. -/
theorem deleted_of_sameAnswer {req : ReadRequest} {o : EcfDocumentRow}
    (asks : OwnerAsks req additional w.documents o)
    (same : ∀ inputs, SameAnswer ext services additional w (.getBySourceTxnId req) inputs) :
    AllDeleted additional w.documents := by
  by_contra differs
  simp only [AllDeleted, not_forall, Bool.not_eq_true] at differs
  obtain ⟨x, member, among, live⟩ := differs
  have carries := asks.carries x member among
  let found (table : DocumentTable) := table.rows.filter fun row =>
    decide (row.eNcf = req.txnId) && !row.isDeleted
  have mine : o ∈ found (without additional w.documents) := by
    simp [found, without_rows, asks.present, asks.own, asks.number, asks.kept]
  have fewer : (found (without additional w.documents)).length < (found w.documents).length := by
    have part : found (without additional w.documents) =
        (found w.documents).filter fun row => !additional row.id := by
      simp only [found, without_rows, List.filter_filter, Bool.and_comm]
    rw [part, List.length_filter_lt_length_iff_exists]
    exact ⟨x, by simp [found, member, carries, live], by simp [among]⟩
  have nodup : (found w.documents).Nodup :=
    (List.Nodup.of_map _ w.documents.ids).sublist List.filter_sublist
  obtain ⟨k, b, taken, other, distinct⟩ := exists_pick mine fewer nodup
  have answers := (same fun _ => some (picking k)).answers
  have own := getBySourceTxnId_answers ext services asks.names.without
    (w := { w with documents := EncfLookups.without additional w.documents }) taken
  have all := getBySourceTxnId_answers ext services asks.names other
  rw [if_pos asks.shown] at own
  obtain ⟨d, id, own⟩ := own
  have ids : b.id ≠ o.id := fun eq =>
    distinct (DocumentTable.eq_of_id (List.mem_of_mem_filter (choose_mem other)) asks.present eq)
  split at all
  · obtain ⟨d', id', all⟩ := all
    have eq := all.symm.trans (answers.trans own)
    simp [json, documentFields] at eq
    exact ids (id'.symm.trans (eq.1.trans id))
  · have eq := all.symm.trans (answers.trans own)
    simp [notFoundResponse, err, json] at eq

/-- **Lookups by eNCF depend on the other documents that carry it.** The owner
of a document gets the same answer to a status query and to a lookup by its eNCF
with and without some additional documents, and the other rows are updated the
same, whatever the database chooses and DGII replies, if and only if the
additional documents are all deleted. -/
theorem encf_lookups_unaffected (ext : Externals) (services : Services) (w : World)
    (additional : String → Bool) (rncEmisor : String) (req : ReadRequest) (o : EcfDocumentRow)
    (asks : OwnerAsks req additional w.documents o) :
    (∀ inputs, SameAnswer ext services additional w (.status rncEmisor req.txnId) inputs ∧
      SameAnswer ext services additional w (.getBySourceTxnId req) inputs) ↔
    AllDeleted additional w.documents := by
  constructor
  · exact fun same => deleted_of_sameAnswer asks fun inputs => (same inputs).2
  · intro deleted inputs
    exact ⟨sameAnswer_of_deleted (.status rncEmisor req.txnId)
        (fun _ _ h => lookupAsks_of_status h) deleted inputs,
      sameAnswer_of_deleted (.getBySourceTxnId req)
        (fun _ _ h => lookupAsks_of_poll h) deleted inputs⟩

/-- One eNCF, issued by two taxpayers. -/
def ecfOf (id tenantId rncEmisor : String) (isDeleted : Bool) : EcfDocumentRow where
  id := id
  tenantId := tenantId
  sourceTxnId := "TXN-" ++ id
  editSequence := "1"
  rncEmisor := rncEmisor
  eNcf := "E310000000001"
  ambiente := some "PreCertificacion"
  state := "SentToDgii"
  createdAt := "2024-01-01 00:00:00+00"
  isDeleted := isDeleted

/-- The first taxpayer's document, deleted or not, before the second one's. -/
def sharedTable (isDeleted : Bool) : DocumentTable where
  rows := [ecfOf "A" "tenant-a" "101672919" isDeleted, ecfOf "B" "tenant-b" "131988032" false]
  ids := by cases isDeleted <;> decide
  fiscals := by cases isDeleted <;> decide
  sources := by cases isDeleted <;> decide

def sharedWorld (isDeleted : Bool) : World :=
  { sampleWorld with documents := sharedTable isDeleted }

/-- The second taxpayer asks for its document. -/
def ownRequest : ReadRequest := { tenantId := some "tenant-b", txnId := "E310000000001" }

theorem ownerAsks_shared (isDeleted : Bool) :
    OwnerAsks ownRequest (· = "A") (sharedTable isDeleted)
      (ecfOf "B" "tenant-b" "131988032" false) where
  present := List.mem_cons_of_mem _ (List.mem_singleton_self _)
  own := by decide
  kept := rfl
  number := rfl
  shown := by decide
  carries := by cases isDeleted <;> decide
  names := ⟨by cases isDeleted <;> decide, by cases isDeleted <;> decide⟩

/-- With the first document deleted the second taxpayer is not affected. -/
theorem encf_lookups_unaffected_sample :
    (∀ inputs, SameAnswer sampleExternals sampleServices (· = "A") (sharedWorld true)
        (.status "131988032" ownRequest.txnId) inputs ∧
      SameAnswer sampleExternals sampleServices (· = "A") (sharedWorld true)
        (.getBySourceTxnId ownRequest) inputs) ↔
    AllDeleted (· = "A") (sharedWorld true).documents :=
  encf_lookups_unaffected sampleExternals sampleServices (sharedWorld true) (· = "A") "131988032"
    ownRequest _ (ownerAsks_shared true)

/-- With both in the table the second taxpayer is refused its own document: the
status query answers 400 for 200, the lookup 404 for 200. -/
theorem other_issuer_hides_document :
    ¬ SameAnswer sampleExternals sampleServices (· = "A") (sharedWorld false)
      (.status "131988032" ownRequest.txnId) (fun _ => some (answering "En Proceso")) ∧
    ¬ SameAnswer sampleExternals sampleServices (· = "A") (sharedWorld false)
      (.getBySourceTxnId ownRequest) (fun _ => some (answering "En Proceso")) := by
  have codes : ∀ op inputs, SameAnswer sampleExternals sampleServices (· = "A")
      (sharedWorld false) op inputs →
      (answers (runs sampleExternals sampleServices (· = "A") (sharedWorld false) op
        inputs).1.log).map (·.statusCode) =
      (answers (runs sampleExternals sampleServices (· = "A") (sharedWorld false) op
        inputs).2.log).map (·.statusCode) := fun _ _ same => congrArg _ same.answers
  exact ⟨fun same => absurd (codes _ _ same) (by decide +kernel),
    fun same => absurd (codes _ _ same) (by decide +kernel)⟩

end EcfDgii.EncfLookups
