import Mathlib.Data.List.Nodup
import Mathlib.Data.List.Pairwise
import Mathlib.Data.List.Sort
import EcfDgii.Documents
import EcfDgii.Timestamps

/-!
The database (`db/schema.sql`, `EcfDocumentRepository.cpp`,
`EcfSequenceManager.cpp`, `DbIdempotencyStore.cpp`).

A `DocumentTable` carries its three unique constraints, so a table that breaks
one cannot be built: `DocumentTable.build` gives the constraint's error
instead, as an INSERT or an UPDATE of a transaction does.  A NULL `ambiente`
never collides, as in PostgreSQL.  `insert` and `update` are the two statements
of the repository: `update` writes every column of the row with the document's
id, whatever the row holds by then.

A query without ORDER BY may return any matching row first; the choice is an
argument.  The sequence and idempotency statements are pure functions on lists
of rows; each is one statement, or one transaction, of the source.
-/

set_option autoImplicit false

namespace EcfDgii.Tables

open EcfDgii.Text EcfDgii.Timestamps EcfDgii.Documents

/-! ## Documents -/

/-- The columns of `uq_ecf_documents_tenant_source_txn`. -/
def sourceKey (row : EcfDocumentRow) : Option (String × String × String) :=
  row.ambiente.map fun ambiente => (row.tenantId, row.sourceTxnId, ambiente)

/-- The columns of `uq_ecf_documents_rnc_emisor_encf`. -/
def fiscalKey (row : EcfDocumentRow) : Option (String × String × String) :=
  row.ambiente.map fun ambiente => (row.rncEmisor, ambiente, row.eNcf)

/-- The table `ecf_documents` with its unique constraints. -/
structure DocumentTable where
  rows : List EcfDocumentRow
  ids : (rows.map (·.id)).Nodup
  fiscals : (rows.filterMap fiscalKey).Nodup
  sources : (rows.filterMap sourceKey).Nodup

/-- The error of a unique constraint. -/
def duplicateKey (constraint : String) : String :=
  "ERROR:  duplicate key value violates unique constraint \"" ++ constraint ++ "\""

/-- The rows as a table, or the constraint they break. -/
def DocumentTable.build (rows : List EcfDocumentRow) : Except String DocumentTable :=
  if ids : (rows.map (·.id)).Nodup then
    if fiscals : (rows.filterMap fiscalKey).Nodup then
      if sources : (rows.filterMap sourceKey).Nodup then .ok ⟨rows, ids, fiscals, sources⟩
      else .error (duplicateKey "uq_ecf_documents_tenant_source_txn")
    else .error (duplicateKey "uq_ecf_documents_rnc_emisor_encf")
  else .error (duplicateKey "ecf_documents_pkey")

/-- A staged statement and the time it was staged at (`sys::utcNowIso()`). -/
inductive Write
  | insert (doc : EcfDocument) (time : ℕ)
  | update (doc : EcfDocument) (time : ℕ)
  deriving DecidableEq

/-- The document a statement writes. -/
def Write.doc : Write → EcfDocument
  | .insert doc _ => doc
  | .update doc _ => doc

/-- When a statement was staged. -/
def Write.time : Write → ℕ
  | .insert _ time => time
  | .update _ time => time

/-- The row an INSERT adds. -/
def inserted (doc : EcfDocument) (time : ℕ) : EcfDocumentRow :=
  { doc with createdAt := pgTimestamptz time }

/-- The row an UPDATE leaves. -/
def updated (row : EcfDocumentRow) (doc : EcfDocument) (time : ℕ) : EcfDocumentRow :=
  { row with toEcfDocument := doc, updatedAt := some (pgTimestamptz time) }

/-- The rows after a statement. -/
def Write.apply (rows : List EcfDocumentRow) : Write → List EcfDocumentRow
  | .insert doc time => rows ++ [inserted doc time]
  | .update doc time => rows.map fun row => if row.id = doc.id then updated row doc time else row

/-- A transaction: the statements in order, all or none. -/
def commit (table : DocumentTable) : List Write → Except String DocumentTable
  | [] => .ok table
  | write :: rest =>
    match DocumentTable.build (write.apply table.rows) with
    | .ok next => commit next rest
    | .error e => .error e

theorem DocumentTable.build_rows {rows : List EcfDocumentRow} {table : DocumentTable}
    (h : DocumentTable.build rows = .ok table) : table.rows = rows := by
  unfold build at h
  repeat' split at h
  all_goals cases h
  rfl

/-- A committed transaction has run every statement. -/
theorem commit_rows {table next : DocumentTable} {writes : List Write}
    (h : commit table writes = .ok next) : next.rows = writes.foldl Write.apply table.rows := by
  induction writes generalizing table with
  | nil =>
    cases h
    rfl
  | cons write rest ih =>
    rw [commit] at h
    split at h
    · next middle built => rw [ih h, List.foldl_cons, DocumentTable.build_rows built]
    · cases h

/-- A row as a statement leaves it: inserted, or updated. -/
inductive Wrote (row : EcfDocumentRow) : Write → Prop
  | insert {doc : EcfDocument} {time : ℕ} (eq : row = inserted doc time) :
      Wrote row (.insert doc time)
  | update {old : EcfDocumentRow} {doc : EcfDocument} {time : ℕ} (eq : row = updated old doc time) :
      Wrote row (.update doc time)

theorem Wrote.doc {row : EcfDocumentRow} {write : Write} (h : Wrote row write) :
    row.toEcfDocument = write.doc := by
  cases h with
  | insert eq => rw [eq]; rfl
  | update eq => rw [eq]; rfl

/-- A row after a statement was there before, or the statement wrote it. -/
theorem Write.mem_apply {row : EcfDocumentRow} {rows : List EcfDocumentRow} {write : Write}
    (h : row ∈ write.apply rows) : row ∈ rows ∨ Wrote row write := by
  cases write with
  | insert doc time =>
    rcases List.mem_append.mp h with old | new
    · exact .inl old
    · exact .inr (.insert (List.mem_singleton.mp new))
  | update doc time =>
    obtain ⟨old, member, rfl⟩ := List.mem_map.mp h
    split
    · exact .inr (.update rfl)
    · exact .inl member

private theorem mem_foldl_apply {row : EcfDocumentRow} {writes : List Write}
    {rows : List EcfDocumentRow} (h : row ∈ writes.foldl Write.apply rows) :
    row ∈ rows ∨ ∃ write ∈ writes, Wrote row write := by
  induction writes generalizing rows with
  | nil => exact .inl h
  | cons write rest ih =>
    rcases ih h with earlier | ⟨later, member, same⟩
    · rcases Write.mem_apply earlier with old | same
      · exact .inl old
      · exact .inr ⟨write, List.mem_cons_self, same⟩
    · exact .inr ⟨later, List.mem_cons_of_mem _ member, same⟩

/-- A row after a commit was there before, or one of the statements wrote it. -/
theorem mem_commit {row : EcfDocumentRow} {table next : DocumentTable} {writes : List Write}
    (h : commit table writes = .ok next) (member : row ∈ next.rows) :
    row ∈ table.rows ∨ ∃ write ∈ writes, Wrote row write :=
  mem_foldl_apply (commit_rows h ▸ member)

/-- Rows of one key are one row. -/
theorem eq_of_key {α κ : Type} {key : α → Option κ} {rows : List α} {a b : α} {k : κ}
    (unique : (rows.filterMap key).Nodup) (ha : a ∈ rows) (hb : b ∈ rows) (ka : key a = some k)
    (kb : key b = some k) : a = b := by
  by_contra other
  let Apart (a b : α) : Prop := ∀ k, key a = some k → ∀ k', key b = some k' → k ≠ k'
  have symmetric : Std.Symm Apart := ⟨fun _ _ h k hk k' hk' => (h k' hk' k hk).symm⟩
  have apart : Apart a b := (List.pairwise_filterMap.mp unique).forall ha hb other
  exact apart k ka k kb rfl

/-- Ids are unique. -/
theorem DocumentTable.eq_of_id {table : DocumentTable} {a b : EcfDocumentRow}
    (ha : a ∈ table.rows) (hb : b ∈ table.rows) (same : a.id = b.id) : a = b :=
  List.inj_on_of_nodup_map table.ids ha hb same

/-- A statement keeps what its updates of a row keep. -/
theorem Write.apply_keeps {P : EcfDocumentRow → Prop} {row : EcfDocumentRow}
    {rows : List EcfDocumentRow} {write : Write} (member : row ∈ rows) (holds : P row)
    (updates : ∀ old d time, write = .update d time → d.id = row.id → P (updated old d time)) :
    ∃ row' ∈ write.apply rows, row'.id = row.id ∧ P row' := by
  cases write with
  | insert d time => exact ⟨row, List.mem_append_left _ member, rfl, holds⟩
  | update d time =>
    have mapped := List.mem_map_of_mem (f := fun row => if row.id = d.id then updated row d time
      else row) member
    by_cases same : row.id = d.id
    · rw [if_pos same] at mapped
      exact ⟨_, mapped, same.symm, updates row d time rfl same.symm⟩
    · rw [if_neg same] at mapped
      exact ⟨row, mapped, rfl, holds⟩

/-- So does a transaction, row by row. -/
theorem commit_keeps {P : EcfDocumentRow → Prop} {row : EcfDocumentRow}
    {table next : DocumentTable} {writes : List Write} (h : commit table writes = .ok next)
    (member : row ∈ table.rows) (holds : P row)
    (updates : ∀ old d time, .update d time ∈ writes → d.id = row.id → P (updated old d time)) :
    ∃ row' ∈ next.rows, row'.id = row.id ∧ P row' := by
  rw [commit_rows h]
  generalize table.rows = rows at member
  clear h
  induction writes generalizing rows row with
  | nil => exact ⟨row, member, rfl, holds⟩
  | cons write rest ih =>
    obtain ⟨middle, found, same, kept⟩ := Write.apply_keeps member holds
      fun old d time eq => updates old d time (eq ▸ List.mem_cons_self)
    obtain ⟨last, found, same', kept⟩ := ih kept (fun old d time among target =>
      updates old d time (List.mem_cons_of_mem _ among) (target.trans same)) _ found
    exact ⟨last, found, same'.trans same, kept⟩

/-- A table is its rows. -/
theorem DocumentTable.ext {a b : DocumentTable} (h : a.rows = b.rows) : a = b := by
  cases a
  cases b
  cases h
  rfl

/-- An UPDATE that leaves the keys of the rows it writes goes through. -/
theorem commit_update {table : DocumentTable} {d : EcfDocument} {time : ℕ}
    (fiscal : ∀ row ∈ table.rows, row.id = d.id → fiscalKey (updated row d time) = fiscalKey row)
    (source : ∀ row ∈ table.rows, row.id = d.id → sourceKey (updated row d time) = sourceKey row) :
    ∃ next, commit table [.update d time] = .ok next ∧
      next.rows = Write.apply table.rows (.update d time) := by
  have ids : (Write.apply table.rows (.update d time)).map (·.id) = table.rows.map (·.id) := by
    rw [Write.apply, List.map_map]
    refine List.map_congr_left fun row _ => ?_
    by_cases same : row.id = d.id
    · simp [same, updated]
    · simp [same]
  have keys : ∀ key : EcfDocumentRow → Option (String × String × String),
      (∀ row ∈ table.rows, row.id = d.id → key (updated row d time) = key row) →
      (Write.apply table.rows (.update d time)).filterMap key = table.rows.filterMap key := by
    intro key kept
    rw [Write.apply, List.filterMap_map]
    refine List.filterMap_congr fun row member => ?_
    by_cases same : row.id = d.id
    · simp [same, kept row member same]
    · simp [same]
  refine ⟨⟨Write.apply table.rows (.update d time), ids ▸ table.ids, keys _ fiscal ▸ table.fiscals,
    keys _ source ▸ table.sources⟩, ?_, rfl⟩
  unfold commit DocumentTable.build
  rw [dif_pos (ids ▸ table.ids), dif_pos (keys _ fiscal ▸ table.fiscals),
    dif_pos (keys _ source ▸ table.sources)]
  rfl

/-- An INSERT that goes through brings a new id. -/
theorem commit_insert_new {table next : DocumentTable} {d : EcfDocument} {time : ℕ}
    (h : commit table [.insert d time] = .ok next) {row : EcfDocumentRow}
    (member : row ∈ table.rows) : row.id ≠ d.id := by
  have rows : next.rows = table.rows ++ [inserted d time] := commit_rows h
  have unique := next.ids
  rw [rows, List.map_append, List.nodup_append] at unique
  exact unique.2.2 _ (List.mem_map_of_mem member) _ (List.mem_singleton_self _)

/-- No statement deletes a row. -/
theorem Write.isDeleted_apply {row : EcfDocumentRow} {rows : List EcfDocumentRow} {write : Write}
    (h : row ∈ write.apply rows) (deleted : row.isDeleted = true) :
    ∃ old ∈ rows, old.id = row.id ∧ old.isDeleted = true := by
  cases write with
  | insert doc time =>
    rcases List.mem_append.mp h with old | new
    · exact ⟨row, old, rfl, deleted⟩
    · rw [List.mem_singleton.mp new] at deleted
      cases deleted
  | update doc time =>
    obtain ⟨old, member, rfl⟩ := List.mem_map.mp h
    split at deleted
    · next same => exact ⟨old, member, by simp only [if_pos same]; exact same, deleted⟩
    · next other => exact ⟨old, member, by simp only [if_neg other], deleted⟩

theorem isDeleted_commit {row : EcfDocumentRow} {table next : DocumentTable} {writes : List Write}
    (h : commit table writes = .ok next) (member : row ∈ next.rows)
    (deleted : row.isDeleted = true) :
    ∃ old ∈ table.rows, old.id = row.id ∧ old.isDeleted = true := by
  rw [commit_rows h] at member
  generalize table.rows = rows at member
  clear h
  induction writes generalizing rows with
  | nil => exact ⟨row, member, rfl, deleted⟩
  | cons write rest ih =>
    obtain ⟨middle, member, same, deleted⟩ := ih _ member
    obtain ⟨old, member, same', deleted⟩ := Write.isDeleted_apply member deleted
    exact ⟨old, member, same'.trans same, deleted⟩

/-- One of the rows of a result without an order. -/
def choose {α : Type} (pick : ℕ) (rows : List α) : Option α := rows[pick % rows.length]?

/-- `queryOne`: any row that matches and is not deleted. -/
def queryOne (pick : ℕ) (matching : EcfDocumentRow → Bool) (table : DocumentTable) :
    Option EcfDocumentRow :=
  choose pick (table.rows.filter fun row => matching row && !row.isDeleted)

/-- The condition of `getBySourceTxnId`. -/
def matchesSource (tenantId sourceTxnId : String) (ambiente : Option String)
    (row : EcfDocumentRow) : Bool :=
  row.tenantId = tenantId && row.sourceTxnId = sourceTxnId &&
    match ambiente with
    | none => true
    | some amb => amb = "" || row.ambiente = none || row.ambiente = some amb

/-- `getBySourceTxnId`: the newest matching row, as `instant` reads the
`created_at` column. -/
def getBySourceTxnId (instant : String → ℤ) (pick : ℕ) (tenantId sourceTxnId : String)
    (ambiente : Option String) (table : DocumentTable) : Option EcfDocumentRow :=
  let found := table.rows.filter fun row =>
    matchesSource tenantId sourceTxnId ambiente row && !row.isDeleted
  choose pick (found.filter fun row =>
    found.all fun other => instant other.createdAt ≤ instant row.createdAt)

/-- The WHERE clause of `getDueForStatusCheck`. -/
def dueForStatusCheck (instant : String → ℤ) (minAgeCutoff pollDueCutoff : String)
    (row : EcfDocumentRow) : Bool :=
  (row.state = "Signed" || row.state = "SentToDgii") &&
    (match row.sentToDgiiAt with
      | some sent => instant sent ≤ instant minAgeCutoff
      | none => false) &&
    (match row.lastStatusCheckAt with
      | some checked => instant checked ≤ instant pollDueCutoff
      | none => true) && !row.isDeleted

/-- `getDueForStatusCheck`: the due rows, oldest transmission first. -/
def getDueForStatusCheck (instant : String → ℤ) (minAgeCutoff pollDueCutoff : String)
    (limit : ℕ) (table : DocumentTable) : List EcfDocumentRow :=
  let bySent (a b : EcfDocumentRow) : Prop :=
    instant (a.sentToDgiiAt.getD "") ≤ instant (b.sentToDgiiAt.getD "")
  ((table.rows.filter (dueForStatusCheck instant minAgeCutoff pollDueCutoff)).insertionSort
    bySent).take limit

theorem choose_mem {α : Type} {pick : ℕ} {rows : List α} {a : α}
    (h : choose pick rows = some a) : a ∈ rows :=
  List.mem_of_getElem? h

theorem queryOne_mem {pick : ℕ} {matching : EcfDocumentRow → Bool} {table : DocumentTable}
    {row : EcfDocumentRow} (h : queryOne pick matching table = some row) :
    row ∈ table.rows ∧ matching row = true := by
  have member := List.mem_filter.mp (choose_mem h)
  exact ⟨member.1, (Bool.and_eq_true_iff.mp member.2).1⟩

theorem getBySourceTxnId_mem {instant : String → ℤ} {pick : ℕ} {tenantId sourceTxnId : String}
    {ambiente : Option String} {table : DocumentTable} {row : EcfDocumentRow}
    (h : getBySourceTxnId instant pick tenantId sourceTxnId ambiente table = some row) :
    row ∈ table.rows ∧ matchesSource tenantId sourceTxnId ambiente row = true := by
  have member := List.mem_filter.mp (List.mem_filter.mp (choose_mem h)).1
  exact ⟨member.1, (Bool.and_eq_true_iff.mp member.2).1⟩

theorem getDueForStatusCheck_mem {instant : String → ℤ} {minAge pollDue : String} {limit : ℕ}
    {table : DocumentTable} {row : EcfDocumentRow}
    (h : row ∈ getDueForStatusCheck instant minAge pollDue limit table) :
    row ∈ table.rows ∧ dueForStatusCheck instant minAge pollDue row = true :=
  List.mem_filter.mp ((List.mem_insertionSort _).mp (List.mem_of_mem_take h))

/-! ## Sequences -/

/-- `endsWithNoCase`. -/
def endsWithNoCase (s suffix : String) : Bool :=
  ((suffix.toList.map Char.toLower).reverse).isPrefixOf (s.toList.map Char.toLower).reverse

/-- The other name of an ambiente in a scope, if it has one. -/
def alternativeScope (scope : String) : Option String :=
  let renamed (suffix other : String) : String :=
    takeFirst (scope.toList.length - suffix.toList.length) scope ++ other
  if endsWithNoCase scope ":PreCertificacion" then
    some (renamed ":PreCertificacion" ":TestEcf")
  else if endsWithNoCase scope ":TestEcf" then some (renamed ":TestEcf" ":PreCertificacion")
  else if endsWithNoCase scope ":Certificacion" then some (renamed ":Certificacion" ":CertEcf")
  else if endsWithNoCase scope ":CertEcf" then some (renamed ":CertEcf" ":Certificacion")
  else none

/-- The active row of a scope and type. -/
def activeSequence (scope tipo : String) (rows : List EcfSequence) : Option EcfSequence :=
  rows.find? fun s => s.tenantId = scope && s.tipoComprobante = tipo && s.isActive

/-- The rest of the transaction once the row is known: expiry, range, and the
next number. -/
def issueNext (time : ℕ) (tipo : String) (seq : EcfSequence) : Except String EcfSequence :=
  match seq.fechaVencimiento with
  | none => .error ("La secuencia eNCF para el tipo '" ++ tipo ++
      "' no tiene fecha de vencimiento configurada.")
  | some expiry =>
    if expiry = "" then
      .error ("La secuencia eNCF para el tipo '" ++ tipo ++
        "' no tiene fecha de vencimiento configurada.")
    else if expiry.toList.take 10 < (toIsoUtc time).toList.take 10 then
      .error ("El rango autorizado eNCF para el tipo '" ++ tipo ++ "' ha expirado el " ++ expiry ++
        ".")
    else
      let current := max seq.secuenciaActual (seq.rangoDesde - 1)
      if seq.rangoHasta ≤ current then
        .error ("Rango de secuencia eNCF agotado para el tipo '" ++ tipo ++ "'.")
      else .ok { seq with secuenciaActual := current + 1 }

/-- `getNextEncf`: find the row (or rename one that carries the other name of
the ambiente), issue its next number, store it. -/
def getNextEncf (time : ℕ) (scope tipo : String) (rows : List EcfSequence) :
    Except String (String × List EcfSequence) :=
  let found : Except String EcfSequence :=
    match activeSequence scope tipo rows with
    | some seq => .ok seq
    | none =>
      match (alternativeScope scope).bind fun other => activeSequence other tipo rows with
      | some seq =>
        if rows.any fun s => s.tenantId = scope && s.tipoComprobante = tipo then
          .error (duplicateKey "uq_ecf_sequences_tenant_tipo")
        else .ok { seq with tenantId := scope }
      | none => .error ("No existe un rango de secuencias eNCF activo y autorizado para el tipo '" ++
          tipo ++ "' en el ámbito '" ++ scope ++
          "'. Debe registrar el rango otorgado por la DGII antes de emitir.")
  match found with
  | .error e => .error e
  | .ok seq =>
    match issueNext time tipo seq with
    | .error e => .error e
    | .ok next =>
      .ok (next.getCurrentEncfFormatted, rows.map fun s => if s.id = next.id then next else s)

/-- A law of sequence rows that does not look at the scope or the current
number. -/
structure SequenceLaw (P : EcfSequence → Prop) : Prop where
  rescoped : ∀ s tenantId, P s → P { s with tenantId := tenantId }
  counted : ∀ s n, P s → P { s with secuenciaActual := n }

theorem activeSequence_mem {scope tipo : String} {rows : List EcfSequence} {s : EcfSequence}
    (h : activeSequence scope tipo rows = some s) : s ∈ rows ∧ s.tipoComprobante = tipo := by
  have found := List.find?_some h
  simp only [Bool.and_eq_true, decide_eq_true_eq] at found
  exact ⟨List.mem_of_find?_eq_some h, found.1.2⟩

theorem issueNext_ok {time : ℕ} {tipo : String} {seq issued : EcfSequence}
    (h : issueNext time tipo seq = .ok issued) : ∃ n, issued = { seq with secuenciaActual := n } := by
  simp only [issueNext] at h
  repeat' split at h
  all_goals cases h
  exact ⟨_, rfl⟩

/-- A number is the next one of a lawful row of the type, and the rows stay
lawful. -/
theorem getNextEncf_lawful {P : EcfSequence → Prop} (law : SequenceLaw P) {time : ℕ}
    {scope tipo encf : String} {rows rows' : List EcfSequence} (lawful : ∀ s ∈ rows, P s)
    (h : getNextEncf time scope tipo rows = .ok (encf, rows')) :
    (∀ s ∈ rows', P s) ∧
      ∃ s, P s ∧ s.tipoComprobante = tipo ∧ encf = s.getCurrentEncfFormatted := by
  have issuing : ∀ seq issued, P seq → seq.tipoComprobante = tipo →
      issueNext time tipo seq = .ok issued → P issued ∧ issued.tipoComprobante = tipo := by
    intro seq issued holds same ok
    obtain ⟨n, rfl⟩ := issueNext_ok ok
    exact ⟨law.counted seq n holds, same⟩
  simp only [getNextEncf] at h
  split at h
  · cases h
  · next seq found =>
    have lawfulSeq : P seq ∧ seq.tipoComprobante = tipo := by
      split at found
      · next active =>
        cases found
        obtain ⟨member, same⟩ := activeSequence_mem active
        exact ⟨lawful _ member, same⟩
      · split at found
        · next other active =>
          obtain ⟨scope', -, active⟩ := Option.bind_eq_some_iff.mp active
          obtain ⟨member, same⟩ := activeSequence_mem active
          split at found <;> cases found
          exact ⟨law.rescoped _ _ (lawful _ member), same⟩
        · cases found
    split at h
    · cases h
    · next issued ok =>
      cases h
      obtain ⟨holds, same⟩ := issuing seq issued lawfulSeq.1 lawfulSeq.2 ok
      refine ⟨fun s member => ?_, issued, holds, same, rfl⟩
      obtain ⟨old, among, rfl⟩ := List.mem_map.mp member
      split
      · exact holds
      · exact lawful old among

/-- The part of a text before the first `:`, when it has one. -/
def beforeColon (scope : String) : Option String :=
  if scope.toList.contains ':' then some (before ':' scope) else none

/-- `releaseUnusedEncf`: one number back wherever the released one is current,
in the scope or in the tenant the scope belongs to. -/
def releaseUnusedEncf (scope tipo encf : String) (rows : List EcfSequence) : List EcfSequence :=
  match scanInt (encf.toList.drop 3) with
  | none => rows
  | some (number, _) =>
    rows.map fun s =>
      if (s.tenantId = scope ∨ some s.tenantId = beforeColon scope ∧ s.tenantId ≠ "") ∧
          s.tipoComprobante = tipo ∧ s.secuenciaActual = number then
        { s with secuenciaActual := s.secuenciaActual - 1 }
      else s

theorem releaseUnusedEncf_lawful {P : EcfSequence → Prop} (law : SequenceLaw P)
    {scope tipo encf : String} {rows : List EcfSequence} (lawful : ∀ s ∈ rows, P s) :
    ∀ s ∈ releaseUnusedEncf scope tipo encf rows, P s := by
  unfold releaseUnusedEncf
  split
  · exact lawful
  · intro s member
    obtain ⟨old, among, rfl⟩ := List.mem_map.mp member
    split
    · exact law.counted _ _ (lawful old among)
    · exact lawful old among

/-! ## Idempotency records -/

/-- Five minutes and thirty days, in nanoseconds. -/
def lease : ℕ := 5 * 60 * second
def retention : ℕ := 30 * 86400 * second

/-- `is_lease_expired`. -/
def IdempotencyRecord.leaseExpired (now : ℕ) (record : IdempotencyRecord) : Bool :=
  record.createdAt + lease < now || record.expiresAt < now

/-- The row of a key. -/
def fetchRecord (key : String) (records : List IdempotencyRecord) : Option IdempotencyRecord :=
  records.find? (·.key = key)

/-- Replace the row of a key. -/
def onRecord (key : String) (change : IdempotencyRecord → IdempotencyRecord)
    (records : List IdempotencyRecord) : List IdempotencyRecord :=
  records.map fun r => if r.key = key then change r else r

/-- The row as a new reservation leaves it. -/
def IdempotencyRecord.renewed (now : ℕ) (worker : String) (record : IdempotencyRecord) :
    IdempotencyRecord :=
  { record with
    status := "Processing", statusCode := 0, responseBody := "", createdAt := now,
    createdByWorkerKeyId := worker }

end EcfDgii.Tables
