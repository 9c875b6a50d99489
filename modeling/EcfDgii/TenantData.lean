import EcfDgii.FiscalNumbers
import EcfDgii.ReplayScopes

/-!
What belongs to a tenant, and the requests that stay in it.

The three tables name tenants in three ways: a document has its tenant in a
column, a sequence has a scope (the tenant, or the tenant, a colon and an
ambiente) and an idempotency record has a key that starts with the tenant and a
colon.  `ownData` is the world with one tenant's part of the tables alone, and
`others` the rest of them.

A statement that stays in the tenant goes in a world as it goes in the tenant's
own part, and leaves the rest as it was (`InTenant.answer`).  The two unique
indexes over all tenants are why a written document has to be `Apart`: the same
id or fiscal number under another tenant would refuse it.
-/

set_option autoImplicit false

namespace EcfDgii.TenantData

open EcfDgii.Text EcfDgii.Timestamps EcfDgii.Documents EcfDgii.DgiiReplies EcfDgii.Tables
open EcfDgii.Programs EcfDgii.Execution EcfDgii.Engine EcfDgii.CanonicalXml EcfDgii.Transmission
open EcfDgii.Submission EcfDgii.Traces EcfDgii.SubmissionTrace EcfDgii.FiscalNumbers

/-! ## The elements of one kind -/

section Kinds

variable {α β : Type}

/-- Images are distinct when those of each kind are, and none is of both. -/
theorem nodup_kinds (p : α → Bool) (f : α → Option β) (l : List α) :
    (l.filterMap f).Nodup ↔ ((l.filter p).filterMap f).Nodup ∧
      ((l.filter fun a => !p a).filterMap f).Nodup ∧
      ∀ b ∈ (l.filter p).filterMap f, ∀ c ∈ (l.filter fun a => !p a).filterMap f, b ≠ c := by
  have parts : (l.filter p ++ l.filter fun a => !p a).Perm l := List.filter_append_perm p l
  rw [← (parts.filterMap f).nodup_iff, List.filterMap_append, List.nodup_append]

/-- A replacement that keeps the kind is one of each kind. -/
theorem filter_replaced {p : α → Bool} {f : α → α} {l : List α}
    (keeps : ∀ a ∈ l, p (f a) = p a) : (l.map f).filter p = (l.filter p).map f := by
  rw [List.filter_map]
  exact congrArg (List.map f) (List.filter_congr keeps)

/-- A replacement of the other kind only is none. -/
theorem filter_spared {p : α → Bool} {f : α → α} {l : List α}
    (keeps : ∀ a ∈ l, p (f a) = p a) (spares : ∀ a ∈ l, p a = true → f a = a) :
    (l.map f).filter p = l.filter p := by
  rw [filter_replaced keeps]
  refine (List.map_congr_left fun a member => ?_).trans (List.map_id _)
  obtain ⟨among, kind⟩ := List.mem_filter.mp member
  exact spares a among kind

/-- What is looked for is of the kind. -/
theorem filter_kind {p q : α → Bool} (l : List α) (kind : ∀ a ∈ l, q a = true → p a = true) :
    (l.filter p).filter q = l.filter q := by
  rw [List.filter_filter]
  refine List.filter_congr fun a member => ?_
  cases holds : q a with
  | false => simp
  | true => simp [kind a member holds]

theorem find_kind {p q : α → Bool} (l : List α) (kind : ∀ a ∈ l, q a = true → p a = true) :
    (l.filter p).find? q = l.find? q := by
  rw [← List.head?_filter, filter_kind l kind, List.head?_filter]

theorem any_kind {p q : α → Bool} (l : List α) (kind : ∀ a ∈ l, q a = true → p a = true) :
    (l.filter p).any q = l.any q := by
  rw [Bool.eq_iff_iff, List.any_eq_true, List.any_eq_true]
  constructor
  · rintro ⟨a, member, holds⟩
    exact ⟨a, List.mem_of_mem_filter member, holds⟩
  · rintro ⟨a, member, holds⟩
    exact ⟨a, List.mem_filter.mpr ⟨member, kind a member holds⟩, holds⟩

end Kinds

/-! ## What belongs to a tenant -/

/-- The scope of a sequence, or the key of an idempotency record, names the
tenant: it is the tenant, or starts with it and a colon. -/
def InScope (T scope : String) : Prop := scope = T ∨ (T ++ ":").toList <+: scope.toList

instance (T scope : String) : Decidable (InScope T scope) := inferInstanceAs (Decidable (_ ∨ _))

def ownDocument (T : String) (row : EcfDocumentRow) : Bool := row.tenantId = T

def ownSequence (T : String) (s : EcfSequence) : Bool := InScope T s.tenantId

def ownRecord (T : String) (r : IdempotencyRecord) : Bool := InScope T r.key

/-- The documents of a table that are the tenant's. -/
def ownDocuments (T : String) (table : DocumentTable) : DocumentTable where
  rows := table.rows.filter (ownDocument T)
  ids := table.ids.sublist (List.filter_sublist.map _)
  fiscals := table.fiscals.sublist (List.filter_sublist.filterMap _)
  sources := table.sources.sublist (List.filter_sublist.filterMap _)

/-- The world with the tenant's documents, sequences and idempotency records
alone. -/
def ownData (T : String) (w : World) : World :=
  { w with
    documents := ownDocuments T w.documents
    sequences := w.sequences.filter (ownSequence T)
    idempotency := w.idempotency.filter (ownRecord T) }

theorem ownData_ownData (T : String) (w : World) : ownData T (ownData T w) = ownData T w := by
  simp [ownData, ownDocuments, List.filter_filter]

/-- The documents, sequences and idempotency records of the others. -/
def others (T : String) (w : World) :
    List EcfDocumentRow × List EcfSequence × List IdempotencyRecord :=
  (w.documents.rows.filter fun row => !ownDocument T row,
    w.sequences.filter fun s => !ownSequence T s, w.idempotency.filter fun r => !ownRecord T r)

/-! ## Documents -/

variable {T : String} {F : EcfDocumentRow → Prop} {d : EcfDocument} {table : DocumentTable}

/-- The fiscal key of a document. -/
def fiscalOf (d : EcfDocument) : Option (String × String × String) :=
  d.ambiente.map fun ambiente => (d.rncEmisor, ambiente, d.eNcf)

/-- A document of the tenant that shares neither its id nor its fiscal key with
any of some documents. -/
structure Apart (T : String) (F : EcfDocumentRow → Prop) (d : EcfDocument) : Prop where
  tenant : d.tenantId = T
  id : ∀ row, F row → row.id ≠ d.id
  fiscal : ∀ row, F row → ∀ key, fiscalKey row = some key → fiscalOf d ≠ some key

/-- A document stays apart when its status changes. -/
theorem Apart.status {d' : EcfDocument} (apart : Apart T F d) (only : OnlyStatus d d') :
    Apart T F d' := by
  unfold OnlyStatus at only
  rw [only]
  exact ⟨apart.tenant, apart.id, apart.fiscal⟩

theorem Apart.reconciled (apart : Apart T F d) (estado : String) :
    Apart T F (reconciled d estado) := by
  have only := reconciled_only d estado
  have content := reconciled_content d estado
  have ambiente : (Submission.reconciled d estado).ambiente = d.ambiente :=
    (congrArg EcfDocument.ambiente only).trans rfl
  have fiscal : fiscalOf (Submission.reconciled d estado) = fiscalOf d := by
    rw [fiscalOf, fiscalOf, ambiente, content.rncEmisor, content.eNcf]
  refine ⟨((congrArg EcfDocument.tenantId only).trans rfl).trans apart.tenant, ?_, ?_⟩
  · rw [content.id]
    exact apart.id
  · rw [fiscal]
    exact apart.fiscal

/-- Some documents of others, those of a table among them. -/
structure Covers (T : String) (F : EcfDocumentRow → Prop) (table : DocumentTable) : Prop where
  present : ∀ row ∈ table.rows, row.tenantId ≠ T → F row
  foreign : ∀ row, F row → row.tenantId ≠ T

theorem not_own {row : EcfDocumentRow} (other : (!ownDocument T row) = true) :
    row.tenantId ≠ T := by
  simpa [ownDocument] using other

/-- A statement about such a document is one about the tenant's documents. -/
theorem apply_apart {write : Write} (apart : Apart T F write.doc) (covers : Covers T F table) :
    (write.apply table.rows).filter (ownDocument T) =
        write.apply (table.rows.filter (ownDocument T)) ∧
      ((write.apply table.rows).filter fun row => !ownDocument T row) =
        table.rows.filter fun row => !ownDocument T row := by
  cases write with
  | insert d time =>
    have own : ownDocument T (inserted d time) = true := decide_eq_true apart.tenant
    simp [Write.apply, own]
  | update d time =>
    have target : ∀ row ∈ table.rows, row.id = d.id → ownDocument T row = true := by
      intro row member same
      by_contra other
      exact apart.id row (covers.present row member (not_own (by simpa using other))) same
    have own : ∀ row, ownDocument T (updated row d time) = true := fun row =>
      decide_eq_true apart.tenant
    have keeps : ∀ row ∈ table.rows,
        ownDocument T (if row.id = d.id then updated row d time else row) = ownDocument T row := by
      intro row member
      split
      · next same => rw [own, target row member same]
      · rfl
    refine ⟨filter_replaced keeps, filter_spared (fun row member => ?_) fun row member other => ?_⟩
    · rw [keeps row member]
    · refine if_neg fun same => ?_
      rw [target row member same] at other
      cases other

/-- So a key that the document shares with none of the others is repeated when
it is among the tenant's documents. -/
theorem nodup_apart {β : Type} (key : EcfDocumentRow → Option β) (keyOf : EcfDocument → Option β)
    (named : ∀ row, key row = keyOf row.toEcfDocument) {write : Write}
    (apart : Apart T F write.doc) (covers : Covers T F table)
    (unshared : ∀ row, F row → ∀ k, key row = some k → keyOf write.doc ≠ some k)
    (unique : (table.rows.filterMap key).Nodup) :
    ((write.apply table.rows).filterMap key).Nodup ↔
      ((write.apply (table.rows.filter (ownDocument T))).filterMap key).Nodup := by
  obtain ⟨-, rest, distinct⟩ := (nodup_kinds (ownDocument T) key table.rows).mp unique
  obtain ⟨own, spared⟩ := apply_apart apart covers
  rw [nodup_kinds (ownDocument T), own, spared]
  refine ⟨And.left, fun nodup => ⟨nodup, rest, fun b here c there same => ?_⟩⟩
  obtain ⟨row, among, named_b⟩ := List.mem_filterMap.mp here
  rcases Write.mem_apply among with old | wrote
  · exact distinct b (List.mem_filterMap.mpr ⟨row, old, named_b⟩) c there same
  · obtain ⟨other, member, named_c⟩ := List.mem_filterMap.mp there
    obtain ⟨present, kind⟩ := List.mem_filter.mp member
    refine unshared other (covers.present other present (not_own kind)) c named_c ?_
    rw [← same, ← named_b, named, wrote.doc]

/-- **A commit about the tenant's documents** goes as it goes without the others,
whom it leaves as they were. -/
theorem commit_apart {write : Write} (apart : Apart T F write.doc) (covers : Covers T F table) :
    match commit table [write] with
    | .ok next => commit (ownDocuments T table) [write] = .ok (ownDocuments T next) ∧
        (next.rows.filter fun row => !ownDocument T row) =
          table.rows.filter fun row => !ownDocument T row
    | .error e => commit (ownDocuments T table) [write] = .error e := by
  have ids : ((write.apply table.rows).map (·.id)).Nodup ↔
      ((write.apply (table.rows.filter (ownDocument T))).map (·.id)).Nodup := by
    have unique : (table.rows.filterMap fun row => some row.id).Nodup := by
      rw [List.filterMap_eq_map']
      exact table.ids
    have named := nodup_apart (fun row => some row.id) (fun d => some d.id) (fun _ => rfl) apart
      covers (fun row other k same eq => apart.id row other
        (Option.some.inj (same.trans eq.symm))) unique
    rwa [List.filterMap_eq_map'] at named
  have fiscals := nodup_apart fiscalKey fiscalOf (fun _ => rfl) apart covers apart.fiscal
    table.fiscals
  have sources := nodup_apart sourceKey
    (fun d => d.ambiente.map fun ambiente => (d.tenantId, d.sourceTxnId, ambiente))
    (fun _ => rfl) apart covers (fun row other k named same => by
      obtain ⟨_, -, rfl⟩ := Option.map_eq_some_iff.mp same
      obtain ⟨_, -, eq⟩ := Option.map_eq_some_iff.mp named
      exact covers.foreign row other ((congrArg Prod.fst eq).trans apart.tenant)) table.sources
  obtain ⟨own, spared⟩ := apply_apart apart covers
  have rows : (ownDocuments T table).rows = table.rows.filter (ownDocument T) := rfl
  unfold commit DocumentTable.build
  rw [rows]
  by_cases unique : ((write.apply table.rows).map (·.id)).Nodup
  · rw [dif_pos unique, dif_pos (ids.mp unique)]
    by_cases fiscal : ((write.apply table.rows).filterMap fiscalKey).Nodup
    · rw [dif_pos fiscal, dif_pos (fiscals.mp fiscal)]
      by_cases source : ((write.apply table.rows).filterMap sourceKey).Nodup
      · rw [dif_pos source, dif_pos (sources.mp source)]
        exact ⟨congrArg _ (DocumentTable.ext own.symm), spared⟩
      · rw [dif_neg source, dif_neg (mt sources.mpr source)]
    · rw [dif_neg fiscal, dif_neg (mt fiscals.mpr fiscal)]
  · rw [dif_neg unique, dif_neg (mt ids.mpr unique)]

/-! ## Sequences -/

variable {scope tipo : String} {rows : List EcfSequence}

theorem ownSequence_iff {s : EcfSequence} : ownSequence T s = true ↔ InScope T s.tenantId :=
  decide_eq_true_iff

theorem activeSequence_own (inside : InScope T scope) :
    activeSequence scope tipo (rows.filter (ownSequence T)) = activeSequence scope tipo rows :=
  find_kind rows fun s _ found => by
    simp only [Bool.and_eq_true, decide_eq_true_eq] at found
    exact ownSequence_iff.mpr (found.1.1 ▸ inside)

theorem activeSequence_scope {s : EcfSequence} (found : activeSequence scope tipo rows = some s) :
    s.tenantId = scope := by
  have found := List.find?_some found
  simp only [Bool.and_eq_true, decide_eq_true_eq] at found
  exact found.1.1

/-- A row replaced by one of the same id, both of the tenant. -/
theorem replaced_own {old next : EcfSequence} (ids : (rows.map (·.id)).Nodup) (member : old ∈ rows)
    (mine : InScope T old.tenantId) (same : next.id = old.id) (inside : InScope T next.tenantId) :
    let replace (s : EcfSequence) := if s.id = next.id then next else s
    (rows.map replace).filter (ownSequence T) = (rows.filter (ownSequence T)).map replace ∧
      ((rows.map replace).filter fun s => !ownSequence T s) =
        rows.filter fun s => !ownSequence T s := by
  intro replace
  have target : ∀ s ∈ rows, s.id = next.id → ownSequence T s = true := by
    intro s among here
    rw [List.inj_on_of_nodup_map ids among member (here.trans same)]
    exact ownSequence_iff.mpr mine
  have keeps : ∀ s ∈ rows, ownSequence T (replace s) = ownSequence T s := by
    intro s among
    dsimp only [replace]
    split
    · next here => rw [target s among here, ownSequence_iff.mpr inside]
    · rfl
  refine ⟨filter_replaced keeps, filter_spared (fun s among => ?_) fun s among other => ?_⟩
  · rw [keeps s among]
  · refine if_neg fun here => ?_
    rw [target s among here] at other
    cases other

theorem replaced_ids (next : EcfSequence) :
    (rows.map fun s => if s.id = next.id then next else s).map (·.id) = rows.map (·.id) := by
  rw [List.map_map]
  refine List.map_congr_left fun s _ => ?_
  by_cases here : s.id = next.id
  · simp [here]
  · simp [here]

/-- **A number of the tenant** is issued as it is without the others. -/
theorem getNextEncf_own (time : ℕ) (tipo : String) (inside : InScope T scope)
    (renamed : ∀ other, alternativeScope scope = some other → InScope T other)
    (ids : (rows.map (·.id)).Nodup) :
    match getNextEncf time scope tipo rows with
    | .ok (encf, rows') =>
      getNextEncf time scope tipo (rows.filter (ownSequence T)) =
          .ok (encf, rows'.filter (ownSequence T)) ∧
        (rows'.filter fun s => !ownSequence T s) = (rows.filter fun s => !ownSequence T s) ∧
        rows'.map (·.id) = rows.map (·.id)
    | .error e => getNextEncf time scope tipo (rows.filter (ownSequence T)) = .error e := by
  have issue : ∀ {old : EcfSequence} (seq : EcfSequence), old ∈ rows → InScope T old.tenantId →
      seq.id = old.id → InScope T seq.tenantId → ∀ next, issueNext time tipo seq = .ok next →
      ((rows.map fun s => if s.id = next.id then next else s).filter (ownSequence T) =
          (rows.filter (ownSequence T)).map fun s => if s.id = next.id then next else s) ∧
        ((rows.map fun s => if s.id = next.id then next else s).filter fun s =>
          !ownSequence T s) = rows.filter fun s => !ownSequence T s := by
    intro old seq member mine same inside next issued
    obtain ⟨n, rfl⟩ := issueNext_ok issued
    exact replaced_own ids member mine same inside
  have taken : ((rows.filter (ownSequence T)).any fun s =>
      s.tenantId = scope && s.tipoComprobante = tipo) =
      rows.any fun s => s.tenantId = scope && s.tipoComprobante = tipo :=
    any_kind rows fun s _ found => by
      simp only [Bool.and_eq_true, decide_eq_true_eq] at found
      exact ownSequence_iff.mpr (found.1 ▸ inside)
  have alternative : ((alternativeScope scope).bind fun other =>
      activeSequence other tipo (rows.filter (ownSequence T))) =
      (alternativeScope scope).bind fun other => activeSequence other tipo rows := by
    cases named : alternativeScope scope with
    | none => rfl
    | some other => exact activeSequence_own (renamed other named)
  unfold getNextEncf
  rw [activeSequence_own inside, alternative, taken]
  cases active : activeSequence scope tipo rows with
  | some seq =>
    have mine : InScope T seq.tenantId := activeSequence_scope active ▸ inside
    dsimp only
    cases issued : issueNext time tipo seq with
    | error e => rfl
    | ok next =>
      obtain ⟨own, rest⟩ := issue seq (activeSequence_mem active).1 mine rfl mine next issued
      exact ⟨by rw [own], rest, replaced_ids next⟩
  | none =>
    dsimp only
    cases found : (alternativeScope scope).bind fun other => activeSequence other tipo rows with
    | none => rfl
    | some seq =>
      obtain ⟨other, named, active⟩ := Option.bind_eq_some_iff.mp found
      have mine : InScope T seq.tenantId := activeSequence_scope active ▸ renamed other named
      dsimp only
      by_cases occupied : (rows.any fun s =>
          decide (s.tenantId = scope) && decide (s.tipoComprobante = tipo)) = true
      · rw [if_pos occupied]
      · rw [if_neg occupied]
        dsimp only
        cases issued : issueNext time tipo { seq with tenantId := scope } with
        | error e => rfl
        | ok next =>
          obtain ⟨own, rest⟩ := issue { seq with tenantId := scope } (activeSequence_mem active).1
            mine rfl inside next issued
          exact ⟨by rw [own], rest, replaced_ids next⟩

/-- A number is given back as it is without the others, when what stands before
the colon of the scope is the tenant's. -/
theorem releaseUnusedEncf_own (rows : List EcfSequence) (tipo encf : String)
    (inside : InScope T scope)
    (before : ∀ other, beforeColon scope = some other → other ≠ "" → InScope T other) :
    releaseUnusedEncf scope tipo encf (rows.filter (ownSequence T)) =
        (releaseUnusedEncf scope tipo encf rows).filter (ownSequence T) ∧
      ((releaseUnusedEncf scope tipo encf rows).filter fun s => !ownSequence T s) =
        (rows.filter fun s => !ownSequence T s) ∧
      (releaseUnusedEncf scope tipo encf rows).map (·.id) = rows.map (·.id) := by
  unfold releaseUnusedEncf
  split
  · exact ⟨rfl, rfl, rfl⟩
  · next number _ _ =>
    have mine : ∀ s : EcfSequence, (s.tenantId = scope ∨
        some s.tenantId = beforeColon scope ∧ s.tenantId ≠ "") → ownSequence T s = true := by
      rintro s (here | ⟨here, named⟩)
      · exact ownSequence_iff.mpr (here ▸ inside)
      · exact ownSequence_iff.mpr (before _ here.symm named)
    refine ⟨(filter_replaced fun s _ => ?_).symm,
      filter_spared (fun s _ => ?_) fun s _ other => if_neg fun released => ?_, ?_⟩
    · split <;> rfl
    · split <;> rfl
    · rw [mine s released.1] at other
      cases other
    · rw [List.map_map]
      refine List.map_congr_left fun s _ => ?_
      dsimp only [Function.comp_apply]
      split <;> rfl

/-! ## Idempotency records -/

/-- The record a statement is about. -/
def recordKey : IdempotencyStatement → Option String
  | .fetch key => some key
  | .documentState _ => none
  | .renewWithHash key _ _ => some key
  | .renew key _ => some key
  | .reclaim key _ => some key
  | .insert key _ _ => some key
  | .complete key _ _ _ => some key
  | .release key => some key

variable {ext : Externals} {services : Services} {req : SubmitRequest} {log : Log} {w : World}
  {input : Input} {key : String} {records : List IdempotencyRecord}

theorem ownRecord_iff {r : IdempotencyRecord} : ownRecord T r = true ↔ InScope T r.key :=
  decide_eq_true_iff

theorem fetchRecord_own (inside : InScope T key) :
    fetchRecord key (records.filter (ownRecord T)) = fetchRecord key records :=
  find_kind records fun _ _ named => ownRecord_iff.mpr (of_decide_eq_true named ▸ inside)

/-- A change of some of the tenant's records. -/
theorem changed_own {change : IdempotencyRecord → IdempotencyRecord} {p : IdempotencyRecord → Prop}
    [DecidablePred p] (mine : ∀ r, p r → InScope T r.key) (keeps : ∀ r, (change r).key = r.key) :
    (records.filter (ownRecord T)).map (fun r => if p r then change r else r) =
        (records.map fun r => if p r then change r else r).filter (ownRecord T) ∧
      ((records.map fun r => if p r then change r else r).filter fun r => !ownRecord T r) =
        records.filter fun r => !ownRecord T r := by
  have same : ∀ r, ownRecord T (if p r then change r else r) = ownRecord T r := by
    intro r
    split
    · unfold ownRecord
      rw [keeps]
    · rfl
  refine ⟨(filter_replaced fun _ _ => same _).symm,
    filter_spared (fun _ _ => by rw [same]) fun r _ other => if_neg fun holds => ?_⟩
  rw [ownRecord_iff.mpr (mine r holds)] at other
  cases other

theorem onRecord_own {change : IdempotencyRecord → IdempotencyRecord} (inside : InScope T key)
    (keeps : ∀ r, (change r).key = r.key) :
    onRecord key change (records.filter (ownRecord T)) =
        (onRecord key change records).filter (ownRecord T) ∧
      ((onRecord key change records).filter fun r => !ownRecord T r) =
        records.filter fun r => !ownRecord T r :=
  changed_own (fun _ named => named ▸ inside) keeps

/-- Records of the tenant that change while the others stay are the only change. -/
theorem ownData_records {after : List IdempotencyRecord} {own : List IdempotencyRecord}
    (same : own = after.filter (ownRecord T) ∧ (after.filter fun r => !ownRecord T r) =
      w.idempotency.filter fun r => !ownRecord T r) :
    { ownData T w with idempotency := own } = ownData T { w with idempotency := after } ∧
      others T { w with idempotency := after } = others T w :=
  ⟨congrArg (fun l => { ownData T w with idempotency := l }) same.1,
    congrArg (fun l => ((others T w).1, (others T w).2.1, l)) same.2⟩

/-- **A statement about a record of the tenant** does what it does without the
others. -/
theorem idempotencyAnswer_own (input : Input) (w : World) {statement : IdempotencyStatement}
    (about : recordKey statement = some key) (inside : InScope T key) :
    idempotencyAnswer input (ownData T w) statement =
        ((idempotencyAnswer input w statement).1,
          ownData T (idempotencyAnswer input w statement).2) ∧
      others T (idempotencyAnswer input w statement).2 = others T w := by
  have done : ∀ {α : Type} {x x' : α} {own after : List IdempotencyRecord}, x = x' →
      own = after.filter (ownRecord T) ∧ (after.filter fun r => !ownRecord T r) =
        (w.idempotency.filter fun r => !ownRecord T r) →
      (x, { ownData T w with idempotency := own }) =
          (x', ownData T { w with idempotency := after }) ∧
        others T { w with idempotency := after } = others T w := fun eq same =>
    ⟨by rw [eq, (ownData_records same).1], (ownData_records same).2⟩
  cases statement with
  | documentState id => cases about
  | fetch key =>
    cases about
    refine ⟨?_, rfl⟩
    dsimp only [idempotencyAnswer, ownData]
    rw [fetchRecord_own inside]
  | renewWithHash key hash worker =>
    cases about
    dsimp only [idempotencyAnswer]
    cases input.databaseError with
    | some e => exact ⟨rfl, rfl⟩
    | none => exact done rfl (onRecord_own inside fun _ => rfl)
  | renew key worker =>
    cases about
    dsimp only [idempotencyAnswer]
    cases input.databaseError with
    | some e => exact ⟨rfl, rfl⟩
    | none => exact done rfl (onRecord_own inside fun _ => rfl)
  | reclaim key worker =>
    cases about
    dsimp only [idempotencyAnswer]
    cases input.databaseError with
    | some e => exact ⟨rfl, rfl⟩
    | none =>
      have same : ∀ r : IdempotencyRecord, (r.key = key && r.status = "Processing" &&
          r.createdAt + lease < w.clock) = true → InScope T r.key := by
        intro r reclaimable
        simp only [Bool.and_eq_true, decide_eq_true_eq] at reclaimable
        exact reclaimable.1.1 ▸ inside
      have answers := any_kind (p := ownRecord T) w.idempotency fun r _ holds =>
        ownRecord_iff.mpr (same r holds)
      exact done (congrArg Except.ok answers) (changed_own same fun _ => rfl)
  | insert key hash worker =>
    cases about
    dsimp only [idempotencyAnswer]
    cases input.databaseError with
    | some e => exact ⟨rfl, rfl⟩
    | none =>
      have same : ((ownData T w).idempotency.any fun r => decide (r.key = key)) =
          w.idempotency.any fun r => decide (r.key = key) :=
        any_kind w.idempotency fun _ _ named => ownRecord_iff.mpr (of_decide_eq_true named ▸ inside)
      by_cases taken : (w.idempotency.any fun r => decide (r.key = key)) = true
      · rw [if_pos taken, if_pos (same.trans taken)]
        exact ⟨rfl, rfl⟩
      · rw [if_neg taken, if_neg (same ▸ taken)]
        have mine : ownRecord T ⟨key, worker, hash, "Processing", 0, "application/json", "",
            w.clock, w.clock + retention⟩ = true := ownRecord_iff.mpr inside
        refine done rfl ⟨?_, ?_⟩
        · rw [List.filter_append, List.filter_cons_of_pos mine, List.filter_nil]
          rfl
        · simp [mine]
  | complete key code contentType body =>
    cases about
    dsimp only [idempotencyAnswer]
    cases input.databaseError with
    | some e => exact ⟨rfl, rfl⟩
    | none => exact done rfl (onRecord_own inside fun r => by split <;> rfl)
  | release key =>
    cases about
    dsimp only [idempotencyAnswer]
    cases input.databaseError with
    | some e => exact ⟨rfl, rfl⟩
    | none =>
      refine done rfl ⟨?_, filter_kind _ fun r _ other => ?_⟩
      · dsimp only [ownData]
        rw [List.filter_filter, List.filter_filter]
        exact List.filter_congr fun _ _ => Bool.and_comm ..
      · have differs : r.key ≠ key := by
          rintro rfl
          rw [ownRecord_iff.mpr inside] at other
          cases other
        simp [differs]

/-! ## Requests -/

/-- The requests that only touch what is the tenant's, beside some documents of
the others. -/
inductive InTenant (T : String) (F : EcfDocumentRow → Prop) : Request → Prop
  | outside {r : Request} (h : Outside r) : InTenant T F r
  | post {client : EcfClient} {route : Route} {token xml : String} {file : EcfFileName} :
      InTenant T F (.post client route token xml file)
  | record {statement : IdempotencyStatement} {key : String}
      (about : recordKey statement = some key) (inside : InScope T key) :
      InTenant T F (.idempotency statement)
  | state {id : String} (own : ∀ row, F row → row.id ≠ id) :
      InTenant T F (.idempotency (.documentState id))
  | lookup {sourceTxnId : String} {ambiente : Option String} :
      InTenant T F (.documentBySourceTxnId T sourceTxnId ambiente)
  | allocate {scope tipo : String} (inside : InScope T scope)
      (renamed : ∀ other, alternativeScope scope = some other → InScope T other) :
      InTenant T F (.getNextEncf scope tipo)
  | release {scope tipo encf : String} (inside : InScope T scope)
      (before : ∀ other, beforeColon scope = some other → other ≠ "" → InScope T other) :
      InTenant T F (.releaseUnusedEncf scope tipo encf)
  | save {write : Write} (apart : Apart T F write.doc) : InTenant T F (.saveChanges [write])

/-- A world among whose documents the others' are known, and whose sequences
have different ids. -/
structure Beside (T : String) (F : EcfDocumentRow → Prop) (w : World) : Prop where
  covers : Covers T F w.documents
  ids : (w.sequences.map (·.id)).Nodup

theorem getBySourceTxnId_own (instant : String → ℤ) (pick : ℕ) (sourceTxnId : String)
    (ambiente : Option String) :
    Tables.getBySourceTxnId instant pick T sourceTxnId ambiente (ownDocuments T table) =
      Tables.getBySourceTxnId instant pick T sourceTxnId ambiente table := by
  have found : (ownDocuments T table).rows.filter (fun row =>
      matchesSource T sourceTxnId ambiente row && !row.isDeleted) = table.rows.filter fun row =>
        matchesSource T sourceTxnId ambiente row && !row.isDeleted :=
    filter_kind table.rows fun row _ found => by
      simp only [matchesSource, Bool.and_eq_true, decide_eq_true_eq] at found
      exact decide_eq_true found.1.1.1
  simp only [Tables.getBySourceTxnId, found]

theorem documentState_own {id : String} (covers : Covers T F table)
    (own : ∀ row, F row → row.id ≠ id) :
    (ownDocuments T table).rows.find? (·.id = id) = table.rows.find? (·.id = id) :=
  find_kind table.rows fun row member same => by
    by_contra other
    exact own row (covers.present row member (not_own (by simpa using other)))
      (of_decide_eq_true same)

/-- A commit's part in a world. -/
theorem saveChanges_own (ext : Externals) (input : Input) {write : Write}
    (apart : Apart T F write.doc) (beside : Beside T F w) :
    answerAt ext input (ownData T w) (.saveChanges [write]) =
        ((answerAt ext input w (.saveChanges [write])).1,
          ownData T (answerAt ext input w (.saveChanges [write])).2) ∧
      others T (answerAt ext input w (.saveChanges [write])).2 = others T w ∧
      (answerAt ext input w (.saveChanges [write])).2.sequences = w.sequences := by
  have commits := commit_apart apart beside.covers
  have own : (ownData T w).documents = ownDocuments T w.documents := rfl
  simp only [answerAt, own, Input.database]
  cases input.databaseError with
  | some e => exact ⟨rfl, rfl, rfl⟩
  | none =>
    dsimp only
    cases done : commit w.documents [write] with
    | error e =>
      rw [done] at commits
      rw [show commit (ownDocuments T w.documents) [write] = .error e from commits]
      exact ⟨rfl, rfl, rfl⟩
    | ok next =>
      rw [done] at commits
      obtain ⟨alike, spared⟩ := commits
      rw [alike]
      exact ⟨rfl, congrArg (fun l => (l, (others T w).2)) spared, rfl⟩

theorem idempotencyAnswer_sequences {statement : IdempotencyStatement} :
    (idempotencyAnswer input w statement).2.sequences = w.sequences := by
  cases statement <;> simp only [idempotencyAnswer] <;> repeat' split
  all_goals rfl

/-- **One request of the tenant** is answered in a world as without the others,
and leaves them as they were. -/
theorem InTenant.answer (ext : Externals) (input : Input) {r : Request} (h : InTenant T F r)
    (beside : Beside T F w) :
    answerAt ext input (ownData T w) r =
        ((answerAt ext input w r).1, ownData T (answerAt ext input w r).2) ∧
      others T (answerAt ext input w r).2 = others T w ∧
      (answerAt ext input w r).2.sequences.map (·.id) = w.sequences.map (·.id) := by
  cases h with
  | outside h =>
    cases r <;> first | exact h.elim | exact ⟨rfl, rfl, rfl⟩
  | post => exact ⟨rfl, rfl, rfl⟩
  | @record statement key about inside =>
    obtain ⟨same, spared⟩ := idempotencyAnswer_own input w about inside
    refine ⟨same, spared, ?_⟩
    rw [show (answerAt ext input w (.idempotency statement)).2.sequences = w.sequences from
      idempotencyAnswer_sequences]
  | @state id own =>
    have found : ((ownData T w).documents.rows.find? (·.id = id)).map (·.state) =
        (w.documents.rows.find? (·.id = id)).map (·.state) :=
      congrArg (Option.map _) (documentState_own beside.covers own)
    refine ⟨?_, rfl, rfl⟩
    simp only [answerAt, idempotencyAnswer, found]
    rfl
  | @lookup sourceTxnId ambiente =>
    have found : Tables.getBySourceTxnId ext.instant input.pick T sourceTxnId ambiente
        (ownData T w).documents = Tables.getBySourceTxnId ext.instant input.pick T sourceTxnId
          ambiente w.documents := getBySourceTxnId_own ..
    refine ⟨?_, rfl, rfl⟩
    simp only [answerAt, found]
  | @allocate scope tipo inside renamed =>
    have issues := getNextEncf_own w.clock tipo inside renamed beside.ids
    have own : (ownData T w).sequences = w.sequences.filter (ownSequence T) := rfl
    have clock : (ownData T w).clock = w.clock := rfl
    simp only [answerAt, own, clock, Input.database]
    cases input.databaseError with
    | some e => exact ⟨rfl, rfl, rfl⟩
    | none =>
      dsimp only
      cases issued : getNextEncf w.clock scope tipo w.sequences with
      | error e =>
        rw [issued] at issues
        rw [show getNextEncf w.clock scope tipo (w.sequences.filter (ownSequence T)) = .error e
          from issues]
        exact ⟨rfl, rfl, rfl⟩
      | ok result =>
        rw [issued] at issues
        obtain ⟨alike, spared, ids⟩ := issues
        rw [alike]
        exact ⟨rfl, congrArg (fun l => ((others T w).1, l, (others T w).2.2)) spared, ids⟩
  | @release scope tipo encf inside before =>
    obtain ⟨alike, spared, ids⟩ := releaseUnusedEncf_own w.sequences tipo encf inside before
    have own : (ownData T w).sequences = w.sequences.filter (ownSequence T) := rfl
    simp only [answerAt, own]
    cases input.databaseError with
    | some e => exact ⟨rfl, rfl, rfl⟩
    | none =>
      dsimp only
      rw [alike]
      exact ⟨rfl, congrArg (fun l => ((others T w).1, l, (others T w).2.2)) spared, ids⟩
  | save apart =>
    obtain ⟨same, spared, sequences⟩ := saveChanges_own ext input apart beside
    exact ⟨same, spared, by rw [sequences]⟩

/-- The others are beside the tenant as long as they stay. -/
theorem Beside.later {w' : World} (beside : Beside T F w) (same : others T w' = others T w)
    (ids : w'.sequences.map (·.id) = w.sequences.map (·.id)) : Beside T F w' := by
  refine ⟨⟨fun row member other => ?_, beside.covers.foreign⟩, ids ▸ beside.ids⟩
  have kind : (!ownDocument T row) = true := by simpa [ownDocument] using other
  have stays : row ∈ (others T w').1 := List.mem_filter.mpr ⟨member, kind⟩
  rw [same] at stays
  exact beside.covers.present row (List.mem_of_mem_filter stays) other

/-! ## Scopes -/

/-- The tenant has no name before a colon that could be another tenant's. -/
def Plain (T : String) : Prop := ∀ name, beforeColon T = some name → name = ""

theorem inScope_self (T : String) : InScope T T := .inl rfl

theorem inScope_colon (T rest : String) : InScope T (T ++ ":" ++ rest) := by
  right
  rw [String.toList_append (s := T ++ ":")]
  exact List.prefix_append _ _

theorem toList_scope (T rest : String) :
    (T ++ ":" ++ rest).toList = T.toList ++ ':' :: rest.toList := by
  simp [String.toList_append]

theorem takeWhile_stopped {p : Char → Bool} {a : List Char} (rest : List Char)
    (stops : ∃ c ∈ a, p c = false) : (a ++ rest).takeWhile p = a.takeWhile p := by
  induction a with
  | nil => simp at stops
  | cons c a ih =>
    rw [List.cons_append, List.takeWhile_cons, List.takeWhile_cons]
    cases goes : p c with
    | false => rfl
    | true =>
      obtain ⟨d, member, stops⟩ := stops
      rcases List.mem_cons.mp member with rfl | later
      · rw [goes] at stops
        cases stops
      · rw [ih ⟨d, later, stops⟩]

/-- What stands before the first colon of a scope of the tenant. -/
theorem beforeColon_scope (plain : Plain T) {rest other : String}
    (named : beforeColon (T ++ ":" ++ rest) = some other) (nonempty : other ≠ "") :
    InScope T other := by
  unfold beforeColon at named
  rw [toList_scope, if_pos (by simp)] at named
  obtain rfl := Option.some.inj named
  unfold Text.before at nonempty ⊢
  rw [toList_scope] at nonempty ⊢
  by_cases colon : ':' ∈ T.toList
  · rw [takeWhile_stopped _ ⟨':', colon, by simp⟩] at nonempty
    have blank : Text.before ':' T = "" := plain _ (if_pos (by simpa using colon))
    exact absurd blank nonempty
  · have whole : ∀ c ∈ T.toList, decide (c ≠ ':') = true := fun c member =>
      decide_eq_true fun same => colon (same ▸ member)
    rw [List.takeWhile_append_of_pos whole, List.takeWhile_cons_of_neg (by simp), List.append_nil,
      String.ofList_toList]
    exact .inl rfl

/-- The scope of a target. -/
theorem scopeOf_cases {t : SubmissionTarget} (resolved : resolveTarget services req = .ok t) :
    scopeOf t = t.tenantId ∧ t.tenantId = "default-tenant" ∨
      scopeOf t = t.tenantId ++ ":" ++ ambienteToString t.ambiente := by
  have member := scopeOf_mem resolved
  unfold scopesOf at member
  rcases List.mem_cons.mp member with named | default
  · exact .inr named
  · split at default
    · next same => exact .inl ⟨(List.mem_singleton.mp default).trans same.symm, same⟩
    · cases default

theorem endsWithNoCase_append (T suffix other : String) :
    endsWithNoCase (T ++ suffix) other = ((other.toList.map Char.toLower).reverse.isPrefixOf
      ((suffix.toList.map Char.toLower).reverse ++ (T.toList.map Char.toLower).reverse)) := by
  rw [endsWithNoCase, String.toList_append, List.map_append, List.reverse_append]

theorem takeFirst_scope (T suffix : String) :
    takeFirst ((T ++ suffix).toList.length - suffix.toList.length) (T ++ suffix) = T := by
  rw [takeFirst, String.toList_append, List.length_append, Nat.add_sub_cancel, List.take_left,
    String.ofList_toList]

theorem endsWithNoCase_self (T suffix : String) : endsWithNoCase (T ++ suffix) suffix = true := by
  rw [endsWithNoCase_append]
  exact List.isPrefixOf_iff_prefix.mpr (List.prefix_append _ _)

/-- The other name of a scope of the tenant is one as well. -/
theorem alternativeScope_inScope (T : String) (ambiente : AmbienteEnum) {other : String}
    (named : alternativeScope (T ++ ":" ++ ambienteToString ambiente) = some other) :
    InScope T other := by
  have within : ∀ rest, InScope T (T ++ (":" ++ rest)) := fun rest =>
    String.append_assoc ▸ inScope_colon T rest
  rw [String.append_assoc] at named
  unfold alternativeScope at named
  dsimp only at named
  cases ambiente with
  | preCertificacion =>
    rw [show ":" ++ ambienteToString .preCertificacion = ":PreCertificacion" from rfl,
      endsWithNoCase_self, if_pos rfl, takeFirst_scope] at named
    obtain rfl := Option.some.inj named
    exact within "TestEcf"
  | certificacion =>
    have first : endsWithNoCase (T ++ ":Certificacion") ":PreCertificacion" = false := by
      rw [endsWithNoCase_append]
      rfl
    have second : endsWithNoCase (T ++ ":Certificacion") ":TestEcf" = false := by
      rw [endsWithNoCase_append]
      rfl
    rw [show ":" ++ ambienteToString .certificacion = ":Certificacion" from rfl, first, second,
      endsWithNoCase_self, takeFirst_scope] at named
    obtain rfl := Option.some.inj named
    exact within "CertEcf"
  | produccion =>
    have nowhere : ∀ suffix ∈ [":PreCertificacion", ":TestEcf", ":Certificacion", ":CertEcf"],
        endsWithNoCase (T ++ ":Produccion") suffix = false := by
      simp only [List.forall_mem_cons, List.not_mem_nil, false_imp_iff, implies_true, and_true,
        endsWithNoCase_append]
      exact ⟨rfl, rfl, rfl, rfl⟩
    rw [show ":" ++ ambienteToString .produccion = ":Produccion" from rfl,
      nowhere ":PreCertificacion" (by simp), nowhere ":TestEcf" (by simp),
      nowhere ":Certificacion" (by simp), nowhere ":CertEcf" (by simp)] at named
    cases named

end EcfDgii.TenantData
