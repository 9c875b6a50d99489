import Mathlib.Data.List.Induction
import Mathlib.Data.List.Nodup
import EcfDgii.SequenceNumbers
import EcfDgii.Transactions

/-!
The numbers that the rows of `ecf_sequences` issue (`EcfSequenceManager`).

`getNextEncf` is one transaction: it finds its row, perhaps under the other name
of the scope's ambiente, which it then gives up, checks the expiry and the range,
and counts.  `outcome_getNextEncf` says what it answers and leaves, and that
nothing of it is left when it throws.  Over a run of calls each row issues
consecutive numbers from its start (`Counted`), and a number that is given back
is the next one (`reissued`).
-/

set_option autoImplicit false

namespace EcfDgii.AllocatedNumbers

open EcfDgii.Text EcfDgii.Timestamps EcfDgii.Documents EcfDgii.Tables EcfDgii.Machines
open EcfDgii.SequenceNumbers EcfDgii.Transactions

/-! ## One row among the others -/

section

variable {α β ι : Type} [DecidableEq ι] (id : α → ι) (key : α → β) {l : List α} {old : α}

/-- The only element of its id is replaced. -/
theorem map_replaced (ids : (l.map id).Nodup) (member : old ∈ l) (f : α → α) :
    ∃ before after, l = before ++ old :: after ∧
      (l.map fun s => if id s = id old then f s else s) = before ++ f old :: after ∧
      ∀ s ∈ before ++ after, id s ≠ id old := by
  obtain ⟨before, after, rfl⟩ := List.append_of_mem member
  rw [List.map_append, List.map_cons, List.nodup_middle, List.nodup_cons] at ids
  have others : ∀ s ∈ before ++ after, id s ≠ id old := by
    intro s among same
    rw [← List.map_append] at ids
    exact ids.1 (same ▸ List.mem_map_of_mem among)
  have kept : ∀ part ∈ [before, after],
      (part.map fun s => if id s = id old then f s else s) = part := by
    intro part known
    have inside : ∀ s ∈ part, id s ≠ id old := by
      intro s here
      simp only [List.mem_cons, List.not_mem_nil, or_false] at known
      rcases known with rfl | rfl
      · exact others s (List.mem_append_left _ here)
      · exact others s (List.mem_append_right _ here)
    exact (List.map_congr_left fun s here => if_neg (inside s here)).trans (List.map_id' part)
  refine ⟨before, after, rfl, ?_, others⟩
  rw [List.map_append, List.map_cons, if_pos rfl, kept before (by simp), kept after (by simp)]

/-- The keys stay distinct when the new one is no other element's. -/
theorem nodup_replaced (ids : (l.map id).Nodup) (keys : (l.map key).Nodup) (member : old ∈ l)
    (f : α → α) :
    ((l.map fun s => if id s = id old then f s else s).map key).Nodup ↔
      ∀ s ∈ l, id s ≠ id old → key s ≠ key (f old) := by
  obtain ⟨before, after, whole, replaced, others⟩ := map_replaced id ids member f
  rw [whole, List.map_append, List.map_cons, List.nodup_middle, List.nodup_cons] at keys
  rw [replaced, List.map_append, List.map_cons, List.nodup_middle, List.nodup_cons,
    and_iff_left keys.2, ← List.map_append]
  constructor
  · intro absent s among other same
    have outside : s ∈ before ++ after := by
      rw [whole] at among
      simp only [List.mem_append, List.mem_cons] at among ⊢
      rcases among with here | rfl | here
      · exact .inl here
      · exact absurd rfl other
      · exact .inr here
    exact absent (same ▸ List.mem_map_of_mem outside)
  · intro apart present
    obtain ⟨s, outside, same⟩ := List.mem_map.mp present
    have among : s ∈ l := by
      rw [whole]
      simp only [List.mem_append, List.mem_cons] at outside ⊢
      exact outside.imp_right .inr
    exact apart s among (others s outside) same

end

/-! ## The transaction -/

/-- The columns of `uq_ecf_sequences_tenant_tipo`. -/
def key (s : EcfSequence) : String × String := (s.tenantId, s.tipoComprobante)

/-- `UPDATE ecf_sequences SET tenant_id`, under the unique index. -/
def updateTenant (scope : String) (id : ℕ) : Atomic (List EcfSequence) Unit := do
  let rows ← .get
  let renamed := rows.map fun s => if s.id = id then { s with tenantId := scope } else s
  if (renamed.map key).Nodup then .modify fun _ => renamed
  else .raise (.error (duplicateKey "uq_ecf_sequences_tenant_tipo"))

/-- `UPDATE ecf_sequences SET secuencia_actual`. -/
def updateNumber (number : ℤ) (id : ℕ) : Atomic (List EcfSequence) Unit :=
  .modify fun rows => rows.map fun s =>
    if s.id = id then { s with secuenciaActual := number } else s

/-- The row of a scope and type, or the one under the other name of the ambiente,
which takes this one. -/
def lockedSequence (scope tipo : String) : Atomic (List EcfSequence) EcfSequence := do
  let rows ← .get
  match activeSequence scope tipo rows with
  | some seq => return seq
  | none =>
    match (alternativeScope scope).bind fun other => activeSequence other tipo rows with
    | some seq =>
      updateTenant scope seq.id
      return { seq with tenantId := scope }
    | none => .raise (.error ("No existe un rango de secuencias eNCF activo y autorizado para el tipo '" ++
        tipo ++ "' en el ámbito '" ++ scope ++
        "'. Debe registrar el rango otorgado por la DGII antes de emitir."))

/-- What `getNextEncf` does before it commits. -/
def countedSequence (time : ℕ) (scope tipo : String) :
    Atomic (List EcfSequence) EcfSequence := do
  let seq ← lockedSequence scope tipo
  let next ← .raise (issueNext time tipo seq)
  updateNumber next.secuenciaActual next.id
  return next

/-- `getNextEncf`. -/
def getNextEncfTransaction (time : ℕ) (scope tipo : String) :
    Atomic (List EcfSequence) String :=
  countedSequence time scope tipo >>= fun next =>
    .commit >>= fun _ => pure next.getCurrentEncfFormatted

theorem uncommitted_updateTenant (scope : String) (id : ℕ) : (updateTenant scope id).Uncommitted := by
  refine Atomic.uncommitted_get.bind fun rows => ?_
  dsimp only
  split
  · exact Atomic.uncommitted_modify _
  · exact Atomic.uncommitted_raise _

theorem uncommitted_lockedSequence (scope tipo : String) :
    (lockedSequence scope tipo).Uncommitted := by
  refine Atomic.uncommitted_get.bind fun rows => ?_
  split
  · exact Atomic.uncommitted_pure _
  · split
    · exact (uncommitted_updateTenant _ _).bind fun _ => Atomic.uncommitted_pure _
    · exact Atomic.uncommitted_raise _

theorem uncommitted_countedSequence (time : ℕ) (scope tipo : String) :
    (countedSequence time scope tipo).Uncommitted :=
  (uncommitted_lockedSequence scope tipo).bind fun _ =>
    (Atomic.uncommitted_raise _).bind fun _ =>
      (Atomic.uncommitted_modify _).bind fun _ => Atomic.uncommitted_pure _

/-- **A call that throws leaves the table as it was**, the name of the row included. -/
theorem getNextEncf_throws {time : ℕ} {scope tipo e : String} {rows : List EcfSequence}
    (throws : ((getNextEncfTransaction time scope tipo).outcome rows).1 = .error e) :
    ((getNextEncfTransaction time scope tipo).outcome rows).2 = rows :=
  Atomic.outcome_throws (uncommitted_countedSequence time scope tipo) throws

/-! ## What a call answers and leaves -/

/-- A table of `ecf_sequences`: its ids, and its scopes and types, are distinct. -/
structure IsTable (rows : List EcfSequence) : Prop where
  ids : (rows.map (·.id)).Nodup
  keys : (rows.map key).Nodup

variable {rows : List EcfSequence} {time : ℕ} {scope tipo : String} {seq next : EcfSequence}

theorem activeSequence_some (found : activeSequence scope tipo rows = some seq) :
    seq ∈ rows ∧ key seq = (scope, tipo) ∧ seq.isActive = true := by
  have holds := List.find?_some found
  simp only [Bool.and_eq_true, decide_eq_true_eq] at holds
  exact ⟨List.mem_of_find?_eq_some found, Prod.ext holds.1.1 holds.1.2, holds.2⟩

/-- A row is found by its key. -/
theorem activeSequence_of_mem (keys : (rows.map key).Nodup) (member : seq ∈ rows)
    (own : key seq = (scope, tipo)) (active : seq.isActive = true) :
    activeSequence scope tipo rows = some seq := by
  have matching : (activeSequence scope tipo rows).isSome = true := by
    rw [activeSequence, List.find?_isSome]
    refine ⟨seq, member, ?_⟩
    have tenant : seq.tenantId = scope := congrArg Prod.fst own
    have type : seq.tipoComprobante = tipo := congrArg Prod.snd own
    simp [tenant, type, active]
  obtain ⟨other, found⟩ := Option.isSome_iff_exists.mp matching
  obtain ⟨among, same, -⟩ := activeSequence_some found
  rw [← List.inj_on_of_nodup_map keys among member (same.trans own.symm)]
  exact found

/-- The row of a call, as it was: it has the scope already, or no row has it. -/
theorem sequenceFor_some (found : sequenceFor scope tipo rows = .ok seq) :
    ∃ old ∈ rows, seq = { old with tenantId := scope } ∧ old.tipoComprobante = tipo ∧
      old.isActive = true ∧
      (old.tenantId = scope ∨ ∀ s ∈ rows, key s ≠ (scope, tipo)) := by
  unfold sequenceFor at found
  split at found
  · next active =>
    cases found
    obtain ⟨member, own, enabled⟩ := activeSequence_some active
    have tenant : seq.tenantId = scope := congrArg Prod.fst own
    have type : seq.tipoComprobante = tipo := congrArg Prod.snd own
    exact ⟨seq, member, by rw [← tenant], type, enabled, .inl tenant⟩
  · split at found
    · next old active =>
      obtain ⟨other, -, active⟩ := Option.bind_eq_some_iff.mp active
      obtain ⟨member, own, enabled⟩ := activeSequence_some active
      split at found
      · cases found
      · next free =>
        cases found
        refine ⟨old, member, rfl, congrArg Prod.snd own, enabled, .inr fun s among same => free ?_⟩
        refine List.any_eq_true.mpr ⟨s, among, ?_⟩
        have tenant : s.tenantId = scope := congrArg Prod.fst same
        have type : s.tipoComprobante = tipo := congrArg Prod.snd same
        simp [tenant, type]
    · cases found

/-- The day of a time point. -/
def today (time : ℕ) : List Char := (toIsoUtc time).toList.take 10

/-- The row's expiry date has not passed. -/
def InForce (seq : EcfSequence) (time : ℕ) : Prop :=
  ∃ expiry, seq.fechaVencimiento = some expiry ∧ expiry ≠ "" ∧
    ¬ expiry.toList.take 10 < today time

/-- The next number of a row: it skips to the start of the range. -/
def nextNumber (seq : EcfSequence) : ℤ := max seq.rangoDesde (seq.secuenciaActual + 1)

/-- **When a row issues.** -/
theorem issueNext_iff :
    issueNext time tipo seq = .ok next ↔
      InForce seq time ∧ nextNumber seq ≤ seq.rangoHasta ∧
        next = { seq with secuenciaActual := nextNumber seq } := by
  have count : max seq.secuenciaActual (seq.rangoDesde - 1) + 1 = nextNumber seq := by
    unfold nextNumber
    omega
  unfold issueNext InForce today
  cases expiry : seq.fechaVencimiento with
  | none => simp
  | some date =>
    by_cases blank : date = ""
    · simp [blank]
    by_cases expired : date.toList.take 10 < (toIsoUtc time).toList.take 10
    · simp [blank, expired]
    by_cases exhausted : seq.rangoHasta ≤ max seq.secuenciaActual (seq.rangoDesde - 1)
    · have spent : ¬ nextNumber seq ≤ seq.rangoHasta := by omega
      simp [blank, expired, exhausted, spent]
    · have within : nextNumber seq ≤ seq.rangoHasta := by omega
      simp only [blank, expired, exhausted, ↓reduceIte, count]
      constructor
      · intro issued
        cases issued
        exact ⟨⟨date, rfl, blank, expired⟩, within, rfl⟩
      · rintro ⟨-, -, rfl⟩
        rfl

/-- A row as a call leaves it. -/
def counted (scope : String) (old : EcfSequence) : EcfSequence :=
  { old with tenantId := scope, secuenciaActual := nextNumber old }

/-- What a call needs of the row it finds. -/
structure Issues (time : ℕ) (scope tipo : String) (rows : List EcfSequence) (old : EcfSequence) :
    Prop where
  member : old ∈ rows
  typed : old.tipoComprobante = tipo
  active : old.isActive = true
  free : old.tenantId = scope ∨ ∀ s ∈ rows, key s ≠ (scope, tipo)
  inForce : InForce old time
  within : nextNumber old ≤ old.rangoHasta

theorem nextSequence_some (issued : nextSequence time scope tipo rows = .ok next) :
    ∃ old, Issues time scope tipo rows old ∧ next = counted scope old := by
  unfold nextSequence at issued
  cases found : sequenceFor scope tipo rows with
  | error e =>
    rw [found] at issued
    cases issued
  | ok seq =>
    rw [found] at issued
    obtain ⟨old, member, rfl, type, active, free⟩ := sequenceFor_some found
    obtain ⟨inForce, within, rfl⟩ := issueNext_iff.mp issued
    exact ⟨old, ⟨member, type, active, free, inForce, within⟩, rfl⟩

/-- The only row with an id. -/
theorem IsTable.only (table : IsTable rows) {a b : EcfSequence} (first : a ∈ rows)
    (second : b ∈ rows) (same : a.id = b.id) : a = b :=
  List.inj_on_of_nodup_map table.ids first second same

/-- The rows with the scope of one of them replaced. -/
def rescoped (seq : EcfSequence) (rows : List EcfSequence) : List EcfSequence :=
  rows.map fun s => if s.id = seq.id then { s with tenantId := seq.tenantId } else s

theorem rescoped_self (table : IsTable rows) (member : seq ∈ rows) : rescoped seq rows = rows := by
  have same : ∀ s ∈ rows, (if s.id = seq.id then { s with tenantId := seq.tenantId } else s) = s := by
    intro s among
    split
    · next own =>
      rw [table.only among member own]
    · rfl
  exact (List.map_congr_left same).trans (List.map_id' rows)

/-- The other name of the ambiente is given up, where the scope's own is free. -/
theorem updateTenant_apply (scope : String) (table : IsTable rows) (committed : List EcfSequence)
    (none : activeSequence scope tipo rows = none) (member : seq ∈ rows)
    (typed : seq.tipoComprobante = tipo) (active : seq.isActive = true) :
    updateTenant scope seq.id ⟨committed, rows⟩ =
      if rows.any fun s => s.tenantId = scope && s.tipoComprobante = tipo then
        (.error (duplicateKey "uq_ecf_sequences_tenant_tipo"), ⟨committed, rows⟩)
      else (.ok (), ⟨committed, rescoped { seq with tenantId := scope } rows⟩) := by
  have free : ((rescoped { seq with tenantId := scope } rows).map key).Nodup ↔
      ∀ s ∈ rows, s.id ≠ seq.id → key s ≠ (scope, tipo) := by
    rw [← typed]
    exact nodup_replaced EcfSequence.id key table.ids table.keys member
      fun s => { s with tenantId := scope }
  rw [updateTenant, Atomic.bind_of_ok Atomic.get_apply]
  dsimp only
  change (if ((rescoped { seq with tenantId := scope } rows).map key).Nodup then _ else _ :
    Atomic (List EcfSequence) Unit) ⟨committed, rows⟩ = _
  by_cases taken : (rows.any fun s => s.tenantId = scope && s.tipoComprobante = tipo) = true
  · obtain ⟨s, among, holds⟩ := List.any_eq_true.mp taken
    simp only [Bool.and_eq_true, decide_eq_true_eq] at holds
    have own : key s = (scope, tipo) := Prod.ext holds.1 holds.2
    have clash : ¬ ((rescoped { seq with tenantId := scope } rows).map key).Nodup := by
      rw [free]
      intro apart
      refine apart s among (fun same => ?_) own
      have found := activeSequence_of_mem table.keys among own
        (by rw [table.only among member same, active])
      rw [none] at found
      cases found
    rw [if_neg clash, if_pos taken]
    rfl
  · have clear : ((rescoped { seq with tenantId := scope } rows).map key).Nodup := by
      rw [free]
      intro s among _ own
      refine taken (List.any_eq_true.mpr ⟨s, among, ?_⟩)
      have tenant : s.tenantId = scope := congrArg Prod.fst own
      have type : s.tipoComprobante = tipo := congrArg Prod.snd own
      simp [tenant, type]
    rw [if_pos clear, if_neg taken]
    rfl

theorem lockedSequence_apply (scope tipo : String) (table : IsTable rows) (committed : List EcfSequence) :
    lockedSequence scope tipo ⟨committed, rows⟩ =
      match sequenceFor scope tipo rows with
      | .error e => (.error e, ⟨committed, rows⟩)
      | .ok seq => (.ok seq, ⟨committed, rescoped seq rows⟩) := by
  rw [lockedSequence, Atomic.bind_of_ok Atomic.get_apply, sequenceFor]
  dsimp only
  cases found : activeSequence scope tipo rows with
  | some seq =>
    dsimp only
    rw [rescoped_self table (activeSequence_some found).1]
    rfl
  | none =>
    dsimp only
    cases renamed : (alternativeScope scope).bind fun other => activeSequence other tipo rows with
    | none => rfl
    | some seq =>
      obtain ⟨other, -, under⟩ := Option.bind_eq_some_iff.mp renamed
      obtain ⟨member, own, active⟩ := activeSequence_some under
      have ran := updateTenant_apply scope table committed found member
        (congrArg Prod.snd own) active
      dsimp only
      by_cases taken : (rows.any fun s => s.tenantId = scope && s.tipoComprobante = tipo) = true
      · rw [if_pos taken] at ran ⊢
        rw [Atomic.bind_of_error ran]
      · rw [if_neg taken] at ran ⊢
        rw [Atomic.bind_of_ok ran]
        rfl

theorem stored_rescoped (table : IsTable rows) {old : EcfSequence} (member : old ∈ rows) :
    (rescoped { old with tenantId := scope } rows).map (fun s =>
      if s.id = old.id then { s with secuenciaActual := nextNumber old } else s) =
    stored (counted scope old) rows := by
  rw [rescoped, List.map_map]
  refine List.map_congr_left fun s among => ?_
  by_cases same : s.id = old.id
  · rw [table.only among member same]
    simp [counted]
  · simp [counted, same]

/-- **What a call answers and leaves.** -/
theorem outcome_getNextEncf (table : IsTable rows) :
    (getNextEncfTransaction time scope tipo).outcome rows =
      match nextSequence time scope tipo rows with
      | .error e => (.error e, rows)
      | .ok next => (.ok next.getCurrentEncfFormatted, stored next rows) := by
  have found := lockedSequence_apply scope tipo table rows
  unfold nextSequence
  cases chosen : sequenceFor scope tipo rows with
  | error e =>
    rw [chosen] at found
    have thrown : countedSequence time scope tipo ⟨rows, rows⟩ = (.error e, ⟨rows, rows⟩) := by
      rw [countedSequence, Atomic.bind_of_error found]
    rw [Atomic.outcome, getNextEncfTransaction, Atomic.bind_of_error thrown]
  | ok seq =>
    rw [chosen] at found
    dsimp only
    obtain ⟨old, member, rfl, -⟩ := sequenceFor_some chosen
    cases issued : issueNext time tipo { old with tenantId := scope } with
    | error e =>
      have thrown : countedSequence time scope tipo ⟨rows, rows⟩ =
          (.error e, ⟨rows, rescoped { old with tenantId := scope } rows⟩) := by
        rw [countedSequence, Atomic.bind_of_ok found, issued]
        rfl
      rw [Atomic.outcome, getNextEncfTransaction, Atomic.bind_of_error thrown]
    | ok next =>
      obtain ⟨-, -, rfl⟩ := issueNext_iff.mp issued
      have done : countedSequence time scope tipo ⟨rows, rows⟩ =
          (.ok (counted scope old), ⟨rows, stored (counted scope old) rows⟩) := by
        rw [countedSequence, Atomic.bind_of_ok found, issued, ← stored_rescoped table member]
        rfl
      rw [Atomic.outcome, getNextEncfTransaction, Atomic.bind_of_ok done]
      rfl

/-! ## Runs of calls -/

/-- A call of `getNextEncf`, at its time. -/
structure Call where
  time : ℕ
  scope : String
  tipo : String

def Call.outcome (call : Call) (rows : List EcfSequence) : Except String String × List EcfSequence :=
  (getNextEncfTransaction call.time call.scope call.tipo).outcome rows

/-- The table after some calls. -/
def tableAfter (rows : List EcfSequence) (calls : List Call) : List EcfSequence :=
  calls.foldl (fun rows call => (call.outcome rows).2) rows

/-- The ledger of the calls. -/
def ledgerAfter (rows : List EcfSequence) (calls : List Call) : Ledger :=
  ledger.run { rows := rows } (calls.map fun call => .allocate call.time call.scope call.tipo)

/-- The numbers that a row issues, in order. -/
def numbersOf (row : ℕ) (entries : List Entry) : List ℤ :=
  entries.filterMap fun
    | .issued _ _ _ id number => if id = row then some number else none
    | _ => none

/-- The eNCF of a row's number. -/
def encfOf (row : EcfSequence) (number : ℤ) : String :=
  { row with secuenciaActual := number }.getCurrentEncfFormatted

/-- A row that has issued some numbers: they are consecutive from its start, none is
above the range, and the row is at the last of them. -/
structure Counted (start row : EcfSequence) (numbers : List ℤ) : Prop where
  same : row = { start with
    tenantId := row.tenantId, secuenciaActual := row.secuenciaActual }
  consecutive : numbers = (List.range numbers.length).map fun i : ℕ => nextNumber start + i
  current : nextNumber row = nextNumber start + numbers.length
  bounded : ∀ n ∈ numbers, n ≤ start.rangoHasta

/-- What the calls keep of the table they start from. -/
structure Counting (rows : List EcfSequence) (l : Ledger) : Prop where
  table : IsTable l.rows
  ids : l.rows.map (·.id) = rows.map (·.id)
  each : ∀ start ∈ rows, ∃ row ∈ l.rows, Counted start row (numbersOf start.id l.entries)

@[simp] theorem numbersOf_append (row : ℕ) (first second : List Entry) :
    numbersOf row (first ++ second) = numbersOf row first ++ numbersOf row second :=
  List.filterMap_append

/-- A row that issues its next number. -/
theorem Counted.issue {start row : EcfSequence} {numbers : List ℤ}
    (counts : Counted start row numbers) (within : nextNumber row ≤ row.rangoHasta)
    (scope : String) : Counted start (counted scope row) (numbers ++ [nextNumber row]) where
  same := by
    rw [counts.same]
    rfl
  consecutive := by
    rw [List.length_append, List.length_singleton, List.range_succ, List.map_append,
      ← counts.consecutive, counts.current]
    rfl
  current := by
    have skipped : row.rangoDesde ≤ nextNumber row := le_max_left _ _
    have next : nextNumber (counted scope row) = nextNumber row + 1 := by
      simp only [nextNumber, counted] at skipped ⊢
      omega
    rw [next, counts.current, List.length_append, List.length_singleton]
    push_cast
    omega
  bounded := by
    have range : row.rangoHasta = start.rangoHasta := by rw [counts.same]
    intro n member
    rcases List.mem_append.mp member with old | new
    · exact counts.bounded n old
    · rw [List.mem_singleton.mp new, ← range]
      exact within

/-- The table stays one when a row issues. -/
theorem IsTable.stored (table : IsTable rows) {old : EcfSequence}
    (issues : Issues time scope tipo rows old) : IsTable (stored (counted scope old) rows) := by
  have replaced : SequenceNumbers.stored (counted scope old) rows =
      rows.map fun s => if s.id = old.id then counted scope old else s := rfl
  constructor
  · have same : ∀ s : EcfSequence, (if s.id = old.id then counted scope old else s).id = s.id := by
      intro s
      split
      · next own => exact own.symm
      · rfl
    rw [replaced, List.map_map]
    have ids : (rows.map fun s => (if s.id = old.id then counted scope old else s).id) =
        rows.map (·.id) := List.map_congr_left fun s _ => same s
    exact ids ▸ table.ids
  · rw [replaced]
    refine (nodup_replaced EcfSequence.id key table.ids table.keys issues.member
      fun _ => counted scope old).mpr fun s among other taken => ?_
    have own : key (counted scope old) = (scope, tipo) := Prod.ext rfl issues.typed
    rcases issues.free with here | free
    · have held : key old = (scope, tipo) := Prod.ext here issues.typed
      exact other (congrArg EcfSequence.id (List.inj_on_of_nodup_map table.keys among
        issues.member ((taken.trans own).trans held.symm)))
    · exact free s among (taken.trans own)

/-- **A call keeps the count.** -/
theorem Counting.step {l : Ledger} (counting : Counting rows l) (time : ℕ) (scope tipo : String) :
    Counting rows (l.step (.allocate time scope tipo)) := by
  rw [Ledger.step]
  split
  · next e refused =>
    refine ⟨counting.table, counting.ids, fun start member => ?_⟩
    obtain ⟨row, among, counts⟩ := counting.each start member
    refine ⟨row, among, ?_⟩
    rw [numbersOf_append]
    exact (List.append_nil (numbersOf start.id l.entries)).symm ▸ counts
  · next next issued =>
    obtain ⟨old, issues, rfl⟩ := nextSequence_some issued
    refine ⟨counting.table.stored issues, ?_, fun start member => ?_⟩
    · rw [← counting.ids, stored, List.map_map]
      refine List.map_congr_left fun s _ => ?_
      by_cases own : s.id = (counted scope old).id
      · simp [own]
      · simp [own]
    · obtain ⟨row, among, counts⟩ := counting.each start member
      have id : row.id = start.id := by rw [counts.same]
      rw [numbersOf_append]
      by_cases own : row.id = old.id
      · have same : row = old := counting.table.only among issues.member own
        subst same
        refine ⟨counted scope row, ?_, ?_⟩
        · exact List.mem_map.mpr ⟨row, among, if_pos rfl⟩
        · have new : numbersOf start.id [.issued scope tipo
              (counted scope row).getCurrentEncfFormatted (counted scope row).id
              (counted scope row).secuenciaActual] = [nextNumber row] := by
            simp [numbersOf, counted, id]
          rw [new]
          exact counts.issue issues.within scope
      · refine ⟨row, List.mem_map.mpr ⟨row, among, if_neg own⟩, ?_⟩
        have none : numbersOf start.id [.issued scope tipo
            (counted scope old).getCurrentEncfFormatted (counted scope old).id
            (counted scope old).secuenciaActual] = [] := by
          have other : old.id ≠ start.id := fun same => own (id.trans same.symm)
          simp [numbersOf, counted, other]
        rw [none, List.append_nil]
        exact counts

/-- **Runs count.** -/
theorem counting_ledgerAfter (table : IsTable rows) (calls : List Call) :
    Counting rows (ledgerAfter rows calls) := by
  have start : Counting rows { rows := rows } :=
    ⟨table, rfl, fun row member => ⟨row, member, ⟨rfl, rfl, (add_zero _).symm, nofun⟩⟩⟩
  refine Machine.invariant (J := Counting rows)
    (C := fun _ t => ∃ time scope tipo, t = .allocate time scope tipo) ?_ start
    (Machine.meets_of_forall (fun t member => ?_) _)
  · rintro l t counting ⟨time, scope, tipo, rfl⟩
    exact counting.step time scope tipo
  · obtain ⟨call, -, rfl⟩ := List.mem_map.mp member
    exact ⟨_, _, _, rfl⟩

/-- A call leaves the rows that the ledger keeps. -/
theorem outcome_eq_step {l : Ledger} (table : IsTable l.rows) (call : Call) :
    (call.outcome l.rows).2 = (l.step (.allocate call.time call.scope call.tipo)).rows := by
  rw [Call.outcome, outcome_getNextEncf table, Ledger.step]
  cases nextSequence call.time call.scope call.tipo l.rows <;> rfl

theorem tableAfter_eq (table : IsTable rows) (calls : List Call) :
    tableAfter rows calls = (ledgerAfter rows calls).rows := by
  induction calls using List.reverseRecOn with
  | nil => rfl
  | append_singleton calls call ih =>
    have last : tableAfter rows (calls ++ [call]) = (call.outcome (tableAfter rows calls)).2 := by
      rw [tableAfter, List.foldl_append]
      rfl
    have counting := counting_ledgerAfter table calls
    rw [last, ih, outcome_eq_step counting.table, ledgerAfter, ledgerAfter, List.map_append,
      Machine.run_append]
    rfl

/-- The entry of a call that is answered. -/
theorem entry_of_outcome {l : Ledger} (counting : Counting rows l) {call : Call} {encf : String}
    {left : List EcfSequence} (answered : call.outcome l.rows = (.ok encf, left)) :
    ∃ old, Issues call.time call.scope call.tipo l.rows old ∧
      encf = (counted call.scope old).getCurrentEncfFormatted ∧
      left = stored (counted call.scope old) l.rows ∧
      (l.step (.allocate call.time call.scope call.tipo)).entries =
        l.entries ++ [.issued call.scope call.tipo encf old.id (nextNumber old)] := by
  rw [Call.outcome, outcome_getNextEncf counting.table] at answered
  rw [Ledger.step]
  cases issued : nextSequence call.time call.scope call.tipo l.rows with
  | error e =>
    rw [issued] at answered
    cases answered
  | ok next =>
    rw [issued] at answered
    obtain ⟨old, issues, rfl⟩ := nextSequence_some issued
    cases answered
    exact ⟨old, issues, rfl, rfl, rfl⟩

/-! ## The texts of the numbers -/

/-- A prefix of three characters, and numbers of ten digits. -/
structure TenDigits (row : EcfSequence) : Prop where
  prefijo : row.prefijo.toList.length = 3
  desde : 0 < row.rangoDesde
  hasta : row.rangoHasta ≤ 9999999999

theorem encfOf_toList (row : EcfSequence) (n : ℕ) :
    (encfOf row n).toList = row.prefijo.toList ++ padded 10 n := by
  rw [encfOf, EcfSequence.getCurrentEncfFormatted, String.toList_append]
  exact congrArg _ (String.toList_ofList)

/-- Thirteen characters. -/
theorem length_encfOf {row : EcfSequence} (three : row.prefijo.toList.length = 3) {n : ℕ}
    (ten : n ≤ 9999999999) : (encfOf row n).toList.length = 13 := by
  rw [encfOf_toList, List.length_append, three, length_padded (by decide) (by omega)]

/-- A text that a release reads a number from. -/
def Denotes (text : String) (number : ℤ) : Prop :=
  ∃ rest, scanInt (text.toList.drop 3) = some (number, rest)

theorem denotes_encfOf {row : EcfSequence} (three : row.prefijo.toList.length = 3) (n : ℕ) :
    Denotes (encfOf row n) n := by
  refine ⟨[], ?_⟩
  have cut : (row.prefijo.toList ++ padded 10 n).drop 3 = padded 10 n := by
    rw [← three, List.drop_left]
  have scanned := @scanInt_padded 10 n [] (by simp)
  rw [List.append_nil] at scanned
  rw [encfOf_toList, cut, scanned]

/-- Different numbers are printed differently. -/
theorem encfOf_inj {row : EcfSequence} {n m : ℕ} (same : encfOf row n = encfOf row m) : n = m := by
  have texts := congrArg String.toList same
  rw [encfOf_toList, encfOf_toList] at texts
  have digits := congrArg (Nat.ofDigitChars 10 · 0) (List.append_cancel_left texts)
  simpa only [padded_value] using digits

/-! ## A number that is given back -/

/-- A release changes no id and no key. -/
theorem IsTable.released (table : IsTable rows) (scope tipo text : String) :
    IsTable (releaseUnusedEncf scope tipo text rows) := by
  have same : ∀ s : EcfSequence,
      (if releases scope tipo text s then
        { s with secuenciaActual := s.secuenciaActual - 1 } else s).id = s.id ∧
      key (if releases scope tipo text s then
        { s with secuenciaActual := s.secuenciaActual - 1 } else s) = key s := by
    intro s
    split
    · exact ⟨rfl, rfl⟩
    · exact ⟨rfl, rfl⟩
  rw [releaseUnusedEncf_eq]
  constructor
  · rw [List.map_map]
    have ids : (rows.map fun s => (if releases scope tipo text s then
        { s with secuenciaActual := s.secuenciaActual - 1 } else s).id) = rows.map (·.id) :=
      List.map_congr_left fun s _ => (same s).1
    exact ids ▸ table.ids
  · rw [List.map_map]
    have keys : (rows.map fun s => key (if releases scope tipo text s then
        { s with secuenciaActual := s.secuenciaActual - 1 } else s)) = rows.map key :=
      List.map_congr_left fun s _ => (same s).2
    exact keys ▸ table.keys

/-- **A number that is given back is the next one.** -/
theorem reissued (table : IsTable rows) {old : EcfSequence}
    (issues : Issues time scope tipo rows old) {text : String}
    (denotes : Denotes text (nextNumber old)) {again : ℕ} (sameDay : today again = today time) :
    nextSequence again scope tipo
        (releaseUnusedEncf scope tipo text (stored (counted scope old) rows)) =
      .ok (counted scope old) := by
  have after := table.stored issues
  have released := after.released scope tipo text
  obtain ⟨rest, scanned⟩ := denotes
  have taken : releases scope tipo text (counted scope old) = true := by
    simp [releases, scanned, counted, issues.typed]
  have back : { counted scope old with secuenciaActual := nextNumber old - 1 } ∈
      releaseUnusedEncf scope tipo text (stored (counted scope old) rows) := by
    rw [releaseUnusedEncf_eq]
    refine List.mem_map.mpr ⟨counted scope old, ?_, if_pos taken⟩
    exact List.mem_map.mpr ⟨old, issues.member, if_pos rfl⟩
  have found := activeSequence_of_mem released.keys back
    (show key _ = (scope, tipo) from Prod.ext rfl issues.typed) issues.active
  have count : nextNumber { counted scope old with secuenciaActual := nextNumber old - 1 } =
      nextNumber old := by
    have skipped : old.rangoDesde ≤ nextNumber old := le_max_left _ _
    simp only [nextNumber, counted] at skipped ⊢
    omega
  rw [nextSequence, sequenceFor, found]
  dsimp only
  refine issueNext_iff.mpr ⟨?_, count.le.trans issues.within, ?_⟩
  · obtain ⟨expiry, own, some, later⟩ := issues.inForce
    exact ⟨expiry, own, some, sameDay ▸ later⟩
  · rw [count]
    rfl

/-! ## Exact allocation -/

/-- What any run of calls has done to a table, and what the next call does. -/
structure Exact (rows : List EcfSequence) (calls : List Call) : Prop where
  /-- The ledger keeps the rows that the transactions leave. -/
  table : tableAfter rows calls = (ledgerAfter rows calls).rows
  /-- Each row's numbers are consecutive from its start. -/
  consecutive : ∀ row ∈ rows, ∃ k : ℕ, numbersOf row.id (ledgerAfter rows calls).entries =
    (List.range k).map fun i : ℕ => max row.rangoDesde (row.secuenciaActual + 1) + i
  bounded : ∀ row ∈ rows, ∀ n ∈ numbersOf row.id (ledgerAfter rows calls).entries,
    n ≤ row.rangoHasta
  /-- A call that is answered has issued a number of a row that has not expired. -/
  answers : ∀ (call : Call) (encf : String) (left : List EcfSequence),
    call.outcome (tableAfter rows calls) = (.ok encf, left) →
    ∃ row ∈ rows, ∃ n : ℤ, (ledgerAfter rows (calls ++ [call])).entries =
        (ledgerAfter rows calls).entries ++ [.issued call.scope call.tipo encf row.id n] ∧
      encf = encfOf row n ∧ InForce row call.time
  /-- A call that throws leaves the table as it was. -/
  throws : ∀ (call : Call) (e : String) (left : List EcfSequence),
    call.outcome (tableAfter rows calls) = (.error e, left) → left = tableAfter rows calls
  /-- The texts of ten digits have thirteen characters, and tell the numbers apart. -/
  texts : ∀ row ∈ rows, TenDigits row →
    ∀ n ∈ numbersOf row.id (ledgerAfter rows calls).entries, (encfOf row n).toList.length = 13 ∧
      ∀ m ∈ numbersOf row.id (ledgerAfter rows calls).entries, m ≠ n → encfOf row m ≠ encfOf row n
  /-- The number just issued, given back, is the next one of its scope and type. -/
  givenBack : ∀ (call again : Call) (encf text : String) (row : EcfSequence) (n : ℤ),
    row ∈ rows → (ledgerAfter rows (calls ++ [call])).entries =
      (ledgerAfter rows calls).entries ++ [.issued call.scope call.tipo encf row.id n] →
    (Denotes text n ∨ text = encf ∧ TenDigits row) →
    again.scope = call.scope → again.tipo = call.tipo → today again.time = today call.time →
    ∃ next : EcfSequence,
      nextSequence again.time again.scope again.tipo (releaseUnusedEncf call.scope call.tipo text
        (tableAfter rows (calls ++ [call]))) = .ok next ∧
      next.id = row.id ∧ next.secuenciaActual = n ∧
      (again.outcome (releaseUnusedEncf call.scope call.tipo text
        (tableAfter rows (calls ++ [call])))).1 = .ok encf

/-- The row a call finds is one of the table's, with the same columns but for its
scope and its count. -/
theorem Counting.start_of {l : Ledger} (counting : Counting rows l) {row : EcfSequence}
    (member : row ∈ l.rows) :
    ∃ start ∈ rows, start.id = row.id ∧ Counted start row (numbersOf start.id l.entries) := by
  have listed : row.id ∈ rows.map (·.id) := by
    rw [← counting.ids]
    exact List.mem_map_of_mem member
  obtain ⟨start, among, id⟩ := List.mem_map.mp listed
  obtain ⟨other, present, counts⟩ := counting.each start among
  have sameId : other.id = row.id := by
    rw [counts.same]
    exact id
  rw [counting.table.only present member sameId] at counts
  exact ⟨start, among, id, counts⟩

theorem Counted.encf {start row : EcfSequence} {numbers : List ℤ}
    (counts : Counted start row numbers) (scope : String) :
    (counted scope row).getCurrentEncfFormatted = encfOf start (nextNumber row) := by
  have columns := counts.same
  rw [counted, encfOf, EcfSequence.getCurrentEncfFormatted, EcfSequence.getCurrentEncfFormatted,
    show row.prefijo = start.prefijo by rw [columns]]

theorem Counted.inForce {start row : EcfSequence} {numbers : List ℤ}
    (counts : Counted start row numbers) (inForce : InForce row time) : InForce start time := by
  have expiry : row.fechaVencimiento = start.fechaVencimiento := by rw [counts.same]
  rwa [InForce, expiry] at inForce

/-- Numbers of a row that starts above zero are natural. -/
theorem Counted.natural {start row : EcfSequence} {numbers : List ℤ}
    (counts : Counted start row numbers) (positive : 0 < start.rangoDesde) {n : ℤ}
    (member : n ∈ numbers) : ∃ k : ℕ, n = k := by
  rw [counts.consecutive] at member
  obtain ⟨i, -, rfl⟩ := List.mem_map.mp member
  have first : start.rangoDesde ≤ nextNumber start := le_max_left _ _
  exact ⟨(nextNumber start + i).toNat, by omega⟩

theorem ledgerAfter_concat (rows : List EcfSequence) (calls : List Call) (call : Call) :
    ledgerAfter rows (calls ++ [call]) =
      (ledgerAfter rows calls).step (.allocate call.time call.scope call.tipo) := by
  rw [ledgerAfter, List.map_append, Machine.run_append]
  rfl

/-- What the entry of a call says of it. -/
theorem issues_of_entry {l : Ledger} {call : Call} {encf : String} {id : ℕ} {n : ℤ}
    (entry : (l.step (.allocate call.time call.scope call.tipo)).entries =
      l.entries ++ [.issued call.scope call.tipo encf id n]) :
    ∃ old, Issues call.time call.scope call.tipo l.rows old ∧ old.id = id ∧
      nextNumber old = n ∧ encf = (counted call.scope old).getCurrentEncfFormatted ∧
      (l.step (.allocate call.time call.scope call.tipo)).rows =
        stored (counted call.scope old) l.rows := by
  rw [Ledger.step] at entry ⊢
  cases issued : nextSequence call.time call.scope call.tipo l.rows with
  | error e =>
    rw [issued] at entry
    have last := List.append_cancel_left entry
    cases last
  | ok next =>
    rw [issued] at entry
    obtain ⟨old, issues, rfl⟩ := nextSequence_some issued
    have last := List.append_cancel_left entry
    simp only [List.cons.injEq, Entry.issued.injEq, true_and, and_true] at last
    obtain ⟨text, id, number⟩ := last
    exact ⟨old, issues, id, number, text.symm, rfl⟩

/-- **Allocation is exact.** -/
theorem allocation_exact (table : IsTable rows) (calls : List Call) : Exact rows calls := by
  have counting := counting_ledgerAfter table calls
  have same := tableAfter_eq table calls
  constructor
  · exact same
  · intro row member
    obtain ⟨_, -, counts⟩ := counting.each row member
    exact ⟨_, counts.consecutive⟩
  · intro row member
    obtain ⟨_, -, counts⟩ := counting.each row member
    exact counts.bounded
  · intro call encf left answered
    rw [same] at answered
    obtain ⟨old, issues, rfl, -, entry⟩ := entry_of_outcome counting answered
    obtain ⟨row, member, id, counts⟩ := counting.start_of issues.member
    refine ⟨row, member, nextNumber old, ?_, counts.encf call.scope, counts.inForce issues.inForce⟩
    rw [ledgerAfter_concat, entry, id]
  · intro call e left thrown
    have kept := getNextEncf_throws (congrArg Prod.fst thrown)
    exact (congrArg Prod.snd thrown).symm.trans kept
  · intro row member ten n issued
    obtain ⟨_, -, counts⟩ := counting.each row member
    obtain ⟨k, rfl⟩ := counts.natural ten.desde issued
    have within := counts.bounded _ issued
    have last := ten.hasta
    refine ⟨length_encfOf ten.prefijo (by omega), fun m issued' other text => ?_⟩
    obtain ⟨j, rfl⟩ := counts.natural ten.desde issued'
    exact other (congrArg Nat.cast (encfOf_inj text))
  · rintro call ⟨again, scope, tipo⟩ encf text row n member entry denotes rfl rfl sameDay
    rw [ledgerAfter_concat] at entry
    obtain ⟨old, issues, id, rfl, rfl, left⟩ := issues_of_entry entry
    obtain ⟨start, among, sameId, counts⟩ := counting.start_of issues.member
    have own : start = row := table.only among member (sameId.trans id)
    subst own
    have denoted : Denotes text (nextNumber old) := by
      rcases denotes with given | ⟨rfl, ten⟩
      · exact given
      have first : old.rangoDesde ≤ nextNumber old := le_max_left _ _
      have desde : old.rangoDesde = start.rangoDesde := by rw [counts.same]
      have positive := ten.desde
      obtain ⟨k, number⟩ : ∃ k : ℕ, nextNumber old = k := ⟨(nextNumber old).toNat, by omega⟩
      rw [counts.encf call.scope, number]
      exact denotes_encfOf ten.prefijo k
    have next := reissued counting.table issues denoted sameDay
    rw [tableAfter_eq table, ledgerAfter_concat, left]
    refine ⟨counted call.scope old, next, id, rfl, ?_⟩
    have after := (counting.table.stored issues).released call.scope call.tipo text
    rw [Call.outcome, outcome_getNextEncf after, next]

/-- The first two numbers of an ambiente's row, under both of its names. -/
theorem allocation_exact_sample :
    Exact tenantRows [⟨0, "tenant-a:TestEcf", "E31"⟩, ⟨0, "tenant-a:PreCertificacion", "E31"⟩] :=
  allocation_exact ⟨by decide, by decide⟩ _

end EcfDgii.AllocatedNumbers
