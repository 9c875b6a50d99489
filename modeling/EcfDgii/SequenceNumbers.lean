import EcfDgii.Machines
import EcfDgii.Tables

/-!
The numbers of a sequence row (`EcfSequenceManager`).

A row issues its numbers upwards and takes the last one back when it is
released.  `Ledger` is the table of rows with the history of what was issued
and released; its steps are the transactions of any number of callers, each of
which releases only numbers it holds.  The invariant is that the numbers held of
a row are distinct and none is above the row's current number.

An allocation finds its row by the scope, or by the other name of the scope's
ambiente.  A release also matches the row of the bare tenant: when that row is
at the same number, and someone holds it, the row goes back below a number that
is in use.
-/

set_option autoImplicit false

namespace EcfDgii.SequenceNumbers

open EcfDgii.Text EcfDgii.Timestamps EcfDgii.Documents EcfDgii.Tables EcfDgii.Machines

variable {rows : List EcfSequence} {time : ℕ} {scope tipo encf : String}

/-! ## Allocation and release -/

/-- The row of a scope and type, renamed when it carries the other name of the
ambiente. -/
def sequenceFor (scope tipo : String) (rows : List EcfSequence) : Except String EcfSequence :=
  match activeSequence scope tipo rows with
  | some seq => .ok seq
  | none =>
    match (alternativeScope scope).bind fun other => activeSequence other tipo rows with
    | some seq =>
      if rows.any fun s => s.tenantId = scope && s.tipoComprobante = tipo then
        .error (duplicateKey "uq_ecf_sequences_tenant_tipo")
      else .ok { seq with tenantId := scope }
    | none => .error ("No existe un rango de secuencias eNCF activo y autorizado para el tipo '" ++
        tipo ++ "' en el ámbito '" ++ scope ++
        "'. Debe registrar el rango otorgado por la DGII antes de emitir.")

/-- The row as an allocation leaves it. -/
def nextSequence (time : ℕ) (scope tipo : String) (rows : List EcfSequence) :
    Except String EcfSequence :=
  match sequenceFor scope tipo rows with
  | .error e => .error e
  | .ok seq => issueNext time tipo seq

/-- The row stored in place of the one with its id. -/
def stored (next : EcfSequence) (rows : List EcfSequence) : List EcfSequence :=
  rows.map fun s => if s.id = next.id then next else s

/-- An allocation stores its row and prints its number. -/
theorem getNextEncf_eq (time : ℕ) (scope tipo : String) (rows : List EcfSequence) :
    getNextEncf time scope tipo rows =
      match nextSequence time scope tipo rows with
      | .error e => .error e
      | .ok next => .ok (next.getCurrentEncfFormatted, stored next rows) := by
  simp only [getNextEncf, nextSequence]
  change (match sequenceFor scope tipo rows with | .error e => _ | .ok seq => _) = _
  cases sequenceFor scope tipo rows with
  | error e => rfl
  | ok seq => cases issueNext time tipo seq <;> rfl

/-- The WHERE clause of a release. -/
def releases (scope tipo encf : String) (s : EcfSequence) : Bool :=
  match scanInt (encf.toList.drop 3) with
  | none => false
  | some (number, _) =>
    decide ((s.tenantId = scope ∨ some s.tenantId = beforeColon scope ∧ s.tenantId ≠ "") ∧
      s.tipoComprobante = tipo ∧ s.secuenciaActual = number)

/-- A release takes one number back wherever it matches. -/
theorem releaseUnusedEncf_eq (scope tipo encf : String) (rows : List EcfSequence) :
    releaseUnusedEncf scope tipo encf rows =
      rows.map fun s => if releases scope tipo encf s then
        { s with secuenciaActual := s.secuenciaActual - 1 } else s := by
  unfold releaseUnusedEncf
  cases parsed : scanInt (encf.toList.drop 3) with
  | none => simp [releases, parsed]
  | some number => simp [releases, parsed]

/-- The next number is above the row's current one. -/
theorem nextSequence_ok {next : EcfSequence} (h : nextSequence time scope tipo rows = .ok next) :
    ∃ seq ∈ rows, seq.id = next.id ∧ seq.secuenciaActual < next.secuenciaActual := by
  have found : ∀ seq, sequenceFor scope tipo rows = .ok seq →
      ∃ old ∈ rows, old.id = seq.id ∧ old.secuenciaActual = seq.secuenciaActual := by
    intro seq found
    unfold sequenceFor at found
    split at found
    · next active =>
      cases found
      exact ⟨_, (activeSequence_mem active).1, rfl, rfl⟩
    · split at found
      · next active =>
        obtain ⟨other, -, active⟩ := Option.bind_eq_some_iff.mp active
        split at found <;> cases found
        exact ⟨_, (activeSequence_mem active).1, rfl, rfl⟩
      · cases found
  unfold nextSequence at h
  split at h
  · cases h
  · next seq ok =>
    obtain ⟨old, member, id, number⟩ := found seq ok
    refine ⟨old, member, ?_⟩
    simp only [issueNext] at h
    repeat' split at h
    all_goals cases h
    refine ⟨id, ?_⟩
    dsimp only
    omega

/-! ## The ledger -/

/-- One transaction, as the history keeps it. -/
inductive Entry
  /-- A number of a row, issued to a caller for a scope and type. -/
  | issued (scope tipo encf : String) (row : ℕ) (number : ℤ)
  | refused (error : String)
  /-- The caller of an earlier entry has released its number. -/
  | released (entry : ℕ)
  deriving DecidableEq

/-- The rows, and what was issued and released. -/
structure Ledger where
  rows : List EcfSequence
  entries : List Entry := []

/-- What a caller does next: ask for a number, or release the one of an entry.
A release whose transaction fails is lost on the caller. -/
inductive Transaction
  | allocate (time : ℕ) (scope tipo : String)
  | release (entry : ℕ)
  | lose (entry : ℕ)

/-- An entry is the issue of a row's number. -/
def Issued (entries : List Entry) (i row : ℕ) (number : ℤ) : Prop :=
  ∃ scope tipo encf, entries[i]? = some (.issued scope tipo encf row number)

/-- The caller of an entry has its number and has not released it. -/
def Holds (entries : List Entry) (i row : ℕ) (number : ℤ) : Prop :=
  Issued entries i row number ∧ .released i ∉ entries

/-- One transaction.  A caller releases only what it holds. -/
def Ledger.step (l : Ledger) : Transaction → Ledger
  | .allocate time scope tipo =>
    match nextSequence time scope tipo l.rows with
    | .error e => { l with entries := l.entries ++ [.refused e] }
    | .ok next =>
      { rows := stored next l.rows
        entries := l.entries ++ [.issued scope tipo next.getCurrentEncfFormatted next.id
          next.secuenciaActual] }
  | .release i =>
    match l.entries[i]? with
    | some (.issued scope tipo encf _ _) =>
      if .released i ∈ l.entries then l
      else
        { rows := releaseUnusedEncf scope tipo encf l.rows
          entries := l.entries ++ [.released i] }
    | _ => l
  | .lose i =>
    match l.entries[i]? with
    | some (.issued ..) => { l with entries := l.entries ++ [.released i] }
    | _ => l

/-- Any callers' transactions, in any order. -/
def ledger : Machine Ledger Transaction := ⟨Ledger.step⟩

/-- The rows an allocation leaves are those of `getNextEncf`. -/
theorem step_allocate {l : Ledger} {rows' : List EcfSequence}
    (h : getNextEncf time scope tipo l.rows = .ok (encf, rows')) :
    (l.step (.allocate time scope tipo)).rows = rows' ∧
      ∃ row number, (l.step (.allocate time scope tipo)).entries =
        l.entries ++ [.issued scope tipo encf row number] := by
  rw [getNextEncf_eq] at h
  simp only [Ledger.step]
  cases issued : nextSequence time scope tipo l.rows with
  | error e =>
    rw [issued] at h
    cases h
  | ok next =>
    rw [issued] at h
    cases h
    exact ⟨rfl, _, _, rfl⟩

/-- No row hands a number out again before the caller that got it from the row
has released it. -/
def NeverTwice (entries : List Entry) : Prop :=
  ∀ (i j row : ℕ) (number : ℤ), i < j → Issued entries i row number → Issued entries j row number →
    ∃ k, i < k ∧ k < j ∧ entries[k]? = some (.released i)

/-- A release takes no number back that another caller holds of the row. -/
def SparesOthers (l : Ledger) : Transaction → Prop
  | .release i => ∀ scope tipo encf row number,
      l.entries[i]? = some (.issued scope tipo encf row number) →
      ∀ s ∈ l.rows, releases scope tipo encf s = true →
        ∀ j, j ≠ i → ¬ Holds l.entries j s.id s.secuenciaActual
  | _ => True

/-! ## The invariant -/

/-- The numbers held of a row are distinct, and none is above its current one. -/
structure Sound (l : Ledger) : Prop where
  ids : (l.rows.map (·.id)).Nodup
  bounded : ∀ i row number, Holds l.entries i row number →
    ∀ s ∈ l.rows, s.id = row → number ≤ s.secuenciaActual
  later : ∀ k i : ℕ, l.entries[k]? = some (.released i) → i < k
  once : NeverTwice l.entries

section Append

variable {entries : List Entry} {e : Entry} {i j row : ℕ} {number : ℤ}

theorem getElem?_concat_some {x : Entry} (h : (entries ++ [e])[i]? = some x) :
    entries[i]? = some x ∨ i = entries.length ∧ e = x := by
  rcases Nat.lt_trichotomy i entries.length with before | at' | after
  · rw [List.getElem?_append_left before] at h
    exact .inl h
  · subst at'
    rw [List.getElem?_concat_length] at h
    exact .inr ⟨rfl, Option.some.inj h⟩
  · rw [List.getElem?_eq_none (by simp; omega)] at h
    cases h

theorem getElem?_concat_of_some {x : Entry} (h : entries[i]? = some x) :
    (entries ++ [e])[i]? = some x := by
  obtain ⟨inside, -⟩ := List.getElem?_eq_some_iff.mp h
  rwa [List.getElem?_append_left inside]

/-- An issue is an earlier one, or the last entry. -/
theorem issued_append (h : Issued (entries ++ [e]) i row number) :
    Issued entries i row number ∨
      i = entries.length ∧ ∃ scope tipo encf, e = .issued scope tipo encf row number := by
  obtain ⟨scope, tipo, encf, at'⟩ := h
  rcases getElem?_concat_some at' with old | ⟨last, same⟩
  · exact .inl ⟨scope, tipo, encf, old⟩
  · exact .inr ⟨last, scope, tipo, encf, same⟩

theorem Issued.lt (h : Issued entries i row number) : i < entries.length := by
  obtain ⟨scope, tipo, encf, at'⟩ := h
  exact (List.getElem?_eq_some_iff.mp at').1

/-- A number held was held before, or is the one just issued. -/
theorem holds_append (h : Holds (entries ++ [e]) i row number) :
    Holds entries i row number ∧ e ≠ .released i ∨
      i = entries.length ∧ ∃ scope tipo encf, e = .issued scope tipo encf row number := by
  obtain ⟨issued, kept⟩ := h
  simp only [List.mem_append, List.mem_singleton, not_or] at kept
  rcases issued_append issued with old | last
  · exact .inl ⟨⟨old, kept.1⟩, fun same => kept.2 same.symm⟩
  · exact .inr last

/-- The history stays as it is when the last entry is no issue of a number held. -/
theorem NeverTwice.append (once : NeverTwice entries)
    (later : ∀ k i : ℕ, entries[k]? = some (.released i) → i < k)
    (free : ∀ scope tipo encf row number, e = .issued scope tipo encf row number →
      ∀ i, ¬ Holds entries i row number) : NeverTwice (entries ++ [e]) := by
  intro i j row number before first second
  have old : Issued entries i row number := by
    rcases issued_append first with old | ⟨last, -⟩
    · exact old
    · rcases issued_append second with earlier | ⟨same, -⟩
      · have := earlier.lt
        omega
      · omega
  rcases issued_append second with earlier | ⟨last, scope, tipo, encf, same⟩
  · obtain ⟨k, after, until', released⟩ := once i j row number before old earlier
    exact ⟨k, after, until', getElem?_concat_of_some released⟩
  · have released : .released i ∈ entries := by
      by_contra kept
      exact free scope tipo encf row number same i ⟨old, kept⟩
    obtain ⟨k, inside, at'⟩ := List.getElem_of_mem released
    have at'' : entries[k]? = some (.released i) := List.getElem?_eq_some_iff.mpr ⟨inside, at'⟩
    exact ⟨k, later k i at'', last ▸ inside, getElem?_concat_of_some at''⟩

end Append

/-- A refusal changes nothing. -/
theorem Sound.refuse {l : Ledger} (sound : Sound l) (error : String) :
    Sound { l with entries := l.entries ++ [.refused error] } where
  ids := sound.ids
  bounded i row number held := by
    rcases holds_append held with ⟨old, -⟩ | ⟨-, scope, tipo, encf, same⟩
    · exact sound.bounded i row number old
    · cases same
  later k i released := by
    rcases getElem?_concat_some released with old | ⟨-, same⟩
    · exact sound.later k i old
    · cases same
  once := sound.once.append sound.later fun _ _ _ _ _ same => nomatch same

/-- A number issued is above every number held of its row. -/
theorem Sound.issue {l : Ledger} (sound : Sound l) {seq next : EcfSequence} (member : seq ∈ l.rows)
    (id : seq.id = next.id) (above : seq.secuenciaActual < next.secuenciaActual) :
    Sound { rows := stored next l.rows
            entries := l.entries ++ [.issued scope tipo encf next.id next.secuenciaActual] } where
  ids := by
    have same : (stored next l.rows).map (·.id) = l.rows.map (·.id) := by
      rw [stored, List.map_map]
      refine List.map_congr_left fun s _ => ?_
      by_cases here : s.id = next.id
      · simp [here]
      · simp [here]
    rw [same]
    exact sound.ids
  bounded i row number held s among same := by
    obtain ⟨old, present, rfl⟩ := List.mem_map.mp among
    rcases holds_append held with ⟨before, -⟩ | ⟨-, scope', tipo', encf', issued⟩
    · by_cases here : old.id = next.id
      · rw [if_pos here] at same ⊢
        have bound := sound.bounded i row number before seq member (id.trans same)
        omega
      · rw [if_neg here] at same ⊢
        exact sound.bounded i row number before old present same
    · cases issued
      by_cases here : old.id = next.id
      · rw [if_pos here]
      · rw [if_neg here] at same
        exact absurd same here
  later k i released := by
    rcases getElem?_concat_some released with old | ⟨-, same⟩
    · exact sound.later k i old
    · cases same
  once := by
    refine sound.once.append sound.later fun scope' tipo' encf' row number same i held => ?_
    cases same
    have bound := sound.bounded i _ _ held seq member id
    omega

/-- A release takes its own number back, or none. -/
theorem Sound.release {l : Ledger} (sound : Sound l) {i row : ℕ} {number : ℤ}
    (issued : Issued l.entries i row number) {rows' : List EcfSequence}
    (ids : rows'.map (·.id) = l.rows.map (·.id))
    (bounded : ∀ j row number, j ≠ i → Holds l.entries j row number →
      ∀ s ∈ rows', s.id = row → number ≤ s.secuenciaActual) :
    Sound { rows := rows', entries := l.entries ++ [.released i] } where
  ids := ids ▸ sound.ids
  bounded j row number held := by
    rcases holds_append held with ⟨old, other⟩ | ⟨-, scope, tipo, encf, same⟩
    · exact bounded j row number (fun same => other (same ▸ rfl)) old
    · cases same
  later k j released := by
    rcases getElem?_concat_some released with old | ⟨last, same⟩
    · exact sound.later k j old
    · cases same
      exact last ▸ issued.lt
  once := sound.once.append sound.later fun _ _ _ _ _ same => nomatch same

/-- **One transaction keeps the invariant**, when a release spares the others. -/
theorem Sound.step {l : Ledger} (sound : Sound l) (t : Transaction) (spares : SparesOthers l t) :
    Sound (l.step t) := by
  cases t with
  | allocate time scope tipo =>
    simp only [Ledger.step]
    split
    · exact sound.refuse _
    · next next ok =>
      obtain ⟨seq, member, id, above⟩ := nextSequence_ok ok
      exact sound.issue member id above
  | release i =>
    simp only [Ledger.step]
    split
    · next scope tipo encf row number issued =>
      split
      · exact sound
      · refine sound.release ⟨scope, tipo, encf, issued⟩ ?_ ?_
        · rw [releaseUnusedEncf_eq, List.map_map]
          refine List.map_congr_left fun s _ => ?_
          by_cases taken : releases scope tipo encf s = true <;> simp [taken]
        · intro j row' number' other held s among same
          rw [releaseUnusedEncf_eq] at among
          obtain ⟨old, present, rfl⟩ := List.mem_map.mp among
          by_cases taken : releases scope tipo encf old = true
          · rw [if_pos taken] at same ⊢
            have bound := sound.bounded j row' number' held old present same
            have spared := spares scope tipo encf row number issued old present taken j other
            have apart : number' ≠ old.secuenciaActual := by
              rintro rfl
              exact spared (same ▸ held)
            dsimp only
            omega
          · rw [if_neg taken] at same ⊢
            exact sound.bounded j row' number' held old present same
    · exact sound
  | lose i =>
    simp only [Ledger.step]
    split
    · next scope tipo encf row number issued =>
      exact sound.release ⟨scope, tipo, encf, issued⟩ rfl fun j row' number' _ held =>
        sound.bounded j row' number' held
    · exact sound

/-- **A row never issues a number twice.** From every table of sequence rows, on
every interleaving of allocations and releases over any scopes and types: while
no release takes back a number that another caller holds, a row hands a number
out again only after the caller that got it from the row has released it. -/
theorem never_issued_twice (rows : List EcfSequence) (ids : (rows.map (·.id)).Nodup)
    (transactions : List Transaction)
    (met : ledger.Meets SparesOthers { rows := rows } transactions) :
    NeverTwice (ledger.run { rows := rows } transactions).entries := by
  have empty : ∀ i row number, ¬ Issued [] i row number := by
    rintro i row number ⟨scope, tipo, encf, at'⟩
    simp at at'
  have start : Sound { rows := rows } :=
    ⟨ids, fun i row number held => absurd held.1 (empty _ _ _), fun k i released => by simp at released,
      fun i j row number _ first => absurd first (empty _ _ _)⟩
  exact (Machine.invariant (J := Sound) (C := SparesOthers) (fun _ t sound spares =>
    sound.step t spares) start met).once

/-! ## Two rows of one tenant -/

/-- A row of E31 numbers. -/
def e31Row (id : ℕ) (tenantId : String) : EcfSequence where
  id := id
  tenantId := tenantId
  tipoComprobante := "E31"
  prefijo := "E31"
  fechaVencimiento := some "2030-01-01 00:00:00+00"

/-- The rows of a bare tenant and of the tenant's test ambiente. -/
def tenantRows : List EcfSequence := [e31Row 1 "tenant-a", e31Row 2 "tenant-a:TestEcf"]

/-- The check that a release spares the others. -/
def spares (l : Ledger) : Transaction → Bool
  | .release i => l.rows.all fun s => (List.range l.entries.length).all fun j =>
      j = i || match l.entries[j]? with
        | some (.issued _ _ _ row number) => !(row = s.id && number = s.secuenciaActual)
        | _ => true
  | _ => true

theorem sparesOthers_of_spares (l : Ledger) (t : Transaction) (h : spares l t = true) :
    SparesOthers l t := by
  cases t with
  | release i =>
    rintro scope tipo encf row number - s member - j other ⟨issued, -⟩
    have inside := List.mem_range.mpr issued.lt
    obtain ⟨scope', tipo', encf', at'⟩ := issued
    have checked := List.all_eq_true.mp (List.all_eq_true.mp h s member) j inside
    simp [other, at'] at checked
  | _ => trivial

/-- A number of the ambiente's row under its other name, released, and issued
again. -/
def renamedAndReleased : List Transaction :=
  [.allocate 0 "tenant-a:PreCertificacion" "E31", .release 0,
    .allocate 0 "tenant-a:TestEcf" "E31"]

/-- The number comes back after its release, and only then. -/
theorem never_issued_twice_sample :
    (ledger.run { rows := tenantRows } renamedAndReleased).entries =
      [.issued "tenant-a:PreCertificacion" "E31" "E310000000001" 2 1, .released 0,
        .issued "tenant-a:TestEcf" "E31" "E310000000001" 2 1] ∧
    NeverTwice (ledger.run { rows := tenantRows } renamedAndReleased).entries := by
  refine ⟨by decide +kernel, never_issued_twice tenantRows (by decide) renamedAndReleased ?_⟩
  exact Machine.Meets.mono (C := fun l t => spares l t = true) sparesOthers_of_spares
    (by decide +kernel)

/-- Both rows at the same number, and the ambiente's number released. -/
def releasedBeside : List Transaction :=
  [.allocate 0 "tenant-a" "E31", .allocate 0 "tenant-a:TestEcf" "E31", .release 1,
    .allocate 0 "tenant-a" "E31"]

/-- The release takes the bare tenant's number back as well, which its caller
still holds. -/
theorem issued_twice_beside :
    ¬ NeverTwice (ledger.run { rows := tenantRows } releasedBeside).entries := by
  have entries : (ledger.run { rows := tenantRows } releasedBeside).entries =
      [.issued "tenant-a" "E31" "E310000000001" 1 1,
        .issued "tenant-a:TestEcf" "E31" "E310000000001" 2 1, .released 1,
        .issued "tenant-a" "E31" "E310000000001" 1 1] := by decide +kernel
  rw [entries]
  intro once
  obtain ⟨k, after, before, released⟩ := once 0 3 1 1 (by omega) ⟨_, _, _, rfl⟩ ⟨_, _, _, rfl⟩
  obtain rfl | rfl : k = 1 ∨ k = 2 := by omega
  · cases released
  · cases released

end EcfDgii.SequenceNumbers
