import EcfDgii.Separators
import EcfDgii.TenantSignerResolver

/-!
Whose certificate a call gets, and how long after it is withdrawn.

Calls share the cache of the process, and each keeps what it has loaded under the
taxpayer and the tenant it was made for.  `Provided` is what an entry of the
cache goes back to: a call for the same two that read the clock first and loaded
the signer afterwards.  Since an entry lasts five minutes from that reading, a
signer that is returned was loaded less than five minutes before
(`signers_of_tenant`), and the certificate of a tenant that serves no more is out
of use after five minutes (`withdrawn_certificates`).
-/

set_option autoImplicit false

namespace EcfDgii.TenantCertificates

open EcfDgii.Text EcfDgii.Programs EcfDgii.Execution EcfDgii.TenantSignerResolver

variable {Key : Type} {resolver : Resolver Key} {c d : Call} {now start : ℕ}
  {signer : EcfXmlSigner} {log : List (Event ResolverApi)}

/-! ## What a call sees -/

def clockRead (now : ℕ) : Event ResolverApi := ⟨.currentTime, now⟩

/-- The cache has a signer for the call. -/
def cacheHit (c : Call) (now : ℕ) (signer : EcfXmlSigner) : Event ResolverApi :=
  ⟨.findCached c.cacheKey now, some signer⟩

/-- The database has a row for the call. -/
def selected (c : Call) (row : Tenant) : Event ResolverApi :=
  ⟨.selectTenant c.cleanRnc c.wanted, (.ok (some row) : Except String (Option Tenant))⟩

/-- There is a file for the call. -/
def filed (c : Call) (dir : String) : Event ResolverApi := ⟨.fileExists (pfxPath c dir), true⟩

/-- It has been opened. -/
def opened (c : Call) (dir content : String) : Event ResolverApi :=
  ⟨.openFile (pfxPath c dir), some content⟩

/-- The signer of a row. -/
def OfRow (resolver : Resolver Key) (row : Tenant) (signer : EcfXmlSigner) : Prop :=
  ∃ rawData ∈ row.certificateRawData, rawData ≠ "" ∧
    readSigner resolver rawData (tenantPassword resolver row) false = .ok signer

/-- The signer of a file. -/
def OfFile (resolver : Resolver Key) (content : String) (signer : EcfXmlSigner) : Prop :=
  readSigner resolver content (diskCertPassword resolver) false = .ok signer

/-- The signer that is made up where a file cannot be opened. -/
def SelfSigned (resolver : Resolver Key) (signer : EcfXmlSigner) : Prop :=
  ∃ generated, readSigner resolver generated (diskCertPassword resolver) true = .ok signer

/-- What a call may have loaded, by what it has seen. -/
def Loaded (resolver : Resolver Key) (c : Call) (seen : Event ResolverApi → Prop)
    (signer : EcfXmlSigner) : Prop :=
  (∃ row, seen (selected c row) ∧ OfRow resolver row signer) ∨
    c.OnDisk ∧ ∃ dir ∈ certDirs,
      (∃ content, seen (opened c dir content) ∧ OfFile resolver content signer) ∨
        seen (filed c dir) ∧ SelfSigned resolver signer

theorem Loaded.mono {seen seen' : Event ResolverApi → Prop} (h : Loaded resolver c seen signer)
    (more : ∀ e, seen e → seen' e) : Loaded resolver c seen' signer := by
  rcases h with ⟨row, here, loaded⟩ |
    ⟨disk, dir, member, ⟨content, here, loaded⟩ | ⟨here, made⟩⟩
  · exact .inl ⟨row, more _ here, loaded⟩
  · exact .inr ⟨disk, dir, member, .inl ⟨content, more _ here, loaded⟩⟩
  · exact .inr ⟨disk, dir, member, .inr ⟨more _ here, made⟩⟩

/-- The first thing a call has done is to read the clock. -/
def Began (now : ℕ) (log : List (Event ResolverApi)) : Prop := log.head? = some (clockRead now)

theorem Began.append (h : Began now log) (more : List (Event ResolverApi)) :
    Began now (log ++ more) := by
  rw [Began, List.head?_append, h]
  rfl

theorem Began.mem (h : Began now log) : clockRead now ∈ log := List.mem_of_head? h

/-- What a call asks: the clock first, the cache and the table for itself, and it
keeps what it has loaded for five minutes. -/
def ResolverAsks (resolver : Resolver Key) (c : Call) (log : List (Event ResolverApi)) :
    Request → Prop
  | .currentTime => log = []
  | .findCached cacheKey now => cacheKey = c.cacheKey ∧ Began now log
  | .selectTenant cleanRnc tenantId =>
    cleanRnc = c.cleanRnc ∧ tenantId = c.wanted ∧ ∃ now, Began now log
  | .openFile _ | .fileExists _ => ∃ now, Began now log
  | .storeCached cacheKey signer expiresAt => cacheKey = c.cacheKey ∧
      ∃ now, Began now log ∧ expiresAt = now + fiveMinutes ∧ Loaded resolver c (· ∈ log) signer
  | _ => True

/-- What a call returns it has found or loaded. -/
def ResolverShows (resolver : Resolver Key) (c : Call) (log : List (Event ResolverApi))
    (result : Option EcfXmlSigner) : Prop :=
  ∀ signer ∈ result, ∃ now, Began now log ∧
    (cacheHit c now signer ∈ log ∨ Loaded resolver c (· ∈ log) signer)

/-- What the parts of a call leave behind. -/
def PartShows (resolver : Resolver Key) (c : Call) (now : ℕ) (log : List (Event ResolverApi))
    (result : Option EcfXmlSigner) : Prop :=
  Began now log ∧ ∀ signer ∈ result, Loaded resolver c (· ∈ log) signer

/-- A constructor's end. -/
theorem follows_readSigner {permits : List (Event ResolverApi) → Request → Prop}
    (began : Began now log) {pfxBytes pfxPassword : String} {fallback : Bool}
    (load : ∀ signer, readSigner resolver pfxBytes pfxPassword fallback = .ok signer →
      Loaded resolver c (· ∈ log) signer) :
    (Program.raise (readSigner resolver pfxBytes pfxPassword fallback) :
        Procedure EcfXmlSigner).Follows (.logging permits)
      (fun b signer => Began now b ∧ Loaded resolver c (· ∈ b) signer) (fun b _ => Began now b)
      log :=
  (Program.follows_raise _).mpr ⟨fun signer ok => ⟨began, load signer ok⟩, fun _ _ => began⟩

theorem signerOfBytes_follows {row : Tenant} {rawData : String}
    (data : row.certificateRawData = some rawData) (bytes : rawData ≠ "") (began : Began now log)
    (here : selected c row ∈ log) :
    (signerOfBytes resolver rawData (tenantPassword resolver row)).Follows
      (.logging (ResolverAsks resolver c))
      (fun b signer => Began now b ∧ Loaded resolver c (· ∈ b) signer) (fun b _ => Began now b)
      log := by
  refine (Program.follows_raise_bind _ _).mpr ⟨fun _ _ => ?_, fun _ _ => began⟩
  rw [if_neg bytes]
  exact follows_readSigner began fun signer ok =>
    .inl ⟨row, here, rawData, data, bytes, ok⟩

theorem signerOfFile_follows {dir : String} (disk : c.OnDisk) (member : dir ∈ certDirs)
    (began : Began now log) (here : filed c dir ∈ log) :
    (signerOfFile resolver (pfxPath c dir) (diskCertPassword resolver)).Follows
      (.logging (ResolverAsks resolver c))
      (fun b signer => Began now b ∧ Loaded resolver c (· ∈ b) signer) (fun b _ => Began now b)
      log := by
  have named : pfxPath c dir ≠ "" := fun h => by
    have := congrArg String.length h
    simp [pfxPath] at this
  refine (Program.follows_raise_bind _ _).mpr ⟨fun _ _ => ?_, fun _ _ => began⟩
  rw [if_neg named]
  refine (follows_logging_bind _ _).mpr ⟨⟨now, began⟩, fun content => ?_⟩
  cases content with
  | some pfxBytes =>
    exact follows_readSigner (began.append _) fun signer ok =>
      .inr ⟨disk, dir, member,
        .inl ⟨pfxBytes, List.mem_append_right _ List.mem_cons_self, ok⟩⟩
  | none =>
    refine (follows_logging_bind _ _).mpr ⟨trivial, fun made => ?_⟩
    refine (Program.follows_raise_bind _ _).mpr
      ⟨fun generated _ => ?_, fun _ _ => (began.append _).append _⟩
    exact follows_readSigner ((began.append _).append _) fun signer ok =>
      .inr ⟨disk, dir, member,
        .inr ⟨List.mem_append_left _ (List.mem_append_left _ here), generated, ok⟩⟩

/-- What has been loaded is kept for five minutes, and returned. -/
theorem keep_follows {load : Procedure EcfXmlSigner}
    (loads : load.Follows (.logging (ResolverAsks resolver c))
      (fun b signer => Began now b ∧ Loaded resolver c (· ∈ b) signer) (fun b _ => Began now b)
      log) :
    (keep c now load).Follows (.logging (ResolverAsks resolver c)) (PartShows resolver c now)
      (fun _ _ => True) log := by
  refine Program.Follows.tryCatch (M := fun b _ => Began now b) ?_ fun b _ began =>
    ⟨began, nofun⟩
  refine loads.bind fun b signer ⟨began, loaded⟩ => ?_
  refine (follows_logging_bind _ _).mpr ⟨⟨rfl, now, began, rfl, loaded⟩, fun _ => ?_⟩
  refine ⟨began.append _, ?_⟩
  rintro _ ⟨⟩
  exact loaded.mono fun e here => List.mem_append_left _ here

theorem databaseSigner_follows (began : Began now log) :
    (databaseSigner resolver c now).Follows (.logging (ResolverAsks resolver c))
      (PartShows resolver c now) (fun _ _ => True) log := by
  unfold databaseSigner
  refine .ite (fun _ => ⟨began, nofun⟩) fun _ => ?_
  refine (follows_logging_bind _ _).mpr ⟨⟨rfl, rfl, now, began⟩, fun answer => ?_⟩
  have later := began.append [⟨.selectTenant c.cleanRnc c.wanted, answer⟩]
  cases answer with
  | error e => exact ⟨later, nofun⟩
  | ok found =>
    cases found with
    | none => exact ⟨later, nofun⟩
    | some row =>
      simp only [tenantSigner]
      cases data : row.certificateRawData with
      | none => exact ⟨later, nofun⟩
      | some rawData =>
        refine .ite (fun bytes => ?_) fun _ => ?_
        · exact keep_follows (signerOfBytes_follows data bytes later
            (List.mem_append_right _ List.mem_cons_self))
        · exact ⟨later, nofun⟩

theorem directorySigner_follows (disk : c.OnDisk) :
    ∀ {dirs : List String} {log : List (Event ResolverApi)}, (∀ dir ∈ dirs, dir ∈ certDirs) →
      Began now log →
      (directorySigner resolver c now dirs).Follows (.logging (ResolverAsks resolver c))
        (PartShows resolver c now) (fun _ _ => True) log
  | [], _, _, began => ⟨began, nofun⟩
  | dir :: dirs, log, members, began => by
    unfold directorySigner
    refine (follows_logging_bind _ _).mpr ⟨⟨now, began⟩, fun here => ?_⟩
    have rest : ∀ b, Began now b → (directorySigner resolver c now dirs).Follows
        (.logging (ResolverAsks resolver c)) (PartShows resolver c now) (fun _ _ => True) b :=
      fun b began => directorySigner_follows disk
        (fun d member => members d (List.mem_cons_of_mem _ member)) began
    cases here with
    | false => exact rest _ (began.append _)
    | true =>
      refine (keep_follows (signerOfFile_follows disk (members dir List.mem_cons_self)
        (began.append _) (List.mem_append_right _ List.mem_cons_self))).bind fun b result ⟨began, loaded⟩ => ?_
      cases result with
      | some signer => exact ⟨began, loaded⟩
      | none => exact rest b began

/-- **A call.** -/
theorem resolve_follows (resolver : Resolver Key) (c : Call) :
    (resolveTenantSignerOnly resolver c).Follows (.logging (ResolverAsks resolver c))
      (ResolverShows resolver c) (fun _ _ => True) [] := by
  unfold resolveTenantSignerOnly
  refine .ite (fun _ => nofun) fun _ => ?_
  refine (follows_logging_bind _ _).mpr ⟨rfl, fun now => ?_⟩
  have began : Began now ([] ++ [⟨.currentTime, now⟩]) := rfl
  refine (follows_logging_bind _ _).mpr ⟨⟨rfl, began⟩, fun cached => ?_⟩
  have later := began.append [⟨.findCached c.cacheKey now, cached⟩]
  cases cached with
  | some signer =>
    rintro _ ⟨⟩
    exact ⟨now, later, .inl (List.mem_append_right _ List.mem_cons_self)⟩
  | none =>
    have shows : ∀ b result, PartShows resolver c now b result →
        ResolverShows resolver c b result :=
      fun b result ⟨began, loaded⟩ signer member => ⟨now, began, .inr (loaded signer member)⟩
    refine (databaseSigner_follows later).bind fun b result part => ?_
    cases result with
    | some signer => exact shows b _ part
    | none =>
      refine .ite (fun disk => ?_) fun _ => nofun
      exact (directorySigner_follows disk (fun _ member => member) part.1).mono shows
        fun _ _ h => h

/-! ## Calls at the same time -/

/-- Calls under way in one process. -/
abbrev Calls := Pool Call ResolverApi (Option EcfXmlSigner) World

/-- A process that starts, and the calls that will be made in it. -/
def resolving (resolver : Resolver Key) (calls : ℕ → Call) (clock : ℕ) (tenants : List Tenant)
    (files : String → Option String) : Calls :=
  Pool.start (resolveTenantSignerOnly resolver) calls { clock, tenants, files }

variable {calls : ℕ → Call} {w : World} {history history' : List (ℕ × Event ResolverApi)}
  {key : String} {t u : ℕ}

/-- A call with the key has read the clock and loaded the signer. -/
def Provided (resolver : Resolver Key) (calls : ℕ → Call)
    (history : List (ℕ × Event ResolverApi)) (key : String) (start : ℕ) (signer : EcfXmlSigner) :
    Prop :=
  ∃ u, (calls u).cacheKey = key ∧ (u, clockRead start) ∈ history ∧
    Loaded resolver (calls u) (fun e => (u, e) ∈ history) signer

theorem Provided.mono (h : Provided resolver calls history key start signer)
    (more : history ⊆ history') : Provided resolver calls history' key start signer := by
  obtain ⟨u, same, read, loaded⟩ := h
  exact ⟨u, same, more read, loaded.mono fun e here => more here⟩

/-- Every entry of the cache has been provided, five minutes before it ends. -/
def Kept (resolver : Resolver Key) (calls : ℕ → Call) (w : World)
    (history : List (ℕ × Event ResolverApi)) : Prop :=
  ∀ key entry, w.cache key = some entry → ∃ start, entry.expiresAt = start + fiveMinutes ∧
    Provided resolver calls history key start entry.signer

/-- What a call has seen: a time that has been, first of all, and signers that
were provided less than five minutes before it. -/
structure Seen (resolver : Resolver Key) (calls : ℕ → Call) (t : ℕ)
    (th : Thread Call ResolverApi (Option EcfXmlSigner)) (w : World)
    (history : List (ℕ × Event ResolverApi)) : Prop where
  operation : th.operation = calls t
  began : ∀ now, clockRead now ∈ th.log → Began now th.log
  read : ∀ now, clockRead now ∈ th.log → now ≤ w.clock
  happened : ∀ e ∈ th.log, (t, e) ∈ history
  found : ∀ now signer, cacheHit (calls t) now signer ∈ th.log → ∃ start,
    now < start + fiveMinutes ∧ Provided resolver calls history (calls t).cacheKey start signer

theorem clock_answer (i : Input) (w : World) (r : Request) :
    (resolverHost.answer i w r).2.clock = w.clock + i.elapsed := by
  cases r <;> rfl

theorem cache_store (i : Input) (w : World) (key : String) (signer : EcfXmlSigner) (last : ℕ) :
    (resolverHost.answer i w (.storeCached key signer last)).2.cache key = some ⟨signer, last⟩ :=
  Function.update_self key _ w.cache

theorem cached_eq_some :
    w.cached key now = some signer ↔
      ∃ entry, w.cache key = some entry ∧ now < entry.expiresAt ∧ entry.signer = signer := by
  simp only [World.cached, Option.map_eq_some_iff, Option.filter_eq_some_iff, decide_eq_true_eq,
    and_assoc]

/-- **Step.** -/
theorem kept_step (resolver : Resolver Key) (calls : ℕ → Call) :
    Pool.StepKeeps resolverHost (ResolverAsks resolver) (Kept resolver calls)
      (Seen resolver calls) fun _ _ => True := by
  intro p t i r next sound rest _ permitted
  have own := sound.threads t
  have kept := sound.world
  have more : p.history ⊆ p.history ++ [(t, ⟨r, (resolverHost.answer i p.world r).1⟩)] :=
    List.subset_append_left _ _
  have later : p.world.clock ≤ (resolverHost.answer i p.world r).2.clock := by
    rw [clock_answer]
    omega
  have others : ∀ u, Seen resolver calls u (p.thread u) (resolverHost.answer i p.world r).2
      (p.history ++ [(t, ⟨r, (resolverHost.answer i p.world r).1⟩)]) := by
    intro u
    obtain ⟨operation, began, read, happened, found⟩ := sound.threads u
    refine ⟨operation, began, fun now here => (read now here).trans later,
      fun e here => more (happened e here), fun now signer here => ?_⟩
    obtain ⟨start, recent, provided⟩ := found now signer here
    exact ⟨start, recent, provided.mono more⟩
  refine ⟨?_, ⟨own.operation, fun now here => ?_, fun now here => ?_, fun e here => ?_,
    fun now signer here => ?_⟩, fun u _ => others u⟩
  · -- the cache changes only where something loaded is stored
    intro key entry here
    have old : p.world.cache key = some entry → ∃ start,
        entry.expiresAt = start + fiveMinutes ∧ Provided resolver calls
          (p.history ++ [(t, ⟨r, (resolverHost.answer i p.world r).1⟩)]) key start
          entry.signer := by
      intro before
      obtain ⟨start, expires, provided⟩ := kept key entry before
      exact ⟨start, expires, provided.mono more⟩
    cases r with
    | storeCached cacheKey signer last =>
      obtain ⟨rfl, start, began, rfl, loaded⟩ := permitted
      by_cases same : key = (p.thread t).operation.cacheKey
      · subst same
        rw [cache_store] at here
        obtain rfl := Option.some.inj here
        rw [own.operation] at loaded
        exact ⟨start, rfl, t, congrArg Call.cacheKey own.operation.symm,
          more (own.happened _ began.mem), loaded.mono fun e here => more (own.happened e here)⟩
      · exact old ((Function.update_of_ne same ..).symm.trans here)
    | _ => exact old here
  · rcases List.mem_append.mp here with before | new
    · exact (own.began now before).append _
    · have same := List.mem_singleton.mp new
      cases r with
      | currentTime =>
        rw [show (p.thread t).log = [] from permitted]
        exact congrArg some same.symm
      | _ => cases (Event.mk.inj same).1
  · rcases List.mem_append.mp here with before | new
    · exact (own.read now before).trans later
    · have same := List.mem_singleton.mp new
      cases r with
      | currentTime => exact le_of_eq (eq_of_heq (Event.mk.inj same).2)
      | _ => cases (Event.mk.inj same).1
  · rcases List.mem_append.mp here with before | new
    · exact more (own.happened e before)
    · rw [List.mem_singleton.mp new]
      exact List.mem_append_right _ List.mem_cons_self
  · rcases List.mem_append.mp here with before | new
    · exact (others t).found now signer before
    · have same := List.mem_singleton.mp new
      cases r with
      | findCached cacheKey moment =>
        obtain ⟨asked, reply⟩ := Event.mk.inj same
        obtain ⟨rfl, rfl⟩ := Request.findCached.inj asked
        have hit : (p.world.meanwhile i).cached (calls t).cacheKey now = some signer :=
          (eq_of_heq reply).symm
        obtain ⟨entry, cached, live, rfl⟩ := cached_eq_some.mp hit
        obtain ⟨start, expires, provided⟩ := kept _ entry cached
        exact ⟨start, expires ▸ live, provided.mono more⟩
      | _ => cases (Event.mk.inj same).1

/-! ## Every schedule -/

variable {clock : ℕ} {tenants : List Tenant} {files : String → Option String}
  {moves : List (Move Input)}

theorem sound_play (resolver : Resolver Key) (calls : ℕ → Call) (clock : ℕ)
    (tenants : List Tenant) (files : String → Option String) (moves : List (Move Input)) :
    ((resolving resolver calls clock tenants files).play resolverHost moves).Sound
      (ResolverAsks resolver) (Kept resolver calls) (Seen resolver calls) := by
  have start : (resolving resolver calls clock tenants files).Sound (ResolverAsks resolver)
      (Kept resolver calls) (Seen resolver calls) := by
    refine Pool.Sound.start (fun op => ?_) nofun fun t => ?_
    · exact (resolve_follows resolver op).mono (fun _ _ _ => trivial) fun _ _ h => h
    · exact ⟨rfl, fun _ member => absurd member List.not_mem_nil,
        fun _ member => absurd member List.not_mem_nil,
        fun _ member => absurd member List.not_mem_nil,
        fun _ _ member => absurd member List.not_mem_nil⟩
  exact start.play (kept_step resolver calls)
    (fun _ _ _ _ h => ⟨h.operation, h.began, h.read, h.happened, h.found⟩) (Pool.meets_true _ moves)

/-- The clock does not go back. -/
theorem clock_play (p : Calls) (moves : List (Move Input)) :
    p.world.clock ≤ (p.play resolverHost moves).world.clock := by
  refine Pool.play_invariant (J := fun q : Calls => p.world.clock ≤ q.world.clock)
    (fun q m before _ => before.trans ?_) le_rfl (Pool.meets_true _ moves)
  rcases Pool.move_world resolverHost q m with same | ⟨_, i, r, _, -, -, changed⟩
  · rw [same]
  · rw [changed, clock_answer]
    omega

/-- The signer is there to be loaded: from a row that serves the call, or from a
file the call may use; or there is such a file, and the signer is the self-signed one
that takes its place when it cannot be opened. -/
def Available (resolver : Resolver Key) (c : Call) (w : World) (signer : EcfXmlSigner) : Prop :=
  (∃ row ∈ w.tenants, row.Serves c.cleanRnc c.wanted ∧ OfRow resolver row signer) ∨
    c.OnDisk ∧ ∃ dir ∈ certDirs, ∃ content, w.files (pfxPath c dir) = some content ∧
      (OfFile resolver content signer ∨ SelfSigned resolver signer)

/-- The calls with a key are for one taxpayer and tenant. -/
theorem cacheKey_inj (same : c.cacheKey = d.cacheKey) :
    c.cleanRnc = d.cleanRnc ∧ c.tenantId = d.tenantId := by
  have plain : ∀ e : Call, ':' ∉ e.cleanRnc.toList := by
    intro e member
    rw [Call.cleanRnc, cleanDigits, String.toList_ofList] at member
    exact absurd (List.mem_filter.mp member).2 (by decide)
  have lists := congrArg String.toList same
  simp only [Call.cacheKey, String.toList_append, List.append_assoc] at lists
  obtain ⟨rnc, tenant⟩ := Separators.cut_first (plain c) (plain d) lists
  exact ⟨String.toList_injective rnc, String.toList_injective tenant⟩

theorem Available.congr (rnc : c.cleanRnc = d.cleanRnc) (tenant : c.tenantId = d.tenantId)
    (h : Available resolver c w signer) : Available resolver d w signer := by
  have specific : c.Specific ↔ d.Specific := by simp only [Call.Specific, tenant]
  have wanted : c.wanted = d.wanted := if_congr specific (congrArg some tenant) rfl
  have path : ∀ dir, pfxPath c dir = pfxPath d dir := fun dir => by simp only [pfxPath, rnc]
  rcases h with ⟨row, member, serves, loaded⟩ | ⟨disk, dir, member, loaded⟩
  · exact .inl ⟨row, member, wanted ▸ rnc ▸ serves, loaded⟩
  · refine .inr ⟨?_, dir, member, path dir ▸ loaded⟩
    simpa only [Call.OnDisk, specific, rnc, tenant] using disk

/-- A question answered in a schedule, after the reading its call began with. -/
theorem moment {r : Request} {x : r.Reply}
    (happened : (u, (⟨r, x⟩ : Event ResolverApi)) ∈
      ((resolving resolver calls clock tenants files).play resolverHost moves).history)
    (read : (u, clockRead start) ∈
      ((resolving resolver calls clock tenants files).play resolverHost moves).history)
    (timed : ∀ log, ResolverAsks resolver (calls u) log r → ∃ now, Began now log) :
    ∃ first rest i w, moves = first ++ rest ∧ (resolverHost.answer i w r).1 = x ∧
      ((resolving resolver calls clock tenants files).play resolverHost first).world =
        (resolverHost.answer i w r).2 ∧ start ≤ w.clock := by
  obtain ⟨first, i, rest, rfl, next⟩ := Pool.happened happened List.not_mem_nil
  obtain ⟨k, asks, reply⟩ := Pool.nextEvent_some next
  have before := sound_play resolver calls clock tenants files first
  have after := sound_play resolver calls clock tenants files (first ++ .step u i :: rest)
  have told := Pool.told_play (h := resolverHost) (resolveTenantSignerOnly resolver) calls
    { clock, tenants, files } (first ++ .step u i :: rest)
  -- the clock had been read when the question was asked
  have asked := before.follows u
  rw [asks, follows_logging_ask, (before.threads u).operation] at asked
  obtain ⟨now, began⟩ := timed _ asked.1
  obtain rfl : now = start := by
    obtain ⟨more, longer⟩ := Pool.log_play (h := resolverHost)
      ((resolving resolver calls clock tenants files).play resolverHost first) u
      (.step u i :: rest)
    rw [← Pool.play_append] at longer
    have same := (after.threads u).began start ((told u _).mp read)
    rw [← longer] at same
    exact eq_of_heq (Event.mk.inj (Option.some.inj ((began.append more).symm.trans same))).2
  refine ⟨first ++ [.step u i], rest, i,
    ((resolving resolver calls clock tenants files).play resolverHost first).world, by simp,
    reply, ?_, (before.threads u).read now began.mem⟩
  rw [Pool.play_append]
  exact congrArg Pool.world (Pool.move_step (h := resolverHost) (i := i) asks)

/-- The moment something was loaded: the clock was not before the reading the
call began with, and what was loaded was there. -/
theorem provided_moment
    (provided : Provided resolver calls
      ((resolving resolver calls clock tenants files).play resolverHost moves).history
      c.cacheKey start signer) :
    ∃ first rest, moves = first ++ rest ∧
      start ≤ ((resolving resolver calls clock tenants files).play resolverHost
        first).world.clock ∧
      Available resolver c
        ((resolving resolver calls clock tenants files).play resolverHost first).world signer := by
  obtain ⟨u, key, read, loaded⟩ := provided
  obtain ⟨rnc, tenant⟩ := cacheKey_inj key
  rcases loaded with ⟨row, here, loaded⟩ |
    ⟨disk, dir, member, ⟨content, here, loaded⟩ | ⟨here, made⟩⟩
  · obtain ⟨first, rest, i, w, split, reply, world, before⟩ :=
      moment here read fun log permitted => permitted.2.2
    refine ⟨first, rest, split, ?_, Available.congr rnc tenant ?_⟩
    · rw [world, clock_answer]
      omega
    · rw [world]
      have picked : (w.meanwhile i).select i (calls u).cleanRnc (calls u).wanted =
        .ok (some row) := reply
      unfold World.select at picked
      cases failed : i.databaseError with
      | some e => simp [failed] at picked
      | none =>
        simp only [failed, Except.ok.injEq] at picked
        obtain ⟨inTable, serves⟩ := List.mem_filter.mp (List.mem_of_getElem? picked)
        exact .inl ⟨row, inTable, of_decide_eq_true serves, loaded⟩
  · obtain ⟨first, rest, i, w, split, reply, world, before⟩ :=
      moment here read fun log permitted => permitted
    refine ⟨first, rest, split, ?_, Available.congr rnc tenant ?_⟩
    · rw [world, clock_answer]
      omega
    · rw [world]
      have read : (if i.unreadable then none else (w.meanwhile i).files _) = some content := reply
      split at read
      · cases read
      · exact .inr ⟨disk, dir, member, content, read, .inl loaded⟩
  · obtain ⟨first, rest, i, w, split, reply, world, before⟩ :=
      moment here read fun log permitted => permitted
    refine ⟨first, rest, split, ?_, Available.congr rnc tenant ?_⟩
    · rw [world, clock_answer]
      omega
    · rw [world]
      have there : ((w.meanwhile i).files (pfxPath (calls u) dir)).isSome = true := reply
      obtain ⟨content, file⟩ := Option.isSome_iff_exists.mp there
      exact .inr ⟨disk, dir, member, content, file, .inr made⟩

/-- What a call returns was provided less than five minutes before it began. -/
theorem returned_provided
    (result : (((resolving resolver calls clock tenants files).play resolverHost
      moves).thread t).result = some (some signer)) :
    ∃ now start, now < start + fiveMinutes ∧
      clockRead now ∈ (((resolving resolver calls clock tenants files).play resolverHost
        moves).thread t).log ∧
      Provided resolver calls
        ((resolving resolver calls clock tenants files).play resolverHost moves).history
        (calls t).cacheKey start signer := by
  have sound := sound_play resolver calls clock tenants files moves
  have verified : ((resolving resolver calls clock tenants files).play resolverHost
      moves).Verified (ResolverAsks resolver) (ResolverShows resolver) :=
    Pool.follows_play (resolve_follows resolver) moves
  obtain ⟨now, began, hit | loaded⟩ := verified.returned result signer rfl
  · rw [(sound.threads t).operation] at hit
    obtain ⟨start, recent, provided⟩ := (sound.threads t).found now signer hit
    exact ⟨now, start, recent, began.mem, provided⟩
  · rw [(sound.threads t).operation] at loaded
    refine ⟨now, now, ?_, began.mem, t, rfl, (sound.threads t).happened _ began.mem,
      loaded.mono (sound.threads t).happened⟩
    exact Nat.lt_add_of_pos_right (by decide)

/-- After the move, no row of the table serves the call. -/
def Unserved (c : Call) (p : Calls) (m : Move Input) : Prop :=
  ∀ row ∈ (p.move resolverHost m).world.tenants, ¬ row.Serves c.cleanRnc c.wanted

instance (c : Call) (p : Calls) (m : Move Input) : Decidable (Unserved c p m) :=
  inferInstanceAs (Decidable (∀ row ∈ _, ¬ Tenant.Serves c.cleanRnc c.wanted row))

/-- In every later pool, too. -/
theorem unserved_play {p : Calls} {more rest : List (Move Input)} (some_move : more ≠ [])
    (withdrawn : p.Meets resolverHost (Unserved c) (more ++ rest)) :
    ∀ row ∈ (p.play resolverHost more).world.tenants, ¬ row.Serves c.cleanRnc c.wanted := by
  obtain ⟨init, m, rfl⟩ := List.eq_nil_or_concat' more |>.resolve_left some_move
  rw [Pool.play_append]
  exact (Pool.meets_append.mp (Pool.meets_append.mp withdrawn).1).2.1

/-- **Withdrawal.** From some moment on no row of the table serves a taxpayer and
a tenant that is named.  Every call for them that reads the clock five minutes
after the moment, or later, returns no signer, however many calls were under way. -/
theorem withdrawn_certificates (resolver : Resolver Key) (calls : ℕ → Call) (clock : ℕ)
    (tenants : List Tenant) (files : String → Option String) (before after : List (Move Input))
    (t now : ℕ) (named : ¬ (calls t).OnDisk)
    (withdrawn : ((resolving resolver calls clock tenants files).play resolverHost
      before).Meets resolverHost (Unserved (calls t)) after)
    (read : clockRead now ∈ (((resolving resolver calls clock tenants files).play resolverHost
      (before ++ after)).thread t).log)
    (late : ((resolving resolver calls clock tenants files).play resolverHost
      before).world.clock + fiveMinutes ≤ now)
    (signer : EcfXmlSigner) :
    (((resolving resolver calls clock tenants files).play resolverHost
      (before ++ after)).thread t).result ≠ some (some signer) := by
  intro result
  have sound := sound_play resolver calls clock tenants files (before ++ after)
  obtain ⟨now', start, recent, read', provided⟩ := returned_provided result
  obtain rfl : now = now' := by
    have same := ((sound.threads t).began now read).symm.trans ((sound.threads t).began now' read')
    exact eq_of_heq (Event.mk.inj (Option.some.inj same)).2
  obtain ⟨first, rest, split, began, available⟩ := provided_moment provided
  rcases available with ⟨row, member, serves, -⟩ | ⟨disk, -⟩
  · rcases List.append_eq_append_iff.mp split with ⟨more, rfl, rfl⟩ | ⟨more, rfl, rfl⟩
    · -- loaded after the moment, from no row
      by_cases none : more = []
      · subst none
        rw [List.append_nil] at began
        omega
      · rw [Pool.play_append] at member
        exact unserved_play none withdrawn row member serves
    · -- loaded before the moment, and over
      have earlier := clock_play
        ((resolving resolver calls clock tenants files).play resolverHost first) more
      rw [← Pool.play_append] at earlier
      omega
  · exact named disk

/-! ## A sample -/

def sampleInfo : CertInfo :=
  { subject := "RNC-101999888", issuer := "CA", san := "", isSelfSigned := false, notBefore := 0,
    notAfter := 0 }

/-- Certificates that open with one password, which is stored as it is. -/
def sampleResolver : Resolver Unit where
  connectionString := "postgresql:"
  defaultSigner := ⟨"default", "", false, sampleInfo⟩
  crypto :=
    { base64Decode := id, hkdfSha256 := fun _ _ => (), sha256 := fun _ => (),
      gcmOpen := fun _ _ _ _ _ => none }
  getenv _ := none
  parseCertInfo _ password := if password = "secret" then .ok sampleInfo else .error "password"

def acme : Tenant :=
  { id := "1", code := some "acme", rnc := some "101-99988-8", isActive := some true,
    certificateRawData := some "pkcs12", certificatePasswordEncrypted := some "secret" }

def acmeSigner : EcfXmlSigner := ⟨"pkcs12", "secret", false, sampleInfo⟩

/-- Every call is for the same tenant. -/
def acmeCalls (_ : ℕ) : Call := { rnc := "101999888", tenantId := "acme" }

/-- A call that loads the certificate. -/
def loading : List (Move Input) := [.step 0 {}, .step 0 {}, .step 0 {}, .step 0 {}]

/-- The tenant is withdrawn, and some seconds later there is another call. -/
def calledAfter (seconds : ℕ) : List (Move Input) :=
  [.step 1 { elapsed := seconds * Timestamps.second, tenants := some [] }, .step 1 {}, .step 1 {}]

def acmePool (moves : List (Move Input)) : Calls :=
  (resolving sampleResolver acmeCalls 0 [acme] fun _ => none).play resolverHost moves

/-- After five it is not. -/
theorem withdrawn_certificates_sample :
    ((acmePool (loading ++ calledAfter 300)).thread 1).result ≠ some (some acmeSigner) :=
  withdrawn_certificates sampleResolver acmeCalls 0 [acme] (fun _ => none) loading
    (calledAfter 300) 1 (300 * Timestamps.second) (by decide +kernel) (by decide +kernel)
    (List.mem_of_head? rfl) (by decide +kernel) acmeSigner

end EcfDgii.TenantCertificates
