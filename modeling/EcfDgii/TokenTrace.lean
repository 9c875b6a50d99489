import Mathlib.Data.List.Induction
import EcfDgii.TokenManager

/-!
What one `getToken` may ask, and where its token comes from.

A call keeps in memory a token it found in the cache, or one DGII gave it in the
renewal it is in, and puts in the cache what it took from memory in that
renewal (`TokenAsks`).  The token it returns was found in the cache or in
memory, or taken at the end of a renewal (`TokenSource`).
-/

set_option autoImplicit false

namespace EcfDgii.TokenTrace

open EcfDgii.DgiiReplies EcfDgii.Programs EcfDgii.Execution EcfDgii.TokenManager

/-- What a call has asked and been answered. -/
abbrev Log := List (Event TokenApi)

variable {ext : AuthenticationParsers} {c : Config} {m : ℕ} {log : Log} {token : String}

/-! ## Events -/

/-- A token found in the cache. -/
def found (c : Config) (token : String) : Event TokenApi :=
  ⟨.cacheGet c.cacheKey, (some token : Option String)⟩

/-- A token found in memory. -/
def inMemory (m : ℕ) (token : String) : Event TokenApi :=
  ⟨.memory m .validMemoryToken, (some token : Option String)⟩

/-- A token that DGII gave is kept. -/
def stored (m : ℕ) (token expira : String) : Event TokenApi :=
  ⟨.memory m (.storeRenewed token expira), ()⟩

/-- The token taken at the end of a renewal. -/
def taken (m : ℕ) (token : String) (ttlSeconds : ℤ) : Event TokenApi :=
  ⟨.memory m .takeResult, ((token, ttlSeconds) : String × ℤ)⟩

/-- The token DGII issues in an event. -/
def issueOf (ext : AuthenticationParsers) : Event TokenApi → Option (String × String)
  | ⟨.httpPost _ _, resp⟩ => issuedWith ext resp
  | _ => none

/-- The part of a log since the renewal mutex was taken, if it still is. -/
def renewalStep : Option Log → Event TokenApi → Option Log
  | _, ⟨.lockRenew _, _⟩ => some []
  | _, ⟨.unlockRenew _, _⟩ => none
  | renewal, e => renewal.map (· ++ [e])

def renewalOf (log : Log) : Option Log := log.foldl renewalStep none

@[simp] theorem renewalOf_append (log : Log) (e : Event TokenApi) :
    renewalOf (log ++ [e]) = renewalStep (renewalOf log) e := by
  simp [renewalOf]

/-- The events of a renewal are events of the call. -/
theorem mem_of_renewal {renewal : Log} {e : Event TokenApi}
    (renewing : renewalOf log = some renewal) (member : e ∈ renewal) : e ∈ log := by
  induction log using List.reverseRecOn generalizing renewal with
  | nil => exact absurd renewing nofun
  | append_singleton log last ih =>
    rw [renewalOf_append] at renewing
    unfold renewalStep at renewing
    split at renewing
    · obtain rfl := Option.some.inj renewing
      exact absurd member List.not_mem_nil
    · exact absurd renewing nofun
    · obtain ⟨earlier, before, rfl⟩ := Option.map_eq_some_iff.mp renewing
      rcases List.mem_append.mp member with old | new
      · exact List.mem_append_left _ (ih before old)
      · exact List.mem_append_right _ new

/-- A renewal that has begun since an earlier log. -/
theorem mem_of_later_renewal {earlier new renewal : Log} {e : Event TokenApi}
    (apart : renewalOf earlier = none) (renewing : renewalOf (earlier ++ new) = some renewal)
    (member : e ∈ renewal) : e ∈ new := by
  have same : renewalOf (earlier ++ new) = renewalOf new := by
    rw [renewalOf, List.foldl_append, show earlier.foldl renewalStep none = none from apart]
    rfl
  exact mem_of_renewal (same ▸ renewing) member

/-! ## Permissions -/

/-- Requests about nothing the claims here look at. -/
def Plain : Request → Prop
  | .acquireLock .. | .releaseLock .. | .lockValue | .sleep _ | .httpGet _ | .httpPost ..
  | .signXml .. => True
  | _ => False

/-- What `getToken` may ask. -/
inductive TokenAsks (ext : AuthenticationParsers) (c : Config) (m : ℕ) (log : Log) : Request → Prop
  | plain {r : Request} (plain : Plain r) : TokenAsks ext c m log r
  | reads (cached : c.hasCache = true) : TokenAsks ext c m log (.cacheGet c.cacheKey)
  | checks : TokenAsks ext c m log (.memory m .validMemoryToken)
  | adopts {token : String} (nonempty : token ≠ "") (hit : found c token ∈ log) :
      TokenAsks ext c m log (.memory m (.adopt token))
  | locks (outside : renewalOf log = none) : TokenAsks ext c m log (.lockRenew m)
  | stores {token expira : String} {renewal : Log} (renewing : renewalOf log = some renewal)
      (issued : ∃ e ∈ renewal, issueOf ext e = some (token, expira)) :
      TokenAsks ext c m log (.memory m (.storeRenewed token expira))
  | takes {before : Log} {token expira : String}
      (renewing : renewalOf log = some (before ++ [stored m token expira])) :
      TokenAsks ext c m log (.memory m .takeResult)
  | fills {renewal : Log} {token : String} {ttlSeconds : ℤ}
      (renewing : renewalOf log = some renewal) (took : taken m token ttlSeconds ∈ renewal)
      (lasts : 0 < ttlSeconds) : TokenAsks ext c m log (.cacheSet c.cacheKey token ttlSeconds)
  | unlocks (inside : (renewalOf log).isSome) : TokenAsks ext c m log (.unlockRenew m)

/-- An event that shows a token to the call. -/
inductive Shows (c : Config) (m : ℕ) (token : String) : Event TokenApi → Prop
  | cache : Shows c m token (found c token)
  | memory : Shows c m token (inMemory m token)
  | renewal (ttlSeconds : ℤ) : Shows c m token (taken m token ttlSeconds)

/-- Where a token comes from. -/
def TokenSource (c : Config) (m : ℕ) (log : Log) (token : String) : Prop :=
  ∃ e ∈ log, Shows c m token e

theorem TokenSource.append (h : TokenSource c m log token) (e : Event TokenApi) :
    TokenSource c m (log ++ [e]) token := by
  obtain ⟨e', member, shows⟩ := h
  exact ⟨e', List.mem_append_left _ member, shows⟩

/-- The last event shows the token. -/
theorem TokenSource.last {e : Event TokenApi} (shows : Shows c m token e) :
    TokenSource c m (log ++ [e]) token :=
  ⟨e, List.mem_append_right _ (List.mem_singleton_self _), shows⟩

/-! ## The programs -/

/-- A call whose procedure keeps to its permissions. -/
abbrev Asks {α : Type} (ext : AuthenticationParsers) (c : Config) (m : ℕ) (log : Log)
    (post : Log → α → Prop) (exn : Log → Prop) (p : Procedure α) : Prop :=
  p.Follows (.logging (TokenAsks ext c m)) post (fun b _ => exn b) log

variable {α : Type} {post : Log → α → Prop} {exn : Log → Prop}

theorem asks_bind (r : Request) {k : r.Reply → Procedure α} (allowed : TokenAsks ext c m log r)
    (rest : ∀ x, Asks ext c m (log ++ [⟨r, x⟩]) post exn (k x)) :
    Asks ext c m log post exn (ask r >>= k) :=
  (follows_logging_bind (I := TokenApi) r k).mpr ⟨allowed, rest⟩

theorem asks_raise {β : Type} (x : Except String β) {k : β → Procedure α}
    (rest : ∀ b, x = .ok b → Asks ext c m log post exn (k b)) (ends : exn log) :
    Asks ext c m log post exn (Program.raise x >>= k) :=
  (Program.follows_raise_bind x k).mpr ⟨rest, fun _ _ => ends⟩

/-- Not about the renewal mutex. -/
def Neutral : Request → Prop
  | .lockRenew _ | .unlockRenew _ => False
  | _ => True

theorem renewalOf_neutral {e : Event TokenApi} (neutral : Neutral e.request) :
    renewalOf (log ++ [e]) = (renewalOf log).map (· ++ [e]) := by
  rw [renewalOf_append]
  unfold renewalStep
  split
  · exact neutral.elim
  · exact neutral.elim
  · rfl

/-- A request inside a renewal. -/
theorem asks_inside {renewal : Log} (renewing : renewalOf log = some renewal) (r : Request)
    {k : r.Reply → Procedure α} (neutral : Neutral r) (allowed : TokenAsks ext c m log r)
    (rest : ∀ x, renewalOf (log ++ [⟨r, x⟩]) = some (renewal ++ [⟨r, x⟩]) →
      Asks ext c m (log ++ [⟨r, x⟩]) post exn (k x)) :
    Asks ext c m log post exn (ask r >>= k) :=
  asks_bind r allowed fun x => rest x (by rw [renewalOf_neutral neutral, renewing]; rfl)

/-- A request outside. -/
theorem asks_outside (outside : renewalOf log = none) (r : Request) {k : r.Reply → Procedure α}
    (neutral : Neutral r) (allowed : TokenAsks ext c m log r)
    (rest : ∀ x, renewalOf (log ++ [⟨r, x⟩]) = none →
      Asks ext c m (log ++ [⟨r, x⟩]) post exn (k x)) :
    Asks ext c m log post exn (ask r >>= k) :=
  asks_bind r allowed fun x => rest x (by rw [renewalOf_neutral neutral, outside]; rfl)

/-- The lock of the cache is released, or was never taken. -/
theorem releaseDistLock_asks {P : Log → Prop} (lockValue : String) (acquired : Bool)
    (kept : P (log ++ [⟨.releaseLock c.lockKey lockValue, ()⟩])) (holds : P log) :
    Asks ext c m log (fun b _ => P b) exn (releaseDistLock c lockValue acquired) := by
  unfold releaseDistLock
  cases acquired with
  | false => exact holds
  | true => exact asks_bind _ (.plain trivial) fun _ => kept

/-- The result of a look into the cache. -/
def Looked (c : Config) (log : Log) (result : Option String) : Prop :=
  renewalOf log = none ∧ ∀ token, result = some token → token ≠ "" ∧ found c token ∈ log

theorem cachedToken_asks (cached : c.hasCache = true) (outside : renewalOf log = none) :
    Asks ext c m log (Looked c) (fun _ => True) (cachedToken c) := by
  unfold cachedToken
  refine asks_outside outside _ trivial (.reads cached) fun (x : Option String) after => ?_
  cases x with
  | none => exact ⟨after, nofun⟩
  | some hit =>
    refine ⟨after, fun token same => ?_⟩
    have same : (if hit = "" then none else some hit) = some token := same
    by_cases empty : hit = ""
    · rw [if_pos empty] at same
      exact absurd same nofun
    · rw [if_neg empty] at same
      obtain rfl := Option.some.inj same
      exact ⟨empty, List.mem_append_right _ (List.mem_singleton_self _)⟩

theorem adopt_asks (nonempty : token ≠ "") (hit : found c token ∈ log) :
    Asks ext c m log (TokenSource c m) (fun _ => True) (adopt m token) := by
  unfold adopt
  exact asks_bind _ (.adopts nonempty hit) fun _ => ⟨_, List.mem_append_left _ hit, .cache⟩

theorem pollCache_asks (cached : c.hasCache = true) (attempts : ℕ) (outside : renewalOf log = none) :
    Asks ext c m log (Looked c) (fun _ => True) (pollCache c attempts) := by
  induction attempts generalizing log with
  | zero => exact ⟨outside, nofun⟩
  | succ attempts ih =>
    rw [pollCache]
    refine asks_outside outside _ trivial (.plain trivial) fun _ outside => ?_
    refine (cachedToken_asks cached outside).bind fun b result got => ?_
    cases result with
    | some token => exact got
    | none => exact ih got.1

theorem inside_of {renewal : Log} (renewing : renewalOf log = some renewal) :
    (renewalOf log).isSome := by
  rw [renewing]
  rfl

theorem renewToken_asks {renewal : Log} (renewing : renewalOf log = some renewal) :
    Asks ext c m log
      (fun b _ => ∃ before token expira, renewalOf b = some (before ++ [stored m token expira]))
      (fun b => (renewalOf b).isSome) (renewToken ext c m) := by
  unfold renewToken
  refine asks_inside renewing _ trivial (.plain trivial) fun (seedResp : HttpReply) renewing => ?_
  refine asks_raise _ (fun semillaXml _ => ?_) (inside_of renewing)
  refine asks_inside renewing _ trivial (.plain trivial)
    fun (signed : Except String String) renewing => ?_
  refine asks_raise _ (fun semillaFirmada _ => ?_) (inside_of renewing)
  refine asks_inside renewing _ trivial (.plain trivial)
    fun (validateResp : HttpReply) renewing => ?_
  refine asks_raise _ (fun issue read => ?_) (inside_of renewing)
  obtain ⟨token, expira⟩ := issue
  have issued : issuedWith ext validateResp = some (token, expira) :=
    congrArg Except.toOption read
  exact asks_inside renewing _ trivial
    (.stores renewing ⟨_, List.mem_append_right _ (List.mem_singleton_self _), issued⟩)
    fun _ renewing => ⟨_, token, expira, renewing⟩

/-- The end of a renewal: the lock is released and the token returned. -/
theorem release_asks {renewal : Log} (renewing : renewalOf log = some renewal)
    (source : TokenSource c m log token) (lockValue : String) (acquired : Bool) :
    Asks ext c m log (fun b token => (renewalOf b).isSome ∧ TokenSource c m b token)
      (fun b => (renewalOf b).isSome) (do
        releaseDistLock c lockValue acquired
        return token) := by
  refine (releaseDistLock_asks (P := fun b => (renewalOf b).isSome ∧ TokenSource c m b token)
    lockValue acquired ⟨?_, source.append _⟩ ⟨inside_of renewing, source⟩).bind fun b _ kept => kept
  have neutral : Neutral (.releaseLock c.lockKey lockValue) := trivial
  rw [renewalOf_neutral neutral, renewing]
  rfl

theorem renewSection_asks {renewal : Log} (renewing : renewalOf log = some renewal)
    (lockValue : String) (acquired : Bool) :
    Asks ext c m log (fun b token => (renewalOf b).isSome ∧ TokenSource c m b token)
      (fun b => (renewalOf b).isSome) (renewSection ext c m lockValue acquired) := by
  unfold renewSection
  refine asks_inside renewing _ trivial .checks fun (valid : Option String) renewing => ?_
  cases valid with
  | some token => exact release_asks renewing (.last .memory) lockValue acquired
  | none =>
    refine (renewToken_asks renewing).bind fun b _ kept => ?_
    obtain ⟨before, token, expira, renewing⟩ := kept
    refine asks_inside renewing _ trivial (.takes renewing) fun (result : String × ℤ) renewing => ?_
    obtain ⟨tokenResult, ttlSeconds⟩ := result
    have source : TokenSource c m (b ++ [taken m tokenResult ttlSeconds]) tokenResult :=
      .last (.renewal ttlSeconds)
    refine .ite (fun fills => ?_) fun _ => release_asks renewing source lockValue acquired
    have took := List.mem_append_right (before ++ [stored m token expira])
      (List.mem_singleton_self (taken m tokenResult ttlSeconds))
    refine asks_inside renewing _ trivial (.fills renewing took fills.2.2) fun _ renewing => ?_
    exact release_asks renewing (source.append _) lockValue acquired

theorem guardedRenewal_asks (outside : renewalOf log = none) (lockValue : String)
    (acquired : Bool) :
    Asks ext c m log (TokenSource c m) (fun _ => True)
      (guardedRenewal ext c m lockValue acquired) := by
  unfold guardedRenewal
  refine asks_bind _ (.locks outside) fun _ => ?_
  have renewing : renewalOf (log ++ [⟨.lockRenew m, ()⟩]) = some [] := renewalOf_append _ _
  refine Program.Follows.bind (M := fun b token => (renewalOf b).isSome ∧ TokenSource c m b token)
    ?_ fun b token kept => ?_
  · refine (renewSection_asks renewing lockValue acquired).tryCatch fun b e inside => ?_
    refine asks_bind _ (.unlocks inside) fun _ => ?_
    exact (releaseDistLock_asks (P := fun _ => True) lockValue acquired trivial trivial).bind
      fun _ _ _ => trivial
  · exact asks_bind _ (.unlocks kept.1) fun _ => kept.2.append _

/-- A token found in the cache is kept and returned. -/
theorem adopt_found {token : String} (got : Looked c log (some token)) :
    Asks ext c m log (TokenSource c m) (fun _ => True) (adopt m token) :=
  adopt_asks (got.2 token rfl).1 (got.2 token rfl).2

theorem renewWithCache_asks (cached : c.hasCache = true) (outside : renewalOf log = none)
    (lockValue : String) :
    Asks ext c m log (TokenSource c m) (fun _ => True) (renewWithCache ext c m lockValue) := by
  unfold renewWithCache
  refine asks_outside outside _ trivial (.plain trivial) fun (granted : Bool) outside => ?_
  cases granted with
  | true =>
    refine (cachedToken_asks cached outside).bind fun b result got => ?_
    cases result with
    | none => exact guardedRenewal_asks got.1 lockValue true
    | some token =>
      obtain ⟨nonempty, hit⟩ := got.2 token rfl
      exact asks_bind _ (.plain trivial) fun _ =>
        adopt_asks nonempty (List.mem_append_left _ hit)
  | false =>
    refine (pollCache_asks cached 12 outside).bind fun b result got => ?_
    cases result with
    | some token => exact adopt_found got
    | none =>
      refine asks_outside got.1 _ trivial (.plain trivial) fun (granted : Bool) outside => ?_
      cases granted with
      | true => exact guardedRenewal_asks outside lockValue true
      | false =>
        refine (cachedToken_asks cached outside).bind fun b result got => ?_
        cases result with
        | some token => exact adopt_found got
        | none => trivial

theorem tokenFromMemory_asks (outside : renewalOf log = none) :
    Asks ext c m log (TokenSource c m) (fun _ => True) (tokenFromMemory ext c m) := by
  unfold tokenFromMemory
  refine asks_outside outside _ trivial .checks fun (valid : Option String) outside => ?_
  cases valid with
  | some token => exact .last .memory
  | none =>
    refine asks_outside outside _ trivial (.plain trivial) fun (lockValue : String) outside => ?_
    exact .ite (fun cached => renewWithCache_asks cached outside lockValue)
      fun _ => guardedRenewal_asks outside lockValue false

/-- **What `getToken` may ask**, and where the token it returns comes from. -/
theorem getToken_asks (ext : AuthenticationParsers) (c : Config) (m : ℕ) :
    Asks ext c m [] (TokenSource c m) (fun _ => True) (getToken ext c m) := by
  unfold getToken
  refine .ite (fun cached => ?_) fun _ => tokenFromMemory_asks rfl
  refine (cachedToken_asks cached rfl).bind fun b result got => ?_
  cases result with
  | some token => exact adopt_found got
  | none => exact tokenFromMemory_asks got.1

end EcfDgii.TokenTrace
