import EcfDgii.Custody
import EcfDgii.TokenTrace

/-!
What `getToken` leaves behind.

A call takes the lock of the cache in one of two attempts, gives it back by hand
where it finds the token after all, and leaves the rest to a guard.
`getToken_cleans` walks its paths: it gives back only the lock it holds, holds
none at its end, and where it throws it has asked for no change of memory or
cache.

`surroundings` answers anything at all for the cache, the locks, DGII and the
signer; memory and cache are those of the `World`.  `renewal_cleans_up` says
what that comes to in a run.
-/

set_option autoImplicit false

namespace EcfDgii.RenewalCleanup

open EcfDgii.DgiiReplies EcfDgii.Programs EcfDgii.Execution EcfDgii.Custody
open EcfDgii.TokenManager EcfDgii.TokenTrace

/-! ## Locks -/

/-- The lock a call has got: its key and the value it was taken with. -/
abbrev Lock := String × String

/-- What an event does with the locks of the cache. -/
def lockEffect : Event TokenApi → Effect Lock
  | ⟨.acquireLock key value _, granted⟩ =>
    if (show Bool from granted) then .takes (key, value) else .nothing
  | ⟨.releaseLock key value, _⟩ => .gives (key, value)
  | _ => .nothing

/-- A lock that was granted. -/
def granted (key value : String) (expiration : ℤ) : Event TokenApi :=
  ⟨.acquireLock key value expiration, (true : Bool)⟩

/-- A lock that is released. -/
def released (key value : String) : Event TokenApi := ⟨.releaseLock key value, ()⟩

theorem takes_iff {e : Event TokenApi} {key value : String} :
    lockEffect e = .takes (key, value) ↔ ∃ expiration, e = granted key value expiration := by
  constructor
  · intro takes
    unfold lockEffect at takes
    split at takes
    · next key' value' expiration answer =>
      cases answer with
      | false => exact absurd takes nofun
      | true =>
        injection takes with same
        injection same with sameKey sameValue
        exact ⟨expiration, by rw [sameKey, sameValue]; rfl⟩
    · exact absurd takes nofun
    · exact absurd takes nofun
  · rintro ⟨expiration, rfl⟩
    rfl

theorem gives_iff {e : Event TokenApi} {key value : String} :
    lockEffect e = .gives (key, value) ↔ e = released key value := by
  constructor
  · intro gives
    unfold lockEffect at gives
    split at gives
    · next key' value' expiration answer => cases answer <;> exact absurd gives nofun
    · next key' value' answer =>
      injection gives with same
      injection same with sameKey sameValue
      rw [sameKey, sameValue]
      rfl
    · exact absurd gives nofun
  · rintro rfl
    rfl

/-! ## Memory and cache -/

/-- A request that changes the memory of a manager or the cache. -/
def Changing : Request → Prop
  | .memory _ (.adopt _) | .memory _ (.storeRenewed ..) | .memory _ .clear => True
  | .cacheSet .. | .cacheRemove _ => True
  | _ => False

/-- Nothing has been changed so far. -/
def Unchanging (log : Log) : Prop := ∀ e ∈ log, ¬ Changing e.request

/-! ## The programs -/

variable {ext : AuthenticationParsers} {c : Config} {m : ℕ} {log : Log} {lockValue : String}
  {acquired : Bool}

/-- A lock is released only while it is held. -/
def ReleasesHeld (log : Log) : Request → Prop
  | .releaseLock key value => (key, value) ∈ held lockEffect log
  | _ => True

/-- A procedure that releases only what is held. -/
abbrev Cleans {α : Type} (log : Log) (post : Log → α → Prop) (exn : Log → Prop)
    (p : Procedure α) : Prop :=
  p.Follows (.logging ReleasesHeld) post (fun b _ => exn b) log

/-- What a call holds, with nothing changed so far. -/
structure Holding (locks : List Lock) (log : Log) : Prop where
  held : held lockEffect log = locks
  unchanged : Unchanging log

/-- The end of a call: nothing held, and nothing changed if it throws. -/
abbrev Ends (p : Procedure String) (log : Log) : Prop :=
  Cleans log (fun b _ => held lockEffect b = []) (Holding []) p

/-- Requests about no lock. -/
def LockFree (r : Request) : Prop := ∀ x, lockEffect ⟨r, x⟩ = .nothing

theorem held_lockFree {r : Request} (free : LockFree r) (x : r.Reply) :
    held lockEffect (log ++ [⟨r, x⟩]) = held lockEffect log := by
  rw [held_append, heldStep, free x]

theorem Holding.ask {locks : List Lock} (holding : Holding locks log) {r : Request}
    (free : LockFree r) (keeps : ¬ Changing r) (x : r.Reply) :
    Holding locks (log ++ [⟨r, x⟩]) where
  held := (held_lockFree free x).trans holding.held
  unchanged := List.forall_mem_append.mpr
    ⟨holding.unchanged, List.forall_mem_singleton.mpr keeps⟩

variable {α : Type} {post : Log → α → Prop} {exn : Log → Prop} {locks : List Lock}

theorem cleans_bind (r : Request) {k : r.Reply → Procedure α} (allowed : ReleasesHeld log r)
    (rest : ∀ x, Cleans (log ++ [⟨r, x⟩]) post exn (k x)) :
    Cleans log post exn (ask r >>= k) :=
  (follows_logging_bind (I := TokenApi) r k).mpr ⟨allowed, rest⟩

/-- A request about no lock. -/
theorem cleans_free {r : Request} {k : r.Reply → Procedure α} (free : LockFree r)
    (rest : ∀ x, held lockEffect (log ++ [⟨r, x⟩]) = held lockEffect log →
      Cleans (log ++ [⟨r, x⟩]) post exn (k x))
    (allowed : ReleasesHeld log r) : Cleans log post exn (ask r >>= k) :=
  cleans_bind r allowed fun x => rest x (held_lockFree free x)

/-- A request about nothing that is held or kept. -/
theorem cleans_quiet {r : Request} {k : r.Reply → Procedure α} (holding : Holding locks log)
    (free : LockFree r) (keeps : ¬ Changing r) (allowed : ReleasesHeld log r)
    (rest : ∀ x, Holding locks (log ++ [⟨r, x⟩]) → Cleans (log ++ [⟨r, x⟩]) post exn (k x)) :
    Cleans log post exn (ask r >>= k) :=
  cleans_bind r allowed fun x => rest x (holding.ask free keeps x)

/-- What the guard of a call holds. -/
def owned (c : Config) (lockValue : String) (acquired : Bool) : List Lock :=
  if acquired then [(c.lockKey, lockValue)] else []

/-- A lock that is released is held no more. -/
theorem held_released {key value : String} (holds : held lockEffect log = [(key, value)]) :
    held lockEffect (log ++ [released key value]) = [] :=
  held_give holds rfl

theorem released_holding {key value : String} (holding : Holding [(key, value)] log) :
    Holding [] (log ++ [released key value]) where
  held := held_released holding.held
  unchanged := List.forall_mem_append.mpr
    ⟨holding.unchanged, List.forall_mem_singleton.mpr fun changing => changing⟩

/-- The guard releases what it holds. -/
theorem releaseDistLock_cleans {P : Log → Prop}
    (holds : held lockEffect log = owned c lockValue acquired) (without : acquired = false → P log)
    (after : acquired = true → P (log ++ [released c.lockKey lockValue])) :
    Cleans log (fun b _ => P b) exn (releaseDistLock c lockValue acquired) := by
  unfold releaseDistLock
  cases acquired with
  | false => exact without rfl
  | true =>
    refine cleans_bind _ ?_ fun _ => after rfl
    show (c.lockKey, lockValue) ∈ held lockEffect log
    rw [holds]
    exact List.mem_singleton_self _

/-- The return of a call: the guard has released its lock. -/
theorem release_cleans {token : String}
    (holds : held lockEffect log = owned c lockValue acquired) :
    Cleans log (fun b _ => held lockEffect b = []) exn (do
      releaseDistLock c lockValue acquired
      return token) := by
  refine (releaseDistLock_cleans (P := fun b => held lockEffect b = []) holds ?_ ?_).bind
    fun b _ free => free
  · intro without
    rw [holds, without]
    rfl
  · intro acquired
    exact held_released (by rw [holds, acquired]; rfl)

/-- A renewal leaves the lock alone, and changes nothing if it throws. -/
theorem renewToken_cleans {locks : List Lock} (holding : Holding locks log) :
    Cleans log (fun b _ => held lockEffect b = locks) (Holding locks) (renewToken ext c m) := by
  unfold renewToken
  refine cleans_quiet holding (fun _ => rfl) id trivial fun (seedResp : HttpReply) holding => ?_
  refine (Program.follows_raise_bind _ _).mpr ⟨fun semillaXml _ => ?_, fun _ _ => holding⟩
  refine cleans_quiet holding (fun _ => rfl) id trivial
    fun (signed : Except String String) holding => ?_
  refine (Program.follows_raise_bind _ _).mpr ⟨fun semillaFirmada _ => ?_, fun _ _ => holding⟩
  refine cleans_quiet holding (fun _ => rfl) id trivial
    fun (validateResp : HttpReply) holding => ?_
  refine (Program.follows_raise_bind _ _).mpr ⟨fun issue _ => ?_, fun _ _ => holding⟩
  obtain ⟨token, expira⟩ := issue
  exact cleans_free (fun _ => rfl) (fun _ same => same.trans holding.held) trivial

theorem renewSection_cleans (holding : Holding (owned c lockValue acquired) log) :
    Cleans log (fun b _ => held lockEffect b = []) (Holding (owned c lockValue acquired))
      (renewSection ext c m lockValue acquired) := by
  unfold renewSection
  refine cleans_quiet holding (fun _ => rfl) id trivial fun (valid : Option String) holding => ?_
  cases valid with
  | some token => exact release_cleans holding.held
  | none =>
    refine (renewToken_cleans holding).bind fun b _ holds => ?_
    refine cleans_free (fun _ => rfl) (fun (result : String × ℤ) same => ?_) trivial
    obtain ⟨tokenResult, ttlSeconds⟩ := result
    refine .ite (fun _ => ?_) fun _ => release_cleans (same.trans holds)
    exact cleans_free (fun _ => rfl) (fun _ set => release_cleans (set.trans (same.trans holds)))
      trivial

theorem guardedRenewal_cleans (lockValue : String) (acquired : Bool)
    (holding : Holding (owned c lockValue acquired) log) :
    Ends (guardedRenewal ext c m lockValue acquired) log := by
  unfold guardedRenewal
  refine cleans_quiet holding (fun _ => rfl) id trivial fun _ holding => ?_
  refine Program.Follows.bind (M := fun b _ => held lockEffect b = []) ?_ fun b token free => ?_
  · -- the handler: the mutex first, then the lock
    refine (renewSection_cleans holding).tryCatch fun b e holding => ?_
    refine cleans_quiet holding (fun _ => rfl) id trivial fun _ holding => ?_
    refine (releaseDistLock_cleans (P := Holding []) holding.held ?_ ?_).bind
      fun b _ clean => clean
    · rintro rfl
      exact holding
    · rintro rfl
      exact released_holding holding
  · exact cleans_free (fun _ => rfl) (fun _ same => same.trans free) trivial

theorem cachedToken_cleans (holding : Holding locks log) :
    Cleans log (fun b _ => Holding locks b) exn (cachedToken c) := by
  unfold cachedToken
  refine cleans_quiet holding (fun _ => rfl) id trivial fun (x : Option String) holding => ?_
  cases x with
  | none => exact holding
  | some hit => exact holding

theorem pollCache_cleans (attempts : ℕ) (holding : Holding locks log) :
    Cleans log (fun b _ => Holding locks b) exn (pollCache c attempts) := by
  induction attempts generalizing log with
  | zero => exact holding
  | succ attempts ih =>
    rw [pollCache]
    refine cleans_quiet holding (fun _ => rfl) id trivial fun _ holding => ?_
    refine (cachedToken_cleans holding).bind fun b result holding => ?_
    cases result with
    | some token => exact holding
    | none => exact ih holding

/-- A token that is kept in memory is returned; no lock is held then. -/
theorem adopt_cleans {token : String} (free : held lockEffect log = []) :
    Ends (adopt m token) log := by
  unfold adopt
  exact cleans_free (fun _ => rfl) (fun _ same => same.trans free) trivial

/-- One attempt at the lock. -/
theorem acquireLock_cleans {k : Bool → Procedure String} (holding : Holding [] log)
    (got : ∀ b, Holding [(c.lockKey, lockValue)] b → Ends (k true) b)
    (missed : ∀ b, Holding [] b → Ends (k false) b) :
    Ends (acquireLock c.lockKey lockValue 30 >>= k) log := by
  refine cleans_bind _ trivial fun (answer : Bool) => ?_
  have unchanged : Unchanging (log ++ [⟨.acquireLock c.lockKey lockValue 30, answer⟩]) :=
    List.forall_mem_append.mpr
      ⟨holding.unchanged, List.forall_mem_singleton.mpr fun changing => changing⟩
  cases answer with
  | true => exact got _ ⟨by rw [held_append, holding.held]; rfl, unchanged⟩
  | false => exact missed _ ⟨by rw [held_append, holding.held]; rfl, unchanged⟩

theorem renewWithCache_cleans (holding : Holding [] log) :
    Ends (renewWithCache ext c m lockValue) log := by
  unfold renewWithCache
  refine acquireLock_cleans holding (fun b holding => ?_) fun b holding => ?_
  · refine (cachedToken_cleans holding).bind fun b result holding => ?_
    cases result with
    | none => exact guardedRenewal_cleans lockValue true holding
    | some token =>
      -- the token is there by now: the lock is released by hand
      refine cleans_bind _ ?_ fun _ => adopt_cleans (held_released holding.held)
      show (c.lockKey, lockValue) ∈ held lockEffect b
      rw [holding.held]
      exact List.mem_singleton_self _
  · refine (pollCache_cleans 12 holding).bind fun b result holding => ?_
    cases result with
    | some token => exact adopt_cleans holding.held
    | none =>
      refine acquireLock_cleans holding (fun b holding => ?_) fun b holding => ?_
      · exact guardedRenewal_cleans lockValue true holding
      · refine (cachedToken_cleans holding).bind fun b result holding => ?_
        cases result with
        | some token => exact adopt_cleans holding.held
        | none => exact holding

theorem tokenFromMemory_cleans (holding : Holding [] log) :
    Ends (tokenFromMemory ext c m) log := by
  unfold tokenFromMemory
  refine cleans_quiet holding (fun _ => rfl) id trivial fun (valid : Option String) holding => ?_
  cases valid with
  | some token => exact holding.held
  | none =>
    refine cleans_quiet holding (fun _ => rfl) id trivial fun (lockValue : String) holding => ?_
    refine .ite (fun _ => renewWithCache_cleans holding) fun _ => ?_
    exact guardedRenewal_cleans lockValue false holding

/-- **`getToken` cleans up.** It releases only the lock it holds and ends with
none; where it throws it has changed nothing. -/
theorem getToken_cleans (ext : AuthenticationParsers) (c : Config) (m : ℕ) :
    Ends (getToken ext c m) [] := by
  have start : Holding [] ([] : Log) := ⟨rfl, fun _ member => absurd member List.not_mem_nil⟩
  unfold getToken
  refine .ite (fun _ => ?_) fun _ => tokenFromMemory_cleans start
  refine (cachedToken_cleans start).bind fun b result holding => ?_
  cases result with
  | some token => exact adopt_cleans holding.held
  | none => exact tokenFromMemory_cleans holding

/-! ## Runs -/

/-- What the surroundings decide in one step; a read of the cache finds what they
say. -/
structure Surroundings extends Input where
  read : Option String := none

/-- The host of a call in any surroundings: they answer for the cache, the locks,
DGII and the signer. -/
def surroundings (ext : AuthenticationParsers) : Host TokenApi World Surroundings where
  answer s w r :=
    match r with
    | .cacheGet _ => (s.read, w.pass s.elapsed)
    | r => answerAt ext s.toInput (w.pass s.elapsed) r

/-- What a call leaves of its locks: every lock it got is released later with the
value it was taken with, and it releases none that it has not got. -/
structure LocksReturned (log : Log) : Prop where
  givenBack : ∀ before key value expiration after,
    log = before ++ granted key value expiration :: after → released key value ∈ after
  gotBefore : ∀ before key value after,
    log = before ++ released key value :: after →
      ∃ expiration, granted key value expiration ∈ before

theorem LocksReturned.of_clean (clean : Clean lockEffect log) : LocksReturned log where
  givenBack before key value expiration after whole := by
    obtain ⟨e, later, gives⟩ := (whole ▸ clean).given_back
      (takes_iff.mpr ⟨expiration, rfl⟩)
    exact gives_iff.mp gives ▸ later
  gotBefore before key value after whole := by
    obtain ⟨e, earlier, takes⟩ := (whole ▸ clean).taken_before (gives_iff.mpr rfl)
    obtain ⟨expiration, rfl⟩ := takes_iff.mp takes
    exact ⟨expiration, earlier⟩

/-- The tokens that managers and cache hold are the same. -/
structure SameTokens (w w' : World) : Prop where
  memory : ∀ m, (w'.managers m).cachedToken = (w.managers m).cachedToken ∧
    (w'.managers m).tokenExpiry = (w.managers m).tokenExpiry
  cache : w'.cache = w.cache

theorem SameTokens.refl (w : World) : SameTokens w w := ⟨fun _ => ⟨rfl, rfl⟩, rfl⟩

theorem SameTokens.trans {w w' w'' : World} (h : SameTokens w w') (h' : SameTokens w' w'') :
    SameTokens w w'' where
  memory m := ⟨(h'.memory m).1.trans (h.memory m).1, (h'.memory m).2.trans (h.memory m).2⟩
  cache := h'.cache.trans h.cache

/-- A manager whose token stays. -/
theorem sameTokens_setMemory (w : World) {manager : ℕ} {memory : Memory}
    (token : memory.cachedToken = (w.managers manager).cachedToken)
    (expiry : memory.tokenExpiry = (w.managers manager).tokenExpiry) :
    SameTokens w (w.setMemory manager memory) where
  memory m := by
    by_cases same : m = manager
    · subst same
      simp [World.setMemory, token, expiry]
    · simp [World.setMemory, Function.update_of_ne same]
  cache := rfl

/-- Only the changing requests change what is kept. -/
theorem answer_sameTokens {r : Request} (keeps : ¬ Changing r) (s : Surroundings) (w : World) :
    SameTokens w ((surroundings ext).answer s w r).2 := by
  have passed : SameTokens w (w.pass s.elapsed) := ⟨fun _ => ⟨rfl, rfl⟩, rfl⟩
  refine passed.trans ?_
  cases r with
  | cacheSet key value expiration => exact absurd trivial keeps
  | cacheRemove key => exact absurd trivial keeps
  | lockRenew manager => exact sameTokens_setMemory _ rfl rfl
  | unlockRenew manager => exact sameTokens_setMemory _ rfl rfl
  | memory manager part =>
    cases part with
    | adopt token => exact absurd trivial keeps
    | storeRenewed token expira => exact absurd trivial keeps
    | clear => exact absurd trivial keeps
    | validMemoryToken => exact sameTokens_setMemory _ rfl rfl
    | takeResult => exact sameTokens_setMemory _ rfl rfl
  | httpPost url file => exact ⟨fun _ => ⟨rfl, rfl⟩, rfl⟩
  | _ => exact SameTokens.refl _

/-- What a run keeps: every release was of a lock held then, and as long as
nothing has been changed the tokens are those of the start. -/
structure Kept (w : World) (log : Log) (w' : World) : Prop where
  lawful : Along (fun before e => ReleasesHeld before e.request) log
  same : Unchanging log → SameTokens w w'

theorem Kept.step {w w' : World} (kept : Kept w log w') {r : Request} (s : Surroundings)
    (allowed : ReleasesHeld log r) :
    Kept w (log ++ [⟨r, ((surroundings ext).answer s w' r).1⟩])
      ((surroundings ext).answer s w' r).2 where
  lawful := kept.lawful.append allowed
  same unchanging := by
    obtain ⟨before, last⟩ := List.forall_mem_append.mp unchanging
    have keeps : ¬ Changing r := last _ (List.mem_singleton_self _)
    exact (kept.same before).trans (answer_sameTokens keeps s w')

/-- Releases of held locks are lawful. -/
theorem clean_of_lawful (lawful : Along (fun before e => ReleasesHeld before e.request) log)
    (settled : held lockEffect log = []) : Clean lockEffect log where
  lawful before e after whole := by
    rintro ⟨key, value⟩ gives
    have allowed : ReleasesHeld before e.request := lawful before e ⟨after, by simp [whole]⟩
    rw [gives_iff.mp gives] at allowed
    exact allowed
  settled := settled

/-- **Renewals clean up.** However cache, locks, DGII and signer answer, a call
that has ended has released every lock it got and no other; and if it ended with
an exception, the tokens kept in memory and in the cache are those of before. -/
theorem renewal_cleans_up (ext : AuthenticationParsers) (c : Config) (m : ℕ)
    (inputs : ℕ → Surroundings) (w : World) :
    let run := (surroundings ext).run (fun n => some (inputs n)) w [] (getToken ext c m)
    LocksReturned run.log ∧ ∀ e, run.outcome = .threw e → SameTokens w run.world := by
  intro run
  have ends : run.outcome ≠ .killed := Host.run_ends _ inputs w [] _
  have start : Kept w [] w := ⟨along_nil _, fun _ => .refl w⟩
  have step : ∀ log w' r s, ReleasesHeld log r → Kept w log w' →
      Kept w (log ++ [⟨r, ((surroundings ext).answer s w' r).1⟩])
        ((surroundings ext).answer s w' r).2 := fun log w' r s allowed kept => kept.step s allowed
  obtain ⟨kept, left⟩ : Kept w run.log run.world ∧
      run.outcome.Satisfies (fun _ => held lockEffect run.log = []) fun _ => Holding [] run.log :=
    Host.run_keeps step (getToken_cleans ext c m) start
  refine ⟨.of_clean (clean_of_lawful kept.lawful ?_), fun e threw => ?_⟩
  · generalize run.outcome = outcome at ends left
    cases outcome with
    | returned token => exact left
    | threw e => exact left.held
    | killed => exact absurd rfl ends
  · rw [threw] at left
    exact kept.same left.unchanged

/-- DGII gives no seed: the call throws, and the lock it got is released. -/
theorem renewal_cleans_up_sample :
    let run := (surroundings sampleParsers).run (fun _ => some { http := { statusCode := 0 } })
      { clock := 0 } [] (getToken sampleParsers sampleConfig 0)
    LocksReturned run.log ∧ SameTokens { clock := 0 } run.world :=
  have cleans := renewal_cleans_up sampleParsers sampleConfig 0
    (fun _ => { http := { statusCode := 0 } }) { clock := 0 }
  ⟨cleans.1, cleans.2 "No se pudo obtener la semilla: HTTP 0" rfl⟩

end EcfDgii.RenewalCleanup
