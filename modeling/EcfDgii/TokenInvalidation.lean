import EcfDgii.TokenTrace

/-!
What `invalidate` achieves.

Any number of calls run on one manager, a section or a cache operation at a
time, in any order the renewal mutex allows.  `invalidate` clears memory under
that mutex and removes the cache entry after it, so no renewal straddles it; but
a call that has found the token in the cache keeps it in a section of its own.
If that section comes after the clearing, the token is back, and later calls
return it.  It is the only way back: when no call keeps the token so
(`KeepsNoInvalidated`), no later call returns it unless DGII issues it again
(`invalidation_effective`).
-/

set_option autoImplicit false

namespace EcfDgii.TokenInvalidation

open EcfDgii.DgiiReplies EcfDgii.Programs EcfDgii.Execution EcfDgii.ExpiringTables
open EcfDgii.TokenManager EcfDgii.TokenTrace

/-! ## Calls of one manager -/

/-- A call of the manager. -/
inductive ManagerCall
  | getToken
  | invalidate
  deriving DecidableEq

/-- The program of a call; `getToken` returns a token. -/
def ManagerCall.program (ext : AuthenticationParsers) (c : Config) (m : ℕ) :
    ManagerCall → Procedure (Option String)
  | .getToken => do return some (← TokenManager.getToken ext c m)
  | .invalidate => do
    TokenManager.invalidate c m
    return none

/-- Calls under way on the manager. -/
abbrev Calls := Pool ManagerCall TokenApi (Option String) World

/-- The manager's calls, none begun. -/
def managerCalls (ext : AuthenticationParsers) (c : Config) (m : ℕ) (calls : ℕ → ManagerCall)
    (w : World) : Calls :=
  Pool.start (ManagerCall.program ext c m) calls w

/-- The clearing of the manager's memory. -/
abbrev clearing (m : ℕ) : Request := .memory m .clear

/-- Requests that have to wait for the renewal mutex. -/
def Waits (m : ℕ) : Request → Prop
  | .lockRenew manager => manager = m
  | .memory manager .clear => manager = m
  | _ => False

instance (m : ℕ) : (r : Request) → Decidable (Waits m r)
  | .lockRenew manager => inferInstanceAs (Decidable (manager = m))
  | .memory manager .clear => inferInstanceAs (Decidable (manager = m))
  | .memory _ (.adopt _) | .memory _ .validMemoryToken | .memory _ (.storeRenewed ..)
  | .memory _ .takeResult | .cacheGet _ | .cacheSet .. | .cacheRemove _ | .acquireLock ..
  | .releaseLock .. | .lockValue | .sleep _ | .httpGet _ | .httpPost .. | .signXml ..
  | .unlockRenew _ => .isFalse id

/-- A move the renewal mutex allows. -/
def MutexAllows (m : ℕ) (p : Calls) (move : Move Input) : Prop :=
  Pool.Next (fun _ r => Waits m r → (p.world.managers m).renewing = false) p move

instance (m : ℕ) (p : Calls) (move : Move Input) : Decidable (MutexAllows m p move) :=
  inferInstanceAs (Decidable (Pool.Next _ p move))

/-- The token is the manager's, in memory or in the cache. -/
def Current (c : Config) (m : ℕ) (token : String) (w : World) : Prop :=
  token ≠ "" ∧
    ((w.managers m).cachedToken = token ∨ w.cache.lookup c.cacheKey w.clock = some token)
  deriving Decidable

/-- DGII has issued the token since a moment. -/
def Reissued (token : String) (before w : World) : Prop :=
  ∃ more, w.issued = before.issued ++ more ∧ ∃ expira, (token, expira) ∈ more

/-- **Effective invalidation.** Once an invalidation that cleared memory has
returned, a call that begins later does not return a token that was the
manager's when memory was cleared, unless DGII has issued it again since. -/
def InvalidationEffective (ext : AuthenticationParsers) (c : Config) (m : ℕ) (start : Calls)
    (moves : List (Move Input)) : Prop :=
  ∀ first t i between after, moves = first ++ .step t i :: (between ++ after) →
    let before := start.play (tokenHost ext) first
    (before.thread t).request = some (clearing m) →
    let returned := (before.move (tokenHost ext) (.step t i)).play (tokenHost ext) between
    (returned.thread t).result.isSome →
    ∀ u, (returned.thread u).log = [] →
      let last := returned.play (tokenHost ext) after
      ∀ token, Current c m token before.world → (last.thread u).result = some (some token) →
        Reissued token before.world last.world

/-- Once memory has been cleared, no call keeps a token of the cache that was the
manager's then, unless DGII has issued it again since. -/
def KeepsNoInvalidated (ext : AuthenticationParsers) (c : Config) (m : ℕ) (start : Calls)
    (moves : List (Move Input)) : Prop :=
  ∀ first t i between u j after,
    moves = first ++ .step t i :: (between ++ .step u j :: after) →
    let before := start.play (tokenHost ext) first
    (before.thread t).request = some (clearing m) →
    let later := (before.move (tokenHost ext) (.step t i)).play (tokenHost ext) between
    ∀ token, Current c m token before.world →
      (later.thread u).request = some (.memory m (.adopt token)) →
      Reissued token before.world later.world

/-! ## What the calls ask -/

variable {ext : AuthenticationParsers} {c : Config} {m : ℕ} {token : String} {w : World}
  {p : Calls} {log : Log}

/-- What `invalidate` asks: the clearing first. -/
inductive InvalidateAsks (c : Config) (m : ℕ) (log : Log) : Request → Prop
  | clears (first : log = []) : InvalidateAsks c m log (clearing m)
  | removes : InvalidateAsks c m log (.cacheRemove c.cacheKey)

/-- What a call asks. -/
def CallAsks (ext : AuthenticationParsers) (c : Config) (m : ℕ) :
    ManagerCall → Log → Request → Prop
  | .getToken => TokenAsks ext c m
  | .invalidate => InvalidateAsks c m

/-- The removal of the cache entry. -/
def Removes (c : Config) (log : Log) : Prop := ∃ e ∈ log, e.request = .cacheRemove c.cacheKey

/-- What a call that has returned shows. -/
def CallShows (c : Config) (m : ℕ) : ManagerCall → Log → Option String → Prop
  | .getToken, log, result => ∀ token, result = some token → TokenSource c m log token
  | .invalidate, log, result => result = none ∧ (c.hasCache = true → Removes c log)

theorem program_follows (ext : AuthenticationParsers) (c : Config) (m : ℕ) (call : ManagerCall) :
    (call.program ext c m).Follows (.logging (CallAsks ext c m call)) (CallShows c m call)
      (fun _ _ => True) [] := by
  cases call with
  | getToken =>
    show Program.Follows (.logging (TokenAsks ext c m)) (CallShows c m .getToken) _ _
      (TokenManager.getToken ext c m >>= fun token => return some token)
    refine (getToken_asks ext c m).bind fun b result source token same => ?_
    exact Option.some.inj same ▸ source
  | invalidate =>
    refine (follows_logging_bind (I := TokenApi) (clearing m) _).mpr
      ⟨InvalidateAsks.clears rfl, fun _ => ?_⟩
    split
    · refine (follows_logging_bind (I := TokenApi) (.cacheRemove c.cacheKey) _).mpr
        ⟨InvalidateAsks.removes, fun _ => ?_⟩
      exact ⟨rfl, fun _ => ⟨_, List.mem_append_right _ (List.mem_singleton_self _), rfl⟩⟩
    · next absent => exact ⟨rfl, fun cached => absurd cached absent⟩

/-- A pool whose calls keep to that. -/
abbrev Verified (ext : AuthenticationParsers) (c : Config) (m : ℕ) (p : Calls) : Prop :=
  p.Verified (CallAsks ext c m) (CallShows c m)

theorem verified_start (calls : ℕ → ManagerCall) (w : World) :
    Verified ext c m (managerCalls ext c m calls w) :=
  fun _ => program_follows ext c m _

/-! ## The renewal mutex -/

/-- A call is in a renewal. -/
def Renews (p : Calls) (u : ℕ) : Prop := (renewalOf (p.thread u).log).isSome = true

/-- At most one call is in a renewal, and it holds the mutex. -/
structure OneRenewal (m : ℕ) (p : Calls) : Prop where
  held : ∀ u, Renews p u → (p.world.managers m).renewing = true
  one : ∀ u v, Renews p u → Renews p v → u = v

theorem answer_renewing {r : Request} (neutral : Neutral r) (i : Input) (w : World) :
    (((tokenHost ext).answer i w r).2.managers m).renewing = (w.managers m).renewing := by
  cases r with
  | lockRenew manager => exact neutral.elim
  | unlockRenew manager => exact neutral.elim
  | memory manager part =>
    simp only [tokenHost, answerAt, World.setMemory, World.pass, Function.update_apply]
    split
    · next same =>
      subst same
      cases part <;> rfl
    · rfl
  | _ => rfl

/-- The mutex requests of a call are about its manager. -/
theorem lockRenew_asks {call : ManagerCall} {manager : ℕ}
    (asks : CallAsks ext c m call log (.lockRenew manager)) :
    manager = m ∧ renewalOf log = none := by
  cases call with
  | invalidate => exact absurd asks nofun
  | getToken =>
    cases asks with
    | plain plain => exact False.elim plain
    | locks outside => exact ⟨rfl, outside⟩

theorem unlockRenew_asks {call : ManagerCall} {manager : ℕ}
    (asks : CallAsks ext c m call log (.unlockRenew manager)) :
    manager = m ∧ (renewalOf log).isSome = true := by
  cases call with
  | invalidate => exact absurd asks nofun
  | getToken =>
    cases asks with
    | plain plain => exact False.elim plain
    | unlocks inside => exact ⟨rfl, inside⟩

/-- **Step.** The mutex keeps renewals apart. -/
theorem OneRenewal.move (h : OneRenewal m p) (verified : Verified ext c m p) {move : Move Input}
    (allowed : MutexAllows m p move) : OneRenewal m (p.move (tokenHost ext) move) := by
  cases move with
  | kill t =>
    have same : ∀ u, Renews (p.move (tokenHost ext) (.kill t)) u ↔ Renews p u := fun u => by
      rw [Renews, Renews, Pool.log_kill]
    exact ⟨fun u renews => h.held u ((same u).mp renews),
      fun u v renews renews' => h.one u v ((same u).mp renews) ((same v).mp renews')⟩
  | step t i =>
    by_cases running : (p.thread t).Running
    · obtain ⟨r, next, rest⟩ := running
      have asks := verified.permitted rest
      have world : (p.move (tokenHost ext) (.step t i)).world =
          ((tokenHost ext).answer i p.world r).2 := by rw [Pool.move_step rest]
      have others : ∀ u, u ≠ t → (Renews (p.move (tokenHost ext) (.step t i)) u ↔ Renews p u) :=
        fun u other => by rw [Renews, Renews, Pool.log_step rest, if_neg other]
      by_cases neutral : Neutral r
      · have same : ∀ u, Renews (p.move (tokenHost ext) (.step t i)) u ↔ Renews p u := by
          intro u
          by_cases here : u = t
          · subst here
            rw [Renews, Renews, Pool.log_step rest, if_pos rfl, renewalOf_neutral neutral,
              Option.isSome_map]
          · exact others u here
        refine ⟨fun u renews => ?_, fun u v renews renews' =>
          h.one u v ((same u).mp renews) ((same v).mp renews')⟩
        rw [world, answer_renewing neutral]
        exact h.held u ((same u).mp renews)
      · cases r with
        | lockRenew manager =>
          obtain ⟨rfl, outside⟩ := lockRenew_asks asks
          have free := allowed.ask rest rfl
          have none : ∀ u, ¬ Renews p u := fun u renews => by
            rw [h.held u renews] at free
            exact absurd free nofun
          have only : ∀ u, Renews (p.move (tokenHost ext) (.step t i)) u → u = t := fun u renews =>
            Classical.byContradiction fun other => none u ((others u other).mp renews)
          refine ⟨fun u renews => ?_, fun u v renews renews' =>
            (only u renews).trans (only v renews').symm⟩
          rw [world]
          simp [tokenHost, answerAt, World.setMemory]
        | unlockRenew manager =>
          obtain ⟨rfl, inside⟩ := unlockRenew_asks asks
          have none : ∀ u, ¬ Renews (p.move (tokenHost ext) (.step t i)) u := by
            intro u renews
            by_cases here : u = t
            · subst here
              rw [Renews, Pool.log_step rest, if_pos rfl, renewalOf_append] at renews
              exact absurd renews (by simp [renewalStep])
            · exact here (h.one u t ((others u here).mp renews) inside)
          exact ⟨fun u renews => absurd renews (none u), fun u v renews => absurd renews (none u)⟩
        | _ => exact absurd trivial neutral
    · rw [Pool.move_idle running]
      exact h

theorem oneRenewal_start (calls : ℕ → ManagerCall) (w : World) :
    OneRenewal m (managerCalls ext c m calls w) :=
  ⟨fun _ renews => absurd renews nofun, fun _ _ renews => absurd renews nofun⟩

/-! ## After the clearing -/

/-- An event that brings the token: taken from memory, found there, or issued. -/
def Brings (ext : AuthenticationParsers) (m : ℕ) (token : String) (e : Event TokenApi) : Prop :=
  (∃ ttlSeconds, e = taken m token ttlSeconds) ∨ e = inMemory m token ∨
    ∃ expira, issueOf ext e = some (token, expira)

/-- The token is gone from the manager, unless DGII has issued it again: it is
not in memory; no call has seen it there or had it issued since the logs were
`logs`; and where the invalidation `t` has removed the cache entry, it is not in
the cache, nor has a call that began `late` found it there. -/
structure Gone (ext : AuthenticationParsers) (c : Config) (m : ℕ) (token : String) (before : World)
    (logs : ℕ → Log) (t : ℕ) (late : ℕ → Prop) (p : Calls) : Prop where
  grown : ∃ more, p.world.issued = before.issued ++ more
  memory : (p.world.managers m).cachedToken = token → Reissued token before p.world
  seen : ∀ u, ∃ new, (p.thread u).log = logs u ++ new ∧
    ∀ e ∈ new, Brings ext m token e → Reissued token before p.world
  cache : Removes c (p.thread t).log → ∀ e, p.world.cache c.cacheKey = some e → e.value = token →
    Reissued token before p.world
  late : ∀ u, late u → (c.hasCache = true → Removes c (p.thread t).log) ∧
    (found c token ∈ (p.thread u).log → Reissued token before p.world)

/-- The new world's part of that, for one request. -/
structure LeavesGone (ext : AuthenticationParsers) (c : Config) (m : ℕ) (token : String)
    (before : World) (removed late : Prop) (e : Event TokenApi) (w : World) : Prop where
  memory : (w.managers m).cachedToken = token → Reissued token before w
  brings : Brings ext m token e → Reissued token before w
  cache : e.request = .cacheRemove c.cacheKey ∨ removed → ∀ entry,
    w.cache c.cacheKey = some entry → entry.value = token → Reissued token before w
  found : late → e = found c token → Reissued token before w

theorem answer_issued (ext : AuthenticationParsers) (i : Input) (w : World) (r : Request) :
    ∃ more, ((tokenHost ext).answer i w r).2.issued = w.issued ++ more := by
  cases r with
  | httpPost url file => exact ⟨_, rfl⟩
  | _ => exact ⟨[], (List.append_nil _).symm⟩

theorem Reissued.mono {before w w' : World} (h : Reissued token before w)
    (grown : ∃ more, w'.issued = w.issued ++ more) : Reissued token before w' := by
  obtain ⟨more, known, expira, member⟩ := h
  obtain ⟨rest, longer⟩ := grown
  exact ⟨more ++ rest, by rw [longer, known, List.append_assoc], expira,
    List.mem_append_left _ member⟩

theorem Removes.append (h : Removes c log) (e : Event TokenApi) : Removes c (log ++ [e]) := by
  obtain ⟨e', member, removes⟩ := h
  exact ⟨e', List.mem_append_left _ member, removes⟩

variable {before : World} {logs : ℕ → Log} {t u : ℕ} {late : ℕ → Prop} {i : Input}
  {r : Request} {next : r.Reply → Procedure (Option String)}

theorem Gone.step (h : Gone ext c m token before logs t late p)
    (rest : (p.thread u).rest = .ask r next)
    (leaves : LeavesGone ext c m token before (Removes c (p.thread t).log) (late u)
      ⟨r, ((tokenHost ext).answer i p.world r).1⟩ ((tokenHost ext).answer i p.world r).2) :
    Gone ext c m token before logs t late (p.move (tokenHost ext) (.step u i)) := by
  have world : (p.move (tokenHost ext) (.step u i)).world =
      ((tokenHost ext).answer i p.world r).2 := by rw [Pool.move_step rest]
  have more := answer_issued ext i p.world r
  have keeps : ∀ v, Removes c (p.thread v).log →
      Removes c ((p.move (tokenHost ext) (.step u i)).thread v).log := by
    intro v removes
    rw [Pool.log_step rest]
    split
    · next same => exact (same ▸ removes).append _
    · exact removes
  refine ⟨?_, ?_, fun v => ?_, fun removes => ?_, fun v begun => ⟨fun cached => ?_, fun hit => ?_⟩⟩
  · obtain ⟨earlier, known⟩ := h.grown
    obtain ⟨rest', longer⟩ := more
    exact ⟨earlier ++ rest', by rw [world, longer, known, List.append_assoc]⟩
  · rw [world]
    exact leaves.memory
  · obtain ⟨new, log, quiet⟩ := h.seen v
    rw [world, Pool.log_step rest]
    by_cases here : v = u
    · subst here
      refine ⟨new ++ [_], by rw [if_pos rfl, log, List.append_assoc], fun e member brings => ?_⟩
      rcases List.mem_append.mp member with old | last
      · exact (quiet e old brings).mono more
      · exact leaves.brings (List.mem_singleton.mp last ▸ brings)
    · exact ⟨new, by rw [if_neg here]; exact log, fun e member brings =>
        (quiet e member brings).mono more⟩
  · rw [world]
    refine leaves.cache ?_
    rw [Pool.log_step rest] at removes
    split at removes
    · next same =>
      obtain ⟨e, member, removed⟩ := removes
      rcases List.mem_append.mp member with old | last
      · exact .inr ⟨e, same ▸ old, removed⟩
      · exact .inl (List.mem_singleton.mp last ▸ removed)
    · exact .inr removes
  · exact keeps t ((h.late v begun).1 cached)
  · rw [world]
    rw [Pool.log_step rest] at hit
    split at hit
    · next same =>
      subst same
      rcases List.mem_append.mp hit with old | last
      · exact ((h.late _ begun).2 old).mono more
      · exact leaves.found begun (List.mem_singleton.mp last).symm
    · exact ((h.late v begun).2 hit).mono more

/-- What no request removes now was gone from the cache before. -/
theorem Gone.earlier (h : Gone ext c m token before logs t late p) {e : Event TokenApi}
    (removed : e.request = .cacheRemove c.cacheKey ∨ Removes c (p.thread t).log)
    (stays : e.request ≠ .cacheRemove c.cacheKey)
    {entry : Entry String} (here : p.world.cache c.cacheKey = some entry)
    (same : entry.value = token) : Reissued token before p.world :=
  h.cache (removed.resolve_left stays) entry here same

/-- A request that changes neither the token in memory nor the cache. -/
theorem Gone.leaves (h : Gone ext c m token before logs t late p) {e : Event TokenApi} {w' : World}
    (more : ∃ more, w'.issued = p.world.issued ++ more)
    (memory : (w'.managers m).cachedToken = (p.world.managers m).cachedToken)
    (cache : w'.cache = p.world.cache) (stays : e.request ≠ .cacheRemove c.cacheKey)
    (brings : Brings ext m token e → Reissued token before w')
    (found : late u → e = found c token → Reissued token before w') :
    LeavesGone ext c m token before (Removes c (p.thread t).log) (late u) e w' where
  memory same := (h.memory (memory ▸ same)).mono more
  brings := brings
  cache removed _ here same := (h.earlier removed stays (cache ▸ here) same).mono more
  found := found

/-- Requests whose events bring and find nothing. -/
def Idle : Request → Prop
  | .cacheGet _ | .httpPost .. | .memory _ .validMemoryToken | .memory _ .takeResult => False
  | _ => True

theorem not_brings {e : Event TokenApi} (idle : Idle e.request) : ¬ Brings ext m token e := by
  rintro (⟨ttlSeconds, rfl⟩ | rfl | ⟨expira, issue⟩)
  · exact idle
  · exact idle
  · obtain ⟨r, x⟩ := e
    cases r with
    | httpPost url file => exact idle
    | _ => exact absurd issue nofun

theorem not_found {e : Event TokenApi} (idle : Idle e.request) : e ≠ found c token := by
  rintro rfl
  exact idle

theorem not_brings_hit {key : String} {hit : Option String} :
    ¬ Brings ext m token ⟨.cacheGet key, hit⟩ := by
  rintro (⟨ttlSeconds, event⟩ | event | ⟨expira, issue⟩)
  · exact absurd event nofun
  · exact absurd event nofun
  · exact absurd issue nofun

/-- A reply brings what it issues. -/
theorem brings_reply {url : String} {file : String} {resp : HttpReply}
    (brings : Brings ext m token ⟨.httpPost url file, resp⟩) :
    ∃ expira, issuedWith ext resp = some (token, expira) := by
  rcases brings with ⟨ttlSeconds, event⟩ | event | issue
  · exact absurd event nofun
  · exact absurd event nofun
  · exact issue

theorem brings_memory {answer : Option String}
    (brings : Brings ext m token ⟨.memory m .validMemoryToken, answer⟩) : answer = some token := by
  rcases brings with ⟨ttlSeconds, event⟩ | event | ⟨expira, issue⟩
  · exact absurd event nofun
  · exact eq_of_heq (Event.mk.inj event).2
  · exact absurd issue nofun

theorem brings_result {result : String × ℤ}
    (brings : Brings ext m token ⟨.memory m .takeResult, result⟩) : result.1 = token := by
  rcases brings with ⟨ttlSeconds, event⟩ | event | ⟨expira, issue⟩
  · exact congrArg Prod.fst (eq_of_heq (Event.mk.inj event).2)
  · exact absurd event nofun
  · exact absurd issue nofun

/-- A call's renewal has begun since the logs were `logs`. -/
theorem Gone.since (h : Gone ext c m token before logs t late p)
    (apart : renewalOf (logs u) = none) {renewal : Log}
    (renewing : renewalOf (p.thread u).log = some renewal) {e : Event TokenApi}
    (member : e ∈ renewal) (brings : Brings ext m token e) : Reissued token before p.world := by
  obtain ⟨new, log, quiet⟩ := h.seen u
  rw [log] at renewing
  exact quiet e (mem_of_later_renewal apart renewing member) brings

/-- An idle request that changes neither the token in memory nor the cache. -/
theorem Gone.leaves_idle (h : Gone ext c m token before logs t late p) {x : r.Reply} {w' : World}
    (idle : Idle r) (more : ∃ more, w'.issued = p.world.issued ++ more)
    (memory : (w'.managers m).cachedToken = (p.world.managers m).cachedToken)
    (cache : w'.cache = p.world.cache) (stays : r ≠ .cacheRemove c.cacheKey) :
    LeavesGone ext c m token before (Removes c (p.thread t).log) (late u) ⟨r, x⟩ w' :=
  h.leaves more memory cache stays (fun brings => absurd brings (not_brings idle))
    fun _ event => absurd event (not_found idle)

/-- A plain request brings the token only where DGII issues it. -/
theorem Gone.leaves_of_plain (h : Gone ext c m token before logs t late p) (plain : Plain r) :
    LeavesGone ext c m token before (Removes c (p.thread t).log) (late u)
      ⟨r, ((tokenHost ext).answer i p.world r).1⟩ ((tokenHost ext).answer i p.world r).2 := by
  have more := answer_issued ext i p.world r
  cases r with
  | acquireLock key value expiration => exact h.leaves_idle trivial more rfl rfl nofun
  | releaseLock key value => exact h.leaves_idle trivial more rfl rfl nofun
  | lockValue => exact h.leaves_idle trivial more rfl rfl nofun
  | sleep milliseconds => exact h.leaves_idle trivial more rfl rfl nofun
  | httpGet url => exact h.leaves_idle trivial more rfl rfl nofun
  | signXml xml rncEmisor => exact h.leaves_idle trivial more rfl rfl nofun
  | httpPost url file =>
    refine h.leaves more rfl rfl nofun (fun brings => ?_) nofun
    obtain ⟨expira, issue⟩ := brings_reply brings
    obtain ⟨earlier, known⟩ := h.grown
    have issue : issuedWith ext i.http = some (token, expira) := issue
    refine ⟨earlier ++ (issuedWith ext i.http).toList, ?_, expira, ?_⟩
    · rw [← List.append_assoc, ← known]
      rfl
    · rw [issue]
      exact List.mem_append_right _ (List.mem_singleton_self _)
  | cacheGet key => exact False.elim plain
  | cacheSet key value expiration => exact False.elim plain
  | cacheRemove key => exact False.elim plain
  | lockRenew manager => exact False.elim plain
  | unlockRenew manager => exact False.elim plain
  | memory manager part => exact False.elim plain

/-- Nor do the requests of a call for a token, as long as a token of the cache is
kept only when it is another one. -/
theorem Gone.leaves_of_getToken (h : Gone ext c m token before logs t late p)
    (apart : renewalOf (logs u) = none) (asks : TokenAsks ext c m (p.thread u).log r)
    (keeps : r = .memory m (.adopt token) → Reissued token before p.world) :
    LeavesGone ext c m token before (Removes c (p.thread t).log) (late u)
      ⟨r, ((tokenHost ext).answer i p.world r).1⟩ ((tokenHost ext).answer i p.world r).2 := by
  have more := answer_issued ext i p.world r
  cases asks with
  | plain plain => exact h.leaves_of_plain plain
  | reads cached =>
    refine h.leaves more rfl rfl nofun (fun brings => absurd brings not_brings_hit)
      fun begun event => ?_
    have hit : (if i.miss then none else
        (p.world.pass i.elapsed).cache.lookup c.cacheKey (p.world.pass i.elapsed).clock) =
        some token := eq_of_heq (Event.mk.inj event).2
    split at hit
    · exact absurd hit nofun
    · obtain ⟨entry, here, -, same⟩ := lookup_eq_some.mp hit
      exact (h.cache ((h.late u begun).1 cached) entry here same).mono more
  | checks =>
    refine h.leaves more (by simp [tokenHost, answerAt, World.setMemory, sectionAnswer,
      World.pass]) rfl nofun (fun brings => ?_) nofun
    have valid : (sectionAnswer (p.world.pass i.elapsed).clock (p.world.managers m)
        .validMemoryToken).1 = some token := brings_memory brings
    exact (h.memory (validMemoryToken_eq_some valid).1).mono more
  | takes renewing =>
    refine h.leaves more (by simp [tokenHost, answerAt, World.setMemory, sectionAnswer,
      World.pass]) rfl nofun (fun brings => ?_) nofun
    exact (h.memory (brings_result brings)).mono more
  | locks outside =>
    exact h.leaves_idle trivial more (by simp [tokenHost, answerAt, World.setMemory, World.pass])
      rfl nofun
  | unlocks inside =>
    exact h.leaves_idle trivial more (by simp [tokenHost, answerAt, World.setMemory, World.pass])
      rfl nofun
  | adopts kept hit =>
    rename_i other
    refine ⟨fun same => ?_, fun brings => absurd brings (not_brings trivial),
      fun removed entry here same => (h.earlier removed nofun here same).mono more,
      fun _ event => absurd event (not_found trivial)⟩
    obtain rfl : other = token := by
      simpa [tokenHost, answerAt, World.setMemory, sectionAnswer] using same
    exact (keeps rfl).mono more
  | stores renewing issued =>
    rename_i other expira renewal
    obtain ⟨e, member, issue⟩ := issued
    refine ⟨fun same => ?_, fun brings => absurd brings (not_brings trivial),
      fun removed entry here same => (h.earlier removed nofun here same).mono more,
      fun _ event => absurd event (not_found trivial)⟩
    obtain rfl : other = token := by
      simpa [tokenHost, answerAt, World.setMemory, sectionAnswer] using same
    exact (h.since apart renewing member (.inr (.inr ⟨expira, issue⟩))).mono more
  | fills renewing took lasts =>
    rename_i renewal other ttlSeconds
    refine ⟨fun same => (h.memory same).mono more,
      fun brings => absurd brings (not_brings trivial), fun _ entry here same => ?_,
      fun _ event => absurd event (not_found trivial)⟩
    have put : entry.value = other := by
      have here := put_self.symm.trans here
      exact (congrArg Entry.value (Option.some.inj here)).symm
    obtain rfl := put.symm.trans same
    exact (h.since apart renewing took (.inl ⟨ttlSeconds, rfl⟩)).mono more

/-- **What a request leaves.** No request of a call brings the token back, as
long as a token of the cache is kept only when it is another one. -/
theorem Gone.leaves_of_asks (h : Gone ext c m token before logs t late p) (nonempty : token ≠ "")
    (apart : renewalOf (logs u) = none)
    (asks : CallAsks ext c m (p.thread u).operation (p.thread u).log r)
    (keeps : r = .memory m (.adopt token) → Reissued token before p.world) :
    LeavesGone ext c m token before (Removes c (p.thread t).log) (late u)
      ⟨r, ((tokenHost ext).answer i p.world r).1⟩ ((tokenHost ext).answer i p.world r).2 := by
  have more := answer_issued ext i p.world r
  generalize (p.thread u).operation = call at asks
  cases call with
  | getToken => exact h.leaves_of_getToken apart asks keeps
  | invalidate =>
    cases asks with
    | clears first =>
      refine ⟨fun same => ?_, fun brings => absurd brings (not_brings trivial),
        fun removed entry here same => (h.earlier removed nofun here same).mono more,
        fun _ event => absurd event (not_found trivial)⟩
      exact absurd (show token = "" from by
        simpa [tokenHost, answerAt, World.setMemory, sectionAnswer] using same.symm) nonempty
    | removes =>
      refine ⟨fun same => (h.memory same).mono more,
        fun brings => absurd brings (not_brings trivial), fun _ entry here => ?_,
        fun _ event => absurd event (not_found trivial)⟩
      exact absurd (erase_self.symm.trans here) nofun

/-- A move keeps no token of the cache but another one. -/
def KeepsOther (m : ℕ) (token : String) (before : World) (p : Calls) (move : Move Input) : Prop :=
  Pool.Next (fun _ r => r = Request.memory m (.adopt token) → Reissued token before p.world) p move

/-- **Step.** What is gone stays gone. -/
theorem Gone.move (h : Gone ext c m token before logs t late p) (verified : Verified ext c m p)
    (nonempty : token ≠ "") (apart : ∀ u, renewalOf (logs u) = none) {move : Move Input}
    (keeps : KeepsOther m token before p move) :
    Gone ext c m token before logs t late (p.move (tokenHost ext) move) := by
  cases move with
  | kill v =>
    have same : ∀ u, ((p.move (tokenHost ext) (.kill v)).thread u).log = (p.thread u).log :=
      Pool.log_kill _ p v
    refine ⟨h.grown, h.memory, fun u => ?_, fun removes => ?_, fun u begun => ?_⟩
    · rw [same]
      exact h.seen u
    · rw [same] at removes
      exact h.cache removes
    · rw [same, same]
      exact h.late u begun
  | step u i =>
    by_cases running : (p.thread u).Running
    · obtain ⟨r, next, rest⟩ := running
      exact h.step rest (h.leaves_of_asks nonempty (apart u) (verified.permitted rest)
        (keeps.ask rest))
    · rw [Pool.move_idle running]
      exact h

theorem Gone.play (h : Gone ext c m token before logs t late p) (verified : Verified ext c m p)
    (nonempty : token ≠ "") (apart : ∀ u, renewalOf (logs u) = none) {moves : List (Move Input)}
    (met : p.Meets (tokenHost ext) (KeepsOther m token before) moves) :
    Verified ext c m (p.play (tokenHost ext) moves) ∧
      Gone ext c m token before logs t late (p.play (tokenHost ext) moves) :=
  Pool.play_invariant
    (J := fun p => Verified ext c m p ∧ Gone ext c m token before logs t late p)
    (fun _ move both keeps => ⟨both.1.move move, both.2.move both.1 nonempty apart keeps⟩)
    ⟨verified, h⟩ met

/-- The call that clears memory is an invalidation, at its first step. -/
theorem clearing_asks {call : ManagerCall} (asks : CallAsks ext c m call log (clearing m)) :
    call = .invalidate ∧ log = [] := by
  cases call with
  | getToken =>
    cases asks with
    | plain plain => exact False.elim plain
  | invalidate =>
    cases asks with
    | clears first => exact ⟨rfl, first⟩

/-- **The clearing.** Just after it the token is gone. -/
theorem gone_of_clearing (verified : Verified ext c m p)
    {rest : (clearing m).Reply → Procedure (Option String)}
    (clears : (p.thread t).rest = .ask (clearing m) rest) (nonempty : token ≠ "") :
    let cleared := p.move (tokenHost ext) (.step t i)
    Gone ext c m token p.world (fun u => (cleared.thread u).log) t (fun _ => False) cleared := by
  obtain ⟨-, first⟩ := clearing_asks (verified.permitted clears)
  have world : (p.move (tokenHost ext) (.step t i)).world =
      ((tokenHost ext).answer i p.world (clearing m)).2 := by rw [Pool.move_step clears]
  refine ⟨⟨[], ?_⟩, fun same => ?_, fun u => ⟨[], (List.append_nil _).symm, nofun⟩,
    fun removes => ?_, fun u begun => begun.elim⟩
  · rw [world, List.append_nil]
    rfl
  · rw [world] at same
    exact absurd (show token = "" from by
      simpa [tokenHost, answerAt, World.setMemory, sectionAnswer] using same.symm) nonempty
  · rw [Pool.log_step clears, if_pos rfl, first] at removes
    obtain ⟨e, member, removed⟩ := removes
    rw [List.nil_append, List.mem_singleton] at member
    subst member
    exact absurd removed nofun

/-- A call that begins after the invalidation has returned cannot return the
token, unless DGII has issued it again. -/
theorem Gone.returned (h : Gone ext c m token before logs t late p) (verified : Verified ext c m p)
    (begun : late u) (fresh : logs u = [])
    (result : (p.thread u).result = some (some token)) : Reissued token before p.world := by
  have shows := verified.returned result
  generalize (p.thread u).operation = call at shows
  cases call with
  | invalidate => exact absurd shows.1 nofun
  | getToken =>
    obtain ⟨e, member, shown⟩ := shows token rfl
    obtain ⟨new, log, quiet⟩ := h.seen u
    have here : e ∈ new := by rwa [log, fresh] at member
    cases shown with
    | cache => exact (h.late u begun).2 member
    | memory => exact quiet _ here (.inr (.inl rfl))
    | renewal ttlSeconds => exact quiet _ here (.inl ⟨ttlSeconds, rfl⟩)

/-- **Effective invalidation.** In every schedule of any number of calls on one
manager that its renewal mutex allows, in which no call keeps an invalidated
token it found in the cache, invalidation is effective. -/
theorem invalidation_effective (ext : AuthenticationParsers) (c : Config) (m : ℕ)
    (calls : ℕ → ManagerCall) (w : World) (moves : List (Move Input))
    (allowed : (managerCalls ext c m calls w).Meets (tokenHost ext) (MutexAllows m) moves)
    (keeps : KeepsNoInvalidated ext c m (managerCalls ext c m calls w) moves) :
    InvalidationEffective ext c m (managerCalls ext c m calls w) moves := by
  rintro first t i between after rfl before clears returned done u unbegun last token current
    result
  obtain ⟨earlier, now, -⟩ := Pool.meets_append.mp allowed
  obtain ⟨verified, alone⟩ : Verified ext c m before ∧ OneRenewal m before :=
    Pool.play_invariant (J := fun p => Verified ext c m p ∧ OneRenewal m p)
      (fun _ move both allowed => ⟨both.1.move move, both.2.move both.1 allowed⟩)
      ⟨verified_start calls w, oneRenewal_start calls w⟩ earlier
  obtain ⟨rest, asks⟩ := Thread.rest_of_request clears
  have free : ∀ u, renewalOf (before.thread u).log = none := fun u => by
    refine Option.not_isSome_iff_eq_none.mp fun renews => ?_
    exact absurd ((alone.held u renews).symm.trans (now.ask asks rfl)) nofun
  have apart : ∀ u, renewalOf ((before.move (tokenHost ext) (.step t i)).thread u).log = none := by
    intro u
    rw [Pool.log_step asks]
    split
    · rw [renewalOf_neutral (show Neutral (clearing m) from trivial), free]
      rfl
    · exact free u
  have other : (before.move (tokenHost ext) (.step t i)).Meets (tokenHost ext)
      (KeepsOther m token before.world) (between ++ after) := by
    refine Pool.meets_of_split fun first' move rest split => ?_
    cases move with
    | kill v => trivial
    | step v j =>
      rintro r asks rfl
      exact keeps first t i first' v j rest (by rw [split]) clears token current asks
  obtain ⟨otherBetween, otherAfter⟩ := Pool.meets_append.mp other
  obtain ⟨verifiedThen, gone⟩ := (gone_of_clearing (i := i) verified asks current.1).play
    (verified.move _) current.1 apart otherBetween
  have removed : c.hasCache = true → Removes c (returned.thread t).log := by
    obtain ⟨value, result⟩ := Option.isSome_iff_exists.mp done
    have shows := verifiedThen.returned result
    have operation : (returned.thread t).operation = .invalidate := by
      rw [Pool.operation_play, Pool.operation_move]
      exact (clearing_asks (verified.permitted asks)).1
    rw [operation] at shows
    exact shows.2
  have begins : Gone ext c m token before.world
      (fun u => ((before.move (tokenHost ext) (.step t i)).thread u).log) t
      (fun u => (returned.thread u).log = []) returned :=
    { gone with late := fun v begins => ⟨removed, fun hit => by
        rw [begins] at hit
        exact absurd hit List.not_mem_nil⟩ }
  have fresh : ((before.move (tokenHost ext) (.step t i)).thread u).log = [] := by
    obtain ⟨new, log, -⟩ := gone.seen u
    exact (List.append_eq_nil_iff.mp (log.symm.trans unbegun)).1
  obtain ⟨verifiedLast, goneLast⟩ := begins.play verifiedThen current.1 apart otherAfter
  exact goneLast.returned verifiedLast unbegun fresh result

/-! ## A token kept after the clearing -/

/-- The request keeps a token of the cache. -/
def adopts : Request → Bool
  | .memory _ (.adopt _) => true
  | _ => false

/-- A move keeps no token of the cache once memory has been cleared. -/
def KeepsEarly (m : ℕ) (p : Calls) (move : Move Input) : Prop :=
  Pool.Next (fun _ r => adopts r = true → ∀ event ∈ p.history, event.2.request ≠ clearing m) p move

instance (m : ℕ) (p : Calls) (move : Move Input) : Decidable (KeepsEarly m p move) :=
  inferInstanceAs (Decidable (Pool.Next _ p move))

theorem keepsNoInvalidated_of_early {start : Calls} {moves : List (Move Input)}
    (met : start.Meets (tokenHost ext) (KeepsEarly m) moves) :
    KeepsNoInvalidated ext c m start moves := by
  rintro first t i between u j after rfl before clears later token - asks
  obtain ⟨-, -, met⟩ := Pool.meets_append.mp met
  obtain ⟨-, early, -⟩ := Pool.meets_append.mp met
  obtain ⟨rest, running⟩ := Thread.rest_of_request clears
  have cleared : (t, ⟨clearing m, ((tokenHost ext).answer i before.world (clearing m)).1⟩) ∈
      later.history := by
    refine Pool.history_play ?_ between
    rw [Pool.move_step running]
    exact List.mem_append_right _ (List.mem_singleton_self _)
  exact absurd rfl (early _ asks rfl _ cleared)

/-- One invalidation among calls of `getToken`. -/
def sampleCalls : ℕ → ManagerCall
  | 1 => .invalidate
  | _ => .getToken

/-- A token in memory and in the cache. -/
def sampleWorld : World where
  clock := 0
  cache := Table.empty.put sampleConfig.cacheKey ⟨"T1", some (50 * minute)⟩
  managers := fun _ => { cachedToken := "T1", tokenExpiry := 50 * minute }

/-- A call keeps the token before the invalidation; the next one renews it. -/
def sampleMoves : List (Move Input) :=
  [.step 0 {}, .step 0 {}, .step 1 {}, .step 1 {}] ++
    List.replicate 13 (.step 2 { http := { text := "T2" } })

theorem invalidation_effective_sample :
    InvalidationEffective sampleParsers sampleConfig 0
      (managerCalls sampleParsers sampleConfig 0 sampleCalls sampleWorld) sampleMoves :=
  invalidation_effective sampleParsers sampleConfig 0 sampleCalls sampleWorld sampleMoves
    (by decide +kernel) (keepsNoInvalidated_of_early (by decide +kernel))

/-- A call finds the token in the cache, the invalidation clears and removes it,
the call keeps it, and the next call finds it in memory. -/
theorem invalidated_token_returned :
    let moves := [.step 0 {}, .step 1 {}, .step 1 {}, .step 0 {}, .step 2 {}, .step 2 {}]
    let start := managerCalls sampleParsers sampleConfig 0 sampleCalls sampleWorld
    start.Meets (tokenHost sampleParsers) (MutexAllows 0) moves ∧
      ¬ InvalidationEffective sampleParsers sampleConfig 0 start moves := by
  intro moves start
  refine ⟨by decide +kernel, fun effective => ?_⟩
  obtain ⟨more, known, expira, member⟩ := effective [.step 0 {}] 1 {} [.step 1 {}]
    [.step 0 {}, .step 2 {}, .step 2 {}] rfl rfl rfl 2 rfl "T1" (by decide +kernel) rfl
  have none : more = [] := (List.append_right_eq_self.mp known.symm)
  rw [none] at member
  exact absurd member List.not_mem_nil

end EcfDgii.TokenInvalidation
