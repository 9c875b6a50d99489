import EcfDgii.Machines
import EcfDgii.TokenTrace

/-!
How long a token is handed out.

Managers that share a cache answer `getToken` one call after another; time
passes between calls.  A manager keeps a token it found in the cache for 50
minutes, whatever is left of the token's own life, and answers from memory while
more than five of them are left: 44 minutes.  So the tokens of a run are fresh
when every token that is kept so has 44 minutes to live, and DGII's expiry text
is not read as a later moment than it says (`tokens_are_fresh`).

`given` is the moment an expiry text names; nothing is assumed of it.
-/

set_option autoImplicit false

namespace EcfDgii.TokenFreshness

open EcfDgii.Timestamps EcfDgii.DgiiReplies EcfDgii.Programs EcfDgii.Execution EcfDgii.Machines
open EcfDgii.ExpiringTables EcfDgii.TokenManager EcfDgii.TokenTrace

/-! ## Runs -/

/-- A call of `getToken`: of which manager, after what time, in what
surroundings. -/
structure TokenCall where
  manager : ℕ
  elapsed : ℕ := 0
  inputs : ℕ → Input := fun _ => {}

/-- The run of a call; no time passes within it. -/
def callRun (ext : AuthenticationParsers) (config : ℕ → Config) (w : World) (call : TokenCall) :
    Run TokenApi String World :=
  (stillHost ext).run (fun n => some (call.inputs n)) (w.pass call.elapsed) []
    (getToken ext (config call.manager) call.manager)

/-- Calls one after another. -/
def managers (ext : AuthenticationParsers) (config : ℕ → Config) : Machine World TokenCall where
  step w call := (callRun ext config w call).world

/-- DGII has issued the token with an expiry not before a moment. -/
def LastsUntil (given : String → ℤ) (issued : List (String × String)) (token : String)
    (moment : ℤ) : Prop :=
  ∃ issue ∈ issued, issue.1 = token ∧ moment ≤ given issue.2
  deriving Decidable

/-- **Fresh tokens.** Every token a call of the run returns has not passed the
expiry DGII gave it. -/
def FreshTokens (ext : AuthenticationParsers) (config : ℕ → Config) (given : String → ℤ)
    (start : World) (calls : List TokenCall) : Prop :=
  ∀ before call rest, calls = before ++ call :: rest →
    let run := callRun ext config ((managers ext config).run start before) call
    ∀ token, run.outcome = .returned token → LastsUntil given run.world.issued token run.world.clock

/-- DGII issues in this call only tokens whose expiry lies ahead. -/
def IssuesAhead (ext : AuthenticationParsers) (config : ℕ → Config) (given : String → ℤ)
    (w : World) (call : TokenCall) : Prop :=
  ∀ e ∈ (callRun ext config w call).log, ∀ issue ∈ issueOf ext e,
    w.clock + call.elapsed < given issue.2
  deriving Decidable

/-- The token of the cache that an event keeps in memory. -/
def adoptedBy (m : ℕ) (e : Event TokenApi) : Option String :=
  match e.request with
  | .memory manager (.adopt token) => if manager = m then some token else none
  | _ => none

/-- A token that this call finds in the cache and keeps lives for 44 minutes. -/
def KeepsLasting (ext : AuthenticationParsers) (config : ℕ → Config) (given : String → ℤ)
    (w : World) (call : TokenCall) : Prop :=
  ∀ e ∈ (callRun ext config w call).log, ∀ token ∈ adoptedBy call.manager e,
    LastsUntil given w.issued token (w.clock + call.elapsed + 44 * minute)
  deriving Decidable

/-- The expiry of a renewed token as the manager keeps it. -/
def readExpiry (now : ℤ) (expira : String) : ℤ := (parseExpiry expira).getD (now + 60 * minute)

/-- The manager reads no expiry of this call as a later moment than it names. -/
def ReadsInTime (ext : AuthenticationParsers) (config : ℕ → Config) (given : String → ℤ)
    (w : World) (call : TokenCall) : Prop :=
  ∀ e ∈ (callRun ext config w call).log, ∀ issue ∈ issueOf ext e,
    readExpiry (w.clock + call.elapsed) issue.2 ≤ given issue.2
  deriving Decidable

/-! ## Whole units of time -/

/-- Truncation exceeds neither what it truncates nor zero. -/
theorem tdiv_mul_le {a b : ℤ} (positive : 0 < b) : a.tdiv b * b ≤ max a 0 := by
  by_cases sign : 0 ≤ a
  · rw [Int.tdiv_eq_ediv_of_nonneg sign, max_eq_left sign]
    exact Int.ediv_mul_le a (by omega)
  · have back : 0 ≤ (-a).tdiv b := Int.tdiv_nonneg (by omega) (by omega)
    rw [Int.neg_tdiv] at back
    rw [max_eq_right (by omega)]
    exact mul_nonpos_of_nonpos_of_nonneg (by omega) (by omega)

/-- More than five minutes are six. -/
theorem six_minutes {a : ℤ} (h : 5 < a.tdiv minute) : 6 * minute ≤ a := by
  have positive : 0 < minute := by decide
  have sixth : 6 * minute ≤ a.tdiv minute * minute :=
    mul_le_mul_of_nonneg_right (by omega) (by omega)
  rcases le_max_iff.mp (sixth.trans (tdiv_mul_le positive)) with h | h
  · exact h
  · omega

/-! ## The invariant -/

variable {ext : AuthenticationParsers} {c : Config} {m : ℕ} {given : String → ℤ} {now : ℤ}
  {w w' : World} {log : Log} {issued : List (String × String)} {token expira : String}

theorem LastsUntil.mono (h : LastsUntil given issued token now) {more : List (String × String)}
    (grown : ∀ issue ∈ issued, issue ∈ more) {moment : ℤ} (earlier : moment ≤ now) :
    LastsUntil given more token moment := by
  obtain ⟨issue, member, same, lasts⟩ := h
  exact ⟨issue, grown issue member, same, earlier.trans lasts⟩

/-- What the managers keep is answered only as long as it is fresh, and what the
cache holds is gone by then. -/
structure Safe (given : String → ℤ) (w : World) : Prop where
  memory : ∀ m, (w.managers m).cachedToken ≠ "" →
    LastsUntil given w.issued (w.managers m).cachedToken ((w.managers m).tokenExpiry - 6 * minute)
  cache : ∀ key e, w.cache key = some e →
    ∃ last, e.expiresAt = some last ∧ LastsUntil given w.issued e.value last

theorem Safe.grow (h : Safe given w) {more : List (String × String)}
    (grown : ∀ issue ∈ w.issued, issue ∈ more) : Safe given { w with issued := more } where
  memory m nonempty := (h.memory m nonempty).mono grown le_rfl
  cache key e found := by
    obtain ⟨last, expires, lasts⟩ := h.cache key e found
    exact ⟨last, expires, lasts.mono grown le_rfl⟩

theorem Safe.setMemory (h : Safe given w) {memory : Memory}
    (kept : memory.cachedToken ≠ "" →
      LastsUntil given w.issued memory.cachedToken (memory.tokenExpiry - 6 * minute)) :
    Safe given (w.setMemory m memory) where
  memory m' := by
    by_cases same : m' = m
    · subst same
      simpa [World.setMemory] using kept
    · simpa [World.setMemory, Function.update_of_ne same] using h.memory m'
  cache := h.cache

theorem Safe.put (h : Safe given w) {key : String} {last : ℤ}
    (lasts : LastsUntil given w.issued token last) :
    Safe given { w with cache := w.cache.put key ⟨token, some last⟩ } where
  memory := h.memory
  cache key' e found := by
    by_cases same : key' = key
    · subst same
      obtain rfl := Option.some.inj (put_self.symm.trans found)
      exact ⟨last, rfl, lasts⟩
    · exact h.cache key' e ((put_other same).symm.trans found)

/-- A token just renewed, as memory holds it. -/
structure Renewed (given : String → ℤ) (w : World) (m : ℕ) (token expira : String) : Prop where
  cached : (w.managers m).cachedToken = token
  expiry : (w.managers m).tokenExpiry ≤ given expira
  issued : (token, expira) ∈ w.issued
  ahead : w.clock < given expira

/-- A call under way: the world is safe, and what it has seen is fresh. -/
structure Fresh (ext : AuthenticationParsers) (c : Config) (m : ℕ) (given : String → ℤ)
    (issued : List (String × String)) (now : ℤ) (log : Log) (w : World) : Prop where
  safe : Safe given w
  clock : w.clock = now
  grown : ∀ issue ∈ issued, issue ∈ w.issued
  shown : ∀ token, TokenSource c m log token → LastsUntil given w.issued token now
  took : ∀ token ttlSeconds, taken m token ttlSeconds ∈ log →
    LastsUntil given w.issued token (now + ttlSeconds * second)
  issues : ∀ e ∈ log, ∀ issue ∈ issueOf ext e,
    issue ∈ w.issued ∧ now < given issue.2 ∧ readExpiry now issue.2 ≤ given issue.2
  renewed : ∀ before token expira, renewalOf log = some (before ++ [stored m token expira]) →
    Renewed given w m token expira

/-- The last event of a renewal that has just stored a token. -/
theorem stored_last {before : Log} {e : Event TokenApi}
    (renewing : renewalOf (log ++ [e]) = some (before ++ [stored m token expira])) :
    e = stored m token expira := by
  rw [renewalOf_append] at renewing
  unfold renewalStep at renewing
  split at renewing
  · exact absurd (Option.some.inj renewing).symm (by simp)
  · exact absurd renewing nofun
  · obtain ⟨renewal, -, same⟩ := Option.map_eq_some_iff.mp renewing
    exact List.singleton_inj.mp (List.append_inj' same rfl).2

/-- What one event has to add. -/
theorem Fresh.append (h : Fresh ext c m given issued now log w) {e : Event TokenApi}
    (safe : Safe given w') (clock : w'.clock = w.clock)
    (grown : ∀ issue ∈ w.issued, issue ∈ w'.issued)
    (shown : ∀ token, Shows c m token e → LastsUntil given w'.issued token now)
    (took : ∀ token ttlSeconds, e = taken m token ttlSeconds →
      LastsUntil given w'.issued token (now + ttlSeconds * second))
    (issues : ∀ issue ∈ issueOf ext e, issue ∈ w'.issued ∧ now < given issue.2 ∧
      readExpiry now issue.2 ≤ given issue.2)
    (renewed : ∀ token expira, e = stored m token expira → Renewed given w' m token expira) :
    Fresh ext c m given issued now (log ++ [e]) w' where
  safe := safe
  clock := clock.trans h.clock
  grown issue member := grown issue (h.grown issue member)
  shown token source := by
    obtain ⟨e', member, shows⟩ := source
    rcases List.mem_append.mp member with old | new
    · exact (h.shown token ⟨e', old, shows⟩).mono grown le_rfl
    · exact shown token (List.mem_singleton.mp new ▸ shows)
  took token ttlSeconds member := by
    rcases List.mem_append.mp member with old | new
    · exact (h.took token ttlSeconds old).mono grown le_rfl
    · exact took token ttlSeconds (List.mem_singleton.mp new).symm
  issues e' member issue issues' := by
    rcases List.mem_append.mp member with old | new
    · obtain ⟨known, ahead, read⟩ := h.issues e' old issue issues'
      exact ⟨grown _ known, ahead, read⟩
    · exact issues issue (List.mem_singleton.mp new ▸ issues')
  renewed before token expira renewing := renewed token expira (stored_last renewing)

/-- Requests that neither show nor issue nor store a token. -/
def Quiet : Request → Prop
  | .cacheGet _ | .httpPost .. | .memory _ .validMemoryToken | .memory _ .takeResult
  | .memory _ (.storeRenewed ..) => False
  | _ => True

theorem Fresh.quiet (h : Fresh ext c m given issued now log w) {r : Request} {x : r.Reply}
    (quiet : Quiet r) (safe : Safe given w') (clock : w'.clock = w.clock)
    (same : w'.issued = w.issued) :
    Fresh ext c m given issued now (log ++ [⟨r, x⟩]) w' := by
  refine h.append safe clock (fun issue member => same ▸ member) (fun token shows => ?_)
    (fun token ttlSeconds eq => ?_) (fun issue issues => ?_) (fun token expira eq => ?_)
  · generalize event : (⟨r, x⟩ : Event TokenApi) = e at shows
    cases shows <;> (obtain rfl := congrArg Event.request event; exact quiet.elim)
  · obtain rfl := congrArg Event.request eq
    exact quiet.elim
  · cases r with
    | httpPost url file => exact False.elim quiet
    | _ => exact absurd issues nofun
  · obtain rfl := congrArg Event.request eq
    exact quiet.elim

/-- The token of an event, in terms of its answer. -/
theorem shows_reply {r : Request} {x : r.Reply} (shows : Shows c m token ⟨r, x⟩) :
    (⟨r, x⟩ : Event TokenApi) = found c token ∨ (⟨r, x⟩ : Event TokenApi) = inMemory m token ∨
      ∃ ttlSeconds, (⟨r, x⟩ : Event TokenApi) = taken m token ttlSeconds := by
  generalize (⟨r, x⟩ : Event TokenApi) = e at shows
  cases shows with
  | cache => exact .inl rfl
  | memory => exact .inr (.inl rfl)
  | renewal ttlSeconds => exact .inr (.inr ⟨ttlSeconds, rfl⟩)

/-- What the surroundings have to grant an event. -/
structure Granted (ext : AuthenticationParsers) (m : ℕ) (given : String → ℤ)
    (issued : List (String × String)) (now : ℤ) (e : Event TokenApi) : Prop where
  adopts : ∀ token ∈ adoptedBy m e, LastsUntil given issued token (now + 44 * minute)
  issues : ∀ issue ∈ issueOf ext e,
    now < given issue.2 ∧ readExpiry now issue.2 ≤ given issue.2

/-- A plain request shows no token, and what it has issued is granted. -/
theorem Fresh.step_plain (h : Fresh ext c m given issued now log w) {r : Request} {i : Input}
    (plain : Plain r) (granted : Granted ext m given issued now ⟨r, (answerAt ext i w r).1⟩) :
    Fresh ext c m given issued now (log ++ [⟨r, (answerAt ext i w r).1⟩])
      (answerAt ext i w r).2 := by
  cases r with
  | acquireLock key value expiration => exact h.quiet trivial h.safe rfl rfl
  | releaseLock key value => exact h.quiet trivial h.safe rfl rfl
  | lockValue => exact h.quiet trivial h.safe rfl rfl
  | sleep milliseconds => exact h.quiet trivial h.safe rfl rfl
  | httpGet url => exact h.quiet trivial h.safe rfl rfl
  | signXml xml rncEmisor => exact h.quiet trivial h.safe rfl rfl
  | httpPost url file =>
    have grown : ∀ issue ∈ w.issued, issue ∈ w.issued ++ (issuedWith ext i.http).toList :=
      fun issue member => List.mem_append_left _ member
    refine h.append (h.safe.grow grown) rfl grown nofun nofun (fun issue issues => ?_) nofun
    obtain ⟨ahead, read⟩ := granted.issues issue issues
    have issues : issue ∈ issuedWith ext i.http := issues
    exact ⟨List.mem_append_right _ (Option.mem_toList.mpr issues), ahead, read⟩
  | cacheGet key => exact plain.elim
  | cacheSet key value expiration => exact plain.elim
  | cacheRemove key => exact plain.elim
  | lockRenew manager => exact plain.elim
  | unlockRenew manager => exact plain.elim
  | memory manager part => exact plain.elim

/-- **Step.** What `getToken` may ask keeps the world safe and what it has seen
fresh. -/
theorem Fresh.step (h : Fresh ext c m given issued now log w) {r : Request} {i : Input}
    (asks : TokenAsks ext c m log r)
    (granted : Granted ext m given issued now ⟨r, (answerAt ext i w r).1⟩) :
    Fresh ext c m given issued now (log ++ [⟨r, (answerAt ext i w r).1⟩])
      (answerAt ext i w r).2 := by
  cases asks with
  | plain plain => exact h.step_plain plain granted
  | locks outside =>
    exact h.quiet trivial (h.safe.setMemory (h.safe.memory m)) rfl rfl
  | unlocks inside =>
    exact h.quiet trivial (h.safe.setMemory (h.safe.memory m)) rfl rfl
  | reads cached =>
    refine h.append h.safe rfl (fun _ member => member) (fun token shows => ?_) nofun nofun nofun
    rcases shows_reply shows with event | event | ⟨ttlSeconds, event⟩
    · have hit : (if i.miss then none else w.cache.lookup c.cacheKey w.clock) = some token :=
        eq_of_heq (Event.mk.inj event).2
      split at hit
      · exact absurd hit nofun
      · obtain ⟨e, here, live, rfl⟩ := lookup_eq_some.mp hit
        obtain ⟨last, expires, lasts⟩ := h.safe.cache _ e here
        exact lasts.mono (fun _ member => member) (h.clock ▸ live last expires)
    · exact absurd event nofun
    · exact absurd event nofun
  | checks =>
    refine h.append (h.safe.setMemory (h.safe.memory m)) rfl (fun _ member => member)
      (fun token shows => ?_) nofun nofun nofun
    rcases shows_reply shows with event | event | ⟨ttlSeconds, event⟩
    · exact absurd event nofun
    · have valid : (sectionAnswer w.clock (w.managers m) .validMemoryToken).1 = some token :=
        eq_of_heq (Event.mk.inj event).2
      obtain ⟨rfl, nonempty, usable⟩ := validMemoryToken_eq_some valid
      have left := six_minutes usable
      have clock := h.clock
      exact (h.safe.memory m nonempty).mono (fun _ member => member) (by omega)
    · exact absurd event nofun
  | adopts nonempty hit =>
    refine h.quiet trivial (h.safe.setMemory fun _ => ?_) rfl rfl
    have clock := h.clock
    refine (granted.adopts _ (if_pos rfl)).mono h.grown ?_
    show w.clock + 50 * minute - 6 * minute ≤ now + 44 * minute
    omega
  | stores renewing issue =>
    rename_i token expira renewal
    obtain ⟨e, member, issue⟩ := issue
    obtain ⟨known, ahead, read⟩ := h.issues e (mem_of_renewal renewing member) _ issue
    have clock := h.clock
    have kept : readExpiry w.clock expira ≤ given expira := clock ▸ read
    refine h.append (h.safe.setMemory fun _ => ⟨_, known, rfl, ?_⟩) rfl (fun _ member => member)
      nofun nofun nofun fun token' expira' eq => ?_
    · have positive : 0 < minute := by decide
      show readExpiry w.clock expira - 6 * minute ≤ given expira
      omega
    · obtain ⟨rfl, rfl⟩ : token = token' ∧ expira = expira' := by
        have same := congrArg Event.request eq
        simpa [stored] using same
      exact ⟨by simp [answerAt, sectionAnswer, World.setMemory],
        by simpa [answerAt, sectionAnswer, World.setMemory, readExpiry] using kept, known,
        clock ▸ ahead⟩
  | takes renewing =>
    rename_i before stored expira
    obtain ⟨cached, expiry, known, ahead⟩ := h.renewed before stored expira renewing
    have clock := h.clock
    have lasts : ∀ moment ≤ given expira,
        LastsUntil given w.issued (w.managers m).cachedToken moment :=
      fun moment bound => ⟨_, known, cached.symm, bound⟩
    refine h.append (h.safe.setMemory (h.safe.memory m)) rfl (fun _ member => member)
      (fun token shows => ?_) (fun token ttlSeconds event => ?_) nofun nofun
    · rcases shows_reply shows with event | event | ⟨ttlSeconds, event⟩
      · exact absurd event nofun
      · exact absurd event nofun
      · have took : ((w.managers m).cachedToken,
            ((w.managers m).tokenExpiry - w.clock).tdiv second) = (token, ttlSeconds) :=
          eq_of_heq (Event.mk.inj event).2
        obtain ⟨rfl, -⟩ := Prod.mk.inj took
        exact lasts now (by omega)
    · have took : ((w.managers m).cachedToken,
          ((w.managers m).tokenExpiry - w.clock).tdiv second) = (token, ttlSeconds) :=
        eq_of_heq (Event.mk.inj event).2
      obtain ⟨rfl, rfl⟩ := Prod.mk.inj took
      have bound := tdiv_mul_le (a := (w.managers m).tokenExpiry - w.clock) (b := second)
        (by decide)
      exact lasts _ (by omega)
  | fills renewing took lasts =>
    have lasting := h.took _ _ (mem_of_renewal renewing took)
    rw [← h.clock] at lasting
    exact h.quiet trivial (h.safe.put lasting) rfl rfl

/-! ## Whole runs -/

theorem Safe.pass (h : Safe given w) (elapsed : ℕ) : Safe given (w.pass elapsed) :=
  ⟨h.memory, h.cache⟩

/-- What the conditions on a call say of its events. -/
theorem granted_of {config : ℕ → Config} {call : TokenCall}
    (ahead : IssuesAhead ext config given w call)
    (lasting : KeepsLasting ext config given w call) (read : ReadsInTime ext config given w call) :
    Along (fun _ e => Granted ext call.manager given w.issued (w.clock + call.elapsed) e)
      (callRun ext config w call).log := by
  intro before e cut
  have member : e ∈ (callRun ext config w call).log :=
    cut.subset (List.mem_append_right _ (List.mem_singleton_self _))
  exact ⟨lasting e member, fun issue issues =>
    ⟨ahead e member issue issues, read e member issue issues⟩⟩

/-- **Call.** From a safe world, a call that meets the conditions ends in a safe
world, and the token it returns is fresh. -/
theorem call_fresh {config : ℕ → Config} {call : TokenCall} (safe : Safe given w)
    (ahead : IssuesAhead ext config given w call)
    (lasting : KeepsLasting ext config given w call) (read : ReadsInTime ext config given w call) :
    let run := callRun ext config w call
    Safe given run.world ∧
      ∀ token, run.outcome = .returned token →
        LastsUntil given run.world.issued token run.world.clock := by
  have initial : Fresh ext (config call.manager) call.manager given w.issued
      (w.clock + call.elapsed) [] (w.pass call.elapsed) :=
    ⟨safe.pass _, rfl, fun _ member => member, fun _ source => absurd source (by simp [TokenSource]),
      nofun, nofun, nofun⟩
  obtain ⟨fresh, result⟩ := Host.run_sound (h := stillHost ext)
    (J := Fresh ext (config call.manager) call.manager given w.issued (w.clock + call.elapsed))
    (C := fun _ e => Granted ext call.manager given w.issued (w.clock + call.elapsed) e)
    (fun _ _ _ _ asks h granted => h.step asks granted)
    (getToken_asks ext (config call.manager) call.manager) initial (granted_of ahead lasting read)
  intro run
  refine ⟨fresh.safe, fun token returned => ?_⟩
  have source : TokenSource (config call.manager) call.manager run.log token := by
    have result : run.outcome.Satisfies _ _ := result
    rw [returned] at result
    exact result
  rw [show run.world.clock = _ from fresh.clock]
  exact fresh.shown token source

/-! ## A token kept for too long -/

/-- Nothing kept from the cache yet. -/
def NothingKept (m : ℕ) (log : Log) : Prop := ∀ e ∈ log, adoptedBy m e = none

/-- Keeping a token is the last thing a call does, and such a call has not asked
DGII for one. -/
def KeepsLast (ext : AuthenticationParsers) (m : ℕ) (log : Log) (r : Request) : Prop :=
  NothingKept m log ∧
    ∀ token, r = .memory m (.adopt token) → ∀ e ∈ log, issueOf ext e = none

/-- Requests before a token is kept. -/
def BeforeKeeping : Request → Prop
  | .httpPost .. | .memory _ (.adopt _) => False
  | _ => True

/-- Requests of a renewal. -/
def Renewing : Request → Prop
  | .memory _ (.adopt _) => False
  | _ => True

/-- Neither kept nor issued. -/
def Untouched (ext : AuthenticationParsers) (m : ℕ) (log : Log) : Prop :=
  NothingKept m log ∧ ∀ e ∈ log, issueOf ext e = none

theorem renewing_of_before {r : Request} (before : BeforeKeeping r) : Renewing r := by
  cases r with
  | memory manager part =>
    cases part with
    | adopt token => exact before
    | _ => trivial
  | _ => trivial

theorem adoptedBy_renewing {e : Event TokenApi} (renewing : Renewing e.request) :
    adoptedBy m e = none := by
  obtain ⟨r, x⟩ := e
  cases r with
  | memory manager part =>
    cases part with
    | adopt token => exact False.elim renewing
    | _ => rfl
  | _ => rfl

theorem issueOf_before {e : Event TokenApi} (before : BeforeKeeping e.request) :
    issueOf ext e = none := by
  obtain ⟨r, x⟩ := e
  cases r with
  | httpPost url file => exact False.elim before
  | _ => rfl

theorem Untouched.append (h : Untouched ext m log) {e : Event TokenApi}
    (before : BeforeKeeping e.request) : Untouched ext m (log ++ [e]) := by
  refine ⟨fun e' member => ?_, fun e' member => ?_⟩
  · rcases List.mem_append.mp member with old | new
    · exact h.1 e' old
    · exact List.mem_singleton.mp new ▸ adoptedBy_renewing (renewing_of_before before)
  · rcases List.mem_append.mp member with old | new
    · exact h.2 e' old
    · exact List.mem_singleton.mp new ▸ issueOf_before before

/-- A call that ends as it should. -/
abbrev Ends {α : Type} (ext : AuthenticationParsers) (m : ℕ) (log : Log)
    (post : Log → α → Prop) (p : Procedure α) : Prop :=
  p.Follows (.logging (KeepsLast ext m)) post (fun _ _ => True) log

theorem ends_of_before {α : Type} {p : Procedure α} (before : p.Only BeforeKeeping)
    (untouched : Untouched ext m log) :
    Ends ext m log (fun b _ => Untouched ext m b) p := by
  induction p generalizing log with
  | done value => exact untouched
  | throw error => trivial
  | ask r next ih =>
    refine (follows_logging_ask (I := TokenApi) r next).mpr ⟨⟨untouched.1, ?_⟩, fun x =>
      ih x (before.2 x) (untouched.append before.1)⟩
    rintro token rfl
    exact False.elim before.1

theorem ends_of_renewing {α : Type} {p : Procedure α} (renewing : p.Only Renewing)
    (nothing : NothingKept m log) : Ends ext m log (fun _ _ => True) p := by
  induction p generalizing log with
  | done value => trivial
  | throw error => trivial
  | ask r next ih =>
    refine (follows_logging_ask (I := TokenApi) r next).mpr ⟨⟨nothing, ?_⟩, fun x =>
      ih x (renewing.2 x) fun e member => ?_⟩
    · rintro token rfl
      exact False.elim renewing.1
    · rcases List.mem_append.mp member with old | new
      · exact nothing e old
      · exact List.mem_singleton.mp new ▸ adoptedBy_renewing renewing.1

theorem cachedToken_before : (cachedToken c).Only BeforeKeeping := by
  refine ⟨trivial, fun (x : Option String) => ?_⟩
  cases x with
  | none => trivial
  | some token => exact Program.only_done _

theorem pollCache_before (attempts : ℕ) : (pollCache c attempts).Only BeforeKeeping := by
  induction attempts with
  | zero => trivial
  | succ attempts ih =>
    refine ⟨trivial, fun _ => cachedToken_before.bind fun result => ?_⟩
    cases result with
    | none => exact ih
    | some token => trivial

theorem releaseDistLock_renewing (lockValue : String) (acquired : Bool) :
    (releaseDistLock c lockValue acquired).Only Renewing := by
  unfold releaseDistLock
  cases acquired with
  | false => trivial
  | true => exact ⟨trivial, fun _ => trivial⟩

theorem guardedRenewal_renewing (lockValue : String) (acquired : Bool) :
    (guardedRenewal ext c m lockValue acquired).Only Renewing := by
  have release : ∀ token : String, (do
      releaseDistLock c lockValue acquired
      return token : Procedure String).Only Renewing :=
    fun token => (releaseDistLock_renewing lockValue acquired).bind fun _ => trivial
  have renewal : (renewToken ext c m).Only Renewing := by
    refine ⟨trivial, fun seedResp => (Program.only_raise _).bind fun _ => ?_⟩
    refine ⟨trivial, fun signed => (Program.only_raise _).bind fun _ => ?_⟩
    refine ⟨trivial, fun validateResp => (Program.only_raise _).bind fun _ => ?_⟩
    exact ⟨trivial, fun _ => trivial⟩
  have body : (renewSection ext c m lockValue acquired).Only Renewing := by
    refine ⟨trivial, fun (valid : Option String) => ?_⟩
    cases valid with
    | some token => exact release token
    | none =>
      refine renewal.bind fun _ => ⟨trivial, fun (result : String × ℤ) => ?_⟩
      exact .ite (fun _ => ⟨trivial, fun _ => release _⟩) fun _ => release _
  refine ⟨trivial, fun _ => (body.tryCatch fun e => ?_).bind fun _ => ⟨trivial, fun _ => trivial⟩⟩
  exact ⟨trivial, fun _ => (releaseDistLock_renewing lockValue acquired).bind fun _ => trivial⟩

theorem adopt_ends (untouched : Untouched ext m log) :
    Ends ext m log (fun _ _ => True) (adopt m token) :=
  (follows_logging_bind (I := TokenApi) _ _).mpr
    ⟨⟨untouched.1, fun _ _ => untouched.2⟩, fun _ => trivial⟩

theorem getToken_ends (ext : AuthenticationParsers) (c : Config) (m : ℕ) :
    Ends ext m [] (fun _ _ => True) (getToken ext c m) := by
  have renew : ∀ {b : Log}, Untouched ext m b → ∀ lockValue acquired,
      Ends ext m b (fun _ _ => True) (guardedRenewal ext c m lockValue acquired) :=
    fun untouched lockValue acquired =>
      ends_of_renewing (guardedRenewal_renewing lockValue acquired) untouched.1
  have start : Untouched ext m [] := ⟨nofun, nofun⟩
  have look : ∀ {b : Log}, Untouched ext m b →
      Ends ext m b (fun b _ => Untouched ext m b) (cachedToken c) :=
    fun untouched => ends_of_before cachedToken_before untouched
  have one : ∀ {b : Log} {r : Request} {k : r.Reply → Procedure String}, Untouched ext m b →
      BeforeKeeping r → (∀ x, Untouched ext m (b ++ [⟨r, x⟩]) →
        Ends ext m (b ++ [⟨r, x⟩]) (fun _ _ => True) (k x)) →
      Ends ext m b (fun _ _ => True) (ask r >>= k) := by
    intro b r k untouched before rest
    refine (follows_logging_bind (I := TokenApi) _ _).mpr ⟨⟨untouched.1, ?_⟩, fun x =>
      rest x (untouched.append before)⟩
    rintro token rfl
    exact False.elim before
  have cached : ∀ {b : Log} (lockValue : String), Untouched ext m b →
      Ends ext m b (fun _ _ => True) (renewWithCache ext c m lockValue) := by
    intro b lockValue untouched
    unfold renewWithCache
    refine one untouched trivial fun (granted : Bool) untouched => ?_
    cases granted with
    | true =>
      refine (look untouched).bind fun b result untouched => ?_
      cases result with
      | none => exact renew untouched lockValue true
      | some token => exact one untouched trivial fun _ untouched => adopt_ends untouched
    | false =>
      refine (ends_of_before (pollCache_before 12) untouched).bind fun b result untouched => ?_
      cases result with
      | some token => exact adopt_ends untouched
      | none =>
        refine one untouched trivial fun (granted : Bool) untouched => ?_
        cases granted with
        | true => exact renew untouched lockValue true
        | false =>
          refine (look untouched).bind fun b result untouched => ?_
          cases result with
          | some token => exact adopt_ends untouched
          | none => trivial
  have memory : ∀ {b : Log}, Untouched ext m b →
      Ends ext m b (fun _ _ => True) (tokenFromMemory ext c m) := by
    intro b untouched
    unfold tokenFromMemory
    refine one untouched trivial fun (valid : Option String) untouched => ?_
    cases valid with
    | some token => trivial
    | none =>
      refine one untouched trivial fun (lockValue : String) untouched => ?_
      exact .ite (fun _ => cached lockValue untouched) fun _ => renew untouched lockValue false
  unfold getToken
  refine .ite (fun _ => (look start).bind fun b result untouched => ?_) fun _ => memory start
  cases result with
  | some token => exact adopt_ends untouched
  | none => exact memory untouched

theorem answerAt_clock (i : Input) (w : World) (r : Request) : (answerAt ext i w r).2.clock = w.clock := by
  cases r <;> rfl

theorem answerAt_issued (i : Input) (w : World) (r : Request)
    (nothing : issueOf ext ⟨r, (answerAt ext i w r).1⟩ = none) :
    (answerAt ext i w r).2.issued = w.issued := by
  cases r with
  | httpPost url file =>
    have nothing : issuedWith ext i.http = none := nothing
    simp only [answerAt, nothing, Option.toList_none, List.append_nil]
  | _ => rfl

theorem adoptedBy_eq_some {r : Request} {x : r.Reply} (kept : adoptedBy m ⟨r, x⟩ = some token) :
    r = .memory m (.adopt token) := by
  unfold adoptedBy at kept
  split at kept
  · next manager t same =>
    by_cases here : manager = m
    · rw [if_pos here] at kept
      exact same.trans (by rw [here, Option.some.inj kept])
    · rw [if_neg here] at kept
      exact absurd kept nofun
  · exact absurd kept nofun

/-- A call that keeps a token of the cache leaves it in memory for 50 minutes,
and DGII has issued nothing. -/
structure LeavesKept (m : ℕ) (now : ℤ) (issued : List (String × String)) (token : String)
    (w : World) : Prop where
  cached : (w.managers m).cachedToken = token
  expiry : (w.managers m).tokenExpiry = now + 50 * minute
  issued : w.issued = issued

/-- What is true of a call under way: nothing issued, nothing new with DGII; and
what is kept is in memory. -/
structure Keeping (ext : AuthenticationParsers) (m : ℕ) (now : ℤ) (issued : List (String × String))
    (log : Log) (w : World) : Prop where
  clock : w.clock = now
  quiet : (∀ e ∈ log, issueOf ext e = none) → w.issued = issued
  held : ∀ e ∈ log, ∀ token ∈ adoptedBy m e, LeavesKept m now issued token w

theorem Keeping.step (h : Keeping ext m now issued log w) {r : Request} {i : Input}
    (asks : KeepsLast ext m log r) :
    Keeping ext m now issued (log ++ [⟨r, (answerAt ext i w r).1⟩]) (answerAt ext i w r).2 where
  clock := (answerAt_clock i w r).trans h.clock
  quiet nothing :=
    (answerAt_issued i w r
      (nothing _ (List.mem_append_right _ (List.mem_singleton_self _)))).trans
      (h.quiet fun e member => nothing e (List.mem_append_left _ member))
  held e member token kept := by
    rcases List.mem_append.mp member with old | new
    · exact absurd ((asks.1 e old).symm.trans kept) nofun
    · rw [List.mem_singleton.mp new] at kept
      obtain rfl := adoptedBy_eq_some kept
      refine ⟨?_, ?_, h.quiet (asks.2 token rfl)⟩
      · simp [answerAt, sectionAnswer, World.setMemory]
      · simp [answerAt, sectionAnswer, World.setMemory, h.clock]

theorem kept_world {config : ℕ → Config} {call : TokenCall} {e : Event TokenApi}
    (member : e ∈ (callRun ext config w call).log) (kept : adoptedBy call.manager e = some token) :
    LeavesKept call.manager (w.clock + call.elapsed) w.issued token (callRun ext config w call).world ∧
      (callRun ext config w call).world.clock = w.clock + call.elapsed := by
  have initial : Keeping ext call.manager (w.clock + call.elapsed) w.issued []
      (w.pass call.elapsed) := ⟨rfl, fun _ => rfl, nofun⟩
  obtain ⟨h, -⟩ := Host.run_keeps (h := stillHost ext)
    (J := Keeping ext call.manager (w.clock + call.elapsed) w.issued)
    (fun _ _ _ _ asks h => h.step asks) (getToken_ends ext (config call.manager) call.manager)
    initial
  exact ⟨h.held e member token kept, h.clock⟩

theorem adopted_nonempty {config : ℕ → Config} {call : TokenCall} {e : Event TokenApi}
    (member : e ∈ (callRun ext config w call).log) (kept : adoptedBy call.manager e = some token) :
    token ≠ "" := by
  have step : ∀ (log : Log) (v : World) r (i : Input),
      TokenAsks ext (config call.manager) call.manager log r →
      (∀ e ∈ log, ∀ token ∈ adoptedBy call.manager e, token ≠ "") →
      ∀ e ∈ log ++ [⟨r, ((stillHost ext).answer i v r).1⟩],
        ∀ token ∈ adoptedBy call.manager e, token ≠ "" := by
    intro log v r i asks h e member token kept
    rcases List.mem_append.mp member with old | new
    · exact h e old token kept
    · rw [List.mem_singleton.mp new] at kept
      obtain rfl := adoptedBy_eq_some kept
      cases asks with
      | plain plain => exact False.elim plain
      | adopts nonempty hit => exact nonempty
  obtain ⟨nonempty, -⟩ := Host.run_keeps (h := stillHost ext) (w := w.pass call.elapsed) step
    (getToken_asks ext (config call.manager) call.manager) nofun
  exact nonempty e member token kept

/-- A call 44 minutes later, whose look into the cache misses. -/
def lateCall (m : ℕ) : TokenCall :=
  { manager := m, elapsed := 44 * 60 * second, inputs := fun _ => { miss := true } }

theorem request_run {α : Type} (r : Request) {k : r.Reply → Procedure α} {i : Input} {x : r.Reply}
    {v : World} (answered : (stillHost ext).answer i w r = (x, v)) :
    (stillHost ext).run (fun _ => some i) w log (ask r >>= k) =
      (stillHost ext).run (fun _ => some i) v (log ++ [⟨r, x⟩]) (k x) := by
  rw [Host.run_perform_bind, answered]

/-- A call that finds memory valid. -/
theorem memory_run {i : Input}
    (valid : (sectionAnswer w.clock (w.managers m) .validMemoryToken).1 = some token) :
    ∃ log', (stillHost ext).run (fun _ => some i) w log (tokenFromMemory ext c m) =
      ⟨.returned token, log', w.setMemory m (w.managers m)⟩ := by
  have answered : (stillHost ext).answer i w (.memory m .validMemoryToken) =
      ((some token : Option String), w.setMemory m (w.managers m)) := by
    rw [← valid]
    rfl
  exact ⟨_, request_run (.memory m .validMemoryToken) answered⟩

/-- It answers from memory. -/
theorem late_run {config : ℕ → Config} (nonempty : (w.managers m).cachedToken ≠ "")
    (expiry : (w.managers m).tokenExpiry = w.clock + 50 * minute) :
    ∃ log v, callRun ext config w (lateCall m) = ⟨.returned (w.managers m).cachedToken, log, v⟩ ∧
      v.issued = w.issued ∧ v.clock = w.clock + 44 * minute := by
  have later : (w.pass (44 * 60 * second)).clock = w.clock + 44 * minute := by
    simp only [World.pass, minute, Nat.cast_mul, Nat.cast_ofNat]
    ring
  have valid : (sectionAnswer (w.pass (44 * 60 * second)).clock
      ((w.pass (44 * 60 * second)).managers m) .validMemoryToken).1 =
      some (w.managers m).cachedToken := by
    have left : w.clock + 50 * minute - (w.clock + 44 * minute) = 6 * minute := by ring
    rw [later]
    show (if (w.managers m).cachedToken ≠ "" ∧ 5 < ((w.managers m).tokenExpiry -
      (w.clock + 44 * minute)).tdiv minute then some (w.managers m).cachedToken else none) = _
    rw [expiry, left]
    exact if_pos ⟨nonempty, by decide⟩
  show ∃ log v, (stillHost ext).run (fun _ => some { miss := true }) (w.pass (44 * 60 * second)) []
    (getToken ext (config m) m) = _ ∧ _
  unfold getToken
  by_cases cached : (config m).hasCache = true
  · have missed : (stillHost ext).answer { miss := true } (w.pass (44 * 60 * second))
        (.cacheGet (config m).cacheKey) = ((none : Option String), w.pass (44 * 60 * second)) := rfl
    obtain ⟨log, run⟩ := memory_run (c := config m) (i := { miss := true }) valid
    rw [if_pos cached]
    exact ⟨log, _, (request_run (.cacheGet (config m).cacheKey) missed).trans run, rfl, later⟩
  · obtain ⟨log, run⟩ := memory_run (c := config m) (i := { miss := true }) valid
    rw [if_neg cached]
    exact ⟨log, _, run, rfl, later⟩

/-- After a call that keeps a token for longer than it lives, one more call
returns it expired. -/
theorem late_call_expired {config : ℕ → Config} {start : World} {before : List TokenCall}
    {call : TokenCall}
    (keeps : ¬ KeepsLasting ext config given ((managers ext config).run start before) call) :
    ¬ FreshTokens ext config given start (before ++ [call] ++ [lateCall call.manager]) := by
  intro fresh
  simp only [KeepsLasting, not_forall] at keeps
  obtain ⟨e, member, token, kept, short⟩ := keeps
  have nonempty := adopted_nonempty member kept
  obtain ⟨⟨cached, expiry, issued⟩, clock⟩ := kept_world member kept
  obtain ⟨log, v, late, known, moment⟩ := late_run
    (m := call.manager) (by rw [cached]; exact nonempty) (by rw [expiry, clock])
  have ran : (managers ext config).run start (before ++ [call]) =
      (callRun ext config ((managers ext config).run start before) call).world :=
    Machine.run_append _ _ _
  have lasts := fresh (before ++ [call]) (lateCall call.manager) [] rfl token
  rw [ran, late] at lasts
  have lasts := lasts (congrArg Outcome.returned cached)
  dsimp only at lasts
  rw [known, issued, moment, clock] at lasts
  exact short lasts

/-- **Token freshness.** In every run of calls by any number of managers, from
empty memories and an empty cache, in which DGII issues only tokens whose expiry
lies ahead and none is read as a later moment than it names, every token returned
is fresh if the tokens found in the cache and kept live for 44 minutes.  And as
soon as a call keeps another one, one more call returns it expired. -/
theorem tokens_are_fresh (ext : AuthenticationParsers) (config : ℕ → Config)
    (given : String → ℤ) (clock : ℤ) (calls : List TokenCall)
    (ahead : (managers ext config).Meets (IssuesAhead ext config given) { clock := clock } calls)
    (read : (managers ext config).Meets (ReadsInTime ext config given) { clock := clock } calls) :
    ((managers ext config).Meets (KeepsLasting ext config given) { clock := clock } calls →
      FreshTokens ext config given { clock := clock } calls) ∧
    ∀ before call rest, calls = before ++ call :: rest →
      ¬ KeepsLasting ext config given ((managers ext config).run { clock := clock } before) call →
      ¬ FreshTokens ext config given { clock := clock }
        (before ++ [call] ++ [lateCall call.manager]) := by
  refine ⟨fun lasting => ?_, fun before call rest _ keeps => late_call_expired keeps⟩
  rintro before call rest rfl
  obtain ⟨earlier, now, -⟩ := Machine.meets_append.mp ((ahead.and read).and lasting)
  have initial : Safe given { clock := clock } := ⟨fun _ nonempty => absurd rfl nonempty, nofun⟩
  have safe : Safe given ((managers ext config).run { clock := clock } before) :=
    Machine.invariant (J := Safe given)
      (fun _ _ safe met => (call_fresh safe met.1.1 met.2 met.1.2).1) initial earlier
  exact (call_fresh safe now.1.1 now.2 now.1.2).2

/-! ## A token kept past its expiry -/

/-- DGII means what the manager reads. -/
def sampleGiven (expira : String) : ℤ := (parseExpiry expira).getD 0

/-- A call some minutes after the last one; DGII would issue `T1`. -/
def callAfter (minutes manager : ℕ) : TokenCall :=
  { manager := manager, elapsed := minutes * 60 * second
    inputs := fun _ => { http := { text := "T1" } } }

/-- A second manager finds the token of the first one in time. -/
theorem tokens_are_fresh_sample :
    FreshTokens sampleParsers (fun _ => sampleConfig) sampleGiven { clock := 0 }
      [callAfter 0 0, callAfter 10 1, callAfter 5 1] :=
  (tokens_are_fresh sampleParsers (fun _ => sampleConfig) sampleGiven 0 _ (by decide +kernel)
    (by decide +kernel)).1 (by decide +kernel)

/-- A second manager finds the token a minute before it expires, and answers with
it from memory a minute after. -/
theorem expired_token_returned :
    ¬ FreshTokens sampleParsers (fun _ => sampleConfig) sampleGiven { clock := 0 }
      [callAfter 0 0, callAfter 59 1, callAfter 2 1] := by
  intro fresh
  have late := fresh [callAfter 0 0, callAfter 59 1] (callAfter 2 1) [] rfl "T1" rfl
  exact absurd late (by decide +kernel)

end EcfDgii.TokenFreshness
