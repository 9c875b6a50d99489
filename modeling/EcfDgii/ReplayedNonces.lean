import EcfDgii.UserOrWorkerFilter

/-!
Whether a signed request can be accepted twice.

The timestamp of a request is good for 300 seconds on both sides of the
server's clock, and its nonce is remembered for 300 seconds from its first use.
A client clock that is behind the server's keeps the second interval at the end
of the first; one that is not leaves a gap, in which the request is accepted
again.  `InTime` is the condition, on the moment a nonce is recorded.
-/

set_option autoImplicit false

namespace EcfDgii.ReplayedNonces

open EcfDgii.CanonicalRequestHelper EcfDgii.Timestamps EcfDgii.Programs EcfDgii.Execution EcfDgii.UserOrWorkerFilter

/-- Requests under way. -/
abbrev Requests := Pool HttpRequest Filter Verdict World

/-- The filter on any number of requests. -/
def filtered (lib : Libraries) (config : WorkerConfig) (requests : ℕ → HttpRequest) (w : World) :
    Requests :=
  Pool.start (doFilter lib config) requests w

/-- The request has been accepted as a worker's. -/
def Accepted (th : Thread HttpRequest Filter Verdict) : Prop :=
  ∃ attributes, th.result = some (.accepted attributes) ∧ attributes.clientType = "worker"

/-- The same key id, timestamp header, nonce and signature. -/
def SameSignature (a b : HttpRequest) : Prop :=
  a.xWorkerKeyId = b.xWorkerKeyId ∧ a.xRequestTimestamp = b.xRequestTimestamp ∧
    a.xRequestNonce = b.xRequestNonce ∧ a.xRequestSignature = b.xRequestSignature

/-- No signed request is accepted twice. -/
def NoReplay (p : Requests) : Prop :=
  ∀ t u, Accepted (p.thread t) → Accepted (p.thread u) →
    SameSignature (p.thread t).operation (p.thread u).operation → t = u

/-- If a request is about to record its nonce: its timestamp lies before the
server's second, and is still good. -/
def RecordedInTime (clock : ℕ) (req : HttpRequest) : Option FilterRequest → Prop
  | some (.tryAddNonce _ now _) => ∀ clientTs ∈ stoll req.xRequestTimestamp,
      clientTs < ((now + 1) / 1000 : ℕ) ∧ ((millis clock / 1000 : ℕ) : ℤ) ≤ clientTs + 300
  | _ => True

instance (clock : ℕ) (req : HttpRequest) :
    (r : Option FilterRequest) → Decidable (RecordedInTime clock req r)
  | some (.tryAddNonce _ now _) =>
    inferInstanceAs (Decidable (∀ clientTs ∈ stoll req.xRequestTimestamp,
      clientTs < ((now + 1) / 1000 : ℕ) ∧ ((millis clock / 1000 : ℕ) : ℤ) ≤ clientTs + 300))
  | some .currentUnixTimestamp => .isTrue trivial
  | some .currentTimestamp => .isTrue trivial
  | none => .isTrue trivial

/-- Every nonce is recorded in time. -/
def InTime (p : Requests) : Move ℕ → Prop
  | .kill _ => True
  | .step t elapsed =>
    RecordedInTime (p.world.clock + elapsed) (p.thread t).operation (p.thread t).request

instance (p : Requests) : (m : Move ℕ) → Decidable (InTime p m)
  | .kill _ => .isTrue trivial
  | .step t elapsed => inferInstanceAs (Decidable
      (RecordedInTime (p.world.clock + elapsed) (p.thread t).operation (p.thread t).request))

/-! ## What the filter asks -/

variable {lib : Libraries} {config : WorkerConfig} {req : HttpRequest} {log : List (Event Filter)}

/-- The key of a request's nonce. -/
def nonceKey (req : HttpRequest) : String :=
  "nonce:" ++ req.xWorkerKeyId ++ ":" ++ req.xRequestNonce

/-- The nonce is new. -/
def granted (cacheKey : String) (now : ℕ) : Event Filter := ⟨.tryAddNonce cacheKey now 300, true⟩

/-- The milliseconds that were read. -/
def clockRead (now : ℕ) : Event Filter := ⟨.currentTimestamp, now⟩

/-- A nonce is tried with the moment read, for a request with a timestamp. -/
def FilterAsks (req : HttpRequest) (log : List (Event Filter)) : FilterRequest → Prop
  | .tryAddNonce cacheKey now ttlSeconds =>
    cacheKey = nonceKey req ∧ ttlSeconds = 300 ∧ clockRead now ∈ log ∧
      ∃ clientTs, stoll req.xRequestTimestamp = some clientTs
  | _ => True

/-- A worker is accepted once its nonce was new. -/
def FilterShows (req : HttpRequest) (log : List (Event Filter)) : Verdict → Prop
  | .accepted attributes =>
    attributes.clientType = "worker" → ∃ now, granted (nonceKey req) now ∈ log
  | .rejected _ => True

theorem userAttributes_clientType {claims : String → Except String (Option String)}
    {attributes : Attributes} (ok : userAttributes claims = .ok attributes) :
    attributes.clientType = "user" := by
  unfold userAttributes at ok
  simp only [bind, Except.bind, pure, Except.pure] at ok
  repeat' split at ok
  all_goals cases ok
  all_goals rfl

theorem doFilter_follows (lib : Libraries) (config : WorkerConfig) (req : HttpRequest) :
    (doFilter lib config req).Follows (.logging (FilterAsks req)) (FilterShows req)
      (fun _ _ => True) [] := by
  unfold doFilter
  refine .ite (fun _ => ?_) fun _ => .ite (fun _ => trivial) fun _ => .ite (fun _ => trivial)
    fun _ => ?_
  · split
    · next attributes ok =>
      intro worker
      cases verified : lib.verifyToken (Text.dropFirst 7 req.authorization) with
      | error e => simp [verified, bind, Except.bind] at ok
      | ok claims =>
        have user := userAttributes_clientType (by simpa [verified, bind, Except.bind] using ok)
        exact absurd (user.symm.trans worker) (by decide)
    · trivial
  · split
    · trivial
    · next clientTs scanned =>
      refine (follows_logging_bind _ _).mpr ⟨trivial, fun serverTs => ?_⟩
      refine .ite (fun _ => trivial) fun _ => .ite (fun _ => trivial) fun _ =>
        .ite (fun _ => trivial) fun _ => .ite (fun _ => trivial) fun _ => ?_
      refine Program.Follows.bind (M := fun b added =>
        added = true → ∃ now, granted (nonceKey req) now ∈ b) ?_ fun b added new => ?_
      · unfold tryAddNonce
        refine .ite (fun _ => nofun) fun _ => ?_
        refine (follows_logging_bind _ _).mpr ⟨trivial, fun now => ?_⟩
        refine (follows_logging_perform _).mpr ⟨⟨rfl, rfl, ?_, clientTs, scanned⟩, ?_⟩
        · exact List.mem_append_right _ List.mem_cons_self
        · rintro added rfl
          exact ⟨now, List.mem_append_right _ List.mem_cons_self⟩
      · exact .ite (fun added worker => new added) fun _ => trivial

/-! ## What the cache remembers -/

variable {requests : ℕ → HttpRequest} {w : World} {history : List (ℕ × Event Filter)}

/-- A remembered nonce is dropped only when its time is over. -/
theorem addNonce_keeps (cacheKey : String) (now ttl : ℕ) {other : String} {last : ℕ}
    {cache : String → Option ℕ} (kept : cache other = some last) :
    (addNonce cacheKey now ttl cache).2 other = some last ∨ last < now := by
  by_cases active : now ≤ last
  · left
    have pruned : (cache other).filter (now ≤ ·) = some last := by
      rw [kept, Option.filter_some, if_pos (decide_eq_true active)]
    unfold addNonce
    dsimp only
    split
    · exact pruned
    · next found =>
      have differs : other ≠ cacheKey := by
        rintro rfl
        rw [found] at pruned
        cases pruned
      dsimp only
      rw [Function.update_of_ne differs]
      exact pruned
  · right
    omega

/-- A nonce is new when none is remembered for the moment, and then it is. -/
theorem addNonce_new {cacheKey : String} {now ttl : ℕ} {cache : String → Option ℕ}
    (new : (addNonce cacheKey now ttl cache).1 = true) :
    (addNonce cacheKey now ttl cache).2 cacheKey = some (now + ttl * 1000) ∧
      ∀ last, cache cacheKey = some last → last < now := by
  unfold addNonce at new ⊢
  dsimp only at new ⊢
  split at new
  · cases new
  · next found =>
    dsimp only
    refine ⟨Function.update_self .., fun last kept => ?_⟩
    by_contra active
    rw [kept, Option.filter_some, if_pos (decide_eq_true (by omega))] at found
    cases found

/-- Every nonce that was new: the request's timestamp lay before the moment; the
nonce is remembered for its time; and no other request with the same timestamp
brought it. -/
structure Remembered (requests : ℕ → HttpRequest) (w : World) (history : List (ℕ × Event Filter)) :
    Prop where
  early : ∀ t key now, (t, granted key now) ∈ history →
    ∀ clientTs ∈ stoll (requests t).xRequestTimestamp, clientTs < ((now + 1) / 1000 : ℕ)
  kept : ∀ t key now, (t, granted key now) ∈ history →
    (∃ last, w.cache key = some last ∧ now + 300000 ≤ last) ∨ now + 300000 < millis w.clock
  once : ∀ t u key now now', (t, granted key now) ∈ history → (u, granted key now') ∈ history →
    (requests t).xRequestTimestamp = (requests u).xRequestTimestamp → t = u

/-- A request is the one it was; what it has read of the clock is not ahead of
it; and what it has seen has happened. -/
structure Reads (requests : ℕ → HttpRequest) (t : ℕ) (th : Thread HttpRequest Filter Verdict)
    (w : World) (history : List (ℕ × Event Filter)) : Prop where
  operation : th.operation = requests t
  read : ∀ now, clockRead now ∈ th.log → now ≤ millis w.clock
  happened : ∀ e ∈ th.log, (t, e) ∈ history

/-- Time passes for what is remembered. -/
theorem Remembered.later (h : Remembered requests w history) {w' : World}
    {history' : List (ℕ × Event Filter)} (clock : w.clock ≤ w'.clock)
    (cache : ∀ key last, w.cache key = some last → w'.cache key = some last ∨ last < millis w'.clock)
    (nothing : ∀ t key now, (t, granted key now) ∈ history' → (t, granted key now) ∈ history) :
    Remembered requests w' history' where
  early t key now here := h.early t key now (nothing t key now here)
  kept t key now here := by
    rcases h.kept t key now (nothing t key now here) with ⟨last, kept, long⟩ | isOver
    · rcases cache key last kept with still | gone
      · exact .inl ⟨last, still, long⟩
      · exact .inr (by omega)
    · exact .inr (lt_of_lt_of_le isOver (Nat.div_le_div_right clock))
  once t u key now now' here there := h.once t u key now now' (nothing _ _ _ here)
    (nothing _ _ _ there)

/-- A nonce that is new in time is the only one of its timestamp. -/
theorem Remembered.grant (h : Remembered requests w history) {u now elapsed : ℕ} {key : String}
    {clientTs : ℤ} (scanned : stoll (requests u).xRequestTimestamp = some clientTs)
    (read : now ≤ millis (w.clock + elapsed)) (early : clientTs < ((now + 1) / 1000 : ℕ))
    (good : ((millis (w.clock + elapsed) / 1000 : ℕ) : ℤ) ≤ clientTs + 300)
    (new : (addNonce key now 300 w.cache).1 = true) :
    Remembered requests ⟨w.clock + elapsed, (addNonce key now 300 w.cache).2⟩
      (history ++ [(u, granted key now)]) := by
  obtain ⟨stored, fresh⟩ := addNonce_new new
  have isOver : ∀ t now', (t, granted key now') ∈ history → now' + 300000 < millis (w.clock + elapsed) := by
    intro t now' here
    rcases h.kept t key now' here with ⟨last, kept, long⟩ | isOver
    · have := fresh last kept
      omega
    · have : millis w.clock ≤ millis (w.clock + elapsed) := Nat.div_le_div_right (by omega)
      omega
  -- an earlier nonce of the same timestamp would still be remembered
  have other : ∀ t now', (t, granted key now') ∈ history →
      (requests t).xRequestTimestamp ≠ (requests u).xRequestTimestamp := by
    intro t now' here same
    have before := h.early t key now' here clientTs (same ▸ scanned)
    have := isOver t now' here
    omega
  have cases : ∀ {t key' now'}, (t, granted key' now') ∈ history ++ [(u, granted key now)] →
      (t, granted key' now') ∈ history ∨ t = u ∧ key' = key ∧ now' = now := by
    intro t key' now' member
    rcases List.mem_append.mp member with here | here
    · exact .inl here
    · have same := List.mem_singleton.mp here
      simp only [granted, Prod.mk.injEq, Event.mk.injEq, FilterRequest.tryAddNonce.injEq] at same
      exact .inr ⟨same.1, same.2.1.1, same.2.1.2.1⟩
  constructor
  · intro t key' now' member
    rcases cases member with here | ⟨rfl, rfl, rfl⟩
    · exact h.early t key' now' here
    · intro other found
      rw [scanned] at found
      cases found
      exact early
  · intro t key' now' member
    rcases cases member with here | ⟨rfl, rfl, rfl⟩
    · rcases h.kept t key' now' here with ⟨last, kept, long⟩ | isOver
      · rcases addNonce_keeps key now 300 kept with still | gone
        · exact .inl ⟨last, still, long⟩
        · right
          dsimp only
          omega
      · right
        have : millis w.clock ≤ millis (w.clock + elapsed) := Nat.div_le_div_right (by omega)
        dsimp only
        omega
    · exact .inl ⟨_, stored, le_rfl⟩
  · intro t v key' now₁ now₂ member member' same
    rcases cases member with here | ⟨rfl, rfl, rfl⟩
    · rcases cases member' with here' | ⟨rfl, rfl, rfl⟩
      · exact h.once t v key' now₁ now₂ here here' same
      · exact absurd same (other t now₁ here)
    · rcases cases member' with here' | ⟨rfl, -, -⟩
      · exact absurd same.symm (other v now₂ here')
      · rfl

/-! ## Every schedule -/

theorem clock_later (elapsed : ℕ) (w : World) (r : FilterRequest) :
    (filterHost.answer elapsed w r).2.clock = w.clock + elapsed := by
  cases r <;> rfl

/-- **Step.** A request of the filter keeps what is remembered, in time. -/
theorem remembered_step (requests : ℕ → HttpRequest) :
    Pool.StepKeeps filterHost FilterAsks (Remembered requests) (Reads requests) InTime := by
  intro p t elapsed r next sound rest inTime permitted
  have remembered := sound.world
  obtain ⟨operation, read, -⟩ := sound.threads t
  have later : p.world.clock ≤ (filterHost.answer elapsed p.world r).2.clock := by
    rw [clock_later]
    omega
  have others : ∀ u, Reads requests u (p.thread u) (filterHost.answer elapsed p.world r).2
      (p.history ++ [(t, ⟨r, (filterHost.answer elapsed p.world r).1⟩)]) := by
    intro u
    obtain ⟨op, before, happened⟩ := sound.threads u
    exact ⟨op, fun now here => (before now here).trans (Nat.div_le_div_right later),
      fun e here => List.mem_append_left _ (happened e here)⟩
  refine ⟨?_, ⟨operation, fun now here => ?_, fun e here => ?_⟩, fun u _ => others u⟩
  · have quiet : (∀ key now, (⟨r, (filterHost.answer elapsed p.world r).1⟩ : Event Filter) ≠
        granted key now) →
        (∀ key last, p.world.cache key = some last →
          (filterHost.answer elapsed p.world r).2.cache key = some last ∨
            last < millis (filterHost.answer elapsed p.world r).2.clock) →
        Remembered requests (filterHost.answer elapsed p.world r).2
          (p.history ++ [(t, ⟨r, (filterHost.answer elapsed p.world r).1⟩)]) := by
      intro other cache
      refine remembered.later later cache fun u key now member => ?_
      rcases List.mem_append.mp member with here | here
      · exact here
      · exact absurd (Prod.mk.inj (List.mem_singleton.mp here)).2.symm (other key now)
    cases r with
    | currentUnixTimestamp => exact quiet (fun _ _ => nofun) fun _ _ kept => .inl kept
    | currentTimestamp => exact quiet (fun _ _ => nofun) fun _ _ kept => .inl kept
    | tryAddNonce key now ttl =>
      obtain ⟨-, rfl, seen, clientTs, scanned⟩ := permitted
      have before : now ≤ millis (p.world.clock + elapsed) :=
        (read now seen).trans (Nat.div_le_div_right (by omega))
      cases new : (addNonce key now 300 p.world.cache).1 with
      | false =>
        refine quiet (fun key' now' same => ?_) fun key' last kept => ?_
        · have reply := eq_of_heq (Event.mk.inj same).2
          rw [show (filterHost.answer elapsed p.world (.tryAddNonce key now 300)).1 = false from new]
            at reply
          cases reply
        · rcases addNonce_keeps key now 300 kept with still | gone
          · exact .inl still
          · exact .inr (lt_of_lt_of_le gone before)
      | true =>
        have asked : (p.thread t).request = some (.tryAddNonce key now 300) := by
          simp [Thread.request, rest]
        simp only [InTime, asked, operation, RecordedInTime] at inTime
        obtain ⟨early, good⟩ := inTime clientTs (operation ▸ scanned)
        have grant := remembered.grant (operation ▸ scanned) before early good new
        simpa only [filterHost, new, granted] using grant
  · rcases List.mem_append.mp here with before | new
    · exact (read now before).trans (Nat.div_le_div_right later)
    · have same := List.mem_singleton.mp new
      cases r with
      | currentTimestamp =>
        have reply := eq_of_heq (Event.mk.inj same).2
        exact le_of_eq reply
      | _ => cases (Event.mk.inj same).1
  · rcases List.mem_append.mp here with before | new
    · exact List.mem_append_left _ ((sound.threads t).happened e before)
    · rw [List.mem_singleton.mp new]
      exact List.mem_append_right _ List.mem_cons_self

/-- **No replay.** In every schedule of requests through the filter in which each
nonce is recorded in time, no two requests with the same key id, timestamp,
nonce and signature are accepted. -/
theorem no_replay (lib : Libraries) (config : WorkerConfig) (requests : ℕ → HttpRequest)
    (w : World) (moves : List (Move ℕ))
    (met : (filtered lib config requests w).Meets filterHost InTime moves) :
    NoReplay ((filtered lib config requests w).play filterHost moves) := by
  have start : (filtered lib config requests w).Sound FilterAsks (Remembered requests)
      (Reads requests) := by
    refine Pool.Sound.start (fun op => ?_) ?_ fun t => ?_
    · exact (doFilter_follows lib config op).mono (fun _ _ _ => trivial) fun _ _ h => h
    · exact ⟨fun _ _ _ member => absurd member List.not_mem_nil,
        fun _ _ _ member => absurd member List.not_mem_nil,
        fun _ _ _ _ _ member => absurd member List.not_mem_nil⟩
    · exact ⟨rfl, fun _ member => absurd member List.not_mem_nil,
        fun _ member => absurd member List.not_mem_nil⟩
  have sound : ((filtered lib config requests w).play filterHost moves).Sound FilterAsks
      (Remembered requests) (Reads requests) :=
    start.play (remembered_step requests) (fun _ _ _ _ h => ⟨h.operation, h.read, h.happened⟩) met
  have verified : ((filtered lib config requests w).play filterHost moves).Verified FilterAsks
      FilterShows := Pool.follows_play (doFilter_follows lib config) moves
  have shows : ∀ t, Accepted (((filtered lib config requests w).play filterHost moves).thread t) →
      ∃ now, (t, granted (nonceKey (requests t)) now) ∈
        ((filtered lib config requests w).play filterHost moves).history := by
    rintro t ⟨attributes, result, worker⟩
    obtain ⟨now, seen⟩ := verified.returned result worker
    rw [(sound.threads t).operation] at seen
    exact ⟨now, (sound.threads t).happened _ seen⟩
  rintro t u accepted accepted' ⟨keyId, timestamp, nonce, -⟩
  rw [(sound.threads t).operation, (sound.threads u).operation] at keyId timestamp nonce
  obtain ⟨now, first⟩ := shows t accepted
  obtain ⟨now', second⟩ := shows u accepted'
  have key : nonceKey (requests t) = nonceKey (requests u) := by
    simp only [nonceKey, keyId, nonce]
  exact sound.world.once t u _ now now' first (key ▸ second) timestamp

/-! ## A client clock that runs ahead -/

def sampleConfig : WorkerConfig :=
  { workerKeyId := "worker", workerSecretKey := "secret", workerTenantId := "tenant" }

/-- A code that a sample request carries. -/
def sampleLibraries : Libraries :=
  { sampleDigests with
    hmacSha256Base64 := fun _ _ => "signature"
    verifyToken := fun _ => .error "no token" }

/-- What an accepted sample request goes on with. -/
def workerAttributes : Attributes where
  userId := "worker"
  username := "Worker:worker"
  role := "Worker"
  tenantId := "tenant"
  workerKeyId := some "worker"
  clientType := "worker"

/-- The same signed request from every thread. -/
def signed (timestamp : String) (_ : ℕ) : HttpRequest :=
  { method := "POST", path := "/api/documents", body := "{}", xWorkerKeyId := "worker",
    xRequestTimestamp := timestamp, xRequestNonce := "nonce", xRequestSignature := "signature" }

/-- A request, and the same one again after some seconds. -/
def twice (seconds : ℕ) : List (Move ℕ) :=
  [.step 0 0, .step 0 0, .step 0 0, .step 1 (seconds * second), .step 1 0, .step 1 0]

/-- The client is 100 seconds behind, and the second request comes 100 seconds
after the first. -/
theorem no_replay_sample :
    NoReplay ((filtered sampleLibraries sampleConfig (signed "900") ⟨1000 * second, fun _ => none⟩).play
      filterHost (twice 100)) :=
  no_replay sampleLibraries sampleConfig (signed "900") ⟨1000 * second, fun _ => none⟩ (twice 100)
    (by decide +kernel)

/-- The client is 100 seconds ahead, and the second request comes 301 seconds
after the first, when its nonce is forgotten and its timestamp is still good. -/
theorem replayed_request_accepted :
    ¬ NoReplay ((filtered sampleLibraries sampleConfig (signed "1100")
      ⟨1000 * second, fun _ => none⟩).play filterHost (twice 301)) := by
  intro once
  have accepted : ∀ t < 2, (((filtered sampleLibraries sampleConfig (signed "1100")
      ⟨1000 * second, fun _ => none⟩).play filterHost (twice 301)).thread t).result =
        some (.accepted workerAttributes) := by
    decide +kernel
  have same := once 0 1 ⟨_, accepted 0 (by decide), rfl⟩ ⟨_, accepted 1 (by decide), rfl⟩
    ⟨rfl, rfl, rfl, rfl⟩
  exact absurd same (by decide)

end EcfDgii.ReplayedNonces
