import EcfDgii.Machines
import EcfDgii.RedisCacheService

/-!
What `RedisCacheService::get` may answer with.

`Latest` is what the cache is for: one table, in which a `set` replaces and a
`remove` erases.  The service keeps two, and neither `set` nor `remove` makes up
for what it leaves in the one it does not reach: a `set` that Redis takes keeps
the old value in memory, one that goes to memory keeps the old value in Redis,
and a `remove` whose `DEL` is lost keeps it too.  As long as no call leaves a
live value behind (`LeavesNoneBehind`), what the two tables still show is in
`Latest` (`Coherent.step`), and `gets_are_latest` follows for every run.
-/

set_option autoImplicit false

namespace EcfDgii.CacheCoherence

open EcfDgii.ExpiringTables EcfDgii.Machines EcfDgii.RedisCacheService

/-! ## Runs -/

/-- A call of the service. -/
inductive Call
  | get (key : String)
  | set (key value : String) (expiration : Option ℤ)
  | remove (key : String)
  deriving DecidableEq

/-- A call, the time that has passed before it, and what it meets. -/
structure Step where
  call : Call
  elapsed : ℕ := 0
  weather : Weather := {}

/-- Time passes. -/
def pass (elapsed : ℕ) (d : Deployment) : Deployment := { d with clock := d.clock + elapsed }

/-- The service at work. -/
def cache : Machine Deployment Step where
  step d i :=
    match i.call with
    | .get key => (get i.weather key (pass i.elapsed d)).2
    | .set key value expiration => (set i.weather key value expiration (pass i.elapsed d)).2
    | .remove key => (remove i.weather key (pass i.elapsed d)).2

/-- The clock, and the value last set and not removed of every key. -/
structure Latest where
  clock : ℤ
  values : Table String String

/-- One table. -/
def latest : Machine Latest Step where
  step s i :=
    let now := s.clock + i.elapsed
    match i.call with
    | .get _ => ⟨now, s.values⟩
    | .set key value expiration =>
      ⟨now, s.values.put key ⟨value, expiration.map (ahead now)⟩⟩
    | .remove key => ⟨now, s.values.erase key⟩

/-- Every `get` of a run finds nothing, or the value last set, unexpired and not
since removed. -/
def GetsLatest (start : Deployment) (steps : List Step) : Prop :=
  ∀ before key elapsed weather rest, steps = before ++ ⟨.get key, elapsed, weather⟩ :: rest →
    ∀ value, (get weather key (pass elapsed (cache.run start before))).1 = some value →
      let s := latest.run ⟨start.clock, Table.empty⟩ before
      s.values.lookup key (s.clock + elapsed) = some value

/-! ## What each call does -/

variable {d : Deployment} {weather : Weather} {key value : String} {expiration : Option ℤ}

/-- The server executes the call's command. -/
def executes (weather : Weather) (d : Deployment) : Bool :=
  (checkRedisAvailability weather.ping d).1 && weather.command ≠ .unreached

/-- The server takes the value. -/
def takes (weather : Weather) (expiration : Option ℤ) (d : Deployment) : Bool :=
  executes weather d && decide (∀ seconds ∈ expiration, 0 < seconds)

theorem checkRedisAvailability_frame (ping : Fate) (d : Deployment) :
    let after := (checkRedisAvailability ping d).2
    after.clock = d.clock ∧ after.redis = d.redis ∧
      after.service.memoryStore = d.service.memoryStore ∧
      after.service.locks = d.service.locks := by
  unfold checkRedisAvailability
  split
  · exact ⟨rfl, rfl, rfl, rfl⟩
  · split
    · exact ⟨rfl, rfl, rfl, rfl⟩
    · split
      · exact ⟨rfl, rfl, rfl, rfl⟩
      · split <;> exact ⟨rfl, rfl, rfl, rfl⟩

theorem getFromMemory_spec (key : String) (d : Deployment) :
    let r := getFromMemory key d
    r.1 = d.service.memoryStore.lookup key d.clock ∧ r.2.clock = d.clock ∧ r.2.redis = d.redis ∧
      (r.2.service.memoryStore = d.service.memoryStore ∨
        r.2.service.memoryStore = d.service.memoryStore.erase key) := by
  unfold getFromMemory Table.lookup
  cases d.service.memoryStore key with
  | none => exact ⟨rfl, rfl, rfl, .inl rfl⟩
  | some item =>
    by_cases live : item.Live d.clock
    · simp [live]
    · simp [live]

theorem get_command (now : ℤ) (redis : Table String String) (fate : Fate) (key : String) :
    (sendRedisCommand fate now redis (.get key)).2 = redis ∧
      ∀ value, (sendRedisCommand fate now redis (.get key)).1 = some (.bulk value) →
        redis.lookup key now = some value := by
  cases fate with
  | unreached => exact ⟨rfl, nofun⟩
  | unanswered =>
    refine ⟨?_, nofun⟩
    simp only [sendRedisCommand, serve]
    split <;> rfl
  | answered =>
    simp only [sendRedisCommand, serve]
    cases redis.lookup key now with
    | none => exact ⟨rfl, nofun⟩
    | some found => exact ⟨rfl, fun value same => by simpa using same⟩

/-- `get` answers from one of the two tables, and changes neither for the other
keys. -/
theorem get_spec (weather : Weather) (key : String) (d : Deployment) :
    let r := get weather key d
    r.2.clock = d.clock ∧ r.2.redis = d.redis ∧
      (r.2.service.memoryStore = d.service.memoryStore ∨
        r.2.service.memoryStore = d.service.memoryStore.erase key) ∧
      ∀ value, r.1 = some value → d.redis.lookup key d.clock = some value ∨
        d.service.memoryStore.lookup key d.clock = some value := by
  obtain ⟨clock, redis, memory, -⟩ := checkRedisAvailability_frame weather.ping d
  have fallback : ∀ d' : Deployment, d'.clock = d.clock → d'.redis = d.redis →
      d'.service.memoryStore = d.service.memoryStore →
      let r := getFromMemory key d'
      r.2.clock = d.clock ∧ r.2.redis = d.redis ∧
        (r.2.service.memoryStore = d.service.memoryStore ∨
          r.2.service.memoryStore = d.service.memoryStore.erase key) ∧
        ∀ value, r.1 = some value → d.redis.lookup key d.clock = some value ∨
          d.service.memoryStore.lookup key d.clock = some value := by
    intro d' clock redis memory
    obtain ⟨result, clock', redis', memory'⟩ := getFromMemory_spec key d'
    rw [memory] at memory'
    refine ⟨clock'.trans clock, redis'.trans redis, memory', fun value found => .inr ?_⟩
    rw [← memory, ← clock, ← result, found]
  unfold RedisCacheService.get
  generalize checkRedisAvailability weather.ping d = checked at clock redis memory
  obtain ⟨available, d'⟩ := checked
  dsimp only at clock redis memory
  cases available with
  | false => exact fallback d' clock redis memory
  | true =>
    obtain ⟨same, found⟩ := get_command d'.clock d'.redis weather.command key
    simp only [Deployment.send]
    rw [same]
    generalize (sendRedisCommand weather.command d'.clock d'.redis (.get key)).1 = reply at found
    split
    · next got sent =>
      obtain ⟨rfl, rfl⟩ := Prod.mk.inj sent
      exact ⟨clock, redis, .inl memory, nofun⟩
    · next value got sent =>
      obtain ⟨rfl, rfl⟩ := Prod.mk.inj sent
      split
      · refine ⟨clock, redis, .inl memory, fun v same => .inl ?_⟩
        rw [← redis, ← clock, found value rfl]
        exact same
      · exact fallback _ clock redis memory
    · next got sent =>
      obtain ⟨-, rfl⟩ := Prod.mk.inj sent
      exact fallback _ clock redis memory

theorem set_command_taken {now : ℤ} {redis : Table String String} {fate : Fate}
    (reached : fate ≠ .unreached) (valid : ∀ seconds ∈ expiration, 0 < seconds) :
    sendRedisCommand fate now redis (.set key value expiration) =
      (if fate = .answered then some .ok else none,
        redis.put key ⟨value, expiration.map (ahead now)⟩) := by
  have served : serve now redis (.set key value expiration) =
      (.ok, redis.put key ⟨value, expiration.map (ahead now)⟩) := if_pos valid
  cases fate with
  | unreached => exact absurd rfl reached
  | answered => rw [sendRedisCommand, served, if_pos rfl]
  | unanswered => rw [sendRedisCommand, served, if_neg nofun]

theorem set_command_refused {now : ℤ} {redis : Table String String} {fate : Fate}
    (refused : ¬ (fate ≠ .unreached ∧ ∀ seconds ∈ expiration, 0 < seconds)) :
    ∃ reply, sendRedisCommand fate now redis (.set key value expiration) = (reply, redis) ∧
      reply ≠ some .ok := by
  by_cases reached : fate = .unreached
  · exact ⟨none, by rw [reached]; rfl, nofun⟩
  · have invalid : ¬ ∀ seconds ∈ expiration, 0 < seconds := fun valid => refused ⟨reached, valid⟩
    have served : serve now redis (.set key value expiration) = (.error, redis) := if_neg invalid
    cases fate with
    | unreached => exact absurd rfl reached
    | answered => exact ⟨some .error, by rw [sendRedisCommand, served], nofun⟩
    | unanswered => exact ⟨none, by rw [sendRedisCommand, served], nofun⟩

/-- `set` writes to the server, or to memory, or to both when the server's answer
is lost. -/
theorem set_spec (weather : Weather) (key value : String) (expiration : Option ℤ)
    (d : Deployment) :
    let after := (set weather key value expiration d).2
    let entry : Entry String := ⟨value, expiration.map (ahead d.clock)⟩
    after.clock = d.clock ∧
      (if takes weather expiration d then
        after.redis = d.redis.put key entry ∧
          after.service.memoryStore = if weather.command = .answered then d.service.memoryStore
            else d.service.memoryStore.put key entry
      else after.redis = d.redis ∧
        after.service.memoryStore = d.service.memoryStore.put key entry) := by
  obtain ⟨clock, redis, memory, -⟩ := checkRedisAvailability_frame weather.ping d
  unfold RedisCacheService.set takes executes
  generalize checkRedisAvailability weather.ping d = checked at clock redis memory
  obtain ⟨available, d'⟩ := checked
  dsimp only at clock redis memory
  cases available with
  | false => exact ⟨clock, redis, by simp only [setInMemory]; rw [memory, clock]⟩
  | true =>
    simp only [Deployment.send]
    by_cases taken : weather.command ≠ .unreached ∧ ∀ seconds ∈ expiration, 0 < seconds
    · have executed : (true && decide (weather.command ≠ .unreached) &&
          decide (∀ seconds ∈ expiration, 0 < seconds)) = true := by
        rw [decide_eq_true taken.1, decide_eq_true taken.2]
        rfl
      rw [if_pos executed, set_command_taken taken.1 taken.2]
      by_cases answered : weather.command = .answered
      · simp only [if_pos answered]
        exact ⟨clock, by rw [redis, clock], memory⟩
      · simp only [if_neg answered, setInMemory]
        exact ⟨clock, by rw [redis, clock], by rw [memory, clock]⟩
    · have skipped : ¬ (true && decide (weather.command ≠ .unreached) &&
          decide (∀ seconds ∈ expiration, 0 < seconds)) = true := by
        rw [Bool.true_and, Bool.and_eq_true, decide_eq_true_iff, decide_eq_true_iff]
        exact taken
      obtain ⟨reply, sent, lost⟩ := set_command_refused taken
      rw [if_neg skipped, sent]
      dsimp only
      split
      · next got same => exact absurd (Prod.mk.inj same).1 lost
      · next got same =>
        obtain ⟨-, rfl⟩ := Prod.mk.inj same
        exact ⟨clock, redis, by simp only [setInMemory]; rw [memory, clock]⟩

/-- `remove` erases in memory, and on the server when its command gets there. -/
theorem remove_spec (weather : Weather) (key : String) (d : Deployment) :
    let after := (remove weather key d).2
    after.clock = d.clock ∧
      after.service.memoryStore = d.service.memoryStore.erase key ∧
      after.redis = if executes weather d then d.redis.erase key else d.redis := by
  obtain ⟨clock, redis, memory, -⟩ := checkRedisAvailability_frame weather.ping d
  unfold remove executes
  generalize checkRedisAvailability weather.ping d = checked at clock redis memory
  obtain ⟨available, d'⟩ := checked
  dsimp only at clock redis memory
  cases available with
  | false => exact ⟨clock, congrArg (·.erase key) memory, redis⟩
  | true =>
    refine ⟨clock, congrArg (·.erase key) memory, ?_⟩
    rw [← redis]
    simp only [Deployment.send]
    cases weather.command <;> rfl

/-! ## No value left behind -/

/-- A `set` or `remove` leaves no live value of its key in the table it does not
change. -/
def LeavesNoneBehind (d : Deployment) (i : Step) : Prop :=
  let d := pass i.elapsed d
  match i.call with
  | .get _ => True
  | .set key _ expiration =>
    if takes i.weather expiration d then
      i.weather.command = .answered → d.service.memoryStore.lookup key d.clock = none
    else d.redis.lookup key d.clock = none
  | .remove key => executes i.weather d = false → d.redis.lookup key d.clock = none

instance (d : Deployment) : (i : Step) → Decidable (LeavesNoneBehind d i)
  | ⟨.get _, _, _⟩ => .isTrue trivial
  | ⟨.set key _ expiration, elapsed, weather⟩ =>
    inferInstanceAs (Decidable (if takes weather expiration (pass elapsed d) then
      weather.command = .answered →
        (pass elapsed d).service.memoryStore.lookup key (pass elapsed d).clock = none
      else (pass elapsed d).redis.lookup key (pass elapsed d).clock = none))
  | ⟨.remove key, elapsed, weather⟩ =>
    inferInstanceAs (Decidable (executes weather (pass elapsed d) = false →
      (pass elapsed d).redis.lookup key (pass elapsed d).clock = none))

/-- Both tables show nothing but the values last set and not removed. -/
structure Coherent (d : Deployment) (s : Latest) : Prop where
  clock : d.clock = s.clock
  redis : Within d.redis s.values d.clock
  memory : Within d.service.memoryStore s.values d.clock

theorem Coherent.pass {s : Latest} (h : Coherent d s) (elapsed : ℕ) :
    Coherent (pass elapsed d) ⟨s.clock + elapsed, s.values⟩ where
  clock := congrArg (· + (elapsed : ℤ)) h.clock
  redis := h.redis.mono (by simp [CacheCoherence.pass])
  memory := h.memory.mono (by simp [CacheCoherence.pass])

/-- **Step.** A call that leaves nothing behind keeps the tables coherent. -/
theorem Coherent.step {s : Latest} (h : Coherent d s) (i : Step) (clean : LeavesNoneBehind d i) :
    Coherent (cache.step d i) (latest.step s i) := by
  obtain ⟨call, elapsed, weather⟩ := i
  have h := h.pass elapsed
  unfold LeavesNoneBehind at clean
  simp only [cache, latest]
  generalize CacheCoherence.pass elapsed d = d at h clean
  generalize s.clock + (elapsed : ℤ) = now at h
  obtain ⟨rfl, redis, memory⟩ := h
  cases call with
  | get key =>
    obtain ⟨clock, same, stored, -⟩ := get_spec weather key d
    refine ⟨clock, by rw [same, clock]; exact redis, ?_⟩
    rw [clock]
    rcases stored with same | erased
    · rw [same]
      exact memory
    · rw [erased]
      exact memory.erase_left key
  | set key value expiration =>
    obtain ⟨clock, stored⟩ := set_spec weather key value expiration d
    dsimp only at stored clean
    refine ⟨clock, ?_, ?_⟩
    · rw [clock]
      split at stored
      · rw [stored.1]
        exact redis.put key _
      · next skipped =>
        rw [if_neg skipped] at clean
        rw [stored.1]
        exact redis.update_right clean _
    · rw [clock]
      split at stored
      · next taken =>
        rw [if_pos taken] at clean
        rw [stored.2]
        split
        · next answered => exact memory.update_right (clean answered) _
        · exact memory.put key _
      · rw [stored.2]
        exact memory.put key _
  | remove key =>
    obtain ⟨clock, erased, stored⟩ := remove_spec weather key d
    refine ⟨clock, ?_, by rw [clock, erased]; exact memory.erase key⟩
    rw [clock, stored]
    split
    · exact redis.erase key
    · next missed => exact redis.update_right (clean (Bool.eq_false_iff.mpr missed)) none

theorem coherent_run {s : Latest} (h : Coherent d s) {steps : List Step}
    (met : cache.Meets LeavesNoneBehind d steps) :
    Coherent (cache.run d steps) (latest.run s steps) := by
  induction steps generalizing d s with
  | nil => exact h
  | cons i rest ih => exact ih (h.step i met.1) met.2

/-- **Coherence.** From empty tables, in every run in which no call leaves a live
value of its key behind, `get` finds nothing or the value last set, unexpired
and not since removed. -/
theorem gets_are_latest (clock : ℤ) (service : Service) (steps : List Step)
    (empty : service.memoryStore = Table.empty)
    (met : cache.Meets LeavesNoneBehind ⟨clock, Table.empty, service⟩ steps) :
    GetsLatest ⟨clock, Table.empty, service⟩ steps := by
  rintro before key elapsed weather rest rfl value found
  obtain ⟨clean, -⟩ := Machine.meets_append.mp met
  have start : Coherent ⟨clock, Table.empty, service⟩ ⟨clock, Table.empty⟩ :=
    ⟨rfl, within_empty _ _, by rw [empty]; exact within_empty _ _⟩
  have h := (coherent_run start clean).pass elapsed
  obtain ⟨-, -, -, answers⟩ :=
    get_spec weather key (pass elapsed (cache.run ⟨clock, Table.empty, service⟩ before))
  intro s
  rw [show s.clock + elapsed = (pass elapsed (cache.run _ before)).clock from h.clock.symm]
  rcases answers value found with onServer | inMemory
  · exact h.redis.lookup onServer
  · exact h.memory.lookup inMemory

/-! ## Values left behind -/

/-- A deployment whose server answered the first `PING`. -/
def sampleService : Service := { host := "redis", useRedis := true }

/-- The server is lost for one call, which finds the value in memory later. -/
theorem gets_are_latest_sample : GetsLatest ⟨0, Table.empty, sampleService⟩
    [⟨.set "k" "1" (some 60), 0, { command := .unreached }⟩, ⟨.get "k", 0, { command := .unreached }⟩,
      ⟨.remove "k", 0, {}⟩, ⟨.set "k" "2" none, 0, {}⟩, ⟨.get "k", 0, {}⟩] :=
  gets_are_latest 0 sampleService _ rfl (by decide +kernel)

/-- The server misses a `set`, takes the next one and misses a `get`, which finds
the first value in memory. -/
theorem replaced_value_returned : ¬ GetsLatest ⟨0, Table.empty, sampleService⟩
    [⟨.set "k" "1" none, 0, { command := .unreached }⟩, ⟨.set "k" "2" none, 0, {}⟩,
      ⟨.get "k", 0, { command := .unreached }⟩] := by
  intro latest
  have found := latest
    [⟨.set "k" "1" none, 0, { command := .unreached }⟩, ⟨.set "k" "2" none, 0, {}⟩] "k" 0
    { command := .unreached } [] rfl "1" (by decide +kernel)
  exact absurd found (by decide +kernel)

end EcfDgii.CacheCoherence
