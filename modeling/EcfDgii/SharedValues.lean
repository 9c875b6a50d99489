import Mathlib.Data.List.Induction
import EcfDgii.LockExclusion
import EcfDgii.RedisCommands

/-!
What processes share through Redis.

The processes of a `Fleet` call their `RedisCacheService`s in any order, and of
each command any part comes to the server.  Who stores a value, the token
manager or the cached client, gives it an expiration, and such a `SET` the server
never executes: the server holds locks and nothing else, and a `get` finds what
its own process has set (`values_stay_in_process`).
-/

set_option autoImplicit false

namespace EcfDgii.SharedValues

open EcfDgii.Timestamps EcfDgii.ExpiringTables EcfDgii.Machines EcfDgii.RedisCacheService
open EcfDgii.CacheCoherence (checkRedisAvailability_frame get_spec remove_spec set_spec takes
  executes)
open EcfDgii.LockExclusion (Fleet acquireLock_spec releaseLock_spec)
open EcfDgii.RedisCommands (Expires fateOf fateOf_expiring sent)

/-! ## Runs -/

/-- A call of the cache. -/
inductive Call
  | get (key : String)
  | set (key value : String) (expiration : Option ℤ)
  | remove (key : String)
  | acquireLock (lockKey lockValue : String) (expiration : ℤ)
  | releaseLock (lockKey lockValue : String)
  deriving DecidableEq

/-- The command a call sends when it takes the server for available. -/
def Call.command : Call → Command
  | .get key => .get key
  | .set key value expiration => .set key value expiration
  | .remove key => .del key
  | .acquireLock lockKey lockValue expiration => .setNx lockKey lockValue expiration
  | .releaseLock lockKey lockValue => .delIfEqual lockKey lockValue

/-- What a call finds, and what it leaves. -/
def runCall (weather : Weather) (d : Deployment) : Call → Option String × Deployment
  | .get key => get weather key d
  | .set key value expiration => (none, (set weather key value expiration d).2)
  | .remove key => (none, (remove weather key d).2)
  | .acquireLock lockKey lockValue expiration =>
    (none, (acquireLock weather lockKey lockValue expiration d).2)
  | .releaseLock lockKey lockValue => (none, (releaseLock weather lockKey lockValue d).2)

/-- A call of a process, the time that has passed before it, and what comes of its
command to the server, and back. -/
structure Step where
  call : Call
  process : ℕ := 0
  elapsed : ℕ := 0
  ping : Fate := .answered
  password : String := ""
  received : List Char
  begins : received <+: (sent password call.command).toList
  replied : Bool := true

/-- What the call meets.  A server that refuses a value with an expiration has
not executed its command, and the call does as if it had not heard of it. -/
def Step.weather (i : Step) : Weather := ⟨i.ping, fateOf i.received i.replied⟩

/-- What the call of a step finds, and what it leaves. -/
def ran (f : Fleet) (i : Step) : Option String × Deployment :=
  runCall i.weather ((f.pass i.elapsed).seen i.process) i.call

/-- The processes at work. -/
def processes : Machine Fleet Step where
  step f i := (f.pass i.elapsed).after i.process (ran f i).2

/-- The server answers the command of the step. -/
def Answered (f : Fleet) (i : Step) : Prop :=
  (checkRedisAvailability i.ping ((f.pass i.elapsed).seen i.process)).1 = true ∧
    i.weather.command = .answered

/-- The moment of a step. -/
def moment (f : Fleet) (i : Step) : ℤ := f.clock + i.elapsed

/-- A process has set a value of a key, and it has not expired at a moment. -/
def SetBy (start : Fleet) (before : List Step) (process : ℕ) (key value : String) (now : ℤ) :
    Prop :=
  ∃ earlier i later seconds, before = earlier ++ i :: later ∧ i.process = process ∧
    i.call = .set key value (some seconds) ∧
    now ≤ ahead (moment (processes.run start earlier) i) seconds

/-- Somebody has asked for a lock. -/
def LockedBy (before : List Step) (key value : String) : Prop :=
  ∃ i ∈ before, ∃ expiration, i.call = .acquireLock key value expiration

/-- Values are set with an expiration. -/
def Expiring (call : Call) : Prop := ∀ key value, call ≠ .set key value none

variable {start f : Fleet} {before : List Step} {i : Step} {process : ℕ} {key value : String}
  {now : ℤ}

theorem SetBy.append (h : SetBy start before process key value now) (i : Step) :
    SetBy start (before ++ [i]) process key value now := by
  obtain ⟨earlier, j, later, seconds, rfl, rest⟩ := h
  exact ⟨earlier, j, later ++ [i], seconds, by simp, rest⟩

theorem LockedBy.append (h : LockedBy before key value) (i : Step) :
    LockedBy (before ++ [i]) key value := by
  obtain ⟨j, member, rest⟩ := h
  exact ⟨j, List.mem_append_left _ member, rest⟩

/-! ## What a step does -/

/-- What a step does to the values a process keeps, and to the server. -/
structure Does (i : Step) (d d' : Deployment) : Prop where
  clock : d'.clock = d.clock
  memory : ∀ key e, d'.service.memoryStore key = some e → d.service.memoryStore key = some e ∨
    ∃ expiration, i.call = .set key e.value expiration ∧
      e.expiresAt = expiration.map (ahead d.clock)
  server : ∀ key e, d'.redis key = some e → d.redis key = some e ∨
    ∃ expiration, i.call = .acquireLock key e.value expiration

/-- An entry of a table with one more is an old one or that one. -/
theorem of_put {t : Table String String} {other : String} {e e' : Entry String}
    (found : t.put key e other = some e') : t other = some e' ∨ other = key ∧ e = e' := by
  by_cases same : other = key
  · subst same
    exact .inr ⟨rfl, Option.some.inj (put_self.symm.trans found)⟩
  · exact .inl ((put_other same).symm.trans found)

theorem of_erase {t : Table String String} {other : String} {e : Entry String}
    (found : t.erase key other = some e) : t other = some e := by
  by_cases same : other = key
  · subst same
    exact absurd (erase_self.symm.trans found) nofun
  · exact (erase_other same).symm.trans found

/-- A lock is asked for without a look at the values in memory. -/
theorem acquireLock_does (weather : Weather) (key value : String) (expiration : ℤ)
    (d : Deployment) :
    let d' := (acquireLock weather key value expiration d).2
    d'.clock = d.clock ∧ d'.service.memoryStore = d.service.memoryStore ∧
      (d'.redis = d.redis ∨ ∃ last, d'.redis = d.redis.put key ⟨value, last⟩) := by
  obtain ⟨clock, redis, memory, -⟩ := checkRedisAvailability_frame weather.ping d
  unfold acquireLock
  generalize checkRedisAvailability weather.ping d = checked at clock redis memory
  obtain ⟨available, d'⟩ := checked
  dsimp only at clock redis memory
  cases available with
  | true =>
    have command := LockExclusion.setNx_command key value weather.command d'.clock d'.redis
      expiration
    simp only [Deployment.send]
    generalize sendRedisCommand weather.command d'.clock d'.redis (.setNx key value expiration) =
      reply at command
    have changed : reply.2 = d.redis ∨ ∃ last, reply.2 = d.redis.put key ⟨value, last⟩ := by
      rw [← redis]
      exact command.imp And.left fun put => ⟨_, put.2⟩
    split
    · next sent =>
      obtain ⟨-, rfl⟩ := Prod.mk.inj sent
      exact ⟨clock, memory, changed⟩
    · next sent =>
      obtain ⟨-, rfl⟩ := Prod.mk.inj sent
      exact ⟨clock, memory, changed⟩
  | false =>
    dsimp only
    split
    · split
      · exact ⟨clock, memory, .inl redis⟩
      · exact ⟨clock, memory, .inl redis⟩
    · exact ⟨clock, memory, .inl redis⟩

theorem releaseLock_does (weather : Weather) (key value : String) (d : Deployment) :
    let d' := (releaseLock weather key value d).2
    d'.clock = d.clock ∧ d'.service.memoryStore = d.service.memoryStore ∧
      (d'.redis = d.redis ∨ d'.redis = d.redis.erase key) := by
  obtain ⟨clock, redis, memory, -⟩ := checkRedisAvailability_frame weather.ping d
  unfold releaseLock
  generalize checkRedisAvailability weather.ping d = checked at clock redis memory
  obtain ⟨available, d'⟩ := checked
  dsimp only at clock redis memory
  cases available with
  | true =>
    have command := LockExclusion.delIfEqual_command key value weather.command d'.clock d'.redis
    simp only [Deployment.send]
    generalize sendRedisCommand weather.command d'.clock d'.redis (.delIfEqual key value) =
      reply at command
    have changed : reply.2 = d.redis ∨ reply.2 = d.redis.erase key := by
      rw [← redis]
      exact command.imp_right And.right
    split
    · next sent =>
      obtain ⟨-, rfl⟩ := Prod.mk.inj sent
      exact ⟨clock, memory, changed⟩
    · next sent =>
      obtain ⟨-, rfl⟩ := Prod.mk.inj sent
      exact ⟨clock, memory, changed⟩
  | false =>
    dsimp only
    split
    · split
      · exact ⟨clock, memory, .inl redis⟩
      · exact ⟨clock, memory, .inl redis⟩
    · exact ⟨clock, memory, .inl redis⟩

/-- A value with an expiration stays in the process. -/
theorem set_stays {seconds : ℤ} (sets : i.call = .set key value (some seconds))
    (d : Deployment) : takes i.weather (some seconds) d = false := by
  have begins := i.begins
  rw [sets] at begins
  have unreached := fateOf_expiring (.set key value (some seconds)) trivial begins i.replied
  simp [takes, executes, Step.weather, unreached]

/-- **Step lemma.** A step adds a value it sets to the memory of its process, or a
lock it asks for to the server. -/
theorem does_step (expiring : Expiring i.call) (d : Deployment) :
    Does i d (runCall i.weather d i.call).2 := by
  cases call : i.call with
  | get key =>
    obtain ⟨clock, redis, memory, -⟩ := get_spec i.weather key d
    refine ⟨clock, fun other e found => .inl ?_, fun other e found => .inl (redis ▸ found)⟩
    rcases memory with same | erased
    · exact same ▸ found
    · exact of_erase (erased ▸ found)
  | set key value expiration =>
    cases expiration with
    | none => exact absurd call (expiring key value)
    | some seconds =>
      obtain ⟨clock, written⟩ := set_spec i.weather key value (some seconds) d
      rw [if_neg (by rw [set_stays call]; decide)] at written
      refine ⟨clock, fun other e found => ?_, fun other e found => .inl (written.1 ▸ found)⟩
      rcases of_put (written.2 ▸ found) with old | ⟨rfl, rfl⟩
      · exact .inl old
      · exact .inr ⟨_, call, rfl⟩
  | remove key =>
    obtain ⟨clock, memory, redis⟩ := remove_spec i.weather key d
    refine ⟨clock, fun other e found => .inl (of_erase (memory ▸ found)),
      fun other e found => .inl ?_⟩
    change (remove i.weather key d).2.redis other = some e at found
    rw [redis] at found
    split at found
    · exact of_erase found
    · exact found
  | acquireLock lockKey lockValue expiration =>
    obtain ⟨clock, memory, redis⟩ := acquireLock_does i.weather lockKey lockValue expiration d
    refine ⟨clock, fun other e found => .inl (memory ▸ found), fun other e found => ?_⟩
    rcases redis with same | ⟨last, put⟩
    · exact .inl (same ▸ found)
    · rcases of_put (put ▸ found) with old | ⟨rfl, rfl⟩
      · exact .inl old
      · exact .inr ⟨expiration, call⟩
  | releaseLock lockKey lockValue =>
    obtain ⟨clock, memory, redis⟩ := releaseLock_does i.weather lockKey lockValue d
    refine ⟨clock, fun other e found => .inl (memory ▸ found), fun other e found => .inl ?_⟩
    rcases redis with same | erased
    · exact same ▸ found
    · exact of_erase (erased ▸ found)

/-- A `get` that is answered does not look into memory. -/
theorem get_missing {weather : Weather} {d : Deployment}
    (available : (checkRedisAvailability weather.ping d).1 = true)
    (answered : weather.command = .answered) (missing : d.redis.lookup key d.clock = none) :
    (get weather key d).1 = none := by
  obtain ⟨clock, redis, -, -⟩ := checkRedisAvailability_frame weather.ping d
  unfold RedisCacheService.get
  generalize checkRedisAvailability weather.ping d = checked at available clock redis
  obtain ⟨here, d'⟩ := checked
  dsimp only at available clock redis
  subst available
  rw [← redis, ← clock] at missing
  simp only [Deployment.send, answered, sendRedisCommand, serve, missing]

/-! ## Runs -/

/-- Where everything that is kept comes from. -/
structure Known (start : Fleet) (before : List Step) : Prop where
  memory : ∀ process key e,
    ((processes.run start before).services process).memoryStore key = some e →
      ∀ now, e.Live now → SetBy start before process key e.value now
  server : ∀ key e, (processes.run start before).redis key = some e → LockedBy before key e.value

theorem Known.step (h : Known start before) (expiring : Expiring i.call) :
    Known start (before ++ [i]) := by
  have does := does_step expiring (((processes.run start before).pass i.elapsed).seen i.process)
  have next : processes.run start (before ++ [i]) =
      processes.step (processes.run start before) i := by rw [Machine.run_append]; rfl
  constructor
  · intro process key e found now live
    rw [next] at found
    by_cases own : process = i.process
    · subst own
      simp only [processes, Fleet.after, Function.update_self] at found
      rcases does.memory key e found with old | ⟨expiration, sets, expires⟩
      · exact (h.memory i.process key e old now live).append i
      · cases expiration with
        | none => exact absurd sets (expiring key e.value)
        | some seconds =>
          exact ⟨before, i, [], seconds, rfl, rfl, sets, live _ expires⟩
    · simp only [processes, Fleet.after, Function.update_of_ne own] at found
      exact (h.memory process key e found now live).append i
  · intro key e found
    rw [next] at found
    rcases does.server key e found with old | ⟨expiration, asks⟩
    · exact (h.server key e old).append i
    · exact ⟨i, List.mem_append_right _ (List.mem_singleton_self i), expiration, asks⟩

theorem known_run (shared : start.redis = Table.empty)
    (own : ∀ process, (start.services process).memoryStore = Table.empty) {steps : List Step}
    (expiring : ∀ i ∈ steps, Expiring i.call) : Known start steps := by
  induction steps using List.reverseRecOn with
  | nil =>
    constructor
    · intro process key e found
      rw [Machine.run_nil, own process] at found
      cases found
    · intro key e found
      rw [Machine.run_nil, shared] at found
      cases found
  | append_singleton before i ih =>
    exact (ih fun j member => expiring j (List.mem_append_left _ member)).step
      (expiring i (List.mem_append_right _ (List.mem_singleton_self i)))

/-- **Values stay in their process.**  When values are set with an expiration, all
that Redis holds are locks.  What a `get` finds, its own process has set, not longer
ago than the expiration of the value, or it is the value of a lock with this key;
and where the server answers, a `get` finds nothing but for a lock. -/
theorem values_stay_in_process (start : Fleet) (steps : List Step)
    (shared : start.redis = Table.empty)
    (own : ∀ process, (start.services process).memoryStore = Table.empty)
    (expiring : ∀ i ∈ steps, Expiring i.call) :
    (∀ key e, (processes.run start steps).redis key = some e → LockedBy steps key e.value) ∧
      ∀ before i rest key value, steps = before ++ i :: rest → i.call = .get key →
        (ran (processes.run start before) i).1 = some value →
          (SetBy start before i.process key value (moment (processes.run start before) i) ∨
              LockedBy before key value) ∧
            (Answered (processes.run start before) i → ∃ held, LockedBy before key held) := by
  refine ⟨(known_run shared own expiring).server, ?_⟩
  rintro before i rest key value rfl gets found
  have known := known_run shared own fun j member => expiring j (List.mem_append_left _ member)
  obtain ⟨-, -, -, source⟩ := get_spec i.weather key
    (((processes.run start before).pass i.elapsed).seen i.process)
  rw [ran, gets] at found
  constructor
  · rcases source value found with server | memory
    · obtain ⟨e, here, -, rfl⟩ := lookup_eq_some.mp server
      exact .inr (known.server key e here)
    · obtain ⟨e, here, live, rfl⟩ := lookup_eq_some.mp memory
      exact .inl (known.memory i.process key e here _ live)
  · rintro ⟨available, answered⟩
    cases shown : (processes.run start before).redis.lookup key
        ((processes.run start before).pass i.elapsed).clock with
    | none => exact absurd (get_missing available answered shown ▸ found) nofun
    | some held =>
      obtain ⟨e, here, -, -⟩ := lookup_eq_some.mp shown
      exact ⟨e.value, known.server key e here⟩

/-- A call whose command comes whole to the server. -/
def whole (process : ℕ) (call : Call) : Step :=
  { call, process, received := (sent "" call.command).toList, begins := List.prefix_rfl }

/-- Two processes with a server that answers. -/
def sampleFleet : Fleet :=
  { clock := 0, services := fun _ => { host := "redis", useRedis := true } }

/-- A process sets a token for 50 minutes. -/
def setsToken : Step := whole 0 (.set "ecf:tokens:101000001:1" "eyJ" (some 3000))

/-- It asks for the token when the server has gone. -/
def getsToken : Step :=
  { whole 0 (.get "ecf:tokens:101000001:1") with received := [], begins := List.nil_prefix }

theorem values_stay_in_process_sample :
    SetBy sampleFleet [setsToken] 0 "ecf:tokens:101000001:1" "eyJ" 0 ∨
      LockedBy [setsToken] "ecf:tokens:101000001:1" "eyJ" :=
  ((values_stay_in_process sampleFleet [setsToken, getsToken] rfl (fun _ => rfl)
      (by simp [Expiring, setsToken, getsToken, whole])).2
    [setsToken] getsToken [] _ _ rfl rfl rfl).1

/-- Where the server answers, the token is not found. -/
example : (ran (processes.run sampleFleet [setsToken])
    (whole 0 (.get "ecf:tokens:101000001:1"))).1 = none := rfl

end EcfDgii.SharedValues
