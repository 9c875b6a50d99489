import EcfDgii.ExpiringTables
import EcfDgii.Timestamps

/-!
The cache (`RedisCacheService.cpp`).

Values live in Redis or in a map of the process.  Which of the two a call uses
depends on `checkRedisAvailability` and on how its command ends: a command may
be executed and answered, be executed without its reply coming back, or never
reach the server (`Fate`).  A `Deployment` is the server and one service with
the clock; every call is a function of it.

`sendRedisCommand` is embedded from the command to the parsed reply; the bytes
in between are left out.  A `SET` with `EX` announces four of its five strings,
which a real server refuses (`RedisCommands.fateOf_expiring`); the server here takes
it, and a refused one is a command that never reached it.
-/

set_option autoImplicit false

namespace EcfDgii.RedisCacheService

open EcfDgii.ExpiringTables EcfDgii.Timestamps

/-! ## The server -/

/-- The commands the service sends. -/
inductive Command
  | ping
  | get (key : String)
  | set (key value : String) (ex : Option ℤ)
  | setNx (key value : String) (ex : ℤ)
  | del (key : String)
  | delIfEqual (key value : String)
  deriving DecidableEq

/-- The replies. -/
inductive Reply
  | pong
  | ok
  | nil
  | bulk (value : String)
  | integer (value : ℤ)
  | error
  deriving DecidableEq

/-- A moment some seconds ahead. -/
def ahead (now seconds : ℤ) : ℤ := now + seconds * second

/-- The server on one command.  A time to live has to be positive. -/
def serve (now : ℤ) (redis : Table String String) : Command → Reply × Table String String
  | .ping => (.pong, redis)
  | .get key =>
    match redis.lookup key now with
    | some value => (.bulk value, redis)
    | none => (.nil, redis)
  | .set key value ex =>
    if ∀ seconds ∈ ex, 0 < seconds then
      (.ok, redis.put key ⟨value, ex.map (ahead now)⟩)
    else (.error, redis)
  | .setNx key value ex =>
    if 0 < ex then
      match redis.lookup key now with
      | some _ => (.nil, redis)
      | none => (.ok, redis.put key ⟨value, some (ahead now ex)⟩)
    else (.error, redis)
  | .del key => (.integer (if (redis.lookup key now).isSome then 1 else 0), redis.erase key)
  | .delIfEqual key value =>
    if redis.lookup key now = some value then (.integer 1, redis.erase key)
    else (.integer 0, redis)

/-- How a command ends: answered, executed without an answer, or never executed. -/
inductive Fate
  | answered
  | unanswered
  | unreached
  deriving DecidableEq

/-- `sendRedisCommand`: the reply, if one comes back. -/
def sendRedisCommand (fate : Fate) (now : ℤ) (redis : Table String String) (command : Command) :
    Option Reply × Table String String :=
  match fate with
  | .answered => ((serve now redis command).1, (serve now redis command).2)
  | .unanswered => (none, (serve now redis command).2)
  | .unreached => (none, redis)

/-! ## The service -/

/-- The members of `RedisCacheService`. -/
structure Service where
  host : String
  useRedis : Bool := false
  lastPingAttempt : ℤ := 0
  memoryStore : Table String String := Table.empty
  locks : String → Option (String × ℤ) := fun _ => none

/-- The server, the service and the clock. -/
structure Deployment where
  clock : ℤ
  redis : Table String String := Table.empty
  service : Service

/-- What a call meets: how its `PING`, if it makes one, and its command end. -/
structure Weather where
  ping : Fate := .answered
  command : Fate := .answered
  deriving DecidableEq

/-- `checkRedisAvailability`. -/
def checkRedisAvailability (ping : Fate) (d : Deployment) : Bool × Deployment :=
  if d.service.host = "" then (false, d)
  else if d.service.useRedis then (true, d)
  else if (d.clock - d.service.lastPingAttempt).tdiv second < 30 then (false, d)
  else
    match (sendRedisCommand ping d.clock d.redis .ping).1 with
    | some .pong =>
      (true, { d with service := { d.service with lastPingAttempt := d.clock, useRedis := true } })
    | _ => (false, { d with service := { d.service with lastPingAttempt := d.clock } })

/-- One command to the server. -/
def Deployment.send (fate : Fate) (command : Command) (d : Deployment) :
    Option Reply × Deployment :=
  ((sendRedisCommand fate d.clock d.redis command).1,
    { d with redis := (sendRedisCommand fate d.clock d.redis command).2 })

/-- The in-memory part of `get`. -/
def getFromMemory (key : String) (d : Deployment) : Option String × Deployment :=
  match d.service.memoryStore key with
  | some item =>
    if item.Live d.clock then (some item.value, d)
    else (none, { d with service := { d.service with
      memoryStore := d.service.memoryStore.erase key } })
  | none => (none, d)

/-- `RedisCacheService::get`. -/
def get (weather : Weather) (key : String) (d : Deployment) : Option String × Deployment :=
  match checkRedisAvailability weather.ping d with
  | (true, d) =>
    match d.send weather.command (.get key) with
    | (some .nil, d) => (none, d)
    | (some (.bulk value), d) => if value ≠ "" then (some value, d) else getFromMemory key d
    | (_, d) => getFromMemory key d
  | (false, d) => getFromMemory key d

/-- The in-memory part of `set`. -/
def setInMemory (key value : String) (expiration : Option ℤ) (d : Deployment) :
    Bool × Deployment :=
  (true, { d with service := { d.service with
    memoryStore := d.service.memoryStore.put key ⟨value, expiration.map (ahead d.clock)⟩ } })

/-- `RedisCacheService::set`. -/
def set (weather : Weather) (key value : String) (expiration : Option ℤ) (d : Deployment) :
    Bool × Deployment :=
  match checkRedisAvailability weather.ping d with
  | (true, d) =>
    match d.send weather.command (.set key value expiration) with
    | (some .ok, d) => (true, d)
    | (_, d) => setInMemory key value expiration d
  | (false, d) => setInMemory key value expiration d

/-- `RedisCacheService::remove`: what becomes of the `DEL` is not looked at. -/
def remove (weather : Weather) (key : String) (d : Deployment) : Bool × Deployment :=
  let d := match checkRedisAvailability weather.ping d with
    | (true, d) => (d.send weather.command (.del key)).2
    | (false, d) => d
  (true, { d with service := { d.service with
    memoryStore := d.service.memoryStore.erase key } })

/-- `RedisCacheService::acquireLock`. -/
def acquireLock (weather : Weather) (lockKey lockValue : String) (expiration : ℤ)
    (d : Deployment) : Bool × Deployment :=
  match checkRedisAvailability weather.ping d with
  | (true, d) =>
    match d.send weather.command (.setNx lockKey lockValue expiration) with
    | (some .ok, d) => (true, d)
    | (_, d) => (false, d)
  | (false, d) =>
    let taken := match d.service.locks lockKey with
      | some (_, expiresAt) => decide (d.clock < expiresAt)
      | none => false
    if taken then (false, d)
    else (true, { d with service := { d.service with
      locks := Function.update d.service.locks lockKey
        (some (lockValue, ahead d.clock expiration)) } })

/-- `RedisCacheService::releaseLock`. -/
def releaseLock (weather : Weather) (lockKey lockValue : String) (d : Deployment) :
    Bool × Deployment :=
  match checkRedisAvailability weather.ping d with
  | (true, d) =>
    match d.send weather.command (.delIfEqual lockKey lockValue) with
    | (some (.integer 1), d) => (true, d)
    | (_, d) => (false, d)
  | (false, d) =>
    match d.service.locks lockKey with
    | some (holder, _) =>
      if holder = lockValue then
        (true, { d with service := { d.service with
          locks := Function.update d.service.locks lockKey none } })
      else (false, d)
    | none => (false, d)

end EcfDgii.RedisCacheService
