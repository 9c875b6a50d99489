import EcfDgii.CanonicalRequestHelper
import EcfDgii.Execution
import EcfDgii.Timestamps

/-!
The filter in front of the documents' endpoints (`UserOrWorkerFilter.cpp`) and
the nonces it remembers (`NonceCache.cpp`).

`doFilter` is a program that reads the clock and asks the nonce cache.  The
cache reads the clock before it takes its mutex, so that is a request of its
own, and `filterHost` answers the section under the mutex with the moment read.
Milliseconds are kept as integers, where the code divides them by a thousand.
-/

set_option autoImplicit false

namespace EcfDgii.UserOrWorkerFilter

open EcfDgii.Text EcfDgii.Timestamps EcfDgii.CanonicalRequestHelper
open EcfDgii.Programs EcfDgii.Execution

/-! ## Requests and verdicts -/

/-- What the filter reads of a request. -/
structure HttpRequest where
  method : String
  path : String
  query : String := ""
  authorization : String := ""
  xWorkerKeyId : String := ""
  xRequestTimestamp : String := ""
  xRequestNonce : String := ""
  xRequestSignature : String := ""
  body : String := ""
  deriving DecidableEq

/-- The attributes an accepted request goes on with. -/
structure Attributes where
  userId : String
  username : String
  role : String
  tenantId : String
  workerKeyId : Option String := none
  clientType : String
  deriving DecidableEq

/-- The request goes on (`fccb`), or is answered 401 with a detail (`fcb`). -/
inductive Verdict
  | accepted (attributes : Attributes)
  | rejected (detail : String)
  deriving DecidableEq

/-- The worker's part of the configuration. -/
structure WorkerConfig where
  workerKeyId : String
  workerSecretKey : String
  workerTenantId : String

/-- `jwt-cpp` with the configured secret, issuer and audience, which gives the
claims of a token by name, and OpenSSL. -/
structure Libraries extends Digests where
  verifyToken : String → Except String (String → Except String (Option String))

/-- What the filter asks for. -/
inductive FilterRequest
  | currentUnixTimestamp
  | currentTimestamp
  | tryAddNonce (cacheKey : String) (now ttlSeconds : ℕ)
  deriving DecidableEq

/-- The questions of the filter, and their answers. -/
abbrev Filter : Interface where
  Request := FilterRequest
  Reply
    | .currentUnixTimestamp => ℕ
    | .currentTimestamp => ℕ
    | .tryAddNonce _ _ _ => Bool

/-- One question of the filter. -/
def ask (r : FilterRequest) : Program Filter (Filter.Reply r) := Program.perform (I := Filter) r

/-- `std::stoll`, when it does not throw. -/
def stoll (s : String) : Option ℤ :=
  match scanInt s.toList with
  | some (n, _) => if -2 ^ 63 ≤ n ∧ n < 2 ^ 63 then some n else none
  | none => none

/-- `NonceCache::tryAddNonce`. -/
def tryAddNonce (keyId nonce : String) (ttlSeconds : ℕ) : Program Filter Bool :=
  if keyId = "" ∨ nonce = "" then return false
  else do
    let now ← ask .currentTimestamp
    ask (.tryAddNonce ("nonce:" ++ keyId ++ ":" ++ nonce) now ttlSeconds)

/-- The claims of a user's token. -/
def userAttributes (claims : String → Except String (Option String)) : Except String Attributes := do
  let getClaim name := return (← claims name).getD ""
  let userId ← getClaim "nameid"
  let username ← getClaim "name"
  let role ← getClaim "role"
  let tenantId ← getClaim "tenant_id"
  return { userId, username, role, clientType := "user",
           tenantId := if tenantId = "" then "default-tenant" else tenantId }

/-- `UserOrWorkerFilter::doFilter`. -/
def doFilter (lib : Libraries) (config : WorkerConfig) (req : HttpRequest) :
    Program Filter Verdict :=
  if startsWith req.authorization "Bearer " ∧ req.authorization ≠ "Bearer " then
    match lib.verifyToken (dropFirst 7 req.authorization) >>= userAttributes with
    | .ok attributes => return .accepted attributes
    | .error what => return .rejected ("Invalid token: " ++ what)
  else
    let keyId := req.xWorkerKeyId
    let timestampStr := req.xRequestTimestamp
    let nonce := req.xRequestNonce
    let signature := req.xRequestSignature
    if keyId = "" ∧ timestampStr = "" ∧ nonce = "" ∧ signature = "" then
      return .rejected "Missing or malformed Authorization header or Worker credentials."
    else if keyId = "" ∨ timestampStr = "" ∨ nonce = "" ∨ signature = "" then
      return .rejected ("Missing required worker authentication headers (X-Worker-Key-Id, " ++
        "X-Request-Timestamp, X-Request-Nonce, X-Request-Signature).")
    else
      match stoll timestampStr with
      | none => return .rejected "Invalid timestamp format."
      | some clientTs => do
        let serverTs ← ask .currentUnixTimestamp
        let driftSeconds := ((serverTs : ℤ) - clientTs).natAbs
        if 300 < driftSeconds then
          return .rejected ("Request expired due to clock drift (drift: " ++ decimal driftSeconds ++
            "s, max allowed: 300s). Code: timestamp_drift.")
        else if config.workerKeyId = "" then
          return .rejected "Worker authentication is not configured."
        else if keyId ≠ config.workerKeyId then
          return .rejected "Unknown worker key ID. Code: unknown_key_id."
        else
          let pathAndQuery := if req.query = "" then req.path else req.path ++ "?" ++ req.query
          let canonicalString := buildCanonicalString lib.toDigests req.method pathAndQuery
            timestampStr nonce req.body
          let computedSignature := computeHmacSha256 lib.toDigests config.workerSecretKey
            canonicalString
          if computedSignature ≠ signature then
            return .rejected "Invalid signature. Code: bad_signature."
          else if ← tryAddNonce keyId nonce 300 then
            return .accepted
              { userId := keyId, username := "Worker:" ++ keyId, role := "Worker",
                tenantId := config.workerTenantId, workerKeyId := some keyId,
                clientType := "worker" }
          else return .rejected "Replayed nonce detected. Code: nonce_replayed."

/-! ## The clock and the cache -/

/-- The clock in nanoseconds, and the last millisecond of each nonce. -/
structure World where
  clock : ℕ
  cache : String → Option ℕ := fun _ => none

/-- The milliseconds of a clock. -/
def millis (clock : ℕ) : ℕ := clock / 1000000

/-- The section of `tryAddNonce` under the mutex. -/
def addNonce (cacheKey : String) (now ttlSeconds : ℕ) (cache : String → Option ℕ) :
    Bool × (String → Option ℕ) :=
  let pruned := fun key => (cache key).filter (now ≤ ·)
  match pruned cacheKey with
  | some _ => (false, pruned)
  | none => (true, Function.update pruned cacheKey (some (now + ttlSeconds * 1000)))

/-- The answers, after some time has passed. -/
def filterHost : Host Filter World ℕ where
  answer elapsed w
    | .currentUnixTimestamp => ((w.clock + elapsed) / second, { w with clock := w.clock + elapsed })
    | .currentTimestamp => (millis (w.clock + elapsed), { w with clock := w.clock + elapsed })
    | .tryAddNonce cacheKey now ttlSeconds =>
      ((addNonce cacheKey now ttlSeconds w.cache).1,
        ⟨w.clock + elapsed, (addNonce cacheKey now ttlSeconds w.cache).2⟩)

end EcfDgii.UserOrWorkerFilter
