import EcfDgii.DgiiReplies
import EcfDgii.Execution
import EcfDgii.ExpiringTables

/-!
DGII's bearer tokens (`EcfTokenManager.cpp`).

A manager keeps the last token it saw with an expiry of its own, and shares a
cache with other managers.  Its requests are its sections under a mutex, its
cache operations and its calls to DGII: `getToken` and `invalidate` are programs
over them, and `tokenHost` answers over a `World` of managers, the shared cache,
the clock, and the tokens DGII has issued with the expiry texts it gave them.

The renewal mutex is a flag: `lockRenew` sets it, whoever holds it.  A schedule
in which a call passes `lockRenew` while another one holds the mutex is none
that the program has.
-/

set_option autoImplicit false

namespace EcfDgii.TokenManager

open EcfDgii.Text EcfDgii.Calendar EcfDgii.Timestamps EcfDgii.Documents EcfDgii.DgiiReplies
open EcfDgii.Programs EcfDgii.Execution EcfDgii.ExpiringTables

/-! ## The expiry of a token -/

/-- `timegm`, which carries fields out of their range. -/
def timegm (t : ScannedTime) : ℤ :=
  let month := (t.month - 1) % 12
  let year := t.year + (t.month - 1) / 12
  let fromMarch := if month < 2 then year - 1 else year
  let days := 146097 * (fromMarch / 400) +
    dayOfEra (fromMarch % 400).toNat (dayOfYear ((month + 10) % 12).toNat 0) - 719468
  86400 * (days + t.day - 1) + 3600 * t.hour + 60 * t.minute + t.second

/-- The text from the fraction on: milliseconds, and what follows them.  The
fraction is looked for from the twentieth character on. -/
def fraction (s : String) : ℕ × List Char :=
  let rest := s.toList.drop 19
  match rest.dropWhile (· ≠ '.') with
  | _ :: digits =>
    (Nat.ofDigitChars 10 ((digits.takeWhile Char.isDigit ++ ['0', '0', '0']).take 3) 0,
      digits.dropWhile Char.isDigit)
  | [] => (0, rest)

/-- `parseExpiry`: a time point, nanoseconds in 64 bits. -/
def parseExpiry (s : String) : Option ℤ :=
  match scanDateTime (s.toList.takeWhile (· ≠ '\x00')) with
  | none => none
  | some (fields, _) =>
    let (ms, tzPart) := fraction s
    let tzOffsetSec := match tzPart with
      | '+' :: zone => zoneOffset (zone.takeWhile (· ≠ '\x00'))
      | '-' :: zone => (-zoneOffset (zone.takeWhile (· ≠ '\x00'))).bmod (2 ^ 32)
      | _ => 0
    if timegm fields = -1 then none
    else some ((fromTimeT (timegm fields - tzOffsetSec) + ms * 1000000).bmod (2 ^ 64))

example : parseExpiry "2024-02-29T23:59:59.1234567-04:30" = some 1709267399123000000 := by decide

/-! ## DGII's answer -/

/-- The parsers of an authentication reply; `jsonError` is what `nlohmann` says
about a text that is no JSON. -/
structure AuthenticationParsers extends Parsers where
  jsonError : String → String

/-- `childText` of this file, which keeps blanks. -/
def childContent (root : XmlNode) (name : String) : String :=
  match firstChildNamed name root with
  | some (.element _ content _) => content
  | none => ""

/-- `j.contains(key) && j[key].is_string()`, and the string. -/
def stringField (key : String) : Json → String
  | .object fields =>
    match (fields.find? (·.1 = key)).map Prod.snd with
    | some (.string s) => s
    | _ => ""
  | _ => ""

/-- The fourth part of `renewToken`: token and expiry text of a reply. -/
def readAuthentication (ext : AuthenticationParsers) (text : String) :
    Except String (String × String) :=
  let fields : Except String (String × String) :=
    if (text.toList.dropWhile isspace).head? = some '<' then
      match ext.parseXml text with
      | none => .error "Respuesta de autenticación inválida: XML malformado."
      | some root => .ok (childContent root "token", childContent root "expira")
    else
      match ext.parseJson text with
      | .discarded =>
        .error ("Respuesta de autenticación inválida (JSON/XML): " ++ ext.jsonError text)
      | j => .ok (stringField "token" j, stringField "expira" j)
  match fields with
  | .error e => .error e
  | .ok (token, expira) =>
    if token = "" then
      .error "Respuesta de autenticación inválida de DGII: falta token o fecha de expiración."
    else .ok (token, expira)

/-- The seed of a reply. -/
def readSeed (resp : HttpReply) : Except String String :=
  if resp.error.isSome ∨ resp.statusCode = 0 then
    let message := resp.error.getD ""
    .error ("No se pudo obtener la semilla: " ++ if message = "" then "HTTP 0" else message)
  else .ok resp.text

/-- The token of a reply to the signed seed. -/
def readValidation (ext : AuthenticationParsers) (resp : HttpReply) :
    Except String (String × String) :=
  if resp.error.isSome ∨ resp.statusCode < 200 ∨ 300 ≤ resp.statusCode then
    let message := resp.error.getD ""
    .error ("Fallo la validación de la semilla (HTTP " ++ decimal resp.statusCode ++ "): " ++
      if message = "" then resp.text else message)
  else readAuthentication ext resp.text

/-! ## Requests -/

/-- The sections of a manager under its token mutex. -/
inductive Section
  | adopt (token : String)
  | validMemoryToken
  | storeRenewed (token expira : String)
  | takeResult
  | clear
  deriving DecidableEq

/-- What a section gives back. -/
def Section.Reply : Section → Type
  | .validMemoryToken => Option String
  | .takeResult => String × ℤ
  | _ => Unit

/-- Everything a manager asks for. -/
inductive Request
  | cacheGet (key : String)
  | cacheSet (key value : String) (expiration : ℤ)
  | cacheRemove (key : String)
  | acquireLock (key value : String) (expiration : ℤ)
  | releaseLock (key value : String)
  | lockValue
  | sleep (milliseconds : ℕ)
  | httpGet (url : String)
  | httpPost (url file : String)
  | signXml (xml rncEmisor : String)
  | lockRenew (manager : ℕ)
  | unlockRenew (manager : ℕ)
  | memory (manager : ℕ) (part : Section)
  deriving DecidableEq

/-- The type of each answer. -/
def Request.Reply : Request → Type
  | .cacheGet _ => Option String
  | .acquireLock .. => Bool
  | .lockValue => String
  | .httpGet _ => HttpReply
  | .httpPost .. => HttpReply
  | .signXml .. => Except String String
  | .memory _ part => part.Reply
  | _ => Unit

abbrev TokenApi : Interface := ⟨Request, Request.Reply⟩

abbrev Procedure (α : Type) := Program TokenApi α

/-- One request. -/
abbrev ask (r : Request) : Procedure r.Reply := Program.perform (I := TokenApi) r

/-! Requests whose answers the programs look at, with their types spelled out. -/

abbrev cacheGet (key : String) : Procedure (Option String) := ask (.cacheGet key)

abbrev acquireLock (key value : String) (expiration : ℤ) : Procedure Bool :=
  ask (.acquireLock key value expiration)

abbrev httpGet (url : String) : Procedure HttpReply := ask (.httpGet url)

abbrev httpPost (url file : String) : Procedure HttpReply := ask (.httpPost url file)

abbrev signXml (xml rncEmisor : String) : Procedure (Except String String) :=
  ask (.signXml xml rncEmisor)

abbrev validMemoryToken (manager : ℕ) : Procedure (Option String) :=
  ask (.memory manager .validMemoryToken)

abbrev takeResult (manager : ℕ) : Procedure (String × ℤ) := ask (.memory manager .takeResult)

/-! ## The manager -/

/-- What a manager is built with. -/
structure Config where
  rncEmisor : String
  ambiente : AmbienteEnum
  autenticacionUrl : String := ""
  hasCache : Bool := true

/-- `static_cast<int>(config_.ambiente)`. -/
def ambienteCode : AmbienteEnum → ℕ
  | .preCertificacion => 1
  | .certificacion => 2
  | .produccion => 3

def Config.cacheKey (c : Config) : String :=
  "ecf:tokens:" ++ c.rncEmisor ++ ":" ++ decimal (ambienteCode c.ambiente)

def Config.lockKey (c : Config) : String :=
  "ecf:tokens:lock:" ++ c.rncEmisor ++ ":" ++ decimal (ambienteCode c.ambiente)

variable (ext : AuthenticationParsers) (c : Config) (m : ℕ)

/-- A token of the shared cache; an empty one counts for nothing. -/
def cachedToken : Procedure (Option String) := do
  match ← cacheGet c.cacheKey with
  | some token => return if token = "" then none else some token
  | none => return none

/-- A token of the shared cache is kept in memory, for 50 minutes. -/
def adopt (token : String) : Procedure String := do
  let _ ← ask (.memory m (.adopt token))
  return token

/-- `renewToken`. -/
def renewToken : Procedure Unit := do
  let seedResp ← httpGet (c.autenticacionUrl ++ "/api/autenticacion/semilla")
  let semillaXml ← Program.raise (readSeed seedResp)
  let semillaFirmada ← Program.raise (← signXml semillaXml c.rncEmisor)
  let validateResp ← httpPost (c.autenticacionUrl ++ "/api/autenticacion/validarsemilla")
    semillaFirmada
  let (token, expira) ← Program.raise (readValidation ext validateResp)
  let _ ← ask (.memory m (.storeRenewed token expira))

/-- `DistLockGuard::release`. -/
def releaseDistLock (lockValue : String) (acquired : Bool) : Procedure Unit := do
  if acquired then
    let _ ← ask (.releaseLock c.lockKey lockValue)

/-- `getToken` under the renewal mutex. -/
def renewSection (lockValue : String) (acquired : Bool) : Procedure String := do
  match ← validMemoryToken m with
  | some token =>
    releaseDistLock c lockValue acquired
    return token
  | none =>
    renewToken ext c m
    let (tokenResult, ttlSeconds) ← takeResult m
    if c.hasCache ∧ tokenResult ≠ "" ∧ 0 < ttlSeconds then
      let _ ← ask (.cacheSet c.cacheKey tokenResult ttlSeconds)
    releaseDistLock c lockValue acquired
    return tokenResult

/-- `getToken` from the guards on; both are released when it throws, the mutex
first. -/
def guardedRenewal (lockValue : String) (acquired : Bool) : Procedure String := do
  let _ ← ask (.lockRenew m)
  let token ← (renewSection ext c m lockValue acquired).tryCatch fun e => do
    let _ ← ask (.unlockRenew m)
    releaseDistLock c lockValue acquired
    .throw e
  let _ ← ask (.unlockRenew m)
  return token

/-- The polling of a call that did not get the lock. -/
def pollCache : ℕ → Procedure (Option String)
  | 0 => return none
  | attempts + 1 => do
    let _ ← ask (.sleep 250)
    match ← cachedToken c with
    | some token => return some token
    | none => pollCache attempts

/-- `getToken` from the lock on, in a manager with a cache. -/
def renewWithCache (lockValue : String) : Procedure String := do
  if ← acquireLock c.lockKey lockValue 30 then
    match ← cachedToken c with
    | some token =>
      let _ ← ask (.releaseLock c.lockKey lockValue)
      adopt m token
    | none => guardedRenewal ext c m lockValue true
  else
    match ← pollCache c 12 with
    | some token => adopt m token
    | none =>
      if ← acquireLock c.lockKey lockValue 30 then guardedRenewal ext c m lockValue true
      else
        match ← cachedToken c with
        | some token => adopt m token
        | none =>
          .throw "No se pudo obtener el token DGII: bloqueo distribuido retenido por otra instancia."

/-- `getToken` from the memory check on. -/
def tokenFromMemory : Procedure String := do
  match ← validMemoryToken m with
  | some token => return token
  | none =>
    let lockValue ← ask .lockValue
    if c.hasCache then renewWithCache ext c m lockValue
    else guardedRenewal ext c m lockValue false

/-- `EcfTokenManager::getToken`. -/
def getToken : Procedure String := do
  if c.hasCache then
    match ← cachedToken c with
    | some token => adopt m token
    | none => tokenFromMemory ext c m
  else tokenFromMemory ext c m

/-- `EcfTokenManager::invalidate`. -/
def invalidate : Procedure Unit := do
  let _ ← ask (.memory m .clear)
  if c.hasCache then
    let _ ← ask (.cacheRemove c.cacheKey)

/-! ## The host -/

/-- The members of a manager that change. -/
structure Memory where
  cachedToken : String := ""
  tokenExpiry : ℤ := 0
  renewing : Bool := false
  deriving DecidableEq

/-- The managers, the cache they share, and DGII's record of the tokens it has
issued, with their expiry texts. -/
structure World where
  clock : ℤ
  cache : Table String String := Table.empty
  managers : ℕ → Memory := fun _ => {}
  issued : List (String × String) := []

/-- What the surroundings decide in one step. -/
structure Input where
  elapsed : ℕ := 0
  miss : Bool := false
  granted : Bool := true
  text : String := ""
  failure : Option String := none
  http : HttpReply := {}

/-- Nanoseconds in a minute. -/
def minute : ℤ := 60 * second

/-- The token DGII issues with a reply, and its expiry text. -/
def issuedWith (ext : AuthenticationParsers) (resp : HttpReply) : Option (String × String) :=
  (readValidation ext resp).toOption

/-- A section of a manager. -/
def sectionAnswer (now : ℤ) (memory : Memory) : (part : Section) → part.Reply × Memory
  | .adopt token =>
    ((), { memory with cachedToken := token, tokenExpiry := now + 50 * minute })
  | .validMemoryToken =>
    (if memory.cachedToken ≠ "" ∧ 5 < (memory.tokenExpiry - now).tdiv minute then
      some memory.cachedToken else none, memory)
  | .storeRenewed token expira =>
    ((), { memory with
      cachedToken := token, tokenExpiry := (parseExpiry expira).getD (now + 60 * minute) })
  | .takeResult => ((memory.cachedToken, (memory.tokenExpiry - now).tdiv second), memory)
  | .clear => ((), { memory with cachedToken := "", tokenExpiry := 0 })

/-- The token memory answers with. -/
theorem validMemoryToken_eq_some {now : ℤ} {memory : Memory} {token : String}
    (valid : (sectionAnswer now memory .validMemoryToken).1 = some token) :
    memory.cachedToken = token ∧ memory.cachedToken ≠ "" ∧
      5 < (memory.tokenExpiry - now).tdiv minute := by
  have valid : (if memory.cachedToken ≠ "" ∧ 5 < (memory.tokenExpiry - now).tdiv minute then
      some memory.cachedToken else none) = some token := valid
  split at valid
  · next usable => exact ⟨Option.some.inj valid, usable⟩
  · exact absurd valid nofun

/-- A change of one manager. -/
def World.setMemory (w : World) (m : ℕ) (memory : Memory) : World :=
  { w with managers := Function.update w.managers m memory }

/-- One answer; the clock has already moved.  A cache read may miss. -/
def answerAt (input : Input) (w : World) : (r : Request) → r.Reply × World
  | .cacheGet key => (if input.miss then none else w.cache.lookup key w.clock, w)
  | .cacheSet key value expiration =>
    ((), { w with cache := w.cache.put key ⟨value, some (w.clock + expiration * second)⟩ })
  | .cacheRemove key => ((), { w with cache := w.cache.erase key })
  | .acquireLock .. => (input.granted, w)
  | .releaseLock .. => ((), w)
  | .lockValue => (input.text, w)
  | .sleep _ => ((), w)
  | .httpGet _ => (input.http, w)
  | .httpPost .. => (input.http, { w with issued := w.issued ++ (issuedWith ext input.http).toList })
  | .signXml .. =>
    (match input.failure with
      | some e => .error e
      | none => .ok input.text, w)
  | .lockRenew m => ((), w.setMemory m { w.managers m with renewing := true })
  | .unlockRenew m => ((), w.setMemory m { w.managers m with renewing := false })
  | .memory m part =>
    ((sectionAnswer w.clock (w.managers m) part).1,
      w.setMemory m (sectionAnswer w.clock (w.managers m) part).2)

/-- Time passes. -/
def World.pass (elapsed : ℕ) (w : World) : World := { w with clock := w.clock + elapsed }

/-- The host of the managers: time passes, then the request is answered. -/
def tokenHost : Host TokenApi World Input where
  answer input w r := answerAt ext input (w.pass input.elapsed) r

/-- The host of a call within which no time passes. -/
def stillHost : Host TokenApi World Input where
  answer input w r := answerAt ext input w r

/-! ## A small deployment -/

/-- DGII speaks JSON; every text is a token of one hour, from midnight on. -/
def sampleParsers : AuthenticationParsers where
  parseJson text :=
    .object [("token", .string text), ("expira", .string "1970-01-01T01:00:00.000Z")]
  dump _ := ""
  parseXml _ := none
  stod _ := none
  jsonError _ := ""

/-- The managers of one issuer. -/
def sampleConfig : Config := { rncEmisor := "101672919", ambiente := .preCertificacion }

end EcfDgii.TokenManager
