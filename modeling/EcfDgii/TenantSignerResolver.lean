import EcfDgii.CertificatePasswords
import EcfDgii.Execution
import EcfDgii.Timestamps

/-!
Whose certificate signs (`TenantSignerResolver.cpp`, and the constructors of
`EcfXmlSigner`).

A call asks for the signer of a taxpayer and a tenant.  It reads the clock, looks
into the cache of the process, then into the table of tenants, then for a file on
the disk, and keeps what it has loaded for five minutes of the clock it read.
All of that is a program over `Request`; `resolverHost` answers over a `World` of
the clock, the cache, the table and the files.  Others may change the table and
the files before any answer, and the database may fail.

The certificates themselves are a parameter: `parseCertInfo` is what OpenSSL
reads of a PKCS#12 container.  The clock does not go back.
-/

set_option autoImplicit false

namespace EcfDgii.TenantSignerResolver

open EcfDgii.Text EcfDgii.Timestamps EcfDgii.Programs EcfDgii.Execution
open EcfDgii.CertificatePasswords

/-! ## Signers -/

/-- `CertInfo`, the moments in nanoseconds. -/
structure CertInfo where
  subject : String
  issuer : String
  san : String
  isSelfSigned : Bool
  notBefore : ℤ
  notAfter : ℤ
  deriving DecidableEq

/-- A PKCS#12 container, the password it opens with, and what is read of it. -/
structure EcfXmlSigner where
  pfxBytes : String
  pfxPassword : String
  usesFallbackCertificate : Bool
  info : CertInfo
  deriving DecidableEq

/-- What a resolver reads of a tenant. -/
structure Tenant where
  id : String
  code : Option String
  rnc : Option String
  isActive : Option Bool
  certificateRawData : Option String
  certificatePasswordEncrypted : Option String
  deriving DecidableEq

/-- `REPLACE(REPLACE("Rnc", '-', ''), ' ', '')`. -/
def withoutSeparators (rnc : String) : String :=
  String.ofList (rnc.toList.filter fun c => c ≠ '-' && c ≠ ' ')

/-- The `WHERE` clause, with a tenant or without one. -/
def Tenant.Serves (cleanRnc : String) (tenantId : Option String) (row : Tenant) : Prop :=
  row.rnc.map withoutSeparators = some cleanRnc ∧
    (∀ T ∈ tenantId, row.code = some T ∨ row.id = T) ∧ row.isActive = some true

instance (cleanRnc : String) (tenantId : Option String) (row : Tenant) :
    Decidable (row.Serves cleanRnc tenantId) :=
  inferInstanceAs (Decidable (_ ∧ _ ∧ _))

/-! ## Requests -/

inductive Request
  | currentTime
  | findCached (cacheKey : String) (now : ℕ)
  | selectTenant (cleanRnc : String) (tenantId : Option String)
  | fileExists (path : String)
  | openFile (path : String)
  | generateSelfSignedPfx (password : String)
  | storeCached (cacheKey : String) (signer : EcfXmlSigner) (expiresAt : ℕ)
  deriving DecidableEq

def Request.Reply : Request → Type
  | .currentTime => ℕ
  | .findCached .. => Option EcfXmlSigner
  | .selectTenant .. => Except String (Option Tenant)
  | .fileExists _ => Bool
  | .openFile _ => Option String
  | .generateSelfSignedPfx _ => Except String String
  | .storeCached .. => Unit

abbrev ResolverApi : Interface := ⟨Request, Request.Reply⟩

abbrev Procedure (α : Type) := Program ResolverApi α

abbrev ask (r : Request) : Procedure r.Reply := Program.perform (I := ResolverApi) r

abbrev currentTime : Procedure ℕ := ask .currentTime

abbrev findCached (cacheKey : String) (now : ℕ) : Procedure (Option EcfXmlSigner) :=
  ask (.findCached cacheKey now)

abbrev selectTenant (cleanRnc : String) (tenantId : Option String) :
    Procedure (Except String (Option Tenant)) := ask (.selectTenant cleanRnc tenantId)

abbrev fileExists (path : String) : Procedure Bool := ask (.fileExists path)

abbrev openFile (path : String) : Procedure (Option String) := ask (.openFile path)

abbrev generateSelfSignedPfx (password : String) : Procedure (Except String String) :=
  ask (.generateSelfSignedPfx password)

/-! ## Loading a certificate -/

/-- What a resolver is built with, and the process it runs in. -/
structure Resolver (Key : Type) where
  connectionString : String
  defaultSigner : EcfXmlSigner
  masterKey : String := ""
  crypto : Crypto Key
  getenv : String → Option String
  ensureXmlSecInit : Except String Unit := .ok ()
  parseCertInfo : String → String → Except String CertInfo

variable {Key : Type} (resolver : Resolver Key)

/-- The end of both constructors. -/
def readSigner (pfxBytes pfxPassword : String) (usesFallbackCertificate : Bool) :
    Except String EcfXmlSigner :=
  (resolver.parseCertInfo pfxBytes pfxPassword).map
    (⟨pfxBytes, pfxPassword, usesFallbackCertificate, ·⟩)

/-- `EcfXmlSigner(pfxBytes, pfxPassword)`. -/
def signerOfBytes (pfxBytes pfxPassword : String) : Procedure EcfXmlSigner := do
  Program.raise resolver.ensureXmlSecInit
  if pfxBytes = "" then
    let generated ← Program.raise (← generateSelfSignedPfx "EcfTestPassword123!")
    Program.raise (readSigner resolver generated "EcfTestPassword123!" true)
  else Program.raise (readSigner resolver pfxBytes pfxPassword false)

/-- `EcfXmlSigner(pfxPath, pfxPassword)`. -/
def signerOfFile (pfxPath pfxPassword : String) : Procedure EcfXmlSigner := do
  Program.raise resolver.ensureXmlSecInit
  let opened ← if pfxPath = "" then pure none else openFile pfxPath
  match opened with
  | some pfxBytes => Program.raise (readSigner resolver pfxBytes pfxPassword false)
  | none =>
    let generated ← Program.raise (← generateSelfSignedPfx pfxPassword)
    Program.raise (readSigner resolver generated pfxPassword true)

/-! ## The resolver -/

/-- A call: `resolveTenantSignerOnly(rnc, tenantId)`. -/
structure Call where
  rnc : String
  tenantId : String := ""
  deriving DecidableEq

def Call.cleanRnc (c : Call) : String := cleanDigits c.rnc

def Call.cacheKey (c : Call) : String := c.cleanRnc ++ ":" ++ c.tenantId

/-- A tenant is named. -/
def Call.Specific (c : Call) : Prop :=
  c.tenantId ≠ "" ∧ c.tenantId ≠ "default" ∧ c.tenantId ≠ "default-tenant"
  deriving Decidable

/-- The second parameter of the query, if it has one. -/
def Call.wanted (c : Call) : Option String := if c.Specific then some c.tenantId else none

/-- The files of the disk are for the calls that name no tenant, or the taxpayer. -/
def Call.OnDisk (c : Call) : Prop := ¬ c.Specific ∨ c.tenantId = c.cleanRnc
  deriving Decidable

/-- How long a signer is kept, in nanoseconds. -/
def fiveMinutes : ℕ := 300 * second

/-- Load, keep, and return; a failure is logged. -/
def keep (c : Call) (now : ℕ) (load : Procedure EcfXmlSigner) : Procedure (Option EcfXmlSigner) :=
  Program.tryCatch
    (do
      let signer ← load
      ask (.storeCached c.cacheKey signer (now + fiveMinutes))
      return some signer)
    fun _ => return none

/-- The password of a row's certificate. -/
def tenantPassword (row : Tenant) : String :=
  decryptPasswordIfEncrypted resolver.crypto resolver.getenv
    (row.certificatePasswordEncrypted.getD "") resolver.masterKey (row.code.getD "")

/-- The certificate of a row. -/
def tenantSigner (c : Call) (now : ℕ) (row : Tenant) : Procedure (Option EcfXmlSigner) :=
  match row.certificateRawData with
  | some rawData =>
    if rawData ≠ "" then keep c now (signerOfBytes resolver rawData (tenantPassword resolver row))
    else return none
  | none => return none

/-- The second part: the table of tenants. -/
def databaseSigner (c : Call) (now : ℕ) : Procedure (Option EcfXmlSigner) :=
  if resolver.connectionString ∈ ["", "InMemory", "inmemory"] then return none
  else do
    match ← selectTenant c.cleanRnc c.wanted with
    | .ok (some row) => tenantSigner resolver c now row
    | _ => return none

def certDirs : List String := ["/app/certificates", "certificates"]

def pfxPath (c : Call) (dir : String) : String := dir ++ "/" ++ c.cleanRnc ++ ".pfx"

def diskCertPassword : String := (resolver.getenv "ECF_CERTIFICATE_PASSWORD").getD ""

/-- The files of some directories, in order. -/
def directorySigner (c : Call) (now : ℕ) : List String → Procedure (Option EcfXmlSigner)
  | [] => return none
  | dir :: dirs => do
    if ← fileExists (pfxPath c dir) then
      match ← keep c now
          (signerOfFile resolver (pfxPath c dir) (diskCertPassword resolver)) with
      | some signer => return some signer
      | none => directorySigner c now dirs
    else directorySigner c now dirs

/-- `TenantSignerResolver::resolveTenantSignerOnly`. -/
def resolveTenantSignerOnly (c : Call) : Procedure (Option EcfXmlSigner) :=
  if c.rnc = "" ∨ c.cleanRnc = "" then return none
  else do
    let now ← currentTime
    match ← findCached c.cacheKey now with
    | some signer => return some signer
    | none =>
      match ← databaseSigner resolver c now with
      | some signer => return some signer
      | none => if c.OnDisk then directorySigner resolver c now certDirs else return none

/-- `TenantSignerResolver::resolveSigner`. -/
def resolveSigner (rnc : String) : Procedure EcfXmlSigner := do
  let signer ← resolveTenantSignerOnly resolver { rnc }
  return signer.getD resolver.defaultSigner

/-! ## The world -/

structure CachedSigner where
  signer : EcfXmlSigner
  expiresAt : ℕ

structure World where
  clock : ℕ
  cache : String → Option CachedSigner := fun _ => none
  tenants : List Tenant
  files : String → Option String := fun _ => none

/-- What the environment decides when a request is answered. -/
structure Input where
  elapsed : ℕ := 0
  /-- What others have made of the table and the files. -/
  tenants : Option (List Tenant) := none
  files : Option (String → Option String) := none
  databaseError : Option String := none
  /-- Which of the rows that serve `LIMIT 1` takes. -/
  pick : ℕ := 0
  unreadable : Bool := false
  selfSigned : Except String String := .error "no key"

/-- The world at the moment of the answer. -/
def World.meanwhile (w : World) (i : Input) : World :=
  { w with
    clock := w.clock + i.elapsed
    tenants := i.tenants.getD w.tenants
    files := i.files.getD w.files }

/-- A cached signer whose time is not over. -/
def World.cached (w : World) (cacheKey : String) (now : ℕ) : Option EcfXmlSigner :=
  ((w.cache cacheKey).filter (now < ·.expiresAt)).map (·.signer)

/-- The answer of the database. -/
def World.select (w : World) (i : Input) (cleanRnc : String) (tenantId : Option String) :
    Except String (Option Tenant) :=
  match i.databaseError with
  | some e => .error e
  | none =>
    let rows := w.tenants.filter (Tenant.Serves cleanRnc tenantId)
    .ok (rows[i.pick % rows.length]?)

/-- The answers. -/
def resolverHost : Host ResolverApi World Input where
  answer i w r :=
    let w := w.meanwhile i
    match r with
    | .currentTime => (w.clock, w)
    | .findCached cacheKey now => (w.cached cacheKey now, w)
    | .selectTenant cleanRnc tenantId => (w.select i cleanRnc tenantId, w)
    | .fileExists path => ((w.files path).isSome, w)
    | .openFile path => (if i.unreadable then none else w.files path, w)
    | .generateSelfSignedPfx _ => (i.selfSigned, w)
    | .storeCached cacheKey signer expiresAt =>
      ((), { w with cache := Function.update w.cache cacheKey (some ⟨signer, expiresAt⟩) })

end EcfDgii.TenantSignerResolver
