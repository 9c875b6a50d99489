import EcfDgii.Text
import Mathlib.Data.Set.Insert

/-!
The encrypted passwords of certificates
(`TenantSignerResolver::decryptPasswordIfEncrypted`).

A text names one of three versions and holds a nonce, a tag and a ciphertext in
one of that version's layouts.  Which keys and which associated data are tried
depends on the version, on the secrets of the process and on the tenant.  What is
known of the ciphers is `Ideal`: a ciphertext opens under what it was sealed
under, and different secrets and derivations have different keys.
`exact_of_ideal` says that a text opens exactly when it was sealed in a way its
version permits, `another_tenant` that a password sealed for one tenant does not
open for another.  A character stands for a byte.
-/

set_option autoImplicit false

namespace EcfDgii.CertificatePasswords

open EcfDgii.Text

/-! ## Decryption -/

/-- OpenSSL, and drogon's base64. -/
structure Crypto (Key : Type) where
  base64Decode : String → String
  /-- HKDF with SHA-256, of a secret for a purpose. -/
  hkdfSha256 : String → String → Key
  sha256 : String → Key
  /-- AES-256-GCM: key, nonce, associated data, ciphertext, tag. -/
  gcmOpen : Key → String → String → String → String → Option String

/-- The versions of an encrypted text. -/
inductive Version
  | v1
  | v2
  | v3
  deriving DecidableEq

/-- The prefix of a text. -/
def version (encryptedText : String) : Option Version :=
  if startsWith encryptedText "enc:v1:" then some .v1
  else if startsWith encryptedText "enc:v2:" then some .v2
  else if startsWith encryptedText "enc:v3:" then some .v3
  else none

/-- The payload, split at its colons. -/
def parts (encryptedText : String) : List String :=
  ((dropFirst 7 encryptedText).toList.splitOn ':').map String.ofList

structure Envelope where
  nonce : String
  cipherBytes : String
  tag : String

section

variable {Key : Type} (lib : Crypto Key) (getenv : String → Option String)

/-- `nonce[12] || tag[16] || cipher[N]`. -/
def combinedEnvelope (combinedB64 : String) : Option Envelope :=
  let combined := lib.base64Decode combinedB64
  if combined.length < 28 then none
  else some {
    nonce := takeFirst 12 combined
    tag := takeFirst 16 (dropFirst 12 combined)
    cipherBytes := dropFirst 28 combined }

/-- The parts in three texts. -/
def separateEnvelope (nonce cipherBytes tag : String) : Envelope where
  nonce := lib.base64Decode nonce
  cipherBytes := lib.base64Decode cipherBytes
  tag := lib.base64Decode tag

/-- The layouts of the versions. -/
def envelope : Version → List String → Option Envelope
  | .v1, [nonce, cipherBytes, tag] => some (separateEnvelope lib nonce cipherBytes tag)
  | .v2, [_, nonce, cipherBytes, tag] => some (separateEnvelope lib nonce cipherBytes tag)
  | _, [combinedB64] => combinedEnvelope lib combinedB64
  | .v2, [_, combinedB64] => combinedEnvelope lib combinedB64
  | _, _ => none

/-- `pushSecret`. -/
def pushSecret (candidateSecrets : List String) (s : String) : List String :=
  let trimmed := trim s
  if trimmed ≠ "" ∧ trimmed ∉ candidateSecrets then candidateSecrets ++ [trimmed]
  else candidateSecrets

def envNames : List String :=
  ["CERT_ENCRYPTION_KEY", "STORAGE_ENCRYPTION_KEY", "Security__CertificateEncryptionKey",
    "JWT_SECRET", "JWT_SECRET_KEY", "JWT__SecretKey", "JwtSettings__Secret", "WORKER_SECRET_KEY",
    "WorkerSecretKey"]

/-- A variable of the environment, if it is set. -/
def pushVariable (candidateSecrets : List String) (name : String) : List String :=
  match getenv name with
  | some v => if v ≠ "" then pushSecret candidateSecrets v else candidateSecrets
  | none => candidateSecrets

/-- The secrets that are tried, in order. -/
def candidateSecrets (masterKey : String) : List String :=
  envNames.foldl (pushVariable getenv) (if masterKey ≠ "" then pushSecret [] masterKey else [])

/-- The tag of a tenant. -/
def tenantTag (tenantCode : String) : String :=
  let tag := trim tenantCode
  tolower (if tag = "" then "default" else tag)

/-- The associated data of the third version. -/
def aadV3 (tag : String) : String := "tenant:" ++ tag ++ "|field:CertificatePassword|v3"

/-- The purpose of the derived keys. -/
def hkdfInfo : String := "ecf:certificate-password:v1"

/-- `aes256GcmDecrypt`. -/
def aes256GcmDecrypt (key : Key) (e : Envelope) (aad : String) : Option String :=
  if e.nonce.length ≠ 12 ∨ e.tag.length ≠ 16 then none
  else lib.gcmOpen key e.nonce aad e.cipherBytes e.tag

/-- What is tried with one secret. -/
def trySecret (v : Version) (tag : String) (e : Envelope) (secret : String) : Option String :=
  let hkdfKey := lib.hkdfSha256 secret hkdfInfo
  let withHkdf :=
    if v = .v1 then none
    else (aes256GcmDecrypt lib hkdfKey e (if v = .v3 then aadV3 tag else "")).orElse fun _ =>
      if v = .v3 ∧ tag ≠ "default" then aes256GcmDecrypt lib hkdfKey e (aadV3 "default") else none
  withHkdf.orElse fun _ => if v = .v3 then none else aes256GcmDecrypt lib (lib.sha256 secret) e ""

/-- The plaintext of a text of some version, if there is one. -/
def plainText (v : Version) (encryptedText masterKey tenantCode : String) : Option String :=
  (envelope lib v (parts encryptedText)).bind fun e =>
    if e.nonce.length ≠ 12 ∨ e.tag.length ≠ 16 then none
    else (candidateSecrets getenv masterKey).findSome? (trySecret lib v (tenantTag tenantCode) e)

/-- `TenantSignerResolver::decryptPasswordIfEncrypted`. -/
def decryptPasswordIfEncrypted (encryptedText masterKey tenantCode : String) : String :=
  if encryptedText = "" then ""
  else
    match version encryptedText with
    | none => encryptedText
    | some v => (plainText lib getenv v encryptedText masterKey tenantCode).getD ""

end

/-! ## Sealing -/

/-- How a key comes from a secret. -/
inductive Derivation
  | hkdf (info : String)
  | sha256
  deriving DecidableEq

/-- A plaintext that was sealed, and what it was sealed under. -/
structure Sealing where
  derivation : Derivation
  secret : String
  nonce : String
  aad : String
  plainText : String
  cipherBytes : String
  tag : String

def Sealing.envelope (s : Sealing) : Envelope where
  nonce := s.nonce
  cipherBytes := s.cipherBytes
  tag := s.tag

section

variable {Key : Type} (lib : Crypto Key)

def Crypto.key : Derivation → String → Key
  | .hkdf info, secret => lib.hkdfSha256 secret info
  | .sha256, secret => lib.sha256 secret

/-- **An ideal cipher.** What was sealed opens under its key, nonce and associated
data, nothing else opens, and no key comes about in two ways. -/
structure Ideal (sealings : Set Sealing) : Prop where
  opens : ∀ key nonce aad cipherBytes tag plain,
    lib.gcmOpen key nonce aad cipherBytes tag = some plain ↔
      ∃ s ∈ sealings, lib.key s.derivation s.secret = key ∧ s.nonce = nonce ∧ s.aad = aad ∧
        s.cipherBytes = cipherBytes ∧ s.tag = tag ∧ s.plainText = plain
  distinct : ∀ derivation secret derivation' secret',
    lib.key derivation secret = lib.key derivation' secret' →
      derivation = derivation' ∧ secret = secret'

end

/-! ## What a text opens as -/

/-- The layouts of a version. -/
inductive Layout (base64Decode : String → String) : Version → List String → Envelope → Prop
  | first (nonce cipherBytes tag : String) :
      Layout base64Decode .v1 [nonce, cipherBytes, tag]
        ⟨base64Decode nonce, base64Decode cipherBytes, base64Decode tag⟩
  | second (keyId nonce cipherBytes tag : String) :
      Layout base64Decode .v2 [keyId, nonce, cipherBytes, tag]
        ⟨base64Decode nonce, base64Decode cipherBytes, base64Decode tag⟩
  | combined (v : Version) (part : String) (e : Envelope)
      (decoded : base64Decode part = e.nonce ++ (e.tag ++ e.cipherBytes)) :
      Layout base64Decode v [part] e
  | identified (keyId part : String) (e : Envelope)
      (decoded : base64Decode part = e.nonce ++ (e.tag ++ e.cipherBytes)) :
      Layout base64Decode .v2 [keyId, part] e

/-- The lengths that AES-256-GCM asks for. -/
def Envelope.Sized (e : Envelope) : Prop := e.nonce.length = 12 ∧ e.tag.length = 16

/-- The derivations and associated data of a version, for a tenant's tag. -/
inductive Permitted (tag : String) : Version → Derivation → String → Prop
  | first : Permitted tag .v1 .sha256 ""
  | second : Permitted tag .v2 .sha256 ""
  | derived : Permitted tag .v2 (.hkdf hkdfInfo) ""
  | tenant : Permitted tag .v3 (.hkdf hkdfInfo) (aadV3 tag)
  | fallback : Permitted tag .v3 (.hkdf hkdfInfo) (aadV3 "default")

/-- A secret of the process: the master key or a variable, trimmed and not empty. -/
def Candidate (getenv : String → Option String) (masterKey secret : String) : Prop :=
  secret ≠ "" ∧
    (trim masterKey = secret ∨ ∃ name ∈ envNames, ∃ v, getenv name = some v ∧ trim v = secret)

/-- The text holds the sealing, in a way its version permits. -/
structure OpensAs (base64Decode : String → String) (getenv : String → Option String) (v : Version)
    (encryptedText masterKey tenantCode : String) (s : Sealing) : Prop where
  layout : Layout base64Decode v (parts encryptedText) s.envelope
  sized : s.envelope.Sized
  candidate : Candidate getenv masterKey s.secret
  permitted : Permitted (tenantTag tenantCode) v s.derivation s.aad

/-- **What a text of some version yields.** A plaintext exactly when a sealing it holds
is permitted, such a sealing's plaintext, and otherwise nothing. -/
structure Exact {Key : Type} (lib : Crypto Key) (getenv : String → Option String)
    (sealings : Set Sealing) (v : Version) (encryptedText masterKey tenantCode : String) :
    Prop where
  yields : (plainText lib getenv v encryptedText masterKey tenantCode).isSome ↔
    ∃ s ∈ sealings, OpensAs lib.base64Decode getenv v encryptedText masterKey tenantCode s
  sealed : ∀ plain, plainText lib getenv v encryptedText masterKey tenantCode = some plain →
    ∃ s ∈ sealings, OpensAs lib.base64Decode getenv v encryptedText masterKey tenantCode s ∧
      s.plainText = plain
  answer : decryptPasswordIfEncrypted lib getenv encryptedText masterKey tenantCode =
    (plainText lib getenv v encryptedText masterKey tenantCode).getD ""
  refused : (¬ ∃ s ∈ sealings,
      OpensAs lib.base64Decode getenv v encryptedText masterKey tenantCode s) →
    decryptPasswordIfEncrypted lib getenv encryptedText masterKey tenantCode = ""

/-! ## The secrets -/

theorem mem_pushSecret {s secret : String} {candidateSecrets : List String} :
    secret ∈ pushSecret candidateSecrets s ↔
      secret ∈ candidateSecrets ∨ (secret ≠ "" ∧ trim s = secret) := by
  simp only [pushSecret]
  split
  · rename_i fresh
    rw [List.mem_append, List.mem_singleton]
    constructor
    · rintro (there | rfl)
      · exact .inl there
      · exact .inr ⟨fresh.1, rfl⟩
    · rintro (there | ⟨-, rfl⟩)
      · exact .inl there
      · exact .inr rfl
  · rename_i stale
    constructor
    · exact .inl
    · rintro (there | ⟨filled, rfl⟩)
      · exact there
      · by_contra missing
        exact stale ⟨filled, missing⟩

theorem mem_pushVariable {getenv : String → Option String} {name secret : String}
    {candidateSecrets : List String} :
    secret ∈ pushVariable getenv candidateSecrets name ↔
      secret ∈ candidateSecrets ∨ (secret ≠ "" ∧ ∃ v, getenv name = some v ∧ trim v = secret) := by
  unfold pushVariable
  split
  · rename_i v set
    split
    · simp [mem_pushSecret, set]
    · rename_i blank
      have empty : v = "" := by simpa using blank
      subst empty
      constructor
      · exact .inl
      · rintro (there | ⟨filled, v, set', rfl⟩)
        · exact there
        · rw [set, Option.some.injEq] at set'
          exact absurd (set' ▸ trim_empty) filled
  · rename_i unset
    simp [unset]

theorem mem_foldl_pushVariable {getenv : String → Option String} {secret : String}
    (names : List String) (candidateSecrets : List String) :
    secret ∈ names.foldl (pushVariable getenv) candidateSecrets ↔
      secret ∈ candidateSecrets ∨
        (secret ≠ "" ∧ ∃ name ∈ names, ∃ v, getenv name = some v ∧ trim v = secret) := by
  induction names generalizing candidateSecrets with
  | nil => simp
  | cons name names ih =>
    rw [List.foldl_cons, ih, mem_pushVariable]
    simp only [List.mem_cons, exists_eq_or_imp]
    constructor
    · rintro ((there | ⟨filled, here⟩) | ⟨filled, later⟩)
      · exact .inl there
      · exact .inr ⟨filled, .inl here⟩
      · exact .inr ⟨filled, .inr later⟩
    · rintro (there | ⟨filled, here | later⟩)
      · exact .inl (.inl there)
      · exact .inl (.inr ⟨filled, here⟩)
      · exact .inr ⟨filled, later⟩

theorem mem_candidateSecrets {getenv : String → Option String} {masterKey secret : String} :
    secret ∈ candidateSecrets getenv masterKey ↔ Candidate getenv masterKey secret := by
  have master : secret ∈ (if masterKey ≠ "" then pushSecret [] masterKey else []) ↔
      secret ≠ "" ∧ trim masterKey = secret := by
    split
    · simp [mem_pushSecret]
    · rename_i blank
      have empty : masterKey = "" := by simpa using blank
      subst empty
      rw [trim_empty]
      simp [eq_comm]
  rw [candidateSecrets, mem_foldl_pushVariable, master, Candidate, ← and_or_left]

/-! ## The layouts -/

theorem takeFirst_append_dropFirst (n : ℕ) (s : String) :
    takeFirst n s ++ dropFirst n s = s := by
  simp [takeFirst, dropFirst, ← String.ofList_append]

theorem length_takeFirst {n : ℕ} {s : String} (long : n ≤ s.length) :
    (takeFirst n s).length = n := by
  simp only [takeFirst, String.length_ofList, List.length_take, String.length_toList]
  omega

theorem length_dropFirst (n : ℕ) (s : String) : (dropFirst n s).length = s.length - n := by
  simp [dropFirst, String.length_toList]

theorem takeFirst_append {n : ℕ} {s t : String} (long : s.length = n) :
    takeFirst n (s ++ t) = s := by
  rw [takeFirst, String.toList_append, List.take_left' (by rw [String.length_toList, long]),
    String.ofList_toList]

theorem dropFirst_append {n : ℕ} {s t : String} (long : s.length = n) :
    dropFirst n (s ++ t) = t := by
  rw [dropFirst, String.toList_append, List.drop_left' (by rw [String.length_toList, long]),
    String.ofList_toList]

variable {Key : Type} {lib : Crypto Key} {getenv : String → Option String}

theorem dropFirst_dropFirst (m n : ℕ) (s : String) :
    dropFirst m (dropFirst n s) = dropFirst (n + m) s := by
  simp [dropFirst, List.drop_drop]

theorem Envelope.sized_iff {e : Envelope} :
    ¬ (e.nonce.length ≠ 12 ∨ e.tag.length ≠ 16) ↔ e.Sized := by
  rw [not_or, not_not, not_not, Envelope.Sized]

/-- A combined envelope is its parts one behind the other. -/
theorem combinedEnvelope_iff {part : String} {e : Envelope} :
    combinedEnvelope lib part = some e ↔
      e.Sized ∧ lib.base64Decode part = e.nonce ++ (e.tag ++ e.cipherBytes) := by
  obtain ⟨nonce, cipherBytes, tag⟩ := e
  simp only [combinedEnvelope, Envelope.Sized]
  constructor
  · intro h
    split at h
    · cases h
    · rename_i long
      injection h with h
      injection h with hnonce hcipher htag
      subst hnonce hcipher htag
      refine ⟨⟨length_takeFirst (by omega), length_takeFirst ?_⟩, ?_⟩
      · rw [length_dropFirst]
        omega
      · rw [← dropFirst_dropFirst 16 12, takeFirst_append_dropFirst, takeFirst_append_dropFirst]
  · rintro ⟨⟨hnonce, htag⟩, hdecoded⟩
    rw [hdecoded, if_neg (by simp [hnonce, htag]; omega), takeFirst_append hnonce,
      dropFirst_append hnonce, takeFirst_append htag, ← dropFirst_dropFirst 16 12,
      dropFirst_append hnonce, dropFirst_append htag]

/-- The parts are read as the layouts say. -/
theorem envelope_iff {v : Version} {ps : List String} {e : Envelope} (sized : e.Sized) :
    envelope lib v ps = some e ↔ Layout lib.base64Decode v ps e := by
  constructor
  · intro h
    unfold envelope at h
    split at h
    · cases h
      exact .first _ _ _
    · cases h
      exact .second _ _ _ _
    · exact .combined _ _ _ (combinedEnvelope_iff.mp h).2
    · exact .identified _ _ _ (combinedEnvelope_iff.mp h).2
    · cases h
  · intro h
    cases h with
    | first => rfl
    | second => rfl
    | combined _ _ _ decoded => cases v <;> exact combinedEnvelope_iff.mpr ⟨sized, decoded⟩
    | identified _ _ _ decoded => exact combinedEnvelope_iff.mpr ⟨sized, decoded⟩

/-! ## The attempts -/

/-- The keys and the associated data that are tried, in order. -/
def attempts (tag : String) : Version → List (Derivation × String)
  | .v1 => [(.sha256, "")]
  | .v2 => [(.hkdf hkdfInfo, ""), (.sha256, "")]
  | .v3 => if tag ≠ "default"
      then [(.hkdf hkdfInfo, aadV3 tag), (.hkdf hkdfInfo, aadV3 "default")]
      else [(.hkdf hkdfInfo, aadV3 tag)]

theorem findSome?_pair {α β : Type} (f : α → Option β) (a b : α) :
    [a, b].findSome? f = (f a).orElse fun _ => f b := by
  simp only [List.findSome?_cons, List.findSome?_nil]
  cases f a <;> cases f b <;> rfl

theorem trySecret_eq (v : Version) (tag : String) (e : Envelope) (secret : String) :
    trySecret lib v tag e secret =
      (attempts tag v).findSome? fun way =>
        aes256GcmDecrypt lib (lib.key way.1 secret) e way.2 := by
  cases v with
  | v1 => simp [trySecret, attempts, Crypto.key]
  | v2 =>
    rw [attempts, findSome?_pair]
    simp [trySecret, Crypto.key]
  | v3 =>
    by_cases known : tag = "default"
    · simp [trySecret, attempts, Crypto.key, known]
    · rw [attempts, if_pos known, findSome?_pair]
      simp [trySecret, Crypto.key, known]

theorem mem_attempts {tag : String} {v : Version} {derivation : Derivation} {aad : String} :
    (derivation, aad) ∈ attempts tag v ↔ Permitted tag v derivation aad := by
  constructor
  · intro h
    cases v with
    | v1 =>
      obtain ⟨rfl, rfl⟩ : derivation = .sha256 ∧ aad = "" := by simpa [attempts] using h
      exact .first
    | v2 =>
      simp only [attempts, List.mem_cons, Prod.mk.injEq, List.not_mem_nil, or_false] at h
      obtain ⟨rfl, rfl⟩ | ⟨rfl, rfl⟩ := h
      · exact .derived
      · exact .second
    | v3 =>
      simp only [attempts] at h
      split at h
      · simp only [List.mem_cons, Prod.mk.injEq, List.not_mem_nil, or_false] at h
        obtain ⟨rfl, rfl⟩ | ⟨rfl, rfl⟩ := h
        · exact .tenant
        · exact .fallback
      · obtain ⟨rfl, rfl⟩ : derivation = .hkdf hkdfInfo ∧ aad = aadV3 tag := by simpa using h
        exact .tenant
  · intro h
    cases h with
    | first => exact List.mem_singleton_self _
    | second => exact .tail _ (.head _)
    | derived => exact .head _
    | tenant =>
      simp only [attempts]
      split <;> exact .head _
    | fallback =>
      simp only [attempts]
      split
      · exact .tail _ (.head _)
      · rename_i known
        rw [not_not] at known
        rw [known]
        exact .head _

/-! ## Exactness -/

variable {sealings : Set Sealing}

theorem aes256GcmDecrypt_iff (ideal : Ideal lib sealings) {e : Envelope} (sized : e.Sized)
    {derivation : Derivation} {secret aad plain : String} :
    aes256GcmDecrypt lib (lib.key derivation secret) e aad = some plain ↔
      ∃ s ∈ sealings, s.envelope = e ∧ s.derivation = derivation ∧ s.secret = secret ∧
        s.aad = aad ∧ s.plainText = plain := by
  obtain ⟨nonce, cipherBytes, tag⟩ := e
  rw [aes256GcmDecrypt, if_neg (Envelope.sized_iff.mpr sized), ideal.opens]
  constructor
  · rintro ⟨s, known, hkey, rfl, rfl, rfl, rfl, rfl⟩
    obtain ⟨rfl, rfl⟩ := ideal.distinct _ _ _ _ hkey
    exact ⟨s, known, rfl, rfl, rfl, rfl, rfl⟩
  · rintro ⟨s, known, hsame, rfl, rfl, rfl, rfl⟩
    cases hsame
    exact ⟨s, known, rfl, rfl, rfl, rfl, rfl, rfl⟩

/-- With one secret, an envelope opens as what was sealed under that secret. -/
theorem trySecret_spec (ideal : Ideal lib sealings) {v : Version} {tag secret : String}
    {e : Envelope} (sized : e.Sized) :
    (∀ plain, trySecret lib v tag e secret = some plain →
      ∃ s ∈ sealings, s.envelope = e ∧ s.secret = secret ∧ Permitted tag v s.derivation s.aad ∧
        s.plainText = plain) ∧
    ∀ s ∈ sealings, s.envelope = e → s.secret = secret → Permitted tag v s.derivation s.aad →
      (trySecret lib v tag e secret).isSome := by
  rw [trySecret_eq]
  constructor
  · intro plain h
    obtain ⟨⟨derivation, aad⟩, tried, opened⟩ := List.exists_of_findSome?_eq_some h
    obtain ⟨s, known, henv, rfl, hsecret, rfl, hplain⟩ :=
      (aes256GcmDecrypt_iff ideal sized).mp opened
    exact ⟨s, known, henv, hsecret, mem_attempts.mp tried, hplain⟩
  · intro s known henv hsecret permitted
    rw [List.findSome?_isSome_iff]
    have opened := (aes256GcmDecrypt_iff ideal sized).mpr
      ⟨s, known, henv, rfl, hsecret, rfl, rfl⟩
    exact ⟨_, mem_attempts.mpr permitted, by rw [opened]; rfl⟩

variable {v : Version} {encryptedText masterKey tenantCode : String}

theorem plainText_sealed (ideal : Ideal lib sealings) {plain : String}
    (h : plainText lib getenv v encryptedText masterKey tenantCode = some plain) :
    ∃ s ∈ sealings, OpensAs lib.base64Decode getenv v encryptedText masterKey tenantCode s ∧
      s.plainText = plain := by
  obtain ⟨e, henv, h⟩ := Option.bind_eq_some_iff.mp h
  split at h
  · cases h
  · rename_i lengths
    have sized : e.Sized := Envelope.sized_iff.mp lengths
    obtain ⟨secret, tried, opened⟩ := List.exists_of_findSome?_eq_some h
    obtain ⟨s, known, rfl, rfl, permitted, hplain⟩ := (trySecret_spec ideal sized).1 _ opened
    exact ⟨s, known, ⟨(envelope_iff sized).mp henv, sized, mem_candidateSecrets.mp tried,
      permitted⟩, hplain⟩

theorem plainText_of_opensAs (ideal : Ideal lib sealings) {s : Sealing} (known : s ∈ sealings)
    (opens : OpensAs lib.base64Decode getenv v encryptedText masterKey tenantCode s) :
    (plainText lib getenv v encryptedText masterKey tenantCode).isSome := by
  obtain ⟨layout, sized, candidate, permitted⟩ := opens
  have lengths := Envelope.sized_iff.mpr sized
  rw [plainText, (envelope_iff sized).mpr layout, Option.bind_some, if_neg lengths,
    List.findSome?_isSome_iff]
  exact ⟨s.secret, mem_candidateSecrets.mpr candidate,
    (trySecret_spec ideal sized).2 s known rfl rfl permitted⟩

theorem plainText_isSome_iff (ideal : Ideal lib sealings) :
    (plainText lib getenv v encryptedText masterKey tenantCode).isSome ↔
      ∃ s ∈ sealings,
        OpensAs lib.base64Decode getenv v encryptedText masterKey tenantCode s := by
  constructor
  · intro h
    obtain ⟨plain, hplain⟩ := Option.isSome_iff_exists.mp h
    obtain ⟨s, known, opens, -⟩ := plainText_sealed ideal hplain
    exact ⟨s, known, opens⟩
  · rintro ⟨s, known, opens⟩
    exact plainText_of_opensAs ideal known opens

theorem version_empty : version "" = none := by decide

theorem decrypt_eq_getD (named : version encryptedText = some v) :
    decryptPasswordIfEncrypted lib getenv encryptedText masterKey tenantCode =
      (plainText lib getenv v encryptedText masterKey tenantCode).getD "" := by
  have filled : encryptedText ≠ "" := by
    rintro rfl
    rw [version_empty] at named
    cases named
  rw [decryptPasswordIfEncrypted, if_neg filled, named]

/-- What holds no sealing that its version permits opens as nothing. -/
theorem decrypt_refused (ideal : Ideal lib sealings) (named : version encryptedText = some v)
    (foreign : ¬ ∃ s ∈ sealings,
      OpensAs lib.base64Decode getenv v encryptedText masterKey tenantCode s) :
    decryptPasswordIfEncrypted lib getenv encryptedText masterKey tenantCode = "" := by
  rw [← plainText_isSome_iff ideal, Option.not_isSome_iff_eq_none] at foreign
  rw [decrypt_eq_getD named, foreign, Option.getD_none]

theorem aadV3_injective {tag tag' : String} (h : aadV3 tag = aadV3 tag') : tag = tag' := by
  have chars := congrArg String.toList h
  simp only [aadV3, String.toList_append, List.append_assoc] at chars
  exact String.toList_inj.mp (List.append_cancel_right (List.append_cancel_left chars))

/-- What was sealed for another tenant, and not for all of them, does not open. -/
theorem another_tenant (ideal : Ideal lib sealings) (named : version encryptedText = some .v3)
    {owner : String} (sealed : ∀ s ∈ sealings,
      Layout lib.base64Decode .v3 (parts encryptedText) s.envelope →
        s.aad = aadV3 (tenantTag owner))
    (other : tenantTag owner ≠ tenantTag tenantCode) (own : tenantTag owner ≠ "default") :
    decryptPasswordIfEncrypted lib getenv encryptedText masterKey tenantCode = "" := by
  refine decrypt_refused ideal named ?_
  rintro ⟨s, known, layout, -, -, permitted⟩
  rw [sealed s known layout] at permitted
  generalize haad : aadV3 (tenantTag owner) = aad, s.derivation = derivation at permitted
  cases permitted with
  | tenant => exact other (aadV3_injective haad)
  | fallback => exact own (aadV3_injective haad)

/-! ## A cipher with symbolic keys -/

/-- A cipher with its keys as symbols, that has sealed one password. -/
def symbolic (base64Decode : String → String) (s : Sealing) : Crypto (Derivation × String) where
  base64Decode := base64Decode
  hkdfSha256 secret info := (.hkdf info, secret)
  sha256 secret := (.sha256, secret)
  gcmOpen key nonce aad cipherBytes tag :=
    if key = (s.derivation, s.secret) ∧ nonce = s.nonce ∧ aad = s.aad ∧
        cipherBytes = s.cipherBytes ∧ tag = s.tag then some s.plainText
    else none

theorem symbolic_key (base64Decode : String → String) (s : Sealing) (derivation : Derivation)
    (secret : String) : (symbolic base64Decode s).key derivation secret = (derivation, secret) := by
  cases derivation <;> rfl

theorem symbolic_ideal (base64Decode : String → String) (s : Sealing) :
    Ideal (symbolic base64Decode s) {s} where
  opens key nonce aad cipherBytes tag plain := by
    simp only [Set.mem_singleton_iff, exists_eq_left, symbolic_key]
    constructor
    · intro h
      simp only [symbolic] at h
      split at h
      · rename_i same
        obtain ⟨rfl, rfl, rfl, rfl, rfl⟩ := same
        injection h with h
        exact ⟨rfl, rfl, rfl, rfl, rfl, h⟩
      · cases h
    · rintro ⟨rfl, rfl, rfl, rfl, rfl, rfl⟩
      exact if_pos ⟨rfl, rfl, rfl, rfl, rfl⟩
  distinct derivation secret derivation' secret' h := by
    rw [symbolic_key, symbolic_key, Prod.mk.injEq] at h
    exact h

/-- A password of the tenant `acme-srl`. -/
def acmeSealing : Sealing where
  derivation := .hkdf hkdfInfo
  secret := "test-master-secret-key-for-hkdf-v3-validation-012345"
  nonce := "\x01\x02\x03\x04\x05\x06\x07\x08\x09\x0a\x0b\x0c"
  aad := "tenant:acme-srl|field:CertificatePassword|v3"
  plainText := "CertPfxSecret#2026!"
  cipherBytes :=
    "\u0081\u00e1\u0069\u00f9\u0044\u00e0\u0086\u0023\u00fd\u004d" ++
      "\u00fe\u00e8\u0040\u00f7\u00ae\u00f3\u003d\u00cc\u005d"
  tag :=
    "\u005c\u00ef\u002d\u003c\u008f\u0078\u0073\u0010" ++
      "\u0028\u00fd\u00d4\u00d7\u00dd\u00d6\u00e7\u00ee"

def acmePart : String := "AQIDBAUGBwgJCgsMXO8tPI94cxAo/dTX3dbn7oHhaflE4IYj/U3+6ED3rvM9zF0="

/-- The base64 of one part. -/
def decodeOne (part combined : String) : String → String :=
  fun text => if text = part then combined else ""

theorem decodeOne_self (part combined : String) : decodeOne part combined part = combined :=
  if_pos rfl

def acmeCrypto : Crypto (Derivation × String) :=
  symbolic (decodeOne acmePart
    (acmeSealing.nonce ++ (acmeSealing.tag ++ acmeSealing.cipherBytes))) acmeSealing

/-! ## The result -/

/-- **A password opens only for its tenant.** A text of a version yields a plaintext
exactly when it holds, in a layout of that version, what was sealed under a secret of
the process, a derivation and associated data that the version permits this tenant; the
plaintext is the sealed one, and every other text of a version is answered with nothing. -/
theorem exact_of_ideal (ideal : Ideal lib sealings) (named : version encryptedText = some v) :
    Exact lib getenv sealings v encryptedText masterKey tenantCode where
  yields := plainText_isSome_iff ideal
  sealed _ := plainText_sealed ideal
  answer := decrypt_eq_getD named
  refused := decrypt_refused ideal named

/-- The password opens for its tenant, with the secret in the environment. -/
theorem acme_password :
    version ("enc:v3:" ++ acmePart) = some .v3 ∧
    OpensAs acmeCrypto.base64Decode
      (fun name => if name = "JWT_SECRET_KEY" then some acmeSealing.secret else none)
      .v3 ("enc:v3:" ++ acmePart) "" "acme-srl" acmeSealing ∧
    Exact acmeCrypto
      (fun name => if name = "JWT_SECRET_KEY" then some acmeSealing.secret else none)
      {acmeSealing} .v3 ("enc:v3:" ++ acmePart) "" "acme-srl" := by
  have named : version ("enc:v3:" ++ acmePart) = some .v3 := by decide +kernel
  refine ⟨named, ⟨?_, ?_, ?_, ?_⟩, exact_of_ideal (symbolic_ideal _ _) named⟩
  · have single : parts ("enc:v3:" ++ acmePart) = [acmePart] := by decide +kernel
    rw [single]
    exact .combined _ _ _ (decodeOne_self acmePart
      (acmeSealing.nonce ++ (acmeSealing.tag ++ acmeSealing.cipherBytes)))
  · constructor <;> decide +kernel
  · refine ⟨by decide +kernel, .inr ⟨"JWT_SECRET_KEY", by decide +kernel, acmeSealing.secret, ?_⟩⟩
    exact ⟨if_pos rfl, by decide +kernel⟩
  · have tag : tenantTag "acme-srl" = "acme-srl" := by decide +kernel
    rw [tag]
    exact .tenant

end EcfDgii.CertificatePasswords
