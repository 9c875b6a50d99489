import EcfDgii.Separators
import EcfDgii.Text

/-!
What a worker signs (`CanonicalRequestHelper.cpp`).

A text stands for the bytes it is made of, one character for each.  The digest
is OpenSSL's; what is done with its bytes is embedded.
-/

set_option autoImplicit false

namespace EcfDgii.CanonicalRequestHelper

open EcfDgii.Text EcfDgii.Separators

/-- OpenSSL's SHA-256 and HMAC, and the Base64 of the latter. -/
structure Digests where
  sha256 : String → List UInt8
  hmacSha256Base64 : (secretKey input : String) → String

/-- `std::hex << std::setw(2) << std::setfill('0')` of one byte. -/
def hexByte (byte : UInt8) : List Char :=
  [Nat.digitChar (byte.toNat / 16), Nat.digitChar (byte.toNat % 16)]

/-- `computeSha256Hex`. -/
def computeSha256Hex (lib : Digests) (input : String) : String :=
  String.ofList ((lib.sha256 input).flatMap hexByte)

/-- The path and query that are signed. -/
def formattedPath (pathAndQuery : String) : String :=
  if pathAndQuery = "" then "/" else pathAndQuery

/-- `buildCanonicalString`. -/
def buildCanonicalString (lib : Digests) (method pathAndQuery timestamp nonce body : String) :
    String :=
  toupper method ++ "\n" ++ formattedPath pathAndQuery ++ "\n" ++ timestamp ++ "\n" ++ nonce ++
    "\n" ++ computeSha256Hex lib body

/-- `computeHmacSha256`. -/
def computeHmacSha256 (lib : Digests) (secretKey canonicalString : String) : String :=
  lib.hmacSha256Base64 secretKey canonicalString

/-! ## The digest's text -/

theorem digitChar_injective : ∀ m < 16, ∀ n < 16, Nat.digitChar m = Nat.digitChar n → m = n := by
  decide

theorem digitChar_ne_newline : ∀ n < 16, Nat.digitChar n ≠ '\n' := by decide

theorem hexByte_injective : Function.Injective hexByte := by
  intro a b same
  have ha := a.toNat_lt
  have hb := b.toNat_lt
  simp only [hexByte, List.cons.injEq, and_true] at same
  have high := digitChar_injective _ (by omega) _ (by omega) same.1
  have low := digitChar_injective _ (by omega) _ (by omega) same.2
  exact UInt8.toNat_inj.mp (by omega)

theorem newline_notMem_hex (bytes : List UInt8) : '\n' ∉ bytes.flatMap hexByte := by
  intro member
  obtain ⟨byte, -, here⟩ := List.mem_flatMap.mp member
  have bound := byte.toNat_lt
  simp only [hexByte, List.mem_cons, List.not_mem_nil, or_false] at here
  rcases here with high | low
  · exact digitChar_ne_newline _ (by omega) high.symm
  · exact digitChar_ne_newline _ (by omega) low.symm

theorem hex_injective : Function.Injective fun bytes : List UInt8 => bytes.flatMap hexByte :=
  flatMap_injective (fun _ => rfl) Nat.two_pos hexByte_injective

/-! ## Reading a canonical string -/

/-- The five parts that are signed. -/
structure Signed where
  method : String
  pathAndQuery : String
  timestamp : String
  nonce : String
  body : String
  deriving DecidableEq

def Signed.canonical (lib : Digests) (s : Signed) : String :=
  buildCanonicalString lib s.method s.pathAndQuery s.timestamp s.nonce s.body

/-- Method, timestamp and nonce are each on one line. -/
structure Signed.OneLine (s : Signed) : Prop where
  method : '\n' ∉ s.method.toList
  timestamp : '\n' ∉ s.timestamp.toList
  nonce : '\n' ∉ s.nonce.toList

theorem toUpper_ne_newline {c : Char} (h : c ≠ '\n') : c.toUpper ≠ '\n' := by
  unfold Char.toUpper
  split
  · next lower =>
    intro same
    have value := congrArg (fun c => c.val.toNat) same
    obtain ⟨low, high⟩ := lower
    have low : 97 ≤ c.val.toNat := UInt32.le_iff_toNat_le.mp low
    have high : c.val.toNat ≤ 122 := UInt32.le_iff_toNat_le.mp high
    have offset : ('A'.val - 'a'.val).toNat = 4294967264 := rfl
    simp only [UInt32.toNat_add, offset] at value
    have newline : '\n'.val.toNat = 10 := rfl
    omega
  · exact h

theorem newline_notMem_toupper {s : String} (h : '\n' ∉ s.toList) : '\n' ∉ (toupper s).toList := by
  rw [toupper, String.toList_ofList]
  intro member
  obtain ⟨c, here, same⟩ := List.mem_map.mp member
  exact toUpper_ne_newline (fun eq => h (eq ▸ here)) same

theorem canonical_toList (lib : Digests) (s : Signed) :
    (s.canonical lib).toList =
      (((toupper s.method).toList ++ '\n' :: (formattedPath s.pathAndQuery).toList) ++
        '\n' :: s.timestamp.toList ++ '\n' :: s.nonce.toList) ++
        '\n' :: (lib.sha256 s.body).flatMap hexByte := by
  simp [Signed.canonical, buildCanonicalString, computeSha256Hex]

/-- **The signed string is unambiguous.** Requests whose method, timestamp and
nonce are on one line each, and whose bodies do not collide, have the same
canonical string only if they agree in every part, whatever the path, the query
and the body hold. -/
theorem canonical_unambiguous (lib : Digests) (a b : Signed) (left : a.OneLine) (right : b.OneLine)
    (noCollision : lib.sha256 a.body = lib.sha256 b.body → a.body = b.body)
    (same : a.canonical lib = b.canonical lib) :
    toupper a.method = toupper b.method ∧
      formattedPath a.pathAndQuery = formattedPath b.pathAndQuery ∧
      a.timestamp = b.timestamp ∧ a.nonce = b.nonce ∧ a.body = b.body := by
  have characters := congrArg String.toList same
  rw [canonical_toList, canonical_toList] at characters
  -- the path may hold lines of its own, so it is what is left between both ends
  obtain ⟨characters, digest⟩ := cut_last (newline_notMem_hex _) (newline_notMem_hex _) characters
  obtain ⟨characters, nonce⟩ := cut_last left.nonce right.nonce characters
  obtain ⟨characters, timestamp⟩ := cut_last left.timestamp right.timestamp characters
  obtain ⟨method, path⟩ := cut_first (newline_notMem_toupper left.method)
    (newline_notMem_toupper right.method) characters
  exact ⟨String.toList_injective method, String.toList_injective path,
    String.toList_injective timestamp, String.toList_injective nonce,
    noCollision (hex_injective digest)⟩

/-- A path with a line of its own. -/
def sampleSigned : Signed :=
  { method := "post", pathAndQuery := "/api\n/x?y=1", timestamp := "1700000000", nonce := "n-1",
    body := "{}" }

/-- A digest that tells the two sample bodies apart. -/
def sampleDigests : Digests :=
  { sha256 := fun s => [UInt8.ofNat s.length], hmacSha256Base64 := fun key s => key ++ s }

theorem canonical_unambiguous_sample :
    toupper "post" = toupper "POST" ∧ formattedPath "/api\n/x?y=1" = formattedPath "/api\n/x?y=1" ∧
      "1700000000" = "1700000000" ∧ "n-1" = "n-1" ∧ "{}" = "{}" :=
  canonical_unambiguous sampleDigests sampleSigned { sampleSigned with method := "POST" }
    ⟨by decide, by decide, by decide⟩ ⟨by decide, by decide, by decide⟩ (fun _ => rfl) (by decide)

end EcfDgii.CanonicalRequestHelper
