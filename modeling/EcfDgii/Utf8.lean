import Mathlib.Data.List.Basic
import Mathlib.Tactic.Common

/-!
UTF-8, with a character for each byte.

`encode` writes code points as `String.utf8EncodeChar` does, every byte as the
character of its number.  `encodeChar_shape` says what the bytes of a code point
look like: one below `0x80`, or one that announces how many follow and as many
from `0x80` to `0xbf`.
-/

set_option autoImplicit false

namespace EcfDgii.Utf8

/-- The bytes of a code point. -/
def encodeChar (c : Char) : List Char := (String.utf8EncodeChar c).map Char.ofUInt8

/-- The bytes of a text. -/
def encode (cs : List Char) : List Char := cs.flatMap encodeChar

@[simp] theorem encode_nil : encode [] = [] := rfl

@[simp] theorem encode_cons (c : Char) (cs : List Char) :
    encode (c :: cs) = encodeChar c ++ encode cs := rfl

/-- A byte that follows another one of the same code point. -/
def Follows (c : Char) : Prop := 0x80 ≤ c.toNat ∧ c.toNat < 0xc0

/-- The first byte of a code point, by the number of bytes that follow. -/
inductive Leads (c : Char) : ℕ → Prop
  | one (low : c.toNat < 0x80) : Leads c 0
  | two (range : 0xc0 ≤ c.toNat ∧ c.toNat < 0xe0) : Leads c 1
  | three (range : 0xe0 ≤ c.toNat ∧ c.toNat < 0xf0) : Leads c 2
  | four (range : 0xf0 ≤ c.toNat ∧ c.toNat < 0xf8) : Leads c 3

theorem toNat_ofUInt8 (n : ℕ) (small : n < 256) : (Char.ofUInt8 (UInt8.ofNat n)).toNat = n := by
  have value : (Char.ofUInt8 (UInt8.ofNat n)).toNat = (UInt8.ofNat n).toNat := rfl
  rw [value, UInt8.toNat_ofNat_of_lt' small]

/-- Bytes that hold six bits each. -/
theorem follows_cons (n : ℕ) {bs : List UInt8} (rest : ∀ d ∈ bs.map Char.ofUInt8, Follows d) :
    ∀ d ∈ (UInt8.ofNat (n % 64 + 128) :: bs).map Char.ofUInt8, Follows d := by
  have small : n % 64 < 64 := Nat.mod_lt _ (by decide)
  rw [List.map_cons, List.forall_mem_cons]
  refine ⟨?_, rest⟩
  rw [Follows, toNat_ofUInt8 _ (by omega)]
  omega

theorem follows_nil : ∀ d ∈ ([] : List UInt8).map Char.ofUInt8, Follows d := by simp

/-- **The bytes of a code point.** -/
theorem encodeChar_shape (c : Char) :
    ∃ lead rest, encodeChar c = lead :: rest ∧ Leads lead rest.length ∧
      ∀ d ∈ rest, Follows d := by
  unfold encodeChar
  fun_cases String.utf8EncodeChar with
  | case1 v low =>
    refine ⟨_, [], rfl, .one ?_, by simp⟩
    rw [toNat_ofUInt8 _ (by omega)]
    omega
  | case2 v =>
    have lead : v / 64 % 32 < 32 := Nat.mod_lt _ (by decide)
    refine ⟨_, _, rfl, .two ?_, ?_⟩
    · rw [toNat_ofUInt8 _ (by omega)]
      omega
    · exact follows_cons v follows_nil
  | case3 v =>
    have lead : v / 4096 % 16 < 16 := Nat.mod_lt _ (by decide)
    refine ⟨_, _, rfl, .three ?_, ?_⟩
    · rw [toNat_ofUInt8 _ (by omega)]
      omega
    · exact follows_cons (v / 64) (follows_cons v follows_nil)
  | case4 v =>
    have lead : v / 262144 % 8 < 8 := Nat.mod_lt _ (by decide)
    refine ⟨_, _, rfl, .four ?_, ?_⟩
    · rw [toNat_ofUInt8 _ (by omega)]
      omega
    · exact follows_cons (v / 4096) (follows_cons (v / 64) (follows_cons v follows_nil))

end EcfDgii.Utf8
