import Mathlib.Algebra.Group.Nat.Defs
import Mathlib.Data.Int.Notation
import Mathlib.Data.List.Basic
import Mathlib.Data.Nat.Notation
import EcfDgii.Trimming

/-!
Text as the C++ code handles it: character by character, in the C locale.

`std::tolower`, `std::isspace` and their relatives only know the ASCII letters,
and so do the functions here; a character outside ASCII is left as it is.  All
of them go through the list of characters, so they compute in the kernel.
-/

set_option autoImplicit false

namespace EcfDgii.Text

open EcfDgii.Trimming

/-- `std::isspace` in the C locale. -/
def isspace (c : Char) : Bool :=
  c = ' ' || c = '\t' || c = '\n' || c = '\x0b' || c = '\x0c' || c = '\r'

/-- `std::transform(.., ::tolower)`. -/
def tolower (s : String) : String := String.ofList (s.toList.map Char.toLower)

/-- `std::transform(.., ::toupper)`. -/
def toupper (s : String) : String := String.ofList (s.toList.map Char.toUpper)

/-- The two loops that erase leading and then trailing blanks. -/
def trim (s : String) : String :=
  String.ofList (((s.toList.dropWhile isspace).reverse.dropWhile isspace).reverse)

/-- `s.rfind(pre, 0) == 0`. -/
def startsWith (s pre : String) : Bool := pre.toList.isPrefixOf s.toList

/-- `s.find(sub) != npos`. -/
def contains (s sub : String) : Bool := s.toList.tails.any (sub.toList.isPrefixOf ·)

/-- `cleanDigits`: the decimal digits of a text. -/
def cleanDigits (s : String) : String := String.ofList (s.toList.filter Char.isDigit)

/-- `hasAlpha`: some ASCII letter. -/
def hasAlpha (s : String) : Bool := s.toList.any Char.isAlpha

/-- `s.substr(from)`. -/
def dropFirst (n : ℕ) (s : String) : String := String.ofList (s.toList.drop n)

/-- `s.substr(0, n)`. -/
def takeFirst (n : ℕ) (s : String) : String := String.ofList (s.toList.take n)

/-- `std::to_string` of a natural number. -/
def decimal (n : ℕ) : String := String.ofList (Nat.toDigits 10 n)

/-- `std::to_string` of an integer. -/
def decimalInt : ℤ → String
  | .ofNat n => decimal n
  | .negSucc n => "-" ++ decimal (n + 1)

/-- Decimal digits filled with zeros on the left up to a width
(`std::setw(width) << std::setfill('0')`, `%02d`). -/
def padded (width n : ℕ) : List Char :=
  List.replicate (width - (Nat.toDigits 10 n).length) '0' ++ Nat.toDigits 10 n

/-- The part of a text before the first occurrence of a character. -/
def before (c : Char) (s : String) : String := String.ofList (s.toList.takeWhile (· ≠ c))

/-- Join with a separator. -/
def joined (separator : String) : List String → String
  | [] => ""
  | [s] => s
  | s :: rest => s ++ separator ++ joined separator rest

@[simp] theorem ofList_toList (s : String) : String.ofList s.toList = s := by simp

theorem trim_eq (s : String) : trim s = String.ofList (stripped isspace s.toList) := rfl

theorem trim_trim (s : String) : trim (trim s) = trim s := by
  rw [trim_eq, trim_eq, String.toList_ofList, stripped_of_clean (stripped_clean _)]

/-- Digits are a number of their length. -/
theorem ofDigitChars_lt {cs : List Char} (digits : ∀ c ∈ cs, c.isDigit = true) :
    Nat.ofDigitChars 10 cs 0 < 10 ^ cs.length := by
  induction cs with
  | nil => exact Nat.one_pos
  | cons c cs ih =>
    have rest := ih fun d member => digits d (List.mem_cons_of_mem c member)
    have digit : c.toNat ≤ '9'.toNat := by
      have own := digits c List.mem_cons_self
      simp only [Char.isDigit, Bool.and_eq_true, decide_eq_true_eq] at own
      exact own.2
    have low : c.toNat - '0'.toNat ≤ 9 := by
      have zero : '0'.toNat = 48 := rfl
      have nine : '9'.toNat = 57 := rfl
      omega
    have scaled := Nat.mul_le_mul_left (10 ^ cs.length) low
    rw [Nat.ofDigitChars_cons, Nat.ofDigitChars_eq_ofDigitChars_zero, List.length_cons, Nat.pow_succ,
      Nat.mul_zero, Nat.zero_add]
    omega

@[simp] theorem trim_empty : trim "" = "" := by decide

@[simp] theorem tolower_empty : tolower "" = "" := by decide

example : trim " \tNo encontrado\r\n" = "No encontrado" := by decide

end EcfDgii.Text
