import EcfDgii.Utf8
import EcfDgii.XmlFormats

/-!
What `escapeXml` writes, decoded again.

The decoder knows the five predefined entities and every decimal reference, which
it turns into the UTF-8 bytes of its code point; what is no reference it leaves
as it stands.  `escapeXml_invertible` says that it gives back the bytes that were
escaped, less the control characters, and that the escaped text has nothing raw
in it that an attribute or an element could trip over.
-/

set_option autoImplicit false

namespace EcfDgii.EscapedBytes

open EcfDgii.XmlFormats EcfDgii.Utf8

/-! ## The decoder -/

/-- What stands between `&` and `;`. -/
def reference : List Char → Option (List Char)
  | '#' :: digits =>
    if digits ≠ [] ∧ digits.all Char.isDigit ∧ (Nat.ofDigitChars 10 digits 0).isValidChar then
      some (encodeChar (Char.ofNat (Nat.ofDigitChars 10 digits 0)))
    else none
  | name => (predefined.lookup name).map fun c => [c]

/-- A text with its references replaced; inside one, what has been read of it. -/
def decodeFrom : Option (List Char) → List Char → List Char
  | none, [] => []
  | none, c :: cs => if c = '&' then decodeFrom (some []) cs else c :: decodeFrom none cs
  | some name, [] => '&' :: name
  | some name, c :: cs =>
    if c = ';' then
      (reference name).getD ('&' :: (name ++ [';'])) ++ decodeFrom none cs
    else if c = '&' then '&' :: (name ++ decodeFrom (some []) cs)
    else decodeFrom (some (name ++ [c])) cs

def decode (cs : List Char) : List Char := decodeFrom none cs

theorem decodeFrom_name {name : List Char} (inside : ∀ c ∈ name, c ≠ ';' ∧ c ≠ '&')
    (read rest : List Char) :
    decodeFrom (some read) (name ++ rest) = decodeFrom (some (read ++ name)) rest := by
  induction name generalizing read with
  | nil => rw [List.append_nil, List.nil_append]
  | cons c name ih =>
    obtain ⟨semicolon, amp⟩ := inside c List.mem_cons_self
    rw [List.cons_append, decodeFrom, if_neg semicolon, if_neg amp,
      ih fun d member => inside d (List.mem_cons_of_mem c member), List.append_assoc,
      List.singleton_append]

/-- A reference is replaced, whatever follows. -/
theorem decode_reference {name bytes : List Char} (known : reference name = some bytes)
    (inside : ∀ c ∈ name, c ≠ ';' ∧ c ≠ '&') (rest : List Char) :
    decode ('&' :: (name ++ ';' :: rest)) = bytes ++ decode rest := by
  rw [decode, decodeFrom, if_pos rfl, decodeFrom_name inside, List.nil_append, decodeFrom,
    if_pos rfl, known]
  rfl

theorem decode_cons {c : Char} (plain : c ≠ '&') (rest : List Char) :
    decode (c :: rest) = c :: decode rest := by
  rw [decode, decodeFrom, if_neg plain]
  rfl

/-- The references that `escapeXml` writes are known. -/
theorem references_known : ∀ pair ∈ references, reference pair.1 = some pair.2 := by decide

theorem references_inside : ∀ pair ∈ references, ∀ c ∈ pair.1, c ≠ ';' ∧ c ≠ '&' := by
  simp [references, predefined]

theorem decode_references {name bytes : List Char} (member : (name, bytes) ∈ references)
    (rest : List Char) : decode ('&' :: (name ++ ';' :: rest)) = bytes ++ decode rest :=
  decode_reference (references_known _ member) (references_inside _ member) rest

/-! ## One byte -/

/-- The three ways in which a byte is written by itself. -/
theorem escapeChar_cases (c : Char) :
    (isIllegal c = true ∧ escapeChar c = []) ∨
      (isIllegal c = false ∧ ∃ name, (name, [c]) ∈ references ∧ escapeChar c = '&' :: (name ++ [';'])) ∨
      (isIllegal c = false ∧ c ∉ ['&', '<', '>', '"', '\''] ∧ escapeChar c = [c]) := by
  unfold escapeChar
  split_ifs with illegal amp less greater quote apostrophe
  · exact .inl ⟨illegal, rfl⟩
  · subst amp
    exact .inr (.inl ⟨rfl, "amp".toList, by simp [references, predefined], rfl⟩)
  · subst less
    exact .inr (.inl ⟨rfl, "lt".toList, by simp [references, predefined], rfl⟩)
  · subst greater
    exact .inr (.inl ⟨rfl, "gt".toList, by simp [references, predefined], rfl⟩)
  · subst quote
    exact .inr (.inl ⟨rfl, "quot".toList, by simp [references, predefined], rfl⟩)
  · subst apostrophe
    exact .inr (.inl ⟨rfl, "apos".toList, by simp [references, predefined], rfl⟩)
  · exact .inr (.inr ⟨Bool.eq_false_iff.mpr illegal, by simp [*], rfl⟩)

theorem decode_escapeChar (c : Char) (rest : List Char) :
    decode (escapeChar c ++ rest) = legal [c] ++ decode rest := by
  rcases escapeChar_cases c with ⟨illegal, text⟩ | ⟨fine, name, member, text⟩ | ⟨fine, plain, text⟩
  · rw [text, legal, List.filter_cons_of_neg (by simp [illegal])]
    rfl
  · rw [text, legal, List.filter_cons_of_pos (by simp [fine]), List.cons_append, List.append_assoc,
      List.singleton_append, decode_references member]
    rfl
  · have amp : c ≠ '&' := fun same => plain (by simp [same])
    rw [text, legal, List.filter_cons_of_pos (by simp [fine]), List.singleton_append,
      decode_cons amp]
    rfl

/-- **Decoding gives the bytes back.** -/
theorem decode_escapeXml (s : List Char) : decode (escapeXml s) = legal s := by
  fun_induction escapeXml s with
  | case1 rest ih =>
    have sign := @decode_references "#169".toList ['\xc2', '\xa9'] (by simp [references, predefined])
    exact (sign (escapeXml rest)).trans (by rw [ih]; rfl)
  | case2 rest ih =>
    have sign := @decode_references "#174".toList ['\xc2', '\xae'] (by simp [references, predefined])
    exact (sign (escapeXml rest)).trans (by rw [ih]; rfl)
  | case3 rest ih =>
    have sign := @decode_references "#8364".toList ['\xe2', '\x82', '\xac'] (by simp [references, predefined])
    exact (sign (escapeXml rest)).trans (by rw [ih]; rfl)
  | case4 c rest _ _ _ ih =>
    rw [decode_escapeChar, ih, legal, legal, ← List.filter_append]
    rfl
  | case5 => rfl

/-! ## The escaped text -/

/-- Every `&` begins one of the references written. -/
def Referenced (out : List Char) : Prop :=
  ∀ before after, out = before ++ '&' :: after →
    ∃ pair ∈ references, '&' :: (pair.1 ++ [';']) <+: '&' :: after

theorem referenced_nil : Referenced [] := by
  intro before after same
  exact absurd same.symm (List.append_ne_nil_of_right_ne_nil _ (List.cons_ne_nil _ _))

theorem referenced_append {front rest : List Char} (plain : '&' ∉ front)
    (referenced : Referenced rest) : Referenced (front ++ rest) := by
  induction front with
  | nil => exact referenced
  | cons c front ih =>
    rw [List.mem_cons, not_or] at plain
    intro before after same
    cases before with
    | nil => exact absurd (List.cons.inj same).1.symm plain.1
    | cons d before => exact ih plain.2 before after (List.cons.inj same).2

theorem referenced_written {name bytes rest : List Char} (member : (name, bytes) ∈ references)
    (referenced : Referenced rest) : Referenced ('&' :: (name ++ ';' :: rest)) := by
  have plain : '&' ∉ name ++ [';'] := by
    intro amp
    rcases List.mem_append.mp amp with inName | last
    · exact (references_inside _ member _ inName).2 rfl
    · exact absurd (List.mem_singleton.mp last) (by decide)
  intro before after same
  cases before with
  | nil =>
    refine ⟨_, member, rest, ?_⟩
    rw [← List.nil_append ('&' :: after), ← same]
    simp
  | cons d before =>
    have tail : (name ++ [';']) ++ rest = before ++ '&' :: after := by
      rw [List.append_assoc, List.singleton_append]
      exact (List.cons.inj same).2
    exact referenced_append plain referenced before after tail

/-- No character of markup. -/
def Bare (out : List Char) : Prop := ∀ c ∈ out, c ∉ ['<', '>', '"', '\'']

theorem bare_written {name bytes rest : List Char} (member : (name, bytes) ∈ references)
    (bare : Bare rest) : Bare ('&' :: (name ++ ';' :: rest)) := by
  have each : ∀ c ∈ ['<', '>', '"', '\''], ∀ pair ∈ references, c ∉ '&' :: (pair.1 ++ [';']) := by
    simp [references, predefined]
  have text : '&' :: (name ++ ';' :: rest) = '&' :: (name ++ [';']) ++ rest := by simp
  rw [text]
  intro c inside
  rcases List.mem_append.mp inside with own | later
  · exact fun markup => each c markup _ member own
  · exact bare c later

/-- What is written of a byte, before a text in order. -/
theorem escaped_cons (c : Char) {rest : List Char} (bare : Bare rest)
    (referenced : Referenced rest) :
    Bare (escapeChar c ++ rest) ∧ Referenced (escapeChar c ++ rest) := by
  rcases escapeChar_cases c with ⟨-, text⟩ | ⟨-, name, member, text⟩ | ⟨-, plain, text⟩
  · rw [text]
    exact ⟨bare, referenced⟩
  · rw [text, List.cons_append, List.append_assoc, List.singleton_append]
    exact ⟨bare_written member bare, referenced_written member referenced⟩
  · rw [text]
    simp only [List.mem_cons, List.not_mem_nil, or_false, not_or] at plain
    refine ⟨?_, referenced_append (by simpa using Ne.symm plain.1) referenced⟩
    intro d inside
    rcases List.mem_cons.mp inside with rfl | later
    · simp [plain]
    · exact bare d later

theorem escaped_inOrder (s : List Char) : Bare (escapeXml s) ∧ Referenced (escapeXml s) := by
  have sign {name bytes rest : List Char} (member : (name, bytes) ∈ references)
      (inOrder : Bare rest ∧ Referenced rest) :
      Bare ('&' :: (name ++ ';' :: rest)) ∧ Referenced ('&' :: (name ++ ';' :: rest)) :=
    ⟨bare_written member inOrder.1, referenced_written member inOrder.2⟩
  fun_induction escapeXml s with
  | case1 rest ih => exact @sign "#169".toList ['\xc2', '\xa9'] _ (by simp [references, predefined]) ih
  | case2 rest ih => exact @sign "#174".toList ['\xc2', '\xae'] _ (by simp [references, predefined]) ih
  | case3 rest ih => exact @sign "#8364".toList ['\xe2', '\x82', '\xac'] _ (by simp [references, predefined]) ih
  | case4 c rest _ _ _ ih => exact escaped_cons c ih.1 ih.2
  | case5 => exact ⟨fun c member => absurd member List.not_mem_nil, referenced_nil⟩

/-- **Escaping can be undone.** -/
structure Invertible (s : List Char) : Prop where
  decoded : decode (escapeXml s) = s.filter fun c => !isIllegal c
  bare : ∀ c ∈ escapeXml s, c ∉ ['<', '>', '"', '\'']
  referenced : ∀ before after, escapeXml s = before ++ '&' :: after →
    ∃ pair ∈ references, '&' :: (pair.1 ++ [';']) <+: '&' :: after

/-- **Escaped bytes.** Whatever is escaped is decoded to itself without its
control characters; nothing raw is left in it, and every `&` begins one of the
eight references. -/
theorem escapeXml_invertible (s : List Char) : Invertible s where
  decoded := decode_escapeXml s
  bare := (escaped_inOrder s).1
  referenced := (escaped_inOrder s).2

-- a lead byte at the end, and one before another byte
example : decode (escapeXml ['\xc2', '\xa8', '\xe2', '\x82', '<', '\xc2']) =
    ['\xc2', '\xa8', '\xe2', '\x82', '<', '\xc2'] := by decide

end EcfDgii.EscapedBytes
