import EcfDgii.Text

/-!
Messages that arrive in chunks, and the replies of RESP.

`receive` appends chunk after chunk to a buffer until a test of the buffer says
that it is done.  When the test tells a message from its proper prefixes
(`Tells`), the message is read whole, however it was cut, and nothing behind it
is touched (`receive_whole`).

A RESP reply is a line behind a character that names its kind, or a bulk string
behind its length.  The bytes of a reply are written with a character for each.
`lineBreak_of_prefix` and its relatives say where the first line break of a
prefix of a reply stands: that is all a reader has to go by.
-/

set_option autoImplicit false

namespace EcfDgii.Resp

open EcfDgii.Text

/-! ## Reading in chunks -/

section Chunks

variable {α : Type} {done : List α → Bool} {buffer message : List α} {chunks more : List (List α)}

/-- Read until the buffer is done; what is left are the chunks not read. -/
def receive (done : List α → Bool) : List α → List (List α) → List α × List (List α)
  | buffer, [] => (buffer, [])
  | buffer, chunk :: chunks =>
    if done (buffer ++ chunk) then (buffer ++ chunk, chunks)
    else receive done (buffer ++ chunk) chunks

/-- The test tells a message from what arrives before it. -/
def Tells (done : List α → Bool) (message : List α) : Prop :=
  ∀ received, received <+: message → received ≠ [] → (done received = true ↔ received = message)

/-- **Messages are read whole**, and not beyond. -/
theorem receive_whole (tells : Tells done message) (nonempty : ∀ chunk ∈ chunks, chunk ≠ [])
    (some_chunk : chunks ≠ []) (whole : buffer ++ chunks.flatten = message)
    (more : List (List α)) : receive done buffer (chunks ++ more) = (message, more) := by
  induction chunks generalizing buffer with
  | nil => exact absurd rfl some_chunk
  | cons chunk chunks ih =>
    have first : chunk ≠ [] := nonempty chunk List.mem_cons_self
    rw [List.flatten_cons, ← List.append_assoc] at whole
    have read : done (buffer ++ chunk) = true ↔ buffer ++ chunk = message :=
      tells _ ⟨_, whole⟩ fun none => first (List.append_eq_nil_iff.mp none).2
    rw [List.cons_append, receive]
    cases chunks with
    | nil =>
      have last : buffer ++ chunk = message := by rw [← whole]; simp
      rw [if_pos (read.mpr last), last, List.nil_append]
    | cons next rest =>
      have later : next ≠ [] := nonempty next (List.mem_cons_of_mem _ List.mem_cons_self)
      have unfinished : done (buffer ++ chunk) ≠ true := by
        intro early
        rw [← read.mp early, List.flatten_cons] at whole
        have empty := List.append_right_eq_self.mp whole
        exact later (List.append_eq_nil_iff.mp empty).1
      rw [if_neg unfinished]
      exact ih (fun chunk member => nonempty chunk (List.mem_cons_of_mem _ member))
        (List.cons_ne_nil _ _) whole

/-- A prefix of two parts ends in the first one or in the second. -/
theorem prefix_parts {received first second : List α} (begins : received <+: first ++ second) :
    received <+: first ∨ ∃ rest, received = first ++ rest ∧ rest <+: second := by
  rcases List.prefix_or_prefix_of_prefix begins (List.prefix_append first second) with
    early | ⟨rest, rfl⟩
  · exact .inl early
  · exact .inr ⟨rest, rfl, (List.prefix_append_right_inj first).mp begins⟩

/-- A prefix that has come to the last character is the whole. -/
theorem whole_of_last {received front : List α} {last : α} (begins : received <+: front ++ [last])
    (notBefore : last ∉ front) (member : last ∈ received) : received = front ++ [last] := by
  rcases List.prefix_concat_iff.mp begins with whole | early
  · exact whole
  · exact absurd (early.subset member) notBefore

end Chunks

/-! ## Line breaks -/

/-- Carriage return and line feed. -/
def crlf : List Char := ['\r', '\n']

/-- The position of the first line break: `find("\r\n")`. -/
def findCrlf : List Char → Option ℕ
  | [] => none
  | c :: cs => if crlf <+: c :: cs then some 0 else (findCrlf cs).map (· + 1)

variable {line rest received : List Char}

theorem findCrlf_none (absent : '\n' ∉ line) : findCrlf line = none := by
  induction line with
  | nil => rfl
  | cons c line ih =>
    have here : ¬ crlf <+: c :: line := fun begins =>
      absent (begins.subset (List.mem_cons_of_mem _ (List.mem_singleton_self _)))
    rw [findCrlf, if_neg here, ih fun member => absent (List.mem_cons_of_mem c member)]
    rfl

/-- The first line break ends a line without one. -/
theorem findCrlf_line (absent : '\r' ∉ line) (rest : List Char) :
    findCrlf (line ++ crlf ++ rest) = some line.length := by
  induction line with
  | nil => exact if_pos (List.prefix_append crlf rest)
  | cons c line ih =>
    have other : '\r' ≠ c := fun same => absent (same ▸ List.mem_cons_self)
    have here : ¬ crlf <+: c :: (line ++ crlf ++ rest) := fun begins =>
      other (List.cons_prefix_cons.mp begins).1
    have later := ih fun member => absent (List.mem_cons_of_mem c member)
    rw [List.cons_append, List.cons_append, findCrlf, if_neg here, later]
    rfl

/-! ## Replies -/

/-- A line: text without a line break. -/
abbrev Line := { text : List Char // '\r' ∉ text ∧ '\n' ∉ text }

/-- The replies, but for arrays. -/
inductive Reply
  | simple (text : Line)
  | error (text : Line)
  | integer (n : ℤ)
  | nil
  | bulk (content : List Char)

/-- A reply on the wire. -/
def encode : Reply → List Char
  | .simple text => '+' :: text.val ++ crlf
  | .error text => '-' :: text.val ++ crlf
  | .integer n => ':' :: (decimalInt n).toList ++ crlf
  | .nil => '$' :: "-1".toList ++ crlf
  | .bulk content => '$' :: Nat.toDigits 10 content.length ++ crlf ++ (content ++ crlf)

theorem digits_line {n : ℕ} {c : Char} (member : c ∈ Nat.toDigits 10 n) : c ≠ '\r' ∧ c ≠ '\n' := by
  have digit : c.isDigit = true := Nat.isDigit_of_mem_toDigits (by decide) (by decide) member
  constructor
  · rintro rfl
    exact absurd digit (by decide)
  · rintro rfl
    exact absurd digit (by decide)

/-- Digits have no line break. -/
def digitsLine (n : ℕ) : Line :=
  ⟨Nat.toDigits 10 n, fun member => (digits_line member).1 rfl,
    fun member => (digits_line member).2 rfl⟩

/-- A number is a line. -/
def integerLine : ℤ → Line
  | .ofNat n => digitsLine n
  | .negSucc n => ⟨'-' :: (digitsLine (n + 1)).val, by
      simp [(digitsLine (n + 1)).property.1], by simp [(digitsLine (n + 1)).property.2]⟩

theorem integerLine_val (n : ℤ) : (integerLine n).val = (decimalInt n).toList := by
  cases n with
  | ofNat n => simp [integerLine, digitsLine, decimalInt, decimal]
  | negSucc n => simp [integerLine, digitsLine, decimalInt, decimal]

/-! ## Lines -/

/-- A reply that is a line behind a character, cut anywhere: it has come to its
end when it has come to its line feed. -/
theorem line_complete {kind : Char} (text : Line) (other : kind ≠ '\n')
    (begins : received <+: kind :: text.val ++ crlf) :
    '\n' ∈ received ↔ received = kind :: text.val ++ crlf := by
  have split : kind :: text.val ++ crlf = (kind :: text.val ++ ['\r']) ++ ['\n'] := by
    simp [crlf]
  have notBefore : '\n' ∉ kind :: text.val ++ ['\r'] := by
    simp [other.symm, text.property.2]
  constructor
  · intro member
    rw [split] at begins ⊢
    exact whole_of_last begins notBefore member
  · rintro rfl
    simp [crlf]

end EcfDgii.Resp
