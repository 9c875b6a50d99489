import EcfDgii.Resp

/-!
Readers of a stream that comes in pieces.

A `Reader` makes a value of what has arrived, or waits.  `Takes` says that it
takes exactly one text for a value: the value is read whatever stands behind the
text, and nothing is read while the text is incomplete.  Readers that take a text
are put together with `Reader.bind` and `Reader.times`; `stream_spec` is for a
stream of values that has come only in part.
-/

set_option autoImplicit false

namespace EcfDgii.Readers

open EcfDgii.Resp

variable {α β γ : Type} {text text' : List α} {value : β} {value' : γ} {values : List β}

/-- A value with what stands behind it, or nothing yet. -/
abbrev Reader (α β : Type) := List α → Option (β × List α)

def Reader.pure (value : β) : Reader α β := fun input => some (value, input)

def Reader.bind (read : Reader α β) (next : β → Reader α γ) : Reader α γ := fun input =>
  match read input with
  | some (value, rest) => next value rest
  | none => none

/-- So many values, one after another. -/
def Reader.times (read : Reader α β) : ℕ → Reader α (List β)
  | 0 => .pure []
  | n + 1 => read.bind fun value => (read.times n).bind fun values => .pure (value :: values)

/-- The values that have arrived, up to a number, and what is left. -/
def Reader.stream (read : Reader α β) : ℕ → List α → List β × List α
  | 0, input => ([], input)
  | n + 1, input =>
    match read input with
    | some (value, rest) => (value :: (read.stream n rest).1, (read.stream n rest).2)
    | none => ([], input)

/-- The reader takes the text for the value, whatever follows, and waits for all
of it. -/
structure Takes (read : Reader α β) (text : List α) (value : β) : Prop where
  whole : ∀ rest, read (text ++ rest) = some (value, rest)
  waits : ∀ part, part <+: text → part ≠ text → read part = none

theorem takes_pure (value : β) : Takes (α := α) (.pure value) [] value where
  whole _ := rfl
  waits _ begins other := absurd (List.prefix_nil.mp begins) other

theorem Takes.bind {read : Reader α β} {next : β → Reader α γ} (first : Takes read text value)
    (second : Takes (next value) text' value') :
    Takes (read.bind next) (text ++ text') value' where
  whole rest := by
    rw [Reader.bind, List.append_assoc, first.whole]
    exact second.whole rest
  waits part begins other := by
    rw [Reader.bind]
    rcases prefix_parts begins with early | ⟨rest, rfl, begins'⟩
    · by_cases all : part = text
      · subst all
        have nothing : part = part ++ [] := (List.append_nil part).symm
        rw [nothing, first.whole]
        refine second.waits [] List.nil_prefix fun none => other ?_
        rw [← none, List.append_nil]
      · rw [first.waits part early all]
    · rw [first.whole]
      exact second.waits rest begins' fun all => other (by rw [all])

theorem Takes.times {read : Reader α β} {text : β → List α}
    (each : ∀ value ∈ values, Takes read (text value) value) :
    Takes (read.times values.length) (values.flatMap text) values := by
  induction values with
  | nil => exact takes_pure []
  | cons value values ih =>
    have later := ih fun other member => each other (List.mem_cons_of_mem _ member)
    have last : Takes ((read.times values.length).bind fun values => .pure (value :: values))
        (values.flatMap text ++ []) (value :: values) := later.bind (takes_pure _)
    rw [List.append_nil] at last
    exact (each value List.mem_cons_self).bind last

/-- A reader that takes a text waits for some of it. -/
theorem Takes.ne_nil {read : Reader α β} (takes : Takes read text value)
    (waits : read [] = none) : text ≠ [] := by
  rintro rfl
  rw [show ([] : List α) = [] ++ [] from rfl, takes.whole] at waits
  cases waits

/-- Of a stream that has come in part, the values that have come whole are read;
all of them are read just when all has come. -/
theorem stream_spec {read : Reader α β} (waits : read [] = none) {parts : List (List α × β)}
    (each : ∀ part ∈ parts, Takes read part.1 part.2) {received : List α}
    (begins : received <+: parts.flatMap Prod.fst) {n : ℕ} (enough : received.length < n) :
    (read.stream n received).1 <+: parts.map Prod.snd ∧
      ((read.stream n received).1 = parts.map Prod.snd ↔
        received = parts.flatMap Prod.fst) := by
  induction parts generalizing received n with
  | nil =>
    obtain rfl : received = [] := List.prefix_nil.mp begins
    have none : (read.stream n []).1 = [] := by
      cases n with
      | zero => rfl
      | succ n => rw [Reader.stream, waits]
    rw [none]
    exact ⟨List.prefix_rfl, iff_of_true rfl rfl⟩
  | cons part parts ih =>
    obtain ⟨text, value⟩ := part
    obtain ⟨n, rfl⟩ : ∃ k, n = k + 1 := ⟨n - 1, by omega⟩
    have first : Takes read text value := each _ List.mem_cons_self
    have some_text := List.length_pos_iff.mpr (first.ne_nil waits)
    rw [List.flatMap_cons] at begins ⊢
    rw [List.map_cons]
    have late : ∀ rest, received = text ++ rest → rest <+: parts.flatMap Prod.fst →
        (read.stream (n + 1) received).1 <+: value :: parts.map Prod.snd ∧
          ((read.stream (n + 1) received).1 = value :: parts.map Prod.snd ↔
            received = text ++ parts.flatMap Prod.fst) := by
      rintro rest rfl begins
      rw [List.length_append] at enough
      obtain ⟨some_values, all⟩ := ih (fun other member => each other
        (List.mem_cons_of_mem _ member)) begins (n := n) (by omega)
      rw [Reader.stream, first.whole]
      refine ⟨List.cons_prefix_cons.mpr ⟨rfl, some_values⟩, ?_⟩
      rw [List.cons.injEq, List.append_right_inj, all]
      exact and_iff_right rfl
    rcases prefix_parts begins with early | ⟨rest, same, begins⟩
    · by_cases whole : received = text
      · exact late [] (by rw [whole, List.append_nil]) List.nil_prefix
      · rw [Reader.stream, first.waits received early whole]
        refine ⟨List.nil_prefix, iff_of_false (List.cons_ne_nil _ _).symm fun all => whole ?_⟩
        exact early.eq_of_length_le (by rw [all, List.length_append]; omega)
    · exact late rest same begins

/-! ## RESP -/

section Fixed

variable [DecidableEq α]

/-- Exactly this text. -/
def expect (text : List α) : Reader α Unit := fun input =>
  if text <+: input then some ((), input.drop text.length) else none

theorem takes_expect (text : List α) : Takes (expect text) text () where
  whole rest := by rw [expect, if_pos (List.prefix_append ..), List.drop_left]
  waits part begins other :=
    if_neg fun here => other (begins.eq_of_length_le here.length_le)

end Fixed

/-- So many characters. -/
def exactly (n : ℕ) : Reader α (List α) := fun input =>
  if n ≤ input.length then some (input.take n, input.drop n) else none

theorem takes_exactly (text : List α) : Takes (exactly text.length) text text where
  whole rest := by
    rw [exactly, if_pos (by simp), List.take_left, List.drop_left]
  waits part begins other := by
    refine if_neg fun long => other (begins.eq_of_length_le long)

/-- A number and a line break. -/
def readNumber : Reader Char ℕ := fun input =>
  match findCrlf input with
  | some n =>
    if n ≠ 0 ∧ (input.take n).all Char.isDigit then
      some (Nat.ofDigitChars 10 (input.take n) 0, input.drop (n + 2))
    else none
  | none => none

theorem takes_number (n : ℕ) : Takes readNumber (Nat.toDigits 10 n ++ crlf) n where
  whole rest := by
    have some_digit : (Nat.toDigits 10 n).length ≠ 0 := by simp [Nat.toDigits_ne_nil]
    have digits : (Nat.toDigits 10 n).all Char.isDigit = true :=
      List.all_eq_true.mpr fun c => Nat.isDigit_of_mem_toDigits (by decide) (by decide)
    have taken : (Nat.toDigits 10 n ++ crlf ++ rest).take (Nat.toDigits 10 n).length =
        Nat.toDigits 10 n := by rw [List.append_assoc, List.take_left]
    have left : (Nat.toDigits 10 n ++ crlf ++ rest).drop ((Nat.toDigits 10 n).length + 2) =
        rest := List.drop_left' (by simp [crlf])
    have found : findCrlf (Nat.toDigits 10 n ++ crlf ++ rest) = some (Nat.toDigits 10 n).length :=
      findCrlf_line (digitsLine n).property.1 rest
    rw [readNumber, found]
    dsimp only
    rw [taken, left, if_pos ⟨some_digit, digits⟩, Nat.ofDigitChars_ten_toDigits]
  waits part begins other := by
    have split : Nat.toDigits 10 n ++ crlf = (Nat.toDigits 10 n ++ ['\r']) ++ ['\n'] := by
      simp [crlf]
    have absent : '\n' ∉ part := by
      intro member
      refine other (split ▸ whole_of_last (split ▸ begins) ?_ member)
      have line : '\n' ∉ Nat.toDigits 10 n := (digitsLine n).property.2
      simp [line]
    rw [readNumber, findCrlf_none absent]

/-- A bulk string. -/
def readBulk : Reader Char (List Char) :=
  (expect ['$']).bind fun _ => readNumber.bind fun n => (exactly n).bind fun content =>
    (expect crlf).bind fun _ => .pure content

theorem takes_bulk (content : List Char) :
    Takes readBulk (encode (.bulk content)) content := by
  have parts : encode (.bulk content) = ['$'] ++ (Nat.toDigits 10 content.length ++ crlf ++
      (content ++ (crlf ++ []))) := by simp [encode]
  rw [parts]
  exact (takes_expect _).bind ((takes_number _).bind ((takes_exactly _).bind
    ((takes_expect _).bind (takes_pure _))))

/-- What a client sends: arguments in an array of bulk strings, or a bare line. -/
inductive Message
  | array (args : List (List Char))
  | inline (line : Line)

/-- A message on the wire. -/
def Message.encode : Message → List Char
  | .array args =>
    '*' :: Nat.toDigits 10 args.length ++ crlf ++ args.flatMap fun arg => Resp.encode (.bulk arg)
  | .inline line => line.val ++ crlf

/-- A line that is not the head of an array. -/
def Message.Plain : Message → Prop
  | .array _ => True
  | .inline line => line.val.head? ≠ some '*'

/-- The arguments of an array, behind its head. -/
def readArray : Reader Char (List (List Char)) :=
  (expect ['*']).bind fun _ => readNumber.bind readBulk.times

theorem takes_array (args : List (List Char)) :
    Takes readArray (Message.array args).encode args := by
  have parts : (Message.array args).encode = ['*'] ++ (Nat.toDigits 10 args.length ++ crlf ++
      args.flatMap fun arg => encode (.bulk arg)) := by simp [Message.encode]
  rw [parts]
  exact (takes_expect _).bind ((takes_number _).bind (Takes.times fun arg _ => takes_bulk arg))

/-- The words of a line. -/
def words (line : List Char) : List (List Char) := line.splitOn ' '

def readLine : Reader Char (List Char) := fun input =>
  match findCrlf input with
  | some n => some (input.take n, input.drop (n + 2))
  | none => none

theorem takes_line (line : Line) : Takes readLine (line.val ++ crlf) line.val where
  whole rest := by
    have found := findCrlf_line line.property.1 rest
    have left : (line.val ++ crlf ++ rest).drop (line.val.length + 2) = rest :=
      List.drop_left' (by simp [crlf])
    rw [readLine, found]
    dsimp only
    rw [left, List.append_assoc, List.take_left]
  waits part begins other := by
    have split : line.val ++ crlf = (line.val ++ ['\r']) ++ ['\n'] := by simp [crlf]
    have absent : '\n' ∉ part := by
      intro member
      refine other (split ▸ whole_of_last (split ▸ begins) ?_ member)
      simp [line.property.2]
    rw [readLine, findCrlf_none absent]

/-- The arguments of a message. -/
def Message.args : Message → List (List Char)
  | .array args => args
  | .inline line => words line.val

/-- **A server's reading** of one message: its arguments. -/
def readMessage : Reader Char (List (List Char)) := fun input =>
  if input.head? = some '*' then readArray input
  else (readLine.bind fun line => .pure (words line)) input

/-- What has come of a text begins as the text does. -/
theorem head_of_begins {part text : List Char} {c : Char} (begins : part <+: text)
    (head : part.head? = some c) : text.head? = some c := by
  obtain ⟨rest, rfl⟩ := begins
  rw [List.head?_append, head]
  rfl

theorem takes_message {message : Message} (plain : message.Plain) :
    Takes readMessage message.encode message.args := by
  cases message with
  | array args =>
    have takes := takes_array args
    have head : (Message.array args).encode.head? = some '*' := rfl
    constructor
    · intro rest
      rw [readMessage, if_pos (head_of_begins (List.prefix_append ..) head)]
      exact takes.whole rest
    · intro part begins other
      rw [readMessage]
      split
      · exact takes.waits part begins other
      · next unknown =>
        -- without its head, nothing of an array has come
        cases part with
        | nil => rfl
        | cons c part =>
          exact absurd (congrArg some (List.cons_prefix_cons.mp begins).1) unknown
  | inline line =>
    have takes : Takes (readLine.bind fun line => .pure (words line)) (line.val ++ crlf ++ [])
        (words line.val) := (takes_line line).bind (takes_pure _)
    rw [List.append_nil] at takes
    have head : (line.val ++ crlf).head? ≠ some '*' := by
      rw [List.head?_append]
      cases first : line.val.head? with
      | none => decide
      | some c =>
        rw [Option.some_or, ← first]
        exact plain
    constructor
    · intro rest
      have nonempty : line.val ++ crlf ≠ [] := by simp [crlf]
      obtain ⟨c, text, same⟩ := List.exists_cons_of_ne_nil nonempty
      have other : ((line.val ++ crlf) ++ rest).head? ≠ some '*' := by
        rw [same] at head ⊢
        exact head
      rw [Message.encode, readMessage, if_neg other]
      exact takes.whole rest
    · intro part begins other
      rw [readMessage, if_neg fun first => head (head_of_begins begins first)]
      exact takes.waits part begins other

end EcfDgii.Readers
