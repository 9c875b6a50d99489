import Mathlib.Data.List.Basic
import Mathlib.Data.Nat.Notation
import Mathlib.Tactic.Common

/-!
Markup, written line by line and read character by character.

A reader of markup without attributes goes through a text once.  Outside a tag
it takes every character as character data, except for `<`, which begins a tag,
`&`, which begins a reference, and the `>` of `]]>`, which has no place there.
What it saw is a list of tokens: tags, and single characters of data.

A writer puts out lines: an opening tag, a closing tag, or an element with its
content, which is written verbatim or escaped.  `read_iff` says when the two
agree: the reader sees exactly what the writer meant when every content written
verbatim is free of markup, and in no other case.
-/

set_option autoImplicit false

namespace EcfDgii.Markup

/-! ## Reading -/

/-- What a reader sees: a tag, or one character of character data. -/
inductive Token
  | opens (name : List Char)
  | closes (name : List Char)
  | char (c : Char)
  deriving DecidableEq

/-- Where a reader stands: in character data, after so many literal `]`; in a
tag; in a reference. -/
inductive Mode
  | data (brackets : ℕ)
  | tag (read : List Char)
  | reference (read : List Char)
  deriving DecidableEq

structure Reader where
  seen : List Token
  mode : Mode
  deriving DecidableEq

/-- A letter, then letters and digits. -/
def isName : List Char → Bool
  | [] => false
  | c :: cs => c.isAlpha && cs.all Char.isAlphanum

/-- The tag between `<` and `>`. -/
def tagToken : List Char → Option Token
  | [] => none
  | c :: cs =>
    if c = '/' then if isName cs then some (.closes cs) else none
    else if isName (c :: cs) then some (.opens (c :: cs)) else none

variable (entity : List Char → Option (List Char))

/-- One character. -/
def step (r : Reader) (c : Char) : Option Reader :=
  match r.mode with
  | .data brackets =>
    if c = '<' then some ⟨r.seen, .tag []⟩
    else if c = '&' then some ⟨r.seen, .reference []⟩
    else if c = '>' ∧ 2 ≤ brackets then none
    else some ⟨r.seen ++ [.char c], .data (if c = ']' then brackets + 1 else 0)⟩
  | .tag read =>
    if c = '>' then (tagToken read).map fun token => ⟨r.seen ++ [token], .data 0⟩
    else if c = '<' then none
    else some ⟨r.seen, .tag (read ++ [c])⟩
  | .reference read =>
    if c = ';' then (entity read).map fun cs => ⟨r.seen ++ cs.map .char, .data 0⟩
    else if c = '<' ∨ c = '&' then none
    else some ⟨r.seen, .reference (read ++ [c])⟩

/-- A text, from where the reader stands. -/
def run : Reader → List Char → Option Reader
  | r, [] => some r
  | r, c :: cs => (step entity r c).bind fun r' => run r' cs

/-- A whole text: it may not end inside a tag or a reference. -/
def read (text : List Char) : Option (List Token) :=
  match run entity ⟨[], .data 0⟩ text with
  | some ⟨seen, .data _⟩ => some seen
  | _ => none

/-- Whether a token is a tag. -/
def Token.isTag : Token → Bool
  | .char _ => false
  | _ => true

/-- The tags among some tokens, in order. -/
def tags (tokens : List Token) : List Token := tokens.filter Token.isTag

/-- The elements still open after some tokens, the innermost first. -/
def nest : List Token → List (List Char) → Option (List (List Char))
  | [], stack => some stack
  | .char _ :: rest, stack => nest rest stack
  | .opens name :: rest, stack => nest rest (name :: stack)
  | .closes _ :: _, [] => none
  | .closes name :: rest, top :: stack => if name = top then nest rest stack else none

/-- Every element is closed, and in the order of opening. -/
def WellNested (tokens : List Token) : Prop := nest tokens [] = some []

instance (tokens : List Token) : Decidable (WellNested tokens) :=
  inferInstanceAs (Decidable (nest tokens [] = some []))

/-! ## Character data without markup -/

/-- No markup in a text that stands after so many `]`. -/
def plainFrom : ℕ → List Char → Bool
  | _, [] => true
  | brackets, c :: cs =>
    c ≠ '<' && c ≠ '&' && !(c = '>' && 2 ≤ brackets) &&
      plainFrom (if c = ']' then brackets + 1 else 0) cs

/-- A text that is character data as it stands. -/
def Plain (cs : List Char) : Prop := plainFrom 0 cs = true

instance (cs : List Char) : Decidable (Plain cs) :=
  inferInstanceAs (Decidable (plainFrom 0 cs = true))

/-- The delimiter that may not stand in character data. -/
def cdataEnd : List Char := [']', ']', '>']

/-- Behind some `]`, the delimiter ends at the first character or comes later. -/
theorem cdataEnd_infix_iff {brackets : ℕ} {c : Char} {cs : List Char} (other : c ≠ ']') :
    cdataEnd <:+: List.replicate brackets ']' ++ c :: cs ↔
      (c = '>' ∧ 2 ≤ brackets) ∨ cdataEnd <:+: cs := by
  induction brackets with
  | zero =>
    rw [List.replicate_zero, List.nil_append, List.infix_cons_iff]
    simp [cdataEnd, other.symm]
  | succ brackets ih =>
    rw [List.replicate_succ, List.cons_append, List.infix_cons_iff, ih]
    have start : cdataEnd <+: ']' :: (List.replicate brackets ']' ++ c :: cs) ↔
        c = '>' ∧ brackets = 1 := by
      rcases brackets with _ | _ | brackets
      · simp [cdataEnd, other.symm]
      · simp [cdataEnd, eq_comm]
      · simp [cdataEnd, List.replicate_succ]
    rw [start]
    constructor
    · rintro (⟨rfl, rfl⟩ | ⟨rfl, many⟩ | later)
      · exact .inl ⟨rfl, by omega⟩
      · exact .inl ⟨rfl, by omega⟩
      · exact .inr later
    · rintro (⟨rfl, many⟩ | later)
      · rcases Nat.lt_or_ge brackets 2 with few | enough
        · exact .inl ⟨rfl, by omega⟩
        · exact .inr (.inl ⟨rfl, enough⟩)
      · exact .inr (.inr later)

theorem plainFrom_iff (brackets : ℕ) (cs : List Char) :
    plainFrom brackets cs = true ↔
      '<' ∉ cs ∧ '&' ∉ cs ∧ ¬ cdataEnd <:+: List.replicate brackets ']' ++ cs := by
  induction cs generalizing brackets with
  | nil =>
    have none : ¬ cdataEnd <:+: List.replicate brackets ']' ++ [] := by
      intro inside
      have member : '>' ∈ List.replicate brackets ']' ++ [] :=
        inside.subset (by simp [cdataEnd])
      simp at member
    simpa [plainFrom] using none
  | cons c cs ih =>
    simp only [plainFrom, Bool.and_eq_true, decide_eq_true_eq, Bool.not_eq_true', ih,
      List.mem_cons, not_or]
    by_cases bracket : c = ']'
    · subst bracket
      have same : List.replicate brackets ']' ++ ']' :: cs =
          List.replicate (brackets + 1) ']' ++ cs := by
        rw [List.replicate_succ', List.append_assoc, List.singleton_append]
      rw [same, if_pos rfl]
      simp
    · rw [if_neg bracket, List.replicate_zero, List.nil_append, cdataEnd_infix_iff bracket]
      simp only [not_and, not_or]
      constructor
      · rintro ⟨⟨⟨less, amp⟩, few⟩, noLess, noAmp, later⟩
        refine ⟨⟨fun h => less h.symm, noLess⟩, ⟨fun h => amp h.symm, noAmp⟩, ?_, later⟩
        simpa using few
      · rintro ⟨⟨less, noLess⟩, ⟨amp, noAmp⟩, few, later⟩
        refine ⟨⟨⟨fun h => less h.symm, fun h => amp h.symm⟩, ?_⟩, noLess, noAmp, later⟩
        simpa using few

theorem plain_iff (cs : List Char) :
    Plain cs ↔ '<' ∉ cs ∧ '&' ∉ cs ∧ ¬ cdataEnd <:+: cs :=
  plainFrom_iff 0 cs

/-- Characters that are never markup make a plain text. -/
theorem plain_of_harmless {cs : List Char} (harmless : ∀ c ∈ cs, c ≠ '<' ∧ c ≠ '&' ∧ c ≠ '>') :
    Plain cs := by
  rw [plain_iff]
  refine ⟨fun h => (harmless _ h).1 rfl, fun h => (harmless _ h).2.1 rfl, fun inside => ?_⟩
  exact (harmless '>' (inside.subset (by simp [cdataEnd]))).2.2 rfl

/-! ## Runs -/

variable {entity}

@[simp] theorem run_nil (r : Reader) : run entity r [] = some r := rfl

theorem run_append (r : Reader) (cs ds : List Char) :
    run entity r (cs ++ ds) = (run entity r cs).bind fun r' => run entity r' ds := by
  induction cs generalizing r with
  | nil => rfl
  | cons c cs ih =>
    simp only [List.cons_append, run]
    cases step entity r c with
    | none => rfl
    | some r' => exact ih r'

/-- What was seen stays seen. -/
theorem step_seen {r r' : Reader} {c : Char} (h : step entity r c = some r') :
    r.seen <+: r'.seen := by
  unfold step at h
  split at h
  · split_ifs at h <;> cases h <;> simp
  · split_ifs at h
    · obtain ⟨token, -, rfl⟩ := Option.map_eq_some_iff.mp h
      simp
    · cases h
      simp
  · split_ifs at h
    · obtain ⟨cs, -, rfl⟩ := Option.map_eq_some_iff.mp h
      simp
    · cases h
      simp

theorem run_seen {r r' : Reader} {cs : List Char} (h : run entity r cs = some r') :
    r.seen <+: r'.seen := by
  induction cs generalizing r with
  | nil =>
    cases h
    exact List.prefix_rfl
  | cons c cs ih =>
    obtain ⟨middle, first, rest⟩ := Option.bind_eq_some_iff.mp h
    exact (step_seen first).trans (ih rest)

/-- What one character of character data does. -/
theorem step_data {seen : List Token} {brackets : ℕ} {c : Char} {r : Reader}
    (h : step entity ⟨seen, .data brackets⟩ c = some r) :
    (c = '<' ∧ r = ⟨seen, .tag []⟩) ∨ (c = '&' ∧ r = ⟨seen, .reference []⟩) ∨
      (c ≠ '<' ∧ c ≠ '&' ∧ ¬ (c = '>' ∧ 2 ≤ brackets) ∧
        r = ⟨seen ++ [.char c], .data (if c = ']' then brackets + 1 else 0)⟩) := by
  dsimp only [step] at h
  by_cases less : c = '<'
  · rw [if_pos less] at h
    exact .inl ⟨less, (Option.some.inj h).symm⟩
  rw [if_neg less] at h
  by_cases amp : c = '&'
  · rw [if_pos amp] at h
    exact .inr (.inl ⟨amp, (Option.some.inj h).symm⟩)
  rw [if_neg amp] at h
  by_cases close : c = '>' ∧ 2 ≤ brackets
  · rw [if_pos close] at h
    cases h
  rw [if_neg close] at h
  exact .inr (.inr ⟨less, amp, close, (Option.some.inj h).symm⟩)

/-- Plain text is read as it stands. -/
theorem run_plain {cs : List Char} {brackets : ℕ} (plain : plainFrom brackets cs = true)
    (seen : List Token) :
    ∃ brackets', run entity ⟨seen, .data brackets⟩ cs =
      some ⟨seen ++ cs.map .char, .data brackets'⟩ := by
  induction cs generalizing brackets seen with
  | nil => exact ⟨brackets, by simp⟩
  | cons c cs ih =>
    simp only [plainFrom, Bool.and_eq_true, decide_eq_true_eq, Bool.not_eq_true'] at plain
    obtain ⟨⟨⟨less, amp⟩, close⟩, rest⟩ := plain
    obtain ⟨brackets', read⟩ := ih rest (seen ++ [.char c])
    refine ⟨brackets', ?_⟩
    have first : step entity ⟨seen, .data brackets⟩ c =
        some ⟨seen ++ [.char c], .data (if c = ']' then brackets + 1 else 0)⟩ := by
      simp only [step, less, amp, if_false]
      rw [if_neg (by simpa using close)]
    rw [run, first]
    simpa using read

/-- The characters of data that come before the first tag. -/
def lead : List Token → ℕ
  | .char _ :: rest => lead rest + 1
  | _ => 0

theorem lead_of_prefix {cs : List Char} {tokens : List Token}
    (h : cs.map Token.char <+: tokens) : cs.length ≤ lead tokens := by
  obtain ⟨rest, rfl⟩ := h
  induction cs with
  | nil => exact Nat.zero_le _
  | cons c cs ih => simpa [lead] using ih

theorem lead_chars (cs : List Char) (tokens : List Token) :
    lead (cs.map Token.char ++ tokens) = cs.length + lead tokens := by
  induction cs with
  | nil => simp
  | cons c cs ih =>
    simp only [List.map_cons, List.cons_append, lead, ih, List.length_cons]
    omega

theorem tagToken_isTag {cs : List Char} {token : Token} (h : tagToken cs = some token) :
    token.isTag = true := by
  unfold tagToken at h
  split at h
  · cases h
  · split_ifs at h <;> cases h <;> rfl

/-- Inside a tag the next token is a tag. -/
theorem run_tag {seen : List Token} {name cs : List Char} {r : Reader}
    (h : run entity ⟨seen, .tag name⟩ cs = some r) :
    ∃ rest, r.seen = seen ++ rest ∧ lead rest = 0 := by
  induction cs generalizing name with
  | nil =>
    cases h
    exact ⟨[], by simp, rfl⟩
  | cons c cs ih =>
    obtain ⟨middle, first, later⟩ := Option.bind_eq_some_iff.mp h
    simp only [step] at first
    split_ifs at first
    · obtain ⟨token, tag, rfl⟩ := Option.map_eq_some_iff.mp first
      obtain ⟨rest, grown⟩ := run_seen later
      refine ⟨token :: rest, by simp [← grown], ?_⟩
      cases token with
      | char c => cases tagToken_isTag tag
      | opens name => rfl
      | closes name => rfl
    · cases first
      exact ih later

/-- How many characters of data a text can still give before the next `<`. -/
def budget : Mode → List Char → ℕ
  | .data _, cs => cs.length
  | .tag _, _ => 0
  | .reference name, cs => name.length + cs.length

/-- A text that runs into a tag gives at most as many characters as it has, a
reference standing for no more than its name and one. -/
theorem run_lead (short : ∀ name cs, entity name = some cs → cs.length ≤ name.length + 1)
    {r r' : Reader} {cs post : List Char}
    (h : run entity r (cs ++ '<' :: post) = some r') :
    ∃ rest, r'.seen = r.seen ++ rest ∧ lead rest ≤ budget r.mode cs := by
  induction cs generalizing r with
  | nil =>
    obtain ⟨seen, mode⟩ := r
    obtain ⟨middle, first, later⟩ := Option.bind_eq_some_iff.mp h
    cases mode with
    | tag name => simp [step] at first
    | reference name => simp [step] at first
    | data brackets =>
      cases first
      obtain ⟨rest, grown, none⟩ := run_tag later
      exact ⟨rest, grown, by simp [none]⟩
  | cons c cs ih =>
    obtain ⟨seen, mode⟩ := r
    cases mode with
    | tag name =>
      obtain ⟨rest, grown, none⟩ := run_tag h
      exact ⟨rest, grown, by simp [none]⟩
    | data brackets =>
      obtain ⟨middle, first, later⟩ := Option.bind_eq_some_iff.mp h
      obtain ⟨rest, grown, few⟩ := ih later
      rcases step_data first with ⟨-, rfl⟩ | ⟨-, rfl⟩ | ⟨-, -, -, rfl⟩
      · exact ⟨rest, grown, Nat.le_trans few (Nat.zero_le _)⟩
      · exact ⟨rest, grown, Nat.le_trans few (by simp [budget])⟩
      · refine ⟨.char c :: rest, by simp [grown], ?_⟩
        simpa [lead, budget] using few
    | reference name =>
      obtain ⟨middle, first, later⟩ := Option.bind_eq_some_iff.mp h
      obtain ⟨rest, grown, few⟩ := ih later
      simp only [step] at first
      split_ifs at first
      · obtain ⟨ds, known, rfl⟩ := Option.map_eq_some_iff.mp first
        have length := short name ds known
        refine ⟨ds.map .char ++ rest, by simp [grown], ?_⟩
        rw [lead_chars]
        simp only [budget, List.length_cons] at few ⊢
        omega
      · cases first
        refine ⟨rest, grown, ?_⟩
        simp only [budget, List.length_append, List.length_cons, List.length_nil] at few ⊢
        omega

/-- **Only plain text is read as it stands.** -/
theorem plain_of_run (short : ∀ name cs, entity name = some cs → cs.length ≤ name.length + 1)
    {cs post : List Char} {seen : List Token} {brackets : ℕ} {r : Reader}
    (h : run entity ⟨seen, .data brackets⟩ (cs ++ '<' :: post) = some r)
    (as_stands : seen ++ cs.map .char <+: r.seen) : plainFrom brackets cs = true := by
  induction cs generalizing brackets seen with
  | nil => rfl
  | cons c cs ih =>
    have exceeds : ∀ rest, r.seen = seen ++ rest → cs.length + 1 ≤ lead rest := by
      intro rest grown
      rw [grown] at as_stands
      exact lead_of_prefix ((List.prefix_append_right_inj seen).mp as_stands)
    obtain ⟨middle, first, later⟩ := Option.bind_eq_some_iff.mp h
    obtain ⟨rest, grown, few⟩ := run_lead short later
    rcases step_data first with ⟨-, rfl⟩ | ⟨-, rfl⟩ | ⟨less, amp, close, rfl⟩
    · have enough := exceeds rest grown
      have none : lead rest ≤ 0 := few
      omega
    · have enough := exceeds rest grown
      simp only [budget, List.length_nil] at few
      omega
    · have tail := ih later (by simpa using as_stands)
      simp only [plainFrom, Bool.and_eq_true, decide_eq_true_eq, Bool.not_eq_true']
      exact ⟨⟨⟨less, amp⟩, by simpa using close⟩, tail⟩

/-! ## Writing -/

/-- The content of an element: written as it is, or escaped. -/
inductive Content
  | verbatim (text : String)
  | escaped (text : String)
  deriving DecidableEq

/-- A line of output. -/
inductive Line
  | opening (indent : ℕ) (name : String)
  | closing (indent : ℕ) (name : String)
  | element (indent : ℕ) (name : String) (content : Content)
  deriving DecidableEq

def blanks (indent : ℕ) : List Char := List.replicate indent ' '

def openTag (name : String) : List Char := '<' :: (name.toList ++ ['>'])

def closeTag (name : String) : List Char := '<' :: '/' :: (name.toList ++ ['>'])

/-- An element around some lines. -/
def block (indent : ℕ) (name : String) (inner : List Line) : List Line :=
  .opening indent name :: (inner ++ [.closing indent name])

variable (escape kept : List Char → List Char)

/-- A content as it is written. -/
def Content.written : Content → List Char
  | .verbatim text => text.toList
  | .escaped text => escape text.toList

/-- A content as it is meant. -/
def Content.meant : Content → List Char
  | .verbatim text => text.toList
  | .escaped text => kept text.toList

/-- The text of a line. -/
def Line.text : Line → List Char
  | .opening indent name => blanks indent ++ (openTag name ++ ['\n'])
  | .closing indent name => blanks indent ++ (closeTag name ++ ['\n'])
  | .element indent name content =>
    blanks indent ++ (openTag name ++ (content.written escape ++ (closeTag name ++ ['\n'])))

def text (lines : List Line) : List Char := lines.flatMap (Line.text escape)

/-- The tokens a line stands for. -/
def Line.tokens : Line → List Token
  | .opening indent name => (blanks indent).map .char ++ [.opens name.toList, .char '\n']
  | .closing indent name => (blanks indent).map .char ++ [.closes name.toList, .char '\n']
  | .element indent name content =>
    (blanks indent).map .char ++ (.opens name.toList :: ((content.meant kept).map .char ++
      [.closes name.toList, .char '\n']))

def tokens (lines : List Line) : List Token := lines.flatMap (Line.tokens kept)

/-- The tags of a line. -/
def Line.tags : Line → List Token
  | .opening _ name => [.opens name.toList]
  | .closing _ name => [.closes name.toList]
  | .element _ name _ => [.opens name.toList, .closes name.toList]

/-- What a line writes verbatim holds no markup. -/
def Line.Plain : Line → Prop
  | .element _ _ (.verbatim text) => Markup.Plain text.toList
  | _ => True

instance (line : Line) : Decidable line.Plain :=
  match line with
  | .element _ _ (.verbatim text) => inferInstanceAs (Decidable (Markup.Plain text.toList))
  | .element _ _ (.escaped _) => .isTrue trivial
  | .opening _ _ => .isTrue trivial
  | .closing _ _ => .isTrue trivial

/-- Lines that write no markup verbatim. -/
def PlainLines (lines : List Line) : Prop := ∀ line ∈ lines, line.Plain

@[simp] theorem plainLines_nil : PlainLines [] := nofun

@[simp] theorem plainLines_cons (line : Line) (lines : List Line) :
    PlainLines (line :: lines) ↔ line.Plain ∧ PlainLines lines :=
  List.forall_mem_cons

@[simp] theorem plainLines_append (first second : List Line) :
    PlainLines (first ++ second) ↔ PlainLines first ∧ PlainLines second :=
  List.forall_mem_append

@[simp] theorem plainLines_block (indent : ℕ) (name : String) (inner : List Line) :
    PlainLines (block indent name inner) ↔ PlainLines inner := by
  simp [block, Line.Plain]

@[simp] theorem plain_verbatim (indent : ℕ) (name content : String) :
    (Line.element indent name (.verbatim content)).Plain ↔ Markup.Plain content.toList := Iff.rfl

@[simp] theorem plain_escaped (indent : ℕ) (name content : String) :
    (Line.element indent name (.escaped content)).Plain := trivial

/-- Lines in which every element is closed, under names. -/
inductive Nested : List Line → Prop
  | nil : Nested []
  | element (indent : ℕ) {name : String} (content : Content) (named : isName name.toList = true) :
      Nested [.element indent name content]
  | block (indent : ℕ) {name : String} {inner : List Line} (named : isName name.toList = true)
      (nested : Nested inner) : Nested (block indent name inner)
  | append {first second : List Line} (left : Nested first) (right : Nested second) :
      Nested (first ++ second)

theorem Nested.ite {condition : Prop} [Decidable condition] {first second : List Line}
    (left : Nested first) (right : Nested second) :
    Nested (if condition then first else second) := by
  split
  · exact left
  · exact right

/-- Lines that are nested one by one. -/
theorem Nested.flatMap {α : Type} {items : List α} {lines : α → List Line}
    (each : ∀ item ∈ items, Nested (lines item)) : Nested (items.flatMap lines) := by
  induction items with
  | nil => exact .nil
  | cons item items ih =>
    rw [List.flatMap_cons]
    exact .append (each item List.mem_cons_self) (ih fun i h => each i (List.mem_cons_of_mem _ h))

def Line.name : Line → String
  | .opening _ name => name
  | .closing _ name => name
  | .element _ name _ => name

@[simp] theorem text_nil : text escape [] = [] := rfl

@[simp] theorem text_cons (line : Line) (lines : List Line) :
    text escape (line :: lines) = line.text escape ++ text escape lines := rfl

@[simp] theorem tokens_nil : tokens kept [] = [] := rfl

@[simp] theorem tokens_cons (line : Line) (lines : List Line) :
    tokens kept (line :: lines) = line.tokens kept ++ tokens kept lines := rfl

@[simp] theorem tokens_append (first second : List Line) :
    tokens kept (first ++ second) = tokens kept first ++ tokens kept second :=
  List.flatMap_append

theorem Nested.names {lines : List Line} (nested : Nested lines) :
    ∀ line ∈ lines, isName line.name.toList = true := by
  induction nested with
  | nil => simp
  | element indent content named => simpa [Line.name] using named
  | block indent named _ ih =>
    intro line member
    simp only [Markup.block, List.mem_cons, List.mem_append, List.not_mem_nil, or_false] at member
    rcases member with rfl | inner | rfl
    · exact named
    · exact ih line inner
    · exact named
  | append _ _ left right =>
    intro line member
    rcases List.mem_append.mp member with inner | inner
    · exact left line inner
    · exact right line inner

/-- The tags among the tokens of some lines. -/
theorem tags_tokens (lines : List Line) : tags (tokens kept lines) = lines.flatMap Line.tags := by
  have data : ∀ cs : List Char, (cs.map Token.char).filter Token.isTag = [] := by
    intro cs
    simp [List.filter_eq_nil_iff, Token.isTag]
  induction lines with
  | nil => rfl
  | cons line lines ih =>
    rw [tokens_cons, tags, List.filter_append, List.flatMap_cons]
    refine congrArg₂ (· ++ ·) ?_ ih
    cases line <;>
      simp only [Line.tokens, Line.tags, List.filter_append, List.filter_cons, data,
        List.nil_append] <;>
      simp [Token.isTag]

theorem nest_chars (cs : List Char) (rest : List Token) (stack : List (List Char)) :
    nest (cs.map Token.char ++ rest) stack = nest rest stack := by
  induction cs with
  | nil => rfl
  | cons c cs ih => exact ih

/-- Lines whose elements are closed leave the open elements as they were. -/
theorem Nested.nest {lines : List Line} (nested : Nested lines) (rest : List Token)
    (stack : List (List Char)) :
    Markup.nest (tokens kept lines ++ rest) stack = Markup.nest rest stack := by
  induction nested generalizing rest stack with
  | nil => rfl
  | element indent content named =>
    simp only [tokens_cons, tokens_nil, Line.tokens, List.append_nil, List.append_assoc,
      List.cons_append, nest_chars, List.nil_append]
    simp [Markup.nest, nest_chars]
  | block indent named _ ih =>
    simp only [Markup.block, tokens_cons, tokens_append, tokens_nil, Line.tokens, List.append_nil,
      List.append_assoc, List.cons_append, nest_chars, List.nil_append]
    simp [Markup.nest, nest_chars, ih]
  | append _ _ left right =>
    rw [tokens_append, List.append_assoc, left, right]

theorem Nested.wellNested {lines : List Line} (nested : Nested lines) :
    WellNested (tokens kept lines) := by
  have closed := nested.nest kept [] []
  rwa [List.append_nil] at closed

/-! ## Reading what was written -/

/-- A text that reads, behind a tag, as some character data. -/
def Reads (entity : List Char → Option (List Char)) (written meant : List Char) : Prop :=
  ∀ seen : List Token, ∃ brackets, run entity ⟨seen, .data 0⟩ written =
    some ⟨seen ++ meant.map .char, .data brackets⟩

theorem alphanum_inside {c : Char} (h : c.isAlphanum = true) : c ≠ '>' ∧ c ≠ '<' ∧ c ≠ '/' := by
  refine ⟨?_, ?_, ?_⟩ <;>
    · rintro rfl
      revert h
      decide

theorem isName_alphanum {name : List Char} (named : isName name = true) :
    ∀ c ∈ name, c.isAlphanum = true := by
  cases name with
  | nil => simp
  | cons c cs =>
    simp only [isName, Bool.and_eq_true, List.all_eq_true] at named
    intro d member
    rcases List.mem_cons.mp member with rfl | later
    · simp [Char.isAlphanum, named.1]
    · exact named.2 d later

/-- The inside of a tag is collected up to its end. -/
theorem run_inside {cs : List Char} (inside : ∀ c ∈ cs, c ≠ '>' ∧ c ≠ '<') (seen : List Token)
    (read rest : List Char) :
    run entity ⟨seen, .tag read⟩ (cs ++ '>' :: rest) =
      ((tagToken (read ++ cs)).bind fun token => run entity ⟨seen ++ [token], .data 0⟩ rest) := by
  induction cs generalizing read with
  | nil =>
    simp only [List.nil_append, List.append_nil, run, step, if_true]
    cases tagToken read <;> rfl
  | cons c cs ih =>
    obtain ⟨close, less⟩ := inside c List.mem_cons_self
    have later := ih (fun d h => inside d (List.mem_cons_of_mem c h)) (read ++ [c])
    simp only [List.cons_append, run, step, close, less, if_false, Option.bind_some]
    rw [later, List.append_assoc, List.singleton_append]

theorem tagToken_opens {name : List Char} (named : isName name = true) :
    tagToken name = some (.opens name) := by
  cases name with
  | nil => cases named
  | cons c cs =>
    have slash := (alphanum_inside (isName_alphanum named c List.mem_cons_self)).2.2
    simp [tagToken, slash, named]

theorem run_openTag {name : String} (named : isName name.toList = true) (seen : List Token)
    (brackets : ℕ) (rest : List Char) :
    run entity ⟨seen, .data brackets⟩ (openTag name ++ rest) =
      run entity ⟨seen ++ [.opens name.toList], .data 0⟩ rest := by
  have inside : ∀ c ∈ name.toList, c ≠ '>' ∧ c ≠ '<' := fun c member =>
    have h := alphanum_inside (isName_alphanum named c member)
    ⟨h.1, h.2.1⟩
  have tag : run entity _ _ = _ := run_inside inside seen [] rest
  rw [List.nil_append, tagToken_opens named] at tag
  simpa [openTag, run, step] using tag

theorem run_closeTag {name : String} (named : isName name.toList = true) (seen : List Token)
    (brackets : ℕ) (rest : List Char) :
    run entity ⟨seen, .data brackets⟩ (closeTag name ++ rest) =
      run entity ⟨seen ++ [.closes name.toList], .data 0⟩ rest := by
  have inside : ∀ c ∈ '/' :: name.toList, c ≠ '>' ∧ c ≠ '<' := by
    intro c member
    rcases List.mem_cons.mp member with rfl | member
    · decide
    · have h := alphanum_inside (isName_alphanum named c member)
      exact ⟨h.1, h.2.1⟩
  have tag : run entity _ _ = _ := run_inside inside seen [] rest
  have closes : tagToken ('/' :: name.toList) = some (.closes name.toList) := by
    simp [tagToken, named]
  rw [List.nil_append, closes] at tag
  simpa [closeTag, run, step] using tag

/-- The blanks before a tag, and the line break after it. -/
theorem run_blanks (indent : ℕ) (seen : List Token) (rest : List Char) :
    run entity ⟨seen, .data 0⟩ (blanks indent ++ rest) =
      run entity ⟨seen ++ (blanks indent).map .char, .data 0⟩ rest := by
  induction indent generalizing seen with
  | zero => simp [blanks]
  | succ indent ih =>
    have later := ih (seen ++ [.char ' '])
    simpa [blanks, List.replicate_succ, run, step] using later

theorem run_newline (seen : List Token) (brackets : ℕ) (rest : List Char) :
    run entity ⟨seen, .data brackets⟩ ('\n' :: rest) =
      run entity ⟨seen ++ [.char '\n'], .data 0⟩ rest := by
  simp [run, step]

/-- A reference is read as what it stands for. -/
theorem run_reference (seen : List Token) (brackets : ℕ) {cs : List Char} (name rest : List Char)
    (known : entity name = some cs) (inside : ∀ c ∈ name, c ≠ ';' ∧ c ≠ '<' ∧ c ≠ '&') :
    run entity ⟨seen, .data brackets⟩ ('&' :: (name ++ ';' :: rest)) =
      run entity ⟨seen ++ cs.map .char, .data 0⟩ rest := by
  have collect : ∀ read, entity (read ++ name) = some cs →
      run entity ⟨seen, .reference read⟩ (name ++ ';' :: rest) =
        run entity ⟨seen ++ cs.map .char, .data 0⟩ rest := by
    clear known
    induction name with
    | nil =>
      intro read known
      rw [List.append_nil] at known
      simp [run, step, known]
    | cons c name ih =>
      intro read known
      obtain ⟨semicolon, less, amp⟩ := inside c List.mem_cons_self
      have later := ih (fun d h => inside d (List.mem_cons_of_mem c h)) (read ++ [c])
        (by rwa [List.append_assoc, List.singleton_append])
      simpa [run, step, semicolon, less, amp] using later
  simpa [run, step] using collect [] known

variable {escape kept}

/-- The reading of a line, up to its content. -/
theorem run_element {name : String} (named : isName name.toList = true) (indent : ℕ)
    (content : Content) (seen : List Token) (rest : List Char) :
    run entity ⟨seen, .data 0⟩ ((Line.element indent name content).text escape ++ rest) =
      run entity ⟨seen ++ (blanks indent).map .char ++ [.opens name.toList], .data 0⟩
        (content.written escape ++ '<' :: ('/' :: (name.toList ++ '>' :: '\n' :: rest))) := by
  have line : (Line.element indent name content).text escape ++ rest =
      blanks indent ++ (openTag name ++
        (content.written escape ++ '<' :: ('/' :: (name.toList ++ '>' :: '\n' :: rest)))) := by
    simp [Line.text, closeTag]
  rw [line, run_blanks, run_openTag named]

theorem run_lineEnd {name : String} (named : isName name.toList = true) (seen : List Token)
    (brackets : ℕ) (rest : List Char) :
    run entity ⟨seen, .data brackets⟩ ('<' :: ('/' :: (name.toList ++ '>' :: '\n' :: rest))) =
      run entity ⟨seen ++ [.closes name.toList, .char '\n'], .data 0⟩ rest := by
  have tag : run entity _ _ = _ := run_closeTag named seen brackets ('\n' :: rest)
  have text : closeTag name ++ '\n' :: rest =
      '<' :: ('/' :: (name.toList ++ '>' :: '\n' :: rest)) := by simp [closeTag]
  rw [text, run_newline] at tag
  simpa using tag

section

variable (reads : ∀ cs, Reads entity (escape cs) (kept cs))

include reads

/-- A line that holds no markup of its own is read as it was meant. -/
theorem run_line {line : Line} (named : isName line.name.toList = true) (plain : line.Plain)
    (seen : List Token) (rest : List Char) :
    run entity ⟨seen, .data 0⟩ (line.text escape ++ rest) =
      run entity ⟨seen ++ line.tokens kept, .data 0⟩ rest := by
  cases line with
  | opening indent name =>
    have named : isName name.toList = true := named
    simp only [Line.text, List.append_assoc, run_blanks, run_openTag named]
    rw [List.singleton_append, run_newline]
    simp [Line.tokens]
  | closing indent name =>
    have named : isName name.toList = true := named
    simp only [Line.text, List.append_assoc, run_blanks, run_closeTag named]
    rw [List.singleton_append, run_newline]
    simp [Line.tokens]
  | element indent name content =>
    have named : isName name.toList = true := named
    have content_read : Reads entity (content.written escape) (content.meant kept) := by
      cases content with
      | verbatim text => exact fun seen => run_plain plain seen
      | escaped text => exact reads text.toList
    obtain ⟨brackets, read⟩ := content_read
      (seen ++ (blanks indent).map .char ++ [.opens name.toList])
    rw [run_element named, run_append, read, Option.bind_some, run_lineEnd named]
    simp [Line.tokens]

/-- Lines that hold no markup of their own are read as they were meant. -/
theorem run_text {lines : List Line} (named : ∀ line ∈ lines, isName line.name.toList = true)
    (plain : PlainLines lines) (seen : List Token) :
    run entity ⟨seen, .data 0⟩ (text escape lines) =
      some ⟨seen ++ tokens kept lines, .data 0⟩ := by
  induction lines generalizing seen with
  | nil => simp
  | cons line lines ih =>
    have first := run_line reads (named line List.mem_cons_self) (plain line List.mem_cons_self)
      seen (text escape lines)
    have rest := ih (fun l h => named l (List.mem_cons_of_mem line h))
      (fun l h => plain l (List.mem_cons_of_mem line h)) (seen ++ line.tokens kept)
    rw [text_cons, first, rest, tokens_cons, List.append_assoc]

/-- Lines that are read as they were meant hold no markup of their own. -/
theorem plain_of_read (short : ∀ name cs, entity name = some cs → cs.length ≤ name.length + 1)
    {lines : List Line} (named : ∀ line ∈ lines, isName line.name.toList = true)
    {seen : List Token} {r : Reader}
    (read : run entity ⟨seen, .data 0⟩ (text escape lines) = some r)
    (meant : r.seen = seen ++ tokens kept lines) : PlainLines lines := by
  induction lines generalizing seen with
  | nil => simp
  | cons line lines ih =>
    have first : line.Plain := by
      cases line with
      | opening indent name => trivial
      | closing indent name => trivial
      | element indent name content =>
        cases content with
        | escaped content => trivial
        | verbatim content =>
          have own : isName name.toList = true := named _ List.mem_cons_self
          rw [text_cons, run_element own] at read
          refine plain_of_run short read ?_
          rw [meant]
          simp [Line.tokens, Content.meant]
    have later := run_line reads (named line List.mem_cons_self) first seen (text escape lines)
    rw [text_cons, later] at read
    have rest := ih (fun l h => named l (List.mem_cons_of_mem line h)) read (by simp [meant])
    intro l member
    rcases List.mem_cons.mp member with rfl | member
    · exact first
    · exact rest l member

/-- **Written and read.**  A reader sees what the writer meant exactly when
nothing written verbatim holds markup. -/
theorem read_iff (short : ∀ name cs, entity name = some cs → cs.length ≤ name.length + 1)
    {lines : List Line} (named : ∀ line ∈ lines, isName line.name.toList = true) :
    read entity (text escape lines) = some (tokens kept lines) ↔ PlainLines lines := by
  constructor
  · intro agrees
    unfold read at agrees
    split at agrees
    · next seen brackets whole =>
      have meant : seen = tokens kept lines := Option.some.inj agrees
      exact plain_of_read reads short named whole (by rw [meant, List.nil_append])
    · cases agrees
  · intro plain
    rw [read, run_text reads named plain]
    simp

end

end EcfDgii.Markup
