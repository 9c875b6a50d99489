import Mathlib.Data.List.Infix
import Mathlib.Data.List.TakeWhile
import Mathlib.Tactic.Common

/-!
Regular expressions that backtrack.

`Pattern.run` lists the ways in which a pattern matches at the beginning of a
text, in the order in which a backtracking matcher tries them: alternatives from
left to right, repetitions as often as possible first.  A search takes the first
way at the first position that has one; `all` goes on behind each match.

`all_complete` says when no match is passed over: when no match can begin inside
another one.
-/

set_option autoImplicit false

namespace EcfDgii.Patterns

/-! ## Patterns -/

inductive Pattern
  | empty
  | char (test : Char → Bool)
  | seq (first second : Pattern)
  | alt (first second : Pattern)
  | group (inner : Pattern)
  | notAhead (inner : Pattern)

/-- What was matched, what the group in it was, and what follows. -/
structure Match where
  text : List Char
  group : List Char
  rest : List Char
  deriving DecidableEq

/-- The ways to match at the beginning of a text, the preferred one first. -/
def Pattern.run : Pattern → List Char → List Match
  | .empty, cs => [⟨[], [], cs⟩]
  | .char _, [] => []
  | .char test, c :: cs => if test c then [⟨[c], [], cs⟩] else []
  | .seq p q, cs => (p.run cs).flatMap fun m =>
      (q.run m.rest).map fun n => ⟨m.text ++ n.text, m.group ++ n.group, n.rest⟩
  | .alt p q, cs => p.run cs ++ q.run cs
  | .group p, cs => (p.run cs).map fun m => ⟨m.text, m.text, m.rest⟩
  | .notAhead p, cs => if (p.run cs).isEmpty then [⟨[], [], cs⟩] else []

/-- The characters of a text. -/
def chars : List Char → Pattern
  | [] => .empty
  | c :: cs => .seq (.char (· = c)) (chars cs)

/-- `first|second|..`. -/
def oneOf : List String → Pattern
  | [] => .notAhead .empty
  | [text] => chars text.toList
  | text :: texts => .alt (chars text.toList) (oneOf texts)

def optional (p : Pattern) : Pattern := .alt p .empty

def exactly : ℕ → Pattern → Pattern
  | 0, _ => .empty
  | n + 1, p => .seq p (exactly n p)

def upTo : ℕ → Pattern → Pattern
  | 0, _ => .empty
  | n + 1, p => optional (.seq p (upTo n p))

/-- `p{low,high}`. -/
def between (low high : ℕ) (p : Pattern) : Pattern := .seq (exactly low p) (upTo (high - low) p)

variable (p : Pattern)

/-- The match at the beginning of a text. -/
def Pattern.first (cs : List Char) : Option Match := (p.run cs).head?

/-- `std::regex_search`. -/
def Pattern.search (cs : List Char) : Bool := cs.tails.any fun t => (p.first t).isSome

/-- The matches of `std::sregex_iterator`, for a pattern that does not match the
empty text, behind so many characters that belong to the last match. -/
def Pattern.all : ℕ → List Char → List Match
  | _, [] => []
  | n + 1, _ :: cs => all n cs
  | 0, c :: cs =>
    match p.first (c :: cs) with
    | some m => m :: all (m.text.length - 1) cs
    | none => all 0 cs

/-! ## Searching -/

variable {p}

theorem all_skip (n : ℕ) (cs : List Char) : p.all n cs = p.all 0 (cs.drop n) := by
  induction cs generalizing n with
  | nil => cases n <;> rfl
  | cons c cs ih =>
    cases n with
    | zero => rfl
    | succ n => exact ih n

theorem all_of_first {c : Char} {cs : List Char} {m : Match} (first : p.first (c :: cs) = some m)
    (nonempty : m.text ≠ []) :
    p.all 0 (c :: cs) = m :: p.all 0 ((c :: cs).drop m.text.length) := by
  obtain ⟨length, more⟩ := Nat.exists_eq_add_one.mpr (List.length_pos_iff.mpr nonempty)
  rw [Pattern.all, first]
  dsimp only
  rw [all_skip, more]
  rfl

theorem all_of_none {c : Char} {cs : List Char} (first : p.first (c :: cs) = none) :
    p.all 0 (c :: cs) = p.all 0 cs := by
  rw [Pattern.all, first]

/-- What is found stands somewhere. -/
theorem first_of_mem_all {m : Match} {n : ℕ} {cs : List Char} (member : m ∈ p.all n cs) :
    ∃ t, t <:+ cs ∧ p.first t = some m := by
  induction cs generalizing n with
  | nil => cases n <;> cases member
  | cons c cs ih =>
    have later {k : ℕ} (inside : m ∈ p.all k cs) : ∃ t, t <:+ c :: cs ∧ p.first t = some m := by
      obtain ⟨t, suffix, found⟩ := ih inside
      exact ⟨t, suffix.trans (List.suffix_cons c cs), found⟩
    cases n with
    | succ n => exact later member
    | zero =>
      cases found : p.first (c :: cs) with
      | none =>
        rw [all_of_none found] at member
        exact later member
      | some first =>
        rw [Pattern.all, found] at member
        rcases List.mem_cons.mp member with rfl | inside
        · exact ⟨c :: cs, List.suffix_rfl, found⟩
        · exact later inside

/-- **No match is passed over** if none begins inside another. -/
theorem all_complete
    (apart : ∀ t m, p.first t = some m → ∀ k, 0 < k → k < m.text.length → p.first (t.drop k) = none)
    {t : List Char} {m : Match} (found : p.first t = some m) (inside : t ≠ []) {n : ℕ}
    {cs : List Char} (suffix : t <:+ cs.drop n) : m ∈ p.all n cs := by
  induction cs generalizing n with
  | nil =>
    rw [List.drop_nil, List.suffix_nil] at suffix
    exact absurd suffix inside
  | cons c cs ih =>
    cases n with
    | succ n => exact ih suffix
    | zero =>
      rw [List.drop_zero, List.suffix_cons_iff] at suffix
      cases first : p.first (c :: cs) with
      | none =>
        rw [all_of_none first]
        rcases suffix with rfl | suffix
        · rw [found] at first
          cases first
        · exact ih suffix
      | some other =>
        rw [Pattern.all, first]
        rcases suffix with rfl | suffix
        · rw [found] at first
          cases first
          exact List.mem_cons_self
        refine List.mem_cons_of_mem _ (ih ?_)
        -- a match that begins before the end of this one is one inside it
        rw [List.suffix_iff_eq_drop] at suffix
        by_cases beyond : other.text.length - 1 ≤ cs.length - t.length
        · rw [suffix]
          obtain ⟨more, split⟩ := Nat.exists_eq_add_of_le beyond
          rw [split, ← List.drop_drop]
          exact List.drop_suffix _ _
        · have none := apart _ _ first (cs.length - t.length + 1) (Nat.succ_pos _) (by omega)
          rw [List.drop_succ_cons, ← suffix, found] at none
          cases none

theorem search_iff {cs : List Char} :
    p.search cs = true ↔ ∃ t, t <:+ cs ∧ (p.first t).isSome = true := by
  rw [Pattern.search, List.any_eq_true]
  simp only [List.mem_tails]

/-! ## Matching -/

theorem mem_run_seq {q : Pattern} {cs text group rest : List Char} :
    ⟨text, group, rest⟩ ∈ (Pattern.seq p q).run cs ↔
      ∃ text₁ group₁ middle text₂ group₂, ⟨text₁, group₁, middle⟩ ∈ p.run cs ∧
        ⟨text₂, group₂, rest⟩ ∈ q.run middle ∧ text = text₁ ++ text₂ ∧ group = group₁ ++ group₂ := by
  simp only [Pattern.run, List.mem_flatMap, List.mem_map]
  constructor
  · rintro ⟨⟨text₁, group₁, middle⟩, first, ⟨text₂, group₂, _⟩, second, shape⟩
    obtain ⟨rfl, rfl, rfl⟩ := Match.mk.inj shape
    exact ⟨text₁, group₁, middle, text₂, group₂, first, second, rfl, rfl⟩
  · rintro ⟨text₁, group₁, middle, text₂, group₂, first, second, rfl, rfl⟩
    exact ⟨_, first, _, second, rfl⟩

theorem run_chars (text cs : List Char) :
    (chars text).run cs =
      if text.isPrefixOf cs then [⟨text, [], cs.drop text.length⟩] else [] := by
  induction text generalizing cs with
  | nil => rfl
  | cons c text ih =>
    cases cs with
    | nil => rfl
    | cons d cs =>
      rw [chars, Pattern.run, Pattern.run, List.isPrefixOf_cons_cons]
      by_cases same : d = c
      · subst same
        simp only [decide_true, if_true, List.flatMap_cons, List.flatMap_nil, List.append_nil, ih,
          beq_self_eq_true, Bool.true_and]
        split <;> rfl
      · have other : c ≠ d := fun h => same h.symm
        simp [same, other]

theorem mem_run_oneOf {texts : List String} {cs : List Char} {m : Match} :
    m ∈ (oneOf texts).run cs ↔
      ∃ text ∈ texts, cs = text.toList ++ m.rest ∧ m = ⟨text.toList, [], m.rest⟩ := by
  have one (text : String) : m ∈ (chars text.toList).run cs ↔
      cs = text.toList ++ m.rest ∧ m = ⟨text.toList, [], m.rest⟩ := by
    rw [run_chars]
    constructor
    · intro member
      split at member
      · next here =>
        obtain ⟨rest, rfl⟩ := List.isPrefixOf_iff_prefix.mp here
        rw [List.mem_singleton] at member
        subst member
        simp
      · cases member
    · rintro ⟨split, shape⟩
      have here : text.toList.isPrefixOf cs = true :=
        List.isPrefixOf_iff_prefix.mpr ⟨m.rest, split.symm⟩
      rw [if_pos here, List.mem_singleton, shape, split]
      simp
  induction texts with
  | nil => simp [oneOf, Pattern.run]
  | cons text texts ih =>
    cases texts with
    | nil =>
      rw [oneOf, one]
      simp
    | cons other texts =>
      refine (List.mem_append.trans (or_congr (one text) ih)).trans ?_
      simp only [List.mem_cons, exists_eq_or_imp]

theorem mem_run_optional {test : Char → Bool} {cs : List Char} {m : Match} :
    m ∈ (optional (.char test)).run cs ↔
      (m.text = [] ∨ ∃ c, m.text = [c] ∧ test c = true) ∧ cs = m.text ++ m.rest ∧ m.group = [] := by
  obtain ⟨text, group, rest⟩ := m
  cases cs with
  | nil =>
    simp only [optional, Pattern.run, List.nil_append, List.mem_singleton, Match.mk.injEq]
    constructor
    · rintro ⟨rfl, rfl, rfl⟩
      exact ⟨.inl rfl, rfl, rfl⟩
    · rintro ⟨-, split, group⟩
      obtain ⟨rfl, rfl⟩ := List.append_eq_nil_iff.mp split.symm
      exact ⟨rfl, group, rfl⟩
  | cons c cs =>
    simp only [optional, Pattern.run, List.mem_append, List.mem_singleton, Match.mk.injEq]
    constructor
    · rintro (taken | ⟨rfl, rfl, rfl⟩)
      · split at taken
        · next fits =>
          obtain ⟨rfl, rfl, rfl⟩ := Match.mk.inj (List.mem_singleton.mp taken)
          exact ⟨.inr ⟨c, rfl, fits⟩, rfl, rfl⟩
        · cases taken
      · exact ⟨.inl rfl, rfl, rfl⟩
    · rintro ⟨rfl | ⟨d, rfl, fits⟩, split, rfl⟩
      · exact .inr ⟨rfl, rfl, split.symm⟩
      · obtain ⟨rfl, rfl⟩ := List.cons.inj split
        refine .inl ?_
        rw [if_pos fits]
        exact List.mem_singleton_self _

theorem run_exactly (test : Char → Bool) (n : ℕ) (cs : List Char) :
    (exactly n (.char test)).run cs =
      if n ≤ (cs.takeWhile test).length then [⟨cs.take n, [], cs.drop n⟩] else [] := by
  induction n generalizing cs with
  | zero => rfl
  | succ n ih =>
    cases cs with
    | nil => rfl
    | cons c cs =>
      rw [exactly, Pattern.run, Pattern.run, List.takeWhile_cons]
      by_cases fits : test c = true
      · simp only [fits, if_true, List.flatMap_cons, List.flatMap_nil, List.append_nil, ih,
          List.length_cons, Nat.add_le_add_iff_right]
        split <;> rfl
      · simp [fits]

/-- So many characters that pass a test, as a group. -/
theorem mem_run_group_exactly {test : Char → Bool} {n : ℕ} {cs : List Char} {m : Match} :
    m ∈ (Pattern.group (exactly n (.char test))).run cs ↔
      m.group.length = n ∧ (∀ c ∈ m.group, test c = true) ∧ m.text = m.group ∧
        cs = m.group ++ m.rest := by
  obtain ⟨text, group, rest⟩ := m
  rw [Pattern.run, run_exactly]
  constructor
  · intro member
    split at member
    · next enough =>
      obtain ⟨a, own, shape⟩ := List.mem_map.mp member
      obtain rfl := List.mem_singleton.mp own
      obtain ⟨rfl, rfl, rfl⟩ := Match.mk.inj shape
      have inside : cs.take n <+: cs.takeWhile test :=
        List.prefix_of_prefix_length_le (List.take_prefix n cs) (List.takeWhile_prefix test)
          ((List.length_take_le n cs).trans enough)
      have longer := (List.takeWhile_prefix test (l := cs)).length_le
      refine ⟨List.length_take_of_le (enough.trans longer), ?_, rfl,
        (List.take_append_drop n cs).symm⟩
      exact fun c member => List.mem_takeWhile_imp (inside.subset member)
    · cases member
  · rintro ⟨length, all, same, rfl⟩
    dsimp only at length all same ⊢
    subst same
    have enough : n ≤ ((text ++ rest).takeWhile test).length := by
      rw [List.takeWhile_append_of_pos all, List.length_append, length]
      exact Nat.le_add_right _ _
    rw [if_pos enough, ← length]
    simp

theorem first_upTo (test : Char → Bool) (n : ℕ) (cs : List Char) :
    (upTo n (.char test)).first cs =
      some ⟨cs.take (min n (cs.takeWhile test).length), [],
        cs.drop (min n (cs.takeWhile test).length)⟩ := by
  induction n generalizing cs with
  | zero => simp [upTo, Pattern.first, Pattern.run]
  | succ n ih =>
    cases cs with
    | nil => rfl
    | cons c cs =>
      rw [Pattern.first, upTo, optional, Pattern.run, Pattern.run, Pattern.run, List.takeWhile_cons]
      by_cases fits : test c = true
      · have one : (Pattern.char test).run (c :: cs) = [⟨[c], [], cs⟩] := if_pos fits
        have later := ih cs
        rw [Pattern.first] at later
        rw [one, List.flatMap_singleton, List.head?_append, List.head?_map, later, if_pos fits,
          List.length_cons, Nat.add_min_add_right]
        rfl
      · have none : (Pattern.char test).run (c :: cs) = [] := if_neg fits
        rw [none, if_neg fits]
        rfl

theorem length_takeWhile_drop {test : Char → Bool} {n : ℕ} {cs : List Char}
    (enough : n ≤ (cs.takeWhile test).length) :
    ((cs.drop n).takeWhile test).length = (cs.takeWhile test).length - n := by
  induction n generalizing cs with
  | zero => rfl
  | succ n ih =>
    cases cs with
    | nil => cases enough
    | cons c cs =>
      rw [List.takeWhile_cons] at enough ⊢
      by_cases fits : test c = true
      · rw [if_pos fits, List.length_cons] at enough
        rw [if_pos fits, List.drop_succ_cons, ih (Nat.le_of_succ_le_succ enough), List.length_cons]
        omega
      · rw [if_neg fits] at enough
        cases enough

/-- A greedy repetition takes as much as it may. -/
theorem first_between (test : Char → Bool) {low high : ℕ} (le : low ≤ high) (cs : List Char) :
    (between low high (.char test)).first cs =
      if low ≤ (cs.takeWhile test).length then
        some ⟨cs.take (min high (cs.takeWhile test).length), [],
          cs.drop (min high (cs.takeWhile test).length)⟩
      else none := by
  rw [Pattern.first, between, Pattern.run, run_exactly]
  split
  · next enough =>
    have later := first_upTo test (high - low) (cs.drop low)
    have rest := length_takeWhile_drop enough
    have width : low + min (high - low) ((cs.takeWhile test).length - low) =
        min high (cs.takeWhile test).length := by omega
    rw [Pattern.first, rest] at later
    rw [List.flatMap_singleton, List.head?_map, later, Option.map_some, List.drop_drop, ← width]
    congr 2
    exact (List.take_add).symm
  · rfl

theorem mem_run_notAhead {test : Char → Bool} {cs : List Char} {m : Match} :
    m ∈ (Pattern.notAhead (.char test)).run cs ↔
      m = ⟨[], [], cs⟩ ∧ ∀ c ∈ cs.head?, test c = false := by
  cases cs with
  | nil => simp [Pattern.run]
  | cons c cs => by_cases fits : test c = true <;> simp [Pattern.run, fits]

/-- A group around a pattern shows what was matched. -/
theorem all_group (n : ℕ) (cs : List Char) :
    (Pattern.group p).all n cs = (p.all n cs).map fun m => ⟨m.text, m.text, m.rest⟩ := by
  induction cs generalizing n with
  | nil => cases n <;> rfl
  | cons c cs ih =>
    cases n with
    | succ n => exact ih n
    | zero =>
      have first : (Pattern.group p).first (c :: cs) =
          (p.first (c :: cs)).map fun m => ⟨m.text, m.text, m.rest⟩ := by
        rw [Pattern.first, Pattern.first, Pattern.run, List.head?_map]
      cases found : p.first (c :: cs) with
      | none =>
        rw [found] at first
        rw [all_of_none first, all_of_none found, ih]
      | some m =>
        rw [found] at first
        rw [Pattern.all, first, Pattern.all, found]
        dsimp only [Option.map_some]
        rw [ih, List.map_cons]

/-! ## Runs -/

section

variable {test : Char → Bool}

/-- Characters that pass a test, between ones that do not. -/
def MaximalRun (test : Char → Bool) (cs run : List Char) : Prop :=
  run ≠ [] ∧ (∀ c ∈ run, test c = true) ∧ ∃ before after, cs = before ++ (run ++ after) ∧
    (∀ c ∈ before.getLast?, test c = false) ∧ ∀ c ∈ after.head?, test c = false

/-- What a repetition takes of a run: `high` characters at a time, and the last
time at least `low`. -/
def Piece (low high : ℕ) (run piece : List Char) : Prop :=
  ∃ k, piece = (run.drop (high * k)).take high ∧ low ≤ piece.length

theorem takeWhile_run {run after : List Char} (all : ∀ c ∈ run, test c = true)
    (stop : ∀ c ∈ after.head?, test c = false) : (run ++ after).takeWhile test = run := by
  rw [List.takeWhile_append_of_pos all]
  cases after with
  | nil => rw [List.takeWhile_nil, List.append_nil]
  | cons c after => rw [List.takeWhile_cons, if_neg (by simp [stop c rfl]), List.append_nil]

theorem maximalRun_cons {c : Char} {cs run : List Char} (stop : test c = false) :
    MaximalRun test (c :: cs) run ↔ MaximalRun test cs run := by
  constructor
  · rintro ⟨nonempty, all, before, after, split, left, right⟩
    refine ⟨nonempty, all, ?_⟩
    cases before with
    | nil =>
      obtain ⟨d, more, rfl⟩ := List.exists_cons_of_ne_nil nonempty
      have passes := all d List.mem_cons_self
      rw [← (List.cons.inj split).1, stop] at passes
      cases passes
    | cons d before =>
      refine ⟨before, after, (List.cons.inj split).2, ?_, right⟩
      intro e last
      refine left e ?_
      rw [List.getLast?_cons, Option.mem_def.mp last]
      rfl
  · rintro ⟨nonempty, all, before, after, rfl, left, right⟩
    refine ⟨nonempty, all, c :: before, after, rfl, ?_, right⟩
    intro e last
    rw [List.getLast?_cons] at last
    cases own : before.getLast? with
    | none =>
      rw [own] at last
      cases last
      exact stop
    | some d =>
      rw [own] at last
      cases last
      exact left d own

theorem maximalRun_skip {before cs run : List Char} (stop : ∀ c ∈ before, test c = false) :
    MaximalRun test (before ++ cs) run ↔ MaximalRun test cs run := by
  induction before with
  | nil => rfl
  | cons c before ih =>
    rw [List.cons_append, maximalRun_cons (stop c List.mem_cons_self),
      ih fun d member => stop d (List.mem_cons_of_mem c member)]

theorem not_maximalRun_nil {run : List Char} : ¬ MaximalRun test [] run := by
  rintro ⟨nonempty, -, before, after, split, -, -⟩
  rw [eq_comm, List.append_eq_nil_iff, List.append_eq_nil_iff] at split
  exact nonempty split.2.1

theorem maximalRun_append {first after run : List Char} (nonempty : first ≠ [])
    (all : ∀ c ∈ first, test c = true) (stop : ∀ c ∈ after.head?, test c = false) :
    MaximalRun test (first ++ after) run ↔ run = first ∨ MaximalRun test after run := by
  constructor
  · rintro ⟨runNonempty, runAll, before, behind, split, left, right⟩
    rcases eq_or_ne before [] with rfl | inner
    · have whole := takeWhile_run runAll right
      rw [List.nil_append] at split
      rw [← split, takeWhile_run all stop] at whole
      exact .inl whole.symm
    obtain ⟨last, ends⟩ := Option.ne_none_iff_exists'.mp (mt List.getLast?_eq_none_iff.mp inner)
    have fails := left last ends
    have outside : last ∉ first := by
      intro inside
      rw [all last inside] at fails
      cases fails
    rcases List.append_eq_append_iff.mp split with ⟨middle, rfl, rest⟩ | ⟨middle, rfl, rest⟩
    · refine .inr ⟨runNonempty, runAll, middle, behind, rest, ?_, right⟩
      intro c final
      refine left c ?_
      rw [List.getLast?_append, Option.mem_def.mp final]
      rfl
    · exact absurd (List.mem_append_left _ (List.mem_of_getLast? ends)) outside
  · rintro (rfl | ⟨runNonempty, runAll, before, behind, rfl, left, right⟩)
    · exact ⟨nonempty, all, [], after, rfl, nofun, stop⟩
    · refine ⟨runNonempty, runAll, first ++ before, behind, by simp, ?_, right⟩
      intro c final
      cases before with
      | nil =>
        obtain ⟨d, more, rfl⟩ := List.exists_cons_of_ne_nil runNonempty
        have passes := runAll d List.mem_cons_self
        rw [stop d rfl] at passes
        cases passes
      | cons d before =>
        refine left c ?_
        rw [List.getLast?_append] at final
        rw [List.getLast?_cons] at final ⊢
        exact final

/-- The pieces of a run begin with as much as a repetition may take. -/
theorem piece_iff {low high : ℕ} {run piece : List Char} :
    Piece low high run piece ↔ (piece = run.take high ∧ low ≤ piece.length) ∨
      Piece low high (run.drop high) piece := by
  constructor
  · rintro ⟨k, rfl, enough⟩
    cases k with
    | zero => exact .inl ⟨rfl, enough⟩
    | succ k =>
      refine .inr ⟨k, ?_, enough⟩
      rw [List.drop_drop, Nat.mul_succ, Nat.add_comm]
  · rintro (⟨rfl, enough⟩ | ⟨k, rfl, enough⟩)
    · exact ⟨0, rfl, enough⟩
    · refine ⟨k + 1, ?_, enough⟩
      rw [List.drop_drop, Nat.mul_succ, Nat.add_comm]

/-- Of a run that is too short nothing is taken. -/
theorem no_piece {low high : ℕ} {run piece : List Char} (short : run.length < low) :
    ¬ Piece low high run piece := by
  rintro ⟨k, rfl, enough⟩
  rw [List.length_take, List.length_drop] at enough
  omega

variable {low high : ℕ} (pos : 0 < low) (le : low ≤ high)

include pos le

theorem mem_all_run {run after piece : List Char} (passes : ∀ c ∈ run, test c = true)
    (stop : ∀ c ∈ after.head?, test c = false) :
    piece ∈ ((between low high (.char test)).all 0 (run ++ after)).map Match.text ↔
      Piece low high run piece ∨
        piece ∈ ((between low high (.char test)).all 0 after).map Match.text := by
  induction length : run.length using Nat.strong_induction_on generalizing run with
  | _ n ih =>
    have lead := takeWhile_run passes stop
    have first := first_between test le (run ++ after)
    rw [lead] at first
    cases run with
    | nil =>
      have nothing : ¬ Piece low high [] piece := no_piece pos
      rw [List.nil_append, or_iff_right nothing]
    | cons c run =>
      subst length
      rw [List.cons_append] at first ⊢
      by_cases enough : low ≤ (c :: run).length
      · have front : (c :: (run ++ after)).take (min high (c :: run).length) =
            (c :: run).take high := by
          rw [← List.cons_append, List.take_append_of_le_length (Nat.min_le_right _ _),
            List.take_eq_take_iff]
          omega
        have back : (c :: (run ++ after)).drop (min high (c :: run).length) =
            (c :: run).drop high ++ after := by
          rw [← List.cons_append, List.drop_append_of_le_length (Nat.min_le_right _ _)]
          congr 1
          rcases Nat.le_total high (c :: run).length with long | short
          · rw [Nat.min_eq_left long]
          · rw [Nat.min_eq_right short, List.drop_length, List.drop_eq_nil_of_le short]
        rw [if_pos enough, front, back] at first
        have width : ((c :: run).take high).length = min high (c :: run).length := List.length_take
        have nonempty : (c :: run).take high ≠ [] := by
          rw [← List.length_pos_iff, width]
          omega
        have shorter : ((c :: run).drop high).length < (c :: run).length := by
          rw [List.length_drop]
          omega
        have long : low ≤ ((c :: run).take high).length := by omega
        rw [all_of_first first nonempty, List.map_cons, List.mem_cons, width, back,
          ih _ shorter (fun d member => passes d (List.mem_of_mem_drop member)) rfl, ← or_assoc,
          @piece_iff low high (c :: run)]
        refine or_congr (or_congr ?_ Iff.rfl) Iff.rfl
        constructor
        · rintro rfl
          exact ⟨rfl, long⟩
        · exact And.left
      · rw [if_neg enough] at first
        have nothing : ¬ Piece low high (c :: run) piece := no_piece (not_le.mp enough)
        have later : ¬ Piece low high run piece := by
          refine no_piece ?_
          rw [List.length_cons] at enough
          omega
        rw [all_of_none first, ih run.length (by simp)
          (fun d member => passes d (List.mem_cons_of_mem c member)) rfl, or_iff_right nothing,
          or_iff_right later]

/-- **A greedy repetition cuts runs into pieces.** -/
theorem mem_all_between {cs piece : List Char} :
    piece ∈ ((between low high (.char test)).all 0 cs).map Match.text ↔
      ∃ run, MaximalRun test cs run ∧ Piece low high run piece := by
  induction length : cs.length using Nat.strong_induction_on generalizing cs with
  | _ n ih =>
    subst length
    cases cs with
    | nil => simp [Pattern.all, not_maximalRun_nil]
    | cons c cs =>
      by_cases passes : test c = true
      · have all : ∀ d ∈ (c :: cs).takeWhile test, test d = true := fun d member =>
          List.mem_takeWhile_imp member
        have stop : ∀ d ∈ ((c :: cs).dropWhile test).head?, test d = false := by
          intro d head
          have fails := List.head?_dropWhile_not test (c :: cs)
          rw [Option.mem_def.mp head] at fails
          exact fails
        have nonempty : (c :: cs).takeWhile test ≠ [] := by
          rw [List.takeWhile_cons, if_pos passes]
          exact List.cons_ne_nil c _
        have shorter : ((c :: cs).dropWhile test).length < (c :: cs).length := by
          rw [List.dropWhile_cons, if_pos passes, List.length_cons]
          exact Nat.lt_succ_of_le (List.length_dropWhile_le test cs)
        have rest := ih _ shorter rfl
        rw [← List.takeWhile_append_dropWhile (p := test) (l := c :: cs),
          mem_all_run pos le all stop, rest]
        simp only [maximalRun_append nonempty all stop, or_and_right, exists_or, exists_eq_left]
      · have stop : test c = false := Bool.eq_false_iff.mpr passes
        have first := first_between test le (c :: cs)
        rw [List.takeWhile_cons, if_neg passes, List.length_nil, if_neg (by omega)] at first
        rw [all_of_none first, ih cs.length (by simp) rfl]
        simp only [maximalRun_cons stop]

end

end EcfDgii.Patterns
