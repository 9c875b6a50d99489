import Mathlib.Data.List.TakeWhile
import Mathlib.Data.Option.Basic

/-!
Lists without the blanks at their ends, for any notion of a blank.

A list is what is left of it with blanks before and after (`stripped_between`),
and what is left is `Clean`: it neither begins nor ends with a blank.  That is
all that characterises it (`stripped_surrounded`), so that stripping again
changes nothing, and stripping after a function that keeps the blanks apart
(`Clean.map`) neither.
-/

set_option autoImplicit false

namespace EcfDgii.Trimming

variable {α : Type*} (blank : α → Bool)

/-- What is left when the blanks in front and then those at the end are erased. -/
def stripped (cs : List α) : List α := ((cs.dropWhile blank).reverse.dropWhile blank).reverse

/-- No blank at either end. -/
structure Clean (cs : List α) : Prop where
  first : ∀ c ∈ cs.head?, blank c = false
  last : ∀ c ∈ cs.getLast?, blank c = false

/-- Nothing but blanks. -/
def Blanks (cs : List α) : Prop := ∀ c ∈ cs, blank c = true

variable {blank}

theorem Blanks.dropWhile_append {before : List α} (blanks : Blanks blank before) (cs : List α) :
    (before ++ cs).dropWhile blank = cs.dropWhile blank := by
  rw [List.dropWhile_append, List.dropWhile_eq_nil_iff.mpr blanks]
  rfl

theorem Blanks.reverse {cs : List α} (blanks : Blanks blank cs) : Blanks blank cs.reverse :=
  fun c member => blanks c (List.mem_reverse.mp member)

theorem dropWhile_of_first {cs : List α} (first : ∀ c ∈ cs.head?, blank c = false) :
    cs.dropWhile blank = cs := by
  cases cs with
  | nil => rfl
  | cons c cs =>
    have own : ¬ blank c = true := by simp [first c rfl]
    exact List.dropWhile_cons_of_neg own

theorem first_dropWhile (cs : List α) : ∀ c ∈ (cs.dropWhile blank).head?, blank c = false := by
  intro c first
  cases rest : cs.dropWhile blank with
  | nil => simp [rest] at first
  | cons d ds =>
    have stops := List.head_dropWhile_not blank (by simp [rest] : cs.dropWhile blank ≠ [])
    simp only [rest, List.head?_cons, Option.mem_some_iff] at first
    simpa [rest, first] using stops

/-- **What is left.** Blanks around a clean list are all that is erased. -/
theorem stripped_surrounded {before cs after : List α} (blanks : Blanks blank before)
    (clean : Clean blank cs) (blanks' : Blanks blank after) :
    stripped blank (before ++ (cs ++ after)) = cs := by
  rw [stripped, blanks.dropWhile_append]
  cases cs with
  | nil =>
    have all : after.dropWhile blank = [] := List.dropWhile_eq_nil_iff.mpr blanks'
    rw [List.nil_append, all]
    rfl
  | cons c cs =>
    have front : ((c :: cs) ++ after).dropWhile blank = (c :: cs) ++ after :=
      dropWhile_of_first fun d first => clean.first d first
    have back : ∀ d ∈ (c :: cs).reverse.head?, blank d = false := by
      rw [List.head?_reverse]
      exact clean.last
    rw [front, List.reverse_append, blanks'.reverse.dropWhile_append, dropWhile_of_first back,
      List.reverse_reverse]

theorem stripped_of_clean {cs : List α} (clean : Clean blank cs) : stripped blank cs = cs := by
  have none : Blanks blank [] := nofun
  have whole := stripped_surrounded none clean none
  rwa [List.nil_append, List.append_nil] at whole

/-- What is left neither begins nor ends with a blank. -/
theorem stripped_clean (cs : List α) : Clean blank (stripped blank cs) := by
  obtain ⟨ds, front⟩ : ∃ ds, ds = cs.dropWhile blank := ⟨_, rfl⟩
  have last : ∀ c ∈ (stripped blank cs).getLast?, blank c = false := by
    rw [stripped, List.getLast?_reverse]
    exact first_dropWhile _
  refine ⟨fun c first => ?_, last⟩
  have split : stripped blank cs ++ (ds.reverse.takeWhile blank).reverse = ds := by
    rw [stripped, ← front, ← List.reverse_append, List.takeWhile_append_dropWhile,
      List.reverse_reverse]
  have own : c ∈ ds.head? := by
    rw [← split, List.head?_append]
    rw [Option.mem_def] at first
    simp [first]
  exact first_dropWhile cs c (front ▸ own)

/-- A list is what is left of it, between blanks. -/
theorem stripped_between (blank : α → Bool) (cs : List α) :
    ∃ before after, Blanks blank before ∧ Blanks blank after ∧
      cs = before ++ (stripped blank cs ++ after) := by
  obtain ⟨ds, front⟩ : ∃ ds, ds = cs.dropWhile blank := ⟨_, rfl⟩
  refine ⟨cs.takeWhile blank, (ds.reverse.takeWhile blank).reverse,
    fun c => List.mem_takeWhile_imp, fun c member => ?_, ?_⟩
  · exact List.mem_takeWhile_imp (List.mem_reverse.mp member)
  · rw [stripped, ← front, ← List.reverse_append, List.takeWhile_append_dropWhile,
      List.reverse_reverse, front, List.takeWhile_append_dropWhile]

/-- Nothing is left of blanks, and of nothing else. -/
theorem stripped_eq_nil {cs : List α} : stripped blank cs = [] ↔ Blanks blank cs := by
  constructor
  · intro empty
    obtain ⟨before, after, blanks, blanks', whole⟩ := stripped_between blank cs
    rw [empty] at whole
    intro c member
    rw [whole, List.mem_append, List.nil_append] at member
    exact member.elim (blanks c) (blanks' c)
  · intro blanks
    have clean : Clean blank [] := ⟨nofun, nofun⟩
    have none : Blanks blank [] := nofun
    have whole := stripped_surrounded blanks clean none
    rwa [List.nil_append, List.append_nil] at whole

/-- A function that makes no blanks and loses none keeps a list clean. -/
theorem Clean.map {cs : List α} (clean : Clean blank cs) {f : α → α}
    (same : ∀ c, blank (f c) = blank c) : Clean blank (cs.map f) := by
  refine ⟨fun c first => ?_, fun c last => ?_⟩
  · rw [List.head?_map] at first
    obtain ⟨d, own, rfl⟩ := Option.mem_map.mp first
    rw [same]
    exact clean.first d own
  · rw [List.getLast?_map] at last
    obtain ⟨d, own, rfl⟩ := Option.mem_map.mp last
    rw [same]
    exact clean.last d own

/-- A list without any blank is clean. -/
theorem clean_of_notBlank {cs : List α} (clear : ∀ c ∈ cs, blank c = false) : Clean blank cs :=
  ⟨fun c first => clear c (List.mem_of_mem_head? first),
    fun c last => clear c (List.mem_of_getLast? last)⟩

end EcfDgii.Trimming
