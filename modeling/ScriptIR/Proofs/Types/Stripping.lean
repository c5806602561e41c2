import Mathlib.Data.List.Infix
import ScriptIR.Proofs.Types.Brackets

/-!
# What stripping removes

Outer brackets are taken off round by round. A round goes on exactly if the text stands between two
brackets and no part of it from its start on closes more brackets than it opens; the rounds end with
every text, whatever brackets and blanks it is made of.
-/
namespace ScriptIR.TypeLiteral

/-- Stripping as it proceeds: as long as brackets enclose the text, they are taken off with the
blanks inside them. The number counts the rounds. -/
inductive Strips : (rounds : Nat) → List Char → List Char → Prop
  | done {cs : List Char} : isEnclosed cs = false → Strips 0 cs cs
  | round {rounds : Nat} {cs rest : List Char} : isEnclosed cs = true →
      Strips rounds (Text.trimChars cs.tail.dropLast) rest → Strips (rounds + 1) cs rest

/-! ### Rounds -/

/-- A round takes two brackets away, so that there are no more rounds than half
of the characters. -/
theorem strips_stripBrackets (cs : List Char) :
    ∃ rounds, Strips rounds cs (stripBrackets cs) ∧
      2 * rounds + (stripBrackets cs).length ≤ cs.length := by
  induction length : cs.length using Nat.strong_induction_on generalizing cs with | _ n ih
  subst length
  cases enclosed : isEnclosed cs with
  | false =>
    rw [stripBrackets_of_not enclosed]
    exact ⟨0, .done enclosed, by omega⟩
  | true =>
    obtain ⟨inside, rfl⟩ := eq_of_isEnclosed enclosed
    have length : ('[' :: (inside ++ [']'])).length = inside.length + 2 := by simp
    have shorter := Text.length_trimChars_le inside
    obtain ⟨rounds, strips, few⟩ := ih (Text.trimChars inside).length (by omega) _ rfl
    rw [stripBrackets_of_isEnclosed enclosed]
    exact ⟨rounds + 1, .round enclosed ((tail_dropLast_brackets inside).symm ▸ strips), by omega⟩

namespace Strips
variable {rounds others : Nat} {cs rest left : List Char}

theorem not_isEnclosed (h : Strips rounds cs rest) : isEnclosed rest = false := by
  induction h with
  | done ended => exact ended
  | round _ _ ih => exact ih

theorem unique (h : Strips rounds cs rest) (k : Strips others cs left) :
    others = rounds ∧ left = rest := by
  induction h generalizing others with
  | done ended =>
    cases k with
    | done _ => exact ⟨rfl, rfl⟩
    | round enclosed _ => exact absurd (ended.symm.trans enclosed) Bool.false_ne_true
  | round enclosed _ ih =>
    cases k with
    | done ended => exact absurd (ended.symm.trans enclosed) Bool.false_ne_true
    | round _ more =>
      obtain ⟨rfl, rfl⟩ := ih more
      exact ⟨rfl, rfl⟩

end Strips

theorem isEnclosed_stripBrackets (cs : List Char) : isEnclosed (stripBrackets cs) = false := by
  obtain ⟨_, strips, _⟩ := strips_stripBrackets cs
  exact strips.not_isEnclosed

theorem stripBrackets_idem (cs : List Char) : stripBrackets (stripBrackets cs) = stripBrackets cs :=
  stripBrackets_of_not (isEnclosed_stripBrackets cs)

/-! ### Brackets that belong together -/

/-- No part of the text from its start on closes more brackets than it opens, if `depth` of them
are open before it. -/
def ClosesAtMost (depth : Nat) (cs : List Char) : Prop :=
  ∀ part, part <+: cs → part.count ']' ≤ depth + part.count '['

theorem closesAtMost_cons {depth : Nat} {c : Char} {cs : List Char} :
    ClosesAtMost depth (c :: cs) ↔
      ∀ part, part <+: cs → (c :: part).count ']' ≤ depth + (c :: part).count '[' := by
  unfold ClosesAtMost
  simp only [List.prefix_cons_iff]
  constructor
  · exact fun h part hpart => h (c :: part) (.inr ⟨part, rfl, hpart⟩)
  · rintro h _ (rfl | ⟨part, rfl, hpart⟩)
    · simp
    · exact h part hpart

/-- There is a level behind a text exactly if no bracket is closed too early in it. -/
theorem isSome_level_iff {depth : Nat} {cs : List Char} :
    (level depth cs).isSome ↔ ClosesAtMost depth cs := by
  induction cs generalizing depth with
  | nil => simp [level, ClosesAtMost]
  | cons c cs ih =>
    -- The first bracket counts in every longer part just as it moves the depth behind it.
    rw [closesAtMost_cons]
    by_cases opening : c = '['
    · rw [opening, level_opening, ih]
      refine forall₂_congr fun part _ => ?_
      simp
      omega
    · by_cases closing : c = ']'
      · rw [closing]
        cases depth with
        | zero =>
          refine ⟨fun absurd => (by cases absurd), fun h => ?_⟩
          have alone := h [] List.nil_prefix
          simp at alone
        | succ depth =>
          rw [level_closing, ih]
          refine forall₂_congr fun part _ => ?_
          simp
          omega
      · rw [level_other opening closing, ih]
        refine forall₂_congr fun part _ => ?_
        simp [opening, closing]

theorem isEnclosed_brackets_iff {inside : List Char} :
    isEnclosed ('[' :: (inside ++ [']'])) = true ↔ ClosesAtMost 0 inside := by
  rw [isEnclosed_eq_isSome_level]
  exact isSome_level_iff

/-- Stripping ends with every text, after no more rounds than half of its characters. Two
brackets around a text are taken off, and the text is trimmed and stripped in turn, if no part
of it from its start on has more closing brackets than opening ones; otherwise they stay, with
all that is between them. So do texts that do not stand between two brackets at all; and what is
left is not stripped any further. -/
theorem stripBrackets_exact (t : List Char) :
    (∃ rounds, Strips rounds t (stripBrackets t) ∧
      2 * rounds + (stripBrackets t).length ≤ t.length) ∧
    (∀ rounds rest, Strips rounds t rest → rest = stripBrackets t) ∧
    (stripBrackets ('[' :: (t ++ [']'])) =
      if ∀ part ∈ t.inits, part.count ']' ≤ part.count '[' then stripBrackets (Text.trimChars t)
      else '[' :: (t ++ [']'])) ∧
    (¬(t.head? = some '[' ∧ t.getLast? = some ']') → stripBrackets t = t) ∧
    stripBrackets (stripBrackets t) = stripBrackets t := by
  have enclosed : isEnclosed ('[' :: (t ++ [']'])) = true ↔
      ∀ part ∈ t.inits, part.count ']' ≤ part.count '[' := by
    rw [isEnclosed_brackets_iff]
    simp only [ClosesAtMost, List.mem_inits, Nat.zero_add]
  obtain ⟨rounds, strips, few⟩ := strips_stripBrackets t
  refine ⟨⟨rounds, strips, few⟩, fun _ _ h => (strips.unique h).2, ?_, fun apart => ?_,
    stripBrackets_idem t⟩
  · split
    next together => exact stripBrackets_of_isEnclosed (enclosed.mpr together)
    next early => exact stripBrackets_of_not (Bool.eq_false_iff.mpr fun h => early (enclosed.mp h))
  · refine stripBrackets_of_not (Bool.eq_false_iff.mpr fun h => ?_)
    obtain ⟨inside, rfl⟩ := eq_of_isEnclosed h
    exact apart ⟨rfl, by rw [← List.cons_append, List.getLast?_concat]⟩

/-- Brackets that belong to different neighbours, brackets with blanks between them, and one that is
never closed and so counts as closed by the last one. -/
theorem stripBrackets_exact_neighbours :
    let neighbours := "[a][b]".toList
    ¬(neighbours.tail.head? = some '[' ∧ neighbours.tail.getLast? = some ']') ∧
      stripBrackets neighbours.tail = neighbours.tail ∧ stripBrackets neighbours = neighbours ∧
      stripBrackets "[ [a[]] ]".toList = "a[]".toList ∧
        stripBrackets "[[a]".toList = "[a".toList := by
  intro neighbours
  have apart : ¬(neighbours.tail.head? = some '[' ∧ neighbours.tail.getLast? = some ']') := by
    decide
  obtain ⟨-, -, kept, -⟩ := stripBrackets_exact "a][b".toList
  obtain ⟨-, -, -, plain, -⟩ := stripBrackets_exact neighbours.tail
  obtain ⟨-, -, layers, -⟩ := stripBrackets_exact " [a[]] ".toList
  obtain ⟨-, -, unclosed, -⟩ := stripBrackets_exact "[a".toList
  exact ⟨apart, plain apart, kept.trans (if_neg (by decide)), layers.trans (by decide),
    unclosed.trans (by decide)⟩

end ScriptIR.TypeLiteral
