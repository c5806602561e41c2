import Mathlib.Data.List.Basic
import Mathlib.Data.List.TakeWhile
import ScriptIR.Text.Blank
import ScriptIR.Text.CaseFold

/-!
# Separators

A colon and the blanks are what a name ends at. Trimming takes blanks off the two ends of a text and
stops at the first character that is none. Folding case keeps separators and makes none, so two
texts that agree regardless of case agree in where their separators are.
-/
namespace ScriptIR.Text

def isSeparator (c : Char) : Bool :=
  c == ':' || isBlank c

/-- Where the codes of separators are, each range with its first and its last code. -/
def separatorRanges : List (Nat × Nat) :=
  [(0x09, 0x0D), (0x1C, 0x20), (0x3A, 0x3A), (0x85, 0x85), (0xA0, 0xA0), (0x1680, 0x1680),
    (0x2000, 0x200A), (0x2028, 0x2029), (0x202F, 0x202F), (0x205F, 0x205F), (0x3000, 0x3000)]

theorem range_of_isSeparator {c : Char} (h : isSeparator c = true) :
    ∃ range ∈ separatorRanges, range.1 ≤ c.toNat ∧ c.toNat ≤ range.2 := by
  by_cases colon : c = ':'
  · exact ⟨(0x3A, 0x3A), by decide, by rw [colon]; decide⟩
  · simp only [isSeparator, colon, isBlank, Bool.or_eq_true, Bool.and_eq_true, beq_iff_eq,
      decide_eq_true_eq, false_or] at h
    simp [separatorRanges]
    omega

/-- A number that is no code stands for the null character, which is no separator. -/
theorem range_of_isSeparator_ofNat {n : Nat} (h : isSeparator (Char.ofNat n) = true) :
    ∃ range ∈ separatorRanges, range.1 ≤ n ∧ n ≤ range.2 := by
  by_cases valid : n.isValidChar
  · have code : (Char.ofNat n).toNat = n := by
      rw [Char.ofNat, dif_pos valid]
      rfl
    rw [← code]
    exact range_of_isSeparator h
  · rw [Char.ofNat, dif_neg valid] at h
    exact absurd h (by decide)

/-! ### Trimming -/

/-- Trimming stops at the first and at the last character that is no blank. -/
theorem trimChars_between {first last : Char} (xs rest : List Char)
    (hfirst : isBlank first = false) (hlast : isBlank last = false) :
    trimChars (first :: (xs ++ last :: rest)) =
      first :: (xs ++ last :: (rest.reverse.dropWhile isBlank).reverse) := by
  unfold trimChars
  rw [List.dropWhile_cons_of_neg (by simp [hfirst])]
  have reversed : (first :: (xs ++ last :: rest)).reverse =
      rest.reverse ++ last :: (xs.reverse ++ [first]) := by simp
  rw [reversed, List.dropWhile_append]
  split
  next none =>
    rw [List.isEmpty_iff] at none
    simp [none, hlast]
  next => simp

/-- Trimming takes blanks off at both ends and nothing else. -/
theorem trimChars_split (cs : List Char) :
    ∃ before after, (∀ c ∈ before, isBlank c = true) ∧ (∀ c ∈ after, isBlank c = true) ∧
      cs = before ++ trimChars cs ++ after := by
  refine ⟨cs.takeWhile isBlank, ((cs.dropWhile isBlank).reverse.takeWhile isBlank).reverse,
    fun c hc => List.mem_takeWhile_imp hc,
    fun c hc => List.mem_takeWhile_imp (List.mem_reverse.mp hc), ?_⟩
  rw [trimChars, List.append_assoc, ← List.reverse_append, List.takeWhile_append_dropWhile,
    List.reverse_reverse, List.takeWhile_append_dropWhile]

/-- Blanks at the ends make no difference. -/
theorem trimChars_blanks {before after : List Char} (hbefore : ∀ c ∈ before, isBlank c = true)
    (hafter : ∀ c ∈ after, isBlank c = true) (cs : List Char) :
    trimChars (before ++ cs ++ after) = trimChars cs := by
  unfold trimChars
  rw [List.append_assoc, List.dropWhile_append_of_pos hbefore, List.dropWhile_append]
  split
  next nothing =>
    rw [List.isEmpty_iff.mp nothing, List.dropWhile_eq_nil_iff.mpr hafter]
  next =>
    rw [List.reverse_append, List.dropWhile_append_of_pos]
    simpa using hafter

theorem length_trimChars_le (cs : List Char) : (trimChars cs).length ≤ cs.length := by
  obtain ⟨before, after, -, -, split⟩ := trimChars_split cs
  have lengths := congrArg List.length split
  rw [List.length_append, List.length_append] at lengths
  omega

/-- What is left by trimming does not end with a blank. -/
theorem isBlank_of_getLast?_trimChars {cs : List Char} {c : Char}
    (h : (trimChars cs).getLast? = some c) : isBlank c = false := by
  rw [trimChars, List.getLast?_reverse] at h
  have first := List.head?_dropWhile_not isBlank (cs.dropWhile isBlank).reverse
  rw [h] at first
  simpa using first

/-! ### Folding -/

theorem foldChars_append (xs ys : List Char) :
    foldChars (xs ++ ys) = foldChars xs ++ foldChars ys :=
  List.flatMap_append

theorem caseFold_append (s t : String) : caseFold (s ++ t) = caseFold s ++ caseFold t := by
  simp [caseFold, foldChars_append]

/-- No run leads from a separator or to one. -/
theorem foldRuns_apart : ∀ r ∈ foldRuns, ∀ range ∈ separatorRanges,
    (r.last < range.1 ∨ range.2 < r.first) ∧
      (r.image + (r.last - r.first) < range.1 ∨ range.2 < r.image) := by
  decide +kernel

theorem foldExpansions_separators : ∀ e ∈ foldExpansions, e.2 ≠ [] ∧
    isSeparator (Char.ofNat e.1) = false ∧ ∀ n ∈ e.2, isSeparator (Char.ofNat n) = false := by
  decide +kernel

theorem toLower_separators : ∀ n < 0x80,
    (isSeparator (Char.ofNat n) || isSeparator (Char.ofNat n).toLower) = true →
      (Char.ofNat n).toLower = Char.ofNat n := by
  decide +kernel

/-- A character folds to a lower-case letter, to a letter of a run or to those of an expansion, none
of which has to do with separators, or else to itself. -/
theorem foldChar_separators (c : Char) :
    foldChar c = [c] ∨ isSeparator c = false ∧ foldChar c ≠ [] ∧
      ∀ x ∈ foldChar c, isSeparator x = false := by
  unfold foldChar
  split
  next ascii =>
    have lower := toLower_separators c.toNat ascii
    rw [Char.ofNat_toNat] at lower
    by_cases separates : (isSeparator c || isSeparator c.toLower) = true
    · rw [lower separates]
      exact .inl rfl
    · simp only [Bool.or_eq_true, not_or, Bool.not_eq_true] at separates
      exact .inr ⟨separates.1, by simp, by simpa using separates.2⟩
  next =>
    cases hrun : foldRuns.find? (·.contains c.toNat) with
    | some r =>
      have contains := List.find?_some hrun
      simp only [FoldRun.contains, Bool.and_eq_true, decide_eq_true_eq] at contains
      have apart := foldRuns_apart r (List.mem_of_find?_eq_some hrun)
      have domain : isSeparator c = false := by
        by_contra separates
        obtain ⟨range, listed, low, high⟩ := range_of_isSeparator (by simpa using separates)
        have := (apart range listed).1
        omega
      have image : isSeparator (Char.ofNat (r.image + (c.toNat - r.first))) = false := by
        by_contra separates
        obtain ⟨range, listed, low, high⟩ := range_of_isSeparator_ofNat (by simpa using separates)
        have := (apart range listed).2
        omega
      exact .inr ⟨domain, by simp, by simpa using image⟩
    | none =>
      dsimp only
      cases hexpansion : foldExpansions.lookup c.toNat with
      | some image =>
        have listed : (c.toNat, image) ∈ foldExpansions := by
          obtain ⟨before, after, split, -⟩ := List.lookup_eq_some_iff.mp hexpansion
          simp [split]
        obtain ⟨nonempty, domain, images⟩ := foldExpansions_separators _ listed
        rw [Char.ofNat_toNat] at domain
        refine .inr ⟨domain, by simpa using nonempty, fun x hx => ?_⟩
        obtain ⟨n, hn, rfl⟩ := List.mem_map.mp hx
        exact images n hn
      | none => exact .inl rfl

/-- A separator folds to itself. -/
theorem foldChar_of_isSeparator {c : Char} (h : isSeparator c = true) : foldChar c = [c] := by
  rcases foldChar_separators c with same | ⟨none, -, -⟩
  · exact same
  · simp [h] at none

/-- Nothing else folds to a separator. -/
theorem eq_of_mem_foldChar {c x : Char} (hx : x ∈ foldChar c) (h : isSeparator x = true) :
    c = x := by
  rcases foldChar_separators c with same | ⟨-, -, none⟩
  · rw [same] at hx
    exact (List.mem_singleton.mp hx).symm
  · simp [none x hx] at h

theorem foldChar_ne_nil (c : Char) : foldChar c ≠ [] := by
  rcases foldChar_separators c with same | ⟨-, nonempty, -⟩
  · simp [same]
  · exact nonempty

theorem getLast?_foldChars (cs : List Char) {c : Char} (h : isSeparator c = true) :
    (foldChars cs).getLast? = some c ↔ cs.getLast? = some c := by
  rcases List.eq_nil_or_concat cs with rfl | ⟨xs, x, rfl⟩
  · simp [foldChars]
  · have single : foldChars [x] = foldChar x := by simp [foldChars]
    rw [List.concat_eq_append, foldChars_append, single,
      List.getLast?_append_of_ne_nil _ (foldChar_ne_nil x)]
    constructor
    · intro last
      have same := eq_of_mem_foldChar (List.mem_of_getLast? last) h
      simp [same]
    · intro last
      have same : x = c := by simpa using last
      rw [same, foldChar_of_isSeparator h]
      rfl

/-! ### Texts that agree regardless of case -/

section
variable {s t : String} (h : caseFold s = caseFold t) {c : Char} (separates : isSeparator c = true)
include h separates

theorem mem_of_caseFold_eq (hc : c ∈ s.toList) : c ∈ t.toList := by
  have folded : c ∈ foldChars t.toList := by
    rw [← String.ofList_injective h]
    exact List.mem_flatMap.mpr ⟨c, hc, by simp [foldChar_of_isSeparator separates]⟩
  obtain ⟨d, hd, hfold⟩ := List.mem_flatMap.mp folded
  exact eq_of_mem_foldChar hfold separates ▸ hd

theorem getLast?_of_caseFold_eq (hc : s.toList.getLast? = some c) :
    t.toList.getLast? = some c := by
  rw [← getLast?_foldChars _ separates] at hc ⊢
  rw [← hc, String.ofList_injective h]

end

end ScriptIR.Text
