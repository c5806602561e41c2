import ScriptIR.Proofs.Text.Separators
import ScriptIR.Types.Literal

/-!
# Outer brackets

Stripping goes on for as long as the first and the last character are brackets that belong
together. Where every bracket inside belongs to another one inside, they do, and what is
stripped is what stands between them.
-/
namespace ScriptIR.TypeLiteral

/-! ### Levels -/

/-- How many brackets are open behind a text, if `depth` of them are open before it. There is no
answer if the text closes one of those. -/
def level : (depth : Nat) → List Char → Option Nat
  | depth, [] => some depth
  | depth, c :: cs =>
    if c = '[' then level (depth + 1) cs
    else if c = ']' then
      match depth with
      | 0 => none
      | depth + 1 => level depth cs
    else level depth cs

theorem level_opening (depth : Nat) (cs : List Char) :
    level depth ('[' :: cs) = level (depth + 1) cs := rfl

theorem level_closing (depth : Nat) (cs : List Char) :
    level (depth + 1) (']' :: cs) = level depth cs := rfl

theorem level_other {c : Char} (opening : c ≠ '[') (closing : c ≠ ']') (depth : Nat)
    (cs : List Char) : level depth (c :: cs) = level depth cs := by
  simp [level, opening, closing]

theorem level_append_of_plain {cs : List Char} (h : ∀ c ∈ cs, c ≠ '[' ∧ c ≠ ']') (depth : Nat)
    (rest : List Char) : level depth (cs ++ rest) = level depth rest := by
  induction cs with
  | nil => rfl
  | cons c cs ih =>
    rw [List.forall_mem_cons] at h
    rw [List.cons_append, level_other h.1.1 h.1.2, ih h.2]

/-- Behind one more open bracket a text and a closing one are balanced early exactly if the text
closes a bracket that it has not opened. -/
theorem closesEarly_eq_isNone_level (depth : Nat) (cs : List Char) :
    closesEarly (depth + 1) (cs ++ [']']) = (level depth cs).isNone := by
  induction cs generalizing depth with
  | nil => rfl
  | cons c cs ih =>
    -- The text goes on at least with the closing bracket, so that `c` is not its last character.
    have step : closesEarly (depth + 1) (c :: cs ++ [']']) =
        if c = '[' then closesEarly (depth + 2) (cs ++ [']'])
        else if c = ']' then depth + 1 == 1 || closesEarly depth (cs ++ [']'])
        else closesEarly (depth + 1) (cs ++ [']']) := by
      cases cs <;> rfl
    rw [step]
    by_cases opening : c = '['
    · rw [if_pos opening, opening, level_opening]
      exact ih (depth + 1)
    · rw [if_neg opening]
      by_cases closing : c = ']'
      · rw [if_pos closing, closing]
        cases depth with
        | zero => rfl
        | succ depth =>
          rw [level_closing, ih depth]
          rfl
      · rw [if_neg closing, level_other opening closing]
        exact ih depth

/-! ### Stripping -/

theorem eq_of_isEnclosed {cs : List Char} (h : isEnclosed cs = true) :
    ∃ inside, cs = '[' :: (inside ++ [']']) := by
  simp only [isEnclosed, Bool.and_eq_true, beq_iff_eq] at h
  obtain ⟨⟨first, last⟩, -⟩ := h
  obtain ⟨rest, rfl⟩ := List.head?_eq_some_iff.mp first
  rcases List.eq_nil_or_concat' rest with rfl | ⟨inside, d, rfl⟩
  · cases last
  · rw [← List.cons_append, List.getLast?_concat] at last
    exact ⟨inside, by rw [Option.some.inj last]⟩

/-- Two brackets enclose what stands between them exactly if that closes no brackets but its own. -/
theorem isEnclosed_eq_isSome_level (inside : List Char) :
    isEnclosed ('[' :: (inside ++ [']'])) = (level 0 inside).isSome := by
  have step : closesEarly 0 ('[' :: (inside ++ [']'])) = closesEarly 1 (inside ++ [']']) := by
    cases inside <;> rfl
  rw [isEnclosed, step, closesEarly_eq_isNone_level, ← List.cons_append, List.getLast?_concat,
    Option.not_isNone]
  rfl

theorem isEnclosed_of_level {outside : Nat} {inside : List Char}
    (h : level 0 inside = some outside) : isEnclosed ('[' :: (inside ++ [']'])) = true := by
  rw [isEnclosed_eq_isSome_level, h]
  rfl

theorem tail_dropLast_brackets (inside : List Char) :
    ('[' :: (inside ++ [']'])).tail.dropLast = inside := by
  rw [List.tail_cons, List.dropLast_concat]

theorem stripWith_of_le {cs : List Char} {fuel other : Nat} (h : cs.length ≤ fuel)
    (k : cs.length ≤ other) : stripWith fuel cs = stripWith other cs := by
  induction fuel generalizing cs other with
  | zero =>
    obtain rfl := List.eq_nil_of_length_eq_zero (Nat.le_zero.mp h)
    cases other <;> rfl
  | succ fuel ih =>
    cases other with
    | zero =>
      obtain rfl := List.eq_nil_of_length_eq_zero (Nat.le_zero.mp k)
      rfl
    | succ other =>
      rw [stripWith, stripWith]
      split
      next enclosed =>
        obtain ⟨inside, rfl⟩ := eq_of_isEnclosed enclosed
        have shorter := Text.length_trimChars_le inside
        rw [tail_dropLast_brackets]
        simp only [List.length_cons, List.length_append, List.length_nil] at h k
        exact ih (by omega) (by omega)
      next => rfl

theorem stripBrackets_of_not {cs : List Char} (h : isEnclosed cs = false) :
    stripBrackets cs = cs := by
  unfold stripBrackets
  cases cs.length with
  | zero => rfl
  | succ fuel => rw [stripWith, h, if_neg Bool.false_ne_true]

/-- Brackets that enclose a text are removed with the blanks inside them. -/
theorem stripBrackets_of_isEnclosed {inside : List Char}
    (h : isEnclosed ('[' :: (inside ++ [']'])) = true) :
    stripBrackets ('[' :: (inside ++ [']'])) = stripBrackets (Text.trimChars inside) := by
  have shorter := Text.length_trimChars_le inside
  rw [stripBrackets, List.length_cons, stripWith, if_pos h, tail_dropLast_brackets]
  refine stripWith_of_le ?_ le_rfl
  rw [List.length_append]
  omega

/-- What blanks and enclosing brackets do not change holds of a text if it holds of what stripping
leaves of it. -/
theorem of_stripBrackets {P : List Char → Prop} (bracketed : ∀ cs, P cs → P ('[' :: (cs ++ [']'])))
    (trimmed : ∀ cs, P (Text.trimChars cs) → P cs) {cs : List Char} (h : P (stripBrackets cs)) :
    P cs := by
  unfold stripBrackets at h
  generalize cs.length = fuel at h
  induction fuel generalizing cs with
  | zero => exact h
  | succ fuel ih =>
    rw [stripWith] at h
    split at h
    next enclosed =>
      obtain ⟨inside, rfl⟩ := eq_of_isEnclosed enclosed
      rw [tail_dropLast_brackets] at h
      exact bracketed inside (trimmed inside (ih h))
    next => exact h

end ScriptIR.TypeLiteral
