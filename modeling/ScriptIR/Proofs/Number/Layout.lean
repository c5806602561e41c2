import ScriptIR.Proofs.Number.Shortest

/-!
# What numbers are shown as

`Lays` says how the digits of a decimal are written with their point: where it stands, which zeros
fill the places between them, and when there is an exponent. `Shown` says what a number is shown as:
its shortest decimal, laid out so, behind its sign. Every number is shown as exactly one text.
-/
namespace ScriptIR

namespace Binary64

/-! ### The digits and the point -/

/-- The exponent with its sign, and a zero before a single digit. -/
inductive LaysExponent (e : Int) : List Char → Prop
  | intro {sign : Char} {pad : List Char} :
      (sign = '-' ∧ e < 0 ∨ sign = '+' ∧ 0 ≤ e) →
      (pad = ['0'] ∧ e.natAbs < 10 ∨ pad = [] ∧ 10 ≤ e.natAbs) →
      LaysExponent e (sign :: (pad ++ Nat.toDigits 10 e.natAbs))

/-- The text of `0.d₁d₂… * 10 ^ point`, where `digits` are the `dᵢ`. There is no exponent if at most
three zeros stand between the point and the digits, or at most sixteen places before the point.
Otherwise the point stands behind the first digit, if there are others. -/
inductive Lays (digits : List Char) (point : Int) : List Char → Prop
  | below {n : Nat} : point = -n → n ≤ 3 → Lays digits point ('0' :: '.' :: (zeros n ++ digits))
  | within {whole fraction : List Char} : digits = whole ++ fraction → point = whole.length →
      whole ≠ [] → fraction ≠ [] → whole.length ≤ 16 → Lays digits point (whole ++ '.' :: fraction)
  | above {n : Nat} : point = digits.length + n → point ≤ 16 →
      Lays digits point (digits ++ zeros n ++ ['.', '0'])
  | single {digit : Char} {exponent : List Char} : digits = [digit] → point < -3 ∨ 16 < point →
      LaysExponent (point - 1) exponent → Lays digits point (digit :: 'e' :: exponent)
  | several {digit : Char} {others exponent : List Char} : digits = digit :: others → others ≠ [] →
      point < -3 ∨ 16 < point → LaysExponent (point - 1) exponent →
      Lays digits point (digit :: '.' :: (others ++ 'e' :: exponent))

theorem laysExponent_iff {e : Int} {cs : List Char} : LaysExponent e cs ↔ cs = exponentText e := by
  have pad : zeros (2 - (Nat.toDigits 10 e.natAbs).length) =
      if e.natAbs < 10 then ['0'] else [] := by
    split
    next small =>
      rw [Nat.toDigits_of_lt_base small]
      rfl
    next large =>
      have longer : ¬(Nat.toDigits 10 e.natAbs).length ≤ 1 := by
        rw [Nat.length_toDigits_le_iff (by decide) Nat.one_pos]
        omega
      rw [Nat.sub_eq_zero_of_le (by omega)]
      rfl
  unfold exponentText
  dsimp only
  rw [pad]
  constructor
  · rintro ⟨⟨rfl, sign⟩ | ⟨rfl, sign⟩, ⟨rfl, size⟩ | ⟨rfl, size⟩⟩
    · rw [if_pos sign, if_pos size]
    · rw [if_pos sign, if_neg (by omega)]
    · rw [if_neg (by omega), if_pos size]
    · rw [if_neg (by omega), if_neg (by omega)]
  · rintro rfl
    refine .intro ?_ ?_
    · split
      next sign => exact .inl ⟨rfl, sign⟩
      next sign => exact .inr ⟨rfl, not_lt.mp sign⟩
    · split
      next size => exact .inl ⟨rfl, size⟩
      next size => exact .inr ⟨rfl, not_lt.mp size⟩

theorem Lays.eq_layout {digits : List Char} (nonempty : digits ≠ []) {point : Int} {cs : List Char}
    (h : Lays digits point cs) : cs = layout digits point := by
  have length := List.length_pos_iff.mpr nonempty
  unfold layout
  cases h with
  | @below n hpoint few =>
    rw [if_pos (by simp; omega), if_pos (by omega), hpoint, Int.neg_neg, Int.toNat_natCast]
  | @within whole fraction parts hpoint hwhole hfraction few =>
    have some := List.length_pos_iff.mpr hwhole
    rw [if_pos (by simp; omega), if_neg (by omega), parts, hpoint, Int.toNat_natCast]
    simp [zeros, hfraction]
  | @above n hpoint few =>
    obtain rfl : point = (digits.length + n : Nat) := by omega
    rw [if_pos (by simp; omega), if_neg (by omega), Int.toNat_natCast]
    simp [zeros]
  | single one far exponent =>
    rw [if_neg (by simp; omega), laysExponent_iff.mp exponent, one]
    rfl
  | @several digit others exponent more some far hexponent =>
    have length := List.length_pos_iff.mpr some
    rw [if_neg (by simp; omega), laysExponent_iff.mp hexponent, more]
    simp [some]

theorem lays_layout {digits : List Char} (nonempty : digits ≠ []) (point : Int) :
    Lays digits point (layout digits point) := by
  have length := List.length_pos_iff.mpr nonempty
  unfold layout
  split
  next near =>
    simp only [Bool.and_eq_true, decide_eq_true_eq] at near
    split
    next below => exact .below (by omega) (by omega)
    next positive =>
      dsimp only
      rcases Nat.lt_or_ge point.toNat digits.length with within | above
      · have fraction : digits.drop point.toNat ≠ [] := by
          rw [← List.length_pos_iff, List.length_drop]
          omega
        rw [Nat.sub_eq_zero_of_le within.le, if_neg (by simpa using fraction)]
        have taken : (digits.take point.toNat).length = point.toNat := by
          rw [List.length_take]
          omega
        rw [zeros, List.replicate_zero, List.append_nil]
        refine .within (List.take_append_drop _ _).symm ?_ ?_ fraction ?_
        · omega
        · rw [← List.length_pos_iff]
          omega
        · omega
      · rw [List.take_of_length_le above, List.drop_eq_nil_of_le above]
        exact .above (by omega) (by omega)
  next far =>
    simp only [Bool.and_eq_true, decide_eq_true_eq] at far
    match digits, nonempty with
    | [digit], _ => exact .single rfl (by omega) (laysExponent_iff.mpr rfl)
    | digit :: second :: others, _ =>
      exact .several rfl (List.cons_ne_nil _ _) (by omega) (laysExponent_iff.mpr rfl)

/-- The digits of a decimal are written in exactly one way. -/
theorem lays_iff {digits : List Char} (nonempty : digits ≠ []) {point : Int} {cs : List Char} :
    Lays digits point cs ↔ cs = layout digits point :=
  ⟨(·.eq_layout nonempty), fun same => same ▸ lays_layout nonempty point⟩

/-! ### The digits of the shortest decimal -/

theorem toDigits_mul_pow {c : Nat} (hc : 0 < c) (z : Nat) :
    Nat.toDigits 10 (c * 10 ^ z) = Nat.toDigits 10 c ++ zeros z := by
  induction z with
  | zero => simp [zeros]
  | succ z ih =>
    have positive : 0 < c * 10 ^ z := Nat.mul_pos hc (Nat.pow_pos (by decide))
    calc Nat.toDigits 10 (c * 10 ^ (z + 1))
        = Nat.toDigits 10 (10 * (c * 10 ^ z) + 0) := by rw [Nat.pow_succ]; congr 1; ring
      _ = Nat.toDigits 10 (c * 10 ^ z) ++ Nat.toDigits 10 0 :=
        (Nat.toDigits_append_toDigits (by decide) positive (by decide)).symm
      _ = Nat.toDigits 10 c ++ zeros (z + 1) := by
        rw [ih, Nat.toDigits_zero, List.append_assoc, zeros, zeros, List.replicate_succ']

theorem getLast_toDigits {c : Nat} (hc : c % 10 ≠ 0) :
    ∃ cs last, Nat.toDigits 10 c = cs ++ [last] ∧ last ≠ '0' := by
  rw [Nat.toDigits_eq_if (by decide)]
  split
  next small =>
    refine ⟨[], _, rfl, fun zero => hc ?_⟩
    rw [Nat.mod_eq_of_lt small, Nat.digitChar_eq_zero.mp zero]
  next => exact ⟨_, _, rfl, fun zero => hc (Nat.digitChar_eq_zero.mp zero)⟩

theorem placeDigits_eq {c z : Nat} (hc : c % 10 ≠ 0) (e : Int) :
    placeDigits ⟨c * 10 ^ z, e⟩ =
      (Nat.toDigits 10 c, (Nat.toDigits 10 c).length + (e + z)) := by
  obtain ⟨cs, last, digits, nonzero⟩ := getLast_toDigits hc
  have trimmed : ((Nat.toDigits 10 (c * 10 ^ z)).reverse.dropWhile (· = '0')).reverse =
      Nat.toDigits 10 c := by
    rw [toDigits_mul_pow (by omega), digits, zeros, List.reverse_append, List.reverse_replicate,
      List.dropWhile_append_of_pos (by simp), List.reverse_append, List.reverse_singleton,
      List.singleton_append, List.dropWhile_cons_of_neg (by simpa using nonzero), List.reverse_cons,
      List.reverse_reverse]
  unfold placeDigits
  dsimp only
  rw [trimmed, toDigits_mul_pow (by omega), List.length_append, zeros, List.length_replicate]
  congr 1
  push_cast
  ring

/-! ### Numbers -/

/-- What stands behind the sign. -/
inductive ShowsMagnitude (m : Nat) (q : Int) : List Char → Prop
  | zero : m = 0 → ShowsMagnitude m q ['0', '.', '0']
  | positive {d : Decimal} {cs : List Char} : 0 < m → IsShortest m q d →
      Lays (Nat.toDigits 10 d.digits) (countDigits d.digits + d.exponent) cs → ShowsMagnitude m q cs

/-- What a number is shown as. -/
inductive Shown : Binary64 → String → Prop
  | nan : Shown .nan "nan"
  | infinite : Shown (.infinite false) "inf"
  | negativeInfinite : Shown (.infinite true) "-inf"
  | finite {m : Fin (Nat.pow 2 53)} {q : Int} {cs : List Char} : ShowsMagnitude m q cs →
      Shown (.finite false m q) (String.ofList cs)
  | negativeFinite {m : Fin (Nat.pow 2 53)} {q : Int} {cs : List Char} : ShowsMagnitude m q cs →
      Shown (.finite true m q) (String.ofList ('-' :: cs))

theorem showsMagnitude_iff {m : Nat} (lt : m < 2 ^ 53) {q : Int} {cs : List Char} :
    ShowsMagnitude m q cs ↔ cs = if m = 0 then "0.0".toList
      else layout (placeDigits (shortest m q)).1 (placeDigits (shortest m q)).2 := by
  by_cases zero : m = 0
  · rw [if_pos zero]
    constructor
    · rintro (_ | ⟨positive, _, _⟩)
      · rfl
      · omega
    · rintro rfl
      exact .zero zero
  rw [if_neg zero]
  have hm : 0 < m := Nat.pos_of_ne_zero zero
  obtain ⟨order, n, c, least, greatest, found, nearest, first⟩ := shortest_spec (q := q) hm lt
  have positive : 0 < c := by
    by_contra none
    rw [Nat.le_zero.mp (not_lt.mp none)] at nearest
    have := nearest.rounds.pos hm
    rw [Nat.cast_zero, zero_mul] at this
    exact lt_irrefl 0 this
  obtain ⟨d, z, trimmed, rfl⟩ := exists_trimmed positive
  have isShortest := isShortest_of_isNearest hm least greatest nearest first trimmed rfl
  rw [found, placeDigits_eq trimmed, ← lays_iff Nat.toDigits_ne_nil]
  constructor
  · rintro (_ | ⟨_, other, lays⟩)
    · omega
    · obtain rfl := other.unique isShortest
      exact lays
  · exact fun lays => .positive hm isShortest lays

/-- A number is shown as exactly one text. -/
theorem shown_iff {x : Binary64} {t : String} : x.Shown t ↔ t = x.text := by
  cases x with
  | nan => exact ⟨fun | .nan => rfl, fun same => same ▸ .nan⟩
  | infinite negative =>
    cases negative
    · exact ⟨fun | .infinite => rfl, fun same => same ▸ .infinite⟩
    · exact ⟨fun | .negativeInfinite => rfl, fun same => same ▸ .negativeInfinite⟩
  | finite negative m q =>
    have magnitude (cs : List Char) : ShowsMagnitude m q cs ↔ _ := showsMagnitude_iff m.isLt
    cases negative
    · constructor
      · rintro (_ | _ | _ | shows | shows)
        rw [(magnitude _).mp shows]
        rfl
      · rintro rfl
        exact .finite ((magnitude _).mpr rfl)
    · constructor
      · rintro (_ | _ | _ | shows | shows)
        rw [(magnitude _).mp shows]
        rfl
      · rintro rfl
        exact .negativeFinite ((magnitude _).mpr rfl)

end Binary64
end ScriptIR
