import Mathlib.Data.List.TakeWhile
import ScriptIR.Text.Encoding

/-!
# Spelled texts

Spelling loses nothing: the code points of a spelled text are those that were spelled, and what
comes from outside is encoded as it came. Characters other than the mark and the signs of halves
stand for themselves wherever they are, so a text of such characters can be encoded.
-/
namespace ScriptIR.Text

/-! ### Reading back -/

theorem toNat_mark : mark.toNat = 0x10FFFF := by
  decide

theorem isHalf_iff {point : Nat} : isHalf point = true ↔ 0xD800 ≤ point ∧ point ≤ 0xDFFF := by
  simp [isHalf]

theorem toNat_ofNat {point : Nat} (valid : point ≤ 0x10FFFF) (h : isHalf point = false) :
    (Char.ofNat point).toNat = point := by
  have value : point.isValidChar := by
    rw [← Bool.not_eq_true, isHalf_iff] at h
    simp only [Nat.isValidChar]
    omega
  rw [Char.ofNat, dif_pos value]
  rfl

theorem toNat_halfSign {half : Nat} (h : isHalf half = true) :
    (halfSign half).toNat = half - 0xD800 + 0xF0000 := by
  rw [isHalf_iff] at h
  have whole : isHalf (half - 0xD800 + 0xF0000) = false := by
    rw [← Bool.not_eq_true, isHalf_iff]
    omega
  rw [halfSign, toNat_ofNat (by omega) whole]

theorem isHalf_toNat (c : Char) : isHalf c.toNat = false := by
  have valid := c.valid
  rw [← Bool.not_eq_true, isHalf_iff]
  simp only [Char.toNat, UInt32.isValidChar, Nat.isValidChar] at *
  omega

theorem points_cons_mark_cons (d : Char) (cs : List Char) {point : Nat}
    (h : pair? mark d = some point) : points (mark :: d :: cs) = point :: points cs := by
  rw [points, h]

/-- A character other than the mark stands for itself. -/
theorem points_cons {c : Char} (h : c ≠ mark) (cs : List Char) :
    points (c :: cs) = c.toNat :: points cs := by
  cases cs with
  | nil => rfl
  | cons d cs => rw [points, pair?, if_pos h]

/-- What is spelled is read back. -/
theorem points_spell_append {point : Nat} (valid : point ≤ 0x10FFFF) (cs : List Char) :
    points (spell point ++ cs) = point :: points cs := by
  unfold spell
  split
  next half =>
    have sign := toNat_halfSign half
    have bounds := isHalf_iff.mp half
    have other : halfSign point ≠ mark := by
      intro same
      rw [same, toNat_mark] at sign
      omega
    have pair : pair? mark (halfSign point) = some point := by
      have within : (0xF0000 ≤ (halfSign point).toNat && (halfSign point).toNat ≤ 0xF07FF) =
          true := by
        simp only [sign, Bool.and_eq_true, decide_eq_true_eq]
        omega
      have back : point - 0xD800 + 0xF0000 - 0xF0000 + 0xD800 = point := by omega
      rw [pair?, if_neg (by simp), if_neg other, if_pos within, sign, back]
    exact points_cons_mark_cons _ cs pair
  next whole =>
    rw [Bool.not_eq_true] at whole
    split
    next same =>
      have pair : pair? mark mark = some mark.toNat := by simp [pair?]
      rw [same]
      exact points_cons_mark_cons mark cs pair
    next other =>
      have read := toNat_ofNat valid whole
      have plain : Char.ofNat point ≠ mark := by
        intro same
        rw [same] at read
        exact other read.symm
      rw [List.singleton_append, points_cons plain, read]

theorem points_flatMap_spell {all : List Nat} (valid : ∀ point ∈ all, point ≤ 0x10FFFF) :
    points (all.flatMap spell) = all := by
  induction all with
  | nil => rfl
  | cons point rest ih =>
    rw [List.forall_mem_cons] at valid
    rw [List.flatMap_cons, points_spell_append valid.1, ih valid.2]

/-! ### Encoding -/

/-- Half of a surrogate pair is in the text. -/
def HasHalf (text : String) : Prop :=
  ∃ point ∈ points text.toList, isHalf point = true

instance (text : String) : Decidable (HasHalf text) :=
  inferInstanceAs (Decidable (∃ point ∈ points text.toList, isHalf point = true))

theorem encode_of_not_hasHalf {text : String} (h : ¬HasHalf text) :
    encode text = .ok (characters text) := by
  have none : (points text.toList).dropWhile (!isHalf ·) = [] := by
    rw [List.dropWhile_eq_nil_iff]
    intro point hpoint
    rw [Bool.not_eq_true', ← Bool.not_eq_true]
    exact fun half => h ⟨point, hpoint, half⟩
  simp only [encode, none]

theorem encode_of_hasHalf {text : String} (h : HasHalf text) : ∃ e, encode text = .error e := by
  obtain ⟨point, hpoint, half⟩ := h
  cases rest : (points text.toList).dropWhile (!isHalf ·) with
  | nil =>
    rw [List.dropWhile_eq_nil_iff] at rest
    have whole := rest point hpoint
    rw [half] at whole
    cases whole
  | cons first others =>
    unfold encode
    dsimp only
    rw [rest]
    exact ⟨_, rfl⟩

/-- A text from outside is encoded as it came. -/
theorem encode_spelled (text : String) : encode (spelled text) = .ok text := by
  have back : points (spelled text).toList = text.toList.map Char.toNat := by
    rw [spelled, String.toList_ofList, ← List.flatMap_map]
    refine points_flatMap_spell fun point hpoint => ?_
    obtain ⟨c, -, rfl⟩ := List.mem_map.mp hpoint
    have valid := c.valid
    simp only [Char.toNat, UInt32.isValidChar, Nat.isValidChar] at *
    omega
  have whole : ¬HasHalf (spelled text) := by
    rintro ⟨point, hpoint, half⟩
    rw [back] at hpoint
    obtain ⟨c, -, rfl⟩ := List.mem_map.mp hpoint
    rw [isHalf_toNat] at half
    cases half
  rw [encode_of_not_hasHalf whole, characters, back, List.map_map]
  have same : (Char.ofNat ∘ Char.toNat) = id := funext fun c => Char.ofNat_toNat c
  rw [same, List.map_id, String.ofList_toList]

/-- Without the mark there are only characters. -/
theorem not_hasHalf_of_mark_notMem {text : String} (h : mark ∉ text.toList) : ¬HasHalf text := by
  have plain : ∀ cs : List Char, mark ∉ cs → points cs = cs.map Char.toNat := by
    intro cs
    induction cs with
    | nil => exact fun _ => rfl
    | cons c cs ih =>
      intro h
      rw [List.mem_cons, not_or] at h
      rw [points_cons (Ne.symm h.1), ih h.2, List.map_cons]
  rintro ⟨point, hpoint, half⟩
  rw [plain _ h] at hpoint
  obtain ⟨c, -, rfl⟩ := List.mem_map.mp hpoint
  rw [isHalf_toNat] at half
  cases half

/-- A line feed at the end makes no half. -/
theorem hasHalf_append_newline (text : String) : HasHalf (text ++ "\n") ↔ HasHalf text := by
  have behind : ∀ cs : List Char, points (cs ++ ['\n']) = points cs ++ ['\n'.toNat] := by
    intro cs
    fun_induction points cs with
    | case1 => rfl
    | case2 c =>
      have lone : pair? c '\n' = none := by
        by_cases h : c = mark
        · subst h
          decide
        · exact if_pos h
      rw [List.singleton_append, points, lone]
      rfl
    | case3 c d cs point pair ih => simp [points, pair, ih]
    | case4 c d cs pair ih =>
      rw [List.cons_append, List.cons_append, points, pair, List.cons_append, ← ih]
      rfl
  simp [HasHalf, String.toList_append, behind, isHalf]

end ScriptIR.Text
