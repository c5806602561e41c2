import ScriptIR.Json.Writer
import ScriptIR.Proofs.Text.Points

/-!
# Written documents are ASCII

Whatever a value holds, the text that it is written as is made of ASCII characters: all others are
written as escapes, halves of surrogate pairs among them. So a written document can be encoded.
-/
namespace ScriptIR

namespace Text

/-- All of the characters are ASCII. -/
def Ascii (cs : List Char) : Prop :=
  ∀ c ∈ cs, c.toNat < 0x80

instance (cs : List Char) : Decidable (Ascii cs) :=
  List.decidableBAll (fun c : Char => c.toNat < 0x80) cs

namespace Ascii
variable {cs ds : List Char}

@[simp] theorem nil : Ascii [] :=
  fun _ h => by cases h

@[simp] theorem cons_iff {c : Char} : Ascii (c :: cs) ↔ c.toNat < 0x80 ∧ Ascii cs :=
  List.forall_mem_cons

@[simp] theorem append_iff : Ascii (cs ++ ds) ↔ Ascii cs ∧ Ascii ds :=
  List.forall_mem_append

theorem take (h : Ascii cs) (n : Nat) : Ascii (cs.take n) :=
  fun c hc => h c (List.mem_of_mem_take hc)

theorem drop (h : Ascii cs) (n : Nat) : Ascii (cs.drop n) :=
  fun c hc => h c (List.mem_of_mem_drop hc)

theorem intercalate {s : String} {parts : List String} (hs : Ascii s.toList)
    (h : ∀ part ∈ parts, Ascii part.toList) : Ascii (s.intercalate parts).toList := by
  induction parts with
  | nil => simp
  | cons part rest ih =>
    rw [List.forall_mem_cons] at h
    cases rest with
    | nil => simpa using h.1
    | cons next more =>
      rw [String.intercalate_cons_cons, String.toList_append, String.toList_append, append_iff,
        append_iff]
      exact ⟨⟨h.1, hs⟩, ih h.2⟩

theorem not_hasHalf {s : String} (h : Ascii s.toList) : ¬HasHalf s := by
  refine not_hasHalf_of_mark_notMem fun inside => ?_
  have small := h mark inside
  rw [toNat_mark] at small
  omega

end Ascii

theorem ascii_hexDigits (width n : Nat) : Ascii (hexDigits width n) := by
  have digit : ∀ d < 16, (Nat.digitChar d).toNat < 0x80 := by decide
  induction width generalizing n with
  | zero => exact .nil
  | succ width ih =>
    have last := digit (n % 16) (Nat.mod_lt _ (by decide))
    simp [hexDigits, ih, last]

end Text

open Text (Ascii)

/-! ### Numbers -/

theorem Text.ascii_toDigits (n : Nat) : Ascii (Nat.toDigits 10 n) := by
  intro c hc
  have digit : c.isDigit = true := Nat.isDigit_of_mem_toDigits (by decide) (by decide) hc
  simp only [Char.isDigit, Bool.and_eq_true, decide_eq_true_eq, UInt32.le_iff_toNat_le] at digit
  have least : c.val.toNat ≤ 57 := digit.2
  change c.val.toNat < 0x80
  omega

theorem Text.ascii_toString (i : Int) : Ascii (toString i).toList := by
  have digits (n : Nat) : Ascii (Nat.repr n).toList := by
    rw [Nat.repr, String.toList_ofList]
    exact Text.ascii_toDigits n
  cases i with
  | ofNat n => exact digits n
  | negSucc n =>
    change Ascii ("-" ++ Nat.repr (n + 1)).toList
    rw [String.toList_append, Ascii.append_iff]
    exact ⟨by decide, digits (n + 1)⟩

namespace Binary64

theorem ascii_zeros (n : Nat) : Ascii (zeros n) := by
  intro c hc
  rw [(List.mem_replicate.mp hc).2]
  decide

theorem ascii_exponentText (e : Int) : Ascii (exponentText e) := by
  simp only [exponentText, Ascii.cons_iff, Ascii.append_iff]
  refine ⟨?_, ascii_zeros _, Text.ascii_toDigits _⟩
  split <;> decide

theorem ascii_layout {digits : List Char} (h : Ascii digits) (point : Int) :
    Ascii (layout digits point) := by
  unfold layout
  split
  · split
    · simp [ascii_zeros, h]
    · dsimp only
      split <;> simp [ascii_zeros, h.take, h.drop]
  · have tail : Ascii (if digits.length ≤ 1 then [] else '.' :: digits.drop 1) := by
      split
      · exact .nil
      · exact Ascii.cons_iff.mpr ⟨by decide, h.drop 1⟩
    have exponent : Ascii ('e' :: exponentText (point - 1)) :=
      Ascii.cons_iff.mpr ⟨by decide, ascii_exponentText _⟩
    exact Ascii.append_iff.mpr ⟨Ascii.append_iff.mpr ⟨h.take 1, tail⟩, exponent⟩

theorem ascii_text (x : Binary64) : Ascii x.text.toList := by
  cases x with
  | nan => decide
  | infinite negative => cases negative <;> decide
  | finite negative m q =>
    have digits : Ascii (placeDigits (shortest m q)).1 := fun c hc =>
      Text.ascii_toDigits _ c
        (List.mem_reverse.mp (List.dropWhile_subset _ (List.mem_reverse.mp hc)))
    have body : Ascii (if m.val = 0 then "0.0".toList
        else layout (placeDigits (shortest m q)).1 (placeDigits (shortest m q)).2) := by
      split
      · decide
      · exact ascii_layout digits _
    rw [text, String.toList_ofList]
    split
    · exact Ascii.cons_iff.mpr ⟨by decide, body⟩
    · exact body

end Binary64

/-! ### Values -/

namespace Json

theorem ascii_escapePoint (point : Nat) : Ascii (escapePoint point) := by
  have unit (n : Nat) : Ascii (unitEscape n) := by
    simp [unitEscape, Text.ascii_hexDigits]
  unfold escapePoint
  split
  · exact unit point
  · unfold escapeChar
    dsimp only
    split_ifs with _ _ _ _ _ _ _ printable
    all_goals try first
      | decide
      | exact unit _
      | exact Ascii.append_iff.mpr ⟨unit _, unit _⟩
    -- What is left is the character that is printed as it is.
    simp only [Bool.and_eq_true, decide_eq_true_eq] at printable
    simp only [Ascii.cons_iff, Ascii.nil, and_true]
    omega

theorem ascii_stringText (s : String) : Ascii (stringText s).toList := by
  have inside : Ascii ((Text.points s.toList).flatMap escapePoint) := fun c hc => by
    obtain ⟨point, -, hc⟩ := List.mem_flatMap.mp hc
    exact ascii_escapePoint point c hc
  simp [stringText, inside]

theorem ascii_floatText (x : Binary64) : Ascii (floatText x).toList := by
  unfold floatText
  split
  · decide
  · split <;> decide
  · exact x.ascii_text

theorem ascii_enclose {opening closing : String} (hopening : Ascii opening.toList)
    (hclosing : Ascii closing.toList) (depth : Nat) {parts : List String}
    (h : ∀ part ∈ parts, Ascii part.toList) :
      Ascii (enclose opening closing depth parts).toList := by
  have line (depth : Nat) : Ascii (newLine depth).toList := by
    have blanks : Ascii (List.replicate (2 * depth) ' ') := fun c hc => by
      rw [(List.mem_replicate.mp hc).2]
      decide
    simp [newLine, blanks]
  cases parts with
  | nil => simp [enclose, hopening, hclosing]
  | cons part rest =>
    have separator : Ascii ("," ++ newLine (depth + 1)).toList := by simp [line]
    have inside := Ascii.intercalate separator h
    simp only [enclose, String.toList_append, Ascii.append_iff]
    exact ⟨⟨⟨⟨hopening, line _⟩, inside⟩, line _⟩, hclosing⟩

mutual
theorem ascii_prettyAt (depth : Nat) : ∀ v : Json, Ascii (v.prettyAt depth).toList
  | .null => by
    rw [prettyAt]
    decide
  | .bool b => by
    rw [prettyAt]
    cases b <;> decide
  | .int i => Text.ascii_toString i
  | .float x => ascii_floatText x
  | .string s => ascii_stringText s
  | .array items => by
    rw [prettyAt]
    exact ascii_enclose (by decide) (by decide) depth (ascii_prettyItems (depth + 1) items)
  | .object entries => by
    rw [prettyAt]
    exact ascii_enclose (by decide) (by decide) depth (ascii_prettyEntries (depth + 1) entries)

theorem ascii_prettyItems (depth : Nat) :
    ∀ items : List Json, ∀ part ∈ prettyItems depth items, Ascii part.toList
  | [] => nofun
  | v :: rest => by
    rw [prettyItems, List.forall_mem_cons]
    exact ⟨ascii_prettyAt depth v, ascii_prettyItems depth rest⟩

theorem ascii_prettyEntries (depth : Nat) :
    ∀ entries : List (String × Json), ∀ part ∈ prettyEntries depth entries, Ascii part.toList
  | [] => nofun
  | (key, v) :: rest => by
    rw [prettyEntries, List.forall_mem_cons]
    refine ⟨?_, ascii_prettyEntries depth rest⟩
    simp [ascii_stringText key, ascii_prettyAt depth v]
end

/-- A document is written in ASCII, whatever is in it. -/
theorem ascii_pretty (v : Json) : Ascii v.pretty.toList :=
  ascii_prettyAt 0 v

end Json

end ScriptIR
