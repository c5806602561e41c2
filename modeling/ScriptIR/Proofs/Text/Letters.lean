import ScriptIR.Config
import ScriptIR.Proofs.Text.Separators
import ScriptIR.Syntax.Node

/-!
# Texts that differ in the case of their letters

`uncased` takes a text to lower case, as far as letters of ASCII are concerned: two texts that
differ in the case of such letters at most become the same. Blanks, marks and digits are no letters,
so nothing that looks at those alone can tell the texts apart, and neither can case folding.
-/
namespace ScriptIR
namespace Text

/-- The text with its letters in lower case. -/
def uncased (s : String) : String :=
  String.ofList (s.toList.map Char.toLower)

/-- The text has no letters, so that it has no case. -/
def Caseless (s : String) : Prop :=
  ∀ c ∈ s.toList, c.isAlpha = false

instance (s : String) : Decidable (Caseless s) :=
  decidable_of_iff (s.toList.all (!·.isAlpha)) (by simp [Caseless])

/-! ### Characters -/

/-- Only the capitals have a lower case. -/
theorem toLower_eq_or_capital (c : Char) : c.toLower = c ∨ ∃ n < 26, c = Char.ofNat (n + 65) := by
  by_cases capital : 65 ≤ c.toNat ∧ c.toNat ≤ 90
  · refine .inr ⟨c.toNat - 65, by omega, ?_⟩
    rw [Nat.sub_add_cancel capital.1, Char.ofNat_toNat]
  · refine .inl (dif_neg fun upper => capital ?_)
    exact ⟨UInt32.le_iff_toNat_le.mp upper.1, UInt32.le_iff_toNat_le.mp upper.2⟩

/-- What is the same of the capitals and the small letters does not depend on case. -/
theorem toLower_invariant {β : Type} (p : Char → β)
    (h : ∀ n < 26, p (Char.ofNat (n + 65)).toLower = p (Char.ofNat (n + 65))) (c : Char) :
    p c.toLower = p c := by
  rcases toLower_eq_or_capital c with same | ⟨n, hn, rfl⟩
  · rw [same]
  · exact h n hn

@[simp] theorem isAlpha_toLower (c : Char) : c.toLower.isAlpha = c.isAlpha :=
  toLower_invariant Char.isAlpha (by decide) c

@[simp] theorem isBlank_toLower (c : Char) : isBlank c.toLower = isBlank c :=
  toLower_invariant isBlank (by decide) c

@[simp] theorem foldChar_toLower (c : Char) : foldChar c.toLower = foldChar c :=
  toLower_invariant foldChar (by decide +kernel) c

theorem toLower_of_isAlpha_eq_false {c : Char} (h : c.isAlpha = false) : c.toLower = c := by
  rcases toLower_eq_or_capital c with same | ⟨n, hn, rfl⟩
  · exact same
  · have letter : ∀ n < 26, (Char.ofNat (n + 65)).isAlpha = true := by decide
    rw [letter n hn] at h
    cases h

/-- A character that is no letter stays apart from the letters. -/
theorem toLower_eq_iff {c d : Char} (h : d.isAlpha = false) : c.toLower = d ↔ c = d := by
  constructor
  · intro same
    rw [← same, isAlpha_toLower] at h
    rw [← same, toLower_of_isAlpha_eq_false h]
  · intro same
    rw [same, toLower_of_isAlpha_eq_false h]

/-! ### Texts -/

@[simp] theorem toList_uncased (s : String) : (uncased s).toList = s.toList.map Char.toLower :=
  String.toList_ofList

theorem uncased_append (s t : String) : uncased (s ++ t) = uncased s ++ uncased t := by
  simp [uncased]

theorem uncased_of_caseless {s : String} (h : Caseless s) : uncased s = s := by
  have same : s.toList.map Char.toLower = s.toList.map id :=
    List.map_congr_left fun c hc => toLower_of_isAlpha_eq_false (h c hc)
  rw [uncased, same, List.map_id, String.ofList_toList]

theorem uncased_eq_empty_iff {s : String} : uncased s = "" ↔ s = "" := by
  rw [← String.toList_inj, toList_uncased, ← String.toList_inj]
  simp

theorem nonEmpty?_uncased (o : Option String) :
    nonEmpty? (o.map uncased) = (nonEmpty? o).map uncased := by
  cases o with
  | none => rfl
  | some s =>
    by_cases empty : s = ""
    · rw [empty]
      rfl
    · have other : uncased s ≠ "" := fun h => empty (uncased_eq_empty_iff.mp h)
      simp [nonEmpty?, Option.filter, empty, other]

theorem trimChars_toLower (cs : List Char) :
    trimChars (cs.map Char.toLower) = (trimChars cs).map Char.toLower := by
  have blank : isBlank ∘ Char.toLower = isBlank := funext isBlank_toLower
  simp only [trimChars, List.dropWhile_map, ← List.map_reverse, blank]

theorem trim_uncased (s : String) : trim (uncased s) = uncased (trim s) := by
  simp only [trim, uncased, String.toList_ofList, trimChars_toLower]

/-- Texts that differ in the case of letters fold to the same. -/
theorem caseFold_uncased (s : String) : caseFold (uncased s) = caseFold s := by
  simp only [caseFold, foldChars, toList_uncased, List.flatMap_map, foldChar_toLower]

theorem isPrefixOf_uncased {mark : String} (h : Caseless mark) (s : String) :
    mark.toList.isPrefixOf (uncased s).toList = mark.toList.isPrefixOf s.toList := by
  rw [toList_uncased]
  unfold Caseless at h
  generalize mark.toList = ms at h ⊢
  generalize s.toList = cs
  induction ms generalizing cs with
  | nil => rfl
  | cons m ms ih =>
    rw [List.forall_mem_cons] at h
    cases cs with
    | nil => rfl
    | cons c cs =>
      have first : (m == c.toLower) = (m == c) := by
        rw [Bool.eq_iff_iff, beq_iff_eq, beq_iff_eq, eq_comm, toLower_eq_iff h.1, eq_comm]
      rw [List.map_cons, List.isPrefixOf, List.isPrefixOf, first, ih h.2]

end Text

/-- Where case is ignored, texts that differ in nothing else have one key. -/
theorem Config.key_uncased {cfg : Config} (h : cfg.ignoreCase = true) (s : String) :
    cfg.key (Text.uncased s) = cfg.key s := by
  rw [key, key, if_pos h, if_pos h, Text.caseFold_uncased]

end ScriptIR
