import Mathlib.Data.List.Forall2
import ScriptIR.Json.Display
import ScriptIR.Proofs.Number.Layout
import ScriptIR.Proofs.Text.Points

/-!
# What values are shown as

`Text.Quotes` says what a text is quoted as: which quotes stand around it, and what stands between
them for each of its code points. `Json.Literal` says what a value is shown as inside another one,
and `Json.Displays` what it is shown as by itself, where a text is not quoted. Every value is shown
as exactly one text.
-/
namespace ScriptIR

/-! ### Quoted texts -/

namespace Text

/-- A code point by its number, after a letter that says how many digits that has. -/
inductive Numbered (point : Nat) : List Char → Prop
  | short : point < 0x100 → Numbered point ('x' :: (Nat.toDigits 16 point).leftpad 2 '0')
  | middle : 0x100 ≤ point → point < 0x10000 →
      Numbered point ('u' :: (Nat.toDigits 16 point).leftpad 4 '0')
  | long : 0x10000 ≤ point → Numbered point ('U' :: (Nat.toDigits 16 point).leftpad 8 '0')

/-- What stands between quotes for a code point: the quote and the backslash are marked, three
characters have names, the printable ones stand for themselves, and all others are numbered. -/
inductive Escapes (quote : Char) : (point : Nat) → List Char → Prop
  | marked {c : Char} : c = quote ∨ c = '\\' → Escapes quote c.toNat ['\\', c]
  | named {c name : Char} : c ≠ quote → (c, name) ∈ [('\n', 'n'), ('\t', 't'), ('\r', 'r')] →
      Escapes quote c.toNat ['\\', name]
  | printed {c : Char} : c ≠ quote → c ≠ '\\' → isPrintable c = true → Escapes quote c.toNat [c]
  | numbered {point : Nat} {cs : List Char} :
      (∀ c : Char, c.toNat = point → c ∉ [quote, '\\', '\n', '\t', '\r'] ∧ isPrintable c = false) →
      Numbered point cs → Escapes quote point ('\\' :: cs)

/-- The text between quotes. They are single, unless there is a single quote in the
text and no double one. -/
inductive Quotes (s t : String) : Prop
  | intro (quote : Char) (parts : List (List Char)) :
      (quote = singleQuote ∨ quote = '"') →
      (quote = '"' ↔ singleQuote ∈ s.toList ∧ '"' ∉ s.toList) →
      List.Forall₂ (Escapes quote) (points s.toList) parts →
      t.toList = quote :: parts.flatten ++ [quote] → Quotes s t

theorem hexDigits_zero (width : Nat) : hexDigits width 0 = List.replicate width '0' := by
  induction width with
  | zero => rfl
  | succ width ih =>
    rw [hexDigits, Nat.zero_div, ih, List.replicate_succ']
    rfl

theorem hexDigits_eq_leftpad {width n : Nat} (h : n < 16 ^ (width + 1)) :
    hexDigits (width + 1) n = (Nat.toDigits 16 n).leftpad (width + 1) '0' := by
  induction width generalizing n with
  | zero =>
    rw [Nat.toDigits_of_lt_base (by omega), hexDigits, hexDigits, Nat.mod_eq_of_lt (by omega)]
    rfl
  | succ width ih =>
    rw [hexDigits, Nat.toDigits_eq_if (by decide)]
    split
    next small =>
      rw [Nat.div_eq_of_lt small, hexDigits_zero, Nat.mod_eq_of_lt small]
      rfl
    next large =>
      have fewer : n / 16 < 16 ^ (width + 1) := by
        rw [Nat.div_lt_iff_lt_mul (by decide), ← Nat.pow_succ]
        exact h
      rw [ih fewer, List.leftpad, List.leftpad, List.length_append, List.length_singleton,
        Nat.add_sub_add_right, List.append_assoc]

theorem numbered_iff {point : Nat} (bound : point < 0x110000) {cs : List Char} :
    Numbered point cs ↔ cs = if point < 0x100 then 'x' :: hexDigits 2 point
      else if point < 0x10000 then 'u' :: hexDigits 4 point else 'U' :: hexDigits 8 point := by
  have long : hexDigits 8 point = (Nat.toDigits 16 point).leftpad 8 '0' :=
    hexDigits_eq_leftpad (by omega)
  constructor
  · rintro (short | ⟨least, middle⟩ | least)
    · rw [if_pos short, hexDigits_eq_leftpad (by omega)]
    · rw [if_neg (by omega), if_pos middle, hexDigits_eq_leftpad (by omega)]
    · rw [if_neg (by omega), if_neg (by omega), long]
  · rintro rfl
    split_ifs with short middle
    · rw [hexDigits_eq_leftpad (by omega)]
      exact .short short
    · rw [hexDigits_eq_leftpad (by omega)]
      exact .middle (by omega) middle
    · rw [long]
      exact .long (by omega)

/-- A code point is half of a surrogate pair or a character. -/
theorem mem_points {point : Nat} {cs : List Char} (h : point ∈ points cs) :
    isHalf point = true ∨ ∃ c : Char, c.toNat = point := by
  fun_induction points cs with
  | case1 => cases h
  | case2 c =>
    cases List.mem_singleton.mp h
    exact .inr ⟨c, rfl⟩
  | case3 c d cs other pair ih =>
    rcases List.mem_cons.mp h with rfl | h
    · unfold pair? at pair
      split_ifs at pair with _ _ within
      · cases pair
        exact .inr ⟨mark, rfl⟩
      · cases pair
        simp only [Bool.and_eq_true, decide_eq_true_eq] at within
        exact .inl (isHalf_iff.mpr (by omega))
    · exact ih h
  | case4 c d cs pair ih =>
    rcases List.mem_cons.mp h with rfl | h
    · exact .inr ⟨c, rfl⟩
    · exact ih h

theorem escapes_half {quote : Char} {point : Nat} (half : isHalf point = true) {cs : List Char} :
    Escapes quote point cs ↔ cs = escapePoint quote point := by
  have noCharacter : ∀ c : Char, c.toNat ≠ point := by
    rintro c rfl
    rw [isHalf_toNat] at half
    cases half
  have bounds := isHalf_iff.mp half
  rw [escapePoint, if_pos half]
  constructor
  · intro h
    cases h with
    | numbered _ numbered =>
      rw [(numbered_iff (by omega)).mp numbered, if_neg (by omega), if_pos (by omega)]
    | _ => exact absurd rfl (noCharacter _)
  · rintro rfl
    refine .numbered (fun c same => absurd same (noCharacter c)) ((numbered_iff (by omega)).mpr ?_)
    rw [if_neg (by omega), if_pos (by omega)]

theorem escapes_character {quote c : Char} {cs : List Char} :
    Escapes quote c.toNat cs ↔ cs = escapePoint quote c.toNat := by
  have bound : c.toNat < 0x110000 := by
    rcases c.valid with low | high
    · exact Nat.lt_trans low (by decide)
    · exact high.2
  rw [escapePoint, if_neg (by simp [isHalf_toNat]), Char.ofNat_toNat]
  constructor
  · generalize point : c.toNat = n
    intro h
    cases h with
    | marked special =>
      cases Char.toNat_inj.mp point
      simp [escapeChar, special]
    | named other name =>
      cases Char.toNat_inj.mp point
      simp only [List.mem_cons, List.not_mem_nil, or_false, Prod.mk.injEq] at name
      rcases name with ⟨rfl, rfl⟩ | ⟨rfl, rfl⟩ | ⟨rfl, rfl⟩ <;> simp [escapeChar, other]
    | printed noQuote noBackslash printable =>
      cases Char.toNat_inj.mp point
      have unnamed : c ≠ '\n' ∧ c ≠ '\t' ∧ c ≠ '\r' := by
        refine ⟨?_, ?_, ?_⟩ <;> rintro rfl <;> exact absurd printable (by decide)
      simp [escapeChar, noQuote, noBackslash, unnamed, printable]
    | numbered others numbered =>
      obtain ⟨unnamed, unprintable⟩ := others c point
      simp only [List.mem_cons, List.not_mem_nil, or_false, not_or] at unnamed
      rw [← point] at numbered
      rw [(numbered_iff bound).mp numbered]
      simp only [escapeChar, unnamed, unprintable]
      split_ifs <;> simp_all
  · rintro rfl
    unfold escapeChar
    split_ifs with special newline tab carriage printable short middle
    · exact .marked (by simpa using special)
    all_goals rw [Bool.or_eq_true, decide_eq_true_eq, decide_eq_true_eq, not_or] at special
    · exact newline ▸ .named (newline ▸ special.1) (by simp)
    · exact tab ▸ .named (tab ▸ special.1) (by simp)
    · exact carriage ▸ .named (carriage ▸ special.1) (by simp)
    · exact .printed special.1 special.2 printable
    all_goals
      have others : ∀ d : Char, d.toNat = c.toNat →
          d ∉ [quote, '\\', '\n', '\t', '\r'] ∧ isPrintable d = false := by
        intro d same
        rw [Char.toNat_inj.mp same]
        simp [special, newline, tab, carriage, printable]
    · exact .numbered others ((numbered_iff bound).mpr (if_pos short).symm)
    · exact .numbered others ((numbered_iff bound).mpr (by rw [if_neg short, if_pos middle]))
    · exact .numbered others ((numbered_iff bound).mpr (by rw [if_neg short, if_neg middle]))

theorem escapes_iff {quote : Char} {point : Nat} {cs escaped : List Char} (h : point ∈ points cs) :
    Escapes quote point escaped ↔ escaped = escapePoint quote point := by
  rcases mem_points h with half | ⟨c, rfl⟩
  · exact escapes_half half
  · exact escapes_character

theorem quoteFor_eq_iff (cs : List Char) (quote : Char) :
    quote = quoteFor cs ↔ (quote = singleQuote ∨ quote = '"') ∧
      (quote = '"' ↔ singleQuote ∈ cs ∧ '"' ∉ cs) := by
  have differ : singleQuote ≠ '"' := by decide
  have double : (cs.contains singleQuote && !cs.contains '"') = true ↔
      singleQuote ∈ cs ∧ '"' ∉ cs := by simp
  rw [quoteFor, ← double]
  split
  next holds =>
    simp only [holds, iff_true]
    exact ⟨fun same => ⟨.inr same, same⟩, And.right⟩
  next fails =>
    simp only [fails]
    constructor
    · rintro rfl
      exact ⟨.inl rfl, by simp [differ]⟩
    · exact fun ⟨either, single⟩ => either.resolve_right (by simpa using single)

theorem eq_map_of_forall₂ {α β : Type} {R : α → β → Prop} {f : α → β} {xs : List α} {ys : List β}
    (h : List.Forall₂ R xs ys) (unique : ∀ x ∈ xs, ∀ y, R x y → y = f x) : ys = xs.map f := by
  induction h with
  | nil => rfl
  | cons first _ ih =>
    rw [List.forall_mem_cons] at unique
    rw [List.map_cons, unique.1 _ first, ih unique.2]

/-- A text is quoted in exactly one way. -/
theorem quotes_iff {s t : String} : Quotes s t ↔ t = quote s := by
  constructor
  · rintro ⟨q, parts, either, double, escapes, whole⟩
    have escaped : parts = (points s.toList).map (escapePoint q) :=
      eq_map_of_forall₂ escapes fun point hpoint part => (escapes_iff hpoint).mp
    rw [escaped, (quoteFor_eq_iff s.toList q).mpr ⟨either, double⟩] at whole
    apply String.toList_injective
    rw [whole, quote, String.toList_ofList, List.flatMap_def]
  · rintro rfl
    obtain ⟨either, double⟩ := (quoteFor_eq_iff s.toList _).mp rfl
    refine ⟨_, (points s.toList).map (escapePoint (quoteFor s.toList)), either, double, ?_, ?_⟩
    · exact List.forall₂_map_right_iff.mpr
        (List.forall₂_same.mpr fun point hpoint => (escapes_iff hpoint).mpr rfl)
    · rw [quote, String.toList_ofList, List.flatMap_def]

end Text

/-! ### Values -/

namespace Json

mutual
/-- What a value is shown as inside another one. -/
inductive Literal : Json → String → Prop
  | null : Literal .null "None"
  | true : Literal (.bool true) "True"
  | false : Literal (.bool false) "False"
  | int (i : Int) : Literal (.int i) (toString i)
  | float {x : Binary64} {t : String} : x.Shown t → Literal (.float x) t
  | string {s t : String} : Text.Quotes s t → Literal (.string s) t
  | array {items : List Json} {texts : List String} : Literals items texts →
      Literal (.array items) ("[" ++ ", ".intercalate texts ++ "]")
  | object {entries : List (String × Json)} {texts : List String} : EntryLiterals entries texts →
      Literal (.object entries) ("\x7b" ++ ", ".intercalate texts ++ "\x7d")

inductive Literals : List Json → List String → Prop
  | nil : Literals [] []
  | cons {v : Json} {t : String} {items : List Json} {texts : List String} :
      Literal v t → Literals items texts → Literals (v :: items) (t :: texts)

/-- Each key stands quoted before its value. -/
inductive EntryLiterals : List (String × Json) → List String → Prop
  | nil : EntryLiterals [] []
  | cons {key quoted t : String} {v : Json} {entries : List (String × Json)} {texts : List String} :
      Text.Quotes key quoted → Literal v t → EntryLiterals entries texts →
      EntryLiterals ((key, v) :: entries) ((quoted ++ ": " ++ t) :: texts)
end

/-- What a value is shown as by itself. -/
inductive Displays : Json → String → Prop
  | string (s : String) : Displays (.string s) s
  | literal {v : Json} {t : String} : (∀ s, v ≠ .string s) → Literal v t → Displays v t

mutual
theorem Literal.eq_literal : ∀ {v : Json} {t : String}, Literal v t → t = v.literal
  | _, _, .null => rfl
  | _, _, .true => rfl
  | _, _, .false => rfl
  | _, _, .int _ => rfl
  | _, _, .float shown => Binary64.shown_iff.mp shown
  | _, _, .string quoted => Text.quotes_iff.mp quoted
  | _, _, .array items => by rw [items.eq_literals, literal]
  | _, _, .object entries => by rw [entries.eq_entryLiterals, literal]

theorem Literals.eq_literals : ∀ {items : List Json} {texts : List String},
    Literals items texts → texts = literals items
  | _, _, .nil => rfl
  | _, _, .cons first others => by rw [first.eq_literal, others.eq_literals, literals]

theorem EntryLiterals.eq_entryLiterals : ∀ {entries : List (String × Json)} {texts : List String},
    EntryLiterals entries texts → texts = entryLiterals entries
  | _, _, .nil => rfl
  | _, _, .cons key first others => by
    rw [Text.quotes_iff.mp key, first.eq_literal, others.eq_entryLiterals, entryLiterals]
end

mutual
theorem literal_literal : ∀ v : Json, Literal v v.literal
  | .null => .null
  | .bool false => .false
  | .bool true => .true
  | .int i => .int i
  | .float _ => .float (Binary64.shown_iff.mpr rfl)
  | .string _ => .string (Text.quotes_iff.mpr rfl)
  | .array items => .array (literals_literals items)
  | .object entries => .object (entryLiterals_entryLiterals entries)

theorem literals_literals : ∀ items : List Json, Literals items (literals items)
  | [] => .nil
  | v :: rest => .cons (literal_literal v) (literals_literals rest)

theorem entryLiterals_entryLiterals : ∀ entries : List (String × Json),
    EntryLiterals entries (entryLiterals entries)
  | [] => .nil
  | (_, v) :: rest =>
    .cons (Text.quotes_iff.mpr rfl) (literal_literal v) (entryLiterals_entryLiterals rest)
end

/-- A value is shown as exactly one text. -/
theorem displays_iff {v : Json} {t : String} : v.Displays t ↔ t = v.display := by
  constructor
  · intro h
    cases h with
    | string => rfl
    | literal noString h =>
      rw [h.eq_literal]
      cases v with
      | string s => exact absurd rfl (noString s)
      | _ => rfl
  · rintro rfl
    cases v with
    | string s => exact .string s
    | _ => exact .literal nofun (literal_literal _)

end Json

end ScriptIR
