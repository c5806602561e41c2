import Mathlib.Data.List.Chain
import ScriptIR.Types.Literal

/-!
# The grammar of type literals

Which texts are type literals, and which type each of them denotes, said without a reader. `Derives`
is the grammar of tokens; `Spells` says with which characters tokens are written; `Written` adds the
blanks and brackets that may enclose a whole literal. Blanks inside a literal are gaps, of which
there are fewer than of the blanks outside.
-/
namespace ScriptIR.TypeLiteral

/-- A letter or an underscore, with letters, digits, underscores and backticks behind it. -/
def IsName (cs : List Char) : Prop :=
  ∃ c rest, cs = c :: rest ∧ isNameStart c = true ∧ ∀ d ∈ rest, isNamePart d = true

/-- What a name token holds is a name. -/
def Token.WellFormed : Token → Prop
  | name text => IsName text.toList
  | _ => True

/-- Names with dots between them, and the dotted name that they make. -/
inductive Dotted : List Token → String → Prop
  | name (n : String) : Dotted [.name n] n
  | dot {ts : List Token} {n : String} (m : String) :
      Dotted ts n → Dotted (ts ++ [.dot, .name m]) (n ++ "." ++ m)

/-- The brackets of an array, with a comma for each further dimension. -/
def rankTokens (commas : Nat) : List Token :=
  .opening :: (List.replicate commas .comma ++ [.closing])

/-- Arguments behind a first one, with a comma in front of each. -/
def moreTokens (more : List (List Token × TypeExpr)) : List Token :=
  more.flatMap fun a => .comma :: a.1

@[simp] theorem moreTokens_nil : moreTokens [] = [] := rfl

@[simp] theorem moreTokens_cons (a : List Token × TypeExpr) (more : List (List Token × TypeExpr)) :
    moreTokens (a :: more) = .comma :: (a.1 ++ moreTokens more) := rfl

/-- A name that is listed as a shorthand, whatever the case of its letters, stands for the type that
is listed with it; any other name stands for itself. -/
inductive Names (n : String) : TypeExpr → Prop
  | shorthand {m : String} :
      (TypeExpr.lowerName n, m) ∈ TypeExpr.accelerators → Names n (.named m)
  | itself : (∀ m, (TypeExpr.lowerName n, m) ∉ TypeExpr.accelerators) → Names n (.named n)

/-- A literal is a dotted name, with one list of arguments if the type is generic, and with brackets
behind it for each array. Shorthands count for plain names only. -/
inductive Derives : List Token → TypeExpr → Prop
  | plain {ts : List Token} {n : String} {t : TypeExpr} : Dotted ts n → Names n t → Derives ts t
  | generic {ts us : List Token} {n : String} {first : TypeExpr}
      {more : List (List Token × TypeExpr)} :
      Dotted ts n → Derives us first → (∀ a ∈ more, Derives a.1 a.2) →
      Derives (ts ++ .opening :: (us ++ moreTokens more ++ [.closing]))
        (.generic n (first :: more.map Prod.snd))
  | array {ts : List Token} {element : TypeExpr} (commas : Nat) :
      Derives ts element → Derives (ts ++ rankTokens commas) (.array element)

/-- The characters are the tokens in order, with gaps before, between and after them. -/
inductive Spells : List Char → List Token → Prop
  | nil : Spells [] []
  | gap {c : Char} {cs : List Char} {ts : List Token} :
      isGap c = true → Spells cs ts → Spells (c :: cs) ts
  | token {cs : List Char} {ts : List Token} (t : Token) :
      t.WellFormed → Spells cs ts → Spells (t.text.toList ++ cs) (t :: ts)

/-- The text is a literal of the type, with brackets around it any number of times and with blanks
outside the literal and outside and inside all those brackets. -/
inductive Written : List Char → TypeExpr → Prop
  | literal {cs : List Char} {ts : List Token} {t : TypeExpr} :
      Spells cs ts → Derives ts t → Written cs t
  | bracketed {cs : List Char} {t : TypeExpr} :
      Written cs t → Written ('[' :: (cs ++ [']'])) t
  | blanks {cs : List Char} {t : TypeExpr} (before after : List Char) :
      (∀ c ∈ before, Text.isBlank c = true) → (∀ c ∈ after, Text.isBlank c = true) →
      Written cs t → Written (before ++ cs ++ after) t

/-! ### Names -/

/-- No shorthand is listed twice. -/
theorem nodup_accelerators : (TypeExpr.accelerators.map Prod.fst).Nodup := by
  decide

theorem lookup_eq_some_iff_mem {α β : Type} [BEq α] [LawfulBEq α] {entries : List (α × β)}
    (h : (entries.map Prod.fst).Nodup) {a : α} {b : β} :
    entries.lookup a = some b ↔ (a, b) ∈ entries := by
  induction entries with
  | nil => simp
  | cons e rest ih =>
    obtain ⟨c, d⟩ := e
    rw [List.map_cons, List.nodup_cons] at h
    rw [List.lookup_cons, List.mem_cons, Prod.mk.injEq]
    cases same : a == c with
    | true =>
      obtain rfl := eq_of_beq same
      have absent : (a, b) ∉ rest := fun hb => h.1 (List.mem_map.mpr ⟨(a, b), hb, rfl⟩)
      simp [absent, eq_comm]
    | false => simp [ih h.2, ne_of_beq_false same]

theorem names_iff {n : String} {t : TypeExpr} : Names n t ↔ t = .ofName n := by
  have listed (m : String) := lookup_eq_some_iff_mem nodup_accelerators (a := TypeExpr.lowerName n)
    (b := m)
  rw [TypeExpr.ofName]
  cases found : TypeExpr.accelerators.lookup (TypeExpr.lowerName n) with
  | none =>
    simp only [found, reduceCtorEq, false_iff] at listed
    constructor
    · rintro (shorthand | _)
      · exact absurd shorthand (listed _)
      · rfl
    · rintro rfl
      exact .itself listed
  | some m =>
    constructor
    · rintro (shorthand | unlisted)
      · rw [← listed, found] at shorthand
        exact congrArg TypeExpr.named (Option.some.inj shorthand).symm
      · exact absurd ((listed m).mp found) (unlisted m)
    · rintro rfl
      exact .shorthand ((listed m).mp found)

/-! ### Characters -/

theorem isNamePart_of_isNameStart {c : Char} (h : isNameStart c = true) : isNamePart c = true := by
  simp only [isNameStart, Bool.or_eq_true, decide_eq_true_eq] at h
  simp only [isNamePart, Char.isAlphanum, Bool.or_eq_true, decide_eq_true_eq]
  tauto

theorem eq_of_isGap {c : Char} (h : isGap c = true) :
    c = ' ' ∨ c = '\t' ∨ c = '\x0c' ∨ c = '\r' ∨ c = '\n' := by
  simpa only [isGap, Bool.or_eq_true, decide_eq_true_eq, or_assoc] using h

theorem not_isNamePart_of_isGap {c : Char} (h : isGap c = true) : isNamePart c = false := by
  rcases eq_of_isGap h with rfl | rfl | rfl | rfl | rfl <;> decide

theorem isBlank_of_isGap {c : Char} (h : isGap c = true) : Text.isBlank c = true := by
  rcases eq_of_isGap h with rfl | rfl | rfl | rfl | rfl <;> decide

/-- Letters and digits are three ranges of characters. -/
theorem range_of_isAlphanum {c : Char} (h : c.isAlphanum = true) :
    (0x30 ≤ c.toNat ∧ c.toNat ≤ 0x39) ∨ (0x41 ≤ c.toNat ∧ c.toNat ≤ 0x5A) ∨
      (0x61 ≤ c.toNat ∧ c.toNat ≤ 0x7A) := by
  change (decide (0x41 ≤ c.val ∧ c.val ≤ 0x5A) || (0x61 ≤ c.val && c.val ≤ 0x7A) ||
    (0x30 ≤ c.val && c.val ≤ 0x39)) = true at h
  simp only [Bool.or_eq_true, Bool.and_eq_true, decide_eq_true_eq, UInt32.le_iff_toNat_le] at h
  rcases h with (upper | lower) | digit
  · exact .inr (.inl upper)
  · exact .inr (.inr lower)
  · exact .inl digit

theorem not_isBlank_of_isNamePart {c : Char} (h : isNamePart c = true) :
    Text.isBlank c = false := by
  simp only [isNamePart, Bool.or_eq_true, decide_eq_true_eq] at h
  rcases h with (h | rfl) | rfl
  · have range := range_of_isAlphanum h
    simp only [Text.isBlank, Bool.or_eq_false_iff, Bool.and_eq_false_iff, decide_eq_false_iff_not,
      beq_eq_false_iff_ne]
    omega
  · decide
  · decide

/-! ### Tokens -/

namespace Token

def isName : Token → Bool
  | name _ => true
  | _ => false

variable {t : Token}

theorem WellFormed.text_ne_nil (h : t.WellFormed) : t.text.toList ≠ [] := by
  cases t with
  | name n =>
    obtain ⟨first, rest, hn, -⟩ := h
    exact List.ne_nil_of_mem (hn ▸ List.mem_cons_self)
  | _ => decide

/-- No character of a token is a blank. -/
theorem WellFormed.not_isBlank (h : t.WellFormed) :
    ∀ c ∈ t.text.toList, Text.isBlank c = false := by
  cases t with
  | name n =>
    obtain ⟨first, rest, hn, start, parts⟩ := h
    change ∀ c ∈ n.toList, _
    rw [hn, List.forall_mem_cons]
    exact ⟨not_isBlank_of_isNamePart (isNamePart_of_isNameStart start),
      fun c hc => not_isBlank_of_isNamePart (parts c hc)⟩
  | _ => exact List.forall_mem_singleton.mpr (by decide)

end Token

/-! ### Spellings -/

namespace Spells
variable {cs ds : List Char} {ts us : List Token}

theorem append (h : Spells cs ts) (k : Spells ds us) : Spells (cs ++ ds) (ts ++ us) := by
  induction h with
  | nil => exact k
  | gap space _ ih => exact .gap space ih
  | token t formed _ ih =>
    rw [List.append_assoc]
    exact .token t formed ih

theorem single {t : Token} (h : t.WellFormed) : Spells t.text.toList [t] := by
  simpa using Spells.token t h .nil

theorem wellFormed (h : Spells cs ts) : ∀ t ∈ ts, t.WellFormed := by
  induction h with
  | nil => exact fun _ ht => absurd ht List.not_mem_nil
  | gap _ _ ih => exact ih
  | token t formed _ ih => exact List.forall_mem_cons.mpr ⟨formed, ih⟩

/-- A blank in front can only be a gap. -/
theorem of_cons_blank {c : Char} (blank : Text.isBlank c = true) (h : Spells (c :: cs) ts) :
    Spells cs ts := by
  generalize hall : c :: cs = all at h
  cases h with
  | nil => cases hall
  | gap _ rest =>
    obtain ⟨-, rfl⟩ := List.cons.inj hall
    exact rest
  | token t formed rest =>
    obtain ⟨first, others, htext⟩ := List.exists_cons_of_ne_nil formed.text_ne_nil
    rw [htext, List.cons_append] at hall
    have solid := formed.not_isBlank first (htext ▸ List.mem_cons_self)
    rw [(List.cons.inj hall).1] at blank
    exact absurd blank (solid ▸ Bool.false_ne_true)

/-- A blank at the end can only be a gap. -/
theorem of_concat_blank {c : Char} (blank : Text.isBlank c = true) (h : Spells (cs ++ [c]) ts) :
    Spells cs ts := by
  generalize hall : cs ++ [c] = all at h
  induction h generalizing cs with
  | nil => exact absurd hall (by simp)
  | gap space rest ih =>
    cases cs with
    | nil =>
      obtain ⟨-, rfl⟩ := List.cons.inj hall
      exact rest
    | cons d ds =>
      obtain ⟨rfl, hds⟩ := List.cons.inj hall
      exact .gap space (ih hds)
  | @token others ts t formed rest ih =>
    rcases List.eq_nil_or_concat' others with rfl | ⟨init, last, rfl⟩
    · rw [List.append_nil] at hall
      have within : c ∈ t.text.toList := hall ▸ List.mem_append_right _ List.mem_cons_self
      exact absurd blank (formed.not_isBlank c within ▸ Bool.false_ne_true)
    · rw [← List.append_assoc] at hall
      obtain ⟨rfl, hlast⟩ := List.append_inj' hall rfl
      exact .token t formed (ih (congrArg (init ++ ·) hlast))

/-- Blanks around a spelling can be left out. -/
theorem of_blanks {before after : List Char} (hbefore : ∀ c ∈ before, Text.isBlank c = true)
    (hafter : ∀ c ∈ after, Text.isBlank c = true) (h : Spells (before ++ cs ++ after) ts) :
    Spells cs ts := by
  induction before with
  | nil =>
    induction after using List.reverseRecOn with
    | nil => simpa using h
    | append_singleton after c ih =>
      rw [List.forall_mem_append, List.forall_mem_singleton] at hafter
      rw [List.nil_append, ← List.append_assoc] at h
      exact ih hafter.1 (h.of_concat_blank hafter.2)
  | cons c before ih =>
    rw [List.forall_mem_cons] at hbefore
    exact ih hbefore.2 (h.of_cons_blank hbefore.1)

end Spells

/-! ### Derivations -/

/-- No two names are neighbours, so that each ends where its characters end. -/
def Apart (ts : List Token) : Prop :=
  ts.IsChain fun a b => a.isName = true → b.isName = false

theorem Apart.between {ts us : List Token} (t : Token) (h : t.isName = false) (hts : Apart ts)
    (hus : Apart us) : Apart (ts ++ t :: us) := by
  refine List.isChain_append.mpr ⟨hts, List.isChain_cons.mpr ⟨?_, hus⟩, ?_⟩
  · intro u _ name
    rw [h] at name
    cases name
  · intro a _ b hb _
    rw [Option.mem_def, List.head?_cons, Option.some.injEq] at hb
    exact hb ▸ h

theorem Dotted.apart {ts : List Token} {n : String} (h : Dotted ts n) : Apart ts := by
  induction h with
  | name n => exact .singleton _
  | dot m _ ih => exact ih.between .dot rfl (.singleton _)

theorem Dotted.starts {ts : List Token} {n : String} (h : Dotted ts n) :
    ∃ m rest, ts = .name m :: rest := by
  induction h with
  | name n => exact ⟨n, [], rfl⟩
  | dot m _ ih =>
    obtain ⟨first, rest, rfl⟩ := ih
    exact ⟨first, _, rfl⟩

theorem apart_commas (commas : Nat) : Apart (List.replicate commas .comma ++ [.closing]) := by
  induction commas with
  | zero => exact .singleton _
  | succ commas ih =>
    have none : Apart [] := .nil
    exact none.between .comma rfl ih

theorem apart_moreTokens {more : List (List Token × TypeExpr)} (h : ∀ a ∈ more, Apart a.1)
    {ts : List Token} (hts : Apart ts) : Apart (ts ++ moreTokens more) := by
  induction more generalizing ts with
  | nil => simpa using hts
  | cons a more ih =>
    rw [List.forall_mem_cons] at h
    have first := ih h.2 (hts.between .comma rfl h.1)
    rwa [List.append_assoc] at first

namespace Derives
variable {ts : List Token} {t : TypeExpr}

/-- A literal starts with a name. -/
theorem starts (h : Derives ts t) : ∃ n rest, ts = .name n :: rest := by
  induction h with
  | plain dotted => exact dotted.starts
  | generic dotted =>
    obtain ⟨n, rest, rfl⟩ := dotted.starts
    exact ⟨n, _, rfl⟩
  | array commas _ ih =>
    obtain ⟨n, rest, rfl⟩ := ih
    exact ⟨n, _, rfl⟩

theorem apart (h : Derives ts t) : Apart ts := by
  induction h with
  | plain dotted => exact dotted.apart
  | generic dotted _ _ ihFirst ihMore =>
    exact dotted.apart.between .opening rfl
      ((apart_moreTokens ihMore ihFirst).between .closing rfl .nil)
  | array commas _ ih => exact ih.between .opening rfl (apart_commas commas)

end Derives

end ScriptIR.TypeLiteral
