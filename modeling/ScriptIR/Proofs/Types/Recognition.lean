import ScriptIR.Proofs.Types.Brackets
import ScriptIR.Proofs.Types.Reading

/-!
# Which texts are type literals

A text is accepted exactly if the grammar writes it, and then its type is the one that the grammar
gives it. Brackets around a literal are told from the brackets of a literal by their levels: a
literal starts with a name, and what it opens it closes.
-/
namespace ScriptIR.TypeLiteral

/-! ### Brackets of literals -/

/-- The brackets that a token is. -/
def Token.brackets : Token → List Char
  | opening => ['[']
  | closing => [']']
  | _ => []

theorem isNamePart_plain {c : Char} (h : isNamePart c = true) : c ≠ '[' ∧ c ≠ ']' := by
  constructor <;> rintro rfl <;> cases h

theorem isBlank_plain {c : Char} (h : Text.isBlank c = true) : c ≠ '[' ∧ c ≠ ']' := by
  constructor <;> rintro rfl <;> cases h

/-- Names, dots, commas and gaps leave the level as it is. -/
theorem level_of_spells {cs : List Char} {ts : List Token} (h : Spells cs ts) (rest : List Char) :
    ∀ depth, level depth (cs ++ rest) = level depth (ts.flatMap Token.brackets ++ rest) := by
  induction h with
  | nil => exact fun _ => rfl
  | gap space _ ih =>
    intro depth
    have plain := isBlank_plain (isBlank_of_isGap space)
    rw [List.cons_append, level_other plain.1 plain.2, ih]
  | token t formed _ ih =>
    intro depth
    rw [List.flatMap_cons, List.append_assoc, List.append_assoc]
    cases t with
    | name n =>
      obtain ⟨first, others, hn, start, parts⟩ := formed
      have letters : ∀ c ∈ n.toList, c ≠ '[' ∧ c ≠ ']' := by
        rw [hn, List.forall_mem_cons]
        exact ⟨isNamePart_plain (isNamePart_of_isNameStart start),
          fun c hc => isNamePart_plain (parts c hc)⟩
      exact (level_append_of_plain letters depth _).trans (ih depth)
    | opening => exact ih (depth + 1)
    | closing =>
      cases depth with
      | zero => rfl
      | succ depth => exact ih depth
    | comma => exact ih depth
    | dot => exact ih depth

theorem Dotted.brackets {ts : List Token} {n : String} (h : Dotted ts n) :
    ts.flatMap Token.brackets = [] := by
  induction h with
  | name n => rfl
  | dot m _ ih => simp [ih, Token.brackets]

theorem brackets_rankTokens (commas : Nat) :
    (rankTokens commas).flatMap Token.brackets = ['[', ']'] := by
  simp [rankTokens, Token.brackets]

/-- The tokens close every bracket that they open, and no other. -/
def Balanced (ts : List Token) : Prop :=
  ∀ rest depth, level depth (ts.flatMap Token.brackets ++ rest) = level depth rest

theorem balanced_moreTokens {more : List (List Token × TypeExpr)}
    (h : ∀ a ∈ more, Balanced a.1) : Balanced (moreTokens more) := by
  induction more with
  | nil => exact fun _ _ => rfl
  | cons a more ih =>
    rw [List.forall_mem_cons] at h
    intro rest depth
    rw [moreTokens_cons, List.flatMap_cons, List.flatMap_append, List.append_assoc,
      List.append_assoc]
    exact (h.1 _ depth).trans (ih h.2 rest depth)

theorem Derives.balanced {ts : List Token} {type : TypeExpr} (h : Derives ts type) :
    Balanced ts := by
  induction h with
  | plain dotted =>
    intro rest depth
    rw [dotted.brackets, List.nil_append]
  | generic dotted _ _ ihFirst ihMore =>
    intro rest depth
    simp only [List.flatMap_append, List.flatMap_cons, List.flatMap_nil, dotted.brackets,
      Token.brackets, List.nil_append, List.append_assoc, List.cons_append]
    rw [level_opening, ihFirst, balanced_moreTokens ihMore, level_closing]
  | array commas _ ih =>
    intro rest depth
    rw [List.flatMap_append, brackets_rankTokens, List.append_assoc, ih, List.cons_append,
      level_opening, List.cons_append, level_closing]
    rfl

theorem level_of_written {cs : List Char} {type : TypeExpr} (h : Written cs type) :
    ∀ rest depth, level depth (cs ++ rest) = level depth rest := by
  induction h with
  | literal spelled derived =>
    intro rest depth
    rw [level_of_spells spelled, derived.balanced]
  | bracketed _ ih =>
    intro rest depth
    rw [List.cons_append, List.append_assoc, level_opening, ih, List.cons_append, level_closing]
    rfl
  | blanks before after hbefore hafter _ ih =>
    intro rest depth
    rw [List.append_assoc, List.append_assoc,
      level_append_of_plain fun c hc => isBlank_plain (hbefore c hc), ih,
      level_append_of_plain fun c hc => isBlank_plain (hafter c hc)]

/-! ### Stripping what is written -/

/-- A literal is not enclosed in brackets. -/
theorem isEnclosed_of_spells {cs : List Char} {ts : List Token} {type : TypeExpr}
    (spelled : Spells cs ts) (derived : Derives ts type) : isEnclosed cs = false := by
  obtain ⟨n, rest, rfl⟩ := derived.starts
  cases henclosed : isEnclosed cs with
  | false => rfl
  | true =>
    obtain ⟨inside, rfl⟩ := eq_of_isEnclosed henclosed
    generalize hall : '[' :: (inside ++ [']']) = all at spelled
    cases spelled with
    | gap space _ =>
      obtain ⟨rfl, -⟩ := List.cons.inj hall
      cases space
    | token _ formed _ =>
      obtain ⟨first, others, hn, start, -⟩ := formed
      have text : (Token.name n).text.toList = first :: others := hn
      rw [text, List.cons_append] at hall
      obtain ⟨rfl, -⟩ := List.cons.inj hall
      cases start

/-- Stripping what is written leaves a literal. -/
theorem spells_body_of_written {cs : List Char} {type : TypeExpr} (h : Written cs type) :
    ∃ ts, Spells (stripBrackets (Text.trimChars cs)) ts ∧ Derives ts type := by
  induction h with
  | @literal cs ts type spelled derived =>
    obtain ⟨before, after, hbefore, hafter, split⟩ := Text.trimChars_split cs
    have trimmed : Spells (Text.trimChars cs) ts := .of_blanks hbefore hafter (split ▸ spelled)
    rw [stripBrackets_of_not (isEnclosed_of_spells trimmed derived)]
    exact ⟨ts, trimmed, derived⟩
  | @bracketed cs type written ih =>
    have inside : level 0 cs = some 0 := by
      have same := level_of_written written [] 0
      rwa [List.append_nil] at same
    have kept : Text.trimChars ('[' :: (cs ++ [']'])) = '[' :: (cs ++ [']']) :=
      Text.trimChars_between cs [] rfl rfl
    rw [kept, stripBrackets_of_isEnclosed (isEnclosed_of_level inside)]
    exact ih
  | blanks before after hbefore hafter _ ih =>
    rw [Text.trimChars_blanks hbefore hafter]
    exact ih

theorem Written.of_trimChars {cs : List Char} {type : TypeExpr}
    (h : Written (Text.trimChars cs) type) : Written cs type := by
  obtain ⟨before, after, hbefore, hafter, split⟩ := Text.trimChars_split cs
  rw [split]
  exact .blanks before after hbefore hafter h

/-! ### Whole texts -/

variable {text : String} {type : TypeExpr}

theorem parse_eq_ok : parse text = .ok type ↔ readFrom {} {} (lex (body text)) = .ok type := by
  unfold parse
  split
  next nothing =>
    rw [nothing]
    constructor <;> exact fun absurd => by cases absurd
  next => cases readFrom {} {} (lex (body text)) <;> simp [Except.mapError]

/-- The type that a text is accepted with is the type that it is written for. -/
theorem written_of_parse (h : parse text = .ok type) : Written text.toList type := by
  obtain ⟨ts, spelled, derived⟩ := readFrom_lex_eq_ok.mp (parse_eq_ok.mp h)
  refine .of_trimChars (of_stripBrackets (P := (Written · type)) ?_ ?_ (.literal spelled derived))
  · exact fun _ => .bracketed
  · exact fun _ => .of_trimChars

/-- What is written for a type is accepted with that type. -/
theorem parse_of_written (h : Written text.toList type) : parse text = .ok type :=
  parse_eq_ok.mpr (readFrom_lex_eq_ok.mpr (spells_body_of_written h))

/-- A refused text is named by the refusal. -/
theorem text_of_parse_eq_error {e : Invalid} (h : parse text = .error e) : e.text = text := by
  unfold parse at h
  split at h
  next => cases h; rfl
  next =>
    cases hread : readFrom {} {} (lex (body text)) with
    | ok type => simp [hread, Except.mapError] at h
    | error reason =>
      simp only [hread, Except.mapError] at h
      cases h
      rfl

/-- A text is accepted with a type exactly if it is written for that type, and refused exactly if it
is written for none. -/
theorem parse_iff_written (text : String) :
    (∀ type, parse text = .ok type ↔ Written text.toList type) ∧
      ((∃ reason, parse text = .error ⟨text, reason⟩) ↔ ∀ type, ¬ Written text.toList type) := by
  refine ⟨fun type => ⟨written_of_parse, parse_of_written⟩, ?_, fun none => ?_⟩
  · rintro ⟨reason, refused⟩ type written
    rw [parse_of_written written] at refused
    cases refused
  · cases h : parse text with
    | ok type => exact absurd (written_of_parse h) (none type)
    | error e =>
      obtain ⟨refused, reason⟩ := e
      obtain rfl : refused = text := text_of_parse_eq_error h
      exact ⟨reason, rfl⟩

/-- Outside and inside brackets any blanks may stand, in the literal only gaps. -/
example : parse "\u00A0[\u00A0[List [ int, A.b[,]\t]]]" =
    .ok (.generic "List" [.named "integer", .array (.named "A.b")]) := by decide +kernel

end ScriptIR.TypeLiteral
