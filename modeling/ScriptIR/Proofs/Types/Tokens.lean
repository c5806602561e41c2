import ScriptIR.Proofs.Types.Grammar

/-!
# Tokens of a text

Reading the tokens of a text is the converse of spelling them. The tokens found in a text spell it;
and tokens of which no two names are neighbours are found in every text that they spell.
-/
namespace ScriptIR.TypeLiteral

/-- The token of a lexeme, unless it is a stray character. -/
def Lexeme.token? : Lexeme → Option Token
  | token t _ => some t
  | stray _ _ => none

/-- The lexemes are the given tokens, with none stray. -/
def AreTokens (lexemes : List Lexeme) (ts : List Token) : Prop :=
  lexemes.map Lexeme.token? = ts.map some

theorem areTokens_nil {ts : List Token} : AreTokens [] ts ↔ ts = [] := by
  rw [AreTokens, List.map_nil, eq_comm, List.map_eq_nil_iff]

theorem areTokens_cons {t : Token} {place : Place} {rest : List Lexeme} {ts : List Token} :
    AreTokens (.token t place :: rest) ts ↔ ∃ us, ts = t :: us ∧ AreTokens rest us := by
  rw [AreTokens, List.map_cons, Lexeme.token?, eq_comm, List.map_eq_cons_iff]
  constructor
  · rintro ⟨u, us, rfl, same, rest⟩
    exact ⟨us, by rw [Option.some.inj same], rest.symm⟩
  · rintro ⟨us, rfl, rest⟩
    exact ⟨t, us, rfl, rfl, rest.symm⟩

theorem not_areTokens_stray {c : Char} {place : Place} {rest : List Lexeme} {ts : List Token} :
    ¬ AreTokens (.stray c place :: rest) ts := by
  cases ts <;> simp [AreTokens, Lexeme.token?]

/-! ### Steps through a text -/

theorem text_of_punctuation? {c : Char} {t : Token} (h : punctuation? c = some t) :
    t.text.toList = [c] ∧ t.WellFormed ∧ isNameStart c = false := by
  unfold punctuation? at h
  repeat' split at h
  all_goals simp_all only [Option.some.injEq, reduceCtorEq]
  all_goals subst h
  all_goals exact ⟨rfl, trivial, rfl⟩

section
variable {place start : Place} {letters cs : List Char} {c : Char}

theorem lexFrom_part (h : isNamePart c = true) :
    lexFrom place (some (letters, start)) (c :: cs) =
      lexFrom (place.after c) (some (c :: letters, start)) cs := by
  simp [lexFrom, h]

/-- A name ends in front of the first character that is no part of it. -/
theorem lexFrom_end (h : ∀ c ∈ cs.head?, isNamePart c = false) :
    lexFrom place (some (letters, start)) cs =
      .token (.name (String.ofList letters.reverse)) start :: lexFrom place none cs := by
  cases cs with
  | nil => simp [lexFrom, finishName]
  | cons c cs =>
    have stops := h c rfl
    simp [lexFrom, stops, finishName]

theorem lexFrom_start (h : isNameStart c = true) :
    lexFrom place none (c :: cs) = lexFrom (place.after c) (some ([c], place)) cs := by
  simp [lexFrom, h, finishName]

theorem lexFrom_punctuation {t : Token} (h : punctuation? c = some t) :
    lexFrom place none (c :: cs) = .token t place :: lexFrom (place.after c) none cs := by
  simp [lexFrom, h, (text_of_punctuation? h).2.2, finishName]

theorem lexFrom_gap (h : isGap c = true) :
    lexFrom place none (c :: cs) = lexFrom (place.after c) none cs := by
  rcases eq_of_isGap h with rfl | rfl | rfl | rfl | rfl <;> rfl

theorem lexFrom_stray (start : isNameStart c = false) (punctuation : punctuation? c = none)
    (gap : isGap c = false) : lexFrom place none (c :: cs) = [.stray c place] := by
  simp [lexFrom, start, punctuation, gap, finishName]

end

/-! ### What is found is spelled -/

/-- A name that has been begun ends as a token of its own. -/
theorem Spells.name {letters cs : List Char} {ts : List Token} (h : IsName letters)
    (rest : Spells cs ts) : Spells (letters ++ cs) (.name (String.ofList letters) :: ts) := by
  have formed : (Token.name (String.ofList letters)).WellFormed := by
    simpa [Token.WellFormed] using h
  simpa [Token.text] using Spells.token (.name (String.ofList letters)) formed rest

theorem IsName.concat {letters : List Char} {c : Char} (h : IsName letters)
    (part : isNamePart c = true) : IsName (letters ++ [c]) := by
  obtain ⟨first, rest, rfl, start, parts⟩ := h
  refine ⟨first, rest ++ [c], rfl, start, List.forall_mem_append.mpr ⟨parts, ?_⟩⟩
  exact List.forall_mem_singleton.mpr part

/-- The tokens that are found in a text spell it, also behind letters of a name
that has been begun. -/
structure FoundSpells (cs : List Char) : Prop where
  fresh : ∀ place ts, AreTokens (lexFrom place none cs) ts → Spells cs ts
  begun : ∀ place letters start ts, IsName letters.reverse →
    AreTokens (lexFrom place (some (letters, start)) cs) ts → Spells (letters.reverse ++ cs) ts

namespace FoundSpells
variable {c : Char} {cs : List Char} (h : FoundSpells cs)
include h

/-- Where no name has been begun, a character begins one, or is a token, or is a gap. -/
theorem cons_fresh (place : Place) (ts : List Token)
    (found : AreTokens (lexFrom place none (c :: cs)) ts) : Spells (c :: cs) ts := by
  cases first : isNameStart c with
  | true =>
    rw [lexFrom_start first] at found
    exact h.begun _ [c] place ts ⟨c, [], rfl, first, by simp⟩ found
  | false =>
    cases mark : punctuation? c with
    | some t =>
      obtain ⟨text, formed, -⟩ := text_of_punctuation? mark
      rw [lexFrom_punctuation mark] at found
      obtain ⟨us, rfl, rest⟩ := areTokens_cons.mp found
      have spelled := Spells.token t formed (h.fresh _ us rest)
      rwa [text] at spelled
    | none =>
      cases space : isGap c with
      | true =>
        rw [lexFrom_gap space] at found
        exact .gap space (h.fresh _ ts found)
      | false =>
        rw [lexFrom_stray first mark space] at found
        exact absurd found not_areTokens_stray

theorem cons : FoundSpells (c :: cs) where
  fresh := h.cons_fresh
  begun place letters start ts name found := by
    cases part : isNamePart c with
    | true =>
      rw [lexFrom_part part] at found
      have longer : IsName (c :: letters).reverse := by simpa using name.concat part
      simpa using h.begun _ (c :: letters) start ts longer found
    | false =>
      rw [lexFrom_end (by simpa using part)] at found
      obtain ⟨us, rfl, rest⟩ := areTokens_cons.mp found
      exact .name name (h.cons_fresh place us rest)

end FoundSpells

theorem foundSpells (cs : List Char) : FoundSpells cs := by
  induction cs with
  | nil =>
    refine ⟨fun _ _ found => areTokens_nil.mp found ▸ .nil, fun _ letters start ts name found => ?_⟩
    obtain ⟨us, rfl, rest⟩ := areTokens_cons.mp found
    exact .name name (areTokens_nil.mp rest ▸ .nil)
  | cons c cs ih => exact ih.cons

/-! ### What is spelled is found -/

/-- Where no name starts, no character of a name stands. -/
theorem Spells.head_not_part {cs : List Char} {ts : List Token} (h : Spells cs ts)
    (head : ∀ t ∈ ts.head?, t.isName = false) : ∀ c ∈ cs.head?, isNamePart c = false := by
  cases h with
  | nil => simp
  | gap space _ =>
    intro d hd
    exact Option.some.inj hd ▸ not_isNamePart_of_isGap space
  | token t _ _ =>
    have other := head t rfl
    cases t with
    | name n => cases other
    | _ => exact fun d hd => Option.some.inj hd ▸ rfl

/-- The letters of a name are read up to its end. -/
theorem lexFrom_parts (rest : List Char) :
    ∀ (parts letters : List Char) (place start : Place), (∀ c ∈ parts, isNamePart c = true) →
      ∃ later, lexFrom place (some (letters, start)) (parts ++ rest) =
        lexFrom later (some (parts.reverse ++ letters, start)) rest := by
  intro parts
  induction parts with
  | nil => exact fun letters place start _ => ⟨place, rfl⟩
  | cons c parts ih =>
    intro letters place start h
    rw [List.forall_mem_cons] at h
    obtain ⟨later, hlater⟩ := ih (c :: letters) (place.after c) start h.2
    refine ⟨later, ?_⟩
    rw [List.cons_append, lexFrom_part h.1, hlater]
    simp

/-- Tokens of which no two names are neighbours are found in what they spell. -/
theorem lexFrom_of_spells {cs : List Char} {ts : List Token} (h : Spells cs ts) (apart : Apart ts) :
    ∀ place, AreTokens (lexFrom place none cs) ts := by
  induction h with
  | nil => exact fun _ => rfl
  | gap space _ ih =>
    intro place
    rw [lexFrom_gap space]
    exact ih apart _
  | @token cs ts t formed rest ih =>
    intro place
    obtain ⟨head, others⟩ := List.isChain_cons.mp apart
    cases t with
    | name n =>
      obtain ⟨first, parts, hn, start, hparts⟩ := formed
      have text : (Token.name n).text.toList = first :: parts := hn
      obtain ⟨later, hlater⟩ := lexFrom_parts cs parts [first] (place.after first) place hparts
      have ends := rest.head_not_part fun u hu => head u hu rfl
      rw [text, List.cons_append, lexFrom_start start, hlater, lexFrom_end ends]
      refine areTokens_cons.mpr ⟨ts, ?_, ih others _⟩
      simp [← hn]
    | _ => exact areTokens_cons.mpr ⟨ts, rfl, ih others _⟩

end ScriptIR.TypeLiteral
