import ScriptIR.Proofs.Text.Letters
import ScriptIR.Proofs.Types.Tokens

/-!
# Type literals in other letters

Case makes no difference to what is a type literal. A literal with letters in another case is taken
apart at the same places, and denotes the same type but for the case of the names in it; of a name
that is shorthand for another one, not even that is left.
-/
namespace ScriptIR

open Text (uncased toLower_eq_iff toLower_invariant uncased_append toList_uncased)

/-! ### Types -/

namespace TypeExpr

mutual
/-- The type with all names in lower case. -/
def uncased : TypeExpr → TypeExpr
  | unknown => unknown
  | named name => named (Text.uncased name)
  | array element => array element.uncased
  | generic name arguments => generic (Text.uncased name) (uncasedAll arguments)

def uncasedAll : List TypeExpr → List TypeExpr
  | [] => []
  | t :: ts => t.uncased :: uncasedAll ts
end

theorem uncasedAll_append (ts us : List TypeExpr) :
    uncasedAll (ts ++ us) = uncasedAll ts ++ uncasedAll us := by
  induction ts with
  | nil => rfl
  | cons t ts ih => simp only [List.cons_append, uncasedAll, ih]

theorem isUnknown_uncased (t : TypeExpr) : t.uncased.isUnknown = t.isUnknown := by
  cases t <;> rfl

/-- The first known one of two types is at the same place whatever the case of their names. -/
theorem firstKnown_uncased (s t : TypeExpr) :
    firstKnown [s.uncased, t.uncased] = (firstKnown [s, t]).uncased := by
  cases hs : s.isUnknown <;> cases ht : t.isUnknown <;>
    simp [firstKnown, isUnknown_uncased, hs, ht, uncased]

theorem lowerLetter_toLower (c : Char) : lowerLetter c.toLower = lowerLetter c :=
  toLower_invariant lowerLetter (by decide) c

theorem accelerators_uncased : ∀ e ∈ accelerators, Text.uncased e.2 = e.2 := by
  decide

/-- Names are compared with the shorthands regardless of case. -/
theorem ofName_uncased (name : String) : ofName (Text.uncased name) = (ofName name).uncased := by
  have folded : lowerName (Text.uncased name) = lowerName name := by
    have letters : lowerLetter ∘ Char.toLower = lowerLetter := funext lowerLetter_toLower
    rw [lowerName, toList_uncased, List.map_map, letters, lowerName]
  rw [ofName, folded, ofName]
  cases found : accelerators.lookup (lowerName name) with
  | none => rfl
  | some long =>
    obtain ⟨before, after, split, -⟩ := List.lookup_eq_some_iff.mp found
    have listed : (lowerName name, long) ∈ accelerators := by simp [split]
    rw [Option.getD_some, Option.getD_some, uncased, accelerators_uncased _ listed]

end TypeExpr

namespace TypeLiteral

/-! ### Tokens -/

def Token.uncased : Token → Token
  | name text => name (Text.uncased text)
  | other => other

def Lexeme.uncased : Lexeme → Lexeme
  | token t place => token t.uncased place
  | stray c place => stray c.toLower place

section
variable (c : Char)

@[simp] theorem isNameStart_toLower : isNameStart c.toLower = isNameStart c :=
  toLower_invariant isNameStart (by decide) c

@[simp] theorem isNamePart_toLower : isNamePart c.toLower = isNamePart c :=
  toLower_invariant isNamePart (by decide) c

@[simp] theorem isGap_toLower : isGap c.toLower = isGap c :=
  toLower_invariant isGap (by decide) c

@[simp] theorem punctuation?_toLower : punctuation? c.toLower = punctuation? c :=
  toLower_invariant punctuation? (by decide) c

@[simp] theorem Place.after_toLower (place : Place) : place.after c.toLower = place.after c := by
  have newline : c.toLower = '\n' ↔ c = '\n' := toLower_eq_iff (by decide)
  simp only [Place.after, newline]

end

theorem Token.uncased_of_punctuation? {c : Char} {t : Token} (h : punctuation? c = some t) :
    t.uncased = t := by
  unfold punctuation? at h
  repeat' split at h
  all_goals cases h
  all_goals rfl

theorem Lexeme.uncased_name (letters : List Char) (start : Place) :
    Lexeme.uncased (.token (.name (String.ofList letters)) start) =
      .token (.name (String.ofList (letters.map Char.toLower))) start := by
  simp [uncased, Token.uncased, Text.uncased]

/-- The same tokens are found at the same places, also behind letters of a name
that has been begun. -/
structure FoundUncased (cs : List Char) : Prop where
  fresh : ∀ place, lexFrom place none (cs.map Char.toLower) =
    (lexFrom place none cs).map Lexeme.uncased
  begun : ∀ place letters start,
    lexFrom place (some (letters.map Char.toLower, start)) (cs.map Char.toLower) =
      (lexFrom place (some (letters, start)) cs).map Lexeme.uncased

namespace FoundUncased
variable {c : Char} {cs : List Char}

theorem nil : FoundUncased [] where
  fresh place := rfl
  begun place letters start := by
    simp [lexFrom, finishName, Lexeme.uncased_name]

theorem cons_fresh (h : FoundUncased cs) (place : Place) :
    lexFrom place none ((c :: cs).map Char.toLower) =
      (lexFrom place none (c :: cs)).map Lexeme.uncased := by
  rw [List.map_cons]
  cases start : isNameStart c with
  | true =>
    rw [lexFrom_start start, lexFrom_start ((isNameStart_toLower c).trans start),
      Place.after_toLower]
    exact h.begun _ [c] place
  | false =>
    cases mark : punctuation? c with
    | some t =>
      rw [lexFrom_punctuation mark, lexFrom_punctuation ((punctuation?_toLower c).trans mark),
        Place.after_toLower, h.fresh, List.map_cons, Lexeme.uncased,
          Token.uncased_of_punctuation? mark]
    | none =>
      cases gap : isGap c with
      | true =>
        rw [lexFrom_gap gap, lexFrom_gap ((isGap_toLower c).trans gap),
          Place.after_toLower, h.fresh]
      | false =>
        rw [lexFrom_stray start mark gap, lexFrom_stray ((isNameStart_toLower c).trans start)
          ((punctuation?_toLower c).trans mark) ((isGap_toLower c).trans gap)]
        rfl

theorem cons (h : FoundUncased cs) : FoundUncased (c :: cs) where
  fresh := h.cons_fresh
  begun place letters start := by
    cases part : isNamePart c with
    | true =>
      rw [List.map_cons, lexFrom_part part, lexFrom_part ((isNamePart_toLower c).trans part),
        Place.after_toLower]
      exact h.begun _ (c :: letters) start
    | false =>
      -- The name ends here, and what follows is found as if none had been begun.
      rw [lexFrom_end (by simpa using part), lexFrom_end (by simpa using part), h.cons_fresh,
        List.map_cons, Lexeme.uncased_name, List.map_reverse]

end FoundUncased

theorem foundUncased (cs : List Char) : FoundUncased cs := by
  induction cs with
  | nil => exact .nil
  | cons c cs ih => exact ih.cons

/-! ### Readers -/

def Focus.uncased : Focus → Focus
  | .start => .start
  | .name n => .name (Text.uncased n)
  | .dotted n => .dotted (Text.uncased n)
  | .opened n => .opened (Text.uncased n)
  | .rank element => .rank element.uncased
  | .complete type => .complete type.uncased

def Frame.uncased (f : Frame) : Frame :=
  ⟨Text.uncased f.name, TypeExpr.uncasedAll f.arguments⟩

namespace Reader

def uncased (r : Reader) : Reader :=
  ⟨r.focus.uncased, r.frames.map Frame.uncased⟩

variable (r : Reader)

theorem type?_uncased : r.uncased.type? = r.type?.map TypeExpr.uncased := by
  obtain ⟨focus, frames⟩ := r
  cases focus <;> simp [uncased, Focus.uncased, type?, TypeExpr.ofName_uncased]

theorem result?_uncased : r.uncased.result? = r.result?.map TypeExpr.uncased := by
  unfold result?
  rw [type?_uncased, uncased, List.isEmpty_map]
  split <;> rfl

theorem endArgument_uncased (t : Token) :
    r.uncased.endArgument t.uncased = (r.endArgument t).map uncased := by
  have frames : r.uncased.frames = r.frames.map Frame.uncased := rfl
  rw [endArgument, endArgument, type?_uncased, frames]
  cases r.type? with
  | none => rfl
  | some type =>
    cases r.frames with
    | nil => rfl
    | cons frame rest =>
      cases t <;> simp [Token.uncased, uncased, Focus.uncased, Frame.uncased, TypeExpr.uncased,
        TypeExpr.uncasedAll, TypeExpr.uncasedAll_append]

/-- A reader takes a token in any case, and comes to stand at the same place. -/
theorem step_uncased (t : Token) : r.uncased.step t.uncased = (r.step t).map uncased := by
  obtain ⟨focus, frames⟩ := r
  have dot : Text.uncased "." = "." := Text.uncased_of_caseless (by decide)
  have behind := endArgument_uncased ⟨focus, frames⟩ t
  cases focus <;> cases t
  all_goals first
    | exact behind
    | simp [step, uncased, Focus.uncased, Token.uncased, Frame.uncased, TypeExpr.uncased,
        TypeExpr.uncasedAll, TypeExpr.ofName_uncased, uncased_append, dot]

end Reader

theorem readFrom_uncased (r : Reader) (last : Place) (ls : List Lexeme) :
    (readFrom r.uncased last (ls.map Lexeme.uncased)).toOption =
      (readFrom r last ls).toOption.map TypeExpr.uncased := by
  induction ls generalizing r last with
  | nil =>
    rw [List.map_nil, readFrom, readFrom, r.result?_uncased]
    cases r.result? <;> rfl
  | cons l ls ih =>
    cases l with
    | stray c place => rfl
    | token t place =>
      rw [List.map_cons, Lexeme.uncased, readFrom, readFrom, r.step_uncased]
      cases r.step t with
      | none => rfl
      | some next => exact ih next place

/-! ### Whole literals -/

theorem closesEarly_toLower (depth : Nat) (cs : List Char) :
    closesEarly depth (cs.map Char.toLower) = closesEarly depth cs := by
  have opening : ∀ c : Char, c.toLower = '[' ↔ c = '[' := fun c => toLower_eq_iff (by decide)
  have closing : ∀ c : Char, c.toLower = ']' ↔ c = ']' := fun c => toLower_eq_iff (by decide)
  fun_induction closesEarly depth cs with
  | case1 | case2 => rfl
  | case3 | case4 | case5 => simp_all [closesEarly]

theorem isEnclosed_toLower (cs : List Char) : isEnclosed (cs.map Char.toLower) = isEnclosed cs := by
  have bracket : ∀ {d : Char}, d.isAlpha = false → ∀ o : Option Char,
      (o.map Char.toLower == some d) = (o == some d) := by
    intro d hd o
    cases o with
    | none => rfl
    | some c => rw [Option.map_some, Bool.eq_iff_iff, beq_iff_eq, beq_iff_eq, Option.some_inj,
        Option.some_inj, toLower_eq_iff hd]
  rw [isEnclosed, List.head?_map, List.getLast?_map, closesEarly_toLower,
    bracket (by decide), bracket (by decide), isEnclosed]

theorem stripWith_toLower (fuel : Nat) (cs : List Char) :
    stripWith fuel (cs.map Char.toLower) = (stripWith fuel cs).map Char.toLower := by
  induction fuel generalizing cs with
  | zero => rfl
  | succ fuel ih =>
    rw [stripWith, stripWith, isEnclosed_toLower]
    split
    · rw [← ih, ← Text.trimChars_toLower, List.map_dropLast, List.map_tail]
    · rfl

theorem body_uncased (text : String) : body (Text.uncased text) = (body text).map Char.toLower := by
  rw [body, stripBrackets, toList_uncased, Text.trimChars_toLower, stripWith_toLower,
    List.length_map,
    body, stripBrackets]

/-- A text in any case denotes the same type, but for the case of its names, or none. -/
theorem parse_uncased (text : String) :
    (parse (Text.uncased text)).toOption = (parse text).toOption.map TypeExpr.uncased := by
  have mapError : ∀ {ε ε' : Type} (f : ε → ε') (e : Except ε TypeExpr),
      (e.mapError f).toOption = e.toOption := by
    intro _ _ _ e
    cases e <;> rfl
  unfold parse
  rw [body_uncased]
  cases body text with
  | nil => rfl
  | cons c cs =>
    have read := readFrom_uncased {} {} (lex (c :: cs))
    have found : lex ((c :: cs).map Char.toLower) = (lex (c :: cs)).map Lexeme.uncased :=
      (foundUncased _).fresh {}
    rw [List.map_cons] at found ⊢
    dsimp only
    rw [mapError, mapError, found]
    exact read

theorem parse_of_uncased_eq {text text' : String} (h : uncased text' = uncased text) :
    (parse text').toOption.map TypeExpr.uncased = (parse text).toOption.map TypeExpr.uncased := by
  rw [← parse_uncased, h, parse_uncased]

end TypeLiteral

end ScriptIR
