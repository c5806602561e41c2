import ScriptIR.Proofs.Types.Recognition

/-!
# Writing and reading types

The written form of a type is a literal of that type, if the names in it are names of types and its
plain names are no shorthands. Every type that is read is such a type, since what a shorthand stands
for is a name that stands for itself.
-/
namespace ScriptIR

open TypeLiteral

/-- Names with dots between them, and no blanks. -/
inductive IsDottedName : String → Prop
  | name {n : String} : IsName n.toList → IsDottedName n
  | dot {n m : String} : IsDottedName n → IsName m.toList → IsDottedName (n ++ "." ++ m)

/-- The types in which plain names stand for themselves and generic types have arguments. -/
inductive TypeExpr.WellNamed : TypeExpr → Prop
  | named {n : String} : IsDottedName n → ofName n = named n → WellNamed (named n)
  | generic {n : String} {arguments : List TypeExpr} :
      IsDottedName n → arguments ≠ [] → (∀ a ∈ arguments, WellNamed a) →
      WellNamed (generic n arguments)
  | array {element : TypeExpr} : WellNamed element → WellNamed (array element)

namespace TypeLiteral

/-! ### The written form is a literal -/

theorem spells_dottedName {n : String} (h : IsDottedName n) :
    ∃ ts, Spells n.toList ts ∧ Dotted ts n := by
  induction h with
  | @name n hn => exact ⟨[.name n], .single (t := .name n) hn, .name n⟩
  | @dot n m _ hm ih =>
    obtain ⟨ts, spelled, dotted⟩ := ih
    have behind : Spells ('.' :: m.toList) [.dot, .name m] :=
      .token .dot trivial (.single (t := .name m) hm)
    refine ⟨ts ++ [.dot, .name m], ?_, dotted.dot m⟩
    simpa using spelled.append behind

/-- The type is written as a literal of itself. -/
def Readable (t : TypeExpr) : Prop :=
  ∃ ts, Spells t.text.toList ts ∧ Derives ts t

/-- Arguments are written with commas between them. -/
theorem spells_texts {first : TypeExpr} {rest : List TypeExpr}
    (h : ∀ t ∈ first :: rest, Readable t) :
    ∃ us more, Derives us first ∧ (∀ a ∈ more, Derives a.1 a.2) ∧ more.map Prod.snd = rest ∧
      Spells (",".intercalate (TypeExpr.texts (first :: rest))).toList (us ++ moreTokens more) := by
  rw [List.forall_mem_cons] at h
  obtain ⟨⟨us, spelled, derived⟩, others⟩ := h
  induction rest generalizing first us with
  | nil =>
    refine ⟨us, [], derived, by simp, rfl, ?_⟩
    simpa [TypeExpr.texts] using spelled
  | cons second rest ih =>
    rw [List.forall_mem_cons] at others
    obtain ⟨⟨vs, spelledSecond, derivedSecond⟩, others⟩ := others
    obtain ⟨ws, more, next, all, same, behind⟩ := ih others vs spelledSecond derivedSecond
    refine ⟨us, (ws, second) :: more, derived, List.forall_mem_cons.mpr ⟨next, all⟩,
      by rw [List.map_cons, same], ?_⟩
    have comma := spelled.append (.token .comma trivial behind)
    rw [TypeExpr.texts, TypeExpr.texts, String.intercalate_cons_cons, ← TypeExpr.texts]
    simpa [Token.text] using comma

theorem readable_of_wellNamed {t : TypeExpr} (h : t.WellNamed) : Readable t := by
  induction h with
  | named dotted itself =>
    obtain ⟨ts, spelled, hts⟩ := spells_dottedName dotted
    exact ⟨ts, spelled, .plain hts (names_iff.mpr itself.symm)⟩
  | @generic n arguments dotted nonempty _ ih =>
    obtain ⟨ts, spelled, hts⟩ := spells_dottedName dotted
    obtain ⟨first, rest, rfl⟩ := List.exists_cons_of_ne_nil nonempty
    obtain ⟨us, more, derived, all, rfl, inside⟩ := spells_texts ih
    refine ⟨_, ?_, .generic hts derived all⟩
    have closed := inside.append (.single (t := .closing) trivial)
    have whole := spelled.append (.token .opening trivial closed)
    rw [TypeExpr.text]
    simpa [Token.text] using whole
  | array _ ih =>
    obtain ⟨ts, spelled, derived⟩ := ih
    refine ⟨_, ?_, derived.array 0⟩
    have brackets : Spells ['[', ']'] (rankTokens 0) :=
      .token .opening trivial (.single (t := .closing) trivial)
    rw [TypeExpr.text, String.toList_append]
    exact spelled.append brackets

theorem parse_text {t : TypeExpr} (h : t.WellNamed) : parse t.text = .ok t := by
  obtain ⟨ts, spelled, derived⟩ := readable_of_wellNamed h
  exact parse_of_written (.literal spelled derived)

/-! ### What is read is well named -/

instance (cs : List Char) : Decidable (IsName cs) :=
  match cs with
  | [] => isFalse (by rintro ⟨c, rest, absurd, -⟩; cases absurd)
  | c :: rest => decidable_of_iff (isNameStart c = true ∧ rest.all isNamePart = true)
      ⟨fun h => ⟨c, rest, rfl, h.1, List.all_eq_true.mp h.2⟩, by
        rintro ⟨_, _, same, start, parts⟩
        cases same
        exact ⟨start, List.all_eq_true.mpr parts⟩⟩

/-- What shorthands stand for are names that stand for themselves. -/
theorem accelerators_stand : ∀ e ∈ TypeExpr.accelerators,
    IsName e.2.toList ∧ TypeExpr.ofName e.2 = .named e.2 := by
  decide

theorem wellNamed_ofName {n : String} (h : IsDottedName n) : (TypeExpr.ofName n).WellNamed := by
  cases shorthand : TypeExpr.accelerators.lookup (TypeExpr.lowerName n) with
  | none =>
    have itself : TypeExpr.ofName n = .named n := by
      rw [TypeExpr.ofName, shorthand, Option.getD_none]
    rw [itself]
    exact .named h itself
  | some m =>
    have listed : (TypeExpr.lowerName n, m) ∈ TypeExpr.accelerators := by
      obtain ⟨before, after, split, -⟩ := List.lookup_eq_some_iff.mp shorthand
      rw [split]
      exact List.mem_append_right _ List.mem_cons_self
    obtain ⟨name, itself⟩ := accelerators_stand (TypeExpr.lowerName n, m) listed
    rw [TypeExpr.ofName, shorthand, Option.getD_some]
    exact .named (.name name) itself

theorem isDottedName_of_dotted {ts : List Token} {n : String} (h : Dotted ts n)
    (formed : ∀ t ∈ ts, t.WellFormed) : IsDottedName n := by
  induction h with
  | name n => exact .name (formed _ List.mem_cons_self)
  | dot m _ ih =>
    obtain ⟨before, behind⟩ := List.forall_mem_append.mp formed
    exact .dot (ih before) (behind (.name m) (by simp))

theorem wellNamed_of_derives {ts : List Token} {type : TypeExpr} (h : Derives ts type)
    (formed : ∀ t ∈ ts, t.WellFormed) : type.WellNamed := by
  induction h with
  | plain dotted names =>
    rw [names_iff.mp names]
    exact wellNamed_ofName (isDottedName_of_dotted dotted formed)
  | @generic ts us n first more dotted _ _ ihFirst ihMore =>
    simp only [List.forall_mem_append, List.forall_mem_cons] at formed
    obtain ⟨names, -, ⟨inside, others⟩, -⟩ := formed
    refine .generic (isDottedName_of_dotted dotted names) (List.cons_ne_nil _ _) ?_
    refine List.forall_mem_cons.mpr ⟨ihFirst inside, fun t ht => ?_⟩
    obtain ⟨a, ha, rfl⟩ := List.mem_map.mp ht
    refine ihMore a ha fun t ht => others t (List.mem_flatMap.mpr ⟨a, ha, ?_⟩)
    exact List.mem_cons_of_mem _ ht
  | array commas _ ih => exact .array (ih (List.forall_mem_append.mp formed).1)

theorem wellNamed_of_parse {text : String} {type : TypeExpr} (h : parse text = .ok type) :
    type.WellNamed := by
  obtain ⟨ts, spelled, derived⟩ := readFrom_lex_eq_ok.mp (parse_eq_ok.mp h)
  exact wellNamed_of_derives derived spelled.wellFormed

/-- Reading takes back what writing a type has made, for every type whose plain names are no
shorthands. What is read from a text is such a type, so that reading its written form gives it
again. -/
theorem parse_text_inverse :
    (∀ t : TypeExpr, t.WellNamed → parse t.text = .ok t) ∧
      ∀ text t, parse text = .ok t → t.WellNamed ∧ parse t.text = .ok t :=
  ⟨fun _ h => parse_text h, fun _ _ h => ⟨wellNamed_of_parse h, parse_text (wellNamed_of_parse h)⟩⟩

/-- A generic type whose name would be a shorthand if it were plain, with an array and another
generic type inside; and a shorthand in brackets. -/
theorem parse_text_inverse_nested :
    (TypeExpr.generic "int" [.array (.named "string"),
      .generic "A.B" [.named "Int64x"]]).WellNamed ∧
      parse "int[string[],A.B[Int64x]]" =
        .ok (.generic "int" [.array (.named "string"), .generic "A.B" [.named "Int64x"]]) ∧
      parse "[Int]" = .ok (.named "integer") ∧ (TypeExpr.named "integer").WellNamed ∧
      parse "integer" = .ok (.named "integer") := by
  have string : TypeExpr.WellNamed (.named "string") := .named (.name (by decide)) (by decide)
  have other : TypeExpr.WellNamed (.named "Int64x") := .named (.name (by decide)) (by decide)
  have dotted : IsDottedName "A.B" := .dot (n := "A") (m := "B") (.name (by decide)) (by decide)
  have inner : TypeExpr.WellNamed (.generic "A.B" [.named "Int64x"]) :=
    .generic dotted (by simp) (by simpa using other)
  have outer : TypeExpr.WellNamed
      (.generic "int" [.array (.named "string"), .generic "A.B" [.named "Int64x"]]) :=
    .generic (.name (by decide)) (by simp) (by simpa using ⟨.array string, inner⟩)
  have accepted : parse "[Int]" = .ok (.named "integer") := by decide +kernel
  exact ⟨outer, parse_text_inverse.1 _ outer, accepted, parse_text_inverse.2 _ _ accepted⟩

end TypeLiteral

end ScriptIR
