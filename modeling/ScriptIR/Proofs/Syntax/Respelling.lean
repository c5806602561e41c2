import ScriptIR.Proofs.Lowering.Retagging
import ScriptIR.Proofs.Syntax.Loading

/-!
# Spellings of a document

Some fields of nodes and locations can be spelled in two ways, and a tag can have `Ast` behind it.
`Json.Respelled` changes one spelling at one node. Loading looks at a node through few readings of
its entries (`Document.SameFields`), which no such change alters; so documents that differ in
spellings become trees that differ in their tags only, or neither becomes one, for the same reason.
-/
namespace ScriptIR

/-! ### Respelled documents -/

namespace Document

/-- The fields of a node that have two spellings. -/
def nodeSpellings : List (String × String) :=
  [("type", "kind"), ("unaryType", "unary_token"), ("codeType", "type_annotation")]

/-- The numbers of a location, each with its two spellings. -/
def placeSpellings : List (String × String) :=
  [("startLine", "line"), ("startColumn", "column"), ("endLine", "end_line"),
    ("endColumn", "end_column")]

/-- One key, of which the other spelling is not there, takes the other spelling. -/
inductive KeyRespelled (spellings : List (String × String)) :
    Dictionary Json → Dictionary Json → Prop
  | mk {key other : String} (before : Dictionary Json) (v : Json) (after : Dictionary Json) :
      (key, other) ∈ spellings ∨ (other, key) ∈ spellings →
      (∀ e ∈ before ++ after, e.1 ≠ key ∧ e.1 ≠ other) →
      KeyRespelled spellings (before ++ (key, v) :: after) (before ++ (other, v) :: after)

end Document

/-- At one of the nodes that the document offers, one key of the node or of its location takes its
other spelling, or its tag, which does not end in `Ast`, takes this behind it. -/
inductive Json.Respelled : Json → Json → Prop
  | key {entries entries' : Dictionary Json} :
      Document.KeyRespelled Document.nodeSpellings entries entries' →
      Respelled (.object entries) (.object entries')
  | placeKey (before : Dictionary Json) {place place' : Dictionary Json}
      (after : Dictionary Json) : Document.KeyRespelled Document.placeSpellings place place' →
      Respelled (.object (before ++ ("location", .object place) :: after))
        (.object (before ++ ("location", .object place') :: after))
  | tag (before : Dictionary Json) {key tag : String} (after : Dictionary Json) :
      key = "type" ∨ key = "kind" → tag ≠ "" → ¬"Ast".toList <:+ tag.toList →
      Respelled (.object (before ++ (key, .string tag) :: after))
        (.object (before ++ (key, .string (tag ++ "Ast")) :: after))
  | child (before : Dictionary Json) (inFront : List Json) {item item' : Json} (behind : List Json)
      (after : Dictionary Json) : Respelled item item' →
      Respelled (.object (before ++ ("children", .array (inFront ++ item :: behind)) :: after))
        (.object (before ++ ("children", .array (inFront ++ item' :: behind)) :: after))

/-! ### Lookups -/

namespace Dictionary
variable {α β : Type} {before after : Dictionary α} {v w : α} {key other : String}

theorem get?_append (d e : Dictionary α) (key : String) :
    get? (d ++ e) key = (get? d key).or (get? e key) := by
  rw [get?, List.find?_append, get?, get?]
  cases List.find? (fun x => x.1 == key) d <;> rfl

/-- A key that is nowhere else is found with its own value, and all others are found without it. -/
theorem get?_spliced (h : get? (before ++ after) key = none) (other : String) :
    get? (before ++ (key, v) :: after) other =
      if key = other then some v else get? (before ++ after) other := by
  rw [get?_append, Option.or_eq_none_iff] at h
  simp only [get?_append, get?_cons]
  split
  next same => rw [← same, h.1, Option.none_or]
  next => rfl

/-- Only the changed entry can be found with another value. -/
theorem get?_changed (before after : Dictionary α) (key : String) (v w : α) (other : String) :
    get? (before ++ (key, w) :: after) other = get? (before ++ (key, v) :: after) other ∨
      other = key ∧ get? (before ++ (key, v) :: after) other = some v ∧
        get? (before ++ (key, w) :: after) other = some w := by
  simp only [get?_append, get?_cons]
  by_cases same : key = other
  · cases get? before other with
    | none => exact .inr ⟨same.symm, by simp [same]⟩
    | some _ => exact .inl rfl
  · exact .inl (by simp [same])

/-- The values under the keys of a group, in this order, show the same first. -/
def SameFirst (group : List String) (d e : Dictionary α) : Prop :=
  ∀ shows : α → Option α,
    group.findSome? (fun key => (e.get? key).bind shows) =
      group.findSome? fun key => (d.get? key).bind shows

theorem SameFirst.of_lookups {group : List String} {d e : Dictionary α}
    (h : ∀ key ∈ group, e.get? key = d.get? key) : SameFirst group d e := by
  intro shows
  induction group with
  | nil => rfl
  | cons key rest ih =>
    obtain ⟨first, others⟩ := List.forall_mem_cons.mp h
    rw [List.findSome?_cons, List.findSome?_cons, first, ih others]

theorem SameFirst.lookup {d e : Dictionary α} (h : SameFirst [key] d e) :
    e.get? key = d.get? key := by
  have same := h some
  simpa using same

theorem sameFirst_of_changed {group : List String} (h : key ∉ group) :
    SameFirst group (before ++ (key, v) :: after) (before ++ (key, w) :: after) :=
  SameFirst.of_lookups fun other hother =>
    (get?_changed before after key v w other).resolve_right fun found => h (found.1 ▸ hother)

end Dictionary

namespace Document
open Dictionary (SameFirst)
variable {entries entries' place place' : Dictionary Json}

theorem findSome?_pair {α β : Type} (f : α → Option β) (a b : α) :
    [a, b].findSome? f = (f a).or (f b) := by
  simp only [List.findSome?_cons, List.findSome?_nil]
  cases f a <;> cases f b <;> rfl

/-- A key that takes its other spelling is found first as before: in the group of the two spellings,
and in groups that have none of both. -/
theorem KeyRespelled.sameFirst {spellings : List (String × String)} {group : List String}
    (h : KeyRespelled spellings entries entries')
    (apart : ∀ s ∈ spellings, group = [s.1, s.2] ∨ s.1 ∉ group ∧ s.2 ∉ group) :
    SameFirst group entries entries' := by
  obtain @⟨key, other, before, v, after, spelled, alone⟩ := h
  have absent : ∀ k, (∀ e ∈ before ++ after, e.1 ≠ k) →
      Dictionary.get? (before ++ after) k = none := by
    intro k none
    simp only [Dictionary.get?_eq_none_iff, List.mem_map, not_exists, not_and]
    exact none
  have noKey := absent key fun e he => (alone e he).1
  have noOther := absent other fun e he => (alone e he).2
  have members : group = [key, other] ∨ group = [other, key] ∨ key ∉ group ∧ other ∉ group := by
    rcases spelled with h | h
    · exact (apart _ h).imp_right .inr
    · rcases apart _ h with both | neither
      · exact .inr (.inl both)
      · exact .inr (.inr neither.symm)
  rcases eq_or_ne key other with rfl | different
  · exact SameFirst.of_lookups fun _ _ => rfl
  rcases members with rfl | rfl | ⟨keyApart, otherApart⟩
  · intro shows
    simp [findSome?_pair, Dictionary.get?_spliced, noKey, noOther, different, different.symm]
  · intro shows
    simp [findSome?_pair, Dictionary.get?_spliced, noKey, noOther, different, different.symm]
  · refine SameFirst.of_lookups fun k hk => ?_
    have notKey : key ≠ k := fun same => keyApart (same ▸ hk)
    have notOther : other ≠ k := fun same => otherApart (same ▸ hk)
    rw [Dictionary.get?_spliced noKey, Dictionary.get?_spliced noOther, if_neg notKey,
      if_neg notOther]

end Document

/-! ### Loading two documents -/

/-- Both load, and what they load is related, or both fail for reasons of one class. -/
inductive LoadsAlike {α β : Type} (R : α → β → Prop) :
    Except LoadFault α → Except LoadFault β → Prop
  | loaded {a : α} {b : β} : R a b → LoadsAlike R (.ok a) (.ok b)
  | refused (e e' : DocumentError) :
      LoadsAlike R (.error (.document e)) (.error (.document e'))
  | infinite : LoadsAlike R (.error .infiniteNumber) (.error .infiniteNumber)

theorem LoadsAlike.refl {α : Type} (x : Except LoadFault α) : LoadsAlike Eq x x := by
  rcases x with (e | _) | a
  · exact .refused e e
  · exact .infinite
  · exact .loaded rfl

/-- Both load alike, or the first one is refused, which only happens if `P`. -/
inductive LoadsAlikeUnless {α β : Type} (P : Prop) (R : α → β → Prop) :
    Except LoadFault α → Except LoadFault β → Prop
  | alike {x : Except LoadFault α} {y : Except LoadFault β} : LoadsAlike R x y →
      LoadsAlikeUnless P R x y
  | refused (e : DocumentError) (y : Except LoadFault β) : P →
      LoadsAlikeUnless P R (.error (.document e)) y

namespace LoadsAlikeUnless
variable {α β γ δ : Type} {P Q : Prop} {R : α → β → Prop} {S : γ → δ → Prop}
variable {x : Except LoadFault α} {y : Except LoadFault β}

theorem loadsAlike (h : LoadsAlikeUnless P R x y) (never : ¬P) : LoadsAlike R x y := by
  cases h with
  | alike both => exact both
  | refused e y p => exact absurd p never

theorem mono (h : LoadsAlikeUnless P R x y) (imp : P → Q) : LoadsAlikeUnless Q R x y := by
  cases h with
  | alike both => exact .alike both
  | refused e y p => exact .refused e y (imp p)

theorem bind {f : α → Except LoadFault γ} {g : β → Except LoadFault δ}
    (h : LoadsAlikeUnless P R x y) (k : ∀ a b, R a b → LoadsAlikeUnless P S (f a) (g b)) :
    LoadsAlikeUnless P S (x >>= f) (y >>= g) := by
  cases h with
  | refused e y p => exact .refused e _ p
  | alike both =>
    cases both with
    | loaded related => exact k _ _ related
    | refused e e' => exact .alike (.refused e e')
    | infinite => exact .alike .infinite

end LoadsAlikeUnless

namespace Document
open Dictionary (SameFirst)

/-- The value or the fault that an action of loading ends with. -/
def ended {α : Type} : EStateM.Result LoadFault (List Notice) α → Except LoadFault α
  | .ok a _ => .ok a
  | .error f _ => .error f

/-- The two actions load alike, whatever was noticed before. -/
def Alike {α β : Type} (R : α → β → Prop) (m : Loading α) (l : Loading β) : Prop :=
  ∀ s u, LoadsAlike R (ended (m s)) (ended (l u))

/-- The two actions load alike, or the first one refuses the document, which only happens if `P`. -/
def AlikeUnless {α β : Type} (P : Prop) (R : α → β → Prop) (m : Loading α) (l : Loading β) : Prop :=
  ∀ s u, LoadsAlikeUnless P R (ended (m s)) (ended (l u))

namespace AlikeUnless
variable {α β γ δ : Type} {P Q : Prop} {R : α → β → Prop} {S : γ → δ → Prop}
variable {m : Loading α} {l : Loading β}

theorem of_alike (h : Alike R m l) : AlikeUnless P R m l :=
  fun s u => .alike (h s u)

theorem alike (h : AlikeUnless P R m l) (never : ¬P) : Alike R m l :=
  fun s u => (h s u).loadsAlike never

theorem mono (h : AlikeUnless P R m l) (imp : P → Q) : AlikeUnless Q R m l :=
  fun s u => (h s u).mono imp

theorem pure {a : α} {b : β} (h : R a b) : AlikeUnless P R (pure a) (pure b) :=
  fun _ _ => .alike (.loaded h)

theorem settle {x : Except LoadFault α} {y : Except LoadFault β} (h : LoadsAlikeUnless P R x y) :
    AlikeUnless P R (settle x) (settle y) := by
  intro s u
  have settled : ∀ {γ : Type} (z : Except LoadFault γ) t, ended (Document.settle z t) = z := by
    rintro _ (_ | _) _ <;> rfl
  rwa [settled, settled]

theorem bind {f : α → Loading γ} {g : β → Loading δ} (h : AlikeUnless P R m l)
    (k : ∀ a b, R a b → AlikeUnless P S (f a) (g b)) : AlikeUnless P S (m >>= f) (l >>= g) := by
  intro s u
  have first := h s u
  change LoadsAlikeUnless P S (ended (EStateM.bind m f s)) (ended (EStateM.bind l g u))
  rw [EStateM.bind, EStateM.bind]
  cases hm : m s with
  | ok a t =>
    cases hl : l u with
    | ok b v =>
      rw [hm, hl] at first
      cases first with
      | alike both =>
        cases both with
        | loaded related => exact k a b related t v
    | error e v =>
      rw [hm, hl] at first
      cases first with
      | alike both => cases both
  | error e t =>
    rw [hm] at first
    cases first with
    | refused e _ p => exact .refused e _ p
    | alike both =>
      cases hl : l u with
      | ok b v =>
        rw [hl] at both
        cases both
      | error e' v =>
        rw [hl] at both
        cases both with
        | refused e e' => exact .alike (.refused e e')
        | infinite => exact .alike .infinite

end AlikeUnless

/-! ### Locations -/

section
variable {place place' : Dictionary Json}

theorem wholeNumber_alike (place place' v : Json) :
    LoadsAlike Eq (wholeNumber place v) (wholeNumber place' v) := by
  cases v with
  | int i => exact .loaded rfl
  | bool b => exact .loaded rfl
  | float x =>
    cases x with
    | finite negative m e => exact .loaded rfl
    | nan => exact .refused _ _
    | infinite negative => exact .infinite
  | string s =>
    rw [wholeNumber, wholeNumber]
    split
    · exact .loaded rfl
    · exact .refused _ _
  | null | array _ | object _ => exact .refused _ _

theorem locationNumber_alike {spellings : List String} (h : SameFirst spellings place place') :
    LoadsAlike Eq (locationNumber place spellings) (locationNumber place' spellings) := by
  have first : numberValue? place' spellings = numberValue? place spellings := by
    simpa [numberValue?] using h some
  rw [locationNumber, locationNumber, first]
  split
  · exact .loaded rfl
  · exact wholeNumber_alike _ _ _

/-- A location is read from its file and its numbers. -/
theorem location_alikeUnless {P : Prop} (source : Option String)
    (file : (Dictionary.get? place' "file").getD .null = (Dictionary.get? place "file").getD .null)
    (numbers : ∀ spellings ∈ numberSpellings,
      LoadsAlikeUnless P Eq (locationNumber place spellings) (locationNumber place' spellings)) :
    LoadsAlikeUnless P Eq (location source (some (.object place)))
      (location source (some (.object place'))) := by
  simp only [location, file]
  refine (numbers ["startLine", "line"] (by simp [numberSpellings])).bind ?_
  rintro line _ rfl
  refine (numbers ["startColumn", "column"] (by simp [numberSpellings])).bind ?_
  rintro column _ rfl
  refine (numbers ["endLine", "end_line"] (by simp [numberSpellings])).bind ?_
  rintro endLine _ rfl
  refine (numbers ["endColumn", "end_column"] (by simp [numberSpellings])).bind ?_
  rintro endColumn _ rfl
  exact .alike (.loaded rfl)

theorem location_alike (source : Option String) (file : SameFirst ["file"] place place')
    (numbers : ∀ spellings ∈ numberSpellings, SameFirst spellings place place') :
    LoadsAlike Eq (location source (some (.object place)))
      (location source (some (.object place'))) :=
  (location_alikeUnless source (by rw [file.lookup]) fun spellings h =>
    .alike (locationNumber_alike (numbers spellings h))).loadsAlike not_false

end

/-! ### Nodes -/

/-- The spellings of the texts of a node. -/
def textSpellings : List (List String) :=
  [["code"], ["name"], ["operator"], ["unaryType", "unary_token"], ["codeType", "type_annotation"]]

/-- What loading reads from the entries of a node is the same, up to `Ast` behind the tag. -/
structure SameFields (entries entries' : Dictionary Json) : Prop where
  tag : Option.Rel (fun t t' => Kind.stem t' = Kind.stem t) (tag? entries) (tag? entries')
  texts : ∀ spellings ∈ textSpellings, SameFirst spellings entries entries'
  children : childrenAllowed (Dictionary.get? entries' "children") =
    childrenAllowed (Dictionary.get? entries "children")
  location : ∀ source, LoadsAlike Eq (location source (Dictionary.get? entries "location"))
    (location source (Dictionary.get? entries' "location"))

theorem scalar?_eq_of_sameFirst {entries entries' : Dictionary Json} {spellings : List String}
    (h : SameFirst spellings entries entries') :
    scalar? entries' spellings = scalar? entries spellings := by
  -- What is given as an entry among others is given as the only one.
  have given : ∀ d : Dictionary Json, (fun key => Json.given? key (.object d)) = fun key =>
      (Dictionary.get? d key).bind fun v => Json.given? "value" (.object [("value", v)]) := by
    intro d
    funext key
    rw [Json.given?, Json.field?_object]
    cases Dictionary.get? d key with
    | none => rfl
    | some v => cases v <;> rfl
  rw [scalar?, given, h, scalar?, given]

theorem SameFields.attributes {entries entries' : Dictionary Json} (h : SameFields entries entries')
    {tag tag' : String} (stem : Kind.stem tag' = Kind.stem tag) (l : Location) :
    ({ attributes tag' entries' with location := l } : Attributes).retag (fun _ => "") =
      ({ attributes tag entries with location := l } : Attributes).retag fun _ => "" := by
  have texts : ∀ spellings ∈ textSpellings,
      scalar? entries' spellings = scalar? entries spellings :=
    fun spellings hs => scalar?_eq_of_sameFirst (h.texts spellings hs)
  simp only [textSpellings, List.forall_mem_cons] at texts
  obtain ⟨code, name, operator, unaryToken, typeText, _⟩ := texts
  have kind : Kind.ofTag tag' = Kind.ofTag tag := by rw [Kind.ofTag, stem, Kind.ofTag]
  simp only [Document.attributes, Attributes.retag, kind, code, name, operator,
    unaryToken, typeText]

theorem nodes_alikeUnless {P : Prop} {R : Node → Node → Prop} {source : Option String}
    {items others : List Json}
    (h : List.Forall₂ (fun v w => ∀ p q, AlikeUnless P R (node source p v) (node source q w))
      items others) (p q : Path) (i : Nat) :
    AlikeUnless P (List.Forall₂ R) (nodes source p i items) (nodes source q i others) := by
  induction h generalizing i with
  | nil => exact .pure .nil
  | cons first _ ih =>
    rw [nodes, nodes]
    exact (first _ _).bind fun n m related => (ih (i + 1)).bind fun ns ms more =>
      .pure (.cons related more)

/-- Two objects with tags are loaded alike if their children and locations are. -/
theorem object_alikeUnless {P : Prop} {R : Node → Node → Prop} {source : Option String}
    {entries entries' : Dictionary Json} {tag tag' : String} {p q : Path}
    (mine : tag? entries = some tag) (theirs : tag? entries' = some tag')
    (allowed : childrenAllowed (Dictionary.get? entries' "children") =
      childrenAllowed (Dictionary.get? entries "children"))
    (children : AlikeUnless P (List.Forall₂ R)
      (nodes source p 0 (Json.childItems (.object entries)))
      (nodes source q 0 (Json.childItems (.object entries'))))
    (place : LoadsAlikeUnless P Eq (location source (Dictionary.get? entries "location"))
      (location source (Dictionary.get? entries' "location")))
    (same : ∀ l ns ms, List.Forall₂ R ns ms →
      R ⟨{ attributes tag entries with location := l }, ns⟩
        ⟨{ attributes tag' entries' with location := l }, ms⟩) :
    AlikeUnless P R (node source p (.object entries)) (node source q (.object entries')) := by
  intro s u
  obtain ⟨t, run⟩ := node_object source p mine s
  obtain ⟨v, run'⟩ := node_object source q theirs u
  rw [run, run', allowed]
  split
  · refine children.bind (fun ns ms related => ?_) t v
    refine (AlikeUnless.settle place).bind ?_
    rintro l _ rfl
    exact .pure (same l ns ms related)
  · exact .alike (.refused _ _)

/-- Both values are nodes with the same fields and children that are read alike,
or they are the same. -/
inductive Reads : Json → Json → Prop
  | object {entries entries' : Dictionary Json} : SameFields entries entries' →
      List.Forall₂ Reads (Json.childItems (.object entries)) (Json.childItems (.object entries')) →
      Reads (.object entries) (.object entries')
  | other {v : Json} : (∀ entries, v ≠ .object entries) → Reads v v

theorem node_alike (source : Option String) (v : Json) :
    ∀ w, Reads v w → ∀ p q, Alike Node.Retagged (node source p v) (node source q w) := by
  induction v using Json.induct_childItems with
  | h v ih =>
    intro w h p q
    cases h with
    | @object entries entries' fields below =>
      have children : AlikeUnless False (List.Forall₂ Node.Retagged)
          (nodes source p 0 (Json.childItems (.object entries)))
          (nodes source q 0 (Json.childItems (.object entries'))) := by
        refine nodes_alikeUnless
          (List.forall₂_iff_get.mpr ⟨below.length_eq, fun i hi hi' p q => .of_alike ?_⟩) p q 0
        exact ih _ (List.get_mem _ _) _ (List.forall₂_iff_get.mp below |>.2 i hi hi') p q
      have tags := fields.tag
      cases mine : tag? entries with
      | none =>
        rw [mine] at tags
        cases theirs : tag? entries' with
        | some _ =>
          rw [theirs] at tags
          cases tags
        | none =>
          intro s u
          rw [node, node, mine, theirs]
          exact .refused _ _
      | some tag =>
        rw [mine] at tags
        cases theirs : tag? entries' with
        | none =>
          rw [theirs] at tags
          cases tags
        | some tag' =>
          rw [theirs] at tags
          cases tags with
          | some stem =>
            exact (object_alikeUnless mine theirs fields.children children
              (.alike (fields.location source)) fun l ns ms related =>
                .node (fields.attributes stem l) related).alike not_false
    | other noObject =>
      intro s u
      cases v with
      | object entries => exact absurd rfl (noObject entries)
      | _ => exact .refused _ _

theorem Reads.of_children {entries entries' : Dictionary Json}
    (fields : SameFields entries entries')
    (refl : ∀ item ∈ Json.childItems (.object entries), Reads item item)
    (children : Dictionary.get? entries' "children" = Dictionary.get? entries "children") :
    Reads (.object entries) (.object entries') := by
  have items : Json.childItems (.object entries') = Json.childItems (.object entries) := by
    rw [Json.childItems, Json.childItems, Json.field?, Json.field?, children]
  refine .object fields ?_
  rw [items]
  exact List.forall₂_same.mpr refl

/-! ### Respelled nodes -/

section
variable {entries entries' : Dictionary Json}

theorem tag?_eq_of_sameFirst (h : SameFirst ["type", "kind"] entries entries') :
    tag? entries' = tag? entries := by
  have first : (entries'.get? "type").or (entries'.get? "kind") =
      (entries.get? "type").or (entries.get? "kind") := by
    simpa [findSome?_pair] using h some
  rw [tag?, first, tag?]

theorem sameTag_refl (tag : Option String) :
    Option.Rel (fun t t' => Kind.stem t' = Kind.stem t) tag tag := by
  cases tag with
  | none => exact .none
  | some tag => exact .some rfl

theorem sameTag_of_eq (h : tag? entries' = tag? entries) :
    Option.Rel (fun t t' => Kind.stem t' = Kind.stem t) (tag? entries) (tag? entries') :=
  h ▸ sameTag_refl _

theorem SameFields.refl (entries : Dictionary Json) : SameFields entries entries where
  tag := sameTag_of_eq rfl
  texts _ _ := SameFirst.of_lookups fun _ _ => rfl
  children := rfl
  location _ := .refl _

theorem Reads.refl (v : Json) : Reads v v := by
  induction v using Json.induct_childItems with
  | h v ih =>
    cases v with
    | object entries => exact .of_children (.refl entries) ih rfl
    | _ => exact .other nofun

theorem KeyRespelled.sameFields (h : KeyRespelled nodeSpellings entries entries') :
    SameFields entries entries' where
  tag := sameTag_of_eq (tag?_eq_of_sameFirst (h.sameFirst (by decide)))
  texts spellings hs := by
    have apart : ∀ group ∈ textSpellings, ∀ s ∈ nodeSpellings,
        group = [s.1, s.2] ∨ s.1 ∉ group ∧ s.2 ∉ group := by decide
    exact h.sameFirst (apart spellings hs)
  children := by
    have children : SameFirst ["children"] entries entries' := h.sameFirst (by decide)
    rw [children.lookup]
  location source := by
    have location : SameFirst ["location"] entries entries' := h.sameFirst (by decide)
    rw [location.lookup]
    exact .refl _

end

section
variable {before after : Dictionary Json} {key : String} {v w : Json}

/-- A changed entry that is neither tag nor children nor location changes no field. -/
theorem texts_of_changed (h : ∀ spellings ∈ textSpellings, key ∉ spellings) :
    ∀ spellings ∈ textSpellings,
      SameFirst spellings (before ++ (key, v) :: after) (before ++ (key, w) :: after) :=
  fun spellings hs => Dictionary.sameFirst_of_changed (h spellings hs)

theorem lookup_of_changed {other : String} (h : key ≠ other) :
    Dictionary.get? (before ++ (key, w) :: after) other =
      Dictionary.get? (before ++ (key, v) :: after) other :=
  (Dictionary.get?_changed before after key v w other).resolve_right fun found => h found.1.symm

theorem sameFields_of_place {place place' : Dictionary Json}
    (h : KeyRespelled placeSpellings place place') :
    SameFields (before ++ ("location", .object place) :: after)
      (before ++ ("location", .object place') :: after) where
  tag := sameTag_of_eq (tag?_eq_of_sameFirst (Dictionary.sameFirst_of_changed (by decide)))
  texts := texts_of_changed (by decide)
  children := by rw [lookup_of_changed (v := .object place) (w := .object place') (by decide)]
  location source := by
    have changed := Dictionary.get?_changed before after "location" (.object place) (.object place')
    rcases changed "location" with same | ⟨_, mine, theirs⟩
    · rw [same]
      exact .refl _
    · have apart : ∀ spellings ∈ numberSpellings, ∀ s ∈ placeSpellings,
          spellings = [s.1, s.2] ∨ s.1 ∉ spellings ∧ s.2 ∉ spellings := by decide
      rw [mine, theirs]
      exact location_alike source (h.sameFirst (by decide)) fun spellings hs =>
        h.sameFirst (apart spellings hs)

theorem stem_append_ast {tag : String} (h : ¬"Ast".toList <:+ tag.toList) :
    Kind.stem (tag ++ "Ast") = Kind.stem tag := by
  have suffix : "Ast".toList.isSuffixOf (tag ++ "Ast").toList = true := by
    rw [List.isSuffixOf_iff_suffix, String.toList_append]
    exact List.suffix_append _ _
  have none : "Ast".toList.isSuffixOf tag.toList = false := by
    rwa [Bool.eq_false_iff, ne_eq, List.isSuffixOf_iff_suffix]
  rw [Kind.stem, if_pos suffix, Kind.stem, none]
  apply String.toList_injective
  have three : "Ast".length = 3 := by decide
  have length : (tag ++ "Ast").length - 3 = tag.toList.length := by
    rw [String.length_append, three, Nat.add_sub_cancel, String.length_toList]
  rw [if_neg (by simp), String.toList_ofList, length, String.toList_append, List.take_left]

theorem sameFields_of_tag {tag : String} (hkey : key = "type" ∨ key = "kind") (named : tag ≠ "")
    (bare : ¬"Ast".toList <:+ tag.toList) :
    SameFields (before ++ (key, .string tag) :: after)
      (before ++ (key, .string (tag ++ "Ast")) :: after) where
  tag := by
    have suffixed : Option.Rel (fun t t' => Kind.stem t' = Kind.stem t) (nonEmpty? (some tag))
        (nonEmpty? (some (tag ++ "Ast"))) := by
      have named' : tag ++ "Ast" ≠ "" := fun empty => by simp at empty
      simp only [nonEmpty?, Option.filter_some, decide_eq_true named, decide_eq_true named',
        if_true]
      exact .some (stem_append_ast bare)
    have changed := Dictionary.get?_changed before after key (.string tag) (.string (tag ++ "Ast"))
    rcases hkey with rfl | rfl
    · have kind : Dictionary.get? (before ++ ("type", Json.string (tag ++ "Ast")) :: after) "kind" =
          Dictionary.get? (before ++ ("type", Json.string tag) :: after) "kind" :=
        lookup_of_changed (by decide)
      rcases changed "type" with same | ⟨_, mine, theirs⟩
      · exact sameTag_of_eq (by rw [tag?, same, kind, tag?])
      · rw [tag?, tag?, mine, theirs]
        exact suffixed
    · have type : Dictionary.get? (before ++ ("kind", Json.string (tag ++ "Ast")) :: after) "type" =
          Dictionary.get? (before ++ ("kind", Json.string tag) :: after) "type" :=
        lookup_of_changed (by decide)
      rcases changed "kind" with same | ⟨_, mine, theirs⟩
      · exact sameTag_of_eq (by rw [tag?, same, type, tag?])
      · rw [tag?, tag?, mine, theirs, type]
        cases Dictionary.get? (before ++ ("kind", Json.string tag) :: after) "type" with
        | none => exact suffixed
        | some first => exact sameTag_refl _
  texts := texts_of_changed (by rcases hkey with rfl | rfl <;> decide)
  children := by
    rw [lookup_of_changed (v := .string tag) (w := .string (tag ++ "Ast"))
      (by rcases hkey with rfl | rfl <;> decide)]
  location source := by
    rw [lookup_of_changed (v := .string tag) (w := .string (tag ++ "Ast"))
      (by rcases hkey with rfl | rfl <;> decide)]
    exact .refl _

theorem sameFields_of_children {items others : List Json} :
    SameFields (before ++ ("children", .array items) :: after)
      (before ++ ("children", .array others) :: after) where
  tag := sameTag_of_eq (tag?_eq_of_sameFirst (Dictionary.sameFirst_of_changed (by decide)))
  texts := texts_of_changed (by decide)
  children := by
    have changed := Dictionary.get?_changed before after "children" (.array items) (.array others)
    rcases changed "children" with same | ⟨_, mine, theirs⟩
    · rw [same]
    · rw [mine, theirs]
      rfl
  location source := by
    rw [lookup_of_changed (v := .array items) (w := .array others) (by decide)]
    exact .refl _

end

/-- Loading reads a respelled document as the document. -/
theorem Respelled.reads {v w : Json} (h : v.Respelled w) : Reads v w := by
  induction h with
  | key h =>
    have children : SameFirst ["children"] _ _ := h.sameFirst (by decide)
    exact .of_children h.sameFields (fun item _ => .refl item) children.lookup
  | placeKey before after h =>
    exact .of_children (sameFields_of_place h) (fun item _ => .refl item)
      (lookup_of_changed (by decide))
  | tag before after hkey named bare =>
    exact .of_children (sameFields_of_tag hkey named bare) (fun item _ => .refl item)
      (lookup_of_changed (by rcases hkey with rfl | rfl <;> decide))
  | @child before inFront item item' behind after _ ih =>
    have changed := Dictionary.get?_changed before after "children"
      (.array (inFront ++ item :: behind)) (.array (inFront ++ item' :: behind))
    rcases changed "children" with same | ⟨_, mine, theirs⟩
    · exact .of_children sameFields_of_children (fun item _ => .refl item) same
    · refine .object sameFields_of_children ?_
      rw [Json.childItems, Json.childItems, Json.field?, Json.field?, mine, theirs]
      have refl : ∀ items, List.Forall₂ Reads items items :=
        fun items => List.forall₂_same.mpr fun item _ => .refl item
      exact List.rel_append (refl inFront) (.cons ih (refl behind))

theorem load_eq_ended (source : Option String) (doc : Json) :
    (Node.load source doc).1 = ended (node source [] doc []) := by
  rw [Node.load]
  cases node source [] doc [] <;> rfl

end Document

/-- Documents of which one is the other respelled load alike: trees that differ in their tags only,
or faults of one class. -/
theorem Json.Respelled.load {v w : Json} (h : v.Respelled w) (source : Option String) :
    LoadsAlike Node.Retagged (Node.load source v).1 (Node.load source w).1 := by
  rw [Document.load_eq_ended, Document.load_eq_ended]
  exact Document.node_alike source v w (Document.Respelled.reads h) [] [] [] []

end ScriptIR
