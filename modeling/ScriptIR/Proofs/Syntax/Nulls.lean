import ScriptIR.Proofs.Syntax.Overflow
import ScriptIR.Proofs.Syntax.Respelling

/-!
# Null in documents

`Json.withoutNulls` takes the keys with null out of a document, at every node and location. Texts
and children with null count as absent, and so does a location. But loading asks only whether a key
is there when it looks for a tag under `type`, and for a number of a location: null under such a key
stands before another spelling or for a value (`Json.CountsNull`). `load_without_nulls` says that
nothing else keeps a document and the document without nulls from loading alike.
-/
namespace ScriptIR

/-! ### Documents without nulls -/

namespace Document

/-- The keys of a node that loading looks up. -/
def nodeKeys : List String :=
  ["type", "kind"] ++ textSpellings.flatten ++ ["children", "location"]

/-- The keys of a location that loading looks up. -/
def placeKeys : List String :=
  "file" :: numberSpellings.flatten

/-- The entries without those that have null under one of the keys. -/
def dropNulls (keys : List String) (entries : Dictionary Json) : Dictionary Json :=
  entries.filter fun e => e.1 ∉ keys || (Json.given? e.1 (.object entries)).isSome

end Document

namespace Json

mutual
/-- A node without the keys that have null, in itself, its location and its children. -/
def withoutNulls : Json → Json
  | .object entries => .object (Document.dropNulls Document.nodeKeys (partsWithoutNulls entries))
  | v => v

/-- The value under a key of a node: only a location and the children have nulls taken out. -/
def partWithoutNulls (key : String) : Json → Json
  | .array items => .array (if key = "children" then itemsWithoutNulls items else items)
  | .object place =>
    .object (if key = "location" then Document.dropNulls Document.placeKeys place else place)
  | v => v

def partsWithoutNulls : List (String × Json) → List (String × Json)
  | [] => []
  | (key, v) :: rest => (key, v.partWithoutNulls key) :: partsWithoutNulls rest

def itemsWithoutNulls : List Json → List Json
  | [] => []
  | v :: rest => v.withoutNulls :: itemsWithoutNulls rest
end

/-- Null under `type` stands before a tag under `kind`. -/
def HidesTag (v : Json) : Prop :=
  v.field? "type" = some .null ∧ ∃ tag, tag ≠ "" ∧ v.field? "kind" = some (.string tag)

/-- A number of the location is null where it is first. -/
def HasNullNumber (v : Json) : Prop :=
  ∃ place, v.field? "location" = some (.object place) ∧ ∃ spellings ∈ Document.numberSpellings,
    Document.First (fun _ => True) place spellings (some .null)

/-- Null under some key of the value, or of its location, does not count as absent. -/
def CountsNull (v : Json) : Prop :=
  v.HidesTag ∨ v.HasNullNumber

end Json

/-! ### Lookups without nulls -/

namespace Dictionary
variable {α : Type}

theorem get?_filter (p : String → Bool) (d : Dictionary α) (key : String) :
    get? (List.filter (fun e => p e.1) d) key = if p key then get? d key else none := by
  have asked : ∀ e : String × α, decide (p e.1 = true ∧ (e.1 == key) = true) =
      (p key && e.1 == key) := by
    intro e
    by_cases same : e.1 = key <;> simp [same]
  rw [get?, List.find?_filter]
  simp only [asked]
  cases p key <;> simp [get?]

end Dictionary

namespace Document
variable {source : Option String} {entries place : Dictionary Json} {key : String}

/-- Without nulls a key has the value that it is given. -/
theorem get?_dropNulls {keys : List String} (h : key ∈ keys) (entries : Dictionary Json) :
    Dictionary.get? (dropNulls keys entries) key = Json.given? key (.object entries) := by
  rw [dropNulls, Dictionary.get?_filter fun k =>
    k ∉ keys || (Json.given? k (.object entries)).isSome, Json.given?, Json.field?_object]
  cases Dictionary.get? entries key with
  | none => simp
  | some v => cases v <;> simp [h]

theorem get?_partsWithoutNulls (entries : Dictionary Json) (key : String) :
    Dictionary.get? (Json.partsWithoutNulls entries) key =
      (Dictionary.get? entries key).map (Json.partWithoutNulls key) := by
  induction entries with
  | nil => rfl
  | cons entry rest ih =>
    obtain ⟨k, v⟩ := entry
    rw [Json.partsWithoutNulls, Dictionary.get?_cons, Dictionary.get?_cons, ih]
    split
    next same => rw [same, Option.map_some]
    next => rfl

/-- The entries of a node without nulls. -/
def bare (entries : Dictionary Json) : Dictionary Json :=
  dropNulls nodeKeys (Json.partsWithoutNulls entries)

theorem withoutNulls_object (entries : Dictionary Json) :
    (Json.object entries).withoutNulls = .object (bare entries) := rfl

theorem get?_bare (h : key ∈ nodeKeys) (entries : Dictionary Json) :
    Dictionary.get? (bare entries) key =
      (Json.given? key (.object entries)).map (Json.partWithoutNulls key) := by
  rw [bare, get?_dropNulls h, Json.given?, Json.field?_object, get?_partsWithoutNulls, Json.given?,
    Json.field?_object]
  cases Dictionary.get? entries key with
  | none => rfl
  | some v => cases v <;> rfl

/-! ### Fields of a node without nulls -/

/-- The tag stays, unless a null hides it. -/
theorem tag?_bare (entries : Dictionary Json) :
    tag? (bare entries) = tag? entries ∨
      tag? entries = none ∧ (Json.object entries).HidesTag := by
  rw [tag?, tag?, get?_bare (by decide), get?_bare (by decide), Json.HidesTag]
  simp only [Json.given?, Json.field?_object]
  cases Dictionary.get? entries "type" with
  | some v =>
    cases v with
    | null =>
      -- Without the null the tag is looked up under the other key.
      cases Dictionary.get? entries "kind" with
      | none => exact .inl rfl
      | some w =>
        cases w with
        | string tag =>
          by_cases named : tag = ""
          · subst named
            exact .inl rfl
          · exact .inr ⟨rfl, rfl, tag, named, rfl⟩
        | _ => exact .inl rfl
    | _ => exact .inl rfl
  | none =>
    cases Dictionary.get? entries "kind" with
    | none => exact .inl rfl
    | some w => cases w <;> exact .inl rfl

theorem scalar?_bare {spellings : List String} (h : spellings ∈ textSpellings)
    (entries : Dictionary Json) : scalar? (bare entries) spellings = scalar? entries spellings := by
  have plain : ∀ spellings ∈ textSpellings, ∀ key ∈ spellings,
      key ∈ nodeKeys ∧ key ≠ "children" ∧ key ≠ "location" := by decide
  have given : ∀ key ∈ spellings,
      Json.given? key (.object (bare entries)) = Json.given? key (.object entries) := by
    intro key hkey
    obtain ⟨known, noChildren, noLocation⟩ := plain spellings h key hkey
    rw [Json.given?, Json.field?_object, get?_bare known, Json.given?, Json.field?_object]
    cases Dictionary.get? entries key with
    | none => rfl
    | some v => cases v <;> simp [Json.partWithoutNulls, noChildren, noLocation]
  rw [scalar?, scalar?, ← List.head?_filterMap, List.filterMap_congr given, List.head?_filterMap]

theorem attributes_bare (tag : String) (entries : Dictionary Json) :
    attributes tag (bare entries) = attributes tag entries := by
  have texts : ∀ spellings ∈ textSpellings,
      scalar? (bare entries) spellings = scalar? entries spellings :=
    fun _ hspellings => scalar?_bare hspellings entries
  simp only [textSpellings, List.forall_mem_cons] at texts
  obtain ⟨code, name, operator, unaryToken, typeText, _⟩ := texts
  rw [attributes, code, name, operator, unaryToken, typeText, attributes]

theorem childrenAllowed_bare (entries : Dictionary Json) :
    childrenAllowed (Dictionary.get? (bare entries) "children") =
      childrenAllowed (Dictionary.get? entries "children") := by
  rw [get?_bare (by decide), Json.given?, Json.field?_object]
  cases Dictionary.get? entries "children" with
  | none => rfl
  | some v => cases v <;> rfl

theorem itemsWithoutNulls_eq_map (items : List Json) :
    Json.itemsWithoutNulls items = items.map Json.withoutNulls := by
  induction items with
  | nil => rfl
  | cons item rest ih => rw [Json.itemsWithoutNulls, List.map_cons, ih]

theorem childItems_bare (entries : Dictionary Json) :
    Json.childItems (.object (bare entries)) =
      (Json.childItems (.object entries)).map Json.withoutNulls := by
  rw [Json.childItems, Json.childItems, Json.field?_object, get?_bare (by decide), Json.given?,
    Json.field?_object]
  cases Dictionary.get? entries "children" with
  | none => rfl
  | some v =>
    cases v with
    | array items => exact itemsWithoutNulls_eq_map items
    | _ => rfl

/-! ### Locations without nulls -/

/-- The number that is first stays so, unless it is null. -/
theorem numberValue?_dropNulls {spellings : List String} (h : ∀ key ∈ spellings, key ∈ placeKeys)
    (place : Dictionary Json) :
    numberValue? (dropNulls placeKeys place) spellings = numberValue? place spellings ∨
      numberValue? place spellings = some .null := by
  induction spellings with
  | nil => exact .inl rfl
  | cons key rest ih =>
    obtain ⟨known, others⟩ := List.forall_mem_cons.mp h
    simp only [numberValue?, List.findSome?_cons, get?_dropNulls known, Json.given?,
      Json.field?_object]
    cases Dictionary.get? place key with
    | none => exact ih others
    | some v =>
      cases v with
      | null => exact .inr rfl
      | _ => exact .inl rfl

theorem locationNumber_dropNulls {spellings : List String} (h : spellings ∈ numberSpellings)
    (place : Dictionary Json) :
    LoadsAlikeUnless (First (fun _ => True) place spellings (some .null)) Eq
      (locationNumber place spellings) (locationNumber (dropNulls placeKeys place) spellings) := by
  have known : ∀ spellings ∈ numberSpellings, ∀ key ∈ spellings, key ∈ placeKeys := by decide
  rcases numberValue?_dropNulls (known spellings h) place with same | null
  · rw [locationNumber, locationNumber, same]
    split
    · exact .alike (.refl _)
    · exact .alike (wholeNumber_alike _ _ _)
  · rw [locationNumber, null]
    exact .refused _ _ (first_numberValue?.mpr null)

theorem location_bare (source : Option String) (entries : Dictionary Json) :
    LoadsAlikeUnless (Json.object entries).HasNullNumber Eq
      (location source (Dictionary.get? entries "location"))
      (location source (Dictionary.get? (bare entries) "location")) := by
  rw [get?_bare (by decide), Json.given?, Json.HasNullNumber, Json.field?_object]
  cases given : Dictionary.get? entries "location" with
  | none => exact .alike (.refl _)
  | some v =>
    cases v with
    | object place =>
      have file : (Dictionary.get? (dropNulls placeKeys place) "file").getD .null =
          (Dictionary.get? place "file").getD .null := by
        rw [get?_dropNulls (by decide), Json.given?, Json.field?_object]
        cases Dictionary.get? place "file" with
        | none => rfl
        | some file => cases file <;> rfl
      exact location_alikeUnless source file fun spellings h =>
        (locationNumber_dropNulls h place).mono fun null => ⟨place, rfl, spellings, h, null⟩
    | _ => exact .alike (.refl _)

/-! ### Loading without nulls -/

/-- A value loads as without nulls, unless it is refused and offers a node where
some null counts. -/
theorem node_withoutNulls (source : Option String) (v : Json) :
    ∀ p q, AlikeUnless (∃ r w, v.at? r = some w ∧ w.CountsNull) Eq
      (node source p v) (node source q v.withoutNulls) := by
  induction v using Json.induct_childItems with
  | h v ih =>
    intro p q
    cases v with
    | object entries =>
      rw [withoutNulls_object]
      cases mine : tag? entries with
      | none =>
        intro s u
        rcases tag?_bare entries with same | ⟨_, hides⟩
        · rw [node, node, same, mine]
          exact .alike (.refused _ _)
        · rw [node, mine]
          exact .refused _ _ ⟨[], _, rfl, .inl hides⟩
      | some tag =>
        have theirs : tag? (bare entries) = some tag := by
          rcases tag?_bare entries with same | ⟨none, _⟩
          · rw [same, mine]
          · rw [mine] at none
            cases none
        refine object_alikeUnless mine theirs (childrenAllowed_bare entries) ?_
          ((location_bare source entries).mono fun null => ⟨[], _, rfl, .inr null⟩) ?_
        · rw [childItems_bare]
          refine nodes_alikeUnless (List.forall₂_map_right_iff.mpr
            (List.forall₂_same.mpr fun item hitem p q => (ih item hitem p q).mono ?_)) p q 0
          -- What counts in a child counts at the place of the child.
          rintro ⟨r, w, hw, counts⟩
          obtain ⟨i, hi⟩ := List.mem_iff_getElem?.mp hitem
          exact ⟨i :: r, w, Json.at?_cons.mpr ⟨item, hi, hw⟩, counts⟩
        · intro l ns ms related
          rw [List.forall₂_eq_eq_eq] at related
          rw [attributes_bare, related]
    | _ =>
      intro s u
      exact .alike (.refused _ _)

/-- Where every value can be a node with a location, no null counts. -/
theorem Sound.not_countsNull {doc : Json} (h : Sound doc) {p : Path} {v : Json}
    (hv : doc.at? p = some v) : ¬v.CountsNull := by
  obtain ⟨node, numbers⟩ := h p v hv
  rintro (⟨null, tag, named, kind⟩ | ⟨place, given, spellings, hspellings, null⟩)
  · cases node with
    | object tag named found list =>
      have null : Dictionary.get? _ "type" = some Json.null := null
      rw [null] at found
      cases found
  · obtain ⟨i, denotes⟩ := numbers place given spellings hspellings .null null
    cases denotes

end Document

/-- Where every null counts as absent, a document and the document without nulls load as the same
tree, or fail for reasons of one class. Where some null counts, the document is refused, whatever it
is without nulls, or both end with an infinite number before that null. -/
theorem load_without_nulls (source : Option String) (doc : Json) :
    ((∀ p v, doc.at? p = some v → ¬v.CountsNull) →
      LoadsAlike Eq (Node.load source doc).1 (Node.load source doc.withoutNulls).1) ∧
    ∀ p v, doc.at? p = some v → v.CountsNull →
      (∃ e, (Node.load source doc).1 = .error (.document e)) ∨
        (Node.load source doc).1 = .error .infiniteNumber ∧
          (Node.load source doc.withoutNulls).1 = .error .infiniteNumber := by
  have alike := Document.node_withoutNulls source doc [] [] [] []
  rw [Document.load_eq_ended, Document.load_eq_ended]
  constructor
  · intro never
    exact alike.loadsAlike fun ⟨p, v, hv, counts⟩ => never p v hv counts
  · intro p v hv counts
    generalize Document.ended (Document.node source [] doc.withoutNulls []) = without at alike ⊢
    cases run : Document.node source [] doc [] with
    | ok n after =>
      have sound := ((Document.ends source doc [] []).1).mp ⟨n, after, run⟩
      exact absurd counts (sound.not_countsNull hv)
    | error f after =>
      rw [run] at alike
      cases alike with
      | refused e _ _ => exact .inl ⟨e, rfl⟩
      | alike both =>
        cases both with
        | refused e _ => exact .inl ⟨e, rfl⟩
        | infinite => exact .inr ⟨rfl, rfl⟩

/-- Nulls that count as absent, in a node, its child and its location; and a null
that hides the tag. -/
theorem load_without_nulls_pipeline :
    let place := Json.object [("file", .null), ("startLine", .int 3), ("line", .null)]
    let command := Json.object [("type", .string "CommandAst"), ("kind", .null), ("name", .null),
      ("children", .null), ("location", place)]
    let harmless := Json.object [("kind", .string "Pipeline"), ("location", .null),
      ("children", .array [command])]
    let hidden := Json.object [("type", .null), ("kind", .string "Command")]
    ((∀ p v, harmless.at? p = some v → ¬v.CountsNull) ∧
      LoadsAlike Eq (Node.load none harmless).1 (Node.load none harmless.withoutNulls).1) ∧
    hidden.CountsNull ∧ (∃ e, (Node.load none hidden).1 = .error (.document e)) ∧
      ∃ n, (Node.load none hidden.withoutNulls).1 = .ok n := by
  intro place command harmless hidden
  have sound : Document.Sound harmless :=
    ((Document.ends none harmless [] []).1).mp ⟨_, _, rfl⟩
  have never : ∀ p v, harmless.at? p = some v → ¬v.CountsNull := fun _ _ => sound.not_countsNull
  have counts : hidden.CountsNull := .inl ⟨rfl, "Command", by decide, rfl⟩
  refine ⟨⟨never, (load_without_nulls none harmless).1 never⟩, counts, ?_, ⟨_, rfl⟩⟩
  rcases (load_without_nulls none hidden).2 [] hidden rfl counts with refused | ⟨infinite, _⟩
  · exact refused
  · cases infinite

end ScriptIR
