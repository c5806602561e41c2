import Mathlib.Data.List.Forall2
import ScriptIR.Proofs.Json.Display
import ScriptIR.Syntax.Document

/-!
# What loading accepts

`Json.at?` finds the values that a document offers as nodes: the document itself, and the elements
of the array under `children` of every such value. `Json.IsNode` and `Json.HasNumbers` say what a
value has to be to become a node, and `Mirrors` what the node then says. The main statement,
`load_exact`, is that exactly the documents with only such values become trees, and that these
mirror them; where the numbers of all locations can be read, a document is refused with the first
place, in the order of places, where a value is no node.
-/
namespace ScriptIR

/-! ### Documents as trees -/

namespace Json

theorem field?_object (key : String) (entries : Dictionary Json) :
    field? key (.object entries) = Dictionary.get? entries key := rfl

/-- The values that a value offers as children. -/
def childItems (v : Json) : List Json :=
  match v.field? "children" with
  | some (.array items) => items
  | _ => []

/-- The value that a document offers as the node at a place. -/
def at? (doc : Json) : Path → Option Json
  | [] => some doc
  | i :: rest => doc.childItems[i]?.bind (·.at? rest)

theorem at?_cons {doc v : Json} {i : Nat} {rest : Path} :
    doc.at? (i :: rest) = some v ↔
      ∃ item, doc.childItems[i]? = some item ∧ item.at? rest = some v := by
  rw [at?, Option.bind_eq_some_iff]

theorem sizeOf_get?_lt {entries : List (String × Json)} {key : String} {v : Json}
    (h : Dictionary.get? entries key = some v) : sizeOf v < sizeOf entries := by
  have member := List.sizeOf_lt_of_mem (Dictionary.mem_of_get? h)
  simp only [Prod.mk.sizeOf_spec] at member
  omega

theorem sizeOf_lt_of_mem_childItems {v item : Json} (h : item ∈ v.childItems) :
    sizeOf item < sizeOf v := by
  cases v with
  | object entries =>
    simp only [childItems, field?] at h
    split at h
    next items found =>
      have array := sizeOf_get?_lt found
      have member := List.sizeOf_lt_of_mem h
      simp only [Json.array.sizeOf_spec, Json.object.sizeOf_spec] at array ⊢
      omega
    next => cases h
  | _ => cases h

/-- What holds of every value if it holds of all that the value offers as children, holds of all. -/
theorem induct_childItems {P : Json → Prop} (h : ∀ v, (∀ item ∈ v.childItems, P item) → P v)
    (v : Json) : P v :=
  h v fun item _ => induct_childItems h item
termination_by sizeOf v
decreasing_by exact sizeOf_lt_of_mem_childItems ‹_›

end Json

/-! ### Fields of a node -/

namespace Document

/-- The first of the spellings under which a value stands that counts, with that value. -/
inductive First (counts : Json → Prop) (entries : Dictionary Json) :
    List String → Option Json → Prop
  | none : First counts entries [] none
  | skip {key : String} {rest : List String} {found : Option Json} :
      (∀ v, entries.get? key = some v → ¬counts v) → First counts entries rest found →
      First counts entries (key :: rest) found
  | here {key : String} {v : Json} (rest : List String) :
      entries.get? key = some v → counts v → First counts entries (key :: rest) (some v)

theorem first_iff {counts : Json → Prop} {entries : Dictionary Json} {value? : String → Option Json}
    (h : ∀ key v, value? key = some v ↔ entries.get? key = some v ∧ counts v)
    {spellings : List String} {found : Option Json} :
    First counts entries spellings found ↔ spellings.findSome? value? = found := by
  induction spellings with
  | nil =>
    constructor
    · rintro ⟨⟩
      rfl
    · rintro rfl
      exact .none
  | cons key rest ih =>
    rw [List.findSome?_cons]
    cases hkey : value? key with
    | none =>
      have skipped : ∀ v, entries.get? key = some v → ¬counts v := by
        intro v found counting
        rw [(h key v).mpr ⟨found, counting⟩] at hkey
        cases hkey
      refine ⟨fun first => ?_, fun found => .skip skipped (ih.mpr found)⟩
      cases first with
      | skip _ later => exact ih.mp later
      | here _ found counting => exact absurd counting (skipped _ found)
    | some v =>
      obtain ⟨found, counting⟩ := (h key v).mp hkey
      refine ⟨fun first => ?_, fun same => same ▸ .here rest found counting⟩
      cases first with
      | skip skipped _ => exact absurd counting (skipped v found)
      | here _ found' _ => rw [← found, found']

/-- A field is what the first value that is not null among its spellings is shown as. -/
def Shows (entries : Dictionary Json) (spellings : List String) (text : Option String) : Prop :=
  ∃ found, First (· ≠ .null) entries spellings found ∧ Option.Rel Json.Displays found text

theorem shows_scalar? (entries : Dictionary Json) (spellings : List String) :
    Shows entries spellings (scalar? entries spellings) := by
  refine ⟨spellings.findSome? fun key => Json.given? key (.object entries),
    (first_iff fun key v => ?_).mpr rfl, ?_⟩
  · rw [Json.given?, Json.field?_object]
    cases Dictionary.get? entries key with
    | none => simp
    | some w => cases w <;> simp +contextual [eq_comm]
  · rw [scalar?]
    cases spellings.findSome? fun key => Json.given? key (.object entries) with
    | none => exact .none
    | some v => exact .some (Json.displays_iff.mpr rfl)

end Document

/-! ### Locations -/

/-- The whole number that a value stands for. -/
inductive Json.Denotes : Json → Int → Prop
  | int (i : Int) : Denotes (.int i) i
  | bool (b : Bool) : Denotes (.bool b) (bit b)
  | float {x : Binary64} {i : Int} : x.truncate? = some i → Denotes (.float x) i
  | string {s : String} {i : Int} : Text.integer? s = some i → Denotes (.string s) i

/-- What an action ends with is what its last part ends with, if the first one ends well. -/
theorem except_bind_eq_ok {ε α β : Type} {m : Except ε α} {k : α → Except ε β} {b : β} :
    (m >>= k) = .ok b ↔ ∃ a, m = .ok a ∧ k a = .ok b := by
  cases m with
  | error e =>
    constructor
    · intro h
      cases h
    · rintro ⟨_, ⟨⟩, _⟩
  | ok a =>
    constructor
    · exact fun h => ⟨a, rfl, h⟩
    · rintro ⟨_, ⟨⟩, h⟩
      exact h

namespace Document

/-- The spellings of the four numbers of a location. -/
def numberSpellings : List (List String) :=
  [["startLine", "line"], ["startColumn", "column"], ["endLine", "end_line"],
    ["endColumn", "end_column"]]

/-- The number of a location under some spellings; it is zero if none of these is there. -/
inductive NumberAt (place : Dictionary Json) (spellings : List String) : Int → Prop
  | absent : First (fun _ => True) place spellings none → NumberAt place spellings 0
  | read {v : Json} {i : Int} :
      First (fun _ => True) place spellings (some v) → v.Denotes i → NumberAt place spellings i

/-- The location of a node. It is in the file that the document names for it if that counts as
given, and else in the source file. -/
def Locates (source : Option String) (given : Option Json) (l : Location) : Prop :=
  match given with
  | some (.object place) =>
    let named := (Dictionary.get? place "file").getD .null
    l.file = (if named.isTruthy then named else sourceFile source) ∧
      NumberAt place ["startLine", "line"] l.line ∧
      NumberAt place ["startColumn", "column"] l.column ∧
      NumberAt place ["endLine", "end_line"] l.endLine ∧
      NumberAt place ["endColumn", "end_column"] l.endColumn
  | _ => l = { file := sourceFile source }

theorem wholeNumber_eq_ok {place v : Json} {i : Int} :
    wholeNumber place v = .ok i ↔ v.Denotes i := by
  constructor
  · intro h
    cases v with
    | int j =>
      cases h
      exact .int i
    | bool b =>
      cases h
      exact .bool b
    | float x =>
      cases x with
      | finite negative m e =>
        cases h
        exact .float rfl
      | nan => cases h
      | infinite negative => cases h
    | string s =>
      rw [wholeNumber] at h
      split at h
      next j hj =>
        cases h
        exact .string hj
      next => cases h
    | null => cases h
    | array items => cases h
    | object entries => cases h
  · intro h
    cases h with
    | int => rfl
    | bool => rfl
    | @float x i truncated =>
      cases x with
      | finite negative m e => exact congrArg Except.ok (Option.some.inj truncated)
      | nan => cases truncated
      | infinite negative => cases truncated
    | string read => rw [wholeNumber, read]

theorem first_numberValue? {place : Dictionary Json} {spellings : List String}
    {found : Option Json} :
    First (fun _ => True) place spellings found ↔ numberValue? place spellings = found :=
  first_iff fun _ _ => by simp

theorem locationNumber_eq_ok {place : Dictionary Json} {spellings : List String} {i : Int} :
    locationNumber place spellings = .ok i ↔ NumberAt place spellings i := by
  rw [locationNumber]
  cases found : numberValue? place spellings with
  | none =>
    have absent := first_numberValue?.mpr found
    refine ⟨fun h => ?_, fun h => ?_⟩
    · cases h
      exact .absent absent
    · cases h with
      | absent => rfl
      | read first _ =>
        rw [first_numberValue?.mp first] at found
        cases found
  | some v =>
    have present := first_numberValue?.mpr found
    refine ⟨fun h => .read present (wholeNumber_eq_ok.mp h), fun h => ?_⟩
    cases h with
    | absent first =>
      rw [first_numberValue?.mp first] at found
      cases found
    | read first denotes =>
      rw [first_numberValue?.mp first] at found
      cases found
      exact wholeNumber_eq_ok.mpr denotes

/-- A source file with a name stands for itself where a location names none. -/
theorem location_eq_ok {source : Option String} (hs : source ≠ some "") {given : Option Json}
    {l : Location} : location source given = .ok l ↔ Locates source given l := by
  have noObject : (pure { file := sourceFile (nonEmpty? source) } : Except LoadFault Location) =
      .ok l ↔ l = { file := sourceFile source } := by
    have same : nonEmpty? source = source := by
      cases source with
      | none => rfl
      | some s =>
        have named : s ≠ "" := fun empty => hs (congrArg some empty)
        simp [nonEmpty?, named]
    rw [same]
    constructor
    · intro h
      cases h
      rfl
    · rintro rfl
      rfl
  cases given with
  | none => exact noObject
  | some v =>
    cases v with
    | object place =>
      constructor
      · intro h
        simp only [location] at h
        obtain ⟨line, hline, h⟩ := except_bind_eq_ok.mp h
        obtain ⟨column, hcolumn, h⟩ := except_bind_eq_ok.mp h
        obtain ⟨endLine, hendLine, h⟩ := except_bind_eq_ok.mp h
        obtain ⟨endColumn, hendColumn, h⟩ := except_bind_eq_ok.mp h
        cases h
        exact ⟨rfl, locationNumber_eq_ok.mp hline, locationNumber_eq_ok.mp hcolumn,
          locationNumber_eq_ok.mp hendLine, locationNumber_eq_ok.mp hendColumn⟩
      · rintro ⟨file, line, column, endLine, endColumn⟩
        obtain ⟨_, _, _, _, _⟩ := l
        simp only [location, locationNumber_eq_ok.mpr line, locationNumber_eq_ok.mpr column,
          locationNumber_eq_ok.mpr endLine, locationNumber_eq_ok.mpr endColumn]
        cases file
        rfl
    | _ => exact noObject

end Document

/-! ### Kinds and tags -/

namespace Kind

theorem name_noSuffix (k : Kind) : "Ast".toList.isSuffixOf k.name.toList = false := by
  cases k <;> decide

theorem find?_name {k : Kind} (h : k ≠ .unknown) :
    named.find? (fun l => l.name == k.name) = some k := by
  cases k <;> first | exact absurd rfl h | decide

/-- A tag names a kind by the kind's name, with or without `Ast` behind it. -/
theorem stem_eq_name {tag : String} {k : Kind} :
    stem tag = k.name ↔ tag = k.name ∨ tag = k.name ++ "Ast" := by
  rw [stem]
  cases suffix : "Ast".toList.isSuffixOf tag.toList with
  | true =>
    obtain ⟨front, split⟩ := List.isSuffixOf_iff_suffix.mp suffix
    have cut : tag.toList.take (tag.length - 3) = front := by
      have length : tag.length = front.length + 3 := by
        rw [← String.length_toList, ← split]
        simp
      rw [length, Nat.add_sub_cancel, ← split, List.take_left]
    have whole : tag = String.ofList front ++ "Ast" := by
      apply String.toList_injective
      rw [String.toList_append, String.toList_ofList, split]
    rw [if_pos rfl, cut]
    constructor
    · intro h
      exact .inr (h ▸ whole)
    · rintro (bare | suffixed)
      · rw [bare, k.name_noSuffix] at suffix
        cases suffix
      · exact (String.append_left_inj _).mp (whole.symm.trans suffixed)
  | false =>
    rw [if_neg (by simp)]
    constructor
    · exact .inl
    · rintro (bare | suffixed)
      · exact bare
      · rw [suffixed, String.toList_append, List.isSuffixOf_iff_suffix.mpr (List.suffix_append _ _)]
          at suffix
        cases suffix

theorem ofTag_eq_iff {tag : String} {k : Kind} (hk : k ≠ .unknown) :
    ofTag tag = k ↔ tag = k.name ∨ tag = k.name ++ "Ast" := by
  rw [← stem_eq_name, ofTag]
  constructor
  · intro h
    cases found : named.find? (fun l => l.name == stem tag) with
    | none =>
      rw [found] at h
      exact absurd h.symm hk
    | some l =>
      rw [found] at h
      have same : l.name = stem tag := by simpa using List.find?_some found
      rw [← same]
      exact congrArg name h
  · intro h
    rw [h, find?_name hk]
    rfl

end Kind

/-! ### Values that can be nodes -/

/-- An object with a tag, whose children count as absent or are an array. -/
inductive Json.IsNode : Json → Prop
  | object {entries : Dictionary Json} (tag : String) : tag ≠ "" →
      (entries.get? "type").or (entries.get? "kind") = some (.string tag) →
      (∀ v, entries.get? "children" = some v → v.isTruthy = true → ∃ items, v = .array items) →
      IsNode (.object entries)

/-- If the location of a value is an object, each of its numbers is absent or can be read. -/
def Json.HasNumbers (v : Json) : Prop :=
  ∀ place, v.field? "location" = some (.object place) →
    ∀ spellings ∈ Document.numberSpellings, ∀ w,
      Document.First (fun _ => True) place spellings (some w) → ∃ i, w.Denotes i

/-- The attributes that an object describes. -/
structure Describes (source : Option String) (entries : Dictionary Json)
    (a : Attributes) : Prop where
  tag : (entries.get? "type").or (entries.get? "kind") = some (.string a.tag)
  kind : ∀ k, k ≠ .unknown → (a.kind = k ↔ a.tag = k.name ∨ a.tag = k.name ++ "Ast")
  code : Document.Shows entries ["code"] a.code
  name : Document.Shows entries ["name"] a.name
  operator : Document.Shows entries ["operator"] a.operator
  unaryToken : Document.Shows entries ["unaryType", "unary_token"] a.unaryToken
  typeText : Document.Shows entries ["codeType", "type_annotation"] a.typeText
  location : Document.Locates source (entries.get? "location") a.location

/-- The tree has the shape of the document, and each node says what its object describes. -/
inductive Mirrors (source : Option String) : Json → Node → Prop
  | node {entries : Dictionary Json} {a : Attributes} {children : List Node} :
      Describes source entries a →
      List.Forall₂ (Mirrors source) (Json.childItems (.object entries)) children →
      Mirrors source (.object entries) ⟨a, children⟩

namespace Document
variable {source : Option String} {entries : Dictionary Json} {path : Path}
variable {notices after : List Notice} {f : LoadFault}

theorem tag?_eq_some {tag : String} :
    tag? entries = some tag ↔
      tag ≠ "" ∧ (entries.get? "type").or (entries.get? "kind") = some (.string tag) := by
  unfold tag?
  generalize (entries.get? "type").or (entries.get? "kind") = found
  split
  next text =>
    rw [nonEmpty?, Option.filter_eq_some_iff, Option.some.injEq, Option.some.injEq,
      Json.string.injEq]
    constructor
    · rintro ⟨rfl, named⟩
      exact ⟨by simpa using named, rfl⟩
    · rintro ⟨named, rfl⟩
      exact ⟨rfl, by simpa using named⟩
  next noText =>
    constructor
    · intro h
      cases h
    · rintro ⟨_, rfl⟩
      exact absurd rfl (noText tag)

theorem childrenAllowed_iff {given : Option Json} :
    childrenAllowed given = true ↔
      ∀ v, given = some v → v.isTruthy = true → ∃ items, v = .array items := by
  cases given with
  | none => simp [childrenAllowed]
  | some v => cases v <;> simp [childrenAllowed]

theorem isNode_object :
    (Json.object entries).IsNode ↔
      ∃ tag, tag? entries = some tag ∧ childrenAllowed (entries.get? "children") = true := by
  constructor
  · rintro ⟨tag, named, found, list⟩
    exact ⟨tag, tag?_eq_some.mpr ⟨named, found⟩, childrenAllowed_iff.mpr list⟩
  · rintro ⟨tag, found, list⟩
    obtain ⟨named, found⟩ := tag?_eq_some.mp found
    exact .object tag named found (childrenAllowed_iff.mp list)

theorem children_eq (source : Option String) (path : Path) (entries : List (String × Json)) :
    children source path entries = nodes source path 0 (Json.childItems (.object entries)) := by
  induction entries with
  | nil => rfl
  | cons entry rest ih =>
    obtain ⟨key, v⟩ := entry
    unfold children
    rw [Json.childItems, Json.field?_object, Dictionary.get?_cons]
    by_cases hkey : key = "children"
    · rw [if_pos hkey, if_pos hkey]
      cases v <;> rfl
    · rw [if_neg hkey, if_neg hkey, ih, Json.childItems, Json.field?_object]

/-! ### Runs of loading -/

section
variable {α β : Type} {m : Loading α} {k : α → Loading β} {s t : List Notice}

theorem bind_eq_ok {b : β} :
    (m >>= k) s = .ok b t ↔ ∃ a u, m s = .ok a u ∧ k a u = .ok b t := by
  change EStateM.bind m k s = _ ↔ _
  rw [EStateM.bind]
  cases m s with
  | ok a u => simp
  | error f u => simp

theorem bind_eq_error :
    (m >>= k) s = .error f t ↔ m s = .error f t ∨ ∃ a u, m s = .ok a u ∧ k a u = .error f t := by
  change EStateM.bind m k s = _ ↔ _
  rw [EStateM.bind]
  cases m s with
  | ok a u => simp
  | error f u => simp

end

/-- What is left to do for a node when its tag is known: its children come before its location. -/
def finish (source : Option String) (path : Path) (tag : String) (entries : Dictionary Json) :
    Loading Node := do
  let children ← nodes source path 0 (Json.childItems (.object entries))
  let place ← settle (location source (entries.get? "location"))
  pure ⟨{ attributes tag entries with location := place }, children⟩

/-- Whether or not the tag of a node is noted, the children are looked at next. -/
theorem node_object (source : Option String) (path : Path) {tag : String}
    (h : tag? entries = some tag) (notices : List Notice) :
    ∃ taken, node source path (.object entries) notices =
      if childrenAllowed (entries.get? "children") = true then finish source path tag entries taken
      else .error (.document (.childrenNotAList path)) taken := by
  have next : ∀ taken, (do
      unless childrenAllowed (entries.get? "children") do refuse (.childrenNotAList path)
      let children ← children source path entries
      let place ← settle (location source (entries.get? "location"))
      pure (⟨{ attributes tag entries with location := place }, children⟩ : Node) : Loading Node)
        taken = if childrenAllowed (entries.get? "children") = true then
          finish source path tag entries taken
        else .error (.document (.childrenNotAList path)) taken := by
    intro taken
    rw [children_eq, finish]
    cases childrenAllowed (entries.get? "children") <;> rfl
  rw [node, h]
  by_cases unknown : (attributes tag entries).kind = .unknown
  · refine ⟨notices ++ [⟨tag, path⟩], ?_⟩
    rw [← next]
    simp only [unknown, if_true]
    rfl
  · refine ⟨notices, ?_⟩
    rw [← next]
    simp only [unknown, if_false]

theorem node_of_isNode (source : Option String) (path : Path) {v : Json} (h : v.IsNode)
    (notices : List Notice) :
    ∃ entries tag taken, v = .object entries ∧ tag? entries = some tag ∧
      node source path v notices = finish source path tag entries taken := by
  cases h with
  | @object entries tag named found list =>
    have htag := tag?_eq_some.mpr ⟨named, found⟩
    obtain ⟨taken, run⟩ := node_object source path htag notices
    rw [if_pos (childrenAllowed_iff.mpr list)] at run
    exact ⟨entries, tag, taken, rfl, htag, run⟩

/-- A value that can be no node is refused with its place. -/
theorem node_of_not_isNode (source : Option String) (path : Path) {v : Json} (h : ¬v.IsNode)
    (notices : List Notice) :
    ∃ e reason after, node source path v notices = .error (.document e) after ∧
      e.message = path.text ++ ": " ++ reason := by
  have noObject : ∀ found, (DocumentError.notAnObject path found).message =
      path.text ++ ": " ++ ("expected an object, got " ++ found) := by
    intro found
    unfold DocumentError.message
    apply String.toList_injective
    simp
  cases v with
  | object entries =>
    cases htag : tag? entries with
    | none =>
      refine ⟨.noTag path, "node has no 'type' tag", notices, ?_, ?_⟩
      · rw [node, htag]
        rfl
      · exact .symm (String.append_assoc ..)
    | some tag =>
      obtain ⟨taken, run⟩ := node_object source path htag notices
      have noList : ¬childrenAllowed (Dictionary.get? entries "children") = true := fun allowed =>
        h (isNode_object.mpr ⟨tag, htag, allowed⟩)
      rw [if_neg noList] at run
      refine ⟨.childrenNotAList path, "'children' must be a list", taken, run, ?_⟩
      exact .symm (String.append_assoc ..)
  | _ => exact ⟨_, _, notices, rfl, noObject _⟩

/-! ### Trees that are loaded -/

theorem describes_attributes {tag : String} (h : tag? entries = some tag) {place : Location}
    (located : Locates source (entries.get? "location") place) :
    Describes source entries { attributes tag entries with location := place } where
  tag := (tag?_eq_some.mp h).2
  kind _ hk := Kind.ofTag_eq_iff hk
  code := shows_scalar? entries _
  name := shows_scalar? entries _
  operator := shows_scalar? entries _
  unaryToken := shows_scalar? entries _
  typeText := shows_scalar? entries _
  location := located

theorem NumberAt.denotes {place : Dictionary Json} {spellings : List String} {i : Int} {v : Json}
    (h : NumberAt place spellings i) (first : First (fun _ => True) place spellings (some v)) :
    v.Denotes i := by
  have value := first_numberValue?.mp first
  cases h with
  | absent missing =>
    rw [first_numberValue?.mp missing] at value
    cases value
  | read found denotes =>
    rw [first_numberValue?.mp found] at value
    cases value
    exact denotes

/-- There is a number under some spellings exactly if the value that is first under them denotes
one, or there is none. -/
theorem exists_numberAt_iff {place : Dictionary Json} {spellings : List String} :
    (∃ i, NumberAt place spellings i) ↔
      ∀ w, First (fun _ => True) place spellings (some w) → ∃ i, w.Denotes i := by
  constructor
  · intro number w first
    obtain ⟨i, number⟩ := number
    exact ⟨i, number.denotes first⟩
  · intro h
    cases first : numberValue? place spellings with
    | none => exact ⟨0, .absent (first_numberValue?.mpr first)⟩
    | some w =>
      have first := first_numberValue?.mpr first
      obtain ⟨i, denotes⟩ := h w first
      exact ⟨i, .read first denotes⟩

theorem hasNumbers_of_locates {l : Location}
    (h : Locates source (entries.get? "location") l) : (Json.object entries).HasNumbers := by
  intro place given spellings hspellings w first
  have given : entries.get? "location" = some (.object place) := given
  rw [given] at h
  obtain ⟨-, line, column, endLine, endColumn⟩ := h
  simp only [numberSpellings, List.mem_cons, List.not_mem_nil, or_false] at hspellings
  rcases hspellings with rfl | rfl | rfl | rfl
  · exact ⟨_, line.denotes first⟩
  · exact ⟨_, column.denotes first⟩
  · exact ⟨_, endLine.denotes first⟩
  · exact ⟨_, endColumn.denotes first⟩

theorem locates_of_hasNumbers (h : (Json.object entries).HasNumbers) :
    ∃ l, Locates source (entries.get? "location") l := by
  cases given : entries.get? "location" with
  | none => exact ⟨_, rfl⟩
  | some v =>
    cases v with
    | object place =>
      have number : ∀ spellings ∈ numberSpellings, ∃ i, NumberAt place spellings i :=
        fun spellings hspellings => exists_numberAt_iff.mpr (h place given spellings hspellings)
      obtain ⟨line, hline⟩ := number ["startLine", "line"] (by simp [numberSpellings])
      obtain ⟨column, hcolumn⟩ := number ["startColumn", "column"] (by simp [numberSpellings])
      obtain ⟨endLine, hendLine⟩ := number ["endLine", "end_line"] (by simp [numberSpellings])
      obtain ⟨endColumn, hendColumn⟩ :=
        number ["endColumn", "end_column"] (by simp [numberSpellings])
      exact ⟨⟨_, line, column, endLine, endColumn⟩, rfl, hline, hcolumn, hendLine, hendColumn⟩
    | _ => exact ⟨_, rfl⟩

/-- Every value that a document offers as a node can be one, and its location can be read. -/
def Sound (v : Json) : Prop :=
  ∀ p w, v.at? p = some w → w.IsNode ∧ w.HasNumbers

theorem sound_of_children {v : Json} (node : v.IsNode) (numbers : v.HasNumbers)
    (h : ∀ item ∈ v.childItems, Sound item) : Sound v := by
  rintro (_ | ⟨i, rest⟩) w hw
  · cases hw
    exact ⟨node, numbers⟩
  · obtain ⟨item, hitem, hw⟩ := Json.at?_cons.mp hw
    exact h item (List.mem_of_getElem? hitem) rest w hw

/-- Loading the value, from anywhere in a document, gives a tree only if the value offers nothing
else than nodes, and then it mirrors the value. -/
def Loads (source : Option String) (v : Json) : Prop :=
  ∀ path notices n after, node source path v notices = .ok n after → Mirrors source v n ∧ Sound v

theorem nodes_load {items : List Json} (h : ∀ item ∈ items, Loads source item) {i : Nat}
    {children : List Node} (run : nodes source path i items notices = .ok children after) :
    List.Forall₂ (Mirrors source) items children ∧ ∀ item ∈ items, Sound item := by
  induction items generalizing i notices children with
  | nil =>
    cases run
    exact ⟨.nil, fun _ absurd => by cases absurd⟩
  | cons item rest ih =>
    rw [nodes] at run
    obtain ⟨first, u, hfirst, run⟩ := bind_eq_ok.mp run
    obtain ⟨others, w, hothers, run⟩ := bind_eq_ok.mp run
    cases run
    obtain ⟨mirrors, sound⟩ := h item List.mem_cons_self _ _ _ _ hfirst
    obtain ⟨mirrorsAll, soundAll⟩ :=
      ih (fun other hother => h other (List.mem_cons_of_mem _ hother))
      hothers
    exact ⟨.cons mirrors mirrorsAll, List.forall_mem_cons.mpr ⟨sound, soundAll⟩⟩

theorem loads (hs : source ≠ some "") (v : Json) : Loads source v := by
  induction v using Json.induct_childItems with
  | h v ih =>
    intro path notices n after run
    by_cases node : v.IsNode
    · obtain ⟨entries, tag, taken, rfl, htag, finished⟩ := node_of_isNode source path node notices
      rw [finished, finish] at run
      obtain ⟨children, u, hchildren, run⟩ := bind_eq_ok.mp run
      obtain ⟨mirrors, sound⟩ := nodes_load ih hchildren
      obtain ⟨place, w, hplace, run⟩ := bind_eq_ok.mp run
      cases run
      cases found : location source (Dictionary.get? entries "location") with
      | error f =>
        rw [found] at hplace
        cases hplace
      | ok l =>
        rw [found] at hplace
        cases hplace
        have located := (location_eq_ok hs).mp found
        exact ⟨.node (describes_attributes htag located) mirrors,
          sound_of_children node (hasNumbers_of_locates located) sound⟩
    · obtain ⟨e, _, u, refused, _⟩ := node_of_not_isNode source path node notices
      rw [refused] at run
      cases run

/-! ### Documents that are refused -/

/-- The value at `path` is refused for a place below it, that of a location that cannot be read, or
else the first place with a value that can be no node, which the fault names. -/
def Refused (path : Path) (v : Json) (f : LoadFault) : Prop :=
  (∃ p w, v.at? p = some w ∧ ¬w.HasNumbers) ∨
    ∃ p w, v.at? p = some w ∧ ¬w.IsNode ∧ (∀ q u, v.at? q = some u → q < p → u.IsNode) ∧
      ∃ e reason, f = .document e ∧ e.message = (path ++ p).text ++ ": " ++ reason

theorem refused_of_child {v item : Json} {j : Nat} (node : v.IsNode)
    (hitem : v.childItems[j]? = some item)
    (before : ∀ k < j, ∀ earlier, v.childItems[k]? = some earlier → Sound earlier)
    (h : Refused (path ++ [j]) item f) : Refused path v f := by
  rcases h with ⟨p, w, hw, numbers⟩ | ⟨p, w, hw, noNode, earlier, e, reason, fault, message⟩
  · exact .inl ⟨j :: p, w, Json.at?_cons.mpr ⟨item, hitem, hw⟩, numbers⟩
  · refine .inr ⟨j :: p, w, Json.at?_cons.mpr ⟨item, hitem, hw⟩, noNode, ?_, e, reason, fault, ?_⟩
    · rintro (_ | ⟨k, q⟩) u hu lt
      · cases hu
        exact node
      · obtain ⟨other, hother, hu⟩ := Json.at?_cons.mp hu
        rcases List.cons_lt_cons_iff.mp lt with left | ⟨rfl, inside⟩
        · exact (before k left other hother q u hu).1
        · rw [hitem] at hother
          cases hother
          exact earlier q u hu inside
    · rw [message, List.append_assoc, List.singleton_append]

/-- The first child that cannot be loaded is refused. -/
theorem nodes_refused (hs : source ≠ some "") {items : List Json} {i : Nat}
    (h : ∀ item ∈ items, ∀ path notices f after, node source path item notices = .error f after →
      Refused path item f)
    (run : nodes source path i items notices = .error f after) :
    ∃ j item, items[j]? = some item ∧ Refused (path ++ [i + j]) item f ∧
      ∀ k < j, ∀ earlier, items[k]? = some earlier → Sound earlier := by
  induction items generalizing i notices with
  | nil => cases run
  | cons item rest ih =>
    rw [nodes] at run
    rcases bind_eq_error.mp run with failed | ⟨first, u, hfirst, run⟩
    · exact ⟨0, item, rfl, h item List.mem_cons_self _ _ _ _ failed, by omega⟩
    · have sound := (loads hs item _ _ _ _ hfirst).2
      rcases bind_eq_error.mp run with failed | ⟨others, w, _, run⟩
      · obtain ⟨j, other, hother, refused, before⟩ :=
          ih (fun other hother => h other (List.mem_cons_of_mem _ hother)) failed
        have shifted : i + (j + 1) = i + 1 + j := by omega
        refine ⟨j + 1, other, hother, shifted ▸ refused, ?_⟩
        rintro (_ | k) hk earlier hearlier
        · cases hearlier
          exact sound
        · exact before k (by omega) earlier hearlier
      · cases run

theorem refuses (hs : source ≠ some "") (v : Json) :
    ∀ path notices f after, node source path v notices = .error f after → Refused path v f := by
  induction v using Json.induct_childItems with
  | h v ih =>
    intro path notices f after run
    by_cases node : v.IsNode
    · obtain ⟨entries, tag, taken, rfl, htag, finished⟩ := node_of_isNode source path node notices
      rw [finished, finish] at run
      rcases bind_eq_error.mp run with failed | ⟨children, u, _, run⟩
      · obtain ⟨j, item, hitem, refused, before⟩ := nodes_refused hs ih failed
        rw [Nat.zero_add] at refused
        exact refused_of_child node hitem before refused
      · refine .inl ⟨[], _, rfl, fun numbers => ?_⟩
        obtain ⟨l, located⟩ := locates_of_hasNumbers numbers
        rw [(location_eq_ok hs).mpr located] at run
        rcases bind_eq_error.mp run with failed | ⟨_, w, _, run⟩
        · cases failed
        · cases run
    · obtain ⟨e, reason, u, refused, message⟩ := node_of_not_isNode source path node notices
      rw [refused] at run
      cases run
      refine .inr ⟨[], v, rfl, node, ?_, e, reason, rfl, ?_⟩
      · intro q _ _ lt
        exact absurd lt (List.not_lt_nil q)
      · rw [List.append_nil, message]

end Document

/-- With a source file that has a name, or without one, exactly the documents that offer nothing
else as nodes than objects with a tag, with an array for their children or none, and with locations
whose numbers can be read, become trees. The tree has the document's shape, and its nodes say what
their objects describe. Where the numbers of all locations can be read, a document that is refused
is so with the place of the first value that can be no node. -/
theorem load_exact (source : Option String) (hs : source ≠ some "") (doc : Json) :
    ((∃ n, (Node.load source doc).1 = .ok n) ↔
      ∀ p v, doc.at? p = some v → v.IsNode ∧ v.HasNumbers) ∧
    (∀ n, (Node.load source doc).1 = .ok n → Mirrors source doc n) ∧
    ((∀ p v, doc.at? p = some v → v.HasNumbers) → ∀ f, (Node.load source doc).1 = .error f →
      ∃ p v, doc.at? p = some v ∧ ¬v.IsNode ∧
        (∀ q w, doc.at? q = some w → q < p → w.IsNode) ∧
        ∃ e reason, f = .document e ∧ e.message = p.text ++ ": " ++ reason) := by
  rw [Node.load]
  cases run : Document.node source [] doc [] with
  | ok n notices =>
    obtain ⟨mirrors, sound⟩ := Document.loads hs doc _ _ _ _ run
    refine ⟨⟨fun _ => sound, fun _ => ⟨n, rfl⟩⟩, fun m same => ?_, fun _ f absurd => ?_⟩
    · cases same
      exact mirrors
    · cases absurd
  | error f notices =>
    have refused := Document.refuses hs doc _ _ _ _ run
    refine ⟨⟨fun ⟨n, absurd⟩ => ?_, fun sound => ?_⟩, fun n absurd => ?_, fun numbers g same => ?_⟩
    · cases absurd
    · rcases refused with ⟨p, v, hv, unreadable⟩ | ⟨p, v, hv, noNode, _⟩
      · exact absurd (sound p v hv).2 unreadable
      · exact absurd (sound p v hv).1 noNode
    · cases absurd
    · cases same
      rcases refused with ⟨p, v, hv, unreadable⟩ | first
      · exact absurd (numbers p v hv) unreadable
      · exact first

/-- A pipeline of one command: tags in both spellings, a line that is written as a text, and fields
that are given as values of other types. -/
theorem load_exact_pipeline :
    let command := Json.object [("kind", .string "Command"),
      ("location", .object [("line", .string " 3")])]
    let doc := Json.object [("type", .string "PipelineAst"), ("code", .int (-7)), ("name", .null),
      ("operator", .bool true), ("unaryType", .null),
      ("unary_token", .float (.finite false 5000000000000000 1)),
      ("codeType", .array [.string "it's", .string "a", .null]), ("children", .array [command])]
    some "a.ps1" ≠ some "" ∧
    (∃ n, (Node.load (some "a.ps1") doc).1 = .ok n ∧ Mirrors (some "a.ps1") doc n ∧
      n.label.code = some "-7" ∧ n.label.name = none ∧
      n.label.operator = some "True" ∧ n.label.unaryToken = some "1e+16" ∧
      n.label.typeText = some "[\"it's\", 'a', None]" ∧
      n.children.map (·.label.location.line) = [3]) ∧
    command.IsNode ∧ command.HasNumbers := by
  intro command doc
  have named : some "a.ps1" ≠ some "" := by decide
  obtain ⟨accepts, mirrors, _⟩ := load_exact (some "a.ps1") named doc
  have loaded : ∃ n, (Node.load (some "a.ps1") doc).1 = .ok n ∧ n.label.code = some "-7" ∧
      n.label.name = none ∧ n.label.operator = some "True" ∧
      n.label.unaryToken = some "1e+16" ∧
      n.label.typeText = some "[\"it's\", 'a', None]" ∧
      n.children.map (·.label.location.line) = [3] :=
    ⟨_, rfl, by decide +kernel⟩
  obtain ⟨n, hn, fields⟩ := loaded
  exact ⟨named, ⟨n, hn, mirrors n hn, fields⟩, accepts.mp ⟨n, hn⟩ [0] command rfl⟩

end ScriptIR
