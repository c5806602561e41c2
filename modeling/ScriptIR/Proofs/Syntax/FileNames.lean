import Mathlib.Data.List.Forall2
import ScriptIR.Diagnostics.Basic
import ScriptIR.Proofs.Syntax.Overflow
import ScriptIR.Proofs.Syntax.Sites

/-!
# The files of loaded trees

The numbers of a location are read when a document is loaded, and a document with one that cannot be
read is refused. The file is taken as it stands. So a value that is no text, and does not count as
absent, passes into the tree, and neither the location nor a diagnostic about its node can be shown.
No other document has that effect: everywhere else the file is a text or absent.
-/
namespace ScriptIR

/-- A value that counts as given, but is no text. -/
def Json.NotText (v : Json) : Prop :=
  v.isTruthy = true ∧ ∀ s, v ≠ .string s

/-- The location of the value names as its file what is no text. -/
def Json.MisnamesFile (v : Json) : Prop :=
  ∃ place, v.field? "location" = some (.object place) ∧
    ∃ named, Dictionary.get? place "file" = some named ∧ named.NotText

/-- What can stand where a file is shown: a text, or nothing. -/
def Json.IsFile (v : Json) : Prop :=
  v = .null ∨ ∃ s, v = .string s

namespace Json
variable {v : Json}

theorem NotText.isFileName_eq_false (h : v.NotText) : isFileName v = false := by
  obtain ⟨given, other⟩ := h
  cases v with
  | string s => exact absurd rfl (other s)
  | _ => simp [isFileName, given]

theorem IsFile.isFileName_eq_true (h : v.IsFile) : isFileName v = true := by
  rcases h with rfl | ⟨s, rfl⟩ <;> rfl

/-- What is absent counts as not given, and so names nothing. -/
theorem misnamesFile_iff {place : Dictionary Json}
    (given : v.field? "location" = some (.object place)) :
    v.MisnamesFile ↔ ((Dictionary.get? place "file").getD .null).NotText := by
  simp only [MisnamesFile, given, Option.some.injEq, object.injEq, exists_eq_left']
  cases Dictionary.get? place "file" with
  | none => simp [NotText, isTruthy]
  | some named => simp

end Json

namespace Document
variable {source : Option String} {v item : Json} {n : Node} {l : Location} {path : Path}

theorem isFile_sourceFile (source : Option String) : (sourceFile source).IsFile := by
  cases source with
  | none => exact .inl rfl
  | some s => exact .inr ⟨s, rfl⟩

/-- The location of a value that is offered as a node. -/
def Locating (source : Option String) (v : Json) (l : Location) : Prop :=
  location source (v.field? "location") = .ok l

/-- What an object reads as its four numbers, and what it names as its file if
that counts as given. -/
theorem location_object {place : Dictionary Json}
    (h : location source (some (.object place)) = .ok l) :
    List.Forall₂ (NumberAt place) numberSpellings [l.line, l.column, l.endLine, l.endColumn] ∧
      l.file = if ((Dictionary.get? place "file").getD .null).isTruthy then
        (Dictionary.get? place "file").getD .null else sourceFile source := by
  simp only [location] at h
  obtain ⟨line, hline, h⟩ := except_bind_eq_ok.mp h
  obtain ⟨column, hcolumn, h⟩ := except_bind_eq_ok.mp h
  obtain ⟨endLine, hendLine, h⟩ := except_bind_eq_ok.mp h
  obtain ⟨endColumn, hendColumn, h⟩ := except_bind_eq_ok.mp h
  cases h
  refine ⟨?_, rfl⟩
  exact .cons (locationNumber_eq_ok.mp hline) <| .cons (locationNumber_eq_ok.mp hcolumn) <|
    .cons (locationNumber_eq_ok.mp hendLine) <| .cons (locationNumber_eq_ok.mp hendColumn) .nil

/-- A value that is named as a file is no text and is taken as it stands, or the file is a text or
absent. -/
theorem file_of_named (source : Option String) (named : Json) :
    let file := if named.isTruthy then named else sourceFile source
    ¬named.NotText ∧ file.IsFile ∨ named.NotText ∧ file.NotText := by
  intro file
  by_cases given : named.isTruthy = true
  · have taken : file = named := if_pos given
    rw [taken]
    by_cases text : ∃ s, named = .string s
    · exact .inl ⟨fun bad => bad.2 _ text.choose_spec, .inr text⟩
    · have bad : named.NotText := ⟨given, fun s same => text ⟨s, same⟩⟩
      exact .inr ⟨bad, bad⟩
  · have absent : file = sourceFile source := if_neg given
    rw [absent]
    exact .inl ⟨fun bad => given bad.1, isFile_sourceFile source⟩

/-- The file of a location is a text or absent, unless the value misnames it. -/
theorem Locating.file (h : Locating source v l) :
    ¬v.MisnamesFile ∧ l.file.IsFile ∨ v.MisnamesFile ∧ l.file.NotText := by
  unfold Locating at h
  by_cases isObject : ∃ place, v.field? "location" = some (.object place)
  · obtain ⟨place, given⟩ := isObject
    rw [given] at h
    rw [Json.misnamesFile_iff given, (location_object h).2]
    exact file_of_named source _
  · have named : ¬v.MisnamesFile := fun ⟨place, given, _⟩ => isObject ⟨place, given⟩
    -- Anything but an object is passed over, and the file is that of the document.
    have unplaced : location source (v.field? "location") =
        .ok { file := sourceFile (nonEmpty? source) } := by
      unfold location
      split
      next place given => exact absurd ⟨place, given⟩ isObject
      next => rfl
    rw [unplaced] at h
    cases h
    exact .inl ⟨named, isFile_sourceFile _⟩

/-! ### Trees -/

/-- The tree has the shape of the document, and its nodes have the locations of their values. -/
inductive Placed (source : Option String) : Json → Node → Prop
  | node {v : Json} {a : Attributes} {children : List Node} : Locating source v a.location →
      List.Forall₂ (Placed source) v.childItems children → Placed source v ⟨a, children⟩

theorem nodes_placed {items : List Json} (h : ∀ item ∈ items, ∀ path notices n after,
      node source path item notices = .ok n after → Placed source item n)
    {i : Nat} {notices after : List Notice} {children : List Node}
    (run : nodes source path i items notices = .ok children after) :
    List.Forall₂ (Placed source) items children := by
  induction items generalizing i notices children with
  | nil =>
    cases run
    exact .nil
  | cons item rest ih =>
    rw [nodes] at run
    obtain ⟨first, u, hfirst, run⟩ := bind_eq_ok.mp run
    obtain ⟨others, w, hothers, run⟩ := bind_eq_ok.mp run
    cases run
    exact .cons (h item List.mem_cons_self _ _ _ _ hfirst)
      (ih (fun other hother => h other (List.mem_cons_of_mem _ hother)) hothers)

theorem node_placed (source : Option String) (v : Json) : ∀ path notices n after,
    node source path v notices = .ok n after → Placed source v n := by
  induction v using Json.induct_childItems with
  | h v ih =>
    intro path notices n after run
    by_cases isNode : v.IsNode
    · obtain ⟨entries, tag, taken, rfl, -, finished⟩ := node_of_isNode source path isNode notices
      rw [finished, finish] at run
      obtain ⟨children, u, hchildren, run⟩ := bind_eq_ok.mp run
      obtain ⟨place, w, hplace, run⟩ := bind_eq_ok.mp run
      cases run
      exact .node (settle_eq_ok.mp hplace).1 (nodes_placed ih hchildren)
    · obtain ⟨e, -, u, refused, -⟩ := node_of_not_isNode source path isNode notices
      rw [refused] at run
      cases run

end Document

/-! ### Nodes and values at one place -/

theorem exists_getElem?_of_forall₂ {α β : Type} {R : α → β → Prop} {as : List α} {bs : List β}
    (h : List.Forall₂ R as bs) {j : Nat} {b : β} (hb : bs[j]? = some b) :
    ∃ a, as[j]? = some a ∧ R a b := by
  induction h generalizing j with
  | nil => cases hb
  | cons first _ ih =>
    cases j with
    | zero =>
      cases hb
      exact ⟨_, rfl, first⟩
    | succ j => exact ih hb

theorem Node.mem_sitesOf {path : Path} {i : Nat} {children : List Node} {site : Site} :
    site ∈ sitesOf path i children ↔ ∃ (j : Nat) (child : Node), children[j]? = some child ∧
      site ∈ sites (path ++ [i + j]) child := by
  induction children generalizing i with
  | nil => simp [sitesOf]
  | cons child rest ih =>
    rw [sitesOf, List.mem_append, ih]
    constructor
    · rintro (first | ⟨j, c, hc, inside⟩)
      · exact ⟨0, child, rfl, first⟩
      · refine ⟨j + 1, c, hc, ?_⟩
        rwa [show i + (j + 1) = i + 1 + j by omega]
    · rintro ⟨_ | j, c, hc, inside⟩
      · cases hc
        exact .inl inside
      · refine .inr ⟨j, c, hc, ?_⟩
        rwa [show i + 1 + j = i + (j + 1) by omega]

namespace Document.Placed
variable {source : Option String} {v w : Json} {n : Node} {path rest : Path}

theorem value_of_site (h : Placed source v n) {site : Site} (hsite : site ∈ n.sites path) :
    ∃ rest w, site.path = path ++ rest ∧ v.at? rest = some w ∧
      Locating source w site.attributes.location := by
  induction n using Tree.induct generalizing v path with
  | node a children ih =>
    obtain ⟨located, below⟩ := h
    rw [Node.sites] at hsite
    rcases List.mem_cons.mp hsite with rfl | inside
    · exact ⟨[], v, (List.append_nil path).symm, rfl, located⟩
    · obtain ⟨j, child, hchild, inside⟩ := Node.mem_sitesOf.mp inside
      obtain ⟨item, hitem, placed⟩ := exists_getElem?_of_forall₂ below hchild
      obtain ⟨rest, w, place, value, located⟩ :=
        ih child (List.mem_of_getElem? hchild) placed inside
      refine ⟨j :: rest, w, ?_, Json.at?_cons.mpr ⟨item, hitem, value⟩, located⟩
      rw [place, Nat.zero_add, List.append_assoc, List.singleton_append]

theorem site_of_value (h : Placed source v n) (path : Path) (value : v.at? rest = some w) :
    ∃ site ∈ n.sites path, site.path = path ++ rest ∧
      Locating source w site.attributes.location := by
  induction rest generalizing v n path with
  | nil =>
    cases value
    obtain ⟨located, below⟩ := h
    exact ⟨_, Node.site_mem_sites path _, (List.append_nil path).symm, located⟩
  | cons j rest ih =>
    obtain ⟨item, hitem, value⟩ := Json.at?_cons.mp value
    obtain ⟨located, below⟩ := h
    obtain ⟨child, hchild, placed⟩ := exists_getElem?_of_forall₂ below.flip hitem
    obtain ⟨site, inside, place, located⟩ := ih placed (path ++ [j]) value
    refine ⟨site, ?_, by rw [place, List.append_assoc, List.singleton_append], located⟩
    rw [Node.sites]
    refine List.mem_cons_of_mem _ (Node.mem_sitesOf.mpr ⟨j, child, hchild, ?_⟩)
    rwa [Nat.zero_add]

end Document.Placed

/-! ### What can be shown -/

/-- The location of the node can be shown, and so can every diagnostic that a collector makes of a
report about the node. -/
structure Site.Renders (site : Site) : Prop where
  location : ∃ text, site.attributes.location.text? = .ok text
  diagnostic : ∀ (c : Collector) (r : Report), r.subject = some site.attributes →
    ∃ text, (c.entry r).text? = .ok text

/-- Neither the location of the node nor any diagnostic about the node can be shown. -/
structure Site.Fails (site : Site) : Prop where
  location : ∃ e, site.attributes.location.text? = .error e
  diagnostic : ∀ (c : Collector) (r : Report), r.subject = some site.attributes →
    ∃ e, (c.entry r).text? = .error e

theorem Collector.file_entry (c : Collector) {r : Report} {a : Attributes}
    (h : r.subject = some a) :
    (c.entry r).file = a.location.file := by
  rw [entry, h]
  rfl

theorem Site.renders_of_shown {site : Site} (h : site.Shown) : site.Renders where
  location := ⟨_, if_pos h⟩
  diagnostic c r about := by
    rw [Site.Shown, ← c.file_entry about] at h
    exact ⟨_, if_pos h⟩

theorem Site.fails_of_not_shown {site : Site} (h : ¬site.Shown) : site.Fails where
  location := ⟨_, if_neg h⟩
  diagnostic c r about := by
    rw [Site.Shown, ← c.file_entry about] at h
    exact ⟨_, if_neg h⟩

/-- Every node of a loaded tree has the four numbers that its object gives for its location, if it
gives one. Its file is a text or absent, and its location and all diagnostics about it can be shown,
unless the object names as its file what is no text: then that is the file of the node, and nothing
of this can be shown. So the files of a loaded tree can be shown exactly if no object of the
document misnames one. -/
theorem load_shows_files (source : Option String) (doc : Json) {n : Node}
    (h : (Node.load source doc).1 = .ok n) :
    (∀ site ∈ n.sites [], ∃ v, doc.at? site.path = some v ∧
      (∀ place, v.field? "location" = some (.object place) →
        List.Forall₂ (Document.NumberAt place) Document.numberSpellings
          [site.attributes.location.line, site.attributes.location.column,
            site.attributes.location.endLine, site.attributes.location.endColumn]) ∧
      (¬v.MisnamesFile → site.attributes.location.file.IsFile ∧ site.Renders) ∧
      (v.MisnamesFile → site.attributes.location.file.NotText ∧ site.Fails)) ∧
    (n.FilesShown ↔ ∀ p v, doc.at? p = some v → ¬v.MisnamesFile) := by
  have placed : Document.Placed source doc n := by
    unfold Node.load at h
    split at h
    next n notices run =>
      cases h
      exact Document.node_placed source doc [] [] n notices run
    next => cases h
  refine ⟨fun site hsite => ?_, fun shown p v value misnamed => ?_, fun named site hsite => ?_⟩
  · obtain ⟨rest, v, place, value, located⟩ := placed.value_of_site hsite
    rw [place, List.nil_append]
    refine ⟨v, value, fun place given => ?_, fun named => ?_, fun misnamed => ?_⟩
    · rw [Document.Locating, given] at located
      exact (Document.location_object located).1
    · obtain ⟨-, file⟩ | ⟨misnamed, -⟩ := located.file
      · exact ⟨file, Site.renders_of_shown file.isFileName_eq_true⟩
      · exact absurd misnamed named
    · obtain ⟨named, -⟩ | ⟨-, file⟩ := located.file
      · exact absurd misnamed named
      · exact ⟨file, Site.fails_of_not_shown (Bool.eq_false_iff.mp file.isFileName_eq_false)⟩
  · obtain ⟨site, hsite, -, located⟩ := placed.site_of_value [] value
    obtain ⟨named, -⟩ | ⟨-, file⟩ := located.file
    · exact named misnamed
    · have unseen := file.isFileName_eq_false
      rw [show isFileName site.attributes.location.file = true from shown site hsite] at unseen
      cases unseen
  · obtain ⟨rest, v, -, value, located⟩ := placed.value_of_site hsite
    obtain ⟨-, file⟩ | ⟨misnamed, -⟩ := located.file
    · exact file.isFileName_eq_true
    · exact absurd misnamed (named rest v value)

/-- A number as a file is taken into the tree. -/
theorem load_shows_files_number :
    let doc := Json.object [("type", .string "Command"), ("location", .object [("file", .int 5)])]
    ∃ n, (Node.load none doc).1 = .ok n ∧ ¬n.FilesShown ∧ (Site.root n).Fails := by
  intro doc
  have misnamed : doc.MisnamesFile := ⟨_, rfl, .int 5, rfl, rfl, by simp⟩
  refine ⟨_, rfl, ?_⟩
  obtain ⟨nodes, files⟩ := load_shows_files none doc rfl
  obtain ⟨v, value, -, -, fails⟩ := nodes _ (Node.site_mem_sites [] _)
  cases value
  exact ⟨fun shown => files.mp shown [] doc rfl misnamed, (fails misnamed).2⟩

end ScriptIR
