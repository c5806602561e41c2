import ScriptIR.Proofs.Syntax.Loading

/-!
# Infinite numbers in locations

A number of a location that is infinite stands for no whole number, and a document with one is not
refused as others are: loading ends with a fault of its own. A node is looked at before its
children, and its location behind them. `Json.Reaches` says that loading comes to the location at a
place, and `load_ends` that it ends with an infinite number exactly if it comes to one.
-/
namespace ScriptIR

/-- Of the location's numbers, the first one that cannot be read is infinite. -/
def Json.Overflows (v : Json) : Prop :=
  ∃ place, v.field? "location" = some (.object place) ∧
    ∃ before spellings after, Document.numberSpellings = before ++ spellings :: after ∧
      (∀ earlier ∈ before, ∀ w, Document.First (fun _ => True) place earlier (some w) →
        ∃ i, w.Denotes i) ∧
      ∃ negative, Document.First (fun _ => True) place spellings
        (some (.float (.infinite negative)))

/-- The location at `q` is read before the one at `p`: it is below that, or further left. -/
def Path.IsReadBefore (q p : Path) : Prop :=
  p <+: q ∧ q ≠ p ∨ q < p ∧ ¬q <+: p

/-- Loading comes to the location at a place: the values up to it and below it can be nodes, and the
locations before it can be read. -/
structure Json.Reaches (doc : Json) (p : Path) : Prop where
  nodes : ∀ q w, doc.at? q = some w → q < p ∨ p <+: q → w.IsNode
  numbers : ∀ q w, doc.at? q = some w → q.IsReadBefore p → w.HasNumbers

/-! ### The first failure among several -/

/-- A traversal fails with the first failure of its parts. -/
theorem mapM_eq_error {ε α β : Type} {f : α → Except ε β} {xs : List α} {e : ε} :
    xs.mapM f = .error e ↔ ∃ before x after, xs = before ++ x :: after ∧
      (∀ y ∈ before, ∃ b, f y = .ok b) ∧ f x = .error e := by
  induction xs with
  | nil => simp [pure, Except.pure]
  | cons x xs ih =>
    rw [List.mapM_cons]
    cases hx : f x with
    | error e' =>
      have first : (Except.error e' >>= fun b => xs.mapM f >>= fun bs => pure (b :: bs)) =
          (Except.error e : Except ε (List β)) ↔ e' = e := by
        simp [bind, Except.bind]
      rw [first]
      constructor
      · rintro rfl
        exact ⟨[], x, xs, rfl, by simp, hx⟩
      · rintro ⟨_ | ⟨y, before⟩, z, after, split, fine, fails⟩
        · obtain ⟨rfl, _⟩ := List.cons.inj split
          exact Except.error.inj (hx.symm.trans fails)
        · obtain ⟨rfl, _⟩ := List.cons.inj split
          obtain ⟨b, hb⟩ := fine x List.mem_cons_self
          rw [hx] at hb
          cases hb
    | ok b =>
      have rest : (Except.ok b >>= fun b => xs.mapM f >>= fun bs => pure (b :: bs)) = .error e ↔
          xs.mapM f = .error e := by
        cases xs.mapM f <;> simp [bind, Except.bind, pure, Except.pure]
      rw [rest, ih]
      constructor
      · rintro ⟨before, z, after, rfl, fine, fails⟩
        exact ⟨x :: before, z, after, rfl, List.forall_mem_cons.mpr ⟨⟨b, hx⟩, fine⟩, fails⟩
      · rintro ⟨_ | ⟨y, before⟩, z, after, split, fine, fails⟩
        · obtain ⟨rfl, _⟩ := List.cons.inj split
          rw [hx] at fails
          cases fails
        · obtain ⟨rfl, rfl⟩ := List.cons.inj split
          exact ⟨before, z, after, rfl, (List.forall_mem_cons.mp fine).2, fails⟩

/-- A traversal succeeds if all its parts do. -/
theorem mapM_isOk_iff {ε α β : Type} {f : α → Except ε β} {xs : List α} :
    (∃ bs, xs.mapM f = .ok bs) ↔ ∀ x ∈ xs, ∃ b, f x = .ok b := by
  induction xs with
  | nil => exact ⟨fun _ => by simp, fun _ => ⟨[], rfl⟩⟩
  | cons x xs ih =>
    rw [List.forall_mem_cons, ← ih, List.mapM_cons]
    constructor
    · rintro ⟨_, h⟩
      obtain ⟨b, hb, h⟩ := except_bind_eq_ok.mp h
      obtain ⟨bs, hbs, _⟩ := except_bind_eq_ok.mp h
      exact ⟨⟨b, hb⟩, bs, hbs⟩
    · rintro ⟨⟨b, hb⟩, bs, hbs⟩
      exact ⟨b :: bs, by rw [hb, hbs]; rfl⟩

namespace Document
variable {source : Option String} {place : Dictionary Json} {entries : List (String × Json)}
variable {path : Path} {notices after : List Notice} {v : Json}

/-! ### Locations -/

theorem wholeNumber_eq_infinite {place v : Json} :
    wholeNumber place v = .error .infiniteNumber ↔ ∃ negative, v = .float (.infinite negative) := by
  constructor
  · intro h
    unfold wholeNumber at h
    split at h
    case h_3 negative => exact ⟨negative, rfl⟩
    all_goals first
      | cases h
      | (split at h <;> cases h)
  · rintro ⟨negative, rfl⟩
    rfl

theorem locationNumber_eq_infinite {spellings : List String} :
    locationNumber place spellings = .error .infiniteNumber ↔
      ∃ negative, First (fun _ => True) place spellings (some (.float (.infinite negative))) := by
  simp only [first_numberValue?]
  rw [locationNumber]
  cases numberValue? place spellings with
  | none => simp
  | some w => simp only [wholeNumber_eq_infinite, Option.some.injEq]

/-- Whatever its source file, a location is read by reading its numbers, one after the other. -/
theorem location_numbers (source : Option String) (place : Dictionary Json) :
    (location source (some (.object place))).map
        (fun l => [l.line, l.column, l.endLine, l.endColumn]) =
      numberSpellings.mapM (locationNumber place) := by
  simp only [location, numberSpellings, List.mapM_cons, List.mapM_nil]
  cases locationNumber place ["startLine", "line"] <;> try rfl
  cases locationNumber place ["startColumn", "column"] <;> try rfl
  cases locationNumber place ["endLine", "end_line"] <;> try rfl
  cases locationNumber place ["endColumn", "end_column"] <;> rfl

theorem number_isOk_iff {spellings : List String} :
    (∃ i, locationNumber place spellings = .ok i) ↔
      ∀ w, First (fun _ => True) place spellings (some w) → ∃ i, w.Denotes i := by
  simp only [locationNumber_eq_ok, exists_numberAt_iff]

theorem location_isOk_iff (source : Option String) :
    (∃ l, location source (Dictionary.get? entries "location") = .ok l) ↔
      (Json.object entries).HasNumbers := by
  rw [Json.HasNumbers, Json.field?_object]
  cases given : Dictionary.get? entries "location" with
  | none => exact ⟨nofun, fun _ => ⟨_, rfl⟩⟩
  | some v =>
    cases v with
    | object place =>
      have readable : (∃ l, location source (some (.object place)) = .ok l) ↔
          ∃ is, numberSpellings.mapM (locationNumber place) = .ok is := by
        rw [← location_numbers source place]
        cases location source (some (.object place)) <;> simp [Except.map]
      rw [readable, mapM_isOk_iff]
      simp only [number_isOk_iff, Option.some.injEq, Json.object.injEq, forall_eq']
    | _ => exact ⟨nofun, fun _ => ⟨_, rfl⟩⟩

theorem location_infinite_iff (source : Option String) :
    location source (Dictionary.get? entries "location") = .error .infiniteNumber ↔
      (Json.object entries).Overflows := by
  rw [Json.Overflows, Json.field?_object]
  cases given : Dictionary.get? entries "location" with
  | none => exact ⟨nofun, nofun⟩
  | some v =>
    cases v with
    | object place =>
      have unreadable : location source (some (.object place)) = .error .infiniteNumber ↔
          numberSpellings.mapM (locationNumber place) = .error .infiniteNumber := by
        rw [← location_numbers source place]
        cases location source (some (.object place)) <;> simp [Except.map]
      rw [unreadable, mapM_eq_error]
      simp only [number_isOk_iff, locationNumber_eq_infinite, Option.some.injEq, Json.object.injEq,
        exists_eq_left']
    | _ => exact ⟨nofun, nofun⟩

/-! ### Where loading ends -/

/-- Loading the value ends with an infinite number: that of its own location, when its children are
loaded, or of one below a child, when the children in front of that are. -/
inductive Overruns : Json → Prop
  | own {v : Json} : v.IsNode → (∀ item ∈ v.childItems, Sound item) → v.Overflows → Overruns v
  | child {v item : Json} {j : Nat} : v.IsNode → v.childItems[j]? = some item →
      (∀ k < j, ∀ earlier, v.childItems[k]? = some earlier → Sound earlier) → Overruns item →
      Overruns v

/-- From anywhere in a document, loading the value gives a tree exactly if it is sound, and ends
with an infinite number exactly if it overruns. -/
def Ends (source : Option String) (v : Json) : Prop :=
  ∀ path notices, ((∃ n after, node source path v notices = .ok n after) ↔ Sound v) ∧
    ((∃ after, node source path v notices = .error .infiniteNumber after) ↔ Overruns v)

theorem sound_iff : Sound v ↔ v.IsNode ∧ v.HasNumbers ∧ ∀ item ∈ v.childItems, Sound item := by
  constructor
  · intro sound
    refine ⟨(sound [] v rfl).1, (sound [] v rfl).2, fun item hitem p w hw => ?_⟩
    obtain ⟨i, hi⟩ := List.mem_iff_getElem?.mp hitem
    exact sound (i :: p) w (Json.at?_cons.mpr ⟨item, hi, hw⟩)
  · rintro ⟨node, numbers, children⟩
    exact sound_of_children node numbers children

/-- A list of nodes ends with an infinite number where the first node that is not loaded does. -/
theorem nodes_end {items : List Json} (h : ∀ item ∈ items, Ends source item) (path : Path) (i : Nat)
    (notices : List Notice) :
    ((∃ ns after, nodes source path i items notices = .ok ns after) ↔ ∀ item ∈ items, Sound item) ∧
      ((∃ after, nodes source path i items notices = .error .infiniteNumber after) ↔
        ∃ (j : Nat) (item : Json), items[j]? = some item ∧
          (∀ k < j, ∀ earlier, items[k]? = some earlier → Sound earlier) ∧ Overruns item) := by
  induction items generalizing i notices with
  | nil =>
    refine ⟨⟨fun _ => by simp, fun _ => ⟨[], notices, rfl⟩⟩, ?_, ?_⟩
    · rintro ⟨_, ⟨⟩⟩
    · rintro ⟨_, _, ⟨⟩, _⟩
  | cons item rest ih =>
    obtain ⟨loaded, infinite⟩ := h item List.mem_cons_self (path ++ [i]) notices
    have restEnds := fun taken => ih (fun other hother => h other (List.mem_cons_of_mem _ hother))
      (i + 1) taken
    rw [List.forall_mem_cons]
    simp only [nodes, bind_eq_ok, bind_eq_error]
    refine ⟨⟨?_, ?_⟩, ?_, ?_⟩
    · rintro ⟨_, _, first, taken, hfirst, others, taken', hothers, _⟩
      exact ⟨loaded.mp ⟨first, taken, hfirst⟩, (restEnds taken).1.mp ⟨others, taken', hothers⟩⟩
    · rintro ⟨sound, soundRest⟩
      obtain ⟨first, taken, hfirst⟩ := loaded.mpr sound
      obtain ⟨others, taken', hothers⟩ := (restEnds taken).1.mpr soundRest
      exact ⟨_, _, first, taken, hfirst, others, taken', hothers, rfl⟩
    · rintro ⟨after, failed | ⟨first, taken, hfirst, failed | ⟨_, _, _, ⟨⟩⟩⟩⟩
      · exact ⟨0, item, rfl, by omega, infinite.mp ⟨after, failed⟩⟩
      · obtain ⟨j, other, hother, before, overruns⟩ := (restEnds taken).2.mp ⟨after, failed⟩
        refine ⟨j + 1, other, hother, ?_, overruns⟩
        rintro (_ | k) hk earlier hearlier
        · cases hearlier
          exact loaded.mp ⟨first, taken, hfirst⟩
        · exact before k (by omega) earlier hearlier
    · rintro ⟨_ | j, other, hother, before, overruns⟩
      · cases hother
        obtain ⟨after, failed⟩ := infinite.mpr overruns
        exact ⟨after, .inl failed⟩
      · obtain ⟨first, taken, hfirst⟩ := loaded.mpr (before 0 (by omega) item rfl)
        obtain ⟨after, failed⟩ := (restEnds taken).2.mpr
          ⟨j, other, hother, fun k hk => before (k + 1) (by omega), overruns⟩
        exact ⟨after, .inr ⟨first, taken, hfirst, .inl failed⟩⟩

theorem settle_eq_ok {α : Type} {x : Except LoadFault α} {a : α} :
    settle x notices = .ok a after ↔ x = .ok a ∧ notices = after := by
  cases x with
  | error f => exact ⟨nofun, nofun⟩
  | ok b =>
    change EStateM.Result.ok b notices = .ok a after ↔ _
    simp

theorem settle_eq_error {α : Type} {x : Except LoadFault α} {f : LoadFault} :
    settle x notices = .error f after ↔ x = .error f ∧ notices = after := by
  cases x with
  | ok b => exact ⟨nofun, nofun⟩
  | error g =>
    change EStateM.Result.error g notices = .error f after ↔ _
    simp

theorem ends (source : Option String) (v : Json) : Ends source v := by
  induction v using Json.induct_childItems with
  | h v ih =>
    intro path notices
    by_cases isNode : v.IsNode
    · obtain ⟨entries, tag, taken, rfl, _, finished⟩ := node_of_isNode source path isNode notices
      obtain ⟨loaded, infinite⟩ := nodes_end ih path 0 taken
      rw [sound_iff, ← loaded, ← location_isOk_iff source]
      simp only [finished, finish, bind_eq_ok, bind_eq_error, settle_eq_ok, settle_eq_error]
      refine ⟨⟨?_, ?_⟩, ?_, ?_⟩
      · rintro ⟨_, _, children, _, hchildren, place, _, ⟨hplace, _⟩, _⟩
        exact ⟨isNode, ⟨place, hplace⟩, children, _, hchildren⟩
      · rintro ⟨_, ⟨place, hplace⟩, children, after, hchildren⟩
        exact ⟨_, _, children, after, hchildren, place, after, ⟨hplace, rfl⟩, rfl⟩
      · rintro ⟨after, failed | ⟨children, _, hchildren, ⟨hplace, _⟩ | ⟨_, _, _, ⟨⟩⟩⟩⟩
        · obtain ⟨j, item, hitem, before, overruns⟩ := infinite.mp ⟨after, failed⟩
          exact .child isNode hitem before overruns
        · exact .own isNode (loaded.mp ⟨children, _, hchildren⟩)
            ((location_infinite_iff source).mp hplace)
      · rintro (⟨_, sound, overflows⟩ | ⟨_, hitem, before, overruns⟩)
        · obtain ⟨children, after, hchildren⟩ := loaded.mpr sound
          exact ⟨after, .inr ⟨children, after, hchildren, .inl
            ⟨(location_infinite_iff source).mpr overflows, rfl⟩⟩⟩
        · obtain ⟨after, failed⟩ := infinite.mpr ⟨_, _, hitem, before, overruns⟩
          exact ⟨after, .inl failed⟩
    · obtain ⟨e, _, u, refused, _⟩ := node_of_not_isNode source path isNode notices
      rw [refused]
      refine ⟨⟨?_, fun sound => absurd (sound_iff.mp sound).1 isNode⟩, ?_, ?_⟩
      · rintro ⟨_, _, ⟨⟩⟩
      · rintro ⟨_, ⟨⟩⟩
      rintro (⟨node, _, _⟩ | ⟨node, _, _, _⟩) <;> exact absurd node isNode

end Document

/-! ### Places that loading comes to -/

theorem Path.isReadBefore_cons {k j : Nat} {q p : Path} :
    Path.IsReadBefore (k :: q) (j :: p) ↔ k < j ∨ k = j ∧ Path.IsReadBefore q p := by
  simp only [Path.IsReadBefore, List.cons_prefix_cons, List.cons_lt_cons_iff, ne_eq,
    List.cons.injEq]
  grind

namespace Json
variable {v item : Json} {j : Nat} {rest : Path}

theorem reaches_nil : v.Reaches [] ↔ v.IsNode ∧ ∀ item ∈ v.childItems, Document.Sound item := by
  constructor
  · rintro ⟨nodes, numbers⟩
    refine ⟨nodes [] v rfl (.inr List.nil_prefix), fun item hitem q w hw => ?_⟩
    obtain ⟨i, hi⟩ := List.mem_iff_getElem?.mp hitem
    have below : v.at? (i :: q) = some w := at?_cons.mpr ⟨item, hi, hw⟩
    exact ⟨nodes _ w below (.inr List.nil_prefix),
      numbers _ w below (.inl ⟨List.nil_prefix, List.cons_ne_nil i q⟩)⟩
  · rintro ⟨node, sound⟩
    constructor
    · rintro (_ | ⟨i, q⟩) w hw _
      · cases hw
        exact node
      · obtain ⟨item, hitem, hw⟩ := at?_cons.mp hw
        exact (sound item (List.mem_of_getElem? hitem) q w hw).1
    · rintro (_ | ⟨i, q⟩) w hw before
      · rcases before with ⟨_, different⟩ | ⟨lt, _⟩
        · exact absurd rfl different
        · exact absurd lt (List.not_lt_nil _)
      · obtain ⟨item, hitem, hw⟩ := at?_cons.mp hw
        exact (sound item (List.mem_of_getElem? hitem) q w hw).2

theorem reaches_cons (hitem : v.childItems[j]? = some item) :
    v.Reaches (j :: rest) ↔ v.IsNode ∧
      (∀ k < j, ∀ earlier, v.childItems[k]? = some earlier → Document.Sound earlier) ∧
      item.Reaches rest := by
  constructor
  · rintro ⟨nodes, numbers⟩
    refine ⟨nodes [] v rfl (.inl (List.nil_lt_cons j rest)),
      fun k hk earlier hearlier q w hw => ?_, ?_, ?_⟩
    · have left : v.at? (k :: q) = some w := at?_cons.mpr ⟨earlier, hearlier, hw⟩
      exact ⟨nodes _ w left (.inl (List.cons_lt_cons_iff.mpr (.inl hk))),
        numbers _ w left (Path.isReadBefore_cons.mpr (.inl hk))⟩
    · intro q w hw order
      refine nodes (j :: q) w (at?_cons.mpr ⟨item, hitem, hw⟩) ?_
      rwa [List.cons_lt_cons_iff, List.cons_prefix_cons, and_iff_right rfl, and_iff_right rfl,
        or_iff_right (Nat.lt_irrefl j)]
    · intro q w hw before
      exact numbers (j :: q) w (at?_cons.mpr ⟨item, hitem, hw⟩)
        (Path.isReadBefore_cons.mpr (.inr ⟨rfl, before⟩))
  · rintro ⟨node, sound, nodes, numbers⟩
    constructor
    · rintro (_ | ⟨k, q⟩) w hw order
      · cases hw
        exact node
      · obtain ⟨other, hother, hw⟩ := at?_cons.mp hw
        rw [List.cons_lt_cons_iff, List.cons_prefix_cons] at order
        rcases order with (left | ⟨rfl, lt⟩) | ⟨rfl, below⟩
        · exact (sound k left other hother q w hw).1
        · rw [hitem] at hother
          cases hother
          exact nodes q w hw (.inl lt)
        · rw [hitem] at hother
          cases hother
          exact nodes q w hw (.inr below)
    · rintro (_ | ⟨k, q⟩) w hw before
      · rcases before with ⟨above, _⟩ | ⟨_, notAbove⟩
        · exact absurd (List.prefix_nil.mp above) (List.cons_ne_nil j rest)
        · exact absurd List.nil_prefix notAbove
      · obtain ⟨other, hother, hw⟩ := at?_cons.mp hw
        rcases Path.isReadBefore_cons.mp before with left | ⟨rfl, inside⟩
        · exact (sound k left other hother q w hw).2
        · rw [hitem] at hother
          cases hother
          exact numbers q w hw inside

theorem overruns_iff (v : Json) :
    Document.Overruns v ↔ ∃ p w, v.at? p = some w ∧ w.Overflows ∧ v.Reaches p := by
  induction v using Json.induct_childItems with
  | h v ih =>
    constructor
    · rintro (⟨node, sound, overflows⟩ | ⟨node, hitem, before, overruns⟩)
      · exact ⟨[], v, rfl, overflows, reaches_nil.mpr ⟨node, sound⟩⟩
      · obtain ⟨p, w, hw, overflows, reaches⟩ := (ih _ (List.mem_of_getElem? hitem)).mp overruns
        exact ⟨_, w, at?_cons.mpr ⟨_, hitem, hw⟩, overflows,
          (reaches_cons hitem).mpr ⟨node, before, reaches⟩⟩
    · rintro ⟨_ | ⟨j, p⟩, w, hw, overflows, reaches⟩
      · cases hw
        obtain ⟨node, sound⟩ := reaches_nil.mp reaches
        exact .own node sound overflows
      · obtain ⟨item, hitem, hw⟩ := at?_cons.mp hw
        obtain ⟨node, before, reaches⟩ := (reaches_cons hitem).mp reaches
        exact .child node hitem before
          ((ih item (List.mem_of_getElem? hitem)).mpr ⟨p, w, hw, overflows, reaches⟩)

end Json

/-- Loading ends with an infinite number exactly if it comes to a location with one, in front of any
other that it cannot read. Where no location has one, a document becomes a tree or is refused as
one, whatever else stands in it. -/
theorem load_ends (source : Option String) (doc : Json) :
    ((Node.load source doc).1 = .error .infiniteNumber ↔
      ∃ p v, doc.at? p = some v ∧ v.Overflows ∧ doc.Reaches p) ∧
    ((∀ p v, doc.at? p = some v → ¬v.Overflows) →
      (∃ n, (Node.load source doc).1 = .ok n) ∨ ∃ e, (Node.load source doc).1 = .error
      (.document e)) := by
  have infinite : (Node.load source doc).1 = .error .infiniteNumber ↔
      ∃ p v, doc.at? p = some v ∧ v.Overflows ∧ doc.Reaches p := by
    rw [← Json.overruns_iff, ← (Document.ends source doc [] []).2, Node.load]
    cases Document.node source [] doc [] <;> simp
  refine ⟨infinite, fun finite => ?_⟩
  cases loaded : (Node.load source doc).1 with
  | ok n => exact .inl ⟨n, rfl⟩
  | error f =>
    cases f with
    | document e => exact .inr ⟨e, rfl⟩
    | infiniteNumber =>
      obtain ⟨p, v, hv, overflows, _⟩ := infinite.mp loaded
      exact absurd overflows (finite p v hv)

/-- A line that is no number at all is refused. -/
theorem load_ends_nan :
    let doc := Json.object [("type", .string "Command"),
      ("location", .object [("startLine", .float .nan)])]
    (∀ p v, doc.at? p = some v → ¬v.Overflows) ∧
      ((∃ n, (Node.load none doc).1 = .ok n) ∨
        ∃ e, (Node.load none doc).1 = .error (.document e)) := by
  intro doc
  have finite : ∀ p v, doc.at? p = some v → ¬v.Overflows := by
    rintro (_ | ⟨i, rest⟩) v hv
    · cases hv
      exact fun overflows => nomatch (Document.location_infinite_iff none).mpr overflows
    · obtain ⟨item, hitem, _⟩ := Json.at?_cons.mp hv
      cases hitem
  exact ⟨finite, (load_ends none doc).2 finite⟩

/-- A line beyond all bounds is not. -/
example : (Node.load none (.object [("type", .string "Command"),
    ("location", .object [("startLine", .float (.infinite false))])])).1 =
      .error .infiniteNumber := rfl

end ScriptIR
