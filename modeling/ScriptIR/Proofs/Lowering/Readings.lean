import ScriptIR.Program.Document
import ScriptIR.Proofs.Lowering.Composition
import ScriptIR.Proofs.Lowering.Slots

/-!
# Readings are composed actions

Each kind of node becomes an action that is composed of the steps of lowering, if the readings below
the node are. So is every reading of a tree, and every entry point: what all steps keep holds of any
lowering of any tree. The actions speak of nodes of the tree only.
-/
namespace ScriptIR

/-- A reading of a known node whose actions are composed. -/
structure Reading.Composed (cfg : Config) (known : Site → Prop) (r : Reading) : Prop where
  site : known r.site
  expression : Lower.Composed cfg known r.expression
  statement : Lower.Composed cfg known r.statement

namespace Lower
variable {cfg : Config} {known : Site → Prop}

/-- All readings of the given trees are composed. -/
def AllComposed (cfg : Config) (known : Site → Prop) (trees : List (Tree Reading)) : Prop :=
  ∀ t ∈ trees, ∀ r ∈ t.labels, r.Composed cfg known

theorem AllComposed.label {trees : List (Tree Reading)} (h : AllComposed cfg known trees)
    {t : Tree Reading} (ht : t ∈ trees) : t.label.Composed cfg known :=
  h t ht _ t.label_mem_labels

theorem AllComposed.subset {trees others : List (Tree Reading)} (h : AllComposed cfg known trees)
    (sub : others ⊆ trees) : AllComposed cfg known others :=
  fun t ht => h t (sub ht)

theorem AllComposed.found {trees : List (Tree Reading)} (h : AllComposed cfg known trees)
    (p : Tree Reading → Bool) : ∀ t ∈ trees.find? p, t.label.Composed cfg known :=
  fun _ ht => h.label (List.mem_of_find?_eq_some ht)

/-! ### Types, parameters and arguments -/

theorem typeOfText_composed (text : Option String) {site : Site} (hsite : known site) :
    Composed cfg known (typeOfText text (some site)) := by
  unfold typeOfText
  split
  · exact .pure _
  · split
    · exact .pure _
    · split
      · exact .pure _
      · exact .bind (.report _ hsite) fun _ => .pure _

theorem typeOfNode_composed {site : Site} (hsite : known site) :
    Composed cfg known (typeOfNode site) := by
  unfold typeOfNode
  split
  · split
    · exact typeOfText_composed _ hsite
    · exact .bind (.report _ hsite) fun _ => .pure _
  · exact .pure _

theorem parameter_composed (cfg : Config) {site : Site} (hsite : known site) (index : Int) :
    Composed cfg known (parameter cfg site index) :=
  .bind (typeOfText_composed _ hsite) fun _ => .pure _

/-- The parts of a slot speak of known nodes. -/
def Slot.Composed (cfg : Config) (known : Site → Prop) : Slot → Prop
  | .flag site value _ => known site ∧ Lower.Composed cfg known value
  | .block value _ => Lower.Composed cfg known value
  | .group values => ∀ value ∈ values, Lower.Composed cfg known value

theorem mem_labels_of_mem_valueLeaves {item : Tree Reading} {value : Lower Expression}
    (h : value ∈ valueLeaves item) : ∃ r ∈ item.labels, r.expression = value := by
  obtain ⟨leaf, hleaf, rfl⟩ := List.mem_map.mp h
  exact ⟨leaf.label, item.label_mem_labels_of_leaf leaf (List.mem_filter.mp hleaf).1, rfl⟩

theorem valueLeaves_composed {item : Tree Reading}
    (h : ∀ r ∈ item.labels, r.Composed cfg known) :
    ∀ value ∈ valueLeaves item, Composed cfg known value := by
  intro value hvalue
  obtain ⟨r, hr, rfl⟩ := mem_labels_of_mem_valueLeaves hvalue
  exact (h r hr).expression

/-- What is lowered for a slot. -/
def Slot.values : Slot → List (Lower Expression)
  | .flag _ value _ | .block value _ => [value]
  | .group values => values

def Slot.flag? : Slot → Option Site
  | .flag site _ _ => some site
  | _ => none

/-- The flag of a slot is one of the given items, and what is lowered for it are nodes of theirs. -/
structure Slot.From (items : List (Tree Reading)) (slot : Slot) : Prop where
  flag : ∀ site ∈ slot.flag?, ∃ t ∈ items, t.label.site = site
  values : ∀ value ∈ slot.values, ∃ t ∈ items, ∃ r ∈ t.labels, r.expression = value

theorem Slot.From.subset {items others : List (Tree Reading)} {slot : Slot}
    (h : slot.From items) (sub : items ⊆ others) : slot.From others where
  flag site hsite := by
    obtain ⟨t, ht, same⟩ := h.flag site hsite
    exact ⟨t, sub ht, same⟩
  values value hvalue := by
    obtain ⟨t, ht, label⟩ := h.values value hvalue
    exact ⟨t, sub ht, label⟩

theorem Slot.From.of_flag {items : List (Tree Reading)} {item t : Tree Reading} (number : Nat)
    (hitem : item ∈ items) (ht : t ∈ items) {r : Reading} (hr : r ∈ t.labels) :
    (Slot.flag item.label.site r.expression number).From items where
  flag _ hsite := ⟨item, hitem, Option.some.inj hsite⟩
  values _ hvalue := ⟨t, ht, r, hr, (List.mem_singleton.mp hvalue).symm⟩

theorem slotOf_from (number : Nat) (item : Tree Reading) : (slotOf number item).From [item] := by
  have self := List.mem_singleton_self item
  unfold slotOf
  split
  · split
    next value rest hchildren =>
      have hvalue : value ∈ item.children := hchildren ▸ List.mem_cons_self
      exact .of_flag number self self (Tree.mem_labels_of_child hvalue value.label_mem_labels)
    next => exact .of_flag number self self item.label_mem_labels
  · exact ⟨by simp [Slot.flag?], fun value hvalue =>
      ⟨item, self, item.label, item.label_mem_labels, (List.mem_singleton.mp hvalue).symm⟩⟩
  · exact ⟨by simp [Slot.flag?], fun value hvalue =>
      ⟨item, self, mem_labels_of_mem_valueLeaves hvalue⟩⟩

/-- A flag's value may stand in the next item, so two items are looked at together. -/
theorem slots_from (i : Nat) (items : List (Tree Reading)) :
    ∀ slot ∈ slots i items, slot.From items := by
  fun_induction slots i items with
  | case1 => exact fun _ hslot => absurd hslot List.not_mem_nil
  | case2 i item => exact List.forall_mem_singleton.mpr (slotOf_from i item)
  | case3 i item next rest _ ih =>
    refine List.forall_mem_cons.mpr ⟨?_, fun slot hslot => ?_⟩
    · exact .of_flag i List.mem_cons_self (List.mem_cons_of_mem _ List.mem_cons_self)
        next.label_mem_labels
    · exact (ih slot hslot).subset fun _ ht => List.mem_cons_of_mem _ (List.mem_cons_of_mem _ ht)
  | case4 i item next rest _ ih =>
    refine List.forall_mem_cons.mpr ⟨?_, fun slot hslot => ?_⟩
    · exact (slotOf_from i item).subset (by simp)
    · exact (ih slot hslot).subset fun _ ht => List.mem_cons_of_mem _ ht

theorem slots_composed (i : Nat) {items : List (Tree Reading)} (h : AllComposed cfg known items) :
    ∀ slot ∈ slots i items, slot.Composed cfg known := by
  intro slot hslot
  have inside := slots_from i items slot hslot
  have values : ∀ value ∈ slot.values, Lower.Composed cfg known value := by
    intro value hvalue
    obtain ⟨t, ht, r, hr, rfl⟩ := inside.values value hvalue
    exact (h t ht r hr).expression
  cases slot with
  | flag site value number =>
    obtain ⟨t, ht, rfl⟩ := inside.flag site rfl
    exact ⟨(h.label ht).site, values value List.mem_cons_self⟩
  | block value number => exact values value List.mem_cons_self
  | group all => exact values

theorem flagIndex_composed (cfg : Config) (callee : String) (candidates : List Function)
    {flag : Site} (hflag : known flag) (number : Nat) :
    Composed cfg known (flagIndex cfg callee candidates flag number) := by
  unfold flagIndex
  dsimp only
  cases (parameterIndices cfg candidates).get? (cfg.key (flagName cfg flag.attributes)) with
  | some index => exact .pure _
  | none =>
    dsimp only
    split
    · exact .pure _
    · exact .bind (.report _ hflag) fun _ => .pure _

theorem lowerSlot_composed (cfg : Config) (callee : String) (candidates : List Function)
    {slot : Slot} (h : slot.Composed cfg known) :
    Composed cfg known (lowerSlot cfg callee candidates slot) := by
  cases slot with
  | flag site value number =>
    exact .bind (flagIndex_composed cfg callee candidates h.1 number) fun _ =>
      .bind h.2 fun _ => .pure _
  | block value number => exact .bind h fun _ => .pure _
  | group values => exact .bind (.mapM h) fun _ => .pure _

theorem bindArguments_composed (cfg : Config) (callee : String) (candidates : List Function)
    {items : List (Tree Reading)} (h : AllComposed cfg known items) :
    Composed cfg known (bindArguments cfg callee candidates items) := by
  rw [bindArguments_eq]
  exact .bind (.mapM fun slot hslot =>
    lowerSlot_composed cfg callee candidates (slots_composed 0 h slot hslot)) fun _ => .pure _

/-! ### Nodes by kind -/

section
variable {site : Site} {children : List (Tree Reading)}
variable (hchildren : AllComposed cfg known children)
include hchildren

theorem blockOf_composed : Composed cfg known (blockOf site children) :=
  .bind (.inBlock _ (.mapM fun _ hchild => (hchildren.label hchild).statement)) fun _ => .pure _

theorem block_composed : Composed cfg known (block site children) :=
  blockOf_composed (hchildren.subset List.filter_sublist.subset)

variable (hsite : known site)
include hsite

theorem wrapper_composed : Composed cfg known (wrapper site children) := by
  unfold wrapper
  split
  · exact .malformed _ hsite
  next first rest =>
    have hfirst := (hchildren.label (t := first) List.mem_cons_self).expression
    split
    · exact hfirst
    · exact .bind (.report _ hsite) fun _ => hfirst

theorem pipeline_composed : Composed cfg known (pipeline site children) := by
  unfold pipeline
  split
  · exact .malformed _ hsite
  · exact (hchildren.label List.mem_cons_self).expression
  · exact .bind (block_composed hchildren) fun _ => .pure _

theorem scriptBlock_composed : Composed cfg known (scriptBlock site children) := by
  unfold scriptBlock
  split
  · exact .malformed _ hsite
  · exact .bind (hchildren.label List.mem_cons_self).statement fun _ => .pure _
  · exact .bind (blockOf_composed hchildren) fun _ => .pure _

variable (cfg) in
theorem command_composed : Composed cfg known (command cfg site children) := by
  unfold command
  split
  · exact .malformed _ hsite
  next callee items =>
    have hcallee := (hchildren.label (t := callee) List.mem_cons_self).site
    have hitems := hchildren.subset (List.subset_cons_self callee items)
    have call : ∀ name candidates, Composed cfg known (do
        let arguments ← bindArguments cfg name candidates items
        pure (Expression.call site.origin name arguments candidates.head?)) := by
      intro name candidates
      exact .bind (bindArguments_composed cfg name candidates hitems) fun _ => .pure _
    refine .checked (.malformed _ hcallee) fun _ => .bind (.resolve _ hsite) fun candidates => ?_
    split
    · exact .bind (.report _ hsite) fun _ => call _ _
    · exact call _ _
    · exact .bind (.report _ hsite) fun _ => call _ _

theorem binary_composed : Composed cfg known (binary site children) := by
  unfold binary
  split
  · split
    next left right =>
      have hleft := (hchildren.label (t := left) List.mem_cons_self).expression
      have hright := (hchildren.label (t := right) (by simp)).expression
      exact .bind hleft fun _ => .bind hright fun _ => .pure _
    · exact .malformed _ hsite
  · exact .malformed _ hsite

theorem unary_composed : Composed cfg known (unary site children) := by
  unfold unary
  dsimp only
  split
  · split
    · exact .malformed _ hsite
    · exact .bind (hchildren.label List.mem_cons_self).expression fun _ => .pure _
  · exact .malformed _ hsite

theorem array_composed : Composed cfg known (array site children) := by
  refine .bind (typeOfText_composed _ hsite) fun _ => .bind (.mapM fun value hvalue => ?_) fun _ =>
    .pure _
  obtain ⟨item, hitem, hleaf⟩ := List.mem_flatMap.mp hvalue
  exact valueLeaves_composed (hchildren item hitem) value hleaf

theorem cast_composed : Composed cfg known (cast site children) := by
  unfold cast
  split
  next typeNode operand =>
    have htype := (hchildren.label (t := typeNode) List.mem_cons_self).site
    have hoperand := (hchildren.label (t := operand) (by simp)).expression
    have finish : ∀ target, Composed cfg known (do
        let inner ← operand.label.expression
        pure (Expression.cast site.origin target inner)) := fun _ =>
      .bind hoperand fun _ => .pure _
    dsimp only
    split
    · exact .bind (typeOfText_composed _ hsite) finish
    · exact .bind (typeOfNode_composed htype) finish
  · exact .malformed _ hsite

variable (cfg) in
theorem function_composed (hparameters : ∀ p ∈ site.parameters, known p) :
    Composed cfg known (function cfg site children) := by
  unfold function
  refine .checked (.malformed _ hsite) fun _ => ?_
  split
  · refine .bind (.mapM fun p hp => ?_) fun parameters => ?_
    · exact parameter_composed cfg (hparameters p.1 (List.fst_mem_of_mem_zipIdx hp)) p.2
    · cases hbody : children.find? (·.label.kind = .scriptBlock) with
      | none => exact .bind (.declared _) fun _ => .pure _
      | some bodyNode =>
        exact .defining (.mk site.origin _ parameters .none)
          (hchildren.label (List.mem_of_find?_eq_some hbody)).statement
  · exact .malformed _ hsite

end

theorem reference_composed {site : Site} (hsite : known site) :
    Composed cfg known (reference site) :=
  .bind (typeOfText_composed _ hsite) fun _ => .pure _

theorem literal_composed (cfg : Config) {site : Site} (hsite : known site) :
    Composed cfg known (literal cfg site) := by
  unfold literal
  dsimp only
  split
  · exact .pure _
  · exact .bind (.report _ hsite) fun _ => .pure _

theorem memberAccess_composed {site : Site} (hsite : known site) :
    Composed cfg known (memberAccess site) :=
  .bind (.report _ hsite) fun _ => .pure _

section
variable (cfg : Config) {site : Site} {children : List (Tree Reading)}
variable (hchildren : AllComposed cfg known children) (hsite : known site)
variable (hparameters : ∀ p ∈ site.parameters, known p)
include hchildren hsite hparameters

theorem definition_composed : Composed cfg known (definition cfg site children) :=
  .bind (function_composed cfg hchildren hsite hparameters) fun _ => .pure _

/-- Whatever a kind becomes where an expression stands is composed. -/
theorem expressionOf?_composed {kind : Kind} {lowered : Lower Expression}
    (h : expressionOf? cfg site children kind = some lowered) : Composed cfg known lowered := by
  unfold expressionOf? at h
  split at h
  all_goals cases h
  all_goals first
    | exact wrapper_composed hchildren hsite
    | exact pipeline_composed hchildren hsite
    | exact scriptBlock_composed hchildren hsite
    | exact command_composed cfg hchildren hsite
    | exact reference_composed hsite
    | exact .bind (block_composed hchildren) fun _ => .pure _
    | exact binary_composed hchildren hsite
    | exact unary_composed hchildren hsite
    | exact literal_composed cfg hsite
    | exact definition_composed cfg hchildren hsite hparameters
    | exact array_composed hchildren hsite
    | exact cast_composed hchildren hsite
    | exact memberAccess_composed hsite

theorem expression_composed : Composed cfg known (expression cfg site children) := by
  refine .bind (.dispatched hsite) fun _ => ?_
  cases h : expressionOf? cfg site children site.attributes.kind with
  | none => exact .bind (.report _ hsite) fun _ => .pure _
  | some lowered =>
    exact .orUnknown hsite (expressionOf?_composed cfg hchildren hsite hparameters h)

theorem statement_composed : Composed cfg known (statement cfg site children) := by
  unfold statement
  split
  · exact block_composed hchildren
  · split
    · exact .bind (function_composed cfg hchildren hsite hparameters) fun _ => .pure _
    · exact .bind (expression_composed cfg hchildren hsite hparameters) fun _ => .pure _

end

section
variable (cfg : Config) (site : Site) {children : List (Tree Reading)}

theorem statement_of_isBlock (h : site.attributes.kind.isBlock = true) :
    statement cfg site children = block site children :=
  if_pos h

theorem expressionOf?_pipeline (many : 2 ≤ children.length) :
    expressionOf? cfg site children .pipeline = some (compound site (block site children)) := by
  match children, many with
  | _ :: _ :: _, _ => rfl

theorem expressionOf?_scriptBlock (many : 2 ≤ children.length) :
    expressionOf? cfg site children .scriptBlock =
      some (compound site (blockOf site children)) := by
  match children, many with
  | _ :: _ :: _, _ => rfl

end

end Lower

/-! ### Trees -/

open Lower

namespace Site

/-- The readings of the children of a node. -/
def below (cfg : Config) (s : Site) : List (Tree Reading) :=
  Node.readingsOf cfg s.path 0 s.node.children

/-- The reading of a node in its place. -/
def reading (cfg : Config) (s : Site) : Reading :=
  (s.node.readings cfg s.path).label

theorem reading_eq (cfg : Config) (s : Site) :
    s.reading cfg =
      ⟨s, Lower.expression cfg s (s.below cfg), Lower.statement cfg s (s.below cfg)⟩ := by
  obtain ⟨path, ⟨attrs, children⟩⟩ := s
  rw [reading, below, Node.readings]

end Site

theorem lowerExpression_eq (cfg : Config) (n : Node) :
    lowerExpression cfg n = Lower.expression cfg (Site.root n) ((Site.root n).below cfg) :=
  congrArg Reading.expression ((Site.root n).reading_eq cfg)

theorem lowerStatement_eq (cfg : Config) (n : Node) :
    lowerStatement cfg n = Lower.statement cfg (Site.root n) ((Site.root n).below cfg) :=
  congrArg Reading.statement ((Site.root n).reading_eq cfg)

mutual
/-- What holds of the reading of a node of a tree if it holds of all readings below that node, holds
of all readings of the tree. -/
theorem Node.readings_induct {P : Reading → Prop} (cfg : Config) (path : Path) :
    ∀ n : Node, (∀ s ∈ n.sites path, (∀ t ∈ s.below cfg, ∀ r ∈ t.labels, P r) → P (s.reading cfg)) →
      ∀ r ∈ (n.readings cfg path).labels, P r
  | ⟨attrs, children⟩, h => by
    rw [Node.sites] at h
    have below := Node.readingsOf_induct cfg path 0 children fun s hs =>
      h s (List.mem_cons_of_mem _ hs)
    have top := h _ List.mem_cons_self below
    rw [Site.reading_eq] at top
    intro r hr
    rw [Node.readings] at hr
    rcases List.mem_cons.mp hr with rfl | inside
    · exact top
    · obtain ⟨t, ht, hrt⟩ := Tree.mem_labelsOf.mp inside
      exact below t ht r hrt

theorem Node.readingsOf_induct {P : Reading → Prop} (cfg : Config) (path : Path) (i : Nat) :
    ∀ children : List Node, (∀ s ∈ Node.sitesOf path i children,
        (∀ t ∈ s.below cfg, ∀ r ∈ t.labels, P r) → P (s.reading cfg)) →
      ∀ t ∈ Node.readingsOf cfg path i children, ∀ r ∈ t.labels, P r
  | [], _ => fun _ ht => absurd ht List.not_mem_nil
  | child :: rest, h => by
    rw [Node.sitesOf] at h
    rw [Node.readingsOf]
    intro t ht
    rcases List.mem_cons.mp ht with rfl | hrest
    · exact Node.readings_induct cfg (path ++ [i]) child fun s hs =>
        h s (List.mem_append_left _ hs)
    · exact Node.readingsOf_induct cfg path (i + 1) rest
        (fun s hs => h s (List.mem_append_right _ hs)) t hrest
end

/-- The readings of a forest are composed and speak of its nodes. -/
theorem Node.readingsOf_composed (cfg : Config) {known : Site → Prop} (path : Path) (i : Nat)
    (children : List Node) (h : ∀ s ∈ Node.sitesOf path i children, known s) :
    AllComposed cfg known (Node.readingsOf cfg path i children) := by
  refine Node.readingsOf_induct cfg path i children fun s hs below => ?_
  have parameters : ∀ p ∈ s.parameters, known p := fun p hp =>
    h p (Node.sitesOf_subset_of_mem path i children s hs (s.parameters_subset_within hp))
  rw [s.reading_eq]
  exact ⟨h s hs, expression_composed cfg below (h s hs) parameters,
    statement_composed cfg below (h s hs) parameters⟩

namespace Node
variable (cfg : Config) (path : Path) (i : Nat)

theorem readings_kind (n : Node) : (n.readings cfg path).label.kind = n.label.kind := by
  obtain ⟨attrs, children⟩ := n
  rw [readings]
  rfl

theorem readingsOf_append (before after : List Node) :
    readingsOf cfg path i (before ++ after) =
      readingsOf cfg path i before ++ readingsOf cfg path (i + before.length) after := by
  induction before generalizing i with
  | nil => simp [readingsOf]
  | cons child rest ih =>
    have shifted : i + (rest.length + 1) = i + 1 + rest.length := by omega
    simp [readingsOf, ih, shifted]

theorem length_readingsOf (children : List Node) :
    (readingsOf cfg path i children).length = children.length := by
  induction children generalizing i with
  | nil => rfl
  | cons child rest ih => simp [readingsOf, ih]

end Node

namespace Site

theorem length_below (cfg : Config) (s : Site) : (s.below cfg).length = s.node.children.length :=
  Node.length_readingsOf cfg s.path 0 s.node.children

theorem node_readings_eq (cfg : Config) (s : Site) :
    s.node.readings cfg s.path = ⟨s.reading cfg, s.below cfg⟩ := by
  obtain ⟨path, ⟨attrs, children⟩⟩ := s
  rw [reading, below, Node.readings]

theorem below_eq (cfg : Config) (s : Site) :
    s.below cfg = s.children.map fun c => c.node.readings cfg c.path := by
  rw [List.map_eq_flatMap]
  exact s.gather_children (Node.readingsOf cfg s.path) _ (fun _ => rfl) fun _ _ _ => rfl

/-- The readings below a node are readings of nodes within it. -/
theorem reading_of_mem_below {cfg : Config} {s : Site} :
    ∀ t ∈ s.below cfg, ∀ r ∈ t.labels, ∃ p ∈ s.within, r = p.reading cfg := by
  refine Node.readingsOf_induct cfg s.path 0 s.node.children fun p hp _ => ⟨p, ?_, rfl⟩
  rw [within_eq]
  exact List.mem_cons_of_mem _ hp

/-- The readings below a node are composed and speak of nodes within it. -/
theorem below_composed (cfg : Config) (s : Site) :
    AllComposed cfg (· ∈ s.within) (s.below cfg) := by
  rw [within_eq]
  exact Node.readingsOf_composed cfg s.path 0 s.node.children fun _ hs => List.mem_cons_of_mem _ hs

/-- The reading of a node is composed and speaks of nodes within it. -/
theorem reading_composed (cfg : Config) (s : Site) :
    (s.reading cfg).Composed cfg (· ∈ s.within) := by
  rw [reading_eq]
  have parameters : ∀ p ∈ s.parameters, p ∈ s.within := fun _ hp => s.parameters_subset_within hp
  exact ⟨s.mem_within, expression_composed cfg (s.below_composed cfg) s.mem_within parameters,
    statement_composed cfg (s.below_composed cfg) s.mem_within parameters⟩

end Site

/-- The ways in which a whole tree can be lowered. -/
inductive EntryPoint where
  | expression
  | statement
  | script
deriving Repr, DecidableEq

def EntryPoint.lower (entry : EntryPoint) (cfg : Config) (n : Node) : Lower Part :=
  match entry with
  | .expression => do return .expression (← lowerExpression cfg n)
  | .statement => do return .statement (← lowerStatement cfg n)
  | .script => do return .statement (← lowerScript cfg n)

theorem lowerScript_composed (cfg : Config) (n : Node) :
    Composed cfg (· ∈ n.sites []) (lowerScript cfg n) := by
  refine .bind (Site.reading_composed cfg (Site.root n)).statement fun lowered => ?_
  cases lowered <;> exact .pure _

/-- Every entry point is composed and speaks of the nodes of its tree. -/
theorem EntryPoint.lower_composed (entry : EntryPoint) (cfg : Config) (n : Node) :
    Composed cfg (· ∈ n.sites []) (entry.lower cfg n) := by
  cases entry with
  | expression =>
    exact .bind (Site.reading_composed cfg (Site.root n)).expression fun _ => .pure _
  | statement =>
    exact .bind (Site.reading_composed cfg (Site.root n)).statement fun _ => .pure _
  | script => exact .bind (lowerScript_composed cfg n) fun _ => .pure _

end ScriptIR
