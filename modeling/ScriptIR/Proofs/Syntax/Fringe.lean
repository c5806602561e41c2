import Mathlib.Logic.Relation
import ScriptIR.Proofs.Lowering.Readings
import ScriptIR.Proofs.Syntax.Preorder

/-!
# The fringe of a tree

The leaves of a tree are the nodes without children at the ends of its branches, each in its place
and from left to right. Nothing else of the tree shows in them: two trees have the same leaves
exactly if one becomes the other by putting neighbours into groups and by dissolving groups,
wherever these stand and whatever their labels are.
-/
namespace ScriptIR

namespace Tree
variable {α : Type}

/-- The tree at a place below, if there is that place. -/
def at? (t : Tree α) : Path → Option (Tree α)
  | [] => some t
  | i :: path => t.children[i]?.bind (·.at? path)

/-! ### Groups -/

/-- The second list of neighbouring trees is the first one with neighbours put into a new group
somewhere: among these trees, or among those below one of them. -/
inductive Grouping : List (Tree α) → List (Tree α) → Prop
  | here (before : List (Tree α)) (label : α) {group : List (Tree α)} (after : List (Tree α)) :
      group ≠ [] → Grouping (before ++ group ++ after) (before ++ ⟨label, group⟩ :: after)
  | deeper (before : List (Tree α)) (label : α) {ts us : List (Tree α)} (after : List (Tree α)) :
      Grouping ts us → Grouping (before ++ ⟨label, ts⟩ :: after) (before ++ ⟨label, us⟩ :: after)

/-- Groups have been put in and dissolved, in any order and any number of times. -/
abbrev Regrouped : List (Tree α) → List (Tree α) → Prop :=
  Relation.EqvGen Grouping

namespace Grouping
variable {ts us : List (Tree α)}

/-- Trees are not lost in a group, and do not come into being there. -/
theorem ne_nil (h : Grouping ts us) : ts ≠ [] ∧ us ≠ [] := by
  cases h with
  | here before label after nonempty => simp [nonempty]
  | deeper before label after _ => simp

theorem flatMap_leaves (h : Grouping ts us) : ts.flatMap leaves = us.flatMap leaves := by
  induction h with
  | here before label after nonempty =>
    rw [List.flatMap_append, List.flatMap_append, List.flatMap_append, List.flatMap_cons,
      leaves_of_children label nonempty, List.append_assoc]
  | @deeper before label ts us after inner ih =>
    have same : leaves ⟨label, ts⟩ = leaves ⟨label, us⟩ := by
      rw [leaves_of_children label inner.ne_nil.1, leaves_of_children label inner.ne_nil.2, ih]
    rw [List.flatMap_append, List.flatMap_append, List.flatMap_cons, List.flatMap_cons, same]

theorem beside (h : Grouping ts us) (before after : List (Tree α)) :
    Grouping (before ++ ts ++ after) (before ++ us ++ after) := by
  cases h with
  | here first label last nonempty =>
    simpa using Grouping.here (before ++ first) label (last ++ after) nonempty
  | deeper first label last inner =>
    simpa using Grouping.deeper (before ++ first) label (last ++ after) inner

end Grouping

namespace Regrouped
variable {ts us : List (Tree α)}

theorem flatMap_leaves (h : Regrouped ts us) : ts.flatMap leaves = us.flatMap leaves := by
  induction h with
  | rel _ _ step => exact step.flatMap_leaves
  | refl _ => rfl
  | symm _ _ _ ih => exact ih.symm
  | trans _ _ _ _ _ first second => exact first.trans second

theorem beside (h : Regrouped ts us) (before after : List (Tree α)) :
    Regrouped (before ++ ts ++ after) (before ++ us ++ after) := by
  induction h with
  | rel _ _ step => exact .rel _ _ (step.beside before after)
  | refl _ => exact .refl _
  | symm _ _ _ ih => exact ih.symm
  | trans _ _ _ _ _ first second => exact first.trans _ _ _ second

theorem append {ts' us' : List (Tree α)} (h : Regrouped ts us) (k : Regrouped ts' us') :
    Regrouped (ts ++ ts') (us ++ us') := by
  have first := h.beside [] ts'
  have second := k.beside us []
  rw [List.append_nil, List.append_nil] at second
  exact first.trans _ _ _ second

theorem dissolve_list (h : ∀ t ∈ ts, Regrouped [t] t.leaves) :
    Regrouped ts (ts.flatMap leaves) := by
  induction ts with
  | nil => exact .refl _
  | cons t ts ih =>
    have others := ih fun u hu => h u (List.mem_cons_of_mem t hu)
    rw [List.flatMap_cons]
    exact (h t List.mem_cons_self).append others

/-- A tree can be dissolved into its leaves, from the outermost group inwards. -/
theorem dissolve (t : Tree α) : Regrouped [t] t.leaves := by
  induction t using induct with
  | node label children ih =>
    cases children with
    | nil => exact .refl _
    | cons child rest =>
      have group : Regrouped (child :: rest) [⟨label, child :: rest⟩] := by
        simpa using Relation.EqvGen.rel _ _ (Grouping.here [] label []
          (List.cons_ne_nil child rest))
      rw [leaves_of_children label (by simp)]
      exact group.symm.trans _ _ _ (dissolve_list ih)

end Regrouped

/-- Trees have the same leaves exactly if they differ in their groups only. -/
theorem leaves_eq_iff {t u : Tree α} : t.leaves = u.leaves ↔ Regrouped [t] [u] := by
  constructor
  · intro same
    have back := (Regrouped.dissolve u).symm
    rw [← same] at back
    exact (Regrouped.dissolve t).trans _ _ _ back
  · intro h
    have same := h.flatMap_leaves
    simpa using same

theorem leaves_ne_nil (t : Tree α) : t.leaves ≠ [] := by
  induction t using induct with
  | node label children ih =>
    cases children with
    | nil => simp
    | cons child rest => simp [leaves_of_children, ih child List.mem_cons_self]

theorem children_of_mem_leaves {t leaf : Tree α} (h : leaf ∈ t.leaves) : leaf.children = [] := by
  induction t using induct with
  | node label children ih =>
    cases children with
    | nil => exact List.mem_singleton.mp h ▸ rfl
    | cons child rest =>
      rw [leaves_of_children label (by simp), List.mem_flatMap] at h
      obtain ⟨c, hc, hleaf⟩ := h
      exact ih c hc hleaf

theorem leaves_of_childless {t : Tree α} (h : t.children = []) : t.leaves = [t] := by
  obtain ⟨label, children⟩ := t
  cases h
  rfl

theorem leaves_group_leaves (label : α) (t : Tree α) : leaves ⟨label, t.leaves⟩ = t.leaves := by
  rw [leaves_of_children label t.leaves_ne_nil]
  calc t.leaves.flatMap leaves
      = t.leaves.flatMap fun leaf => [leaf] :=
        List.flatMap_congr fun leaf h => leaves_of_childless (children_of_mem_leaves h)
    _ = t.leaves := List.flatMap_singleton' t.leaves

end Tree

/-! ### Leaves in their places -/

namespace Site

/-- The childless nodes among a node and those below it. -/
def fringe (s : Site) : List Site :=
  s.within.filter (·.node.isLeaf)

theorem fringe_of_childless {s : Site} (h : s.node.children = []) : s.fringe = [s] := by
  rw [fringe, within_eq, h, Node.sitesOf]
  simp [Tree.isLeaf, h]

theorem fringe_of_children {s : Site} (h : s.node.children ≠ []) :
    s.fringe = s.children.flatMap fringe := by
  have inner : s.node.isLeaf = false := by simpa [Tree.isLeaf] using h
  rw [fringe, within_eq_children, List.filter_cons_of_neg (by simp [inner]), List.filter_flatMap]
  rfl

/-- What has one value for a childless node, and for another node those of its children together,
has the values of the fringe. -/
theorem gather_fringe {β : Type} (gather : Site → List β) (each : Site → β)
    (leaf : ∀ s : Site, s.node.children = [] → gather s = [each s])
    (inner : ∀ s : Site, s.node.children ≠ [] → gather s = s.children.flatMap gather) (s : Site) :
    gather s = s.fringe.map each := by
  obtain ⟨path, n⟩ := s
  induction n using Tree.induct generalizing path with
  | node attrs nodes ih =>
    by_cases childless : nodes = []
    · rw [leaf _ childless, fringe_of_childless childless]
      rfl
    · rw [inner _ childless, fringe_of_children childless, List.map_flatMap]
      refine List.flatMap_congr fun c hc => ?_
      have below : c.node ∈ nodes := by
        have mem := List.mem_map_of_mem (f := Site.node) hc
        rwa [map_node_children] at mem
      exact ih c.node below c.path

theorem leaves_eq_fringe (s : Site) : s.node.leaves = s.fringe.map node := by
  refine gather_fringe (fun s => s.node.leaves) node (fun s h => Tree.leaves_of_childless h) ?_ s
  intro s h
  have inside : s.node.leaves = s.node.children.flatMap Tree.leaves := by
    obtain ⟨path, ⟨attrs, nodes⟩⟩ := s
    exact Tree.leaves_of_children attrs h
  rw [inside, ← map_node_children, List.flatMap_map]

/-- The leaves of the readings of a tree are the readings of its leaves, each in its place. -/
theorem leaves_readings_eq_fringe (cfg : Config) (s : Site) :
    (s.node.readings cfg s.path).leaves = s.fringe.map fun leaf =>
      leaf.node.readings cfg leaf.path := by
  have below (s : Site) : (s.node.readings cfg s.path).children = s.below cfg := by
    rw [node_readings_eq]
  refine gather_fringe (fun s => (s.node.readings cfg s.path).leaves) _ ?_ ?_ s
  · intro s h
    refine Tree.leaves_of_childless ?_
    rw [below, Site.below, h]
    rfl
  · intro s h
    have several : s.below cfg ≠ [] := by
      rw [← List.length_pos_iff, length_below]
      exact List.length_pos_iff.mpr h
    rw [node_readings_eq, Tree.leaves_of_children _ several, below_eq, List.flatMap_map]

theorem mem_children_iff {s c : Site} :
    c ∈ s.children ↔ ∃ i, c.path = s.path ++ [i] ∧ s.node.children[i]? = some c.node := by
  rw [children, List.mem_mapIdx]
  constructor
  · rintro ⟨i, hi, rfl⟩
    exact ⟨i, rfl, List.getElem?_eq_getElem hi⟩
  · rintro ⟨i, hpath, hnode⟩
    obtain ⟨hi, same⟩ := List.getElem?_eq_some_iff.mp hnode
    exact ⟨i, hi, by rw [same, ← hpath]⟩

/-- The nodes within a node are those that stand at its place or at a place below. -/
theorem mem_within_iff {s t : Site} :
    s ∈ t.within ↔ ∃ q, s.path = t.path ++ q ∧ t.node.at? q = some s.node := by
  obtain ⟨path, n⟩ := t
  induction n using Tree.induct generalizing path with
  | node attrs nodes ih =>
    rw [within_eq_children, List.mem_cons, List.mem_flatMap]
    constructor
    · rintro (rfl | ⟨c, hc, hs⟩)
      · exact ⟨[], (List.append_nil path).symm, rfl⟩
      · obtain ⟨i, hpath, hnode⟩ := mem_children_iff.mp hc
        obtain ⟨q, hq, found⟩ := (ih c.node (List.mem_of_getElem? hnode) c.path).mp hs
        refine ⟨i :: q, by rw [hq, hpath, List.append_assoc, List.singleton_append], ?_⟩
        exact Option.bind_eq_some_iff.mpr ⟨c.node, hnode, found⟩
    · rintro ⟨q, hq, found⟩
      cases q with
      | nil =>
        obtain ⟨place, m⟩ := s
        obtain rfl : place = path := hq.trans (List.append_nil path)
        cases found
        exact .inl rfl
      | cons i q =>
        obtain ⟨child, hchild, inside⟩ := Option.bind_eq_some_iff.mp found
        refine .inr ⟨⟨path ++ [i], child⟩, mem_children_iff.mpr ⟨i, rfl, hchild⟩, ?_⟩
        refine (ih child (List.mem_of_getElem? hchild) _).mpr ⟨q, ?_, inside⟩
        rw [hq, List.append_assoc, List.singleton_append]

theorem mem_fringe_iff {s t : Site} :
    s ∈ t.fringe ↔ (∃ q, s.path = t.path ++ q ∧ t.node.at? q = some s.node) ∧
    s.node.children = [] := by
  rw [fringe, List.mem_filter, mem_within_iff, Tree.isLeaf, List.isEmpty_iff]

theorem fringe_pairwise_lt (s : Site) : s.fringe.Pairwise fun a b => a.path < b.path :=
  (s.node.sites_pairwise_lt s.path).filter _

end Site

/-- The leaves of a syntax tree are exactly its childless nodes, each once and in the order of their
places; and what lowering reads of a tree has the readings of these nodes for its leaves, each in
its place. So the leaves of a group are those of its members, one after the other, whatever its
label says. Trees have the same leaves exactly if they differ in their groups only; in particular a
group of the leaves of a tree has these leaves. -/
theorem leaves_eq_childless_nodes (n : Node) :
    n.leaves = (Site.root n).fringe.map Site.node ∧
    (∀ s : Site, s ∈ (Site.root n).fringe ↔ n.at? s.path = some s.node ∧ s.node.children = []) ∧
    (Site.root n).fringe.Pairwise (fun s t => s.path < t.path) ∧
    (∀ cfg : Config, (n.readings cfg []).leaves =
      (Site.root n).fringe.map fun s => s.node.readings cfg s.path) ∧
    (∀ (group : Attributes) (first : Node) (others : List Node),
      Tree.leaves ⟨group, first :: others⟩ = (first :: others).flatMap Tree.leaves) ∧
    (∀ m : Node, n.leaves = m.leaves ↔ Tree.Regrouped [n] [m]) ∧
    ∀ group : Attributes, Tree.leaves ⟨group, n.leaves⟩ = n.leaves := by
  refine ⟨(Site.root n).leaves_eq_fringe, fun s => ?_, (Site.root n).fringe_pairwise_lt,
    fun cfg => (Site.root n).leaves_readings_eq_fringe cfg,
    fun group _ _ => Tree.leaves_of_children group (by simp), fun _ => Tree.leaves_eq_iff,
    fun group => Tree.leaves_group_leaves group n⟩
  rw [Site.mem_fringe_iff]
  simp [Site.root]

end ScriptIR
