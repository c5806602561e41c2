import Mathlib.Data.List.Forall2
import ScriptIR.Lowering.Definition

/-!
# The nodes of a tree

The labels of a labelled tree, and the nodes of a syntax tree together with their places, both
in the order in which they stand in the source: a node before those below it, and these from
left to right. Leaves and the parameters of a function are among them. Trees of the same shape
can be related node by node.
-/
namespace ScriptIR

namespace Tree
variable {α : Type}

mutual
/-- The labels of all nodes of a tree, each before those below it. -/
def labels : Tree α → List α
  | ⟨label, children⟩ => label :: labelsOf children

/-- The labels of neighbouring trees, one tree after the other. -/
def labelsOf : List (Tree α) → List α
  | [] => []
  | t :: rest => t.labels ++ labelsOf rest
end

/-- Induction over a tree from its leaves up. -/
theorem induct {motive : Tree α → Prop}
    (node : ∀ label children, (∀ child ∈ children, motive child) → motive ⟨label, children⟩) :
    ∀ t, motive t
  | ⟨label, children⟩ => node label children fun child _ => induct node child

theorem mem_labelsOf {a : α} {ts : List (Tree α)} :
    a ∈ labelsOf ts ↔ ∃ t ∈ ts, a ∈ t.labels := by
  induction ts with
  | nil => simp [labelsOf]
  | cons t ts ih => simp [labelsOf, ih]

theorem label_mem_labels (t : Tree α) : t.label ∈ t.labels := by
  obtain ⟨label, children⟩ := t
  simp [labels]

theorem mem_labels_of_child {t child : Tree α} (h : child ∈ t.children) {a : α}
    (ha : a ∈ child.labels) : a ∈ t.labels := by
  obtain ⟨label, children⟩ := t
  rw [labels]
  exact List.mem_cons_of_mem _ (mem_labelsOf.mpr ⟨child, h, ha⟩)

theorem label_mem_labels_of_leaf (t : Tree α) :
    ∀ leaf ∈ t.leaves, leaf.label ∈ t.labels := by
  induction t using induct with
  | node label children ih =>
    intro leaf hleaf
    cases children with
    | nil =>
      rw [leaves_childless, List.mem_singleton] at hleaf
      exact hleaf ▸ label_mem_labels _
    | cons child rest =>
      rw [leaves_of_children label (by simp), List.mem_flatMap] at hleaf
      obtain ⟨c, hc, hl⟩ := hleaf
      exact mem_labels_of_child (t := ⟨label, child :: rest⟩) hc (ih c hc leaf hl)

/-- Trees of the same shape whose labels are related node by node. -/
inductive Rel {β : Type} (R : α → β → Prop) : Tree α → Tree β → Prop
  | node {a : α} {b : β} {children : List (Tree α)} {others : List (Tree β)} :
      R a b → List.Forall₂ (Rel R) children others → Rel R ⟨a, children⟩ ⟨b, others⟩

namespace Rel
variable {β : Type} {R : α → β → Prop} {t : Tree α} {u : Tree β} (h : t.Rel R u)
include h

theorem label : R t.label u.label := by
  cases h with
  | node label _ => exact label

theorem children : List.Forall₂ (Rel R) t.children u.children := by
  cases h with
  | node _ children => exact children

/-- The leaves are related in their order. -/
theorem leaves : List.Forall₂ (Rel R) t.leaves u.leaves := by
  induction t using induct generalizing u with
  | node label children ih =>
    cases h with
    | node related below =>
      cases below with
      | nil => exact .cons (.node related .nil) .nil
      | cons first rest =>
        rw [leaves_of_children _ (by simp), leaves_of_children _ (by simp)]
        have deeper := (List.forall₂_and_left _ _).mpr ⟨ih, .cons first rest⟩
        exact List.rel_flatMap deeper fun _ _ both => both.1 both.2

end Rel

end Tree

/-- The file that a node names can be shown: it is a text or counts as absent. -/
def Site.Shown (s : Site) : Prop :=
  isFileName s.attributes.location.file = true

instance (s : Site) : Decidable s.Shown :=
  inferInstanceAs (Decidable (_ = true))

namespace Node

mutual
/-- The nodes of the tree at `path` with their places, each before those below it. -/
def sites (path : Path) : Node → List Site
  | ⟨attrs, children⟩ => ⟨path, ⟨attrs, children⟩⟩ :: sitesOf path 0 children

/-- The nodes of the children of the node at `path` from number `i` on. -/
def sitesOf (path : Path) (i : Nat) : List Node → List Site
  | [] => []
  | child :: rest => sites (path ++ [i]) child ++ sitesOf path (i + 1) rest
end

/-- The files of all nodes of the tree can be shown. -/
def FilesShown (n : Node) : Prop :=
  ∀ site ∈ n.sites [], site.Shown

theorem site_mem_sites (path : Path) (n : Node) : ⟨path, n⟩ ∈ n.sites path := by
  obtain ⟨attrs, children⟩ := n
  simp [sites]

mutual
/-- The nodes below a node of the tree are nodes of the tree. -/
theorem sites_subset_of_mem (path : Path) :
    ∀ n, ∀ s ∈ sites path n, sites s.path s.node ⊆ sites path n
  | ⟨attrs, children⟩, s, hs => by
    rw [sites] at hs ⊢
    rcases List.mem_cons.mp hs with rfl | hbelow
    · rw [sites]
      exact fun _ h => h
    · exact List.subset_cons_of_subset _ (sitesOf_subset_of_mem path 0 children s hbelow)

theorem sitesOf_subset_of_mem (path : Path) (i : Nat) :
    ∀ children, ∀ s ∈ sitesOf path i children, sites s.path s.node ⊆ sitesOf path i children
  | [], s, hs => absurd hs List.not_mem_nil
  | child :: rest, s, hs => by
    rw [sitesOf] at hs ⊢
    rcases List.mem_append.mp hs with h | h
    · exact fun _ ha => List.mem_append_left _ (sites_subset_of_mem _ child s h ha)
    · exact fun _ ha => List.mem_append_right _ (sitesOf_subset_of_mem path (i + 1) rest s h ha)
end

mutual
/-- Parameters stand among the nodes below the function that they belong to. -/
theorem parameters_subset_sites (path : Path) : ∀ n, parameters path n ⊆ sites path n
  | ⟨attrs, children⟩ => by
    intro site hsite
    rw [parameters] at hsite
    rw [sites]
    split at hsite
    · exact List.mem_singleton.mp hsite ▸ List.mem_cons_self
    · split at hsite
      · exact List.mem_cons_of_mem _ (parametersOf_subset_sitesOf path 0 children hsite)
      · cases hsite

theorem parametersOf_subset_sitesOf (path : Path) (i : Nat) :
    ∀ children, parametersOf path i children ⊆ sitesOf path i children
  | [] => List.nil_subset _
  | child :: rest => by
    rw [parametersOf, sitesOf]
    have first := parameters_subset_sites (path ++ [i]) child
    have others := parametersOf_subset_sitesOf path (i + 1) rest
    intro site hsite
    rcases List.mem_append.mp hsite with h | h
    · exact List.mem_append_left _ (first h)
    · exact List.mem_append_right _ (others h)
end

end Node

@[simp] theorem Site.attributes_mk (path : Path) (attrs : Attributes) (children : List Node) :
    (⟨path, ⟨attrs, children⟩⟩ : Site).attributes = attrs := rfl

/-- The node itself and the nodes below it. -/
def Site.within (s : Site) : List Site :=
  s.node.sites s.path

theorem Site.within_eq (s : Site) : s.within = s :: Node.sitesOf s.path 0 s.node.children := by
  obtain ⟨path, ⟨attrs, children⟩⟩ := s
  rw [within, Node.sites]

theorem Site.mem_within (s : Site) : s ∈ s.within :=
  s.node.site_mem_sites s.path

theorem Site.parameters_subset_within (s : Site) : s.parameters ⊆ s.within := by
  rw [within_eq]
  exact List.subset_cons_of_subset _ (Node.parametersOf_subset_sitesOf s.path 0 s.node.children)

/-! ### Children in their places -/

theorem isEmpty_of_forall₂ {α β : Type} {Q : α → β → Prop} {as : List α} {bs : List β}
    (h : List.Forall₂ Q as bs) : bs.isEmpty = as.isEmpty := by
  cases h <;> rfl

/-- Numbering keeps lists related. -/
theorem forall₂_mapIdx {α β γ δ : Type} {Q : α → β → Prop} {P : γ → δ → Prop} {as : List α}
    {bs : List β} (h : List.Forall₂ Q as bs) {f : Nat → α → γ} {g : Nat → β → δ}
    (each : ∀ i a b, Q a b → P (f i a) (g i b)) : List.Forall₂ P (as.mapIdx f) (bs.mapIdx g) := by
  induction h generalizing f g with
  | nil => exact .nil
  | cons first _ ih =>
    rw [List.mapIdx_cons, List.mapIdx_cons]
    exact .cons (each 0 _ _ first) (ih fun i => each (i + 1))

namespace Site
variable (s : Site)

theorem map_node_children : s.children.map Site.node = s.node.children := by
  apply List.ext_getElem?
  intro i
  simp [children, Function.comp_def]

/-- What is gathered from the children one by one, each in its place, is gathered from the sites. -/
theorem gather_children {β : Type} (gather : Nat → List Node → List β) (each : Site → List β)
    (nil : ∀ i, gather i [] = [])
    (cons : ∀ i child rest,
      gather i (child :: rest) = each ⟨s.path ++ [i], child⟩ ++ gather (i + 1) rest) :
    gather 0 s.node.children = s.children.flatMap each := by
  have shifted : ∀ (nodes : List Node) (i : Nat), gather i nodes =
      (nodes.mapIdx fun j c => (⟨s.path ++ [i + j], c⟩ : Site)).flatMap each := by
    intro nodes
    induction nodes with
    | nil => exact nil
    | cons child rest ih =>
      intro i
      rw [cons, ih, List.mapIdx_cons, List.flatMap_cons]
      simp only [Nat.add_zero, Nat.add_assoc, Nat.add_comm 1]
  rw [shifted]
  simp only [Nat.zero_add, children]

theorem parameters_eq : s.parameters = s.children.flatMap fun c => c.node.parameters c.path :=
  s.gather_children (Node.parametersOf s.path) _ (fun _ => rfl) fun _ _ _ => rfl

/-- A node contributes itself if it is a parameter, and what is inside if it is a
block of parameters. -/
theorem node_parameters_eq : s.node.parameters s.path =
    if s.attributes.kind = .parameter then [s]
    else if s.attributes.kind = .paramBlock || s.attributes.kind = .scriptBlock then s.parameters
    else [] := by
  obtain ⟨path, ⟨attrs, children⟩⟩ := s
  rw [Node.parameters]
  rfl

theorem within_eq_children : s.within = s :: s.children.flatMap within := by
  rw [within_eq, s.gather_children (Node.sitesOf s.path) within (fun _ => rfl) fun _ _ _ => rfl]

/-- The children of a node of a tree are nodes of the tree. -/
theorem children_subset_sites {n : Node} (h : s ∈ n.sites []) : s.children ⊆ n.sites [] := by
  intro c hc
  apply n.sites_subset_of_mem [] s h
  change c ∈ s.within
  rw [within_eq_children]
  exact List.mem_cons_of_mem _ (List.mem_flatMap.mpr ⟨c, hc, c.mem_within⟩)

end Site

namespace Node

instance (n : Node) : Decidable n.FilesShown :=
  inferInstanceAs (Decidable (∀ site ∈ n.sites [], site.Shown))

theorem FilesShown.within {n : Node} (files : n.FilesShown) {s : Site} (h : s ∈ n.sites []) :
    ∀ site ∈ s.within, site.Shown :=
  fun site hsite => files site (n.sites_subset_of_mem [] s h hsite)

/-- A node that says nothing but its kind. -/
def bare (kind : Kind) (children : List Node) : Node :=
  ⟨{ kind := kind, tag := kind.name }, children⟩

end Node

end ScriptIR
