import ScriptIR.Proofs.Lowering.ParameterNames
import ScriptIR.Proofs.Syntax.Preorder

/-!
# The parameters of a definition

A function has the parameters that stand below its definition with nothing but parameter blocks and
script blocks between, in the order of their places and counted from zero. If the function has a
body, one scope comes with it: that scope holds the parameters, and what the body declares is in the
scope of the block inside it.
-/
namespace ScriptIR

/-! ### Nodes above others -/

namespace Site

/-- The second node is below the first one, at any depth. -/
def Above (a b : Site) : Prop :=
  a.path <+: b.path ∧ a.path ≠ b.path

instance (a b : Site) : Decidable (a.Above b) :=
  inferInstanceAs (Decidable (_ ∧ _))

theorem not_above_self (s : Site) : ¬s.Above s :=
  fun h => h.2 rfl

theorem Above.not_above {a b : Site} (h : a.Above b) : ¬b.Above a :=
  fun k => h.2 (h.1.eq_of_length (Nat.le_antisymm h.1.length_le k.1.length_le))

/-- The node passes the parameters below it on to the function around it. -/
def PassesParameters (s : Site) : Prop :=
  s.attributes.kind = .paramBlock ∨ s.attributes.kind = .scriptBlock

instance (s : Site) : Decidable s.PassesParameters :=
  inferInstanceAs (Decidable (_ ∨ _))

/-- The node is a parameter, and all nodes strictly between the definition and it pass it on. -/
def IsParameterOf (p definition : Site) : Prop :=
  p.attributes.kind = .parameter ∧ definition.Above p ∧
    ∀ a ∈ definition.within, definition.Above a → a.Above p → a.PassesParameters

instance (p definition : Site) : Decidable (p.IsParameterOf definition) :=
  inferInstanceAs (Decidable (_ ∧ _ ∧ _))

/-- The node is a parameter, and all of the given nodes that are above it pass it on. -/
def ReachedAmong (nodes : List Site) (p : Site) : Prop :=
  p.attributes.kind = .parameter ∧ ∀ a ∈ nodes, a.Above p → a.PassesParameters

instance (nodes : List Site) (p : Site) : Decidable (p.ReachedAmong nodes) :=
  inferInstanceAs (Decidable (_ ∧ _))

/-- The parameters of a list of nodes that are reached among these nodes. -/
def reached (nodes : List Site) : List Site :=
  nodes.filter fun p => p.ReachedAmong nodes

theorem reached_append {xs ys : List Site} (apart : ∀ x ∈ xs, ∀ y ∈ ys, ¬x.Above y ∧ ¬y.Above x) :
    reached (xs ++ ys) = reached xs ++ reached ys := by
  have first : ∀ p ∈ xs, p.ReachedAmong (xs ++ ys) ↔ p.ReachedAmong xs := by
    intro p hp
    unfold ReachedAmong
    rw [List.forall_mem_append, and_iff_left fun y hy above => absurd above (apart p hp y hy).2]
  have second : ∀ p ∈ ys, p.ReachedAmong (xs ++ ys) ↔ p.ReachedAmong ys := by
    intro p hp
    unfold ReachedAmong
    rw [List.forall_mem_append, and_iff_right fun x hx above => absurd above (apart x hx p hp).1]
  unfold reached
  rw [List.filter_append]
  congr 1
  · exact List.filter_congr fun p hp => decide_eq_decide.mpr (first p hp)
  · exact List.filter_congr fun p hp => decide_eq_decide.mpr (second p hp)

/-- A node above all others is a parameter itself, or passes on what is reached among the others, or
else it lets nothing through. -/
theorem reached_cons {s : Site} {xs : List Site} (above : ∀ x ∈ xs, s.Above x) :
    reached (s :: xs) =
      if s.attributes.kind = .parameter then [s]
      else if s.PassesParameters then reached xs else [] := by
  have top : s.ReachedAmong (s :: xs) ↔ s.attributes.kind = .parameter := by
    refine and_iff_left (List.forall_mem_cons.mpr ⟨fun h => absurd h s.not_above_self, ?_⟩)
    exact fun x hx h => absurd h (above x hx).not_above
  have others : ∀ p ∈ xs, p.ReachedAmong (s :: xs) ↔ s.PassesParameters ∧ p.ReachedAmong xs := by
    intro p hp
    unfold ReachedAmong
    rw [List.forall_mem_cons, imp_iff_right (above p hp), and_left_comm]
  have rest : xs.filter (fun p => p.ReachedAmong (s :: xs)) =
      if s.PassesParameters then reached xs else [] := by
    split
    next passes =>
      exact List.filter_congr fun p hp =>
        decide_eq_decide.mpr ((others p hp).trans (and_iff_right passes))
    next stays =>
      refine List.filter_eq_nil_iff.mpr fun p hp => ?_
      rw [decide_eq_true_eq, others p hp]
      exact fun h => stays h.1
  unfold reached
  split
  next parameter =>
    have stays : ¬s.PassesParameters := by simp [PassesParameters, parameter]
    rw [List.filter_cons, if_pos (decide_eq_true (top.mpr parameter)), rest, if_neg stays]
  next other =>
    have hidden : ¬s.ReachedAmong (s :: xs) := fun h => other (top.mp h)
    rw [List.filter_cons, if_neg (by rw [decide_eq_true_eq]; exact hidden), rest]
    rfl

end Site

/-! ### Parameters in their places -/

theorem Path.child_unique {path q : Path} {i j : Nat} (hi : path ++ [i] <+: q)
    (hj : path ++ [j] <+: q) :
    i = j := by
  have same := (List.prefix_of_prefix_length_le hi hj (by simp)).eq_of_length (by simp)
  simpa using same

namespace Node
open Site (reached reached_append reached_cons)

theorem above_of_mem_sitesOf {path : Path} {i : Nat} {nodes : List Node} (n : Node) :
    ∀ s ∈ sitesOf path i nodes, Site.Above ⟨path, n⟩ s := by
  intro s hs
  obtain ⟨j, _, below⟩ := prefix_of_mem_sitesOf path i nodes s hs
  refine ⟨(List.prefix_append path [j]).trans below, fun same => ?_⟩
  have shorter := below.length_le
  obtain rfl : path = s.path := same
  rw [List.length_append, List.length_singleton] at shorter
  omega

theorem sites_apart (path : Path) (i : Nat) (child : Node) (rest : List Node) :
    ∀ x ∈ sites (path ++ [i]) child, ∀ y ∈ sitesOf path (i + 1) rest, ¬x.Above y ∧ ¬y.Above x := by
  intro x hx y hy
  have here := prefix_of_mem_sites (path ++ [i]) child x hx
  obtain ⟨j, later, there⟩ := prefix_of_mem_sitesOf path (i + 1) rest y hy
  constructor
  · intro above
    have same := Path.child_unique (here.trans above.1) there
    omega
  · intro above
    have same := Path.child_unique here (there.trans above.1)
    omega

mutual
theorem parameters_eq_reached (path : Path) : ∀ n : Node, parameters path n = reached (sites path n)
  | ⟨attrs, children⟩ => by
    rw [parameters, sites, reached_cons (above_of_mem_sitesOf _),
      parametersOf_eq_reached path 0 children]
    refine if_congr Iff.rfl rfl (if_congr ?_ rfl rfl)
    rw [Bool.or_eq_true, decide_eq_true_eq, decide_eq_true_eq]
    rfl

theorem parametersOf_eq_reached (path : Path) (i : Nat) : ∀ children : List Node,
    parametersOf path i children = reached (sitesOf path i children)
  | [] => rfl
  | child :: rest => by
    rw [parametersOf, sitesOf, reached_append (sites_apart path i child rest),
      parameters_eq_reached (path ++ [i]) child, parametersOf_eq_reached path (i + 1) rest]
end

end Node

namespace Site

/-- The parameters that are collected for a definition are all that stand below it with nothing but
blocks between, in their order. -/
theorem parameters_eq_filter (s : Site) :
    s.parameters = s.within.filter fun p => p.IsParameterOf s := by
  have below : ∀ p ∈ Node.sitesOf s.path 0 s.node.children, s.Above p :=
    Node.above_of_mem_sitesOf s.node
  -- The definition itself is not strictly between, so only the nodes below it can stand in the way.
  have same : ∀ p ∈ Node.sitesOf s.path 0 s.node.children,
      p.IsParameterOf s ↔ p.ReachedAmong (Node.sitesOf s.path 0 s.node.children) := by
    intro p hp
    unfold IsParameterOf ReachedAmong
    rw [within_eq, List.forall_mem_cons]
    simp only [below p hp, true_and, s.not_above_self, IsEmpty.forall_iff]
    exact and_congr_right fun _ => forall₂_congr fun a ha => imp_iff_right (below a ha)
  have itself : ¬s.IsParameterOf s := fun h => s.not_above_self h.2.1
  rw [parameters, Node.parametersOf_eq_reached, within_eq,
    List.filter_cons_of_neg (by rw [decide_eq_true_eq]; exact itself)]
  exact List.filter_congr fun p hp => decide_eq_decide.mpr (same p hp).symm

theorem parameters_pairwise_lt (s : Site) : s.parameters.Pairwise fun p q => p.path < q.path := by
  rw [parameters_eq_filter]
  exact (s.node.sites_pairwise_lt s.path).filter _

end Site

/-! ### The body of a definition -/

namespace Site
variable (s : Site) (kind : Kind)

theorem find?_below (cfg : Config) : (s.below cfg).find? (·.label.kind = kind) =
    (s.children.find? (·.attributes.kind = kind)).map fun c => c.node.readings cfg c.path := by
  rw [below_eq, List.find?_map]
  congr 2
  funext c
  exact congrArg (fun k : Kind => decide (k = kind)) (c.node.readings_kind cfg c.path)

theorem firstChild?_eq :
    s.node.firstChild? kind = (s.children.find? (·.attributes.kind = kind)).map Site.node := by
  rw [Node.firstChild?, ← map_node_children, List.find?_map]
  rfl

end Site

/-- The scope in which the body of a function was lowered: it holds the parameters of the function,
and the scope of the block that the body is inside it. -/
structure Scope.IsScopeOf (f : Function) (code : Option String) (scope : Scope) : Prop where
  owner : scope.owner = some (Lower.ownerOf f)
  declarations : scope.declarations = f.parameters.map .parameter
  body : ∃ block, scope.children = [block] ∧ block.owner = some (.block code)

namespace Lower
open Session

section
variable {cfg : Config} {known : Site → Prop} {site : Site}
    {children : List (Tree Reading)} {s t : Session}

/-- A block leaves its scope behind, and the declarations around it as they are. -/
theorem scopes_of_run_blockOf (composed : AllComposed cfg known children) {lowered : Statement}
    (h : s.run (blockOf site children) = (.ok lowered, t)) :
    ∃ block : Scope, block.owner = some (.block site.attributes.code) ∧
      t.scopes = { s.scopes with current := s.scopes.current.addChild block } := by
  have body : Composed cfg known (children.mapM (·.label.statement)) :=
    .mapM fun _ hchild => (composed.label hchild).statement
  obtain ⟨statements, u, inside, ended⟩ := run_bind_eq_ok.mp h
  obtain ⟨-, rfl⟩ := run_pure_eq_ok.mp ended
  rw [body.run_inBlock rfl] at inside
  obtain rfl := congrArg Prod.snd inside
  exact ⟨_, (body.balanced (s.opening _)).scopes.owner, rfl⟩

/-- A definition that is made ends with its function in the place of the header, and the scope of
the function behind it. -/
theorem scopes_of_run_defining {header f : Function} {body : Lower Statement}
    (composed : Composed cfg known body) (h : s.run (defining header body) = (.ok f, t)) :
    ∃ lowered u, (s.openingFunction header).run body = (.ok lowered, u) ∧
      f = header.withBody lowered ∧
      t.scopes = { s.scopes.declare (.function f) with
        current := (s.scopes.declare (.function f)).current.addChild u.scopes.current } := by
  cases hbody : (s.openingFunction header).run body with
  | mk outcome u =>
    cases outcome with
    | error e =>
      rw [composed.run_defining_of_error hbody] at h
      cases h
    | ok lowered =>
      rw [composed.run_defining_of_ok hbody] at h
      cases h
      exact ⟨lowered, u, rfl, rfl, s.scopes.redeclare_addChild_declare _ _ _⟩

variable (cfg : Config) {f : Function}

/-- A definition that is made has the kind and the name that it needs. Its parameters are lowered
before it is declared with them, and then its body, if it has one. -/
theorem run_function_eq_ok (composed : AllComposed cfg known children)
    (h : s.run (function cfg site children) = (.ok f, t)) :
    site.attributes.kind = .functionDefinition ∧ nonEmpty? site.attributes.name = some f.name ∧
      ∃ u, s.run (site.parameters.zipIdx.mapM fun p => parameter cfg p.1 p.2) =
        (.ok f.parameters, u) ∧
        match children.find? (·.label.kind = .scriptBlock) with
        | none => t.scopes = u.scopes.declare (.function f)
        | some body => ∃ (header : Function) (lowered : Statement) (v : Session),
            f = header.withBody lowered ∧
            (u.openingFunction header).run body.label.statement = (.ok lowered, v) ∧
            t.scopes = { u.scopes.declare (.function f) with
              current := (u.scopes.declare (.function f)).current.addChild v.scopes.current } := by
  unfold function at h
  dsimp only at h
  split at h
  swap
  · cases h
  next kind =>
    cases named : nonEmpty? site.attributes.name with
    | none =>
      rw [named] at h
      cases h
    | some name =>
      rw [named] at h
      obtain ⟨ps, u, parameters, made⟩ := run_bind_eq_ok.mp h
      cases hbody : children.find? (·.label.kind = .scriptBlock) with
      | none =>
        rw [hbody] at made
        cases made
        exact ⟨kind, rfl, u, parameters, rfl⟩
      | some body =>
        rw [hbody] at made
        have inside := (composed.label (List.mem_of_find?_eq_some hbody)).statement
        obtain ⟨lowered, v, run, rfl, scopes⟩ := scopes_of_run_defining inside made
        exact ⟨kind, rfl, u, parameters, _, lowered, v, rfl, run, scopes⟩

end

variable (cfg : Config) (site : Site) {s t : Session} {f : Function}

theorem isScopeOf_of_run {header : Function} {body : Site}
    (block : body.attributes.kind = .scriptBlock)
    {lowered : Statement}
    (h : (s.openingFunction header).run (body.node.readings cfg body.path).label.statement =
      (.ok lowered, t)) :
    t.scopes.current.IsScopeOf (header.withBody lowered) body.attributes.code := by
  have statement : (body.node.readings cfg body.path).label.statement =
      Lower.block body (body.below cfg) := by
    change (body.reading cfg).statement = _
    rw [body.reading_eq]
    exact statement_of_isBlock cfg body (block ▸ rfl)
  have composed := (body.below_composed cfg).subset
    (List.filter_sublist (p := fun child => child.label.kind ≠ .paramBlock)).subset
  rw [statement] at h
  -- What the body declares goes into the scope of its block, so the function's own
  -- keeps its parameters.
  obtain ⟨inner, owner, scopes⟩ := scopes_of_run_blockOf composed h
  rw [scopes]
  exact ⟨rfl, rfl, inner, rfl, owner⟩

theorem sigil_prefix_withSigil (name : String) :
    cfg.sigil.toList <+: (withSigil cfg name).toList := by
  unfold withSigil
  split
  next has => exact List.isPrefixOf_iff_prefix.mp has
  next => exact String.toList_append ▸ List.prefix_append _ _

end Lower

open Lower

/-- Wherever a definition is lowered, if that gives a function, the function has the name of the
definition and is declared behind what was in scope. Its parameters are, one for one and in the
order of their places, those that stand below the definition with nothing but parameter blocks and
script blocks between; each has the number of its node for its index, and a name that starts with
the sigil. If the definition has a body, one scope has come with it, which holds these parameters
and nothing else, and the block of the body inside it; if not, none has. -/
theorem function_parameters (cfg : Config) (site : Site) {s t : Session} {f : Function}
    (accepted : s.run (Lower.function cfg site (site.below cfg)) = (.ok f, t)) :
    let nodes := site.within.filter fun p => p.IsParameterOf site
    site.attributes.kind = .functionDefinition ∧ nonEmpty? site.attributes.name = some f.name ∧
    nodes.Pairwise (fun p q => p.path < q.path) ∧
    List.Forall₂ (fun (e : Site × Nat) p => p.DeclaredAt cfg e.1 e.2) nodes.zipIdx f.parameters ∧
    (∀ p ∈ f.parameters, cfg.sigil.toList <+: p.name.toList) ∧
    t.scopes.enclosing = s.scopes.enclosing ∧
    t.scopes.current.declarations = s.scopes.current.declarations ++ [.function f] ∧
    match site.node.firstChild? .scriptBlock with
    | none => t.scopes.current.children = s.scopes.current.children
    | some body => ∃ scope : Scope, scope.IsScopeOf f body.label.code ∧
        t.scopes.current.children = s.scopes.current.children ++ [scope] := by
  intro nodes
  obtain ⟨kind, name, u, parameters, made⟩ :=
    run_function_eq_ok cfg (site.below_composed cfg) accepted
  have kept : u.scopes = s.scopes := by
    have scopes := parameters_keep cfg site Session.scopes (fun _ _ _ => rfl) s
    rwa [parameters] at scopes
  have collected : nodes = site.parameters := site.parameters_eq_filter.symm
  have declared := collected ▸ parameters_declared cfg site parameters
  have sigil : ∀ p ∈ f.parameters, cfg.sigil.toList <+: p.name.toList := by
    intro p hp
    obtain ⟨k, hk, rfl⟩ := List.getElem_of_mem hp
    have here := declared.get (declared.length_eq ▸ hk) hk
    exact here.name ▸ sigil_prefix_withSigil cfg _
  refine ⟨kind, name, collected ▸ site.parameters_pairwise_lt, declared, sigil, ?_⟩
  rw [site.find?_below] at made
  rw [site.firstChild?_eq]
  cases hbody : site.children.find? (·.attributes.kind = .scriptBlock) with
  | none =>
    rw [hbody] at made
    rw [made, kept]
    exact ⟨rfl, rfl, rfl⟩
  | some body =>
    rw [hbody] at made
    obtain ⟨header, lowered, v, rfl, run, scopes⟩ := made
    have block : body.attributes.kind = .scriptBlock := by
      simpa using List.find?_some hbody
    rw [scopes, kept]
    exact ⟨rfl, rfl, _, isScopeOf_of_run cfg block run, rfl⟩

/-- A parameter of the signature, one in a block of parameters, and one in a block inside the body.
Those below another parameter or another function belong to neither the function nor its scope. -/
theorem function_parameters_mixed :
    let parameter (name : String) (inside : List Node) : Node :=
      ⟨{ kind := .parameter, tag := "", name := some name }, inside⟩
    let definition (name : String) (inside : List Node) : Node :=
      ⟨{ kind := .functionDefinition, tag := "", name := some name }, inside⟩
    let site := Site.root <| definition "f" [parameter "a" [],
      .bare .paramBlock [parameter "$b" [parameter "hidden" []]],
      .bare .scriptBlock [definition "g" [parameter "hidden" []],
        .bare .paramBlock [.bare .scriptBlock [parameter "c" []]]]]
    let ended := (Session.start {}).run (Lower.function {} site (site.below {}))
    ∃ f, ended.1 = .ok f ∧
      f.parameters.map (fun p => (p.name, p.index)) = [("$a", 0), ("$b", 1), ("$c", 2)] ∧
      ∃ scope : Scope, scope.IsScopeOf f none ∧ ended.2.scopes.current.children = [scope] := by
  intro parameter definition site ended
  have made : ∃ f, ended.1 = .ok f ∧
      f.parameters.map (fun p => (p.name, p.index)) = [("$a", 0), ("$b", 1), ("$c", 2)] :=
    ⟨_, rfl, by decide +kernel⟩
  obtain ⟨f, accepted, parameters⟩ := made
  have run : (Session.start {}).run (Lower.function {} site (site.below {})) = (.ok f, ended.2) :=
    Prod.ext accepted rfl
  obtain ⟨-, -, -, -, -, -, -, scope⟩ := function_parameters {} site run
  exact ⟨f, accepted, parameters, scope⟩

end ScriptIR
