import Mathlib.Data.List.Nodup
import ScriptIR.Proofs.Lowering.Visits

/-!
# Every dispatched node is visited

Each way of lowering a node builds its value from what nodes below it became. So every node of a
tree that is dispatched in a run is visited there, and every expression in what the run ends with is
what a visited node became: `EntryPoint.lower_visited`.
-/
namespace ScriptIR

namespace Part
variable {Y : Expression → Prop}

theorem throughout_expression {e : Expression} : (expression e).Throughout Y ↔
    Y e ∧ ∀ q ∈ (expression e).children, q.Throughout Y := by
  rw [throughout_iff]
  simp

theorem throughout_statement {s : Statement} :
    (statement s).Throughout Y ↔ ∀ q ∈ (statement s).children, q.Throughout Y := by
  rw [throughout_iff]
  simp

theorem throughout_function {f : Function} : (function f).Throughout Y ↔
    ∀ body ∈ f.body.statement?, (statement body).Throughout Y := by
  obtain ⟨origin, name, parameters, body⟩ := f
  have parameter : ∀ p, (parameter p).Throughout Y := fun p => throughout_iff.mpr (by simp)
  rw [throughout_iff]
  simp only [children, Function.body, List.forall_mem_append, List.forall_mem_map, reduceCtorEq]
  simp [parameter]

end Part

/-- What a reading becomes is built from nodes that are visited. -/
structure Reading.Builds (cfg : Config) (known : Site → Prop) (Y : Expression → Prop)
    (r : Reading) :
    Prop where
  expression : Lower.Builds cfg known Y (fun e => (Part.expression e).Throughout Y) r.expression
  statement : Lower.Builds cfg known Y (fun s => (Part.statement s).Throughout Y) r.statement

namespace Lower
variable {cfg : Config} {known : Site → Prop} {Y : Expression → Prop}

/-- The action becomes an expression whose parts are built from nodes that are visited. -/
def BuildsParts (cfg : Config) (known : Site → Prop) (Y : Expression → Prop)
    (m : Lower Expression) : Prop :=
  Builds cfg known Y (fun e => ∀ q ∈ (Part.expression e).children, q.Throughout Y) m

theorem Builds.parts {m : Lower Expression}
    (h : Builds cfg known Y (fun e => (Part.expression e).Throughout Y) m) :
    BuildsParts cfg known Y m :=
  h.imp fun _ holds => (Part.throughout_expression.mp holds).2

/-- What the readings of the given trees become is built from nodes that are visited. -/
def AllBuild (cfg : Config) (known : Site → Prop) (Y : Expression → Prop)
    (trees : List (Tree Reading)) : Prop :=
  ∀ t ∈ trees, ∀ r ∈ t.labels, r.Builds cfg known Y

namespace AllBuild
variable {trees others : List (Tree Reading)}

theorem label (h : AllBuild cfg known Y trees) {t : Tree Reading} (ht : t ∈ trees) :
    t.label.Builds cfg known Y :=
  h t ht _ t.label_mem_labels

theorem subset (h : AllBuild cfg known Y trees) (sub : others ⊆ trees) :
    AllBuild cfg known Y others :=
  fun t ht => h t (sub ht)

theorem valueLeaf (h : AllBuild cfg known Y trees) :
    ∀ value ∈ trees.flatMap valueLeaves,
      Builds cfg known Y (fun e => (Part.expression e).Throughout Y) value := by
  intro value hvalue
  obtain ⟨item, hitem, hleaf⟩ := List.mem_flatMap.mp hvalue
  obtain ⟨r, hr, rfl⟩ := mem_labels_of_mem_valueLeaves hleaf
  exact (h item hitem r hr).expression

end AllBuild

/-! ### Types, parameters and arguments -/

theorem typeOfText_builds (text : Option String) (site : Site) :
    Builds cfg known Y (fun _ => True) (typeOfText text (some site)) :=
  .silent (typeOfText_composed text trivial) (typeOfText_dispatches text site)

theorem parameters_build (ps : List (Site × Nat)) :
    Builds cfg known Y (fun _ => True) (ps.mapM fun p => parameter cfg p.1 p.2) := by
  have each : ∀ p ∈ ps, Builds cfg known Y (fun _ => True) (parameter cfg p.1 (p.2 : Nat)) :=
    fun p _ => .after (typeOfText_builds _ p.1) fun _ => .pure trivial
  exact (Builds.mapM each).imp fun _ _ => trivial

theorem lowerSlot_builds (callee : String) (candidates : List Function) {slot : Slot}
    (h : ∀ value ∈ slot.values,
      Builds cfg known Y (fun e => (Part.expression e).Throughout Y) value) :
    Builds cfg known Y (fun group => ∀ share ∈ group, (Part.expression share.1).Throughout Y)
      (lowerSlot cfg callee candidates slot) := by
  cases slot with
  | flag site value number =>
    have lowered := h value (by simp [Slot.values])
    have index : Builds cfg known Y (fun _ => True)
        (flagIndex cfg callee candidates site number) :=
      .silent (flagIndex_composed cfg callee candidates trivial number)
        (flagIndex_dispatches cfg callee candidates site number)
    exact index.after fun _ => lowered.bind fun _ => .pure fun holds => by simpa using holds
  | block value number =>
    have lowered := h value (by simp [Slot.values])
    exact lowered.bind fun _ => .pure fun holds => by simpa using holds
  | group values =>
    refine (Builds.mapM h).bind fun es => .pure fun holds share hshare => ?_
    obtain ⟨i, hi, rfl⟩ := List.mem_mapIdx.mp hshare
    exact holds _ (List.getElem_mem hi)

theorem bindArguments_builds (callee : String) (candidates : List Function)
    {items : List (Tree Reading)} (h : AllBuild cfg known Y items) :
    Builds cfg known Y (fun arguments => ∀ a ∈ arguments,
      (Part.expression a.expression).Throughout Y)
      (bindArguments cfg callee candidates items) := by
  have slots : ∀ slot ∈ slots 0 items, Builds cfg known Y
      (fun group => ∀ share ∈ group, (Part.expression share.1).Throughout Y)
      (lowerSlot cfg callee candidates slot) := by
    refine fun slot hslot => lowerSlot_builds callee candidates fun value hvalue => ?_
    obtain ⟨t, ht, r, hr, rfl⟩ := (slots_from 0 items slot hslot).values value hvalue
    exact (h t ht r hr).expression
  rw [bindArguments_eq]
  refine (Builds.mapM slots).bind fun groups => .pure fun holds a ha => ?_
  obtain ⟨i, hi, rfl⟩ := List.mem_mapIdx.mp ha
  obtain ⟨group, hgroup, hshare⟩ := List.mem_flatten.mp (List.getElem_mem hi)
  exact holds group hgroup _ hshare

/-! ### Nodes by kind -/

section
variable {site : Site}

/-- A leaf of the program holds no other expressions. -/
theorem leaf_builds {e : Expression} (leaf : (Part.expression e).children = []) :
    BuildsParts cfg known Y (pure e) := by
  refine .pure fun q hq => ?_
  rw [leaf] at hq
  cases hq

theorem compound_builds {statement : Lower Statement}
    (h : Builds cfg known Y (fun s => (Part.statement s).Throughout Y) statement) :
    BuildsParts cfg known Y (compound site statement) :=
  h.bind fun _ => .pure fun holds => by simpa using holds

variable {children : List (Tree Reading)} (h : AllBuild cfg known Y children)
include h

theorem wrapper_builds : BuildsParts cfg known Y (wrapper site children) := by
  cases children with
  | nil => exact .malformed _ _
  | cons first rest =>
    exact .checked (.report site _) fun _ => (h.label List.mem_cons_self).expression.parts

theorem blockOf_builds :
    Builds cfg known Y (fun s => (Part.statement s).Throughout Y) (blockOf site children) := by
  have lowered := Builds.mapM fun child hchild => (h.label (t := child) hchild).statement
  refine (Builds.inBlock _ lowered).bind fun statements => .pure fun holds => ?_
  exact Part.throughout_statement.mpr (by simpa using holds)

theorem block_builds :
    Builds cfg known Y (fun s => (Part.statement s).Throughout Y) (block site children) :=
  blockOf_builds (h.subset List.filter_sublist.subset)

theorem pipeline_builds : BuildsParts cfg known Y (pipeline site children) := by
  unfold pipeline
  split
  · exact .malformed _ _
  next stage => exact (h.label (t := stage) List.mem_cons_self).expression.parts
  · exact compound_builds (block_builds h)

theorem scriptBlock_builds : BuildsParts cfg known Y (scriptBlock site children) := by
  unfold scriptBlock
  split
  · exact .malformed _ _
  next only => exact compound_builds (h.label (t := only) List.mem_cons_self).statement
  · exact compound_builds (blockOf_builds h)

theorem command_builds : BuildsParts cfg known Y (command cfg site children) := by
  unfold command
  split
  · exact .malformed _ _
  next callee items =>
    have call : ∀ name (candidates : List Function), BuildsParts cfg known Y (do
        let arguments ← bindArguments cfg name candidates items
        pure (Expression.call site.origin name arguments candidates.head?)) := by
      intro name candidates
      have bound :=
        bindArguments_builds name candidates (h.subset (List.subset_cons_self callee items))
      exact bound.bind fun _ => .pure fun holds => by simpa using holds
    have resolves : ∀ name, Builds cfg known Y (fun _ => True) (resolve cfg site name) :=
      fun name => .silent (.resolve name trivial) (.resolve cfg site name)
    refine .checked (.malformed _ _) fun _ => .after (resolves _) fun candidates => ?_
    split
    · exact .after (.report site _) fun _ => call _ _
    · exact call _ _
    · exact .after (.report site _) fun _ => call _ _

theorem binary_builds : BuildsParts cfg known Y (binary site children) := by
  unfold binary
  split
  · split
    next left right =>
      have lhs := (h.label (t := left) (by simp)).expression
      have rhs := (h.label (t := right) (by simp)).expression
      exact lhs.bind fun _ => rhs.bind fun _ => .pure fun hr hl => by simpa using ⟨hl, hr⟩
    · exact .malformed _ _
  · exact .malformed _ _

theorem unary_builds : BuildsParts cfg known Y (unary site children) := by
  unfold unary
  dsimp only
  split
  · split
    · exact .malformed _ _
    next operand rest =>
      have lowered := (h.label (t := operand) List.mem_cons_self).expression
      exact lowered.bind fun _ => .pure fun holds => by simpa using holds
  · exact .malformed _ _

theorem array_builds : BuildsParts cfg known Y (array site children) :=
  .after (typeOfText_builds _ site) fun _ => .bind (.mapM h.valueLeaf) fun _ =>
    .pure fun holds => by simpa using holds

theorem cast_builds : BuildsParts cfg known Y (cast site children) := by
  unfold cast
  split
  next typeNode operand =>
    have inner := (h.label (t := operand) (by simp)).expression
    have finish : ∀ target, BuildsParts cfg known Y (do
        let inner ← operand.label.expression
        pure (Expression.cast site.origin target inner)) := fun _ =>
      inner.bind fun _ => .pure fun holds => by simpa using holds
    dsimp only
    split
    · exact .after (typeOfText_builds _ site) finish
    · exact .after (.silent (typeOfNode_composed trivial) (typeOfNode_dispatches _)) finish
  · exact .malformed _ _

theorem function_builds :
    Builds cfg known Y (fun f => (Part.function f).Throughout Y) (function cfg site children) := by
  unfold function
  refine .checked (.malformed _ _) fun _ => ?_
  split
  · refine .after (parameters_build _) fun ps => ?_
    cases hbody : children.find? (·.label.kind = .scriptBlock) with
    | none =>
      have declared : ∀ header, Builds cfg known Y (fun _ => True) (declare (.function header)) :=
        fun header => .silent (.declared header) (.declared header)
      exact .after (declared _) fun _ =>
        .pure (Part.throughout_function.mpr (by simp [Function.body]))
    | some body =>
      have lowered := (h.label (List.mem_of_find?_eq_some hbody)).statement
      refine (Builds.defining _ lowered).imp ?_
      rintro _ ⟨statement, holds, rfl⟩
      exact Part.throughout_function.mpr (by simpa [Function.withBody, Function.body] using holds)
  · exact .malformed _ _

theorem definition_builds : BuildsParts cfg known Y (definition cfg site children) :=
  (function_builds h).bind fun _ => .pure fun holds => by simpa using holds

omit h in
theorem literal_builds : BuildsParts cfg known Y (literal cfg site) := by
  unfold literal
  dsimp only
  split
  · exact leaf_builds rfl
  · exact .after (.report site _) fun _ => leaf_builds rfl

/-- Whatever a kind becomes where an expression stands is built from nodes that are visited. -/
theorem expressionOf?_builds {kind : Kind} {lowered : Lower Expression}
    (handler : expressionOf? cfg site children kind = some lowered) :
    BuildsParts cfg known Y lowered := by
  unfold expressionOf? at handler
  split at handler
  all_goals cases handler
  all_goals first
    | exact wrapper_builds h
    | exact pipeline_builds h
    | exact scriptBlock_builds h
    | exact command_builds h
    | exact .after (typeOfText_builds _ site) fun _ => leaf_builds rfl
    | exact compound_builds (block_builds h)
    | exact binary_builds h
    | exact unary_builds h
    | exact literal_builds
    | exact definition_builds h
    | exact array_builds h
    | exact cast_builds h
    | exact .after (.report site _) fun _ => leaf_builds rfl

end

/-- A node that is neither a block nor a definition is visited where a statement stands, too. -/
theorem statement_builds {site : Site} (hsite : known site)
    (h : AllBuild cfg known Y (site.below cfg)) :
    Builds cfg known Y (fun s => (Part.statement s).Throughout Y)
      (statement cfg site (site.below cfg)) := by
  unfold statement
  split
  · exact block_builds h
  · split
    · exact (function_builds h).bind fun _ =>
        .pure fun holds => Part.throughout_statement.mpr (by simpa using holds)
    · have visited : Builds cfg known Y (fun e => (Part.expression e).Throughout Y)
          (expression cfg site (site.below cfg)) := by
        have visit : Builds cfg known Y (fun e => (Part.expression e).Throughout Y)
            (site.reading cfg).expression := .visit hsite
        rwa [Site.reading_eq] at visit
      exact visited.bind fun _ =>
        .pure fun holds => Part.throughout_statement.mpr (by simpa using holds)

end Lower

open Session in
/-- When a node has been dispatched, its parts are built from nodes that are visited, also if it is
given up on: what is unknown has none. -/
theorem Lower.expression_built {cfg : Config} {known : Site → Prop} {Y : Expression → Prop}
    (site : Site) {children : List (Tree Reading)} (h : AllBuild cfg known Y children)
    (s : Session) :
    Built cfg known Y (fun e => ∀ q ∈ (Part.expression e).children, q.Throughout Y)
      (s.dispatching site) (s.run (expression cfg site children)) := by
  have leaf : BuildsParts cfg known Y (pure site.unknown) := leaf_builds rfl
  cases handler : expressionOf? cfg site children site.attributes.kind with
  | none =>
    have unsupported := (Builds.report site (.unsupportedKind site.attributes.tag)).after fun _ =>
        leaf
    rw [run_expression_of_none handler]
    exact unsupported.built (s.dispatching site)
  | some lowered =>
    rw [run_expression_of_some handler]
    exact ((expressionOf?_builds h handler).built _).orUnknown fun _ absurd => by cases absurd

/-! ### Trees -/

/-- What holds of a node if it holds of all nodes below it, holds of every node. -/
theorem Site.induct {P : Site → Prop}
    (h : ∀ s : Site, (∀ p ∈ Node.sitesOf s.path 0 s.node.children, P p) → P s) (s : Site) :
      P s := by
  have all : ∀ n : Node, ∀ path, ∀ p ∈ n.sites path, P p := by
    intro n
    induction n using Tree.induct with
    | node attrs children ih =>
      intro path
      let root : Site := ⟨path, ⟨attrs, children⟩⟩
      have below : ∀ p ∈ Node.sitesOf path 0 children, P p := by
        intro p hp
        rw [root.gather_children (Node.sitesOf path) within (fun _ => rfl) fun _ _ _ => rfl] at hp
        obtain ⟨c, hc, hp⟩ := List.mem_flatMap.mp hp
        have child : c.node ∈ root.children.map node := List.mem_map_of_mem hc
        rw [root.map_node_children] at child
        exact ih c.node child c.path p hp
      rw [Node.sites]
      exact List.forall_mem_cons.mpr ⟨h _ below, below⟩
  exact all s.node s.path s s.mem_within

namespace Node

/-- No two nodes of a tree stand at one place. -/
theorem eq_of_mem_sites {n : Node} {p q : Site} (hp : p ∈ n.sites []) (hq : q ∈ n.sites [])
    (same : p.path = q.path) : p = q := by
  have places : ((n.sites []).map Site.path).Nodup :=
    List.pairwise_map.mpr <| (n.sites_pairwise_lt []).imp fun before equal => by
      rw [equal] at before
      exact List.lt_irrefl _ before
  exact List.inj_on_of_nodup_map places hp hq same

theorem readingsOf_build (cfg : Config) {known : Site → Prop} (Y : Expression → Prop) (path : Path)
    (i : Nat) (children : List Node) (h : ∀ s ∈ sitesOf path i children, known s) :
    Lower.AllBuild cfg known Y (readingsOf cfg path i children) := by
  refine readingsOf_induct cfg path i children fun s hs below => ?_
  have visit : Lower.Builds cfg known Y (fun e => (Part.expression e).Throughout Y)
      (s.reading cfg).expression := .visit (h s hs)
  have statement := Lower.statement_builds (h s hs) below
  rw [s.reading_eq] at visit ⊢
  exact ⟨visit, statement⟩

end Node

namespace Session
variable {cfg : Config} {sites : List Site} {s t : Session}

/-- On the way from `s` to `t` every node that was dispatched was visited, and is one of the given
nodes. -/
def VisitsAll (cfg : Config) (sites : List Site) (s t : Session) : Prop :=
  ∀ path tag, s.Saw t (.dispatched path tag) →
    ∃ site ∈ sites, site.mark = (path, tag) ∧ ∃ outcome, s.Visits cfg t site outcome

/-- On the way from `s` to `t` one of the given nodes became the expression. -/
def Became (cfg : Config) (sites : List Site) (s t : Session) (e : Expression) : Prop :=
  ∃ site ∈ sites, s.Visits cfg t site (.ok e)

/-- A run of which all that is visited visits all that it dispatches does so, too. -/
theorem Built.visitsAll {known : Site → Prop} {Y : Expression → Prop} {α : Type} {Q : α → Prop}
    {ended : Except Fault α × Session} (h : Built cfg known Y Q s ended)
    (each : ∀ p, known p → ∀ (u v : Session) outcome,
      u.run (p.reading cfg).expression = (outcome, v) → VisitsAll cfg sites u v) :
    VisitsAll cfg sites s ended.2 := by
  intro path tag saw
  obtain ⟨site, hsite, u, v, outcome, passes, inside⟩ := h.visited path tag saw
  obtain ⟨p, hp, mark, result, visits⟩ := each site hsite u v outcome passes.run path tag inside
  exact ⟨p, hp, mark, result, visits.mono passes.before passes.after⟩

end Session

open Session

/-- The run of a node where an expression stands visits all nodes that it dispatches, and all
expressions that the node becomes are what visited nodes have become. -/
structure Site.Traced (cfg : Config) (sites : List Site) (site : Site) : Prop where
  visitsAll : ∀ (s t : Session) outcome, s.run (site.reading cfg).expression = (outcome, t) →
    VisitsAll cfg sites s t
  became : ∀ (s t : Session) e, s.run (site.reading cfg).expression = (.ok e, t) →
    (Part.expression e).Throughout (Became cfg sites s t)

namespace Site.Traced
variable {cfg : Config} {sites others : List Site} {site : Site}

theorem mono (h : site.Traced cfg sites) (sub : sites ⊆ others) : site.Traced cfg others where
  visitsAll s t outcome run path tag saw := by
    obtain ⟨p, hp, visits⟩ := h.visitsAll s t outcome run path tag saw
    exact ⟨p, sub hp, visits⟩
  became s t e run q within f hf := by
    obtain ⟨p, hp, visits⟩ := h.became s t e run q within f hf
    exact ⟨p, sub hp, visits⟩

/-- What a visited node became holds what nodes became on the way. -/
theorem of_visits (h : site.Traced cfg sites) {s t : Session} {e : Expression}
    (visits : s.Visits cfg t site (.ok e)) :
    (Part.expression e).Throughout (Became cfg sites s t) := by
  obtain ⟨u, v, passes⟩ := visits
  intro q within f hf
  obtain ⟨p, hp, inside⟩ := h.became u v e passes.run q within f hf
  exact ⟨p, hp, inside.mono passes.before passes.after⟩

end Site.Traced

/-- Every node is traced within itself: its own dispatch comes first, and what comes later are
visits of nodes below it. -/
theorem Site.traced (cfg : Config) (site : Site) : site.Traced cfg site.within := by
  induction site using Site.induct with
  | h site ih =>
    have below : ∀ p ∈ Node.sitesOf site.path 0 site.node.children, p.Traced cfg site.within := by
      intro p hp
      refine (ih p hp).mono ?_
      rw [site.within_eq]
      exact List.subset_cons_of_subset _ (Node.sitesOf_subset_of_mem _ _ _ p hp)
    -- Behind the dispatch of the node itself a run is built from nodes below it, whatever `Y` says.
    have built : ∀ (s t : Session) outcome Y, s.run (site.reading cfg).expression = (outcome, t) →
        Built cfg (· ∈ Node.sitesOf site.path 0 site.node.children) Y
          (fun e => ∀ q ∈ (Part.expression e).children, q.Throughout Y)
          (s.dispatching site) (outcome, t) := by
      intro s t outcome Y run
      rw [site.reading_eq] at run
      rw [← run]
      exact Lower.expression_built site (Node.readingsOf_build cfg Y _ _ _ fun _ hp => hp) s
    constructor
    · intro s t outcome run path tag saw
      have run' := built s t outcome (fun _ => True) run
      rcases saw.split (s.leads_dispatching site) run'.leads with early | late
      · cases (Saw.push_iff rfl).mp early
        exact ⟨site, site.mem_within, rfl, outcome, .of_run run⟩
      · obtain ⟨p, hp, mark, result, visits⟩ :=
          run'.visitsAll (fun p hp => (below p hp).visitsAll) path tag late
        exact ⟨p, hp, mark, result, visits.mono (s.leads_dispatching site) (.refl t)⟩
    · intro s t e run
      refine Part.throughout_expression.mpr ⟨⟨site, site.mem_within, .of_run run⟩, ?_⟩
      exact (built s t (.ok e) _ run).value (fun p f hp visits =>
        (below p hp).of_visits (visits.mono (s.leads_dispatching site) (.refl t))) e rfl

theorem EntryPoint.lower_builds (entry : EntryPoint) (cfg : Config) (n : Node)
    (Y : Expression → Prop) :
    Lower.Builds cfg (· ∈ n.sites []) Y (·.Throughout Y) (entry.lower cfg n) := by
  have root : Site.root n ∈ n.sites [] := n.site_mem_sites []
  have below : Lower.AllBuild cfg (· ∈ n.sites []) Y ((Site.root n).below cfg) := by
    refine Node.readingsOf_build cfg Y [] 0 n.children fun p hp => ?_
    change p ∈ (Site.root n).within
    rw [Site.within_eq]
    exact List.mem_cons_of_mem _ hp
  have expression : Lower.Builds cfg (· ∈ n.sites []) Y (fun e => (Part.expression e).Throughout Y)
      (lowerExpression cfg n) := .visit root
  have statement := Lower.statement_builds root below
  rw [← lowerStatement_eq] at statement
  cases entry with
  | expression => exact expression.bind fun _ => .pure id
  | statement => exact statement.bind fun _ => .pure id
  | script =>
    refine Lower.Builds.bind (statement.bind fun lowered => ?_) fun _ => .pure id
    cases lowered with
    | block _ _ => exact .pure id
    | expression _ _ | definition _ _ =>
      exact .pure fun holds => Part.throughout_statement.mpr (by simpa using holds)

/-- However a tree is lowered and however that ends, every node that is dispatched is a node of the
tree that is visited, and all expressions in what is lowered are what visited nodes became. -/
theorem EntryPoint.lower_visited (entry : EntryPoint) (cfg : Config) (n : Node) {s t : Session}
    {outcome : Except Fault Part} (h : s.run (entry.lower cfg n) = (outcome, t)) :
    VisitsAll cfg (n.sites []) s t ∧
      ∀ part, outcome = .ok part → part.Throughout (Became cfg (n.sites []) s t) := by
  have traced : ∀ p ∈ n.sites [], p.Traced cfg (n.sites []) := fun p hp =>
    (p.traced cfg).mono (n.sites_subset_of_mem [] p hp)
  have built := fun Y => h ▸ (entry.lower_builds cfg n Y).built s
  exact ⟨(built fun _ => True).visitsAll fun p hp => (traced p hp).visitsAll,
    (built _).value fun p e hp visits => (traced p hp).of_visits visits⟩

end ScriptIR
