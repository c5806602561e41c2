import ScriptIR.Proofs.Lowering.Wrapping

/-!
# Script blocks as expressions and as statements

A script block is lowered by one loop where an expression stands and by another one where a
statement stands. Both make a block of the children in a scope of its own; but only the second one
passes over parameter blocks, which belong to the function around them. Where there are none the two
agree, and where there is one they do not.
-/
namespace ScriptIR

/-- The statements that a block holds; nothing else holds any. -/
def Statement.statements : Statement → List Statement
  | block _ statements => statements
  | _ => []

namespace Lower
open Session

variable {cfg : Config} {known : Site → Prop} {site : Site}
    {children : List (Tree Reading)} {s t : Session}

theorem length_of_run_blockOf (hchildren : AllComposed cfg known children) {block : Statement}
    (h : s.run (blockOf site children) = (.ok block, t)) :
    block.statements.length = children.length := by
  have body : Composed cfg known (children.mapM (·.label.statement)) :=
    .mapM fun child hchild => (hchildren.label hchild).statement
  obtain ⟨lowered, u, inScope, made⟩ := run_bind_eq_ok.mp h
  obtain ⟨rfl, -⟩ := run_pure_eq_ok.mp made
  rw [body.run_inBlock rfl] at inScope
  have inside : ((s.opening (.block site.attributes.code)).run
      (children.mapM (·.label.statement))).1 = .ok lowered := congrArg Prod.fst inScope
  exact (forall₂_of_run_mapM (P := fun _ _ => True) (by simp) (Prod.ext inside rfl)).length_eq.symm

theorem run_orUnknown_eq_compound {body : Lower Expression} {origin : Origin}
    {statement : Statement} :
    s.run (orUnknown site body) = (.ok (.compound origin statement), t) ↔
      s.run body = (.ok (.compound origin statement), t) := by
  constructor
  · intro h
    cases hbody : s.run body with
    | mk outcome u =>
      cases outcome with
      | ok e => rwa [run_orUnknown_of_ok hbody] at h
      | error fault =>
        cases fault with
        | malformed m culprit =>
          rw [run_orUnknown_of_malformed hbody] at h
          obtain ⟨_, _, _, unknown⟩ := run_bind_eq_ok.mp h
          cases (run_pure_eq_ok.mp unknown).1
        | stopped stop => rwa [run_orUnknown_of_error hbody (by simp)] at h
        | scope e => rwa [run_orUnknown_of_error hbody (by simp)] at h
  · exact run_orUnknown_of_ok

theorem run_scriptBlock_eq_compound (cfg : Config) (hsite : site.attributes.kind = .scriptBlock)
    (many : 2 ≤ children.length) {block : Statement} :
    s.run (expression cfg site children) = (.ok (.compound site.origin block), t) ↔
      (s.dispatching site).run (blockOf site children) = (.ok block, t) := by
  have handler : expressionOf? cfg site children site.attributes.kind =
      some (compound site (blockOf site children)) := by
    rw [hsite]
    exact expressionOf?_scriptBlock cfg site many
  rw [run_expression_of_some handler, run_orUnknown_eq_compound]
  constructor
  · intro h
    obtain ⟨lowered, u, inside, made⟩ := run_bind_eq_ok.mp h
    obtain ⟨same, rfl⟩ := run_pure_eq_ok.mp made
    cases same
    exact inside
  · intro h
    rw [compound, run_bind_of_ok h]
    rfl

section
variable (cfg : Config) (composed : AllComposed cfg known children)
    {block : Statement} {u : Session}
variable (hsite : site.attributes.kind = .scriptBlock) (many : 2 ≤ children.length)
variable (asStatement : s.run (Lower.block site children) = (.ok block, t))
include composed hsite many asStatement

/-- The statement has left out parameter blocks, the expression would not have. -/
theorem noParameters_of_same
    (asExpression : s.run (expression cfg site children) = (.ok (.compound site.origin block), u)) :
    ∀ t ∈ children, t.label.kind ≠ .paramBlock := by
  have all := length_of_run_blockOf composed
    ((run_scriptBlock_eq_compound cfg hsite many).mp asExpression)
  have kept := length_of_run_blockOf (composed.subset List.filter_sublist.subset) asStatement
  have noneLeftOut := List.length_filter_eq_length_iff.mp (kept.symm.trans all)
  exact fun t ht => of_decide_eq_true (noneLeftOut t ht)

theorem same_of_noParameters (noParameters : ∀ t ∈ children, t.label.kind ≠ .paramBlock) :
    ∃ u, s.run (expression cfg site children) = (.ok (.compound site.origin block), u) ∧
      u.collector = t.collector ∧ u.scopes.unnumbered = t.scopes.unnumbered := by
  have everything : children.filter (·.label.kind ≠ .paramBlock) = children :=
    List.filter_eq_self.mpr fun t ht => decide_eq_true (noParameters t ht)
  rw [Lower.block, everything] at asStatement
  -- The expression is dispatched first, which only the trace tells.
  have alike : Alike relocated (blockOf site children) (blockOf site children) :=
    (blockOf_composed composed).alike relocated_steps (relocated_scopes cfg) fun _ _ => rfl
  obtain ⟨outcome, collector, scopes⟩ := alike s (s.dispatching site) ⟨rfl, rfl⟩
  rw [asStatement] at outcome collector scopes
  have ended := outcome.eq_of_sure (by simp)
  exact ⟨((s.dispatching site).run (blockOf site children)).2,
    (run_scriptBlock_eq_compound cfg hsite many).mpr (Prod.ext ended rfl), collector, scopes⟩

end

end Lower

theorem Site.forall_kind_below (cfg : Config) (s : Site) (P : Kind → Prop) :
    (∀ t ∈ s.below cfg, P t.label.kind) ↔ ∀ child ∈ s.node.children, P child.label.kind := by
  have kind : ∀ c : Site, (c.node.readings cfg c.path).label.kind = c.node.label.kind := fun c => by
    rw [c.node_readings_eq, c.reading_eq]
    rfl
  rw [s.below_eq, List.forall_mem_map, ← s.map_node_children, List.forall_mem_map]
  simp only [kind]

open Lower in
/-- A script block of several children that becomes a block as a statement becomes the same block as
an expression, with the same collector and the same scopes up to their numbers, exactly if no
parameter block is among its children. -/
theorem scriptBlock_as_expression_iff (cfg : Config) {n : Node} (kind : n.label.kind = .scriptBlock)
    (many : 2 ≤ n.children.length) {s t : Session} {block : Statement}
    (h : s.run (lowerStatement cfg n) = (.ok block, t)) :
    (∃ u, s.run (lowerExpression cfg n) = (.ok (.compound (Site.root n).origin block), u) ∧
        u.collector = t.collector ∧ u.scopes.unnumbered = t.scopes.unnumbered) ↔
      ∀ child ∈ n.children, child.label.kind ≠ .paramBlock := by
  let site := Site.root n
  have hsite : site.attributes.kind = .scriptBlock := kind
  have composed := site.below_composed cfg
  have several : 2 ≤ (site.below cfg).length := (site.length_below cfg).symm ▸ many
  have isBlock : site.attributes.kind.isBlock = true := hsite ▸ rfl
  rw [lowerStatement_eq, statement_of_isBlock cfg site isBlock] at h
  have children : (∀ t ∈ site.below cfg, t.label.kind ≠ .paramBlock) ↔
      ∀ child ∈ n.children, child.label.kind ≠ .paramBlock :=
    site.forall_kind_below cfg (· ≠ .paramBlock)
  rw [lowerExpression_eq, ← children]
  constructor
  · rintro ⟨u, lowered, -⟩
    exact noParameters_of_same cfg composed hsite several h lowered
  · exact same_of_noParameters cfg composed hsite several h

/-- A parameter block in front of a constant. As a statement the block holds the constant alone, and
nothing is reported; as an expression it does not come out the same. -/
theorem scriptBlock_as_expression_of_paramBlock :
    let constant : Node := ⟨{ kind := .constantExpression, tag := "", code := some "1" }, []⟩
    let n := Node.bare .scriptBlock [.bare .paramBlock [], constant]
    let s := Session.start {}
    let one :=
      Statement.expression ⟨{}, some "1"⟩ (.literal ⟨{}, some "1"⟩ (.named "integer") "1" "1")
    ∃ t, s.run (lowerStatement {} n) = (.ok (.block {} [one]), t) ∧ t.collector.entries = #[] ∧
      ¬∃ u, s.run (lowerExpression {} n) = (.ok (.compound {} (.block {} [one])), u) ∧
        u.collector = t.collector ∧ u.scopes.unnumbered = t.scopes.unnumbered := by
  intro constant n s one
  refine ⟨(s.run (lowerStatement {} n)).2, rfl, rfl, fun same => ?_⟩
  have noParameters := (scriptBlock_as_expression_iff {} (n := n) rfl (by decide) rfl).mp same
  exact noParameters (Node.bare .paramBlock []) List.mem_cons_self rfl

end ScriptIR
