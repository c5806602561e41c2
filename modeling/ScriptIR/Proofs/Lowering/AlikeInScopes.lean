import ScriptIR.Proofs.Lowering.Alike
import ScriptIR.Proofs.Scope.Balance

/-!
# Two runs side by side in scopes of their own

A likeness of sessions with open scopes has to be kept by what lowering does to the scopes. Then
blocks, calls and definitions are lowered alike if their children are, and with them every node:
from what the children have in common, what the node has in common follows by its kind.
-/
namespace ScriptIR
namespace Lower
open Session

/-- The likeness is kept by entering and leaving scopes, by declaring, and by
looking up a callee. -/
structure KeptByScopes (cfg : Config) (L : Likeness) : Prop where
  resolve : ∀ {site other : Site}, L.site site other → ∀ callee : String,
    Alike L (resolve cfg site callee) (resolve cfg other callee)
  declareAll : ∀ {s u : Session} (ds : List Declaration), L.session s u →
    L.session (s.declareAll ds) (u.declareAll ds)
  opening : ∀ {s u : Session} (owner : Owner), L.session s u →
    L.session (s.opening owner) (u.opening owner)
  closing : ∀ {s u t v : Session} (owner : Owner), L.session s u → L.session t v →
    L.session (s.closing t owner) (u.closing v owner)

namespace KeptByScopes
variable {cfg : Config} {L : Likeness} (scopes : KeptByScopes cfg L) {s u t v : Session}
include scopes

theorem declare (d : Declaration) (h : L.session s u) : L.session (s.declare d) (u.declare d) :=
  scopes.declareAll [d] h

theorem openingFunction (header : Function) (h : L.session s u) :
    L.session (s.openingFunction header) (u.openingFunction header) :=
  scopes.declareAll _ (scopes.opening _ (scopes.declare _ h))

theorem closingFunction (header : Function) (h : L.session s u) (k : L.session t v) :
    L.session (s.closingFunction t header) (u.closingFunction v header) :=
  scopes.closing _ (scopes.declare _ h) k

theorem closingDefined (header whole : Function) (h : L.session s u) (k : L.session t v) :
    L.session ((s.closingFunction t header).redeclare (.function whole))
      ((u.closingFunction v header).redeclare (.function whole)) := by
  unfold Session.closingFunction
  rw [redeclare_closing_declare, redeclare_closing_declare]
  exact scopes.closing _ (scopes.declare _ h) k

end KeptByScopes

namespace Alike
variable {cfg : Config} {L : Likeness} (scopes : KeptByScopes cfg L)
variable {known known' : Site → Prop} {α : Type}
include scopes

theorem declared (header : Function) :
    Alike L (declare (.function header)) (declare (.function header)) :=
  fun _ _ related => ⟨.ok (), scopes.declare _ related⟩

/-- A scope is closed around its body however that ends. -/
theorem inBlock (code : Option String) {m l : Lower α} (hm : Composed cfg known m)
    (hl : Composed cfg known' l) (h : Alike L m l) :
    Alike L (inScope (.block code) m) (inScope (.block code) l) := by
  intro s u related
  obtain ⟨same, after⟩ := h _ _ (scopes.opening (.block code) related)
  rw [hm.run_inBlock rfl, hl.run_inBlock rfl]
  exact ⟨same, scopes.closing _ related after⟩

theorem defining (header : Function) {m l : Lower Statement} (hm : Composed cfg known m)
    (hl : Composed cfg known' l) (h : Alike L m l) :
    Alike L (defining header m) (defining header l) := by
  intro s u related
  obtain ⟨same, after⟩ := h _ _ (scopes.openingFunction header related)
  cases hbody : (s.openingFunction header).run m with
  | mk outcome t =>
    cases hother : (u.openingFunction header).run l with
    | mk outcome' v =>
      rw [hbody, hother] at same after
      have closed := scopes.closingFunction header related after
      cases same with
      | ok lowered =>
        rw [hm.run_defining_of_ok hbody, hl.run_defining_of_ok hother]
        exact ⟨.ok _, scopes.closingDefined header _ related after⟩
      | malformed tags hsite =>
        rw [hm.run_defining_of_error hbody, hl.run_defining_of_error hother]
        exact ⟨.malformed tags hsite, closed⟩
      | stopped hstop =>
        rw [hm.run_defining_of_error hbody, hl.run_defining_of_error hother]
        exact ⟨.stopped hstop, closed⟩
      | scope e =>
        rw [hm.run_defining_of_error hbody, hl.run_defining_of_error hother]
        exact ⟨.scope e, closed⟩

end Alike

/-- A composed action runs alike from sessions that are alike, if the nodes that it speaks of
are like themselves. -/
theorem Composed.alike {cfg : Config} {L : Likeness} (kept : KeptBySteps L)
    (scopes : KeptByScopes cfg L) {known : Site → Prop}
    (same : ∀ site, known site → L.site site site) {α : Type} {m : Lower α}
    (h : Composed cfg known m) : Alike L m m := by
  induction h with
  | pure a => exact .pure a
  | bind _ _ first next => exact first.bind next
  | dispatched hsite => exact kept.dispatched (same _ hsite)
  | report issue hsite => exact kept.report (same _ hsite) rfl
  | resolve callee hsite => exact scopes.resolve (same _ hsite) callee
  | malformed m hsite => exact .malformed rfl (same _ hsite)
  | orUnknown hsite _ ih => exact ih.orUnknown kept (same _ hsite)
  | inBlock code body ih => exact .inBlock scopes code body body ih
  | declared header => exact .declared scopes header
  | defining header body ih => exact .defining scopes header body body ih

/-! ### Nodes by kind -/

section
variable {L : Likeness} {cfg : Config} (kept : KeptBySteps L) (scopes : KeptByScopes cfg L)
variable {site other : Site} (hsite : L.site site other) {children others : List (Tree Reading)}
include kept scopes hsite

/-- A call of a named callee depends on its items by the slots that they fill. -/
theorem command_alike {callee callee' : Tree Reading} {items items' : List (Tree Reading)}
    (hcallee : L.site callee.label.site callee'.label.site)
    (h : List.Forall₂ (Slot.Alike L) (slots 0 items) (slots 0 items')) :
    Alike L (command cfg site (callee :: items)) (command cfg other (callee' :: items')) := by
  have call : ∀ name candidates, Alike L (do
      let arguments ← bindArguments cfg name candidates items
      pure (Expression.call site.origin name arguments candidates.head?)) (do
      let arguments ← bindArguments cfg name candidates items'
      pure (Expression.call site.origin name arguments candidates.head?)) := fun name candidates =>
    (bindArguments_alike kept cfg name candidates h).bind fun _ => .pure _
  simp only [command, L.kind hcallee, L.literalText hcallee, L.origin hsite]
  refine .checked (.malformed (L.malformation hcallee .calleeNotNamed) hcallee) fun _ =>
    (scopes.resolve hsite _).bind fun candidates => ?_
  rcases candidates with _ | ⟨first, _ | ⟨second, more⟩⟩
  · exact (kept.report hsite rfl).bind fun _ => call _ _
  · exact call _ _
  · exact (kept.report hsite rfl).bind fun _ => call _ _

section
variable {known known' : Site → Prop}
variable (hchildren : AllComposed cfg known children) (hothers : AllComposed cfg known' others)
variable (h : List.Forall₂ (TreesAlike L) children others)
include hchildren hothers h

omit kept in
theorem blockOf_alike : Alike L (blockOf site children) (blockOf other others) := by
  have mine : Composed cfg known (children.mapM (·.label.statement)) :=
    .mapM fun child hchild => (hchildren.label hchild).statement
  have theirs : Composed cfg known' (others.mapM (·.label.statement)) :=
    .mapM fun child hchild => (hothers.label hchild).statement
  have statements : Alike L (children.mapM (·.label.statement)) (others.mapM (·.label.statement)) :=
    .mapM (h.imp fun _ _ alike => alike.label.statement)
  unfold blockOf
  rw [L.code hsite, L.origin hsite]
  exact (Alike.inBlock scopes _ mine theirs statements).bind fun _ => .pure _

omit kept in
theorem block_alike : Alike L (block site children) (block other others) :=
  blockOf_alike scopes hsite (hchildren.subset List.filter_sublist.subset)
    (hothers.subset List.filter_sublist.subset) (filter_kind_alike (· ≠ .paramBlock) h)

omit kept in
theorem pipeline_alike : Alike L (pipeline site children) (pipeline other others) := by
  match children, others, hchildren, hothers, h with
  | [], [], _, _, _ => exact .malformed rfl hsite
  | [_], [_], _, _, .cons stage .nil => exact stage.label.expression
  | _ :: _ :: _, _ :: _ :: _, hchildren, hothers, h =>
    exact compound_alike hsite (block_alike scopes hsite hchildren hothers h)

omit kept in
theorem scriptBlock_alike : Alike L (scriptBlock site children) (scriptBlock other others) := by
  match children, others, hchildren, hothers, h with
  | [], [], _, _, _ => exact .malformed rfl hsite
  | [_], [_], _, _, .cons only .nil => exact compound_alike hsite only.label.statement
  | _ :: _ :: _, _ :: _ :: _, hchildren, hothers, h =>
    exact compound_alike hsite (blockOf_alike scopes hsite hchildren hothers h)

variable (hparameters : List.Forall₂ (ParametersAlike L cfg) site.parameters other.parameters)
include hparameters

omit kept in
theorem function_alike : Alike L (function cfg site children) (function cfg other others) := by
  have bodies := find?_kind_alike .scriptBlock h
  unfold function
  dsimp only
  rw [L.kind hsite, L.name hsite, L.origin hsite]
  refine .checked (.malformed (L.malformation hsite .notADefinition) hsite) fun _ => ?_
  cases nonEmpty? site.attributes.name with
  | none => exact .malformed rfl hsite
  | some name =>
    refine (parameters_alike hparameters).bind fun ps => ?_
    cases hmine : children.find? (·.label.kind = .scriptBlock) with
    | none =>
      cases htheirs : others.find? (·.label.kind = .scriptBlock) with
      | none => exact (Alike.declared scopes _).bind fun _ => .pure _
      | some body =>
        rw [hmine, htheirs] at bodies
        cases bodies
    | some body =>
      cases htheirs : others.find? (·.label.kind = .scriptBlock) with
      | none =>
        rw [hmine, htheirs] at bodies
        cases bodies
      | some body' =>
        rw [hmine, htheirs] at bodies
        cases bodies with
        | some alike =>
          exact .defining scopes _ (hchildren.label (List.mem_of_find?_eq_some hmine)).statement
            (hothers.label (List.mem_of_find?_eq_some htheirs)).statement alike.label.statement

theorem expressionOf?_alike (kind : Kind) :
    Option.Rel (Alike L) (expressionOf? cfg site children kind)
      (expressionOf? cfg other others kind) := by
  have operands := h.imp fun _ _ => TreesAlike.operand
  have leaves := h.imp fun _ _ => TreesAlike.leaves
  cases kind
  case command =>
    refine .some ?_
    cases h with
    | nil => exact .malformed rfl hsite
    | cons callee items =>
      exact command_alike kept scopes hsite callee.label.site (slots_alike 0 items)
  all_goals first
    | exact .none
    | apply Option.Rel.some
  all_goals first
    | exact wrapper_alike hsite kept operands
    | exact pipeline_alike scopes hsite hchildren hothers h
    | exact scriptBlock_alike scopes hsite hchildren hothers h
    | exact reference_alike hsite kept
    | exact compound_alike hsite (block_alike scopes hsite hchildren hothers h)
    | exact binary_alike hsite operands
    | exact unary_alike hsite operands
    | exact literal_alike hsite kept cfg
    | exact array_alike hsite kept leaves
    | exact cast_alike hsite kept operands (types_alike h)
    | exact memberAccess_alike hsite kept
    | skip
  unfold definition
  rw [L.origin hsite]
  exact (function_alike scopes hsite hchildren hothers h hparameters).bind fun _ => .pure _

end

omit scopes in
/-- A node is lowered as an expression alike if its kind is handled alike. -/
theorem expression_alike
    (h : Option.Rel (Alike L) (expressionOf? cfg site children site.attributes.kind)
      (expressionOf? cfg other others site.attributes.kind)) :
    Alike L (expression cfg site children) (expression cfg other others) := by
  refine (kept.dispatched hsite).bind fun _ => ?_
  rw [L.kind hsite, L.unknown hsite]
  generalize expressionOf? cfg site children site.attributes.kind = lowered at h ⊢
  generalize expressionOf? cfg other others site.attributes.kind = lowered' at h ⊢
  cases h with
  | none => exact (kept.report hsite (L.issue hsite .unsupportedKind)).bind fun _ => .pure _
  | some handled =>
    have recovered := handled.orUnknown kept hsite
    unfold orUnknown at recovered
    rwa [L.unknown hsite] at recovered

omit kept scopes in
/-- Where a node is neither a block nor a definition, its statement is its expression. -/
theorem statement_alike_of_expression (hblock : site.attributes.kind.isBlock = false)
    (hdefinition : site.attributes.kind ≠ .functionDefinition)
    (h : Alike L (expression cfg site children) (expression cfg other others)) :
    Alike L (statement cfg site children) (statement cfg other others) := by
  unfold statement
  rw [L.kind hsite, L.origin hsite, hblock, if_neg hdefinition, if_neg hdefinition]
  exact h.bind fun _ => .pure _

variable {known known' : Site → Prop}
variable (hchildren : AllComposed cfg known children) (hothers : AllComposed cfg known' others)
variable (h : List.Forall₂ (TreesAlike L) children others)
variable (hparameters : List.Forall₂ (ParametersAlike L cfg) site.parameters other.parameters)
include hchildren hothers h hparameters

theorem statement_alike : Alike L (statement cfg site children) (statement cfg other others) := by
  unfold statement
  rw [L.kind hsite, L.origin hsite]
  split
  · exact block_alike scopes hsite hchildren hothers h
  · split
    · exact (function_alike scopes hsite hchildren hothers h hparameters).bind fun _ => .pure _
    · have handled := expressionOf?_alike kept scopes hsite hchildren hothers h hparameters
        site.attributes.kind
      exact (expression_alike kept hsite handled).bind fun _ => .pure _

end

end Lower

/-! ### Trees -/

namespace Node
open Lower
variable {L : Likeness}

/-- A node is lowered alike if it is alike, as its children are, and these are lowered alike. -/
theorem readings_alike_of_children (kept : KeptBySteps L) {cfg : Config}
    (scopes : KeptByScopes cfg L)
    {attrs attrs' : Attributes} {children others : List Node} {p q : Path}
    (hsite : L.site ⟨p, ⟨attrs, children⟩⟩ ⟨q, ⟨attrs', others⟩⟩)
    (alike : List.Forall₂ (NodesAlike L) children others)
    (h : List.Forall₂ (TreesAlike L) (readingsOf cfg p 0 children) (readingsOf cfg q 0 others))
    (parameters : List.Forall₂ (ParametersAlike L cfg) (parametersOf p 0 children)
      (parametersOf q 0 others)) :
    TreesAlike L (readings cfg p ⟨attrs, children⟩) (readings cfg q ⟨attrs', others⟩) := by
  have mine := readingsOf_composed cfg p 0 children fun _ (_ : _) => trivial
  have theirs := readingsOf_composed cfg q 0 others fun _ (_ : _) => trivial
  have handled := expressionOf?_alike kept scopes hsite mine theirs h parameters attrs.kind
  rw [readings, readings]
  exact .of_children ⟨hsite, typeOfNode_alike_of_children hsite alike kept,
    expression_alike kept hsite handled,
    statement_alike kept scopes hsite mine theirs h parameters⟩ h

/-- Of trees that `R` relates the roots are alike wherever they stand, and `R`
relates the children. -/
structure Matches (L : Likeness) (R : Node → Node → Prop) : Prop where
  root : ∀ {n m : Node}, R n m → NodesAlike L n m
  children : ∀ {n m : Node}, R n m → List.Forall₂ R n.children m.children

variable {R : Node → Node → Prop}

mutual
theorem parameters_alike_of_matches (kept : KeptBySteps L) (cfg : Config) (related : Matches L R) :
    ∀ n m : Node, R n m → ∀ p q : Path,
      List.Forall₂ (ParametersAlike L cfg) (n.parameters p) (m.parameters q)
  | ⟨attrs, children⟩, ⟨attrs', others⟩, h, p, q => by
    have kind : attrs'.kind = attrs.kind := L.kind (related.root h p q)
    have below := related.children h
    rw [parameters, parameters, kind]
    split
    · exact .cons (parameter_alike_of_children (related.root h p q)
        (below.imp fun _ _ => related.root) kept cfg) .nil
    · split
      · exact parametersOf_alike_of_matches kept cfg related children others below p q 0
      · exact .nil

theorem parametersOf_alike_of_matches (kept : KeptBySteps L) (cfg : Config)
    (related : Matches L R) :
    ∀ children others : List Node, List.Forall₂ R children others → ∀ (p q : Path) (i : Nat),
      List.Forall₂ (ParametersAlike L cfg) (parametersOf p i children) (parametersOf q i others)
  | [], [], _, _, _, _ => by
    rw [parametersOf, parametersOf]
    exact .nil
  | child :: rest, other :: others, .cons first more, p, q, i => by
    rw [parametersOf, parametersOf]
    exact List.rel_append
        (parameters_alike_of_matches kept cfg related child other first (p ++ [i]) (q ++ [i]))
      (parametersOf_alike_of_matches kept cfg related rest others more p q (i + 1))
end

mutual
/-- Related trees are lowered alike, wherever they are. -/
theorem readings_alike_of_matches (kept : KeptBySteps L) {cfg : Config}
    (scopes : KeptByScopes cfg L)
    (related : Matches L R) : ∀ n m : Node, R n m → ∀ p q : Path,
      TreesAlike L (n.readings cfg p) (m.readings cfg q)
  | ⟨_, children⟩, ⟨_, others⟩, h, p, q =>
    have below := related.children h
    readings_alike_of_children kept scopes (related.root h p q)
      (below.imp fun _ _ => related.root)
      (readingsOf_alike_of_matches kept scopes related children others below p q 0)
      (parametersOf_alike_of_matches kept cfg related children others below p q 0)

theorem readingsOf_alike_of_matches (kept : KeptBySteps L) {cfg : Config}
    (scopes : KeptByScopes cfg L)
    (related : Matches L R) : ∀ children others : List Node, List.Forall₂ R children others →
      ∀ (p q : Path) (i : Nat),
      List.Forall₂ (TreesAlike L) (readingsOf cfg p i children) (readingsOf cfg q i others)
  | [], [], _, _, _, _ => by
    rw [readingsOf, readingsOf]
    exact .nil
  | child :: rest, other :: others, .cons first more, p, q, i => by
    rw [readingsOf, readingsOf]
    exact .cons
      (readings_alike_of_matches kept scopes related child other first (p ++ [i]) (q ++ [i]))
      (readingsOf_alike_of_matches kept scopes related rest others more p q (i + 1))
end

end Node

end ScriptIR
