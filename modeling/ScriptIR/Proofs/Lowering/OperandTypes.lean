import ScriptIR.Proofs.Lowering.Visited

/-!
# The types of operator trees

Operators nest, and wrappers stand between them. Below all of them are the operands, from left
to right. A binary operator has the first type that is known of its two sides, and each of these
has the first one known of its own operands: so an operator tree has the first type that is
known of all operands.
-/
namespace ScriptIR
open Session

namespace TypeExpr

theorem firstKnown_singleton (t : TypeExpr) : firstKnown [t] = t := by
  cases t <;> rfl

/-- What is the first one known of two lists is the first one known of their first ones. -/
theorem firstKnown_append (ts us : List TypeExpr) :
    firstKnown (ts ++ us) = firstKnown [firstKnown ts, firstKnown us] := by
  induction ts with
  | nil =>
    have skipped : firstKnown [firstKnown [], firstKnown us] = firstKnown [firstKnown us] := rfl
    rw [skipped, firstKnown_singleton, List.nil_append]
  | cons t ts ih =>
    cases t with
    | unknown => exact ih
    | named | array | generic => rfl

end TypeExpr

/-! ### Operands -/

/-- Whether a node is a binary operator or an assignment, and says which. -/
def Attributes.joins (a : Attributes) : Bool :=
  (a.kind = .binaryExpression || a.kind = .assignmentStatement) && (nonEmpty? a.operator).isSome

/-- Whether a node with so many children has the operands of its first child: if it passes on to
that, or is a unary operator with a known token. -/
def Attributes.leadsOn (a : Attributes) (children : Nat) : Bool :=
  a.kind.passesOn children ||
    (a.kind = .unaryExpression && (Lower.unaryOperators.lookup (a.unaryToken.getD "")).isSome)

/-- The operands of the node at `path`, from left to right: those of both children where it joins
two, those of its first child where it leads on to that, and otherwise the node itself. -/
def Node.operands (path : Path) : Node → List Site
  | ⟨attrs, []⟩ => [⟨path, ⟨attrs, []⟩⟩]
  | ⟨attrs, [only]⟩ =>
    if attrs.leadsOn 1 then Node.operands (path ++ [0]) only else [⟨path, ⟨attrs, [only]⟩⟩]
  | ⟨attrs, left :: right :: rest⟩ =>
    if attrs.joins && rest.isEmpty then
      Node.operands (path ++ [0]) left ++ Node.operands (path ++ [1]) right
    else if attrs.leadsOn (rest.length + 2) then Node.operands (path ++ [0]) left
    else [⟨path, ⟨attrs, left :: right :: rest⟩⟩]

def Site.operands (s : Site) : List Site :=
  s.node.operands s.path

/-- The operands of an expression, from left to right: those of both sides of a binary operator,
that of a unary one, and otherwise the expression itself. -/
def Expression.operands : Expression → List Expression
  | .binary _ _ lhs rhs _ => lhs.operands ++ rhs.operands
  | .unary _ _ _ operand => operand.operands
  | e => [e]

/-- The operands of the expression are what the given nodes became on the way from `s` to `t`, one
by one, and its type is the first one known of theirs. -/
structure Session.TypesBy (cfg : Config) (s t : Session) (nodes : List Site)
    (e : Expression) : Prop where
  visited : List.Forall₂ (fun p q => s.Visits cfg t p (.ok q)) nodes e.operands
  type : e.type = .firstKnown (e.operands.map Expression.type)

namespace Session.TypesBy
variable {cfg : Config} {s t u s' t' : Session} {nodes others : List Site} {e f g : Expression}

theorem mono (h : s.TypesBy cfg t nodes e) (before : s'.Leads s) (after : t.Leads t') :
    s'.TypesBy cfg t' nodes e :=
  ⟨h.visited.imp fun _ _ visit => visit.mono before after, h.type⟩

theorem of_same (h : s.TypesBy cfg t nodes f) (operands : e.operands = f.operands)
    (type : e.type = f.type) : s.TypesBy cfg t nodes e := by
  refine ⟨?_, ?_⟩
  · rw [operands]
    exact h.visited
  · rw [type, operands]
    exact h.type

theorem single {site : Site} (visit : s.Visits cfg t site (.ok e)) (alone : e.operands = [e]) :
    s.TypesBy cfg t [site] e := by
  refine ⟨?_, ?_⟩
  · rw [alone]
    exact .cons visit .nil
  · rw [alone]
    exact (TypeExpr.firstKnown_singleton e.type).symm

/-- The first type known of two sides is the first one known of the operands of both. -/
theorem binary (h : s.TypesBy cfg t nodes f) (k : s.TypesBy cfg t others g) (origin : Origin)
    (operator : String) : s.TypesBy cfg t (nodes ++ others)
      (.binary origin operator f g (.firstKnown [f.type, g.type])) where
  visited := List.rel_append h.visited k.visited
  type := by
    rw [Expression.operands, List.map_append, TypeExpr.firstKnown_append, ← h.type, ← k.type]
    rfl

end Session.TypesBy

/-! ### Runs of operators -/

namespace Lower
variable {cfg : Config} {site : Site} {s t : Session} {e : Expression}

theorem binary_of_operator {operator : String}
    (h : nonEmpty? site.attributes.operator = some operator)
    (left right : Tree Reading) : binary site [left, right] = (do
      let lhs ← left.label.expression
      let rhs ← right.label.expression
      return .binary site.origin operator lhs rhs (.firstKnown [lhs.type, rhs.type])) := by
  unfold binary
  rw [h]

/-- Where a node joins two children, these are lowered one after the other, and
are its two sides. -/
theorem run_of_joins (site : Site) (joins : site.attributes.joins = true)
    {left right : Tree Reading}
    (hl : Sure left.label.expression) (hr : Sure right.label.expression)
    (run : s.run (expression cfg site [left, right]) = (.ok e, t)) : ∃ lhs rhs u,
      (s.dispatching site).run left.label.expression = (.ok lhs, u) ∧
      u.run right.label.expression = (.ok rhs, t) ∧
      ∃ operator, e = .binary site.origin operator lhs rhs (.firstKnown [lhs.type, rhs.type]) := by
  simp only [Attributes.joins, Bool.and_eq_true, Bool.or_eq_true, decide_eq_true_eq] at joins
  obtain ⟨kind, named⟩ := joins
  obtain ⟨operator, named⟩ := Option.isSome_iff_exists.mp named
  have handler : expressionOf? cfg site [left, right] site.attributes.kind =
      some (binary site [left, right]) := by
    rcases kind with kind | kind <;> rw [kind] <;> rfl
  have body := binary_of_operator named left right
  have sure : Sure (binary site [left, right]) := by
    rw [body]
    exact hl.bind fun _ => hr.bind fun _ => .pure _
  rw [run_expression_of_sure handler sure, body] at run
  obtain ⟨lhs, u, first, run⟩ := run_bind_eq_ok.mp run
  obtain ⟨rhs, v, second, run⟩ := run_bind_eq_ok.mp run
  obtain ⟨rfl, rfl⟩ := run_pure_eq_ok.mp run
  exact ⟨lhs, rhs, u, first, second, operator, rfl⟩

/-- What a wrapper ends with is what its first child ends with, after a report
of further children. -/
theorem run_of_wrapper {first : Tree Reading} {rest : List (Tree Reading)}
    (run : s.run (wrapper site (first :: rest)) = (.ok e, t)) :
    ∃ u, s.Leads u ∧ u.run first.label.expression = (.ok e, t) := by
  unfold wrapper at run
  cases rest with
  | nil => exact ⟨s, .refl s, run⟩
  | cons second others =>
    obtain ⟨⟨⟩, u, reported, run⟩ := run_bind_eq_ok.mp run
    rw [eq_reported_of_run reported] at run
    exact ⟨_, (leads_steps fun _ => True).report s site _ trivial, run⟩

/-- Where a node leads on to its first child, that is lowered last, and gives it
operands and type. -/
theorem run_of_leadsOn (site : Site) {first : Tree Reading} {rest : List (Tree Reading)}
    (count : rest.length + 1 = site.node.children.length)
    (leads : site.attributes.leadsOn (rest.length + 1) = true) (sure : Sure first.label.expression)
    (run : s.run (expression cfg site (first :: rest)) = (.ok e, t)) : ∃ f u,
      s.Leads u ∧ u.run first.label.expression = (.ok f, t) ∧
      e.operands = f.operands ∧ e.type = f.type := by
  simp only [Attributes.leadsOn, Bool.and_eq_true, Bool.or_eq_true, decide_eq_true_eq] at leads
  rcases leads with passes | ⟨kind, known⟩
  · rw [count] at passes
    obtain ⟨lowered, handler, passed⟩ := expressionOf?_of_passesOn cfg count passes
    rcases passed with rfl | rfl
    · rw [run_expression_of_sure handler sure] at run
      exact ⟨e, _, s.leads_dispatching site, run, rfl, rfl⟩
    · have passing : Sure (wrapper site (first :: rest)) := .checked (.report site _) fun _ => sure
      rw [run_expression_of_sure handler passing] at run
      obtain ⟨u, leads, inner⟩ := run_of_wrapper run
      exact ⟨e, u, (s.leads_dispatching site).trans leads, inner, rfl, rfl⟩
  · obtain ⟨⟨operator, isPostfix⟩, known⟩ := Option.isSome_iff_exists.mp known
    rw [run_expression_of_unary cfg site kind first rest known sure] at run
    obtain ⟨f, u, inner, run⟩ := run_bind_eq_ok.mp run
    obtain ⟨rfl, rfl⟩ := run_pure_eq_ok.mp run
    exact ⟨f, _, s.leads_dispatching site, inner, rfl, rfl⟩

/-! ### Nodes that are operands -/

/-- The action ends with expressions that are no operators. -/
def Stays (m : Lower Expression) : Prop :=
  Returns (fun e => e.operands = [e]) m

section
variable {children : List (Tree Reading)}

theorem reference_stays : Stays (reference site) :=
  Returns.after fun _ => .pure rfl

theorem compound_stays (statement : Lower Statement) : Stays (compound site statement) :=
  Returns.after fun _ => .pure rfl

theorem definition_stays : Stays (definition cfg site children) :=
  Returns.after fun _ => .pure rfl

theorem array_stays : Stays (array site children) :=
  Returns.after fun _ => .after fun _ => .pure rfl

theorem memberAccess_stays : Stays (memberAccess site) :=
  Returns.after fun _ => .pure rfl

theorem scriptBlock_stays : Stays (scriptBlock site children) := by
  unfold scriptBlock
  split
  · exact .malformed _ _
  · exact .after fun _ => .pure rfl
  · exact .after fun _ => .pure rfl

theorem command_stays : Stays (command cfg site children) := by
  unfold command
  split
  · exact .malformed _ _
  · refine Returns.checked fun _ => .after fun candidates => ?_
    split
    · exact .after fun _ => .after fun _ => .pure rfl
    · exact .after fun _ => .pure rfl
    · exact .after fun _ => .after fun _ => .pure rfl

theorem literal_stays : Stays (literal cfg site) := by
  unfold literal
  dsimp only
  split
  · exact .pure rfl
  · exact .after fun _ => .pure rfl

theorem cast_stays : Stays (cast site children) := by
  unfold cast
  split
  · dsimp only
    split
    · exact .after fun _ => .after fun _ => .pure rfl
    · exact .after fun _ => .after fun _ => .pure rfl
  · exact .malformed _ _

section
variable (leads : 0 < children.length → site.attributes.leadsOn children.length = false)
include leads

theorem wrapper_stays (kind : site.attributes.kind.isWrapper = true) :
    Stays (wrapper site children) := by
  cases children with
  | nil => exact .malformed _ _
  | cons first rest =>
    have stays := leads (by simp)
    cases rest <;> simp [Attributes.leadsOn, Kind.passesOn, Kind.isTransparent, kind] at stays

theorem pipeline_stays (kind : site.attributes.kind = .pipeline) :
    Stays (pipeline site children) := by
  unfold pipeline
  split
  · exact .malformed _ _
  · have stays := leads (by simp)
    rw [Attributes.leadsOn, kind] at stays
    cases stays
  · exact .after fun _ => .pure rfl

theorem unary_stays (kind : site.attributes.kind = .unaryExpression) :
    Stays (unary site children) := by
  unfold unary
  dsimp only
  split
  next known =>
    cases children with
    | nil => exact .malformed _ _
    | cons first rest =>
      have stays := leads (by simp)
      simp [Attributes.leadsOn, kind, known] at stays
  · exact .malformed _ _

end

theorem binary_stays (joins : site.attributes.joins = true → children.length ≠ 2)
    (kind : site.attributes.kind = .binaryExpression ∨
      site.attributes.kind = .assignmentStatement) :
    Stays (binary site children) := by
  unfold binary
  split
  next operator named =>
    have joins := joins (by rcases kind with kind | kind <;> simp [Attributes.joins, kind, named])
    split
    · exact absurd rfl joins
    · exact .malformed _ _
  · exact .malformed _ _

variable (joins : site.attributes.joins = true → children.length ≠ 2)
variable (leads : 0 < children.length → site.attributes.leadsOn children.length = false)
include joins leads

/-- Where a node neither joins two children nor leads on to the first, it becomes no operator. -/
theorem expressionOf?_stays {lowered : Lower Expression}
    (handler : expressionOf? cfg site children site.attributes.kind = some lowered) :
    Stays lowered := by
  cases kind : site.attributes.kind
  all_goals rw [kind] at handler
  all_goals cases handler
  all_goals with_reducible first
    | exact wrapper_stays leads (by simp [kind, Kind.isWrapper])
    | exact pipeline_stays leads kind
    | exact scriptBlock_stays
    | exact command_stays
    | exact binary_stays joins (.inl kind)
    | exact binary_stays joins (.inr kind)
    | exact unary_stays leads kind
    | exact literal_stays
    | exact cast_stays
    | exact reference_stays
    | exact compound_stays _
    | exact definition_stays
    | exact array_stays
    | exact memberAccess_stays

theorem expression_stays : Stays (expression cfg site children) := by
  refine Returns.after fun _ => ?_
  cases handler : expressionOf? cfg site children site.attributes.kind with
  | none => exact .after fun _ => .pure rfl
  | some lowered => exact (expressionOf?_stays joins leads handler).orUnknown rfl

end

end Lower

/-! ### Trees -/

namespace Site
variable (cfg : Config)

/-- Wherever the node is lowered, its type is the first one known of what its operands become. -/
def TypedByOperands (site : Site) : Prop :=
  ∀ (s t : Session) (e : Expression), s.run (site.reading cfg).expression = (.ok e, t) →
    s.TypesBy cfg t site.operands e

variable {cfg} {path : Path} {attrs : Attributes} {s t : Session} {e : Expression}

theorem typesBy_of_leadsOn {first : Node} {rest : List Node}
    (leads : attrs.leadsOn (rest.length + 1) = true)
    (typed : TypedByOperands cfg ⟨path ++ [0], first⟩)
    (run : s.run (reading cfg ⟨path, ⟨attrs, first :: rest⟩⟩).expression = (.ok e, t)) :
    s.TypesBy cfg t (first.operands (path ++ [0])) e := by
  have count : (Node.readingsOf cfg path 1 rest).length = rest.length := Node.length_readingsOf ..
  have sure := Node.readings_sure cfg first (path ++ [0])
  rw [reading_eq] at run
  rw [← count] at leads
  obtain ⟨f, u, before, inner, operands, type⟩ :=
    Lower.run_of_leadsOn ⟨path, ⟨attrs, first :: rest⟩⟩ (by rw [count]; rfl) leads sure run
  exact ((typed u t f inner).mono before (.refl t)).of_same operands type

theorem typesBy_of_joins {left right : Node} (joins : attrs.joins = true)
    (hl : TypedByOperands cfg ⟨path ++ [0], left⟩) (hr : TypedByOperands cfg ⟨path ++ [1], right⟩)
    (run : s.run (reading cfg ⟨path, ⟨attrs, [left, right]⟩⟩).expression = (.ok e, t)) :
    s.TypesBy cfg t (left.operands (path ++ [0]) ++ right.operands (path ++ [1])) e := by
  let site : Site := ⟨path, ⟨attrs, [left, right]⟩⟩
  have starts : s.Leads (s.dispatching site) := s.leads_dispatching site
  rw [reading_eq] at run
  obtain ⟨f, g, u, first, second, operator, rfl⟩ := Lower.run_of_joins site joins
    (Node.readings_sure cfg left (path ++ [0])) (Node.readings_sure cfg right (path ++ [1])) run
  have between : (s.dispatching site).Leads u := leads_of_run ⟨path ++ [0], left⟩ first
  have later : u.Leads t := leads_of_run ⟨path ++ [1], right⟩ second
  have lhs := (hl _ u f first).mono starts later
  have rhs := (hr u t g second).mono (starts.trans between) (.refl t)
  exact lhs.binary rhs _ operator

/-- A node that neither joins two children nor leads on to the first is its own operand. -/
theorem typesBy_of_stays {site : Site}
    (joins : site.attributes.joins = true → site.node.children.length ≠ 2)
    (leads : 0 < site.node.children.length →
      site.attributes.leadsOn site.node.children.length = false)
    (run : s.run (site.reading cfg).expression = (.ok e, t)) : s.TypesBy cfg t [site] e := by
  have stays : Lower.Stays (site.reading cfg).expression := by
    rw [← site.length_below cfg] at joins leads
    rw [reading_eq]
    exact Lower.expression_stays joins leads
  exact .single (.of_run run) (stays s t e run)

/-- By induction on the tree: the cases are those of `Node.operands`. -/
theorem typedByOperands (cfg : Config) (site : Site) : site.TypedByOperands cfg := by
  induction site using Site.induct with
  | h site ih =>
    intro s t e run
    obtain ⟨path, ⟨attrs, children⟩⟩ := site
    unfold Site.operands
    match children with
    | [] => exact typesBy_of_stays (by simp) (by simp) run
    | [only] =>
      have inner := ih ⟨path ++ [0], only⟩ (by simp [Node.sitesOf, Node.site_mem_sites])
      rw [Node.operands]
      split
      next leads => exact typesBy_of_leadsOn leads inner run
      next stays => exact typesBy_of_stays (by simp) (fun _ => Bool.eq_false_iff.mpr stays) run
    | left :: right :: rest =>
      have first := ih ⟨path ++ [0], left⟩ (by simp [Node.sitesOf, Node.site_mem_sites])
      have second := ih ⟨path ++ [1], right⟩ (by simp [Node.sitesOf, Node.site_mem_sites])
      rw [Node.operands]
      split
      next joins =>
        rw [Bool.and_eq_true, List.isEmpty_iff] at joins
        obtain ⟨joins, rfl⟩ := joins
        exact typesBy_of_joins joins first second run
      next apart =>
        split
        next leads => exact typesBy_of_leadsOn leads first run
        next stays =>
          have several : attrs.joins = true → (left :: right :: rest).length ≠ 2 := by
            intro joins two
            have alone : rest = [] := by simpa using two
            exact apart (by simp [joins, alone])
          exact typesBy_of_stays several (fun _ => Bool.eq_false_iff.mpr stays) run

theorem TypedByOperands.of_visits {site : Site} (h : site.TypedByOperands cfg)
    (visits : s.Visits cfg t site (.ok e)) : s.TypesBy cfg t site.operands e := by
  obtain ⟨u, v, passes⟩ := visits
  exact (h u v e passes.run).mono passes.before passes.after

end Site

/-- In every run, the operands of what a node becomes are, from left to right, what the operands of
that node have become in the run, and its type is the first one known of theirs, or the unknown type
if none is known. So it is with every expression within what a node or the whole tree becomes, which
a node of the tree has become. From a lenient session, and with files that can be shown, lowering a
tree as an expression gives one. -/
theorem operators_take_first_known_type (entry : EntryPoint) (cfg : Config)
    (n : Node) {s t : Session}
    {outcome : Except Fault Part} (run : s.run (entry.lower cfg n) = (outcome, t)) :
    (∀ site ∈ n.sites [], ∀ e, s.Visits cfg t site (.ok e) →
      s.TypesBy cfg t site.operands e ∧
        ∀ f, (Part.expression e).Within (.expression f) →
          ∃ p ∈ site.within, s.Visits cfg t p (.ok f) ∧ s.TypesBy cfg t p.operands f) ∧
      (∀ part, outcome = .ok part → ∀ f, part.Within (.expression f) →
        ∃ p ∈ n.sites [], s.Visits cfg t p (.ok f) ∧ s.TypesBy cfg t p.operands f) ∧
      (entry = .expression → s.Lenient → n.FilesShown →
        ∃ e, outcome = .ok (.expression e) ∧ s.TypesBy cfg t (Site.root n).operands e) := by
  have typed : ∀ {p : Site} {f : Expression}, s.Visits cfg t p (.ok f) →
      s.Visits cfg t p (.ok f) ∧ s.TypesBy cfg t p.operands f := fun {p} _ visits =>
    ⟨visits, (p.typedByOperands cfg).of_visits visits⟩
  refine ⟨fun site hsite e visits => ⟨(typed visits).2, fun f within => ?_⟩,
    fun part ok f within => ?_, fun isExpression lenient files => ?_⟩
  · obtain ⟨p, hp, inside⟩ := (site.traced cfg).of_visits visits _ within f rfl
    exact ⟨p, hp, typed inside⟩
  · obtain ⟨p, hp, inside⟩ := (entry.lower_visited cfg n run).2 part ok _ within f rfl
    exact ⟨p, hp, typed inside⟩
  · have returns : ∃ e u, s.run (lowerExpression cfg n) = (.ok e, u) :=
      (Site.root n).expression_returns cfg files lenient
    obtain ⟨e, u, lowered⟩ := returns
    rw [isExpression, EntryPoint.lower, run_bind_of_ok lowered] at run
    cases run
    have visits : s.Visits cfg t (.root n) (.ok e) := .of_run lowered
    exact ⟨e, rfl, (typed visits).2⟩

/-- The operands of an assignment are its target and those in parentheses on its other side. The
target has no known type, and the others have different ones: the type is that of the text, not of
the number behind it. -/
theorem operators_take_first_known_type_nested :
    let target : Node := ⟨{ kind := .variableExpression, tag := "Variable", code := some "$a" }, []⟩
    let text : Node :=
      ⟨{ kind := .stringConstantExpression, tag := "String", code := some "x" }, []⟩
    let one : Node := ⟨{ kind := .constantExpression, tag := "Constant", code := some "1" }, []⟩
    let sum : Node :=
      ⟨{ kind := .binaryExpression, tag := "Binary", operator := some "+" }, [text, one]⟩
    let paren : Node := ⟨{ kind := .parenExpression, tag := "Paren" }, [sum]⟩
    let n : Node := ⟨{ kind := .assignmentStatement, tag := "Assignment", operator := some "=" },
      [target, paren]⟩
    ∃ e t, (Session.start {}).run (EntryPoint.expression.lower {} n) = (.ok (.expression e), t) ∧
      (Session.start {}).TypesBy {} t [⟨[0], target⟩, ⟨[1, 0, 0], text⟩, ⟨[1, 0, 1], one⟩] e ∧
      e.type = .named "string" := by
  intro target text one sum paren n
  have lenient : (Session.start {}).Lenient := rfl
  have files : n.FilesShown := by decide
  refine ⟨_, _, rfl, ?_, rfl⟩
  obtain ⟨e, same, typed⟩ :=
    (operators_take_first_known_type .expression {} n rfl).2.2 rfl lenient files
  cases same
  exact typed

end ScriptIR
