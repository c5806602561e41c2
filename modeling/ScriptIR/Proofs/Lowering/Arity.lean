import ScriptIR.Proofs.Lowering.Visited

/-!
# Wrong numbers of children

Wrappers, operators and conversions ask for a fixed number of children. A node with another number
is given up on as malformed, or it is reported and its first child is lowered: either way an error
about it is recorded. Only unary operators let one case pass. If their token is known they take the
first child for their operand, and say nothing of those behind it.
-/
namespace ScriptIR
open Session

/-- The number of children that nodes of a kind ask for, if it is fixed. -/
def Kind.arity? : Kind → Option Nat
  | .commandExpression | .parenExpression | .statementBlock | .scriptBlockExpression
  | .unaryExpression => some 1
  | .assignmentStatement | .binaryExpression | .convertExpression => some 2
  | _ => none

namespace Site

/-- Unary operators with a known token and more children than their operand. -/
structure DropsOperands (s : Site) : Prop where
  kind : s.attributes.kind = .unaryExpression
  known : (Lower.unaryOperators.lookup (s.attributes.unaryToken.getD "")).isSome = true
  many : 2 ≤ s.node.children.length

/-- The node with its first child only. -/
def firstOnly (s : Site) : Site :=
  ⟨s.path, ⟨s.attributes, s.node.children.take 1⟩⟩

end Site

/-- On the way from `s` to `t` the node was reported as malformed, and an error
about it was added. -/
def Session.Complains (s t : Session) (site : Site) : Prop :=
  ∃ m line added, s.Saw t (.reported (some site.path) (.malformed m) line) ∧
    t.entries = s.entries ++ added ∧ (Issue.malformed m).entry site.attributes ∈ added

namespace Session.Recorded
variable {s t : Session} {reports : List (Site × Issue)} (h : s.Recorded t reports)
include h

theorem complains {site : Site} {m : Malformation} {line : Option LogLine}
    (alone : ∀ r ∈ reports, r.1.path = site.path → r.1 = site)
    (saw : s.Saw t (.reported (some site.path) (.malformed m) line)) : s.Complains t site := by
  obtain ⟨p, hp, path⟩ := h.exists_of_saw saw
  obtain rfl : p = site := alone _ hp path
  refine ⟨m, line, _, saw, h.entries, List.mem_map.mpr ⟨_, List.mem_filter.mpr ⟨hp, ?_⟩, rfl⟩⟩
  simp [Issue.isKept, Issue.severity]

end Session.Recorded

namespace Lower

/-- However the action ends, the node was reported as malformed. -/
def Reports {α : Type} (site : Site) (m : Lower α) : Prop :=
  ∀ s : Session, ∃ malformation line,
    s.Saw (s.run m).2 (.reported (some site.path) (.malformed malformation) line)

/-- The action reports the node as malformed or gives up on it. -/
def Rejects {α : Type} (site : Site) (m : Lower α) : Prop :=
  Reports site m ∨ ∃ malformation, m = malformed malformation site

namespace Reports
variable {α β : Type} {cfg : Config} {site : Site}

theorem report (m : Malformation) : Reports site (report (some site) (.malformed m)) := by
  intro s
  rw [session_run_report]
  exact ⟨m, _, (Saw.push_iff rfl).mpr rfl⟩

theorem bind {m : Lower α} {f : α → Lower β} (h : Reports site m)
    (rest : ∀ a, Composed cfg (fun _ => True) (f a)) : Reports site (m >>= f) := by
  intro s
  obtain ⟨malformation, line, saw⟩ := h s
  refine ⟨malformation, line, ?_⟩
  cases hm : s.run m with
  | mk outcome t =>
    rw [hm] at saw
    cases outcome with
    | ok a =>
      rw [run_bind_of_ok hm]
      exact saw.mono (.refl s) ((rest a).leads t)
    | error e =>
      rw [run_bind_of_error hm]
      exact saw

theorem orUnknown {other : Site} {body : Lower Expression} (h : Reports site body) :
    Reports site (orUnknown other body) := by
  intro s
  refine run_orUnknown_of (P := fun ended => ∃ malformation line,
    s.Saw ended.2 (.reported (some site.path) (.malformed malformation) line)) (h s)
    fun m culprit t hbody => ?_
  obtain ⟨malformation, line, saw⟩ := h s
  have recovery : Composed {} (fun _ => True) (do
      Lower.report (some culprit) (.malformed m)
      return other.unknown) := .bind (.report _ trivial) fun _ => .pure _
  rw [hbody] at saw
  exact ⟨malformation, line, saw.mono (.refl s) (recovery.leads t)⟩

end Reports

theorem Rejects.orUnknown {site : Site} {body : Lower Expression} (h : Rejects site body) :
    Reports site (orUnknown site body) := by
  obtain reports | ⟨m, rfl⟩ := h
  · exact reports.orUnknown
  · intro s
    have gives_up : s.run (malformed m site : Lower Expression) = (.error (.malformed m site), s) :=
      rfl
    have recovery : Reports site (do
        Lower.report (some site) (.malformed m)
        return site.unknown) :=
      (Reports.report m).bind fun _ => (.pure site.unknown : Composed {} _ _)
    rw [run_orUnknown_of_malformed gives_up]
    exact recovery s

section
variable {cfg : Config} {site : Site} {children : List (Tree Reading)}

theorem wrapper_rejects (composed : AllComposed cfg (fun _ => True) children)
    (wrong : children.length ≠ 1) : Rejects site (wrapper site children) := by
  match children with
  | [] => exact .inr ⟨_, rfl⟩
  | [_] => exact absurd rfl wrong
  | first :: second :: rest =>
    have lowered := (composed.label (t := first) List.mem_cons_self).expression
    exact .inl ((Reports.report _).bind fun _ => lowered)

theorem binary_rejects (wrong : children.length ≠ 2) : Rejects site (binary site children) := by
  unfold binary
  split
  · split
    · exact absurd rfl wrong
    · exact .inr ⟨_, rfl⟩
  · exact .inr ⟨_, rfl⟩

theorem unary_rejects (wrong : children.length ≠ 1)
    (spare : (unaryOperators.lookup (site.attributes.unaryToken.getD "")).isSome = true →
      ¬2 ≤ children.length) : Rejects site (unary site children) := by
  unfold unary
  dsimp only
  split
  next known =>
    have few : children.length < 2 := Nat.not_le.mp (spare (by rw [known]; rfl))
    have none : children = [] := List.length_eq_zero_iff.mp (by omega)
    rw [none]
    exact .inr ⟨_, rfl⟩
  · exact .inr ⟨_, rfl⟩

theorem cast_rejects (wrong : children.length ≠ 2) : Rejects site (cast site children) := by
  unfold cast
  split
  · exact absurd rfl wrong
  · exact .inr ⟨_, rfl⟩

/-- A node with a wrong number of children is reported or given up on, unless it is a unary operator
that drops operands. -/
theorem expressionOf?_rejects (cfg : Config) (composed : AllComposed cfg (fun _ => True) children)
    (count : children.length = site.node.children.length) {k : Nat}
    (arity : site.attributes.kind.arity? = some k) (wrong : site.node.children.length ≠ k)
    (spare : site.DropsOperands → False) : ∃ lowered,
      expressionOf? cfg site children site.attributes.kind = some lowered ∧
      Rejects site lowered := by
  rw [← count] at wrong
  cases hkind : site.attributes.kind
  all_goals rw [hkind] at arity
  all_goals cases arity
  all_goals with_reducible first
    | exact ⟨_, rfl, wrapper_rejects composed wrong⟩
    | exact ⟨_, rfl, binary_rejects wrong⟩
    | exact ⟨_, rfl, cast_rejects wrong⟩
    | exact ⟨_, rfl, unary_rejects wrong fun known many => spare ⟨hkind, known, count ▸ many⟩⟩

end

end Lower

namespace Site
variable (cfg : Config) {site : Site}

/-- A node with a wrong number of children is reported wherever it is lowered as an expression,
unless it is a unary operator that drops operands. -/
theorem expression_reports {k : Nat} (arity : site.attributes.kind.arity? = some k)
    (wrong : site.node.children.length ≠ k) (spare : ¬site.DropsOperands) :
    Lower.Reports site (site.reading cfg).expression := by
  have composed : Lower.AllComposed cfg (fun _ => True) (site.below cfg) :=
    Node.readingsOf_composed cfg _ _ _ fun _ _ => trivial
  obtain ⟨lowered, handler, rejects⟩ :=
    Lower.expressionOf?_rejects cfg composed (site.length_below cfg) arity wrong spare
  intro s
  obtain ⟨m, line, saw⟩ := rejects.orUnknown (s.dispatching site)
  rw [site.reading_eq]
  refine ⟨m, line, ?_⟩
  rw [Lower.run_expression_of_some handler]
  exact saw.mono (s.leads_dispatching site) (.refl _)

/-- A unary operator that drops operands is lowered as if it did not have them: once it is
dispatched, the run speaks of nodes within its first child only. -/
theorem run_of_dropsOperands (drops : site.DropsOperands) (s : Session) :
    ∃ (first : Site) (rest : Lower Expression), first.path = site.path ++ [0] ∧
      Lower.Composed cfg (· ∈ first.within) rest ∧
      s.run (site.reading cfg).expression = (s.dispatching site).run rest ∧
      s.run (site.firstOnly.reading cfg).expression = (s.dispatching site).run rest := by
  obtain ⟨⟨operator, isPostfix⟩, known⟩ := Option.isSome_iff_exists.mp drops.known
  have kind := drops.kind
  obtain ⟨path, ⟨attrs, children⟩⟩ := site
  match children, drops.many with
  | child :: second :: others, _ =>
    let first : Site := ⟨path ++ [0], child⟩
    have sure := Node.readings_sure cfg child first.path
    have lowered := (first.reading_composed cfg).expression
    let operand := Node.readings cfg first.path child
    have all := Lower.run_expression_of_unary cfg ⟨path, ⟨attrs, child :: second :: others⟩⟩ kind
      operand (Node.readingsOf cfg path 1 (second :: others)) known sure s
    have only := Lower.run_expression_of_unary cfg ⟨path, ⟨attrs, [child]⟩⟩ kind
        operand [] known sure s
    exact ⟨first, _, rfl, lowered.bind fun _ => .pure _, all, only⟩

theorem not_complains (drops : site.DropsOperands) (s : Session) :
    ¬s.Complains (s.run (site.reading cfg).expression).2 site := by
  obtain ⟨first, rest, place, composed, run, -⟩ := run_of_dropsOperands cfg drops s
  obtain ⟨reports, recorded, about⟩ := composed.recorded (s.dispatching site)
  rw [run]
  rintro ⟨m, line, -, saw, -⟩
  rcases saw.split (s.leads_dispatching site) (composed.leads _) with early | late
  · cases (Saw.push_iff rfl).mp early
  · -- What is reported later is about a node within the first child, and so stands further down.
    obtain ⟨p, hp, path⟩ := recorded.exists_of_saw late
    have below := (Node.prefix_of_mem_sites first.path first.node p (about _ hp)).length_le
    rw [path, place, List.length_append, List.length_singleton] at below
    omega

end Site

/-- Wherever a tree is lowered, and however that ends, a dispatched node that has not as many
children as its kind asks for is reported as malformed, and an error about it is recorded: always,
but for a unary operator with a known token and more than one child. While that is lowered no error
about it is recorded, and it becomes what it would become without the children behind the first. -/
theorem wrong_arity_is_reported (entry : EntryPoint) (cfg : Config) (n : Node) {s t : Session}
    {outcome : Except Fault Part} (run : s.run (entry.lower cfg n) = (outcome, t)) {site : Site}
    (hsite : site ∈ n.sites []) {k : Nat} (arity : site.attributes.kind.arity? = some k)
    (wrong : site.node.children.length ≠ k)
    (dispatched : s.Saw t (.dispatched site.path site.attributes.tag)) :
    (¬site.DropsOperands → s.Complains t site) ∧
      ∃ lowered u v, s.Passes cfg t site u v lowered ∧
        (u.Complains v site ↔ ¬site.DropsOperands) ∧
        (site.DropsOperands → u.run (site.firstOnly.reading cfg).expression = (lowered, v)) := by
  obtain ⟨p, hp, mark, lowered, u, v, passes⟩ := (entry.lower_visited cfg n run).1 _ _ dispatched
  -- The event says where a node stands, and no other node of the tree stands there.
  obtain rfl : p = site := Node.eq_of_mem_sites hp hsite (congrArg Prod.fst mark)
  have alone : ∀ q ∈ n.sites [], q.path = p.path → q = p := fun q hq same =>
    Node.eq_of_mem_sites hq hp same
  have ended : v = (u.run (p.reading cfg).expression).2 := by rw [passes.run]
  have seen : ¬p.DropsOperands →
      ∃ m line, u.Saw v (.reported (some p.path) (.malformed m) line) := by
    intro spare
    rw [ended]
    exact p.expression_reports cfg arity wrong spare u
  refine ⟨fun spare => ?_, lowered, u, v, passes, ⟨fun complains drops => ?_, fun spare => ?_⟩,
    fun drops => ?_⟩
  · obtain ⟨m, line, saw⟩ := seen spare
    obtain ⟨reports, recorded, about⟩ := lower_recorded entry cfg n s
    rw [run] at recorded
    exact recorded.complains (fun r hr => alone r.1 (about r hr))
      (saw.mono passes.before passes.after)
  · rw [ended] at complains
    exact Site.not_complains cfg drops u complains
  · obtain ⟨m, line, saw⟩ := seen spare
    obtain ⟨reports, recorded, about⟩ := (p.reading_composed cfg).expression.recorded u
    rw [← ended] at recorded
    exact recorded.complains
      (fun r hr => alone r.1 (n.sites_subset_of_mem [] p hp (about r hr))) saw
  · obtain ⟨first, rest, -, -, all, only⟩ := Site.run_of_dropsOperands cfg drops u
    rw [only, ← all]
    exact passes.run

/-- The second operand of an increment is dropped, and nothing is said of it. -/
theorem wrong_arity_is_dropped_silently :
    let operand : Node :=
      ⟨{ kind := .variableExpression, tag := "Variable", code := some "$a" }, []⟩
    let increment : Attributes :=
      { kind := .unaryExpression, tag := "Unary", unaryToken := some "PostfixIncrement" }
    let n : Node := ⟨increment, [operand, operand]⟩
    ∃ lowered u v, (Session.start {}).Passes {}
        ((Session.start {}).run (EntryPoint.expression.lower {} n)).2 (.root n) u v lowered ∧
      ¬u.Complains v (.root n) ∧
      u.run ((Site.root n).firstOnly.reading {}).expression = (lowered, v) := by
  intro operand increment n
  have drops : (Site.root n).DropsOperands := ⟨rfl, by decide, by decide⟩
  have dispatched : (Session.start {}).Saw
      ((Session.start {}).run (EntryPoint.expression.lower {} n)).2 (.dispatched [] "Unary") :=
    ⟨_, rfl, .head _⟩
  obtain ⟨-, lowered, u, v, passes, silent, same⟩ := wrong_arity_is_reported .expression {} n rfl
    (n.site_mem_sites []) rfl (by decide) dispatched
  exact ⟨lowered, u, v, passes, fun complains => silent.mp complains drops, same drops⟩

end ScriptIR
