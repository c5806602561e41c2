import ScriptIR.Proofs.Diagnostics.Recorded
import ScriptIR.Proofs.Lowering.Contents

/-!
# Every unknown expression was reported

An unknown expression stands for a node that could not be lowered, and somebody has to hear of it.
`Session.Paid` keeps the account: a run makes at most as many unknown expressions as it gives
reports that tell of something not lowered. A report outlives the value that it was made for when
that is thrown away further up, so the account may hold more than the value needs, but never less.
-/
namespace ScriptIR

/-! ### Counting -/

mutual
/-- The number of unknown expressions in an expression. The declaration that a call is bound to is
no part of the call. -/
@[simp] def Expression.unknowns : Expression → Nat
  | .literal .. | .reference .. => 0
  | .binary _ _ lhs rhs _ => lhs.unknowns + rhs.unknowns
  | .unary _ _ _ operand => operand.unknowns
  | .call _ _ arguments _ => Argument.unknownsOf arguments
  | .initializer _ _ elements => Expression.unknownsOf elements
  | .cast _ _ inner => inner.unknowns
  | .compound _ statement => statement.unknowns
  | .definition _ declaration => declaration.unknowns
  | .unknown .. => 1

def Expression.unknownsOf : List Expression → Nat
  | [] => 0
  | e :: es => e.unknowns + Expression.unknownsOf es

@[simp] def Argument.unknowns : Argument → Nat
  | .mk expression _ _ => expression.unknowns

def Argument.unknownsOf : List Argument → Nat
  | [] => 0
  | a :: rest => a.unknowns + Argument.unknownsOf rest

@[simp] def Function.unknowns : Function → Nat
  | .mk _ _ _ body => body.unknowns

@[simp] def Body.unknowns : Body → Nat
  | .none | .unfinished => 0
  | .statement s => s.unknowns

@[simp] def Declaration.unknowns : Declaration → Nat
  | .function f => f.unknowns
  | .parameter _ | .plain .. => 0

@[simp] def Statement.unknowns : Statement → Nat
  | .expression _ expression => expression.unknowns
  | .definition _ declaration => declaration.unknowns
  | .block _ statements => Statement.unknownsOf statements

def Statement.unknownsOf : List Statement → Nat
  | [] => 0
  | s :: ss => s.unknowns + Statement.unknownsOf ss
end

@[simp] def Part.unknowns : Part → Nat
  | expression e => e.unknowns
  | statement s => s.unknowns
  | declaration d => d.unknowns

/-- Whether issues of a category tell of something that was not lowered. -/
def Category.degrades (c : Category) : Bool :=
  c = .malformedNode || c = .unsupportedKind

def Issue.degrades (issue : Issue) : Bool :=
  issue.category.degrades

/-- Whether a diagnostic tells of something that was not lowered. -/
def Diagnostic.degrades (d : Diagnostic) : Bool :=
  d.category = some "MalformedNodeError" || d.category = some "UnsupportedNodeKind"

theorem Issue.degrades_entry (issue : Issue) (subject : Attributes) :
    (issue.entry subject).degrades = issue.degrades := by
  have byName : ∀ c : Category, (decide (some c.name = some "MalformedNodeError") ||
      decide (some c.name = some "UnsupportedNodeKind")) = c.degrades := by
    intro c
    cases c <;> rfl
  exact byName issue.category

namespace Session

/-- How often it was reported until now that something was not lowered. -/
def degradations (s : Session) : Nat :=
  (s.trace.toList.filterMap Event.report?).countP (·.2.degrades)

theorem Recorded.degradations {s t : Session} {reports : List (Site × Issue)}
    (h : s.Recorded t reports) :
    t.degradations = s.degradations + reports.countP (·.2.degrades) := by
  obtain ⟨events, trace, told⟩ := h.trace
  rw [Session.degradations, trace, List.filterMap_append, List.countP_append, told, List.countP_map]
  rfl

theorem degradations_reported (s : Session) (site : Site) (issue : Issue) :
    (s.reported site issue).degradations = s.degradations + if issue.degrades then 1 else 0 := by
  rw [(Recorded.reported s site issue).degradations, List.countP_singleton]

/-- Nothing that was reported is forgotten. -/
theorem degradations_steps :
    Steps (fun _ => True) fun s t => s.degradations ≤ t.degradations where
  refl _ := Nat.le_refl _
  trans := Nat.le_trans
  scopes _ _ := Nat.le_refl _
  event s e h := by
    have silent : (s.record e).degradations = s.degradations := by
      simp [degradations, record, h]
    exact Nat.le_of_eq silent.symm
  report s site issue _ := by
    rw [degradations_reported]
    exact Nat.le_add_right _ _

/-- A verbose collector has an entry for everything that was not lowered. -/
theorem Recorded.entries_of_verbose {s t : Session} {reports : List (Site × Issue)}
    (h : s.Recorded t reports) (verbose : s.collector.verbose = true) :
    ∃ added, t.entries = s.entries ++ added ∧
      t.degradations = s.degradations + added.countP Diagnostic.degrades := by
  have kept : reports.filter (·.2.isKept s.collector.verbose) = reports :=
    List.filter_eq_self.mpr fun r _ => by simp [Issue.isKept, verbose]
  refine ⟨_, h.entries, ?_⟩
  rw [kept, List.countP_map, h.degradations]
  congr 2
  funext r
  exact (r.2.degrades_entry r.1.attributes).symm

end Session

/-! ### The account -/

/-- Whether a content is an unknown expression. -/
def Content.isUnknown : Content → Bool
  | unknown => true
  | call _ | definition _ => false

theorem countP_bound (declaration : Option Function) :
    (declaration.toList.map Content.call).countP Content.isUnknown = 0 := by
  cases declaration <;> rfl

mutual
theorem Expression.unknowns_eq_countP : ∀ e : Expression,
    e.unknowns = e.contents.countP Content.isUnknown
  | .literal .. | .reference .. => rfl
  | .binary _ _ lhs rhs _ => by
    rw [Expression.unknowns, Expression.contents, List.countP_append, lhs.unknowns_eq_countP,
      rhs.unknowns_eq_countP]
  | .unary _ _ _ operand => operand.unknowns_eq_countP
  | .call _ _ arguments declaration => by
    rw [Expression.unknowns, Expression.contents, List.countP_append, countP_bound, Nat.zero_add,
      Argument.unknownsOf_eq_countP arguments]
  | .initializer _ _ elements => Expression.unknownsOf_eq_countP elements
  | .cast _ _ inner => inner.unknowns_eq_countP
  | .compound _ statement => statement.unknowns_eq_countP
  | .definition _ declaration => declaration.unknowns_eq_countP
  | .unknown .. => rfl

theorem Expression.unknownsOf_eq_countP : ∀ es : List Expression,
    Expression.unknownsOf es = (Expression.contentsOf es).countP Content.isUnknown
  | [] => rfl
  | e :: es => by
    rw [Expression.unknownsOf, Expression.contentsOf, List.countP_append, e.unknowns_eq_countP,
      Expression.unknownsOf_eq_countP es]

theorem Argument.unknowns_eq_countP : ∀ a : Argument,
    a.unknowns = a.contents.countP Content.isUnknown
  | .mk expression _ _ => expression.unknowns_eq_countP

theorem Argument.unknownsOf_eq_countP : ∀ as : List Argument,
    Argument.unknownsOf as = (Argument.contentsOf as).countP Content.isUnknown
  | [] => rfl
  | a :: as => by
    rw [Argument.unknownsOf, Argument.contentsOf, List.countP_append, a.unknowns_eq_countP,
      Argument.unknownsOf_eq_countP as]

theorem Function.unknowns_eq_countP : ∀ f : Function,
    f.unknowns = f.contents.countP Content.isUnknown
  | .mk _ _ _ body => body.unknowns_eq_countP

theorem Body.unknowns_eq_countP : ∀ body : Body,
    body.unknowns = body.contents.countP Content.isUnknown
  | .none | .unfinished => rfl
  | .statement s => s.unknowns_eq_countP

theorem Declaration.unknowns_eq_countP : ∀ d : Declaration,
    d.unknowns = d.contents.countP Content.isUnknown
  | .function f => f.unknowns_eq_countP
  | .parameter _ | .plain .. => rfl

theorem Statement.unknowns_eq_countP : ∀ s : Statement,
    s.unknowns = s.contents.countP Content.isUnknown
  | .expression _ expression => expression.unknowns_eq_countP
  | .definition _ declaration => declaration.unknowns_eq_countP
  | .block _ statements => Statement.unknownsOf_eq_countP statements

theorem Statement.unknownsOf_eq_countP : ∀ ss : List Statement,
    Statement.unknownsOf ss = (Statement.contentsOf ss).countP Content.isUnknown
  | [] => rfl
  | s :: ss => by
    rw [Statement.unknownsOf, Statement.contentsOf, List.countP_append, s.unknowns_eq_countP,
      Statement.unknownsOf_eq_countP ss]
end

theorem Part.unknowns_eq_countP (part : Part) :
    part.unknowns = part.contents.countP Content.isUnknown := by
  cases part with
  | expression e => exact e.unknowns_eq_countP
  | statement s => exact s.unknowns_eq_countP
  | declaration d => exact d.unknowns_eq_countP

/-- As many unknown expressions as were made, so many reports there are that tell of something not
lowered. -/
def Session.Paid (s : Session) (made : List Content) (t : Session) : Prop :=
  made.countP Content.isUnknown + s.degradations ≤ t.degradations

open Session in
/-- A report outlives the value that it was made for when that is thrown away further up. -/
theorem Session.paid_accounts :
    Accounts Paid fun s t => s.degradations ≤ t.degradations where
  refl s := by simp [Paid]
  trans := by
    intro s t u xs ys first rest
    rw [Paid] at *
    rw [List.countP_append]
    omega
  event s e silent := by simpa [Paid] using degradations_steps.event s e silent
  report s site issue := by simpa [Paid] using degradations_steps.report s site issue trivial
  unsupported s site issue h := by
    have degrades : issue.degrades = true := by simp [Issue.degrades, h, Category.degrades]
    rw [Paid, degradations_reported, if_pos degrades]
    exact Nat.le_of_eq (Nat.add_comm _ _)
  recovered := by
    intro s t culprit m kept
    have degrades : (Issue.malformed m).degrades = true := rfl
    rw [Paid, degradations_reported, if_pos degrades]
    exact Nat.add_comm _ _ ▸ Nat.add_le_add_right kept 1
  call := by
    intro s f _
    simp [Paid, Content.isUnknown]
  block := by
    intro s t xs code inside
    have opened := degradations_steps.opening s (.block code)
    have closed := degradations_steps.closing s t (.block code)
    rw [Paid] at *
    omega
  declared s header := by simp [Paid, Content.isUnknown, declare, degradations]
  defining := by
    intro s t xs header body inside
    have opened := degradations_steps.openingFunction s header
    have closed : t.degradations ≤ ((s.closingFunction t header).redeclare
        (.function (header.withBody body))).degradations :=
      degradations_steps.trans (degradations_steps.closing _ t _) (degradations_steps.scopes _ _)
    rw [Paid] at *
    rw [List.countP_cons_of_neg (by simp [Content.isUnknown])]
    omega

/-- Reports are never taken back, also where a node is given up on. -/
theorem Site.retreats_paid (cfg : Config) (site : Site) :
    site.Retreats (fun s t => s.degradations ≤ t.degradations) cfg := by
  intro handler hkind s t m culprit hrun
  have composed : Lower.Composed cfg (fun _ => True) handler := Lower.expressionOf?_composed cfg
    (Node.readingsOf_composed cfg site.path 0 site.node.children fun _ _ => trivial) trivial
    (fun _ _ => trivial) hkind
  have linked := (composed.linked Session.degradations_steps s).related
  rwa [hrun] at linked

theorem EntryPoint.lower_paid (entry : EntryPoint) (cfg : Config) (n : Node) {s t : Session}
    {part : Part} (h : s.run (entry.lower cfg n) = (.ok part, t)) :
    part.unknowns + s.degradations ≤ t.degradations := by
  obtain ⟨xs, made, paid⟩ := EntryPoint.lower_gives Session.paid_accounts cfg entry n
    (fun site _ => site.retreats_paid cfg) s t part h
  rw [part.unknowns_eq_countP, made, List.nil_append]
  exact paid

/-- Where a run with a verbose collector gives a part of a program, there are at most as many
unknown expressions in it as the run has added diagnostics of malformed nodes and of unsupported
kinds. So if it has added none of these, nothing in the part is unknown. -/
theorem lower_unknowns_le (entry : EntryPoint) (cfg : Config) (n : Node) {s t : Session}
    (verbose : s.collector.verbose = true) {part : Part}
    (h : s.run (entry.lower cfg n) = (.ok part, t)) :
    ∃ added, t.entries = s.entries ++ added ∧
      part.unknowns ≤ added.countP Diagnostic.degrades ∧
      ((∀ d ∈ added, d.category ≠ some "MalformedNodeError" ∧
        d.category ≠ some "UnsupportedNodeKind") → part.unknowns = 0) := by
  obtain ⟨reports, recorded, _⟩ := lower_recorded entry cfg n s
  rw [h] at recorded
  obtain ⟨added, entries, count⟩ := recorded.entries_of_verbose verbose
  have paid := entry.lower_paid cfg n h
  have bound : part.unknowns ≤ added.countP Diagnostic.degrades := by
    dsimp only at count
    omega
  refine ⟨added, entries, bound, fun none => ?_⟩
  have clean : added.countP Diagnostic.degrades = 0 := by
    rw [List.countP_eq_zero]
    intro d hd
    simp [Diagnostic.degrades, none d hd]
  omega

/-- A member access in front of a function without a name is thrown away together with it: one
unknown expression is left of both, and both reports. -/
theorem lower_unknowns_le_discarded :
    (Session.start (.forLevel none true false false)).collector.verbose = true ∧
      ∃ part t added, (Session.start (.forLevel none true false false)).run
          (EntryPoint.expression.lower {}
            (.bare .scriptBlock [.bare .memberExpression [], .bare .functionDefinition []])) =
        (.ok part, t) ∧
      t.entries = added ∧ part.unknowns ≤ added.countP Diagnostic.degrades ∧
      part.unknowns = 1 ∧ added.countP Diagnostic.degrades = 2 := by
  have start : (Session.start (.forLevel none true false false)).collector.verbose = true := rfl
  obtain ⟨part, t, run, one, two⟩ : ∃ part t,
      (Session.start (.forLevel none true false false)).run (EntryPoint.expression.lower {}
        (.bare .scriptBlock [.bare .memberExpression [], .bare .functionDefinition []])) =
      (.ok part, t) ∧ part.unknowns = 1 ∧ t.entries.countP Diagnostic.degrades = 2 :=
    ⟨_, _, rfl, rfl, rfl⟩
  obtain ⟨added, entries, bound, _⟩ := lower_unknowns_le .expression {} _ start run
  have all : t.entries = added := entries
  exact ⟨start, part, t, added, run, all, bound, one, all ▸ two⟩

end ScriptIR
