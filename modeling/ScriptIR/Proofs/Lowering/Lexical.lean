import ScriptIR.Proofs.Lowering.Alike
import ScriptIR.Proofs.Scope.Balance
import ScriptIR.Proofs.Scope.Visible

/-!
# Lexical lowering

What a callee means can be told from the nesting of the source alone. Lexical lowering knows no
scopes: it passes a list of the visible functions through the tree, the newest first. A definition
puts its function in front of the list, before its body is lowered; a block goes back to the list
that it started with; everything else passes the list on from left to right. A call means the first
function of the list that has the name of the callee. The main statement, `lower_lexical`, says that
lowering with the open scopes and lexical lowering give the same programs and the same reports.
-/
namespace ScriptIR

namespace Session

/-- The functions that can be seen, the newest first. -/
def visible (s : Session) : List Function :=
  s.scopes.visible

/-- The session with nothing in scope but the given functions. -/
def showing (s : Session) (fs : List Function) : Session :=
  { s with scopes := .showing fs }

end Session

/-! ### The lexical semantics -/

namespace Lexical
open Lower

/-- Runs `body` and goes back to the functions that were visible before, however it ends. -/
def restoring {α : Type} (body : Lower α) : Lower α := fun s =>
  match body s with
  | .ok a t => .ok a (t.showing s.visible)
  | .error e t => .error e (t.showing s.visible)

def visible : Lower (List Function) := fun s =>
  .ok s.visible s

def declaring (header : Function) : Lower Function := fun s =>
  .ok header (s.showing (header :: s.visible))

/-- The function is in front of the list before its body is lowered, and stays there however that
ends. -/
def defining (header : Function) (body : Lower Statement) : Lower Function := fun s =>
  match body (s.showing (header.opened :: s.visible)) with
  | .ok lowered t =>
    let whole := header.withBody lowered
    .ok whole (t.showing (whole :: s.visible))
  | .error e t => .error e (t.showing (header :: s.visible))

section
variable (cfg : Config) (site : Site) (children : List (Tree Reading))

def blockOf (statements : List (Tree Reading)) : Lower Statement := do
  let lowered ← restoring (statements.mapM (·.label.statement))
  pure (.block site.origin lowered)

def block : Lower Statement :=
  blockOf site (children.filter (·.label.kind ≠ .paramBlock))

/-- A call of the first visible function that has the name of the callee, if there is one. That
there is none, or more than one, is reported. -/
def command : Lower Expression :=
  match children with
  | [] => malformed .noCallee site
  | callee :: items => do
    let named := callee.label.site
    unless named.attributes.kind = .stringConstantExpression do
      malformed (.calleeNotNamed named.attributes.tag) named
    let name := named.attributes.literalText
    let functions ← visible
    let candidates := functions.filter fun f => cfg.key f.name == cfg.key name
    record (.resolved site.path name candidates)
    if candidates.length = 0 then report (some site) (.unresolvedCallee name)
    else if 1 < candidates.length then
      report (some site) (.ambiguousCallee candidates.length name)
    let arguments ← bindArguments cfg name candidates items
    let declaration := functions.find? fun f => cfg.key f.name == cfg.key name
    pure (.call site.origin name arguments declaration)

def function : Lower Function := do
  let attrs := site.attributes
  unless attrs.kind = .functionDefinition do malformed (.notADefinition attrs.tag) site
  let some name := nonEmpty? attrs.name | malformed .unnamedFunction site
  let parameters ← (site.parameters.zipIdx).mapM fun p => parameter cfg p.1 p.2
  let header := Function.mk site.origin name parameters .none
  match children.find? (·.label.kind = .scriptBlock) with
  | none => declaring header
  | some body => defining header body.label.statement

/-- Only a pipeline of several stages is a block. -/
def pipeline : Lower Expression :=
  if 1 < children.length then compound site (block site children)
  else Lower.pipeline site children

/-- Only a script block of several statements is a block. -/
def scriptBlock : Lower Expression :=
  if 1 < children.length then compound site (blockOf site children)
  else Lower.scriptBlock site children

/-- A node of a kind that is neither a block nor a call nor a definition passes the list on through
its children from left to right. -/
def expressionOf? (kind : Kind) : Option (Lower Expression) :=
  match kind with
  | .pipeline => some (pipeline site children)
  | .scriptBlock => some (scriptBlock site children)
  | .switchStatement => some (compound site (block site children))
  | .command => some (command cfg site children)
  | .functionDefinition => some do
    let f ← function cfg site children
    pure (.definition site.origin (.function f))
  | other => Lower.expressionOf? cfg site children other

def expression : Lower Expression := do
  record (.dispatched site.path site.attributes.tag)
  match expressionOf? cfg site children site.attributes.kind with
  | none =>
    report (some site) (.unsupportedKind site.attributes.tag)
    pure site.unknown
  | some lowered => orUnknown site lowered

def statement : Lower Statement :=
  if site.attributes.kind.isBlock then block site children
  else if site.attributes.kind = .functionDefinition then do
    let f ← function cfg site children
    pure (.definition site.origin (.function f))
  else do
    let e ← expression cfg site children
    pure (.expression site.origin e)

end

end Lexical

namespace Node

mutual
/-- The lexical readings of the tree at `path`. -/
def lexicalReadings (cfg : Config) (path : Path) : Node → Tree Reading
  | ⟨attrs, children⟩ =>
    let site : Site := ⟨path, ⟨attrs, children⟩⟩
    let below := lexicalReadingsOf cfg path 0 children
    ⟨⟨site, Lexical.expression cfg site below, Lexical.statement cfg site below⟩, below⟩

/-- The lexical readings of the children of the node at `path` from number `i` on. -/
def lexicalReadingsOf (cfg : Config) (path : Path) (i : Nat) : List Node → List (Tree Reading)
  | [] => []
  | child :: rest =>
    lexicalReadings cfg (path ++ [i]) child :: lexicalReadingsOf cfg path (i + 1) rest
end

end Node

def lowerScriptLexically (cfg : Config) (n : Node) : Lower Statement := do
  match ← (n.lexicalReadings cfg []).label.statement with
  | .block origin statements => pure (.block origin statements)
  | single => pure (.block (Site.root n).origin [single])

/-- Lexical lowering of a whole tree. -/
def EntryPoint.lowerLexically (entry : EntryPoint) (cfg : Config) (n : Node) : Lower Part :=
  match entry with
  | .expression => do return .expression (← (n.lexicalReadings cfg []).label.expression)
  | .statement => do return .statement (← (n.lexicalReadings cfg []).label.statement)
  | .script => do return .statement (← lowerScriptLexically cfg n)

/-! ### Sessions without scopes -/

/-- Whether an event enters or leaves a scope. -/
def Event.isScope : Event → Bool
  | entered .. | left .. => true
  | _ => false

namespace Session
variable (s t : Session) (header : Function)

/-- What lexical lowering knows of a session: the visible functions in the place of the open scopes,
and of the trace all but entering and leaving. -/
def unscoped : Session :=
  { s.showing s.visible with trace := s.trace.filter fun e => !e.isScope }

theorem visible_showing (fs : List Function) : (s.showing fs).visible = fs :=
  ScopeStack.visible_showing fs

theorem visible_unscoped : s.unscoped.visible = s.visible :=
  s.visible_showing _

theorem unscoped_record (e : Event) (h : e.isScope = false) :
    (s.record e).unscoped = s.unscoped.record e := by
  simp [unscoped, record, showing, visible, h]

theorem unscoped_opening (owner : Owner) : (s.opening owner).unscoped = s.unscoped := by
  simp [unscoped, opening, enter, record, showing, visible, Event.isScope]

theorem unscoped_closing (owner : Owner) :
    (s.closing t owner).unscoped = t.unscoped.showing s.visible := by
  simp [unscoped, closing, record, showing, visible, Event.isScope]

/-- Parameters are no functions, so they are not seen. -/
theorem unscoped_openingFunction :
    (s.openingFunction header).unscoped = s.unscoped.showing (header.opened :: s.visible) := by
  have parameters : (header.parameters.map Declaration.parameter).reverse.filterMap
      Declaration.function? = [] := by
    simp [Declaration.function?]
  simp [unscoped, openingFunction, declareAll, opening, enter, record, declare, showing, visible,
    ScopeStack.visible, ScopeStack.enter, ScopeStack.declare, Scope.declare, Scope.visible,
    Event.isScope, Declaration.function?, parameters]

theorem unscoped_closingFunction :
    (s.closingFunction t header).unscoped = t.unscoped.showing (header :: s.visible) := by
  rw [closingFunction, unscoped_closing]
  congr 1
  exact s.scopes.visible_declare header

/-- The whole function takes the place of its header. -/
theorem unscoped_redeclare_closingFunction (whole : Function) :
    ((s.closingFunction t header).redeclare (.function whole)).unscoped =
      t.unscoped.showing (whole :: s.visible) := by
  have scopes : ((s.closingFunction t header).redeclare (.function whole)).visible =
      whole :: s.visible := by
    have replaced := ScopeStack.redeclare_addChild_declare s.scopes (.function header)
      (.function whole) t.scopes.current
    have seen := congrArg ScopeStack.visible replaced
    rw [ScopeStack.visible_addChild, ScopeStack.visible_declare] at seen
    exact seen
  rw [unscoped, scopes]
  simp [unscoped, closingFunction, closing, redeclare, record, showing, Event.isScope, declare]

theorem visible_openingFunction :
    (s.openingFunction header).visible = header.opened :: s.visible := by
  rw [← visible_unscoped, unscoped_openingFunction, visible_showing]

theorem visible_closingFunction : (s.closingFunction t header).visible = header :: s.visible := by
  rw [← visible_unscoped, unscoped_closingFunction, visible_showing]

theorem visible_redeclare_closingFunction (whole : Function) :
    ((s.closingFunction t header).redeclare (.function whole)).visible = whole :: s.visible := by
  rw [← visible_unscoped, unscoped_redeclare_closingFunction, visible_showing]

end Session

/-! ### Runs with and without scopes -/

namespace Lower
open Session

/-- The same nodes, and sessions of which the second one has no scopes. -/
def withoutScopes : Likeness where
  session s u := u = s.unscoped
  site s t := t = s
  attributes same := same ▸ rfl

/-- Run without scopes, the second action does what the first one does with them. -/
def Lexically {α : Type} (m lexical : Lower α) : Prop :=
  Alike withoutScopes m lexical

theorem lexically_iff {α : Type} {m lexical : Lower α} :
    Lexically m lexical ↔
      ∀ s : Session, s.unscoped.run lexical = ((s.run m).1, (s.run m).2.unscoped) := by
  constructor
  · intro h s
    obtain ⟨same, after⟩ := h s _ rfl
    rw [same.eq Eq.symm, ← after]
  · rintro h s _ rfl
    rw [h s]
    exact ⟨.refl (fun _ => rfl) _, rfl⟩

theorem kept_unscoped : KeptBySteps withoutScopes where
  dispatched := by
    rintro _ site rfl
    refine lexically_iff.mpr fun s => ?_
    have recorded := s.unscoped_record (.dispatched site.path site.attributes.tag) rfl
    exact congrArg (Prod.mk (Except.ok ())) recorded.symm
  report := by
    rintro _ site rfl issue issue' tags
    obtain rfl : issue = issue' := by simpa [withoutScopes] using tags.symm
    refine lexically_iff.mpr fun s => ?_
    have reported : (s.reported site issue).unscoped = s.unscoped.reported site issue := by
      simp [unscoped, Session.reported, Session.record, showing, Session.visible, Event.isScope]
    cases h : s.stop? site issue with
    | none =>
      have goes : s.unscoped.stop? site issue = none := h
      rw [run_report_of_none h, run_report_of_none goes, reported]
    | some stop =>
      have stops : s.unscoped.stop? site issue = some stop := h
      rw [run_report_of_stop h, run_report_of_stop stops, reported]

theorem lexically_visible {α : Type} {site : Site} {cfg : Config} {callee : String}
    {f : List Function → Lower α} {g : List Function → Lower α}
    (h : ∀ functions, Lexically
      (f (functions.filter fun f => cfg.key f.name == cfg.key callee)) (g functions)) :
    Lexically (resolve cfg site callee >>= f) (do
      let functions ← Lexical.visible
      record (.resolved site.path callee
        (functions.filter fun f => cfg.key f.name == cfg.key callee))
      g functions) := by
  rintro s _ rfl
  have candidates := s.scopes.resolve_eq_filter cfg callee
  have found : s.run (resolve cfg site callee) =
      (.ok (s.visible.filter fun f => cfg.key f.name == cfg.key callee),
        s.record (.resolved site.path callee
          (s.visible.filter fun f => cfg.key f.name == cfg.key callee))) := by
    rw [run_eq_ok, resolve, candidates]
    rfl
  have seen : s.unscoped.run Lexical.visible = (.ok s.visible, s.unscoped) := by
    rw [run_eq_ok, Lexical.visible, visible_unscoped]
  have recorded : s.unscoped.run (record (.resolved site.path callee
      (s.visible.filter fun f => cfg.key f.name == cfg.key callee))) =
      (.ok (), (s.record (.resolved site.path callee
        (s.visible.filter fun f => cfg.key f.name == cfg.key callee))).unscoped) := by
    rw [unscoped_record _ _ rfl]
    rfl
  rw [run_bind_of_ok found, run_bind_of_ok seen, run_bind_of_ok recorded]
  exact h s.visible _ _ rfl

section
variable {cfg : Config} {known : Site → Prop}

/-- Going back to the list is what leaving a scope comes to, however its body ends. -/
theorem lexically_inBlock {α : Type} {code : Option String} {body lexical : Lower α}
    (composed : Composed cfg known body) (h : Lexically body lexical) :
    Lexically (inScope (.block code) body) (Lexical.restoring lexical) := by
  rw [lexically_iff] at h ⊢
  intro s
  have within := h (s.opening (.block code))
  rw [unscoped_opening] at within
  cases hbody : (s.opening (.block code)).run body with
  | mk outcome t =>
    rw [hbody] at within
    rw [composed.run_inBlock hbody, unscoped_closing]
    cases outcome with
    | ok a =>
      rw [run_eq_ok] at within ⊢
      simp only [Lexical.restoring, within, visible_unscoped]
    | error e =>
      rw [run_eq_error] at within ⊢
      simp only [Lexical.restoring, within, visible_unscoped]

theorem lexically_declared (header : Function) :
    Lexically (do declare (.function header); pure header) (Lexical.declaring header) := by
  rw [lexically_iff]
  intro s
  have seen : (s.declare (.function header)).unscoped =
      s.unscoped.showing (header :: s.unscoped.visible) := by
    rw [visible_unscoped]
    simp [unscoped, Session.declare, showing, Session.visible]
  exact congrArg (Prod.mk (Except.ok header)) seen.symm

theorem lexically_defining {header : Function} {body lexical : Lower Statement}
    (composed : Composed cfg known body) (h : Lexically body lexical) :
    Lexically (defining header body) (Lexical.defining header lexical) := by
  rw [lexically_iff] at h ⊢
  intro s
  have within := h (s.openingFunction header)
  rw [unscoped_openingFunction] at within
  cases hbody : (s.openingFunction header).run body with
  | mk outcome t =>
    rw [hbody] at within
    cases outcome with
    | ok lowered =>
      rw [composed.run_defining_of_ok hbody, unscoped_redeclare_closingFunction]
      rw [run_eq_ok] at within ⊢
      simp only [Lexical.defining, visible_unscoped, within]
    | error e =>
      rw [composed.run_defining_of_error hbody, unscoped_closingFunction]
      rw [run_eq_error] at within ⊢
      simp only [Lexical.defining, visible_unscoped, within]

end

/-! ### Nodes by kind -/

section
variable (cfg : Config) (site : Site) {children others : List (Tree Reading)}
variable {known : Site → Prop} (composed : AllComposed cfg known children)
variable (h : List.Forall₂ (TreesAlike withoutScopes) children others)
include h

theorem command_lexically :
    Lexically (command cfg site children) (Lexical.command cfg site others) := by
  cases h with
  | nil => exact .malformed rfl rfl
  | @cons callee callee' items items' hcallee hitems =>
    have named : callee'.label.site = callee.label.site := hcallee.label.site
    have call : ∀ name candidates, Lexically (do
        let arguments ← bindArguments cfg name candidates items
        pure (Expression.call site.origin name arguments candidates.head?)) (do
        let arguments ← bindArguments cfg name candidates items'
        pure (Expression.call site.origin name arguments candidates.head?)) := by
      intro name candidates
      have arguments := bindArguments_alike kept_unscoped cfg name candidates (slots_alike 0 hitems)
      exact arguments.bind fun _ => .pure _
    simp only [command, Lexical.command, named]
    refine .checked (.malformed rfl rfl) fun _ => lexically_visible fun functions => ?_
    rw [← List.head?_filter]
    generalize functions.filter _ = candidates
    rcases candidates with _ | ⟨first, _ | ⟨second, more⟩⟩
    · exact (kept_unscoped.report rfl rfl).bind fun _ => call _ _
    · exact call _ _
    · exact (kept_unscoped.report rfl rfl).bind fun _ => call _ _

include composed

variable {cfg} in
theorem blockOf_lexically :
    Lexically (blockOf site children) (Lexical.blockOf site others) := by
  have body : Composed cfg known (children.mapM (·.label.statement)) :=
    .mapM fun child hchild => (composed.label hchild).statement
  have statements : Lexically (children.mapM (·.label.statement))
      (others.mapM (·.label.statement)) :=
    .mapM (h.imp fun _ _ alike => alike.label.statement)
  exact (lexically_inBlock body statements).bind fun _ => .pure _

variable {cfg} in
theorem block_lexically : Lexically (block site children) (Lexical.block site others) :=
  blockOf_lexically site (composed.subset List.filter_sublist.subset)
    (filter_kind_alike (· ≠ .paramBlock) h)

variable {cfg} in
theorem pipeline_lexically : Lexically (pipeline site children) (Lexical.pipeline site others) := by
  match children, others, composed, h with
  | [], [], _, _ => exact .malformed rfl rfl
  | [stage], [stage'], _, .cons hstage .nil =>
    simp only [Lexical.pipeline, pipeline, List.length_singleton, Nat.lt_irrefl, if_false]
    exact hstage.label.expression
  | _ :: _ :: _, _ :: _ :: _, composed, h =>
    have statement := block_lexically site composed h
    simp only [Lexical.pipeline, List.length_cons, Nat.lt_add_left_iff_pos, Nat.zero_lt_succ,
      if_true]
    exact statement.bind fun _ => .pure _

variable {cfg} in
theorem scriptBlock_lexically :
    Lexically (scriptBlock site children) (Lexical.scriptBlock site others) := by
  match children, others, composed, h with
  | [], [], _, _ => exact .malformed rfl rfl
  | [only], [only'], _, .cons honly .nil =>
    simp only [Lexical.scriptBlock, scriptBlock, List.length_singleton, Nat.lt_irrefl, if_false]
    exact honly.label.statement.bind fun _ => .pure _
  | _ :: _ :: _, _ :: _ :: _, composed, h =>
    have statement := blockOf_lexically site composed h
    simp only [Lexical.scriptBlock, List.length_cons, Nat.lt_add_left_iff_pos, Nat.zero_lt_succ,
      if_true]
    exact statement.bind fun _ => .pure _

theorem function_lexically :
    Lexically (function cfg site children) (Lexical.function cfg site others) := by
  have parameters : List.Forall₂ (ParametersAlike withoutScopes cfg) site.parameters
      site.parameters :=
    List.forall₂_same.mpr fun _ _ index => parameter_alike kept_unscoped rfl cfg index rfl
  have bodies := find?_kind_alike .scriptBlock h
  unfold function Lexical.function
  dsimp only
  refine .checked (.malformed rfl rfl) fun _ => ?_
  cases nonEmpty? site.attributes.name with
  | none => exact .malformed rfl rfl
  | some name =>
    refine (parameters_alike parameters).bind fun ps => ?_
    cases hbody : children.find? (·.label.kind = .scriptBlock) with
    | none =>
      rw [hbody] at bodies
      generalize others.find? (·.label.kind = .scriptBlock) = found at bodies ⊢
      cases bodies
      exact lexically_declared _
    | some body =>
      have lowered := (composed.label (List.mem_of_find?_eq_some hbody)).statement
      rw [hbody] at bodies
      generalize others.find? (·.label.kind = .scriptBlock) = found at bodies ⊢
      cases bodies with
      | some alike => exact lexically_defining lowered alike.label.statement

theorem expressionOf?_lexically (kind : Kind) :
    Option.Rel Lexically (expressionOf? cfg site children kind)
      (Lexical.expressionOf? cfg site others kind) := by
  have operands := h.imp fun _ _ => TreesAlike.operand
  have leaves := h.imp fun _ _ => TreesAlike.leaves
  cases kind
  all_goals first
    | exact .none
    | apply Option.Rel.some
  all_goals first
    | exact wrapper_alike rfl kept_unscoped operands
    | exact pipeline_lexically site composed h
    | exact scriptBlock_lexically site composed h
    | exact command_lexically cfg site h
    | exact reference_alike rfl kept_unscoped
    | exact (block_lexically site composed h).bind fun _ => .pure _
    | exact binary_alike rfl operands
    | exact unary_alike rfl operands
    | exact literal_alike rfl kept_unscoped cfg
    | exact (function_lexically cfg site composed h).bind fun _ => .pure _
    | exact array_alike rfl kept_unscoped leaves
    | exact cast_alike rfl kept_unscoped operands (types_alike h)
    | exact memberAccess_alike rfl kept_unscoped

theorem expression_lexically :
    Lexically (expression cfg site children) (Lexical.expression cfg site others) := by
  refine (kept_unscoped.dispatched rfl).bind fun _ => ?_
  have handled := expressionOf?_lexically cfg site composed h site.attributes.kind
  generalize expressionOf? cfg site children site.attributes.kind = lowered at handled ⊢
  generalize Lexical.expressionOf? cfg site _ _ = lexical at handled ⊢
  cases handled with
  | none => exact (kept_unscoped.report rfl rfl).bind fun _ => .pure _
  | some lowered => exact lowered.orUnknown kept_unscoped rfl

theorem statement_lexically :
    Lexically (statement cfg site children) (Lexical.statement cfg site others) := by
  unfold statement Lexical.statement
  split
  · exact block_lexically site composed h
  · split
    · exact (function_lexically cfg site composed h).bind fun _ => .pure _
    · exact (expression_lexically cfg site composed h).bind fun _ => .pure _

end

end Lower

/-! ### Trees -/

namespace Node
open Lower (TreesAlike withoutScopes)

mutual
theorem readings_lexically (cfg : Config) (path : Path) : ∀ n : Node,
    TreesAlike withoutScopes (n.readings cfg path) (n.lexicalReadings cfg path)
  | ⟨attrs, children⟩ => by
    have below := readingsOf_lexically cfg path 0 children
    have composed := readingsOf_composed cfg path 0 children fun _ (_ : _) => trivial
    rw [readings, lexicalReadings]
    exact .of_children ⟨rfl, Lower.typeOfNode_alike Lower.kept_unscoped rfl fun _ => rfl,
      Lower.expression_lexically cfg _ composed below,
      Lower.statement_lexically cfg _ composed below⟩ below

theorem readingsOf_lexically (cfg : Config) (path : Path) (i : Nat) : ∀ children : List Node,
    List.Forall₂ (TreesAlike withoutScopes) (readingsOf cfg path i children)
      (lexicalReadingsOf cfg path i children)
  | [] => by
    rw [readingsOf, lexicalReadingsOf]
    exact .nil
  | child :: rest => by
    rw [readingsOf, lexicalReadingsOf]
    exact .cons (readings_lexically cfg (path ++ [i]) child)
      (readingsOf_lexically cfg path (i + 1) rest)
end

end Node

theorem EntryPoint.lower_lexically (entry : EntryPoint) (cfg : Config) (n : Node) :
    Lower.Lexically (entry.lower cfg n) (entry.lowerLexically cfg n) := by
  have root := (n.readings_lexically cfg []).label
  have script : Lower.Lexically (lowerScript cfg n) (lowerScriptLexically cfg n) :=
    root.statement.bind fun lowered => by cases lowered <;> exact .pure _
  cases entry with
  | expression => exact root.expression.bind fun _ => .pure _
  | statement => exact root.statement.bind fun _ => .pure _
  | script => exact script.bind fun _ => .pure _

/-- Lowering a tree with open scopes and lowering it lexically, from the list of the functions in
the open scopes, come to the same: the same program with the same declaration at every call, or the
same fault; the same reports, those on callees with no declaration or several among them; the same
nodes dispatched, and the same callees looked up with the same candidates; and the same functions
visible in the end. -/
theorem lower_lexical (entry : EntryPoint) (cfg : Config) (n : Node) (s : Session) :
    let lowered := s.run (entry.lower cfg n)
    let lexical := s.unscoped.run (entry.lowerLexically cfg n)
    s.unscoped.visible = (s.scopes.current :: s.scopes.enclosing).flatMap Scope.visible ∧
      lowered.1 = lexical.1 ∧
      lowered.2.collector = lexical.2.collector ∧
      (lowered.2.trace.filter fun e => !e.isScope) = lexical.2.trace ∧
      lowered.2.visible = lexical.2.visible := by
  intro lowered lexical
  have ended : lexical = (lowered.1, lowered.2.unscoped) :=
    Lower.lexically_iff.mp (entry.lower_lexically cfg n) s
  refine ⟨s.visible_unscoped, ?_⟩
  rw [ended]
  exact ⟨rfl, rfl, rfl, lowered.2.visible_unscoped.symm⟩

end ScriptIR
