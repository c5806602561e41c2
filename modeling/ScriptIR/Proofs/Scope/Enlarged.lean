import ScriptIR.Proofs.Lowering.Frames
import ScriptIR.Proofs.Lowering.Recovery
import ScriptIR.Proofs.Scope.Visible

/-!
# What lowering adds to the scopes

Lowering only adds to the scopes, and only in the innermost one: functions, and closed scopes inside
it. `Scope.Made` says what the closed scopes hold that are added: a parameter stands in the scope of
its own function and nowhere else. A node that becomes a block of its own adds no function at all.
-/
namespace ScriptIR

/-- A scope that lowering has made beside the functions `around`. The scope of a block holds
functions only; that of a function, which is one of those around it, holds its parameters and behind
them functions only. All scopes inside it have been made beside its functions. -/
inductive Scope.Made : (around : List Function) → Scope → Prop
  | block {around functions : List Function} {children : List Scope} (code : Option String)
      (serial : Nat) : (∀ child ∈ children, Made functions child) →
      Made around ⟨some (.block code), serial, functions.map .function, children⟩
  | function {around functions : List Function} {children : List Scope} {f : Function}
      (serial : Nat) : f ∈ around → (∀ child ∈ children, Made functions child) →
      Made around ⟨some (Lower.ownerOf f), serial,
        f.parameters.map .parameter ++ functions.map .function, children⟩

theorem Scope.Made.mono {around others : List Function} {s : Scope} (h : s.Made around)
    (sub : around ⊆ others) : s.Made others := by
  cases h with
  | block code serial inside => exact .block code serial inside
  | function serial declared inside => exact .function serial (sub declared) inside

/-- The innermost scope has gained functions, and scopes that were made beside them, behind all that
it had, and nothing else has changed. -/
structure ScopeStack.Enlarged (s t : ScopeStack) : Prop extends s.SamePlace t where
  gains : ∃ (functions : List Function) (scopes : List Scope),
    t.current.declarations = s.current.declarations ++ functions.map .function ∧
    t.current.children = s.current.children ++ scopes ∧
    ∀ scope ∈ scopes, scope.Made functions

namespace ScopeStack.Enlarged
variable {s t u : ScopeStack}

theorem refl (s : ScopeStack) : s.Enlarged s where
  toSamePlace := .refl s
  gains := ⟨[], [], by simp, by simp, by simp⟩

theorem trans (h : s.Enlarged t) (k : t.Enlarged u) : s.Enlarged u where
  toSamePlace := h.toSamePlace.trans k.toSamePlace
  gains := by
    obtain ⟨fs, scopes, declarations, children, made⟩ := h.gains
    obtain ⟨gs, others, more, further, also⟩ := k.gains
    refine ⟨fs ++ gs, scopes ++ others, ?_, ?_, ?_⟩
    · rw [more, declarations, List.map_append, List.append_assoc]
    · rw [further, children, List.append_assoc]
    · intro scope hscope
      rcases List.mem_append.mp hscope with first | later
      · exact (made scope first).mono (List.subset_append_left fs gs)
      · exact (also scope later).mono (List.subset_append_right fs gs)

theorem declare (s : ScopeStack) (f : Function) : s.Enlarged (s.declare (.function f)) where
  toSamePlace := .declare s _
  gains := ⟨[f], [], rfl, (List.append_nil _).symm, by simp⟩

theorem addChild (s : ScopeStack) {child : Scope} (made : child.Made []) :
    s.Enlarged { s with current := s.current.addChild child } where
  toSamePlace := ⟨rfl, rfl, rfl⟩
  gains := ⟨[], [child], (List.append_nil _).symm, rfl, List.forall_mem_singleton.mpr made⟩

/-- A function and its scope come together. -/
theorem declareWithScope (s : ScopeStack) {f : Function} {child : Scope} (made : child.Made [f]) :
    s.Enlarged { s.declare (.function f) with
      current := (s.declare (.function f)).current.addChild child } where
  toSamePlace := ⟨rfl, rfl, rfl⟩
  gains := ⟨[f], [child], rfl, rfl, List.forall_mem_singleton.mpr made⟩

/-- A scope that was empty when it was entered holds what it has gained. -/
theorem current_eq {owner : Owner} {serial : Nat} {declarations : List Declaration}
    (h : s.Enlarged t) (hs : s.current = ⟨some owner, serial, declarations, []⟩) :
    ∃ (functions : List Function) (scopes : List Scope),
      t.current = ⟨some owner, serial, declarations ++ functions.map .function, scopes⟩ ∧
      ∀ scope ∈ scopes, scope.Made functions := by
  obtain ⟨functions, scopes, gained, children, made⟩ := h.gains
  have sameOwner := h.owner
  have sameSerial := h.serial
  rw [hs] at sameOwner sameSerial gained children
  rw [List.nil_append] at children
  refine ⟨functions, scopes, ?_, made⟩
  cases hc : t.current with
  | mk =>
    rw [hc] at sameOwner sameSerial gained children
    rw [Scope.mk.injEq]
    exact ⟨sameOwner, sameSerial, gained, children⟩

end ScopeStack.Enlarged

namespace Lower
open Session

/-- However a composed action ends, it has only enlarged the innermost scope. -/
theorem Composed.enlarged {cfg : Config} {known : Site → Prop} {α : Type} {m : Lower α}
    (h : Composed cfg known m) :
    ∀ s : Session, s.scopes.Enlarged (s.run m).2.scopes := by
  induction h with
  | pure a => exact fun s => .refl _
  | @bind α β m f _ _ first next =>
    intro s
    cases hm : s.run m with
    | mk outcome t =>
      have enlarged := hm ▸ first s
      cases outcome with
      | ok a =>
        rw [run_bind_of_ok hm]
        exact enlarged.trans (next a t)
      | error e =>
        rw [run_bind_of_error hm]
        exact enlarged
  | dispatched _ => exact fun s => .refl _
  | @report site issue _ =>
    intro s
    rw [session_run_report]
    exact .refl _
  | resolve callee _ => exact fun s => .refl _
  | malformed m _ => exact fun s => .refl _
  | @orUnknown site body _ _ ih =>
    intro s
    refine run_orUnknown_of (P := fun ended => s.scopes.Enlarged ended.2.scopes) (ih s)
      fun m culprit t hbody => ?_
    have inside := hbody ▸ ih s
    have reports : Keeps Session.scopes (Lower.report (some culprit) (.malformed m)) :=
      .report fun _ => rfl
    rw [(reports.bind fun _ => .pure site.unknown) t]
    exact inside
  | @inBlock α code body composed ih =>
    intro s
    cases hbody : (s.opening (.block code)).run body with
    | mk outcome t =>
      have inside := ih (s.opening (.block code))
      rw [hbody] at inside
      obtain ⟨functions, scopes, current, made⟩ := inside.current_eq rfl
      rw [composed.run_inBlock hbody]
      refine .addChild s.scopes ?_
      rw [current]
      exact .block code _ made
  | declared header => exact fun s => .declare _ _
  | @defining header body composed ih =>
    intro s
    cases hbody : (s.openingFunction header).run body with
    | mk outcome t =>
      have inside := ih (s.openingFunction header)
      rw [hbody] at inside
      obtain ⟨functions, scopes, current, made⟩ := inside.current_eq rfl
      -- The function has the name, the origin and the parameters of its header.
      have scope : ∀ f, ownerOf f = ownerOf header → f.parameters = header.parameters →
          t.scopes.current.Made [f] := by
        intro f owner parameters
        rw [current, ← owner, ← parameters]
        exact .function _ (List.mem_singleton_self f) made
      cases outcome with
      | ok lowered =>
        rw [composed.run_defining_of_ok hbody]
        have enlarged := ScopeStack.Enlarged.declareWithScope s.scopes
          (scope (header.withBody lowered) rfl rfl)
        rw [← ScopeStack.redeclare_addChild_declare s.scopes (.function header)] at enlarged
        exact enlarged
      | error e =>
        rw [composed.run_defining_of_error hbody]
        exact .declareWithScope s.scopes (scope header rfl rfl)

end Lower

/-! ### Nodes that become blocks -/

/-- What is declared in the innermost scope, and the scopes around it. -/
def Session.declared (s : Session) : List Declaration × List Scope :=
  (s.scopes.current.declarations, s.scopes.enclosing)

/-- A name is looked up in what is declared, not in closed scopes. -/
theorem Session.resolve_of_declared {s t : Session} (h : t.declared = s.declared) (cfg : Config)
    (name : String) : t.scopes.resolve cfg name = s.scopes.resolve cfg name := by
  obtain ⟨declarations, enclosing⟩ := Prod.mk.inj h
  simp only [ScopeStack.resolve, List.flatMap_cons, Scope.functions, Scope.lookup, declarations,
    enclosing]

namespace Lower
open Session
variable {cfg : Config} {known : Site → Prop} {site : Site} {children : List (Tree Reading)}

theorem Composed.keeps_inBlock {α : Type} {body : Lower α} (h : Composed cfg known body)
    (code : Option String) : Keeps Session.declared (inScope (.block code) body) := by
  intro s
  rw [h.run_inBlock rfl]
  rfl

/-- The functions of a block are gone with its scope. -/
theorem blockOf_keeps (h : AllComposed cfg known children) :
    Keeps Session.declared (blockOf site children) := by
  have body : Composed cfg known (children.mapM (·.label.statement)) :=
    .mapM fun child hchild => (h.label hchild).statement
  exact (body.keeps_inBlock _).bind fun _ => .pure _

theorem block_keeps (h : AllComposed cfg known children) :
    Keeps Session.declared (block site children) :=
  blockOf_keeps (h.subset List.filter_sublist.subset)

theorem expression_keeps {cfg : Config} {handler : Lower Expression}
    (handled : expressionOf? cfg site children site.attributes.kind = some handler)
    (h : Keeps Session.declared handler) :
      Keeps Session.declared (expression cfg site children) := by
  intro s
  rw [run_expression_of_some handled]
  exact h.orUnknown (fun _ _ _ => rfl) (s.dispatching site)

end Lower

/-- Whether a node becomes a block in a scope of its own when it is lowered in the given way. -/
def EntryPoint.confines (entry : EntryPoint) (n : Node) : Bool :=
  match entry with
  | .expression =>
    match n.label.kind with
    | .switchStatement => true
    | .pipeline | .scriptBlock => 2 ≤ n.children.length
    | _ => false
  | .statement | .script => n.label.kind.isBlock

section
open Lower
variable (cfg : Config) {n : Node}

theorem lowerStatement_keeps (h : n.label.kind.isBlock = true) :
    Keeps Session.declared (lowerStatement cfg n) := by
  rw [lowerStatement_eq, statement_of_isBlock cfg (Site.root n) h]
  exact block_keeps (Site.below_composed cfg _)

theorem lowerExpression_keeps (h : EntryPoint.expression.confines n = true) :
    Keeps Session.declared (lowerExpression cfg n) := by
  let site := Site.root n
  have composed := site.below_composed cfg
  have becomes : ∀ {k : Kind} {statement : Lower Statement}, n.label.kind = k →
      expressionOf? cfg site (site.below cfg) k = some (compound site statement) →
      Keeps Session.declared statement → Keeps Session.declared (lowerExpression cfg n) := by
    intro k statement kind handled kept
    rw [lowerExpression_eq]
    exact expression_keeps ((congrArg _ kind).trans handled) (kept.bind fun _ => .pure _)
  have several : decide (2 ≤ n.children.length) = true → 2 ≤ (site.below cfg).length := by
    rw [Site.length_below]
    exact of_decide_eq_true
  dsimp only [EntryPoint.confines] at h
  split at h
  next kind => exact becomes kind rfl (block_keeps composed)
  next kind =>
    exact becomes kind (expressionOf?_pipeline cfg site (several h)) (block_keeps composed)
  next kind =>
    exact becomes kind (expressionOf?_scriptBlock cfg site (several h)) (blockOf_keeps composed)
  next => cases h

/-- What becomes a block leaves the declarations of the scope around it as they are. -/
theorem EntryPoint.lower_keeps (entry : EntryPoint) (h : entry.confines n = true) :
    Keeps Session.declared (entry.lower cfg n) := by
  cases entry with
  | expression => exact (lowerExpression_keeps cfg h).bind fun _ => .pure _
  | statement => exact (lowerStatement_keeps cfg h).bind fun _ => .pure _
  | script =>
    refine Keeps.bind ((lowerStatement_keeps cfg h).bind fun lowered => ?_) fun _ => .pure _
    cases lowered <;> exact .pure _

end

/-- However a tree is lowered and however that ends: no scope around the innermost one has changed;
the innermost one has gained functions and closed scopes behind what it had, and no closed scope has
changed; and parameters stand in the scopes of their functions only. A node that becomes a block has
not even brought in functions: every name stands for what it stood for before. -/
theorem lower_enlarges (entry : EntryPoint) (cfg : Config) (n : Node) (s : Session) :
    let t := (s.run (entry.lower cfg n)).2
    s.scopes.Enlarged t.scopes ∧
      (entry.confines n = true →
        t.scopes.current.declarations = s.scopes.current.declarations ∧
        ∀ (cfg : Config) (name : String),
          t.scopes.resolve cfg name = s.scopes.resolve cfg name) := by
  refine ⟨(entry.lower_composed cfg n).enlarged s, fun h => ?_⟩
  have kept := entry.lower_keeps cfg h s
  exact ⟨congrArg Prod.fst kept, Session.resolve_of_declared kept⟩

/-- A function in a script block is declared in the scope of the block, with its own scope inside
that, and cannot be looked up behind the block. -/
theorem lower_enlarges_scriptBlock :
    let definition : Node :=
      ⟨{ kind := .functionDefinition, tag := "", name := some "f" }, [Node.bare .scriptBlock []]⟩
    let n := Node.bare .scriptBlock [definition]
    let t := ((Session.start {}).run (EntryPoint.statement.lower {} n)).2
    EntryPoint.statement.confines n = true ∧
      t.scopes.current.children.map (fun scope => scope.declarations.map (·.name)) = [["f"]] ∧
      t.scopes.current.declarations = [] ∧ t.scopes.resolve {} "f" = [] := by
  intro definition n t
  obtain ⟨-, confined⟩ := lower_enlarges .statement {} n (Session.start {})
  obtain ⟨declarations, resolve⟩ := confined rfl
  exact ⟨rfl, rfl, declarations, (resolve {} "f").trans rfl⟩

end ScriptIR
