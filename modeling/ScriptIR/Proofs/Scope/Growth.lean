import ScriptIR.Proofs.Lowering.Composition

/-!
# Scopes that grow in place

Two relations between the open scopes before and after some work. `SamePlace` says that the same
scope is the innermost one and that those around it are untouched. `Grown` adds that the innermost
scope has kept all it had and gained functions and closed scopes only. The main statement,
`Session.run_inScope`, says what a body leaves behind that was run in a scope of its own and ended
in the same place: its scope as a further child, whether the body gave a value or not.
-/
namespace ScriptIR

/-- The scope that was the innermost one still is, inside the same scopes. -/
structure ScopeStack.SamePlace (s t : ScopeStack) : Prop where
  owner : t.current.owner = s.current.owner
  serial : t.current.serial = s.current.serial
  enclosing : t.enclosing = s.enclosing

/-- The innermost scope has gained functions and closed scopes at the end, and nothing else has
changed. -/
structure ScopeStack.Grown (s t : ScopeStack) : Prop extends s.SamePlace t where
  declarations : ∃ gained : List Function,
    t.current.declarations = s.current.declarations ++ gained.map .function
  children : s.current.children <+: t.current.children

namespace ScopeStack

theorem SamePlace.depth {s t : ScopeStack} (h : s.SamePlace t) : t.depth = s.depth := by
  rw [ScopeStack.depth, h.enclosing, ScopeStack.depth]

theorem SamePlace.refl (s : ScopeStack) : s.SamePlace s :=
  ⟨rfl, rfl, rfl⟩

theorem SamePlace.trans {s t u : ScopeStack} (h : s.SamePlace t) (k : t.SamePlace u) :
    s.SamePlace u :=
  ⟨k.owner.trans h.owner, k.serial.trans h.serial, k.enclosing.trans h.enclosing⟩

theorem SamePlace.declare (s : ScopeStack) (d : Declaration) : s.SamePlace (s.declare d) :=
  ⟨rfl, rfl, rfl⟩

theorem Grown.refl (s : ScopeStack) : s.Grown s where
  toSamePlace := .refl s
  declarations := ⟨[], by simp⟩
  children := List.prefix_rfl

theorem Grown.trans {s t u : ScopeStack} (h : s.Grown t) (k : t.Grown u) : s.Grown u where
  toSamePlace := h.toSamePlace.trans k.toSamePlace
  declarations := by
    obtain ⟨fs, hfs⟩ := h.declarations
    obtain ⟨gs, hgs⟩ := k.declarations
    exact ⟨fs ++ gs, by rw [hgs, hfs, List.map_append, List.append_assoc]⟩
  children := h.children.trans k.children

theorem Grown.declare (s : ScopeStack) (f : Function) : s.Grown (s.declare (.function f)) where
  toSamePlace := .declare s _
  declarations := ⟨[f], rfl⟩
  children := List.prefix_rfl

theorem Grown.addChild (s : ScopeStack) (child : Scope) :
    s.Grown { s with current := s.current.addChild child } where
  toSamePlace := ⟨rfl, rfl, rfl⟩
  declarations := ⟨[], by simp [Scope.addChild]⟩
  children := List.prefix_append _ _

/-- A declaration with a scope behind it, in whose place another one is put. -/
theorem redeclare_addChild_declare (s : ScopeStack) (d e : Declaration) (child : Scope) :
    { s.declare d with current := (s.declare d).current.addChild child }.redeclare e =
      { s.declare e with current := (s.declare e).current.addChild child } := by
  simp [redeclare, ScopeStack.declare, Scope.declare, Scope.addChild]

/-- Where a body that ran in a scope of its own has ended in that scope, the scope is closed. -/
theorem SamePlace.leave {s t : ScopeStack} {owner : Owner} {serial : Nat}
    (h : (s.enter owner serial).SamePlace t) :
    t.leave owner serial = .ok { s with current := s.current.addChild t.current } := by
  have howner : t.current.owner = some owner := h.owner
  have hserial : t.current.serial = serial := h.serial
  have henclosing : t.enclosing = s.current :: s.enclosing := h.enclosing
  rw [ScopeStack.leave, henclosing]
  simp [howner, hserial]

end ScopeStack

namespace Session

/-- The session after the scope is left that was entered in `s` and whose body has ended in `t`. -/
def closing (s t : Session) (owner : Owner) : Session :=
  { t with scopes := { s.scopes with current := s.scopes.current.addChild t.scopes.current }
    }.record
    (.left owner s.trace.size)

/-- The session in which the body of a scope starts. -/
def opening (s : Session) (owner : Owner) : Session :=
  s.enter owner s.trace.size

/-- A body that ends in the place where it started leaves its scope behind as a child, whether it
gave a value or not, and its outcome is the outcome. -/
theorem run_inScope {α : Type} {s t : Session} {owner : Owner} {body : Lower α}
    {outcome : Except Fault α} (h : (s.opening owner).run body = (outcome, t))
    (place : (s.opening owner).scopes.SamePlace t.scopes) :
    s.run (Lower.inScope owner body) = (outcome, s.closing t owner) := by
  have left : t.leave owner s.trace.size = .ok (s.closing t owner) := by
    rw [Session.leave, place.leave]
    rfl
  cases outcome with
  | ok a =>
    rw [run_eq_ok] at h ⊢
    unfold Session.opening at h
    simp only [Lower.inScope, h, left]
  | error e =>
    rw [run_eq_error] at h ⊢
    unfold Session.opening at h
    simp only [Lower.inScope, h, left]

/-- The session with further declarations in the innermost scope. -/
def declareAll (s : Session) (ds : List Declaration) : Session :=
  { s with scopes := { s.scopes with current :=
    { s.scopes.current with declarations := s.scopes.current.declarations ++ ds } } }

theorem run_forM_declare (ps : List Parameter) (s : Session) :
    s.run (ps.forM fun p => Lower.declare (.parameter p)) =
      (.ok (), s.declareAll (ps.map .parameter)) := by
  induction ps generalizing s with
  | nil =>
    rw [List.map_nil, declareAll, List.append_nil]
    -- A scope contains scopes, so it equals its fields put together only once it is taken apart.
    obtain ⟨⟨⟨owner, serial, declarations, children⟩, enclosing⟩, collector, trace⟩ := s
    rfl
  | cons p ps ih =>
    change s.run (Lower.declare (.parameter p) >>= fun _ => ps.forM _) = _
    rw [run_bind_of_ok (t := s.declare (.parameter p)) rfl, ih]
    simp [declareAll, Session.declare, ScopeStack.declare, Scope.declare]

/-- The session in which the body of a function starts: the function is declared as it is seen from
inside, and its parameters are in a scope of its own. -/
def openingFunction (s : Session) (header : Function) : Session :=
  ((s.declare (.function header.opened)).opening (Lower.ownerOf header)).declareAll
    (header.parameters.map .parameter)

/-- The session after the scope of a function is left whose body has ended in `t`. -/
def closingFunction (s t : Session) (header : Function) : Session :=
  (s.declare (.function header)).closing t (Lower.ownerOf header)

/-- A declaration behind which a scope was closed, in whose place another one is put. -/
theorem redeclare_closing_declare (s t : Session) (d e : Declaration) (owner : Owner) :
    ((s.declare d).closing t owner).redeclare e = (s.declare e).closing t owner := by
  have scopes := s.scopes.redeclare_addChild_declare d e t.scopes.current
  unfold redeclare closing record
  dsimp only [declare]
  rw [scopes]

section
variable {s t : Session} {header : Function} {body : Lower Statement}
variable (place : (s.openingFunction header).scopes.SamePlace t.scopes)
include place

theorem run_functionBody {outcome : Except Fault Statement}
    (h : (s.openingFunction header).run body = (outcome, t)) :
    (s.declare (.function header.opened)).run (Lower.inScope (Lower.ownerOf header) (do
      header.parameters.forM fun p => Lower.declare (.parameter p)
      body)) =
      (outcome, (s.declare (.function header.opened)).closing t (Lower.ownerOf header)) := by
  refine run_inScope (t := t) ?_ ⟨place.owner, place.serial, place.enclosing⟩
  rw [run_bind_of_ok (run_forM_declare _ _)]
  exact h

theorem run_defining_of_ok {lowered : Statement}
    (h : (s.openingFunction header).run body = (.ok lowered, t)) :
    s.run (Lower.defining header body) =
      (.ok (header.withBody lowered),
        (s.closingFunction t header).redeclare (.function (header.withBody lowered))) := by
  have inside := run_orRedeclaring_of_ok (.function header) (run_functionBody place h)
  have replaced := redeclare_closing_declare s t (.function header.opened)
    (.function (header.withBody lowered)) (Lower.ownerOf header)
  unfold Lower.defining
  rw [run_bind_of_ok (t := s.declare (.function header.opened)) rfl, run_bind_of_ok inside,
    closingFunction, redeclare_closing_declare, ← replaced]
  rfl

theorem run_defining_of_error {e : Fault}
    (h : (s.openingFunction header).run body = (.error e, t)) :
    s.run (Lower.defining header body) = (.error e, s.closingFunction t header) := by
  have inside := run_orRedeclaring_of_error (.function header) (run_functionBody place h)
  unfold Lower.defining
  rw [run_bind_of_ok (t := s.declare (.function header.opened)) rfl, run_bind_of_error inside,
    redeclare_closing_declare, closingFunction]

end

end Session

end ScriptIR
