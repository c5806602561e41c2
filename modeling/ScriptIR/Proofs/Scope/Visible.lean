import ScriptIR.Proofs.Scope.Growth

/-!
# Visible functions

What the open scopes mean for a call is one list: the functions in them, those of inner scopes first
and the newer ones of a scope first. Looking up a name picks its functions out of that list, and the
list knows nothing of scopes: entering and leaving one does not change it, and a function that is
declared comes to stand in front.
-/
namespace ScriptIR

/-- The functions of a scope, the newest first. -/
def Scope.visible (s : Scope) : List Function :=
  s.declarations.reverse.filterMap Declaration.function?

namespace ScopeStack

/-- The functions of the open scopes, the innermost scope first and the newest of a scope first. -/
def visible (s : ScopeStack) : List Function :=
  (s.current :: s.enclosing).flatMap Scope.visible

/-- One scope with the given functions, of which the first is the newest. -/
def showing (fs : List Function) : ScopeStack where
  current := { declarations := fs.reverse.map .function }

end ScopeStack

theorem Scope.functions_eq_filter (cfg : Config) (s : Scope) (name : String) :
    s.functions cfg name = s.visible.filter fun f => cfg.key f.name == cfg.key name := by
  unfold Scope.functions Scope.visible Scope.lookup
  rw [← List.filter_reverse, List.filterMap_filter, List.filter_filterMap]
  congr 1
  funext d
  cases d <;> simp [Declaration.function?, Declaration.name, Option.filter]

namespace ScopeStack
variable (s : ScopeStack)

/-- A name stands for the visible functions that have it. -/
theorem resolve_eq_filter (cfg : Config) (name : String) :
    s.resolve cfg name = s.visible.filter fun f => cfg.key f.name == cfg.key name := by
  rw [resolve, visible, List.filter_flatMap]
  simp only [Scope.functions_eq_filter]

@[simp] theorem visible_showing (fs : List Function) : (showing fs).visible = fs := by
  simp [visible, showing, Scope.visible, ← List.map_reverse, Declaration.function?,
    Function.comp_def]

@[simp] theorem visible_enter (owner : Owner) (serial : Nat) :
    (s.enter owner serial).visible = s.visible := by
  simp [visible, enter, Scope.visible]

@[simp] theorem visible_declare (f : Function) :
    (s.declare (.function f)).visible = f :: s.visible := by
  simp [visible, ScopeStack.declare, Scope.declare, Scope.visible, Declaration.function?]

/-- A closed scope leaves no function behind. -/
@[simp] theorem visible_addChild (child : Scope) :
    visible { s with current := s.current.addChild child } = s.visible := rfl

end ScopeStack

end ScriptIR
