import ScriptIR.Lowering.Reading
import ScriptIR.Proofs.Syntax.Sites
import ScriptIR.Proofs.Types.Letters

/-!
# Programs in other letters

What it means that two programs are the same but for the case of letters, relative to a relation `R`
of the nodes that they were made from. Each part of the one corresponds to a part of the other that
was made from a related node; names and texts differ in case at most, while operators, indices and
positions do not differ at all. Calls are bound to functions that correspond in the same way, so to
functions that were defined at related nodes.
-/
namespace ScriptIR

open Text (uncased)

/-- The names and the code of a node in lower case. -/
def Attributes.uncased (a : Attributes) : Attributes :=
  { a with name := a.name.map Text.uncased, code := a.code.map Text.uncased }

namespace Attributes
variable (a : Attributes)

theorem identifier_uncased : a.uncased.identifier = Text.uncased a.identifier := by
  have text : ((nonEmpty? (a.name.map Text.uncased)).or (a.code.map Text.uncased)).getD "" =
      Text.uncased (((nonEmpty? a.name).or a.code).getD "") := by
    rw [Text.nonEmpty?_uncased, ← Option.map_or]
    cases (nonEmpty? a.name).or a.code <;> rfl
  simp only [identifier, Attributes.uncased, text, Text.trim_uncased]

theorem literalText_uncased : a.uncased.literalText = Text.uncased a.literalText := by
  simp only [literalText, Attributes.uncased, Text.nonEmpty?_uncased, ← Option.map_or]
  cases (nonEmpty? a.code).or a.name <;> rfl

end Attributes

/-- The second tree is the first one with letters of names and code in another case. -/
def Node.Recased : Node → Node → Prop :=
  Tree.Rel fun a b => b.uncased = a.uncased

section
variable (R : Site → Site → Prop)

inductive Parameter.Recased : Parameter → Parameter → Prop
  | mk {site other : Site} {name name' : String} {type type' : TypeExpr} (index : Int) :
      R site other → uncased name' = uncased name → type'.uncased = type.uncased →
      Recased ⟨site.origin, name, type, index⟩ ⟨other.origin, name', type', index⟩

mutual
inductive Expression.Recased : Expression → Expression → Prop
  | literal {site other : Site} {type type' : TypeExpr} {rawText rawText' name name' : String} :
      R site other → type'.uncased = type.uncased → uncased rawText' = uncased rawText →
      uncased name' = uncased name →
      Expression.Recased (.literal site.origin type rawText name)
        (.literal other.origin type' rawText' name')
  | reference {site other : Site} {name name' : String} {type type' : TypeExpr} :
      R site other → uncased name' = uncased name → type'.uncased = type.uncased →
      Expression.Recased (.reference site.origin name type) (.reference other.origin name' type')
  | binary {site other : Site} (operator : String) {lhs lhs' rhs rhs' : Expression}
      {type type' : TypeExpr} : R site other → Expression.Recased lhs lhs' →
      Expression.Recased rhs rhs' → type'.uncased = type.uncased →
      Expression.Recased (.binary site.origin operator lhs rhs type)
        (.binary other.origin operator lhs' rhs' type')
  | unary {site other : Site} (operator : String) (isPostfix : Bool)
      {operand operand' : Expression} : R site other → Expression.Recased operand operand' →
      Expression.Recased (.unary site.origin operator isPostfix operand)
        (.unary other.origin operator isPostfix operand')
  | call {site other : Site} {callee callee' : String} {arguments arguments' : List Argument}
      {declaration declaration' : Option Function} : R site other →
        uncased callee' = uncased callee →
      List.Forall₂ Argument.Recased arguments arguments' →
      Option.Rel Function.Recased declaration declaration' →
      Expression.Recased (.call site.origin callee arguments declaration)
        (.call other.origin callee' arguments' declaration')
  | initializer {site other : Site} {type type' : TypeExpr} {elements elements' : List Expression} :
      R site other → type'.uncased = type.uncased →
      List.Forall₂ Expression.Recased elements elements' →
      Expression.Recased (.initializer site.origin type elements)
        (.initializer other.origin type' elements')
  | cast {site other : Site} {target target' : TypeExpr} {inner inner' : Expression} :
      R site other → target'.uncased = target.uncased → Expression.Recased inner inner' →
      Expression.Recased (.cast site.origin target inner) (.cast other.origin target' inner')
  | compound {site other : Site} {statement statement' : Statement} :
      R site other → Statement.Recased statement statement' →
      Expression.Recased (.compound site.origin statement) (.compound other.origin statement')
  | definition {site other : Site} {d d' : Declaration} : R site other → Declaration.Recased d d' →
      Expression.Recased (.definition site.origin d) (.definition other.origin d')
  | unknown {site other : Site} : R site other → Expression.Recased site.unknown other.unknown

/-- Arguments that correspond have the same index and the same position. -/
inductive Argument.Recased : Argument → Argument → Prop
  | mk {e e' : Expression} (index : Int) (position : Nat) : Expression.Recased e e' →
      Argument.Recased (.mk e index position) (.mk e' index position)

inductive Function.Recased : Function → Function → Prop
  | mk {site other : Site} {name name' : String} {parameters parameters' : List Parameter}
      {body body' : Body} : R site other → uncased name' = uncased name →
      List.Forall₂ (Parameter.Recased R) parameters parameters' → Body.Recased body body' →
      Function.Recased (.mk site.origin name parameters body)
        (.mk other.origin name' parameters' body')

inductive Body.Recased : Body → Body → Prop
  | none : Body.Recased .none .none
  | unfinished : Body.Recased .unfinished .unfinished
  | statement {s s' : Statement} : Statement.Recased s s' →
      Body.Recased (.statement s) (.statement s')

inductive Declaration.Recased : Declaration → Declaration → Prop
  | function {f f' : Function} : Function.Recased f f' →
      Declaration.Recased (.function f) (.function f')
  | parameter {p p' : Parameter} : Parameter.Recased R p p' →
      Declaration.Recased (.parameter p) (.parameter p')
  | plain {site other : Site} {name name' : String} : R site other → uncased name' = uncased name →
      Declaration.Recased (.plain name site.origin) (.plain name' other.origin)

inductive Statement.Recased : Statement → Statement → Prop
  | expression {site other : Site} {e e' : Expression} : R site other → Expression.Recased e e' →
      Statement.Recased (.expression site.origin e) (.expression other.origin e')
  | definition {site other : Site} {d d' : Declaration} : R site other → Declaration.Recased d d' →
      Statement.Recased (.definition site.origin d) (.definition other.origin d')
  | block {site other : Site} {statements statements' : List Statement} : R site other →
      List.Forall₂ Statement.Recased statements statements' →
      Statement.Recased (.block site.origin statements) (.block other.origin statements')
end

end

variable {R : Site → Site → Prop}

/-- Expressions that correspond have the same type, but for the case of names. -/
theorem Expression.Recased.type : ∀ {e e' : Expression}, e.Recased R e' →
    e'.type.uncased = e.type.uncased
  | _, _, .literal _ type _ _ => type
  | _, _, .reference _ _ type => type
  | _, _, .binary _ _ _ _ type => type
  | .unary _ _ _ e, .unary _ _ _ e', .unary _ _ _ operand => @Expression.Recased.type e e' operand
  | _, _, .call .. => rfl
  | _, _, .initializer _ type _ => type
  | _, _, .cast _ target _ => target
  | _, _, .compound .. => rfl
  | _, _, .definition .. => rfl
  | _, _, .unknown _ => rfl

namespace Function.Recased
variable {f g : Function} (h : f.Recased R g)
include h

theorem name : uncased g.name = uncased f.name := by
  cases h with
  | mk _ name _ _ => exact name

theorem parameters : List.Forall₂ (Parameter.Recased R) f.parameters g.parameters := by
  cases h with
  | mk _ _ parameters _ => exact parameters

theorem withBody {body body' : Statement} (hbody : body.Recased R body') :
    (f.withBody body).Recased R (g.withBody body') := by
  cases h with
  | mk hsite name parameters _ => exact .mk hsite name parameters (.statement hbody)

theorem opened : f.opened.Recased R g.opened := by
  cases h with
  | mk hsite name parameters _ => exact .mk hsite name parameters .unfinished

end Function.Recased

end ScriptIR
