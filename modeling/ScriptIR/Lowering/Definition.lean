import ScriptIR.Lowering.Annotation
import ScriptIR.Lowering.Reading

/-!
# Function definitions

A function is registered before its body is lowered, so that it can call itself, and once more with
its body when that is known, or without one when the body is given up on. Its parameters stand in
the signature or in parameter blocks.
-/
namespace ScriptIR

mutual
/-- The parameters that a child contributes to its function: itself, or those inside a parameter
block or script block. -/
def Node.parameters (path : Path) : Node → List Site
  | ⟨attrs, children⟩ =>
    if attrs.kind = .parameter then [⟨path, ⟨attrs, children⟩⟩]
    else if attrs.kind = .paramBlock || attrs.kind = .scriptBlock then
      Node.parametersOf path 0 children
    else []

/-- The parameters among the children of the node at `path` from number `i` on. -/
def Node.parametersOf (path : Path) (i : Nat) : List Node → List Site
  | [] => []
  | child :: rest => Node.parameters (path ++ [i]) child ++ Node.parametersOf path (i + 1) rest
end

def Site.parameters (s : Site) : List Site :=
  Node.parametersOf s.path 0 s.node.children

namespace Lower

/-- A name with the sigil of parameters in front, unless it has it already. -/
def withSigil (cfg : Config) (name : String) : String :=
  if cfg.sigil.toList.isPrefixOf name.toList then name else cfg.sigil ++ name

/-- The parameter that a node declares. Its variable names it, and types it if the node does not. -/
def parameter (cfg : Config) (site : Site) (index : Int) : Lower Parameter := do
  let attrs := site.attributes
  let variableNode := site.node.children.find? (·.label.kind = .variableExpression)
  let named := match variableNode with
    | some v => v.label
    | none => attrs
  let typeText := (nonEmpty? attrs.typeText).or (variableNode.bind (·.label.typeText))
  let type ← typeOfText typeText (some site)
  pure {
    origin := site.origin, name := withSigil cfg named.identifier, type := type, index := index }

def ownerOf (f : Function) : Owner :=
  .function f.name f.origin.code

def function (cfg : Config) (site : Site) (children : List (Tree Reading)) : Lower Function := do
  let attrs := site.attributes
  unless attrs.kind = .functionDefinition do malformed (.notADefinition attrs.tag) site
  let some name := nonEmpty? attrs.name | malformed .unnamedFunction site
  let parameters ← (site.parameters.zipIdx).mapM fun p => parameter cfg p.1 p.2
  let header := Function.mk site.origin name parameters .none
  match children.find? (·.label.kind = .scriptBlock) with
  | none =>
    declare (.function header)
    pure header
  | some bodyNode =>
    declare (.function header.opened)
    let body ← orRedeclaring (.function header) <| inScope (ownerOf header) do
      parameters.forM fun p => declare (.parameter p)
      bodyNode.label.statement
    let whole := header.withBody body
    redeclare (.function whole)
    pure whole

end Lower

end ScriptIR
