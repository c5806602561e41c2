import ScriptIR.Lowering.Session

/-!
# Types from syntax

Types stand in a tree as texts, or as type references with an identifier. What is no type literal is
reported and becomes the unknown type.
-/
namespace ScriptIR.Lower

/-- The type that a text denotes. A text that is absent or blank denotes the unknown type. -/
def typeOfText (text : Option String) (subject : Option Site) : Lower TypeExpr :=
  match text with
  | none => pure .unknown
  | some literal =>
    if Text.trim literal = "" then pure .unknown
    else match TypeLiteral.parse literal with
      | .ok type => pure type
      | .error e => do
        report subject (.invalidType e)
        pure .unknown

/-- The type that a node refers to: only type references do. -/
def typeOfNode (site : Site) : Lower TypeExpr :=
  if site.attributes.kind = .typeReference then
    match site.node.children.find? (·.label.kind = .identifier) with
    | some identifier => typeOfText (some identifier.label.identifier) (some site)
    | none => do
      report (some site) .noTypeIdentifier
      pure .unknown
  else pure .unknown

end ScriptIR.Lower
