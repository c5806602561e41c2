import ScriptIR.Lowering.Session

/-!
# Readings of a syntax tree

A node can be lowered where an expression stands and where a statement stands. Its reading says what
happens in either case. The readings of a tree form a tree of the same shape, so a node may be
lowered through any node above it without a second walk over the syntax.
-/
namespace ScriptIR

structure Reading where
  site : Site
  expression : Lower Expression
  statement : Lower Statement

namespace Reading

def kind (r : Reading) : Kind :=
  r.site.attributes.kind

end Reading

/-- The location and code that a part made from the node keeps. -/
def Site.origin (s : Site) : Origin :=
  ⟨s.attributes.location, s.attributes.code⟩

/-- What stands for a node that could not be lowered. -/
def Site.unknown (s : Site) : Expression :=
  .unknown s.origin s.attributes.code

end ScriptIR
