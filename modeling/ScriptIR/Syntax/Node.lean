import ScriptIR.Syntax.Kind
import ScriptIR.Syntax.Location
import ScriptIR.Text.Blank
import ScriptIR.Tree

/-!
# Syntax trees

The tree that an external parser hands over. A node carries the parser's own tag beside its kind:
only the kind decides what becomes of the node, the tag is for messages.
-/
namespace ScriptIR

/-- What a node says of itself, apart from its children. -/
structure Attributes where
  kind : Kind
  tag : String
  code : Option String := none
  name : Option String := none
  operator : Option String := none
  unaryToken : Option String := none
  typeText : Option String := none
  location : Location := {}
deriving Repr

abbrev Node := Tree Attributes

def nonEmpty? (text : Option String) : Option String :=
  text.filter (· ≠ "")

namespace Attributes

def identifier (a : Attributes) : String :=
  Text.trim (((nonEmpty? a.name).or a.code).getD "")

def literalText (a : Attributes) : String :=
  ((nonEmpty? a.code).or a.name).getD ""

/-- Equality in all but the tag. -/
def sameValue (a b : Attributes) : Bool :=
  a.kind == b.kind && a.code == b.code && a.name == b.name && a.operator == b.operator &&
    a.unaryToken == b.unaryToken && a.typeText == b.typeText && a.location.sameValue b.location

end Attributes

namespace Node

def firstChild? (n : Node) (kind : Kind) : Option Node :=
  n.children.find? (·.label.kind = kind)

mutual
/-- Equality of trees in all but their tags. -/
def sameValue : Node → Node → Bool
  | ⟨a, cs⟩, ⟨b, ds⟩ => a.sameValue b && sameChildren cs ds

def sameChildren : List Node → List Node → Bool
  | [], [] => true
  | c :: cs, d :: ds => sameValue c d && sameChildren cs ds
  | _, _ => false
end

end Node

/-- A node of a tree together with its place there. -/
structure Site where
  path : Path
  node : Node
deriving Repr

namespace Site

def attributes (s : Site) : Attributes :=
  s.node.label

def children (s : Site) : List Site :=
  s.node.children.mapIdx fun i child => ⟨s.path ++ [i], child⟩

def root (n : Node) : Site :=
  ⟨[], n⟩

end Site

end ScriptIR
