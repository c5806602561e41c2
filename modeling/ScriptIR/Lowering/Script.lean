import ScriptIR.Lowering.Expressions

/-!
# Lowering a tree

`Node.readings` gives every node of a tree its reading, from the leaves up. The entry points lower a
whole tree as an expression, as a statement, or as a script, which always is a block.
-/
namespace ScriptIR

mutual
/-- The readings of the tree at `path`. -/
def Node.readings (cfg : Config) (path : Path) : Node → Tree Reading
  | ⟨attrs, children⟩ =>
    let site : Site := ⟨path, ⟨attrs, children⟩⟩
    let below := Node.readingsOf cfg path 0 children
    ⟨⟨site, Lower.expression cfg site below, Lower.statement cfg site below⟩, below⟩

/-- The readings of the children of the node at `path` from number `i` on. -/
def Node.readingsOf (cfg : Config) (path : Path) (i : Nat) : List Node → List (Tree Reading)
  | [] => []
  | child :: rest =>
    Node.readings cfg (path ++ [i]) child :: Node.readingsOf cfg path (i + 1) rest
end

/-- The readings of the children of a whole tree. -/
def Node.childReadings (cfg : Config) (n : Node) : List (Tree Reading) :=
  Node.readingsOf cfg [] 0 n.children

def lowerExpression (cfg : Config) (n : Node) : Lower Expression :=
  (n.readings cfg []).label.expression

def lowerStatement (cfg : Config) (n : Node) : Lower Statement :=
  (n.readings cfg []).label.statement

/-- The tree as a block of statements: itself if it is a block, else a block of it alone. -/
def lowerScript (cfg : Config) (n : Node) : Lower Statement := do
  match ← lowerStatement cfg n with
  | .block origin statements => pure (.block origin statements)
  | single => pure (.block (Site.root n).origin [single])

end ScriptIR
