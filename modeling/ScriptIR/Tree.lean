/-!
# Labelled trees

A tree with a label at every node and its subtrees in order. A place in a tree is the list of child
numbers that lead to it from the root.
-/
namespace ScriptIR

structure Tree (α : Type) where
  label : α
  children : List (Tree α)
deriving Repr

/-- The child numbers from the root of a tree to one of its nodes. -/
abbrev Path := List Nat

namespace Tree
variable {α : Type}

def isLeaf (t : Tree α) : Bool :=
  t.children.isEmpty

mutual
/-- The leaves found so far, with a childless tree behind them, or with the leaves of a
tree that has children. -/
def collectLeaf (found : List (Tree α)) : Tree α → List (Tree α)
  | ⟨label, []⟩ => found ++ [⟨label, []⟩]
  | ⟨_, child :: rest⟩ => collectLeaves (collectLeaf found child) rest

/-- The leaves found so far, with those of neighbouring trees behind them, one
tree after the other. -/
def collectLeaves (found : List (Tree α)) : List (Tree α) → List (Tree α)
  | [] => found
  | t :: rest => collectLeaves (collectLeaf found t) rest
end

/-- The childless nodes in order. A childless tree is its own only leaf. -/
def leaves (t : Tree α) : List (Tree α) :=
  if t.isLeaf then [t] else collectLeaves [] t.children

@[simp] theorem leaves_childless (label : α) : leaves ⟨label, []⟩ = [⟨label, []⟩] :=
  rfl

mutual
/-- What has been found before a tree stays in front of its leaves. -/
theorem collectLeaf_eq (found : List (Tree α)) : ∀ t, collectLeaf found t = found ++ leaves t
  | ⟨label, []⟩ => rfl
  | ⟨label, child :: rest⟩ => by
    have inside : leaves ⟨label, child :: rest⟩ = child.leaves ++ rest.flatMap leaves := by
      rw [leaves, if_neg (by simp [isLeaf]), collectLeaves, collectLeaf_eq [] child,
        List.nil_append,
        collectLeaves_eq _ rest]
    rw [collectLeaf, collectLeaf_eq found child, collectLeaves_eq _ rest, inside, List.append_assoc]

theorem collectLeaves_eq (found : List (Tree α)) :
    ∀ ts, collectLeaves found ts = found ++ ts.flatMap leaves
  | [] => by simp [collectLeaves]
  | t :: rest => by
    rw [collectLeaves, collectLeaf_eq found t, collectLeaves_eq _ rest, List.flatMap_cons,
      List.append_assoc]
end

/-- The leaves of a tree with children are those of the children, in order. -/
theorem leaves_of_children (label : α) {children : List (Tree α)} (h : children ≠ []) :
    leaves ⟨label, children⟩ = children.flatMap leaves := by
  rw [leaves, if_neg (by simpa [isLeaf] using h), collectLeaves_eq, List.nil_append]

end Tree

end ScriptIR
