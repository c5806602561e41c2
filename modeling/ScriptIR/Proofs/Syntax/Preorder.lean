import ScriptIR.Proofs.Syntax.Sites

/-!
# Places in order

Places are compared as lists of child numbers: a node comes before those below it, and these before
the nodes below a sibling further right. The nodes of a tree stand in that order, so no two of them
have the same place.
-/
namespace ScriptIR

/-- A place below a child comes before every place below a child further right. -/
theorem Path.lt_of_child_lt {path p q : Path} {i j : Nat} (h : i < j)
    (hp : path ++ [i] <+: p) (hq : path ++ [j] <+: q) : p < q := by
  obtain ⟨x, rfl⟩ := hp
  obtain ⟨y, rfl⟩ := hq
  rw [List.append_assoc, List.append_assoc]
  exact List.append_left_lt (List.cons_lt_cons_iff.mpr (.inl h))

/-- A place comes before every place below it. -/
theorem Path.lt_of_child {path q : Path} {j : Nat} (hq : path ++ [j] <+: q) : path < q := by
  obtain ⟨y, rfl⟩ := hq
  have below : path ++ [] < path ++ ([j] ++ y) := List.append_left_lt (List.nil_lt_cons _ _)
  rwa [List.append_nil, ← List.append_assoc] at below

namespace Node

mutual
theorem prefix_of_mem_sites (path : Path) : ∀ n : Node, ∀ s ∈ sites path n, path <+: s.path
  | ⟨attrs, children⟩, s, hs => by
    rw [sites] at hs
    rcases List.mem_cons.mp hs with rfl | hbelow
    · exact List.prefix_rfl
    · obtain ⟨j, _, hj⟩ := prefix_of_mem_sitesOf path 0 children s hbelow
      exact (List.prefix_append path [j]).trans hj

theorem prefix_of_mem_sitesOf (path : Path) (i : Nat) : ∀ children : List Node,
    ∀ s ∈ sitesOf path i children, ∃ j, i ≤ j ∧ path ++ [j] <+: s.path
  | [], s, hs => absurd hs List.not_mem_nil
  | child :: rest, s, hs => by
    rw [sitesOf] at hs
    rcases List.mem_append.mp hs with hfirst | hrest
    · exact ⟨i, Nat.le_refl i, prefix_of_mem_sites (path ++ [i]) child s hfirst⟩
    · obtain ⟨j, hij, hj⟩ := prefix_of_mem_sitesOf path (i + 1) rest s hrest
      exact ⟨j, by omega, hj⟩
end

mutual
/-- The nodes of a tree stand in the order of their places. -/
theorem sites_pairwise_lt (path : Path) : ∀ n : Node,
    (sites path n).Pairwise fun s t => s.path < t.path
  | ⟨attrs, children⟩ => by
    rw [sites, List.pairwise_cons]
    refine ⟨fun s hs => ?_, sitesOf_pairwise_lt path 0 children⟩
    obtain ⟨j, _, hj⟩ := prefix_of_mem_sitesOf path 0 children s hs
    exact Path.lt_of_child hj

theorem sitesOf_pairwise_lt (path : Path) (i : Nat) : ∀ children : List Node,
    (sitesOf path i children).Pairwise fun s t => s.path < t.path
  | [] => by
    rw [sitesOf]
    exact .nil
  | child :: rest => by
    rw [sitesOf, List.pairwise_append]
    have first := sites_pairwise_lt (path ++ [i]) child
    have others := sitesOf_pairwise_lt path (i + 1) rest
    refine ⟨first, others, fun s hs t ht => ?_⟩
    have here := prefix_of_mem_sites (path ++ [i]) child s hs
    obtain ⟨j, hij, there⟩ := prefix_of_mem_sitesOf path (i + 1) rest t ht
    exact Path.lt_of_child_lt (by omega) here there
end

end Node

end ScriptIR
