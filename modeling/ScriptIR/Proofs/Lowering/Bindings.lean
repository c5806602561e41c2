import ScriptIR.Proofs.Lowering.GivingUp

/-!
# What calls are bound to

A call that is bound refers to a function that is defined in the same program, or to the header of
one whose definition was given up on. `Session.Binds` says so of the calls and the visible functions
of a run from a session with functions of its own. The main statement is `lower_calls_bound`.
-/
namespace ScriptIR

/-- A call inside the body of a function refers to that function as it is seen from there. -/
def Function.RefersTo (f g : Function) : Prop :=
  f = g ∨ f = g.opened

/-- A program defines the function, or the whole function that is seen from inside its body. -/
def Content.Defines (made : List Content) (f : Function) : Prop :=
  ∃ g, .definition g ∈ made ∧ f.RefersTo g

theorem Content.Defines.mono {xs ys : List Content} {f : Function} (h : Defines xs f)
    (sub : xs ⊆ ys) : Defines ys f := by
  obtain ⟨g, hg, refers⟩ := h
  exact ⟨g, sub hg, refers⟩

open Content (Defines)

namespace Session
variable {lost : Function → Prop}

/-- The calls that a run has made are bound to functions that were visible before, that are lost, or
that it has defined. So is every function that is visible after it. -/
structure Binds (lost : Function → Prop) (s : Session) (made : List Content)
    (t : Session) : Prop where
  calls : ∀ f, .call f ∈ made → f ∈ s.visible ∨ lost f ∨ Defines made f
  visible : ∀ f ∈ t.visible, f ∈ s.visible ∨ lost f ∨ .definition f ∈ made

namespace Binds
variable {s t u : Session} {xs ys : List Content}

theorem of_visible {made : List Content} (bare : ∀ f, .call f ∉ made)
    (kept : t.visible = s.visible) :
    Binds lost s made t where
  calls f hf := absurd hf (bare f)
  visible _ hf := .inl (kept ▸ hf)

theorem trans (first : Binds lost s xs t) (second : Binds lost t ys u) :
    Binds lost s (xs ++ ys) u where
  calls f hf := by
    rcases List.mem_append.mp hf with before | after
    · exact (first.calls f before).imp_right (.imp_right (·.mono (List.subset_append_left _ _)))
    · rcases second.calls f after with seen | gone | defined
      · refine (first.visible f seen).imp_right (.imp_right fun known => ?_)
        exact ⟨f, List.mem_append_left _ known, .inl rfl⟩
      · exact .inr (.inl gone)
      · exact .inr (.inr (defined.mono (List.subset_append_right _ _)))
  visible f hf := by
    rcases second.visible f hf with seen | gone | defined
    · exact (first.visible f seen).imp_right (.imp_right (List.mem_append_left _))
    · exact .inr (.inl gone)
    · exact .inr (.inr (List.mem_append_right _ defined))

theorem block (code : Option String) (inside : Binds lost (s.opening (.block code)) xs t) :
    Binds lost s xs (s.closing t (.block code)) where
  calls f hf := by
    have start : (s.opening (.block code)).visible = s.visible := s.scopes.visible_enter _ _
    exact start ▸ inside.calls f hf
  visible _ hf := .inl hf

/-- Inside the body the function is visible without it, and after it as a whole. -/
theorem defining {header : Function} (body : Statement)
    (inside : Binds lost (s.openingFunction header) xs t) :
    Binds lost s (.definition (header.withBody body) :: xs)
      ((s.closingFunction t header).redeclare (.function (header.withBody body))) where
  calls f hf := by
    have made : .call f ∈ xs := by simpa using hf
    rcases inside.calls f made with seen | gone | defined
    · rw [visible_openingFunction] at seen
      rcases List.mem_cons.mp seen with rfl | old
      · -- The function calls itself while its body is not known.
        exact .inr (.inr ⟨_, List.mem_cons_self, .inr rfl⟩)
      · exact .inl old
    · exact .inr (.inl gone)
    · exact .inr (.inr (defined.mono (List.subset_cons_self _ _)))
  visible f hf := by
    rw [visible_redeclare_closingFunction] at hf
    rcases List.mem_cons.mp hf with rfl | old
    · exact .inr (.inr List.mem_cons_self)
    · exact .inl old

end Binds

/-- Every step of a run binds calls in that way, where giving up leaves only
lost functions behind. -/
theorem binds_accounts : Accounts (Binds lost) (Loses lost) where
  refl _ := .of_visible (by simp) rfl
  trans := .trans
  event _ _ _ := .of_visible (by simp) rfl
  report _ _ _ := .of_visible (by simp) rfl
  unsupported _ _ _ _ := .of_visible (by simp) rfl
  recovered culprit m left := {
    calls := by simp
    visible := fun f hf => (left f hf).imp_right .inl }
  call seen := {
    calls := by
      intro g hg
      obtain ⟨rfl⟩ := List.mem_singleton.mp hg
      exact .inl seen
    visible := fun _ hf => .inl hf }
  block := .block
  declared s header := {
    calls := by simp
    visible := by
      intro f hf
      have seen : f ∈ header :: s.visible := s.scopes.visible_declare header ▸ hf
      rcases List.mem_cons.mp seen with rfl | old
      · exact .inr (.inr List.mem_cons_self)
      · exact .inl old }
  defining := .defining

end Session

/-- From any session, a call refers to a function that could be seen before or that the program
defines, or else to the header of one whose definition was given up on. -/
theorem EntryPoint.lower_binds (cfg : Config) (entry : EntryPoint) (n : Node) {s t : Session}
    {part : Part} (hrun : s.run (entry.lower cfg n) = (.ok part, t)) :
    s.Binds (fun f => ∃ site ∈ n.sites [], site.Abandons f) part.contents t := by
  have retreats : ∀ site ∈ n.sites [],
      site.Retreats (Session.Loses fun f => ∃ site ∈ n.sites [], site.Abandons f) cfg := by
    intro site hsite
    refine site.retreats_losing cfg fun p hp f abandoned => ⟨p, ?_, abandoned⟩
    exact n.sites_subset_of_mem [] site hsite hp
  obtain ⟨made, contents, binds⟩ :=
    entry.lower_gives Session.binds_accounts cfg n retreats s t part hrun
  rw [List.nil_append] at contents
  exact contents ▸ binds

/-- A tree lowered by a fresh session: every call that is bound refers to a function that is defined
in the program, unless it refers to a header that the tree leaves behind. A header is left behind
whenever a definition is lowered in whose body a function without a name stands where a statement
does: the definition is given up on, and its header can be seen from then on. -/
theorem lower_calls_bound (cfg : Config) (entry : EntryPoint) (n : Node) (files : n.FilesShown)
    (collector : Collector) :
    (∀ part t, (Session.start collector).run (entry.lower cfg n) = (.ok part, t) →
      ∀ f, .call f ∈ part.contents →
        Defines part.contents f ∨ ∃ site ∈ n.sites [], site.Abandons f) ∧
      ∀ site ∈ n.sites [], ∀ f, site.Abandons f → ∀ u : Session, u.Lenient →
        ∃ header culprit t, site.Abandons header ∧
          u.run (Lower.function cfg site (site.below cfg)) =
            (.error (.malformed .unnamedFunction culprit), t) ∧
          t.visible = header :: u.visible := by
  refine ⟨fun part t hrun f hcall => ?_, fun site hsite f abandoned u hu => ?_⟩
  · rcases (entry.lower_binds cfg n hrun).calls f hcall with seen | gone | defined
    · have empty : (Session.start collector).visible = [] := rfl
      rw [empty] at seen
      cases seen
    · exact .inr gone
    · exact .inl defined
  · exact abandoned.run cfg (files.within hsite) hu

/-- A function is given up on because of a function without a name in its body, and is called behind
that: the call is bound to its header, though no function is defined in the program. -/
theorem lower_calls_bound_abandoned :
    let cfg : Config := { ignoreCase := false }
    let definition : Node := ⟨{ kind := .functionDefinition, tag := "", name := some "f" },
      [Node.bare .scriptBlock [.bare .functionDefinition []]]⟩
    let callee : Node := ⟨{ kind := .stringConstantExpression, tag := "", name := some "f" }, []⟩
    let script := Node.bare .scriptBlock [.bare .pipeline [definition], .bare .command [callee]]
    script.FilesShown ∧ ∃ part t f,
      (Session.start {}).run (EntryPoint.script.lower cfg script) = (.ok part, t) ∧
      .call f ∈ part.contents ∧ ¬Defines part.contents f ∧
      ∃ site ∈ script.sites [], site.Abandons f := by
  intro cfg definition callee script
  have files : script.FilesShown := by decide
  obtain ⟨part, t, run, contents⟩ : ∃ part t,
      (Session.start {}).run (EntryPoint.script.lower cfg script) = (.ok part, t) ∧
      part.contents = [.unknown, .call (.mk {} "f" [] .none)] := ⟨_, _, rfl, rfl⟩
  have undefined : ¬Defines part.contents (.mk {} "f" [] .none) := by
    rw [contents]
    rintro ⟨g, hg, _⟩
    simp at hg
  have made : .call (.mk {} "f" [] .none) ∈ part.contents := by
    rw [contents]
    simp
  have bound := (lower_calls_bound cfg .script script files {}).1 part t run _ made
  exact ⟨files, part, t, _, run, made, undefined, bound.resolve_left undefined⟩

end ScriptIR
