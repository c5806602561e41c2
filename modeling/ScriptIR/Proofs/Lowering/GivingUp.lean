import ScriptIR.Proofs.Lowering.Contents
import ScriptIR.Proofs.Lowering.ParameterNames
import ScriptIR.Proofs.Lowering.Unnamed

/-!
# What a definition leaves behind when it is given up on

A function is declared before its body is lowered, and if the body is given up on, it stays
declared: its header can be seen from then on, though no function was made. `Site.Abandons` says of
a node that it leaves a header behind in that way. By `Site.retreats_losing` that is all that is
left behind where lowering gives up on a node.
-/
namespace ScriptIR

open Lower (Composed AllComposed Sure Retreats Keeps)
open Session (run_bind_of_ok visible_closingFunction)

/-- The node defines a function, of which nothing is known but its header because a function without
a name stands where a statement does in its body. -/
structure Site.Abandons (site : Site) (f : Function) : Prop where
  definition : site.attributes.kind = .functionDefinition
  name : nonEmpty? site.attributes.name = some f.name
  origin : f.origin = site.origin
  body : f.body = .none
  unnamed : ∃ culprit, Node.unnamedInBody? site.path 0 site.node.children = some culprit

/-- All functions that can be seen could be seen before, or are lost. -/
def Session.Loses (lost : Function → Prop) (s t : Session) : Prop :=
  ∀ f ∈ t.visible, f ∈ s.visible ∨ lost f

namespace Lower
open Session

/-! ### Actions that never give up -/

theorem typeOfText_sure (text : Option String) (site : Site) :
    Sure (typeOfText text (some site)) := by
  unfold typeOfText
  split
  · exact .pure _
  · split
    · exact .pure _
    · split
      · exact .pure _
      · exact (Sure.report site _).bind fun _ => .pure _

theorem typeOfNode_sure (site : Site) : Sure (typeOfNode site) := by
  unfold typeOfNode
  split
  · split
    · exact typeOfText_sure _ site
    · exact (Sure.report site _).bind fun _ => .pure _
  · exact .pure _

theorem parameters_sure (cfg : Config) (ps : List (Site × Nat)) :
    Sure (ps.mapM fun p => parameter cfg p.1 p.2) :=
  .mapM fun p _ => (typeOfText_sure _ p.1).bind fun _ => .pure _

theorem flagIndex_sure (cfg : Config) (callee : String) (candidates : List Function) (flag : Site)
    (number : Nat) : Sure (flagIndex cfg callee candidates flag number) := by
  unfold flagIndex
  dsimp only
  split
  · exact .pure _
  · exact .checked (.report flag _) fun _ => .pure _

/-- All readings of the given trees are of expressions that are never given up on. -/
def AllSure (trees : List (Tree Reading)) : Prop :=
  ∀ t ∈ trees, ∀ r ∈ t.labels, Sure r.expression

theorem AllSure.label {trees : List (Tree Reading)} (h : AllSure trees) {t : Tree Reading}
    (ht : t ∈ trees) : Sure t.label.expression :=
  h t ht _ t.label_mem_labels

theorem AllSure.subset {trees others : List (Tree Reading)} (h : AllSure trees)
    (sub : others ⊆ trees) : AllSure others :=
  fun t ht => h t (sub ht)

theorem bindArguments_sure (cfg : Config) (callee : String) (candidates : List Function)
    {items : List (Tree Reading)} (h : AllSure items) :
    Sure (bindArguments cfg callee candidates items) := by
  rw [bindArguments_eq]
  refine Sure.bind (.mapM fun slot hslot => ?_) fun _ => .pure _
  have values : ∀ value ∈ slot.values, Sure value := by
    intro value hvalue
    obtain ⟨t, ht, r, hr, rfl⟩ := (slots_from 0 items slot hslot).values value hvalue
    exact h t ht r hr
  cases slot with
  | flag site value number =>
    exact (flagIndex_sure cfg callee candidates site number).bind fun _ =>
      (values value (by simp [Slot.values])).bind fun _ => .pure _
  | block value number => exact (values value (by simp [Slot.values])).bind fun _ => .pure _
  | group all => exact Sure.bind (.mapM fun value hvalue => values value hvalue) fun _ => .pure _

/-! ### Giving up -/

namespace Retreats
variable {α β : Type} {lost : Function → Prop} {cfg : Config} {known : Site → Prop}

theorem of_sure {F : Session → Session → Prop} {m : Lower α} (h : Sure m) : Retreats F m := by
  intro s t f culprit hrun
  exact absurd (congrArg Prod.fst hrun) (h s f culprit)

theorem malformed (m : Malformation) (site : Site) :
    Retreats (Loses lost) (malformed m site : Lower α) := by
  intro s t f culprit hrun
  cases hrun
  exact fun _ => .inl

theorem before {F : Session → Session → Prop} {m : Lower α} {f : α → Lower β} (h : Retreats F m)
    (k : ∀ a, Sure (f a)) : Retreats F (m >>= f) := by
  intro s t g culprit hrun
  cases hm : s.run m with
  | mk outcome u =>
    cases outcome with
    | ok a =>
      rw [run_bind_of_ok hm] at hrun
      exact absurd (congrArg Prod.fst hrun) (k a u g culprit)
    | error e =>
      rw [run_bind_of_error hm] at hrun
      cases hrun
      exact h s t g culprit hm

theorem after {m : Lower α} {f : α → Lower β} (sure : Sure m) (kept : Keeps Session.visible m)
    (k : ∀ a, Retreats (Loses lost) (f a)) : Retreats (Loses lost) (m >>= f) := by
  intro s t g culprit hrun
  have before := kept s
  cases hm : s.run m with
  | mk outcome u =>
    cases outcome with
    | ok a =>
      rw [run_bind_of_ok hm] at hrun
      rw [hm] at before
      intro f hf
      exact (k a u t g culprit hrun f hf).imp_left (before ▸ ·)
    | error e =>
      rw [run_bind_of_error hm] at hrun
      cases hrun
      exact absurd (congrArg Prod.fst hm) (sure s g culprit)

theorem checked {c : Prop} [Decidable c] (m : Malformation) (site : Site) {f : Unit → Lower α}
    (k : c → Retreats (Loses lost) (f ())) :
    Retreats (Loses lost) (if c then f () else Lower.malformed m site >>= f) := by
  split
  next holds => exact k holds
  · intro s t g culprit hrun
    cases hrun
    exact fun _ => .inl

/-- The scope of a block is left, and with it all that was declared there. -/
theorem inBlock {code : Option String} {body : Lower α} (composed : Composed cfg known body) :
    Retreats (Loses lost) (inScope (.block code) body) := by
  intro s t f culprit hrun
  cases hbody : (s.opening (.block code)).run body with
  | mk outcome u =>
    rw [composed.run_inBlock hbody] at hrun
    cases hrun
    exact fun _ => .inl

/-- If the body of a function is given up on, its header stays. -/
theorem defining {header : Function} {body : Lower Statement} (composed : Composed cfg known body)
    (h : ¬Sure body → lost header) : Retreats (Loses lost) (defining header body) := by
  intro s t f culprit hrun
  cases hbody : (s.openingFunction header).run body with
  | mk outcome u =>
    cases outcome with
    | ok lowered =>
      rw [composed.run_defining_of_ok hbody] at hrun
      cases hrun
    | error e =>
      rw [composed.run_defining_of_error hbody] at hrun
      cases hrun
      have gives_up : ¬Sure body := fun sure =>
        sure (s.openingFunction header) f culprit (congrArg Prod.fst hbody)
      intro g hg
      rw [visible_closingFunction] at hg
      rcases List.mem_cons.mp hg with rfl | old
      · exact .inr (h gives_up)
      · exact .inl old

end Retreats

/-! ### Bodies that are never given up on -/

section
variable {cfg : Config} {known : Site → Prop} {children : List (Tree Reading)}

theorem blockOf_sure (site : Site) (composed : AllComposed cfg known children)
    (h : ∀ child ∈ children, Sure child.label.statement) : Sure (blockOf site children) := by
  have body : Composed cfg known (children.mapM (·.label.statement)) :=
    .mapM fun child hchild => (composed.label hchild).statement
  exact ((Sure.mapM h).inBlock body).bind fun _ => .pure _

theorem function_sure (cfg : Config) {site : Site} (composed : AllComposed cfg known children)
    (kind : site.attributes.kind = .functionDefinition) {name : String}
    (named : nonEmpty? site.attributes.name = some name)
    (h : ∀ body, children.find? (·.label.kind = .scriptBlock) = some body →
      Sure body.label.statement) : Sure (function cfg site children) := by
  unfold function
  dsimp only
  rw [if_pos kind, named]
  refine (parameters_sure cfg _).bind fun ps => ?_
  cases hbody : children.find? (·.label.kind = .scriptBlock) with
  | none => exact fun _ _ _ absurd => by cases absurd
  | some body =>
    exact Sure.defining (composed.label (List.mem_of_find?_eq_some hbody)).statement (h body hbody)

end

end Lower

namespace Node
variable (cfg : Config)

mutual
/-- A statement in which no function without a name stands where a statement does is never given up
on. -/
theorem statement_sure (path : Path) : ∀ n : Node, n.unnamedFunction? path = none →
    Sure (n.readings cfg path).label.statement
  | ⟨attrs, children⟩, named => by
    have composed := readingsOf_composed cfg path 0 children fun _ (_ : _) => trivial
    rw [readings]
    rw [unnamedFunction?] at named
    change Sure (Lower.statement cfg ⟨path, ⟨attrs, children⟩⟩ _)
    unfold Lower.statement
    rw [Site.attributes_mk]
    by_cases block : attrs.kind.isBlock = true
    · rw [if_pos block] at named ⊢
      have kept := List.filter_sublist (p := fun t : Tree Reading => t.label.kind ≠ .paramBlock)
        (l := readingsOf cfg path 0 children)
      exact Lower.blockOf_sure _ (composed.subset kept.subset) fun child hchild =>
        statements_sure path 0 children named child (kept.subset hchild)
    · rw [if_neg block] at named ⊢
      by_cases definition : attrs.kind = .functionDefinition
      · rw [if_pos definition] at named ⊢
        refine Sure.bind ?_ fun _ => .pure _
        cases name : nonEmpty? attrs.name with
        | none => simp [name] at named
        | some own =>
          rw [name] at named
          exact Lower.function_sure cfg composed definition name (body_sure path 0 children named)
      · -- An expression takes care of all that is malformed below it, so nothing is asked of it.
        rw [if_neg definition]
        exact (Lower.expression_sure cfg _ _).bind fun _ => .pure _

theorem statements_sure (path : Path) (i : Nat) : ∀ children : List Node,
    unnamedAmong? path i children = none →
    ∀ child ∈ readingsOf cfg path i children, Sure child.label.statement
  | [], _ => fun _ hchild => absurd hchild List.not_mem_nil
  | child :: rest, named => by
    rw [unnamedAmong?, Option.or_eq_none_iff] at named
    rw [readingsOf]
    exact List.forall_mem_cons.mpr ⟨statement_sure (path ++ [i]) child named.1,
      statements_sure path (i + 1) rest named.2⟩

theorem body_sure (path : Path) (i : Nat) : ∀ children : List Node,
    unnamedInBody? path i children = none →
    ∀ body, (readingsOf cfg path i children).find? (·.label.kind = .scriptBlock) = some body →
      Sure body.label.statement
  | [], _, body, hbody => by
    rw [readingsOf] at hbody
    cases hbody
  | child :: rest, named, body, hbody => by
    rw [readingsOf, List.find?_cons, readings_kind] at hbody
    rw [unnamedInBody?] at named
    by_cases h : child.label.kind = .scriptBlock
    · rw [if_pos h] at named
      rw [decide_eq_true h] at hbody
      exact Option.some.inj hbody ▸ statement_sure (path ++ [i]) child named
    · rw [if_neg h] at named
      rw [decide_eq_false h] at hbody
      exact body_sure path (i + 1) rest named body hbody
end

end Node

/-! ### Nodes by kind -/

namespace Lower
variable {lost : Function → Prop} {site : Site}

section
variable {children : List (Tree Reading)} (sure : AllSure children)
include sure

theorem wrapper_retreats : Retreats (Session.Loses lost) (wrapper site children) := by
  cases children with
  | nil => exact .malformed _ _
  | cons first rest =>
    have lowered := sure.label (t := first) List.mem_cons_self
    exact .of_sure (.checked (.report site _) fun _ => lowered)

theorem command_retreats (cfg : Config) :
    Retreats (Session.Loses lost) (command cfg site children) := by
  unfold command
  split
  · exact .malformed _ _
  next callee items =>
    have call : ∀ name (candidates : List Function), Sure (do
        let arguments ← bindArguments cfg name candidates items
        pure (Expression.call site.origin name arguments candidates.head?)) := by
      intro name candidates
      have arguments := bindArguments_sure cfg name candidates
        (sure.subset (List.subset_cons_self callee items))
      exact arguments.bind fun _ => .pure _
    have resolved : ∀ name, Sure (resolve cfg site name) := fun _ _ _ _ absurd => by cases absurd
    refine .checked _ _ fun _ => .of_sure ((resolved _).bind fun candidates => ?_)
    split
    · exact (Sure.report site _).bind fun _ => call _ _
    · exact call _ _
    · exact (Sure.report site _).bind fun _ => call _ _

theorem binary_retreats : Retreats (Session.Loses lost) (binary site children) := by
  unfold binary
  split
  · split
    next left right =>
      have lhs := sure.label (t := left) (by simp)
      have rhs := sure.label (t := right) (by simp)
      exact .of_sure (lhs.bind fun _ => rhs.bind fun _ => .pure _)
    · exact .malformed _ _
  · exact .malformed _ _

theorem unary_retreats : Retreats (Session.Loses lost) (unary site children) := by
  unfold unary
  dsimp only
  split
  · split
    · exact .malformed _ _
    · exact .of_sure ((sure.label List.mem_cons_self).bind fun _ => .pure _)
  · exact .malformed _ _

theorem array_sure : Sure (array site children) := by
  refine (typeOfText_sure _ site).bind fun _ =>
    .bind (.mapM fun value hvalue => ?_) fun _ => .pure _
  obtain ⟨item, hitem, hleaf⟩ := List.mem_flatMap.mp hvalue
  obtain ⟨r, hr, rfl⟩ := mem_labels_of_mem_valueLeaves hleaf
  exact sure item hitem r hr

theorem cast_retreats : Retreats (Session.Loses lost) (cast site children) := by
  unfold cast
  split
  next typeNode operand =>
    have inner := sure.label (t := operand) (by simp)
    have finish : ∀ target, Sure (do
        let inner ← operand.label.expression
        pure (Expression.cast site.origin target inner)) := fun _ => inner.bind fun _ => .pure _
    dsimp only
    split
    · exact .of_sure ((typeOfText_sure _ site).bind finish)
    · exact .of_sure ((typeOfNode_sure _).bind finish)
  · exact .malformed _ _

end

theorem literal_sure (cfg : Config) (site : Site) : Sure (literal cfg site) := by
  unfold literal
  dsimp only
  split
  · exact .pure _
  · exact (Sure.report site _).bind fun _ => .pure _

section
variable {cfg : Config} {known : Site → Prop} {children : List (Tree Reading)}
variable (composed : AllComposed cfg known children)
include composed

theorem blockOf_retreats (site : Site) : Retreats (Session.Loses lost) (blockOf site children) := by
  have body : Composed cfg known (children.mapM (·.label.statement)) :=
    .mapM fun child hchild => (composed.label hchild).statement
  exact (Retreats.inBlock body).before fun _ => .pure _

theorem block_retreats (site : Site) : Retreats (Session.Loses lost) (block site children) :=
  blockOf_retreats (composed.subset List.filter_sublist.subset) site

theorem pipeline_retreats (sure : AllSure children) :
    Retreats (Session.Loses lost) (pipeline site children) := by
  unfold pipeline
  split
  · exact .malformed _ _
  · exact .of_sure (sure.label List.mem_cons_self)
  · exact (block_retreats composed site).before fun _ => .pure _

/-- A script block of one statement is given up on as that statement is. -/
theorem scriptBlock_retreats
    (h : ∀ only ∈ children, Retreats (Session.Loses lost) only.label.statement) :
    Retreats (Session.Loses lost) (scriptBlock site children) := by
  unfold scriptBlock
  split
  · exact .malformed _ _
  · exact (h _ List.mem_cons_self).before fun _ => .pure _
  · exact (blockOf_retreats composed site).before fun _ => .pure _

end

section
variable (cfg : Config) (h : ∀ f, site.Abandons f → lost f)
include h

/-- What stays of a definition that is given up on is its header, if the body was given up on. -/
theorem function_retreats :
    Retreats (Session.Loses lost) (function cfg site (site.below cfg)) := by
  unfold function
  refine Retreats.checked _ _ fun kind => ?_
  split
  next name named =>
    refine Retreats.after (parameters_sure cfg _) (parameters_keep cfg site _ fun _ _ _ => rfl)
      fun ps => ?_
    cases hbody : (site.below cfg).find? (·.label.kind = .scriptBlock) with
    | none => exact .of_sure fun _ _ _ absurd => by cases absurd
    | some body =>
      have composed := (site.below_composed cfg).label (List.mem_of_find?_eq_some hbody)
      refine Retreats.defining composed.statement fun unsure => h _ ⟨kind, named, rfl, rfl, ?_⟩
      refine Option.ne_none_iff_exists'.mp fun clean => unsure ?_
      exact Node.body_sure cfg site.path 0 site.node.children clean body hbody
  · exact .malformed _ _

theorem statement_retreats :
    Retreats (Session.Loses lost) (statement cfg site (site.below cfg)) := by
  unfold statement
  split
  · exact block_retreats (site.below_composed cfg) site
  · split
    · exact (function_retreats cfg h).before fun _ => .pure _
    · exact .of_sure ((expression_sure cfg site _).bind fun _ => .pure _)

end

end Lower

/-- A definition that leaves its header behind is given up on whenever it is lowered, and the header
is in front of the visible functions then. -/
theorem Site.Abandons.run (cfg : Config) {site : Site} {f : Function} (h : site.Abandons f)
    (shown : ∀ p ∈ site.within, p.Shown) {u : Session} (hu : u.Lenient) :
    ∃ header culprit t, site.Abandons header ∧
      u.run (Lower.function cfg site (site.below cfg)) =
        (.error (.malformed .unnamedFunction culprit), t) ∧
      t.visible = header :: u.visible := by
  obtain ⟨culprit, unnamed⟩ := h.unnamed
  have parameters : ∀ p ∈ site.parameters, p.Shown := fun p hp =>
    shown p (site.parameters_subset_within hp)
  have below : ∀ s ∈ Node.sitesOf site.path 0 site.node.children, s.Shown := fun s hs =>
    shown s (site.within_eq ▸ List.mem_cons_of_mem _ hs)
  obtain ⟨ps, v, before, hv⟩ := (Lower.parameters_giveUpAt cfg parameters).value hu
  have kept := Lower.parameters_keep cfg site Session.visible (fun _ _ _ => rfl) u
  rw [before] at kept
  cases hbody : (site.below cfg).find? (·.label.kind = .scriptBlock) with
  | none =>
    have clean := Node.unnamedInBody?_of_no_body cfg site.path 0 site.node.children hbody
    rw [clean] at unnamed
    cases unnamed
  | some body =>
    have composed := ((site.below_composed cfg).label (List.mem_of_find?_eq_some hbody)).statement
    have gives_up := Node.body_givesUpAt cfg site.path 0 site.node.children below body hbody
    rw [unnamed] at gives_up
    let header := Function.mk site.origin f.name ps .none
    have start : (v.openingFunction header).Lenient := hv
    obtain ⟨w, inside⟩ := gives_up.error start
    refine ⟨header, culprit, v.closingFunction w header,
      ⟨h.definition, h.name, rfl, rfl, h.unnamed⟩, ?_, ?_⟩
    · unfold Lower.function
      dsimp only
      rw [if_pos h.definition, h.name, run_bind_of_ok before, hbody]
      exact composed.run_defining_of_error inside
    · rw [visible_closingFunction, kept]

/-- Where the handler of a node gives up, all that can be seen more than before are headers of
functions whose definitions within the node were given up on. -/
theorem Site.retreats_losing (cfg : Config) {site : Site} {lost : Function → Prop}
    (h : ∀ s ∈ site.within, ∀ f, s.Abandons f → lost f) :
    site.Retreats (Session.Loses lost) cfg := by
  have composed := site.below_composed cfg
  have sure : Lower.AllSure (site.below cfg) := by
    intro t ht r hr
    obtain ⟨p, _, rfl⟩ := site.reading_of_mem_below t ht r hr
    rw [p.reading_eq]
    exact Lower.expression_sure cfg p _
  have statements : ∀ child ∈ site.below cfg,
      Lower.Retreats (Session.Loses lost) child.label.statement := by
    intro child hchild
    obtain ⟨p, hp, same⟩ := site.reading_of_mem_below child hchild _ child.label_mem_labels
    rw [same, p.reading_eq]
    exact Lower.statement_retreats cfg (h p hp)
  have own := Lower.function_retreats cfg (h site site.mem_within)
  -- Only a definition, also one that is alone in a script block, leaves anything behind. The other
  -- kinds give up before they have lowered a child, or leave the scope in which they have.
  intro handler hhandler
  unfold Lower.expressionOf? at hhandler
  split at hhandler
  all_goals cases hhandler
  all_goals first
    | exact Lower.wrapper_retreats sure
    | exact Lower.pipeline_retreats composed sure
    | exact Lower.scriptBlock_retreats composed statements
    | exact Lower.command_retreats sure cfg
    | exact .of_sure ((Lower.typeOfText_sure _ site).bind fun _ => .pure _)
    | exact (Lower.block_retreats composed site).before fun _ => .pure _
    | exact Lower.binary_retreats sure
    | exact Lower.unary_retreats sure
    | exact .of_sure (Lower.literal_sure cfg site)
    | exact own.before fun _ => .pure _
    | exact .of_sure (Lower.array_sure sure)
    | exact Lower.cast_retreats sure
    | exact .of_sure ((Sure.report site _).bind fun _ => .pure _)

end ScriptIR
