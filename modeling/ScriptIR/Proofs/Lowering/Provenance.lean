import ScriptIR.Proofs.Lowering.Wrapping

/-!
# Where the parts of a program come from

Whatever is lowered from a tree keeps location and code of the nodes that it was made from.
`Lower.Returns Q m` says that `Q` holds of any value with which the action `m` can end, in whatever
session. With `Part.MadeFrom` for `Q`, each way of lowering a node shows that it copies location and
code from the node it should; the root of an expression comes from the `anchor` of the tree, which
is below the wrappers around it.
-/
namespace ScriptIR

/-- Whether a node of the kind, with so many children, is nothing but its first child where an
expression stands: wrappers are, and pipelines of one stage. -/
def Kind.passesOn (k : Kind) : (children : Nat) → Bool
  | 0 => false
  | 1 => k.isTransparent
  | _ => k.isWrapper

/-- The node that an expression is made from, below the nodes that pass on to their first child. -/
def Node.anchor (path : Path) : Node → Site
  | ⟨attrs, []⟩ => ⟨path, ⟨attrs, []⟩⟩
  | ⟨attrs, first :: rest⟩ =>
    if attrs.kind.passesOn (rest.length + 1) then Node.anchor (path ++ [0]) first
    else ⟨path, ⟨attrs, first :: rest⟩⟩

/-! ### Parts within parts -/

/-- What holds of all that is reached holds at the start, and of all that is reached
behind the first step. -/
theorem forall_reflTransGen_iff {α : Type} {r : α → α → Prop} {P : α → Prop} {a : α} :
    (∀ c, Relation.ReflTransGen r a c → P c) ↔
      P a ∧ ∀ b, r a b → ∀ c, Relation.ReflTransGen r b c → P c := by
  constructor
  · exact fun all => ⟨all a .refl, fun b step c later => all c (.head step later)⟩
  · rintro ⟨here, below⟩ c reached
    rcases Relation.ReflTransGen.cases_head reached with rfl | ⟨b, step, later⟩
    · exact here
    · exact below b step c later

namespace Part

def origin : Part → Origin
  | expression e => e.origin
  | statement s => s.origin
  | declaration d => d.origin

/-- The parts that a part is put together from directly. The declaration that a call is bound to is
no part of the call. -/
@[simp] def children : Part → List Part
  | expression (.literal ..) | expression (.reference ..) | expression (.unknown ..) => []
  | expression (.binary _ _ lhs rhs _) => [expression lhs, expression rhs]
  | expression (.unary _ _ _ operand) => [expression operand]
  | expression (.call _ _ arguments _) => arguments.map fun a => expression a.expression
  | expression (.initializer _ _ elements) => elements.map expression
  | expression (.cast _ _ inner) => [expression inner]
  | expression (.compound _ s) => [statement s]
  | expression (.definition _ d) => [declaration d]
  | statement (.expression _ e) => [expression e]
  | statement (.definition _ d) => [declaration d]
  | statement (.block _ statements) => statements.map statement
  | function (.mk _ _ parameters body) =>
    parameters.map parameter ++ body.statement?.toList.map statement
  | declaration (.parameter _) | declaration (.plain ..) => []

/-- The raw text of an unknown expression. -/
def unknownText? : Part → Option (Option String)
  | expression (.unknown _ rawText) => some rawText
  | _ => none

/-- The second part is the first one, or is below it. -/
def Within : Part → Part → Prop :=
  Relation.ReflTransGen fun p q => q ∈ p.children

/-- What holds of a part and all below it holds of the part, and of its children
and all below them. -/
theorem forall_within_iff {P : Part → Prop} {p : Part} :
    (∀ q, p.Within q → P q) ↔ P p ∧ ∀ child ∈ p.children, ∀ q, child.Within q → P q :=
  forall_reflTransGen_iff

/-- The part has location and code of a known node, and if it is unknown, its code for raw text. -/
structure ComesFrom (known : Site → Prop) (p : Part) : Prop where
  node : ∃ site, known site ∧ p.origin = site.origin
  rawText : ∀ rawText ∈ p.unknownText?, rawText = p.origin.code

/-- The part, and all parts below it, come from known nodes. -/
def MadeFrom (known : Site → Prop) (p : Part) : Prop :=
  ∀ q, p.Within q → q.ComesFrom known

section
variable {known : Site → Prop} {site : Site} {p : Part}

theorem madeFrom_iff :
    p.MadeFrom known ↔ p.ComesFrom known ∧ ∀ q ∈ p.children, q.MadeFrom known :=
  forall_within_iff

/-- A part that is made from a known node is put together from parts that are
made from known nodes. -/
theorem MadeFrom.intro (hsite : known site) (origin : p.origin = site.origin)
    (plain : p.unknownText? = none) (below : ∀ q ∈ p.children, q.MadeFrom known) :
    p.MadeFrom known :=
  madeFrom_iff.mpr ⟨⟨⟨site, hsite, origin⟩, by simp [plain]⟩, below⟩

theorem madeFrom_unknown (hsite : known site) : (expression site.unknown).MadeFrom known := by
  refine madeFrom_iff.mpr ⟨⟨⟨site, hsite, rfl⟩, ?_⟩, by simp [Site.unknown]⟩
  intro rawText same
  cases same
  rfl

end

end Part

/-! ### Values that actions end with -/

/-- The property holds of any value with which the action ends. -/
def Lower.Returns {α : Type} (Q : α → Prop) (m : Lower α) : Prop :=
  ∀ (s t : Session) (a : α), s.run m = (.ok a, t) → Q a

namespace Lower.Returns
open Session
variable {α β : Type} {Q : α → Prop} {S : β → Prop}

theorem pure {a : α} (h : Q a) : Returns Q (pure a) := by
  intro s t b run
  obtain ⟨rfl, -⟩ := run_pure_eq_ok.mp run
  exact h

theorem malformed (m : Malformation) (site : Site) : Returns Q (malformed m site : Lower α) := by
  intro s t a run
  cases run

theorem imp {Q' : α → Prop} {m : Lower α} (h : Returns Q m) (weaker : ∀ a, Q a → Q' a) :
    Returns Q' m :=
  fun s t a run => weaker a (h s t a run)

theorem bind {m : Lower α} {f : α → Lower β} (h : Returns Q m) (k : ∀ a, Q a → Returns S (f a)) :
    Returns S (m >>= f) := by
  intro s u b run
  obtain ⟨a, t, first, second⟩ := run_bind_eq_ok.mp run
  exact k a (h s t a first) t u b second

/-- What the second action ends with has the property, whatever the first one ends with. -/
theorem after {m : Lower α} {f : α → Lower β} (k : ∀ a, Returns S (f a)) : Returns S (m >>= f) := by
  intro s u b run
  obtain ⟨a, t, _, second⟩ := run_bind_eq_ok.mp run
  exact k a t u b second

theorem checked {c : Prop} [Decidable c] {m : Lower Unit} {f : Unit → Lower α}
    (k : ∀ u, Returns Q (f u)) : Returns Q (if c then f () else m >>= f) := by
  split
  · exact k ()
  · exact .after k

theorem mapM {f : α → Lower β} {as : List α} (h : ∀ a ∈ as, Returns S (f a)) :
    Returns (fun bs => ∀ b ∈ bs, S b) (as.mapM f) := by
  induction as with
  | nil => exact pure (by simp)
  | cons a as ih =>
    rw [List.mapM_cons]
    have rest := ih fun b hb => h b (List.mem_cons_of_mem _ hb)
    exact (h a List.mem_cons_self).bind fun b hb => rest.bind fun bs hbs =>
      pure (List.forall_mem_cons.mpr ⟨hb, hbs⟩)

/-- A scope around an action does not change what it ends with. -/
theorem inScope {body : Lower α} (h : Returns Q body) (owner : Owner) :
    Returns Q (inScope owner body) := by
  intro s u a run
  rw [run_eq_ok] at run
  unfold Lower.inScope at run
  dsimp only at run
  split at run
  next b t hbody =>
    split at run
    · cases run
      exact h _ t _ (run_eq_ok.mpr hbody)
    · cases run
  next => split at run <;> cases run

theorem orRedeclaring (d : Declaration) {body : Lower α} (h : Returns Q body) :
    Returns Q (orRedeclaring d body) := by
  intro s t a run
  rw [run_eq_ok] at run
  unfold Lower.orRedeclaring at run
  split at run
  next hbody =>
    cases run
    exact h s t a (run_eq_ok.mpr hbody)
  next => cases run

theorem orUnknown {site : Site} {Q : Expression → Prop} {body : Lower Expression}
    (h : Returns Q body)
    (unknown : Q site.unknown) : Returns Q (orUnknown site body) := by
  intro s
  refine run_orUnknown_of (P := fun ended => ∀ u e, ended = (.ok e, u) → Q e) (h s) ?_
  intro m culprit t _ u e run
  exact after (fun _ => pure unknown) t u e run

/-- What never gives up is never replaced. -/
theorem orUnknown_of_sure {site : Site} {Q : Expression → Prop} {body : Lower Expression}
    (h : Returns Q body) (sure : Sure body) : Returns Q (Lower.orUnknown site body) := by
  intro s t e run
  rw [sure.run_orUnknown] at run
  exact h s t e run

end Lower.Returns

/-! ### Parameters and arguments -/

open ScriptIR.Part (MadeFrom)

def Site.passesOn (s : Site) : Bool :=
  s.attributes.kind.passesOn s.node.children.length

/-- The action ends with parts that are made from known nodes. -/
def Lower.Makes {α : Type} (known : Site → Prop) (part : α → Part) (m : Lower α) : Prop :=
  Returns (fun a => (part a).MadeFrom known) m

/-- The action ends with expressions that are made from known nodes, and at the root from this one,
unless it passes on to its first child. -/
def Lower.MakesAt (known : Site → Prop) (site : Site) (m : Lower Expression) : Prop :=
  Returns (fun e => (Part.expression e).MadeFrom known ∧
    (site.passesOn = false → e.origin = site.origin)) m

/-- What a reading ends with is made from known nodes, and from its own node at the root. -/
structure Reading.Makes (known : Site → Prop) (r : Reading) : Prop where
  expression : Lower.MakesAt known r.site r.expression
  statement : Lower.Makes known .statement r.statement

namespace Lower
variable {known : Site → Prop}

theorem MakesAt.makes {site : Site} {m : Lower Expression} (h : MakesAt known site m) :
    Makes known .expression m :=
  h.imp fun _ made => made.1

/-- What the readings of the given trees end with is made from known nodes. -/
def AllMake (known : Site → Prop) (trees : List (Tree Reading)) : Prop :=
  ∀ t ∈ trees, ∀ r ∈ t.labels, r.Makes known

namespace AllMake
variable {trees others : List (Tree Reading)}

theorem expression (h : AllMake known trees) {t : Tree Reading} (ht : t ∈ trees) :
    Makes known .expression t.label.expression :=
  (h t ht _ t.label_mem_labels).expression.makes

theorem statement (h : AllMake known trees) {t : Tree Reading} (ht : t ∈ trees) :
    Makes known .statement t.label.statement :=
  (h t ht _ t.label_mem_labels).statement

theorem subset (h : AllMake known trees) (sub : others ⊆ trees) : AllMake known others :=
  fun t ht => h t (sub ht)

end AllMake

theorem parameter_makes (cfg : Config) {site : Site} (hsite : known site) (index : Int) :
    Makes known .parameter (parameter cfg site index) :=
  .after fun _ => .pure (.intro hsite rfl rfl (by simp))

theorem slots_make (i : Nat) {items : List (Tree Reading)} (h : AllMake known items) :
    ∀ slot ∈ slots i items, ∀ value ∈ slot.values, Makes known .expression value := by
  intro slot hslot value hvalue
  obtain ⟨t, ht, r, hr, rfl⟩ := (slots_from i items slot hslot).values value hvalue
  exact (h t ht r hr).expression.makes

theorem lowerSlot_makes (cfg : Config) (callee : String) (candidates : List Function) {slot : Slot}
    (h : ∀ value ∈ slot.values, Makes known .expression value) :
    Returns (fun group => ∀ share ∈ group, (Part.expression share.1).MadeFrom known)
      (lowerSlot cfg callee candidates slot) := by
  cases slot with
  | flag site value number =>
    have lowered := h value (by simp [Slot.values])
    exact .after fun _ => lowered.bind fun e made => .pure (by simpa using made)
  | block value number =>
    have lowered := h value (by simp [Slot.values])
    exact lowered.bind fun e made => .pure (by simpa using made)
  | group values =>
    refine (Returns.mapM h).bind fun es made => .pure fun share hshare => ?_
    obtain ⟨i, hi, rfl⟩ := List.mem_mapIdx.mp hshare
    exact made _ (List.getElem_mem hi)

theorem bindArguments_makes (cfg : Config) (callee : String) (candidates : List Function)
    {items : List (Tree Reading)} (h : AllMake known items) :
    Returns (fun arguments => ∀ a ∈ arguments, (Part.expression a.expression).MadeFrom known)
      (bindArguments cfg callee candidates items) := by
  have slots : ∀ slot ∈ slots 0 items, Returns
      (fun group => ∀ share ∈ group, (Part.expression share.1).MadeFrom known)
      (lowerSlot cfg callee candidates slot) :=
    fun slot hslot => lowerSlot_makes cfg callee candidates (slots_make 0 h slot hslot)
  rw [bindArguments_eq]
  refine (Returns.mapM slots).bind fun groups made => .pure fun a ha => ?_
  obtain ⟨i, hi, rfl⟩ := List.mem_mapIdx.mp ha
  obtain ⟨group, hgroup, hshare⟩ := List.mem_flatten.mp (List.getElem_mem hi)
  exact made group hgroup _ hshare

/-! ### Nodes by kind -/

/-- An expression with location and code of the node, put together from what is
made from known nodes. -/
theorem root_makes {site : Site} (hsite : known site) {e : Expression}
    (origin : e.origin = site.origin)
    (plain : (Part.expression e).unknownText? = none)
    (below : ∀ q ∈ (Part.expression e).children, q.MadeFrom known) : MakesAt known site (pure e) :=
  .pure ⟨.intro hsite origin plain below, fun _ => origin⟩

section
variable (cfg : Config) {site : Site} {children : List (Tree Reading)} (hsite : known site)
include hsite

theorem unknown_makes : MakesAt known site (pure site.unknown) :=
  .pure ⟨Part.madeFrom_unknown hsite, fun _ => rfl⟩

theorem compound_makes {statement : Lower Statement} (h : Makes known .statement statement) :
    MakesAt known site (compound site statement) :=
  h.bind fun _ made => root_makes hsite rfl rfl (by simpa using made)

theorem reference_makes : MakesAt known site (reference site) :=
  .after fun _ => root_makes hsite rfl rfl (by simp)

theorem literal_makes : MakesAt known site (literal cfg site) := by
  unfold literal
  dsimp only
  split
  · exact root_makes hsite rfl rfl (by simp)
  · exact .after fun _ => root_makes hsite rfl rfl (by simp)

theorem memberAccess_makes : MakesAt known site (memberAccess site) :=
  .after fun _ => unknown_makes hsite

variable (h : AllMake known children)
include h

theorem blockOf_makes : Makes known .statement (blockOf site children) := by
  have lowered := Returns.mapM fun child hchild => h.statement (t := child) hchild
  refine (lowered.inScope _).bind fun statements made => .pure (.intro hsite rfl rfl ?_)
  simpa using made

theorem block_makes : Makes known .statement (block site children) :=
  blockOf_makes hsite (h.subset List.filter_sublist.subset)

theorem scriptBlock_makes : MakesAt known site (scriptBlock site children) := by
  unfold scriptBlock
  split
  · exact .malformed _ _
  next only => exact compound_makes hsite (h.statement (t := only) List.mem_cons_self)
  · exact compound_makes hsite (blockOf_makes hsite h)

theorem command_makes : MakesAt known site (command cfg site children) := by
  unfold command
  split
  · exact .malformed _ _
  next callee items =>
    have call : ∀ name (candidates : List Function), MakesAt known site (do
        let arguments ← bindArguments cfg name candidates items
        pure (Expression.call site.origin name arguments candidates.head?)) := by
      intro name candidates
      have bound := bindArguments_makes cfg name candidates
        (h.subset (List.subset_cons_self callee items))
      exact bound.bind fun _ made => root_makes hsite rfl rfl (by simpa using made)
    refine Returns.checked fun _ => .after fun candidates => ?_
    split
    · exact .after fun _ => call _ _
    · exact call _ _
    · exact .after fun _ => call _ _

theorem binary_makes : MakesAt known site (binary site children) := by
  unfold binary
  split
  · split
    next left right =>
      have lhs := h.expression (t := left) (by simp)
      have rhs := h.expression (t := right) (by simp)
      refine lhs.bind fun l hl => rhs.bind fun r hr => root_makes hsite rfl rfl ?_
      simpa using ⟨hl, hr⟩
    · exact .malformed _ _
  · exact .malformed _ _

theorem unary_makes : MakesAt known site (unary site children) := by
  unfold unary
  dsimp only
  split
  · split
    · exact .malformed _ _
    next operand rest =>
      have lowered := h.expression (t := operand) List.mem_cons_self
      exact lowered.bind fun _ made => root_makes hsite rfl rfl (by simpa using made)
  · exact .malformed _ _

theorem array_makes : MakesAt known site (array site children) := by
  have leaves : ∀ value ∈ children.flatMap valueLeaves, Makes known .expression value := by
    intro value hvalue
    obtain ⟨item, hitem, hleaf⟩ := List.mem_flatMap.mp hvalue
    obtain ⟨r, hr, rfl⟩ := mem_labels_of_mem_valueLeaves hleaf
    exact (h item hitem r hr).expression.makes
  refine .after fun type => (Returns.mapM leaves).bind fun elements made => ?_
  exact root_makes hsite rfl rfl (by simpa using made)

theorem cast_makes : MakesAt known site (cast site children) := by
  unfold cast
  split
  next typeNode operand =>
    have inner := h.expression (t := operand) (by simp)
    have finish : ∀ target, MakesAt known site (do
        let inner ← operand.label.expression
        pure (Expression.cast site.origin target inner)) := fun _ =>
      inner.bind fun _ made => root_makes hsite rfl rfl (by simpa using made)
    dsimp only
    split
    · exact .after finish
    · exact .after finish
  · exact .malformed _ _

section
variable (parameters : ∀ p ∈ site.parameters, known p)
include parameters

theorem function_makes : Makes known .function (function cfg site children) := by
  unfold function
  refine Returns.checked fun _ => ?_
  split
  · have lowered : ∀ p ∈ site.parameters.zipIdx,
        Makes known .parameter (parameter cfg p.1 (p.2 : Nat)) :=
      fun p hp => parameter_makes cfg (parameters p.1 (List.fst_mem_of_mem_zipIdx hp)) _
    refine (Returns.mapM lowered).bind fun ps hps => ?_
    dsimp only
    split
    · exact .after fun _ => .pure (.intro hsite rfl rfl (by simpa using hps))
    next body hbody =>
      have statement := h.statement (List.mem_of_find?_eq_some hbody)
      refine .after fun _ => (Returns.orRedeclaring _
        (Returns.inScope (.after fun _ => statement) _)).bind fun lowered made =>
          .after fun _ => .pure (.intro hsite rfl rfl ?_)
      refine List.forall_mem_append.mpr ⟨?_, by simpa using made⟩
      simpa [Function.parameters] using hps
  · exact .malformed _ _

theorem definition_makes : MakesAt known site (definition cfg site children) :=
  (function_makes cfg hsite h parameters).bind fun _ made =>
    root_makes hsite rfl rfl (by simpa using made)

end

variable (count : children.length = site.node.children.length)
include count

omit hsite in
/-- A wrapper ends with what its first child ends with, and passes on to it. -/
theorem wrapper_makes (hkind : site.attributes.kind.isWrapper = true) :
    MakesAt known site (wrapper site children) := by
  cases children with
  | nil => exact .malformed _ _
  | cons first rest =>
    have passes : site.passesOn = true := by
      rw [Site.passesOn, ← count, List.length_cons]
      cases rest <;> simp [Kind.passesOn, Kind.isTransparent, hkind]
    have lowered := h.expression (t := first) List.mem_cons_self
    exact .checked fun _ => lowered.imp fun e made => ⟨made, by simp [passes]⟩

theorem pipeline_makes (hkind : site.attributes.kind = .pipeline) :
    MakesAt known site (pipeline site children) := by
  unfold pipeline
  split
  · exact .malformed _ _
  next stage =>
    have passes : site.passesOn = true := by
      rw [Site.passesOn, ← count, hkind]
      rfl
    have lowered := h.expression (t := stage) List.mem_cons_self
    exact lowered.imp fun e made => ⟨made, by simp [passes]⟩
  · exact compound_makes hsite (block_makes hsite h)

variable (parameters : ∀ p ∈ site.parameters, known p)
include parameters

/-- Whatever a node becomes where an expression stands is made from known nodes, and from
this one at the root. -/
theorem expressionOf?_makes {lowered : Lower Expression}
    (handler : expressionOf? cfg site children site.attributes.kind = some lowered) :
    MakesAt known site lowered := by
  cases hkind : site.attributes.kind
  all_goals rw [hkind] at handler
  all_goals cases handler
  all_goals with_reducible first
    | exact wrapper_makes h count (by simp [hkind, Kind.isWrapper])
    | exact pipeline_makes hsite h count hkind
    | exact scriptBlock_makes hsite h
    | exact command_makes cfg hsite h
    | exact reference_makes hsite
    | exact compound_makes hsite (block_makes hsite h)
    | exact binary_makes hsite h
    | exact unary_makes hsite h
    | exact literal_makes cfg hsite
    | exact definition_makes cfg hsite h parameters
    | exact array_makes hsite h
    | exact cast_makes hsite h
    | exact memberAccess_makes hsite

theorem expression_makes : MakesAt known site (expression cfg site children) := by
  refine Returns.after fun _ => ?_
  cases handler : expressionOf? cfg site children site.attributes.kind with
  | none => exact .after fun _ => unknown_makes hsite
  | some lowered =>
    exact (expressionOf?_makes cfg hsite h count parameters handler).orUnknown
      ⟨Part.madeFrom_unknown hsite, fun _ => rfl⟩

theorem statement_makes : Makes known .statement (statement cfg site children) := by
  unfold statement
  split
  · exact block_makes hsite h
  · split
    · exact (function_makes cfg hsite h parameters).bind fun _ made =>
        .pure (.intro hsite rfl rfl (by simpa using made))
    · exact (expression_makes cfg hsite h count parameters).bind fun _ made =>
        .pure (.intro hsite rfl rfl (by simpa using made.1))

end

/-! ### Nodes that pass on -/

section
variable {site : Site} {first : Tree Reading} {rest : List (Tree Reading)}

/-- A node that passes on becomes its first child, or is reported as having more
children than that. -/
theorem expressionOf?_of_passesOn (cfg : Config)
    (count : rest.length + 1 = site.node.children.length) (passes : site.passesOn = true) :
    ∃ lowered, expressionOf? cfg site (first :: rest) site.attributes.kind = some lowered ∧
      (lowered = first.label.expression ∨ lowered = wrapper site (first :: rest)) := by
  have kind : site.attributes.kind.isWrapper = true ∨
      site.attributes.kind = .pipeline ∧ rest = [] := by
    rw [Site.passesOn, ← count] at passes
    cases rest with
    | nil => simpa [Kind.passesOn, Kind.isTransparent] using passes
    | cons _ _ => exact .inl passes
  rcases kind with isWrapper | ⟨isPipeline, rfl⟩
  · exact ⟨_, expressionOf?_of_isWrapper cfg site _ isWrapper, .inr rfl⟩
  · exact ⟨first.label.expression, by rw [isPipeline]; rfl, .inl rfl⟩

/-- What the first child ends with is what a node ends with that passes on to it. -/
theorem expression_returns_of_passesOn (cfg : Config)
    (count : rest.length + 1 = site.node.children.length) (passes : site.passesOn = true)
    {Q : Expression → Prop} (h : Returns Q first.label.expression)
    (sure : Sure first.label.expression) : Returns Q (expression cfg site (first :: rest)) := by
  obtain ⟨lowered, handler, passed⟩ := expressionOf?_of_passesOn cfg count passes
  refine Returns.after fun _ => ?_
  rw [handler]
  rcases passed with rfl | rfl
  · exact h.orUnknown_of_sure sure
  · exact Returns.orUnknown_of_sure (.checked fun _ => h) (.checked (.report site _) fun _ => sure)

end

end Lower

/-! ### Trees -/

open Lower (Makes Returns Sure)

theorem Node.readings_make (cfg : Config) (n : Node) (path : Path) :
    ∀ r ∈ (n.readings cfg path).labels, r.Makes (· ∈ n.sites path) := by
  refine n.readings_induct cfg path fun s hs below => ?_
  have parameters : ∀ p ∈ s.parameters, p ∈ n.sites path := fun p hp =>
    n.sites_subset_of_mem path s hs (s.parameters_subset_within hp)
  have count : (s.below cfg).length = s.node.children.length := Node.length_readingsOf ..
  rw [s.reading_eq]
  exact ⟨Lower.expression_makes cfg hs below count parameters,
    Lower.statement_makes cfg hs below count parameters⟩

theorem EntryPoint.lower_makes (entry : EntryPoint) (cfg : Config) (n : Node) :
    Makes (· ∈ n.sites []) id (entry.lower cfg n) := by
  have root := n.readings_make cfg [] _ (Tree.label_mem_labels _)
  cases entry with
  | expression => exact root.expression.bind fun _ made => .pure made.1
  | statement => exact root.statement.bind fun _ made => .pure made
  | script =>
    have script : Makes (· ∈ n.sites []) .statement (lowerScript cfg n) := by
      refine root.statement.bind fun lowered made => ?_
      cases lowered with
      | block _ _ => exact .pure made
      | expression _ _ | definition _ _ =>
        exact .pure (.intro (n.site_mem_sites []) rfl rfl (by simpa using made))
    exact script.bind fun _ made => .pure made

/-- An expression has location and code of the anchor of its tree. -/
theorem Node.readings_root (cfg : Config) (n : Node) (path : Path) :
    Returns (·.origin = (n.anchor path).origin) (n.readings cfg path).label.expression := by
  induction n using Tree.induct generalizing path with
  | node attrs children ih =>
    have here := Node.readings_make cfg ⟨attrs, children⟩ path _ (Tree.label_mem_labels _)
    have root := here.expression
    rw [Node.readings] at root ⊢
    cases children with
    | nil => exact root.imp fun e made => made.2 rfl
    | cons first rest =>
      rw [Node.anchor]
      split
      next passes =>
        have inside := ih first List.mem_cons_self (path ++ [0])
        have sure := Node.readings_sure cfg first (path ++ [0])
        have count : (Node.readingsOf cfg path (0 + 1) rest).length = rest.length :=
          Node.length_readingsOf ..
        have passesHere : Site.passesOn ⟨path, ⟨attrs, first :: rest⟩⟩ = true := passes
        exact Lower.expression_returns_of_passesOn cfg (by rw [count]; rfl) passesHere inside sure
      next stays => exact root.imp fun e made => made.2 (Bool.eq_false_iff.mpr stays)

theorem EntryPoint.lower_root (cfg : Config) (n : Node) :
    Returns (·.origin = (n.anchor []).origin) (EntryPoint.expression.lower cfg n) :=
  (n.readings_root cfg []).bind fun _ root => .pure root

/-- Every part of what is lowered from a tree, itself among them, has location and code of one node
of the tree, and unknown expressions have their code for raw text; an expression that is lowered
from a tree has location and code of the anchor of the tree. -/
theorem lower_provenance (entry : EntryPoint) (cfg : Config) (n : Node)
    {s t : Session} {part : Part}
    (h : s.run (entry.lower cfg n) = (.ok part, t)) :
    (∀ p, part.Within p → ∃ site ∈ n.sites [], p.origin = site.origin) ∧
      (∀ origin rawText, part.Within (.expression (.unknown origin rawText)) →
        rawText = origin.code) ∧
      (entry = .expression → part.origin = (n.anchor []).origin) := by
  have made : part.MadeFrom (· ∈ n.sites []) := entry.lower_makes cfg n s t part h
  refine ⟨fun p within => (made p within).node, fun origin rawText within => ?_, ?_⟩
  · exact (made _ within).rawText rawText rfl
  · intro isExpression
    rw [isExpression] at h
    exact EntryPoint.lower_root cfg n s t part h

/-- A variable in parentheses is lowered to a reference that comes from the variable. -/
theorem lower_provenance_parentheses :
    let inner : Node := ⟨{ kind := .variableExpression, tag := "Variable", code := some "$a" }, []⟩
    let n : Node := ⟨{ kind := .parenExpression, tag := "Paren", code := some "($a)" }, [inner]⟩
    ∃ part t, (Session.start {}).run (EntryPoint.expression.lower {} n) = (.ok part, t) ∧
      (∀ p, part.Within p → ∃ site ∈ n.sites [], p.origin = site.origin) ∧
      (∀ origin rawText, part.Within (.expression (.unknown origin rawText)) →
        rawText = origin.code) ∧
      part.origin.code = some "$a" := by
  intro inner n
  have run : ∃ part t,
      (Session.start {}).run (EntryPoint.expression.lower {} n) = (.ok part, t) := ⟨_, _, rfl⟩
  obtain ⟨part, t, run⟩ := run
  obtain ⟨parts, unknowns, root⟩ := lower_provenance .expression {} n run
  exact ⟨part, t, run, parts, unknowns, by rw [root rfl]; rfl⟩

end ScriptIR
