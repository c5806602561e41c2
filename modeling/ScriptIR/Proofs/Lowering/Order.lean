import Mathlib.Data.List.Flatten
import ScriptIR.Proofs.Scope.Balance
import ScriptIR.Proofs.Syntax.Preorder

/-!
# The order of lowering

A node is dispatched when it is lowered where an expression stands. `Lower.Dispatches sites m` says
that `m` dispatches some of the given nodes only, in their order, and none of them twice, however it
ends. Every reading of a tree dispatches nodes of that tree in source order: a node is reached along
many ways, but never along two of them, and never after a node behind it.
-/
namespace ScriptIR

/-- The place and the tag of the node that an event dispatches. -/
def Event.dispatched? : Event → Option (Path × String)
  | dispatched path tag => some (path, tag)
  | _ => none

/-- What the trace shows of a node when it is dispatched. -/
def Site.mark (s : Site) : Path × String :=
  (s.path, s.attributes.tag)

/-- Between the two sessions some of the given nodes were dispatched, in their order. -/
def Session.Dispatched (sites : List Site) (s t : Session) : Prop :=
  ∃ events, t.trace.toList = s.trace.toList ++ events ∧
    (events.filterMap Event.dispatched?).Sublist (sites.map Site.mark)

/-- However the action ends, what it has dispatched are some of the given nodes, in their order. -/
def Lower.Dispatches {α : Type} (sites : List Site) (m : Lower α) : Prop :=
  ∀ s : Session, s.Dispatched sites (s.run m).2

namespace Session.Dispatched
variable {s t u : Session} {xs ys : List Site}

theorem of_trace_eq (h : t.trace = s.trace) : s.Dispatched [] t :=
  ⟨[], by rw [h, List.append_nil], List.Sublist.refl _⟩

theorem of_trace_push {e : Event} (h : t.trace = s.trace.push e)
    (marks : ([e].filterMap Event.dispatched?).Sublist (xs.map Site.mark)) : s.Dispatched xs t :=
  ⟨[e], by rw [h, Array.toList_push], marks⟩

theorem mono (h : s.Dispatched xs t) (sub : xs.Sublist ys) : s.Dispatched ys t := by
  obtain ⟨events, trace, marks⟩ := h
  exact ⟨events, trace, marks.trans (sub.map Site.mark)⟩

theorem trans (h : s.Dispatched xs t) (k : t.Dispatched ys u) : s.Dispatched (xs ++ ys) u := by
  obtain ⟨first, trace, marks⟩ := h
  obtain ⟨later, more, rest⟩ := k
  refine ⟨first ++ later, by rw [more, trace, List.append_assoc], ?_⟩
  rw [List.map_append, List.filterMap_append]
  exact marks.append rest

theorem trans_none (h : s.Dispatched xs t) (k : t.Dispatched [] u) : s.Dispatched xs u := by
  have both := h.trans k
  rwa [List.append_nil] at both

/-- The events around a body that ran in a scope of its own dispatch nothing. -/
theorem closing {start : Session} {owner : Owner}
    (entered : start.trace = s.trace.push (.entered owner s.trace.size))
    (h : start.Dispatched xs t) : s.Dispatched xs (s.closing t owner) := by
  have enters : s.Dispatched [] start := .of_trace_push entered (List.Sublist.refl _)
  have leaves : t.Dispatched [] (s.closing t owner) :=
    .of_trace_push (e := .left owner s.trace.size) rfl (List.Sublist.refl _)
  exact (enters.trans h).trans_none leaves

end Session.Dispatched

namespace Lower.Dispatches
open Session
variable {α β : Type} {xs ys : List Site}

theorem mono {m : Lower α} (h : Dispatches xs m) (sub : xs.Sublist ys) : Dispatches ys m :=
  fun s => (h s).mono sub

theorem silent {m : Lower α} (h : Dispatches [] m) : Dispatches xs m :=
  h.mono (List.nil_sublist _)

theorem pure (a : α) : Dispatches [] (pure a : Lower α) :=
  fun _ => .of_trace_eq rfl

theorem malformed (m : Malformation) (site : Site) :
    Dispatches [] (malformed m site : Lower α) :=
  fun _ => .of_trace_eq rfl

theorem declared (header : Function) : Dispatches [] (declare (.function header)) :=
  fun _ => .of_trace_eq rfl

theorem resolve (cfg : Config) (site : Site) (callee : String) :
    Dispatches [] (resolve cfg site callee) :=
  fun s => .of_trace_push (e := .resolved site.path callee (s.scopes.resolve cfg callee)) rfl
    (List.Sublist.refl _)

theorem dispatched (site : Site) :
    Dispatches [site] (record (.dispatched site.path site.attributes.tag)) :=
  fun _ => .of_trace_push rfl (List.Sublist.refl _)

theorem report (site : Site) (issue : Issue) : Dispatches [] (report (some site) issue) := by
  intro s
  rw [session_run_report]
  exact .of_trace_push (e := .reported (some site.path) issue
    (s.collector.report (issue.report (some site.attributes))).line) rfl (List.Sublist.refl _)

/-- The second of two actions dispatches behind the first. -/
theorem bind {m : Lower α} {f : α → Lower β} (h : Dispatches xs m)
    (k : ∀ a, Dispatches ys (f a)) : Dispatches (xs ++ ys) (m >>= f) := by
  intro s
  have first := h s
  cases hm : s.run m with
  | mk outcome t =>
    rw [hm] at first
    cases outcome with
    | ok a =>
      rw [run_bind_of_ok hm]
      exact first.trans (k a t)
    | error e =>
      rw [run_bind_of_error hm]
      exact first.mono (List.sublist_append_left _ _)

theorem before {m : Lower α} {f : α → Lower β} (h : Dispatches xs m)
    (k : ∀ a, Dispatches [] (f a)) : Dispatches xs (m >>= f) := by
  have both := h.bind k
  rwa [List.append_nil] at both

theorem after {m : Lower α} {f : α → Lower β} (h : Dispatches [] m)
    (k : ∀ a, Dispatches xs (f a)) : Dispatches xs (m >>= f) :=
  h.bind k

theorem mapM {sites : α → List Site} {f : α → Lower β} {as : List α}
    (h : ∀ a ∈ as, Dispatches (sites a) (f a)) : Dispatches (as.flatMap sites) (as.mapM f) := by
  induction as with
  | nil => exact pure []
  | cons a as ih =>
    rw [List.mapM_cons, List.flatMap_cons]
    have rest := ih fun b hb => h b (List.mem_cons_of_mem _ hb)
    exact (h a List.mem_cons_self).bind fun _ => rest.before fun _ => pure _

theorem mapM_none {f : α → Lower β} {as : List α} (h : ∀ a ∈ as, Dispatches [] (f a)) :
    Dispatches [] (as.mapM f) := by
  have all := mapM h
  have none : (as.flatMap fun _ => ([] : List Site)) = [] := by simp
  rwa [none] at all

theorem checked {c : Prop} [Decidable c] {m : Lower Unit} {f : Unit → Lower α}
    (hm : Dispatches [] m) (hf : ∀ u, Dispatches xs (f u)) :
    Dispatches xs (if c then f () else m >>= f) := by
  split
  · exact hf ()
  · exact hm.after hf

/-- What is reported on recovery comes behind all that the body has dispatched. -/
theorem orUnknown {site : Site} {body : Lower Expression} (h : Dispatches xs body) :
    Dispatches xs (orUnknown site body) := by
  intro s
  refine run_orUnknown_of (P := fun ended => s.Dispatched xs ended.2) (h s) fun m culprit t hbody =>
    ?_
  have inside := h s
  rw [hbody] at inside
  have recovery := (report culprit (.malformed m)).before fun _ => pure site.unknown
  exact inside.trans_none (recovery t)

variable {cfg : Config} {known : Site → Prop}

theorem inBlock {code : Option String} {body : Lower α} (composed : Composed cfg known body)
    (h : Dispatches xs body) : Dispatches xs (inScope (.block code) body) := by
  intro s
  rw [composed.run_inBlock rfl]
  exact .closing rfl (h (s.opening (.block code)))

theorem defining {header : Function} {body : Lower Statement} (composed : Composed cfg known body)
    (h : Dispatches xs body) : Dispatches xs (defining header body) := by
  intro s
  have inside := h (s.openingFunction header)
  have closed := inside.closing (s := s.declare (.function header)) rfl
  cases hbody : (s.openingFunction header).run body with
  | mk outcome t =>
    rw [hbody] at closed
    cases outcome with
    | ok lowered =>
      rw [composed.run_defining_of_ok hbody]
      exact closed
    | error e =>
      rw [composed.run_defining_of_error hbody]
      exact closed

end Lower.Dispatches

/-! ### Trees of readings -/

theorem Tree.labelsOf_eq_flatMap {α : Type} (ts : List (Tree α)) :
    labelsOf ts = ts.flatMap labels := by
  induction ts with
  | nil => simp [labelsOf]
  | cons t ts ih => simp [labelsOf, ih]

/-- The nodes that the readings in a tree are readings of. -/
def Reading.sites (t : Tree Reading) : List Site :=
  t.labels.map Reading.site

namespace Lower

/-- Every reading in a tree dispatches its own node and those below it only, in order. -/
inductive InOrder : Tree Reading → Prop
  | node {r : Reading} {children : List (Tree Reading)} :
      (∀ child ∈ children, InOrder child) →
      Dispatches (r.site :: children.flatMap Reading.sites) r.expression →
      Dispatches (r.site :: children.flatMap Reading.sites) r.statement →
      InOrder ⟨r, children⟩

section
open Reading (sites)

theorem sites_node (r : Reading) (children : List (Tree Reading)) :
    sites ⟨r, children⟩ = r.site :: children.flatMap sites := by
  simp only [sites, Tree.labels, List.map_cons, Tree.labelsOf_eq_flatMap, List.map_flatMap]
  rfl

theorem sites_sublist_of_mem {t : Tree Reading} {ts : List (Tree Reading)} (h : t ∈ ts) :
    (sites t).Sublist (ts.flatMap sites) := by
  have single := (List.singleton_sublist.mpr h).flatMap sites
  rwa [List.flatMap_singleton] at single

theorem sites_children_sublist (t : Tree Reading) :
    (t.children.flatMap sites).Sublist (sites t) := by
  obtain ⟨r, children⟩ := t
  rw [sites_node]
  exact List.sublist_cons_self _ _

/-- The leaves of a tree stand among its nodes, in the same order. -/
theorem sites_leaves_sublist (t : Tree Reading) : (t.leaves.flatMap sites).Sublist (sites t) := by
  induction t using Tree.induct with
  | node r children ih =>
    cases children with
    | nil => simp
    | cons child rest =>
      rw [Tree.leaves_of_children r (by simp), List.flatMap_assoc, sites_node]
      exact (List.Sublist.flatMap_right _ ih).cons r.site

namespace InOrder
variable {t : Tree Reading}

theorem expression (h : InOrder t) : Dispatches (sites t) t.label.expression := by
  cases h with
  | node _ dispatches _ => exact sites_node _ _ ▸ dispatches

theorem statement (h : InOrder t) : Dispatches (sites t) t.label.statement := by
  cases h with
  | node _ _ dispatches => exact sites_node _ _ ▸ dispatches

theorem child (h : InOrder t) : ∀ child ∈ t.children, InOrder child := by
  cases h with
  | node below _ _ => exact below

theorem leaf (h : InOrder t) : ∀ leaf ∈ t.leaves, InOrder leaf := by
  induction h with
  | @node r children below expression statement ih =>
    intro leaf hleaf
    cases children with
    | nil =>
      rw [Tree.leaves_childless, List.mem_singleton] at hleaf
      exact hleaf ▸ .node below expression statement
    | cons child rest =>
      rw [Tree.leaves_of_children r (by simp), List.mem_flatMap] at hleaf
      obtain ⟨c, hc, hl⟩ := hleaf
      exact ih c hc leaf hl

end InOrder

/-! ### Arguments -/

theorem typeOfText_dispatches (text : Option String) (site : Site) :
    Dispatches [] (typeOfText text (some site)) := by
  unfold typeOfText
  split
  · exact .pure _
  · split
    · exact .pure _
    · split
      · exact .pure _
      · exact (Dispatches.report _ _).after fun _ => .pure _

theorem typeOfNode_dispatches (site : Site) : Dispatches [] (typeOfNode site) := by
  unfold typeOfNode
  split
  · split
    · exact typeOfText_dispatches _ _
    · exact (Dispatches.report _ _).after fun _ => .pure _
  · exact .pure _

theorem flagIndex_dispatches (cfg : Config) (callee : String) (candidates : List Function)
    (flag : Site) (number : Nat) : Dispatches [] (flagIndex cfg callee candidates flag number) := by
  unfold flagIndex
  dsimp only
  split
  · exact .pure _
  · split
    · exact .pure _
    · exact (Dispatches.report _ _).after fun _ => .pure _

/-- Lowering some trees as expressions, one after the other. -/
theorem expressions_dispatch {ts : List (Tree Reading)} (h : ∀ t ∈ ts, InOrder t) :
    Dispatches (ts.flatMap sites) ((ts.map (·.label.expression)).mapM id) := by
  rw [List.mapM_map]
  exact .mapM fun t ht => (h t ht).expression

/-- The leaves that an item stands for, empty groups left out. -/
def valueItems (item : Tree Reading) : List (Tree Reading) :=
  item.leaves.filter fun leaf => !leaf.label.kind.isGrouping

theorem sites_valueItems_sublist (item : Tree Reading) :
    ((valueItems item).flatMap sites).Sublist (sites item) :=
  (List.filter_sublist.flatMap sites).trans (sites_leaves_sublist item)

theorem valueLeaves_dispatch {items : List (Tree Reading)} (h : ∀ item ∈ items, InOrder item) :
    Dispatches (items.flatMap sites) ((items.flatMap valueLeaves).mapM id) := by
  have values : items.flatMap valueLeaves =
      (items.flatMap valueItems).map (·.label.expression) := by
    rw [List.map_flatMap]
    rfl
  have kept : ∀ leaf ∈ items.flatMap valueItems, InOrder leaf := by
    intro leaf hleaf
    obtain ⟨item, hitem, hvalue⟩ := List.mem_flatMap.mp hleaf
    exact (h item hitem).leaf leaf (List.mem_filter.mp hvalue).1
  rw [values]
  refine (expressions_dispatch kept).mono ?_
  rw [List.flatMap_assoc]
  exact List.Sublist.flatMap_right _ fun item _ => sites_valueItems_sublist item

variable (cfg : Config) (callee : String) (candidates : List Function)

theorem flag_dispatches (site : Site) {value : Lower Expression} (number : Nat) {xs : List Site}
    (h : Dispatches xs value) :
    Dispatches xs (lowerSlot cfg callee candidates (.flag site value number)) :=
  (flagIndex_dispatches cfg callee candidates site number).after fun _ => h.before fun _ => .pure _

theorem slotOf_dispatches (number : Nat) {item : Tree Reading} (h : InOrder item) :
    Dispatches (sites item) (lowerSlot cfg callee candidates (slotOf number item)) := by
  unfold slotOf
  split
  · split
    next value rest hchildren =>
      have hvalue : value ∈ item.children := by simp [hchildren]
      have sub := (sites_sublist_of_mem hvalue).trans (sites_children_sublist item)
      exact flag_dispatches cfg callee candidates _ _ ((h.child value hvalue).expression.mono sub)
    next => exact flag_dispatches cfg callee candidates _ _ h.expression
  · exact h.expression.before fun _ => .pure _
  · have here : ∀ t ∈ [item], InOrder t := by simpa using h
    have values := valueLeaves_dispatch here
    rw [List.flatMap_singleton, List.flatMap_singleton] at values
    exact values.before fun _ => .pure _

/-- A flag takes its value from the next item, which is then passed over. -/
theorem slots_dispatch (i : Nat) {items : List (Tree Reading)} (h : ∀ item ∈ items, InOrder item) :
    Dispatches (items.flatMap sites) ((slots i items).mapM (lowerSlot cfg callee candidates)) := by
  fun_induction slots i items with
  | case1 => exact .pure _
  | case2 i item =>
    rw [List.mapM_cons, List.flatMap_singleton]
    have first := slotOf_dispatches cfg callee candidates i (h item (by simp))
    exact first.before fun _ => .pure _
  | case3 i item next rest _ ih =>
    have value := flag_dispatches cfg callee candidates item.label.site i
      (h next (by simp)).expression
    have others := ih fun t ht => h t (by simp [ht])
    rw [List.mapM_cons, List.flatMap_cons, List.flatMap_cons]
    refine Dispatches.mono ?_ (List.sublist_append_right (sites item) _)
    exact value.bind fun _ => others.before fun _ => .pure _
  | case4 i item next rest _ ih =>
    have first := slotOf_dispatches cfg callee candidates i (h item (by simp))
    have others := ih fun t ht => h t (by simp [ht])
    rw [List.mapM_cons, List.flatMap_cons]
    exact first.bind fun _ => others.before fun _ => .pure _

theorem bindArguments_dispatches {items : List (Tree Reading)}
    (h : ∀ item ∈ items, InOrder item) :
    Dispatches (items.flatMap sites) (bindArguments cfg callee candidates items) := by
  rw [bindArguments_eq]
  exact (slots_dispatch cfg callee candidates 0 h).before fun _ => .pure _

end

/-! ### Nodes by kind -/

section
open Reading (sites)
variable (cfg : Config) (site : Site) {children : List (Tree Reading)}
variable (h : ∀ child ∈ children, InOrder child)
include h

theorem wrapper_dispatches : Dispatches (children.flatMap sites) (wrapper site children) := by
  cases children with
  | nil => exact .malformed _ _
  | cons first rest =>
    have lowered := (h first (by simp)).expression
    rw [List.flatMap_cons]
    exact .checked (.report _ _) fun _ => lowered.mono (List.sublist_append_left _ _)

theorem statements_dispatch : Dispatches (children.flatMap sites)
    (children.mapM (·.label.statement)) :=
  .mapM fun child hchild => (h child hchild).statement

section
variable {known : Site → Prop} (composed : AllComposed cfg known children)
include composed

variable {cfg} in
theorem blockOf_dispatches : Dispatches (children.flatMap sites) (blockOf site children) := by
  have body : Composed cfg known (children.mapM (·.label.statement)) :=
    .mapM fun child hchild => (composed.label hchild).statement
  exact ((statements_dispatch h).inBlock body).before fun _ => .pure _

variable {cfg} in
theorem block_dispatches : Dispatches (children.flatMap sites) (block site children) := by
  have kept : ∀ child ∈ children.filter (·.label.kind ≠ .paramBlock), InOrder child :=
    fun child hchild => h child (List.mem_filter.mp hchild).1
  have lowered := blockOf_dispatches site kept (composed.subset List.filter_sublist.subset)
  exact lowered.mono (List.filter_sublist.flatMap sites)

variable {cfg} in
theorem pipeline_dispatches : Dispatches (children.flatMap sites) (pipeline site children) := by
  unfold pipeline
  split
  · exact .malformed _ _
  next stage =>
    have lowered := (h stage (by simp)).expression
    rwa [List.flatMap_singleton]
  · exact (block_dispatches site h composed).before fun _ => .pure _

variable {cfg} in
theorem scriptBlock_dispatches :
    Dispatches (children.flatMap sites) (scriptBlock site children) := by
  unfold scriptBlock
  split
  · exact .malformed _ _
  next only =>
    have lowered := (h only (by simp)).statement
    rw [List.flatMap_singleton]
    exact lowered.before fun _ => .pure _
  · exact (blockOf_dispatches site h composed).before fun _ => .pure _

theorem function_dispatches : Dispatches (children.flatMap sites) (function cfg site children) := by
  unfold function
  refine .checked (.malformed _ _) fun _ => ?_
  split
  · have parameters : Dispatches []
        (site.parameters.zipIdx.mapM fun p => parameter cfg p.1 p.2) := by
      have each : ∀ p ∈ site.parameters.zipIdx, Dispatches [] (parameter cfg p.1 p.2) :=
        fun p _ => (typeOfText_dispatches _ p.1).after fun _ => .pure _
      exact .mapM_none each
    refine parameters.after fun ps => ?_
    cases hbody : children.find? (·.label.kind = .scriptBlock) with
    | none =>
      exact .silent ((Dispatches.declared _).before fun _ => .pure _)
    | some body =>
      have hmem := List.mem_of_find?_eq_some hbody
      have lowered := (h body hmem).statement.mono (sites_sublist_of_mem hmem)
      exact lowered.defining (composed.label hmem).statement
  · exact .silent (.malformed _ _)

end

theorem command_dispatches : Dispatches (children.flatMap sites) (command cfg site children) := by
  unfold command
  split
  · exact .malformed _ _
  next callee items =>
    have hitems : ∀ item ∈ items, InOrder item := fun item hitem => h item (by simp [hitem])
    have call : ∀ name candidates, Dispatches (items.flatMap sites) (do
        let arguments ← bindArguments cfg name candidates items
        pure (Expression.call site.origin name arguments candidates.head?)) := by
      intro name candidates
      exact (bindArguments_dispatches cfg name candidates hitems).before fun _ => .pure _
    rw [List.flatMap_cons]
    refine Dispatches.mono ?_ (List.sublist_append_right (sites callee) _)
    refine .checked (.malformed _ _) fun _ => (Dispatches.resolve _ _ _).after fun candidates => ?_
    split
    · exact (Dispatches.report _ _).after fun _ => call _ _
    · exact call _ _
    · exact (Dispatches.report _ _).after fun _ => call _ _

theorem binary_dispatches : Dispatches (children.flatMap sites) (binary site children) := by
  unfold binary
  split
  · split
    next left right =>
      have lhs := (h left (by simp)).expression
      have rhs := (h right (by simp)).expression
      rw [List.flatMap_cons, List.flatMap_singleton]
      exact lhs.bind fun _ => rhs.before fun _ => .pure _
    · exact .silent (.malformed _ _)
  · exact .silent (.malformed _ _)

theorem unary_dispatches : Dispatches (children.flatMap sites) (unary site children) := by
  unfold unary
  dsimp only
  split
  · split
    · exact .malformed _ _
    next operand rest =>
      have lowered := (h operand (by simp)).expression
      rw [List.flatMap_cons]
      exact (lowered.mono (List.sublist_append_left _ _)).before fun _ => .pure _
  · exact .silent (.malformed _ _)

theorem array_dispatches : Dispatches (children.flatMap sites) (array site children) := by
  exact (typeOfText_dispatches _ _).after fun _ => (valueLeaves_dispatch h).before fun _ => .pure _

theorem cast_dispatches : Dispatches (children.flatMap sites) (cast site children) := by
  unfold cast
  split
  next typeNode operand =>
    have inner := (h operand (by simp)).expression
    rw [List.flatMap_cons, List.flatMap_singleton]
    refine Dispatches.mono ?_ (List.sublist_append_right (sites typeNode) _)
    dsimp only
    split
    · exact (typeOfText_dispatches _ _).after fun _ => inner.before fun _ => .pure _
    · exact (typeOfNode_dispatches _).after fun _ => inner.before fun _ => .pure _
  · exact .silent (.malformed _ _)

end

variable (cfg : Config) (site : Site) {children : List (Tree Reading)}
variable {known : Site → Prop} (composed : AllComposed cfg known children)
variable (h : ∀ child ∈ children, InOrder child)

theorem literal_dispatches : Dispatches [] (literal cfg site) := by
  unfold literal
  dsimp only
  split
  · exact .pure _
  · exact (Dispatches.report _ _).after fun _ => .pure _

include composed h

/-- What a kind becomes where an expression stands dispatches nodes below it only, in order. -/
theorem expressionOf?_dispatches {kind : Kind} {lowered : Lower Expression}
    (hkind : expressionOf? cfg site children kind = some lowered) :
    Dispatches (children.flatMap Reading.sites) lowered := by
  unfold expressionOf? at hkind
  split at hkind
  all_goals cases hkind
  all_goals first
    | exact wrapper_dispatches site h
    | exact pipeline_dispatches site h composed
    | exact scriptBlock_dispatches site h composed
    | exact command_dispatches cfg site h
    | exact .silent ((typeOfText_dispatches _ _).after fun _ => .pure _)
    | exact (block_dispatches site h composed).before fun _ => .pure _
    | exact binary_dispatches site h
    | exact unary_dispatches site h
    | exact .silent (literal_dispatches cfg site)
    | exact (function_dispatches cfg site h composed).before fun _ => .pure _
    | exact array_dispatches site h
    | exact cast_dispatches site h
    | exact .silent ((Dispatches.report _ _).after fun _ => .pure _)

theorem expression_dispatches :
    Dispatches (site :: children.flatMap Reading.sites) (expression cfg site children) := by
  refine (Dispatches.dispatched site).bind fun _ => ?_
  cases hkind : expressionOf? cfg site children site.attributes.kind with
  | none => exact .silent ((Dispatches.report _ _).after fun _ => .pure _)
  | some lowered => exact (expressionOf?_dispatches cfg site composed h hkind).orUnknown

theorem statement_dispatches :
    Dispatches (site :: children.flatMap Reading.sites) (statement cfg site children) := by
  unfold statement
  split
  · exact (block_dispatches site h composed).mono (List.sublist_cons_self _ _)
  · split
    · have lowered := function_dispatches cfg site h composed
      exact (lowered.mono (List.sublist_cons_self _ _)).before fun _ => .pure _
    · exact (expression_dispatches cfg site composed h).before fun _ => .pure _

end Lower

/-! ### Trees -/

namespace Node
open Lower (InOrder)

mutual
/-- The readings of a tree are those of its nodes, in the order of the nodes. -/
theorem sites_readings (cfg : Config) (path : Path) : ∀ n : Node,
    Reading.sites (n.readings cfg path) = n.sites path
  | ⟨attrs, children⟩ => by
    rw [readings, sites, Lower.sites_node, sites_readingsOf cfg path 0 children]

theorem sites_readingsOf (cfg : Config) (path : Path) (i : Nat) : ∀ children : List Node,
    (readingsOf cfg path i children).flatMap Reading.sites = sitesOf path i children
  | [] => by
    rw [readingsOf, sitesOf]
    rfl
  | child :: rest => by
    rw [readingsOf, sitesOf, List.flatMap_cons, sites_readings cfg (path ++ [i]) child,
      sites_readingsOf cfg path (i + 1) rest]
end

mutual
theorem readings_inOrder (cfg : Config) (path : Path) : ∀ n : Node,
    InOrder (n.readings cfg path)
  | ⟨attrs, children⟩ => by
    rw [readings]
    have below := readingsOf_inOrder cfg path 0 children
    have composed := readingsOf_composed cfg path 0 children fun _ (_ : _) => trivial
    exact .node below (Lower.expression_dispatches cfg _ composed below)
      (Lower.statement_dispatches cfg _ composed below)

theorem readingsOf_inOrder (cfg : Config) (path : Path) (i : Nat) : ∀ children : List Node,
    ∀ t ∈ readingsOf cfg path i children, InOrder t
  | [], t, ht => by
    rw [readingsOf] at ht
    cases ht
  | child :: rest, t, ht => by
    rw [readingsOf] at ht
    rcases List.mem_cons.mp ht with rfl | hrest
    · exact readings_inOrder cfg (path ++ [i]) child
    · exact readingsOf_inOrder cfg path (i + 1) rest t hrest
end

end Node

theorem EntryPoint.lower_dispatches (entry : EntryPoint) (cfg : Config) (n : Node) :
    Lower.Dispatches (n.sites []) (entry.lower cfg n) := by
  have root := n.readings_inOrder cfg []
  rw [← n.sites_readings cfg []]
  cases entry with
  | expression => exact root.expression.before fun _ => .pure _
  | statement => exact root.statement.before fun _ => .pure _
  | script =>
    refine Lower.Dispatches.before (root.statement.before fun lowered => ?_) fun _ => .pure _
    cases lowered <;> exact .pure _

/-- However a tree is lowered and however that ends, the nodes that have been dispatched are some of
the nodes of the tree in the order in which these stand there. So none is dispatched twice, there
are no more of them than nodes, and no node is dispatched before one that stands before it, nor one
below a child before one below a child further left. -/
theorem lower_in_order (entry : EntryPoint) (cfg : Config) (n : Node) (s : Session) :
    ∃ events, (s.run (entry.lower cfg n)).2.trace.toList = s.trace.toList ++ events ∧
      let dispatched := events.filterMap Event.dispatched?
      dispatched.Sublist ((n.sites []).map Site.mark) ∧
      (dispatched.map Prod.fst).Nodup ∧
      dispatched.length ≤ (n.sites []).length ∧
      (dispatched.map Prod.fst).Pairwise (· < ·) ∧
      ∀ (path : Path) (i j : Nat) (p q : Path), i < j → path ++ [i] <+: p → path ++ [j] <+: q →
        ¬ [q, p].Sublist (dispatched.map Prod.fst) := by
  obtain ⟨events, trace, marks⟩ := entry.lower_dispatches cfg n s
  have places : ((events.filterMap Event.dispatched?).map Prod.fst).Pairwise (· < ·) := by
    have all : ((n.sites []).map Site.path).Pairwise (· < ·) :=
      List.pairwise_map.mpr (n.sites_pairwise_lt [])
    have sub := marks.map Prod.fst
    rw [List.map_map] at sub
    exact all.sublist sub
  have distinct : ((events.filterMap Event.dispatched?).map Prod.fst).Nodup :=
    places.imp fun lt => by
      rintro rfl
      exact List.lt_irrefl _ lt
  have count := marks.length_le
  rw [List.length_map] at count
  refine ⟨events, trace, marks, distinct, count, places, fun path i j p q hij hp hq swapped => ?_⟩
  have before := Path.lt_of_child_lt hij hp hq
  have after : q < p := by simpa using places.sublist swapped
  exact List.lt_irrefl _ (List.lt_trans before after)

end ScriptIR
