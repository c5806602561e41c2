import ScriptIR.Proofs.Lowering.Frames
import ScriptIR.Proofs.Scope.Visible

/-!
# What lowered programs are made of

A lowered program holds unknown expressions, bound calls and function definitions;
`Expression.contents` lists them in the order in which they were made. `Session.Accounts R F` asks
of a relation `R` between a session, a list of such contents and a later session that it chains and
holds of each step that makes something; `F` has to hold where a node was given up on and an
expression became unknown in its place. Then `R` holds of every run with what the run has made, by
`EntryPoint.lower_gives`.
-/
namespace ScriptIR

/-! ### Contents -/

/-- An unknown expression, the function that a call is bound to, or a function that is defined. -/
inductive Content where
  | unknown
  | call (f : Function)
  | definition (f : Function)

mutual
/-- What an expression holds. The declaration that a call is bound to is no part of the call. -/
@[simp] def Expression.contents : Expression → List Content
  | .literal .. | .reference .. => []
  | .binary _ _ lhs rhs _ => lhs.contents ++ rhs.contents
  | .unary _ _ _ operand => operand.contents
  | .call _ _ arguments declaration =>
    declaration.toList.map .call ++ Argument.contentsOf arguments
  | .initializer _ _ elements => Expression.contentsOf elements
  | .cast _ _ inner => inner.contents
  | .compound _ statement => statement.contents
  | .definition _ declaration => declaration.contents
  | .unknown .. => [.unknown]

def Expression.contentsOf : List Expression → List Content
  | [] => []
  | e :: es => e.contents ++ Expression.contentsOf es

@[simp] def Argument.contents : Argument → List Content
  | .mk expression _ _ => expression.contents

def Argument.contentsOf : List Argument → List Content
  | [] => []
  | a :: rest => a.contents ++ Argument.contentsOf rest

@[simp] def Function.contents : Function → List Content
  | .mk origin name parameters body =>
    .definition (.mk origin name parameters body) :: body.contents

@[simp] def Body.contents : Body → List Content
  | .none | .unfinished => []
  | .statement s => s.contents

@[simp] def Declaration.contents : Declaration → List Content
  | .function f => f.contents
  | .parameter _ | .plain .. => []

@[simp] def Statement.contents : Statement → List Content
  | .expression _ expression => expression.contents
  | .definition _ declaration => declaration.contents
  | .block _ statements => Statement.contentsOf statements

def Statement.contentsOf : List Statement → List Content
  | [] => []
  | s :: ss => s.contents ++ Statement.contentsOf ss
end

@[simp] def Part.contents : Part → List Content
  | expression e => e.contents
  | statement s => s.contents
  | declaration d => d.contents

@[simp] theorem Expression.contentsOf_eq_flatMap (es : List Expression) :
    contentsOf es = es.flatMap contents := by
  induction es with
  | nil => rfl
  | cons e es ih => rw [contentsOf, ih, List.flatMap_cons]

@[simp] theorem Argument.contentsOf_eq_flatMap (as : List Argument) :
    contentsOf as = as.flatMap contents := by
  induction as with
  | nil => rfl
  | cons a as ih => rw [contentsOf, ih, List.flatMap_cons]

@[simp] theorem Statement.contentsOf_eq_flatMap (ss : List Statement) :
    contentsOf ss = ss.flatMap contents := by
  induction ss with
  | nil => rfl
  | cons s ss ih => rw [contentsOf, ih, List.flatMap_cons]

@[simp] theorem Function.contents_withBody (f : Function) (body : Statement) :
    (f.withBody body).contents = .definition (f.withBody body) :: body.contents := by
  rw [withBody, contents, Body.contents]

@[simp] theorem Site.contents_unknown (site : Site) : site.unknown.contents = [.unknown] := by
  rw [unknown, Expression.contents]

/-! ### Accounts of runs -/

/-- A relation of a session, the contents that a run from it has made, and the session at its end:
it chains, and it holds of every step that ends well. Where a node was given up on, the sessions
before and after that are related by `F`. -/
structure Session.Accounts (R : Session → List Content → Session → Prop)
    (F : Session → Session → Prop) : Prop where
  refl : ∀ s, R s [] s
  trans : ∀ {s t u xs ys}, R s xs t → R t ys u → R s (xs ++ ys) u
  event : ∀ (s : Session) (e : Event), e.report? = none → R s [] (s.record e)
  report : ∀ (s : Session) (site : Site) (issue : Issue), R s [] (s.reported site issue)
  unsupported : ∀ (s : Session) (site : Site) (issue : Issue), issue.category = .unsupportedKind →
    R s [.unknown] (s.reported site issue)
  recovered : ∀ {s t} (culprit : Site) (m : Malformation), F s t →
    R s [.unknown] (t.reported culprit (.malformed m))
  call : ∀ {s : Session} {f}, f ∈ s.scopes.visible → R s [.call f] s
  block : ∀ {s t xs} (code : Option String), R (s.opening (.block code)) xs t →
    R s xs (s.closing t (.block code))
  declared : ∀ (s : Session) (f : Function), R s [.definition f] (s.declare (.function f))
  defining : ∀ {s t xs} {header : Function} (body : Statement),
    R (s.openingFunction header) xs t → R s (.definition (header.withBody body) :: xs)
      ((s.closingFunction t header).redeclare (.function (header.withBody body)))

/-- What the action gives holds the contents that are on account already, and behind them
what the run has made. -/
def Lower.Gives (R : Session → List Content → Session → Prop) (credit : List Content) {α : Type}
    (contents : α → List Content) (m : Lower α) : Prop :=
  ∀ s t a, s.run m = (.ok a, t) → ∃ xs, contents a = credit ++ xs ∧ R s xs t

/-- Where the action gives up on a malformed node, the sessions before and after
that are related. -/
def Lower.Retreats (F : Session → Session → Prop) {α : Type} (m : Lower α) : Prop :=
  ∀ s t f culprit, s.run m = (.error (.malformed f culprit), t) → F s t

namespace Lower.Gives
open Session
variable {R : Session → List Content → Session → Prop} {F : Session → Session → Prop}
variable {α β : Type} {credit : List Content} {contents : α → List Content}

theorem malformed (m : Malformation) (site : Site) :
    Gives R credit contents (malformed m site : Lower α) := by
  intro s t a hrun
  cases hrun

section
variable (rules : Accounts R F)
include rules

theorem pure {a : α} (h : contents a = credit) : Gives R credit contents (pure a : Lower α) := by
  intro s t b hrun
  obtain ⟨rfl, rfl⟩ := run_pure_eq_ok.mp hrun
  exact ⟨[], by rw [h, List.append_nil], rules.refl s⟩

/-- What the first action gives is on the account of the second. -/
theorem bind {part : β → List Content} {m : Lower β} {f : β → Lower α} (h : Gives R [] part m)
    (k : ∀ b, Gives R (credit ++ part b) contents (f b)) : Gives R credit contents (m >>= f) := by
  intro s u a hrun
  obtain ⟨b, t, first, second⟩ := run_bind_eq_ok.mp hrun
  obtain ⟨xs, made, related⟩ := h s t b first
  obtain ⟨ys, all, related'⟩ := k b t u a second
  rw [List.nil_append] at made
  refine ⟨xs ++ ys, ?_, rules.trans related related'⟩
  rw [all, made, List.append_assoc]

/-- The first action makes nothing that is kept. -/
theorem after {m : Lower β} {f : β → Lower α} (h : Gives R [] (fun _ => []) m)
    (k : ∀ b, Gives R credit contents (f b)) : Gives R credit contents (m >>= f) :=
  h.bind rules fun b => (List.append_nil credit).symm ▸ k b

theorem checked {c : Prop} [Decidable c] {m : Lower Unit} {f : Unit → Lower α}
    (h : Gives R [] (fun _ => []) m) (k : ∀ u, Gives R credit contents (f u)) :
    Gives R credit contents (if c then f () else m >>= f) := by
  split
  · exact k ()
  · exact h.after rules k

theorem report (site : Site) (issue : Issue) :
    Gives R [] (fun _ => []) (report (some site) issue) := by
  intro s t _ hrun
  rw [eq_reported_of_run hrun]
  exact ⟨[], rfl, rules.report s site issue⟩

theorem dispatched (site : Site) :
    Gives R [] (fun _ => []) (record (.dispatched site.path site.attributes.tag)) := by
  intro s t _ hrun
  cases hrun
  exact ⟨[], rfl, rules.event s _ rfl⟩

theorem mapM {f : β → Lower α} {bs : List β} (h : ∀ b ∈ bs, Gives R [] contents (f b)) :
    Gives R [] (fun as => as.flatMap contents) (bs.mapM f) := by
  induction bs with
  | nil => exact pure rules rfl
  | cons b bs ih =>
    rw [List.mapM_cons]
    have rest := ih fun c hc => h c (List.mem_cons_of_mem _ hc)
    refine (h b List.mem_cons_self).bind rules fun a => rest.bind rules fun as => pure rules ?_
    rw [List.flatMap_cons, List.nil_append]

/-- What is not supported is reported and becomes unknown. -/
theorem unsupported (culprit site : Site) (issue : Issue) (h : issue.category = .unsupportedKind) :
    Gives R [] Expression.contents (do
      Lower.report (some culprit) issue
      return site.unknown) := by
  intro s u e hrun
  obtain ⟨_, t, reports, ends⟩ := run_bind_eq_ok.mp hrun
  obtain ⟨rfl, rfl⟩ := run_pure_eq_ok.mp ends
  rw [eq_reported_of_run reports]
  exact ⟨[.unknown], site.contents_unknown, rules.unsupported s culprit issue h⟩

/-- Whatever a body has made that has given up is not kept. -/
theorem orUnknown {site : Site} {body : Lower Expression} (h : Gives R [] Expression.contents body)
    (retreats : Retreats F body) : Gives R [] Expression.contents (orUnknown site body) := by
  intro s
  have inside := h s
  refine run_orUnknown_of (P := fun ended => ∀ u e, ended = (.ok e, u) →
    ∃ xs, e.contents = [] ++ xs ∧ R s xs u) inside fun m culprit t hbody u e hrun => ?_
  obtain ⟨_, v, reports, ends⟩ := run_bind_eq_ok.mp hrun
  obtain ⟨rfl, rfl⟩ := run_pure_eq_ok.mp ends
  rw [eq_reported_of_run reports]
  exact ⟨[.unknown], site.contents_unknown,
    rules.recovered culprit m (retreats s t m culprit hbody)⟩

/-- The callee of a call means a function that can be seen. -/
theorem resolve (cfg : Config) (site : Site) (callee : String) :
    Gives R [] (fun candidates => candidates.head?.toList.map .call) (resolve cfg site callee) := by
  intro s t candidates hrun
  cases hrun
  have resolved := rules.event s (.resolved site.path callee (s.scopes.resolve cfg callee)) rfl
  cases first : (s.scopes.resolve cfg callee).head? with
  | none => exact ⟨[], by simp [first], resolved⟩
  | some f =>
    have seen : f ∈ s.scopes.visible := by
      have candidate := List.mem_of_mem_head? first
      rw [ScopeStack.resolve_eq_filter] at candidate
      exact (List.mem_filter.mp candidate).1
    exact ⟨[.call f], by simp [first], rules.trans (rules.call seen) resolved⟩

/-- A function without a body is its header. -/
theorem declared (origin : Origin) (name : String) (parameters : List Parameter) :
    let header := Function.mk origin name parameters .none
    Gives R [] Function.contents (do
      declare (.function header)
      return header) := by
  intro header s t f hrun
  cases hrun
  exact ⟨_, by simp [header], rules.declared s header⟩

section
variable {cfg : Config} {known : Site → Prop}

theorem inBlock {code : Option String} {body : Lower α} (composed : Composed cfg known body)
    (h : Gives R [] contents body) : Gives R [] contents (inScope (.block code) body) := by
  intro s u a hrun
  cases hbody : (s.opening (.block code)).run body with
  | mk outcome t =>
    rw [composed.run_inBlock hbody] at hrun
    cases hrun
    obtain ⟨xs, made, related⟩ := h _ t a hbody
    exact ⟨xs, made, rules.block code related⟩

/-- A function contains itself, and what its body contains. -/
theorem defining {header : Function} {body : Lower Statement}
    (composed : Composed cfg known body) (h : Gives R [] Statement.contents body) :
    Gives R [] Function.contents (defining header body) := by
  intro s u f hrun
  cases hbody : (s.openingFunction header).run body with
  | mk outcome t =>
    cases outcome with
    | ok lowered =>
      rw [composed.run_defining_of_ok hbody] at hrun
      cases hrun
      obtain ⟨xs, made, related⟩ := h _ t lowered hbody
      refine ⟨_, ?_, rules.defining lowered related⟩
      rw [Function.contents_withBody, made]
      rfl
    | error e =>
      rw [composed.run_defining_of_error hbody] at hrun
      cases hrun

end

end

end Lower.Gives

/-- Whatever a reading gives is made in its run. -/
structure Reading.Gives (R : Session → List Content → Session → Prop) (r : Reading) : Prop where
  expression : Lower.Gives R [] Expression.contents r.expression
  statement : Lower.Gives R [] Statement.contents r.statement

namespace Lower
open Session
variable {R : Session → List Content → Session → Prop} {F : Session → Session → Prop}

/-- Whatever the readings of the given trees give is made in their runs. -/
def AllGive (R : Session → List Content → Session → Prop) (trees : List (Tree Reading)) : Prop :=
  ∀ t ∈ trees, ∀ r ∈ t.labels, r.Gives R

namespace AllGive
variable {trees others : List (Tree Reading)}

theorem label (h : AllGive R trees) {t : Tree Reading} (ht : t ∈ trees) : t.label.Gives R :=
  h t ht _ t.label_mem_labels

theorem subset (h : AllGive R trees) (sub : others ⊆ trees) : AllGive R others :=
  fun t ht => h t (sub ht)

theorem valueLeaf (h : AllGive R trees) :
    ∀ value ∈ trees.flatMap valueLeaves, Gives R [] Expression.contents value := by
  intro value hvalue
  obtain ⟨item, hitem, hleaf⟩ := List.mem_flatMap.mp hvalue
  obtain ⟨r, hr, rfl⟩ := mem_labels_of_mem_valueLeaves hleaf
  exact (h item hitem r hr).expression

end AllGive

section
variable (rules : Accounts R F)
include rules

/-! ### Types, parameters and arguments -/

theorem typeOfText_gives (text : Option String) (site : Site) :
    Gives R [] (fun _ => []) (typeOfText text (some site)) := by
  unfold typeOfText
  split
  · exact .pure rules rfl
  · split
    · exact .pure rules rfl
    · split
      · exact .pure rules rfl
      · exact .after rules (.report rules site _) fun _ => .pure rules rfl

theorem typeOfNode_gives (site : Site) : Gives R [] (fun _ => []) (typeOfNode site) := by
  unfold typeOfNode
  split
  · split
    · exact typeOfText_gives rules _ site
    · exact .after rules (.report rules site _) fun _ => .pure rules rfl
  · exact .pure rules rfl

theorem parameters_give (cfg : Config) (ps : List (Site × Nat)) :
    Gives R [] (fun _ => []) (ps.mapM fun p => parameter cfg p.1 p.2) := by
  have each : ∀ p ∈ ps, Gives R [] (fun _ => []) (parameter cfg p.1 (p.2 : Nat)) := fun p _ =>
    .after rules (typeOfText_gives rules _ p.1) fun _ => .pure rules rfl
  intro s t parameters hrun
  obtain ⟨xs, made, related⟩ := Gives.mapM rules each s t parameters hrun
  have none : parameters.flatMap (fun _ => ([] : List Content)) = [] :=
    List.flatMap_eq_nil_iff.mpr fun _ _ => rfl
  exact ⟨xs, none.symm.trans made, related⟩

theorem flagIndex_gives (cfg : Config) (callee : String) (candidates : List Function) (flag : Site)
    (number : Nat) : Gives R [] (fun _ => []) (flagIndex cfg callee candidates flag number) := by
  unfold flagIndex
  dsimp only
  split
  · exact .pure rules rfl
  · split
    · exact .pure rules rfl
    · exact .after rules (.report rules flag _) fun _ => .pure rules rfl

omit rules in
theorem slots_give (i : Nat) {items : List (Tree Reading)} (h : AllGive R items) :
    ∀ slot ∈ slots i items, ∀ value ∈ slot.values, Gives R [] Expression.contents value := by
  intro slot hslot value hvalue
  obtain ⟨t, ht, r, hr, rfl⟩ := (slots_from i items slot hslot).values value hvalue
  exact (h t ht r hr).expression

/-- What the expressions among the arguments of a slot hold. -/
def contentsIn (group : List (Expression × Int)) : List Content :=
  group.flatMap (·.1.contents)

omit rules in
theorem contentsIn_mapIdx (es : List Expression) :
    contentsIn (es.mapIdx fun i e => (e, (i : Int))) = es.flatMap Expression.contents := by
  rw [contentsIn, List.flatMap_def, List.flatMap_def]
  exact congrArg List.flatten (List.ext_getElem (by simp) (by simp))

omit rules in
theorem contentsOf_mapIdx (es : List (Expression × Int)) :
    Argument.contentsOf (es.mapIdx fun position e => .mk e.1 e.2 position) = contentsIn es := by
  rw [Argument.contentsOf_eq_flatMap, contentsIn, List.flatMap_def, List.flatMap_def]
  exact congrArg List.flatten (List.ext_getElem (by simp) (by simp))

theorem lowerSlot_gives (cfg : Config) (callee : String) (candidates : List Function) {slot : Slot}
    (h : ∀ value ∈ slot.values, Gives R [] Expression.contents value) :
    Gives R [] contentsIn (lowerSlot cfg callee candidates slot) := by
  cases slot with
  | flag site value number =>
    refine .after rules (flagIndex_gives rules cfg callee candidates site number) fun _ => ?_
    refine (h value (by simp [Slot.values])).bind rules fun e => .pure rules ?_
    simp [contentsIn]
  | block value number =>
    refine (h value (by simp [Slot.values])).bind rules fun e => .pure rules ?_
    simp [contentsIn]
  | group values =>
    refine (Gives.mapM rules h).bind rules fun es => .pure rules ?_
    rw [contentsIn_mapIdx, List.nil_append]

theorem bindArguments_gives (cfg : Config) (callee : String) (candidates : List Function)
    {items : List (Tree Reading)} (h : AllGive R items) :
    Gives R [] Argument.contentsOf (bindArguments cfg callee candidates items) := by
  have each : ∀ slot ∈ slots 0 items,
      Gives R [] contentsIn (lowerSlot cfg callee candidates slot) :=
    fun slot hslot => lowerSlot_gives rules cfg callee candidates (slots_give 0 h slot hslot)
  rw [bindArguments_eq]
  refine (Gives.mapM rules each).bind rules fun groups => .pure rules ?_
  rw [contentsOf_mapIdx, contentsIn, List.nil_append, ← List.flatMap_id, List.flatMap_assoc]
  rfl

/-! ### Nodes by kind -/

theorem compound_gives (site : Site) {statement : Lower Statement}
    (h : Gives R [] Statement.contents statement) :
    Gives R [] Expression.contents (compound site statement) :=
  h.bind rules fun _ => .pure rules (by simp)

section
variable (cfg : Config) (site : Site) {children : List (Tree Reading)} (h : AllGive R children)
include h

theorem wrapper_gives : Gives R [] Expression.contents (wrapper site children) := by
  cases children with
  | nil => exact .malformed _ _
  | cons first rest =>
    have lowered := (h.label (t := first) List.mem_cons_self).expression
    exact .checked rules (.report rules site _) fun _ => lowered

section
variable {known : Site → Prop} (composed : AllComposed cfg known children)
include composed

variable {cfg} in
theorem blockOf_gives : Gives R [] Statement.contents (blockOf site children) := by
  have body : Composed cfg known (children.mapM (·.label.statement)) :=
    .mapM fun child hchild => (composed.label hchild).statement
  have lowered := Gives.mapM rules fun child hchild => (h.label (t := child) hchild).statement
  refine (lowered.inBlock rules body).bind rules fun statements => .pure rules ?_
  simp

variable {cfg} in
theorem block_gives : Gives R [] Statement.contents (block site children) :=
  blockOf_gives rules site (h.subset List.filter_sublist.subset)
    (composed.subset List.filter_sublist.subset)

variable {cfg} in
theorem pipeline_gives : Gives R [] Expression.contents (pipeline site children) := by
  unfold pipeline
  split
  · exact .malformed _ _
  next stage => exact (h.label (t := stage) List.mem_cons_self).expression
  · exact compound_gives rules site (block_gives rules site h composed)

variable {cfg} in
theorem scriptBlock_gives : Gives R [] Expression.contents (scriptBlock site children) := by
  unfold scriptBlock
  split
  · exact .malformed _ _
  next only => exact compound_gives rules site (h.label (t := only) List.mem_cons_self).statement
  · exact compound_gives rules site (blockOf_gives rules site h composed)

theorem function_gives : Gives R [] Function.contents (function cfg site children) := by
  unfold function
  refine Gives.checked rules (.malformed _ _) fun _ => ?_
  split
  · refine .after rules (parameters_give rules cfg _) fun ps => ?_
    cases hbody : children.find? (·.label.kind = .scriptBlock) with
    | none => exact .declared rules site.origin _ ps
    | some body =>
      have hmem := List.mem_of_find?_eq_some hbody
      exact (h.label hmem).statement.defining rules (composed.label hmem).statement
  · exact .malformed _ _

end

theorem command_gives : Gives R [] Expression.contents (command cfg site children) := by
  unfold command
  split
  · exact .malformed _ _
  next callee items =>
    have call : ∀ name (candidates : List Function),
        Gives R (candidates.head?.toList.map .call) Expression.contents (do
          let arguments ← bindArguments cfg name candidates items
          pure (Expression.call site.origin name arguments candidates.head?)) :=
      fun name candidates =>
        (bindArguments_gives rules cfg name candidates
          (h.subset (List.subset_cons_self callee items))).bind rules fun _ => .pure rules (by simp)
    refine Gives.checked rules (.malformed _ _) fun _ =>
      (Gives.resolve rules cfg site _).bind rules fun candidates => ?_
    split
    · exact .after rules (.report rules site _) fun _ => call _ _
    · exact call _ _
    · exact .after rules (.report rules site _) fun _ => call _ _

theorem binary_gives : Gives R [] Expression.contents (binary site children) := by
  unfold binary
  split
  · split
    next left right =>
      have lhs := (h.label (t := left) (by simp)).expression
      have rhs := (h.label (t := right) (by simp)).expression
      exact lhs.bind rules fun _ => rhs.bind rules fun _ => .pure rules (by simp)
    · exact .malformed _ _
  · exact .malformed _ _

theorem unary_gives : Gives R [] Expression.contents (unary site children) := by
  unfold unary
  dsimp only
  split
  · split
    · exact .malformed _ _
    next operand rest =>
      have lowered := (h.label (t := operand) List.mem_cons_self).expression
      exact lowered.bind rules fun _ => .pure rules (by simp)
  · exact .malformed _ _

theorem array_gives : Gives R [] Expression.contents (array site children) := by
  refine .after rules (typeOfText_gives rules _ site) fun type => ?_
  refine (Gives.mapM rules h.valueLeaf).bind rules fun elements => .pure rules ?_
  simp

theorem cast_gives : Gives R [] Expression.contents (cast site children) := by
  unfold cast
  split
  next typeNode operand =>
    have inner := (h.label (t := operand) (by simp)).expression
    have finish : ∀ target, Gives R [] Expression.contents (do
        let inner ← operand.label.expression
        pure (Expression.cast site.origin target inner)) :=
      fun _ => inner.bind rules fun _ => .pure rules (by simp)
    dsimp only
    split
    · exact .after rules (typeOfText_gives rules _ site) finish
    · exact .after rules (typeOfNode_gives rules _) finish
  · exact .malformed _ _

end

theorem literal_gives (cfg : Config) (site : Site) :
    Gives R [] Expression.contents (literal cfg site) := by
  unfold literal
  dsimp only
  split
  · exact .pure rules (by simp)
  · exact .after rules (.report rules site _) fun _ => .pure rules (by simp)

section
variable (cfg : Config) (site : Site) {children : List (Tree Reading)}
variable {known : Site → Prop} (h : AllGive R children) (composed : AllComposed cfg known children)
include h composed

/-- Whatever a kind becomes where an expression stands is made in its run. -/
theorem expressionOf?_gives {kind : Kind} {lowered : Lower Expression}
    (hkind : expressionOf? cfg site children kind = some lowered) :
    Gives R [] Expression.contents lowered := by
  unfold expressionOf? at hkind
  split at hkind
  all_goals cases hkind
  all_goals first
    | exact wrapper_gives rules site h
    | exact pipeline_gives rules site h composed
    | exact scriptBlock_gives rules site h composed
    | exact command_gives rules cfg site h
    | exact .after rules (typeOfText_gives rules _ site) fun _ => .pure rules (by simp)
    | exact compound_gives rules site (block_gives rules site h composed)
    | exact binary_gives rules site h
    | exact unary_gives rules site h
    | exact literal_gives rules cfg site
    | exact (function_gives rules cfg site h composed).bind rules fun _ => .pure rules (by simp)
    | exact array_gives rules site h
    | exact cast_gives rules site h
    | exact .unsupported rules _ _ _ rfl

theorem expression_gives (retreats : ∀ handler,
      expressionOf? cfg site children site.attributes.kind = some handler → Retreats F handler) :
    Gives R [] Expression.contents (expression cfg site children) := by
  refine .after rules (.dispatched rules site) fun _ => ?_
  cases hkind : expressionOf? cfg site children site.attributes.kind with
  | none => exact .unsupported rules _ _ _ rfl
  | some lowered =>
    exact (expressionOf?_gives rules cfg site h composed hkind).orUnknown rules
      (retreats lowered hkind)

theorem statement_gives (retreats : ∀ handler,
      expressionOf? cfg site children site.attributes.kind = some handler → Retreats F handler) :
    Gives R [] Statement.contents (statement cfg site children) := by
  unfold statement
  split
  · exact block_gives rules site h composed
  · split
    · exact (function_gives rules cfg site h composed).bind rules fun _ => .pure rules (by simp)
    · have lowered := expression_gives rules cfg site h composed retreats
      exact lowered.bind rules fun _ => .pure rules (by simp)

end

end

end Lower

/-! ### Trees -/

open Lower

/-- Where the handler of a node gives up, the sessions before and after that are related. -/
def Site.Retreats (F : Session → Session → Prop) (cfg : Config) (s : Site) : Prop :=
  ∀ handler, expressionOf? cfg s (s.below cfg) s.attributes.kind = some handler →
    Lower.Retreats F handler

section
variable {R : Session → List Content → Session → Prop} {F : Session → Session → Prop}

theorem Node.readings_give (rules : Session.Accounts R F) (cfg : Config) (path : Path) (n : Node)
    (h : ∀ s ∈ n.sites path, s.Retreats F cfg) : ∀ r ∈ (n.readings cfg path).labels, r.Gives R := by
  refine n.readings_induct cfg path fun s hs below => ?_
  have composed := s.below_composed cfg
  rw [s.reading_eq]
  exact ⟨expression_gives rules cfg s below composed (h s hs),
    statement_gives rules cfg s below composed (h s hs)⟩

/-- What a run of an entry point gives was made in it, step by step. -/
theorem EntryPoint.lower_gives (rules : Session.Accounts R F) (cfg : Config) (entry : EntryPoint)
    (n : Node) (h : ∀ s ∈ n.sites [], s.Retreats F cfg) :
    Gives R [] Part.contents (entry.lower cfg n) := by
  have root := n.readings_give rules cfg [] h _ (Tree.label_mem_labels _)
  cases entry with
  | expression => exact root.expression.bind rules fun _ => .pure rules (by simp)
  | statement => exact root.statement.bind rules fun _ => .pure rules (by simp)
  | script =>
    have script : Gives R [] Statement.contents (lowerScript cfg n) := by
      refine root.statement.bind rules fun lowered => ?_
      cases lowered <;> exact .pure rules (by simp)
    exact script.bind rules fun _ => .pure rules (by simp)

end

end ScriptIR
