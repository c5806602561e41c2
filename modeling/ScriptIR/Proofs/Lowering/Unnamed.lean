import ScriptIR.Proofs.Lowering.Recovery

/-!
# Functions without a name

Where an expression stands, lowering recovers from any malformed node. Where a statement stands it
does not: a function without a name ends the run, unless there is an expression around it. The first
such function of a tree is `Node.unnamedFunction?`; a script is lowered exactly if there is none. No
other malformed node can end a run.
-/
namespace ScriptIR

open Lower (Composed AllComposed)

namespace Node

mutual
/-- The first function without a name that stands where a statement does in the tree at `path`. -/
def unnamedFunction? (path : Path) : Node → Option Site
  | ⟨attrs, children⟩ =>
    if attrs.kind.isBlock then unnamedAmong? path 0 children
    else if attrs.kind = .functionDefinition then
      match nonEmpty? attrs.name with
      | none => some ⟨path, ⟨attrs, children⟩⟩
      | some _ => unnamedInBody? path 0 children
    else none

/-- The same for the statements of a block, from number `i` on. -/
def unnamedAmong? (path : Path) (i : Nat) : List Node → Option Site
  | [] => none
  | child :: rest => (unnamedFunction? (path ++ [i]) child).or (unnamedAmong? path (i + 1) rest)

/-- The same for the body of a function, which is its first script block. -/
def unnamedInBody? (path : Path) (i : Nat) : List Node → Option Site
  | [] => none
  | child :: rest =>
    if child.label.kind = .scriptBlock then unnamedFunction? (path ++ [i]) child
    else unnamedInBody? path (i + 1) rest
end

end Node

/-- A run has ended leniently: with a value, or because of the unnamed function that is given. -/
inductive Session.EndsAt {α : Type} : Option Site → Except Fault α × Session → Prop
  | value (a : α) {t : Session} : t.Lenient → EndsAt none (.ok a, t)
  | unnamed {site : Site} {t : Session} : t.Lenient →
      EndsAt (some site) (.error (.malformed .unnamedFunction site), t)

theorem Session.EndsAt.outcome {α : Type} {site : Site} {ended : Except Fault α × Session}
    (h : EndsAt (some site) ended) : ended.1 = .error (.malformed .unnamedFunction site) := by
  cases h
  rfl

/-- From every lenient session, the action ends because of the unnamed function that is given, or
with a value if none is. -/
def Lower.GivesUpAt {α : Type} (unnamed : Option Site) (m : Lower α) : Prop :=
  ∀ s : Session, s.Lenient → Session.EndsAt unnamed (s.run m)

namespace Lower
open Session
variable {α β : Type} {c d : Option Site}

theorem givesUpAt_none_of_returns {cfg : Config} {known : Site → Prop}
    (shown : ∀ site, known site → site.Shown)
    {m : Lower α} (composed : Composed cfg known m)
    (returns : ∀ s : Session, s.Lenient → ∃ a t, s.run m = (.ok a, t)) : GivesUpAt none m := by
  intro s hs
  obtain ⟨a, t, hm⟩ := returns s hs
  have ended := composed.soft shown s hs
  rw [hm] at ended ⊢
  exact .value a ended.lenient

namespace GivesUpAt

theorem value {m : Lower α} (h : GivesUpAt none m) {s : Session} (hs : s.Lenient) :
    ∃ a t, s.run m = (.ok a, t) ∧ t.Lenient := by
  have ended := h s hs
  cases hm : s.run m with
  | mk outcome t =>
    rw [hm] at ended
    cases ended with
    | value a ht => exact ⟨a, t, rfl, ht⟩

theorem error {m : Lower α} {site : Site} (h : GivesUpAt (some site) m) {s : Session}
    (hs : s.Lenient) : ∃ t, s.run m = (.error (.malformed .unnamedFunction site), t) := by
  have ended := h s hs
  cases hm : s.run m with
  | mk outcome t =>
    rw [hm] at ended
    cases ended with
    | unnamed ht => exact ⟨t, rfl⟩

theorem pure (a : α) : GivesUpAt none (pure a : Lower α) :=
  fun _ hs => .value a hs

theorem malformed (site : Site) :
    GivesUpAt (some site) (malformed .unnamedFunction site : Lower α) :=
  fun _ hs => .unnamed hs

/-- The first of two actions that gives up ends both. -/
theorem bind {m : Lower α} {f : α → Lower β} (h : GivesUpAt c m) (k : ∀ a, GivesUpAt d (f a)) :
    GivesUpAt (c.or d) (m >>= f) := by
  intro s hs
  cases hm : s.run m with
  | mk outcome t =>
    have ended := h s hs
    rw [hm] at ended
    cases ended with
    | value a ht =>
      rw [run_bind_of_ok hm, Option.none_or]
      exact k a t ht
    | unnamed ht =>
      rw [run_bind_of_error hm, Option.some_or]
      exact .unnamed ht

theorem before {m : Lower α} {f : α → Lower β} (h : GivesUpAt c m)
    (k : ∀ a, GivesUpAt none (f a)) : GivesUpAt c (m >>= f) := by
  have both := h.bind k
  rwa [Option.or_none] at both

theorem after {m : Lower α} {f : α → Lower β} (h : GivesUpAt none m)
    (k : ∀ a, GivesUpAt c (f a)) : GivesUpAt c (m >>= f) := by
  have both := h.bind k
  rwa [Option.none_or] at both

theorem mapM_none {f : α → Lower β} {xs : List α} (h : ∀ x ∈ xs, GivesUpAt none (f x)) :
    GivesUpAt none (xs.mapM f) := by
  induction xs with
  | nil => exact .pure []
  | cons x xs ih =>
    rw [List.mapM_cons]
    have rest := ih fun y hy => h y (List.mem_cons_of_mem _ hy)
    exact (h x List.mem_cons_self).after fun _ => rest.before fun _ => .pure _

section
variable {cfg : Config} {known : Site → Prop}

/-- A scope does not change where its body gives up. -/
theorem inBlock {code : Option String} {body : Lower α} (composed : Composed cfg known body)
    (h : GivesUpAt c body) : GivesUpAt c (inScope (.block code) body) := by
  intro s hs
  have ended := h (s.opening (.block code)) hs
  cases hbody : (s.opening (.block code)).run body with
  | mk outcome t =>
    rw [hbody] at ended
    rw [composed.run_inBlock hbody]
    cases ended with
    | value a ht => exact .value a ht
    | unnamed ht => exact .unnamed ht

theorem defining {header : Function} {body : Lower Statement} (composed : Composed cfg known body)
    (h : GivesUpAt c body) : GivesUpAt c (defining header body) := by
  intro s hs
  have ended := h (s.openingFunction header) hs
  cases hbody : (s.openingFunction header).run body with
  | mk outcome t =>
    rw [hbody] at ended
    cases ended with
    | value lowered ht =>
      rw [composed.run_defining_of_ok hbody]
      exact .value _ ht
    | unnamed ht =>
      rw [composed.run_defining_of_error hbody]
      exact .unnamed ht

end

end GivesUpAt

/-! ### Nodes by kind -/

theorem typeOfText_givesUpAt (text : Option String) {site : Site} (hsite : site.Shown) :
    GivesUpAt none (typeOfText text (some site)) := by
  have composed : Composed {} Site.Shown (typeOfText text (some site)) :=
    typeOfText_composed text hsite
  refine givesUpAt_none_of_returns (fun _ shown => shown) composed fun s hs => ?_
  obtain ⟨type, t, hrun, _⟩ := run_typeOfText text hsite hs
  exact ⟨type, t, hrun⟩

theorem parameters_giveUpAt (cfg : Config) {site : Site} (h : ∀ p ∈ site.parameters, p.Shown) :
    GivesUpAt none (site.parameters.zipIdx.mapM fun p => parameter cfg p.1 p.2) := by
  refine .mapM_none fun p hp => ?_
  have shown := h p.1 (List.fst_mem_of_mem_zipIdx hp)
  exact (typeOfText_givesUpAt _ shown).after fun _ => .pure _

section
variable (cfg : Config) {site : Site} {children : List (Tree Reading)}
variable (hchildren : AllComposed cfg Site.Shown children)
include hchildren

variable {cfg} in
theorem blockOf_givesUpAt (h : GivesUpAt c (children.mapM (·.label.statement))) :
    GivesUpAt c (blockOf site children) := by
  have composed : Composed cfg Site.Shown (children.mapM (·.label.statement)) :=
    .mapM fun child hchild => (hchildren.label hchild).statement
  exact (h.inBlock composed).before fun _ => .pure _

variable (hsite : site.Shown) (hparameters : ∀ p ∈ site.parameters, p.Shown)
include hsite hparameters

/-- A statement that is an expression always gives a value. -/
theorem expression_givesUpAt : GivesUpAt none (expression cfg site children) :=
  givesUpAt_none_of_returns (fun _ shown => shown)
    (expression_composed cfg hchildren hsite hparameters) fun _ hs =>
      expression_returns (fun _ shown => shown) hs hchildren hsite hparameters

omit hchildren hsite hparameters in
theorem function_givesUpAt_of_unnamed (hkind : site.attributes.kind = .functionDefinition)
    (hname : nonEmpty? site.attributes.name = none) :
    GivesUpAt (some site) (function cfg site children) := by
  unfold function
  dsimp only
  rw [if_pos hkind, hname]
  exact .malformed site

omit hsite in
/-- A function with a name gives up where its body does. -/
theorem function_givesUpAt (hkind : site.attributes.kind = .functionDefinition) {name : String}
    (hname : nonEmpty? site.attributes.name = some name)
    (hbody : ∀ body, children.find? (·.label.kind = .scriptBlock) = some body →
      GivesUpAt c body.label.statement)
    (hnone : children.find? (·.label.kind = .scriptBlock) = none → c = none) :
    GivesUpAt c (function cfg site children) := by
  unfold function
  dsimp only
  rw [if_pos hkind, hname]
  refine (parameters_giveUpAt cfg hparameters).after fun ps => ?_
  cases hfind : children.find? (·.label.kind = .scriptBlock) with
  | none =>
    rw [hnone hfind]
    exact fun s hs => .value _ hs
  | some body =>
    have composed := (hchildren.label (List.mem_of_find?_eq_some hfind)).statement
    exact GivesUpAt.defining composed (hbody body hfind)

end

end Lower

/-! ### Trees -/

open Lower (GivesUpAt)
open Session (run_bind_of_ok run_bind_of_error)

namespace Node
variable (cfg : Config)

/-- Where there is no body, there is no unnamed function in it. -/
theorem unnamedInBody?_of_no_body (path : Path) (i : Nat) (children : List Node)
    (h : (readingsOf cfg path i children).find? (·.label.kind = .scriptBlock) = none) :
    unnamedInBody? path i children = none := by
  induction children generalizing i with
  | nil => rw [unnamedInBody?]
  | cons child rest ih =>
    rw [readingsOf, List.find?_cons] at h
    rw [unnamedInBody?]
    split at h
    · cases h
    next other =>
      rw [readings_kind, decide_eq_false_iff_not] at other
      rw [if_neg other]
      exact ih (i + 1) h

/-- Parameter blocks, which a block leaves out, have nothing to give up on. -/
theorem unnamedFunction?_of_paramBlock (path : Path) {n : Node} (h : n.label.kind = .paramBlock) :
    n.unnamedFunction? path = none := by
  obtain ⟨attrs, children⟩ := n
  have kind : attrs.kind = .paramBlock := h
  rw [unnamedFunction?, kind]
  rfl

mutual
/-- A statement gives up at the first unnamed function in it that stands where a statement does. -/
theorem statement_givesUpAt (path : Path) : ∀ n : Node, (∀ s ∈ n.sites path, s.Shown) →
    GivesUpAt (n.unnamedFunction? path) (n.readings cfg path).label.statement
  | ⟨attrs, children⟩, shown => by
    have parameters : ∀ p ∈ Site.parameters ⟨path, ⟨attrs, children⟩⟩, p.Shown := fun p hp =>
      shown p (Site.parameters_subset_within _ hp)
    rw [sites] at shown
    have below : ∀ s ∈ sitesOf path 0 children, s.Shown := fun s hs =>
      shown s (List.mem_cons_of_mem _ hs)
    have composed := readingsOf_composed cfg path 0 children below
    have self := shown _ List.mem_cons_self
    rw [readings, unnamedFunction?]
    change GivesUpAt _ (Lower.statement cfg ⟨path, ⟨attrs, children⟩⟩ _)
    unfold Lower.statement
    rw [Site.attributes_mk]
    by_cases block : attrs.kind.isBlock = true
    · rw [if_pos block, if_pos block]
      exact Lower.blockOf_givesUpAt (composed.subset List.filter_sublist.subset)
        (statements_givesUpAt path 0 children below)
    · rw [if_neg block, if_neg block]
      by_cases definition : attrs.kind = .functionDefinition
      · rw [if_pos definition, if_pos definition]
        refine GivesUpAt.before ?_ fun _ => .pure _
        cases name : nonEmpty? attrs.name with
        | none => exact Lower.function_givesUpAt_of_unnamed cfg definition name
        | some name =>
          exact Lower.function_givesUpAt cfg composed parameters definition name
            (body_givesUpAt path 0 children below) (unnamedInBody?_of_no_body cfg path 0 children)
      · rw [if_neg definition, if_neg definition]
        exact (Lower.expression_givesUpAt cfg composed self parameters).before fun _ => .pure _

theorem statements_givesUpAt (path : Path) (i : Nat) : ∀ children : List Node,
    (∀ s ∈ sitesOf path i children, s.Shown) →
    GivesUpAt (unnamedAmong? path i children)
      (((readingsOf cfg path i children).filter (·.label.kind ≠ .paramBlock)).mapM
        (·.label.statement))
  | [], _ => by
    rw [unnamedAmong?, readingsOf]
    exact .pure []
  | child :: rest, shown => by
    rw [sitesOf] at shown
    have first := statement_givesUpAt (path ++ [i]) child fun s hs =>
      shown s (List.mem_append_left _ hs)
    have others := statements_givesUpAt path (i + 1) rest fun s hs =>
      shown s (List.mem_append_right _ hs)
    rw [unnamedAmong?, readingsOf, List.filter_cons, readings_kind]
    by_cases h : child.label.kind = .paramBlock
    · rw [unnamedFunction?_of_paramBlock _ h, Option.none_or, if_neg (by simpa using h)]
      exact others
    · rw [if_pos (by simpa using h), List.mapM_cons]
      exact first.bind fun _ => others.before fun _ => .pure _

theorem body_givesUpAt (path : Path) (i : Nat) : ∀ children : List Node,
    (∀ s ∈ sitesOf path i children, s.Shown) → ∀ body,
    (readingsOf cfg path i children).find? (·.label.kind = .scriptBlock) = some body →
    GivesUpAt (unnamedInBody? path i children) body.label.statement
  | [], _, body, hbody => by
    rw [readingsOf] at hbody
    cases hbody
  | child :: rest, shown, body, hbody => by
    rw [sitesOf] at shown
    rw [readingsOf, List.find?_cons, readings_kind] at hbody
    rw [unnamedInBody?]
    by_cases h : child.label.kind = .scriptBlock
    · rw [if_pos h]
      rw [decide_eq_true h] at hbody
      exact Option.some.inj hbody ▸ statement_givesUpAt (path ++ [i]) child fun s hs =>
        shown s (List.mem_append_left _ hs)
    · rw [if_neg h]
      rw [decide_eq_false h] at hbody
      exact body_givesUpAt path (i + 1) rest (fun s hs => shown s (List.mem_append_right _ hs))
        body hbody
end

mutual
/-- What is found is a function definition of the tree, and has no name. -/
theorem unnamedFunction?_spec (path : Path) : ∀ n : Node, ∀ {site : Site},
    n.unnamedFunction? path = some site → site ∈ n.sites path ∧
      site.attributes.kind = .functionDefinition ∧ nonEmpty? site.attributes.name = none
  | ⟨attrs, children⟩, site, h => by
    rw [unnamedFunction?] at h
    rw [sites]
    split at h
    · obtain ⟨found, unnamed⟩ := unnamedAmong?_spec path 0 children h
      exact ⟨List.mem_cons_of_mem _ found, unnamed⟩
    · split at h
      next definition =>
        split at h
        next unnamed =>
          obtain rfl := Option.some.inj h
          exact ⟨List.mem_cons_self, definition, unnamed⟩
        · obtain ⟨found, unnamed⟩ := unnamedInBody?_spec path 0 children h
          exact ⟨List.mem_cons_of_mem _ found, unnamed⟩
      · cases h

theorem unnamedAmong?_spec (path : Path) (i : Nat) : ∀ children : List Node, ∀ {site : Site},
    unnamedAmong? path i children = some site → site ∈ sitesOf path i children ∧
      site.attributes.kind = .functionDefinition ∧ nonEmpty? site.attributes.name = none
  | [], site, h => by
    rw [unnamedAmong?] at h
    cases h
  | child :: rest, site, h => by
    rw [unnamedAmong?, Option.or_eq_some_iff] at h
    rw [sitesOf]
    rcases h with first | ⟨_, later⟩
    · obtain ⟨found, unnamed⟩ := unnamedFunction?_spec (path ++ [i]) child first
      exact ⟨List.mem_append_left _ found, unnamed⟩
    · obtain ⟨found, unnamed⟩ := unnamedAmong?_spec path (i + 1) rest later
      exact ⟨List.mem_append_right _ found, unnamed⟩

theorem unnamedInBody?_spec (path : Path) (i : Nat) : ∀ children : List Node, ∀ {site : Site},
    unnamedInBody? path i children = some site → site ∈ sitesOf path i children ∧
      site.attributes.kind = .functionDefinition ∧ nonEmpty? site.attributes.name = none
  | [], site, h => by
    rw [unnamedInBody?] at h
    cases h
  | child :: rest, site, h => by
    rw [unnamedInBody?] at h
    rw [sitesOf]
    split at h
    · obtain ⟨found, unnamed⟩ := unnamedFunction?_spec (path ++ [i]) child h
      exact ⟨List.mem_append_left _ found, unnamed⟩
    · obtain ⟨found, unnamed⟩ := unnamedInBody?_spec path (i + 1) rest h
      exact ⟨List.mem_append_right _ found, unnamed⟩
end

end Node

/-- A script that is lowered has become a block. -/
theorem block_of_lowerScript {cfg : Config} {n : Node} {s t : Session} {lowered : Statement}
    (h : s.run (lowerScript cfg n) = (.ok lowered, t)) :
    ∃ origin statements, lowered = .block origin statements := by
  unfold lowerScript at h
  cases hrun : s.run (lowerStatement cfg n) with
  | mk outcome u =>
    cases outcome with
    | error e =>
      rw [run_bind_of_error hrun] at h
      cases h
    | ok statement =>
      rw [run_bind_of_ok hrun] at h
      cases statement <;> cases h <;> exact ⟨_, _, rfl⟩

theorem lowerScript_givesUpAt {cfg : Config} {n : Node}
    (h : GivesUpAt (n.unnamedFunction? []) (lowerStatement cfg n)) :
    GivesUpAt (n.unnamedFunction? []) (lowerScript cfg n) := by
  refine h.before fun lowered => ?_
  cases lowered <;> exact .pure _

/-- From a lenient session, and with files that can be shown, a script becomes a block and a
statement a statement, unless a function without a name stands where a statement does: then the
first of these ends the run. That goes for every statement of the tree. Any other malformed node is
one below an expression, which becomes unknown, and is recorded as an error. -/
theorem lowerScript_ends (cfg : Config) (n : Node) (files : n.FilesShown) {s : Session}
    (hs : s.Lenient) :
    Session.EndsAt (n.unnamedFunction? []) (s.run (lowerScript cfg n)) ∧
      (∀ lowered t, s.run (lowerScript cfg n) = (.ok lowered, t) →
        ∃ origin statements, lowered = .block origin statements) ∧
      Session.EndsAt (n.unnamedFunction? []) (s.run (lowerStatement cfg n)) ∧
      (∀ culprit, n.unnamedFunction? [] = some culprit → culprit ∈ n.sites [] ∧
        culprit.attributes.kind = .functionDefinition ∧
        nonEmpty? culprit.attributes.name = none) ∧
      ∀ site ∈ n.sites [], ∀ u : Session, u.Lenient →
        Session.EndsAt (site.node.unnamedFunction? site.path)
          (u.run (site.reading cfg).statement) ∧
        ∀ handler m culprit t,
          Lower.expressionOf? cfg site (site.below cfg) site.attributes.kind = some handler →
          (u.dispatching site).run handler = (.error (.malformed m culprit), t) →
          culprit ∈ site.within ∧ ∃ v,
            u.run (site.reading cfg).expression = (.ok site.unknown, v) ∧
            v.scopes = t.scopes ∧
            v.entries = t.entries ++ [m.entry culprit.attributes] := by
  have root : GivesUpAt (n.unnamedFunction? []) (lowerStatement cfg n) :=
    n.statement_givesUpAt cfg [] files
  refine ⟨lowerScript_givesUpAt root s hs, fun _ _ => block_of_lowerScript, root s hs,
    fun _ => n.unnamedFunction?_spec [], ?_⟩
  intro site h u hu
  have shown := files.within h
  refine ⟨site.node.statement_givesUpAt cfg site.path shown u hu, ?_⟩
  intro handler m culprit t hh hrun
  obtain ⟨m, culprit, hculprit, same, unknown⟩ := Site.expression_of_error cfg shown hu hh hrun
  cases same
  exact ⟨hculprit, _, unknown, rfl, Session.entries_reported_malformed m⟩

/-- A script of one function without a name is not lowered. -/
theorem lowerScript_ends_unnamed :
    (Node.bare .scriptBlock [.bare .functionDefinition []]).FilesShown ∧
      (Session.start {}).Lenient ∧
      ((Session.start {}).run
        (lowerScript {} (.bare .scriptBlock [.bare .functionDefinition []]))).1 =
          .error (.malformed .unnamedFunction ⟨[0], .bare .functionDefinition []⟩) := by
  have files : (Node.bare .scriptBlock [.bare .functionDefinition []]).FilesShown := by decide
  have start : (Session.start {}).Lenient := rfl
  have ended := (lowerScript_ends {} _ files start).1
  exact ⟨files, start, ended.outcome⟩

end ScriptIR
