import Mathlib.Algebra.GroupWithZero.Nat
import ScriptIR.Proofs.Diagnostics.Recorded
import ScriptIR.Proofs.Lowering.ParameterNames

/-!
# Flags find their parameters

A flag at a call of a known function is bound to the parameter that it names, and that it names none
is reported once, whatever stands before and behind it: nothing else that is lowered for the call
reports this about the flag. The main statement, `flag_finds_parameter`, follows a definition and a
command through both translations of a name.
-/
namespace ScriptIR

/-! ### Flags that name no declared parameter -/

def Issue.isUndeclared : Issue → Bool
  | undeclaredParameter _ _ => true
  | _ => false

namespace Session
variable (path : Path) (s t : Session)

/-- How often it has been reported that the flag at `path` names no declared parameter. -/
def undeclared : Nat :=
  (s.trace.toList.filterMap Event.report?).countP fun r => r.1 == some path && r.2.isUndeclared

theorem undeclared_record {e : Event} (h : e.report? = none) :
    (s.record e).undeclared path = s.undeclared path := by
  simp [undeclared, record, h]

theorem undeclared_reported (site : Site) (issue : Issue) :
    (s.reported site issue).undeclared path = s.undeclared path +
      if site.path = path ∧ issue.isUndeclared = true then 1 else 0 := by
  simp [undeclared, reported, record, Event.report?, List.countP_append, List.countP_singleton]

theorem undeclared_reported_of_issue {issue : Issue} (h : issue.isUndeclared = false)
    (site : Site) : (s.reported site issue).undeclared path = s.undeclared path := by
  simp [undeclared_reported, h]

theorem undeclared_steps {known : Site → Prop} (elsewhere : ∀ site, known site → site.path ≠ path) :
    Steps known fun s t => t.undeclared path = s.undeclared path where
  refl _ := rfl
  trans h k := k.trans h
  scopes _ _ := rfl
  event s _ h := s.undeclared_record path h
  report s site issue h := by simp [undeclared_reported, elsewhere site h]

theorem Recorded.undeclared_eq {s t : Session} {reports : List (Site × Issue)}
    (h : s.Recorded t reports) : t.undeclared path = s.undeclared path +
      reports.countP fun r => r.1.path == path && r.2.isUndeclared := by
  obtain ⟨events, trace, same⟩ := h.trace
  unfold undeclared
  rw [trace, List.filterMap_append, List.countP_append, same, List.countP_map]
  simp [Function.comp_def]

end Session

open Session Lower in
theorem Lower.Composed.keeps_undeclared {cfg : Config} {known : Site → Prop}
    {α : Type} {m : Lower α}
    (h : Composed cfg known m) {path : Path} (elsewhere : ∀ site, known site → site.path ≠ path) :
    Keeps (undeclared path) m :=
  fun s => (h.linked (undeclared_steps path elsewhere) s).related

/-! ### Children in front of a node and behind it -/

namespace Node
variable (path : Path) (i : Nat) (before after : List Node)

theorem sitesOf_append :
    sitesOf path i (before ++ after) =
      sitesOf path i before ++ sitesOf path (i + before.length) after := by
  induction before generalizing i with
  | nil => simp [sitesOf]
  | cons child rest ih =>
    have shifted : i + (rest.length + 1) = i + 1 + rest.length := by omega
    simp [sitesOf, ih, shifted]

theorem places_apart (child : Node) :
    let here := path ++ [before.length]
    (∀ s ∈ sitesOf path 0 before, s.path ≠ here) ∧
      (∀ s ∈ sitesOf here 0 child.children, s.path ≠ here) ∧
      ∀ s ∈ sitesOf path (before.length + 1) after, s.path ≠ here := by
  intro here
  have order := sitesOf_pairwise_lt path 0 (before ++ child :: after)
  rw [sitesOf_append, sitesOf, Nat.zero_add, List.pairwise_append, List.pairwise_append] at order
  obtain ⟨-, ⟨inside, -, behind⟩, inFront⟩ := order
  have self := site_mem_sites here child
  refine ⟨fun s hs same => ?_, fun s hs same => ?_, fun s hs same => ?_⟩
  · have lt := inFront s hs _ (List.mem_append_left _ self)
    exact List.lt_irrefl _ (same ▸ lt)
  · obtain ⟨attrs, children⟩ := child
    rw [sites, List.pairwise_cons] at inside
    have lt := inside.1 s hs
    exact List.lt_irrefl _ (same ▸ lt)
  · have lt := behind _ self s hs
    exact List.lt_irrefl _ (same ▸ lt)

end Node

namespace Lower
open Session

/-! ### The slot of a flag -/

section
variable {item : Tree Reading} (isFlag : item.label.kind = .commandParameter)
variable (before after : List (Tree Reading))
include isFlag

/-- A flag takes a child, the next item or itself for its value, and what comes behind is
bound apart from it. -/
theorem slots_flag (i : Nat) :
    ∃ value j others, slots i (item :: after) = .flag item.label.site value i :: slots j others ∧
      others ⊆ after ∧
      (value = item.label.expression ∨
        ∃ t ∈ item.children ++ after, value = t.label.expression) := by
  have own : ∃ value, slotOf i item = .flag item.label.site value i ∧
      (value = item.label.expression ∨
        ∃ t ∈ item.children ++ after, value = t.label.expression) := by
    unfold slotOf
    rw [isFlag]
    cases item.children with
    | nil => exact ⟨_, rfl, .inl rfl⟩
    | cons value rest => exact ⟨_, rfl, .inr ⟨value, by simp, rfl⟩⟩
  obtain ⟨value, slot, source⟩ := own
  cases after with
  | nil => exact ⟨value, i + 1, [], by simp [slots, slot], by simp, source⟩
  | cons next rest =>
    by_cases takes : takesNext item next = true
    · refine ⟨next.label.expression, i + 2, rest, by simp [slots, takes], by simp, .inr ?_⟩
      exact ⟨next, by simp, rfl⟩
    · exact ⟨value, i + 1, next :: rest, by simp [slots, takes, slot], by simp, source⟩

end

/-! ### Reports about a flag -/

section
variable (cfg : Config) (callee : String) {g : Function} {others : List Function}
variable {s t : Session} {path : Path}

theorem run_flagIndex {flag : Site} {number : Nat} {index : Int}
    (h : s.run (flagIndex cfg callee (g :: others) flag number) = (.ok index, t)) :
    let declared := declaredIndex? cfg (g :: others) (flagName cfg flag.attributes)
    index = declared.getD number ∧
      t.undeclared flag.path = s.undeclared flag.path + if declared = none then 1 else 0 := by
  intro declared
  rw [flagIndex_eq] at h
  cases hdeclared : declared with
  | some k =>
    have lookup : declaredIndex? cfg (g :: others) (flagName cfg flag.attributes) = some k :=
      hdeclared
    simp only [lookup, reduceCtorEq, and_false, if_false] at h
    obtain ⟨rfl, rfl⟩ := run_pure_eq_ok.mp h
    simp
  | none =>
    have lookup : declaredIndex? cfg (g :: others) (flagName cfg flag.attributes) = none :=
      hdeclared
    simp only [lookup, ne_eq, reduceCtorEq, not_false_eq_true, and_self, if_true] at h
    obtain ⟨_, u, hreport, hpure⟩ := run_bind_eq_ok.mp h
    obtain ⟨rfl, rfl⟩ := run_pure_eq_ok.mp hpure
    rw [eq_reported_of_run hreport, undeclared_reported]
    simp [Issue.isUndeclared]

theorem slots_keep_undeclared {known : Site → Prop} {items : List (Tree Reading)}
    (composed : AllComposed cfg known items) (elsewhere : ∀ site, known site → site.path ≠ path)
    (candidates : List Function) (i : Nat) :
    Keeps (undeclared path) ((slots i items).mapM (lowerSlot cfg callee candidates)) := by
  have each : ∀ slot ∈ slots i items, Composed cfg known (lowerSlot cfg callee candidates slot) :=
    fun slot hslot => lowerSlot_composed cfg callee candidates
      (slots_composed i composed slot hslot)
  exact (Composed.mapM each).keeps_undeclared elsewhere

theorem flag_keeps_undeclared {site : Site} {children : List (Tree Reading)}
    (isFlag : site.attributes.kind = .commandParameter) :
    Keeps (undeclared path) (expression cfg site children) := by
  have reference : Keeps (undeclared path) (reference site) :=
    (Keeps.typeOfText (fun error s => s.undeclared_reported_of_issue path rfl site) _).bind
      fun _ => .pure _
  unfold expression
  rw [isFlag]
  refine Keeps.bind (fun s => s.undeclared_record path rfl) fun _ => ?_
  exact reference.orUnknown fun culprit m s => s.undeclared_reported_of_issue path rfl culprit

theorem run_mapM_middle {α β : Type} {f : α → Lower β} {xs ys : List α} {x : α} {zs : List β}
    (h : s.run ((xs ++ x :: ys).mapM f) = (.ok zs, t)) :
    ∃ early y late u v, s.run (xs.mapM f) = (.ok early, u) ∧ u.run (f x) = (.ok y, v) ∧
      v.run (ys.mapM f) = (.ok late, t) ∧ zs = early ++ y :: late := by
  rw [List.mapM_append, List.mapM_cons] at h
  obtain ⟨early, u, hearly, h⟩ := run_bind_eq_ok.mp h
  obtain ⟨rest, _, hrest, hpure⟩ := run_bind_eq_ok.mp h
  obtain ⟨rfl, rfl⟩ := run_pure_eq_ok.mp hpure
  obtain ⟨y, v, hy, hrest⟩ := run_bind_eq_ok.mp hrest
  obtain ⟨late, _, hlate, hpure⟩ := run_bind_eq_ok.mp hrest
  obtain ⟨rfl, rfl⟩ := run_pure_eq_ok.mp hpure
  exact ⟨early, y, late, u, v, hearly, hy, hlate, rfl⟩

theorem run_lowerSlot_flag {candidates : List Function} {flag : Site} {value : Lower Expression}
    {number : Nat} {share : List (Expression × Int)}
    (h : s.run (lowerSlot cfg callee candidates (.flag flag value number)) = (.ok share, t)) :
    ∃ e index u, s.run (flagIndex cfg callee candidates flag number) = (.ok index, u) ∧
      u.run value = (.ok e, t) ∧ share = [(e, index)] := by
  obtain ⟨index, u, hindex, h⟩ := run_bind_eq_ok.mp h
  obtain ⟨e, _, hvalue, hpure⟩ := run_bind_eq_ok.mp h
  obtain ⟨rfl, rfl⟩ := run_pure_eq_ok.mp hpure
  exact ⟨e, index, u, hindex, hvalue, rfl⟩

theorem getElem?_arguments (early late : List (List (Expression × Int))) (e : Expression)
    (index : Int) :
    ((early ++ [(e, index)] :: late).flatten.mapIdx fun position b =>
      Argument.mk b.1 b.2 position)[(early.map List.length).sum]? =
        some (.mk e index (early.map List.length).sum) := by
  simp [← List.length_flatten]

/-- Whatever stands in front of a flag and behind it, the flag gives the argument behind those of
the items in front of it. -/
theorem run_bindArguments_flag {before after : List (Tree Reading)} {item : Tree Reading}
    (isFlag : item.label.kind = .commandParameter) {known : Site → Prop}
    (front : AllComposed cfg known before) (below : AllComposed cfg known item.children)
    (back : AllComposed cfg known after)
    (elsewhere : ∀ site, known site → site.path ≠ item.label.site.path)
    (own : Keeps (undeclared item.label.site.path) item.label.expression)
    {arguments : List Argument}
    (h : s.run (bindArguments cfg callee (g :: others) (before ++ item :: after)) =
      (.ok arguments, t)) :
    let declared := declaredIndex? cfg (g :: others) (flagName cfg item.label.site.attributes)
    ∃ a, arguments[((portions before).map portionSize).sum]? = some a ∧
      a.index = declared.getD before.length ∧
      t.undeclared item.label.site.path =
        s.undeclared item.label.site.path + if declared = none then 1 else 0 := by
  intro declared
  obtain ⟨value, j, rest, hslots, hrest, source⟩ := slots_flag isFlag after (0 + before.length)
  rw [bindArguments_eq] at h
  obtain ⟨groups, _, hgroups, hpure⟩ := run_bind_eq_ok.mp h
  obtain ⟨rfl, rfl⟩ := run_pure_eq_ok.mp hpure
  rw [slots_append fun last _ => by simp [takesNext, isFlag], hslots] at hgroups
  obtain ⟨early, share, late, t₁, t₃, hearly, hshare, hlate, rfl⟩ := run_mapM_middle hgroups
  obtain ⟨e, index, t₂, hindex, hvalue, rfl⟩ := run_lowerSlot_flag cfg callee hshare
  obtain ⟨bound, reported⟩ := run_flagIndex cfg callee hindex
  have inFront := slots_keep_undeclared cfg callee front elsewhere (g :: others) 0 s
  rw [hearly] at inFront
  have value_keeps : Keeps (undeclared item.label.site.path) value := by
    rcases source with rfl | ⟨t, ht, rfl⟩
    · exact own
    · rcases List.mem_append.mp ht with hchild | hafter
      · exact (below.label hchild).expression.keeps_undeclared elsewhere
      · exact (back.label hafter).expression.keeps_undeclared elsewhere
  have inside := value_keeps t₂
  rw [hvalue] at inside
  have behind := slots_keep_undeclared cfg callee (back.subset hrest) elsewhere (g :: others) j t₃
  rw [hlate] at behind
  rw [← lengths_of_run_slots cfg callee (g :: others) hearly]
  refine ⟨_, getElem?_arguments early late e index, ?_, ?_⟩
  · simpa [Argument.index] using bound
  · rw [behind, inside, reported, inFront]

/-- A command that resolves to a function binds its items for that function first of all. What it
reports about its callee is no report about a flag. -/
theorem run_command_resolved {site : Site} {callee : Tree Reading} {items : List (Tree Reading)}
    {origin : Origin} {name : String} {arguments : List Argument} (path : Path)
    (h : s.run (command cfg site (callee :: items)) =
      (.ok (.call origin name arguments (some g)), t)) :
    ∃ (others : List Function) (u : Session), u.undeclared path = s.undeclared path ∧
      u.run (bindArguments cfg name (g :: others) items) = (.ok arguments, t) := by
  have call : ∀ {u : Session} {candidates : List Function} {callee : String},
      u.run (do
        let arguments ← bindArguments cfg callee candidates items
        pure (Expression.call site.origin callee arguments candidates.head?)) =
          (.ok (.call origin name arguments (some g)), t) →
        ∃ others, candidates = g :: others ∧
          u.run (bindArguments cfg name (g :: others) items) = (.ok arguments, t) := by
    intro u candidates callee hcall
    obtain ⟨_, _, hbind, hpure⟩ := run_bind_eq_ok.mp hcall
    obtain ⟨same, rfl⟩ := run_pure_eq_ok.mp hpure
    cases candidates with
    | nil => simp at same
    | cons first others =>
      simp only [List.head?_cons, Expression.call.injEq, Option.some.injEq] at same
      obtain ⟨-, rfl, rfl, rfl⟩ := same
      exact ⟨others, rfl, hbind⟩
  unfold command at h
  dsimp only at h
  split at h
  swap
  · obtain ⟨_, _, hmalformed, -⟩ := run_bind_eq_ok.mp h
    cases hmalformed
  obtain ⟨candidates, u, hresolve, h⟩ := run_bind_eq_ok.mp h
  have looked_up : u.undeclared path = s.undeclared path := by
    cases hresolve
    exact s.undeclared_record path rfl
  split at h
  · obtain ⟨_, v, hreport, h⟩ := run_bind_eq_ok.mp h
    obtain ⟨others, same, _⟩ := call h
    cases same
  · obtain ⟨others, same, hbind⟩ := call h
    exact ⟨others, u, looked_up, same ▸ hbind⟩
  · obtain ⟨_, v, hreport, h⟩ := run_bind_eq_ok.mp h
    obtain ⟨others, same, hbind⟩ := call h
    refine ⟨others, v, ?_, hbind⟩
    rw [eq_reported_of_run hreport, undeclared_reported_of_issue path u rfl, looked_up]

end

end Lower

/-! ### A definition and a command -/

/-- The number of arguments that the items of a command in front of the one with number `i` give. -/
def Site.argumentsBefore (cfg : Config) (call : Site) (i : Nat) : Nat :=
  ((Lower.portions ((call.below cfg).tail.take i)).map Lower.portionSize).sum

open Lower in
/-- A child among the readings of its siblings: what is in front of it, below it and behind it is
elsewhere. -/
theorem Site.below_of_child (cfg : Config) (site : Site) {k : Nat} {child : Node}
    (h : site.node.children[k]? = some child) :
    let here := site.path ++ [k]
    let item := child.readings cfg here
    ∃ front back, site.below cfg = front ++ item :: back ∧ front.length = k ∧
      AllComposed cfg (fun other => other.path ≠ here) front ∧
      AllComposed cfg (fun other => other.path ≠ here) item.children ∧
      AllComposed cfg (fun other => other.path ≠ here) back := by
  intro here item
  obtain ⟨before, after, hsplit, rfl⟩ :
      ∃ before after, site.node.children = before ++ child :: after ∧ before.length = k := by
    obtain ⟨hk, rfl⟩ := List.getElem?_eq_some_iff.mp h
    refine ⟨site.node.children.take k, site.node.children.drop (k + 1), ?_, by simp; omega⟩
    rw [List.getElem_cons_drop, List.take_append_drop]
  obtain ⟨inFront, inside, behind⟩ := Node.places_apart site.path before after child
  refine ⟨Node.readingsOf cfg site.path 0 before,
    Node.readingsOf cfg site.path (before.length + 1) after, ?_, ?_, ?_, ?_, ?_⟩
  · rw [Site.below, hsplit, Node.readingsOf_append, Node.readingsOf, Nat.zero_add]
  · exact Node.length_readingsOf cfg _ _ before
  · exact Node.readingsOf_composed cfg _ _ _ inFront
  · obtain ⟨attrs, children⟩ := child
    exact Node.readingsOf_composed cfg _ _ _ inside
  · exact Node.readingsOf_composed cfg _ _ _ behind

section
variable (cfg : Config)

/-- What becomes of a flag depends on its name and on the function that the command resolves to. -/
theorem run_command_flag {call : Site} {u v : Session} {origin : Origin} {name : String}
    {arguments : List Argument} {g : Function}
    (resolved : u.run (Lower.command cfg call (call.below cfg)) =
      (.ok (.call origin name arguments (some g)), v))
    {i : Nat} {flag : Node} (item : call.node.children[i + 1]? = some flag)
    (isFlag : flag.label.kind = .commandParameter) :
    let here := call.path ++ [i + 1]
    let declared := Lower.declaredIndex? cfg [g] (Lower.flagName cfg flag.label)
    ∃ a, arguments[call.argumentsBefore cfg i]? = some a ∧ a.index = declared.getD i ∧
      v.undeclared here = u.undeclared here + if declared = none then 1 else 0 := by
  intro here declared
  have reading := Site.reading_eq cfg ⟨here, flag⟩
  have site : (flag.readings cfg here).label.site = ⟨here, flag⟩ := congrArg Reading.site reading
  have kind : (flag.readings cfg here).label.kind = .commandParameter := by
    rw [Reading.kind, site]
    exact isFlag
  have own : Lower.Keeps (Session.undeclared here) (flag.readings cfg here).label.expression := by
    have lowered := congrArg Reading.expression reading
    exact lowered ▸ Lower.flag_keeps_undeclared cfg isFlag
  obtain ⟨front, after, split, length, inFront, inside, behind⟩ := call.below_of_child cfg item
  obtain ⟨callee, before, rfl⟩ : ∃ callee before, front = callee :: before := by
    cases front with
    | nil => simp at length
    | cons callee before => exact ⟨callee, before, rfl⟩
  have number : before.length = i := by simpa using length
  have others : (call.below cfg).tail.take i = before := by
    rw [split, ← number]
    simp
  rw [split] at resolved
  obtain ⟨candidates, t, counted, bound⟩ := Lower.run_command_resolved cfg here resolved
  have result := Lower.run_bindArguments_flag cfg name kind
    (inFront.subset (List.subset_cons_self callee before)) inside behind
    (fun _ elsewhere => by rw [site]; exact elsewhere) (by rw [site]; exact own) bound
  rw [Site.argumentsBefore, others]
  rw [site, number, counted] at result
  exact result

end

/-- A flag of a command that resolves to the function of a definition, with its body or still
without. Where some parameter has the key of the flag's name, the argument of the flag has the index
of such a parameter, and nothing is recorded about the flag; where none has, it keeps the number of
its item, and this is recorded once. If the parameters have different keys, a parameter that is
declared as a plain name, with the sigil or without, is found by that name in any case, with a colon
behind it or without. -/
theorem flag_finds_parameter (cfg : Config) (marker : cfg.flagMarker = "-")
    (sigil : cfg.sigil = "$")
    (definition : Site) (s : Session) (f : Function)
    (defined : (s.run (Lower.function cfg definition (definition.below cfg))).2.visible =
      f :: s.visible)
    (call : Site) (u v : Session) (origin : Origin) (name : String) (arguments : List Argument)
    (g : Function)
    (resolved : u.run (Lower.command cfg call (call.below cfg)) =
      (.ok (.call origin name arguments (some g)), v))
    (same : g.parameters = f.parameters) (i : Nat) (flag : Node)
    (item : call.node.children[i + 1]? = some flag) (isFlag : flag.label.kind = .commandParameter) :
    let here := call.path ++ [i + 1]
    let named (p : Parameter) : Prop := cfg.key p.name = cfg.key (Lower.flagName cfg flag.label)
    ∃ a reports, arguments[call.argumentsBefore cfg i]? = some a ∧
      u.Recorded v reports ∧ (∀ r ∈ reports, r.1 ∈ call.within) ∧
      let missed := reports.countP fun r => r.1.path == here && r.2.isUndeclared
      ((∃ p ∈ g.parameters, named p) →
        (∃ (k : Nat) (p : Parameter), g.parameters[k]? = some p ∧ named p ∧ a.index = k) ∧
          missed = 0) ∧
      ((∀ p ∈ g.parameters, ¬ named p) → a.index = i ∧ missed = 1) ∧
      ((g.parameters.map fun p => cfg.key p.name).Nodup →
        ∀ (k : Nat) (node : Site) (q r : String), definition.parameters[k]? = some node →
          PlainName q → (node.declaredName = q ∨ node.declaredName = "$" ++ q) →
          cfg.key r = cfg.key q →
          (flag.label.spelling = "-" ++ r ∨ ∃ rest, flag.label.spelling = "-" ++ r ++ ":" ++ rest) →
          a.index = k) := by
  intro here named
  obtain ⟨length, places⟩ :=
    Lower.parameters_of_visible cfg definition (definition.below_composed cfg) defined
  rw [← same] at length places
  have node_at : ∀ {k : Nat}, k < g.parameters.length →
      ∃ node, definition.parameters[k]? = some node := fun bound =>
    ⟨_, List.getElem?_eq_getElem (length ▸ bound)⟩
  have counted : ∀ (k : Nat) (p : Parameter), g.parameters[k]? = some p → p.index = k := by
    intro k p hp
    obtain ⟨node, hnode⟩ := node_at (List.getElem?_eq_some_iff.mp hp).1
    exact (places k p node hp hnode).2
  obtain ⟨a, found, index, reported⟩ := run_command_flag cfg resolved item isFlag
  obtain ⟨reports, recorded, within⟩ :=
    (Lower.command_composed cfg (call.below_composed cfg) call.mem_within).recorded u
  rw [resolved] at recorded
  rw [recorded.undeclared_eq, Nat.add_left_cancel_iff] at reported
  refine ⟨a, reports, found, recorded, within, ?_, fun unnamed => ?_,
    fun distinct k node q r hnode plain spelled case text => ?_⟩
  · rintro ⟨p, hp, hname⟩
    obtain ⟨k, q, hk, qname, declared⟩ := Lower.declaredIndex?_of_mem cfg [] counted hp hname
    rw [declared] at index reported
    exact ⟨⟨k, q, hk, qname, index⟩, reported⟩
  · have declared := (Lower.declaredIndex?_eq_none cfg []).mpr unnamed
    rw [declared] at index reported
    exact ⟨index, reported⟩
  · have bound : k < g.parameters.length := length ▸ (List.getElem?_eq_some_iff.mp hnode).1
    have hp := List.getElem?_eq_getElem bound
    have hname : named g.parameters[k] := by
      have meet := Lower.key_flagName_of_declared marker sigil plain spelled case text
      rw [← (places k _ node hp hnode).1] at meet
      exact meet.symm
    obtain ⟨j, q', hj, qname, declared⟩ :=
      Lower.declaredIndex?_of_mem cfg [] counted (List.getElem_mem bound) hname
    -- Only one parameter has the key, so that of place `j` is the one of place `k`.
    have keys : (g.parameters.map fun p => cfg.key p.name)[k]? =
        (g.parameters.map fun p => cfg.key p.name)[j]? := by
      rw [List.getElem?_map, List.getElem?_map, hp, hj]
      exact congrArg some (hname.trans qname.symm)
    have place : k = j := (List.getElem?_inj (by simpa using bound) distinct).mp keys
    rw [declared, ← place] at index
    exact index

/-- The definition of a function `f` with the parameters `p` and `q`. -/
def definitionOfF : Site :=
  let parameter (name : String) : Node := ⟨{ kind := .parameter, tag := "Parameter" },
    [⟨{ kind := .variableExpression, tag := "VariableExpression", name := some name }, []⟩]⟩
  .root ⟨{ kind := .functionDefinition, tag := "FunctionDefinition", name := some "f" },
    [parameter "p", parameter "q"]⟩

/-- A call of `f` with the flag `-Q:` in front of a number. -/
def callOfF : Site :=
  .root ⟨{ kind := .command, tag := "Command" },
    [⟨{ kind := .stringConstantExpression, tag := "StringConstantExpression",
        code := some "f" }, []⟩,
      ⟨{ kind := .commandParameter, tag := "CommandParameter", name := some "-Q:" }, []⟩,
      ⟨{ kind := .constantExpression, tag := "ConstantExpression", code := some "1" }, []⟩]⟩

theorem flag_finds_parameter_cased :
    let s : Session := {}
    let f : Function := .mk {} "f" [{ name := "$p" }, { name := "$q", index := 1 }] .none
    let defined := s.run (Lower.function {} definitionOfF (definitionOfF.below {}))
    let called := defined.2.run (Lower.command {} callOfF (callOfF.below {}))
    let a : Argument := .mk (.literal { code := some "1" } (.named "integer") "1" "1") 1 0
    defined.1 = .ok f ∧ called.1 = .ok (.call {} "f" [a] (some f)) ∧ PlainName "q" ∧
      a.index = 1 := by
  intro s f defined called a
  have plain : PlainName "q" := ⟨by decide, by decide, by decide, by decide⟩
  refine ⟨rfl, rfl, plain, ?_⟩
  obtain ⟨b, reports, first, -, -, -, -, found⟩ :=
    flag_finds_parameter {} rfl rfl definitionOfF s f rfl callOfF
    defined.2 called.2 {} "f" [a] f rfl rfl 0 _ rfl rfl
  have same : a = b := Option.some.inj first
  rw [same]
  exact found (by decide) 1 _ "q" "Q" rfl plain (.inl rfl) (by decide) (.inr ⟨"", rfl⟩)

end ScriptIR
