import ScriptIR.Proofs.Diagnostics.Recorded
import ScriptIR.Proofs.Lowering.AlikeInScopes

/-!
# What lowering depends on

Of a lenient session lowering reads the declarations in the open scopes and nothing else: not the
scopes that were closed, nor whose the open ones are, nor what was reported before or how much the
collector keeps; and of the declarations in a scope not in which order those of different names
came. `Session.Together` compares two runs from sessions with the same declarations: at every moment
they have added the same declarations to them, and they have reported the same issues.
-/
namespace ScriptIR

open Lower (Composed KeptBySteps KeptByScopes Alike)

namespace ScopeStack
variable {s t u v : ScopeStack} {cfg : Config}

/-- The declarations in the open scopes by their names, from the inside out. -/
def levels (cfg : Config) (s : ScopeStack) : List (String → List Declaration) :=
  (s.current :: s.enclosing).map (Scope.lookup cfg)

theorem resolve_eq_levels (s : ScopeStack) (cfg : Config) (name : String) :
    s.resolve cfg name =
      (s.levels cfg).flatMap fun level => (level name).reverse.filterMap Declaration.function? := by
  rw [levels, List.flatMap_map]
  rfl

theorem resolve_congr (h : s.levels cfg = u.levels cfg) (name : String) :
    s.resolve cfg name = u.resolve cfg name := by
  rw [resolve_eq_levels, resolve_eq_levels, h]

/-- The declarations in the open scopes are those of `s` with `added` behind the ones of its
innermost scope, and in scopes that were opened since, the `opened` ones. -/
def Holds (s t : ScopeStack) (opened : List (List Declaration)) (added : List Declaration) : Prop :=
  (t.current :: t.enclosing).map Scope.declarations =
    opened ++ (s.current.declarations ++ added) :: s.enclosing.map Scope.declarations

theorem Holds.refl (s : ScopeStack) : s.Holds s [] [] := by
  simp [Holds]

/-- The same declarations with the same additions are still the same. -/
theorem Holds.levels_congr {opened : List (List Declaration)} {added : List Declaration}
    (h : s.Holds t opened added) (k : u.Holds v opened added) (same : s.levels cfg = u.levels cfg) :
    t.levels cfg = v.levels cfg := by
  let named (ds : List Declaration) (name : String) : List Declaration :=
    ds.filter fun d => cfg.key d.name == cfg.key name
  have levels_eq : ∀ w : ScopeStack,
      w.levels cfg = ((w.current :: w.enclosing).map Scope.declarations).map named := by
    intro w
    rw [List.map_map]
    rfl
  rw [levels_eq, levels_eq] at same ⊢
  obtain ⟨current, enclosing⟩ := List.cons.inj same
  have innermost : named (s.current.declarations ++ added) =
      named (u.current.declarations ++ added) := by
    funext name
    have before : named s.current.declarations name = named u.current.declarations name :=
      congrFun current name
    simp only [named, List.filter_append] at before ⊢
    rw [before]
  rw [h, k, List.map_append, List.map_append, List.map_cons, List.map_cons, innermost]
  exact congrArg (fun outer => _ ++ _ :: outer) enclosing

theorem exists_holds_declareAll (opened : List (List Declaration)) (added ds : List Declaration) :
    ∃ opened' added', ∀ {s t : ScopeStack}, s.Holds t opened added → s.Holds { t with current :=
      { t.current with declarations := t.current.declarations ++ ds } } opened' added' := by
  cases opened with
  | nil =>
    refine ⟨[], added ++ ds, fun {s t} h => ?_⟩
    obtain ⟨current, enclosing⟩ := List.cons.inj h
    simp only [Holds, List.map_cons, current, enclosing, List.append_assoc, List.nil_append]
  | cons innermost outer =>
    refine ⟨(innermost ++ ds) :: outer, added, fun {s t} h => ?_⟩
    obtain ⟨current, enclosing⟩ := List.cons.inj h
    simp only [Holds, List.map_cons, current, enclosing, List.cons_append]
    rfl

/-- What has been added to the innermost scope when all scopes that were opened are closed again. -/
theorem Holds.added_eq {opened : List (List Declaration)} {added gained : List Declaration}
    (h : s.Holds t opened added) (enclosing : t.enclosing = s.enclosing)
    (declarations : t.current.declarations = s.current.declarations ++ gained) :
    opened = [] ∧ added = gained := by
  rw [Holds, List.map_cons, enclosing, declarations] at h
  have closed : opened = [] := by
    have lengths := congrArg List.length h
    simp only [List.length_cons, List.length_append, List.length_map] at lengths
    exact List.length_eq_zero_iff.mp (by omega)
  rw [closed, List.nil_append] at h
  exact ⟨closed, (List.append_cancel_left (List.cons.inj h).1).symm⟩

end ScopeStack

namespace Session
variable {s₀ u₀ s u t v : Session}

theorem Recorded.silent {reports : List (Site × Issue)} (h : s₀.Recorded s reports)
    (collector : t.collector = s.collector) (events : List Event)
    (trace : t.trace.toList = s.trace.toList ++ events)
    (told : events.filterMap Event.report? = []) :
    s₀.Recorded t reports where
  trace := by
    obtain ⟨before, htrace, reported⟩ := h.trace
    refine ⟨before ++ events, by rw [trace, htrace, List.append_assoc], ?_⟩
    rw [List.filterMap_append, reported, told, List.append_nil]
  entries := by
    rw [Session.entries, collector]
    exact h.entries
  verbose := by
    rw [collector]
    exact h.verbose

/-- Two runs from `s₀` and `u₀` that have come to `s` and `u` have added the same declarations to
their open scopes, have reported the same issues, and go on after errors. -/
structure Together (s₀ u₀ s u : Session) : Prop where
  scopes : ∃ opened added, s₀.scopes.Holds s.scopes opened added ∧
    u₀.scopes.Holds u.scopes opened added
  lenient : s.Lenient ∧ u.Lenient
  reports : ∃ reports, s₀.Recorded s reports ∧ u₀.Recorded u reports

theorem Together.start (hs : s.Lenient) (hu : u.Lenient) : Together s u s u :=
  ⟨⟨[], [], .refl _, .refl _⟩, ⟨hs, hu⟩, ⟨[], .refl s, .refl u⟩⟩

theorem Together.silent (h : Together s₀ u₀ s u)
    (scopes : ∃ opened added, s₀.scopes.Holds t.scopes opened added ∧
      u₀.scopes.Holds v.scopes opened added)
    (mine : t.collector = s.collector) (theirs : v.collector = u.collector)
    (told : ∃ events, t.trace.toList = s.trace.toList ++ events ∧
      events.filterMap Event.report? = [])
    (told' : ∃ events, v.trace.toList = u.trace.toList ++ events ∧
      events.filterMap Event.report? = []) : Together s₀ u₀ t v where
  scopes := scopes
  lenient := by
    rw [Lenient, Lenient, mine, theirs]
    exact h.lenient
  reports := by
    obtain ⟨reports, hs, hu⟩ := h.reports
    obtain ⟨events, trace, silent⟩ := told
    obtain ⟨events', trace', silent'⟩ := told'
    exact ⟨reports, hs.silent mine events trace silent, hu.silent theirs events' trace' silent'⟩

theorem Together.record (h : Together s₀ u₀ s u) (e : Event) (told : e.report? = none) :
    Together s₀ u₀ (s.record e) (u.record e) :=
  h.silent h.scopes rfl rfl ⟨[e], Array.toList_push, by simp [told]⟩
    ⟨[e], Array.toList_push, by simp [told]⟩

/-- The same nodes, all of which have files that can be shown, and sessions that two runs
have come to together. -/
def together (s₀ u₀ : Session) : Likeness where
  session := Together s₀ u₀
  site site other := other = site ∧ site.Shown
  attributes h := h.1 ▸ rfl

theorem together_steps (s₀ u₀ : Session) : KeptBySteps (together s₀ u₀) where
  dispatched := by
    rintro _ site ⟨rfl, _⟩ s u h
    exact ⟨.ok (), h.record _ rfl⟩
  report := by
    rintro _ site ⟨rfl, shown⟩ issue issue' tags s u h
    obtain rfl : issue = issue' := by simpa [together] using tags.symm
    rw [h.lenient.1.run_report shown, h.lenient.2.run_report shown]
    obtain ⟨reports, hs, hu⟩ := h.reports
    exact ⟨.ok (), h.scopes, ⟨h.lenient.1.reported shown, h.lenient.2.reported shown⟩,
      ⟨reports ++ [(site, issue)], hs.trans (.reported s site issue),
        hu.trans (.reported u site issue)⟩⟩

theorem together_scopes {cfg : Config} (same : s₀.scopes.levels cfg = u₀.scopes.levels cfg) :
    KeptByScopes cfg (together s₀ u₀) where
  resolve := by
    rintro _ site ⟨rfl, _⟩ callee s u h
    obtain ⟨opened, added, held, held'⟩ := h.scopes
    have candidates := ScopeStack.resolve_congr (held.levels_congr held' same) callee
    have mine : s.run (Lower.resolve cfg site callee) =
        (.ok (s.scopes.resolve cfg callee),
          s.record (.resolved site.path callee (s.scopes.resolve cfg callee))) := rfl
    have theirs : u.run (Lower.resolve cfg site callee) =
        (.ok (u.scopes.resolve cfg callee),
          u.record (.resolved site.path callee (u.scopes.resolve cfg callee))) := rfl
    rw [mine, theirs, ← candidates]
    exact ⟨.ok _, h.record _ rfl⟩
  declareAll := by
    intro s u ds h
    obtain ⟨opened, added, held, held'⟩ := h.scopes
    obtain ⟨opened', added', extended⟩ := ScopeStack.exists_holds_declareAll opened added ds
    exact h.silent ⟨opened', added', extended held, extended held'⟩ rfl rfl
      ⟨[], (List.append_nil _).symm, rfl⟩ ⟨[], (List.append_nil _).symm, rfl⟩
  opening := by
    intro s u owner h
    obtain ⟨opened, added, held, held'⟩ := h.scopes
    exact h.silent ⟨[] :: opened, added, congrArg (List.cons []) held,
      congrArg (List.cons []) held'⟩
      rfl rfl ⟨[_], Array.toList_push, rfl⟩ ⟨[_], Array.toList_push, rfl⟩
  closing := by
    intro s u t v owner h k
    exact k.silent h.scopes rfl rfl ⟨[_], Array.toList_push, rfl⟩ ⟨[_], Array.toList_push, rfl⟩

end Session

namespace Lower.Composed
open Session
variable {cfg : Config} {known : Site → Prop} {α : Type} {m : Lower α}

/-- From lenient sessions with the same declarations in their open scopes, a composed action runs
together. -/
theorem together (shown : ∀ site, known site → site.Shown)
    (h : Composed cfg known m) {s u : Session}
    (levels : s.scopes.levels cfg = u.scopes.levels cfg) (hs : s.Lenient) (hu : u.Lenient) :
    (s.run m).1 = (u.run m).1 ∧ Together s u (s.run m).2 (u.run m).2 := by
  have alike := h.alike (together_steps s u) (together_scopes levels) fun site hsite =>
    ⟨rfl, shown site hsite⟩
  obtain ⟨outcome, after⟩ := alike s u (.start hs hu)
  exact ⟨outcome.eq fun same => same.1.symm, after⟩

end Lower.Composed

/-- Whether a collector is verbose makes no difference to the warnings and errors that it keeps. -/
theorem Issue.notable_entries (verbose : Bool) (reports : List (Site × Issue)) :
    ((reports.filter (·.2.isKept verbose)).map fun r => r.2.entry r.1.attributes).filter
        (·.severity.atLeast .warning) =
      (reports.filter (·.2.severity.atLeast .warning)).map fun r => r.2.entry r.1.attributes := by
  have kept : ∀ severity : Severity, (severity.atLeast .warning && (verbose || severity ≠ .info)) =
      severity.atLeast .warning := by
    intro severity
    cases severity <;> cases verbose <;> rfl
  rw [List.filter_map, List.filter_filter]
  congr 1
  exact List.filter_congr fun r _ => kept r.2.severity

namespace Session
variable {s u t v : Session}

theorem Together.gained (h : Together s u t v) (grown : s.scopes.Grown t.scopes)
    (grown' : u.scopes.Grown v.scopes) :
    ∃ gained : List Function,
      t.scopes.current.declarations = s.scopes.current.declarations ++ gained.map .function ∧
      v.scopes.current.declarations = u.scopes.current.declarations ++ gained.map .function := by
  obtain ⟨opened, added, held, held'⟩ := h.scopes
  obtain ⟨gained, declarations⟩ := grown.declarations
  obtain ⟨gained', declarations'⟩ := grown'.declarations
  have mine := (held.added_eq grown.enclosing declarations).2
  have theirs := (held'.added_eq grown'.enclosing declarations').2
  exact ⟨gained, declarations, by rw [declarations', ← theirs, mine]⟩

theorem Together.notable (h : Together s u t v) :
    ∃ added added', t.entries = s.entries ++ added ∧ v.entries = u.entries ++ added' ∧
      added.filter (·.severity.atLeast .warning) =
        added'.filter (·.severity.atLeast .warning) := by
  obtain ⟨reports, mine, theirs⟩ := h.reports
  refine ⟨_, _, mine.entries, theirs.entries, ?_⟩
  rw [Issue.notable_entries, Issue.notable_entries]

/-- If both collectors keep as much, both runs have added the same. -/
theorem Together.added (h : Together s u t v)
    (verbose : s.collector.verbose = u.collector.verbose) :
    ∃ added, t.entries = s.entries ++ added ∧ v.entries = u.entries ++ added := by
  obtain ⟨reports, mine, theirs⟩ := h.reports
  exact ⟨_, mine.entries, verbose ▸ theirs.entries⟩

end Session

/-- A tree that was lowered as an expression and has registered nothing in the innermost scope
leaves a session with the same declarations in its open scopes behind. -/
theorem levels_of_unregistered {cfg : Config} {n : Node} {s : Session}
    (h : (s.run (lowerExpression cfg n)).2.scopes.current.declarations =
      s.scopes.current.declarations) :
    (s.run (lowerExpression cfg n)).2.scopes.levels cfg = s.scopes.levels cfg := by
  have balanced := ((Site.root n).reading_composed cfg).expression.balanced s
  have enclosing : (s.run (lowerExpression cfg n)).2.scopes.enclosing = s.scopes.enclosing :=
    balanced.scopes.enclosing
  have innermost : Scope.lookup cfg (s.run (lowerExpression cfg n)).2.scopes.current =
      Scope.lookup cfg s.scopes.current := by
    funext name
    rw [Scope.lookup, h, Scope.lookup]
  rw [ScopeStack.levels, ScopeStack.levels, List.map_cons, List.map_cons, innermost, enclosing]

/-- Of a second tree that is lowered as an expression after a first one, which has
registered nothing in the innermost scope, becomes what becomes of it alone: the same
outcome, and the same entries. -/
theorem lowerExpression_after (cfg : Config) {first n : Node} (files : first.FilesShown)
    (files' : n.FilesShown) {s : Session} (hs : s.Lenient)
    (unregistered : (s.run (lowerExpression cfg first)).2.scopes.current.declarations =
      s.scopes.current.declarations) :
    let alone := s.run (lowerExpression cfg n)
    let before := (s.run (lowerExpression cfg first)).2
    let after := before.run (lowerExpression cfg n)
    (∃ e, alone.1 = .ok e ∧ after.1 = .ok e) ∧
      ∃ added, alone.2.entries = s.entries ++ added ∧
        after.2.entries = before.entries ++ added := by
  intro alone before after
  have earlier := ((Site.root first).reading_composed cfg).expression
  have lenient : before.Lenient := (earlier.soft files s hs).lenient
  obtain ⟨_, recorded, _⟩ := earlier.recorded s
  have verbose : before.collector.verbose = s.collector.verbose := recorded.verbose
  have levels : before.scopes.levels cfg = s.scopes.levels cfg :=
    levels_of_unregistered unregistered
  obtain ⟨same, together⟩ := ((Site.root n).reading_composed cfg).expression.together files'
    levels.symm hs lenient
  obtain ⟨e, t, returns⟩ := (Site.root n).expression_returns cfg files' hs
  have value : alone.1 = .ok e := congrArg Prod.fst returns
  exact ⟨⟨e, value, same.symm.trans value⟩, together.added verbose.symm⟩

/-- Two lenient sessions with the same declarations of each name in their open scopes, level by
level, lower a tree alike, whatever scopes were closed in them, whatever they have reported, and
however much their collectors keep: with the same outcome, the same functions registered in the
innermost scope, and the same warnings and errors. So two expressions that register nothing there
can be lowered in either order: each gives the same expression and the same entries. -/
theorem lower_depends_on_declarations (cfg : Config) :
    (∀ (entry : EntryPoint) (n : Node), n.FilesShown → ∀ s u : Session, s.Lenient → u.Lenient →
      s.scopes.levels cfg = u.scopes.levels cfg →
      let mine := s.run (entry.lower cfg n)
      let theirs := u.run (entry.lower cfg n)
      mine.1 = theirs.1 ∧
        (∃ gained : List Function,
          mine.2.scopes.current.declarations =
            s.scopes.current.declarations ++ gained.map .function ∧
          theirs.2.scopes.current.declarations =
            u.scopes.current.declarations ++ gained.map .function) ∧
        ∃ added added', mine.2.entries = s.entries ++ added ∧
          theirs.2.entries = u.entries ++ added' ∧
          added.filter (·.severity.atLeast .warning) =
            added'.filter (·.severity.atLeast .warning)) ∧
    ∀ n m : Node, n.FilesShown → m.FilesShown → ∀ s : Session, s.Lenient →
      let first := s.run (lowerExpression cfg n)
      let second := s.run (lowerExpression cfg m)
      first.2.scopes.current.declarations = s.scopes.current.declarations →
      second.2.scopes.current.declarations = s.scopes.current.declarations →
      let secondAfter := first.2.run (lowerExpression cfg m)
      let firstAfter := second.2.run (lowerExpression cfg n)
      (∃ e, first.1 = .ok e ∧ firstAfter.1 = .ok e) ∧
        (∃ e, second.1 = .ok e ∧ secondAfter.1 = .ok e) ∧
        (∃ added, first.2.entries = s.entries ++ added ∧
          firstAfter.2.entries = second.2.entries ++ added) ∧
        ∃ added, second.2.entries = s.entries ++ added ∧
          secondAfter.2.entries = first.2.entries ++ added := by
  refine ⟨fun entry n files s u hs hu levels => ?_, fun n m hn hm s hs => ?_⟩
  · have composed := entry.lower_composed cfg n
    obtain ⟨same, together⟩ := composed.together files levels hs hu
    exact ⟨same, together.gained (composed.balanced s).scopes (composed.balanced u).scopes,
      together.notable⟩
  · intro first second unregistered unregistered' secondAfter firstAfter
    obtain ⟨value, added⟩ := lowerExpression_after cfg hm hn hs unregistered'
    obtain ⟨value', added'⟩ := lowerExpression_after cfg hn hm hs unregistered
    exact ⟨value, value', added, added'⟩

/-- Neither a closed scope with a function in it makes a difference to a call, nor a verbose
collector with an entry, nor that a function of another name was registered earlier; and neither
does an operator without operands that is lowered before the call. -/
theorem lower_depends_on_declarations_call :
    let call : Node := ⟨{ kind := .command, tag := "Command" },
      [⟨{ kind := .stringConstantExpression, tag := "String", code := some "f" }, []⟩]⟩
    let operator := Node.bare .binaryExpression []
    let f : Declaration := .function (.mk {} "f" [] .none)
    let g : Declaration := .function (.mk {} "g" [] .none)
    let old : Diagnostic := { severity := .error, message := "old", stage := "loading" }
    let fresh : Session := { scopes := { current := { declarations := [f, g] } } }
    let used : Session := {
      scopes := { current := { declarations := [g, f], children := [{ declarations := [f] }] } }
      collector := { verbose := true, entries := #[old] } }
    let empty := Session.start {}
    call.FilesShown ∧ operator.FilesShown ∧ fresh.Lenient ∧ used.Lenient ∧ empty.Lenient ∧
      fresh.scopes.levels {} = used.scopes.levels {} ∧
      (fresh.run (EntryPoint.expression.lower {} call)).1 =
        (used.run (EntryPoint.expression.lower {} call)).1 ∧
      (empty.run (lowerExpression {} call)).2.scopes.current.declarations =
        empty.scopes.current.declarations ∧
      (empty.run (lowerExpression {} operator)).2.scopes.current.declarations =
        empty.scopes.current.declarations ∧
      ∃ e, (empty.run (lowerExpression {} call)).1 = .ok e ∧
        ((empty.run (lowerExpression {} operator)).2.run (lowerExpression {} call)).1 = .ok e := by
  intro call operator f g old fresh used empty
  have files : call.FilesShown := by decide
  have files' : operator.FilesShown := by decide
  have differ : Config.key {} "f" ≠ Config.key {} "g" := by decide +kernel
  have named (name : String) : Scope.lookup {} fresh.scopes.current name =
      Scope.lookup {} used.scopes.current name := by
    have names : f.name = "f" ∧ g.name = "g" := ⟨rfl, rfl⟩
    change [f, g].filter _ = [g, f].filter _
    by_cases hf : Config.key {} "f" = Config.key {} name
    · have hg : Config.key {} "g" ≠ Config.key {} name := fun same => differ (hf.trans same.symm)
      simp [List.filter_cons, names, hg]
    · simp [List.filter_cons, names, hf]
  have levels : fresh.scopes.levels {} = used.scopes.levels {} := congrArg ([·]) (funext named)
  obtain ⟨apart, reordered⟩ := lower_depends_on_declarations {}
  have together := apart .expression call files fresh used rfl rfl levels
  have value := reordered call operator files files' empty rfl rfl rfl
  exact ⟨files, files', rfl, rfl, rfl, levels, together.1, rfl, rfl, value.1⟩

end ScriptIR
