import ScriptIR.Proofs.Diagnostics.Reports
import ScriptIR.Proofs.Scope.Balance

/-!
# Recovering from malformed nodes

A session is lenient if its collector does not stop at errors. From a lenient session, and with
files that can be shown, an action ends with a value or gives up on a malformed node, which is one
of those that it speaks of. Lowering an expression always gives a value: whatever was given up on
below it is reported, and an unknown expression stands for it.
-/
namespace ScriptIR

open Lower (Composed)

/-- The entries of the collector in order. -/
def Session.entries (s : Session) : List Diagnostic :=
  s.collector.entries.toList

/-- The entry about a malformed node, with the place of the node. -/
def Malformation.entry (m : Malformation) (culprit : Attributes) : Diagnostic where
  severity := .error
  message := m.message
  stage := "lowering"
  line := culprit.location.line
  column := culprit.location.column
  file := culprit.location.file
  subject := culprit
  category := "MalformedNodeError"

/-- The session goes on after errors. -/
def Session.Lenient (s : Session) : Prop :=
  s.collector.strict = false

theorem Issue.report_shown {site : Site} (h : site.Shown) (issue : Issue) :
    (issue.report (some site.attributes)).Shown :=
  fun _ ha => Option.some.inj ha ▸ h

namespace Session
variable {s t : Session} {site : Site} {issue : Issue}

theorem stop?_of_lenient (hs : s.Lenient) (h : site.Shown) : s.stop? site issue = none := by
  unfold stop?
  rw [Collector.report_eq (issue.report_shown h), hs]
  simp

theorem Lenient.reported (hs : s.Lenient) (h : site.Shown) : (s.reported site issue).Lenient := by
  have kept : (s.collector.report (issue.report (some site.attributes))).collector.strict =
      s.collector.strict := by
    rw [Collector.report_eq (issue.report_shown h)]
    exact Collector.kept_strict _ _
  exact kept.trans hs

/-- A report from a lenient session never stops it. -/
theorem Lenient.run_report (hs : s.Lenient) (h : site.Shown) :
    s.run (Lower.report (some site) issue) = (.ok (), s.reported site issue) :=
  run_report_of_none (stop?_of_lenient hs h)

theorem entries_reported (s : Session) (site : Site) (issue : Issue) :
    (s.reported site issue).entries =
      s.entries ++ s.collector.added (issue.report (some site.attributes)) :=
  s.collector.report_entries _

/-- The report of a malformed node is one more entry, an error about that node. -/
theorem entries_reported_malformed (m : Malformation) :
    (s.reported site (.malformed m)).entries = s.entries ++ [m.entry site.attributes] := by
  rw [entries_reported, Collector.added_of_error rfl]
  rfl

/-- A run has ended leniently, with a value or at a malformed node. -/
structure Soft {α : Type} (known : Site → Prop) (ended : Except Fault α × Session) : Prop where
  lenient : ended.2.Lenient
  malformed : ∀ e, ended.1 = .error e → ∃ m culprit, known culprit ∧ e = .malformed m culprit

theorem Soft.ok {α : Type} {known : Site → Prop} {a : α} (ht : t.Lenient) :
    Soft known (.ok a, t) :=
  ⟨ht, fun _ absurd => by cases absurd⟩

end Session

namespace Lower.Composed
open Session
variable {cfg : Config} {known : Site → Prop}

/-- From a lenient session, all that can end a composed action early is a malformed node. -/
theorem soft (shown : ∀ site, known site → site.Shown) {α : Type} {m : Lower α}
    (h : Composed cfg known m) : ∀ s : Session, s.Lenient → Soft known (s.run m) := by
  induction h with
  | pure a => exact fun s hs => .ok hs
  | @bind α β m f _ _ first next =>
    intro s hs
    cases hm : s.run m with
    | mk outcome t =>
      have ended := hm ▸ first s hs
      cases outcome with
      | ok a =>
        rw [run_bind_of_ok hm]
        exact next a t ended.lenient
      | error e =>
        rw [run_bind_of_error hm]
        exact ⟨ended.lenient, fun e he => ended.malformed e (by cases he; rfl)⟩
  | dispatched _ => exact fun s hs => .ok hs
  | report issue hsite =>
    intro s hs
    rw [hs.run_report (shown _ hsite)]
    exact .ok (hs.reported (shown _ hsite))
  | resolve callee _ => exact fun s hs => .ok hs
  | @malformed α m site hsite =>
    exact fun s hs => ⟨hs, fun e he => ⟨m, site, hsite, by cases he; rfl⟩⟩
  | @orUnknown site body _ _ ih =>
    intro s hs
    cases hbody : s.run body with
    | mk outcome t =>
      have ended := hbody ▸ ih s hs
      cases outcome with
      | ok e => exact run_orUnknown_of_ok hbody ▸ ended
      | error e =>
        obtain ⟨m, culprit, hculprit, rfl⟩ := ended.malformed e rfl
        rw [run_orUnknown_of_malformed hbody,
          run_bind_of_ok (ended.lenient.run_report (shown _ hculprit))]
        exact .ok (ended.lenient.reported (shown _ hculprit))
  | @inBlock α code body hbody ih =>
    intro s hs
    have ended := ih (s.opening (.block code)) hs
    rw [hbody.run_inBlock rfl]
    exact ⟨ended.lenient, ended.malformed⟩
  | declared header => exact fun s hs => .ok hs
  | @defining header body hbody ih =>
    intro s hs
    have ended := ih (s.openingFunction header) hs
    cases hrun : (s.openingFunction header).run body with
    | mk outcome t =>
      rw [hrun] at ended
      cases outcome with
      | ok lowered =>
        rw [hbody.run_defining_of_ok hrun]
        exact .ok ended.lenient
      | error e =>
        rw [hbody.run_defining_of_error hrun]
        exact ⟨ended.lenient, fun e he => ended.malformed e (by cases he; rfl)⟩

end Lower.Composed

/-! ### What never gives up -/

/-- However the action ends, it has not given up on a malformed node. -/
def Lower.Sure {α : Type} (m : Lower α) : Prop :=
  ∀ (s : Session) (f : Malformation) (culprit : Site),
    (s.run m).1 ≠ .error (.malformed f culprit)

namespace Lower.Sure
open Session
variable {α β : Type}

theorem pure (a : α) : Sure (pure a : Lower α) :=
  fun _ _ _ absurd => by cases absurd

theorem report (site : Site) (issue : Issue) : Sure (report (some site) issue) := by
  intro s f culprit
  cases hstop : s.stop? site issue with
  | none =>
    rw [run_report_of_none hstop]
    simp
  | some stop =>
    rw [run_report_of_stop hstop]
    simp

theorem bind {m : Lower α} {f : α → Lower β} (h : Sure m) (k : ∀ a, Sure (f a)) :
    Sure (m >>= f) := by
  intro s
  have first := h s
  cases hm : s.run m with
  | mk outcome t =>
    cases outcome with
    | ok a =>
      rw [run_bind_of_ok hm]
      exact k a t
    | error e =>
      rw [run_bind_of_error hm]
      rw [hm] at first
      exact fun f culprit same => first f culprit (by cases same; rfl)

theorem mapM {f : α → Lower β} {as : List α} (h : ∀ a ∈ as, Sure (f a)) : Sure (as.mapM f) := by
  induction as with
  | nil => exact pure []
  | cons a as ih =>
    rw [List.mapM_cons]
    have rest := ih fun b hb => h b (List.mem_cons_of_mem _ hb)
    exact (h a List.mem_cons_self).bind fun _ => rest.bind fun _ => pure _

theorem checked {c : Prop} [Decidable c] {m : Lower Unit} {f : Unit → Lower α} (h : Sure m)
    (k : ∀ u, Sure (f u)) : Sure (if c then f () else m >>= f) := by
  split
  · exact k ()
  · exact h.bind k

/-- A malformed node below is recovered from. -/
theorem orUnknown (site : Site) (body : Lower Expression) : Sure (orUnknown site body) := by
  intro s
  cases hbody : s.run body with
  | mk outcome t =>
    cases outcome with
    | ok e =>
      rw [run_orUnknown_of_ok hbody]
      simp
    | error e =>
      cases e with
      | malformed f culprit =>
        rw [run_orUnknown_of_malformed hbody]
        exact ((report culprit _).bind fun _ => pure _) t
      | stopped stop =>
        rw [run_orUnknown_of_error hbody (by simp)]
        simp
      | scope error =>
        rw [run_orUnknown_of_error hbody (by simp)]
        simp

/-- There is nothing to recover from in what never gives up. -/
theorem run_orUnknown {site : Site} {body : Lower Expression} (h : Sure body) (s : Session) :
    s.run (Lower.orUnknown site body) = s.run body := by
  cases hbody : s.run body with
  | mk outcome t =>
    cases outcome with
    | ok e => rw [run_orUnknown_of_ok hbody]
    | error e =>
      refine run_orUnknown_of_error hbody fun f culprit same => h s f culprit ?_
      rw [hbody, same]

section
variable {cfg : Config} {known : Site → Prop}

theorem inBlock {code : Option String} {body : Lower α} (composed : Composed cfg known body)
    (h : Sure body) : Sure (inScope (.block code) body) := by
  intro s
  rw [composed.run_inBlock rfl]
  exact h _

theorem defining {header : Function} {body : Lower Statement} (composed : Composed cfg known body)
    (h : Sure body) : Sure (defining header body) := by
  intro s
  have inside := h (s.openingFunction header)
  cases hbody : (s.openingFunction header).run body with
  | mk outcome t =>
    cases outcome with
    | ok lowered =>
      rw [composed.run_defining_of_ok hbody]
      simp
    | error e =>
      rw [composed.run_defining_of_error hbody]
      rw [hbody] at inside
      exact fun m culprit same => inside m culprit (by cases same; rfl)

end

end Lower.Sure

/-! ### Expressions always return -/

/-- The session in which the handler of a node starts. -/
def Session.dispatching (s : Session) (site : Site) : Session :=
  s.record (.dispatched site.path site.attributes.tag)

namespace Lower
open Session
variable {cfg : Config} {site : Site} {children : List (Tree Reading)} {s t : Session}
variable {handler : Lower Expression}

theorem run_expression_of_some
    (h : expressionOf? cfg site children site.attributes.kind = some handler) :
    s.run (expression cfg site children) = (s.dispatching site).run (orUnknown site handler) := by
  unfold expression
  rw [run_bind_of_ok (t := s.dispatching site) rfl, h]
  rfl

theorem run_expression_of_none
    (h : expressionOf? cfg site children site.attributes.kind = none) :
    s.run (expression cfg site children) = (s.dispatching site).run (do
      report (some site) (.unsupportedKind site.attributes.tag)
      pure site.unknown) := by
  unfold expression
  rw [run_bind_of_ok (t := s.dispatching site) rfl, h]

/-- A handler that never gives up runs as it is. -/
theorem run_expression_of_sure
    (h : expressionOf? cfg site children site.attributes.kind = some handler)
    (sure : Sure handler) :
    s.run (expression cfg site children) = (s.dispatching site).run handler := by
  rw [run_expression_of_some h]
  exact sure.run_orUnknown _

/-- If its token is known, a unary operator takes the first child and looks at no other. -/
theorem unary_of_known {operator : String} {isPostfix : Bool} (operand : Tree Reading)
    (rest : List (Tree Reading)) (known :
      unaryOperators.lookup (site.attributes.unaryToken.getD "") = some (operator, isPostfix)) :
    unary site (operand :: rest) = (do
      let lowered ← operand.label.expression
      return .unary site.origin operator isPostfix lowered) := by
  unfold unary
  dsimp only
  rw [known]

/-- A unary operator with a known token runs, once it is dispatched, as its first child does. -/
theorem run_expression_of_unary (cfg : Config) (site : Site)
    (kind : site.attributes.kind = .unaryExpression) {operator : String} {isPostfix : Bool}
    (operand : Tree Reading) (rest : List (Tree Reading)) (known :
      unaryOperators.lookup (site.attributes.unaryToken.getD "") = some (operator, isPostfix))
    (sure : Sure operand.label.expression) (s : Session) :
    s.run (expression cfg site (operand :: rest)) = (s.dispatching site).run (do
      let lowered ← operand.label.expression
      return .unary site.origin operator isPostfix lowered) := by
  rw [← unary_of_known operand rest known]
  refine run_expression_of_sure (by rw [kind]; rfl) ?_
  rw [unary_of_known operand rest known]
  exact sure.bind fun _ => .pure _

theorem expression_sure (cfg : Config) (site : Site) (children : List (Tree Reading)) :
    Sure (expression cfg site children) := by
  have dispatched : Sure (record (.dispatched site.path site.attributes.tag)) :=
    fun _ _ _ absurd => by cases absurd
  refine dispatched.bind fun _ => ?_
  split
  · exact (Sure.report site _).bind fun _ => .pure _
  · exact .orUnknown site _

/-- A handler that gives up leaves one report, and the node becomes unknown. -/
theorem run_orUnknown_of_soft {m : Malformation} {culprit : Site} (hculprit : culprit.Shown)
    (ht : t.Lenient) (h : s.run handler = (.error (.malformed m culprit), t)) :
    s.run (orUnknown site handler) = (.ok site.unknown, t.reported culprit (.malformed m)) := by
  rw [run_orUnknown_of_malformed h, run_bind_of_ok (ht.run_report hculprit)]
  rfl

/-- A text that is no type literal is absorbed: it denotes the unknown type. -/
theorem run_typeOfText (text : Option String) (hsite : site.Shown) (hs : s.Lenient) :
    ∃ type t, s.run (typeOfText text (some site)) = (.ok type, t) ∧
      ∀ literal e, text = some literal → TypeLiteral.parse literal = .error e →
        type = .unknown := by
  unfold typeOfText
  split
  · exact ⟨.unknown, s, rfl, fun _ _ _ _ => rfl⟩
  next literal =>
    split
    · exact ⟨.unknown, s, rfl, fun _ _ _ _ => rfl⟩
    · split
      next type parsed =>
        refine ⟨type, s, rfl, fun other e same failed => ?_⟩
        rw [← Option.some.inj same, parsed] at failed
        cases failed
      next e failed =>
        rw [run_bind_of_ok (hs.run_report hsite)]
        exact ⟨.unknown, _, rfl, fun _ _ _ _ => rfl⟩

theorem orUnknown_returns {known : Site → Prop} (shown : ∀ site, known site → site.Shown)
    (h : Soft known (s.run handler)) : ∃ e t, s.run (orUnknown site handler) = (.ok e, t) := by
  cases hrun : s.run handler with
  | mk outcome t =>
    rw [hrun] at h
    cases outcome with
    | ok e => exact ⟨e, t, run_orUnknown_of_ok hrun⟩
    | error fault =>
      obtain ⟨m, culprit, hculprit, rfl⟩ := h.malformed fault rfl
      exact ⟨_, _, run_orUnknown_of_soft (shown culprit hculprit) h.lenient hrun⟩

section
variable {known : Site → Prop} (shown : ∀ site, known site → site.Shown) (hs : s.Lenient)
variable (hchildren : AllComposed cfg known children) (hsite : known site)
variable (hparameters : ∀ p ∈ site.parameters, known p)
include shown hs hchildren hsite hparameters

theorem expression_returns : ∃ e t, s.run (expression cfg site children) = (.ok e, t) := by
  cases hh : expressionOf? cfg site children site.attributes.kind with
  | none =>
    have start : (s.dispatching site).Lenient := hs
    rw [run_expression_of_none hh, run_bind_of_ok (start.run_report (shown site hsite))]
    exact ⟨_, _, rfl⟩
  | some handler =>
    have composed := expressionOf?_composed cfg hchildren hsite hparameters hh
    rw [run_expression_of_some hh]
    exact orUnknown_returns shown (composed.soft shown (s.dispatching site) hs)

/-- Where the handler of a node gives up, the node becomes unknown and the malformed node that was
given up on is reported. -/
theorem expression_of_error {fault : Fault}
    (hh : expressionOf? cfg site children site.attributes.kind = some handler)
    (hrun : (s.dispatching site).run handler = (.error fault, t)) :
    ∃ m culprit, known culprit ∧ fault = .malformed m culprit ∧
      s.run (expression cfg site children) =
        (.ok site.unknown, t.reported culprit (.malformed m)) := by
  have composed := expressionOf?_composed cfg hchildren hsite hparameters hh
  have ended := hrun ▸ composed.soft shown (s.dispatching site) hs
  obtain ⟨m, culprit, hculprit, rfl⟩ := ended.malformed fault rfl
  refine ⟨m, culprit, hculprit, rfl, ?_⟩
  rw [run_expression_of_some hh]
  exact run_orUnknown_of_soft (shown culprit hculprit) ended.lenient hrun

end

end Lower

namespace Site
open Session
variable {n : Node} {site : Site} {s t : Session}

theorem expression_returns (cfg : Config) (shown : ∀ p ∈ site.within, p.Shown) (hs : s.Lenient) :
    ∃ e t, s.run (site.reading cfg).expression = (.ok e, t) := by
  rw [reading_eq]
  exact Lower.expression_returns shown hs (site.below_composed cfg) site.mem_within
    fun _ hp => site.parameters_subset_within hp

theorem expression_of_error (cfg : Config) (shown : ∀ p ∈ site.within, p.Shown) (hs : s.Lenient)
    {handler : Lower Expression} {fault : Fault}
    (hh : Lower.expressionOf? cfg site (site.below cfg) site.attributes.kind = some handler)
    (hrun : (s.dispatching site).run handler = (.error fault, t)) :
    ∃ m, ∃ culprit ∈ site.within, fault = .malformed m culprit ∧
      s.run (site.reading cfg).expression =
        (.ok site.unknown, t.reported culprit (.malformed m)) := by
  obtain ⟨m, culprit, hculprit, rfl, unknown⟩ := Lower.expression_of_error shown hs
    (site.below_composed cfg) site.mem_within (fun _ hp => site.parameters_subset_within hp) hh hrun
  rw [reading_eq]
  exact ⟨m, culprit, hculprit, rfl, unknown⟩

end Site

/-- From a lenient session, and with files that can be shown, lowering a tree as an expression gives
an expression, and so does lowering any node of it. What the handler of a node, a statement or a
definition gives up on is a malformed node within it, never anything else: where an expression
stands, the node becomes unknown and the malformed node is reported. A text that is no type literal
is absorbed. -/
theorem lowerExpression_returns (cfg : Config) (n : Node) (files : n.FilesShown) {s : Session}
    (hs : s.Lenient) :
    (∃ e t, s.run (lowerExpression cfg n) = (.ok e, t)) ∧
      ∀ site ∈ n.sites [], ∀ u : Session, u.Lenient →
        (∃ e t, u.run (site.reading cfg).expression = (.ok e, t)) ∧
        (∀ handler fault t,
          Lower.expressionOf? cfg site (site.below cfg) site.attributes.kind = some handler →
          (u.dispatching site).run handler = (.error fault, t) →
          ∃ m, ∃ culprit ∈ site.within, fault = .malformed m culprit ∧
            u.run (site.reading cfg).expression =
              (.ok site.unknown, t.reported culprit (.malformed m))) ∧
        Session.Soft (· ∈ site.within) (u.run (site.reading cfg).statement) ∧
        Session.Soft (· ∈ site.within) (u.run (Lower.function cfg site (site.below cfg))) ∧
        ∀ text, ∃ type t, u.run (Lower.typeOfText text (some site)) = (.ok type, t) ∧
          ∀ literal e, text = some literal → TypeLiteral.parse literal = .error e →
            type = .unknown := by
  have root : ∃ e t, s.run ((Site.root n).reading cfg).expression = (.ok e, t) :=
    Site.expression_returns cfg files hs
  refine ⟨root, fun site h u hu => ?_⟩
  have shown := files.within h
  have definition := Lower.function_composed cfg (site.below_composed cfg) site.mem_within
    fun _ hp => site.parameters_subset_within hp
  refine ⟨Site.expression_returns cfg shown hu, fun handler fault t hh hrun => ?_,
    (site.reading_composed cfg).statement.soft shown u hu, definition.soft shown u hu,
    fun text => ?_⟩
  · exact Site.expression_of_error cfg shown hu hh hrun
  · exact Lower.run_typeOfText text (files site h) hu

/-- A function without a name, alone in a script block, is given up on by the
statement that it is. -/
theorem lowerExpression_returns_unnamed :
    (Node.bare .scriptBlock [.bare .functionDefinition []]).FilesShown ∧
      (Session.start {}).Lenient ∧
      ∃ e t, (Session.start {}).run
        (lowerExpression {} (.bare .scriptBlock [.bare .functionDefinition []])) = (.ok e, t) := by
  have files : (Node.bare .scriptBlock [.bare .functionDefinition []]).FilesShown := by decide
  have start : (Session.start {}).Lenient := rfl
  exact ⟨files, start, (lowerExpression_returns {} _ files start).1⟩

end ScriptIR
