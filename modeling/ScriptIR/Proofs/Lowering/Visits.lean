import ScriptIR.Proofs.Diagnostics.Recorded
import ScriptIR.Proofs.Lowering.Frames
import ScriptIR.Proofs.Lowering.Order
import ScriptIR.Proofs.Lowering.Provenance

/-!
# Runs within runs

While a tree is lowered, nodes of it are lowered where expressions stand: the run of their
readings is a part of the whole run, from a session on the way to a later one.
`Session.Visits` says so. `Lower.Builds` holds of actions that dispatch nodes in no other
way, and that put together what they end with from what those nodes became. One induction
over it shows that every node that is dispatched in a run is visited on the way, and that a
run ends with expressions of visited nodes only.
-/
namespace ScriptIR

/-- All expressions that the part holds have the property, itself among them. -/
def Part.Throughout (Y : Expression → Prop) (p : Part) : Prop :=
  ∀ q, p.Within q → ∀ e, q = .expression e → Y e

theorem Part.throughout_iff {Y : Expression → Prop} {p : Part} :
    p.Throughout Y ↔ (∀ e, p = .expression e → Y e) ∧ ∀ q ∈ p.children, q.Throughout Y :=
  forall_within_iff

/-! ### Sessions on the way -/

namespace Session

/-- Nothing was taken back between the two sessions: events and diagnostics were only added. -/
structure Leads (s t : Session) : Prop where
  trace : s.trace.toList <+: t.trace.toList
  entries : s.entries <+: t.entries

/-- The event happened between the two sessions. -/
def Saw (s t : Session) (e : Event) : Prop :=
  ∃ events, t.trace.toList = s.trace.toList ++ events ∧ e ∈ events

/-- On the way from `s` to `t` the node was lowered where an expression stands: from `u` to `v`, and
with that outcome. -/
structure Passes (cfg : Config) (s t : Session) (site : Site) (u v : Session)
    (outcome : Except Fault Expression) : Prop where
  before : s.Leads u
  run : u.run (site.reading cfg).expression = (outcome, v)
  after : v.Leads t

/-- On the way from `s` to `t` the node was lowered where an expression stands,
with that outcome. -/
def Visits (cfg : Config) (s t : Session) (site : Site)
    (outcome : Except Fault Expression) : Prop :=
  ∃ u v, Passes cfg s t site u v outcome

/-- From `s` to `t` no node was dispatched. -/
structure Quiet (s t : Session) : Prop extends Leads s t where
  silent : ∀ path tag, ¬s.Saw t (.dispatched path tag)

theorem leads_steps (known : Site → Prop) : Steps known Leads where
  refl _ := ⟨List.prefix_rfl, List.prefix_rfl⟩
  trans first later := ⟨first.trace.trans later.trace, first.entries.trans later.entries⟩
  scopes _ _ := ⟨List.prefix_rfl, List.prefix_rfl⟩
  event _ _ _ := ⟨⟨_, Array.toList_push.symm⟩, List.prefix_rfl⟩
  report s site issue _ := ⟨⟨_, Array.toList_push.symm⟩, ⟨_, (s.entries_reported site issue).symm⟩⟩

variable {cfg : Config} {s t u v s' t' : Session} {site : Site} {e : Event}
variable {outcome : Except Fault Expression}

theorem Leads.refl (s : Session) : s.Leads s :=
  (leads_steps fun _ => True).refl s

theorem Leads.trans (h : s.Leads t) (k : t.Leads u) : s.Leads u :=
  (leads_steps fun _ => True).trans h k

namespace Saw

theorem mono (h : s.Saw t e) (before : s'.Leads s) (after : t.Leads t') : s'.Saw t' e := by
  obtain ⟨events, trace, happened⟩ := h
  obtain ⟨earlier, first⟩ := before.trace
  obtain ⟨later, last⟩ := after.trace
  refine ⟨earlier ++ events ++ later, ?_, by simp [happened]⟩
  rw [← last, trace, ← first]
  simp only [List.append_assoc]

/-- What happened on the way happened before the session in the middle or behind it. -/
theorem split (h : s.Saw u e) (first : s.Leads t) (later : t.Leads u) : s.Saw t e ∨ t.Saw u e := by
  obtain ⟨events, trace, happened⟩ := h
  obtain ⟨before, front⟩ := first.trace
  obtain ⟨after, back⟩ := later.trace
  rw [← back, ← front, List.append_assoc] at trace
  rw [← List.append_cancel_left trace, List.mem_append] at happened
  exact happened.imp (fun early => ⟨before, front.symm, early⟩) fun late => ⟨after, back.symm, late⟩

/-- Nothing happens between a session and itself, or one with the same trace. -/
theorem of_trace_eq (same : t.trace = s.trace) : ¬s.Saw t e := by
  rintro ⟨events, trace, happened⟩
  rw [same, List.self_eq_append_right] at trace
  rw [trace] at happened
  cases happened

theorem push_iff {d : Event} (pushed : t.trace = s.trace.push d) : s.Saw t e ↔ e = d := by
  rw [Saw, pushed, Array.toList_push]
  constructor
  · rintro ⟨events, trace, happened⟩
    rw [← List.append_cancel_left trace] at happened
    exact List.mem_singleton.mp happened
  · rintro rfl
    exact ⟨_, rfl, List.mem_singleton_self _⟩

end Saw

theorem Passes.mono (h : Passes cfg s t site u v outcome) (before : s'.Leads s)
    (after : t.Leads t') : Passes cfg s' t' site u v outcome :=
  ⟨before.trans h.before, h.run, h.after.trans after⟩

theorem Visits.mono (h : s.Visits cfg t site outcome) (before : s'.Leads s) (after : t.Leads t') :
    s'.Visits cfg t' site outcome := by
  obtain ⟨u, v, passes⟩ := h
  exact ⟨u, v, passes.mono before after⟩

theorem Visits.of_run (run : s.run (site.reading cfg).expression = (outcome, t)) :
    s.Visits cfg t site outcome :=
  ⟨s, t, .refl s, run, .refl t⟩

namespace Quiet

theorem of_trace_eq (leads : s.Leads t) (same : t.trace = s.trace) : s.Quiet t :=
  ⟨leads, fun _ _ => Saw.of_trace_eq same⟩

theorem of_push {d : Event} (leads : s.Leads t) (pushed : t.trace = s.trace.push d)
    (other : d.dispatched? = none) : s.Quiet t := by
  refine ⟨leads, fun path tag saw => ?_⟩
  rw [Saw.push_iff pushed] at saw
  rw [← saw] at other
  cases other

theorem of_dispatches {α : Type} {m : Lower α} (leads : s.Leads (s.run m).2)
    (none : Lower.Dispatches [] m) : s.Quiet (s.run m).2 := by
  refine ⟨leads, fun path tag ⟨events, trace, happened⟩ => ?_⟩
  obtain ⟨others, same, marks⟩ := none s
  rw [trace] at same
  rw [← List.append_cancel_left same, List.map_nil, List.sublist_nil] at marks
  have mark : (path, tag) ∈ events.filterMap Event.dispatched? :=
    List.mem_filterMap.mpr ⟨_, happened, rfl⟩
  rw [marks] at mark
  cases mark

end Quiet

namespace Recorded
variable {reports : List (Site × Issue)} (h : s.Recorded t reports)
include h

/-- What was seen to be reported about a place is one of the reports about it. -/
theorem exists_of_saw {path : Path} {issue : Issue} {line : Option LogLine}
    (saw : s.Saw t (.reported (some path) issue line)) :
    ∃ site, (site, issue) ∈ reports ∧ site.path = path := by
  obtain ⟨events, trace, happened⟩ := saw
  obtain ⟨others, same, marks⟩ := h.trace
  rw [trace] at same
  rw [← List.append_cancel_left same] at marks
  have mark : (some path, issue) ∈ events.filterMap Event.report? :=
    List.mem_filterMap.mpr ⟨_, happened, rfl⟩
  rw [marks] at mark
  obtain ⟨⟨site, reported⟩, hr, same⟩ := List.mem_map.mp mark
  cases same
  exact ⟨site, hr, rfl⟩

/-- Each of the reports was seen. -/
theorem saw_of_mem {issue : Issue} (hr : (site, issue) ∈ reports) :
    ∃ line, s.Saw t (.reported (some site.path) issue line) := by
  obtain ⟨events, trace, marks⟩ := h.trace
  have mark : (some site.path, issue) ∈ events.filterMap Event.report? := by
    rw [marks]
    exact List.mem_map.mpr ⟨_, hr, rfl⟩
  obtain ⟨event, happened, shows⟩ := List.mem_filterMap.mp mark
  cases event with
  | reported path reported line =>
    cases shows
    exact ⟨line, events, trace, happened⟩
  | dispatched | entered | left | resolved => cases shows

end Recorded

end Session

theorem Lower.Composed.leads {cfg : Config} {known : Site → Prop} {α : Type} {m : Lower α}
    (h : Composed cfg known m) (s : Session) : s.Leads (s.run m).2 :=
  (h.linked (Session.leads_steps known) s).related

theorem Session.leads_dispatching (s : Session) (site : Site) : s.Leads (s.dispatching site) :=
  (leads_steps fun _ => True).event s _ rfl

theorem Site.leads_of_run {cfg : Config} (site : Site) {s t : Session}
    {outcome : Except Fault Expression} (run : s.run (site.reading cfg).expression = (outcome, t)) :
    s.Leads t := by
  have leads := (site.reading_composed cfg).expression.leads s
  rwa [run] at leads

/-! ### What is built from visited nodes -/

theorem Site.expression_composed (cfg : Config) (site : Site) :
    Lower.Composed cfg (fun _ => True) (site.reading cfg).expression := by
  have below : Lower.AllComposed cfg (fun _ => True) (site.below cfg) :=
    Node.readingsOf_composed cfg site.path 0 site.node.children fun _ _ => trivial
  rw [Site.reading_eq]
  exact Lower.expression_composed cfg below trivial fun _ _ => trivial

namespace Lower
open Session

/-- The action dispatches nodes only where it lowers known ones as expressions. If the property `Y`
holds throughout what those become, then `Q` holds of what the action ends with. -/
inductive Builds (cfg : Config) (known : Site → Prop) (Y : Expression → Prop) :
    {α : Type} → (α → Prop) → Lower α → Prop
  | pure {α : Type} {Q : α → Prop} {a : α} : Q a → Builds cfg known Y Q (pure a)
  | bind {α β : Type} {Q : α → Prop} {S : β → Prop} {m : Lower α} {f : α → Lower β} :
      Builds cfg known Y Q m → (∀ a, Builds cfg known Y (fun b => Q a → S b) (f a)) →
      Builds cfg known Y S (m >>= f)
  | imp {α : Type} {Q S : α → Prop} {m : Lower α} : Builds cfg known Y Q m →
      (∀ a, Q a → S a) → Builds cfg known Y S m
  | visit {site : Site} : known site →
      Builds cfg known Y (fun e => (Part.expression e).Throughout Y) (site.reading cfg).expression
  | silent {α : Type} {m : Lower α} : Composed cfg (fun _ => True) m → Dispatches [] m →
      Builds cfg known Y (fun _ => True) m
  | malformed {α : Type} {Q : α → Prop} (m : Malformation) (site : Site) :
      Builds cfg known Y Q (malformed m site : Lower α)
  | inBlock {α : Type} {Q : α → Prop} (code : Option String) {body : Lower α} :
      Builds cfg known Y Q body → Builds cfg known Y Q (inScope (.block code) body)
  | defining {S : Statement → Prop} (header : Function) {body : Lower Statement} :
      Builds cfg known Y S body →
      Builds cfg known Y (fun f => ∃ lowered, S lowered ∧ f = header.withBody lowered)
        (defining header body)

namespace Builds
variable {cfg : Config} {known : Site → Prop} {Y : Expression → Prop} {α β : Type}
variable {Q : α → Prop} {S : β → Prop} {m : Lower α} {f : α → Lower β}

theorem composed (h : Builds cfg known Y Q m) : Composed cfg (fun _ => True) m := by
  induction h with
  | pure _ => exact .pure _
  | bind _ _ first next => exact .bind first next
  | imp _ _ ih => exact ih
  | @visit site _ => exact site.expression_composed cfg
  | silent composed _ => exact composed
  | malformed m site => exact .malformed m trivial
  | inBlock code _ ih => exact .inBlock code ih
  | defining header _ ih => exact .defining header ih

/-- What the first action ends with does not matter. -/
theorem after (h : Builds cfg known Y Q m) (k : ∀ a, Builds cfg known Y S (f a)) :
    Builds cfg known Y S (m >>= f) :=
  h.bind fun a => (k a).imp fun _ holds _ => holds

theorem checked {c : Prop} [Decidable c] {m : Lower Unit} {f : Unit → Lower β}
    (h : Builds cfg known Y (fun _ => True) m) (k : ∀ u, Builds cfg known Y S (f u)) :
    Builds cfg known Y S (if c then f () else m >>= f) := by
  split
  · exact k ()
  · exact h.after k

theorem report (site : Site) (issue : Issue) :
    Builds cfg known Y (fun _ => True) (report (some site) issue) :=
  .silent (.report issue trivial) (.report site issue)

theorem mapM {f : α → Lower β} {as : List α} (h : ∀ a ∈ as, Builds cfg known Y S (f a)) :
    Builds cfg known Y (fun bs => ∀ b ∈ bs, S b) (as.mapM f) := by
  induction as with
  | nil => exact .pure (by simp)
  | cons a as ih =>
    rw [List.mapM_cons]
    have rest := ih fun b hb => h b (List.mem_cons_of_mem _ hb)
    exact (h a List.mem_cons_self).bind fun b => rest.bind fun bs =>
      .pure fun others first => List.forall_mem_cons.mpr ⟨first, others⟩

end Builds

end Lower

/-- A run from `s` has visited every node that it has dispatched, and if `Y` holds throughout what
the visited nodes became, then `Q` holds of what it has ended with. -/
structure Session.Built {α : Type} (cfg : Config) (known : Site → Prop) (Y : Expression → Prop)
    (Q : α → Prop) (s : Session) (ended : Except Fault α × Session) : Prop where
  leads : s.Leads ended.2
  visited : ∀ path tag, s.Saw ended.2 (.dispatched path tag) →
    ∃ site, known site ∧ ∃ u v outcome, Passes cfg s ended.2 site u v outcome ∧
      u.Saw v (.dispatched path tag)
  value : (∀ site e, known site → s.Visits cfg ended.2 site (.ok e) →
    (Part.expression e).Throughout Y) → ∀ a, ended.1 = .ok a → Q a

namespace Session.Built
variable {cfg : Config} {known : Site → Prop} {Y : Expression → Prop} {α β : Type}
variable {Q : α → Prop} {S : β → Prop} {s t u start : Session}

theorem of_quiet {ended : Except Fault α × Session} (quiet : s.Quiet ended.2)
    (h : ∀ a, ended.1 = .ok a → Q a) : Built cfg known Y Q s ended :=
  ⟨quiet.toLeads, fun path tag saw => absurd saw (quiet.silent path tag), fun _ => h⟩

/-- A second run continues the first. -/
theorem trans {outcome : Except Fault α} {ended : Except Fault β × Session} {R : β → Prop}
    (h : Built cfg known Y Q s (outcome, t)) (k : Built cfg known Y R t ended)
    (holds : (∀ a, outcome = .ok a → Q a) → ∀ b, ended.1 = .ok b → R b → S b) :
    Built cfg known Y S s ended where
  leads := h.leads.trans k.leads
  visited path tag saw := by
    rcases saw.split h.leads k.leads with early | late
    · obtain ⟨site, hsite, v, w, ended, passes, saw⟩ := h.visited path tag early
      exact ⟨site, hsite, v, w, ended, passes.mono (.refl s) k.leads, saw⟩
    · obtain ⟨site, hsite, v, w, ended, passes, saw⟩ := k.visited path tag late
      exact ⟨site, hsite, v, w, ended, passes.mono h.leads (.refl _), saw⟩
  value throughout b ok := by
    have first := h.value fun site e hsite visits =>
      throughout site e hsite (visits.mono (.refl s) k.leads)
    have later := k.value fun site e hsite visits =>
      throughout site e hsite (visits.mono h.leads (.refl _))
    exact holds first b ok (later b ok)

/-- What is done quietly before and after a run does not change what it has built. -/
theorem around {outcome : Except Fault α} {outcome' : Except Fault β}
    (h : Built cfg known Y Q start (outcome, t)) (before : s.Quiet start) (after : t.Quiet u)
    (same : ∀ b, outcome' = .ok b → ∃ a, outcome = .ok a ∧ (Q a → S b)) :
    Built cfg known Y S s (outcome', u) := by
  have opened : Built cfg known Y (fun _ => True) s ((.ok () : Except Fault Unit), start) :=
    .of_quiet before fun _ _ => trivial
  have inside : Built cfg known Y Q s (outcome, t) := opened.trans h fun _ _ _ holds => holds
  have closed : Built cfg known Y (fun _ => True) t (outcome', u) :=
    .of_quiet after fun _ _ => trivial
  refine inside.trans closed fun first b ok _ => ?_
  obtain ⟨a, ended, holds⟩ := same b ok
  exact holds (first a ended)

theorem bind {m : Lower α} {f : α → Lower β} (h : Built cfg known Y Q s (s.run m))
    (k : ∀ a (t : Session), Built cfg known Y (fun b => Q a → S b) t (t.run (f a))) :
    Built cfg known Y S s (s.run (m >>= f)) := by
  cases hm : s.run m with
  | mk outcome t =>
    rw [hm] at h
    cases outcome with
    | error e =>
      rw [run_bind_of_error hm]
      exact ⟨h.leads, h.visited, fun _ b absurd => by cases absurd⟩
    | ok a =>
      rw [run_bind_of_ok hm]
      exact h.trans (k a t) fun first b _ holds => holds (first a rfl)

end Session.Built

namespace Lower.Builds
open Session

/-- Whatever builds its value from visited nodes does so in every run, however that ends. -/
theorem built {cfg : Config} {known : Site → Prop} {Y : Expression → Prop} {α : Type} {Q : α → Prop}
    {m : Lower α} (h : Builds cfg known Y Q m) :
      ∀ s : Session, Built cfg known Y Q s (s.run m) := by
  induction h with
  | pure holds =>
    intro s
    exact .of_quiet (.of_trace_eq (.refl s) rfl) fun a ok => by cases ok; exact holds
  | bind _ _ first next => exact fun s => .bind (first s) next
  | imp _ weaker ih =>
    exact fun s => (ih s).around (.of_trace_eq (.refl s) rfl) (.of_trace_eq (.refl _) rfl)
      fun a ok => ⟨a, ok, weaker a⟩
  | @visit site hsite =>
    intro s
    refine ⟨site.leads_of_run rfl, fun path tag saw => ?_, fun throughout e ok => ?_⟩
    · exact ⟨site, hsite, s, _, _, ⟨.refl s, rfl, .refl _⟩, saw⟩
    · exact throughout site e hsite (.of_run (Prod.ext ok rfl))
  | silent composed none =>
    exact fun s => .of_quiet (.of_dispatches (composed.leads s) none) fun _ _ => trivial
  | malformed m site =>
    exact fun s => .of_quiet (.of_trace_eq (.refl s) rfl) fun _ absurd => by cases absurd
  | @inBlock _ _ code body builds ih =>
    intro s
    rw [builds.composed.run_inBlock rfl]
    refine (ih (s.opening (.block code))).around (.of_push ?_ rfl rfl) (.of_push ?_ rfl rfl)
      fun a ok => ⟨a, ok, id⟩
    · exact (leads_steps fun _ => True).opening s _
    · exact (leads_steps fun _ => True).closing s _ _
  | @defining _ header body builds ih =>
    intro s
    have inside := ih (s.openingFunction header)
    have opens : s.Quiet (s.openingFunction header) :=
      .of_push ((leads_steps fun _ => True).openingFunction s header) rfl rfl
    cases hbody : (s.openingFunction header).run body with
    | mk outcome t =>
      have closed : t.Leads (s.closingFunction t header) :=
        (leads_steps fun _ => True).closing _ t _
      rw [hbody] at inside
      cases outcome with
      | ok lowered =>
        rw [builds.composed.run_defining_of_ok hbody]
        refine inside.around opens
          (.of_push (closed.trans ⟨List.prefix_rfl, List.prefix_rfl⟩) rfl rfl) ?_
        exact fun f ok => ⟨lowered, rfl, fun holds => ⟨lowered, holds, (Except.ok.inj ok).symm⟩⟩
      | error e =>
        rw [builds.composed.run_defining_of_error hbody]
        exact inside.around opens (.of_push closed rfl rfl) fun _ absurd => by cases absurd

end Lower.Builds

/-- A node that is given up on is reported, which dispatches nothing. -/
theorem Session.Built.orUnknown {cfg : Config} {known : Site → Prop} {Y Q : Expression → Prop}
    {s : Session} {site : Site} {body : Lower Expression}
    (h : Built cfg known Y Q s (s.run body)) (unknown : Q site.unknown) :
    Built cfg known Y Q s (s.run (Lower.orUnknown site body)) := by
  refine run_orUnknown_of h fun m culprit t hbody => ?_
  have recovery : Lower.Builds cfg known Y Q (do
      Lower.report (some culprit) (.malformed m)
      return site.unknown) := .after (.report culprit _) fun _ => .pure unknown
  rw [hbody] at h
  exact h.trans (recovery.built t) fun _ _ _ holds => holds

end ScriptIR
