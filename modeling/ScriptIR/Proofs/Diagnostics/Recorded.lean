import ScriptIR.Proofs.Lowering.Frames
import ScriptIR.Proofs.Lowering.Recovery

/-!
# What is reported is recorded

The trace and the collector tell the same story. What was reported between two sessions is kept in
the collector, report by report and with the node that the report is about, and nothing else is.
Only information is left out, by a collector that is not verbose.
-/
namespace ScriptIR

/-- Whether a collector keeps an issue. -/
def Issue.isKept (verbose : Bool) (issue : Issue) : Bool :=
  verbose || issue.severity ≠ .info

/-- What a collector keeps of an issue of a node. -/
def Issue.entry (issue : Issue) (subject : Attributes) : Diagnostic where
  severity := issue.severity
  message := issue.message
  stage := "lowering"
  line := subject.location.line
  column := subject.location.column
  file := subject.location.file
  subject := subject
  category := some issue.category.name

theorem Issue.added_report (issue : Issue) (c : Collector) (a : Attributes) :
    c.added (issue.report (some a)) = if issue.isKept c.verbose then [issue.entry a] else [] := by
  have ignored : c.ignores (issue.report (some a)) = !issue.isKept c.verbose := by
    change (decide (issue.severity = .info) && !c.verbose) = _
    simp [Issue.isKept, Bool.and_comm]
  unfold Collector.added
  rw [ignored]
  cases issue.isKept c.verbose <;> rfl

/-- Between the two sessions the given issues were reported, about the given nodes, and the
collector has kept them. -/
structure Session.Recorded (s t : Session) (reports : List (Site × Issue)) : Prop where
  trace : ∃ events, t.trace.toList = s.trace.toList ++ events ∧
    events.filterMap Event.report? = reports.map fun r => (some r.1.path, r.2)
  entries : t.entries = s.entries ++
    (reports.filter (·.2.isKept s.collector.verbose)).map fun r => r.2.entry r.1.attributes
  verbose : t.collector.verbose = s.collector.verbose

namespace Session.Recorded
variable {s t u : Session} {rs qs : List (Site × Issue)}

theorem refl (s : Session) : s.Recorded s [] :=
  ⟨⟨[], by simp⟩, by simp, rfl⟩

theorem trans (h : s.Recorded t rs) (k : t.Recorded u qs) : s.Recorded u (rs ++ qs) where
  trace := by
    obtain ⟨first, trace, reports⟩ := h.trace
    obtain ⟨later, more, others⟩ := k.trace
    refine ⟨first ++ later, by rw [more, trace, List.append_assoc], ?_⟩
    rw [List.filterMap_append, reports, others, List.map_append]
  entries := by
    rw [k.entries, h.entries, h.verbose, List.filter_append, List.map_append, List.append_assoc]
  verbose := k.verbose.trans h.verbose

theorem reported (s : Session) (site : Site) (issue : Issue) :
    s.Recorded (s.reported site issue) [(site, issue)] where
  trace := ⟨[_], Array.toList_push, rfl⟩
  entries := by
    rw [entries_reported, issue.added_report]
    cases hkept : issue.isKept s.collector.verbose <;> simp [hkept]
  verbose := s.collector.report_verbose _

end Session.Recorded

/-- Every step of lowering records what it reports about known nodes. -/
theorem Session.recorded_steps (known : Site → Prop) :
    Steps known fun s t => ∃ reports, s.Recorded t reports ∧ ∀ r ∈ reports, known r.1 where
  refl s := ⟨[], .refl s, by simp⟩
  trans := by
    rintro s t u ⟨rs, first, about⟩ ⟨qs, later, others⟩
    exact ⟨rs ++ qs, first.trans later, List.forall_mem_append.mpr ⟨about, others⟩⟩
  scopes s scopes := ⟨[], ⟨⟨[], by simp⟩, by simp [entries], rfl⟩, by simp⟩
  event s e h := ⟨[], ⟨⟨[e], by simp [record, h]⟩, by simp [entries, record], rfl⟩, by simp⟩
  report s site issue h := ⟨[(site, issue)], .reported s site issue, by simpa using h⟩

theorem Lower.Composed.recorded {cfg : Config} {known : Site → Prop} {α : Type} {m : Lower α}
    (h : Composed cfg known m) (s : Session) :
    ∃ reports, s.Recorded (s.run m).2 reports ∧ ∀ r ∈ reports, known r.1 :=
  (h.linked (Session.recorded_steps known) s).related

/-- However a tree is lowered and however that ends, what was reported on the way are issues of
nodes of the tree, and the collector has kept them. -/
theorem lower_recorded (entry : EntryPoint) (cfg : Config) (n : Node) (s : Session) :
    ∃ reports, s.Recorded (s.run (entry.lower cfg n)).2 reports ∧ ∀ r ∈ reports, r.1 ∈ n.sites [] :=
  (entry.lower_composed cfg n).recorded s

end ScriptIR
