import ScriptIR.Proofs.Diagnostics.Reports
import ScriptIR.Proofs.Diagnostics.Tags

/-!
# Headings of diagnostics

The heading of a diagnostic is everything but its wording: how severe it is, the stage, the
category, and the place. What a collector does with a report, and whether its entries can be shown,
is decided by headings alone.
-/
namespace ScriptIR

/-- Severity, stage, category, the place that is shown, and the place of the subject. -/
abbrev Diagnostic.Heading :=
  Severity × String × Option String × (Json × Int × Int) × Option Location

def Diagnostic.heading (d : Diagnostic) : Heading :=
  (d.severity, d.stage, d.category, (d.file, d.line, d.column), d.subject.map Attributes.location)

namespace Diagnostic
variable {d e : Diagnostic} (h : e.heading = d.heading)
include h

theorem severity_eq_of_heading : e.severity = d.severity :=
  congrArg Prod.fst h

theorem file_eq_of_heading : e.file = d.file :=
  congrArg (·.2.2.2.1.1) h

/-- Diagnostics with the same heading can be shown both, or neither, for the same file. -/
theorem text?_of_heading : e.text?.map (fun _ => ()) = d.text?.map fun _ => () := by
  rw [text?, file_eq_of_heading h, text?]
  split <;> rfl

end Diagnostic

/-- The same reason to stop: an error, or a place that cannot be shown. -/
inductive Stop.SameHeading : Stop → Stop → Prop
  | strict {d e : Diagnostic} : e.heading = d.heading → SameHeading (.strict d) (.strict e)
  | notAFileName (e : NotAFileName) : SameHeading (.notAFileName e) (.notAFileName e)

/-- What is reported differs in its wording only. -/
structure Report.SameHeading (r q : Report) : Prop where
  severity : q.severity = r.severity
  stage : q.stage = r.stage
  category : q.category = r.category
  place : q.subject.map Attributes.location = r.subject.map Attributes.location

/-- What is said of a node with another tag has the same heading. -/
theorem Issue.report_sameHeading {f : String → String} {issue issue' : Issue} {a b : Attributes}
    (tags : issue'.retag f = issue.retag f) (place : b.location = a.location) :
    (issue.report (some a)).SameHeading (issue'.report (some b)) where
  severity := by
    have same := congrArg Issue.severity tags
    rwa [severity_retag, severity_retag] at same
  stage := rfl
  category := by
    have same := congrArg (fun i => some i.category.name) tags
    simp only [category_retag] at same
    exact same
  place := congrArg some place

namespace Collector

/-- The collectors take up reports in the same way, and their entries have the same headings. -/
structure SameHeadings (c d : Collector) : Prop where
  entries : d.entries.toList.map Diagnostic.heading = c.entries.toList.map Diagnostic.heading
  verbose : d.verbose = c.verbose
  strict : d.strict = c.strict
  stage : d.defaultStage = c.defaultStage

theorem heading_entry {c d : Collector} {r q : Report} (stage : d.defaultStage = c.defaultStage)
    (h : r.SameHeading q) : (d.entry q).heading = (c.entry r).heading := by
  simp only [Diagnostic.heading, entry, h.severity, h.stage, h.category, h.place, stage]

namespace SameHeadings
variable {c d : Collector} {r q : Report}

theorem refl (c : Collector) : c.SameHeadings c :=
  ⟨rfl, rfl, rfl, rfl⟩

theorem push (h : c.SameHeadings d) {x y : Diagnostic} (heading : y.heading = x.heading) :
    (c.push x).SameHeadings (d.push y) where
  entries := by
    simp only [Collector.push, Array.toList_push, List.map_append, h.entries, List.map_singleton,
      heading]
  verbose := h.verbose
  strict := h.strict
  stage := h.stage

theorem count (h : c.SameHeadings d) (severity : Severity) :
    (c.count severity).SameHeadings (d.count severity) := by
  cases severity <;> exact ⟨h.entries, h.verbose, h.strict, h.stage⟩

theorem keep (h : c.SameHeadings d) (hr : r.SameHeading q) :
    (c.keep r).collector.SameHeadings (d.keep q).collector ∧
      Option.Rel Stop.SameHeading (c.keep r).stop (d.keep q).stop := by
  have heading := heading_entry h.stage hr
  have pushed := h.push heading
  unfold Collector.keep Diagnostic.text?
  dsimp only
  rw [Diagnostic.file_eq_of_heading heading, hr.severity, h.strict]
  by_cases shown : isFileName (c.entry r).file = true
  · simp only [if_pos shown]
    refine ⟨pushed.count r.severity, ?_⟩
    split
    · exact .some (.strict heading)
    · exact .none
  · simp only [if_neg shown]
    exact ⟨pushed, .some (.notAFileName _)⟩

/-- Of reports with the same heading both are kept, or neither, and both stop
the run, or neither. -/
theorem report (h : c.SameHeadings d) (hr : r.SameHeading q) :
    (c.report r).collector.SameHeadings (d.report q).collector ∧
      Option.Rel Stop.SameHeading (c.report r).stop (d.report q).stop := by
  unfold Collector.report
  rw [hr.severity, h.verbose]
  split
  · exact ⟨h, .none⟩
  · exact h.keep hr

/-- The entries of both can be shown, or for the same reason those of neither. -/
theorem messages (h : c.SameHeadings d) (least : Severity) :
    (d.messages least).map (fun _ => ()) = (c.messages least).map fun _ => () := by
  have shown : ∀ {ds es : List Diagnostic}, es.map Diagnostic.heading = ds.map Diagnostic.heading →
      ((es.filter (·.severity.atLeast least)).mapM Diagnostic.text?).map (fun _ => ()) =
        ((ds.filter (·.severity.atLeast least)).mapM Diagnostic.text?).map fun _ => () := by
    intro ds
    induction ds with
    | nil =>
      intro es hes
      rw [List.map_eq_nil_iff.mp hes]
    | cons x rest ih =>
      intro es hes
      obtain ⟨y, others, rfl, heading, tails⟩ := List.map_eq_cons_iff.mp hes
      have more := ih tails
      have first := Diagnostic.text?_of_heading heading
      rw [List.filter_cons, List.filter_cons, Diagnostic.severity_eq_of_heading heading]
      split
      · rw [List.mapM_cons, List.mapM_cons]
        revert first more
        cases x.text? <;> cases y.text? <;>
          cases (rest.filter (·.severity.atLeast least)).mapM Diagnostic.text? <;>
          cases (others.filter (·.severity.atLeast least)).mapM Diagnostic.text? <;>
          simp [Except.map, bind, Except.bind, pure, Except.pure]
      · exact more
  exact shown h.entries

end SameHeadings

end Collector

end ScriptIR
