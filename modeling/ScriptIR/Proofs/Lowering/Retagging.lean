import ScriptIR.Proofs.Diagnostics.Headings
import ScriptIR.Proofs.Lowering.AlikeInScopes

/-!
# Other tags

A tree may carry any tags beside its kinds. They stand in the wording of what is reported and decide
nothing: trees that differ in their tags only become the same programs, along with diagnostics that
differ in their wording only.
-/
namespace ScriptIR

/-- The second tree is the first one with other tags. -/
inductive Node.Retagged : Node → Node → Prop
  | node {attrs attrs' : Attributes} {children others : List Node} :
      attrs'.retag (fun _ => "") = attrs.retag (fun _ => "") →
      List.Forall₂ Retagged children others → Retagged ⟨attrs, children⟩ ⟨attrs', others⟩

namespace Lower
open Session

/-- Nodes that differ in their tags at most, and sessions in the same scopes, at the same moment,
whose diagnostics differ in their wording at most. -/
def retagged : Likeness where
  session s u := u.scopes = s.scopes ∧ u.trace.size = s.trace.size ∧
    s.collector.SameHeadings u.collector
  site s t := t.attributes.retag (fun _ => "") = s.attributes.retag fun _ => ""
  stop := Stop.SameHeading
  tag _ := ""
  attributes h := h

theorem retagged_record {s u : Session} (h : retagged.session s u) (e f : Event) :
    retagged.session (s.record e) (u.record f) := by
  obtain ⟨scopes, moment, collector⟩ := h
  refine ⟨scopes, ?_, collector⟩
  simp only [Session.record, Array.size_push, moment]

theorem retagged_steps : KeptBySteps retagged where
  dispatched _ _ _ related := ⟨.ok (), retagged_record related _ _⟩
  report := by
    rintro site other hsite issue issue' tags s u ⟨scopes, moment, collector⟩
    have headings := issue.report_sameHeading tags (retagged.location hsite)
    obtain ⟨kept, stops⟩ := collector.report headings
    have after : retagged.session (s.reported site issue) (u.reported other issue') := by
      refine ⟨scopes, ?_, kept⟩
      simp only [Session.reported, Session.record, Array.size_push, moment]
    change Option.Rel Stop.SameHeading (s.stop? site issue) (u.stop? other issue') at stops
    cases mine : s.stop? site issue with
    | none =>
      rw [mine] at stops
      cases theirs : u.stop? other issue' with
      | none =>
        rw [run_report_of_none mine, run_report_of_none theirs]
        exact ⟨.ok (), after⟩
      | some stop' =>
        rw [theirs] at stops
        cases stops
    | some stop =>
      rw [mine] at stops
      cases theirs : u.stop? other issue' with
      | none =>
        rw [theirs] at stops
        cases stops
      | some stop' =>
        rw [theirs] at stops
        cases stops with
        | some same =>
          rw [run_report_of_stop mine, run_report_of_stop theirs]
          exact ⟨.stopped same, after⟩

theorem retagged_scopes (cfg : Config) : KeptByScopes cfg retagged where
  resolve := by
    rintro site other _ callee s u related
    have mine : (s.run (resolve cfg site callee)).1 = .ok (s.scopes.resolve cfg callee) := rfl
    have theirs : (u.run (resolve cfg other callee)).1 = .ok (u.scopes.resolve cfg callee) := rfl
    rw [mine, theirs, related.1]
    exact ⟨.ok _, retagged_record related _ _⟩
  declareAll := by
    rintro s u ds ⟨scopes, moment, collector⟩
    refine ⟨?_, moment, collector⟩
    simp only [declareAll, scopes]
  opening := by
    rintro s u owner ⟨scopes, moment, collector⟩
    refine ⟨?_, ?_, collector⟩
    · simp only [opening, enter, Session.record, scopes, moment]
    · simp only [opening, enter, Session.record, Array.size_push, moment]
  closing := by
    rintro s u t v owner ⟨scopes, _, _⟩ ⟨inner, moment, collector⟩
    refine ⟨?_, ?_, collector⟩
    · simp only [closing, Session.record, scopes, inner]
    · simp only [closing, Session.record, Array.size_push, moment]

theorem retagged_matches : Node.Matches retagged Node.Retagged where
  root := by
    rintro _ _ ⟨attributes, _⟩ _ _
    exact attributes
  children := by
    rintro _ _ ⟨_, children⟩
    exact children

end Lower

/-- A tree is lowered as it is with other tags. -/
theorem Node.Retagged.lower {n m : Node} (h : n.Retagged m) (cfg : Config) :
    Lower.Alike Lower.retagged (lowerExpression cfg n) (lowerExpression cfg m) ∧
      Lower.Alike Lower.retagged (lowerScript cfg n) (lowerScript cfg m) := by
  have label := (Node.readings_alike_of_matches Lower.retagged_steps (Lower.retagged_scopes cfg)
    Lower.retagged_matches n m h [] []).label
  have origin : (Site.root m).origin = (Site.root n).origin :=
    Lower.retagged.origin (Lower.retagged_matches.root h [] [])
  refine ⟨label.expression, label.statement.bind fun lowered => ?_⟩
  cases lowered with
  | block origin statements => exact .pure _
  | expression _ _ | definition _ _ =>
    rw [origin]
    exact .pure _

end ScriptIR
