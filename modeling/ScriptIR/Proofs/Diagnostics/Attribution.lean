import Mathlib.Data.List.Count
import ScriptIR.Proofs.Lowering.Visits

/-!
# What the entries of a run are about

Every entry that lowering adds to the collector is the report of one issue about one node of the
tree. Its stage, its place and its category follow from these two, and so does its severity: the
errors are the malformed nodes. Where all files can be shown, every error that is added is counted.
-/
namespace ScriptIR
open Session

theorem Category.name_injective {c d : Category} (same : c.name = d.name) : c = d := by
  cases c <;> cases d <;> first | rfl | simp [name] at same

namespace Issue

theorem severity_eq_error_iff (issue : Issue) :
    issue.severity = .error ↔ issue.category = .malformedNode := by
  cases issue <;> simp [severity, category]

/-- Information is what a collector that is not verbose leaves out, and nothing
is of less severity. -/
theorem severity_of_isKept {issue : Issue} (kept : issue.isKept false = true) :
    issue.severity = .warning ∨ issue.severity = .error := by
  cases issue with
  | memberAccess | unresolvedCallee => cases kept
  | malformed => exact .inr rfl
  | unsupportedKind | unidentifiedLiteral | ambiguousCallee | undeclaredParameter | noTypeIdentifier
  | invalidType => exact .inl rfl

end Issue

/-- The entry comes from lowering and is about the node: it carries the place of the node and one of
the categories of issues, and it is an error exactly if that is the category of malformed nodes. -/
structure Diagnostic.IsAbout (d : Diagnostic) (site : Site) : Prop where
  stage : d.stage = "lowering"
  subject : d.subject = some site.attributes
  line : d.line = site.attributes.location.line
  column : d.column = site.attributes.location.column
  file : d.file = site.attributes.location.file
  category : ∃ c : Category, d.category = some c.name
  error : d.severity = .error ↔ d.category = some Category.malformedNode.name

theorem Issue.entry_isAbout (issue : Issue) (site : Site) :
    (issue.entry site.attributes).IsAbout site where
  stage := rfl
  subject := rfl
  line := rfl
  column := rfl
  file := rfl
  category := ⟨issue.category, rfl⟩
  error := by
    have named : some issue.category.name = some Category.malformedNode.name ↔
        issue.category = .malformedNode :=
      ⟨fun same => Category.name_injective (Option.some.inj same), fun same => by rw [same]⟩
    exact issue.severity_eq_error_iff.trans named.symm

/-! ### The count of errors -/

theorem Collector.errorCount_count (c : Collector) (severity : Severity) :
    (c.count severity).errorCount = c.errorCount + if severity = .error then 1 else 0 := by
  cases severity <;> rfl

theorem Collector.errorCount_report (c : Collector) {r : Report} (shown : r.Shown) :
    (c.report r).collector.errorCount = c.errorCount + (c.added r).countP
    (·.severity = .error) := by
  rw [report_eq shown]
  dsimp only
  unfold kept added
  split
  · rfl
  · rw [errorCount_count, List.countP_singleton]
    simp only [decide_eq_true_eq]
    rfl

/-- On the way from `s` to `t` as many errors were counted as were added. -/
def Session.CountsErrors (s t : Session) : Prop :=
  ∃ added, t.entries = s.entries ++ added ∧
    t.collector.errorCount = s.collector.errorCount + added.countP (·.severity = .error)

theorem Session.countsErrors_steps {known : Site → Prop} (shown : ∀ site, known site → site.Shown) :
    Steps known CountsErrors where
  refl s := ⟨[], (List.append_nil _).symm, rfl⟩
  trans := by
    rintro s t u ⟨first, entries, count⟩ ⟨later, more, others⟩
    refine ⟨first ++ later, by rw [more, entries, List.append_assoc], ?_⟩
    rw [others, count, List.countP_append, Nat.add_assoc]
  scopes s _ := ⟨[], (List.append_nil _).symm, rfl⟩
  event s _ _ := ⟨[], (List.append_nil _).symm, rfl⟩
  report s site issue hsite := ⟨_, s.entries_reported site issue,
    s.collector.errorCount_report (issue.report_shown (shown site hsite))⟩

/-- The entries of the reports that are kept are about their nodes, and were seen on the way. -/
theorem Session.Recorded.isAbout {s t : Session} {reports : List (Site × Issue)}
    (h : s.Recorded t reports) {d : Diagnostic}
    (hd : d ∈ (reports.filter (·.2.isKept s.collector.verbose)).map fun r =>
      r.2.entry r.1.attributes) :
    ∃ r ∈ reports, d = r.2.entry r.1.attributes ∧ r.2.isKept s.collector.verbose = true ∧
      d.IsAbout r.1 ∧ ∃ line, s.Saw t (.reported (some r.1.path) r.2 line) := by
  obtain ⟨⟨site, issue⟩, hr, rfl⟩ := List.mem_map.mp hd
  obtain ⟨hr, kept⟩ := List.mem_filter.mp hr
  exact ⟨(site, issue), hr, rfl, kept, issue.entry_isAbout site, h.saw_of_mem hr⟩

/-- However a tree is lowered and however that ends, every entry that is added is what was
reported on the way about a node of the tree, and is about that node. As many errors are counted
as entries with the category of malformed nodes are added, and a collector that is not verbose
adds warnings and errors only. -/
theorem lower_attributes_entries (entry : EntryPoint) (cfg : Config) (n : Node)
    (files : n.FilesShown)
    {s t : Session} {outcome : Except Fault Part} (run : s.run (entry.lower cfg n) = (outcome, t)) :
    ∃ added, t.entries = s.entries ++ added ∧
      (∀ d ∈ added, ∃ site ∈ n.sites [], d.IsAbout site ∧ ∃ issue line,
        d = issue.entry site.attributes ∧ s.Saw t (.reported (some site.path) issue line)) ∧
      t.collector.errorCount = s.collector.errorCount +
        (added.filter (·.category = some Category.malformedNode.name)).length ∧
      (s.collector.verbose = false →
        ∀ d ∈ added, d.severity = .warning ∨ d.severity = .error) := by
  obtain ⟨reports, recorded, about⟩ := lower_recorded entry cfg n s
  obtain ⟨added, entries, count⟩ :=
    ((entry.lower_composed cfg n).linked (countsErrors_steps files) s).related
  rw [run] at recorded entries count
  -- What was counted is what the reports added: both follow the same entries.
  have same := entries.symm.trans recorded.entries
  obtain rfl := List.append_cancel_left same
  refine ⟨_, recorded.entries, fun d hd => ?_, ?_, fun quiet d hd => ?_⟩
  · obtain ⟨r, hr, kept, -, isAbout, line, saw⟩ := recorded.isAbout hd
    exact ⟨r.1, about r hr, isAbout, r.2, line, kept, saw⟩
  · rw [count, ← List.countP_eq_length_filter]
    congr 1
    refine List.countP_congr fun d hd => ?_
    obtain ⟨r, -, -, -, isAbout, -⟩ := recorded.isAbout hd
    simpa using isAbout.error
  · obtain ⟨r, -, rfl, kept, -⟩ := recorded.isAbout hd
    rw [quiet] at kept
    exact Issue.severity_of_isKept kept

/-- A script block is given up on because of the function without a name in it. The entry says where
that function stands, not where the block does. -/
theorem lower_attributes_entries_unnamed :
    let place : Location := { line := 3, column := 7 }
    let f : Node := ⟨{ kind := .functionDefinition, tag := "Function", location := place }, []⟩
    let n : Node := ⟨{ kind := .scriptBlock, tag := "ScriptBlock", location := { line := 1 } }, [f]⟩
    let t := ((Session.start {}).run (EntryPoint.expression.lower {} n)).2
    n.FilesShown ∧ ∃ d, t.entries = [d] ∧ d.IsAbout ⟨[0], f⟩ ∧ d.line = 3 ∧ d.column = 7 ∧
      t.collector.errorCount = 1 := by
  intro place f n t
  have files : n.FilesShown := by decide
  have run : (Session.start {}).run (EntryPoint.expression.lower {} n) = (_, t) := rfl
  obtain ⟨added, entries, about, count, -⟩ := lower_attributes_entries .expression {} n files run
  have only : added = [(Issue.malformed .unnamedFunction).entry f.label] := entries.symm
  obtain ⟨site, hsite, isAbout, -⟩ := about _ (only ▸ List.mem_singleton_self _)
  rw [only] at count
  have inside : site = ⟨[0], f⟩ := by
    have sites : n.sites [] = [.root n, ⟨[0], f⟩] := rfl
    rw [sites, List.mem_pair] at hsite
    refine hsite.resolve_left fun root => ?_
    have line := isAbout.line
    rw [root] at line
    exact absurd line (by decide)
  exact ⟨files, _, entries.trans only, inside ▸ isAbout, rfl, rfl, count⟩

end ScriptIR
