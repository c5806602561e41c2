import ScriptIR.Diagnostics.Collector

/-!
# What a report changes

A report whose place can be shown adds at most one entry. Whether the collector is strict decides
only whether an error stops the run, never what is kept or logged.
-/
namespace ScriptIR

/-- The file of the report's subject can be shown. -/
def Report.Shown (r : Report) : Prop :=
  ∀ a, r.subject = some a → isFileName a.location.file = true

namespace Collector

/-- The collector with its strictness set. -/
def withStrict (c : Collector) (strict : Bool) : Collector :=
  { c with strict := strict }

/-- Whether the collector has no room for a report: information, unless it is verbose. -/
def ignores (c : Collector) (r : Report) : Bool :=
  r.severity = .info && !c.verbose

/-- The entries that a report adds. -/
def added (c : Collector) (r : Report) : List Diagnostic :=
  if c.ignores r then [] else [c.entry r]

/-- The collector after a report. -/
def kept (c : Collector) (r : Report) : Collector :=
  if c.ignores r then c else (c.push (c.entry r)).count r.severity

/-- What is logged of a report. -/
def logged (c : Collector) (r : Report) : Option LogLine :=
  if c.ignores r then some ⟨.info, r.message⟩ else some ⟨r.severity, (c.entry r).text⟩

theorem shown_entry (c : Collector) {r : Report} (h : r.Shown) :
    isFileName (c.entry r).file = true := by
  unfold entry
  cases hs : r.subject with
  | none => rfl
  | some a => exact h a hs

theorem report_eq {c : Collector} {r : Report} (h : r.Shown) :
    c.report r = ⟨c.kept r, c.logged r,
      if r.severity = .error && c.strict then some (.strict (c.entry r)) else none⟩ := by
  have shown := c.shown_entry h
  change (if c.ignores r then _ else c.keep r) = _
  unfold kept logged
  by_cases hi : c.ignores r = true
  · have info : r.severity = .info := by
      simp only [ignores, Bool.and_eq_true, decide_eq_true_eq] at hi
      exact hi.1
    rw [if_pos hi, if_pos hi, if_pos hi, info]
    rfl
  · rw [if_neg hi, if_neg hi, if_neg hi, keep]
    simp only [Diagnostic.text?, if_pos shown]

/-- Only information is ignored. -/
theorem added_of_error {c : Collector} {r : Report} (h : r.severity = .error) :
    c.added r = [c.entry r] := by
  unfold added ignores
  rw [h]
  rfl

theorem count_entries (c : Collector) (s : Severity) : (c.count s).entries = c.entries := by
  cases s <;> rfl

theorem count_strict (c : Collector) (s : Severity) : (c.count s).strict = c.strict := by
  cases s <;> rfl

theorem count_withStrict (c : Collector) (strict : Bool) (s : Severity) :
    (c.withStrict strict).count s = (c.count s).withStrict strict := by
  cases s <;> rfl

/-- What a report adds is added whether its place can be shown or not. -/
theorem report_entries (c : Collector) (r : Report) :
    (c.report r).collector.entries.toList = c.entries.toList ++ c.added r := by
  change (if c.ignores r then _ else c.keep r).collector.entries.toList = _
  unfold added
  split
  · exact (List.append_nil _).symm
  · unfold keep
    dsimp only
    split
    · exact Array.toList_push
    · rw [count_entries]
      exact Array.toList_push

theorem report_verbose (c : Collector) (r : Report) :
    (c.report r).collector.verbose = c.verbose := by
  change (if c.ignores r then _ else c.keep r).collector.verbose = _
  split
  · rfl
  · unfold keep
    dsimp only
    split
    · rfl
    · cases r.severity <;> rfl

theorem kept_strict (c : Collector) (r : Report) : (c.kept r).strict = c.strict := by
  unfold kept
  split
  · rfl
  · exact count_strict _ _

theorem kept_withStrict (c : Collector) (strict : Bool) (r : Report) :
    (c.withStrict strict).kept r = (c.kept r).withStrict strict := by
  change (if c.ignores r then _ else _) = (c.kept r).withStrict strict
  unfold kept
  split
  · rfl
  · exact count_withStrict (c.push (c.entry r)) strict r.severity

/-- The only entry that a report can add has its severity. -/
theorem severity_of_mem_added {c : Collector} {r : Report} {d : Diagnostic}
    (h : d ∈ c.added r) : d.severity = r.severity := by
  unfold added at h
  split at h
  · cases h
  · rw [List.mem_singleton.mp h]
    rfl

end Collector

end ScriptIR
