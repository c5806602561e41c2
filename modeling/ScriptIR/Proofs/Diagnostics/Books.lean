import Mathlib.Data.List.Basic
import ScriptIR.Proofs.Diagnostics.Reports

/-!
# The books of a collector

A collector counts its errors and warnings apart from its entries, and its mode may be changed
between two reports. The counts agree with the entries all the same: whatever is asked of a
collector, an entry is kept before it is counted and counted before an error stops the run, and
nothing is ever taken back.
-/
namespace ScriptIR

/-- What is asked of a collector from outside: to take up a report, or to change its mode. -/
inductive CollectorCall where
  | report (r : Report)
  | verbose (on : Bool)
  | debug (on : Bool)
  | strict (on : Bool)
  | defaultStage (stage : String)
deriving Repr

/-- The file of what is reported can be shown. -/
def CollectorCall.Shown : CollectorCall → Prop
  | .report r => r.Shown
  | _ => True

namespace Collector

/-- What comes of a call. Only a report is logged or stops the run. -/
def perform (c : Collector) : CollectorCall → Reported
  | .report r => c.report r
  | .verbose on => ⟨{ c with verbose := on }, none, none⟩
  | .debug on => ⟨{ c with debug := on }, none, none⟩
  | .strict on => ⟨{ c with strict := on }, none, none⟩
  | .defaultStage stage => ⟨{ c with defaultStage := stage }, none, none⟩

/-- The collector after some calls, each made whether or not the one before it stopped the run. -/
def after (c : Collector) (calls : List CollectorCall) : Collector :=
  calls.foldl (fun c call => (c.perform call).collector) c

/-- The entries that a call adds. -/
def addedBy (c : Collector) : CollectorCall → List Diagnostic
  | .report r => c.added r
  | _ => []

/-- The counts are those of the entries, and every entry can be shown. -/
structure Counted (c : Collector) : Prop where
  errors : c.errorCount = c.entries.toList.countP (·.severity = .error)
  warnings : c.warningCount = c.entries.toList.countP (·.severity = .warning)
  shown : ∀ d ∈ c.entries.toList, isFileName d.file = true

/-- What can be asked of a collector agrees with its entries. -/
structure Balanced (c : Collector) : Prop extends Counted c where
  hasErrors : c.hasErrors = true ↔ ∃ d ∈ c.entries.toList, d.severity = .error
  messages : ∀ least, c.messages least =
    .ok ((c.entries.toList.filter (·.severity.atLeast least)).map Diagnostic.text)
  fewer : ∀ low high : Severity, low.rank ≤ high.rank →
    ∃ severe all, c.messages high = .ok severe ∧ c.messages low = .ok all ∧ severe.Sublist all

/-! ### One call -/

namespace Counted
variable {c : Collector}

theorem keep (h : c.Counted) {d : Diagnostic} (shown : isFileName d.file = true) :
    ((c.push d).count d.severity).Counted := by
  have all : ∀ e ∈ (c.push d).entries.toList, isFileName e.file = true := by
    intro e he
    rw [push, Array.toList_push, List.mem_append] at he
    cases he with
    | inl old => exact h.shown e old
    | inr new => rw [List.mem_singleton.mp new]; exact shown
  have errors := h.errors
  have warnings := h.warnings
  cases hs : d.severity <;>
    exact ⟨by simp [count, push, List.countP_append, errors, hs],
      by simp [count, push, List.countP_append, warnings, hs], all⟩

theorem report (h : c.Counted) {r : Report} (shown : r.Shown) : (c.report r).collector.Counted := by
  rw [report_eq shown]
  dsimp only
  unfold kept
  split
  · exact h
  · exact h.keep (d := c.entry r) (c.shown_entry shown)

theorem perform (h : c.Counted) {call : CollectorCall} (shown : call.Shown) :
    (c.perform call).collector.Counted := by
  cases call with
  | report r => exact h.report shown
  | verbose | debug | strict | defaultStage => exact ⟨h.errors, h.warnings, h.shown⟩

theorem after (h : c.Counted) {calls : List CollectorCall} (shown : ∀ call ∈ calls, call.Shown) :
    (c.after calls).Counted := by
  induction calls generalizing c with
  | nil => exact h
  | cons call rest ih =>
    rw [List.forall_mem_cons] at shown
    exact ih (h.perform shown.1) shown.2

theorem messages (h : c.Counted) (least : Severity) : c.messages least =
    .ok ((c.entries.toList.filter (·.severity.atLeast least)).map Diagnostic.text) := by
  have text : ∀ d ∈ c.entries.toList.filter (·.severity.atLeast least), d.text? = .ok d.text := by
    intro d hd
    rw [Diagnostic.text?, if_pos (h.shown d (List.mem_filter.mp hd).1)]
  unfold Collector.messages
  generalize c.entries.toList.filter (·.severity.atLeast least) = shown at text ⊢
  induction shown with
  | nil => rfl
  | cons d rest ih =>
    rw [List.forall_mem_cons] at text
    rw [List.mapM_cons, text.1, ih text.2]
    rfl

theorem balanced (h : c.Counted) : c.Balanced where
  toCounted := h
  hasErrors := by
    rw [Collector.hasErrors, decide_eq_true_eq, h.errors, List.countP_pos_iff]
    simp only [decide_eq_true_eq]
  messages := h.messages
  fewer low high le := by
    refine ⟨_, _, h.messages high, h.messages low, List.Sublist.map _ ?_⟩
    refine List.monotone_filter_right _ fun d hd => ?_
    simp only [Severity.atLeast, decide_eq_true_eq] at hd ⊢
    exact Nat.le_trans le hd

end Counted

theorem perform_entries (c : Collector) (call : CollectorCall) :
    (c.perform call).collector.entries.toList = c.entries.toList ++ c.addedBy call := by
  cases call with
  | report r => exact c.report_entries r
  | verbose | debug | strict | defaultStage => exact (List.append_nil _).symm

theorem entries_prefix_after (c : Collector) (calls : List CollectorCall) :
    c.entries.toList <+: (c.after calls).entries.toList := by
  induction calls generalizing c with
  | nil => exact List.prefix_refl _
  | cons call rest ih =>
    have one : c.entries.toList <+: (c.perform call).collector.entries.toList :=
      ⟨_, (c.perform_entries call).symm⟩
    exact one.trans (ih _)

/-- A call stops the run exactly if it reports an error to a strict collector,
which has kept it then. -/
theorem perform_stop_iff (c : Collector) {call : CollectorCall} (shown : call.Shown) (stop : Stop) :
    (c.perform call).stop = some stop ↔ ∃ d, stop = .strict d ∧ c.strict = true ∧
      d.severity = .error ∧ c.addedBy call = [d] := by
  cases call with
  | report r =>
    have stops : (c.perform (.report r)).stop =
        if r.severity = .error && c.strict then some (.strict (c.entry r)) else none :=
      congrArg Reported.stop (report_eq shown)
    rw [stops]
    constructor
    · intro h
      split at h
      · next error =>
        rw [Bool.and_eq_true, decide_eq_true_eq] at error
        exact ⟨c.entry r, (Option.some.inj h).symm, error.2, error.1, added_of_error error.1⟩
      · cases h
    · intro ⟨d, same, strict, error, added⟩
      have severity := severity_of_mem_added (c := c) (r := r) (d := d)
        (by rw [← addedBy, added]; exact List.mem_singleton_self d)
      have entry : c.entry r = d := by
        rw [addedBy, added_of_error (severity.symm.trans error)] at added
        exact List.singleton_inj.mp added
      rw [if_pos (by simp [strict, ← severity, error]), entry, same]
  | verbose | debug | strict | defaultStage => simp [perform, addedBy]

/-! ### Every run -/

theorem counted_forLevel (level : Option String) (verbose debug strict : Bool) :
    (forLevel level verbose debug strict).Counted :=
  ⟨rfl, rfl, by simp [forLevel]⟩

end Collector

end ScriptIR
