import ScriptIR.Proofs.Lowering.Recovery

/-!
# Errors that end a run

A strict run goes on only while it has recorded no error. `Session.Heeds` says so of one run,
whatever files its locations name: if it was stopped by an error, this is the last entry that it has
added and the only error among these, and if nothing has stopped it, it has added none. A lenient
run is not stopped by errors at all.
-/
namespace ScriptIR

open Lower (Composed)

/-- No entry is an error. -/
def Diagnostic.NoErrors (ds : List Diagnostic) : Prop :=
  ∀ d ∈ ds, d.severity ≠ .error

theorem Diagnostic.noErrors_nil : NoErrors [] :=
  fun _ absurd => by cases absurd

/-- All entries are no errors but the last one, which is `d`. -/
def Diagnostic.EndsWith (ds : List Diagnostic) (d : Diagnostic) : Prop :=
  d.severity = .error ∧ ∃ before, ds = before ++ [d] ∧ NoErrors before

open Diagnostic (NoErrors EndsWith)

namespace Collector
variable {c : Collector} {r : Report}

/-- Only a strict collector stops, and only at an error, which is the entry that it has added. -/
theorem endsWith_of_stop {d : Diagnostic} (h : (c.report r).stop = some (.strict d)) :
    c.strict = true ∧ EndsWith (c.added r) d := by
  unfold report keep Diagnostic.text? at h
  split at h
  · cases h
  · dsimp only at h
    split at h
    · cases h
    · split at h
      next error =>
        cases h
        simp only [Bool.and_eq_true, decide_eq_true_eq] at error
        refine ⟨error.2, error.1, [], added_of_error error.1, Diagnostic.noErrors_nil⟩
      next => cases h

theorem noErrors_of_goes (h : (c.report r).stop = none) (strict : c.strict = true) :
    NoErrors (c.added r) := by
  intro d hd error
  rw [severity_of_mem_added hd] at error
  unfold report keep Diagnostic.text? at h
  simp only [error, strict] at h
  split at h
  next info => simp at info
  next => split at h <;> simp at h

theorem report_strict (c : Collector) (r : Report) : (c.report r).collector.strict = c.strict := by
  unfold report keep
  split
  · rfl
  · dsimp only
    split
    · rfl
    · exact count_strict _ _

end Collector

/-- A run from `s` that has ended as given was stopped by an error only if that is the first error
and the last entry that it has added, and a strict run that was not stopped has added no error. -/
structure Session.Heeds {α : Type} (s : Session) (ended : Except Fault α × Session) : Prop where
  strict : ended.2.collector.strict = s.collector.strict
  added : ∃ added, ended.2.entries = s.entries ++ added ∧
    (∀ d, ended.1 = .error (.stopped (.strict d)) → s.collector.strict = true ∧ EndsWith added d) ∧
    (s.collector.strict = true → (∀ stop, ended.1 ≠ .error (.stopped stop)) → NoErrors added)

namespace Session.Heeds
variable {α β : Type} {s t : Session} {site : Site}

theorem silent {outcome : Except Fault α} (collector : t.collector = s.collector)
    (goes : ∀ stop, outcome ≠ .error (.stopped stop)) : s.Heeds (outcome, t) where
  strict := congrArg Collector.strict collector
  added := by
    refine ⟨[], ?_, fun d stopped => absurd stopped (goes _),
      fun _ _ => Diagnostic.noErrors_nil⟩
    rw [entries, collector, List.append_nil, entries]

theorem report (site : Site) (issue : Issue) :
    s.Heeds (s.run (Lower.report (some site) issue)) := by
  have strict := s.collector.report_strict (issue.report (some site.attributes))
  have entries := s.entries_reported site issue
  cases hstop : s.stop? site issue with
  | none =>
    rw [run_report_of_none hstop]
    exact ⟨strict, _, entries, (fun _ absurd => by cases absurd),
      fun hs _ => Collector.noErrors_of_goes hstop hs⟩
  | some stop =>
    rw [run_report_of_stop hstop]
    refine ⟨strict, _, entries, ?_, fun _ goes => absurd rfl (goes stop)⟩
    intro d stopped
    cases stopped
    exact Collector.endsWith_of_stop hstop

/-- What a run that was not stopped has added comes before what is added behind it. -/
theorem prepend {first : Except Fault α} {ended : Except Fault β × Session}
    (h : s.Heeds (first, t)) (goes : ∀ stop, first ≠ .error (.stopped stop)) (k : t.Heeds ended) :
    s.Heeds ended where
  strict := k.strict.trans h.strict
  added := by
    obtain ⟨before, entries, _, clean⟩ := h.added
    obtain ⟨after, more, stops, rest⟩ := k.added
    have strict : t.collector.strict = s.collector.strict := h.strict
    rw [strict] at stops rest
    refine ⟨before ++ after, by rw [more, entries, List.append_assoc], ?_, ?_⟩
    · intro d stopped
      obtain ⟨hs, error, earlier, rfl, none⟩ := stops d stopped
      have all : NoErrors (before ++ earlier) :=
        List.forall_mem_append.mpr ⟨clean hs goes, none⟩
      exact ⟨hs, error, before ++ earlier, (List.append_assoc ..).symm, all⟩
    · intro hs none
      exact List.forall_mem_append.mpr ⟨clean hs goes, rest hs none⟩

/-- What only moves scopes or declares does not change how a run goes with its errors. -/
theorem around {outcome : Except Fault α} {outcome' : Except Fault β} {start u : Session}
    (h : start.Heeds (outcome, t)) (before : start.collector = s.collector)
    (after : u.collector = t.collector)
    (same : ∀ stop, outcome' = .error (.stopped stop) ↔ outcome = .error (.stopped stop)) :
    s.Heeds (outcome', u) where
  strict := by
    have strict : t.collector.strict = start.collector.strict := h.strict
    rw [after, strict, before]
  added := by
    obtain ⟨added, entries, stops, clean⟩ := h.added
    refine ⟨added, ?_, ?_, ?_⟩
    · change u.collector.entries.toList = s.collector.entries.toList ++ added
      rw [after, ← before]
      exact entries
    · intro d stopped
      rw [← before]
      exact stops d ((same _).mp stopped)
    · intro hs none
      exact clean (before ▸ hs) fun stop stopped => none stop ((same stop).mpr stopped)

end Session.Heeds

namespace Lower.Composed
open Session

theorem heeds {cfg : Config} {known : Site → Prop} {α : Type} {m : Lower α}
    (h : Composed cfg known m) :
    ∀ s : Session, s.Heeds (s.run m) := by
  induction h with
  | pure a => exact fun s => .silent rfl fun _ absurd => by cases absurd
  | @bind _ _ m f _ _ first next =>
    intro s
    have ended := first s
    cases hm : s.run m with
    | mk outcome t =>
      rw [hm] at ended
      cases outcome with
      | ok a =>
        rw [run_bind_of_ok hm]
        exact ended.prepend (fun _ absurd => by cases absurd) (next a t)
      | error e =>
        rw [run_bind_of_error hm]
        exact ended.around rfl rfl fun stop => by simp
  | dispatched _ => exact fun s => .silent rfl fun _ absurd => by cases absurd
  | report issue _ => exact fun s => .report _ issue
  | resolve callee _ => exact fun s => .silent rfl fun _ absurd => by cases absurd
  | malformed m _ => exact fun s => .silent rfl fun _ absurd => by cases absurd
  | @orUnknown site body _ _ ih =>
    intro s
    refine run_orUnknown_of (P := s.Heeds) (ih s) fun m culprit t hbody => ?_
    have inside := ih s
    rw [hbody] at inside
    refine inside.prepend (fun _ absurd => by cases absurd) ?_
    have reported := Heeds.report (s := t) culprit (.malformed m)
    cases hreport : t.run (Lower.report (some culprit) (.malformed m)) with
    | mk outcome u =>
      rw [hreport] at reported
      cases outcome with
      | ok _ =>
        rw [run_bind_of_ok hreport]
        exact reported.around rfl rfl fun stop => by simp
      | error e =>
        rw [run_bind_of_error hreport]
        exact reported.around rfl rfl fun stop => by simp
  | inBlock code body ih =>
    intro s
    rw [body.run_inBlock rfl]
    exact (ih (s.opening (.block code))).around rfl rfl fun _ => Iff.rfl
  | declared header => exact fun s => .silent rfl fun _ absurd => by cases absurd
  | @defining header body composed ih =>
    intro s
    have inside := ih (s.openingFunction header)
    cases hbody : (s.openingFunction header).run body with
    | mk outcome t =>
      rw [hbody] at inside
      cases outcome with
      | ok lowered =>
        rw [composed.run_defining_of_ok hbody]
        exact inside.around rfl rfl fun stop => by simp
      | error e =>
        rw [composed.run_defining_of_error hbody]
        exact inside.around rfl rfl fun stop => by simp

end Lower.Composed

end ScriptIR
