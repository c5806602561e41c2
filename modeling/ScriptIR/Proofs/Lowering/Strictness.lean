import ScriptIR.Proofs.Lowering.Recovery

/-!
# Strict and lenient runs

A strict session differs from a lenient one in nothing but its collector, which stops the run at
the first error. `Session.Agree` compares the two runs of an action: either the lenient one
recorded no error and the strict one has ended in the same way, or the strict one was stopped by
the error that the lenient one recorded first. Nothing that is recorded before the stop is lost
or put in another order, since recovering from a malformed node comes after all that was
recorded below it in both runs.
-/
namespace ScriptIR

open Lower (Composed)

/-- The session with the strictness of its collector set. -/
def Session.withStrict (s : Session) (strict : Bool) : Session :=
  { s with collector := s.collector.withStrict strict }

namespace Session
variable {α β : Type} {s t u : Session} {site : Site} {issue : Issue}

/-- A lenient and a strict run from `s` have ended as given: alike and without errors, or the strict
one because of the first error of the lenient one. -/
inductive Agree (s : Session) : (lenient strict : Except Fault α × Session) → Prop
  | same {outcome : Except Fault α} {t : Session} (added : List Diagnostic) : t.Lenient →
      t.entries = s.entries ++ added → (∀ d ∈ added, d.severity ≠ .error) →
      Agree s (outcome, t) (outcome, t.withStrict true)
  | stopped {outcome : Except Fault α} {t u : Session} (before : List Diagnostic) (d : Diagnostic) :
      t.Lenient → u.entries = s.entries ++ (before ++ [d]) → u.entries <+: t.entries →
      (∀ e ∈ before, e.severity ≠ .error) → d.severity = .error →
      Agree s (outcome, t) (.error (.stopped (.strict d)), u)

/-! ### Reports -/

theorem reported_withStrict (strict : Bool) (h : site.Shown) :
    (s.withStrict strict).reported site issue = (s.reported site issue).withStrict strict := by
  unfold reported
  rw [Collector.report_eq (issue.report_shown h), Collector.report_eq (issue.report_shown h)]
  dsimp only [withStrict]
  rw [Collector.kept_withStrict]
  rfl

theorem stop?_of_strict (h : site.Shown) :
    (s.withStrict true).stop? site issue =
      if issue.severity = .error then
        some (.strict (s.collector.entry (issue.report (some site.attributes))))
      else none := by
  unfold stop?
  rw [Collector.report_eq (issue.report_shown h)]
  by_cases severity : issue.severity = .error
  · have reported : (issue.report (some site.attributes)).severity = .error := severity
    rw [if_pos severity, reported]
    rfl
  · have reported : (issue.report (some site.attributes)).severity ≠ .error := severity
    rw [if_neg severity]
    simp [reported]

namespace Agree

theorem unchanged {outcome : Except Fault α} (hs : s.Lenient) :
    Agree s (outcome, s) (outcome, s.withStrict true) :=
  .same [] hs (List.append_nil _).symm fun _ absurd => by cases absurd

theorem grown {lenient strict : Except Fault α × Session} (h : Agree s lenient strict) :
    lenient.2.Lenient ∧ s.entries <+: lenient.2.entries := by
  cases h with
  | same added ht entries _ => exact ⟨ht, entries ▸ List.prefix_append _ _⟩
  | stopped before d ht stop kept _ _ =>
    exact ⟨ht, (List.prefix_append _ _).trans (stop ▸ kept)⟩

theorem prepend {lenient strict : Except Fault α × Session} {added : List Diagnostic}
    (h : Agree t lenient strict) (entries : t.entries = s.entries ++ added)
    (clean : ∀ d ∈ added, d.severity ≠ .error) : Agree s lenient strict := by
  cases h with
  | same more ht grown rest =>
    rw [entries, List.append_assoc] at grown
    exact .same (added ++ more) ht grown (List.forall_mem_append.mpr ⟨clean, rest⟩)
  | stopped before d ht stop kept rest error =>
    rw [entries, List.append_assoc, ← List.append_assoc added] at stop
    have clean := List.forall_mem_append.mpr ⟨clean, rest⟩
    exact .stopped (added ++ before) d ht stop kept clean error

end Agree

end Session

/-- From every lenient session, the action runs as it does from the same session made strict, up to
the first error. -/
def Lower.Agrees {α : Type} (m : Lower α) : Prop :=
  ∀ s : Session, s.Lenient → Session.Agree s (s.run m) ((s.withStrict true).run m)

namespace Lower.Agrees
open Session
variable {α β : Type} {cfg : Config} {known : Site → Prop}

theorem pure (a : α) : Agrees (pure a : Lower α) :=
  fun _ hs => .unchanged hs

/-- An error stops the strict run; any other report is the same in both. -/
theorem report {site : Site} (issue : Issue) (h : site.Shown) :
    Agrees (report (some site) issue) := by
  intro s hs
  have stop : (s.withStrict true).stop? site issue = _ := stop?_of_strict h
  rw [hs.run_report h]
  by_cases error : issue.severity = .error
  · rw [if_pos error] at stop
    rw [run_report_of_stop stop, reported_withStrict true h]
    have entries : (s.reported site issue).entries = s.entries ++ ([] ++ [_]) :=
      (entries_reported ..).trans (by rw [Collector.added_of_error error]; rfl)
    exact .stopped [] _ (hs.reported h) entries List.prefix_rfl
      (fun _ absurd => by cases absurd) error
  · rw [if_neg error] at stop
    rw [run_report_of_none stop, reported_withStrict true h]
    refine .same _ (hs.reported h) (entries_reported ..) fun d hd => ?_
    rw [Collector.severity_of_mem_added hd]
    exact error

theorem bind {m : Lower α} {f : α → Lower β} (h : Agrees m) (k : ∀ a, Agrees (f a)) :
    Agrees (m >>= f) := by
  intro s hs
  have first := h s hs
  cases hm : s.run m with
  | mk outcome t =>
    cases hstrict : (s.withStrict true).run m with
    | mk strict u =>
      rw [hm, hstrict] at first
      cases first with
      | same added ht entries clean =>
        cases outcome with
        | ok a =>
          rw [run_bind_of_ok hm, run_bind_of_ok hstrict]
          exact (k a t ht).prepend entries clean
        | error e =>
          rw [run_bind_of_error hm, run_bind_of_error hstrict]
          exact .same added ht entries clean
      | stopped before d ht stop kept clean error =>
        rw [run_bind_of_error hstrict]
        cases outcome with
        | ok a =>
          -- The lenient run goes on, which adds to its entries only.
          obtain ⟨later, more⟩ := (k a t ht).grown
          rw [run_bind_of_ok hm]
          exact .stopped before d later stop (kept.trans more) clean error
        | error e =>
          rw [run_bind_of_error hm]
          exact .stopped before d ht stop kept clean error

/-- The error of a malformed node is recorded when the node has been given up on, which comes in
both runs after all that was recorded below it. -/
theorem orUnknown {site : Site} {body : Lower Expression}
    (shown : ∀ site, known site → site.Shown) (composed : Composed cfg known body)
    (h : Agrees body) : Agrees (orUnknown site body) := by
  intro s hs
  have agree := h s hs
  have ended := composed.soft shown s hs
  cases hbody : s.run body with
  | mk outcome t =>
    cases hstrict : (s.withStrict true).run body with
    | mk strict u =>
      rw [hbody, hstrict] at agree
      rw [hbody] at ended
      cases outcome with
      | ok e =>
        rw [run_orUnknown_of_ok hbody]
        cases agree with
        | same added ht entries clean =>
          rw [run_orUnknown_of_ok hstrict]
          exact .same added ht entries clean
        | stopped before d ht stop kept clean error =>
          rw [run_orUnknown_of_error hstrict fun _ _ absurd => by cases absurd]
          exact .stopped before d ht stop kept clean error
      | error fault =>
        obtain ⟨m, culprit, hculprit, rfl⟩ := ended.malformed fault rfl
        have recovery : Agrees (do
            Lower.report (some culprit) (.malformed m)
            Pure.pure site.unknown) :=
          (report _ (shown culprit hculprit)).bind fun _ => .pure site.unknown
        have recovered := recovery t ended.lenient
        rw [run_orUnknown_of_malformed hbody]
        cases agree with
        | same added ht entries clean =>
          rw [run_orUnknown_of_malformed hstrict]
          exact recovered.prepend entries clean
        | stopped before d ht stop kept clean error =>
          obtain ⟨later, more⟩ := recovered.grown
          rw [run_orUnknown_of_error hstrict fun _ _ absurd => by cases absurd]
          exact .stopped before d later stop (kept.trans more) clean error

theorem inBlock {code : Option String} {body : Lower α} (composed : Composed cfg known body)
    (h : Agrees body) : Agrees (inScope (.block code) body) := by
  intro s hs
  have agree := h (s.opening (.block code)) hs
  cases hbody : (s.opening (.block code)).run body with
  | mk outcome t =>
    cases hstrict : ((s.withStrict true).opening (.block code)).run body with
    | mk strict u =>
      change Agree _ _ (((s.withStrict true).opening (.block code)).run body) at agree
      rw [hbody, hstrict] at agree
      rw [composed.run_inBlock hbody, composed.run_inBlock hstrict]
      cases agree with
      | same added ht entries clean => exact .same added ht entries clean
      | stopped before d ht stop kept clean error =>
        exact .stopped before d ht stop kept clean error

theorem defining {header : Function} {body : Lower Statement} (composed : Composed cfg known body)
    (h : Agrees body) : Agrees (defining header body) := by
  intro s hs
  have agree := h (s.openingFunction header) hs
  cases hbody : (s.openingFunction header).run body with
  | mk outcome t =>
    cases hstrict : ((s.withStrict true).openingFunction header).run body with
    | mk strict u =>
      change Agree _ _ (((s.withStrict true).openingFunction header).run body) at agree
      rw [hbody, hstrict] at agree
      cases agree with
      | same added ht entries clean =>
        cases outcome with
        | ok lowered =>
          rw [composed.run_defining_of_ok hbody, composed.run_defining_of_ok hstrict]
          exact .same added ht entries clean
        | error e =>
          rw [composed.run_defining_of_error hbody, composed.run_defining_of_error hstrict]
          exact .same added ht entries clean
      | stopped before d ht stop kept clean error =>
        rw [composed.run_defining_of_error hstrict]
        cases outcome with
        | ok lowered =>
          rw [composed.run_defining_of_ok hbody]
          exact .stopped before d ht stop kept clean error
        | error e =>
          rw [composed.run_defining_of_error hbody]
          exact .stopped before d ht stop kept clean error

end Lower.Agrees

/-- Every composed action runs alike in lenient and strict sessions, up to the first error. -/
theorem Lower.Composed.agrees {cfg : Config} {known : Site → Prop}
    (shown : ∀ site, known site → site.Shown)
    {α : Type} {m : Lower α} (h : Composed cfg known m) : Lower.Agrees m := by
  induction h with
  | pure a => exact .pure a
  | bind _ _ first next => exact first.bind next
  | dispatched _ => exact fun s hs => .same [] hs (List.append_nil _).symm (by simp)
  | report issue hsite => exact .report issue (shown _ hsite)
  | resolve callee _ => exact fun s hs => .same [] hs (List.append_nil _).symm (by simp)
  | malformed m _ => exact fun s hs => .unchanged hs
  | orUnknown _ composed ih => exact ih.orUnknown shown composed
  | inBlock code composed ih => exact ih.inBlock composed
  | declared header => exact fun s hs => .same [] hs (List.append_nil _).symm (by simp)
  | defining header composed ih => exact ih.defining composed

/-- A lenient and a strict run of an entry point from the same session, with files that can be
shown. If the lenient run records no error, the strict one has the same outcome, the same entries
and the same scopes. Otherwise the strict run is stopped by the error that the lenient one records
first, with the entries up to and including it. -/
theorem lower_strict (entry : EntryPoint) (cfg : Config) (n : Node) (files : n.FilesShown)
    (s : Session) :
    let lenient := (s.withStrict false).run (entry.lower cfg n)
    let strict := (s.withStrict true).run (entry.lower cfg n)
    ∃ added, lenient.2.entries = s.entries ++ added ∧
      ((∀ d ∈ added, d.severity ≠ .error) ∧ strict = (lenient.1, lenient.2.withStrict true) ∨
        ∃ before d after, added = before ++ d :: after ∧
          (∀ e ∈ before, e.severity ≠ .error) ∧ d.severity = .error ∧
          strict.1 = .error (.stopped (.strict d)) ∧
          strict.2.entries = s.entries ++ (before ++ [d])) := by
  intro lenient strict
  have agree : Session.Agree (s.withStrict false) lenient strict :=
    (entry.lower_composed cfg n).agrees files (s.withStrict false) rfl
  generalize lenient = ended at agree ⊢
  generalize strict = stopped at agree ⊢
  cases agree with
  | same added _ entries clean => exact ⟨added, entries, .inl ⟨clean, rfl⟩⟩
  | stopped before d _ stop kept clean error =>
    obtain ⟨after, more⟩ := kept
    have entries := more.symm.trans (congrArg (· ++ after) stop)
    refine ⟨before ++ d :: after, entries.trans ?_,
      .inr ⟨before, d, after, rfl, clean, error, rfl, stop⟩⟩
    simp only [List.append_assoc, List.singleton_append]
    rfl

/-- A script of one operator without operands records an error, which stops the strict run. -/
theorem lower_strict_operator :
    (Node.bare .scriptBlock [.bare .binaryExpression []]).FilesShown ∧
      ∃ d : Diagnostic, d.severity = .error ∧
        (((Session.start {}).withStrict true).run (EntryPoint.script.lower {}
          (.bare .scriptBlock [.bare .binaryExpression []]))).1 =
            .error (.stopped (.strict d)) := by
  have files : (Node.bare .scriptBlock [.bare .binaryExpression []]).FilesShown := by decide
  refine ⟨files, ?_⟩
  obtain ⟨added, entries, ⟨clean, _⟩ | ⟨_, d, _, _, _, error, stop, _⟩⟩ :=
    lower_strict .script {} _ files (Session.start {})
  · have severities : added.map (·.severity) = [.error] :=
      (congrArg (List.map (·.severity)) entries).symm
    obtain ⟨d, hd, error⟩ := List.mem_map.mp (severities ▸ List.mem_singleton_self _)
    exact absurd error (clean d hd)
  · exact ⟨d, error, stop⟩

end ScriptIR
