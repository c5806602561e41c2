import ScriptIR.Conversion
import ScriptIR.Proofs.Diagnostics.Reports

/-!
# What a conversion collects

A conversion shows the warnings and errors of its collector. `Options.collected` is that collector,
also where the conversion breaks down and shows nothing.
-/
namespace ScriptIR

namespace Options

/-- The refusal of a document, as it is reported. -/
def refusal (o : Options) (e : DocumentError) : Reported :=
  { o.collector with defaultStage := "loading", strict := false }.report
    { severity := .error, message := e.message }

/-- The collector when the conversion of what was loaded ends. -/
def collected (o : Options) : Except LoadFault Node × List Notice → Collector
  | (.ok n, _) => ((Session.start o.collector).run (o.lower n)).2.collector
  | (.error (.document e), _) => (o.refusal e).collector
  | (.error .infiniteNumber, _) => o.collector

end Options

/-- The entry that a refused document leaves in the collector, the only one. -/
def Options.refusalEntry (e : DocumentError) : Diagnostic where
  severity := .error
  message := e.message
  stage := "loading"

theorem Options.refusal_entries (o : Options) (e : DocumentError) :
    (o.refusal e).collector.entries.toList = [refusalEntry e] := by
  rw [refusal, Collector.report_entries, Collector.added_of_error rfl]
  rfl

theorem Options.messages_refusal (o : Options) (e : DocumentError) :
    (o.refusal e).collector.messages .warning = .ok [(refusalEntry e).text] := by
  rw [Collector.messages, refusal_entries]
  rfl

theorem conversionWith_eq_ok {collector : Collector} {success : Bool} {result : String}
    {c : Conversion} (h : conversionWith collector success result = .ok c) :
    c.success = success ∧ c.result = result ∧ collector.messages .warning = .ok c.messages := by
  unfold conversionWith at h
  split at h
  next messages shown =>
    cases h
    exact ⟨rfl, rfl, shown⟩
  next => cases h

/-- The conversion of what was loaded is one of a tree that was lowered to a program, one of a tree
that a first error ended, or one of a document that was refused. -/
inductive ConvertsTo (o : Options) :
    Except LoadFault Node × List Notice → (success : Bool) → Collector → Prop
  | lowered {n : Node} {notices : List Notice} {part : Part} {s : Session} :
      (Session.start o.collector).run (o.lower n) = (.ok part, s) →
      ConvertsTo o (.ok n, notices) true s.collector
  | stopped {n : Node} {notices : List Notice} {d : Diagnostic} {s : Session} :
      (Session.start o.collector).run (o.lower n) = (.error (.stopped (.strict d)), s) →
      ConvertsTo o (.ok n, notices) false s.collector
  | refused (e : DocumentError) (notices : List Notice) :
      ConvertsTo o (.error (.document e), notices) false (o.refusal e).collector

/-- A conversion shows the messages of what was collected. -/
theorem convertLoaded_eq_ok {o : Options} {loaded : Except LoadFault Node × List Notice}
    {c : Conversion} (h : (convertLoaded o loaded).outcome = .ok c) :
    ConvertsTo o loaded c.success (o.collected loaded) ∧
      (o.collected loaded).messages .warning = .ok c.messages := by
  obtain ⟨(_ | _) | n, notices⟩ := loaded
  next e =>
    have refused : conversionWith (o.refusal e).collector false "Loading failed" = .ok c := h
    obtain ⟨success, _, messages⟩ := conversionWith_eq_ok refused
    rw [success]
    exact ⟨.refused e notices, messages⟩
  next => cases h
  next =>
    cases run : (Session.start o.collector).run (o.lower n) with
    | mk outcome s =>
      have collected : o.collected (.ok n, notices) = s.collector := by
        rw [Options.collected, run]
      simp only [convertLoaded, run] at h
      rw [collected]
      unfold conversionOf at h
      split at h
      next part =>
        split at h
        next text _ =>
          obtain ⟨success, _, messages⟩ := conversionWith_eq_ok h
          rw [success]
          exact ⟨.lowered run, messages⟩
        next => cases h
      next d =>
        obtain ⟨success, _, messages⟩ := conversionWith_eq_ok h
        rw [success]
        exact ⟨.stopped run, messages⟩
      all_goals cases h

/-- The result of a conversion is a word on why there is no program, or a program. -/
theorem convertLoaded_result {o : Options} {loaded : Except LoadFault Node × List Notice}
    {c : Conversion} (h : (convertLoaded o loaded).outcome = .ok c) :
    (c.result = "Loading failed" ∨ c.result = "Lowering aborted") ∨
      ∃ part, o.write part = .ok c.result := by
  obtain ⟨(_ | _) | n, notices⟩ := loaded
  next e =>
    have refused : conversionWith (o.refusal e).collector false "Loading failed" = .ok c := h
    exact .inl (.inl (conversionWith_eq_ok refused).2.1)
  next => cases h
  next =>
    simp only [convertLoaded, conversionOf] at h
    split at h
    next part _ =>
      split at h
      next text program =>
        rw [(conversionWith_eq_ok h).2.1]
        exact .inr ⟨part, program⟩
      next => cases h
    next => exact .inl (.inr (conversionWith_eq_ok h).2.1)
    all_goals cases h

end ScriptIR
