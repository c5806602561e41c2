import ScriptIR.CommandLine.Run
import ScriptIR.Proofs.Conversion.Collected
import ScriptIR.Proofs.Json.Ascii
import ScriptIR.Proofs.Lowering.Heeding
import ScriptIR.Storage.Directory

/-!
# Errors, messages and the exit code

The exit code is decided by how the messages of a conversion begin. The messages are the warnings
and errors that were recorded, and no others begin like an error; a conversion fails only with an
error recorded, as the last entry. So the command fails if an error was recorded, and otherwise only
if it breaks down, or if the program cannot be written: to the files, or because it is an outline
with half of a surrogate pair in it. A document is always ASCII.
-/
namespace ScriptIR

open CommandLine (reportsError)
open Diagnostic (NoErrors EndsWith)

/-! ### Messages -/

/-- The line of a diagnostic begins like an error exactly if the diagnostic is one. -/
theorem Diagnostic.reportsError_text (d : Diagnostic) :
    reportsError d.text = true ↔ d.severity = .error := by
  obtain ⟨rest, text⟩ : ∃ rest, d.text = d.severity.label ++ rest := by
    rw [Diagnostic.text]
    simp only [String.append_assoc]
    exact ⟨_, rfl⟩
  rw [reportsError, text, String.toList_append]
  cases d.severity <;> simp [Severity.label]

namespace Collector
variable {c : Collector} {messages : List String}

theorem messages_eq_ok {least : Severity} (h : c.messages least = .ok messages) :
    messages = (c.entries.toList.filter (·.severity.atLeast least)).map Diagnostic.text := by
  unfold Collector.messages at h
  generalize c.entries.toList.filter (·.severity.atLeast least) = shown at h ⊢
  induction shown generalizing messages with
  | nil =>
    cases h
    rfl
  | cons d rest ih =>
    rw [List.mapM_cons, Diagnostic.text?] at h
    split at h
    next =>
      cases others : rest.mapM Diagnostic.text? with
      | error e =>
        rw [others] at h
        cases h
      | ok lines =>
        rw [others] at h
        cases h
        rw [List.map_cons, ih others]
    next => cases h

theorem exists_reportsError (h : c.messages .warning = .ok messages) :
    (∃ line ∈ messages, reportsError line = true) ↔ ∃ d ∈ c.entries.toList,
      d.severity = .error := by
  rw [messages_eq_ok h]
  constructor
  · intro ⟨line, hline, error⟩
    obtain ⟨d, hd, same⟩ := List.mem_map.mp hline
    rw [← same, d.reportsError_text] at error
    exact ⟨d, (List.mem_filter.mp hd).1, error⟩
  · intro ⟨d, hd, error⟩
    have shown : d.severity.atLeast .warning = true := by rw [error]; rfl
    exact ⟨d.text, List.mem_map_of_mem (List.mem_filter.mpr ⟨hd, shown⟩),
      d.reportsError_text.mpr error⟩

/-- If the last entry is the only error, the last message is the only one that begins like one. -/
theorem messages_endWith (h : c.messages .warning = .ok messages) {d : Diagnostic}
    (ends : EndsWith c.entries.toList d) :
    ∃ before last, messages = before ++ [last] ∧ reportsError last = true ∧
      ∀ line ∈ before, reportsError line = false := by
  obtain ⟨error, before, entries, clean⟩ := ends
  have shown : d.severity.atLeast .warning = true := by rw [error]; rfl
  refine ⟨(before.filter (·.severity.atLeast .warning)).map Diagnostic.text, d.text, ?_,
    d.reportsError_text.mpr error, ?_⟩
  · rw [messages_eq_ok h, entries, List.filter_append, List.map_append]
    simp [shown]
  · intro line hline
    obtain ⟨e, he, same⟩ := List.mem_map.mp hline
    have noError := clean e (List.mem_filter.mp he).1
    rw [← same, Bool.eq_false_iff]
    exact fun reports => noError (e.reportsError_text.mp reports)

end Collector

/-! ### Conversions -/

theorem Options.lower_composed (o : Options) (n : Node) :
    Lower.Composed o.config (· ∈ n.sites []) (o.lower n) := by
  unfold Options.lower
  split
  · exact EntryPoint.lower_composed .expression o.config n
  · exact EntryPoint.lower_composed .script o.config n

/-- What has been recorded when a tree has been lowered, and how it goes with the outcome. -/
theorem Options.lower_heeds (o : Options) (n : Node) {outcome : Except Fault Part} {s : Session}
    (run : (Session.start o.collector).run (o.lower n) = (outcome, s)) :
    (∀ d, outcome = .error (.stopped (.strict d)) →
      o.strict = true ∧ EndsWith s.collector.entries.toList d) ∧
    (o.strict = true → (∀ stop, outcome ≠ .error (.stopped stop)) →
      NoErrors s.collector.entries.toList) := by
  have heeds := (o.lower_composed n).heeds (Session.start o.collector)
  rw [run] at heeds
  obtain ⟨added, entries, stops, goes⟩ := heeds.added
  have fresh : s.collector.entries.toList = added := entries
  rw [fresh]
  exact ⟨stops, goes⟩

namespace ConvertsTo
variable {o : Options} {loaded : Except LoadFault Node × List Notice} {success : Bool}
variable {collector : Collector}

theorem endsWith_of_failed (h : ConvertsTo o loaded success collector) (failed : success = false) :
    ∃ d, EndsWith collector.entries.toList d := by
  cases h with
  | lowered run => cases failed
  | @stopped n _ d _ run => exact ⟨d, ((o.lower_heeds n run).1 d rfl).2⟩
  | refused e =>
    rw [o.refusal_entries]
    exact ⟨_, rfl, [], rfl, Diagnostic.noErrors_nil⟩

theorem noErrors_of_strict (h : ConvertsTo o loaded success collector) (strict : o.strict = true)
    (fine : success = true) : NoErrors collector.entries.toList := by
  cases h with
  | @lowered n _ _ _ run => exact (o.lower_heeds n run).2 strict fun _ absurd => by cases absurd
  | stopped run => cases fine
  | refused e => cases fine

theorem failed_iff_of_lenient (h : ConvertsTo o loaded success collector)
    (lenient : o.strict = false) : success = false ↔ ∃ f, loaded.1 = .error f := by
  cases h with
  | lowered run => exact ⟨nofun, nofun⟩
  | @stopped n _ d _ run =>
    have strict := ((o.lower_heeds n run).1 d rfl).1
    rw [lenient] at strict
    cases strict
  | refused e => exact ⟨fun _ => ⟨_, rfl⟩, fun _ => rfl⟩

theorem messages_of_refused (h : ConvertsTo o loaded success collector) {messages : List String}
    (shown : collector.messages .warning = .ok messages) (refused : ∃ f, loaded.1 = .error f) :
    messages.length = 1 := by
  cases h with
  | lowered run =>
    obtain ⟨f, absurd⟩ := refused
    cases absurd
  | stopped run =>
    obtain ⟨f, absurd⟩ := refused
    cases absurd
  | refused e =>
    rw [o.messages_refusal] at shown
    cases shown
    rfl

end ConvertsTo

/-- The success and the messages of a conversion agree with what was loaded and collected. -/
structure Conversion.Agrees (c : Conversion) (strict : Bool)
    (loaded : Except LoadFault Node × List Notice) (collector : Collector) : Prop where
  errors : (∃ line ∈ c.messages, reportsError line = true) ↔
    ∃ d ∈ collector.entries.toList, d.severity = .error
  refused : strict = false → (c.success = false ↔ ∃ f, loaded.1 = .error f)
  alone : strict = false → c.success = false → c.messages.length = 1
  fine : strict = true → (c.success = true ↔ ∀ line ∈ c.messages, reportsError line = false)
  last : strict = true → c.success = false → ∃ before last, c.messages = before ++ [last] ∧
    reportsError last = true ∧ ∀ line ∈ before, reportsError line = false

theorem agrees_of_convertLoaded {o : Options} {loaded : Except LoadFault Node × List Notice}
    {c : Conversion} (h : (convertLoaded o loaded).outcome = .ok c) :
    c.Agrees o.strict loaded (o.collected loaded) := by
  obtain ⟨converts, shown⟩ := convertLoaded_eq_ok h
  have errors := Collector.exists_reportsError shown
  have last : c.success = false → ∃ before last, c.messages = before ++ [last] ∧
      reportsError last = true ∧ ∀ line ∈ before, reportsError line = false := by
    intro failed
    obtain ⟨d, ends⟩ := converts.endsWith_of_failed failed
    exact Collector.messages_endWith shown ends
  refine ⟨errors, converts.failed_iff_of_lenient, ?alone, ?fine, fun _ => last⟩
  case alone =>
    intro lenient failed
    exact converts.messages_of_refused shown ((converts.failed_iff_of_lenient lenient).mp failed)
  case fine =>
    intro strict
    constructor
    · intro success line hline
      rw [Bool.eq_false_iff]
      intro reports
      obtain ⟨d, hd, error⟩ := errors.mp ⟨line, hline, reports⟩
      exact converts.noErrors_of_strict strict success d hd error
    · intro silent
      rw [← Bool.not_eq_false]
      intro failed
      obtain ⟨before, line, messages, reports, _⟩ := last failed
      have silence := silent line (by simp [messages])
      rw [reports] at silence
      cases silence

/-! ### Texts of programs -/

theorem format_of_hasHalf {o : Options} {loaded : Except LoadFault Node × List Notice}
    {c : Conversion} (h : (convertLoaded o loaded).outcome = .ok c) (half : Text.HasHalf c.result) :
    o.format = .outline := by
  obtain written | ⟨part, program⟩ := convertLoaded_result h
  · exact absurd half (Text.Ascii.not_hasHalf (written.elim (· ▸ by decide) (· ▸ by decide)))
  · unfold Options.write at program
    split at program
    next outline => exact outline
    next =>
      split at program
      next document _ =>
        rw [← Except.ok.inj program] at half
        exact absurd half (Text.Ascii.not_hasHalf document.ascii_pretty)
      next => cases program

/-! ### The command -/

namespace CommandLine
variable {m : Type → Type} [Monad m]

/-- The exit code that the entries ask for. -/
def errorCode (c : Collector) : Nat :=
  if ∃ d ∈ c.entries.toList, d.severity = .error then 1 else 0

/-- Half of a surrogate pair stands in an outline. -/
def Unwritable (r : Request) (c : Conversion) : Prop :=
  r.format = .outline ∧ Text.HasHalf c.result

instance (r : Request) (c : Conversion) : Decidable (Unwritable r c) :=
  inferInstanceAs (Decidable (_ ∧ _))

/-- The exit code after a finished program is written: the given one, unless the program
cannot be shown or saved. -/
def writtenCode (storage : Storage m) (r : Request) (c : Conversion) (code : Nat) : m Nat :=
  match r.output with
  | none => return if Unwritable r c then 1 else code
  | some output => do
    let path := Text.normalPath output
    match ← storage.makeParent path with
    | .error _ => return 1
    | .ok () =>
      if Unwritable r c then do
        let _ ← storage.write path ""
        return 1
      else
        match ← storage.write path (Text.characters c.result) with
        | .ok () => return code
        | .error _ => return 1

/-- What converting a text exits with: 1 if it breaks down, and otherwise what the entries ask for,
if the program can be written. -/
def recordedCode (storage : Storage m) (r : Request) (text : String) : m Nat := do
  let source ← storage.fullPath (Text.normalPath r.input)
  let o := r.options source
  match (convert o text).outcome with
  | .error _ => return 1
  | .ok c =>
    let code := errorCode (o.collected (Node.loadText source text))
    if c.success then writtenCode storage r c code else return code

theorem exitCode_eq_errorCode {c : Conversion} {strict : Bool} {collector : Collector}
    {loaded : Except LoadFault Node × List Notice} (h : c.Agrees strict loaded collector) :
    exitCode c.messages = errorCode collector := by
  rw [exitCode, errorCode]
  simp only [List.any_eq_true, h.errors]

theorem errorCode_of_failed {o : Options} {loaded : Except LoadFault Node × List Notice}
    {c : Conversion} (h : (convertLoaded o loaded).outcome = .ok c) (failed : c.success = false) :
    errorCode (o.collected loaded) = 1 := by
  obtain ⟨d, error, before, entries, _⟩ := (convertLoaded_eq_ok h).1.endsWith_of_failed failed
  rw [errorCode, if_pos ⟨d, by simp [entries], error⟩]

theorem exitCode_showing (ended : Ended) (text : String) :
    (ended.showing (text ++ "\n")).exitCode = if Text.HasHalf text then 1 else ended.exitCode := by
  unfold Ended.showing
  by_cases half : Text.HasHalf text
  · obtain ⟨e, fails⟩ := Text.encode_of_hasHalf ((Text.hasHalf_append_newline text).mpr half)
    rw [fails, if_pos half]
  · rw [Text.encode_of_not_hasHalf (mt (Text.hasHalf_append_newline text).mp half), if_neg half]

theorem exitCode_deliver [LawfulMonad m] (storage : Storage m) (r : Request) {c : Conversion}
    (format : Text.HasHalf c.result → r.format = .outline) (log : List String) :
    Ended.exitCode <$> deliver storage r c log = writtenCode storage r c (exitCode c.messages) := by
  have unwritable : Unwritable r c ↔ Text.HasHalf c.result :=
    ⟨And.right, fun half => ⟨format half, half⟩⟩
  unfold deliver writtenCode
  simp only [unwritable]
  cases r.output with
  | none => rw [map_pure, exitCode_showing]
  | some output =>
    unfold save writeFile
    simp only [bind_assoc, map_bind]
    refine bind_congr fun made => ?_
    cases made with
    | error e => simp
    | ok =>
      by_cases half : Text.HasHalf c.result
      · obtain ⟨e, fails⟩ := Text.encode_of_hasHalf half
        simp only [fails, if_pos half, bind_assoc]
        refine bind_congr fun written => ?_
        cases written <;> simp
      · simp only [Text.encode_of_not_hasHalf half, if_neg half, bind_assoc]
        refine bind_congr fun written => ?_
        cases written <;> simp [Except.mapError]

theorem exitCode_convertText [LawfulMonad m] (storage : Storage m) (r : Request) (text : String) :
    Ended.exitCode <$> convertText storage r text = recordedCode storage r text := by
  unfold convertText recordedCode
  rw [map_bind]
  refine bind_congr fun source => ?_
  dsimp only
  cases converted : (convert (r.options source) text).outcome with
  | error b => rw [map_pure]
  | ok c =>
    dsimp only
    cases success : c.success with
    | true =>
      rw [if_pos rfl, if_pos rfl, exitCode_deliver storage r (format_of_hasHalf converted),
        exitCode_eq_errorCode (agrees_of_convertLoaded converted)]
      rfl
    | false =>
      rw [if_neg (by decide), if_neg (by decide), map_pure]
      exact congrArg pure (errorCode_of_failed converted success).symm

/-- Nothing keeps the command from ending well: no error is recorded, and the conversion gives a
program that can be written. -/
def Finishes (r : Request) (source text : String) : Prop :=
  NoErrors ((r.options source).collected (Node.loadText source text)).entries.toList ∧
    ∃ c, (convert (r.options source) text).outcome = .ok c ∧ ¬Unwritable r c

theorem errorCode_of_noErrors {c : Collector} (h : NoErrors c.entries.toList) : errorCode c = 0 :=
  if_neg fun ⟨d, hd, error⟩ => h d hd error

theorem errorCode_of_not_noErrors {c : Collector} (h : ¬NoErrors c.entries.toList) :
    errorCode c = 1 := by
  simp only [NoErrors, not_forall, not_not] at h
  obtain ⟨d, hd, error⟩ := h
  exact if_pos ⟨d, hd, error⟩

open Classical in
theorem exitCode_shown [LawfulMonad m] (storage : Storage m) {r : Request} (text : String)
    (shown : r.output = none) : Ended.exitCode <$> convertText storage r text =
      (if Finishes r · text then 0 else 1) <$> storage.fullPath (Text.normalPath r.input) := by
  rw [exitCode_convertText, recordedCode, map_eq_pure_bind]
  refine bind_congr fun source => ?_
  dsimp only
  cases converted : (convert (r.options source) text).outcome with
  | error b => simp [Finishes, converted]
  | ok c =>
    have failed := errorCode_of_failed converted
    have finishes : Finishes r source text ↔
        NoErrors ((r.options source).collected (Node.loadText source text)).entries.toList ∧
          ¬Unwritable r c := by
      simp [Finishes, converted]
    simp only [finishes, writtenCode, shown]
    by_cases fine : NoErrors
      ((r.options source).collected (Node.loadText source text)).entries.toList
    · rw [errorCode_of_noErrors fine]
      cases success : c.success with
      | false =>
        have absurd := (errorCode_of_noErrors fine).symm.trans (failed success)
        cases absurd
      | true => by_cases unwritable : Unwritable r c <;> simp [fine, unwritable]
    · rw [errorCode_of_not_noErrors fine]
      simp [fine]

/-- A literal whose code is half of a surrogate pair. -/
def halfLiteral : Json :=
  .object [("type", .string "ConstantExpression"),
    ("code", .string (String.ofList (Text.spell 0xD800)))]

end CommandLine

end ScriptIR
