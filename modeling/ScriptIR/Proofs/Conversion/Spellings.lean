import Mathlib.Logic.Relation
import ScriptIR.Proofs.Conversion.Collected
import ScriptIR.Proofs.Syntax.Respelling

/-!
# Conversions of respelled documents

How the fields of a document are spelled, and whether its tags end in `Ast`, decides nothing but the
wording of messages: two documents that differ in this only become the same program text, or break
down for the same reason, along with diagnostics that have the same headings.
-/
namespace ScriptIR

def Breakdown.retag (f : String → String) : Breakdown → Breakdown
  | malformed m location => malformed (m.retag f) location
  | b => b

/-- What a conversion ends with, apart from its messages: whether it succeeded and with what text,
or why it broke down, with no tag said. -/
def ending : Except Breakdown Conversion → Except Breakdown (Bool × String)
  | .ok c => .ok (c.success, c.result)
  | .error b => .error (b.retag fun _ => "")

/-- What can be seen of the conversion of a loaded document, but the wording of its messages. -/
def Options.observed (o : Options) (loaded : Except LoadFault Node × List Notice) :
    Except Breakdown (Bool × String) × List Diagnostic.Heading :=
  (ending (convertLoaded o loaded).outcome,
    (o.collected loaded).entries.toList.map Diagnostic.heading)

/-! ### Trees that differ in their tags -/

open Lower (Alike retagged)

theorem Node.Retagged.lowerWith {n m : Node} (h : n.Retagged m) (o : Options) :
    Alike retagged (o.lower n) (o.lower m) := by
  obtain ⟨expression, script⟩ := h.lower o.config
  unfold Options.lower
  split
  · exact expression.bind fun _ => .pure _
  · exact script.bind fun _ => .pure _

section
variable {c d : Collector} (h : c.SameHeadings d)
include h

/-- Messages of diagnostics with the same headings can be shown both, or neither. -/
theorem ending_conversionWith (success : Bool) (result : String) :
    ending (conversionWith d success result) = ending (conversionWith c success result) := by
  have shown := h.messages .warning
  unfold conversionWith
  cases mine : c.messages .warning <;> cases theirs : d.messages .warning <;>
    rw [mine, theirs] at shown
  · cases shown
    rfl
  · cases shown
  · cases shown
  · rfl

end

theorem ending_conversionOf (o : Options) {outcome outcome' : Except Fault Part} {s u : Session}
    (same : retagged.Outcome outcome outcome') (after : retagged.session s u) :
    ending (conversionOf o outcome' u) = ending (conversionOf o outcome s) := by
  have headings : s.collector.SameHeadings u.collector := after.2.2
  cases same with
  | ok part =>
    simp only [conversionOf]
    split
    · exact ending_conversionWith headings _ _
    · rfl
  | @malformed m m' site other tags hsite =>
    have place := retagged.location hsite
    have breakdown : (Breakdown.malformed m' other.attributes.location).retag (fun _ => "") =
        (Breakdown.malformed m site.attributes.location).retag fun _ => "" := by
      rw [Breakdown.retag, place, Breakdown.retag]
      exact congrArg (Breakdown.malformed · _) tags
    exact congrArg Except.error breakdown
  | stopped stops =>
    cases stops with
    | strict => exact ending_conversionWith headings _ _
    | notAFileName e => rfl
  | scope e => rfl

theorem Node.Retagged.observed {n m : Node} (h : n.Retagged m) (o : Options)
    (notices notices' : List Notice) :
      o.observed (.ok m, notices') = o.observed (.ok n, notices) := by
  have start : retagged.session (Session.start o.collector) (Session.start o.collector) :=
    ⟨rfl, rfl, .refl _⟩
  obtain ⟨same, after⟩ := h.lowerWith o _ _ start
  exact Prod.ext (ending_conversionOf o same after) after.2.2.entries

/-! ### Documents that differ in their spellings -/

theorem observed_refused (o : Options) (e e' : DocumentError) (notices notices' : List Notice) :
    o.observed (.error (.document e'), notices') = o.observed (.error (.document e), notices) := by
  have refused : ∀ (e : DocumentError) (notices : List Notice),
      o.observed (.error (.document e), notices) =
        (.ok (false, "Loading failed"), [(Options.refusalEntry e).heading]) := by
    intro e notices
    have conversion : conversionWith (o.refusal e).collector false "Loading failed" =
        .ok ⟨false, "Loading failed", [(Options.refusalEntry e).text]⟩ := by
      rw [conversionWith, o.messages_refusal]
    have ends : ending (convertLoaded o (.error (.document e), notices)).outcome =
        .ok (false, "Loading failed") := by
      change ending (conversionWith (o.refusal e).collector false "Loading failed") = _
      rw [conversion]
      rfl
    rw [Options.observed, ends, Options.collected, o.refusal_entries, List.map_singleton]
  rw [refused, refused]
  rfl

theorem Json.Respelled.observed {v w : Json} (h : v.Respelled w) (o : Options) :
    o.observed (Node.load o.source v) = o.observed (Node.load o.source w) := by
  have alike := h.load o.source
  rcases mine : Node.load o.source v with ⟨loaded, notices⟩
  rcases theirs : Node.load o.source w with ⟨loaded', notices'⟩
  rw [mine, theirs] at alike
  cases alike with
  | loaded related => exact (related.observed o notices notices').symm
  | refused e e' => exact observed_refused o e' e notices' notices
  | infinite => rfl

/-- Documents that differ in their spellings only are converted to the same text, succeed both or
neither, and break down for the same reason; and their diagnostics differ in the wording only. -/
theorem convert_respelled (o : Options) {text text' : String} {v w : Json}
    (h : Json.parse text = .ok v) (h' : Json.parse text' = .ok w)
    (respelled : Relation.EqvGen Json.Respelled v w) :
    ending (convert o text).outcome = ending (convert o text').outcome ∧
      (o.collected (Node.loadText o.source text)).entries.toList.map Diagnostic.heading =
        (o.collected (Node.loadText o.source text')).entries.toList.map Diagnostic.heading := by
  have observed : o.observed (Node.load o.source v) = o.observed (Node.load o.source w) := by
    clear h h'
    induction respelled with
    | rel v w step => exact step.observed o
    | refl v => rfl
    | symm v w _ ih => exact ih.symm
    | trans u v w _ _ first second => exact first.trans second
  rw [convert, Node.loadText, h, convert, Node.loadText, h']
  exact Prod.mk.inj observed

/-- A node of an unknown kind, on line 1, with its tag and its line spelled in two ways. -/
theorem convert_respelled_unsupported :
    let text := "\x7b\"type\": \"Foo\", \"location\": \x7b\"line\": 1\x7d\x7d"
    let text' := "\x7b\"kind\": \"FooAst\", \"location\": \x7b\"startLine\": 1\x7d\x7d"
    let v := Json.object [("type", .string "Foo"), ("location", .object [("line", .int 1)])]
    let w := Json.object [("kind", .string "FooAst"), ("location", .object [("startLine", .int 1)])]
    Json.parse text = .ok v ∧ Json.parse text' = .ok w ∧ Relation.EqvGen Json.Respelled v w ∧
      ending (convert {} text).outcome = ending (convert {} text').outcome ∧
      (Options.collected {} (Node.loadText none text)).entries.toList.map Diagnostic.heading =
        (Options.collected {} (Node.loadText none text')).entries.toList.map
          Diagnostic.heading := by
  intro text text' v w
  have parsed : Json.parse text = .ok v := by
    simp only [Json.parse, text, String.reduceToList]
    rfl
  have parsed' : Json.parse text' = .ok w := by
    simp only [Json.parse, text', String.reduceToList]
    rfl
  have place : Document.KeyRespelled Document.placeSpellings
      [("line", .int 1)] [("startLine", .int 1)] :=
    .mk [] (.int 1) [] (.inr (by decide)) (by simp)
  have key : Document.KeyRespelled Document.nodeSpellings
      [("type", .string "Foo"), ("location", .object [("startLine", .int 1)])]
      [("kind", .string "Foo"), ("location", .object [("startLine", .int 1)])] :=
    .mk [] (.string "Foo") [("location", .object [("startLine", .int 1)])]
      (.inl (by decide)) (by simp)
  have respelled : Relation.EqvGen Json.Respelled v w :=
    (Relation.EqvGen.rel _ _ (.placeKey [("type", .string "Foo")] [] place)).trans _ _ _
      ((Relation.EqvGen.rel _ _ (.key key)).trans _ _ _
        (.rel _ _ (.tag [] [("location", .object [("startLine", .int 1)])] (.inr rfl) (by decide)
          (by decide))))
  exact ⟨parsed, parsed', respelled, convert_respelled {} parsed parsed' respelled⟩

end ScriptIR
