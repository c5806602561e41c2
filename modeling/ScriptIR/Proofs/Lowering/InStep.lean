import ScriptIR.Proofs.Diagnostics.Headings
import ScriptIR.Proofs.Lowering.ParameterNames
import ScriptIR.Proofs.Program.Recased

/-!
# Runs in step

Two trees whose letters differ in case are lowered in step. The functions that can be seen
correspond one by one, the diagnostics have the same headings, and what the actions end with
corresponds. `Recasing` says what the nodes have to have in common for that, and `InStep` compares
two actions: each step of lowering keeps step, and so does what is put together from steps that do.
-/
namespace ScriptIR

open Text (uncased)
open Lower (Composed)

/-- No two parameters of the function that the node defines have names with the same key. -/
def Site.ParametersApart (cfg : Config) (s : Site) : Prop :=
  (s.parameters.map fun p => cfg.key (Lower.withSigil cfg p.declaredName)).Nodup

instance (cfg : Config) (s : Site) : Decidable (s.ParametersApart cfg) :=
  inferInstanceAs (Decidable (List.Nodup _))

def Function.ParametersApart (cfg : Config) (f : Function) : Prop :=
  (f.parameters.map fun p => cfg.key p.name).Nodup

/-- Related nodes differ in the case of letters at most, and so do the nodes below them,
and functions that they define can tell their parameters apart. Case counts for nothing,
and marks have none. -/
structure Recasing (cfg : Config) (R : Site → Site → Prop) : Prop where
  ignoreCase : cfg.ignoreCase = true
  sigil : Text.Caseless cfg.sigil
  marker : Text.Caseless cfg.flagMarker
  attributes : ∀ {s t : Site}, R s t → t.attributes.uncased = s.attributes.uncased
  children : ∀ {s t : Site}, R s t → List.Forall₂ R s.children t.children
  apart : ∀ {s t : Site}, R s t → s.attributes.kind = .functionDefinition → s.ParametersApart cfg

namespace Recasing
variable {cfg : Config} {R : Site → Site → Prop} (recasing : Recasing cfg R)
include recasing

theorem key {name name' : String} (h : uncased name' = uncased name) :
    cfg.key name' = cfg.key name := by
  rw [← Config.key_uncased recasing.ignoreCase, h, Config.key_uncased recasing.ignoreCase]

variable {s t : Site} (h : R s t)
include h

theorem kind : t.attributes.kind = s.attributes.kind :=
  (congrArg Attributes.kind (recasing.attributes h) :)

theorem tag : t.attributes.tag = s.attributes.tag :=
  (congrArg Attributes.tag (recasing.attributes h) :)

theorem operator : t.attributes.operator = s.attributes.operator :=
  (congrArg Attributes.operator (recasing.attributes h) :)

theorem unaryToken : t.attributes.unaryToken = s.attributes.unaryToken :=
  (congrArg Attributes.unaryToken (recasing.attributes h) :)

theorem typeText : t.attributes.typeText = s.attributes.typeText :=
  (congrArg Attributes.typeText (recasing.attributes h) :)

theorem location : t.attributes.location = s.attributes.location :=
  (congrArg Attributes.location (recasing.attributes h) :)

theorem name : t.attributes.name.map uncased = s.attributes.name.map uncased :=
  (congrArg Attributes.name (recasing.attributes h) :)

theorem identifier : uncased t.attributes.identifier = uncased s.attributes.identifier := by
  rw [← Attributes.identifier_uncased, recasing.attributes h, Attributes.identifier_uncased]

theorem literalText : uncased t.attributes.literalText = uncased s.attributes.literalText := by
  rw [← Attributes.literalText_uncased, recasing.attributes h, Attributes.literalText_uncased]

end Recasing

/-! ### Sessions and outcomes -/

section
variable (cfg : Config) (R : Site → Site → Prop)

/-- Visible functions that correspond: made from related nodes, with parameters that are apart. -/
structure Function.InStep (f g : Function) : Prop where
  recased : f.Recased R g
  apart : f.ParametersApart cfg

/-- The same can be seen in both sessions but for the case of letters, and the diagnostics differ in
their wording at most. -/
structure Session.InStep (s u : Session) : Prop where
  visible : List.Forall₂ (Function.InStep cfg R) s.visible u.visible
  collector : s.collector.SameHeadings u.collector

/-- Values that correspond, or the same fault. -/
inductive Fault.InStep {α β : Type} (Q : α → β → Prop) : Except Fault α → Except Fault β → Prop
  | ok {a : α} {b : β} : Q a b → InStep Q (.ok a) (.ok b)
  | malformed (m : Malformation) {site other : Site} : R site other →
      InStep Q (.error (.malformed m site)) (.error (.malformed m other))
  | stopped {stop stop' : Stop} : stop.SameHeading stop' →
      InStep Q (.error (.stopped stop)) (.error (.stopped stop'))
  | scope (e : ScopeError) : InStep Q (.error (.scope e)) (.error (.scope e))

/-- From sessions in step the actions end in step. -/
def Lower.InStep {α β : Type} (Q : α → β → Prop) (m : Lower α) (l : Lower β) : Prop :=
  ∀ s u : Session, s.InStep cfg R u →
    Fault.InStep R Q (s.run m).1 (u.run l).1 ∧ (s.run m).2.InStep cfg R (u.run l).2

end

namespace Lower.InStep
open Session
variable {cfg : Config} {R : Site → Site → Prop} {α β γ δ : Type} {Q : α → β → Prop}
    {P : γ → δ → Prop}

theorem pure {a : α} {b : β} (h : Q a b) : InStep cfg R Q (pure a) (pure b) :=
  fun _ _ related => ⟨.ok h, related⟩

theorem malformed (m : Malformation) {site other : Site} (h : R site other) :
    InStep cfg R Q (malformed m site) (malformed m other) :=
  fun _ _ related => ⟨.malformed m h, related⟩

theorem record (e f : Event) : InStep cfg R (fun _ _ => True) (record e) (record f) :=
  fun _ _ related => ⟨.ok trivial, related.visible, related.collector⟩

/-- What is known of the values of the first action counts too. -/
theorem returning {S : α → Prop} {m : Lower α} {l : Lower β} (h : InStep cfg R Q m l)
    (returns : ∀ (s t : Session) (a : α), s.run m = (.ok a, t) → S a) :
    InStep cfg R (fun a b => Q a b ∧ S a) m l := by
  intro s u related
  obtain ⟨same, after⟩ := h s u related
  refine ⟨?_, after⟩
  have known := returns s (s.run m).2
  generalize hx : (s.run m).1 = x at same ⊢
  generalize (u.run l).1 = y at same ⊢
  cases same with
  | ok hab => exact .ok ⟨hab, known _ (Prod.ext hx rfl)⟩
  | malformed m hsite => exact .malformed m hsite
  | stopped stops => exact .stopped stops
  | scope e => exact .scope e

theorem bind {m : Lower α} {l : Lower β} {f : α → Lower γ} {g : β → Lower δ}
    (h : InStep cfg R Q m l) (k : ∀ a b, Q a b → InStep cfg R P (f a) (g b)) :
    InStep cfg R P (m >>= f) (l >>= g) := by
  intro s u related
  obtain ⟨same, after⟩ := h s u related
  cases hm : s.run m with
  | mk outcome t =>
    cases hl : u.run l with
    | mk other v =>
      rw [hm, hl] at same after
      cases same with
      | ok hab =>
        rw [run_bind_of_ok hm, run_bind_of_ok hl]
        exact k _ _ hab t v after
      | malformed m hsite =>
        rw [run_bind_of_error hm, run_bind_of_error hl]
        exact ⟨.malformed m hsite, after⟩
      | stopped stops =>
        rw [run_bind_of_error hm, run_bind_of_error hl]
        exact ⟨.stopped stops, after⟩
      | scope e =>
        rw [run_bind_of_error hm, run_bind_of_error hl]
        exact ⟨.scope e, after⟩

theorem mapM {f : α → Lower γ} {g : β → Lower δ} {as : List α} {bs : List β}
    (h : List.Forall₂ (fun a b => InStep cfg R P (f a) (g b)) as bs) :
    InStep cfg R (List.Forall₂ P) (as.mapM f) (bs.mapM g) := by
  induction h with
  | nil => exact pure .nil
  | cons first _ ih =>
    rw [List.mapM_cons, List.mapM_cons]
    exact first.bind fun _ _ hxy => ih.bind fun _ _ rest => pure (.cons hxy rest)

theorem checked {c : Prop} [Decidable c] {m : Lower Unit} {l : Lower Unit} {f : Unit → Lower γ}
    {g : Unit → Lower δ} (h : InStep cfg R (fun _ _ => True) m l)
    (k : ∀ a b, InStep cfg R P (f a) (g b)) :
    InStep cfg R P (if c then f () else m >>= f) (if c then g () else l >>= g) := by
  split
  · exact k () ()
  · exact h.bind fun a b _ => k a b

section
variable (recasing : Recasing cfg R) {site other : Site} (hsite : R site other)
include recasing hsite

/-- Reports of related nodes keep step if they are as severe and of the same category. -/
theorem report {issue issue' : Issue} (severity : issue'.severity = issue.severity := by exact rfl)
    (category : issue'.category = issue.category := by exact rfl) :
    InStep cfg R (fun _ _ => True) (report (some site) issue) (report (some other) issue') := by
  intro s u related
  have headings : (issue.report (some site.attributes)).SameHeading
      (issue'.report (some other.attributes)) := {
    severity := severity
    stage := rfl
    category := congrArg (fun c : Category => some c.name) category
    place := congrArg some (recasing.location hsite) }
  obtain ⟨kept, stops⟩ := related.collector.report headings
  have after : (s.reported site issue).InStep cfg R (u.reported other issue') :=
    ⟨related.visible, kept⟩
  change Option.Rel Stop.SameHeading (s.stop? site issue) (u.stop? other issue') at stops
  cases mine : s.stop? site issue with
  | none =>
    cases theirs : u.stop? other issue' with
    | none =>
      rw [run_report_of_none mine, run_report_of_none theirs]
      exact ⟨.ok trivial, after⟩
    | some stop' =>
      rw [mine, theirs] at stops
      cases stops
  | some stop =>
    cases theirs : u.stop? other issue' with
    | none =>
      rw [mine, theirs] at stops
      cases stops
    | some stop' =>
      rw [mine, theirs] at stops
      cases stops with
      | some same =>
        rw [run_report_of_stop mine, run_report_of_stop theirs]
        exact ⟨.stopped same, after⟩

/-- Recovering reports the malformed node of each side, and related nodes become unknown in step. -/
theorem orUnknown {m l : Lower Expression} (h : InStep cfg R (Expression.Recased R) m l) :
    InStep cfg R (Expression.Recased R) (orUnknown site m) (orUnknown other l) := by
  intro s u related
  obtain ⟨same, after⟩ := h s u related
  cases hm : s.run m with
  | mk outcome t =>
    cases hl : u.run l with
    | mk outcome' v =>
      rw [hm, hl] at same after
      cases same with
      | ok recased =>
        rw [run_orUnknown_of_ok hm, run_orUnknown_of_ok hl]
        exact ⟨.ok recased, after⟩
      | malformed m hculprit =>
        rw [run_orUnknown_of_malformed hm, run_orUnknown_of_malformed hl]
        have reports := report recasing hculprit
          (rfl : (Issue.malformed m).severity = (Issue.malformed m).severity)
        exact (reports.bind fun _ _ _ => pure (.unknown hsite)) t v after
      | stopped stops =>
        rw [run_orUnknown_of_error hm (by simp), run_orUnknown_of_error hl (by simp)]
        exact ⟨.stopped stops, after⟩
      | scope e =>
        rw [run_orUnknown_of_error hm (by simp), run_orUnknown_of_error hl (by simp)]
        exact ⟨.scope e, after⟩

end

/-- A callee in any case stands for functions that correspond. -/
theorem resolve (recasing : Recasing cfg R) {site other : Site} {callee callee' : String}
    (same : uncased callee' = uncased callee) :
    InStep cfg R (List.Forall₂ (Function.InStep cfg R)) (resolve cfg site callee)
      (resolve cfg other callee') := by
  intro s u related
  have candidates : List.Forall₂ (Function.InStep cfg R) (s.scopes.resolve cfg callee)
      (u.scopes.resolve cfg callee') := by
    rw [ScopeStack.resolve_eq_filter, ScopeStack.resolve_eq_filter, recasing.key same]
    refine List.rel_filter (fun f g hfg => ?_) related.visible
    dsimp only
    rw [recasing.key hfg.recased.name]
  exact ⟨.ok candidates, related.visible, related.collector⟩

/-! ### Scopes -/

section
variable {known known' : Site → Prop}

theorem declared {header header' : Function} (h : Function.InStep cfg R header header') :
    InStep cfg R (fun _ _ => True) (declare (.function header)) (declare (.function header')) := by
  intro s u related
  refine ⟨.ok trivial, ?_, related.collector⟩
  change List.Forall₂ _ (s.scopes.declare _).visible (u.scopes.declare _).visible
  rw [ScopeStack.visible_declare, ScopeStack.visible_declare]
  exact .cons h related.visible

/-- What a block declares is gone behind it on both sides. -/
theorem inBlock (code code' : Option String) {m : Lower α} {l : Lower β} (hm : Composed cfg known m)
    (hl : Composed cfg known' l) (h : InStep cfg R Q m l) :
    InStep cfg R Q (inScope (.block code) m) (inScope (.block code') l) := by
  intro s u related
  have opened : (s.opening (.block code)).InStep cfg R (u.opening (.block code')) := {
    visible := by
      change List.Forall₂ _ (s.scopes.enter _ _).visible (u.scopes.enter _ _).visible
      rw [ScopeStack.visible_enter, ScopeStack.visible_enter]
      exact related.visible
    collector := related.collector }
  obtain ⟨same, after⟩ := h _ _ opened
  rw [hm.run_inBlock rfl, hl.run_inBlock rfl]
  exact ⟨same, related.visible, after.collector⟩

/-- A function can be seen inside its body, and as a whole behind it. -/
theorem defining {header header' : Function} (recased : header.Recased R header')
    (apart : header.ParametersApart cfg) {m l : Lower Statement} (hm : Composed cfg known m)
    (hl : Composed cfg known' l) (h : InStep cfg R (Statement.Recased R) m l) :
    InStep cfg R (Function.Recased R) (defining header m) (defining header' l) := by
  intro s u related
  have opened : (s.openingFunction header).InStep cfg R (u.openingFunction header') := {
    visible := by
      rw [visible_openingFunction, visible_openingFunction]
      exact .cons ⟨recased.opened, apart⟩ related.visible
    collector := related.collector }
  obtain ⟨same, after⟩ := h _ _ opened
  cases hbody : (s.openingFunction header).run m with
  | mk outcome t =>
    cases hother : (u.openingFunction header').run l with
    | mk outcome' v =>
      rw [hbody, hother] at same after
      have closed : (s.closingFunction t header).InStep cfg R (u.closingFunction v header') := {
        visible := by
          rw [visible_closingFunction, visible_closingFunction]
          exact .cons ⟨recased, apart⟩ related.visible
        collector := after.collector }
      cases same with
      | ok lowered =>
        have whole := recased.withBody lowered
        rw [hm.run_defining_of_ok hbody, hl.run_defining_of_ok hother]
        refine ⟨.ok whole, ?_, after.collector⟩
        rw [visible_redeclare_closingFunction, visible_redeclare_closingFunction]
        exact .cons ⟨whole, apart⟩ related.visible
      | malformed m hsite =>
        rw [hm.run_defining_of_error hbody, hl.run_defining_of_error hother]
        exact ⟨.malformed m hsite, closed⟩
      | stopped stops =>
        rw [hm.run_defining_of_error hbody, hl.run_defining_of_error hother]
        exact ⟨.stopped stops, closed⟩
      | scope e =>
        rw [hm.run_defining_of_error hbody, hl.run_defining_of_error hother]
        exact ⟨.scope e, closed⟩

end

end Lower.InStep

end ScriptIR
