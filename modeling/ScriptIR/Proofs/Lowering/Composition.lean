import ScriptIR.Lowering.Script
import ScriptIR.Proofs.Syntax.Sites

/-!
# What actions are composed of

Every action of lowering is put together from the same few steps: dispatching a node, reporting
an issue, looking up a callee, giving up on a malformed node, recovering from one, lowering a
body in a scope of its own, and defining a function. `Composed cfg known` holds of the actions
that are, as far as the nodes that they speak of are `known`. What each step keeps, every action
keeps, by one induction.
-/
namespace ScriptIR

namespace Session
variable {α β : Type} {s : Session}

theorem run_eq_ok {m : Lower α} {a : α} {t : Session} :
    s.run m = (.ok a, t) ↔ m s = .ok a t := by
  unfold Session.run
  cases m s <;> simp

theorem run_eq_error {m : Lower α} {e : Fault} {t : Session} :
    s.run m = (.error e, t) ↔ m s = .error e t := by
  unfold Session.run
  cases m s <;> simp

/-- A second action runs after the first one if that gave a value. -/
theorem run_bind_of_ok {m : Lower α} {a : α} {t : Session} (h : s.run m = (.ok a, t))
    (f : α → Lower β) : s.run (m >>= f) = t.run (f a) := by
  have first : m s = .ok a t := run_eq_ok.mp h
  have both : (m >>= f) s = f a t := by
    change EStateM.bind m f s = _
    rw [EStateM.bind, first]
  rw [Session.run, both, Session.run]

theorem run_bind_of_error {m : Lower α} {e : Fault} {t : Session} (h : s.run m = (.error e, t))
    (f : α → Lower β) : s.run (m >>= f) = (.error e, t) := by
  rw [run_eq_error] at h ⊢
  change EStateM.bind m f s = _
  rw [EStateM.bind, h]

/-- Two actions give a value together if both of them do. -/
theorem run_bind_eq_ok {m : Lower α} {f : α → Lower β} {b : β} {u : Session} :
    s.run (m >>= f) = (.ok b, u) ↔
      ∃ a t, s.run m = (.ok a, t) ∧ t.run (f a) = (.ok b, u) := by
  constructor
  · intro h
    cases hm : s.run m with
    | mk outcome t =>
      cases outcome with
      | ok a => exact ⟨a, t, rfl, run_bind_of_ok hm f ▸ h⟩
      | error e =>
        rw [run_bind_of_error hm] at h
        cases h
  · rintro ⟨a, t, hm, hf⟩
    rw [run_bind_of_ok hm, hf]

theorem run_pure_eq_ok {a b : α} {u : Session} :
    s.run (pure a) = (.ok b, u) ↔ a = b ∧ s = u := by
  change (Except.ok a, s) = (Except.ok b, u) ↔ _
  simp

end Session

namespace Lower

/-- Lowers `body`; a node that is given up on as malformed is reported, and the node at
`site` becomes unknown. -/
def orUnknown (site : Site) (body : Lower Expression) : Lower Expression :=
  recovering body fun m culprit => do
    report (some culprit) (.malformed m)
    pure site.unknown

/-- Defines the function with the given header and body: it is declared before the body is lowered
in a scope of the function's own, which holds the parameters. -/
def defining (header : Function) (body : Lower Statement) : Lower Function := do
  declare (.function header.opened)
  let lowered ← orRedeclaring (.function header) <| inScope (ownerOf header) do
    header.parameters.forM fun p => declare (.parameter p)
    body
  let whole := header.withBody lowered
  redeclare (.function whole)
  pure whole

/-- The actions that are composed of the steps of lowering under a configuration and speak of
`known` nodes only. -/
inductive Composed (cfg : Config) (known : Site → Prop) : {α : Type} → Lower α → Prop
  | pure {α : Type} (a : α) : Composed cfg known (pure a)
  | bind {α β : Type} {m : Lower α} {f : α → Lower β} :
      Composed cfg known m → (∀ a, Composed cfg known (f a)) → Composed cfg known (m >>= f)
  | dispatched {site : Site} : known site →
      Composed cfg known (record (.dispatched site.path site.attributes.tag))
  | report {site : Site} (issue : Issue) : known site →
      Composed cfg known (report (some site) issue)
  | resolve {site : Site} (callee : String) : known site →
      Composed cfg known (resolve cfg site callee)
  | malformed {α : Type} (m : Malformation) {site : Site} : known site →
      Composed cfg known (malformed m site : Lower α)
  | orUnknown {site : Site} {body : Lower Expression} : known site →
      Composed cfg known body → Composed cfg known (orUnknown site body)
  | inBlock {α : Type} (code : Option String) {body : Lower α} :
      Composed cfg known body → Composed cfg known (inScope (.block code) body)
  | declared (header : Function) : Composed cfg known (declare (.function header))
  | defining (header : Function) {body : Lower Statement} :
      Composed cfg known body → Composed cfg known (defining header body)

namespace Composed
variable {cfg : Config} {known : Site → Prop} {α β : Type}

theorem mapM {f : α → Lower β} {xs : List α} (h : ∀ x ∈ xs, Composed cfg known (f x)) :
    Composed cfg known (xs.mapM f) := by
  induction xs with
  | nil => exact .pure []
  | cons x xs ih =>
    rw [List.mapM_cons]
    have rest := ih fun y hy => h y (List.mem_cons_of_mem _ hy)
    exact .bind (h x List.mem_cons_self) fun _ => .bind rest fun _ => .pure _

/-- A check in front of what follows, which gives up if it fails. -/
theorem checked {c : Prop} [Decidable c] {m : Lower Unit} {f : Unit → Lower α}
    (hm : Composed cfg known m) (hf : ∀ u, Composed cfg known (f u)) :
    Composed cfg known (if c then f () else m >>= f) := by
  split
  · exact hf ()
  · exact .bind hm hf

end Composed

end Lower

/-! ### Runs of single steps -/

namespace Session
variable {s t : Session} {site : Site}

/-- The session after a report about a node, whether it stops the run or not. -/
def reported (s : Session) (site : Site) (issue : Issue) : Session :=
  let reported := s.collector.report (issue.report (some site.attributes))
  { s with collector := reported.collector }.record
    (.reported (some site.path) issue reported.line)

/-- Why a report about a node stops the run, if it does. -/
def stop? (s : Session) (site : Site) (issue : Issue) : Option Stop :=
  (s.collector.report (issue.report (some site.attributes))).stop

theorem run_report_of_stop {issue : Issue} {stop : Stop} (h : s.stop? site issue = some stop) :
    s.run (Lower.report (some site) issue) = (.error (.stopped stop), s.reported site issue) := by
  unfold stop? at h
  rw [run_eq_error]
  simp only [Lower.report, Option.map_some, h]
  rfl

theorem run_report_of_none {issue : Issue} (h : s.stop? site issue = none) :
    s.run (Lower.report (some site) issue) = (.ok (), s.reported site issue) := by
  unfold stop? at h
  rw [run_eq_ok]
  simp only [Lower.report, Option.map_some, h]
  rfl

theorem session_run_report (s : Session) (site : Site) (issue : Issue) :
    (s.run (Lower.report (some site) issue)).2 = s.reported site issue := by
  cases h : s.stop? site issue with
  | none => rw [run_report_of_none h]
  | some stop => rw [run_report_of_stop h]

theorem eq_reported_of_run {issue : Issue} {outcome : Except Fault Unit}
    (h : s.run (Lower.report (some site) issue) = (outcome, t)) : t = s.reported site issue := by
  rw [← session_run_report, h]

theorem run_orRedeclaring_of_ok {α : Type} {body : Lower α} {a : α} (d : Declaration)
    (h : s.run body = (.ok a, t)) : s.run (Lower.orRedeclaring d body) = (.ok a, t) := by
  rw [run_eq_ok] at h ⊢
  simp only [Lower.orRedeclaring, h]

theorem run_orRedeclaring_of_error {α : Type} {body : Lower α} {e : Fault} (d : Declaration)
    (h : s.run body = (.error e, t)) :
    s.run (Lower.orRedeclaring d body) = (.error e, t.redeclare d) := by
  rw [run_eq_error] at h ⊢
  simp only [Lower.orRedeclaring, h]

theorem run_orUnknown_of_ok {body : Lower Expression} {e : Expression}
    (h : s.run body = (.ok e, t)) : s.run (Lower.orUnknown site body) = (.ok e, t) := by
  rw [run_eq_ok] at h ⊢
  simp only [Lower.orUnknown, Lower.recovering, h]

theorem run_orUnknown_of_malformed {body : Lower Expression} {m : Malformation} {culprit : Site}
    (h : s.run body = (.error (.malformed m culprit), t)) :
    s.run (Lower.orUnknown site body) = t.run (do
      Lower.report (some culprit) (.malformed m)
      pure site.unknown) := by
  rw [run_eq_error] at h
  simp only [Lower.orUnknown, Lower.recovering, Session.run, h]

theorem run_orUnknown_of_error {body : Lower Expression} {e : Fault}
    (h : s.run body = (.error e, t)) (other : ∀ m culprit, e ≠ .malformed m culprit) :
    s.run (Lower.orUnknown site body) = (.error e, t) := by
  rw [run_eq_error] at h ⊢
  cases e with
  | malformed m culprit => exact absurd rfl (other m culprit)
  | stopped stop => simp only [Lower.orUnknown, Lower.recovering, h]
  | scope error => simp only [Lower.orUnknown, Lower.recovering, h]

/-- What holds of the run of a body and of the recovery from a malformed node in it holds of both
together. -/
theorem run_orUnknown_of {P : Except Fault Expression × Session → Prop} {body : Lower Expression}
    (h : P (s.run body))
    (recovered : ∀ m culprit t, s.run body = (.error (.malformed m culprit), t) →
      P (t.run (do
        Lower.report (some culprit) (.malformed m)
        pure site.unknown))) :
    P (s.run (Lower.orUnknown site body)) := by
  cases hbody : s.run body with
  | mk outcome t =>
    rw [hbody] at h
    cases outcome with
    | ok e =>
      rw [run_orUnknown_of_ok hbody]
      exact h
    | error fault =>
      cases fault with
      | malformed m culprit =>
        rw [run_orUnknown_of_malformed hbody]
        exact recovered m culprit t hbody
      | stopped stop =>
        rw [run_orUnknown_of_error hbody (by simp)]
        exact h
      | scope error =>
        rw [run_orUnknown_of_error hbody (by simp)]
        exact h

end Session

end ScriptIR
