import ScriptIR.Proofs.Scope.Balance

/-!
# What runs leave alone and what they link

`Lower.Keeps view m` says that, however `m` ends, a view of the session is what it was before.
Where a run changes a session, what it may change is a relation of the session before and the
one after: `Session.Steps` says of which steps the relation has to hold, and by
`Composed.linked` it then holds of every run.
-/
namespace ScriptIR

/-- However the action ends, what `view` shows of the session has not changed. -/
def Lower.Keeps {α γ : Type} (view : Session → γ) (m : Lower α) : Prop :=
  ∀ s : Session, view (s.run m).2 = view s

namespace Lower.Keeps
open Session
variable {α β γ : Type} {view : Session → γ}

theorem pure (a : α) : Keeps view (pure a : Lower α) :=
  fun _ => rfl

theorem report {site : Site} {issue : Issue}
    (h : ∀ s : Session, view (s.reported site issue) = view s) :
    Keeps view (report (some site) issue) := by
  intro s
  rw [session_run_report]
  exact h s

theorem bind {m : Lower α} {f : α → Lower β} (h : Keeps view m) (k : ∀ a, Keeps view (f a)) :
    Keeps view (m >>= f) := by
  intro s
  have first := h s
  cases hm : s.run m with
  | mk outcome t =>
    rw [hm] at first
    cases outcome with
    | ok a =>
      rw [run_bind_of_ok hm, k a t]
      exact first
    | error e =>
      rw [run_bind_of_error hm]
      exact first

theorem mapM {f : α → Lower β} {as : List α} (h : ∀ a ∈ as, Keeps view (f a)) :
    Keeps view (as.mapM f) := by
  induction as with
  | nil => exact pure []
  | cons a as ih =>
    rw [List.mapM_cons]
    have rest := ih fun b hb => h b (List.mem_cons_of_mem _ hb)
    exact (h a List.mem_cons_self).bind fun _ => rest.bind fun _ => pure _

/-- Recovering from a malformed node reports it. -/
theorem orUnknown {site : Site} {body : Lower Expression} (h : Keeps view body)
    (reports : ∀ culprit m (s : Session), view (s.reported culprit (.malformed m)) = view s) :
    Keeps view (orUnknown site body) := by
  intro s
  refine run_orUnknown_of (P := fun ended => view ended.2 = view s) (h s) fun m culprit t hbody =>
    ?_
  have inside := h s
  have recovery := (report (reports culprit m)).bind fun _ => pure site.unknown
  rw [hbody] at inside
  rw [recovery t]
  exact inside

/-- Reading a type can report that its text is no type. -/
theorem typeOfText {site : Site}
    (reports : ∀ error (s : Session), view (s.reported site (.invalidType error)) = view s)
    (text : Option String) : Keeps view (typeOfText text (some site)) := by
  unfold Lower.typeOfText
  split
  · exact pure _
  · split
    · exact pure _
    · split
      · exact pure _
      · exact (report (reports _)).bind fun _ => pure _

end Lower.Keeps

/-! ### What every step keeps -/

/-- What an event reports: the place of the node it is about, if it is about one, and the issue. -/
def Event.report? : Event → Option (Option Path × Issue)
  | reported place issue _ => some (place, issue)
  | _ => none

/-- A relation of sessions that holds along every step of lowering: it chains, and it holds of a
change of the scopes, of an event that is no report, and of a report about a known node. -/
structure Session.Steps (known : Site → Prop) (R : Session → Session → Prop) : Prop where
  refl : ∀ s, R s s
  trans : ∀ {s t u}, R s t → R t u → R s u
  scopes : ∀ (s : Session) (scopes : ScopeStack), R s { s with scopes := scopes }
  event : ∀ (s : Session) (e : Event), e.report? = none → R s (s.record e)
  report : ∀ (s : Session) (site : Site) (issue : Issue), known site → R s (s.reported site issue)

/-- A run from `s` has ended in a related session, and at a known node if that was malformed. -/
structure Session.Linked {α : Type} (known : Site → Prop)
    (R : Session → Session → Prop) (s : Session)
    (ended : Except Fault α × Session) : Prop where
  related : R s ended.2
  culprit : ∀ m site, ended.1 = .error (.malformed m site) → known site

namespace Session.Steps
variable {known : Site → Prop} {R : Session → Session → Prop} (steps : Steps known R)
include steps

theorem opening (s : Session) (owner : Owner) : R s (s.opening owner) :=
  steps.trans (steps.scopes s _) (steps.event _ _ rfl)

theorem closing (s t : Session) (owner : Owner) : R t (s.closing t owner) :=
  steps.trans (steps.scopes t _) (steps.event _ _ rfl)

theorem openingFunction (s : Session) (header : Function) : R s (s.openingFunction header) :=
  steps.trans (steps.scopes s _) (steps.trans (steps.opening _ _) (steps.scopes _ _))

end Session.Steps

namespace Session.Linked
variable {α β : Type} {known : Site → Prop} {R : Session → Session → Prop} {s t : Session}

theorem ok {a : α} (h : R s t) : Linked known R s (Except.ok a, t) :=
  ⟨h, fun _ _ absurd => by cases absurd⟩

section
variable (steps : Steps known R)
include steps

theorem report {site : Site} (issue : Issue) (h : known site) :
    Linked known R s (s.run (Lower.report (some site) issue)) := by
  have related := steps.report s site issue h
  cases hstop : s.stop? site issue with
  | none =>
    rw [run_report_of_none hstop]
    exact .ok related
  | some stop =>
    rw [run_report_of_stop hstop]
    exact ⟨related, fun _ _ absurd => by cases absurd⟩

theorem prepend {ended : Except Fault α × Session} (h : R s t) (k : Linked known R t ended) :
    Linked known R s ended :=
  ⟨steps.trans h k.related, k.culprit⟩

theorem bind {m : Lower α} {f : α → Lower β} (h : Linked known R s (s.run m))
    (k : ∀ a (t : Session), Linked known R t (t.run (f a))) :
      Linked known R s (s.run (m >>= f)) := by
  cases hm : s.run m with
  | mk outcome t =>
    rw [hm] at h
    cases outcome with
    | ok a =>
      rw [run_bind_of_ok hm]
      exact (k a t).prepend steps h.related
    | error e =>
      rw [run_bind_of_error hm]
      exact ⟨h.related, fun m site he => h.culprit m site (by cases he; rfl)⟩

end

end Session.Linked

open Session in
/-- What holds along every step holds along every run of a composed action, however it ends. -/
theorem Lower.Composed.linked {cfg : Config} {known : Site → Prop} {R : Session → Session → Prop}
    (steps : Steps known R) {α : Type} {m : Lower α} (h : Composed cfg known m) :
    ∀ s : Session, Linked known R s (s.run m) := by
  induction h with
  | pure a => exact fun s => .ok (steps.refl s)
  | bind _ _ first next => exact fun s => .bind steps (first s) next
  | dispatched _ => exact fun s => .ok (steps.event s _ rfl)
  | report issue hsite => exact fun s => .report steps issue hsite
  | resolve callee _ => exact fun s => .ok (steps.event s _ rfl)
  | malformed m hsite =>
    exact fun s => ⟨steps.refl s, fun _ _ he => by cases he; exact hsite⟩
  | orUnknown _ _ ih =>
    intro s
    refine run_orUnknown_of (ih s) fun m culprit t hbody => ?_
    have inside := hbody ▸ ih s
    have recovery := Linked.report steps (s := t) (.malformed m) (inside.culprit m culprit rfl)
    exact (recovery.bind steps fun _ u => .ok (steps.refl u)).prepend steps inside.related
  | inBlock code body ih =>
    intro s
    have inside := ih (s.opening (.block code))
    rw [body.run_inBlock rfl]
    exact ⟨steps.trans (steps.opening s _) (steps.trans inside.related (steps.closing s _ _)),
      inside.culprit⟩
  | declared header => exact fun s => .ok (steps.scopes s _)
  | @defining header body composed ih =>
    intro s
    have inside := ih (s.openingFunction header)
    cases hbody : (s.openingFunction header).run body with
    | mk outcome t =>
      rw [hbody] at inside
      have closed : R s (s.closingFunction t header) :=
        steps.trans (steps.openingFunction s header)
          (steps.trans inside.related (steps.closing _ t _))
      cases outcome with
      | ok lowered =>
        rw [composed.run_defining_of_ok hbody]
        exact .ok (steps.trans closed (steps.scopes _ _))
      | error e =>
        rw [composed.run_defining_of_error hbody]
        exact ⟨closed, fun m site he => inside.culprit m site (by cases he; rfl)⟩

end ScriptIR
