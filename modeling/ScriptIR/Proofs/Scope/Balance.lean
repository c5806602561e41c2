import ScriptIR.Proofs.Lowering.Readings
import ScriptIR.Proofs.Scope.Growth

/-!
# Balanced scopes

However lowering ends, it ends in the scope in which it started. What it entered it has left again,
the innermost scope first, and no scope is ever left out of order. `Session.Balanced` says so of one
run; every step of lowering is balanced, and so every composed action is.
-/
namespace ScriptIR

/-- The owner and number of the scope that an event enters. -/
def Event.entered? : Event → Option (Owner × Nat)
  | entered owner serial => some (owner, serial)
  | _ => none

/-- The owner and number of the scope that an event leaves. -/
def Event.left? : Event → Option (Owner × Nat)
  | left owner serial => some (owner, serial)
  | _ => none

/-- The events from number `n` on enter and leave scopes in a well-nested way: each scope that is
entered is left after all scopes that were entered inside it. A scope is numbered by the event that
entered it, so no two of them are the same. -/
inductive WellNested : (n : Nat) → List Event → Prop
  | nil (n : Nat) : WellNested n []
  | other {n : Nat} {e : Event} {rest : List Event} : e.entered? = none → e.left? = none →
      WellNested (n + 1) rest → WellNested n (e :: rest)
  | scope {n : Nat} {inner rest : List Event} (owner : Owner) :
      WellNested (n + 1) inner → WellNested (n + inner.length + 2) rest →
      WellNested n (.entered owner n :: (inner ++ .left owner n :: rest))

namespace WellNested

theorem single {n : Nat} {e : Event} (enters : e.entered? = none) (leaves : e.left? = none) :
    WellNested n [e] :=
  .other enters leaves (.nil _)

theorem append {n : Nat} {es fs : List Event} (h : WellNested n es)
    (k : WellNested (n + es.length) fs) : WellNested n (es ++ fs) := by
  induction h with
  | nil n => simpa using k
  | @other n e rest enters leaves _ ih =>
    refine .other enters leaves (ih ?_)
    rwa [Nat.add_assoc, Nat.add_comm 1, ← List.length_cons]
  | @scope n inner rest owner hinner _ _ ih =>
    have length : n + inner.length + 2 + rest.length =
        n + (Event.entered owner n :: (inner ++ .left owner n :: rest)).length := by
      simp only [List.length_cons, List.length_append]
      omega
    rw [List.cons_append, List.append_assoc, List.cons_append]
    exact .scope owner hinner (ih (length ▸ k))

theorem filterMap_entered? (owner : Owner) (n : Nat) (inner rest : List Event) :
    (Event.entered owner n :: (inner ++ .left owner n :: rest)).filterMap Event.entered? =
      (owner, n) :: (inner.filterMap Event.entered? ++ rest.filterMap Event.entered?) := by
  simp [List.filterMap_cons, Event.entered?]

theorem filterMap_left? (owner : Owner) (n : Nat) (inner rest : List Event) :
    (Event.entered owner n :: (inner ++ .left owner n :: rest)).filterMap Event.left? =
      inner.filterMap Event.left? ++ (owner, n) :: rest.filterMap Event.left? := by
  simp [List.filterMap_cons, Event.left?]

theorem left_perm_entered {n : Nat} {es : List Event} (h : WellNested n es) :
    (es.filterMap Event.left?).Perm (es.filterMap Event.entered?) := by
  induction h with
  | nil n => exact .nil
  | other enters leaves _ ih => simpa [List.filterMap_cons, enters, leaves] using ih
  | @scope n inner rest owner _ _ ihInner ihRest =>
    rw [filterMap_entered?, filterMap_left?]
    exact List.perm_middle.trans ((ihInner.append ihRest).cons _)

theorem entered_bounds {n : Nat} {es : List Event} (h : WellNested n es) :
    ∀ p ∈ es.filterMap Event.entered?, n ≤ p.2 ∧ p.2 < n + es.length := by
  induction h with
  | nil n => simp
  | other enters _ _ ih =>
    intro p hp
    have bounds := ih p (by simpa [List.filterMap_cons, enters] using hp)
    rw [List.length_cons]
    omega
  | @scope n inner rest owner _ _ ihInner ihRest =>
    intro p hp
    rw [filterMap_entered?, List.mem_cons, List.mem_append] at hp
    simp only [List.length_cons, List.length_append]
    rcases hp with rfl | hinner | hrest
    · omega
    · have bounds := ihInner p hinner
      omega
    · have bounds := ihRest p hrest
      omega

theorem entered_nodup {n : Nat} {es : List Event} (h : WellNested n es) :
    (es.filterMap Event.entered?).Nodup := by
  induction h with
  | nil n => exact .nil
  | other enters _ _ ih => simpa [List.filterMap_cons, enters] using ih
  | @scope n inner rest owner hinner hrest ihInner ihRest =>
    have apart : (inner.filterMap Event.entered? ++ rest.filterMap Event.entered?).Nodup := by
      refine List.nodup_append.mpr ⟨ihInner, ihRest, fun p hp q hq same => ?_⟩
      have low := hinner.entered_bounds p hp
      have high := hrest.entered_bounds q hq
      rw [same] at low
      omega
    have fresh : (owner, n) ∉ inner.filterMap Event.entered? ++ rest.filterMap Event.entered? := by
      intro hmem
      rcases List.mem_append.mp hmem with hp | hp
      · have low := hinner.entered_bounds _ hp
        omega
      · have high := hrest.entered_bounds _ hp
        omega
    rw [filterMap_entered?]
    exact List.nodup_cons.mpr ⟨fresh, apart⟩

end WellNested

/-- A run from `s` that has ended as given has kept the scopes balanced: it has ended in the same
place, with well-nested events, and not because a scope was left out of order. -/
structure Session.Balanced {α : Type} (s : Session) (ended : Except Fault α × Session) : Prop where
  scopes : s.scopes.Grown ended.2.scopes
  events : ∃ events, ended.2.trace.toList = s.trace.toList ++ events ∧
    WellNested s.trace.size events
  sound : ∀ e, ended.1 ≠ .error (.scope e)

namespace Session.Balanced
variable {α β : Type} {s t : Session}

theorem unchanged {outcome : Except Fault α} (h : ∀ e, outcome ≠ .error (.scope e)) :
    s.Balanced (outcome, s) :=
  ⟨.refl _, ⟨[], by simp, .nil _⟩, h⟩

theorem recorded {outcome : Except Fault α} {e : Event} (collector : Collector)
    (enters : e.entered? = none) (leaves : e.left? = none)
    (h : ∀ e, outcome ≠ .error (.scope e)) :
    s.Balanced (outcome, { s with collector := collector }.record e) :=
  ⟨.refl _, ⟨[e], by simp [Session.record], .single enters leaves⟩, h⟩

theorem report (site : Site) (issue : Issue) :
    s.Balanced (s.run (Lower.report (some site) issue)) := by
  cases h : s.stop? site issue with
  | none =>
    rw [run_report_of_none h]
    exact .recorded _ rfl rfl fun _ absurd => by cases absurd
  | some stop =>
    rw [run_report_of_stop h]
    exact .recorded _ rfl rfl fun _ absurd => by cases absurd

theorem trans {first : Except Fault α} {ended : Except Fault β × Session}
    (h : s.Balanced (first, t)) (k : t.Balanced ended) : s.Balanced ended where
  scopes := h.scopes.trans k.scopes
  events := by
    obtain ⟨es, hes, nested⟩ := h.events
    obtain ⟨fs, hfs, more⟩ := k.events
    refine ⟨es ++ fs, by rw [hfs, hes, List.append_assoc], nested.append ?_⟩
    have size : t.trace.size = s.trace.size + es.length := by
      rw [← Array.length_toList, hes, List.length_append, Array.length_toList]
    exact size ▸ more
  sound := k.sound

theorem bind {m : Lower α} {f : α → Lower β} (h : s.Balanced (s.run m))
    (k : ∀ a (t : Session), t.Balanced (t.run (f a))) : s.Balanced (s.run (m >>= f)) := by
  cases hm : s.run m with
  | mk outcome t =>
    rw [hm] at h
    cases outcome with
    | ok a =>
      rw [run_bind_of_ok hm]
      exact h.trans (k a t)
    | error e =>
      rw [run_bind_of_error hm]
      exact ⟨h.scopes, h.events, fun e he => h.sound e (by cases he; rfl)⟩

/-- A body that starts right after its scope was entered is well nested with it. -/
theorem closing_events {owner : Owner} {outcome : Except Fault α} {start : Session}
    (entered : start.trace = s.trace.push (.entered owner s.trace.size))
    (h : start.Balanced (outcome, t)) :
    ∃ events, (s.closing t owner).trace.toList = s.trace.toList ++ events ∧
      WellNested s.trace.size events := by
  obtain ⟨inner, hinner, nested⟩ := h.events
  rw [entered, Array.size_push] at nested
  refine ⟨.entered owner s.trace.size :: (inner ++ [.left owner s.trace.size]), ?_, ?_⟩
  · have left : (s.closing t owner).trace.toList =
        t.trace.toList ++ [.left owner s.trace.size] := Array.toList_push
    rw [left, hinner, entered, Array.toList_push]
    simp
  · exact .scope owner nested (.nil _)

/-- A body that is balanced in a scope of its own is balanced with that scope entered and left. -/
theorem inScope {owner : Owner} {body : Lower α}
    (h : (s.opening owner).Balanced ((s.opening owner).run body)) :
    s.Balanced (s.run (Lower.inScope owner body)) := by
  rw [run_inScope rfl h.scopes.toSamePlace]
  exact ⟨.addChild _ _, closing_events rfl h, h.sound⟩

/-- A function whose body is balanced is declared once more than before, however its body ends. -/
theorem defining {header : Function} {body : Lower Statement}
    (h : (s.openingFunction header).Balanced ((s.openingFunction header).run body)) :
    s.Balanced (s.run (Lower.defining header body)) := by
  cases hbody : (s.openingFunction header).run body with
  | mk outcome t =>
    rw [hbody] at h
    have place := h.scopes.toSamePlace
    have events := closing_events (s := s.declare (.function header)) rfl h
    cases outcome with
    | ok lowered =>
      rw [run_defining_of_ok place hbody]
      refine ⟨?_, events, fun _ absurd => by cases absurd⟩
      -- The function with its body takes the place of the header, which was all that was declared.
      have replaced := ScopeStack.redeclare_addChild_declare s.scopes (.function header)
        (.function (header.withBody lowered)) t.scopes.current
      have grown := (ScopeStack.Grown.declare s.scopes (header.withBody lowered)).trans
        (.addChild _ t.scopes.current)
      rw [← replaced] at grown
      exact grown
    | error e =>
      rw [run_defining_of_error place hbody]
      exact ⟨(ScopeStack.Grown.declare _ _).trans (.addChild _ _), events,
        fun e he => h.sound e (by cases he; rfl)⟩

end Session.Balanced

namespace Lower.Composed
open Session

theorem balanced {cfg : Config} {known : Site → Prop} {α : Type} {m : Lower α}
    (h : Composed cfg known m) : ∀ s : Session, s.Balanced (s.run m) := by
  induction h with
  | pure a => exact fun s => .unchanged fun _ absurd => by cases absurd
  | bind _ _ first next => exact fun s => .bind (first s) next
  | dispatched _ => exact fun s => .recorded s.collector rfl rfl fun _ absurd => by cases absurd
  | report issue _ => exact fun s => .report _ issue
  | resolve callee _ =>
    exact fun s => .recorded s.collector rfl rfl fun _ absurd => by cases absurd
  | malformed m _ => exact fun s => .unchanged fun _ absurd => by cases absurd
  | @orUnknown site body _ _ ih =>
    intro s
    cases hbody : s.run body with
    | mk outcome t =>
      have ended := hbody ▸ ih s
      cases outcome with
      | ok e => exact run_orUnknown_of_ok hbody ▸ ended
      | error e =>
        cases e with
        | malformed m culprit =>
          rw [run_orUnknown_of_malformed hbody]
          exact ended.trans <| .bind (.report culprit _) fun _ _ =>
            .unchanged fun _ absurd => by cases absurd
        | stopped stop =>
          rw [run_orUnknown_of_error hbody fun _ _ absurd => by cases absurd]
          exact ended
        | scope error => exact absurd rfl (ended.sound error)
  | inBlock code _ ih => exact fun s => .inScope (ih _)
  | declared header =>
    exact fun s => ⟨.declare _ _, ⟨[], (List.append_nil _).symm, .nil _⟩,
      fun _ absurd => by cases absurd⟩
  | defining header _ ih => exact fun s => .defining (ih _)

section
variable {cfg : Config} {known : Site → Prop} {s t : Session}

/-- A composed body ends in its scope, so that the scope is closed. -/
theorem run_inBlock {α : Type} {code : Option String} {body : Lower α} {outcome : Except Fault α}
    (h : Composed cfg known body) (hbody : (s.opening (.block code)).run body = (outcome, t)) :
    s.run (inScope (.block code) body) = (outcome, s.closing t (.block code)) := by
  have ended := hbody ▸ h.balanced (s.opening (.block code))
  exact run_inScope hbody ended.scopes.toSamePlace

variable {header : Function} {body : Lower Statement} (h : Composed cfg known body)
include h

theorem run_defining_of_ok {lowered : Statement}
    (hbody : (s.openingFunction header).run body = (.ok lowered, t)) :
    s.run (Lower.defining header body) =
      (.ok (header.withBody lowered),
        (s.closingFunction t header).redeclare (.function (header.withBody lowered))) := by
  have ended := hbody ▸ h.balanced (s.openingFunction header)
  exact Session.run_defining_of_ok ended.scopes.toSamePlace hbody

theorem run_defining_of_error {e : Fault}
    (hbody : (s.openingFunction header).run body = (.error e, t)) :
    s.run (Lower.defining header body) = (.error e, s.closingFunction t header) := by
  have ended := hbody ▸ h.balanced (s.openingFunction header)
  exact Session.run_defining_of_error ended.scopes.toSamePlace hbody

end

end Lower.Composed

/-- However a tree is lowered and however that ends, the innermost scope is the one that it was
before, inside the same scopes; every scope that was entered has been left exactly once, the
innermost first; and no scope was left out of order. -/
theorem lower_balanced (entry : EntryPoint) (cfg : Config) (n : Node) (s : Session) :
    let ended := s.run (entry.lower cfg n)
    s.scopes.Grown ended.2.scopes ∧
      ended.2.scopes.depth = s.scopes.depth ∧
      (∃ events, ended.2.trace.toList = s.trace.toList ++ events ∧
        WellNested s.trace.size events ∧
        (events.filterMap Event.entered?).Nodup ∧
        (events.filterMap Event.left?).Perm (events.filterMap Event.entered?)) ∧
      ∀ e, ended.1 ≠ .error (.scope e) := by
  intro ended
  have balanced := (entry.lower_composed cfg n).balanced s
  obtain ⟨events, trace, nested⟩ := balanced.events
  exact ⟨balanced.scopes, balanced.scopes.depth,
    ⟨events, trace, nested, nested.entered_nodup, nested.left_perm_entered⟩, balanced.sound⟩

end ScriptIR
