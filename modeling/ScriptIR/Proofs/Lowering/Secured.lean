import ScriptIR.Proofs.Lowering.Frames
import ScriptIR.Proofs.Lowering.Lexical
import ScriptIR.Proofs.Lowering.Provenance

/-!
# What visible functions hand on

A call takes over what is known of the functions that it can mean. `Lower.Secures G Q m` says that,
from a session in which `G` holds of every visible function, the action `m` ends in such a session
again, however it ends, and that `Q` holds of the value that it ends with. So what is secured of
functions where they are defined can be relied on where they are called.
-/
namespace ScriptIR

variable {G : Function → Prop} {α β : Type}

/-- The property holds of every function that is visible. -/
def Session.Sees (G : Function → Prop) (s : Session) : Prop :=
  ∀ f ∈ s.visible, G f

/-- What holds of all visible functions before the action holds of all visible functions after it,
and then `Q` holds of the value that the action ends with. -/
def Lower.Secures (G : Function → Prop) (Q : α → Prop) (m : Lower α) : Prop :=
  ∀ s : Session, s.Sees G → (s.run m).2.Sees G ∧ ∀ a, (s.run m).1 = .ok a → Q a

theorem Session.sees_start (collector : Collector) : (start collector).Sees G :=
  fun _ hf => by cases hf

namespace Lower.Secures
open Session
variable {Q : α → Prop} {S : β → Prop} {m : Lower α} {f : α → Lower β}

/-- An action that leaves the visible functions alone secures what it returns. -/
theorem of_returns (kept : Keeps Session.visible m) (h : Returns Q m) : Secures G Q m := by
  intro s sees
  refine ⟨?_, fun a ok => h s _ a (Prod.ext ok rfl)⟩
  rw [Sees, kept s]
  exact sees

theorem pure {a : α} (h : Q a) : Secures G Q (pure a) :=
  of_returns (.pure a) (.pure h)

theorem malformed (m : Malformation) (site : Site) : Secures G Q (malformed m site : Lower α) :=
  of_returns (fun _ => rfl) (.malformed m site)

theorem report (site : Site) (issue : Issue) :
    Secures G (fun _ => True) (report (some site) issue) :=
  of_returns (.report fun _ => rfl) fun _ _ _ _ => trivial

theorem typeOfText (text : Option String) (site : Site) :
    Secures G (fun _ => True) (typeOfText text (some site)) :=
  of_returns (.typeOfText (fun _ _ => rfl) text) fun _ _ _ _ => trivial

theorem bind (h : Secures G Q m) (k : ∀ a, Q a → Secures G S (f a)) : Secures G S (m >>= f) := by
  intro s sees
  obtain ⟨after, value⟩ := h s sees
  cases hm : s.run m with
  | mk outcome t =>
    rw [hm] at after value
    cases outcome with
    | ok a =>
      rw [run_bind_of_ok hm]
      exact k a (value a rfl) t after
    | error e =>
      rw [run_bind_of_error hm]
      exact ⟨after, fun _ absurd => by cases absurd⟩

/-- Nothing is relied on of what the first action ends with. -/
theorem after (h : Secures G Q m) (k : ∀ a, Secures G S (f a)) : Secures G S (m >>= f) :=
  h.bind fun a _ => k a

theorem imp {Q' : α → Prop} (h : Secures G Q m) (weaker : ∀ a, Q a → Q' a) : Secures G Q' m :=
  fun s sees => ⟨(h s sees).1, fun a ok => weaker a ((h s sees).2 a ok)⟩

theorem checked {c : Prop} [Decidable c] {check : Lower Unit} {f : Unit → Lower β}
    (h : Secures G (fun _ => True) check) (k : ∀ u, Secures G S (f u)) :
    Secures G S (if c then f () else check >>= f) := by
  split
  · exact k ()
  · exact h.after k

theorem typeOfNode (site : Site) : Secures G (fun _ => True) (typeOfNode site) := by
  unfold Lower.typeOfNode
  split
  · split
    · exact typeOfText _ site
    · exact (report site _).after fun _ => pure trivial
  · exact pure trivial

theorem mapM {f : α → Lower β} {as : List α} (h : ∀ a ∈ as, Secures G S (f a)) :
    Secures G (fun bs => ∀ b ∈ bs, S b) (as.mapM f) := by
  induction as with
  | nil => exact pure (by simp)
  | cons a as ih =>
    rw [List.mapM_cons]
    have rest := ih fun b hb => h b (List.mem_cons_of_mem _ hb)
    exact (h a List.mem_cons_self).bind fun b hb => rest.bind fun bs hbs =>
      pure (List.forall_mem_cons.mpr ⟨hb, hbs⟩)

/-- The functions that a callee can mean are visible. -/
theorem resolve (cfg : Config) (site : Site) (callee : String) :
    Secures G (fun candidates => ∀ f ∈ candidates, G f) (resolve cfg site callee) := by
  intro s sees
  refine ⟨sees, fun candidates ok f hf => sees f ?_⟩
  cases ok
  rw [ScopeStack.resolve_eq_filter] at hf
  exact (List.mem_filter.mp hf).1

theorem orUnknown {site : Site} {Q : Expression → Prop} {body : Lower Expression}
    (h : Secures G Q body) (unknown : Q site.unknown) : Secures G Q (orUnknown site body) := by
  intro s sees
  refine run_orUnknown_of (P := fun ended => ended.2.Sees G ∧ ∀ e, ended.1 = .ok e →
    Q e) (h s sees) ?_
  intro m culprit t hbody
  have inside := (h s sees).1
  rw [hbody] at inside
  exact (report culprit _).after (fun _ => pure unknown) t inside

section
variable {cfg : Config} {known : Site → Prop}

theorem inBlock {code : Option String} {body : Lower α} (composed : Composed cfg known body)
    (h : Secures G Q body) : Secures G Q (inScope (.block code) body) := by
  intro s sees
  have opened : (s.opening (.block code)).Sees G := by
    rwa [Sees, show (s.opening (.block code)).visible = s.visible from s.scopes.visible_enter _ _]
  rw [composed.run_inBlock rfl]
  exact ⟨sees, (h _ opened).2⟩

theorem declared {header : Function} (h : G header) :
    Secures G (fun _ => True) (declare (.function header)) := by
  refine fun s sees => ⟨?_, fun _ _ => trivial⟩
  have visible : (s.run (declare (.function header))).2.visible = header :: s.visible :=
    s.scopes.visible_declare header
  rw [Sees, visible]
  exact List.forall_mem_cons.mpr ⟨h, sees⟩

/-- A function is visible in its body without it, and behind it as a whole. -/
theorem defining {S : Statement → Prop} {header : Function} {body : Lower Statement}
    (composed : Composed cfg known body) (opened : G header.opened) (declared : G header)
    (h : Secures G S body)
    (whole : ∀ lowered, S lowered → G (header.withBody lowered)) :
    Secures G G (defining header body) := by
  intro s sees
  have start : (s.openingFunction header).Sees G := by
    rw [Sees, visible_openingFunction]
    exact List.forall_mem_cons.mpr ⟨opened, sees⟩
  have inside := (h _ start).2
  cases hbody : (s.openingFunction header).run body with
  | mk outcome t =>
    rw [hbody] at inside
    cases outcome with
    | ok lowered =>
      have defined := whole lowered (inside lowered rfl)
      rw [composed.run_defining_of_ok hbody]
      refine ⟨?_, fun f ok => by cases ok; exact defined⟩
      rw [Sees, visible_redeclare_closingFunction]
      exact List.forall_mem_cons.mpr ⟨defined, sees⟩
    | error e =>
      rw [composed.run_defining_of_error hbody]
      refine ⟨?_, fun _ absurd => by cases absurd⟩
      rw [Sees, visible_closingFunction]
      exact List.forall_mem_cons.mpr ⟨declared, sees⟩

end

end Lower.Secures

end ScriptIR
