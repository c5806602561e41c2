import Mathlib.Data.List.Nodup
import ScriptIR.Proofs.Scope.Visible

/-!
# Scopes over whole runs

Scopes are entered and left and declarations are registered in any order, and a scope that is left
out of order stays open. A `Chronicle` remembers such a run from outside: it numbers the scopes by
their entries and never forgets a registration. Looking up a name finds the functions that were
registered in scopes which are still open, the latest first. What carries this over a run is that
nothing is registered in a scope while a scope inside it is open, so that the registrations which
still stand are those of the outermost scope, then those of the next one inside, and so on.
-/
namespace ScriptIR

/-- What is asked of the scopes. -/
inductive ScopeCall where
  | enter (owner : Owner) (serial : Nat)
  | leave (owner : Owner) (serial : Nat)
  | declare (declaration : Declaration)

namespace ScopeCall

def isEnter : ScopeCall → Bool
  | enter .. => true
  | _ => false

def isLeave : ScopeCall → Bool
  | leave .. => true
  | _ => false

end ScopeCall

namespace ScopeStack

def perform (s : ScopeStack) : ScopeCall → Except ScopeError ScopeStack
  | .enter owner serial => .ok (s.enter owner serial)
  | .leave owner serial => s.leave owner serial
  | .declare d => .ok (s.declare d)

/-- The scopes after a call. A call that is refused leaves them as they are. -/
def after (s : ScopeStack) (c : ScopeCall) : ScopeStack :=
  match s.perform c with
  | .ok t => t
  | .error _ => s

/-- The scopes after a row of calls. -/
def afterAll (s : ScopeStack) (calls : List ScopeCall) : ScopeStack :=
  calls.foldl after s

/-- The calls that are not refused. -/
def accepted (s : ScopeStack) : List ScopeCall → List ScopeCall
  | [] => []
  | c :: rest =>
    match s.perform c with
    | .ok t => c :: accepted t rest
    | .error _ => accepted s rest

section
variable {s t : ScopeStack} {c : ScopeCall} (rest : List ScopeCall)

theorem afterAll_cons_of_ok (h : s.perform c = .ok t) :
    s.afterAll (c :: rest) = t.afterAll rest := by
  rw [afterAll, List.foldl_cons, after, h, afterAll]

theorem afterAll_cons_of_error {e : ScopeError} (h : s.perform c = .error e) :
    s.afterAll (c :: rest) = s.afterAll rest := by
  rw [afterAll, List.foldl_cons, after, h, afterAll]

theorem accepted_cons_of_ok (h : s.perform c = .ok t) :
    s.accepted (c :: rest) = c :: t.accepted rest := by
  rw [accepted, h]

theorem accepted_cons_of_error {e : ScopeError} (h : s.perform c = .error e) :
    s.accepted (c :: rest) = s.accepted rest := by
  rw [accepted, h]

end

theorem leave_eq_ok {s t : ScopeStack} {owner : Owner} {serial : Nat}
    (h : s.leave owner serial = .ok t) :
    ∃ parent rest, s.enclosing = parent :: rest ∧ t = ⟨parent.addChild s.current, rest⟩ := by
  unfold leave at h
  split at h
  next => cases h
  next parent rest enclosing =>
    refine ⟨parent, rest, enclosing, ?_⟩
    split at h
    next => cases h
    next =>
      split at h
      next => exact (Except.ok.inj h).symm
      next => cases h

end ScopeStack

/-- What has happened to the scopes. Each scope has the number of its entry, and the global scope
has the number zero. -/
structure Chronicle where
  entered : Nat := 0
  /-- The numbers of the open scopes, that of the innermost one first. -/
  opened : List Nat := [0]
  /-- All that was ever registered, the latest last, with the number of the scope around it. -/
  registered : List (Nat × Declaration) := []

namespace Chronicle

/-- The chronicle with one more call that was not refused. -/
def note (c : Chronicle) : ScopeCall → Chronicle
  | .enter _ _ => { c with entered := c.entered + 1, opened := (c.entered + 1) :: c.opened }
  | .leave _ _ => { c with opened := c.opened.tail }
  | .declare d => { c with registered := c.registered ++ [(c.opened.headD 0, d)] }

/-- The chronicle of a run on fresh scopes in which no call was refused. -/
def ofCalls (calls : List ScopeCall) : Chronicle :=
  calls.foldl note {}

/-- The registrations in scopes that are still open, the latest last. -/
def standing (c : Chronicle) : List (Nat × Declaration) :=
  c.registered.filter (·.1 ∈ c.opened)

/-- Where fewer scopes are open, fewer registrations stand. -/
theorem standing_of_subset {c : Chronicle} {numbers : List Nat} (sub : numbers ⊆ c.opened) :
    standing { c with opened := numbers } = c.standing.filter (·.1 ∈ numbers) := by
  rw [standing, standing, List.filter_filter]
  refine List.filter_congr fun r _ => ?_
  rw [Bool.eq_iff_iff, Bool.and_eq_true, decide_eq_true_eq, decide_eq_true_eq]
  exact ⟨fun known => ⟨known, sub known⟩, And.left⟩

end Chronicle

/-- A scope with its number. -/
abbrev Level := Nat × Scope

/-- The registrations in a scope that has a number. -/
def Level.registrations (l : Level) : List (Nat × Declaration) :=
  l.2.declarations.map (l.1, ·)

theorem Level.mem_registrations {l : Level} {r : Nat × Declaration} (h : r ∈ l.registrations) :
    r.1 = l.1 := by
  obtain ⟨d, -, rfl⟩ := List.mem_map.mp h
  rfl

/-- The registrations in some scopes, those of the first one last. -/
def Level.registrationsOf (levels : List Level) : List (Nat × Declaration) :=
  levels.reverse.flatMap Level.registrations

theorem Level.registrationsOf_cons (l : Level) (outer : List Level) :
    registrationsOf (l :: outer) = registrationsOf outer ++ l.registrations := by
  rw [registrationsOf, List.reverse_cons, List.flatMap_append, List.flatMap_singleton,
    registrationsOf]

/-- Of the registrations in a scope and in those around it, the latter are left
without its number. -/
theorem Level.filter_registrationsOf {l : Level} {outer : List Level}
    (fresh : l.1 ∉ outer.map Prod.fst) :
    (registrationsOf (l :: outer)).filter (·.1 ∈ outer.map Prod.fst) = registrationsOf outer := by
  have outside : ∀ r ∈ registrationsOf outer, r.1 ∈ outer.map Prod.fst := by
    intro r hr
    obtain ⟨level, hlevel, hr⟩ := List.mem_flatMap.mp hr
    rw [mem_registrations hr]
    exact List.mem_map_of_mem (List.mem_reverse.mp hlevel)
  have gone : ∀ r ∈ l.registrations, r.1 ∉ outer.map Prod.fst :=
    fun r hr => mem_registrations hr ▸ fresh
  rw [registrationsOf_cons, List.filter_append, List.filter_eq_self.mpr (by simpa using outside),
    List.filter_eq_nil_iff.mpr (by simpa using gone), List.append_nil]

/-- The chronicle tells of the open scopes: they are those with the numbers that it has as open, and
what stands is what they hold, from the outside in. -/
structure Chronicle.Tells (c : Chronicle) (s : ScopeStack) (levels : List Level) : Prop where
  numbers : c.opened = levels.map Prod.fst
  scopes : s.current :: s.enclosing = levels.map Prod.snd
  standing : c.standing = Level.registrationsOf levels
  distinct : c.opened.Nodup
  opened_le : ∀ n ∈ c.opened, n ≤ c.entered
  registered_le : ∀ r ∈ c.registered, r.1 ≤ c.entered

namespace Chronicle.Tells
variable {c : Chronicle} {s t : ScopeStack} {levels : List Level}

theorem fresh : Tells {} {} [(0, {})] where
  numbers := rfl
  scopes := rfl
  standing := rfl
  distinct := List.nodup_singleton 0
  opened_le := by simp
  registered_le := by simp

theorem enter (h : c.Tells s levels) (owner : Owner) (serial : Nat) :
    (c.note (.enter owner serial)).Tells (s.enter owner serial)
      ((c.entered + 1, { owner := some owner, serial := serial }) :: levels) where
  numbers := by rw [note, h.numbers, List.map_cons]
  scopes := by
    rw [List.map_cons, ← h.scopes]
    rfl
  standing := by
    have same : (c.note (.enter owner serial)).standing = c.standing := by
      refine List.filter_congr fun r hr => ?_
      have old := h.registered_le r hr
      have other : r.1 ≠ c.entered + 1 := by omega
      simp [note, other]
    rw [same, h.standing, Level.registrationsOf_cons]
    exact (List.append_nil _).symm
  distinct := by
    refine List.nodup_cons.mpr ⟨fun known => ?_, h.distinct⟩
    have old := h.opened_le _ known
    omega
  opened_le := by
    refine List.forall_mem_cons.mpr ⟨Nat.le_refl _, fun n hn => ?_⟩
    exact Nat.le_succ_of_le (h.opened_le n hn)
  registered_le := fun r hr => Nat.le_succ_of_le (h.registered_le r hr)

/-- The innermost scope has a number, and so have those around it. -/
theorem innermost (h : c.Tells s levels) :
    ∃ n outer, levels = (n, s.current) :: outer ∧ s.enclosing = outer.map Prod.snd ∧
      c.opened = n :: outer.map Prod.fst := by
  cases levels with
  | nil => exact absurd h.scopes (List.cons_ne_nil _ _)
  | cons level outer =>
    obtain ⟨same, around⟩ := List.cons.inj h.scopes
    exact ⟨level.1, outer, by rw [same], around, h.numbers⟩

theorem declare (h : c.Tells s levels) (d : Declaration) :
    ∃ changed, (c.note (.declare d)).Tells (s.declare d) changed := by
  obtain ⟨n, outer, rfl, around, numbers⟩ := h.innermost
  have known : n ∈ c.opened := numbers ▸ List.mem_cons_self
  have noted : c.note (.declare d) = { c with registered := c.registered ++ [(n, d)] } := by
    rw [note, numbers, List.headD_cons]
  rw [noted]
  refine ⟨(n, s.current.declare d) :: outer, numbers, by rw [List.map_cons, ← around]; rfl, ?_,
    h.distinct, h.opened_le, ?_⟩
  · have more : Chronicle.standing { c with registered := c.registered ++ [(n, d)] } =
        c.standing ++ [(n, d)] := by
      simp [Chronicle.standing, List.filter_append, known]
    rw [more, h.standing]
    simp [Level.registrationsOf_cons, Level.registrations, Scope.declare]
  · refine List.forall_mem_append.mpr ⟨h.registered_le, ?_⟩
    exact List.forall_mem_singleton.mpr (h.opened_le n known)

/-- With the innermost scope goes what stands in it: those registrations came last. -/
theorem leave (h : c.Tells s levels) {owner : Owner} {serial : Nat}
    (left : s.leave owner serial = .ok t) :
    ∃ changed, (c.note (.leave owner serial)).Tells t changed := by
  obtain ⟨n, outer, rfl, around, numbers⟩ := h.innermost
  obtain ⟨parent, rest, enclosing, rfl⟩ := ScopeStack.leave_eq_ok left
  rw [enclosing] at around
  obtain ⟨⟨m, scope⟩, others, rfl, rfl, rfl⟩ := List.map_eq_cons_iff.mp around.symm
  have noted : c.note (.leave owner serial) = { c with opened := m :: others.map Prod.fst } := by
    rw [note, numbers]
    rfl
  have sub : m :: others.map Prod.fst ⊆ c.opened := numbers ▸ List.subset_cons_self _ _
  have distinct := h.distinct
  rw [numbers] at distinct
  obtain ⟨fresh, inside⟩ := List.nodup_cons.mp distinct
  rw [noted]
  refine ⟨(m, scope.addChild s.current) :: others, rfl, rfl, ?_, inside,
    fun k hk => h.opened_le k (sub hk), h.registered_le⟩
  have outside : c.standing.filter (·.1 ∈ m :: others.map Prod.fst) =
      Level.registrationsOf ((m, scope) :: others) := by
    rw [h.standing]
    exact Level.filter_registrationsOf (l := (n, s.current)) fresh
  rw [standing_of_subset sub, outside, Level.registrationsOf_cons, Level.registrationsOf_cons]
  rfl

theorem call (h : c.Tells s levels) {call : ScopeCall} (done : s.perform call = .ok t) :
    ∃ changed, (c.note call).Tells t changed := by
  cases call with
  | enter owner serial =>
    obtain rfl := Except.ok.inj done
    exact ⟨_, h.enter owner serial⟩
  | leave owner serial => exact h.leave done
  | declare d =>
    obtain rfl := Except.ok.inj done
    exact h.declare d

/-- A refused call is told of by nothing, so a run is told of by its accepted calls. -/
theorem calls (h : c.Tells s levels) (calls : List ScopeCall) :
    ∃ changed, ((s.accepted calls).foldl note c).Tells (s.afterAll calls) changed := by
  induction calls generalizing c s levels with
  | nil => exact ⟨levels, h⟩
  | cons call rest ih =>
    cases done : s.perform call with
    | error e =>
      rw [ScopeStack.accepted_cons_of_error rest done, ScopeStack.afterAll_cons_of_error rest done]
      exact ih h
    | ok t =>
      rw [ScopeStack.accepted_cons_of_ok rest done, ScopeStack.afterAll_cons_of_ok rest done]
      obtain ⟨changed, told⟩ := h.call done
      exact ih told

theorem visible (h : c.Tells s levels) :
    s.visible = c.standing.reverse.filterMap fun r => r.2.function? := by
  have reversed : ∀ l : Level, (l.registrations.reverse.filterMap fun r => r.2.function?) =
      l.2.visible := by
    intro l
    rw [Level.registrations, ← List.map_reverse, List.filterMap_map]
    rfl
  rw [ScopeStack.visible, h.scopes, h.standing, Level.registrationsOf, List.reverse_flatMap,
    List.reverse_reverse, List.filterMap_flatMap, List.flatMap_map]
  simp only [Function.comp_apply, reversed]

end Chronicle.Tells

namespace ScopeStack

theorem afterAll_accepted (s : ScopeStack) (calls : List ScopeCall) :
    s.afterAll (s.accepted calls) = s.afterAll calls := by
  induction calls generalizing s with
  | nil => rfl
  | cons call rest ih =>
    cases done : s.perform call with
    | error e =>
      rw [accepted_cons_of_error rest done, afterAll_cons_of_error rest done, ih]
    | ok t =>
      rw [accepted_cons_of_ok rest done, afterAll_cons_of_ok _ done, afterAll_cons_of_ok _ done, ih]

theorem depth_perform {s t : ScopeStack} {call : ScopeCall} (done : s.perform call = .ok t) :
    t.depth + (if call.isLeave then 1 else 0) = s.depth + if call.isEnter then 1 else 0 := by
  cases call with
  | enter owner serial =>
    obtain rfl := Except.ok.inj done
    rfl
  | leave owner serial =>
    obtain ⟨parent, rest, enclosing, rfl⟩ := leave_eq_ok done
    rw [depth, depth, enclosing]
    rfl
  | declare d =>
    obtain rfl := Except.ok.inj done
    rfl

theorem isEnter_of_refused {s : ScopeStack} {call : ScopeCall} {e : ScopeError}
    (refused : s.perform call = .error e) : call.isEnter = false := by
  cases call with
  | enter owner serial => cases refused
  | leave owner serial => rfl
  | declare d => rfl

theorem depth_afterAll (s : ScopeStack) (calls : List ScopeCall) :
    (s.afterAll calls).depth + (s.accepted calls).countP ScopeCall.isLeave =
      s.depth + calls.countP ScopeCall.isEnter := by
  induction calls generalizing s with
  | nil => rfl
  | cons call rest ih =>
    rw [List.countP_cons]
    cases done : s.perform call with
    | error e =>
      rw [accepted_cons_of_error rest done, afterAll_cons_of_error rest done,
        isEnter_of_refused done]
      exact ih s
    | ok t =>
      have step := depth_perform done
      have others := ih t
      rw [accepted_cons_of_ok rest done, afterAll_cons_of_ok rest done, List.countP_cons]
      omega

end ScopeStack

/-- After any calls on fresh scopes, a name stands for the functions of that name that were
registered in scopes which are still open, each as often as it was registered, the latest first. The
depth is the number of scopes entered without the number of those left; and calls that were refused
have changed nothing. -/
theorem resolve_afterAll (cfg : Config) (calls : List ScopeCall) (name : String) :
    let s := ScopeStack.afterAll {} calls
    let accepted := ScopeStack.accepted {} calls
    s.resolve cfg name =
        ((Chronicle.ofCalls accepted).standing.reverse.filterMap fun r => r.2.function?).filter
          (fun f => cfg.key f.name == cfg.key name) ∧
      s.depth + accepted.countP ScopeCall.isLeave = calls.countP ScopeCall.isEnter ∧
      s = ScopeStack.afterAll {} accepted := by
  intro s accepted
  obtain ⟨levels, told⟩ := Chronicle.Tells.fresh.calls calls
  have depth := ScopeStack.depth_afterAll {} calls
  have fresh : ScopeStack.depth {} = 0 := rfl
  rw [fresh, Nat.zero_add] at depth
  refine ⟨?_, depth, (ScopeStack.afterAll_accepted {} calls).symm⟩
  rw [s.resolve_eq_filter, told.visible, Chronicle.ofCalls]

end ScriptIR
