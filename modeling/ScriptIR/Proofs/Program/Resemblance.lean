import Mathlib.Data.List.Forall2
import Mathlib.Data.Option.Basic
import ScriptIR.Program.Document

/-!
# Programs with the same document

A document shows all there is of a part of a program, but for three things: a location appears as
its text, or not at all if nothing of it is known; a type appears as its text; and the declaration
of a call appears as its name. Two parts resemble each other if they are the same up to that, and
exactly then their documents are equal, as they are and by value.
-/
namespace ScriptIR

/-! ### Comparing documents -/

namespace Json
variable {E : Json → Json → Prop}

/-- What equality and equality by value have in common, on values without fractions. Objects with
the same keys in the same order are compared entry by entry. -/
structure Compares (E : Json → Json → Prop) : Prop where
  null_left {v : Json} : E .null v ↔ v = .null
  null_right {v : Json} : E v .null ↔ v = .null
  bool {a b : Bool} : E (.bool a) (.bool b) ↔ a = b
  int {i j : Int} : E (.int i) (.int j) ↔ i = j
  string {s t : String} : E (.string s) (.string t) ↔ s = t
  array {xs ys : List Json} : E (.array xs) (.array ys) ↔ List.Forall₂ E xs ys
  aligned (keys : List String) {es fs : Dictionary Json} : es.map Prod.fst = keys →
    fs.map Prod.fst = keys → keys.Nodup →
    (E (.object es) (.object fs) ↔ List.Forall₂ E (es.map Prod.snd) (fs.map Prod.snd))
  object {es fs : Dictionary Json} : E (.object es) (.object fs) →
    es.length = fs.length ∧ ∀ key v, Dictionary.get? es key = some v →
      ∃ w, Dictionary.get? fs key = some w ∧ E v w

theorem compares_eq : Compares (· = ·) where
  null_left := eq_comm
  null_right := Iff.rfl
  bool := by simp
  int := by simp
  string := by simp
  array := by simp [List.forall₂_eq_eq_eq]
  aligned keys {es fs} hes hfs _ := by
    rw [object.injEq, List.forall₂_eq_eq_eq]
    constructor
    · rintro rfl
      rfl
    · intro values
      rw [← List.zip_unzip es, ← List.zip_unzip fs, List.unzip_eq_map, List.unzip_eq_map, hes, hfs,
        values]
  object h := by
    cases h
    exact ⟨rfl, fun _ v found => ⟨v, found, rfl⟩⟩

theorem sameItems_iff {xs ys : List Json} :
    sameItems xs ys = true ↔ List.Forall₂ (fun v w => v.sameValue w = true) xs ys := by
  induction xs generalizing ys with
  | nil => cases ys <;> simp [sameItems]
  | cons x xs ih => cases ys <;> simp [sameItems, ih]

theorem sameEntries_iff {es fs : Dictionary Json} : sameEntries es fs = true ↔
    ∀ entry ∈ es, ∃ w, Dictionary.get? fs entry.1 = some w ∧ entry.2.sameValue w = true := by
  induction es with
  | nil => simp [sameEntries]
  | cons entry rest ih =>
    rw [sameEntries, Bool.and_eq_true, ih, List.forall_mem_cons]
    refine and_congr_left' ?_
    cases Dictionary.get? fs entry.1 <;> simp

/-- An entry of the first dictionary finds the entry of its own place in the second. -/
theorem sameEntries_aligned {es fs : Dictionary Json} (keys : es.map Prod.fst = fs.map Prod.fst)
    (nodup : (fs.map Prod.fst).Nodup) : sameEntries es fs = true ↔
      List.Forall₂ (fun v w => v.sameValue w = true) (es.map Prod.snd) (fs.map Prod.snd) := by
  rw [sameEntries_iff]
  induction es generalizing fs with
  | nil => simp_all
  | cons entry rest ih =>
    cases fs with
    | nil => simp at keys
    | cons first others =>
      obtain ⟨sameKey, keys⟩ := List.cons.inj keys
      obtain ⟨fresh, nodup⟩ := List.nodup_cons.mp nodup
      have later (e) (he : e ∈ rest) :
          Dictionary.get? (first :: others) e.1 = Dictionary.get? others e.1 := by
        have known : e.1 ∈ List.map Prod.fst others := keys ▸ List.mem_map_of_mem he
        have other : first.1 ≠ e.1 := fun same => fresh (same ▸ known)
        exact (Dictionary.get?_cons ..).trans (if_neg other)
      rw [List.forall_mem_cons, List.map_cons, List.map_cons, List.forall₂_cons, ← ih keys nodup,
        Dictionary.get?_cons, if_pos sameKey.symm]
      refine and_congr (by simp) (forall₂_congr fun e he => ?_)
      rw [later e he]

theorem compares_sameValue : Compares (fun v w => v.sameValue w = true) where
  null_left {v} := by cases v <;> simp [sameValue]
  null_right {v} := by cases v <;> simp [sameValue]
  bool := by simp [sameValue]
  int := by simp [sameValue]
  string := by simp [sameValue]
  array {xs ys} := by rw [sameValue, sameItems_iff]
  aligned keys {es fs} hes hfs nodup := by
    have lengths : es.length = fs.length := by
      rw [← List.length_map Prod.fst, hes, ← hfs, List.length_map]
    rw [sameValue, lengths, beq_self_eq_true, Bool.true_and,
      sameEntries_aligned (hes.trans hfs.symm) (hfs ▸ nodup)]
  object {es fs} h := by
    rw [sameValue, Bool.and_eq_true, beq_iff_eq, sameEntries_iff] at h
    exact ⟨h.1, fun key v found => h.2 _ (Dictionary.mem_of_get? found)⟩

namespace Compares
variable (hE : Compares E)
include hE

theorem textOrNull {s t : Option String} : E (textOrNull s) (textOrNull t) ↔ s = t := by
  cases s <;> cases t <;> simp [ScriptIR.textOrNull, hE.null_left, hE.null_right, hE.string]

end Compares

end Json

/-! ### Resemblance -/

/-- What a document shows of a location. -/
def Location.shown? (l : Location) : Option String :=
  if l.isUnknown then none else some l.text

structure Origin.Resembles (o p : Origin) : Prop where
  location : o.location.shown? = p.location.shown?
  code : o.code = p.code

structure Parameter.Resembles (p q : Parameter) : Prop where
  origin : p.origin.Resembles q.origin
  name : p.name = q.name
  type : p.type.text = q.type.text
  index : p.index = q.index

mutual
inductive Expression.Resembles : Expression → Expression → Prop
  | literal {o o' : Origin} {type type' : TypeExpr} (rawText name : String) : o.Resembles o' →
      type.text = type'.text →
      Expression.Resembles (.literal o type rawText name) (.literal o' type' rawText name)
  | reference {o o' : Origin} (name : String) {type type' : TypeExpr} : o.Resembles o' →
      type.text = type'.text →
      Expression.Resembles (.reference o name type) (.reference o' name type')
  | binary {o o' : Origin} (operator : String) {lhs lhs' rhs rhs' : Expression}
      {type type' : TypeExpr} : o.Resembles o' → Expression.Resembles lhs lhs' →
      Expression.Resembles rhs rhs' → type.text = type'.text →
      Expression.Resembles (.binary o operator lhs rhs type) (.binary o' operator lhs' rhs' type')
  | unary {o o' : Origin} (operator : String) (isPostfix : Bool) {operand operand' : Expression} :
      o.Resembles o' → Expression.Resembles operand operand' →
      Expression.Resembles (.unary o operator isPostfix operand)
        (.unary o' operator isPostfix operand')
  | call {o o' : Origin} (callee : String) {arguments arguments' : List Argument}
      {declaration declaration' : Option Function} : o.Resembles o' →
      List.Forall₂ Argument.Resembles arguments arguments' →
      declaration.map Function.name = declaration'.map Function.name →
      Expression.Resembles (.call o callee arguments declaration)
        (.call o' callee arguments' declaration')
  | initializer {o o' : Origin} {type type' : TypeExpr} {elements elements' : List Expression} :
      o.Resembles o' → type.text = type'.text →
      List.Forall₂ Expression.Resembles elements elements' →
      Expression.Resembles (.initializer o type elements) (.initializer o' type' elements')
  | cast {o o' : Origin} {target target' : TypeExpr} {inner inner' : Expression} : o.Resembles o' →
      target.text = target'.text → Expression.Resembles inner inner' →
      Expression.Resembles (.cast o target inner) (.cast o' target' inner')
  | compound {o o' : Origin} {statement statement' : Statement} : o.Resembles o' →
      Statement.Resembles statement statement' →
      Expression.Resembles (.compound o statement) (.compound o' statement')
  | definition {o o' : Origin} {d d' : Declaration} : o.Resembles o' → Declaration.Resembles d d' →
      Expression.Resembles (.definition o d) (.definition o' d')
  | unknown {o o' : Origin} (rawText : Option String) : o.Resembles o' →
      Expression.Resembles (.unknown o rawText) (.unknown o' rawText)

inductive Argument.Resembles : Argument → Argument → Prop
  | mk {e e' : Expression} (index : Int) (position : Nat) : Expression.Resembles e e' →
      Argument.Resembles (.mk e index position) (.mk e' index position)

inductive Function.Resembles : Function → Function → Prop
  | mk {o o' : Origin} (name : String) {parameters parameters' : List Parameter}
      {body body' : Body} : o.Resembles o' →
      List.Forall₂ Parameter.Resembles parameters parameters' →
      Option.Rel Statement.Resembles body.statement? body'.statement? →
      Function.Resembles (.mk o name parameters body) (.mk o' name parameters' body')

inductive Declaration.Resembles : Declaration → Declaration → Prop
  | function {f f' : Function} : Function.Resembles f f' →
      Declaration.Resembles (.function f) (.function f')
  | parameter {p p' : Parameter} : p.Resembles p' →
      Declaration.Resembles (.parameter p) (.parameter p')
  | plain {o o' : Origin} (name : String) : o.Resembles o' →
      Declaration.Resembles (.plain name o) (.plain name o')

inductive Statement.Resembles : Statement → Statement → Prop
  | expression {o o' : Origin} {e e' : Expression} : o.Resembles o' → Expression.Resembles e e' →
      Statement.Resembles (.expression o e) (.expression o' e')
  | definition {o o' : Origin} {d d' : Declaration} : o.Resembles o' → Declaration.Resembles d d' →
      Statement.Resembles (.definition o d) (.definition o' d')
  | block {o o' : Origin} {statements statements' : List Statement} : o.Resembles o' →
      List.Forall₂ Statement.Resembles statements statements' →
      Statement.Resembles (.block o statements) (.block o' statements')
end

/-- Parts of one class that are the same in every field, as far as a document shows the fields. -/
inductive Part.Resembles : Part → Part → Prop
  | expression {e e' : Expression} : e.Resembles e' → Resembles (.expression e) (.expression e')
  | statement {s s' : Statement} : s.Resembles s' → Resembles (.statement s) (.statement s')
  | declaration {d d' : Declaration} : d.Resembles d' → Resembles (.declaration d) (.declaration d')

/-! ### Resemblance and comparison -/

variable {E : Json → Json → Prop}

namespace Origin
variable {o p : Origin} {c d : String} {es fs : List (String × Json)}

theorem object_eq : o.object c es = .object (("node", .string c) ::
    ((o.location.shown?.map fun text => ("location", .string text)).toList ++
      ("code", textOrNull o.code) :: es)) := by
  unfold object Location.shown?
  split <;> rfl

/-- Documents of different classes differ. -/
theorem not_compares (hE : Json.Compares E) (different : c ≠ d) :
    ¬E (o.object c es) (p.object d fs) := by
  intro h
  obtain ⟨w, hw, same⟩ := (hE.object h).2 "node" (.string c) rfl
  cases hw
  exact different (hE.string.mp same)

/-- Documents of one class show the origin and the entries of that class. -/
theorem object_compares (hE : Json.Compares E) (keys : List String) (hes : es.map Prod.fst = keys)
    (hfs : fs.map Prod.fst = keys) (nodup : ("node" :: "location" :: "code" :: keys).Nodup) :
    E (o.object c es) (p.object c fs) ↔
      o.Resembles p ∧ List.Forall₂ E (es.map Prod.snd) (fs.map Prod.snd) := by
  have origin : o.Resembles p ↔ o.location.shown? = p.location.shown? ∧ o.code = p.code :=
    ⟨fun h => ⟨h.1, h.2⟩, fun h => ⟨h.1, h.2⟩⟩
  have lengths : es.length = fs.length := by
    rw [← List.length_map Prod.fst, hes, ← hfs, List.length_map]
  have unlocated : ("node" :: "code" :: keys).Nodup :=
    nodup.sublist ((List.sublist_cons_self _ _).cons_cons _)
  rw [object_eq, object_eq, origin]
  cases o.location.shown? with
  | none =>
    cases p.location.shown? with
    | none =>
      rw [hE.aligned _ (by simp [hes]) (by simp [hfs]) unlocated]
      simp [hE.string, hE.textOrNull]
    | some text =>
      refine iff_of_false (fun h => ?_) (by simp)
      have := (hE.object h).1
      simp [lengths] at this
  | some text =>
    cases p.location.shown? with
    | none =>
      refine iff_of_false (fun h => ?_) (by simp)
      have := (hE.object h).1
      simp [lengths] at this
    | some other =>
      rw [hE.aligned _ (by simp [hes]) (by simp [hfs]) nodup]
      simp [hE.string, hE.textOrNull, and_assoc]

end Origin

section
variable (hE : Json.Compares E)
include hE

theorem TypeExpr.compares {t u : TypeExpr} : E t.toJson u.toJson ↔ t.text = u.text :=
  hE.string

theorem Parameter.compares (p q : Parameter) : E p.toJson q.toJson ↔ p.Resembles q := by
  rw [toJson, toJson, Origin.object_compares hE ["name", "type", "argument_index"] rfl
    rfl (by decide)]
  simp only [List.map_cons, List.map_nil, List.forall₂_cons, hE.string,
    TypeExpr.compares hE, hE.int]
  exact ⟨fun h => ⟨h.1, h.2.1, h.2.2.1, h.2.2.2.1⟩, fun h => ⟨h.1, h.2, h.3, h.4, .nil⟩⟩

theorem Parameter.compares_all (ps qs : List Parameter) :
    List.Forall₂ E (ps.map Parameter.toJson) (qs.map Parameter.toJson) ↔
      List.Forall₂ Parameter.Resembles ps qs := by
  simp only [List.forall₂_map_left_iff, List.forall₂_map_right_iff, Parameter.compares hE]

end

-- Parts of different constructors have different classes, and those of one have the same keys.
mutual
theorem Expression.compares (hE : Json.Compares E) : ∀ e f : Expression,
    E e.toJson f.toJson ↔ e.Resembles f
  | .literal .., f => by
    cases f with
    | literal =>
      rw [Expression.toJson, Expression.toJson,
        Origin.object_compares hE ["type", "raw_text", "name"] rfl rfl (by decide)]
      simp only [List.map_cons, List.map_nil, List.forall₂_cons, TypeExpr.compares hE, hE.string]
      constructor
      · rintro ⟨origin, type, rfl, rfl, -⟩
        exact .literal _ _ origin type
      · rintro ⟨⟩
        next origin type => exact ⟨origin, type, rfl, rfl, .nil⟩
    | _ => exact iff_of_false (Origin.not_compares hE (by decide)) nofun
  | .reference .., f => by
    cases f with
    | reference =>
      rw [Expression.toJson, Expression.toJson,
        Origin.object_compares hE ["name", "type"] rfl rfl (by decide)]
      simp only [List.map_cons, List.map_nil, List.forall₂_cons, TypeExpr.compares hE, hE.string]
      constructor
      · rintro ⟨origin, rfl, type, -⟩
        exact .reference _ origin type
      · rintro ⟨⟩
        next origin type => exact ⟨origin, rfl, type, .nil⟩
    | _ => exact iff_of_false (Origin.not_compares hE (by decide)) nofun
  | .binary _ _ lhs rhs _, f => by
    cases f with
    | binary _ _ lhs' rhs' _ =>
      rw [Expression.toJson, Expression.toJson,
        Origin.object_compares hE ["operator", "lhs", "rhs", "type"] rfl rfl (by decide)]
      simp only [List.map_cons, List.map_nil, List.forall₂_cons, TypeExpr.compares hE, hE.string,
        Expression.compares hE lhs lhs', Expression.compares hE rhs rhs']
      constructor
      · rintro ⟨origin, rfl, left, right, type, -⟩
        exact .binary _ origin left right type
      · rintro ⟨⟩
        next origin left right type => exact ⟨origin, rfl, left, right, type, .nil⟩
    | _ => exact iff_of_false (Origin.not_compares hE (by decide)) nofun
  | .unary _ _ _ operand, f => by
    cases f with
    | unary _ _ _ operand' =>
      rw [Expression.toJson, Expression.toJson,
        Origin.object_compares hE ["operator", "is_postfix", "operand"] rfl rfl (by decide)]
      simp only [List.map_cons, List.map_nil, List.forall₂_cons, hE.bool, hE.string,
        Expression.compares hE operand operand']
      constructor
      · rintro ⟨origin, rfl, rfl, below, -⟩
        exact .unary _ _ origin below
      · rintro ⟨⟩
        next origin below => exact ⟨origin, rfl, rfl, below, .nil⟩
    | _ => exact iff_of_false (Origin.not_compares hE (by decide)) nofun
  | .call _ _ arguments _, f => by
    cases f with
    | call _ _ arguments' _ =>
      rw [Expression.toJson, Expression.toJson,
        Origin.object_compares hE ["callee_name", "arguments", "declaration"] rfl rfl (by decide)]
      simp only [List.map_cons, List.map_nil, List.forall₂_cons, hE.array, hE.string, hE.textOrNull,
        Argument.compares_all hE arguments arguments']
      constructor
      · rintro ⟨origin, rfl, below, declaration, -⟩
        exact .call _ origin below declaration
      · rintro ⟨⟩
        next origin below declaration => exact ⟨origin, rfl, below, declaration, .nil⟩
    | _ => exact iff_of_false (Origin.not_compares hE (by decide)) nofun
  | .initializer _ _ elements, f => by
    cases f with
    | initializer _ _ elements' =>
      rw [Expression.toJson, Expression.toJson,
        Origin.object_compares hE ["type", "elements"] rfl rfl (by decide)]
      simp only [List.map_cons, List.map_nil, List.forall₂_cons, hE.array, TypeExpr.compares hE,
        Expression.compares_all hE elements elements']
      constructor
      · rintro ⟨origin, type, below, -⟩
        exact .initializer origin type below
      · rintro ⟨⟩
        next origin type below => exact ⟨origin, type, below, .nil⟩
    | _ => exact iff_of_false (Origin.not_compares hE (by decide)) nofun
  | .cast _ _ inner, f => by
    cases f with
    | cast _ _ inner' =>
      rw [Expression.toJson, Expression.toJson,
        Origin.object_compares hE ["target_type", "inner"] rfl rfl (by decide)]
      simp only [List.map_cons, List.map_nil, List.forall₂_cons, TypeExpr.compares hE,
        Expression.compares hE inner inner']
      constructor
      · rintro ⟨origin, target, below, -⟩
        exact .cast origin target below
      · rintro ⟨⟩
        next origin target below => exact ⟨origin, target, below, .nil⟩
    | _ => exact iff_of_false (Origin.not_compares hE (by decide)) nofun
  | .compound _ statement, f => by
    cases f with
    | compound _ statement' =>
      rw [Expression.toJson, Expression.toJson,
        Origin.object_compares hE ["statement"] rfl rfl (by decide)]
      simp only [List.map_cons, List.map_nil, List.forall₂_cons,
        Statement.compares hE statement statement']
      constructor
      · rintro ⟨origin, below, -⟩
        exact .compound origin below
      · rintro ⟨⟩
        next origin below => exact ⟨origin, below, .nil⟩
    | _ => exact iff_of_false (Origin.not_compares hE (by decide)) nofun
  | .definition _ declaration, f => by
    cases f with
    | definition _ declaration' =>
      rw [Expression.toJson, Expression.toJson,
        Origin.object_compares hE ["declaration"] rfl rfl (by decide)]
      simp only [List.map_cons, List.map_nil, List.forall₂_cons,
        Declaration.compares hE declaration declaration']
      constructor
      · rintro ⟨origin, below, -⟩
        exact .definition origin below
      · rintro ⟨⟩
        next origin below => exact ⟨origin, below, .nil⟩
    | _ => exact iff_of_false (Origin.not_compares hE (by decide)) nofun
  | .unknown .., f => by
    cases f with
    | unknown =>
      rw [Expression.toJson, Expression.toJson,
        Origin.object_compares hE ["raw_text"] rfl rfl (by decide)]
      simp only [List.map_cons, List.map_nil, List.forall₂_cons, hE.textOrNull]
      constructor
      · rintro ⟨origin, rfl, -⟩
        exact .unknown _ origin
      · rintro ⟨⟩
        next origin => exact ⟨origin, rfl, .nil⟩
    | _ => exact iff_of_false (Origin.not_compares hE (by decide)) nofun

theorem Expression.compares_all (hE : Json.Compares E) : ∀ es fs : List Expression,
    List.Forall₂ E (Expression.toJsonList es) (Expression.toJsonList fs) ↔
      List.Forall₂ Expression.Resembles es fs
  | [], [] => by simp [Expression.toJsonList]
  | [], _ :: _ | _ :: _, [] => by simp [Expression.toJsonList]
  | e :: es, f :: fs => by
    rw [Expression.toJsonList, Expression.toJsonList, List.forall₂_cons, List.forall₂_cons,
      Expression.compares hE e f, Expression.compares_all hE es fs]

theorem Argument.compares (hE : Json.Compares E) :
    ∀ a b : Argument, E a.toJson b.toJson ↔ a.Resembles b
  | .mk e _ _, .mk f _ _ => by
    rw [Argument.toJson, Argument.toJson,
      hE.aligned ["node", "expression", "index", "position"] rfl rfl (by decide)]
    simp only [List.map_cons, List.map_nil, List.forall₂_cons, hE.string, hE.int, Int.natCast_inj,
      Expression.compares hE e f]
    constructor
    · rintro ⟨-, below, rfl, rfl, -⟩
      exact .mk _ _ below
    · rintro ⟨⟩
      next below => exact ⟨trivial, below, rfl, rfl, .nil⟩

theorem Argument.compares_all (hE : Json.Compares E) : ∀ as bs : List Argument,
    List.Forall₂ E (Argument.toJsonList as) (Argument.toJsonList bs) ↔
      List.Forall₂ Argument.Resembles as bs
  | [], [] => by simp [Argument.toJsonList]
  | [], _ :: _ | _ :: _, [] => by simp [Argument.toJsonList]
  | a :: as, b :: bs => by
    rw [Argument.toJsonList, Argument.toJsonList, List.forall₂_cons, List.forall₂_cons,
      Argument.compares hE a b, Argument.compares_all hE as bs]

theorem Function.compares (hE : Json.Compares E) :
    ∀ f g : Function, E f.toJson g.toJson ↔ f.Resembles g
  | .mk _ _ _ body, .mk _ _ _ body' => by
    rw [Function.toJson, Function.toJson,
      Origin.object_compares hE ["name", "parameters", "body"] rfl rfl (by decide)]
    simp only [List.map_cons, List.map_nil, List.forall₂_cons, hE.array, hE.string,
      Parameter.compares_all hE, Body.compares hE body body']
    constructor
    · rintro ⟨origin, rfl, parameters, below, -⟩
      exact .mk _ origin parameters below
    · rintro ⟨⟩
      next origin parameters below => exact ⟨origin, rfl, parameters, below, .nil⟩

theorem Body.compares (hE : Json.Compares E) : ∀ b c : Body,
    E b.toJson c.toJson ↔ Option.Rel Statement.Resembles b.statement? c.statement?
  | .none, .none | .none, .unfinished | .unfinished, .none | .unfinished, .unfinished =>
    iff_of_true (hE.null_left.mpr rfl) .none
  | .none, .statement t | .unfinished, .statement t =>
    iff_of_false (fun h => by cases t <;> cases hE.null_left.mp h) nofun
  | .statement s, .none | .statement s, .unfinished =>
    iff_of_false (fun h => by cases s <;> cases hE.null_right.mp h) nofun
  | .statement s, .statement t => (Statement.compares hE s t).trans Option.rel_some_some.symm

theorem Declaration.compares (hE : Json.Compares E) : ∀ d d' : Declaration,
    E d.toJson d'.toJson ↔ d.Resembles d'
  | .function f, .function g => (Function.compares hE f g).trans ⟨.function, fun | .function h => h⟩
  | .parameter p, .parameter q =>
    (Parameter.compares hE p q).trans ⟨.parameter, fun | .parameter h => h⟩
  | .plain .., .plain .. => by
    rw [Declaration.toJson, Declaration.toJson,
      Origin.object_compares hE ["name"] rfl rfl (by decide)]
    simp only [List.map_cons, List.map_nil, List.forall₂_cons, hE.string]
    constructor
    · rintro ⟨origin, rfl, -⟩
      exact .plain _ origin
    · rintro ⟨⟩
      next origin => exact ⟨origin, rfl, .nil⟩
  | .function (.mk ..), .parameter _ | .function (.mk ..), .plain .. | .parameter _, .plain ..
  | .parameter _, .function (.mk ..) | .plain .., .function (.mk ..) | .plain .., .parameter _ =>
    iff_of_false (Origin.not_compares hE (by decide)) nofun

theorem Statement.compares (hE : Json.Compares E) : ∀ s t : Statement,
    E s.toJson t.toJson ↔ s.Resembles t
  | .expression _ e, t => by
    cases t with
    | expression _ f =>
      rw [Statement.toJson, Statement.toJson,
        Origin.object_compares hE ["expression"] rfl rfl (by decide)]
      simp only [List.map_cons, List.map_nil, List.forall₂_cons, Expression.compares hE e f]
      constructor
      · rintro ⟨origin, below, -⟩
        exact .expression origin below
      · rintro ⟨⟩
        next origin below => exact ⟨origin, below, .nil⟩
    | _ => exact iff_of_false (Origin.not_compares hE (by decide)) nofun
  | .definition _ d, t => by
    cases t with
    | definition _ d' =>
      rw [Statement.toJson, Statement.toJson,
        Origin.object_compares hE ["declaration"] rfl rfl (by decide)]
      simp only [List.map_cons, List.map_nil, List.forall₂_cons, Declaration.compares hE d d']
      constructor
      · rintro ⟨origin, below, -⟩
        exact .definition origin below
      · rintro ⟨⟩
        next origin below => exact ⟨origin, below, .nil⟩
    | _ => exact iff_of_false (Origin.not_compares hE (by decide)) nofun
  | .block _ statements, t => by
    cases t with
    | block _ statements' =>
      rw [Statement.toJson, Statement.toJson,
        Origin.object_compares hE ["statements"] rfl rfl (by decide)]
      simp only [List.map_cons, List.map_nil, List.forall₂_cons, hE.array,
        Statement.compares_all hE statements statements']
      constructor
      · rintro ⟨origin, below, -⟩
        exact .block origin below
      · rintro ⟨⟩
        next origin below => exact ⟨origin, below, .nil⟩
    | _ => exact iff_of_false (Origin.not_compares hE (by decide)) nofun

theorem Statement.compares_all (hE : Json.Compares E) : ∀ ss ts : List Statement,
    List.Forall₂ E (Statement.toJsonList ss) (Statement.toJsonList ts) ↔
      List.Forall₂ Statement.Resembles ss ts
  | [], [] => by simp [Statement.toJsonList]
  | [], _ :: _ | _ :: _, [] => by simp [Statement.toJsonList]
  | s :: ss, t :: ts => by
    rw [Statement.toJsonList, Statement.toJsonList, List.forall₂_cons, List.forall₂_cons,
      Statement.compares hE s t, Statement.compares_all hE ss ts]
end

/-- Expressions, statements, functions and parameters have different classes. -/
theorem Part.compares (hE : Json.Compares E) : ∀ x y : Part, E x.toJson y.toJson ↔ x.Resembles y
  | .expression e, .expression f =>
    (Expression.compares hE e f).trans ⟨.expression, fun | .expression h => h⟩
  | .statement s, .statement t =>
    (Statement.compares hE s t).trans ⟨.statement, fun | .statement h => h⟩
  | .declaration d, .declaration d' =>
    (Declaration.compares hE d d').trans ⟨.declaration, fun | .declaration h => h⟩
  | .expression e, .statement s | .statement s, .expression e => by
    cases e <;> cases s <;> exact iff_of_false (Origin.not_compares hE (by decide)) nofun
  | .expression e, .declaration d | .declaration d, .expression e => by
    obtain ⟨_, _, _, _⟩ | _ | _ := d <;> cases e <;>
      exact iff_of_false (Origin.not_compares hE (by decide)) nofun
  | .statement s, .declaration d | .declaration d, .statement s => by
    obtain ⟨_, _, _, _⟩ | _ | _ := d <;> cases s <;>
      exact iff_of_false (Origin.not_compares hE (by decide)) nofun

/-- If all locations can be shown, two parts have a document each, and these are equal, as they are
or by value, exactly if the parts resemble each other. -/
theorem document_eq_iff_resembles {x y : Part} (hx : ∀ l ∈ x.locations, isFileName l.file = true)
    (hy : ∀ l ∈ y.locations, isFileName l.file = true) :
    ∃ v w, x.document = .ok v ∧ y.document = .ok w ∧ (v = w ↔ x.Resembles y) ∧
      (v.sameValue w = true ↔ x.Resembles y) := by
  have shown {z : Part} (hz : ∀ l ∈ z.locations, isFileName l.file = true) :
      z.document = .ok z.toJson := by
    have found : z.locations.find? (fun l => !isFileName l.file) = none := by
      simpa [List.find?_eq_none] using hz
    rw [Part.document, found]
  exact ⟨_, _, shown hx, shown hy, Part.compares Json.compares_eq x y,
    Part.compares Json.compares_sameValue x y⟩

/-- Of a call, neither the directory of its file nor the parameters of what it calls is shown, but
the order of its arguments is, even if they have the same index. -/
theorem document_eq_iff_resembles_call :
    let call (file first second : String) (parameters : List Parameter) : Part :=
      .expression (.call { location := { file := .string file, line := 3 } } "Push"
        [.mk (.literal {} .unknown first first) 0 0, .mk (.literal {} .unknown second second) 0 1]
        (some (.mk {} "Push" parameters .none)))
    ∃ v w, (call "a/s.ps1" "1" "2" []).document = .ok v ∧
      (call "b/s.ps1" "1" "2" [{ name := "$x" }]).document = .ok v ∧
      (call "a/s.ps1" "2" "1" []).document = .ok w ∧ ¬v.sameValue w = true := by
  intro call
  have shown (file first second : String) (parameters : List Parameter) :
      ∀ l ∈ (call file first second parameters).locations, isFileName l.file = true := by
    simp [call, Part.locations, Expression.locations, Argument.locationsOf,
      Argument.locations, isFileName,
      Json.isTruthy]
  have moved : (call "a/s.ps1" "1" "2" []).Resembles (call "b/s.ps1" "1" "2" [{ name := "$x" }]) :=
    .expression (.call _ ⟨by decide, rfl⟩ (.cons (.mk _ _ (.literal _ _ ⟨rfl, rfl⟩ rfl))
      (.cons (.mk _ _ (.literal _ _ ⟨rfl, rfl⟩ rfl)) .nil)) rfl)
  have swapped {first second : String}
      (h : (call "a/s.ps1" first second []).Resembles (call "a/s.ps1" second first [])) :
      first = second := by
    cases h with
    | expression h =>
      cases h with
      | call _ _ arguments =>
        cases arguments with
        | cons argument _ =>
          cases argument with
          | mk _ _ literal =>
            cases literal
            rfl
  obtain ⟨v, u, hv, hu, same, -⟩ :=
    document_eq_iff_resembles (shown "a/s.ps1" "1" "2" [])
      (shown "b/s.ps1" "1" "2" [{ name := "$x" }])
  obtain ⟨v', w, hv', hw, -, different⟩ :=
    document_eq_iff_resembles (shown "a/s.ps1" "1" "2" []) (shown "a/s.ps1" "2" "1" [])
  obtain rfl : v = v' := Except.ok.inj (hv.symm.trans hv')
  obtain rfl : v = u := same.mpr moved
  exact ⟨v, w, hv, hu, hw, fun h => absurd (swapped (different.mp h)) (by decide)⟩

end ScriptIR
