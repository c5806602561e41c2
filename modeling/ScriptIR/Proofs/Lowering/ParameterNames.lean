import ScriptIR.Proofs.Lowering.Arguments
import ScriptIR.Proofs.Lowering.Frames
import ScriptIR.Proofs.Lowering.Lexical
import ScriptIR.Proofs.Text.Separators

/-!
# The names of parameters

A parameter is named where its function is defined, with the sigil or without; a flag names it at a
call, behind a marker and perhaps in front of a colon. Both names are brought to one form and then
compared by their keys, through two dictionaries. What is found there is the place of a parameter
with the key of the flag, and nothing is found exactly if no parameter has that key.
-/
namespace ScriptIR

/-- The text that names a node. -/
def Attributes.spelling (a : Attributes) : String :=
  ((nonEmpty? a.name).or a.code).getD ""

/-- The name in the declaration of a parameter: that of its variable, or else its own. -/
def Site.declaredName (s : Site) : String :=
  let variableNode := s.node.children.find? (·.label.kind = .variableExpression)
  let named := match variableNode with
    | some v => v.label
    | none => s.attributes
  named.identifier

/-- What a parameter has from the node that declares it, and from its number. -/
structure Parameter.DeclaredAt (cfg : Config) (node : Site) (index : Nat)
    (p : Parameter) : Prop where
  origin : p.origin = node.origin
  name : p.name = Lower.withSigil cfg node.declaredName
  index : p.index = index

namespace Lower
open Session

/-! ### Declared parameters -/

section
variable (cfg : Config) (site : Site) {s t : Session}

theorem parameter_declared {index : Nat} {p : Parameter}
    (h : s.run (parameter cfg site index) = (.ok p, t)) : p.DeclaredAt cfg site index := by
  obtain ⟨type, _, _, hp⟩ := run_bind_eq_ok.mp h
  obtain ⟨rfl, -⟩ := run_pure_eq_ok.mp hp
  exact ⟨rfl, rfl, rfl⟩

theorem parameters_declared {ps : List Parameter}
    (h : s.run (site.parameters.zipIdx.mapM fun p => parameter cfg p.1 p.2) = (.ok ps, t)) :
    List.Forall₂ (fun (e : Site × Nat) p => p.DeclaredAt cfg e.1 e.2) site.parameters.zipIdx ps :=
  forall₂_of_run_mapM (fun e _ _ _ => parameter_declared cfg e.1) h

theorem parameters_named {ps : List Parameter}
    (h : s.run (site.parameters.zipIdx.mapM fun p => parameter cfg p.1 p.2) = (.ok ps, t)) :
    ps.length = site.parameters.length ∧
      ∀ (k : Nat) (p : Parameter) (node : Site), ps[k]? = some p → site.parameters[k]? = some node →
        p.name = withSigil cfg node.declaredName ∧ p.index = k := by
  have each := parameters_declared cfg site h
  have length := each.length_eq
  rw [List.length_zipIdx] at length
  refine ⟨length.symm, fun k p node hp hnode => ?_⟩
  obtain ⟨hk, rfl⟩ := List.getElem?_eq_some_iff.mp hp
  obtain ⟨hn, rfl⟩ := List.getElem?_eq_some_iff.mp hnode
  have here := each.get (by rwa [List.length_zipIdx]) hk
  exact ⟨by simpa using here.name, by simpa using here.index⟩

theorem parameters_names {ps : List Parameter}
    (h : s.run (site.parameters.zipIdx.mapM fun p => parameter cfg p.1 p.2) = (.ok ps, t)) :
    ps.map (·.name) = site.parameters.map fun p => withSigil cfg p.declaredName := by
  obtain ⟨length, named⟩ := parameters_named cfg site h
  refine List.ext_getElem (by simpa using length) fun k hp hn => ?_
  rw [List.length_map] at hp hn
  rw [List.getElem_map, List.getElem_map]
  exact (named k _ _ (List.getElem?_eq_getElem hp) (List.getElem?_eq_getElem hn)).1

theorem parameters_keep {γ : Type} (view : Session → γ)
    (reports : ∀ node issue (s : Session), view (s.reported node issue) = view s) :
    Keeps view (site.parameters.zipIdx.mapM fun p => parameter cfg p.1 p.2) :=
  .mapM fun _ _ => (Keeps.typeOfText (fun _ => reports _ _) _).bind fun _ => .pure _

variable {cfg} in
/-- However the lowering of a body ends, its function is in front of the visible ones then, with its
body or without. -/
theorem visible_run_defining {known : Site → Prop} {body : Lower Statement}
    (composed : Composed cfg known body) (header : Function) (s : Session) :
    ∃ f, f.parameters = header.parameters ∧
      (s.run (defining header body)).2.visible = f :: s.visible := by
  cases hbody : (s.openingFunction header).run body with
  | mk outcome t =>
    cases outcome with
    | ok lowered =>
      refine ⟨header.withBody lowered, rfl, ?_⟩
      rw [composed.run_defining_of_ok hbody, visible_redeclare_closingFunction]
    | error e =>
      refine ⟨header, rfl, ?_⟩
      rw [composed.run_defining_of_error hbody, visible_closingFunction]

/-- However the lowering of a definition ends, at most its function is put in front of the visible
ones, with the parameters that were lowered from its nodes. -/
theorem visible_run_function {known : Site → Prop} {children : List (Tree Reading)}
    (composed : AllComposed cfg known children) (s : Session) :
    (s.run (function cfg site children)).2.visible = s.visible ∨
      ∃ f t, s.run (site.parameters.zipIdx.mapM fun p => parameter cfg p.1 p.2) =
        (.ok f.parameters, t) ∧
        (s.run (function cfg site children)).2.visible = f :: s.visible := by
  unfold function
  dsimp only
  split
  swap
  · exact .inl rfl
  cases nonEmpty? site.attributes.name with
  | none => exact .inl rfl
  | some name =>
    have before := parameters_keep cfg site Session.visible (fun _ _ _ => rfl) s
    cases hparameters : s.run (site.parameters.zipIdx.mapM fun p => parameter cfg p.1 p.2) with
    | mk outcome t =>
      rw [hparameters] at before
      cases outcome with
      | error e =>
        rw [run_bind_of_error hparameters]
        exact .inl before
      | ok ps =>
        rw [run_bind_of_ok hparameters, ← before]
        right
        cases hbody : children.find? (·.label.kind = .scriptBlock) with
        | none => exact ⟨.mk site.origin name ps .none, t, rfl, t.scopes.visible_declare _⟩
        | some body =>
          have lowered := (composed.label (List.mem_of_find?_eq_some hbody)).statement
          obtain ⟨f, same, visible⟩ :=
            visible_run_defining lowered (.mk site.origin name ps .none) t
          exact ⟨f, t, by rw [same]; rfl, visible⟩

/-- A function that a definition has put in front of the visible ones has the parameters of its
nodes, in their order and counted from zero. -/
theorem parameters_of_visible {known : Site → Prop} {children : List (Tree Reading)}
    (composed : AllComposed cfg known children) {f : Function}
    (h : (s.run (function cfg site children)).2.visible = f :: s.visible) :
    f.parameters.length = site.parameters.length ∧
      ∀ (k : Nat) (p : Parameter) (node : Site), f.parameters[k]? = some p →
        site.parameters[k]? = some node →
          p.name = withSigil cfg node.declaredName ∧ p.index = k := by
  rcases visible_run_function cfg site composed s with unchanged | ⟨g, t, lowered, visible⟩
  · rw [unchanged] at h
    exact absurd h (by simp)
  · rw [visible] at h
    obtain ⟨rfl, -⟩ := List.cons.inj h
    exact parameters_named cfg site lowered

end

/-! ### Looking up a name -/

section
variable (cfg : Config) {f : Function} (others : List Function) {name : String}

theorem declaredIndex?_eq_some {index : Int}
    (h : declaredIndex? cfg (f :: others) name = some index) :
    ∃ p ∈ f.parameters, cfg.key p.name = cfg.key name ∧ p.index = index := by
  have normalised := Dictionary.mem_of_mem_ofEntries (Dictionary.mem_of_get? h)
  obtain ⟨entry, hentry, same⟩ := List.mem_map.mp normalised
  obtain ⟨p, hp, rfl⟩ := List.mem_map.mp (Dictionary.mem_of_mem_ofEntries hentry)
  simp only [Prod.mk.injEq] at same
  exact ⟨p, hp, same⟩

theorem declaredIndex?_eq_none :
    declaredIndex? cfg (f :: others) name = none ↔
      ∀ p ∈ f.parameters, cfg.key p.name ≠ cfg.key name := by
  have keys : cfg.key name ∈ (f.positions.map fun e => (cfg.key e.1, e.2)).map Prod.fst ↔
      ∃ p ∈ f.parameters, cfg.key p.name = cfg.key name := by
    have names : ∀ n, n ∈ List.map Prod.fst f.positions ↔ ∃ p ∈ f.parameters, p.name = n := by
      intro n
      rw [Function.positions, Dictionary.mem_keys_ofEntries]
      simp
    have folded : (f.positions.map fun e => (cfg.key e.1, e.2)).map Prod.fst =
        (List.map Prod.fst f.positions).map cfg.key := by simp
    rw [folded, List.mem_map]
    constructor
    · rintro ⟨n, hn, same⟩
      obtain ⟨p, hp, rfl⟩ := (names n).mp hn
      exact ⟨p, hp, same⟩
    · rintro ⟨p, hp, same⟩
      exact ⟨p.name, (names _).mpr ⟨p, hp, rfl⟩, same⟩
  change Dictionary.get? _ _ = none ↔ _
  rw [Dictionary.get?_eq_none_iff, Dictionary.mem_keys_ofEntries, keys]
  simp

/-- Where parameters are counted from zero, what is found for a name that one of them has is the
place of one that has it. -/
theorem declaredIndex?_of_mem
    (counted : ∀ (k : Nat) (p : Parameter), f.parameters[k]? = some p → p.index = k)
    {p : Parameter} (hp : p ∈ f.parameters) (named : cfg.key p.name = cfg.key name) :
    ∃ (k : Nat) (q : Parameter), f.parameters[k]? = some q ∧ cfg.key q.name = cfg.key name ∧
      declaredIndex? cfg (f :: others) name = some (k : Int) := by
  cases found : declaredIndex? cfg (f :: others) name with
  | none => exact absurd named ((declaredIndex?_eq_none cfg others).mp found p hp)
  | some index =>
    obtain ⟨q, hq, same, rfl⟩ := declaredIndex?_eq_some cfg others found
    obtain ⟨k, hk⟩ := List.getElem?_of_mem hq
    exact ⟨k, q, hk, same, by rw [counted k q hk]⟩

end

end Lower

/-! ### One name, declared and called -/

namespace Config
variable (cfg : Config) {s t : String}

theorem key_append (s t : String) : cfg.key (s ++ t) = cfg.key s ++ cfg.key t := by
  unfold key
  split
  · exact Text.caseFold_append s t
  · rfl

section
variable (h : cfg.key s = cfg.key t) {c : Char} (separates : Text.isSeparator c = true)
include h separates

theorem mem_of_key_eq (hc : c ∈ s.toList) : c ∈ t.toList := by
  unfold key at h
  split at h
  · exact Text.mem_of_caseFold_eq h separates hc
  · exact h ▸ hc

theorem getLast?_of_key_eq (hc : s.toList.getLast? = some c) : t.toList.getLast? = some c := by
  unfold key at h
  split at h
  · exact Text.getLast?_of_caseFold_eq h separates hc
  · exact h ▸ hc

end

end Config

/-- A name as it stands without sigil and marker: not empty, without colons and without blanks at
its ends, and not starting with the sigil itself. -/
structure PlainName (q : String) : Prop where
  nonempty : q ≠ ""
  colon : ':' ∉ q.toList
  trimmed : Text.trim q = q
  bare : q.toList.head? ≠ some '$'

theorem PlainName.getLast?_not_blank {q : String} (plain : PlainName q) {c : Char}
    (h : q.toList.getLast? = some c) : Text.isBlank c = false := by
  have trimmed := congrArg String.toList plain.trimmed
  simp only [Text.trim, String.toList_ofList] at trimmed
  exact Text.isBlank_of_getLast?_trimChars (trimmed ▸ h)

namespace Lower
variable {cfg : Config} (marker : cfg.flagMarker = "-") (sigil : cfg.sigil = "$")

include sigil in
theorem withSigil_of_declared {q name : String} (plain : PlainName q)
    (declared : name = q ∨ name = "$" ++ q) : withSigil cfg name = "$" ++ q := by
  unfold withSigil
  rw [sigil]
  rcases declared with rfl | rfl
  · have bare := plain.bare
    cases hchars : name.toList with
    | nil => simp
    | cons c rest =>
      rw [hchars] at bare
      have other : c ≠ '$' := by simpa using bare
      simp [other.symm]
  · simp

/-- A marker, a name and perhaps a colon with more behind it keep the name when they are trimmed. -/
theorem identifier_of_spelling {flag : Attributes} {q : String}
    (ends : ∀ c, q.toList.getLast? = some c → Text.isBlank c = false)
    (spelled : flag.spelling = "-" ++ q ∨ ∃ rest, flag.spelling = "-" ++ q ++ ":" ++ rest) :
    ∃ tail, flag.identifier.toList = '-' :: (q.toList ++ tail) ∧
      (tail = [] ∨ tail.head? = some ':') := by
  have trimmed : flag.identifier.toList = Text.trimChars flag.spelling.toList :=
    String.toList_ofList
  have dash : Text.isBlank '-' = false := by decide
  rcases spelled with spelled | ⟨rest, spelled⟩
  · refine ⟨[], ?_, .inl rfl⟩
    rw [trimmed, spelled, String.toList_append]
    rcases List.eq_nil_or_concat q.toList with hq | ⟨xs, c, hq⟩
    · rw [hq]
      rfl
    · rw [List.concat_eq_append] at hq
      have last := ends c (by simp [hq])
      rw [hq]
      simpa using Text.trimChars_between xs [] dash last
  · refine ⟨':' :: (rest.toList.reverse.dropWhile Text.isBlank).reverse, ?_, .inr rfl⟩
    have chars : flag.spelling.toList = '-' :: (q.toList ++ ':' :: rest.toList) := by
      simp [spelled]
    rw [trimmed, chars]
    exact Text.trimChars_between q.toList rest.toList dash (by decide)

include marker sigil in
theorem flagName_of_spelling {flag : Attributes} {q : String} (colon : ':' ∉ q.toList)
    (ends : ∀ c, q.toList.getLast? = some c → Text.isBlank c = false)
    (spelled : flag.spelling = "-" ++ q ∨ ∃ rest, flag.spelling = "-" ++ q ++ ":" ++ rest) :
    flagName cfg flag = "$" ++ q := by
  obtain ⟨tail, htext, htail⟩ := identifier_of_spelling ends spelled
  have name : (q.toList ++ tail).takeWhile (· ≠ ':') = q.toList := by
    have inside : ∀ c ∈ q.toList, decide (c ≠ ':') = true := by
      intro c hc
      have other : c ≠ ':' := fun same => colon (same ▸ hc)
      simp [other]
    rw [List.takeWhile_append_of_pos inside]
    rcases htail with rfl | hhead
    · simp
    · cases tail with
      | nil => simp
      | cons c rest =>
        have same : c = ':' := by simpa using hhead
        simp [same]
  unfold flagName
  rw [htext, marker, sigil]
  simp only [decide_not] at name
  simp [name]

include marker sigil in
/-- A parameter and a flag that are spelled with one plain name, in whatever case if that is
ignored, have one key. -/
theorem key_flagName_of_declared {node : Site} {flag : Attributes} {q r : String}
    (plain : PlainName q) (declared : node.declaredName = q ∨ node.declaredName = "$" ++ q)
    (same : cfg.key r = cfg.key q)
    (spelled : flag.spelling = "-" ++ r ∨ ∃ rest, flag.spelling = "-" ++ r ++ ":" ++ rest) :
    cfg.key (flagName cfg flag) = cfg.key (withSigil cfg node.declaredName) := by
  have colon : ':' ∉ r.toList := fun h => plain.colon (Config.mem_of_key_eq cfg same rfl h)
  have ends : ∀ c, r.toList.getLast? = some c → Text.isBlank c = false := by
    intro c hc
    by_contra blank
    have separates : Text.isSeparator c = true := by simp_all [Text.isSeparator]
    have last := plain.getLast?_not_blank (Config.getLast?_of_key_eq cfg same separates hc)
    exact blank last
  rw [flagName_of_spelling marker sigil colon ends spelled,
    withSigil_of_declared sigil plain declared, Config.key_append, Config.key_append, same]

end Lower

end ScriptIR
