import ScriptIR.Proofs.Types.Tokens

/-!
# Reading types

The reader follows the grammar. `Reader.Has ts` says what the tokens read so far are to a
reader: the open argument lists from the outside in, and the part of a literal at the focus. One
token keeps this, so a reader that may end has read a literal; and it comes through every
literal to the type denoted.
-/
namespace ScriptIR.TypeLiteral

namespace Reader

/-- The reader after a row of tokens, unless it stops at one of them. -/
def run (r : Reader) (ts : List Token) : Option Reader :=
  ts.foldlM step r

@[simp] theorem run_nil (r : Reader) : r.run [] = some r := rfl

theorem run_cons (r : Reader) (t : Token) (ts : List Token) :
    r.run (t :: ts) = (r.step t).bind (run · ts) := rfl

theorem run_append (r : Reader) (ts us : List Token) :
    r.run (ts ++ us) = (r.run ts).bind (run · us) :=
  List.foldlM_append

end Reader

theorem readFrom_eq_ok {r : Reader} {last : Place} {lexemes : List Lexeme} {type : TypeExpr} :
    readFrom r last lexemes = .ok type ↔
      ∃ ts s, AreTokens lexemes ts ∧ r.run ts = some s ∧ s.result? = some type := by
  induction lexemes generalizing r last with
  | nil =>
    simp only [areTokens_nil, exists_and_left, exists_eq_left, Reader.run_nil, Option.some.injEq,
      exists_eq_left']
    unfold readFrom
    cases r.result? <;> simp
  | cons lexeme rest ih =>
    cases lexeme with
    | stray c place => simp [readFrom, not_areTokens_stray]
    | token t place =>
      have unfolded : readFrom r last (.token t place :: rest) = .ok type ↔
          ∃ next, r.step t = some next ∧ readFrom next place rest = .ok type := by
        rw [readFrom]
        cases r.step t <;> simp
      rw [unfolded]
      constructor
      · rintro ⟨next, hstep, hrest⟩
        obtain ⟨ts, s, found, hrun, hs⟩ := ih.mp hrest
        refine ⟨t :: ts, s, areTokens_cons.mpr ⟨ts, rfl, found⟩, ?_, hs⟩
        rw [Reader.run_cons, hstep]
        exact hrun
      · rintro ⟨all, s, found, hrun, hs⟩
        obtain ⟨ts, rfl, others⟩ := areTokens_cons.mp found
        obtain ⟨next, hstep, hnext⟩ := Option.bind_eq_some_iff.mp hrun
        exact ⟨next, hstep, ih.mpr ⟨ts, s, others, hnext, hs⟩⟩

/-! ### What has been read -/

/-- The tokens of the literal at the focus, as far as it has been read. -/
def Focus.Has : Focus → List Token → Prop
  | .start, ts => ts = []
  | .name n, ts => Dotted ts n
  | .dotted n, ts => ∃ us, Dotted us n ∧ ts = us ++ [.dot]
  | .opened n, ts => ∃ us, Dotted us n ∧ ts = us ++ [.opening]
  | .rank element, ts =>
    ∃ us commas, Derives us element ∧ ts = us ++ .opening :: List.replicate commas .comma
  | .complete type, ts => Derives ts type

/-- Arguments that have been read, with a comma behind each. -/
def openTokens (arguments : List (List Token × TypeExpr)) : List Token :=
  arguments.flatMap fun a => a.1 ++ [.comma]

/-- The tokens of an open generic type: its name, and the arguments that have been read. -/
def Frame.Has (f : Frame) (ts : List Token) : Prop :=
  ∃ us arguments, Dotted us f.name ∧ (∀ a ∈ arguments, Derives a.1 a.2) ∧
    f.arguments = arguments.map Prod.snd ∧ ts = us ++ .opening :: openTokens arguments

/-- The tokens of the open generic types, those of the innermost one last. -/
inductive FramesHave : List Frame → List Token → Prop
  | nil : FramesHave [] []
  | cons {frame : Frame} {frames : List Frame} {ts us : List Token} :
      FramesHave frames ts → frame.Has us → FramesHave (frame :: frames) (ts ++ us)

/-- The tokens that have been read when the reader stands where it does. -/
def Reader.Has (r : Reader) (ts : List Token) : Prop :=
  ∃ us vs, FramesHave r.frames us ∧ r.focus.Has vs ∧ ts = us ++ vs

/-- A comma between two arguments stands behind the first or in front of the second one. -/
theorem openTokens_append (arguments : List (List Token × TypeExpr)) (ts : List Token)
    (t : TypeExpr) :
    ∃ us first more, openTokens arguments ++ ts = us ++ moreTokens more ∧
      arguments ++ [(ts, t)] = (us, first) :: more := by
  induction arguments with
  | nil => exact ⟨ts, t, [], by simp [openTokens], rfl⟩
  | cons a arguments ih =>
    obtain ⟨us, first, more, tokens, split⟩ := ih
    refine ⟨a.1, a.2, (us, first) :: more, ?_, by rw [List.cons_append, split]⟩
    rw [openTokens] at tokens ⊢
    rw [List.flatMap_cons, List.append_assoc, List.append_assoc, tokens]
    rfl

/-- A literal that may end at the focus has been read there. -/
theorem Reader.derives_of_type? {r : Reader} {ts : List Token} {type : TypeExpr}
    (h : r.focus.Has ts) (ends : r.type? = some type) : Derives ts type := by
  obtain ⟨focus, frames⟩ := r
  cases focus with
  | name n => exact .plain h (names_iff.mpr (Option.some.inj ends).symm)
  | complete t => exact Option.some.inj ends ▸ h
  | _ => cases ends

section
variable {r s : Reader} {ts : List Token} {t : Token}

/-- Behind an argument, the next one begins or the list is closed. -/
theorem Reader.Has.endArgument (h : r.Has ts) (hstep : r.endArgument t = some s) :
    s.Has (ts ++ [t]) := by
  obtain ⟨us, vs, frames, focus, rfl⟩ := h
  unfold Reader.endArgument at hstep
  split at hstep
  next type frame rest ends hframes =>
    have last := derives_of_type? focus ends
    rw [hframes] at frames
    cases frames with
    | @cons _ _ outer _ outside inside =>
      obtain ⟨name, arguments, dotted, derived, types, rfl⟩ := inside
      cases t with
      | comma =>
        obtain rfl := Option.some.inj hstep
        refine ⟨_, [], .cons outside ⟨name, arguments ++ [(vs, type)], dotted, ?_, ?_, rfl⟩, rfl,
          ?_⟩
        · exact List.forall_mem_append.mpr ⟨derived, List.forall_mem_singleton.mpr last⟩
        · rw [types, List.map_append]
          rfl
        · simp [openTokens]
      | closing =>
        obtain rfl := Option.some.inj hstep
        obtain ⟨first, firstType, more, tokens, split⟩ := openTokens_append arguments vs type
        have all : ∀ a ∈ (first, firstType) :: more, Derives a.1 a.2 :=
          split ▸ List.forall_mem_append.mpr ⟨derived, List.forall_mem_singleton.mpr last⟩
        have named : frame.arguments ++ [type] = firstType :: more.map Prod.snd := by
          rw [types]
          simpa using congrArg (List.map Prod.snd) split
        rw [List.forall_mem_cons] at all
        rw [named]
        refine ⟨outer, _, outside, .generic dotted all.1 all.2, ?_⟩
        rw [← tokens]
        simp
      | _ => cases hstep
  next => cases hstep

theorem Reader.Has.step (h : r.Has ts) (hstep : r.step t = some s) : s.Has (ts ++ [t]) := by
  have whole := h
  obtain ⟨us, vs, frames, focus, rfl⟩ := h
  obtain ⟨place, opened⟩ := r
  rw [List.append_assoc]
  cases place with
  | start =>
    cases t with
    | name n =>
      obtain rfl := Option.some.inj hstep
      obtain rfl : vs = [] := focus
      exact ⟨us, _, frames, .name n, rfl⟩
    | _ => cases hstep
  | name n =>
    cases t with
    | dot =>
      obtain rfl := Option.some.inj hstep
      exact ⟨us, _, frames, ⟨vs, focus, rfl⟩, rfl⟩
    | opening =>
      obtain rfl := Option.some.inj hstep
      exact ⟨us, _, frames, ⟨vs, focus, rfl⟩, rfl⟩
    | _ => exact List.append_assoc us vs _ ▸ whole.endArgument hstep
  | dotted n =>
    obtain ⟨name, dotted, rfl⟩ := focus
    cases t with
    | name m =>
      obtain rfl := Option.some.inj hstep
      exact ⟨us, _, frames, dotted.dot m, by simp⟩
    | _ => cases hstep
  | opened n =>
    obtain ⟨name, dotted, rfl⟩ := focus
    cases t with
    | name m =>
      obtain rfl := Option.some.inj hstep
      refine ⟨_, _, .cons frames ⟨name, [], dotted, by simp, rfl, rfl⟩, .name m, ?_⟩
      simp [openTokens]
    | comma =>
      obtain rfl := Option.some.inj hstep
      exact ⟨us, _, frames, ⟨name, 1, .plain dotted (names_iff.mpr rfl), rfl⟩, by simp⟩
    | closing =>
      obtain rfl := Option.some.inj hstep
      exact ⟨us, _, frames, .array 0 (.plain dotted (names_iff.mpr rfl)), by simp [rankTokens]⟩
    | _ => cases hstep
  | rank element =>
    obtain ⟨array, commas, derived, rfl⟩ := focus
    cases t with
    | comma =>
      obtain rfl := Option.some.inj hstep
      exact ⟨us, _, frames, ⟨array, commas + 1, derived, rfl⟩, by simp [List.replicate_succ']⟩
    | closing =>
      obtain rfl := Option.some.inj hstep
      exact ⟨us, _, frames, derived.array commas, by simp [rankTokens]⟩
    | _ => cases hstep
  | complete type =>
    cases t with
    | opening =>
      obtain rfl := Option.some.inj hstep
      exact ⟨us, _, frames, ⟨vs, 0, focus, rfl⟩, rfl⟩
    | _ => exact List.append_assoc us vs _ ▸ whole.endArgument hstep

theorem Reader.Has.run (h : r.Has ts) {us : List Token} (hrun : r.run us = some s) :
    s.Has (ts ++ us) := by
  induction us generalizing r ts with
  | nil =>
    obtain rfl := Option.some.inj hrun
    rwa [List.append_nil]
  | cons t us ih =>
    obtain ⟨next, hstep, hnext⟩ := Option.bind_eq_some_iff.mp hrun
    have ended := ih (h.step hstep) hnext
    rwa [List.append_assoc] at ended

theorem derives_of_run {type : TypeExpr} (hrun : ({} : Reader).run ts = some s)
    (ends : s.result? = some type) : Derives ts type := by
  have start : ({} : Reader).Has [] := ⟨[], [], .nil, rfl, rfl⟩
  obtain ⟨us, vs, frames, focus, split⟩ := start.run hrun
  unfold Reader.result? at ends
  split at ends
  next closed =>
    rw [List.isEmpty_iff.mp closed] at frames
    cases frames
    rw [List.nil_append, List.nil_append] at split
    exact split ▸ Reader.derives_of_type? focus ends
  next => cases ends

end

/-! ### What can be read -/

namespace Reader

/-- From wherever a literal may start, the tokens lead to a type that may end there. -/
def Leads (ts : List Token) (type : TypeExpr) : Prop :=
  ∀ frames, ∃ r, run ⟨.start, frames⟩ ts = some r ∧ r.frames = frames ∧ r.type? = some type

theorem run_dotted {ts : List Token} {n : String} (h : Dotted ts n) (frames : List Frame) :
    run ⟨.start, frames⟩ ts = some ⟨.name n, frames⟩ := by
  induction h with
  | name n => rfl
  | dot m _ ih =>
    rw [run_append, ih]
    rfl

theorem run_commas (element : TypeExpr) (frames : List Frame) (commas : Nat) :
    run ⟨.rank element, frames⟩ (List.replicate commas .comma ++ [.closing]) =
      some ⟨.complete (.array element), frames⟩ := by
  induction commas with
  | zero => rfl
  | succ commas ih => exact ih

section
variable {r : Reader} {type : TypeExpr} (ends : r.type? = some type)
include ends

/-- Brackets behind a type make an array of it. -/
theorem run_rankTokens (commas : Nat) :
    r.run (rankTokens commas) = some ⟨.complete (.array type), r.frames⟩ := by
  obtain ⟨focus, frames⟩ := r
  cases focus with
  | name n =>
    obtain rfl := Option.some.inj ends
    cases commas with
    | zero => rfl
    | succ commas => exact run_commas (.ofName n) frames commas
  | complete t =>
    obtain rfl := Option.some.inj ends
    exact run_commas t frames commas
  | _ => cases ends

variable {frame : Frame} {frames : List Frame} (inside : r.frames = frame :: frames)
include inside

theorem step_comma :
    r.step .comma = some ⟨.start, ⟨frame.name, frame.arguments ++ [type]⟩ :: frames⟩ := by
  obtain ⟨focus, all⟩ := r
  obtain rfl : all = frame :: frames := inside
  cases focus with
  | name n => exact Option.some.inj ends ▸ rfl
  | complete t => exact Option.some.inj ends ▸ rfl
  | _ => cases ends

theorem step_closing :
    r.step .closing =
      some ⟨.complete (.generic frame.name (frame.arguments ++ [type])), frames⟩ := by
  obtain ⟨focus, all⟩ := r
  obtain rfl : all = frame :: frames := inside
  cases focus with
  | name n => exact Option.some.inj ends ▸ rfl
  | complete t => exact Option.some.inj ends ▸ rfl
  | _ => cases ends

end

/-- Behind the first argument, the others are read up to the end of the list. -/
theorem run_moreTokens {more : List (List Token × TypeExpr)} (h : ∀ a ∈ more, Leads a.1 a.2)
    {r : Reader} {type : TypeExpr} {frame : Frame} {frames : List Frame}
    (ends : r.type? = some type) (inside : r.frames = frame :: frames) :
    r.run (moreTokens more ++ [.closing]) =
      some ⟨.complete (.generic frame.name (frame.arguments ++ type :: more.map Prod.snd)),
        frames⟩ := by
  induction more generalizing r type frame with
  | nil =>
    rw [moreTokens_nil, List.nil_append, run_cons, step_closing ends inside]
    rfl
  | cons a more ih =>
    rw [List.forall_mem_cons] at h
    obtain ⟨next, hnext, hframes, htype⟩ := h.1 (⟨frame.name, frame.arguments ++ [type]⟩ :: frames)
    rw [moreTokens_cons, List.cons_append, List.append_assoc, run_cons, step_comma ends inside,
      Option.bind_some, run_append, hnext, Option.bind_some]
    simpa using ih h.2 htype hframes

theorem leads_of_derives {ts : List Token} {type : TypeExpr} (h : Derives ts type) :
    Leads ts type := by
  induction h with
  | plain dotted names =>
    rw [names_iff.mp names]
    exact fun frames => ⟨_, run_dotted dotted frames, rfl, rfl⟩
  | @generic ts us n first more dotted derived _ ihFirst ihMore =>
    intro frames
    obtain ⟨r, hr, hframes, htype⟩ := ihFirst (⟨n, []⟩ :: frames)
    -- The first argument starts behind the bracket, where brackets of an array could stand as well.
    have opened : run ⟨.opened n, frames⟩ us = some r := by
      obtain ⟨m, rest, rfl⟩ := derived.starts
      exact hr
    refine ⟨⟨.complete (.generic n (first :: more.map Prod.snd)), frames⟩, ?_, rfl, rfl⟩
    have opening : step ⟨.name n, frames⟩ .opening = some ⟨.opened n, frames⟩ := rfl
    rw [run_append, run_dotted dotted, Option.bind_some, run_cons, opening, Option.bind_some,
      List.append_assoc, run_append, opened, Option.bind_some]
    exact run_moreTokens ihMore htype hframes
  | array commas _ ih =>
    intro frames
    obtain ⟨r, hr, hframes, htype⟩ := ih frames
    refine ⟨⟨.complete (.array _), frames⟩, ?_, rfl, rfl⟩
    rw [run_append, hr, Option.bind_some, run_rankTokens htype, hframes]

end Reader

/-- The types that are read from the tokens of a text are those that the grammar derives. -/
theorem readFrom_lex_eq_ok {cs : List Char} {type : TypeExpr} :
    readFrom {} {} (lex cs) = .ok type ↔ ∃ ts, Spells cs ts ∧ Derives ts type := by
  rw [readFrom_eq_ok]
  constructor
  · rintro ⟨ts, r, found, hrun, ends⟩
    exact ⟨ts, (foundSpells cs).fresh {} ts found, derives_of_run hrun ends⟩
  · rintro ⟨ts, spelled, derived⟩
    obtain ⟨r, hrun, hframes, htype⟩ := Reader.leads_of_derives derived []
    refine ⟨ts, r, lexFrom_of_spells spelled derived.apart {}, hrun, ?_⟩
    rw [Reader.result?, hframes]
    exact htype

end ScriptIR.TypeLiteral
