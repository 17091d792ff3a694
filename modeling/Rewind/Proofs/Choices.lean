import Rewind.Proofs.Parses
import Rewind.Rule.Combinators
import Rewind.Rule.Handmade

namespace Rewind

/-- Parsers tried in order at one cursor, all of which fail there, with their records. -/
inductive Refused (env : Env) (c : Cursor) : List Parser → Store → List Event → Store → Prop
  | nil (A : Store) : Refused env c [] A [] A
  | cons {p : Parser} {ps : List Parser} {A B D : Store} {log log' : List Event}
      (first : p.eval env c A = some (⟨log, .ok (.failure c)⟩, B)) (later : Refused env c ps B log' D) :
      Refused env c (p :: ps) A (log ++ log') D

/-- The first of the parsers fail at the cursor, and the one behind them ends so from there. Those behind
that one are not run. -/
inductive Tried (env : Env) (c : Cursor) :
    List Parser → Store → List Event → Except Fault Result → Store → Prop
  | intro {before behind : List Parser} {p : Parser} {A B D : Store} {log log' : List Event}
      {x : Except Fault Result} (refused : Refused env c before A log B)
      (last : p.eval env c B = some (⟨log', x⟩, D)) :
      Tried env c (before ++ p :: behind) A (log ++ log') x D

namespace Parser

/-- Tries parsers in order at one cursor, up to the first that matches. -/
noncomputable def firstOf (env : Env) (c : Cursor) : List Parser → Run Result
  | [] => return .failure c
  | p :: ps => do
    let r ← eval env p c
    if r.ok then return r else firstOf env c ps

variable {env : Env}

theorem eval_fail (name : String) (c : Cursor) :
    eval env (.atom (.fail name)) c = Pure.pure (.failure c) := by
  rw [eval_atom]
  rfl

/-- Where all others fail, a parser is tried as if it were alone. -/
theorem eval_or_else (p : Parser) (c : Cursor) :
    (do
      let r ← eval env p c
      if r.ok then return r else return .failure c) = eval env p c := by
  conv => rhs; rw [← eval_settle, Run.settle_eq_bind]
  congr 1
  funext r
  obtain ⟨v, d, _ | _⟩ := r
  all_goals rfl

theorem firstOf_append (ps qs : List Parser) (c : Cursor) :
    firstOf env c (ps ++ qs) = (do
      let r ← firstOf env c ps
      if r.ok then return r else firstOf env c qs) := by
  induction ps with
  | nil =>
    rw [firstOf, LawfulMonad.pure_bind]
    rfl
  | cons p ps ih =>
    rw [List.cons_append, firstOf, firstOf, LawfulMonad.bind_assoc, ih]
    congr 1
    funext r
    by_cases matched : r.ok = true
    · simp [matched]
    · simp [matched]

theorem eval_foldl_or (p : Parser) (ps : List Parser) (c : Cursor) :
    eval env (ps.foldl or p) c = firstOf env c (p :: ps) := by
  induction ps generalizing p with
  | nil => exact (eval_or_else p c).symm
  | cons q ps ih =>
    rw [List.foldl_cons, ih, firstOf, eval_or, LawfulMonad.bind_assoc, firstOf]
    congr 1
    funext r
    by_cases matched : r.ok = true
    · simp [matched]
    · simp [matched, firstOf]

theorem eval_choice (ps : List Parser) (c : Cursor) : eval env (choice ps) c = firstOf env c ps := by
  cases ps with
  | nil => exact eval_fail _ c
  | cons p ps => exact eval_foldl_or p ps c

variable {p : Parser} {ps : List Parser} {c : Cursor} {A B : Store} {log : List Event}

theorem firstOf_of_matched {v : Value} {d : Cursor}
    (first : p.eval env c A = some (⟨log, .ok (.success v d)⟩, B)) :
    firstOf env c (p :: ps) A = some (⟨log, .ok (.success v d)⟩, B) := by
  rw [firstOf, Run.bind_of_ok first]
  simp [Result.success, Pure.pure, Run.pure, Logged.ok, Logged.after]

theorem firstOf_of_failed (first : p.eval env c A = some (⟨log, .ok (.failure c)⟩, B)) :
    firstOf env c (p :: ps) A =
      (firstOf env c ps B).map fun last => (last.1.after log, last.2) := by
  rw [firstOf, Run.bind_of_ok first]
  simp [Result.failure]

theorem firstOf_of_raised {fault : Fault} (first : p.eval env c A = some (⟨log, .error fault⟩, B)) :
    firstOf env c (p :: ps) A = some (⟨log, .error fault⟩, B) := by
  rw [firstOf, Run.bind_of_error first]

end Parser

variable {env : Env} {p : Parser} {ps : List Parser} {c : Cursor} {A B D : Store}
  {log log' : List Event} {x : Except Fault Result}

namespace Tried

theorem here (last : p.eval env c A = some (⟨log, x⟩, B)) : Tried env c (p :: ps) A log x B :=
  .intro (.nil A) last

theorem later (first : p.eval env c A = some (⟨log, .ok (.failure c)⟩, B))
    (tried : Tried env c ps B log' x D) : Tried env c (p :: ps) A (log ++ log') x D := by
  obtain ⟨refused, last⟩ := tried
  rw [← List.append_assoc]
  exact .intro (.cons first refused) last

end Tried

namespace Refused

/-- Behind parsers that all fail the others are tried. -/
theorem firstOf_append (h : Refused env c ps A log B) (qs : List Parser) :
    Parser.firstOf env c (ps ++ qs) A =
      (Parser.firstOf env c qs B).map fun last => (last.1.after log, last.2) := by
  induction h with
  | nil A => simp [Logged.after_nil]
  | cons first _ ih =>
    rw [List.cons_append, Parser.firstOf_of_failed first, ih, Option.map_map]
    simp [Function.comp_def, Logged.after_after]

/-- How a choice ends: all parsers fail, or one matches or raises when those before it have failed. -/
def Ends (env : Env) (c : Cursor) (ps : List Parser) (A : Store) (log : List Event)
    (x : Except Fault Result) (B : Store) : Prop :=
  match x with
  | .ok ⟨v, d, true⟩ => Tried env c ps A log (.ok (.success v d)) B
  | .ok r => r = .failure c ∧ Refused env c ps A log B
  | .error fault => Tried env c ps A log (.error fault) B

theorem ends_of_firstOf (h : Parser.firstOf env c ps A = some (⟨log, x⟩, B)) :
    Ends env c ps A log x B := by
  induction ps generalizing A log with
  | nil =>
    cases h
    exact ⟨rfl, .nil B⟩
  | cons p ps ih =>
    rcases first : p.eval env c A with _ | ⟨⟨log', fault | ⟨v, d, _ | _⟩⟩, D⟩
    · rw [Parser.firstOf, Run.bind_of_none first] at h
      cases h
    · rw [Parser.firstOf_of_raised first] at h
      cases h
      exact .here first
    · have first := Parser.eq_failure first rfl ▸ first
      rw [Parser.firstOf_of_failed first] at h
      obtain ⟨⟨⟨log'', y⟩, E⟩, later, same⟩ := Option.map_eq_some_iff.1 h
      cases same
      have ends := ih later
      rcases y with fault | ⟨w, e, _ | _⟩
      · exact .later first ends
      · exact ⟨ends.1, .cons first ends.2⟩
      · exact .later first ends
    · rw [Parser.firstOf_of_matched first] at h
      cases h
      exact .here first

theorem Ends.firstOf_eq (h : Ends env c ps A log x B) :
    Parser.firstOf env c ps A = some (⟨log, x⟩, B) := by
  rcases x with fault | ⟨v, d, _ | _⟩
  · obtain ⟨refused, last⟩ := h
    rw [refused.firstOf_append, Parser.firstOf_of_raised last]
    rfl
  · obtain ⟨same, refused⟩ := h
    have ended := refused.firstOf_append []
    rw [List.append_nil, Parser.firstOf] at ended
    rw [ended, same]
    simp [Pure.pure, Run.pure, Logged.ok, Logged.after]
  · obtain ⟨refused, last⟩ := h
    rw [refused.firstOf_append, Parser.firstOf_of_matched last]
    rfl

end Refused

namespace Rule

variable {env : Env}

theorem build_choice (rs : List Rule) :
    (choice rs).build env = (do
      let ps ← rs.mapM (build env)
      return Parser.choice ps) := by
  cases rs with
  | nil => rfl
  | cons r rs =>
    have whole : choice (r :: rs) = rs.foldl (.binary .or) r := rfl
    rw [whole, build_foldl_binary, List.mapM_cons]
    simp only [bind_assoc, pure_bind]
    rfl

theorem eval_choice (rs : List Rule) (c : Cursor) :
    (choice rs).eval env c = (do
      let ps ← Run.ofBuild (rs.mapM (build env))
      Parser.firstOf env c ps) := by
  simp only [eval, build_choice, Run.ofBuild_bind, LawfulMonad.bind_assoc, Run.ofBuild_pure,
    LawfulMonad.pure_bind, Parser.eval_choice]

/-- Both rules are built before the first is run. -/
theorem eval_or (r r' : Rule) (c : Cursor) :
    (r.or r').eval env c = (do
      let p ← Run.ofBuild (r.build env)
      let q ← Run.ofBuild (r'.build env)
      let t ← p.eval env c
      if t.ok then return t else q.eval env c) := by
  simp only [eval, or, build, Binary.apply, Run.ofBuild_bind, LawfulMonad.bind_assoc, Run.ofBuild_pure,
    LawfulMonad.pure_bind, Parser.eval_or]

theorem or_assoc (r r' r'' : Rule) (c : Cursor) :
    ((r.or r').or r'').eval env c = (r.or (r'.or r'')).eval env c := by
  rw [eval_or, eval_or]
  simp only [or, build, Binary.apply, Run.ofBuild_bind, LawfulMonad.bind_assoc, Run.ofBuild_pure,
    LawfulMonad.pure_bind, Parser.eval_or]
  congr 1; funext p
  congr 1; funext q
  congr 1; funext t
  congr 1
  funext u
  by_cases matched : u.ok = true
  · simp [matched]
  · simp [matched]

theorem fail_or (name : String) (r : Rule) (c : Cursor) :
    ((fail name).or r).eval env c = r.eval env c := by
  have made : Run.ofBuild ((fail name).build env) = Pure.pure (.atom (.fail name)) := rfl
  rw [eval_or, made, LawfulMonad.pure_bind, Parser.eval_fail]
  simp only [LawfulMonad.pure_bind, Result.failure, Bool.false_eq_true, if_false]
  rfl

theorem or_fail (name : String) (r : Rule) (c : Cursor) :
    (r.or (fail name)).eval env c = r.eval env c := by
  have made : Run.ofBuild ((fail name).build env) = Pure.pure (.atom (.fail name)) := rfl
  rw [eval_or, made, eval]
  simp only [LawfulMonad.pure_bind, Parser.eval_fail, Parser.eval_or_else]

theorem choice_append (rs rs' : List Rule) (c : Cursor) :
    (choice (rs ++ rs')).eval env c = ((choice rs).or (choice rs')).eval env c := by
  rw [eval_choice, eval_or, build_choice, build_choice, List.mapM_append]
  simp only [Run.ofBuild_bind, LawfulMonad.bind_assoc, Run.ofBuild_pure, LawfulMonad.pure_bind,
    Parser.firstOf_append, Parser.eval_choice]

end Rule

namespace Session

variable {s : Session} {rs : List Rule} {ps : List Parser} {c : Cursor} {A B : Store}
  {log : List Event} {x : Except Fault Result}

/-- A parse of a choice ends as its parsers tried in order do. -/
theorem parses_choice_iff (built : rs.mapM (Rule.build s.env) s.store = (.ok ps, A)) :
    s.Parses (.choice rs) c (⟨log, x⟩, B) ↔ Refused.Ends s.env c ps A log x B := by
  have whole : (Rule.choice rs).build s.env s.store = (.ok (Parser.choice ps), A) := by
    rw [Rule.build_choice, Build.bind_of_ok built]
    rfl
  rw [parses_iff, Rule.eval_of_built whole, Parser.eval_choice]
  exact ⟨Refused.ends_of_firstOf, Refused.Ends.firstOf_eq⟩

/-- It makes no difference how a choice of three is put together, nor whether a rule that always fails is
among its two. Let rules be built into parsers. Their choice matches just where one of them does when all
before it have failed, all at the cursor of the choice, and ends as that one does; it fails, and gives back
the cursor, just where all of them fail; it raises just where one of them does when all before it have
failed. Those behind that one are not run, and the records are those of the parsers that are run, in order.
The choice of two lists together is the choice of the first list or else that of the second. Where two
choices are said to be the same they end in the same fault or result, with the same records in the same
order, and leave the same cells, or neither ends. -/
theorem choice_ordered (s : Session) (c : Cursor) :
    (∀ r r' r'' last, s.Parses ((Rule.or r r').or r'') c last ↔ s.Parses (.or r (.or r' r'')) c last) ∧
    (∀ name r last, (s.Parses (.or (.fail name) r) c last ↔ s.Parses r c last) ∧
      (s.Parses (.or r (.fail name)) c last ↔ s.Parses r c last)) ∧
    (∀ rs ps A, rs.mapM (Rule.build s.env) s.store = (.ok ps, A) →
      (∀ log v d B, s.Parses (.choice rs) c (⟨log, .ok (.success v d)⟩, B) ↔
        Tried s.env c ps A log (.ok (.success v d)) B) ∧
      (∀ log r B, r.ok = false → (s.Parses (.choice rs) c (⟨log, .ok r⟩, B) ↔
        r = .failure c ∧ Refused s.env c ps A log B)) ∧
      ∀ log fault B, s.Parses (.choice rs) c (⟨log, .error fault⟩, B) ↔
        Tried s.env c ps A log (.error fault) B) ∧
    ∀ rs rs' last, s.Parses (.choice (rs ++ rs')) c last ↔
      s.Parses ((Rule.choice rs).or (.choice rs')) c last := by
  refine ⟨fun r r' r'' last => ?_, fun name r last => ⟨?_, ?_⟩,
    fun rs ps A built => ⟨?_, ?_, ?_⟩, fun rs rs' last => ?_⟩
  · rw [parses_iff, parses_iff, Rule.or_assoc]
  · rw [parses_iff, parses_iff, Rule.fail_or]
  · rw [parses_iff, parses_iff, Rule.or_fail]
  · exact fun log v d B => parses_choice_iff built
  · rintro log ⟨v, d, ok⟩ B rfl
    exact parses_choice_iff built
  · exact fun log fault B => parses_choice_iff built
  · rw [parses_iff, parses_iff, Rule.choice_append]

/-- One that fails with a value and further on, one that notes what it tests, a letter, and one that
raises. -/
def alternatives : List Rule :=
  [.scripted ⟨false, .int 7, 2, none⟩ "stumble" none,
    .satisfy (.noted "digit" (.ofBool Text.isDigit)) "digit", .letter,
    .satisfy (.raising "neither") "neither"]

/-- The letter is taken before the last one is tried; a hyphen is left to the last one, which raises; at the
end of the text nothing is tested, and all fail. -/
theorem choice_ordered_alternatives : ∃ ps,
    alternatives.mapM (Rule.build start.env) start.store = (.ok ps, start.store) ∧
    Tried start.env (.start #['x']) ps start.store [.note (.tested "digit" 'x')]
      (.ok (.success (.str "x") ⟨#['x'], 1⟩)) start.store ∧
    Tried start.env (.start #['-']) ps start.store [.note (.tested "digit" '-')]
      (.error (.raised "neither")) start.store ∧
    Refused start.env (.start #[]) ps start.store [] start.store := by
  have built : alternatives.mapM (Rule.build start.env) start.store = (.ok _, start.store) := rfl
  have letter : start.Parses (.choice alternatives) (.start #['x'])
      (⟨[.note (.tested "digit" 'x')], .ok (.success (.str "x") ⟨#['x'], 1⟩)⟩, start.store) :=
    ⟨9, _, fun budget more => step_below more rfl⟩
  have hyphen : start.Parses (.choice alternatives) (.start #['-'])
      (⟨[.note (.tested "digit" '-')], .error (.raised "neither")⟩, start.store) :=
    ⟨9, "", fun budget more => step_below more rfl⟩
  have nothing : start.Parses (.choice alternatives) (.start #[])
      (⟨[], .ok (.failure (.start #[]))⟩, start.store) :=
    ⟨9, _, fun budget more => step_below more rfl⟩
  have ended := fun c => (choice_ordered start c).2.2.1 _ _ _ built
  exact ⟨_, built, ((ended _).1 _ _ _ _).1 letter, ((ended _).2.2 _ _ _).1 hyphen,
    (((ended _).2.1 _ _ _ rfl).1 nothing).2⟩

end Session

end Rewind
