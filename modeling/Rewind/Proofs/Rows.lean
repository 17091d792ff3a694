import Rewind.Proofs.Matches

namespace Rewind

/-- Parsers that all match, one after another, each from where the one before it has left off, with
their records and their values, which can be written. -/
inductive Row (env : Env) :
    List Parser → Cursor → Store → List Event → List Value → Cursor → Store → Prop
  | nil (c : Cursor) (A : Store) : Row env [] c A [] [] c A
  | cons {p : Parser} {ps : List Parser} {c d e : Cursor} {A B D : Store} {log log' : List Event}
      {v : Value} {values : List Value} (first : p.eval env c A = some (⟨log, .ok (.success v d)⟩, B))
      (fits : v.writable = true) (later : Row env ps d B log' values e D) :
      Row env (p :: ps) c A (log ++ log') (v :: values) e D

/-- The first of the parsers match in a row, and the one behind them ends so from where they leave off,
or matches with a value that cannot be written, which is a fault. Those behind that one are not run. -/
inductive RowBreaks (env : Env) :
    List Parser → Cursor → Store → List Event → Cursor → Except Fault Result → Store → Prop
  | intro {before behind : List Parser} {p : Parser} {c d : Cursor} {A B D : Store}
      {log log' : List Event} {values : List Value} {x : Except Fault Result}
      (row : Row env before c A log values d B) (last : p.eval env d B = some (⟨log', x⟩, D)) :
      RowBreaks env (before ++ p :: behind) c A (log ++ log') d x D
  | unwritten {before behind : List Parser} {p : Parser} {c d e : Cursor} {A B D : Store}
      {log log' : List Event} {values : List Value} {v : Value}
      (row : Row env before c A log values d B)
      (last : p.eval env d B = some (⟨log', .ok (.success v e)⟩, D)) (hidden : ¬v.writable = true) :
      RowBreaks env (before ++ p :: behind) c A (log ++ log') d (.error .tooLongToWrite) D

namespace Value

/-- The items of a second list behind those of the first. -/
def append (v w : Value) : Value :=
  match v, w with
  | .list xs, .list ys => .list (xs ++ ys)
  | v, _ => v

/-- The second item of a list. -/
def second : Value → Value
  | .list (_ :: y :: _) => y
  | v => v

theorem append_nil (v : Value) : v.append (.list []) = v := by
  cases v <;> simp [append]

theorem append_cons (v x : Value) (xs : List Value) :
    v.append (.list (x :: xs)) = (v.snoc x).append (.list xs) := by
  cases v <;> simp [append, snoc]

/-- A list whose items can all be written. -/
def Listed (v : Value) : Prop := ∃ vs, v = .list vs ∧ ∀ x ∈ vs, x.writable = true

theorem Listed.writable {v : Value} (h : v.Listed) : v.writable = true := by
  obtain ⟨vs, rfl, fits⟩ := h
  exact writable_list.2 fits

theorem Listed.nil : (Value.list []).Listed := ⟨[], rfl, nofun⟩

theorem Listed.snoc {v x : Value} (h : v.Listed) (fits : x.writable = true) : (v.snoc x).Listed := by
  obtain ⟨vs, rfl, all⟩ := h
  refine ⟨vs ++ [x], rfl, fun y mem => ?_⟩
  rcases List.mem_append.1 mem with old | new
  · exact all y old
  · rw [List.mem_singleton.1 new]
    exact fits

theorem Listed.append {v w : Value} (h : v.Listed) (h' : w.Listed) : (v.append w).Listed := by
  obtain ⟨vs, rfl, all⟩ := h
  obtain ⟨ws, rfl, all'⟩ := h'
  refine ⟨vs ++ ws, rfl, fun x mem => ?_⟩
  rcases List.mem_append.1 mem with mem | mem
  · exact all x mem
  · exact all' x mem

/-- What can be added to such a list is what can be written. -/
theorem Listed.asConstant_snoc {v : Value} (h : v.Listed) (x : Value) :
    (v.snoc x).asConstant = x.asConstant >>= fun x => pure (v.snoc x) := by
  rcases asConstant_cases x with ⟨fits, made⟩ | ⟨hidden, raised⟩
  · rw [made, LawfulMonad.pure_bind, asConstant_of_writable (h.snoc fits).writable]
  · obtain ⟨vs, rfl, -⟩ := h
    have hidden' : ¬((Value.list vs).snoc x).writable = true := by
      intro fits
      have all : ∀ y ∈ vs ++ [x], y.writable = true := writable_list.1 fits
      exact hidden (all x (by simp))
    rw [raised, asConstant_of_not hidden']
    rfl

end Value

theorem Run.Meets.any {α : Type} (x : Run α) :
    x.Meets ⟨fun _ => True, True⟩ (fun _ => True) fun _ => True := by
  intro store _
  rcases x store with _ | ⟨⟨log, fault | a⟩, store'⟩
  · trivial
  · exact ⟨trivial, trivial⟩
  · exact ⟨trivial, trivial⟩

namespace Parser

/-- Runs parsers in order, each from where the one before it has left off, up to the first that fails.
If all match it gives their values, each made a constant before the next one is run, and the cursor
behind the last. -/
noncomputable def inOrder (env : Env) : List Parser → Cursor → Run (Option (List Value × Cursor))
  | [], c => return some ([], c)
  | p :: ps, c => do
    let r ← eval env p c
    if r.ok then
      let v ← Run.ofAct r.value.asConstant
      let rest ← inOrder env ps r.cursor
      return rest.map fun x => (v :: x.1, x.2)
    else return none

/-- A match with the values behind what is listed already, or a failure. -/
def listed (start : Cursor) (v : Value) : Option (List Value × Cursor) → Result
  | some (values, d) => .success (v.append (.list values)) d
  | none => .failure start

/-- What came of a row of parsers put in front of what comes of those behind it. -/
def afterRow (log : List Event) (values : List Value)
    (last : Logged Event (Option (List Value × Cursor)) × Store) :
    Logged Event (Option (List Value × Cursor)) × Store :=
  (⟨log ++ last.1.log, last.1.result.map (Option.map fun x => (values ++ x.1, x.2))⟩, last.2)

theorem afterRow_nil : afterRow [] [] = id := by
  funext last
  obtain ⟨⟨log, fault | _ | x⟩, A⟩ := last
  all_goals rfl

theorem afterRow_afterRow (log log' : List Event) (values values' : List Value) :
    afterRow log values ∘ afterRow log' values' = afterRow (log ++ log') (values ++ values') := by
  funext last
  obtain ⟨⟨log, fault | _ | x⟩, A⟩ := last
  all_goals simp [afterRow, Except.map]

variable {env : Env} {p : Parser} {ps : List Parser} {c d : Cursor} {A B : Store} {log : List Event}
  {v : Value}

/-- Its matches are lists that can be written. -/
def Lists (env : Env) (q : Parser) : Prop :=
  ∀ c, (eval env q c).Meets ⟨fun _ => True, True⟩ (fun _ => True) fun r =>
    r.ok = true → r.value.Listed

theorem Lists.at {q : Parser} {r : Result} (h : q.Lists env)
    (ended : eval env q c A = some (⟨log, .ok r⟩, B)) (matched : r.ok = true) :
    r.value.Listed := by
  have listed := h c A trivial
  rw [ended] at listed
  exact listed.2 matched

theorem Lists.snoc {q : Parser} (h : q.Lists env) (p : Parser) : (q.snoc p).Lists env := by
  intro c
  rw [Parser.snoc, eval_both]
  refine .bind (h c) fun r listed => ?_
  split
  · next matched =>
    refine .bind (.any _) fun t _ => ?_
    split
    · rw [(listed matched).asConstant_snoc, Run.ofAct_bind, LawfulMonad.bind_assoc]
      refine .bind (P := fun x => x.writable = true) (.ofAct (fun _ _ => trivial) ?_) fun x fits => ?_
      · exact fun x made => Value.writable_of_asConstant made
      · exact .pure fun _ => (listed matched).snoc fits
    · exact .pure nofun
  · exact .pure nofun

theorem Lists.constant_nil : (constant (.list [])).Lists env := by
  intro c
  rw [eval_constant]
  exact .pure fun _ => .nil

/-- The values are listed from the left, each parser after all those before it. -/
theorem eval_foldl_snoc {q : Parser} (lists : q.Lists env) (ps : List Parser) (c : Cursor) :
    eval env (ps.foldl snoc q) c = (do
      let r ← eval env q c
      if r.ok then
        let rest ← inOrder env ps r.cursor
        return listed c r.value rest
      else return .failure c) := by
  induction ps generalizing q with
  | nil =>
    simp only [inOrder, LawfulMonad.pure_bind, listed, Value.append_nil, List.foldl_nil]
    -- Nothing is left to run; a match of what is listed so far stays one, a failure gives back `c`.
    conv => lhs; rw [← eval_settle, Run.settle_eq_bind]
    congr 1
    funext r
    obtain ⟨v, d, _ | _⟩ := r
    all_goals rfl
  | cons p ps ih =>
    rw [List.foldl_cons, ih (lists.snoc p), snoc, eval_both, LawfulMonad.bind_assoc]
    funext A
    refine Run.bind_congr_at rfl fun log r B ended => ?_
    by_cases matched : r.ok = true
    · simp only [matched, if_true, inOrder, LawfulMonad.bind_assoc,
        (lists.at ended matched).asConstant_snoc, Run.ofAct_bind, Run.ofAct_pure]
      refine congrFun ?_ B
      congr 1
      funext t
      by_cases matched' : t.ok = true
      · simp only [matched', if_true, LawfulMonad.pure_bind, LawfulMonad.bind_assoc, Result.success]
        congr 1
        funext v
        congr 1
        funext rest
        obtain _ | ⟨values, d⟩ := rest
        · rfl
        · exact congrArg (fun v => Pure.pure (Result.success v d)) (r.value.append_cons _ _).symm
      · simp [matched', Result.failure, listed]
    · simp [matched, Result.failure]

theorem eval_sequence (ps : List Parser) (c : Cursor) :
    eval env (sequence ps) c = (do
      let rest ← inOrder env ps c
      return listed c (.list []) rest) := by
  rw [sequence, eval_foldl_snoc .constant_nil, eval_constant, LawfulMonad.pure_bind, Result.success,
    if_pos rfl]

theorem lists_sequence (ps : List Parser) : (sequence ps).Lists env := by
  have folds : ∀ q : Parser, q.Lists env → (ps.foldl snoc q).Lists env := by
    induction ps with
    | nil => exact fun _ h => h
    | cons p ps ih => exact fun q h => ih _ (h.snoc p)
  exact folds _ .constant_nil

/-- A sequence behind another one. -/
theorem eval_sequence_append (ps qs : List Parser) (c : Cursor) :
    eval env (sequence (ps ++ qs)) c = (do
      let r ← eval env (sequence ps) c
      if r.ok then
        let t ← eval env (sequence qs) r.cursor
        return if t.ok then .success (r.value.append t.value) t.cursor else .failure c
      else return .failure c) := by
  have behind : sequence (ps ++ qs) = qs.foldl snoc (sequence ps) := by
    rw [sequence, sequence, List.foldl_append]
  rw [behind, eval_foldl_snoc (lists_sequence ps)]
  congr 1
  funext r
  congr 1
  rw [eval_sequence, LawfulMonad.bind_assoc]
  congr 1
  funext rest
  obtain _ | ⟨values, d⟩ := rest
  all_goals rfl

theorem inOrder_of_matched (first : p.eval env c A = some (⟨log, .ok (.success v d)⟩, B))
    (fits : v.writable = true) :
    inOrder env (p :: ps) c A = (inOrder env ps d B).map (afterRow log [v]) := by
  rw [inOrder, Run.bind_of_ok first, Result.success, if_pos rfl, Run.ofAct_asConstant fits,
    LawfulMonad.pure_bind, Run.bind_pure_at, Option.map_map]
  rfl

theorem inOrder_of_unwritten (first : p.eval env c A = some (⟨log, .ok (.success v d)⟩, B))
    (hidden : ¬v.writable = true) :
    inOrder env (p :: ps) c A = some (⟨log, .error .tooLongToWrite⟩, B) := by
  rw [inOrder, Run.bind_of_ok first, Result.success, if_pos rfl, Run.ofAct_asConstant_of_not hidden]
  simp [Run.raise_bind, Run.raise, Logged.raise, Logged.after]

theorem inOrder_of_failed (first : p.eval env c A = some (⟨log, .ok (.failure c)⟩, B)) :
    inOrder env (p :: ps) c A = some (⟨log, .ok none⟩, B) := by
  rw [inOrder, Run.bind_of_ok first]
  simp [Result.failure, Pure.pure, Run.pure, Logged.ok, Logged.after]

theorem inOrder_of_raised {fault : Fault} (first : p.eval env c A = some (⟨log, .error fault⟩, B)) :
    inOrder env (p :: ps) c A = some (⟨log, .error fault⟩, B) := by
  rw [inOrder, Run.bind_of_error first]

end Parser

variable {env : Env} {p : Parser} {ps : List Parser} {c d e : Cursor} {A B D : Store}
  {log log' : List Event} {v : Value} {values : List Value} {x : Except Fault Result}

namespace RowBreaks

theorem here (last : p.eval env c A = some (⟨log, x⟩, B)) : RowBreaks env (p :: ps) c A log c x B :=
  .intro (.nil c A) last

theorem here_unwritten (last : p.eval env c A = some (⟨log, .ok (.success v d)⟩, B))
    (hidden : ¬v.writable = true) :
    RowBreaks env (p :: ps) c A log c (.error .tooLongToWrite) B :=
  .unwritten (.nil c A) last hidden

theorem later (first : p.eval env c A = some (⟨log, .ok (.success v d)⟩, B))
    (fits : v.writable = true) (breaks : RowBreaks env ps d B log' e x D) :
    RowBreaks env (p :: ps) c A (log ++ log') e x D := by
  cases breaks with
  | intro row last =>
    rw [← List.append_assoc]
    exact .intro (.cons first fits row) last
  | unwritten row last hidden =>
    rw [← List.append_assoc]
    exact .unwritten (.cons first fits row) last hidden

end RowBreaks

namespace Row

theorem of_matched {r : Result} (first : p.eval env c A = some (⟨log, .ok r⟩, B))
    (matched : r.ok = true) (fits : r.value.writable = true)
    (later : Row env ps r.cursor B log' values e D) :
    Row env (p :: ps) c A (log ++ log') (r.value :: values) e D := by
  obtain ⟨v, d, ok⟩ := r
  obtain rfl : ok = true := matched
  exact .cons first fits later

theorem length_eq (h : Row env ps c A log values d B) : values.length = ps.length := by
  induction h with
  | nil => rfl
  | cons _ _ _ ih => rw [List.length_cons, ih, List.length_cons]

/-- Behind parsers that match in a row the others run from where these leave off. -/
theorem inOrder_append (h : Row env ps c A log values d B) (qs : List Parser) :
    Parser.inOrder env (ps ++ qs) c A =
      (Parser.inOrder env qs d B).map (Parser.afterRow log values) := by
  induction h with
  | nil c A => rw [List.nil_append, Parser.afterRow_nil, Option.map_id, id]
  | cons first fits _ ih =>
    rw [List.cons_append, Parser.inOrder_of_matched first fits, ih, Option.map_map,
      Parser.afterRow_afterRow]
    rfl

theorem inOrder_eq (h : Row env ps c A log values d B) :
    Parser.inOrder env ps c A = some (⟨log, .ok (some (values, d))⟩, B) := by
  have ended := h.inOrder_append []
  rw [List.append_nil, Parser.inOrder] at ended
  simpa [Pure.pure, Run.pure, Logged.ok, Except.map, Parser.afterRow] using ended

/-- A row is a match of the sequence. -/
theorem eval_sequence (h : Row env ps c A log values d B) :
    (Parser.sequence ps).eval env c A = some (⟨log, .ok (.success (.list values) d)⟩, B) := by
  rw [Parser.eval_sequence, Run.bind_pure_at, h.inOrder_eq]
  rfl

/-- How parsers in order end: all of them match, or one fails or raises. -/
def Ends (env : Env) (ps : List Parser) (c : Cursor) (A : Store) (log : List Event)
    (x : Except Fault (Option (List Value × Cursor))) (B : Store) : Prop :=
  match x with
  | .ok (some (values, d)) => Row env ps c A log values d B
  | .ok none => ∃ d, RowBreaks env ps c A log d (.ok (.failure d)) B
  | .error fault => ∃ d, RowBreaks env ps c A log d (.error fault) B

theorem ends_of_inOrder {x : Except Fault (Option (List Value × Cursor))}
    (h : Parser.inOrder env ps c A = some (⟨log, x⟩, B)) : Ends env ps c A log x B := by
  induction ps generalizing c A log x with
  | nil =>
    cases h
    exact .nil c B
  | cons p ps ih =>
    rcases first : p.eval env c A with _ | ⟨⟨log', fault | ⟨v, d, _ | _⟩⟩, D⟩
    · rw [Parser.inOrder, Run.bind_of_none first] at h
      cases h
    · rw [Parser.inOrder_of_raised first] at h
      cases h
      exact ⟨c, .here first⟩
    · have first := Parser.eq_failure first rfl ▸ first
      rw [Parser.inOrder_of_failed first] at h
      cases h
      exact ⟨c, .here first⟩
    · by_cases fits : v.writable = true
      · rw [Parser.inOrder_of_matched first fits] at h
        obtain ⟨⟨⟨log'', y⟩, E⟩, later, same⟩ := Option.map_eq_some_iff.1 h
        cases same
        have ends := ih later
        rcases y with fault | _ | ⟨values, e⟩
        · exact ends.imp fun e breaks => breaks.later first fits
        · exact ends.imp fun e breaks => breaks.later first fits
        · exact .cons first fits ends
      · rw [Parser.inOrder_of_unwritten first fits] at h
        cases h
        exact ⟨c, .here_unwritten first fits⟩

theorem Ends.inOrder_eq {x : Except Fault (Option (List Value × Cursor))}
    (h : Ends env ps c A log x B) : Parser.inOrder env ps c A = some (⟨log, x⟩, B) := by
  rcases x with fault | _ | ⟨values, d⟩
  · obtain ⟨d, breaks⟩ := h
    cases breaks with
    | intro row last =>
      rw [row.inOrder_append, Parser.inOrder_of_raised last]
      rfl
    | unwritten row last hidden =>
      rw [row.inOrder_append, Parser.inOrder_of_unwritten last hidden]
      rfl
  · obtain ⟨d, breaks⟩ := h
    cases breaks with
    | intro row last =>
      rw [row.inOrder_append, Parser.inOrder_of_failed last]
      rfl
  · exact Row.inOrder_eq h

end Row

namespace Parser

/-- A match there has a value that can be written. -/
def FitsAt (env : Env) (p : Parser) (c : Cursor) (A : Store) : Prop :=
  ∀ log r B, eval env p c A = some (⟨log, .ok r⟩, B) → r.ok = true → r.value.writable = true

/-- A body between two others is the second of three in sequence, if the values of these two can be
written: they are dropped without being made constants. -/
theorem eval_sequence_second {opening closing body : Parser} (opens : opening.FitsAt env c A)
    (closes : ∀ log values d B, Row env [opening, body] c A log values d B → closing.FitsAt env d B) :
    eval env ((sequence [opening, body, closing]).map fun v => Pure.pure v.second) c A =
      eval env (between opening closing body) c A := by
  simp only [between, eval_followedBy, before, eval_both, eval_label, eval_map, eval_sequence,
    inOrder, LawfulMonad.bind_assoc, LawfulMonad.pure_bind, Run.ofAct_pure]
  refine Run.bind_congr_at rfl fun log r B first => ?_
  by_cases matched : r.ok = true
  · have fits := opens log r B first matched
    simp only [matched, if_true, Run.ofAct_asConstant fits, LawfulMonad.bind_assoc,
      LawfulMonad.pure_bind]
    refine Run.bind_congr_at rfl fun log' t D second => ?_
    by_cases matched' : t.ok = true
    · simp only [matched', if_true, LawfulMonad.bind_assoc, LawfulMonad.pure_bind, Result.success]
      by_cases fits' : t.value.writable = true
      · simp only [Run.ofAct_asConstant fits', LawfulMonad.pure_bind]
        refine Run.bind_congr_at rfl fun log'' u E third => ?_
        have row := Row.of_matched first matched fits (.of_matched second matched' fits' (.nil _ _))
        by_cases matched'' : u.ok = true
        · have fits'' := closes _ _ _ _ row log'' u E third matched''
          simp only [matched'', if_true, Run.ofAct_asConstant fits'', listed, LawfulMonad.pure_bind,
            Option.map_some, Result.success]
          rw [Value.append, List.nil_append, Value.second, Run.ofAct_asConstant fits',
            LawfulMonad.pure_bind]
          rfl
        · simp [matched'', listed, Result.failure]
      · simp only [Run.ofAct_asConstant_of_not fits', Run.raise_bind]
    · simp [matched', listed, Result.failure]
  · simp [matched, listed, Result.failure]

end Parser

end Rewind
