import Rewind.Proofs.Layout
import Rewind.Proofs.Matches
import Rewind.Proofs.Parses
import Rewind.Rule.Combinators

namespace Rewind.Grammar.Nesting

open Rewind.Parser

/-- A pair of parentheses around one more level, whose name is given, or nothing. -/
def level (inner : String) : Rule :=
  ((Rule.between (.char '(') (.char ')') (.ref inner)).map (Value.plus 1)).or (.constant (.int 0))

/-- The name stands for a forward parser, and this for what the rule for its levels builds. -/
def Tied (s : Session) (name : String) : Prop :=
  ∃ cell label p, s.env.lookup name = some (.forward cell label) ∧
    s.store.target? cell = some p ∧ (level name).build s.env s.store = (.ok p, s.store)

def charParser (x : Char) : Parser :=
  satisfy (· == x) ("char(" ++ Text.quoted (String.singleton x) ++ ")")

def levelParser (inner : Parser) : Parser :=
  .or ((between (charParser '(') (charParser ')') inner).map fun v => pure (v.plus 1))
    (constant (.int 0))

theorem built_level {env : Env} {name : String} {p : Parser} (bound : env.lookup name = some p)
    (A : Store) : (level name).build env A = (.ok (levelParser p), A) := by
  simp only [level, Rule.or, Rule.map, Rule.build, Rule.lookup, bound]
  rfl

variable {env : Env} {inner : Parser} {c d : Cursor} {A : Store} {xs ys : List Char} {k : Nat}

/-- A level that is not opened matches nothing. -/
theorem eval_level_of_unopened (unopened : Text.Refuses (· == '(') c.rest) :
    (levelParser inner).eval env c A = some (⟨[], .ok (.success (.int 0) c)⟩, A) := by
  have opening : (charParser '(').eval env c A = some (⟨[], .ok (.failure c)⟩, A) :=
    congrFun (eval_satisfy_of_neg unopened) A
  have nothing : ((charParser '(').before inner).eval env c A = some (⟨[], .ok (.failure c)⟩, A) := by
    rw [before, eval_label]
    exact eval_both_of_failed opening rfl
  have unopened : (between (charParser '(') (charParser ')') inner).eval env c A =
      some (⟨[], .ok (.failure c)⟩, A) :=
    eval_both_of_failed (eval_map_of_failed nothing rfl) rfl
  exact eval_option_of_failed (eval_map_of_failed unopened rfl) rfl

/-- What is raised inside a level leaves it. -/
theorem eval_level_of_raised {fault : Fault} (opened : c.rest = '(' :: xs)
    (raised : inner.eval env c.next A = some (⟨[], .error fault⟩, A)) :
    (levelParser inner).eval env c A = some (⟨[], .error fault⟩, A) := by
  have opening : (charParser '(').eval env c A =
      some (⟨[], .ok (.success (.ofChar '(') c.next)⟩, A) := congrFun (eval_char '(' opened) A
  have front : ((charParser '(').before inner).eval env c A = some (⟨[], .error fault⟩, A) := by
    rw [eval_before, Run.bind_of_ok opening, Result.success, if_pos rfl, Run.bind_of_error raised]
    rfl
  have pair : (between (charParser '(') (charParser ')') inner).eval env c A =
      some (⟨[], .error fault⟩, A) := by
    rw [between, eval_followedBy, Run.bind_of_error front]
  have counted : ((between (charParser '(') (charParser ')') inner).map fun v =>
      pure (v.plus 1)).eval env c A = some (⟨[], .error fault⟩, A) := by
    rw [eval_map, Run.bind_of_error pair]
  rw [levelParser, eval_or, Run.bind_of_error counted]

variable (opened : c.rest = '(' :: xs)
  (within : inner.eval env c.next A = some (⟨[], .ok (.success (.int k) d)⟩, A))
include opened within

theorem eval_opened : ((charParser '(').before inner).eval env c A =
    some (⟨[], .ok (.success (.int k) d)⟩, A) := by
  have opening : (charParser '(').eval env c A =
      some (⟨[], .ok (.success (.ofChar '(') c.next)⟩, A) := congrFun (eval_char '(' opened) A
  rw [before, eval_label]
  exact eval_both_of_ok opening rfl within rfl rfl

variable (fits : (Value.int k).writable = true)
include fits

theorem eval_level_of_closed (closed : d.rest = ')' :: ys) : (levelParser inner).eval env c A =
    some (⟨[], (Value.int (k + 1)).asConstant.result.map fun v => .success v d.next⟩, A) := by
  have closing : (charParser ')').eval env d A =
      some (⟨[], .ok (.success (.ofChar ')') d.next)⟩, A) := congrFun (eval_char ')' closed) A
  have front := eval_map_of_ok (eval_opened opened within) rfl rfl fits
  have pair : (between (charParser '(') (charParser ')') inner).eval env c A =
      some (⟨[], .ok (.success (.int k) d.next)⟩, A) :=
    eval_both_of_ok front rfl closing rfl rfl
  rcases (Value.int (k + 1)).asConstant_cases with ⟨more, made⟩ | ⟨-, raised⟩
  · rw [made]
    exact eval_option_of_matched (eval_map_of_ok pair rfl rfl more) rfl
  · have counted : ((between (charParser '(') (charParser ')') inner).map fun v =>
        pure (v.plus 1)).eval env c A = some (⟨[], .error .tooLongToWrite⟩, A) := by
      have refused : (pure ((Value.int k).plus 1) : Act Value) >>= Value.asConstant =
          Logged.raise .tooLongToWrite := raised
      rw [eval_map_of_matched pair rfl]
      simp only [Result.success, refused]
      rfl
    rw [raised, levelParser, eval_or, Run.bind_of_error counted]
    rfl

/-- What was read inside a level that is not closed is given back. -/
theorem eval_level_of_unclosed (unclosed : Text.Refuses (· == ')') d.rest) :
    (levelParser inner).eval env c A = some (⟨[], .ok (.success (.int 0) c)⟩, A) := by
  have closing : (charParser ')').eval env d A = some (⟨[], .ok (.failure d)⟩, A) :=
    congrFun (eval_satisfy_of_neg unclosed) A
  have front := eval_map_of_ok (eval_opened opened within) rfl rfl fits
  have dangling : (between (charParser '(') (charParser ')') inner).eval env c A =
      some (⟨[], .ok (.failure c)⟩, A) :=
    eval_both_of_dangling front rfl closing rfl
  exact eval_option_of_failed (eval_map_of_failed dangling rfl) rfl

omit opened within fits

/-- So many parentheses that open, so many that close, and a text behind them. -/
def nest (n m : Nat) (t : List Char) : List Char :=
  List.replicate n '(' ++ (List.replicate m ')' ++ t)

theorem rest_skip_nest {n m : Nat} {t : List Char} (h : c.rest = nest n m t) (enough : n ≤ m) :
    (c.skip (2 * n)).rest = nest 0 (m - n) t := by
  obtain ⟨k, rfl⟩ := Nat.exists_eq_add_of_le enough
  have pairs : (List.replicate n '(' ++ List.replicate n ')').length = 2 * n := by
    rw [List.length_append, List.length_replicate, List.length_replicate, Nat.two_mul]
  rw [← pairs]
  apply Cursor.rest_skip_of_append
  rw [h, nest, nest, ← List.replicate_append_replicate, Nat.add_sub_cancel_left]
  simp only [List.append_assoc, List.replicate_zero, List.nil_append]

theorem refuses_of_apart {t : List Char} {x : Char} (apart : ∀ y, t.head? = some y → y ≠ x) :
    Text.Refuses (· == x) t := fun y hy => beq_eq_false_iff_ne.2 (apart y hy)

/-- What nested levels come to, unless so many of them are closed that their number cannot be written. -/
def depth (n m : Nat) (c : Cursor) : Except Fault Result :=
  if min n m < Nat.pow 10 Text.digitLimit then
    .ok (if n ≤ m then .success (.int n) (c.skip (2 * n)) else .success (.int 0) c)
  else .error .tooLongToWrite

theorem writable_depth (n : Nat) :
    (Value.int n).writable = true ↔ n < Nat.pow 10 Text.digitLimit := by
  rw [Value.writable_int, Int.natAbs_natCast]

/-- A number of one digit is below the limit. -/
theorem lt_limit {k : Nat} (less : k < 10) : k < Nat.pow 10 Text.digitLimit := by
  have digits : 1 ≤ Text.digitLimit := by decide
  generalize Text.digitLimit = limit at digits ⊢
  exact Nat.lt_of_lt_of_le less (Nat.pow_le_pow_right (n := 10) (by decide) digits)

/-- Where parentheses are nested, all that open are closed, or the first one is not. -/
theorem eval_level_nest (tied : ∀ c, inner.eval env c A = (levelParser inner).eval env c A)
    {t : List Char} (apart : ∀ x, t.head? = some x → x ≠ '(' ∧ x ≠ ')') {n m : Nat}
    (h : c.rest = nest n m t) : inner.eval env c A = some (⟨[], depth n m c⟩, A) := by
  -- On the levels, at every place: the level inside starts one parenthesis further.
  induction n generalizing c with
  | zero =>
    have unopened : Text.Refuses (· == '(') c.rest := by
      rw [h]
      rcases m with _ | m
      · exact refuses_of_apart fun y hy => (apart y hy).1
      · intro y hy
        cases hy
        rfl
    have shallow : min 0 m < Nat.pow 10 Text.digitLimit := by
      rw [Nat.zero_min]
      exact lt_limit (by decide)
    rw [tied, eval_level_of_unopened unopened, depth, if_pos shallow, if_pos (Nat.zero_le m)]
    rfl
  | succ n ih =>
    have opened : c.rest = '(' :: nest n m t := h
    have later : c.next.rest = nest n m t := Cursor.rest_next_of_cons opened
    have within := ih later
    rw [tied]
    by_cases shallow : min n m < Nat.pow 10 Text.digitLimit
    · rw [depth, if_pos shallow] at within
      by_cases enough : n ≤ m
      · rw [if_pos enough] at within
        rw [Nat.min_eq_left enough] at shallow
        have fits := (writable_depth n).2 shallow
        have left := rest_skip_nest later enough
        by_cases more : n + 1 ≤ m
        · have closed : (c.next.skip (2 * n)).rest = ')' :: nest 0 (m - (n + 1)) t := by
            rw [left, show m - n = m - (n + 1) + 1 by omega]
            rfl
          have far : (c.next.skip (2 * n)).next = c.skip (2 * (n + 1)) := by
            rw [Cursor.skip_next]
            rfl
          rw [eval_level_of_closed opened within fits closed, far, depth, Nat.min_eq_left more,
            ← Int.natCast_succ, Value.asConstant_eq]
          by_cases next : n + 1 < Nat.pow 10 Text.digitLimit
          · rw [if_pos next, if_pos ((writable_depth (n + 1)).2 next), if_pos more]
            rfl
          · rw [if_neg next, if_neg fun h => next ((writable_depth (n + 1)).1 h)]
            rfl
        · -- The level inside took all that close.
          have unclosed : Text.Refuses (· == ')') (c.next.skip (2 * n)).rest := by
            rw [left, show m - n = 0 by omega]
            exact refuses_of_apart fun y hy => (apart y hy).2
          have same : min (n + 1) m = n := by omega
          rw [eval_level_of_unclosed opened within fits unclosed, depth, same, if_pos shallow,
            if_neg more]
      · -- The level inside matched nothing, in front of another one that opens.
        rw [if_neg enough] at within
        have unclosed : Text.Refuses (· == ')') c.next.rest := by
          rw [later, show n = n - 1 + 1 by omega]
          intro y hy
          cases hy
          rfl
        have same : min (n + 1) m = min n m := by omega
        have none : (Value.int (0 : Nat)).writable = true :=
          (writable_depth 0).2 (lt_limit (by decide))
        rw [eval_level_of_unclosed opened within none unclosed, depth, same, if_pos shallow,
          if_neg (by omega)]
    · rw [depth, if_neg shallow] at within
      have deep : ¬min (n + 1) m < Nat.pow 10 Text.digitLimit := by
        generalize Nat.pow 10 Text.digitLimit = limit at shallow ⊢
        omega
      rw [eval_level_of_raised opened within, depth, if_neg deep]

/-- In every session in which a name stands for a forward parser that is tied to the rule for its levels:
where `n` parentheses open, `m` close and no other parenthesis follows at once, a parse from the start
matches, writes nothing and leaves all cells. It gives `n` and leaves off behind all of those if there are
enough that close, and it gives zero and reads nothing otherwise. Only in a text so long that the number of
levels closed in it has more digits than can be written, that is raised instead. -/
theorem depth_counted {s : Session} {name : String} (tied : Tied s name) (n m : Nat) {t : List Char}
    (apart : ∀ x, t.head? = some x → x ≠ '(' ∧ x ≠ ')') :
    s.Parses (.ref name) (.start (nest n m t).toArray)
      (⟨[], if min n m < Nat.pow 10 Text.digitLimit then .ok (if n ≤ m then
        .success (.int n) ⟨(nest n m t).toArray, 2 * n⟩ else
          .success (.int 0) ⟨(nest n m t).toArray, 0⟩) else .error .tooLongToWrite⟩, s.store) := by
  obtain ⟨cell, label, p, bound, target, built⟩ := tied
  rw [built_level bound] at built
  cases built
  have follows : ∀ c, (Parser.forward cell label).eval s.env c s.store =
      (levelParser (.forward cell label)).eval s.env c s.store := by
    intro c
    rw [eval_forward, Run.bind_of_ok (Run.target_of_eq_some target _)]
    exact Option.map_id'
  have itself : (Rule.ref name).build s.env s.store = (.ok (.forward cell label), s.store) := by
    simp only [Rule.build, Rule.lookup, bound]
    rfl
  have rest : (Cursor.start (nest n m t).toArray).rest = nest n m t := by
    simp [Cursor.start, Cursor.rest]
  rw [Session.parses_iff, Rule.eval_of_built itself, eval_level_nest follows apart rest, depth,
    Cursor.skip_start]
  rfl

def session : Session := .ofCommands (grammarCommands [("depth", level "depth")])

/-- Of two levels both are closed, and one more parenthesis is left; or only the inner one is, and the
outer one gives back what that has read. -/
theorem depth_counted_two :
    session.Parses (.ref "depth") (.start #['(', '(', ')', ')', ')'])
        (⟨[], .ok (.success (.int 2) ⟨#['(', '(', ')', ')', ')'], 4⟩)⟩, session.store) ∧
      session.Parses (.ref "depth") (.start #['(', '(', ')', 'x'])
        (⟨[], .ok (.success (.int 0) ⟨#['(', '(', ')', 'x'], 0⟩)⟩, session.store) := by
  have tied : Tied session "depth" :=
    ⟨0, "depth", levelParser (.forward 0 "depth"), rfl, rfl, rfl⟩
  have apart : ∀ x, ['x'].head? = some x → x ≠ '(' ∧ x ≠ ')' := by
    intro x hx
    cases hx
    decide
  have two := depth_counted tied 2 3 (t := []) fun _ h => (nomatch h)
  have one := depth_counted tied 2 1 apart
  rw [if_pos (lt_limit (by decide))] at two one
  exact ⟨two, one⟩

end Rewind.Grammar.Nesting
