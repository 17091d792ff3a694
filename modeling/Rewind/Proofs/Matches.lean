import Rewind.Proofs.Equations

namespace Rewind

/-- A match with the value that a computation gives. -/
theorem Run.ofAct_bind_success (x : Act Value) (d : Cursor) (A : Store) :
    (Run.ofAct x >>= fun v => (Pure.pure (.success v d) : Run Result)) A =
      some (⟨x.log.map .note, x.result.map fun v => .success v d⟩, A) := by
  obtain ⟨notes, fault | v⟩ := x
  · rfl
  · have gave : Run.ofAct (⟨notes, .ok v⟩ : Act Value) A = some (⟨notes.map .note, .ok v⟩, A) := rfl
    rw [Run.bind_of_ok gave]
    simp [Pure.pure, Run.pure, Logged.ok, Logged.after, Except.map]

/-- A match is settled wherever it began. -/
theorem Result.settle_success (x : Except Fault Value) (d start : Cursor) :
    (x.map fun v => success v d).map (fun r => r.settle start) = x.map fun v => success v d := by
  rcases x with fault | v
  · rfl
  · rfl

namespace Parser

variable {env : Env} {p q : Parser} {combine : Value → Value → Act Value} {f : Value → Act Value}
  {c : Cursor} {A B D : Store} {log log' : List Event} {r t : Result}

/-- Two parsers that match one after the other, and what is made of their values. -/
theorem eval_both_of_matched (first : p.eval env c A = some (⟨log, .ok r⟩, B)) (ok : r.ok = true)
    (second : q.eval env r.cursor B = some (⟨log', .ok t⟩, D)) (ok' : t.ok = true) :
    (Parser.both p q combine).eval env c A =
      some (⟨log ++ log' ++ (combine r.value t.value).log.map .note,
        (combine r.value t.value).result.map fun v => .success v t.cursor⟩, D) := by
  rw [eval_both, Run.bind_of_ok first, if_pos ok, Run.bind_of_ok second, if_pos ok',
    Run.ofAct_bind_success]
  simp [Logged.after]

theorem eval_both_of_ok {v : Value} (first : p.eval env c A = some (⟨log, .ok r⟩, B))
    (ok : r.ok = true) (second : q.eval env r.cursor B = some (⟨log', .ok t⟩, D)) (ok' : t.ok = true)
    (combined : combine r.value t.value = pure v) :
    (Parser.both p q combine).eval env c A = some (⟨log ++ log', .ok (.success v t.cursor)⟩, D) := by
  rw [eval_both_of_matched first ok second ok', combined]
  simp [Pure.pure, Logged.ok, Except.map]

/-- The second parser is not run if the first one fails. -/
theorem eval_both_of_failed (first : p.eval env c A = some (⟨log, .ok r⟩, B))
    (failed : r.ok = false) :
    (Parser.both p q combine).eval env c A = some (⟨log, .ok (.failure c)⟩, B) := by
  rw [eval_both, Run.bind_of_ok first, failed, if_neg Bool.false_ne_true]
  simp [Pure.pure, Run.pure, Logged.ok, Logged.after]

/-- If the second parser fails, what the first one read is given back, too. -/
theorem eval_both_of_dangling (first : p.eval env c A = some (⟨log, .ok r⟩, B)) (ok : r.ok = true)
    (second : q.eval env r.cursor B = some (⟨log', .ok t⟩, D)) (failed : t.ok = false) :
    (Parser.both p q combine).eval env c A = some (⟨log ++ log', .ok (.failure c)⟩, D) := by
  rw [eval_both, Run.bind_of_ok first, if_pos ok, Run.bind_of_ok second, failed,
    if_neg Bool.false_ne_true]
  simp [Pure.pure, Run.pure, Logged.ok, Logged.after]

theorem eval_before_of_dangling (first : p.eval env c A = some (⟨log, .ok r⟩, B))
    (ok : r.ok = true) (second : q.eval env r.cursor B = some (⟨log', .ok t⟩, D))
    (failed : t.ok = false) :
    (p.before q).eval env c A = some (⟨log ++ log', .ok (.failure c)⟩, D) := by
  rw [before, eval_label]
  exact eval_both_of_dangling first ok second failed

theorem eval_map_of_matched (part : p.eval env c A = some (⟨log, .ok r⟩, B)) (ok : r.ok = true) :
    (Parser.map p f).eval env c A =
      some (⟨log ++ (f r.value >>= Value.asConstant).log.map .note,
        (f r.value >>= Value.asConstant).result.map fun v => .success v r.cursor⟩, B) := by
  rw [eval_map, Run.bind_of_ok part, if_pos ok, Run.ofAct_bind_success]
  simp [Logged.after]

theorem eval_map_of_failed (part : p.eval env c A = some (⟨log, .ok r⟩, B)) (failed : r.ok = false) :
    (Parser.map p f).eval env c A = some (⟨log, .ok (.failure c)⟩, B) := by
  rw [eval_map, Run.bind_of_ok part, failed, if_neg Bool.false_ne_true]
  simp [Pure.pure, Run.pure, Logged.ok, Logged.after]

theorem eval_map_of_ok {v : Value} (part : p.eval env c A = some (⟨log, .ok r⟩, B))
    (ok : r.ok = true) (given : f r.value = pure v) (fits : v.writable = true) :
    (p.map f).eval env c A = some (⟨log, .ok (.success v r.cursor)⟩, B) := by
  have made : f r.value >>= Value.asConstant = pure v := by
    rw [given]
    exact Value.asConstant_of_writable fits
  rw [eval_map_of_matched part ok, made]
  simp [Pure.pure, Logged.ok, Except.map]

/-- A continuation is built where the first parser left off, and run there. -/
theorem eval_andThen_of_matched {next : Result → Rule} {E : Store} {x : Except Fault Result}
    (first : p.eval env c A = some (⟨log, .ok r⟩, B)) (ok : r.ok = true)
    (built : (next r).build env B = (.ok q, D))
    (second : q.eval env r.cursor D = some (⟨log', x⟩, E)) :
    (Parser.andThen p (fun _ => []) next).eval env c A =
      some (⟨log ++ log', x.map fun t => t.settle c⟩, E) := by
  have wrote : Run.writeNotes [] B = some (⟨[], .ok ()⟩, B) := rfl
  rw [eval_andThen, Run.bind_of_ok first, if_pos ok, Run.bind_of_ok wrote,
    Run.bind_of_ok (Run.ofBuild_eq built)]
  rcases x with fault | t
  · simp [Run.settle, second, Logged.after, Except.map]
  · simp [Run.settle, second, Logged.after, Except.map]

theorem eval_andThen_of_failed {notes : Result → List Note} {next : Result → Rule}
    (first : p.eval env c A = some (⟨log, .ok r⟩, B)) (failed : r.ok = false) :
    (Parser.andThen p notes next).eval env c A = some (⟨log, .ok (.failure c)⟩, B) := by
  rw [eval_andThen, Run.bind_of_ok first, failed, if_neg Bool.false_ne_true]
  simp [Pure.pure, Run.pure, Logged.ok, Logged.after]

theorem eval_option_of_matched {default : Value} (part : p.eval env c A = some (⟨log, .ok r⟩, B))
    (ok : r.ok = true) : (p.option default).eval env c A = some (⟨log, .ok r⟩, B) := by
  rw [option, eval_or, Run.bind_of_ok part, if_pos ok]
  simp [Pure.pure, Run.pure, Logged.ok, Logged.after]

theorem eval_option_of_failed {default : Value} (part : p.eval env c A = some (⟨log, .ok r⟩, B))
    (failed : r.ok = false) :
    (p.option default).eval env c A = some (⟨log, .ok (.success default c)⟩, B) := by
  rw [option, eval_or, Run.bind_of_ok part, failed, if_neg Bool.false_ne_true, eval_constant]
  simp [Pure.pure, Run.pure, Logged.ok, Logged.after]

end Parser

end Rewind
