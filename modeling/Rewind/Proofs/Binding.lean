import Rewind.Proofs.Parses
import Rewind.Rule.Combinators

namespace Rewind

/-- A failure that is settled twice gives back the outer cursor. -/
theorem Result.settle_within (inner outer : Cursor) (r : Result) :
    (r.settle inner).settle outer = r.settle outer := by
  cases h : r.ok <;> simp [settle, failure, h]

/-- A settled match is made anew of its value and its cursor. -/
theorem Result.settle_eq (start : Cursor) (r : Result) :
    r.settle start = if r.ok then .success r.value r.cursor else .failure start := by
  obtain ⟨v, d, _ | _⟩ := r
  · rfl
  · rfl

namespace Run

variable {α : Type}

theorem settle_within (inner outer : Cursor) (x : Run Result) :
    (x.settle inner).settle outer = x.settle outer := by
  simp only [settle_eq_bind, LawfulMonad.bind_assoc, LawfulMonad.pure_bind, Result.settle_within]

/-- Going on after a match, and failing otherwise. -/
theorem settle_matched (start : Cursor) (x : Run Result) (f : Result → Run Result) :
    (x.settle start >>= fun r => if r.ok then f r else Pure.pure (.failure start)) =
      x >>= fun r => if r.ok then f r else Pure.pure (.failure start) := by
  simp only [settle_eq_bind, LawfulMonad.bind_assoc, LawfulMonad.pure_bind]
  congr 1
  funext r
  cases matched : r.ok
  · rw [Result.settle_of_not_ok matched]
    rfl
  · rw [Result.settle_of_ok matched, matched]

/-- A continuation writes its notes and gives a rule, which is then built. -/
theorem writeNotes_bind_ofBuild (x : Act Rule) (env : Env) (f : Parser → Run α) :
    (do
      writeNotes x.log
      let q ← ofBuild ((Rule.ofExcept x.result).build env)
      f q) = (do
      let r ← ofAct x
      let q ← ofBuild (r.build env)
      f q) := by
  funext store
  have wrote : writeNotes x.log store = some (⟨x.log.map .note, .ok ()⟩, store) := rfl
  rw [bind_of_ok wrote]
  obtain ⟨log, fault | r⟩ := x
  · have raised : ofAct (⟨log, .error fault⟩ : Act Rule) store =
        some (⟨log.map .note, .error fault⟩, store) := rfl
    have refused : ofBuild ((Rule.raise fault).build env) store = some (⟨[], .error fault⟩, store) :=
      rfl
    rw [bind_of_error raised]
    simp only [Rule.ofExcept, bind_of_error refused, Option.map_some, Logged.after, List.append_nil]
  · have given : ofAct (⟨log, .ok r⟩ : Act Rule) store = some (⟨log.map .note, .ok r⟩, store) := rfl
    rw [bind_of_ok given]
    rfl

end Run

namespace Value

/-- Values that can be written are made constants as they are. -/
theorem bind_asConstant {x : Act Value} (fits : ∀ y, x.result = .ok y → y.writable = true) :
    x >>= asConstant = x := by
  obtain ⟨log, fault | y⟩ := x
  · rfl
  · show (asConstant y).after log = _
    rw [asConstant_of_writable (fits y rfl)]
    simp [Pure.pure, Logged.ok, Logged.after]

theorem bind_asConstant_of_not {x : Act Value} {y : Value} (gave : x.result = .ok y)
    (long : ¬y.writable = true) : x >>= asConstant = ⟨x.log, .error .tooLongToWrite⟩ := by
  obtain ⟨log, _⟩ := x
  cases gave
  show (asConstant y).after log = _
  rw [asConstant_of_not long]
  simp [Logged.raise, Logged.after]

end Value

namespace Rule

variable {env : Env}

theorem eval_settle (env : Env) (r : Rule) (c : Cursor) : (r.eval env c).settle c = r.eval env c := by
  simp only [eval, Run.settle_bind, Parser.eval_settle]

theorem build_constant {v : Value} (fits : v.writable = true) :
    (constant v).build env = Pure.pure (.constant v) := by
  simp [constant, build, Atom.refusal?, Value.refusal?_of_writable fits, checked, Parser.constant]

theorem eval_constant (v : Value) (c : Cursor) :
    (constant v).eval env c = Run.ofAct v.asConstant >>= fun v => Pure.pure (.success v c) := by
  rcases v.asConstant_cases with ⟨fits, made⟩ | ⟨long, made⟩
  · rw [eval_of_pure (build_constant fits), Parser.eval_constant, made, Run.ofAct_pure,
      LawfulMonad.pure_bind]
  · have refused : (constant v).build env = throw .tooLongToWrite := by
      simp [constant, build, Atom.refusal?, Value.refusal?, long, checked]
    funext store
    rw [eval, refused, made]
    rfl

/-- What follows runs where the first match leaves off; if it fails, all of it is given back. -/
theorem eval_bind (m : Rule) (f : Continuation) (c : Cursor) :
    (m.bind f).eval env c = (do
      let r ← m.eval env c
      if r.ok then
        let q ← Run.ofAct (f r.value)
        (q.eval env r.cursor).settle c
      else return .failure c) := by
  simp only [bind, bindPart, eval, build, Run.ofBuild_bind, LawfulMonad.bind_assoc]
  congr 1
  funext p
  simp only [Run.ofBuild_pure, LawfulMonad.pure_bind, Parser.eval_andThen, Run.writeNotes_bind_ofBuild,
    Run.settle_bind]

/-- The changed value goes on as a constant. -/
theorem eval_map (m : Rule) (f : Value → Act Value) (c : Cursor) :
    (unary (.map f) m).eval env c = (do
      let r ← m.eval env c
      if r.ok then
        let v ← Run.ofAct (f r.value >>= Value.asConstant)
        return .success v r.cursor
      else return .failure c) := by
  rw [eval_unary rfl, eval, LawfulMonad.bind_assoc]
  congr 1
  funext p
  rw [Unary.apply, Parser.eval_map]

theorem eval_anyChar {c : Cursor} {x : Char} (there : c.char? = some x) :
    anyChar.eval env c = Pure.pure (.success (.ofChar x) c.next) := by
  have built : anyChar.build env = Pure.pure (.satisfy (fun _ => true) "any_char") := rfl
  have read : Run.ofAct ((Atom.satisfy (fun _ => Pure.pure true) "any_char").run c) =
      Pure.pure (.success (.ofChar x) c.next) := by
    simp only [Atom.run, there]
    rfl
  rw [eval_of_pure built, Parser.satisfy, Parser.eval_atom, read, Run.settle_pure]
  rfl

theorem constant_bind (v : Value) (f : Continuation) (c : Cursor) :
    ((constant v).bind f).eval env c =
      Run.ofAct (v.asConstant >>= f) >>= fun q => q.eval env c := by
  rw [eval_bind, eval_constant, Run.ofAct_bind]
  simp only [LawfulMonad.bind_assoc, LawfulMonad.pure_bind, Result.success, if_true, eval_settle]

theorem bind_constant (m : Rule) (c : Cursor) :
    (m.bind fun v => Pure.pure (constant v)).eval env c = (do
      let r ← m.eval env c
      if r.ok then
        let v ← Run.ofAct r.value.asConstant
        return .success v r.cursor
      else return .failure c) := by
  rw [eval_bind]
  congr 1
  funext r
  simp only [Run.ofAct_pure, LawfulMonad.pure_bind, eval_constant, Run.settle_bind, Run.settle_pure,
    Result.settle_of_ok, Result.success]

theorem bind_bind (m : Rule) (f g : Continuation) (c : Cursor) :
    ((m.bind f).bind g).eval env c =
      (m.bind fun v => do
        let q ← f v
        return q.bind g).eval env c := by
  rw [eval_bind, eval_bind (f := f), eval_bind, LawfulMonad.bind_assoc]
  congr 1
  funext r
  by_cases matched : r.ok = true
  · simp only [matched, if_true, Run.ofAct_bind, Run.ofAct_pure, LawfulMonad.bind_assoc,
      LawfulMonad.pure_bind, eval_bind, Run.settle_bind]
    congr 1
    funext q
    -- On the left a failure of what follows is given back to `c` at once, on the right in two steps.
    rw [Run.settle_matched]
    congr 1
    funext r'
    by_cases matched' : r'.ok = true
    · simp only [matched', if_true, Run.settle_bind, Run.settle_within]
    · simp only [matched']
      rfl
  · simp only [matched]
    rfl

theorem map_map (m : Rule) (f g : Value → Act Value) (c : Cursor) :
    (unary (.map g) (.unary (.map f) m)).eval env c =
      (unary (.map fun v => f v >>= Value.asConstant >>= g) m).eval env c := by
  rw [eval_map, eval_map, eval_map, LawfulMonad.bind_assoc]
  congr 1
  funext r
  by_cases matched : r.ok = true
  · simp only [matched, if_true, Run.ofAct_bind, LawfulMonad.bind_assoc, LawfulMonad.pure_bind,
      Result.success]
  · simp only [matched]
    rfl

end Rule

namespace Session

variable {s : Session} {rule : Rule} {c : Cursor}

/-- A parse of the rule that a continuation gives ends so. Its notes come first, and if it raises,
nothing is built. -/
def ParsesGiven (s : Session) (given : Act Rule) (c : Cursor) (last : Logged Event Result × Store) :
    Prop :=
  match given.result with
  | .error fault => last = (⟨given.log.map .note, .error fault⟩, s.store)
  | .ok rule => ∃ ended, s.Parses rule c ended ∧ last = (ended.1.after (given.log.map .note), ended.2)

theorem parsesGiven_iff {given : Act Rule} {last : Logged Event Result × Store} :
    s.ParsesGiven given c last ↔
      (Run.ofAct given >>= fun q => q.eval s.env c) s.store = some last := by
  obtain ⟨notes, fault | rule⟩ := given
  · have raised : Run.ofAct (⟨notes, .error fault⟩ : Act Rule) s.store =
        some (⟨notes.map .note, .error fault⟩, s.store) := rfl
    rw [Run.bind_of_error raised, Option.some.injEq]
    exact eq_comm
  · have gave : Run.ofAct (⟨notes, .ok rule⟩ : Act Rule) s.store =
        some (⟨notes.map .note, .ok rule⟩, s.store) := rfl
    rw [Run.bind_of_ok gave, Option.map_eq_some_iff]
    simp only [ParsesGiven, parses_iff, eq_comm]

/-- What the parse gives, if it matches, has a property. -/
def Gives (s : Session) (m : Rule) (c : Cursor) (P : Value → Prop) : Prop :=
  ∀ log r A, s.Parses m c (⟨log, .ok r⟩, A) → r.ok = true → P r.value

/-- A match whose value cannot be made a constant. -/
theorem eval_refused {m : Rule} {x : Result → Act Value} {log : List Event} {notes : List Note}
    {r : Result} {A : Store} (ended : s.Parses m c (⟨log, .ok r⟩, A)) (ok : r.ok = true)
    (refused : x r = ⟨notes, .error .tooLongToWrite⟩) :
    (m.eval s.env c >>= fun r => if r.ok then
        Run.ofAct (x r) >>= fun v => pure (Result.success v r.cursor)
      else pure (Result.failure c)) s.store =
      some (⟨log ++ notes.map .note, .error .tooLongToWrite⟩, A) := by
  have raised : Run.ofAct (x r) A = some (⟨notes.map .note, .error .tooLongToWrite⟩, A) := by
    rw [refused]
    rfl
  rw [Run.bind_of_ok (parses_iff.1 ended), if_pos ok, Run.bind_of_error raised]
  rfl

/-- In every session, with every parser `m`, value `v` and continuations, and at every cursor: to go on
with a constant is to parse what the continuation gives for it; to be followed by a constant changes
nothing; it does not matter how two continuations, or two maps, are put together. Each pair ends in the
same fault or result, with the same records in the same order, and leaves the same cells, or neither
ends. But a constant is made of a value that can be written, and so it is between two maps; of others it
is refused. -/
theorem bind_laws (s : Session) (m : Rule) (v : Value) (f g : Continuation)
    (h k : Value → Act Value) (c : Cursor) (last : Logged Event Result × Store) :
    (v.writable = true → (s.Parses ((Rule.constant v).bind f) c last ↔ s.ParsesGiven (f v) c last)) ∧
      (¬v.writable = true →
        (s.Parses ((Rule.constant v).bind f) c last ↔ last = (⟨[], .error .tooLongToWrite⟩, s.store))) ∧
      (s.Gives m c (fun x => x.writable = true) →
        (s.Parses (m.bind fun x => pure (.constant x)) c last ↔ s.Parses m c last)) ∧
      (∀ log r A, s.Parses m c (⟨log, .ok r⟩, A) → r.ok = true → ¬r.value.writable = true →
        (s.Parses (m.bind fun x => pure (.constant x)) c last ↔
          last = (⟨log, .error .tooLongToWrite⟩, A))) ∧
      (s.Parses ((m.bind f).bind g) c last ↔
        s.Parses (m.bind fun x => do
          let q ← f x
          return q.bind g) c last) ∧
      (s.Gives m c (fun x => ∀ y, (h x).result = .ok y → y.writable = true) →
        (s.Parses (.unary (.map k) (.unary (.map h) m)) c last ↔
          s.Parses (.unary (.map fun x => do
            let y ← h x
            k y) m) c last)) ∧
      ∀ log r A y, s.Parses m c (⟨log, .ok r⟩, A) → r.ok = true → (h r.value).result = .ok y →
        ¬y.writable = true → (s.Parses (.unary (.map k) (.unary (.map h) m)) c last ↔
          last = (⟨log ++ (h r.value).log.map .note, .error .tooLongToWrite⟩, A)) := by
  refine ⟨fun fits => ?_, fun long => ?_, fun fits => ?_, fun log r A ended ok long => ?_, ?_,
    fun fits => ?_, fun log r A y ended ok gave long => ?_⟩
  · rw [parses_iff, Rule.constant_bind, Value.asConstant_of_writable fits, LawfulMonad.pure_bind,
      parsesGiven_iff]
  · rw [parses_iff, Rule.constant_bind, Value.asConstant_of_not long]
    exact Option.some_inj.trans eq_comm
  · have settled := (congrFun (Rule.eval_settle s.env m c) s.store).symm
    rw [Run.settle_eq_bind] at settled
    rw [parses_iff, parses_iff, Rule.bind_constant, settled]
    refine Eq.congr_left (Run.bind_congr_at rfl fun log r A ended => ?_)
    rw [Result.settle_eq]
    by_cases ok : r.ok = true
    · rw [if_pos ok, if_pos ok, Value.asConstant_of_writable (fits log r A (parses_iff.2 ended) ok),
        Run.ofAct_pure, LawfulMonad.pure_bind]
    · rw [if_neg ok, if_neg ok]
  · rw [parses_iff, Rule.bind_constant,
      eval_refused (x := fun r => r.value.asConstant) ended ok (Value.asConstant_of_not long)]
    simp only [List.map_nil, List.append_nil]
    exact Option.some_inj.trans eq_comm
  · rw [parses_iff, parses_iff, Rule.bind_bind]
  · rw [parses_iff, parses_iff, Rule.map_map, Rule.eval_map, Rule.eval_map]
    refine Eq.congr_left (Run.bind_congr_at rfl fun log r A ended => ?_)
    by_cases ok : r.ok = true
    · rw [if_pos ok, if_pos ok, Value.bind_asConstant (fits log r A (parses_iff.2 ended) ok)]
    · rw [if_neg ok, if_neg ok]
  · have refused : h r.value >>= Value.asConstant >>= k >>= Value.asConstant =
        ⟨(h r.value).log, .error .tooLongToWrite⟩ := by
      rw [Value.bind_asConstant_of_not gave long]
      rfl
    rw [parses_iff, Rule.map_map, Rule.eval_map, eval_refused ended ok refused]
    exact Option.some_inj.trans eq_comm

/-- A text goes on; the value of a raw parser is refused. -/
theorem bind_laws_refused :
    (∀ last, start.Parses ((Rule.constant (.str "b")).bind .sameString) (.start #['b']) last ↔
      start.ParsesGiven (Continuation.sameString (.str "b")) (.start #['b']) last) ∧
      (∀ last, start.Parses (Rule.anyChar.bind fun x => pure (.constant x)) (.start #['b']) last ↔
        start.Parses .anyChar (.start #['b']) last) ∧
      start.Parses ((Rule.atom .bulky).bind fun x => pure (.constant x)) (.start #['b'])
        (⟨[], .error .tooLongToWrite⟩, start.store) := by
  have read : ∀ log r A, start.Parses .anyChar (.start #['b']) (⟨log, .ok r⟩, A) →
      r = .success (.ofChar 'b') ⟨#['b'], 1⟩ := by
    intro log r A ended
    cases (parses_iff_of_pure (Rule.eval_anyChar rfl)).1 ended
    rfl
  have parsed : start.Parses (.atom .bulky) (.start #['b'])
      (⟨[], .ok (.success .long ⟨#['b'], 1⟩)⟩, start.store) :=
    (parses_iff_of_pure (Rule.eval_bulky _)).2 rfl
  have laws (m : Rule) (last : Logged Event Result × Store) := bind_laws start m (.str "b")
    .sameString .sameString pure pure (.start #['b']) last
  refine ⟨fun last => (laws .anyChar last).1 rfl, fun last => (laws _ last).2.2.1 ?_,
    ((laws _ _).2.2.2.1 [] _ _ parsed rfl Value.not_writable_long).2 rfl⟩
  intro log r A ended _
  rw [read log r A ended]
  exact Value.writable_ofChar 'b'

/-- Two maps with a number between them that cannot be written, and what they are together. -/
theorem maps_not_fused :
    start.Parses (.unary (.map fun _ => pure (.int 1))
        (.unary (.map fun _ => pure .long) .anyChar)) (.start #['a'])
        (⟨[], .error .tooLongToWrite⟩, start.store) ∧
      start.Parses (.unary (.map fun _ => do
          let _ ← (pure .long : Act Value)
          pure (.int 1)) .anyChar) (.start #['a'])
        (⟨[], .ok (.success (.int 1) ⟨#['a'], 1⟩)⟩, start.store) := by
  have matched : Rule.anyChar.eval start.env (.start #['a']) =
      pure (.success (.ofChar 'a') ⟨#['a'], 1⟩) := Rule.eval_anyChar rfl
  have parsed : start.Parses .anyChar (.start #['a'])
      (⟨[], .ok (.success (.ofChar 'a') ⟨#['a'], 1⟩)⟩, start.store) :=
    (parses_iff_of_pure matched).2 rfl
  have one : (Value.int 1).writable = true :=
    Value.writable_int_of_lt (k := 1) (by decide) (by decide)
  constructor
  · have refused : (do
          let _ ← (pure .long : Act Value) >>= Value.asConstant
          pure (.int 1)) >>= Value.asConstant = ⟨[], .error .tooLongToWrite⟩ := by
      rw [LawfulMonad.pure_bind, Value.asConstant_of_not Value.not_writable_long]
      rfl
    rw [parses_iff, Rule.map_map, Rule.eval_map, eval_refused parsed rfl refused]
    rfl
  · refine (parses_iff_of_pure ?_).2 rfl
    rw [Rule.eval_map, matched]
    simp only [LawfulMonad.pure_bind, Result.success, if_true, Value.asConstant_of_writable one,
      Run.ofAct_pure]

end Session

end Rewind
