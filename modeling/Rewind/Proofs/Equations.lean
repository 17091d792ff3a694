import Rewind.Proofs.Contract
import Rewind.Proofs.Eval

namespace Rewind

namespace Run

variable {α : Type}

theorem settle_bind (x : Run α) (f : α → Run Result) (start : Cursor) :
    (x >>= f).settle start = x >>= fun a => (f a).settle start := by
  simp only [settle_eq_bind, LawfulMonad.bind_assoc]

theorem settle_pure (start : Cursor) (r : Result) :
    (Pure.pure r : Run Result).settle start = Pure.pure (r.settle start) := by
  simp only [settle_eq_bind, LawfulMonad.pure_bind]

theorem settle_settle (start : Cursor) (x : Run Result) :
    (x.settle start).settle start = x.settle start := by
  simp only [settle_eq_bind, LawfulMonad.bind_assoc, LawfulMonad.pure_bind, Result.settle_settle]

theorem ofBuild_eq {x : Build α} {e : Except Fault α} {A B : Store} (h : x A = (e, B)) :
    ofBuild x A = some (⟨[], e⟩, B) := by
  simp only [ofBuild, h]
  rfl

/-- A forward parser that is defined is found. -/
theorem target_of_eq_some {cell : Nat} {p : Parser} {A : Store} (defined : A.target? cell = some p)
    (name : String) : target cell name A = some (⟨[], .ok p⟩, A) := by
  rw [target, defined]
  rfl

theorem ofBuild_pure (a : α) : ofBuild (Pure.pure a) = Pure.pure a := rfl

theorem ofAct_pure (a : α) : ofAct (Pure.pure a) = Pure.pure a := rfl

theorem ofAct_bind {β : Type} (x : Act α) (f : α → Act β) :
    ofAct (x >>= f) = ofAct x >>= fun a => ofAct (f a) := by
  funext store
  obtain ⟨log, fault | a⟩ := x
  · rfl
  · have first : ofAct (⟨log, .ok a⟩ : Act α) store = some (⟨log.map .note, .ok a⟩, store) := rfl
    have both : (⟨log, .ok a⟩ : Act α) >>= f = (f a).after log := rfl
    rw [bind_of_ok first, both]
    simp [ofAct, Logged.mapLog, Logged.after]

theorem ofAct_asConstant {v : Value} (h : v.writable = true) :
    ofAct v.asConstant = Pure.pure v := by
  rw [Value.asConstant_of_writable h, ofAct_pure]

theorem ofAct_asConstant_of_not {v : Value} (h : ¬v.writable = true) :
    ofAct v.asConstant = raise .tooLongToWrite := by
  rw [Value.asConstant_of_not h]
  rfl

/-- What follows a constant may rely on it that the value can be written. -/
theorem ofAct_asConstant_congr {v : Value} {f g : Value → Run α}
    (same : v.writable = true → f v = g v) :
    ofAct v.asConstant >>= f = ofAct v.asConstant >>= g := by
  by_cases fits : v.writable = true
  · rw [ofAct_asConstant fits, LawfulMonad.pure_bind, LawfulMonad.pure_bind, same fits]
  · rw [ofAct_asConstant_of_not fits]
    rfl

theorem raise_bind {β : Type} (fault : Fault) (f : α → Run β) :
    (raise fault >>= f : Run β) = raise fault := rfl

/-- A computation that cannot raise writes its notes and gives its answer. -/
theorem ofAct_of_ok {x : Act α} {a : α} (h : x.result = .ok a) : ofAct x = (do
    writeNotes x.log
    return a) := by
  obtain ⟨notes, answer⟩ := x
  obtain rfl : answer = .ok a := h
  funext store
  have wrote : writeNotes notes store = some (⟨notes.map .note, .ok ()⟩, store) := rfl
  rw [bind_of_ok wrote]
  simp [ofAct, Logged.mapLog, Pure.pure, Run.pure, Logged.ok, Logged.after]

theorem writeNotes_nil : writeNotes [] = Pure.pure () := rfl

theorem writeNotes_append (notes notes' : List Note) :
    writeNotes (notes ++ notes') = writeNotes notes >>= fun _ => writeNotes notes' := by
  funext store
  have wrote : writeNotes notes store = some (⟨notes.map .note, .ok ()⟩, store) := rfl
  rw [bind_of_ok wrote]
  simp [writeNotes, Logged.after]

theorem ofBuild_bind {β : Type} (x : Build α) (f : α → Build β) :
    ofBuild (x >>= f) = ofBuild x >>= fun a => ofBuild (f a) := by
  funext store
  rcases h : x store with ⟨fault | a, store'⟩
  · rw [bind_of_error (ofBuild_eq h), ofBuild_eq (Build.bind_of_error h)]
  · rw [bind_of_ok (ofBuild_eq h)]
    rcases h' : f a store' with ⟨y, store''⟩
    rw [ofBuild_eq h', ofBuild_eq ((Build.bind_of_ok h).trans h')]
    rfl

/-- The rounds of a repetition: their values and the cursor after the last one. -/
def rounds (round : Cursor → Run Result) (stop : Cursor → Event) :
    Nat → Cursor → Run (List Value × Cursor)
  | 0, _ => spent
  | budget + 1, c => do
    let r ← round c
    if r.ok then
      if idle c r.cursor then
        write (stop c)
        return ([], c)
      else
        let (values, d) ← rounds round stop budget r.cursor
        return (r.value :: values, d)
    else return ([], c)

/-- The loop gathers values and records from the front; the rounds give them in order. -/
theorem repeated_eq_rounds (round : Cursor → Run Result) (stop : Cursor → Event) (budget : Nat)
    (c : Cursor) (values : List Value) (events : List Event) (store : Store) :
    repeated round stop budget c values events store =
      (rounds round stop budget c store).map fun last =>
        (⟨events.reverse ++ last.1.log, last.1.result.map fun x =>
          .success (.list (values.reverse ++ x.1)) x.2⟩, last.2) := by
  induction budget generalizing c values events store with
  | zero => rfl
  | succ budget ih =>
    unfold repeated rounds
    rcases hr : round c store with _ | ⟨⟨log, fault | r⟩, store'⟩
    · rw [bind_of_none hr]
      rfl
    · rw [bind_of_error hr]
      rfl
    · rw [bind_of_ok hr]
      by_cases matched : r.ok = true
      · by_cases stuck : idle c r.cursor = true
        · have written : write (stop c) store' = some (⟨[stop c], .ok ()⟩, store') := rfl
          simp only [matched, stuck, if_true, bind_of_ok written]
          simp [Pure.pure, Run.pure, Logged.ok, Logged.after, Except.map]
        · simp only [matched, stuck, Bool.not_true, Bool.false_eq_true, if_true, if_false, ih]
          rcases hs : rounds round stop budget r.cursor store' with _ | ⟨⟨log', fault | x⟩, store''⟩
          · rw [bind_of_none hs]
            rfl
          · rw [bind_of_error hs]
            simp [Logged.after, Except.map]
          · rw [bind_of_ok hs]
            simp [Pure.pure, Run.pure, Logged.ok, Logged.after, Except.map]
      · simp [matched, Pure.pure, Run.pure, Logged.ok, Logged.after, Except.map]

theorem repeated_nil (round : Cursor → Run Result) (stop : Cursor → Event) (budget : Nat)
    (c : Cursor) :
    repeated round stop budget c [] [] =
      rounds round stop budget c >>= fun x => Pure.pure (.success (.list x.1) x.2) := by
  funext store
  rw [repeated_eq_rounds]
  rcases h : rounds round stop budget c store with _ | ⟨⟨log, fault | x⟩, store'⟩
  · rw [bind_of_none h]
    rfl
  · rw [bind_of_error h]
    rfl
  · rw [bind_of_ok h]
    simp [Except.map, Pure.pure, Run.pure, Logged.ok, Logged.after]

theorem rounds_below {round round' : Cursor → Run Result} {stop : Cursor → Event}
    (each : ∀ c, (round c).Below (round' c)) {m n : Nat} (more : m ≤ n) (c : Cursor) :
    (rounds round stop m c).Below (rounds round' stop n c) := by
  induction m generalizing n c with
  | zero => exact spent_below _
  | succ m ih =>
    obtain ⟨n, rfl⟩ : ∃ k, n = k + 1 := ⟨n - 1, by omega⟩
    refine .bind (each c) fun r => ?_
    split
    · split
      · exact .refl _
      · exact .bind (ih (by omega) _) fun _ => .refl _
    · exact .refl _

end Run

namespace Parser

variable {env : Env}

theorem eval_settle (env : Env) (p : Parser) (c : Cursor) :
    (eval env p c).settle c = eval env p c := by
  have h := (run_tends env p c).succ.settle c
  simp only [run, Run.settle_settle] at h
  exact h.unique (run_tends env p c).succ

/-- A failure gives back the cursor. -/
theorem eq_failure {p : Parser} {c : Cursor} {A B : Store} {log : List Event} {r : Result}
    (h : eval env p c A = some (⟨log, .ok r⟩, B)) (failed : r.ok = false) : r = .failure c := by
  have settled := congrFun (eval_settle env p c) A
  simp only [Run.settle, h, Result.settle_of_not_ok failed] at settled
  cases settled
  rfl

theorem settle_ite (r : Result) (x : Run Result) (c : Cursor) :
    (if r.ok then x else Pure.pure r : Run Result).settle c =
      if r.ok then x.settle c else Pure.pure (.failure c) := by
  by_cases matched : r.ok = true
  · rw [if_pos matched, if_pos matched]
  · have failed : r.ok = false := by simpa using matched
    rw [if_neg matched, if_neg matched, Run.settle_pure, Result.settle_of_not_ok failed]

theorem eval_atom (a : Atom) (c : Cursor) :
    eval env (.atom a) c = (Run.ofAct (a.run c)).settle c :=
  eval_eq_step env _ c (by simp)

theorem eval_constant (v : Value) (c : Cursor) :
    eval env (constant v) c = Pure.pure (.success v c) := by
  have ran : Run.ofAct ((Atom.constant v).run c) = Pure.pure (.success v c) := rfl
  rw [constant, eval_atom, ran, Run.settle_pure]
  rfl

theorem eval_andThen (p : Parser) (notes : Result → List Note) (next : Result → Rule) (c : Cursor) :
    eval env (.andThen p notes next) c = (do
      let r ← eval env p c
      if r.ok then
        Run.writeNotes (notes r)
        let q ← Run.ofBuild ((next r).build env)
        (eval env q r.cursor).settle c
      else return .failure c) := by
  rw [eval_eq_step env _ c (by simp), step, Run.settle_bind]
  simp only [settle_ite, Run.settle_bind]

theorem eval_both (p q : Parser) (combine : Value → Value → Act Value) (c : Cursor) :
    eval env (.both p q combine) c = (do
      let r ← eval env p c
      if r.ok then
        let s ← eval env q r.cursor
        if s.ok then
          let value ← Run.ofAct (combine r.value s.value)
          return .success value s.cursor
        else return .failure c
      else return .failure c) := by
  rw [eval_eq_step env _ c (by simp), step, Run.settle_bind]
  simp only [settle_ite, Run.settle_bind, Run.settle_pure]
  rfl

theorem eval_map (p : Parser) (f : Value → Act Value) (c : Cursor) :
    eval env (.map p f) c = (do
      let r ← eval env p c
      if r.ok then
        let value ← Run.ofAct (f r.value >>= Value.asConstant)
        return .success value r.cursor
      else return .failure c) := by
  rw [eval_eq_step env _ c (by simp), step, Run.settle_bind]
  simp only [settle_ite, Run.settle_bind, Run.settle_pure]
  rfl

theorem eval_map_pure (p : Parser) (c : Cursor) :
    eval env (p.map Pure.pure) c = (do
      let r ← eval env p c
      if r.ok then
        let value ← Run.ofAct r.value.asConstant
        return .success value r.cursor
      else return .failure c) := by
  rw [eval_map]
  rfl

theorem eval_followedBy (p q : Parser) (c : Cursor) :
    eval env (p.followedBy q) c = (do
      let r ← eval env p c
      if r.ok then
        let value ← Run.ofAct r.value.asConstant
        let s ← eval env q r.cursor
        return if s.ok then .success value s.cursor else .failure c
      else return .failure c) := by
  rw [followedBy, eval_both, eval_map_pure, LawfulMonad.bind_assoc]
  congr 1
  funext r
  by_cases matched : r.ok = true
  · simp only [matched, if_true, LawfulMonad.bind_assoc, LawfulMonad.pure_bind, Result.success]
    congr 1
    funext value
    congr 1
    funext s
    split
    · rfl
    · rfl
  · simp [matched, Result.failure]

theorem eval_or (p q : Parser) (c : Cursor) :
    eval env (.or p q) c = (do
      let r ← eval env p c
      if r.ok then return r else eval env q c) := by
  rw [eval_eq_step env _ c (by simp), step, Run.settle_bind]
  congr 1
  funext r
  by_cases matched : r.ok = true
  · simp only [matched, if_true, Run.settle_pure, Result.settle_of_ok]
  · simp only [matched]
    exact eval_settle env q c

theorem eval_not (p : Parser) (c : Cursor) :
    eval env (.not p) c = (do
      let r ← eval env p c
      return if r.ok then .failure c else .success .none c) := by
  rw [eval_eq_step env _ c (by simp), step, Run.settle_bind]
  congr 1
  funext r
  rw [Run.settle_pure]
  split
  · rw [Result.settle_of_not_ok rfl]
  · rw [Result.settle_of_ok rfl]

theorem eval_lookAhead (p : Parser) (c : Cursor) :
    eval env (.lookAhead p) c = (do
      let r ← eval env p c
      return if r.ok then .success r.value c else .failure c) := by
  rw [eval_eq_step env _ c (by simp), step, Run.settle_bind]
  congr 1
  funext r
  rw [Run.settle_pure]
  by_cases matched : r.ok = true
  · rw [if_pos matched, if_pos matched, Result.settle_of_ok rfl]
  · have failed : r.ok = false := by simpa using matched
    rw [if_neg matched, if_neg matched, Result.settle_of_not_ok failed]

theorem eval_label (p : Parser) (name : String) (c : Cursor) :
    eval env (.label p name) c = eval env p c := by
  rw [eval_eq_step env _ c (by simp), step, eval_settle]

theorem eval_forward (cell : Nat) (name : String) (c : Cursor) :
    eval env (.forward cell name) c =
      Run.target cell (Parser.forward cell name).name >>= fun p => eval env p c := by
  rw [eval_eq_step env _ c (by simp), step, Run.settle_bind]
  simp only [eval_settle]

theorem eval_lazy (cell : Nat) (name : Option String) (c : Cursor) :
    eval env (.lazy cell name) c = Run.force env cell >>= fun p => eval env p c := by
  rw [eval_eq_step env _ c (by simp), step, Run.settle_bind]
  simp only [eval_settle]

/-- The rounds of a repetition when the budget is not bounded. -/
noncomputable def rounds (env : Env) (p : Parser) (c : Cursor) : Run (List Value × Cursor) :=
  Run.limit fun n => Run.rounds (run env n p) (fun d => .stopped p.name d.position) n c

theorem rounds_tends (env : Env) (p : Parser) (c : Cursor) :
    Run.Tends (fun n => Run.rounds (run env n p) (fun d => .stopped p.name d.position) n c)
      (rounds env p c) :=
  Run.tends_limit fun _ _ le => Run.rounds_below (fun d => run_below env le p d) le c

theorem rounds_eq (p : Parser) (c : Cursor) :
    rounds env p c = (do
      let r ← eval env p c
      if r.ok then
        if idle c r.cursor then
          Run.write (.stopped p.name c.position)
          return ([], c)
        else
          let (values, d) ← rounds env p r.cursor
          return (r.value :: values, d)
      else return ([], c)) := by
  refine (rounds_tends env p c).succ.unique (.bind (run_tends env p c).succ fun r => ?_)
  -- The rounds that are left have one unit less than the rounds before them.
  have later : Run.Tends
      (fun n => Run.rounds (run env (n + 1) p) (fun d => .stopped p.name d.position) n r.cursor)
      (rounds env p r.cursor) := by
    refine (rounds_tends env p r.cursor).between ?_ ?_ ?_
    · exact fun m n le => Run.rounds_below (fun d => run_below env (by omega) p d) le _
    · exact fun n => Run.rounds_below (fun d => run_below env (by omega) p d) (Nat.le_refl n) _
    · exact fun n => Run.rounds_below (fun d => .refl _) (Nat.le_succ n) _
  split
  · split
    · exact .const _
    · exact later.bind fun _ => .const _
  · exact .const _

theorem eval_many (p : Parser) (c : Cursor) :
    eval env (.many p) c = rounds env p c >>= fun x => return .success (.list x.1) x.2 := by
  have h := ((rounds_tends env p c).bind fun x =>
    .const (Pure.pure (Result.success (.list x.1) x.2) : Run Result)).settle c
  simp only [Run.settle_bind, Run.settle_pure, Result.settle_of_ok, Result.success] at h
  refine (run_tends env _ c).succ.unique ?_
  simp only [run, step, Run.repeated_nil, Run.settle_bind, Run.settle_pure]
  exact h

/-- Rounds that are counted are the first ones of all rounds. -/
theorem rounds_below (env : Env) (p : Parser) (n : Nat) (c : Cursor) :
    (Run.rounds (eval env p) (fun d => .stopped p.name d.position) n c).Below (rounds env p c) := by
  induction n generalizing c with
  | zero => exact Run.spent_below _
  | succ n ih =>
    rw [rounds_eq]
    refine .bind (.refl _) fun r => ?_
    split
    · split
      · exact .refl _
      · exact .bind (ih r.cursor) fun _ => .refl _
    · exact .refl _

/-- A step whose parts are not bounded comes to what the parser comes to, except that it may stop
short in a repetition. -/
theorem step_eval_below (env : Env) (n : Nat) (p : Parser) (c : Cursor) :
    ((step (eval env) n env p c).settle c).Below (eval env p c) := by
  cases p with
  | many p =>
    simp only [step, Run.repeated_nil, Run.settle_bind, Run.settle_pure]
    rw [eval_many]
    exact .bind (rounds_below env p n c) fun _ => .refl _
  | _ =>
    rw [eval_eq_step env _ c (by simp)]
    exact .refl _

end Parser

end Rewind
