import Rewind.Proofs.Contract
import Rewind.Proofs.Reading

namespace Rewind

/-- A computation ends with a fault that `raises` allows or an answer of which `returns` holds. -/
def Logged.Ends {ε α : Type} (x : Logged ε α) (raises : Fault → Prop) (returns : α → Prop) : Prop :=
  match x.result with
  | .error fault => raises fault
  | .ok a => returns a

theorem Logged.ends_of_result {ε α : Type} {x : Logged ε α} {raises : Fault → Prop}
    {returns : α → Prop} (faults : ∀ fault, x.result = .error fault → raises fault)
    (answers : ∀ a, x.result = .ok a → returns a) : x.Ends raises returns := by
  obtain ⟨log, fault | a⟩ := x
  · exact faults fault rfl
  · exact answers a rfl

/-- A constant that can be written. -/
theorem Value.asConstant_ends {v : Value} {raises : Fault → Prop} {returns : Value → Prop}
    (fits : v.writable = true) (h : returns v) : v.asConstant.Ends raises returns := by
  rw [Value.asConstant_of_writable fits]
  exact h

/-- A constant of what may be refused, and can be written if it is not. -/
theorem Value.ofExcept_asConstant_ends {o : Except Fault Value} {raises : Fault → Prop}
    {returns : Value → Prop} (faults : ∀ fault, o = .error fault → raises fault)
    (answers : ∀ v, o = .ok v → v.writable = true ∧ returns v) :
    (Logged.ofExcept o >>= Value.asConstant).Ends raises returns := by
  rcases o with fault | v
  · exact faults fault rfl
  · obtain ⟨fits, hv⟩ := answers v rfl
    exact Value.asConstant_ends fits hv

/-- The result is a match of which `matched` holds, or a failure and `fails` holds. -/
def Result.Ends (fails : Prop) (matched : Value → Cursor → Prop) (r : Result) : Prop :=
  if r.ok then matched r.value r.cursor else fails

theorem Result.Ends.settle {fails : Prop} {matched : Value → Cursor → Prop} {r : Result}
    (h : Result.Ends fails matched r) (start : Cursor) :
    Result.Ends fails matched (r.settle start) := by
  rcases r with ⟨v, d, _ | _⟩
  · exact h
  · exact h

namespace Parser

/-- How a parser ends at a cursor: with a fault that `raises` allows, with a match of which
`matched` holds, or with a failure if `fails` holds. -/
def Ends (C : Contract) (env : Env) (p : Parser) (c : Cursor) (raises : Fault → Prop) (fails : Prop)
    (matched : Value → Cursor → Prop) : Prop :=
  (eval env p c).Meets C raises (Result.Ends fails matched)

/-- How the rounds of a repetition end. -/
def RoundsEnd (C : Contract) (env : Env) (p : Parser) (c : Cursor) (raises : Fault → Prop)
    (gathered : List Value → Cursor → Prop) : Prop :=
  (rounds env p c).Meets C raises fun x => gathered x.1 x.2

variable {C : Contract} {env : Env} {p q : Parser} {c : Cursor} {raises raises' : Fault → Prop}
  {fails fails' : Prop} {matched matched' : Value → Cursor → Prop}
  {gathered : List Value → Cursor → Prop}

namespace Ends

theorem of_success {v : Value} {d : Cursor} (h : eval env p c = pure (.success v d))
    (hv : matched v d) : Ends C env p c raises fails matched := by
  unfold Ends
  rw [h]
  exact .pure hv

theorem of_failure (h : eval env p c = pure (.failure c)) (hc : fails) :
    Ends C env p c raises fails matched := by
  unfold Ends
  rw [h]
  exact .pure hc

theorem imp (h : Ends C env p c raises fails matched)
    (faults : ∀ fault, raises fault → raises' fault) (failures : fails → fails')
    (matches' : ∀ v d, matched v d → matched' v d) : Ends C env p c raises' fails' matched' := by
  refine Run.Meets.imp h faults fun r hr => ?_
  rcases r with ⟨v, d, _ | _⟩
  · exact failures hr
  · exact matches' v d hr

theorem weaken (h : Ends C env p c raises fails matched)
    (matches' : ∀ v d, matched v d → matched' v d) : Ends C env p c raises fails matched' :=
  h.imp (fun _ hf => hf) id matches'

/-- What follows a match is run; a failure stays one. -/
theorem bind {f : Result → Run Result} (h : Ends C env p c raises fails fun v d =>
      (f (.success v d)).Meets C raises (Result.Ends fails matched)) :
    (eval env p c >>= fun r => if r.ok then f r else pure (.failure c)).Meets C raises
      (Result.Ends fails matched) := by
  refine Run.Meets.bind h fun r hr => ?_
  rcases r with ⟨v, d, _ | _⟩
  · exact .pure hr
  · exact hr

theorem ofAct {x : Act Value} {d : Cursor} (h : x.Ends raises fun v => matched v d) :
    (Run.ofAct x >>= fun v => (pure (.success v d) : Run Result)).Meets C raises
      (Result.Ends fails matched) := by
  unfold Logged.Ends at h
  refine .bind (P := fun v => matched v d) (.ofAct ?_ ?_) fun v hv => .pure hv
  · intro fault hf
    rw [hf] at h
    exact h
  · intro v hv
    rw [hv] at h
    exact h

theorem label {name : String} (h : Ends C env p c raises fails matched) :
    Ends C env (.label p name) c raises fails matched := by
  unfold Ends
  rw [eval_label]
  exact h

theorem both {combine : Value → Value → Act Value}
    (h : Ends C env p c raises fails fun x d =>
      Ends C env q d raises fails fun y e => (combine x y).Ends raises fun z => matched z e) :
    Ends C env (.both p q combine) c raises fails matched := by
  unfold Ends
  rw [eval_both]
  refine bind (h.weaken fun x d hx => ?_)
  refine Run.Meets.bind hx fun s hs => ?_
  rcases s with ⟨y, e, _ | _⟩
  · exact .pure hs
  · exact ofAct hs

theorem map {f : Value → Act Value}
    (h : Ends C env p c raises fails fun x d =>
      (f x >>= Value.asConstant).Ends raises fun y => matched y d) :
    Ends C env (.map p f) c raises fails matched := by
  unfold Ends
  rw [eval_map]
  exact bind (h.weaken fun x d hx => ofAct hx)

/-- What goes on with a match is built first. -/
theorem andThen {notes : Result → List Note} {next : Result → Rule}
    (h : Ends C env p c raises fails fun x d =>
      (Run.ofBuild ((next (.success x d)).build env) >>= fun q => eval env q d).Meets C raises
        (Result.Ends fails matched)) :
    Ends C env (.andThen p notes next) c raises fails matched := by
  unfold Ends
  rw [eval_andThen]
  refine bind (h.weaken fun x d hx => ?_)
  refine Run.Meets.bind (P := fun _ => True) (.writeNotes trivial) fun _ _ => ?_
  -- A failure of what was built also gives back the cursor before the first part.
  have settled := Run.Meets.settle c (hx.weaken fun r hr => hr.settle c)
  rw [Run.settle_bind] at settled
  exact settled

theorem or (h : Ends C env p c raises fails' matched)
    (other : fails' → Ends C env q c raises fails matched) :
    Ends C env (.or p q) c raises fails matched := by
  unfold Ends
  rw [eval_or]
  refine Run.Meets.bind h fun r hr => ?_
  rcases r with ⟨v, d, _ | _⟩
  · exact other hr
  · exact .pure hr

theorem not (h : Ends C env p c raises (matched .none c) fun _ _ => fails) :
    Ends C env (.not p) c raises fails matched := by
  unfold Ends
  rw [eval_not]
  refine Run.Meets.bind h fun r hr => .pure ?_
  rcases r with ⟨v, d, _ | _⟩
  · exact hr
  · exact hr

theorem forward {cell : Nat} {name : String}
    (found : ∀ store, C.store store → store.target? cell = some p)
    (h : Ends C env p c raises fails matched) :
    Ends C env (.forward cell name) c raises fails matched := by
  unfold Ends
  rw [eval_forward]
  have target : (Run.target cell (Parser.forward cell name).name).Meets C raises (· = p) := by
    intro store hstore
    rw [Run.target, found store hstore]
    exact ⟨hstore, rfl⟩
  refine target.bind fun q hq => ?_
  rw [hq]
  exact h

theorem atom {a : Atom} (faults : ∀ fault, (a.run c).result = .error fault → raises fault)
    (answers : ∀ r, (a.run c).result = .ok r → Result.Ends fails matched r) :
    Ends C env (.atom a) c raises fails matched := by
  unfold Ends
  rw [eval_atom]
  exact .settle c (.ofAct faults fun r hr => (answers r hr).settle c)

theorem constant {v : Value} (h : matched v c) :
    Ends C env (constant v) c raises fails matched := by
  refine .atom (fun _ hf => nomatch hf) fun r hr => ?_
  cases hr
  exact h

theorem before (h : Ends C env p c raises fails fun _ d => Ends C env q d raises fails matched) :
    Ends C env (p.before q) c raises fails matched :=
  .label (.both h)

theorem followedBy
    (h : Ends C env p c raises fails fun x d => x.asConstant.Ends raises fun x =>
      Ends C env q d raises fails fun _ e => matched x e) :
    Ends C env (p.followedBy q) c raises fails matched :=
  .both (.map h)

theorem between {opening closing : Parser}
    (h : Ends C env opening c raises fails fun _ d => Ends C env p d raises fails fun x e =>
      x.asConstant.Ends raises fun x => Ends C env closing e raises fails fun _ e' => matched x e') :
    Ends C env (between opening closing p) c raises fails matched :=
  .followedBy (.before h)

theorem token (h : Ends C env p c.skipBlanks raises fails fun v d =>
      v.asConstant.Ends raises fun w => matched w d.skipBlanks) :
    Ends C env p.token c raises fails matched := by
  unfold Ends
  rw [eval_token]
  refine Run.Meets.bind h fun r hr => ?_
  rcases r with ⟨v, d, _ | _⟩
  · exact .pure hr
  · exact ofAct hr

theorem many (h : RoundsEnd C env p c raises fun vs d => matched (.list vs) d) :
    Ends C env (.many p) c raises fails matched := by
  unfold Ends
  rw [eval_many]
  exact Run.Meets.bind h fun x hx => .pure hx

theorem chainLeft {apply : Value → Value → Value → Act Value} {op : Parser}
    (h : Ends C env p c raises fails fun x d =>
      RoundsEnd C env (.both op p fun f y => (Value.tuple [f, y]).asConstant) d raises fun vs e =>
        (foldRounds apply x vs >>= Value.asConstant).Ends raises fun z => matched z e) :
    Ends C env (p.chainLeft apply op) c raises fails matched := by
  unfold Parser.chainLeft
  exact .label (.map (.both (h.weaken fun x d hx => .many hx)))

end Ends

/-- The loop goes on with every round that gets somewhere. -/
theorem RoundsEnd.next (h : Ends C env p c raises (gathered [] c) fun v d =>
      if idle c d then gathered [] c
      else RoundsEnd C env p d raises fun vs e => gathered (v :: vs) e) :
    RoundsEnd C env p c raises gathered := by
  unfold RoundsEnd
  rw [rounds_eq]
  refine Run.Meets.bind h fun r hr => ?_
  rcases r with ⟨v, d, _ | _⟩
  · exact .pure hr
  · change if idle c d then _ else _ at hr
    show Run.Meets C raises (if idle c d then _ else _) _
    split at hr
    · next stuck =>
      rw [if_pos stuck]
      exact Run.Meets.bind (P := fun _ => True) (.write trivial) fun _ _ => .pure hr
    · next moved =>
      rw [if_neg moved]
      exact Run.Meets.bind hr fun x hx => .pure hx

/-- A round that leaves less text is not idle. -/
theorem RoundsEnd.round (h : Ends C env p c raises (gathered [] c) fun v d =>
      d.rest.length < c.rest.length ∧ RoundsEnd C env p d raises fun vs e => gathered (v :: vs) e) :
    RoundsEnd C env p c raises gathered := by
  refine .next (h.weaken fun v d hd => ?_)
  rw [idle_eq_false hd.1]
  exact hd.2

end Parser

end Rewind
