import Rewind.Proofs.Binding
import Rewind.Proofs.Calls
import Rewind.Proofs.Scopes
import Rewind.Proofs.Written

namespace Rewind

/-- The operators of a chain raise a fault where one of them does, at what came before it. -/
theorem Parser.foldRounds_error {apply : Value → Value → Value → Act Value} {x : Value}
    {rounds : List Value} {fault : Fault} (h : (foldRounds apply x rounds).result = .error fault) :
    ∃ front f y back z, rounds = front ++ .tuple [f, y] :: back ∧
      (foldRounds apply x front).result = .ok z ∧ (apply f z y).result = .error fault := by
  induction x, rounds using foldRounds.induct with
  | case1 x => cases h
  | case2 x f y rounds ih =>
    simp only [foldRounds, Logged.result_bind] at h
    rcases applied : (apply f x y).result with fault' | z
    · rw [applied] at h
      cases h
      exact ⟨[], f, y, rounds, x, rfl, rfl, applied⟩
    · rw [applied] at h
      obtain ⟨front, f', y', back, z', split, before, raised⟩ := ih z h
      refine ⟨.tuple [f, y] :: front, f', y', back, z', by rw [split]; rfl, ?_, raised⟩
      simp only [foldRounds, Logged.result_bind, applied]
      exact before
  | case3 x round rounds other ih =>
    -- What is no round is passed over.
    have skipped : ∀ rest, foldRounds apply x (round :: rest) = foldRounds apply x rest := by
      intro rest
      rw [foldRounds]
      exact other
    rw [skipped] at h
    obtain ⟨front, f, y, back, z, split, before, raised⟩ := ih h
    exact ⟨round :: front, f, y, back, z, by rw [split]; rfl, (skipped front).symm ▸ before, raised⟩

namespace Call

/-- A function that the parser of the call was given is called there and raises the fault, or what a
continuation or a thunk gives cannot be built, or an undefined forward parser is used. -/
inductive Throws (env : Env) : Call → Fault → Prop
  | test {test : CharTest} {name : String} {c : Cursor} {store : Store} {x : Char} {fault : Fault}
      (there : c.char? = some x) (raised : (test x).result = .error fault) :
      Throws env ⟨.atom (.satisfy test name), c, store⟩ fault
  | handmade {run : Cursor → Act Result} {name : String} {own : Option String} {c : Cursor}
      {store : Store} {fault : Fault} (raised : (run c).result = .error fault) :
      Throws env ⟨.atom (.handmade run name own), c, store⟩ fault
  | map {p : Parser} {f : Value → Act Value} {c : Cursor} {store store' : Store} {r : Result}
      {fault : Fault} (first : Gives env ⟨p, c, store⟩ r store') (ok : r.ok = true)
      (raised : (f r.value).result = .error fault) : Throws env ⟨.map p f, c, store⟩ fault
  | andThen {p : Parser} {notes : Result → List Note} {next : Result → Rule} {c : Cursor}
      {store store' store'' : Store} {r : Result} {fault : Fault}
      (first : Gives env ⟨p, c, store⟩ r store') (ok : r.ok = true)
      (refused : (next r).build env store' = (.error fault, store'')) :
      Throws env ⟨.andThen p notes next, c, store⟩ fault
  | lazy {cell : Nat} {name called : Option String} {watched : Bool} {thunk : Rule} {c : Cursor}
      {store store' : Store} {fault : Fault}
      (there : store[cell]? = some (.lazy called watched thunk none))
      (refused : thunk.build env store = (.error fault, store')) :
      Throws env ⟨.lazy cell name, c, store⟩ fault
  | forward {cell : Nat} {name : String} {c : Cursor} {store : Store}
      (undefined : store.target? cell = none) :
      Throws env ⟨.forward cell name, c, store⟩ (.undefinedForward (Parser.forward cell name).name)

/-- In a chain one of the operators raises the fault, at what those before it came to. -/
theorem Throws.operator {env : Env} {p : Parser} {apply : Value → Value → Value → Act Value}
    {c : Cursor} {store : Store} {fault : Fault}
    (h : Throws env ⟨.map p (Parser.foldChain apply), c, store⟩ fault) :
    ∃ r store' x front f y back z, Gives env ⟨p, c, store⟩ r store' ∧ r.ok = true ∧
      r.value = .tuple [x, .list (front ++ .tuple [f, y] :: back)] ∧
      (Parser.foldRounds apply x front).result = .ok z ∧ (apply f z y).result = .error fault := by
  cases h with | @map _ _ _ _ store' r _ first ok raised =>
  unfold Parser.foldChain at raised
  split at raised
  · next x rounds there =>
    obtain ⟨front, f, y, back, z, rfl, before, raised⟩ := Parser.foldRounds_error raised
    exact ⟨r, store', x, front, f, y, back, z, first, ok, there, before, raised⟩
  · cases raised

/-- A value that is made a constant in the call cannot be written. -/
inductive Unwritten (env : Env) : Call → Prop
  | map {p : Parser} {f : Value → Act Value} {c : Cursor} {store store' : Store} {r : Result}
      {v : Value} (first : Gives env ⟨p, c, store⟩ r store') (ok : r.ok = true)
      (gave : (f r.value).result = .ok v) (long : ¬v.writable = true) :
      Unwritten env ⟨.map p f, c, store⟩
  | both {p q : Parser} {f : Value → Value → Value} {c : Cursor} {store store' store'' : Store}
      {r r' : Result} (first : Gives env ⟨p, c, store⟩ r store') (ok : r.ok = true)
      (rest : Gives env ⟨q, r.cursor, store'⟩ r' store'') (ok' : r'.ok = true)
      (long : ¬(f r.value r'.value).writable = true) :
      Unwritten env ⟨.both p q fun x y => (f x y).asConstant, c, store⟩

/-- The fault is raised in the call itself. -/
def Raises (env : Env) (a : Call) (fault : Fault) : Prop :=
  a.Throws env fault ∨ a.Unwritten env ∧ fault = .tooLongToWrite

/-- No function raises anything in a call inside. -/
def Quiet (env : Env) (a : Call) : Prop := ∀ b fault, Within env a b → ¬b.Throws env fault

theorem Quiet.of_makes {env : Env} {a : Call} (h : ∀ fault, ¬a.Throws env fault)
    (each : ∀ b, Makes env a b → b.Quiet env) : a.Quiet env := by
  intro b fault within
  rcases within.cases_head with rfl | ⟨a', made, within⟩
  · exact h fault
  · exact each a' made b fault within

/-- The call is one that a run in the session may make. -/
structure Sound (s : Session) (a : Call) : Prop where
  points : a.parser.Scoped a.store
  stock : a.parser.Stocked
  grown : s.Grown a.store
  held : Trait.stocked.OfStore a.store

variable {s : Session} {a b : Call}

theorem Gives.leads (henv : Trait.stocked.OfEnv s.env) {r : Result} {store : Store}
    (h : a.Gives s.env r store) (stock : a.parser.Stocked) (grown : s.Grown a.store)
    (held : Trait.stocked.OfStore a.store) :
    s.Leads a.store store ∧ Trait.stocked.OfStore store := by
  obtain ⟨log, hlog⟩ := h
  obtain ⟨budget, hrun⟩ := Parser.eval_eq_some_iff.1 hlog
  have kept := (Trait.supports henv).run_meets budget stock a.cursor a.store held
  rw [hrun] at kept
  exact ⟨Session.leads_of_run grown hrun, kept.1⟩

namespace Sound

theorem rounds (henv : Trait.stocked.OfEnv s.env) {p : Parser} {c d : Cursor}
    {store store' : Store} (ha : Sound s ⟨p, c, store⟩) (h : Rounds s.env p c store d store') :
    Sound s ⟨p, d, store'⟩ := by
  induction h with
  | first => exact ha
  | next _ round _ _ ih =>
    obtain ⟨leads, held⟩ := round.leads henv ih.stock ih.grown ih.held
    exact ⟨ih.points.mono leads.grows, ih.stock, leads.grown, held⟩

theorem makes (inside : s.Scoped) (henv : Trait.stocked.OfEnv s.env) (ha : a.Sound s)
    (h : Makes s.env a b) : b.Sound s := by
  obtain ⟨p, c, store⟩ := a
  have points : p.Scoped store := ha.points
  have stock : p.Stocked := ha.stock
  -- The first part is run in the store of the whole, a later one in what the first leaves.
  cases h with
  | @andThen_next _ _ _ next _ _ _ _ r first ok built =>
    obtain ⟨leads, held⟩ := first.leads henv stock ha.grown ha.held
    obtain ⟨leads', -, makes⟩ := Rule.build_becomes _ leads.grown built
    have kept := Trait.meets_build henv (r := next r) trivial _ held
    rw [built] at kept
    exact ⟨makes.scoped (inside.env_mono leads'.grown.grows), kept.2, leads'.grown, kept.1⟩
  | both => exact ⟨points.1, stock.2.1, ha.grown, ha.held⟩
  | both_next first ok =>
    obtain ⟨leads, held⟩ := first.leads henv stock.2.1 ha.grown ha.held
    exact ⟨points.2.mono leads.grows, stock.2.2, leads.grown, held⟩
  | or => exact ⟨points.1, stock.1, ha.grown, ha.held⟩
  | or_next first failed =>
    obtain ⟨leads, held⟩ := first.leads henv stock.1 ha.grown ha.held
    exact ⟨points.2.mono leads.grows, stock.2, leads.grown, held⟩
  | many again => exact rounds henv ⟨points, stock, ha.grown, ha.held⟩ again
  | @forward _ _ _ _ _ found =>
    refine ⟨?_, ha.held.target found, ha.grown, ha.held⟩
    unfold Store.target? at found
    split at found
    · next there => exact (inside.grown ha.grown c).store _ _ _ there found
    · cases found
  | @lazy _ cell _ _ _ _ _ forced =>
    obtain ⟨leads, points⟩ := inside.of_force ha.grown points forced
    have kept := Trait.meets_force henv cell _ ha.held
    rw [forced] at kept
    exact ⟨points, kept.2, leads.grown, kept.1⟩
  | _ => exact ⟨points, stock, ha.grown, ha.held⟩

end Sound

/-- Some call inside raises the fault. -/
def Origin (env : Env) (a : Call) (fault : Fault) : Prop := ∃ b, Within env a b ∧ b.Raises env fault

variable {env : Env} {a b : Call} {fault : Fault}

theorem Origin.here (h : a.Raises env fault) : a.Origin env fault := ⟨a, .refl, h⟩

theorem Origin.made (h : Makes env a b) (origin : b.Origin env fault) : a.Origin env fault := by
  obtain ⟨d, within, raises⟩ := origin
  exact ⟨d, .head h within, raises⟩

end Call

theorem Run.of_bind_error {α β : Type} {x : Run α} {f : α → Run β} {fault : Fault}
    {log : List Event} {A B : Store} (h : (x >>= f) A = some (⟨log, .error fault⟩, B)) :
    (∃ log, x A = some (⟨log, .error fault⟩, B)) ∨
      ∃ log a D log', x A = some (⟨log, .ok a⟩, D) ∧ f a D = some (⟨log', .error fault⟩, B) := by
  rcases bind_eq_some_iff.1 h with ⟨log, fault', D, hx, same⟩ | ⟨log, a, D, y, hx, hf, same⟩
  · cases same
    exact .inl ⟨_, hx⟩
  · obtain ⟨⟨log', x'⟩, E⟩ := y
    cases same
    exact .inr ⟨log, a, D, log', hx, hf⟩

theorem Run.of_ofAct_error {α : Type} {x : Act α} {fault : Fault} {log : List Event} {A B : Store}
    (h : Run.ofAct x A = some (⟨log, .error fault⟩, B)) : x.result = .error fault := by
  obtain ⟨log, result⟩ := x
  cases h
  rfl

theorem Run.of_ofBuild_error {α : Type} {x : Build α} {fault : Fault} {log : List Event}
    {A B : Store} (h : Run.ofBuild x A = some (⟨log, .error fault⟩, B)) :
    x A = (.error fault, B) := by
  rcases hx : x A with ⟨y, D⟩
  rw [Run.ofBuild_eq hx] at h
  cases h
  rfl

theorem Run.of_target_error {cell : Nat} {name : String} {fault : Fault} {log : List Event}
    {A B : Store} (h : Run.target cell name A = some (⟨log, .error fault⟩, B)) :
    A.target? cell = none ∧ fault = .undefinedForward name := by
  unfold Run.target at h
  split at h
  · cases h
  · next undefined =>
    cases h
    exact ⟨undefined, rfl⟩

/-- A lazy cell ends in a fault only if its thunk cannot be built. -/
theorem Run.of_force_error {env : Env} {cell : Nat} {name : Option String} {fault : Fault}
    {log : List Event} {A B : Store} (points : (Parser.lazy cell name).Scoped A)
    (h : Run.force env cell A = some (⟨log, .error fault⟩, B)) :
    ∃ called watched thunk, A[cell]? = some (.lazy called watched thunk none) ∧
      thunk.build env A = (.error fault, B) := by
  obtain ⟨called, watched, thunk, built, there⟩ := points
  simp only [Run.force, there] at h
  rcases built with _ | p
  · rcases hx : thunk.build env A with ⟨fault' | p, D⟩
    · simp only [hx] at h
      cases h
      exact ⟨called, watched, thunk, there, hx⟩
    · simp only [hx] at h
      cases h
  · cases h

namespace Call

section Step

variable {env : Env} {fault : Fault} {log : List Event} {B : Store}
  {run : Parser → Cursor → Run Result}

/-- Only the functions that an atom is given raise. -/
theorem atom_origin {a : Atom} {c : Cursor} {store : Store}
    (h : (a.run c).result = .error fault) : Throws env ⟨.atom a, c, store⟩ fault := by
  cases a with
  | satisfy test name =>
    simp only [Atom.run] at h
    rcases there : c.char? with _ | x
    · rw [there] at h
      cases h
    · simp only [there, Logged.result_bind] at h
      rcases tested : (test x).result with fault' | passed
      · rw [tested] at h
        cases h
        exact .test there tested
      · rw [tested] at h
        cases h
  | literal chars value =>
    simp only [Atom.run] at h
    split at h <;> cases h
  | constant value => cases h
  | fail name => cases h
  | handmade run name own => exact .handmade h

/-- The function raises, or its value cannot be written. -/
theorem map_origin {p : Parser} {f : Value → Act Value} {c : Cursor} {store store' : Store}
    {r : Result} (first : Gives env ⟨p, c, store⟩ r store') (ok : r.ok = true)
    (h : (f r.value >>= Value.asConstant).result = .error fault) :
    Raises env ⟨.map p f, c, store⟩ fault := by
  rw [Logged.result_bind] at h
  rcases gave : (f r.value).result with fault' | v
  · rw [gave] at h
    cases h
    exact .inl (.map first ok gave)
  · rw [gave] at h
    obtain ⟨rfl, long⟩ := Value.eq_of_asConstant_error h
    exact .inr ⟨.map first ok gave long, rfl⟩

/-- Values are put together without a function that may raise. -/
theorem both_origin {p q : Parser} {combine : Value → Value → Act Value}
    (stock : Parser.Stock combine) {c : Cursor} {store store' store'' : Store} {r r' : Result}
    (first : Gives env ⟨p, c, store⟩ r store') (ok : r.ok = true)
    (rest : Gives env ⟨q, r.cursor, store'⟩ r' store'') (ok' : r'.ok = true)
    (h : (combine r.value r'.value).result = .error fault) :
    Raises env ⟨.both p q combine, c, store⟩ fault := by
  cases stock with
  | first => cases h
  | second => cases h
  | pair => cases h
  | joint f =>
    obtain ⟨rfl, long⟩ := Value.eq_of_asConstant_error h
    exact .inr ⟨.both first ok rest ok' long, rfl⟩

theorem rounds_origin {p : Parser} {stop : Cursor → Event} {c d : Cursor} {store store' : Store}
    (ends : ∀ c, (run p c).Below (Parser.eval env p c)) (n : Nat)
    (before : Rounds env p c store d store')
    (h : Run.rounds (run p) stop n d store' = some (⟨log, .error fault⟩, B)) :
    ∃ d store' log, Rounds env p c store d store' ∧
      run p d store' = some (⟨log, .error fault⟩, B) := by
  induction n generalizing d store' log with
  | zero => cases h
  | succ n ih =>
    rcases Run.of_bind_error h with ⟨log, round⟩ | ⟨log, r, D, log', round, h⟩
    · exact ⟨d, store', log, before, round⟩
    split at h
    · next ok =>
      split at h
      · cases h
      · next moved =>
        have next : Rounds env p c store r.cursor D :=
          .next before ⟨log, ends d _ _ round⟩ ok (Bool.of_not_eq_true moved)
        rcases Run.of_bind_error h with ⟨log, later⟩ | ⟨_, _, _, _, _, h⟩
        · exact ih next later
        · cases h
    · cases h

/-- A fault in a step was raised in it, or in a run of a part. -/
theorem step_origin (n : Nat) {a : Call} (points : a.parser.Scoped a.store)
    (stock : a.parser.Stocked) (ends : ∀ p c, (run p c).Below (Parser.eval env p c))
    (each : ∀ b, Makes env a b → ∀ log B,
      run b.parser b.cursor b.store = some (⟨log, .error fault⟩, B) → b.Origin env fault)
    (h : Parser.step run n env a.parser a.cursor a.store = some (⟨log, .error fault⟩, B)) :
    a.Origin env fault := by
  obtain ⟨p, c, store⟩ := a
  have part : ∀ {b : Call} {log : List Event} {B : Store}, Makes env ⟨p, c, store⟩ b →
      run b.parser b.cursor b.store = some (⟨log, .error fault⟩, B) →
        Origin env ⟨p, c, store⟩ fault :=
    fun made failed => .made made (each _ made _ _ failed)
  have given : ∀ {q : Parser} {d : Cursor} {A D : Store} {log : List Event} {r : Result},
      run q d A = some (⟨log, .ok r⟩, D) → Gives env ⟨q, d, A⟩ r D :=
    fun h => ⟨_, ends _ _ _ _ h⟩
  cases p with
  | atom a => exact .here (.inl (atom_origin (Run.of_ofAct_error h)))
  | andThen p notes next =>
    rcases Run.of_bind_error h with ⟨_, failed⟩ | ⟨_, r, A, _, first, h⟩
    · exact part .andThen failed
    split at h
    · next ok =>
      rcases Run.of_bind_error h with ⟨_, failed⟩ | ⟨_, _, D, _, wrote, h⟩
      · cases failed
      cases wrote
      rcases Run.of_bind_error h with ⟨_, failed⟩ | ⟨_, q, D, _, built, h⟩
      · exact .here (.inl (.andThen (given first) ok (Run.of_ofBuild_error failed)))
      · exact part (.andThen_next (given first) ok (Run.of_ofBuild built)) h
    · cases h
  | both p q combine =>
    rcases Run.of_bind_error h with ⟨_, failed⟩ | ⟨_, r, A, _, first, h⟩
    · exact part .both failed
    split at h
    · next ok =>
      rcases Run.of_bind_error h with ⟨_, failed⟩ | ⟨_, r', D, _, rest, h⟩
      · exact part (.both_next (given first) ok) failed
      split at h
      · next ok' =>
        rcases Run.of_bind_error h with ⟨_, failed⟩ | ⟨_, _, _, _, _, h⟩
        · exact .here (both_origin stock.1 (given first) ok (given rest) ok'
            (Run.of_ofAct_error failed))
        · cases h
      · cases h
    · cases h
  | map p f =>
    rcases Run.of_bind_error h with ⟨_, failed⟩ | ⟨_, r, A, _, first, h⟩
    · exact part .map failed
    split at h
    · next ok =>
      rcases Run.of_bind_error h with ⟨_, failed⟩ | ⟨_, _, _, _, _, h⟩
      · exact .here (map_origin (given first) ok (Run.of_ofAct_error failed))
      · cases h
    · cases h
  | or p q =>
    rcases Run.of_bind_error h with ⟨_, failed⟩ | ⟨_, r, A, _, first, h⟩
    · exact part .or failed
    split at h
    · cases h
    · next failed => exact part (.or_next (given first) (Bool.of_not_eq_true failed)) h
  | not p =>
    rcases Run.of_bind_error h with ⟨_, failed⟩ | ⟨_, _, _, _, _, h⟩
    · exact part .not failed
    · cases h
  | many p =>
    simp only [Parser.step, Run.repeated_nil] at h
    rcases Run.of_bind_error h with ⟨_, failed⟩ | ⟨_, _, _, _, _, h⟩
    · obtain ⟨d, store', log, rounds, failed⟩ := rounds_origin (ends p) n .first failed
      exact part (.many rounds) failed
    · cases h
  | lookAhead p =>
    rcases Run.of_bind_error h with ⟨_, failed⟩ | ⟨_, _, _, _, _, h⟩
    · exact part .lookAhead failed
    · cases h
  | trace tag text p =>
    rcases Run.of_bind_error h with ⟨_, failed⟩ | ⟨_, _, D, _, wrote, h⟩
    · cases failed
    cases wrote
    rcases Run.of_bind_error h with ⟨_, failed⟩ | ⟨_, _, _, _, _, h⟩
    · exact part .trace failed
    · cases h
  | label p name => exact part .label h
  | wrap p name => exact part .wrap h
  | forward cell name =>
    rcases Run.of_bind_error h with ⟨_, failed⟩ | ⟨_, q, D, _, found, h⟩
    · obtain ⟨undefined, rfl⟩ := Run.of_target_error failed
      exact .here (.inl (.forward undefined))
    · obtain ⟨there, rfl⟩ := Run.of_target found
      exact part (.forward there) h
  | lazy cell name =>
    rcases Run.of_bind_error h with ⟨_, failed⟩ | ⟨_, q, D, _, forced, h⟩
    · obtain ⟨called, watched, thunk, there, refused⟩ := Run.of_force_error points failed
      exact .here (.inl (.lazy there refused))
    · exact part (.lazy forced) h

end Step

/-- Every fault in which a run ends was raised in a call inside it. -/
theorem Sound.origin {s : Session} (inside : s.Scoped) (henv : Trait.stocked.OfEnv s.env)
    (budget : Nat) {a : Call} (ha : a.Sound s) {fault : Fault} {log : List Event} {B : Store}
    (h : Parser.run s.env budget a.parser a.cursor a.store = some (⟨log, .error fault⟩, B)) :
    a.Origin s.env fault := by
  induction budget generalizing a log B with
  | zero => cases h
  | succ budget ih =>
    -- A result that a smaller budget gives is the one that the calls are described by.
    have ends : ∀ p c, (Parser.run s.env budget p c).Below (Parser.eval s.env p c) :=
      fun p c _ _ h => Parser.eval_eq_some_iff.2 ⟨budget, h⟩
    have stepped : Parser.step (Parser.run s.env budget) budget s.env a.parser a.cursor a.store =
        some (⟨log, .error fault⟩, B) := by
      simp only [Parser.run, Run.settle] at h
      split at h
      · cases h
      · exact h
    exact step_origin budget ha.points ha.stock ends
      (fun b made _ _ failed => ih (ha.makes inside henv made) failed) stepped

end Call

namespace Cursor

theorem current_of_not_atEnd {c : Cursor} (inside : c.atEnd = false) :
    ∃ x, c.char? = some x ∧ c.current = .ok x := by
  rcases there : c.char? with _ | x
  · simp [char?, atEnd] at there inside
    omega
  · exact ⟨x, rfl, by simp only [current, there]⟩

theorem char?_of_atEnd {c : Cursor} (ended : c.atEnd = true) : c.char? = none := by
  simpa [atEnd, char?] using ended

theorem advance_one (c : Cursor) : c.advance 1 = .ok c.next := by
  rw [advance, at?_eq_ok_iff]
  exact ⟨by omega, rfl⟩

end Cursor

namespace Atom

/-- The characters are read one after another. Each time the end is asked for first; the current
character and the cursor behind it may raise. -/
def readGuarded (value : Value) : List Char → Cursor → Act Result
  | [], c => pure (.success value c)
  | x :: xs, c =>
    if c.atEnd then pure (.failure c)
    else do
      let y ← Logged.ofExcept c.current
      if y = x then
        let d ← Logged.ofExcept (c.advance 1)
        readGuarded value xs d
      else return .failure c

/-- What an atom does in terms of the operations of a cursor that may raise. -/
def guarded : Atom → Cursor → Act Result
  | satisfy test _, c =>
    if c.atEnd then pure (.failure c)
    else do
      let x ← Logged.ofExcept c.current
      let passed ← test x
      if passed then
        let d ← Logged.ofExcept (c.advance 1)
        return .success (.ofChar x) d
      else return .failure c
  | literal chars value, c => readGuarded value chars c
  | a, c => a.run c

theorem ofExcept_ok_bind {α β : Type} (a : α) (f : α → Act β) :
    (Logged.ofExcept (.ok a) : Act α) >>= f = f a := rfl

theorem readGuarded_eq (value : Value) (xs : List Char) (c : Cursor) :
    (∃ d, readLiteral xs c = some d ∧ readGuarded value xs c = pure (.success value d)) ∨
      ∃ d, readLiteral xs c = none ∧ readGuarded value xs c = pure (.failure d) := by
  induction xs generalizing c with
  | nil => exact .inl ⟨c, rfl, rfl⟩
  | cons x xs ih =>
    by_cases ended : c.atEnd = true
    · simp only [readLiteral, readGuarded, ended, Cursor.char?_of_atEnd ended]
      exact .inr ⟨c, by simp, rfl⟩
    · obtain ⟨y, there, current⟩ := Cursor.current_of_not_atEnd (Bool.of_not_eq_true ended)
      simp only [readLiteral, readGuarded, ended, there, current, Cursor.advance_one,
        ofExcept_ok_bind]
      by_cases same : y = x
      · simp only [same, if_true]
        exact ih c.next
      · exact .inr ⟨c, by simp [same], by simp [same]⟩

/-- No operation of a cursor raises, and an atom comes to the same. A text that is read in part and
then fails is settled. -/
theorem guarded_settle (a : Atom) (c : Cursor) :
    Result.settle c <$> a.guarded c = Result.settle c <$> a.run c := by
  cases a with
  | satisfy test name =>
    by_cases ended : c.atEnd = true
    · simp only [guarded, run, ended, Cursor.char?_of_atEnd ended, if_true]
    · obtain ⟨x, there, current⟩ := Cursor.current_of_not_atEnd (Bool.of_not_eq_true ended)
      simp only [guarded, run, ended, there, current, Cursor.advance_one, ofExcept_ok_bind]
      congr 1
      simp only [Bool.false_eq_true, if_false]
      congr 1
      funext passed
      cases passed <;> rfl
  | literal chars value =>
    simp only [guarded, run]
    rcases readGuarded_eq value chars c with ⟨d, read, guarded⟩ | ⟨d, read, guarded⟩
    · rw [read, guarded]
    · rw [read, guarded]
      rfl
  | _ => rfl

theorem run_error_of_guarded {a : Atom} {c : Cursor} {fault : Fault}
    (h : (a.guarded c).result = .error fault) : (a.run c).result = .error fault := by
  have same := congrArg Logged.result (guarded_settle a c)
  simp only [← bind_pure_comp, Logged.result_bind, h] at same
  rcases ran : (a.run c).result with fault' | r
  · rw [ran] at same
    cases same
    rfl
  · rw [ran] at same
    cases same

end Atom

namespace Session

variable {s s' : Session}

/-- If no function that is called inside a parse raises, and no forward parser is used undefined, the
parse raises nothing, on any text and from any position, when it ends, or a value inside was made a
constant and cannot be written, and that is the fault. No atom inside asks for the current character at
the end, or for a cursor that there is not. -/
theorem parse_faultless {allowed : Command → Prop} (reached : s.Reached allowed) {rule : Rule}
    {p : Parser} {A : Store} (built : rule.build s.env s.store = (.ok p, A)) {text : Array Char}
    {position : Nat}
    (quiet : Call.Quiet s.env ⟨p, ⟨text, position⟩, A⟩)
    {budget : Nat} {answer : Logged Event Answer}
    (taken : s.step budget (.parse rule text position) = some (answer, s')) :
    ((∃ r, answer.result = .ok (.parsed p.name r)) ∨ answer.result = .error .tooLongToWrite ∧
      ∃ b, Call.Within s.env ⟨p, ⟨text, position⟩, A⟩ b ∧ b.Unwritten s.env) ∧
      ∀ b a, Call.Within s.env ⟨p, ⟨text, position⟩, A⟩ b → b.parser = .atom a →
        ∃ r, (a.guarded b.cursor).result = .ok r := by
  have stocked := reached.stocked
  have inside := reached.scoped
  have sound : Call.Sound s ⟨p, ⟨text, position⟩, A⟩ := by
    obtain ⟨leads, -, makes⟩ := rule.build_becomes (.refl s) built
    have kept := Trait.meets_build stocked.env (r := rule) trivial s.store stocked.store
    rw [built] at kept
    exact ⟨makes.scoped (inside.env_mono leads.grows), kept.2, leads.grown, kept.1⟩
  constructor
  · rcases ran : p.run s.env budget ⟨text, position⟩ A with _ | ⟨⟨log, fault | r⟩, B⟩
    · rw [step_parse_of_none built ran] at taken
      cases taken
    · obtain ⟨b, within, throws | ⟨unwritten, rfl⟩⟩ := sound.origin inside stocked.env budget ran
      · exact absurd throws (quiet b fault within)
      · rw [step_parse_of_run built ran] at taken
        cases taken
        exact .inr ⟨rfl, b, within, unwritten⟩
    · rw [step_parse_of_run built ran] at taken
      cases taken
      exact .inl ⟨r, rfl⟩
  · intro b a within atom
    rcases read : (a.guarded b.cursor).result with fault | r
    · have ran := Atom.run_error_of_guarded read
      obtain ⟨q, c, store⟩ := b
      cases atom
      exact absurd (Call.atom_origin ran) (quiet _ fault within)
    · exact ⟨r, rfl⟩

/-- A text of two characters, tried again and again, of which the last time one character is left and
the end is met. -/
theorem parse_faultless_partial :
    ∃ s' r, Session.start.step 9 (.parse (.many (.or (.string "ab") .digit)) #['1', 'a'] (0 : Nat)) =
        some (.ok (.parsed "many(string('ab') | digit)" r), s') ∧ r.cursor.position = 1 ∧
      ∀ b a, Call.Within Session.start.env
          ⟨.many (.or (.atom (.literal ['a', 'b'] (.str "ab"))) (.satisfy Text.isDigit "digit")),
            ⟨#['1', 'a'], 0⟩, #[]⟩ b →
        b.parser = .atom a → ∃ r, (a.guarded b.cursor).result = .ok r := by
  have quiet : Call.Quiet Session.start.env
      ⟨.many (.or (.atom (.literal ['a', 'b'] (.str "ab"))) (.satisfy Text.isDigit "digit")),
        ⟨#['1', 'a'], 0⟩, #[]⟩ := by
    refine .of_makes (fun _ throws => nomatch throws) fun _ made => ?_
    cases made with | many rounds =>
    refine .of_makes (fun _ throws => nomatch throws) fun _ made => ?_
    cases made with
    | or => exact .of_makes (fun _ throws => nomatch throws) fun _ made => nomatch made
    | or_next =>
      refine .of_makes (fun _ throws => ?_) fun _ made => nomatch made
      cases throws with | test _ raised => cases raised
  have taken : Session.start.step 9
      (.parse (.many (.or (.string "ab") .digit)) #['1', 'a'] (0 : Nat)) =
        some (.ok (.parsed "many(string('ab') | digit)"
          ⟨.list [.str "1"], ⟨#['1', 'a'], 1⟩, true⟩), .start) := rfl
  have reached : Session.start.Reached fun _ => True := .start
  exact ⟨_, _, taken, rfl, (parse_faultless reached rfl quiet taken).2⟩

/-- The function gives an integer that cannot be written, and the parse raises. -/
theorem parse_faultless_unwritten :
    (Rule.unary (.map fun _ => pure .long) .anyChar).build start.env start.store =
        (.ok (.map (.satisfy (fun _ => true) "any_char") fun _ => pure .long), #[]) ∧
      Call.Quiet start.env
        ⟨.map (.satisfy (fun _ => true) "any_char") fun _ => pure .long, .start #['a'], #[]⟩ ∧
      start.Parses (.unary (.map fun _ => pure .long) .anyChar) (.start #['a'])
        (⟨[], .error .tooLongToWrite⟩, #[]) := by
  refine ⟨rfl, ?_, ?_⟩
  · refine .of_makes (fun _ throws => ?_) fun _ made => ?_
    · cases throws with | map _ _ raised => cases raised
    cases made
    refine .of_makes (fun _ throws => ?_) fun _ made => nomatch made
    cases throws with | test _ raised => cases raised
  · have matched : start.Parses .anyChar (.start #['a'])
        (⟨[], .ok (.success (.ofChar 'a') ⟨#['a'], 1⟩)⟩, #[]) :=
      (parses_iff_of_pure (Rule.eval_anyChar rfl)).2 rfl
    have refused : (pure .long : Act Value) >>= Value.asConstant = ⟨[], .error .tooLongToWrite⟩ := by
      rw [LawfulMonad.pure_bind, Value.asConstant_of_not Value.not_writable_long]
      rfl
    rw [parses_iff, Rule.eval_map, eval_refused matched rfl refused]
    rfl

end Session

end Rewind
