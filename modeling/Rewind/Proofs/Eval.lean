import Rewind.Parser.Budget

namespace Rewind

namespace Run

variable {α β : Type}

/-- With more budget the runs end wherever they ended with less, and in the same way, and `y` ends
where one of them does. -/
structure Tends (xs : Nat → Run α) (y : Run α) : Prop where
  rising : ∀ m n, m ≤ n → (xs m).Below (xs n)
  ends : ∀ store last, y store = some last ↔ ∃ n, xs n store = some last

open Classical in
/-- What runs tend to. -/
noncomputable def limit (xs : Nat → Run α) : Run α := fun store =>
  if h : ∃ n, xs n store ≠ none then xs h.choose store else none

theorem tends_limit {xs : Nat → Run α} (rising : ∀ m n, m ≤ n → (xs m).Below (xs n)) :
    Tends xs (limit xs) := by
  refine ⟨rising, fun store last => ?_⟩
  unfold limit
  by_cases h : ∃ n, xs n store ≠ none
  · rw [dif_pos h]
    constructor
    · exact fun hlast => ⟨h.choose, hlast⟩
    · intro ended
      obtain ⟨n, hn⟩ := ended
      obtain ⟨other, hother⟩ := Option.ne_none_iff_exists'.1 h.choose_spec
      -- Two budgets that suffice are compared with the larger one.
      rcases Nat.le_total h.choose n with le | le
      · have hn' := rising _ _ le store other hother
        rw [hother, ← hn', hn]
      · exact rising _ _ le store last hn
  · rw [dif_neg h]
    constructor
    · intro none
      cases none
    · intro ended
      obtain ⟨n, hn⟩ := ended
      exact absurd ⟨n, by simp [hn]⟩ h

section Binding

variable {x : Run α} {f : α → Run β} {store store' : Store} {log : List Event}

theorem bind_of_none (h : x store = none) : (x >>= f) store = none := by
  simp only [Bind.bind, Run.bind, h]

theorem bind_of_error {fault : Fault} (h : x store = some (⟨log, .error fault⟩, store')) :
    (x >>= f) store = some (⟨log, .error fault⟩, store') := by
  simp only [Bind.bind, Run.bind, h]

theorem bind_of_ok {a : α} (h : x store = some (⟨log, .ok a⟩, store')) :
    (x >>= f) store = (f a store').map fun last => (last.1.after log, last.2) := by
  simp only [Bind.bind, Run.bind, h]
  rcases f a store' with _ | ⟨y, store''⟩
  · rfl
  · rfl

/-- A computation whose answer is changed. -/
theorem bind_pure_at (x : Run α) (f : α → β) (store : Store) :
    (x >>= fun a => Pure.pure (f a)) store =
      (x store).map fun last => (⟨last.1.log, last.1.result.map f⟩, last.2) := by
  rcases h : x store with _ | ⟨⟨log, fault | a⟩, store'⟩
  · rw [bind_of_none h]
    rfl
  · rw [bind_of_error h]
    rfl
  · rw [bind_of_ok h]
    simp [Pure.pure, Run.pure, Logged.ok, Logged.after, Except.map]

theorem bind_pure_eq_some_iff {f : α → β} {y : Except Fault β} :
    (x >>= fun a => Pure.pure (f a)) store = some (⟨log, y⟩, store') ↔
      ∃ z, x store = some (⟨log, z⟩, store') ∧ y = z.map f := by
  rw [bind_pure_at, Option.map_eq_some_iff]
  constructor
  · rintro ⟨⟨⟨log, z⟩, store'⟩, ended, same⟩
    cases same
    exact ⟨z, ended, rfl⟩
  · rintro ⟨z, ended, rfl⟩
    exact ⟨_, ended, rfl⟩

/-- A computation whose answer is changed or refused. -/
theorem bind_ofExcept_eq_some_iff {f : α → Except Fault β} {y : Except Fault β} :
    (x >>= fun a => ofAct (Logged.ofExcept (f a))) store = some (⟨log, y⟩, store') ↔
      ∃ z, x store = some (⟨log, z⟩, store') ∧ y = z >>= f := by
  rcases h : x store with _ | ⟨⟨log', fault | a⟩, store''⟩
  · rw [bind_of_none h]
    simp
  · rw [bind_of_error h]
    constructor
    · intro same
      cases same
      exact ⟨_, rfl, rfl⟩
    · rintro ⟨z, same, rfl⟩
      cases same
      rfl
  · have changed : ofAct (Logged.ofExcept (f a) : Act β) store'' = some (⟨[], f a⟩, store'') := rfl
    rw [bind_of_ok h, changed]
    constructor
    · intro same
      cases same
      exact ⟨_, by rw [List.append_nil], rfl⟩
    · rintro ⟨z, same, rfl⟩
      cases same
      rw [Option.map_some, Logged.after, List.append_nil]
      rfl

theorem bind_eq_some_iff {last : Logged Event β × Store} :
    (x >>= f) store = some last ↔
      (∃ log fault store', x store = some (⟨log, .error fault⟩, store') ∧
        last = (⟨log, .error fault⟩, store')) ∨
      ∃ log a store' y, x store = some (⟨log, .ok a⟩, store') ∧ f a store' = some y ∧
        last = (y.1.after log, y.2) := by
  rcases hx : x store with _ | ⟨⟨log, fault | a⟩, store'⟩
  · rw [bind_of_none hx]
    simp
  · rw [bind_of_error hx]
    constructor
    · intro h
      exact .inl ⟨log, fault, store', rfl, (Option.some.inj h).symm⟩
    · rintro (⟨_, _, _, hx, rfl⟩ | ⟨_, _, _, _, hx, _⟩)
      · cases hx
        rfl
      · cases hx
  · rw [bind_of_ok hx, Option.map_eq_some_iff]
    constructor
    · intro ended
      obtain ⟨y, hf, rfl⟩ := ended
      exact .inr ⟨log, a, store', y, rfl, hf, rfl⟩
    · rintro (⟨_, _, _, hx, _⟩ | ⟨_, _, _, y, hx, hf, rfl⟩)
      · cases hx
      · cases hx
        exact ⟨y, hf, rfl⟩

/-- Two computations agree from a store on if their first parts do, and what follows does wherever
the first part leads. -/
theorem bind_congr_at {y : Run α} {g : α → Run β} (first : x store = y store)
    (next : ∀ log a store', y store = some (⟨log, .ok a⟩, store') → f a store' = g a store') :
    (x >>= f) store = (y >>= g) store := by
  rcases hy : y store with _ | ⟨⟨log, fault | a⟩, store'⟩
  · rw [bind_of_none hy, bind_of_none (first.trans hy)]
  · rw [bind_of_error hy, bind_of_error (first.trans hy)]
  · rw [bind_of_ok hy, bind_of_ok (first.trans hy), next log a store' hy]

end Binding

theorem settle_eq_bind (start : Cursor) (x : Run Result) :
    x.settle start = x >>= fun r => Pure.pure (r.settle start) := by
  funext store
  simp only [settle, Bind.bind, Run.bind]
  rcases x store with _ | ⟨⟨log, fault | r⟩, store'⟩
  · rfl
  · rfl
  · simp [Pure.pure, Run.pure, Logged.ok, Logged.after]

namespace Tends

variable {xs : Nat → Run α} {y z : Run α}

theorem unique (hy : Tends xs y) (hz : Tends xs z) : y = z := by
  funext store
  apply Option.ext
  intro last
  rw [hy.ends, hz.ends]

theorem const (x : Run α) : Tends (fun _ => x) x := ⟨fun _ _ _ => .refl x, fun _ _ => by simp⟩

theorem succ (h : Tends xs y) : Tends (fun n => xs (n + 1)) y := by
  refine ⟨fun m n le => h.rising _ _ (by omega), fun store last => ?_⟩
  rw [h.ends]
  constructor
  · intro ended
    obtain ⟨n, hn⟩ := ended
    exact ⟨n, h.rising _ _ (Nat.le_succ n) store last hn⟩
  · intro ended
    obtain ⟨n, hn⟩ := ended
    exact ⟨n + 1, hn⟩

/-- Runs between two neighbours of a family tend to the same run. -/
theorem between {xs' : Nat → Run α} (h : Tends xs y)
    (rising : ∀ m n, m ≤ n → (xs' m).Below (xs' n)) (above : ∀ n, (xs n).Below (xs' n))
    (below : ∀ n, (xs' n).Below (xs (n + 1))) : Tends xs' y := by
  refine ⟨rising, fun store last => ?_⟩
  rw [h.ends]
  constructor
  · intro ended
    obtain ⟨n, hn⟩ := ended
    exact ⟨n, above n store last hn⟩
  · intro ended
    obtain ⟨n, hn⟩ := ended
    exact ⟨n + 1, below n store last hn⟩

theorem bind {f : Nat → α → Run β} {g : α → Run β} (first : Tends xs y)
    (second : ∀ a, Tends (fun n => f n a) (g a)) : Tends (fun n => xs n >>= f n) (y >>= g) := by
  have rising : ∀ m n, m ≤ n → (xs m >>= f m).Below (xs n >>= f n) :=
    fun m n le => .bind (first.rising m n le) fun a => (second a).rising m n le
  refine ⟨rising, fun store last => ?_⟩
  simp only [bind_eq_some_iff, first.ends, (second _).ends]
  constructor
  · rintro (⟨log, fault, store', ⟨n, hn⟩, rfl⟩ | ⟨log, a, store', y, ⟨m, hm⟩, ⟨n, hn⟩, rfl⟩)
    · exact ⟨n, .inl ⟨log, fault, store', hn, rfl⟩⟩
    · refine ⟨max m n, .inr ⟨log, a, store', y, ?_, ?_, rfl⟩⟩
      · exact first.rising _ _ (Nat.le_max_left m n) _ _ hm
      · exact (second a).rising _ _ (Nat.le_max_right m n) _ _ hn
  · rintro ⟨n, ⟨log, fault, store', hn, rfl⟩ | ⟨log, a, store', y, hx, hf, rfl⟩⟩
    · exact .inl ⟨log, fault, store', ⟨n, hn⟩, rfl⟩
    · exact .inr ⟨log, a, store', y, ⟨n, hx⟩, ⟨n, hf⟩, rfl⟩

theorem settle {xs : Nat → Run Result} {y : Run Result} (h : Tends xs y) (start : Cursor) :
    Tends (fun n => (xs n).settle start) (y.settle start) := by
  simp only [settle_eq_bind]
  exact h.bind fun _ => .const _

end Tends

end Run

namespace Parser

variable {env : Env}

/-- What a parser comes to at a cursor when the budget is not bounded. -/
noncomputable def eval (env : Env) (p : Parser) (c : Cursor) : Run Result :=
  Run.limit fun n => run env n p c

theorem run_tends (env : Env) (p : Parser) (c : Cursor) :
    Run.Tends (fun n => run env n p c) (eval env p c) :=
  Run.tends_limit fun _ _ le => run_below env le p c

theorem eval_eq_some_iff {p : Parser} {c : Cursor} {store : Store}
    {last : Logged Event Result × Store} :
    eval env p c store = some last ↔ ∃ n, run env n p c store = some last :=
  (run_tends env p c).ends store last

/-- Only a repetition looks at the budget itself, so all other steps tend to the step whose parts
are not bounded. -/
theorem step_tends (env : Env) (p : Parser) (c : Cursor) (single : ∀ q, p ≠ .many q) :
    Run.Tends (fun n => step (run env n) n env p c) (step (eval env) 0 env p c) := by
  have each := run_tends env
  cases p with
  | atom a => exact .const _
  | andThen p notes next =>
    refine .bind (each p c) fun r => ?_
    split
    · exact .bind (.const _) fun _ => .bind (.const _) fun q => each q _
    · exact .const _
  | both p q combine =>
    refine .bind (each p c) fun r => ?_
    split
    · exact .bind (each q _) fun _ => .const _
    · exact .const _
  | map p f => exact .bind (each p c) fun _ => .const _
  | or p q =>
    refine .bind (each p c) fun r => ?_
    split
    · exact .const _
    · exact each q c
  | not p => exact .bind (each p c) fun _ => .const _
  | many p => exact absurd rfl (single p)
  | lookAhead p => exact .bind (each p c) fun _ => .const _
  | trace tag text p => exact .bind (.const _) fun _ => .bind (each p c) fun _ => .const _
  | label p name => exact each p c
  | wrap p name => exact each p c
  | forward cell name => exact .bind (.const _) fun p => each p c
  | lazy cell name => exact .bind (.const _) fun p => each p c

theorem eval_eq_step (env : Env) (p : Parser) (c : Cursor) (single : ∀ q, p ≠ .many q) :
    eval env p c = (step (eval env) 0 env p c).settle c :=
  (run_tends env p c).succ.unique ((step_tends env p c single).settle c)

end Parser

end Rewind
