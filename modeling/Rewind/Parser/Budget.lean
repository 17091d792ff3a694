import Rewind.Parser.Run

namespace Rewind

/-- The second computation ends wherever the first does, and in the same way. -/
def Run.Below {α : Type} (x y : Run α) : Prop :=
  ∀ (store : Store) (last : Logged Event α × Store), x store = some last → y store = some last

namespace Run

variable {α β : Type}

theorem Below.refl (x : Run α) : x.Below x := fun _ _ h => h

theorem spent_below (x : Run α) : (spent : Run α).Below x := fun _ _ h => nomatch h

theorem Below.bind {x y : Run α} {f g : α → Run β} (first : x.Below y)
    (second : ∀ a, (f a).Below (g a)) : (x >>= f).Below (y >>= g) := by
  intro store last h
  simp only [Bind.bind, Run.bind] at h ⊢
  split at h
  · cases h
  · next hx =>
    rw [first _ _ hx]
    exact h
  · next log a store' hx =>
    rw [first _ _ hx]
    split at h
    · cases h
    · next hf =>
      simp only [second a _ _ hf]
      exact h

theorem Below.settle {x y : Run Result} (start : Cursor) (h : x.Below y) :
    (x.settle start).Below (y.settle start) := by
  intro store last hx
  simp only [Run.settle] at hx ⊢
  split at hx
  · next hr =>
    rw [h _ _ hr]
    exact hx
  · next other =>
    rw [h _ _ hx]
    split
    · next hr => exact absurd (hr ▸ hx) (by simpa using other _ _ _)
    · rfl

theorem repeated_below {round round' : Cursor → Run Result} {stop : Cursor → Event}
    (each : ∀ c, (round c).Below (round' c)) {m n : Nat} (more : m ≤ n) (c : Cursor)
    (values : List Value) (events : List Event) :
    (repeated round stop m c values events).Below (repeated round' stop n c values events) := by
  induction m generalizing n c values events with
  | zero => exact spent_below _
  | succ m ih =>
    obtain ⟨n, rfl⟩ : ∃ k, n = k + 1 := ⟨n - 1, by omega⟩
    intro store last h
    simp only [repeated] at h ⊢
    split at h
    · cases h
    · next hr =>
      rw [each c _ _ hr]
      exact h
    · next hr =>
      rw [each c _ _ hr]
      simp only
      split at h
      · next failed =>
        rw [if_pos failed]
        exact h
      · next matched =>
        rw [if_neg matched]
        split at h
        · next stuck =>
          rw [if_pos stuck]
          exact h
        · next moved =>
          rw [if_neg moved]
          exact ih (by omega) _ _ _ _ _ h

end Run

namespace Parser

theorem step_below {run run' : Parser → Cursor → Run Result} {m n : Nat} (more : m ≤ n)
    (each : ∀ p c, (run p c).Below (run' p c)) (env : Env) (p : Parser) (c : Cursor) :
    (step run m env p c).Below (step run' n env p c) := by
  cases p with
  | atom a => exact .refl _
  | andThen p notes next =>
    refine .bind (each p c) fun r => ?_
    split
    · exact .bind (.refl _) fun _ => .bind (.refl _) fun q => each q _
    · exact .refl _
  | both p q combine =>
    refine .bind (each p c) fun r => ?_
    split
    · exact .bind (each q _) fun _ => .refl _
    · exact .refl _
  | map p f => exact .bind (each p c) fun _ => .refl _
  | or p q =>
    refine .bind (each p c) fun r => ?_
    split
    · exact .refl _
    · exact each q c
  | not p => exact .bind (each p c) fun _ => .refl _
  | many p => exact Run.repeated_below (each p) more c [] []
  | lookAhead p => exact .bind (each p c) fun _ => .refl _
  | trace tag text p => exact .bind (.refl _) fun _ => .bind (each p c) fun _ => .refl _
  | label p name => exact each p c
  | wrap p name => exact each p c
  | forward cell name => exact .bind (.refl _) fun p => each p c
  | lazy cell name => exact .bind (.refl _) fun p => each p c

theorem run_below (env : Env) {m n : Nat} (more : m ≤ n) (p : Parser) (c : Cursor) :
    (run env m p c).Below (run env n p c) := by
  induction m generalizing n p c with
  | zero => exact Run.spent_below _
  | succ m ih =>
    obtain ⟨n, rfl⟩ : ∃ k, n = k + 1 := ⟨n - 1, by omega⟩
    have more' : m ≤ n := by omega
    exact .settle c (step_below more' (ih more') env p c)

end Parser

end Rewind
