import Rewind.Run

namespace Rewind

structure Contract where
  store : Store → Prop
  endless : Prop

/-- How a run may end: in a store of the contract, with a fault that `raises` allows or an answer of
which `returns` holds. -/
def Contract.Allows {α : Type} (C : Contract) (raises : Fault → Prop) (returns : α → Prop) :
    Option (Logged Event α × Store) → Prop
  | none => C.endless
  | some (⟨_, .error fault⟩, store) => C.store store ∧ raises fault
  | some (⟨_, .ok a⟩, store) => C.store store ∧ returns a

/-- Building keeps a property of the store and ends in a fault that `raises` allows or an answer of
which `returns` holds. -/
def Build.Meets {α : Type} (keeps : Store → Prop) (raises : Fault → Prop) (x : Build α)
    (returns : α → Prop) : Prop :=
  ∀ store, keeps store →
    match x store with
    | (.error fault, store') => keeps store' ∧ raises fault
    | (.ok a, store') => keeps store' ∧ returns a

theorem Build.bind_of_ok {α β : Type} {x : Build α} {f : α → Build β} {a : α}
    {store store' : Store} (h : x store = (.ok a, store')) : (x >>= f) store = f a store' := by
  show ExceptT.bindCont f (x store).1 (x store).2 = _
  rw [h]
  rfl

theorem Build.bind_of_error {α β : Type} {x : Build α} {f : α → Build β} {fault : Fault}
    {store store' : Store} (h : x store = (.error fault, store')) :
    (x >>= f) store = (.error fault, store') := by
  show ExceptT.bindCont f (x store).1 (x store).2 = _
  rw [h]
  rfl

namespace Build.Meets

variable {α β : Type} {keeps : Store → Prop} {raises : Fault → Prop}

theorem pure {P : α → Prop} {a : α} (h : P a) :
    Build.Meets keeps raises (Pure.pure a : Build α) P :=
  fun _ hstore => ⟨hstore, h⟩

theorem throw {P : α → Prop} {fault : Fault} (h : raises fault) :
    Build.Meets keeps raises (throw fault : Build α) P :=
  fun _ hstore => ⟨hstore, h⟩

theorem bind {x : Build α} {f : α → Build β} {P : α → Prop} {Q : β → Prop}
    (first : Build.Meets keeps raises x P)
    (second : ∀ a, P a → Build.Meets keeps raises (f a) Q) :
    Build.Meets keeps raises (x >>= f) Q := by
  intro store hstore
  have hx := first store hstore
  have split : (x >>= f) store =
      match x store with
      | (.error fault, store') => (.error fault, store')
      | (.ok a, store') => f a store' := by
    show ExceptT.bindCont f (x store).1 (x store).2 = _
    rcases x store with ⟨fault | a, store'⟩ <;> rfl
  rw [split]
  generalize x store = last at hx ⊢
  rcases last with ⟨fault | a, store'⟩
  · exact hx
  · exact second a hx.2 store' hx.1

theorem allocate {P : Nat → Prop} {cell : Cell}
    (h : ∀ store, keeps store → keeps (store.push cell) ∧ P store.size) :
    Build.Meets keeps raises (Store.allocate cell) P :=
  fun store hstore => h store hstore

end Build.Meets

namespace Run

variable {α β : Type} {C : Contract} {raises raises' : Fault → Prop}

/-- From every store of the contract the run ends as it allows. -/
def Meets (C : Contract) (raises : Fault → Prop) (x : Run α) (returns : α → Prop) : Prop :=
  ∀ store, C.store store → C.Allows raises returns (x store)

namespace Meets

theorem imp {x : Run α} {P Q : α → Prop} (h : x.Meets C raises P)
    (faults : ∀ fault, raises fault → raises' fault) (answers : ∀ a, P a → Q a) :
    x.Meets C raises' Q := by
  intro store hstore
  have hx := h store hstore
  generalize x store = last at hx ⊢
  rcases last with _ | ⟨⟨log, fault | a⟩, store'⟩
  · exact hx
  · exact ⟨hx.1, faults fault hx.2⟩
  · exact ⟨hx.1, answers a hx.2⟩

theorem weaken {x : Run α} {P Q : α → Prop} (h : x.Meets C raises P)
    (answers : ∀ a, P a → Q a) : x.Meets C raises Q :=
  h.imp (fun _ hf => hf) answers

theorem pure {P : α → Prop} {a : α} (h : P a) : (Pure.pure a : Run α).Meets C raises P :=
  fun _ hstore => ⟨hstore, h⟩

theorem raise {P : α → Prop} {fault : Fault} (h : raises fault) :
    (Run.raise fault : Run α).Meets C raises P :=
  fun _ hstore => ⟨hstore, h⟩

theorem spent {P : α → Prop} (h : C.endless) : (Run.spent : Run α).Meets C raises P :=
  fun _ _ => h

theorem bind {x : Run α} {f : α → Run β} {P : α → Prop} {Q : β → Prop}
    (first : x.Meets C raises P) (second : ∀ a, P a → (f a).Meets C raises Q) :
    (x >>= f).Meets C raises Q := by
  intro store hstore
  have hx := first store hstore
  show C.Allows raises Q (Run.bind x f store)
  unfold Run.bind
  generalize x store = last at hx ⊢
  rcases last with _ | ⟨⟨log, fault | a⟩, store'⟩
  · exact hx
  · exact hx
  · have hf := second a hx.2 store' hx.1
    dsimp only
    generalize f a store' = last at hf ⊢
    rcases last with _ | ⟨⟨log', fault | b⟩, store''⟩
    · exact hf
    · exact hf
    · exact hf

theorem settle {x : Run Result} {P : Result → Prop} (start : Cursor)
    (h : x.Meets C raises fun r => P (r.settle start)) : (x.settle start).Meets C raises P := by
  intro store hstore
  have hx := h store hstore
  unfold Run.settle
  generalize x store = last at hx ⊢
  rcases last with _ | ⟨⟨log, fault | r⟩, store'⟩
  · exact hx
  · exact hx
  · exact hx

theorem write {P : Unit → Prop} {event : Event} (h : P ()) :
    (Run.write event).Meets C raises P :=
  fun _ hstore => ⟨hstore, h⟩

theorem writeNotes {P : Unit → Prop} {notes : List Note} (h : P ()) :
    (Run.writeNotes notes).Meets C raises P :=
  fun _ hstore => ⟨hstore, h⟩

theorem ofAct {x : Act α} {P : α → Prop} (faults : ∀ fault, x.result = .error fault → raises fault)
    (answers : ∀ a, x.result = .ok a → P a) : (Run.ofAct x).Meets C raises P := by
  intro store hstore
  obtain ⟨log, fault | a⟩ := x
  · exact ⟨hstore, faults fault rfl⟩
  · exact ⟨hstore, answers a rfl⟩

/-- Without a promise any computation will do. -/
theorem anyAct (x : Act α) : (Run.ofAct x).Meets C (fun _ => True) fun _ => True :=
  .ofAct (fun _ _ => trivial) fun _ _ => trivial

theorem ofBuild {x : Build α} {P : α → Prop} (h : Build.Meets C.store raises x P) :
    (Run.ofBuild x).Meets C raises P := by
  intro store hstore
  have hx := h store hstore
  unfold Run.ofBuild
  generalize x store = last at hx ⊢
  rcases last with ⟨fault | a, store'⟩
  · exact hx
  · exact hx

/-- The rule of the loop: what every round keeps of the cursor and the values, the last one first, holds
where the loop ends. -/
theorem repeated {round : Cursor → Run Result} {stop : Cursor → Event}
    {kept : Cursor → List Value → Prop} (endless : C.endless)
    (each : ∀ c values, kept c values →
      (round c).Meets C raises fun r => r.ok = true → kept r.cursor (r.value :: values))
    (budget : Nat) {c : Cursor} {values : List Value} (hc : kept c values) (events : List Event) :
    (Run.repeated round stop budget c values events).Meets C raises
      fun r => r.ok = true ∧ ∃ values, r.value = .list values.reverse ∧ kept r.cursor values := by
  induction budget generalizing c values events with
  | zero => exact fun _ _ => endless
  | succ budget ih =>
    intro store hstore
    have hround := each c values hc store hstore
    unfold Run.repeated
    generalize round c store = last at hround ⊢
    rcases last with _ | ⟨⟨log, fault | r⟩, store'⟩
    · exact hround
    · exact hround
    · -- The loop ends at `c` unless the round matched and moved on.
      by_cases matched : r.ok = true
      · by_cases stuck : idle c r.cursor = true
        · simp only [matched, stuck]
          exact ⟨hround.1, rfl, values, rfl, hc⟩
        · simp only [matched, stuck]
          exact ih (hround.2 matched) _ store' hround.1
      · simp only [matched]
        exact ⟨hround.1, rfl, values, rfl, hc⟩

end Meets

end Run

end Rewind
