import Rewind.Store

namespace Rewind

def Run (α : Type) := Store → Option (Logged Event α × Store)

namespace Run

variable {α β : Type}

@[inline] def pure (a : α) : Run α := fun store => some (.ok a, store)

@[inline] def bind (x : Run α) (f : α → Run β) : Run β := fun store =>
  match x store with
  | none => none
  | some (⟨log, .error fault⟩, store) => some (⟨log, .error fault⟩, store)
  | some (⟨log, .ok a⟩, store) =>
    match f a store with
    | none => none
    | some (y, store) => some (y.after log, store)

instance : Monad Run where
  pure := pure
  bind := bind

theorem pure_bind (a : α) (f : α → Run β) : (pure a).bind f = f a := by
  funext store
  simp only [bind, pure, Logged.ok]
  cases f a store with
  | none => rfl
  | some r => rfl

theorem map_id (x : Run α) : id <$> x = x := by
  funext store
  simp only [Functor.map, bind, Function.comp_def, id_eq]
  split
  · next h => rw [h]
  · next h => rw [h]
  · next h => rw [h]; simp [pure, Logged.ok, Logged.after]

theorem bind_bind {γ : Type} (x : Run α) (f : α → Run β) (g : β → Run γ) :
    (x.bind f).bind g = x.bind fun a => (f a).bind g := by
  funext store
  simp only [bind]
  cases x store with
  | none => rfl
  | some r =>
    obtain ⟨⟨log, result⟩, store⟩ := r
    cases result with
    | error fault => rfl
    | ok a =>
      cases hf : f a store with
      | none => simp [hf]
      | some r =>
        obtain ⟨⟨log', result⟩, store⟩ := r
        cases result with
        | error fault => simp [hf, Logged.after]
        | ok b =>
          cases hg : g b store with
          | none => simp [hf, hg, Logged.after]
          | some r => simp [hf, hg, Logged.after]

instance : LawfulMonad Run := LawfulMonad.mk' _ map_id pure_bind bind_bind

/-- The budget is spent. -/
def spent : Run α := fun _ => none

def raise (fault : Fault) : Run α := fun store => some (.raise fault, store)

def write (event : Event) : Run Unit := fun store => some (.write event, store)

def writeNotes (notes : List Note) : Run Unit := fun store =>
  some (⟨notes.map .note, .ok ()⟩, store)

def ofAct (x : Act α) : Run α := fun store => some (x.mapLog .note, store)

def ofBuild (x : Build α) : Run α := fun store =>
  let (result, store) := x store
  some (.ofExcept result, store)

def settle (start : Cursor) (x : Run Result) : Run Result := fun store =>
  match x store with
  | some (⟨log, .ok r⟩, store) => some (⟨log, .ok (r.settle start)⟩, store)
  | other => other

end Run

/-- Whether a success from `c` to `d` got nowhere. -/
def idle (c d : Cursor) : Bool :=
  (c.atEnd && d.atEnd) || (c.position == d.position && c.text == d.text)

/-- Repeats a round until it fails or gets nowhere, and lists the values. A round that gets nowhere
is recorded and its value dropped. The values and records so far come latest first. -/
def Run.repeated (round : Cursor → Run Result) (stop : Cursor → Event) :
    Nat → Cursor → List Value → List Event → Run Result
  | 0, _, _, _ => fun _ => none
  | budget + 1, c, values, events => fun store =>
    match round c store with
    | none => none
    | some (⟨log, .error fault⟩, store) => some (⟨events.reverse ++ log, .error fault⟩, store)
    | some (⟨log, .ok r⟩, store) =>
      let events := log.reverse ++ events
      if !r.ok then
        some (⟨events.reverse, .ok (.success (.list values.reverse) c)⟩, store)
      else if idle c r.cursor then
        some (⟨(stop c :: events).reverse, .ok (.success (.list values.reverse) c)⟩, store)
      else repeated round stop budget r.cursor (r.value :: values) events store

end Rewind
