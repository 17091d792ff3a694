import Rewind.Event

namespace Rewind

structure Logged (ε α : Type) where
  log : List ε
  result : Except Fault α

/-- What a function given to a combinator does. -/
abbrev Act := Logged Note

namespace Logged

variable {ε δ α β : Type}

def ok (a : α) : Logged ε α := ⟨[], .ok a⟩

def raise (fault : Fault) : Logged ε α := ⟨[], .error fault⟩

def write (record : ε) : Logged ε Unit := ⟨[record], .ok ()⟩

def ofExcept (result : Except Fault α) : Logged ε α := ⟨[], result⟩

/-- Puts records in front. -/
def after (log : List ε) (x : Logged ε α) : Logged ε α := ⟨log ++ x.log, x.result⟩

def bind (x : Logged ε α) (f : α → Logged ε β) : Logged ε β :=
  match x.result with
  | .ok a => (f a).after x.log
  | .error fault => ⟨x.log, .error fault⟩

instance : Monad (Logged ε) where
  pure := ok
  bind := bind

theorem after_nil (x : Logged ε α) : x.after [] = x := rfl

theorem after_after (log log' : List ε) (x : Logged ε α) :
    (x.after log').after log = x.after (log ++ log') := by
  simp [after]

theorem map_id (x : Logged ε α) : id <$> x = x := by
  obtain ⟨log, result⟩ := x
  cases result <;> simp [Functor.map, bind, ok, after]

theorem bind_bind {γ : Type} (x : Logged ε α) (f : α → Logged ε β) (g : β → Logged ε γ) :
    (x.bind f).bind g = x.bind fun a => (f a).bind g := by
  obtain ⟨log, result⟩ := x
  cases result with
  | error fault => rfl
  | ok a =>
    simp only [bind, after]
    cases (f a).result <;> simp

theorem result_bind (x : Logged ε α) (f : α → Logged ε β) :
    (x >>= f).result = x.result.bind fun a => (f a).result := by
  obtain ⟨log, fault | a⟩ := x
  · rfl
  · rfl

instance : LawfulMonad (Logged ε) :=
  LawfulMonad.mk' _ map_id (fun _ _ => rfl) bind_bind

/-- Changes the records. -/
def mapLog (f : ε → δ) (x : Logged ε α) : Logged δ α := ⟨x.log.map f, x.result⟩

end Logged

end Rewind
