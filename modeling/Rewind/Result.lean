import Rewind.Logged
import Rewind.Value.Equality

namespace Rewind

structure Result where
  value : Value
  cursor : Cursor
  ok : Bool

namespace Result

def success (value : Value) (cursor : Cursor) : Result := ⟨value, cursor, true⟩

def failure (cursor : Cursor) : Result := ⟨.none, cursor, false⟩

/-- A failure gives back the cursor that the parse began with and carries no value. -/
def settle (start : Cursor) (r : Result) : Result := if r.ok then r else failure start

theorem settle_of_ok {start : Cursor} {r : Result} (h : r.ok = true) : r.settle start = r := by
  simp [settle, h]

theorem settle_of_not_ok {start : Cursor} {r : Result} (h : r.ok = false) :
    r.settle start = failure start := by
  simp [settle, h]

theorem settle_settle (start : Cursor) (r : Result) :
    (r.settle start).settle start = r.settle start := by
  cases h : r.ok <;> simp [settle, failure, h]

/-- Goes on with a handler after a success. -/
def ifSuccess (r : Result) (handler : Result → Act Result) : Act Result :=
  if r.ok then handler r else pure r

/-- Goes on with a handler after a failure. -/
def ifFailure (r : Result) (handler : Result → Act Result) : Act Result :=
  if r.ok then pure r else handler r

def same (r s : Result) : Bool := r.value == s.value && r.cursor == s.cursor && r.ok == s.ok

def display (r : Result) : String :=
  if r.ok then
    "succeeded with value " ++ r.value.display ++ " at position " ++ toString r.cursor.position
  else "failed, unconsumed, at position " ++ toString r.cursor.position

/-- The written form. A failure shows its position only. -/
def write (r : Result) : Except Fault String :=
  let shown : Value := .int r.cursor.position
  (if r.ok then .tuple [r.value, shown] else shown).shownIn r.display

def describe (r : Result) : String :=
  "Result(value=" ++ r.value.display ++ ", remaining_input=" ++ r.cursor.describe ++
    ", is_success=" ++ (Value.bool r.ok).display ++ ")"

/-- The position of what is left, as a value. -/
def positionValue (r : Result) : Value := .int r.cursor.position

def restValue (r : Result) : Value := .str r.cursor.remaining

def okValue (r : Result) : Value := .bool r.ok

/-- What a handler answers: a value made from the one at hand, at a cursor moved from the one at
hand. -/
def moved (ok : Bool) (f : Value → Act Value) (steps : Int) (r : Result) : Act Result := do
  let value ← f r.value
  let cursor ← Logged.ofExcept (r.cursor.advance steps)
  return ⟨value, cursor, ok⟩

end Result

end Rewind
