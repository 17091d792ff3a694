import Rewind.Result

namespace Rewind

structure Report where
  position : Int
  leftover : String
  unconsumed : Bool

namespace Report

def display (r : Report) : String :=
  if r.unconsumed then
    "unconsumed input at position " ++ toString r.position ++ ": " ++ Text.quoted r.leftover
  else "failed, unconsumed, at position " ++ toString r.position

/-- The written form, unless the position is too long. -/
def write (r : Report) : Except Fault String := (Value.int r.position).shownIn r.display

def describe (r : Report) : String :=
  "ParseError(position=" ++ toString r.position ++ ", leftover=" ++ Text.quoted r.leftover ++
    ", unconsumed=" ++ (Value.bool r.unconsumed).display ++ ")"

/-- The value of a result, or the report of what stands against it. -/
def ofResult (requireEnd : Bool) (r : Result) : Except Report Value :=
  if !r.ok then .error ⟨r.cursor.position, "", false⟩
  else if requireEnd && !r.cursor.atEnd then
    .error ⟨r.cursor.position, r.cursor.remaining, true⟩
  else .ok r.value

end Report

end Rewind
