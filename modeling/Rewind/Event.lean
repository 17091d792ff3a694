import Rewind.Cursor

namespace Rewind

/-- Written by a function that was given to a combinator. -/
inductive Note where
  | called (label : String) (value : Value)
  | tested (label : String) (char : Char)

inductive Event where
  | note (note : Note)
  /-- A repetition ended because the parser succeeded without moving on. -/
  | stopped (parser : String) (position : Nat)
  | defined (forward target : String)
  /-- The thunk of a lazy parser was run. -/
  | filled (thunk : Option String)
  /-- Written by a trace before its parser runs, and one of the next two after it. The tag tells
  traces with one label apart and is not shown. -/
  | entered (tag : Nat) (label : String) (cursor : Cursor)
  | succeeded (tag : Nat) (label : String) (value : Value) (position : Nat)
  | failed (tag : Nat) (label : String) (position : Nat)

/-- The text of a record; notes and thunks have none. -/
def Event.message : Event → String
  | note _ | filled _ => ""
  | stopped parser position =>
    "many(" ++ parser ++ "): stopped on zero-width match at " ++ toString position
  | defined forward target => "forward " ++ forward ++ " defined as " ++ target
  | entered _ label cursor => label ++ ": enter at " ++ cursor.display
  | succeeded _ label value position =>
    label ++ ": ok " ++ value.display ++ ", now at " ++ toString position
  | failed _ label position => label ++ ": failed at " ++ toString position

end Rewind
