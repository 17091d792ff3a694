import Rewind.Rule.Basic

namespace Rewind

structure Script where
  ok : Bool
  value : Value
  steps : Int
  /-- The text to go over to, if any. -/
  text : Option (Array Char)

def Script.run (s : Script) (c : Cursor) : Act Result := do
  let d ← Logged.ofExcept (Cursor.at? (s.text.getD c.text) (c.position + s.steps))
  return ⟨s.value, d, s.ok⟩

namespace Rule

def scripted (s : Script) (name : String) (ownName : Option String) : Rule :=
  .atom (.handmade s.run name ownName)

/-- A value that is no function makes no parser. -/
def ofValue (v : Value) : Rule :=
  match v with
  | .none => .raise .missingFunction
  | v => .raise (.notFunction v.kind)

/-- A value that is no parser cannot follow one. -/
def beforeValue (r : Rule) (v : Value) : Rule := .binary .before r (.raise (.notSequel v.kind))

end Rule

end Rewind
