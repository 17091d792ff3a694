import Rewind.Result

namespace Rewind.Result

/-- A result as it is asked for: a failure carries no value unless it is put together by hand. -/
structure Outline where
  ok : Bool
  value : Value
  text : Array Char
  position : Int
  byHand : Bool

def Outline.result (o : Outline) : Except Fault Result := do
  let c ← Cursor.at? o.text o.position
  return if o.byHand then ⟨o.value, c, o.ok⟩ else if o.ok then success o.value c else failure c

inductive Step where
  | display
  | describe
  | equals (other : Outline)
  | ifSuccess (handler : Result → Act Result)
  | ifFailure (handler : Result → Act Result)

inductive Shown where
  | value (value : Value)
  /-- Whether the handler was called. Where it was not, the result is the one before. -/
  | handled (called : Bool)

def take (r : Result) : Step → Act (Shown × Result)
  | .display => do
    let text ← Logged.ofExcept r.write
    return (.value (.str text), r)
  | .describe => do
    let text ← Logged.ofExcept ((Value.tuple [r.value, r.positionValue]).shownIn r.describe)
    return (.value (.str text), r)
  | .equals other => do
    let s ← Logged.ofExcept other.result
    return (.value (.bool (r.same s)), r)
  | .ifSuccess handler => do
    let s ← r.ifSuccess handler
    return (.handled r.ok, s)
  | .ifFailure handler => do
    let s ← r.ifFailure handler
    return (.handled !r.ok, s)

end Rewind.Result
