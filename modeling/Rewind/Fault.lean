import Rewind.Value.Printer

namespace Rewind

inductive Fault where
  /-- A cursor would stand before the start of its text. -/
  | negativePosition (position : Int)
  /-- The current character was asked for at the end of the text. -/
  | endOfInput (position : Nat)
  /-- A parser was to be made without a parse function. -/
  | missingFunction
  /-- A parser was to be made from a value of this kind. -/
  | notFunction (kind : String)
  /-- A value of this kind was to follow a parser. -/
  | notSequel (kind : String)
  /-- A forward parser was to be defined as a value of this kind. -/
  | notParser (kind : String)
  /-- A value of this kind was to be applied to two operands. -/
  | notOperator (kind : String)
  | missingTest
  | missingLiteral
  | notOneCharacter (value : Value)
  /-- A forward parser was used before it was defined. -/
  | undefinedForward (name : String)
  | alreadyDefined (name : String)
  /-- A name stands for no parser, or for one that cannot be used so. -/
  | unbound (name : String)
  | divisionByZero
  | quotientTooLarge
  | integerTooLarge
  /-- An integer has too many digits to be written. -/
  | tooLongToWrite
  /-- An integer of so many digits was to be read. -/
  | tooLongToRead (digits : Nat)
  /-- The length of a value of this kind was asked for. -/
  | notSized (kind : String)
  /-- The items of a value of this kind were asked for. -/
  | notIterable (kind : String)
  /-- A function of two operands was given one. -/
  | missingOperand (function : String)
  /-- A function given to a combinator refused its argument. -/
  | raised (message : String)

namespace Fault

/-- Faults that a handler tells apart. -/
inductive Kind where
  | value
  | type
  | state
  | endOfInput
  | overflow
  | lookup
  deriving DecidableEq

def kind : Fault → Kind
  | negativePosition _ | missingFunction | missingTest | missingLiteral | notOneCharacter _
  | divisionByZero | tooLongToWrite | tooLongToRead _ | raised _ => .value
  | notFunction _ | notSequel _ | notParser _ | notOperator _ | notSized _ | notIterable _
  | missingOperand _ => .type
  | undefinedForward _ | alreadyDefined _ => .state
  | endOfInput _ => .endOfInput
  | quotientTooLarge | integerTooLarge => .overflow
  | unbound _ => .lookup

/-- What is said about an integer of too many digits. -/
def tooLong (found : String) : String :=
  "Exceeds the limit (" ++ toString Text.digitLimit ++ " digits) for integer string conversion" ++
    found ++ "; use sys.set_int_max_str_digits() to increase the limit"

def message : Fault → String
  | negativePosition p => "position must be >= 0, got " ++ toString p
  | endOfInput p => "Unexpected end of input at position " ++ toString p
  | missingFunction => "Parser requires a parse function"
  | notFunction kind => "parse function must be callable, got " ++ kind
  | notSequel kind => "then() expects a Parser or a callable, got " ++ kind
  | notParser kind => "define() expects a Parser, got " ++ kind
  | notOperator kind => Text.quoted kind ++ " object is not callable"
  | missingTest => "satisfy() requires a predicate"
  | missingLiteral => "char() requires a literal or a predicate"
  | notOneCharacter v => "char() expects a single character, got " ++ v.display
  | undefinedForward name => "forward parser " ++ Text.quoted name ++ " used before define()"
  | alreadyDefined name => "forward parser " ++ Text.quoted name ++ " is already defined"
  | unbound name => Text.quoted name
  | divisionByZero => "Division by zero"
  | quotientTooLarge => "integer division result too large for a float"
  | integerTooLarge => "int too large to convert to float"
  | tooLongToWrite => tooLong ""
  | tooLongToRead n => tooLong (": value has " ++ toString n ++ " digits")
  | notSized kind => "object of type " ++ Text.quoted kind ++ " has no len()"
  | notIterable kind => Text.quoted kind ++ " object is not iterable"
  | missingOperand function => function ++ "() missing 1 required positional argument: 'y'"
  | raised message => message

/-- A fault whose message shows a value. If that cannot be written, no such message is made. -/
def showing (v : Value) (fault : Fault) : Fault := if v.writable then fault else tooLongToWrite

end Fault

namespace Value

/-- What stands against showing a value in a name. -/
def refusal? (v : Value) : Option Fault := if v.writable then Option.none else some .tooLongToWrite

theorem refusal?_of_writable {v : Value} (h : v.writable = true) : v.refusal? = Option.none :=
  if_pos h

theorem refusal?_eq_none {v : Value} : v.refusal? = Option.none ↔ v.writable = true := by
  simp [refusal?]

/-- A text in which a value is shown. -/
def shownIn (v : Value) (text : String) : Except Fault String :=
  if v.writable then .ok text else .error .tooLongToWrite

/-- An integer that is read from so many digits. -/
def readInt (digits : Nat) (n : Int) : Except Fault Value :=
  if digits ≤ Text.digitLimit then .ok (.int n) else .error (.tooLongToRead digits)

end Value

end Rewind
