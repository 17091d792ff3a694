import Rewind.Fault

namespace Rewind

structure Cursor where
  text : Array Char
  position : Nat
  deriving DecidableEq

namespace Cursor

/-- At the start of a text. -/
def start (text : Array Char) : Cursor := ⟨text, 0⟩

/-- A cursor at any integer, which must not be negative. -/
def at? (text : Array Char) (position : Int) : Except Fault Cursor :=
  if position < 0 then .error (.showing (.int position) (.negativePosition position))
  else .ok ⟨text, position.toNat⟩

def atEnd (c : Cursor) : Bool := c.text.size ≤ c.position

def char? (c : Cursor) : Option Char := c.text[c.position]?

def current (c : Cursor) : Except Fault Char :=
  match c.char? with
  | some x => .ok x
  | none => .error (.showing (.int c.position) (.endOfInput c.position))

/-- The cursor after the current character. -/
def next (c : Cursor) : Cursor := ⟨c.text, c.position + 1⟩

/-- Moves by any number of characters, also backward. -/
def advance (c : Cursor) (steps : Int) : Except Fault Cursor := at? c.text (c.position + steps)

def rest (c : Cursor) : List Char := c.text.toList.drop c.position

def remaining (c : Cursor) : String := String.ofList c.rest

/-- The first thirty characters of what is left, and dots if there are more. -/
def preview (c : Cursor) : String :=
  let shown := c.text.extract c.position (c.position + 30)
  String.ofList (shown.toList ++ if c.position + 30 < c.text.size then ['.', '.', '.'] else [])

def display (c : Cursor) : String :=
  "position " ++ toString c.position ++ " (" ++ Text.quoted c.preview ++ ")"

/-- Shows the whole text. -/
def describe (c : Cursor) : String :=
  "Input(text=" ++ Text.quoted (String.ofList c.text.toList) ++
    ", position=" ++ toString c.position ++ ")"

theorem atEnd_iff_rest_eq_nil (c : Cursor) : c.atEnd = true ↔ c.rest = [] := by
  simp [atEnd, rest]

theorem remaining_eq_empty_iff (c : Cursor) : c.remaining = "" ↔ c.atEnd = true := by
  rw [atEnd_iff_rest_eq_nil, remaining]
  exact String.ofList_eq_empty_iff

theorem length_rest (c : Cursor) : c.rest.length = c.text.size - c.position := by
  simp [rest]

theorem char?_eq_head? (c : Cursor) : c.char? = c.rest.head? := by
  simp [char?, rest]

theorem rest_next (c : Cursor) : c.next.rest = c.rest.tail := by
  simp [next, rest]

theorem at?_eq_ok_iff {text : Array Char} {position : Int} {c : Cursor} :
    at? text position = .ok c ↔ 0 ≤ position ∧ c = ⟨text, position.toNat⟩ := by
  unfold at?
  split
  · simp only [reduceCtorEq, false_iff, not_and]
    omega
  · simp only [Except.ok.injEq]
    constructor
    · intro h
      exact ⟨by omega, h.symm⟩
    · intro h
      exact h.2.symm

end Cursor

end Rewind
