import Rewind.Cursor

namespace Rewind.Cursor

inductive Step where
  | atEnd
  | current
  | remaining
  | display
  | describe
  | advance (steps : Int)
  | reset (text : Array Char) (position : Int)
  | equals (text : Array Char) (position : Int)

def take (c : Cursor) : Step → Except Fault (Value × Cursor)
  | .atEnd => return (.bool c.atEnd, c)
  | .current => return (.ofChar (← c.current), c)
  | .remaining => return (.str c.remaining, c)
  | .display => return (.str (← (Value.int c.position).shownIn c.display), c)
  | .describe => return (.str (← (Value.int c.position).shownIn c.describe), c)
  | .advance steps => return (.none, ← c.advance steps)
  | .reset text position => return (.none, ← at? text position)
  | .equals text position => return (.bool (c == (← at? text position)), c)

/-- The cursor after an operation, also after one that failed. -/
def after (c : Cursor) (step : Step) : Cursor :=
  match c.take step with
  | .ok (_, d) => d
  | .error _ => c

end Rewind.Cursor
