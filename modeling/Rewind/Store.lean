import Rewind.Parser.Basic

namespace Rewind

inductive Cell where
  | forward (target : Option Parser)
  | lazy (name : Option String) (watched : Bool) (thunk : Rule) (built : Option Parser)

abbrev Store := Array Cell

/-- Parsers by name, the latest first. -/
abbrev Env := List (String × Parser)

/-- Building adds cells, which stay when it ends in a fault. -/
abbrev Build := ExceptT Fault (StateM Store)

namespace Store

/-- Adds a cell and gives its number. -/
def allocate (cell : Cell) : Build Nat := do
  let store ← get
  set (store.push cell)
  return store.size

def newForward (name : String) : Build Parser := do
  let cell ← allocate (.forward none)
  return .forward cell name

def newLazy (name : Option String) (watched : Bool) (thunk : Rule) : Build Parser := do
  let cell ← allocate (.lazy name watched thunk none)
  return .lazy cell name

/-- What a forward cell stands for. -/
def target? (store : Store) (cell : Nat) : Option Parser :=
  match store[cell]? with
  | some (.forward target) => target
  | _ => none

/-- Puts a parser into a cell that is empty. -/
def fill (store : Store) (cell : Nat) (p : Parser) : Store :=
  match store[cell]? with
  | some (.forward none) => store.setIfInBounds cell (.forward p)
  | some (.lazy name watched thunk none) => store.setIfInBounds cell (.lazy name watched thunk p)
  | _ => store

end Store

end Rewind
