import Rewind.Rule.Build
import Rewind.Run

namespace Rewind

namespace Atom

/-- Reads the characters one after another. -/
def readLiteral : List Char → Cursor → Option Cursor
  | [], c => some c
  | x :: xs, c => if c.char? = some x then readLiteral xs c.next else none

def run : Atom → Cursor → Act Result
  | satisfy test _, c =>
    match c.char? with
    | none => pure (.failure c)
    | some x => do
      let passed ← test x
      return if passed then .success (.ofChar x) c.next else .failure c
  | literal chars value, c =>
    match readLiteral chars c with
    | some d => pure (.success value d)
    | none => pure (.failure c)
  | constant value, c => pure (.success value c)
  | fail _, c => pure (.failure c)
  | handmade run _ _, c => run c

end Atom

namespace Run

/-- The parser that a forward cell stands for. -/
def target (cell : Nat) (name : String) : Run Parser := fun store =>
  match store.target? cell with
  | some p => some (.ok p, store)
  | none => raise (.undefinedForward name) store

/-- The parser in a lazy cell, which is built if the cell is empty. The cell stays empty if that
fails. -/
def force (env : Env) (cell : Nat) : Run Parser := fun store =>
  match store[cell]? with
  | some (.lazy _ _ _ (some p)) => some (.ok p, store)
  | some (.lazy name watched thunk none) =>
    let log := if watched then [.filled name] else []
    match thunk.build env store with
    | (.ok p, store) => some (⟨log, .ok p⟩, store.fill cell p)
    | (.error fault, store) => some (⟨log, .error fault⟩, store)
  | _ => raise (.unbound "") store

end Run

/-- The record with which a trace ends. -/
def Result.traceEnd (tag : Nat) (label : String) (start : Cursor) (r : Result) : Event :=
  if r.ok then .succeeded tag label r.value r.cursor.position else .failed tag label start.position

namespace Parser

open Run in
/-- One step of a run: what a parser does in terms of its parts, which `run` runs. -/
@[inline] def step (run : Parser → Cursor → Run Result) (budget : Nat) (env : Env) :
    Parser → Cursor → Run Result
  | atom a, c => ofAct (a.run c)
  | andThen p notes next, c => do
    let r ← run p c
    if r.ok then
      writeNotes (notes r)
      let q ← ofBuild ((next r).build env)
      run q r.cursor
    else return r
  | both p q combine, c => do
    let r ← run p c
    if r.ok then
      let s ← run q r.cursor
      if s.ok then
        let value ← ofAct (combine r.value s.value)
        return .success value s.cursor
      else return s
    else return r
  | map p f, c => do
    let r ← run p c
    if r.ok then
      let value ← ofAct (f r.value >>= Value.asConstant)
      return .success value r.cursor
    else return r
  | or p q, c => do
    let r ← run p c
    if r.ok then return r else run q c
  | not p, c => do
    let r ← run p c
    return if r.ok then .failure c else .success .none c
  | many p, c => repeated (run p) (fun d => .stopped p.name d.position) budget c [] []
  | lookAhead p, c => do
    let r ← run p c
    return if r.ok then .success r.value c else r
  | trace tag text p, c => do
    write (.entered tag text c)
    let r ← run p c
    write (r.traceEnd tag text c)
    return r
  | label p _, c => run p c
  | wrap p _, c => run p c
  | forward cell given, c => do
    let p ← target cell (forward cell given).name
    run p c
  | lazy cell _, c => do
    let p ← force env cell
    run p c

def run (env : Env) : Nat → Parser → Cursor → Run Result
  | 0, _, _ => Run.spent
  | budget + 1, p, c => Run.settle c (step (run env budget) budget env p c)

end Parser

end Rewind
