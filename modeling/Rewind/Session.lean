import Rewind.Parser.Run
import Rewind.Report

namespace Rewind

structure Session where
  env : Env
  store : Store
  cursor : Cursor

inductive Command where
  | bind (name : String) (rule : Rule)
  /-- Binds a new forward parser. -/
  | declare (name label : String)
  | define (name : String) (rule : Rule)
  /-- Tries to define a forward parser as something that is no parser. -/
  | defineValue (name : String) (value : Value)
  | inspect (rule : Rule)
  | parse (rule : Rule) (text : Array Char) (position : Int)
  | run (rule : Rule) (text : Array Char) (requireEnd : Bool)
  | seek (text : Array Char) (position : Int)
  /-- Parses from the session's cursor, which moves to what is left. -/
  | feed (rule : Rule)

inductive Answer where
  | bound (name : String)
  | defined
  | inspected (name display : String) (isForward : Bool)
  | parsed (name : String) (result : Result)
  | ran (name : String) (outcome : Except Report Value)
  | moved (cursor : Cursor)
  | fed (result : Result)

namespace Parser

/-- Runs a parser once over a text. If the end is required, text that is left behind is reported. -/
def runText (p : Parser) (env : Env) (budget : Nat) (text : Array Char) (requireEnd : Bool) :
    Run (Except Report Value) := do
  let r ← p.run env budget (.start text)
  return Report.ofResult requireEnd r

/-- Checks that a forward parser is still undefined and gives its cell. -/
def undefinedCell (p : Parser) : Run Nat := fun store =>
  match p with
  | forward cell _ =>
    match store.target? cell with
    | none => Run.pure cell store
    | some _ => Run.raise (.alreadyDefined p.name) store
  | p => Run.raise (.unbound p.name) store

def define (p target : Parser) : Run Unit := do
  let cell ← p.undefinedCell
  Run.write (.defined p.name target.name)
  Run.ofBuild (modify fun store => store.fill cell target)

def defineValue (p : Parser) (value : Value) : Run Unit := do
  let _ ← p.undefinedCell
  Run.raise (.notParser value.kind)

end Parser

namespace Session

def start : Session := ⟨[], #[], .start #[]⟩

/-- What a command answers, and the names and the cursor after it. -/
def meaning (budget : Nat) (s : Session) : Command → Run (Answer × Env × Cursor)
  | .bind name rule => do
    let p ← Run.ofBuild (rule.build s.env)
    return (.bound p.name, (name, p) :: s.env, s.cursor)
  | .declare name label => do
    let p ← Run.ofBuild (Store.newForward label)
    return (.bound p.name, (name, p) :: s.env, s.cursor)
  | .define name rule => do
    let p ← Run.ofBuild (Rule.lookup s.env name)
    let target ← Run.ofBuild (rule.build s.env)
    p.define target
    return (.defined, s.env, s.cursor)
  | .defineValue name value => do
    let p ← Run.ofBuild (Rule.lookup s.env name)
    p.defineValue value
    return (.defined, s.env, s.cursor)
  | .inspect rule => do
    let p ← Run.ofBuild (rule.build s.env)
    return (.inspected p.name p.display p.isForward, s.env, s.cursor)
  | .parse rule text position => do
    let p ← Run.ofBuild (rule.build s.env)
    let c ← Run.ofAct (Logged.ofExcept (Cursor.at? text position))
    let r ← p.run s.env budget c
    return (.parsed p.name r, s.env, s.cursor)
  | .run rule text requireEnd => do
    let p ← Run.ofBuild (rule.build s.env)
    let outcome ← p.runText s.env budget text requireEnd
    return (.ran p.name outcome, s.env, s.cursor)
  | .seek text position => do
    let c ← Run.ofAct (Logged.ofExcept (Cursor.at? text position))
    return (.moved c, s.env, c)
  | .feed rule => do
    let p ← Run.ofBuild (rule.build s.env)
    let r ← p.run s.env budget s.cursor
    return (.fed r, s.env, r.cursor)

def step (budget : Nat) (s : Session) (command : Command) :
    Option (Logged Event Answer × Session) :=
  match meaning budget s command s.store with
  | none => none
  | some (⟨log, .error fault⟩, store) => some (⟨log, .error fault⟩, { s with store })
  | some (⟨log, .ok (answer, env, cursor)⟩, store) =>
    some (⟨log, .ok answer⟩, ⟨env, store, cursor⟩)

/-- Performs commands up to the first fault and gives the last answer, with all records. -/
def steps (budget : Nat) (last : Command) : List Command → Session →
    Option (Logged Event Answer × Session)
  | [], s => step budget s last
  | command :: rest, s =>
    match step budget s command with
    | some (⟨log, .ok _⟩, s) => (steps budget last rest s).map fun (x, s) => (x.after log, s)
    | stopped => stopped

/-- The session after commands that run no parser. -/
def ofCommands (commands : List Command) : Session :=
  commands.foldl (fun s command => ((step 0 s command).map Prod.snd).getD s) start

end Session

/-- Declares all names of a grammar first, so that its rules may refer to each other. -/
def grammarCommands (grammar : List (String × Rule)) : List Command :=
  grammar.map (fun g => .declare g.1 g.1) ++ grammar.map (fun g => .define g.1 g.2)

end Rewind
