import Rewind.Parser.Combinators
import Rewind.Store

namespace Rewind.Rule

def lookup (env : Env) (name : String) : Build Parser :=
  match env.lookup name with
  | some p => pure p
  | none => throw (.unbound name)

/-- A parser, unless something stands against making it. -/
def checked (refusal : Option Fault) (p : Parser) : Build Parser :=
  match refusal with
  | some fault => throw fault
  | none => pure p

def build (env : Env) : Rule → Build Parser
  | atom a => checked a.refusal? (.atom a)
  | ref name => lookup env name
  | lazy name watched thunk => Store.newLazy name watched thunk
  | raise fault => throw fault
  | andThen r notes next => do
    let p ← build env r
    return .andThen p notes next
  | unary op r => do
    let p ← build env r
    checked op.refusal? (op.apply p)
  | binary op l r => do
    let p ← build env l
    let q ← build env r
    return op.apply p q
  | between o c b => do
    let p ← build env o
    let q ← build env c
    let r ← build env b
    return Parser.between p q r

end Rewind.Rule
