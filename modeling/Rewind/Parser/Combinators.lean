import Rewind.Parser.Basic
import Rewind.Text.Blank

namespace Rewind

/-- The value of a constant that is made in the middle of a run: its name is made there, too. -/
def Value.asConstant (v : Value) : Act Value :=
  match v.refusal? with
  | some fault => Logged.raise fault
  | Option.none => pure v

namespace Value

@[simp]
theorem asConstant_of_writable {v : Value} (h : v.writable = true) : v.asConstant = pure v := by
  simp [asConstant, refusal?_of_writable h]

theorem asConstant_of_not {v : Value} (h : ¬v.writable = true) :
    v.asConstant = Logged.raise .tooLongToWrite := by
  simp [asConstant, refusal?, h]

/-- What comes of a constant is the value, and it can be written. -/
theorem asConstant_cases (v : Value) :
    v.writable = true ∧ v.asConstant = pure v ∨
      ¬v.writable = true ∧ v.asConstant = Logged.raise .tooLongToWrite := by
  by_cases h : v.writable = true
  · exact .inl ⟨h, asConstant_of_writable h⟩
  · exact .inr ⟨h, asConstant_of_not h⟩

theorem eq_of_asConstant {v w : Value} (h : v.asConstant.result = .ok w) :
    w = v ∧ v.writable = true := by
  rcases asConstant_cases v with ⟨fits, made⟩ | ⟨-, raised⟩
  · rw [made] at h
    cases h
    exact ⟨rfl, fits⟩
  · rw [raised] at h
    cases h

theorem writable_of_asConstant {v w : Value} (h : v.asConstant.result = .ok w) :
    w.writable = true := by
  obtain ⟨rfl, fits⟩ := eq_of_asConstant h
  exact fits

theorem eq_of_asConstant_error {v : Value} {fault : Fault} (h : v.asConstant.result = .error fault) :
    fault = .tooLongToWrite ∧ ¬v.writable = true := by
  rcases asConstant_cases v with ⟨-, made⟩ | ⟨long, raised⟩
  · rw [made] at h
    cases h
  · rw [raised] at h
    cases h
    exact ⟨rfl, long⟩

theorem writable_of_bind_asConstant {x : Act Value} {w : Value}
    (h : (x >>= asConstant).result = .ok w) : w.writable = true := by
  rw [Logged.result_bind] at h
  rcases given : x.result with fault | v
  · rw [given] at h
    cases h
  · rw [given] at h
    exact writable_of_asConstant h

theorem asConstant_eq (v : Value) : v.asConstant =
    Logged.ofExcept (if v.writable then .ok v else .error .tooLongToWrite) := by
  by_cases h : v.writable = true
  · rw [asConstant_of_writable h, if_pos h]
    rfl
  · rw [asConstant_of_not h, if_neg h]
    rfl

end Value

namespace Parser

/-- A constant that nothing stood against. -/
def constant (value : Value) : Parser := .atom (.constant value)

def satisfy (test : Char → Bool) (name : String) : Parser :=
  .atom (.satisfy (fun c => pure (test c)) name)

/-- Runs both in order and gives the value of the second. -/
def before (p q : Parser) : Parser :=
  .label (.both p q fun _ y => pure y) (p.name ++ " then " ++ q.name)

/-- Runs both in order and gives the value of the first, which is made a constant between them. -/
def followedBy (p q : Parser) : Parser := .both (p.map pure) q fun x _ => pure x

def blank : Parser := satisfy Text.isBlank "whitespace"

/-- Skips blanks on both sides. -/
def token (p : Parser) : Parser :=
  .label (((many blank).before p).followedBy (many blank)) ("token(" ++ p.name ++ ")")

def cons (p q : Parser) : Parser := .both p q fun x xs => (x.cons xs).asConstant

def snoc (p q : Parser) : Parser := .both p q fun xs x => (xs.snoc x).asConstant

def many1 (p : Parser) : Parser := .label (p.cons (many p)) ("many1(" ++ p.name ++ ")")

def skipMany (p : Parser) : Parser := (many p).map fun _ => pure .none

def option (default : Value) (p : Parser) : Parser := .or p (constant default)

/-- Runs all in order and lists the values. -/
def sequence (ps : List Parser) : Parser := ps.foldl snoc (constant (.list []))

/-- The first that matches. -/
def choice : List Parser → Parser
  | [] => .atom (.fail "no alternatives")
  | p :: ps => ps.foldl or p

/-- Runs a parser `n` times over and lists the values. -/
def times (n : Nat) (p : Parser) : Parser := sequence (List.replicate n p)

def between (opening closing p : Parser) : Parser := (opening.before p).followedBy closing

def sepBy1 (p sep : Parser) : Parser := p.cons (many (sep.before p))

def sepBy (p sep : Parser) : Parser := .or (p.sepBy1 sep) (constant (.list []))

/-- Applies the operators of the rounds, each an operator and its right operand, from the left. -/
def foldRounds (apply : Value → Value → Value → Act Value) : Value → List Value → Act Value
  | x, [] => pure x
  | x, .tuple [f, y] :: rounds => do
    let z ← apply f x y
    foldRounds apply z rounds
  | x, _ :: rounds => foldRounds apply x rounds

/-- Applies the operators to a first operand and the rounds behind it. -/
def foldChain (apply : Value → Value → Value → Act Value) : Value → Act Value
  | .tuple [x, .list rounds] => foldRounds apply x rounds
  | v => pure v

/-- Operands with operators between them. An operator without a right operand is left alone, and the
operators are applied when all rounds are read; what comes of them is made a constant. -/
def chainLeft (apply : Value → Value → Value → Act Value) (p op : Parser) : Parser :=
  let round := Parser.both op p fun f y => (Value.tuple [f, y]).asConstant
  let whole := Parser.both p (many round) fun x rounds => pure (.tuple [x, rounds])
  .label (whole.map (foldChain apply)) ("chainl1(" ++ p.name ++ ")")

end Parser

def Unary.apply : Unary → Parser → Parser
  | map f, p => p.map f
  | not, p => .not p
  | many, p => .many p
  | many1, p => p.many1
  | skipMany, p => p.skipMany
  | token, p => p.token
  | lookAhead, p => .lookAhead p
  | option default, p => p.option default
  | times n, p => p.times n
  | trace tag text, p => .trace tag text p
  | label name, p => .label p name
  | wrap name, p => .wrap p name

def Binary.apply : Binary → Parser → Parser → Parser
  | before, p, q => p.before q
  | or, p, q => .or p q
  | snoc, p, q => p.snoc q
  | sepBy, p, q => p.sepBy q
  | sepBy1, p, q => p.sepBy1 q
  | chainLeft apply, p, q => p.chainLeft apply q

end Rewind
