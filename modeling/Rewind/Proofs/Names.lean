import Mathlib.Data.List.Forall2
import Rewind.Proofs.Traits
import Rewind.Session

namespace Rewind

/-- Atoms that do the same. -/
inductive Atom.Renamed : Atom → Atom → Prop
  | satisfy (test : CharTest) (name name' : String) :
      Renamed (.satisfy test name) (.satisfy test name')
  | literal (chars : List Char) (value : Value) :
      Renamed (.literal chars value) (.literal chars value)
  | constant (value : Value) : Renamed (.constant value) (.constant value)
  | fail (name name' : String) : Renamed (.fail name) (.fail name')
  | handmade (run : Cursor → Act Result) (name name' : String) (own own' : Option String) :
      Renamed (.handmade run name own) (.handmade run name' own')

inductive Unary.Renamed : Unary → Unary → Prop
  | refl (op : Unary) : Renamed op op
  | trace (tag : Nat) (text text' : String) : Renamed (.trace tag text) (.trace tag text')
  | label (name name' : String) : Renamed (.label name) (.label name')
  | wrap (name name' : String) : Renamed (.wrap name) (.wrap name')

/-- Rules that differ in names only, with continuations that give such rules for the same result. -/
inductive Rule.Renamed : Rule → Rule → Prop
  | atom {a a' : Atom} (same : a.Renamed a') : Renamed (.atom a) (.atom a')
  | ref (name : String) : Renamed (.ref name) (.ref name)
  | lazy (name name' : Option String) (watched : Bool) {thunk thunk' : Rule}
      (thunks : Renamed thunk thunk') :
      Renamed (.lazy name watched thunk) (.lazy name' watched thunk')
  | raise (fault : Fault) : Renamed (.raise fault) (.raise fault)
  | andThen {r r' : Rule} (notes : Result → List Note) {next next' : Result → Rule}
      (first : Renamed r r') (rest : ∀ x, Renamed (next x) (next' x)) :
      Renamed (.andThen r notes next) (.andThen r' notes next')
  | unary {op op' : Unary} {r r' : Rule} (same : op.Renamed op') (part : Renamed r r') :
      Renamed (.unary op r) (.unary op' r')
  | binary (op : Binary) {l l' r r' : Rule} (left : Renamed l l') (right : Renamed r r') :
      Renamed (.binary op l r) (.binary op l' r')
  | between {o o' c c' b b' : Rule} (opening : Renamed o o') (closing : Renamed c c')
      (body : Renamed b b') : Renamed (.between o c b) (.between o' c' b')

/-- Parsers that differ in names only, with the same cells. -/
inductive Parser.Renamed : Parser → Parser → Prop
  | atom {a a' : Atom} (same : a.Renamed a') : Renamed (.atom a) (.atom a')
  | andThen {p p' : Parser} (notes : Result → List Note) {next next' : Result → Rule}
      (first : Renamed p p') (rest : ∀ x, (next x).Renamed (next' x)) :
      Renamed (.andThen p notes next) (.andThen p' notes next')
  | both {p p' q q' : Parser} (combine : Value → Value → Act Value) (first : Renamed p p')
      (second : Renamed q q') : Renamed (.both p q combine) (.both p' q' combine)
  | map {p p' : Parser} (f : Value → Act Value) (part : Renamed p p') :
      Renamed (.map p f) (.map p' f)
  | or {p p' q q' : Parser} (first : Renamed p p') (second : Renamed q q') :
      Renamed (.or p q) (.or p' q')
  | not {p p' : Parser} (part : Renamed p p') : Renamed (.not p) (.not p')
  | many {p p' : Parser} (part : Renamed p p') : Renamed (.many p) (.many p')
  | lookAhead {p p' : Parser} (part : Renamed p p') : Renamed (.lookAhead p) (.lookAhead p')
  | trace (tag : Nat) (text text' : String) {p p' : Parser} (part : Renamed p p') :
      Renamed (.trace tag text p) (.trace tag text' p')
  | label (name name' : String) {p p' : Parser} (part : Renamed p p') :
      Renamed (.label p name) (.label p' name')
  | wrap (name name' : String) {p p' : Parser} (part : Renamed p p') :
      Renamed (.wrap p name) (.wrap p' name')
  | forward (cell : Nat) (name name' : String) : Renamed (.forward cell name) (.forward cell name')
  | lazy (cell : Nat) (name name' : Option String) : Renamed (.lazy cell name) (.lazy cell name')

theorem Atom.Renamed.refl (a : Atom) : a.Renamed a := by
  cases a with
  | satisfy test name => exact .satisfy test name name
  | literal chars value => exact .literal chars value
  | constant value => exact .constant value
  | fail name => exact .fail name name
  | handmade run name own => exact .handmade run name name own own

theorem Atom.Renamed.run_eq {a a' : Atom} (h : a.Renamed a') : a.run = a'.run := by
  funext c
  cases h with
  | _ => rfl

theorem Atom.Renamed.refusal?_eq {a a' : Atom} (h : a.Renamed a') : a.refusal? = a'.refusal? := by
  cases h with
  | _ => rfl

theorem Unary.Renamed.refusal?_eq {op op' : Unary} (h : op.Renamed op') :
    op.refusal? = op'.refusal? := by
  cases h with
  | _ => rfl

theorem Rule.Renamed.refl (r : Rule) : r.Renamed r := by
  induction r with
  | atom a => exact .atom (.refl a)
  | ref name => exact .ref name
  | lazy name watched thunk ih => exact .lazy name name watched ih
  | raise fault => exact .raise fault
  | andThen r notes next ih ihnext => exact .andThen notes ih ihnext
  | unary op r ih => exact .unary (.refl op) ih
  | binary op l r ihl ihr => exact .binary op ihl ihr
  | between o c b iho ihc ihb => exact .between iho ihc ihb

namespace Parser.Renamed

variable {p p' : Parser}

theorem refl (p : Parser) : p.Renamed p := by
  induction p with
  | atom a => exact .atom (.refl a)
  | andThen p notes next ih => exact .andThen notes ih fun x => .refl (next x)
  | both p q combine ihp ihq => exact .both combine ihp ihq
  | map p f ih => exact .map f ih
  | or p q ihp ihq => exact .or ihp ihq
  | not p ih => exact .not ih
  | many p ih => exact .many ih
  | lookAhead p ih => exact .lookAhead ih
  | trace tag text p ih => exact .trace tag text text ih
  | label p name ih => exact .label name name ih
  | wrap p name ih => exact .wrap name name ih
  | forward cell name => exact .forward cell name name
  | lazy cell name => exact .lazy cell name name

/-- Names that are made up of others may differ. -/
theorem congruent : Congruent False Parser.Renamed where
  name _ named := named.elim
  constant v := .atom (.constant v)
  blank := .atom (.refl _)
  both combine hp hq := .both combine hp hq
  map f hp := .map f hp
  or hp hq := .or hp hq
  not hp := .not hp
  many hp := .many hp
  lookAhead hp := .lookAhead hp
  trace tag text hp := .trace tag text text hp
  label hp _ := .label _ _ hp
  wrap name hp := .wrap name name hp

theorem unary {op op' : Unary} (same : op.Renamed op') (hp : p.Renamed p') :
    (op.apply p).Renamed (op'.apply p') := by
  cases same with
  | refl => exact congruent.unary op hp
  | trace tag text text' => exact .trace tag text text' hp
  | label name name' => exact .label name name' hp
  | wrap name name' => exact .wrap name name' hp

theorem isForward_eq (h : p.Renamed p') : p.isForward = p'.isForward := by
  cases h with
  | _ => rfl

end Parser.Renamed

inductive Cell.Renamed : Cell → Cell → Prop
  | forward {target target' : Option Parser} (targets : Option.Rel Parser.Renamed target target') :
      Renamed (.forward target) (.forward target')
  | lazy (name name' : Option String) (watched : Bool) {thunk thunk' : Rule}
      {built built' : Option Parser} (thunks : thunk.Renamed thunk')
      (parsers : Option.Rel Parser.Renamed built built') :
      Renamed (.lazy name watched thunk built) (.lazy name' watched thunk' built')

/-- Cell by cell. -/
structure Store.Renamed (A B : Store) : Prop where
  size : A.size = B.size
  cells (i : Nat) : Option.Rel Cell.Renamed A[i]? B[i]?

/-- The same names stand for parsers that differ in their own names only. -/
def Env.Renamed : Env → Env → Prop :=
  List.Forall₂ fun e e' => e.1 = e'.1 ∧ e.2.Renamed e'.2

structure Session.Renamed (s s' : Session) : Prop where
  env : Env.Renamed s.env s'.env
  store : Store.Renamed s.store s'.store
  cursor : s.cursor = s'.cursor

/-- The label of a forward parser is a name like any other. -/
inductive Command.Renamed : Command → Command → Prop
  | bind (name : String) {rule rule' : Rule} (rules : rule.Renamed rule') :
      Renamed (.bind name rule) (.bind name rule')
  | declare (name label label' : String) : Renamed (.declare name label) (.declare name label')
  | define (name : String) {rule rule' : Rule} (rules : rule.Renamed rule') :
      Renamed (.define name rule) (.define name rule')
  | defineValue (name : String) (value : Value) :
      Renamed (.defineValue name value) (.defineValue name value)
  | inspect {rule rule' : Rule} (rules : rule.Renamed rule') :
      Renamed (.inspect rule) (.inspect rule')
  | parse {rule rule' : Rule} (rules : rule.Renamed rule') (text : Array Char) (position : Int) :
      Renamed (.parse rule text position) (.parse rule' text position)
  | run {rule rule' : Rule} (rules : rule.Renamed rule') (text : Array Char) (requireEnd : Bool) :
      Renamed (.run rule text requireEnd) (.run rule' text requireEnd)
  | seek (text : Array Char) (position : Int) : Renamed (.seek text position) (.seek text position)
  | feed {rule rule' : Rule} (rules : rule.Renamed rule') : Renamed (.feed rule) (.feed rule')

theorem rel_self {α : Type} {R : α → α → Prop} (h : ∀ a, R a a) (x : Option α) : Option.Rel R x x := by
  cases x with
  | none => exact .none
  | some a => exact .some (h a)

theorem Cell.Renamed.refl (cell : Cell) : cell.Renamed cell := by
  have held : ∀ p : Option Parser, Option.Rel Parser.Renamed p p := rel_self .refl
  cases cell with
  | forward target => exact .forward (held target)
  | lazy name watched thunk built => exact .lazy name name watched (.refl thunk) (held built)

theorem Session.Renamed.refl (s : Session) : s.Renamed s where
  env := List.forall₂_same.2 fun e _ => ⟨rfl, .refl e.2⟩
  store := ⟨rfl, fun _ => rel_self .refl _⟩
  cursor := rfl

theorem Env.Renamed.lookup {env env' : Env} (h : Env.Renamed env env') (name : String) :
    Option.Rel Parser.Renamed (env.lookup name) (env'.lookup name) := by
  induction h with
  | nil => exact .none
  | @cons e e' env env' same _ ih =>
    obtain ⟨called, p⟩ := e
    obtain ⟨called', p'⟩ := e'
    obtain ⟨names, parsers⟩ := same
    obtain rfl : called = called' := names
    rw [List.lookup_cons, List.lookup_cons]
    split
    · exact .some parsers
    · exact ih

namespace Store.Renamed

variable {A B : Store}

theorem push (h : A.Renamed B) {cell cell' : Cell} (cells : cell.Renamed cell') :
    Store.Renamed (A.push cell) (B.push cell') := by
  refine ⟨by simp only [Array.size_push, h.size], fun i => ?_⟩
  rw [Array.getElem?_push, Array.getElem?_push, h.size]
  split
  · exact .some cells
  · exact h.cells i

theorem set (h : A.Renamed B) (k : Nat) {cell cell' : Cell} (cells : cell.Renamed cell') :
    Store.Renamed (A.setIfInBounds k cell) (B.setIfInBounds k cell') := by
  refine ⟨by simp only [Array.size_setIfInBounds, h.size], fun i => ?_⟩
  rw [Array.getElem?_setIfInBounds, Array.getElem?_setIfInBounds, h.size]
  split
  · split
    · exact .some cells
    · exact .none
  · exact h.cells i

theorem fill (h : A.Renamed B) {p q : Parser} (parsers : p.Renamed q) (k : Nat) :
    Store.Renamed (A.fill k p) (B.fill k q) := by
  have cells := h.cells k
  unfold Store.fill
  generalize A[k]? = cell at cells
  generalize B[k]? = cell' at cells
  cases cells with
  | none => exact h
  | some held =>
    cases held with
    | forward targets =>
      cases targets with
      | none => exact h.set k (.forward (.some parsers))
      | some => exact h
    | lazy name name' watched thunks built =>
      cases built with
      | none => exact h.set k (.lazy name name' watched thunks (.some parsers))
      | some => exact h

theorem target? (h : A.Renamed B) (cell : Nat) :
    Option.Rel Parser.Renamed (A.target? cell) (B.target? cell) := by
  have cells := h.cells cell
  unfold Store.target?
  generalize A[cell]? = held at cells
  generalize B[cell]? = held' at cells
  cases cells with
  | none => exact .none
  | some held =>
    cases held with
    | forward targets => exact targets
    | lazy => exact .none

end Store.Renamed

end Rewind
