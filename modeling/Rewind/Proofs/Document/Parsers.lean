import Rewind.Grammar.Document
import Rewind.Proofs.Document.Tree
import Rewind.Proofs.Reads

namespace Rewind.Grammar.Document

open Rewind.Parser Text

def symbolParser (s : String) : Parser := (Parser.atom (.literal s.toList (.str s))).token

/-- A word that stands for a value. -/
def wordParser (s : String) (v : Value) : Parser := (symbolParser s).before (constant v)

def charParser (c : Char) : Parser :=
  satisfy (· == c) ("char(" ++ Text.quoted (String.singleton c) ++ ")")

def unquotedParser : Parser :=
  satisfy (fun c => !Rule.isMember ["\""] c)
    ("char_except(" ++ Text.quoted (Rule.membersText ["\""]) ++ ")")

/-- A text in quotes, as it stands. -/
def quotedParser : Parser :=
  (between (charParser '"') (charParser '"') (many unquotedParser)).map fun v => pure v.joined

def digitsParser : Parser := (satisfy isDigit "digit").many1.map fun v => pure v.joined

def signParser : Parser := option (.str "") (charParser '-')

def fractionParser : Parser :=
  option (.str "")
    ((charParser '.').before (digitsParser.map fun v => pure (v.surrounded "." "")))

/-- A number, as it stands. -/
def unspacedParser : Parser :=
  .andThen signParser (fun _ => []) fun x =>
    digits.bind fun w => pure (fraction.tryMap (numberOfValues x.value w))

def nestedParser (cell : Nat) : Parser := .lazy cell (some "json_value")

def commaParser : Parser := symbolParser ","

def entryParser : Parser :=
  .andThen quotedParser.token (fun _ => []) fun x =>
    (symbol ":").before (nested.map fun v => .tuple [x.value, v])

/-- What comes behind a key. -/
def memberParser (key : Value) (cell : Nat) : Parser :=
  (symbolParser ":").before ((nestedParser cell).map fun v => pure (.tuple [key, v]))

def objectParser : Parser :=
  (between (symbolParser "\x7b") (symbolParser "\x7d") (entryParser.sepBy commaParser)).map
    fun v => pure v.toDict

def arrayParser : Parser :=
  between (symbolParser "[") (symbolParser "]") ((nestedParser 0).sepBy commaParser)

def valueParser : Parser :=
  choice [wordParser "null" .none, wordParser "true" (.bool true), wordParser "false" (.bool false),
    quotedParser.token, unspacedParser.token, objectParser, arrayParser]

def nestedCell (built : Option Parser) : Cell :=
  .lazy (some "json_value") false (.ref "document") built

theorem session_store : session.store = #[nestedCell none] := rfl

theorem built_document :
    document.build session.env session.store = (.ok valueParser, session.store) := rfl

/-- All cells are for nested documents, there are at least so many, and no run is endless. -/
def contract (size : Nat) : Contract where
  store store := size ≤ store.size ∧
    ∀ (k : Nat) (cell : Cell), store[k]? = some cell →
      cell = nestedCell none ∨ cell = nestedCell (some valueParser)
  endless := False

variable {size : Nat} {raises : Fault → Prop}

theorem contract_push {store : Store} (h : (contract size).store store) :
    (contract (store.size + 1)).store (store.push (nestedCell none)) := by
  refine ⟨Nat.le_of_eq (Array.size_push _).symm, fun k cell hk => ?_⟩
  rw [Array.getElem?_push] at hk
  by_cases last : k = store.size
  · rw [if_pos last] at hk
    cases hk
    exact .inl rfl
  · rw [if_neg last] at hk
    exact h.2 k cell hk

theorem contract_mono {size' : Nat} (less : size ≤ size') {store : Store}
    (h : (contract size').store store) : (contract size).store store :=
  ⟨Nat.le_trans less h.1, h.2⟩

theorem contract_fill {store : Store} {k : Nat} (h : (contract size).store store) :
    (contract size).store (store.fill k valueParser) := by
  unfold Store.fill
  rcases hk : store[k]? with _ | cell
  · exact h
  · rcases h.2 k cell hk with rfl | rfl
    · refine ⟨Nat.le_trans h.1 (Nat.le_of_eq (Array.size_setIfInBounds).symm), fun j cell hj => ?_⟩
      simp only [nestedCell] at hj
      rw [Array.getElem?_setIfInBounds] at hj
      by_cases same : k = j
      · by_cases inside : k < store.size
        · rw [if_pos same, if_pos inside] at hj
          cases hj
          exact .inr rfl
        · rw [if_pos same, if_neg inside] at hj
          cases hj
      · rw [if_neg same] at hj
        exact h.2 j cell hj
    · exact h

theorem force_meets {k : Nat} (h : k < size) :
    (Run.force session.env k).Meets (contract size) raises (· = valueParser) := by
  intro store hstore
  have inside : k < store.size := Nat.lt_of_lt_of_le h hstore.1
  have there : store[k]? = some store[k] := Array.getElem?_eq_getElem inside
  unfold Run.force
  rcases hstore.2 k store[k] there with built | built
  · rw [there, built]
    exact ⟨contract_fill hstore, rfl⟩
  · rw [there, built]
    exact ⟨hstore, rfl⟩

/-- How a parser of the grammar ends when there are so many cells. -/
abbrev Ends (size : Nat) (p : Parser) (c : Cursor) (raises : Fault → Prop) (fails : Prop)
    (matched : Value → Cursor → Prop) : Prop :=
  Parser.Ends (contract size) session.env p c raises fails matched

variable {c : Cursor} {fails : Prop} {matched : Value → Cursor → Prop}

theorem nested_ends {k : Nat} (h : k < size)
    (value : Ends size valueParser c raises fails matched) :
    Ends size (nestedParser k) c raises fails matched := by
  unfold Ends Parser.Ends nestedParser
  rw [eval_lazy]
  refine (force_meets h).bind fun p hp => ?_
  rw [hp]
  exact value

/-- A rule that needs a new cell is built and run with one cell more. -/
theorem meets_newCell {rule : Rule} {p : Nat → Parser} {f : Parser → Run Result}
    {returns : Result → Prop} (built : ∀ store : Store,
      rule.build session.env store = (.ok (p store.size), store.push (nestedCell none)))
    (h : ∀ k, size ≤ k → (f (p k)).Meets (contract (k + 1)) raises returns) :
    (Run.ofBuild (rule.build session.env) >>= f).Meets (contract size) raises returns := by
  intro store hstore
  have made : Run.ofBuild (rule.build session.env) store =
      some (⟨[], .ok (p store.size)⟩, store.push (nestedCell none)) := by
    simp only [Run.ofBuild, built]
    rfl
  -- The new cell is the last one, and from here on there is one cell more.
  have hr := h store.size hstore.1 _ (contract_push hstore)
  have less : size ≤ store.size + 1 := Nat.le_succ_of_le hstore.1
  rw [Run.bind_of_ok made]
  generalize f (p store.size) _ = last at hr ⊢
  rcases last with _ | ⟨⟨log, fault | r⟩, store'⟩
  · exact hr
  · exact ⟨contract_mono less hr.1, hr.2⟩
  · exact ⟨contract_mono less hr.1, hr.2⟩

theorem entry_ends (h : Ends size quotedParser.token c raises fails fun key d => ∀ k, size ≤ k →
      Ends (k + 1) (memberParser key k) d raises fails matched) :
    Ends size entryParser c raises fails matched :=
  .andThen (h.weaken fun key _ hd => meets_newCell (p := memberParser key) (fun _ => rfl) hd)

end Rewind.Grammar.Document
