import Rewind.Grammar.Arithmetic
import Rewind.Proofs.Arithmetic.Tree
import Rewind.Proofs.Reads

namespace Rewind.Grammar.Arithmetic

open Rewind.Parser Text

def integerParser : Parser :=
  ((satisfy isDigit "digit").many1.map fun v => Logged.ofExcept v.toInt).token

def charParser (c : Char) : Parser :=
  (satisfy (· == c) ("char(" ++ Text.quoted (String.singleton c) ++ ")")).token

def Layer.signs : Layer → String
  | product => "*/"
  | sum => "+-"

def signTest (layer : Layer) : Char → Bool := Rule.isMember (Rule.membersOf layer.signs)

def operatorParser (layer : Layer) : Parser :=
  (satisfy (signTest layer)
    ("char_in(" ++ Text.quoted (Rule.membersText (Rule.membersOf layer.signs)) ++ ")")).token.map
    fun v => pure (operatorOf v)

/-- Points to the cell of the sums. -/
def innerParser : Parser := .forward 0 "expr"

def factorParser : Parser :=
  .or integerParser (between (charParser '(') (charParser ')') innerParser)

def signedParser : Parser :=
  .or (((charParser '-').before factorParser).map fun v => pure v.negated) factorParser

def applyValue (f x y : Value) : Act Value := Logged.ofExcept (f.applyTo x y)

def termParser : Parser := signedParser.chainLeft applyValue (operatorParser .product)

def sumParser : Parser := termParser.chainLeft applyValue (operatorParser .sum)

def Level.parser : Level → Parser
  | factor => factorParser
  | signed => signedParser
  | chain .product => termParser
  | chain .sum => sumParser

def roundParser (layer : Layer) : Parser :=
  .both (operatorParser layer) layer.operand.parser fun f y => (Value.tuple [f, y]).asConstant

theorem parser_chain (layer : Layer) : (Level.chain layer).parser =
    layer.operand.parser.chainLeft applyValue (operatorParser layer) := by
  cases layer <;> rfl

theorem session_store : session.store = #[.forward (some sumParser)] := rfl

theorem built_expression :
    expression.build session.env session.store = (.ok innerParser, session.store) := rfl

/-- The store stays as it is and no run is endless. -/
def contract : Contract := ⟨(· = session.store), False⟩

/-- How a parser of the grammar ends. -/
abbrev Ends (p : Parser) (c : Cursor) (raises : Fault → Prop) (fails : Prop)
    (matched : Value → Cursor → Prop) : Prop :=
  Parser.Ends contract session.env p c raises fails matched

variable {c : Cursor} {raises : Fault → Prop} {fails : Prop} {matched : Value → Cursor → Prop}

theorem inner_ends (h : Ends sumParser c raises fails matched) :
    Ends innerParser c raises fails matched := by
  refine Parser.Ends.forward (fun store hstore => ?_) h
  rw [show store = _ from hstore.trans session_store]
  rfl

def integers : Lexicon := (Lexicon.run1 isDigit).map Value.toInt

theorem integers_iff {t rest : List Char} {o : Except Fault Value} :
    integers t rest o ↔ ∃ n : Numeral, t = n.chars ∧ Refuses isDigit rest ∧ o = n.read := by
  constructor
  · intro h
    obtain ⟨_, ⟨nonempty, digits, ended, rfl⟩, rfl⟩ := h
    exact ⟨⟨t, nonempty, digits⟩, rfl, ended, Value.toInt_numeral ⟨t, nonempty, digits⟩⟩
  · intro h
    obtain ⟨n, rfl, ended, rfl⟩ := h
    exact ⟨_, ⟨n.nonempty, n.digits, ended, rfl⟩, (Value.toInt_numeral n).symm⟩

theorem integers_writes : integers.Writes := by
  intro t rest v h
  obtain ⟨n, -, -, read⟩ := integers_iff.1 h
  exact n.writable_of_read read.symm

theorem integer_lexes : Lexes contract session.env
    ((satisfy isDigit "digit").many1.map fun v => Logged.ofExcept v.toInt) integers :=
  (many1_satisfy_lexes isDigit "digit").map integers_writes

theorem integer_needs : Needs contract session.env integerParser isDigit :=
  .token integer_lexes ((Lexicon.run1_begins isDigit).map Value.toInt)

theorem char_needs (x : Char) : Needs contract session.env (charParser x) (· == x) :=
  .token (satisfy_lexes _ _) (Lexicon.one_begins _)

theorem char_reads {x : Char} (h : isBlank x = false) (stops : Char → Prop) :
    Reads contract session.env (charParser x) stops [[x]] (.ok (.ofChar x)) := by
  refine .token (satisfy_lexes _ _) (Lexicon.one_writes _) (Lexicon.one_clear _) ?_
    fun cs => skipBlanks_of_not h cs
  intro gap rest _ _
  exact ⟨x, by simp, rfl, rfl⟩

theorem signTest_iff {layer : Layer} {x : Char} :
    signTest layer x = true ↔ ∃ inverse, x = layer.sign inverse := by
  rw [signTest, Rule.isMember_membersOf]
  cases layer
  · simp [Layer.signs, Layer.sign]
  · simp [Layer.signs, Layer.sign]

theorem sign_not_blank (layer : Layer) (inverse : Bool) : isBlank (layer.sign inverse) = false := by
  cases layer <;> cases inverse <;> decide

theorem operatorOf_sign (layer : Layer) (inverse : Bool) :
    operatorOf (.ofChar (layer.sign inverse)) = .op (layer.operator inverse) := by
  cases layer <;> cases inverse <;> rfl

theorem operator_needs (layer : Layer) :
    Needs contract session.env (operatorParser layer) (signTest layer) :=
  .map (.token (satisfy_lexes _ _) (Lexicon.one_begins _))

theorem operator_reads (layer : Layer) (inverse : Bool) (stops : Char → Prop) :
    Reads contract session.env (operatorParser layer) stops [[layer.sign inverse]]
      (.ok (.op (layer.operator inverse))) := by
  have sign : Reads contract session.env (operatorParser layer) stops [[layer.sign inverse]]
      (.ok (operatorOf (.ofChar (layer.sign inverse)))) := by
    refine Reads.map (o := .ok (.ofChar (layer.sign inverse)))
      (.token (satisfy_lexes _ _) (Lexicon.one_writes _) (Lexicon.one_clear _) ?_ ?_) ?_
    · intro gap rest _ _
      exact ⟨_, signTest_iff.2 ⟨inverse, rfl⟩, rfl, rfl⟩
    · exact fun cs => skipBlanks_of_not (sign_not_blank layer inverse) cs
    · intro v hv
      cases hv
      rw [operatorOf_sign]
      rfl
  rw [operatorOf_sign] at sign
  exact sign

end Rewind.Grammar.Arithmetic
