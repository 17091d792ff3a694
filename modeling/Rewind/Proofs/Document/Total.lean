import Rewind.Proofs.Calls
import Rewind.Proofs.Document.Sound

namespace Rewind.Grammar.Document

open Rewind.Parser Text Relation

theorem symbol_plain (s : String) : (symbolParser s).Plain := ⟨⟨trivial, trivial⟩, trivial⟩

theorem stringLiteral_plain : stringLiteral.Plain := ⟨trivial, trivial, trivial⟩

theorem number_plain : number.Plain := ⟨trivial, fun _ => ⟨trivial, fun _ => ⟨trivial, trivial⟩⟩⟩

theorem object_plain : object.Plain :=
  ⟨trivial, trivial, ⟨stringLiteral_plain, fun _ => ⟨trivial, trivial⟩⟩, trivial⟩

theorem value_plain : value.Plain :=
  ⟨⟨⟨⟨⟨⟨⟨trivial, trivial⟩, trivial, trivial⟩, trivial, trivial⟩, stringLiteral_plain⟩,
    number_plain⟩, object_plain⟩, trivial, trivial, trivial, trivial⟩

theorem session_plain : session.Plain := by
  have bound : Session.start.step 0 (.bind "document" value) = some (_, session) := rfl
  exact (Session.Reached.step .start value_plain bound).plain

theorem valueParser_plain : valueParser.Plain :=
  session_plain.env ("document", valueParser) List.mem_cons_self

theorem symbol_eager (s : String) : (symbolParser s).Eager := ⟨⟨trivial, trivial⟩, trivial⟩

theorem word_eager (s : String) (v : Value) : (wordParser s v).Eager := ⟨symbol_eager s, trivial⟩

theorem quoted_eager : quotedParser.token.Eager :=
  ⟨⟨trivial, ⟨trivial, trivial⟩, trivial⟩, trivial⟩

theorem number_eager : unspacedParser.token.Eager :=
  ⟨⟨trivial, ⟨trivial, trivial⟩, fun _ => ⟨trivial, fun _ => ⟨trivial, trivial⟩⟩⟩, trivial⟩

variable {c : Cursor} {store : Store}

theorem symbol_advances {s : String} (nonempty : s.toList ≠ []) (hstore : Store.Plain store)
    {r : Result} {store' : Store}
    (h : Call.Gives session.env ⟨symbolParser s, c, store⟩ r store') (ok : r.ok = true) :
    c.position < r.cursor.position := by
  have reaches := (h.reaches session_plain.env ⟨symbol_plain s, hstore⟩).2 ok
  have read : Parser.Yields ⟨fun _ => True, False⟩ session.env (symbolParser s) (fun _ => True) _
      c :=
    .token (literal_lexes s.toList (.str s)) (Lexicon.literal_writes _ rfl) c fun _ _ => trivial
  obtain ⟨_, spans, _, _, rfl, rfl, -⟩ := h.matched read trivial ok
  exact reaches.position_lt (spans.length_lt List.mem_cons_self nonempty)

theorem value_entersBehind (hstore : Store.Plain store) :
    Call.EntersBehind session.env c.position ⟨valueParser, c, store⟩ := by
  have henv := session_plain.env
  have plain := valueParser_plain
  have bracket : ∀ {opening closing : String} {p : Parser} {store' : Store}, opening.toList ≠ [] →
      p.Plain → Store.Plain store' → Call.EntersBehind session.env c.position
        ⟨between (symbolParser opening) (symbolParser closing) p, c, store'⟩ := by
    intro opening closing p store' nonempty hp hstore'
    exact .between henv (symbol_plain _) (symbol_eager _) (symbol_eager _) hp hstore'
      fun r store'' first ok => symbol_advances nonempty hstore' first ok
  have words : ((((wordParser "null" .none).or (wordParser "true" (.bool true))).or
      (wordParser "false" (.bool false))).or quotedParser.token).Eager :=
    ⟨⟨⟨word_eager _ _, word_eager _ _⟩, word_eager _ _⟩, quoted_eager⟩
  -- Only objects and arrays have cells in them.
  refine .or (.or (.of_eager ⟨words, number_eager⟩) fun r store' first => .map ?_)
    fun r store' first => ?_
  · have kept := first.reaches henv ⟨plain.1.1, hstore⟩
    exact bracket (by decide) plain.1.2.1.2 kept.1
  · have kept := first.reaches henv ⟨plain.1, hstore⟩
    exact bracket (by decide) plain.2.1.2 kept.1

/-- The call that runs a text. -/
def start (text : Array Char) : Call := ⟨valueParser, .start text, session.store⟩

/-- An integer of too many digits stands in a text behind tokens of documents. -/
def HasLong (text : List Char) (n : Number) : Prop :=
  n.fraction = none ∧ digitLimit < n.whole.chars.length ∧ ∃ tokens read rest,
    Written tokens read ∧ (∀ t ∈ tokens, IsToken t) ∧ text = read ++ (n.token ++ rest) ∧
      n.Ended rest

theorem HasLong.length_lt {text : List Char} {n : Number} (h : HasLong text n) :
    digitLimit < text.length := by
  obtain ⟨-, long, tokens, read, rest, -, -, rfl, -⟩ := h
  simp only [Number.token, List.length_append]
  omega

theorem Refused.hasLong {text : Array Char} {fault : Fault} (h : Refused (.start text) fault) :
    ∃ n, HasLong text.toList n ∧ fault = .tooLongToRead n.whole.chars.length := by
  obtain ⟨d, n, rest, ⟨tokens, ⟨read, written, before⟩, all⟩, there, ended, refused⟩ := h
  obtain ⟨integer, long, rfl⟩ := Number.long_of_read refused
  refine ⟨n, ⟨integer, long, tokens, read, rest, written, all, ?_, ended⟩, rfl⟩
  rw [← there]
  exact before

/-- Every text is run to a value or a report, unless there is an integer in it that has too many
digits to be read. Wherever the run comes to a document, all cells that the document enters lie
behind the place where it begins. -/
theorem document_total (text : Array Char) (requireEnd : Bool) :
    ((∃ outcome, session.Answers (.run document text requireEnd)
        (.ok (.ran valueParser.name outcome))) ∨
      ∃ n, HasLong text.toList n ∧ session.Answers (.run document text requireEnd)
        (.error (.tooLongToRead n.whole.chars.length))) ∧
    ∀ a b : Call, ReflTransGen (Call.Makes session.env) (start text) a → a.parser = valueParser →
      TransGen (Call.Makes session.env) a b → b.Enters → a.cursor.position < b.cursor.position := by
  constructor
  · rcases exists_answers text requireEnd with ⟨r, answered, -⟩ | ⟨fault, answered, refused⟩
    · exact .inl ⟨_, answered⟩
    · obtain ⟨n, long, rfl⟩ := refused.hasLong
      exact .inr ⟨n, long, answered⟩
  · intro a b within value nested enters
    have plain : (start text).Plain := ⟨valueParser_plain, session_plain.store⟩
    have ha := (Call.Within.reaches session_plain.env plain within).1
    obtain ⟨p, c, store⟩ := a
    obtain rfl : p = valueParser := value
    exact value_entersBehind ha.store b nested.to_reflTransGen enters

/-- An array tries an item behind its bracket, also if it has none. -/
theorem document_total_item :
    (∃ outcome, session.Answers (.run document #['[', ']'] false)
      (.ok (.ran valueParser.name outcome))) ∧
    ∃ item, TransGen (Call.Makes session.env) (start #['[', ']']) item ∧ item.Enters ∧
      0 < item.cursor.position := by
  have refused : run session.env 14 (choice [wordParser "null" .none,
      wordParser "true" (.bool true), wordParser "false" (.bool false), quotedParser.token,
      unspacedParser.token, objectParser]) (.start #['[', ']']) session.store =
      some (⟨[], .ok (.failure (.start #['[', ']']))⟩, session.store) := rfl
  have opened : run session.env 8 (symbolParser "[") (.start #['[', ']']) session.store =
      some (⟨[], .ok (.success (.str "[") ⟨#['[', ']'], 1⟩)⟩, session.store) := rfl
  have array : Call.Makes session.env (start #['[', ']'])
      ⟨arrayParser, .start #['[', ']'], session.store⟩ :=
    .or_next ⟨[], eval_eq_some_iff.2 ⟨14, refused⟩⟩ rfl
  have behind : Call.Makes session.env
      ⟨.both (symbolParser "[") _ fun _ y => pure y, .start #['[', ']'], session.store⟩
      ⟨(nestedParser 0).sepBy commaParser, ⟨#['[', ']'], 1⟩, session.store⟩ :=
    .both_next ⟨[], eval_eq_some_iff.2 ⟨8, opened⟩⟩ rfl
  have within : TransGen (Call.Makes session.env) (start #['[', ']'])
      ⟨nestedParser 0, ⟨#['[', ']'], 1⟩, session.store⟩ :=
    .head array (.head .both (.head .map (.head .label (.head behind (.head .or (.single .both))))))
  have enters : Call.Enters ⟨nestedParser 0, ⟨#['[', ']'], 1⟩, session.store⟩ :=
    ⟨0, some "json_value", rfl⟩
  have total := document_total #['[', ']'] false
  have short : ¬∃ n, HasLong #['[', ']'].toList n ∧ session.Answers
      (.run document #['[', ']'] false) (.error (.tooLongToRead n.whole.chars.length)) := by
    rintro ⟨n, long, -⟩
    exact absurd long.length_lt (by decide)
  exact ⟨total.1.resolve_right short, _, within, enters, total.2 _ _ .refl rfl within enters⟩

end Rewind.Grammar.Document
