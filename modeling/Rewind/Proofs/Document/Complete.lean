import Rewind.Proofs.Document.Lexemes

namespace Rewind.Grammar.Document

open Rewind.Parser Text

/-- What may come behind a document inside another. -/
def stops (x : Char) : Prop := x = ',' ∨ x = ']' ∨ x = '\x7d'

variable {size : Nat}

theorem null_needs : Needs (contract size) session.env (wordParser "null" .none) (· == 'n') :=
  word_needs rfl _

theorem true_needs :
    Needs (contract size) session.env (wordParser "true" (.bool true)) (· == 't') :=
  word_needs rfl _

theorem false_needs :
    Needs (contract size) session.env (wordParser "false" (.bool false)) (· == 'f') :=
  word_needs rfl _

theorem quoted_needs : Needs (contract size) session.env quotedParser.token (· == '"') :=
  .token quoted_lexes quotes_begins

theorem number_needs :
    Needs (contract size) session.env unspacedParser.token fun x => x == '-' || isDigit x :=
  .token number_lexes numbers_begins

theorem object_needs : Needs (contract size) session.env objectParser (· == '\x7b') :=
  .map (.between (symbol_needs rfl))

theorem array_needs : Needs (contract size) session.env arrayParser (· == '[') :=
  .between (symbol_needs rfl)

/-- A document begins as one of the alternatives does. -/
def starts (x : Char) : Bool :=
  x == 'n' || x == 't' || x == 'f' || x == '"' || (x == '-' || isDigit x) || x == '\x7b' || x == '['

theorem value_needs : Needs (contract size) session.env valueParser starts :=
  (((((null_needs.or true_needs).or false_needs).or quoted_needs).or number_needs).or
    object_needs).or array_needs

theorem nested_needs {k : Nat} (h : k < size) :
    Needs (contract size) session.env (nestedParser k) starts :=
  fun c raises refused => nested_ends h (value_needs c raises refused)

theorem stops_refused {test : Char → Bool} (comma : test ',' = false) (bracket : test ']' = false)
    (brace : test '\x7d' = false) (x : Char) (h : stops x) : test x = false := by
  rcases h with rfl | rfl | rfl
  · exact comma
  · exact bracket
  · exact brace

/-- Wherever there is a cell the tokens are read as a document with the value, which can be written. -/
structure ReadsDocument (tokens : List (List Char)) (v : Value) : Prop where
  writable : v.writable = true
  reads : ∀ size, 0 < size → Reads (contract size) session.env valueParser stops tokens (.ok v)

theorem ReadsDocument.nested {tokens : List (List Char)} {v : Value} (h : ReadsDocument tokens v)
    {k : Nat} (hk : k < size) :
    Reads (contract size) session.env (nestedParser k) stops tokens (.ok v) :=
  fun c body rest hbody hrest hc => nested_ends hk
    (h.reads size (Nat.lt_of_le_of_lt (Nat.zero_le k) hk) c body rest hbody hrest hc)

theorem reads_null : ReadsDocument ["null".toList] .none := by
  refine ⟨rfl, fun size _ => ?_⟩
  have word : Reads (contract size) session.env (wordParser "null" .none) stops ["null".toList]
      (.ok .none) := word_reads rfl (by decide) _ _
  exact word.or_left.or_left.or_left.or_left.or_left.or_left

theorem reads_true : ReadsDocument ["true".toList] (.bool true) := by
  refine ⟨rfl, fun size _ => ?_⟩
  have word : Reads (contract size) session.env (wordParser "true" (.bool true)) stops
      ["true".toList] (.ok (.bool true)) := word_reads rfl (by decide) _ _
  have begins : Begins (fun x => !isBlank x && !(x == 'n')) ["true".toList] :=
    ⟨'t', _, [], rfl, by decide⟩
  exact (Reads.or_right null_needs begins word).or_left.or_left.or_left.or_left.or_left

theorem reads_false : ReadsDocument ["false".toList] (.bool false) := by
  refine ⟨rfl, fun size _ => ?_⟩
  have word : Reads (contract size) session.env (wordParser "false" (.bool false)) stops
      ["false".toList] (.ok (.bool false)) := word_reads rfl (by decide) _ _
  have begins : Begins (fun x => !isBlank x && !(x == 'n' || x == 't')) ["false".toList] :=
    ⟨'f', _, [], rfl, by decide⟩
  exact (Reads.or_right (null_needs.or true_needs) begins word).or_left.or_left.or_left.or_left

theorem reads_quoted (size : Nat) (s : Unquoted) (stops : Char → Prop) :
    Reads (contract size) session.env quotedParser.token stops [s.token] (.ok (.str s.text)) := by
  refine .token quoted_lexes quotes_writes quotes_clear (fun _ _ _ _ => ⟨s, rfl, rfl⟩) fun cs => ?_
  exact skipBlanks_of_not (by decide) _

theorem reads_text (s : Unquoted) : ReadsDocument [s.token] (.str s.text) := by
  refine ⟨rfl, fun size _ => ?_⟩
  have begins : Begins (fun x => !isBlank x && !(x == 'n' || x == 't' || x == 'f')) [s.token] :=
    ⟨'"', _, [], rfl, by decide⟩
  have quoted := Reads.or_right ((null_needs.or true_needs).or false_needs) begins
    (reads_quoted size s stops)
  exact quoted.or_left.or_left.or_left

/-- A number begins with no blank and not as an alternative before it. -/
theorem Number.begins (n : Number) : Begins
    (fun x => !isBlank x && !(x == 'n' || x == 't' || x == 'f' || x == '"')) [n.token] := by
  obtain ⟨x, xs, hx, start⟩ := n.exists_head
  refine ⟨x, xs, [], by rw [hx], ?_⟩
  rcases Bool.or_eq_true_iff.1 start with minus | digit
  · obtain rfl := beq_iff_eq.1 minus
    decide
  · have other := fun y (hy : isDigit y = false) => beq_of_test digit hy
    simp [isBlank_of_isDigit digit, other 'n' (by decide), other 't' (by decide),
      other 'f' (by decide), other '"' (by decide)]

theorem reads_number {n : Number} (short : n.Short) : ReadsDocument [n.token] n.value := by
  have taken := Number.read_of_short short
  refine ⟨Number.writable_of_read taken, fun size _ => ?_⟩
  have unspaced : Reads (contract size) session.env unspacedParser.token stops [n.token]
      (.ok n.value) := by
    rw [← taken]
    refine .token number_lexes numbers_writes numbers_clear ?_ n.skipBlanks_append
    intro gap rest hgap hrest
    have digitless : Refuses isDigit (gap ++ rest) :=
      hrest.refuses_isDigit (stops_refused (by decide) (by decide) (by decide)) hgap
    have pointless : Refuses (· == '.') (gap ++ rest) :=
      hrest.refuses (stops_refused rfl rfl rfl) (fun _ hy => beq_of_test hy (by decide)) hgap
    refine ⟨n, rfl, ⟨digitless, fun _ x cs point => ?_⟩, rfl⟩
    rw [point] at pointless
    cases pointless '.' rfl
  have number := Reads.or_right (((null_needs.or true_needs).or false_needs).or quoted_needs)
    n.begins unspaced
  exact number.or_left.or_left

/-- Between brackets stands whatever is read up to the closing one. -/
theorem bracketed_reads {opening closing : String} {x y : Char} {p : Parser}
    {tokens : List (List Char)} {o : Except Fault Value} (hopen : opening.toList = [x])
    (hclose : closing.toList = [y]) (blank : isBlank x = false) (blank' : isBlank y = false)
    (h : ReadsNext (contract size) session.env p (· = y) tokens o)
    (fits : ∀ v, o = .ok v → v.writable = true) (stops : Char → Prop) :
    Reads (contract size) session.env (between (symbolParser opening) (symbolParser closing) p)
      stops ([x] :: (tokens ++ [[y]])) o := by
  have opens : Reads (contract size) session.env (symbolParser opening) (fun _ => True) [[x]] _ :=
    hopen ▸ symbol_reads hopen blank _
  have closes : ∀ stops, Reads (contract size) session.env (symbolParser closing) stops [[y]] _ :=
    fun stops => hclose ▸ symbol_reads hclose blank' stops
  exact .between opens closes h fits blank' rfl

theorem comma_reads (stops : Char → Prop) :
    Reads (contract size) session.env commaParser stops [[',']] (.ok (.str ",")) :=
  symbol_reads rfl (by decide) stops

theorem reads_array {tss : List (List (List Char))} {vs : List Value}
    (each : List.Forall₂ ReadsDocument tss vs) :
    ReadsDocument (['['] :: (separated [','] tss ++ [[']']])) (.list vs) := by
  have fits : (Value.list vs).writable = true :=
    Value.writable_list.2 (forall_mem_of_forall₂ each fun _ _ h => h.writable)
  refine ⟨fits, fun size hsize => ?_⟩
  have items : ReadsNext (contract size) session.env ((nestedParser 0).sepBy commaParser)
      (· = ']') (separated [','] tss) (.ok (.list vs)) := by
    refine .sepBy (comma_reads _) (symbol_needs rfl) (by decide) (show stops ',' from .inl rfl)
      (fun y hy => .inr (.inl hy)) (by decide) (nested_needs hsize)
      (fun y hy => by rw [hy]; decide) (Value.writable_list.1 fits) ?_
    exact each.imp fun _ _ h => h.nested hsize
  have array : Reads (contract size) session.env arrayParser stops
      (['['] :: (separated [','] tss ++ [[']']])) (.ok (.list vs)) := by
    exact bracketed_reads rfl rfl (by decide) (by decide) items
      (fun v hv => Except.ok.inj hv ▸ fits) stops
  have begins : Begins (fun x => !isBlank x && !(x == 'n' || x == 't' || x == 'f' || x == '"' ||
      (x == '-' || isDigit x) || x == '\x7b')) (['['] :: (separated [','] tss ++ [[']']])) :=
    ⟨'[', [], _, rfl, by decide⟩
  exact Reads.or_right (((((null_needs.or true_needs).or false_needs).or quoted_needs).or
    number_needs).or object_needs) begins array

theorem quoted_ends (key : Unquoted) {c : Cursor} {raises : Fault → Prop} {fails : Prop}
    {body rest : List Char} (hbody : Spaced [key.token] body)
    (hc : skipBlanks c.rest = skipBlanks (body ++ rest)) :
    Ends size quotedParser.token c raises fails fun v d =>
      v = .str key.text ∧ d.rest = skipBlanks rest := by
  refine (reads_quoted size key (fun _ => True) c body rest hbody (.any _) hc).imp ?_ False.elim ?_
  · intro fault hf
    cases hf
  · intro v d hv
    exact ⟨(Except.ok.inj hv.1).symm, hv.2⟩

theorem writable_pair {key : String} {v : Value} (h : v.writable = true) :
    (Value.tuple [.str key, v]).writable = true := by
  simp [h]

theorem reads_entry (key : Unquoted) {tokens : List (List Char)} {v : Value}
    (h : ReadsDocument tokens v) :
    Reads (contract size) session.env entryParser stops (key.token :: [':'] :: tokens)
      (.ok (.tuple [.str key.text, v])) := by
  intro c body rest hbody hrest hc
  have parts : Spaced ([key.token] ++ ([':'] :: tokens)) body := hbody
  obtain ⟨front, back, hfront, hback, rfl⟩ := parts.split
  rw [List.append_assoc] at hc
  -- What comes behind the key is built when the key has been read, with a cell of its own.
  refine entry_ends ((quoted_ends key hfront hc).weaken fun _ d hd k _ => ?_)
  obtain ⟨rfl, hd⟩ := hd
  have colon : Reads (contract (k + 1)) session.env (symbolParser ":") (fun _ => True) [[':']]
      (.ok (.str ":")) := symbol_reads rfl (by decide) _
  have item : Reads (contract (k + 1)) session.env
      ((nestedParser k).map fun v => pure (.tuple [.str key.text, v])) stops tokens
      (.ok (.tuple [.str key.text, v])) := by
    refine Reads.map (h.nested (Nat.lt_succ_self k)) fun w hw => ?_
    cases hw
    exact writable_pair h.writable
  have member := colon.before item.next fun _ _ _ _ => .any _
  exact member.next d back rest hback hrest hd

theorem entry_needs : Needs (contract size) session.env entryParser (· == '"') := by
  intro c raises refused
  exact entry_ends ((quoted_needs c raises refused).weaken fun _ _ => False.elim)

/-- The tokens are read as an entry with the key and the value, which can be written. -/
structure ReadsEntry (tokens : List (List Char)) (pair : String × Value) : Prop where
  writable : pair.2.writable = true
  reads : ∀ size, Reads (contract size) session.env entryParser stops tokens
    (.ok (.tuple [.str pair.1, pair.2]))

theorem reads_object {tss : List (List (List Char))} {pairs : List (String × Value)}
    (each : List.Forall₂ ReadsEntry tss pairs) :
    ReadsDocument (['\x7b'] :: (separated [','] tss ++ [['\x7d']]))
      (.dict (Value.dictionary pairs)) := by
  have fits := forall_mem_of_forall₂ each fun _ _ h => h.writable
  have fits' : ∀ v ∈ pairs.map fun pair => Value.tuple [.str pair.1, pair.2], v.writable = true := by
    intro v hv
    obtain ⟨pair, hpair, rfl⟩ := List.mem_map.1 hv
    exact writable_pair (fits pair hpair)
  refine ⟨Value.writable_dictionary fits, fun size _ => ?_⟩
  have entries : ReadsNext (contract size) session.env (entryParser.sepBy commaParser)
      (· = '\x7d') (separated [','] tss)
      (.ok (.list (pairs.map fun pair => .tuple [.str pair.1, pair.2]))) := by
    refine .sepBy (comma_reads _) (symbol_needs rfl) (by decide) (show stops ',' from .inl rfl)
      (fun y hy => .inr (.inr hy)) (by decide) entry_needs (fun y hy => by rw [hy]; decide) fits' ?_
    rw [List.forall₂_map_right_iff]
    exact each.imp fun _ _ h => h.reads size
  have object : Reads (contract size) session.env objectParser stops
      (['\x7b'] :: (separated [','] tss ++ [['\x7d']])) (.ok (.dict (Value.dictionary pairs))) := by
    rw [← Value.toDict_pairs]
    refine Reads.map (bracketed_reads rfl rfl (by decide) (by decide) entries
      (fun v hv => Except.ok.inj hv ▸ Value.writable_list.2 fits') stops) fun v hv => ?_
    cases hv
    rw [Value.toDict_pairs]
    exact Value.writable_dictionary fits
  have begins : Begins (fun x => !isBlank x && !(x == 'n' || x == 't' || x == 'f' || x == '"' ||
      (x == '-' || isDigit x))) (['\x7b'] :: (separated [','] tss ++ [['\x7d']])) :=
    ⟨'\x7b', [], _, rfl, by decide⟩
  exact (Reads.or_right ((((null_needs.or true_needs).or false_needs).or quoted_needs).or
    number_needs) begins object).or_left

mutual

theorem Tree.reads : (t : Tree) → t.Short → ReadsDocument t.tokens t.value
  | .null, _ => reads_null
  | .bool true, _ => reads_true
  | .bool false, _ => reads_false
  | .text s, _ => reads_text s
  | .number _, short => reads_number short
  | .array items, short => reads_array (items_read items short)
  | .object entries, short => reads_object (entries_read entries short)

theorem items_read : (items : List Tree) → itemsShort items →
    List.Forall₂ ReadsDocument (itemTokens items) (itemValues items)
  | [], _ => .nil
  | item :: items, short => .cons (item.reads short.1) (items_read items short.2)

theorem entries_read : (entries : List (Unquoted × Tree)) → entriesShort entries →
    List.Forall₂ ReadsEntry (entryTokens entries) (entryValues entries)
  | [], _ => .nil
  | (key, item) :: entries, short =>
    have read := item.reads short.1
    .cons ⟨read.writable, fun _ => reads_entry key read⟩ (entries_read entries short.2)

end

theorem contract_session : (contract 1).store session.store := by
  refine ⟨Nat.le_refl 1, fun k cell hk => .inl ?_⟩
  rw [session_store] at hk
  rcases k with _ | k
  · cases hk
    rfl
  · cases hk

/-- Every layout of a document whose integers are short enough to be read is run to the value of the
document. -/
theorem document_complete (t : Tree) (text : Array Char) (layout : Written t.tokens text.toList)
    (short : t.Short) :
    session.Answers (.run document text true) (.ok (.ran valueParser.name (.ok t.value))) :=
  ((t.reads short).reads 1 Nat.one_pos).answers built_document contract_session id layout true

/-- An integer and a decimal. The last value of a key counts. -/
theorem document_complete_repeated :
    ∃ t : Tree, Written t.tokens "\x7b\"k\" : null, \"k\":[-7, 2.50 ]\x7d".toList ∧ t.Short ∧
      session.Answers (.run document "\x7b\"k\" : null, \"k\":[-7, 2.50 ]\x7d".toList.toArray true)
        (.ok (.ran valueParser.name (.ok (.dict [(.str "k",
          .list [.int (-7), .float (Decimal.ofPlaces false [2] [5, 0])])])))) := by
  let k : Unquoted := ⟨['k'], by decide⟩
  let n : Number := ⟨true, .ofNat 7, none⟩
  let m : Number := ⟨false, .ofNat 2, some (.ofNat 50)⟩
  let t : Tree := .object [(k, .null), (k, .array [.number n, .number m])]
  have layout : Written t.tokens "\x7b\"k\" : null, \"k\":[-7, 2.50 ]\x7d".toList :=
    Written.of_gaps [(['\x7b'], []), (k.token, [' ']), ([':'], [' ']), ("null".toList, []),
      ([','], [' ']), (k.token, []), ([':'], []), (['['], []), (n.token, []), ([','], [' ']),
      (m.token, [' ']), ([']'], []), (['\x7d'], [])] rfl
  have seven : n.Short := fun _ => by decide
  have decimal : m.Short := fun h => nomatch h
  have short : t.Short := ⟨trivial, ⟨seven, decimal, trivial⟩, trivial⟩
  exact ⟨t, layout, short, document_complete t _ layout short⟩

end Rewind.Grammar.Document
