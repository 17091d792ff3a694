import Rewind.Proofs.Document.Complete
import Rewind.Proofs.Yields

namespace Rewind.Grammar.Document

open Rewind.Parser Text

variable {size : Nat} {c d : Cursor} {p : Parser} {F : Phrases} {raises : Fault → Prop}

/-- The tokens of a tree, with its value. -/
def IsTree : Phrases := fun tokens v =>
  ∃ t : Tree, t.tokens = tokens ∧ t.value = v ∧ v.writable = true

/-- The tokens of an entry of an object: a key, a colon and a tree. -/
def IsEntry : Phrases := fun tokens v => ∃ (key : Unquoted) (t : Tree),
  key.token :: [':'] :: t.tokens = tokens ∧ .tuple [.str key.text, t.value] = v ∧
    t.value.writable = true

theorem isTree_of : IsTree.Of IsToken where
  tokens h := by
    obtain ⟨t, rfl, -⟩ := h
    exact t.isToken
  writes h := by
    obtain ⟨t, -, -, fits⟩ := h
    exact fits

theorem isEntry_of : IsEntry.Of IsToken where
  tokens h := by
    obtain ⟨key, t, rfl, -⟩ := h
    refine List.forall_mem_cons.2 ⟨.text key, List.forall_mem_cons.2 ⟨?_, t.isToken⟩⟩
    exact .symbol (s := ":") (by simp)
  writes h := by
    obtain ⟨key, t, -, rfl, fits⟩ := h
    exact writable_pair fits

/-- A number that is refused stands behind tokens of documents. -/
def Refused (c : Cursor) (fault : Fault) : Prop :=
  ∃ (d : Cursor) (n : Number) (rest : List Char), Over IsToken c d ∧
    d.rest = n.token ++ rest ∧ n.Ended rest ∧ n.read = .error fault

theorem Refused.mono (across : Over IsToken c d) {fault : Fault} (h : Refused d fault) :
    Refused c fault := by
  obtain ⟨e, n, rest, further, there⟩ := h
  exact ⟨e, n, rest, across.trans further, there⟩

/-- What a parser of the grammar matches when there are so many cells. -/
abbrev Yields (size : Nat) (p : Parser) (raises : Fault → Prop) (F : Phrases) (c : Cursor) : Prop :=
  Parser.Yields (contract size) session.env p raises F c

/-- A match at the cursor reads a tree, wherever there is a cell. Nothing is raised but for a number that
is refused. -/
def Sound (c : Cursor) : Prop := ∀ (size : Nat) (raises : Fault → Prop), 0 < size →
  (∀ fault, Refused c fault → raises fault) → Yields size valueParser raises IsTree c

theorem symbol_yields (s : String) (c : Cursor) :
    Yields size (symbolParser s) raises (fun tokens _ => tokens = [s.toList]) c := by
  refine (Yields.token (literal_lexes _ _) (Lexicon.literal_writes _ rfl) c ?_).mono fun _ _ h => ?_
  · rintro fault ⟨_, _, ⟨-, hf⟩, -⟩
    cases hf
  · obtain ⟨t, rest, rfl, rfl, -⟩ := h
    rfl

theorem word_yields {s : String} {t : Tree} (htokens : t.tokens = [s.toList])
    (fits : t.value.writable = true) (c : Cursor) :
    Yields size (wordParser s t.value) raises IsTree c := by
  refine Ends.before ((symbol_yields s c).weaken fun _ d hd => .constant ?_)
  obtain ⟨_, read, rfl⟩ := hd
  exact ⟨_, read, t, htokens, rfl, fits⟩

theorem quoted_yields (c : Cursor) :
    Yields size quotedParser.token raises
      (fun tokens v => ∃ s : Unquoted, tokens = [s.token] ∧ v = .str s.text) c := by
  refine (Yields.token quoted_lexes quotes_writes c ?_).mono fun tokens v h => ?_
  · rintro fault ⟨_, _, ⟨_, -, hf⟩, -⟩
    cases hf
  · obtain ⟨_, rest, rfl, s, rfl, same⟩ := h
    cases same
    exact ⟨s, rfl, rfl⟩

theorem text_yields (c : Cursor) : Yields size quotedParser.token raises IsTree c := by
  refine (quoted_yields c).mono fun tokens v h => ?_
  obtain ⟨s, rfl, rfl⟩ := h
  exact ⟨.text s, rfl, rfl, rfl⟩

theorem number_yields (covers : ∀ fault, Refused c fault → raises fault) :
    Yields size unspacedParser.token raises IsTree c := by
  refine (Yields.token number_lexes numbers_writes c ?_).mono fun tokens v h => ?_
  · rintro fault ⟨_, rest, ⟨n, rfl, ended, read⟩, there⟩
    have blanks : Over IsToken c c.skipBlanks := ⟨[], .blanks c, fun _ ht => nomatch ht⟩
    refine covers fault ⟨c.skipBlanks, n, rest, blanks, ?_, ended, read.symm⟩
    rw [Cursor.rest_skipBlanks, there]
  · obtain ⟨_, rest, rfl, n, rfl, -, read⟩ := h
    have value := Number.value_of_read read.symm
    exact ⟨.number n, rfl, value.symm, Number.writable_of_read read.symm⟩

/-- Between brackets less text is left. -/
theorem bracketed_yields {opening closing : String} (nonempty : opening.toList ≠ [])
    (hopen : IsToken opening.toList) (of : F.Of IsToken)
    (inside : ∀ d, Over IsToken c d → d.rest.length < c.rest.length → Yields size p raises F d) :
    Yields size (between (symbolParser opening) (symbolParser closing) p) raises
      (fun tokens v => ∃ inner, opening.toList :: (inner ++ [closing.toList]) = tokens ∧ F inner v)
      c := by
  refine Ends.between ((symbol_yields opening c).weaken fun _ d hd => ?_)
  obtain ⟨_, opened, rfl⟩ := hd
  have shorter := opened.length_lt List.mem_cons_self nonempty
  have across : Over IsToken c d := ⟨_, opened, fun t ht => List.mem_singleton.1 ht ▸ hopen⟩
  refine (inside d across shorter).weaken fun v e he => ?_
  obtain ⟨inner, read, hF⟩ := he
  refine Value.asConstant_ends (of.writes hF) ?_
  refine (symbol_yields closing e).weaken fun _ e' he' => ?_
  obtain ⟨_, closed, rfl⟩ := he'
  exact ⟨_, opened.append (read.append closed), inner, rfl, hF⟩

theorem comma_yields (d : Cursor) :
    Yields size commaParser raises (fun tokens _ => tokens = [[',']]) d :=
  symbol_yields "," d

theorem isToken_comma : IsToken [','] := .symbol (s := ",") (by simp)

theorem listed_of (of : F.Of IsToken) : (F.listed [',']).Of IsToken where
  tokens h := by
    obtain ⟨tss, vs, rfl, -, each⟩ := h
    exact isToken_separated (forall_mem_of_forall₂ each.flip fun _ _ hF => of.tokens hF)
  writes h := by
    obtain ⟨tss, vs, -, rfl, each⟩ := h
    exact Value.writable_list.2 (forall_mem_of_forall₂ each fun _ _ hF => of.writes hF)

theorem nested_yields (h : Sound c) (covers : ∀ fault, Refused c fault → raises fault) {k : Nat}
    (hk : k < size) : Yields size (nestedParser k) raises IsTree c :=
  nested_ends hk (h size raises (Nat.lt_of_le_of_lt (Nat.zero_le k) hk) covers)

theorem exists_items {tss : List (List (List Char))} {vs : List Value}
    (h : List.Forall₂ IsTree tss vs) :
    ∃ items : List Tree, itemTokens items = tss ∧ itemValues items = vs := by
  induction h with
  | nil => exact ⟨[], rfl, rfl⟩
  | cons first _ ih =>
    obtain ⟨t, rfl, rfl, -⟩ := first
    obtain ⟨items, rfl, rfl⟩ := ih
    exact ⟨t :: items, rfl, rfl⟩

theorem array_yields (hsize : 0 < size) (covers : ∀ fault, Refused c fault → raises fault)
    (inside : ∀ d : Cursor, d.rest.length < c.rest.length → Sound d) :
    Yields size arrayParser raises IsTree c := by
  have items : ∀ d, Over IsToken c d → d.rest.length < c.rest.length →
      Yields size ((nestedParser 0).sepBy commaParser) raises (IsTree.listed [',']) d := by
    intro d across less
    refine .sepBy (List.cons_ne_nil ',' []) isToken_comma isTree_of comma_yields fun e further => ?_
    have sound := inside e (Nat.lt_of_le_of_lt further.length_le less)
    exact nested_yields sound (fun fault hf => covers fault (hf.mono (across.trans further))) hsize
  have bracket : IsToken "[".toList := .symbol (by simp)
  refine (bracketed_yields (by decide) bracket (listed_of isTree_of) items).mono fun tokens v h => ?_
  obtain ⟨_, rfl, tss, vs, rfl, rfl, each⟩ := h
  have fits := forall_mem_of_forall₂ each fun _ _ hv => isTree_of.writes hv
  obtain ⟨items, rfl, rfl⟩ := exists_items each
  exact ⟨.array items, rfl, rfl, Value.writable_list.2 fits⟩

theorem entry_yields (covers : ∀ fault, Refused c fault → raises fault)
    (inside : ∀ d : Cursor, d.rest.length < c.rest.length → Sound d) :
    Yields size entryParser raises IsEntry c := by
  refine entry_ends ((quoted_yields c).weaken fun _ d hd k _ => ?_)
  obtain ⟨_, read, key, rfl, rfl⟩ := hd
  have shorter := read.length_lt List.mem_cons_self (List.cons_ne_nil '"' _)
  refine Ends.before ((symbol_yields ":" d).weaken fun _ e he => ?_)
  obtain ⟨_, colon, rfl⟩ := he
  have sound := inside e (Nat.lt_of_le_of_lt colon.length_le shorter)
  have across : Over IsToken c e := by
    refine ⟨_, read.append colon, List.forall_mem_cons.2 ⟨.text key, fun t ht => ?_⟩⟩
    exact List.mem_singleton.1 ht ▸ .symbol (s := ":") (by simp)
  have nested := nested_yields sound (fun fault hf => covers fault (hf.mono across)) (Nat.lt_succ_self k)
  refine Ends.map (nested.weaken fun v e' he' => ?_)
  obtain ⟨_, item, t, rfl, rfl, fits⟩ := he'
  exact Value.asConstant_ends (writable_pair fits)
    ⟨_, read.append (colon.append item), key, t, rfl, rfl, fits⟩

theorem exists_entries {tss : List (List (List Char))} {vs : List Value}
    (h : List.Forall₂ IsEntry tss vs) :
    ∃ entries : List (Unquoted × Tree), entryTokens entries = tss ∧
      (entryValues entries).map (fun pair => .tuple [.str pair.1, pair.2]) = vs ∧
      ∀ pair ∈ entryValues entries, pair.2.writable = true := by
  induction h with
  | nil => exact ⟨[], rfl, rfl, fun _ hp => nomatch hp⟩
  | cons first _ ih =>
    obtain ⟨key, t, rfl, rfl, fits⟩ := first
    obtain ⟨entries, rfl, rfl, all⟩ := ih
    exact ⟨(key, t) :: entries, rfl, rfl, List.forall_mem_cons.2 ⟨fits, all⟩⟩

theorem object_yields (covers : ∀ fault, Refused c fault → raises fault)
    (inside : ∀ d : Cursor, d.rest.length < c.rest.length → Sound d) :
    Yields size objectParser raises IsTree c := by
  have entries : ∀ d, Over IsToken c d → d.rest.length < c.rest.length →
      Yields size (entryParser.sepBy commaParser) raises (IsEntry.listed [',']) d := by
    intro d across less
    refine .sepBy (List.cons_ne_nil ',' []) isToken_comma isEntry_of comma_yields fun e further => ?_
    refine entry_yields (fun fault hf => covers fault (hf.mono (across.trans further))) fun e' he' => ?_
    exact inside e' (Nat.lt_trans (Nat.lt_of_lt_of_le he' further.length_le) less)
  have bracket : IsToken "\x7b".toList := .symbol (by simp)
  refine .map ((bracketed_yields (by decide) bracket (listed_of isEntry_of) entries).mono
    fun tokens v h => ?_) isTree_of
  obtain ⟨_, rfl, tss, vs, rfl, rfl, each⟩ := h
  obtain ⟨entries, rfl, rfl, fits⟩ := exists_entries each
  rw [Value.toDict_pairs]
  exact ⟨.object entries, rfl, rfl, Value.writable_dictionary fits⟩

theorem Sound.of_inside (inside : ∀ d : Cursor, d.rest.length < c.rest.length → Sound d) :
    Sound c := by
  intro size raises hsize covers
  have null : Yields size (wordParser "null" .none) raises IsTree c :=
    word_yields (t := .null) rfl rfl c
  have yes : Yields size (wordParser "true" (.bool true)) raises IsTree c :=
    word_yields (t := .bool true) rfl rfl c
  have no : Yields size (wordParser "false" (.bool false)) raises IsTree c :=
    word_yields (t := .bool false) rfl rfl c
  exact (((((null.or yes).or no).or (text_yields c)).or (number_yields covers)).or
    (object_yields covers inside)).or (array_yields hsize covers inside)

theorem sound (c : Cursor) : Sound c := by
  induction h : c.rest.length using Nat.strongRecOn generalizing c with
  | ind n ih => exact .of_inside fun d hd => ih d.rest.length (h ▸ hd) d rfl

/-- Every text is run to an answer, if no number is refused that stands in it behind tokens. -/
theorem exists_answers (text : Array Char) (requireEnd : Bool) :
    (∃ r, session.Answers (.run document text requireEnd)
      (.ok (.ran valueParser.name (Report.ofResult requireEnd r))) ∧
      Result.Ends True (fun v d => ∃ tokens, Cursor.Spans tokens (.start text) d ∧ IsTree tokens v)
        r) ∨
    ∃ fault, session.Answers (.run document text requireEnd) (.error fault) ∧
      Refused (.start text) fault := by
  obtain ⟨x, answered, hx⟩ := Session.exists_answers_run requireEnd built_document
    contract_session id (sound (.start text) 1 _ Nat.one_pos fun _ hf => hf)
  rcases x with fault | a
  · exact .inr ⟨fault, answered, hx⟩
  · obtain ⟨r, hr, rfl⟩ := hx
    exact .inl ⟨r, answered, hr⟩

theorem exists_report (text : Array Char)
    (h : Session.passes Session.isReport (session.step 60 (.run document text true)) = true) : ∃ report,
      session.Answers (.run document text true) (.ok (.ran valueParser.name (.error report))) := by
  obtain ⟨name, report, found⟩ := Session.exists_report_of_passes _ _ _ h
  rcases exists_answers text true with ⟨r, answered, -⟩ | ⟨fault, answered, -⟩
  · have same := found.unique answered
    simp only [Except.ok.injEq, Answer.ran.injEq] at same
    exact ⟨report, by rw [same.2]; exact answered⟩
  · cases found.unique answered

/-- A value is only got from a layout of a document that has it. -/
theorem document_sound {text : Array Char} {v : Value}
    (accepted : session.Answers (.run document text true) (.ok (.ran valueParser.name (.ok v)))) :
    ∃ t : Tree, Written t.tokens text.toList ∧ t.value = v := by
  rcases exists_answers text true with ⟨r, answered, hr⟩ | ⟨fault, answered, -⟩
  · have same := accepted.unique answered
    simp only [Except.ok.injEq, Answer.ran.injEq, true_and] at same
    obtain ⟨d, ⟨_, read, t, rfl, value, -⟩, ended⟩ := hr.of_reported same.symm
    exact ⟨t, read.written (ended rfl), value⟩
  · cases accepted.unique answered

/-- Brackets inside a text do not count. Without the comma's second item, the colon or the closing
bracket, with a blank in a number, and with more behind the document there is a report. -/
theorem document_sound_nested :
    (∃ t : Tree, Written t.tokens "\x7b\"]\" : [-1]\x7d".toList ∧
      t.value = .dict [(.str "]", .list [.int (-1)])]) ∧
    ∀ text ∈ ["[1,]", "\x7b\"a\" 1\x7d", "[1", "- 1", "1 2"], ∃ report,
      session.Answers (.run document text.toList.toArray true)
        (.ok (.ran valueParser.name (.error report))) := by
  let k : Unquoted := ⟨[']'], by decide⟩
  let n : Number := ⟨true, .ofNat 1, none⟩
  let t : Tree := .object [(k, .array [.number n])]
  have layout : Written t.tokens "\x7b\"]\" : [-1]\x7d".toList :=
    Written.of_gaps [(['\x7b'], []), (k.token, [' ']), ([':'], [' ']), (['['], []),
      (n.token, []), ([']'], []), (['\x7d'], [])] rfl
  have one : n.Short := fun _ => by decide
  have short : t.Short := ⟨⟨one, trivial⟩, trivial⟩
  have accepted : session.Answers (.run document "\x7b\"]\" : [-1]\x7d".toList.toArray true)
      (.ok (.ran valueParser.name (.ok t.value))) :=
    ((t.reads short).reads 1 Nat.one_pos).answers built_document contract_session id layout true
  refine ⟨document_sound accepted, ?_⟩
  simp only [List.forall_mem_cons]
  refine ⟨exists_report _ ?_, exists_report _ ?_, exists_report _ ?_, exists_report _ ?_,
    exists_report _ ?_, by simp⟩
  all_goals decide +kernel

end Rewind.Grammar.Document
