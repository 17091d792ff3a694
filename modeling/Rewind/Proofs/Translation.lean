import Rewind.Proofs.Coupling
import Rewind.Rule.Combinators

namespace Rewind

/-- Both results show the same to one who does not ask where they left off. -/
structure Result.Similar (x y : Result) : Prop where
  value : x.value = y.value
  ok : x.ok = y.ok
  rest : x.cursor.rest = y.cursor.rest

/-- The continuation does not look at the position. -/
def Result.Blind (next : Result → Rule) : Prop := ∀ x y, x.Similar y → next x = next y

/-- The rule has no handmade part, and no continuation in it looks at the position. -/
def Rule.Relative : Rule → Prop
  | .atom a => a.Plain
  | .ref _ | .raise _ => True
  | .lazy _ _ thunk => thunk.Relative
  | .andThen r _ next => r.Relative ∧ Result.Blind next ∧ ∀ x, (next x).Relative
  | .unary _ r => r.Relative
  | .binary _ l r => l.Relative ∧ r.Relative
  | .between o c b => o.Relative ∧ c.Relative ∧ b.Relative

def Parser.Relative : Parser → Prop
  | .atom a => a.Plain
  | .andThen p _ next => p.Relative ∧ Result.Blind next ∧ ∀ x, (next x).Relative
  | .both p q _ | .or p q => p.Relative ∧ q.Relative
  | .map p _ | .not p | .many p | .lookAhead p | .trace _ _ p | .label p _ | .wrap p _ => p.Relative
  | .forward _ _ | .lazy _ _ => True

theorem Parser.relative_inherited : Inherited Relative where
  constant _ := trivial
  blank := trivial
  both _ hp hq := ⟨hp, hq⟩
  map _ hp := hp
  or hp hq := ⟨hp, hq⟩
  not hp := hp
  many hp := hp
  lookAhead hp := hp
  trace _ _ hp := hp
  label _ hp := hp
  wrap _ hp := hp

/-- Being relative, as a trait. -/
def Trait.relative : Trait where
  rule := Rule.Relative
  parser := Parser.Relative
  inherited := Parser.relative_inherited
  forward _ _ := trivial
  lazy _ _ := trivial
  parts {p} hp := by cases p <;> simp_all [Parser.parts, Parser.Relative]
  next hp := hp.2.2
  ofAtom ha _ := ha
  ofLazy ht := ht
  ofAndThen hr := ⟨hr.1, fun _ hp => ⟨hp, hr.2⟩⟩
  ofUnary hr := hr
  ofBinary hr := hr
  ofBetween hr := hr

namespace Rule

variable {r : Rule} {part : Result → Value} {next : Continuation}

/-- A continuation that is given a part of the result that does not tell the position. -/
theorem relative_bindPart (hr : r.Relative) (blind : ∀ x y, x.Similar y → part x = part y)
    (rest : ∀ v, (ofExcept (next v).result).Relative) : (r.bindPart part next).Relative := by
  refine ⟨hr, fun x y similar => ?_, fun x => rest (part x)⟩
  simp only [blind x y similar]

end Rule

/-- Cursors before and after a text is put in front of theirs. -/
def Cursor.shift (u : Array Char) (c : Cursor) : Cursor := ⟨u ++ c.text, u.size + c.position⟩

def Result.shift (u : Array Char) (r : Result) : Result := ⟨r.value, r.cursor.shift u, r.ok⟩

namespace Cursor

variable (u : Array Char) (c d : Cursor)

theorem char?_shift : (c.shift u).char? = c.char? := by
  rw [char?, char?, shift, Array.getElem?_append_right (Nat.le_add_right _ _),
    Nat.add_sub_cancel_left]

theorem rest_shift : (c.shift u).rest = c.rest := by
  simp [shift, rest, List.drop_append]

theorem next_shift : (c.shift u).next = c.next.shift u := by
  simp [shift, next, Nat.add_assoc]

theorem idle_shift : idle (c.shift u) (d.shift u) = idle c d := by
  rw [Bool.eq_iff_iff]
  simp [shift, idle, atEnd, Array.append_right_inj u]

end Cursor

/-- A text is put in front. -/
def Likeness.shift (u : Array Char) : Likeness where
  named := True
  logged := False
  unfolds := False
  cursors c d := c = d.shift u
  refs := Eq
  char h := by rw [h, Cursor.char?_shift]
  next h := by rw [h, Cursor.next_shift]
  idle h h' := by rw [h, h', Cursor.idle_shift]
  same h := h.elim
  names h := h.elim
  apart _ := id

namespace Likeness

theorem shift_results {u : Array Char} {r r' : Result} :
    (shift u).Results r r' ↔ r = r'.shift u := by
  constructor
  · intro h
    obtain ⟨value, cursor, ok⟩ := r
    obtain ⟨value', cursor', ok'⟩ := r'
    obtain ⟨rfl, rfl, moved⟩ := h
    exact congrArg (Result.mk _ · _) moved
  · rintro rfl
    exact ⟨rfl, rfl, rfl⟩

theorem shift_admits (u : Array Char) : (shift u).Admits .relative where
  atom ha := respects_of_plain ha
  next hp x y related := by
    obtain rfl := shift_results.1 related
    exact hp.2.1 _ _ ⟨rfl, rfl, Cursor.rest_shift u y.cursor⟩
  refs _ := rfl

end Likeness

/-- The answer with a text put in front of all cursors. -/
def Answer.shift (u : Array Char) : Answer → Answer
  | .parsed name r => .parsed name (r.shift u)
  | .moved c => .moved (c.shift u)
  | .fed r => .fed (r.shift u)
  | answer => answer

theorem Likeness.shift_answers (u : Array Char) (a b : Answer) (h : (shift u).Answers a b) :
    a = b.shift u := by
  obtain ⟨name, name', r, r', rfl, rfl, names, results⟩ := h
  rw [names trivial, shift_results.1 results]
  rfl

namespace Session

variable {s : Session}

/-- In a session that relative rules lead to, a relative rule gives behind any text what it gives at
the same place without it: the same value or fault, at a cursor that is moved by the length of the
text. The place may be beyond the end. -/
theorem parse_translated (reached : s.Reached (Command.Has Rule.Relative)) {rule : Rule}
    (relative : rule.Relative) (u text : Array Char) (position budget : Nat) :
    (s.step budget (.parse rule (u ++ text) (u.size + position : Nat))).map
        (fun last => last.1.result) =
      (s.step budget (.parse rule text position)).map fun last =>
        last.1.result.map (Answer.shift u) := by
  have admits := Likeness.shift_admits u
  have sound : (Likeness.shift u).Sound s :=
    admits.sound reached.ofTrait reached.scoped fun _ _ same => same
  have alike : rule.Alike (.shift u) rule := admits.rule relative
  have there : ∀ (text : Array Char) (k : Nat), Cursor.at? text k = .ok ⟨text, k⟩ :=
    fun _ _ => by simp [Cursor.at?_eq_ok_iff]
  have placed : Except.Agree (Likeness.shift u).cursors
      (Cursor.at? (u ++ text) (u.size + position : Nat)) (Cursor.at? text position) := by
    rw [there, there]
    exact .ok rfl
  have agree := parse_agree id sound rfl rfl (.refl s) (.refl s) alike placed budget
  generalize s.step budget (.parse rule (u ++ text) (u.size + position : Nat)) = v at agree
  generalize s.step budget (.parse rule text position) = w at agree
  cases agree with
  | none => rfl
  | @some x y related =>
    obtain ⟨⟨log, result⟩, _⟩ := x
    obtain ⟨⟨log', result'⟩, _⟩ := y
    obtain ⟨-, answers⟩ := related
    exact congrArg some (answers.eq_map (Likeness.shift_answers u))

/-- What stands behind a number, in the middle of a text as at its start. -/
theorem parse_translated_rest :
    ∃ s : Session, s.Reached (Command.Has Rule.Relative) ∧ ∃ rule : Rule, rule.Relative ∧
      ((s.step 9 (.parse rule #['4', '2', ';'] (0 : Nat))).map fun last => last.1.result) =
        some (.ok (.parsed "lazy(thunk) then ..." ⟨.str ";", ⟨#['4', '2', ';'], 2⟩, true⟩)) ∧
      ((s.step 9 (.parse rule #['a', 'b', '4', '2', ';'] (2 : Nat))).map
          fun last => last.1.result) =
        some (.ok (.parsed "lazy(thunk) then ..."
          ⟨.str ";", ⟨#['a', 'b', '4', '2', ';'], 4⟩, true⟩)) := by
  let number : Rule := .lazy none false (.many1 .digit)
  let rule : Rule := (Rule.ref "number").bindPart Result.restValue (.giving pure)
  have reached : (ofCommands [.bind "number" number]).Reached (Command.Has Rule.Relative) :=
    reached_ofCommands fun command mem => by cases List.mem_singleton.1 mem; trivial
  have relative : rule.Relative := by
    refine Rule.relative_bindPart trivial (fun x y similar => ?_) fun _ => trivial
    simp only [Result.restValue, Cursor.remaining, similar.rest]
  have parsed : (((ofCommands [.bind "number" number]).step 9
      (.parse rule #['4', '2', ';'] (0 : Nat))).map fun last => last.1.result) =
        some (.ok (.parsed "lazy(thunk) then ..." ⟨.str ";", ⟨#['4', '2', ';'], 2⟩, true⟩)) := rfl
  have translated := parse_translated reached relative #['a', 'b'] #['4', '2', ';'] 0 9
  have moved := congrArg (Option.map (Except.map (Answer.shift #['a', 'b']))) parsed
  rw [Option.map_map] at moved
  exact ⟨_, reached, rule, relative, parsed, translated.trans moved⟩

end Session

end Rewind
