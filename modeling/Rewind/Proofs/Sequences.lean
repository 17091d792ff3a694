import Rewind.Proofs.Binding
import Rewind.Proofs.Rows
import Rewind.Proofs.Written

namespace Rewind

namespace Rule

variable {env : Env}

theorem build_sequence (rs : List Rule) :
    (sequence rs).build env = (do
      let ps ← rs.mapM (build env)
      return Parser.sequence ps) := by
  have nothing : (constant (.list [])).build env = pure (Parser.constant (.list [])) := rfl
  rw [sequence, build_foldl_binary, nothing, LawfulMonad.pure_bind]
  rfl

theorem eval_sequence (rs : List Rule) (c : Cursor) :
    (sequence rs).eval env c = (do
      let ps ← Run.ofBuild (rs.mapM (build env))
      (Parser.sequence ps).eval env c) := by
  simp only [eval, build_sequence, Run.ofBuild_bind, LawfulMonad.bind_assoc, Run.ofBuild_pure,
    LawfulMonad.pure_bind]

/-- The rule stands for a parser that there is already, as a name does: to build it makes nothing new
and cannot fail. -/
def Standing (env : Env) (r : Rule) : Prop := ∃ p, r.build env = pure p

theorem Standing.ref {name : String} {p : Parser} (found : env.lookup name = some p) :
    (ref name).Standing env := by
  refine ⟨p, ?_⟩
  rw [build, lookup, found]

theorem exists_mapM_build {rs : List Rule} (standing : ∀ r ∈ rs, r.Standing env) :
    ∃ ps, rs.mapM (build env) = pure ps := by
  induction rs with
  | nil => exact ⟨[], List.mapM_nil⟩
  | cons r rs ih =>
    obtain ⟨p, hp⟩ := standing r List.mem_cons_self
    obtain ⟨ps, hps⟩ := ih fun r' mem => standing r' (List.mem_cons_of_mem r mem)
    refine ⟨p :: ps, ?_⟩
    rw [List.mapM_cons, hp, hps, pure_bind, pure_bind]

/-- What stands for parsers that there are already may as well be built when it is its turn. -/
theorem eval_sequence_append (rs : List Rule) {rs' : List Rule}
    (standing : ∀ r ∈ rs', r.Standing env) (c : Cursor) :
    (sequence (rs ++ rs')).eval env c =
      ((sequence rs).bind fun xs => pure ((sequence rs').map xs.append)).eval env c := by
  obtain ⟨ps', built⟩ := exists_mapM_build standing
  rw [eval_bind, eval_sequence, eval_sequence, List.mapM_append, built]
  simp only [LawfulMonad.pure_bind, Run.ofBuild_bind, LawfulMonad.bind_assoc, Run.ofBuild_pure,
    Run.ofAct_pure]
  congr 1
  funext ps A
  rw [Parser.eval_sequence_append]
  refine Run.bind_congr_at rfl fun log r B ended => ?_
  by_cases matched : r.ok = true
  · have first := (Parser.lists_sequence ps).at ended matched
    rw [if_pos matched, if_pos matched, map, eval_map, eval_sequence, built, Run.ofBuild_pure,
      LawfulMonad.pure_bind, Run.settle_bind]
    refine Run.bind_congr_at rfl fun log t D ended' => ?_
    by_cases matched' : t.ok = true
    · have second := (Parser.lists_sequence ps').at ended' matched'
      rw [if_pos matched', if_pos matched', LawfulMonad.pure_bind,
        Run.ofAct_asConstant (first.append second).writable, LawfulMonad.pure_bind, Run.settle_pure]
      rfl
    · rw [if_neg matched', if_neg matched', Run.settle_pure]
      rfl
  · rw [if_neg matched, if_neg matched]

theorem build_sequence_second {opening closing body : Rule} {p q t : Parser}
    (hp : opening.build env = pure p) (hq : closing.build env = pure q) (ht : body.build env = pure t) :
    ((sequence [opening, body, closing]).map Value.second).build env =
      pure ((Parser.sequence [p, t, q]).map fun v => pure v.second) := by
  rw [map, build, build_sequence]
  simp only [List.mapM_cons, List.mapM_nil, hp, hq, ht, pure_bind]
  rfl

end Rule

/-- A parser from the library keeps the cells in the library, and the value of its match can be written. -/
theorem Parser.eval_library {env : Env} (henv : Trait.library.OfEnv env) {p : Parser}
    (hp : Trait.library.parser p) {c : Cursor} {A B : Store} (held : Trait.library.OfStore A)
    {log : List Event} {r : Result} (ended : p.eval env c A = some (⟨log, .ok r⟩, B)) :
    Trait.library.OfStore B ∧ r.Writes := by
  obtain ⟨n, ran⟩ := eval_eq_some_iff.1 ended
  have kept := run_writes henv n hp c A held
  rwa [ran] at kept

theorem Row.library {env : Env} (henv : Trait.library.OfEnv env) {ps : List Parser} {c d : Cursor}
    {A B : Store} {log : List Event} {values : List Value} (row : Row env ps c A log values d B)
    (all : ∀ p ∈ ps, Trait.library.parser p) (held : Trait.library.OfStore A) :
    Trait.library.OfStore B := by
  induction row with
  | nil => exact held
  | cons first _ _ ih =>
    obtain ⟨hp, all⟩ := List.forall_mem_cons.1 all
    exact ih all (Parser.eval_library henv hp held first).1

namespace Session

variable {s : Session} {rs : List Rule} {ps : List Parser} {c : Cursor} {A B : Store}
  {log : List Event} {v : Value}

/-- A parse of a sequence ends as its parsers in order do. -/
theorem parses_sequence_iff {x : Except Fault Result}
    (built : rs.mapM (Rule.build s.env) s.store = (.ok ps, A)) :
    s.Parses (.sequence rs) c (⟨log, x⟩, B) ↔
      ∃ y, Row.Ends s.env ps c A log y B ∧ x = y.map (Parser.listed c (.list [])) := by
  have whole : (Rule.sequence rs).build s.env s.store = (.ok (Parser.sequence ps), A) := by
    rw [Rule.build_sequence, Build.bind_of_ok built]
    rfl
  rw [parses_iff, Rule.eval_of_built whole, Parser.eval_sequence, Run.bind_pure_eq_some_iff]
  refine exists_congr fun y => and_congr_left fun _ => ?_
  exact ⟨Row.ends_of_inOrder, Row.Ends.inOrder_eq⟩

theorem parses_sequence_success_iff (built : rs.mapM (Rule.build s.env) s.store = (.ok ps, A))
    {d : Cursor} : s.Parses (.sequence rs) c (⟨log, .ok (.success v d)⟩, B) ↔
      ∃ values, Row s.env ps c A log values d B ∧ values.length = ps.length ∧ v = .list values := by
  rw [parses_sequence_iff built]
  constructor
  · rintro ⟨fault | _ | ⟨values, e⟩, ends, same⟩
    · cases same
    · cases same
    · cases same
      exact ⟨values, ends, Row.length_eq ends, rfl⟩
  · rintro ⟨values, row, -, rfl⟩
    exact ⟨.ok (some (values, d)), row, rfl⟩

theorem parses_sequence_failure_iff (built : rs.mapM (Rule.build s.env) s.store = (.ok ps, A))
    {r : Result} (failed : r.ok = false) : s.Parses (.sequence rs) c (⟨log, .ok r⟩, B) ↔
      r = .failure c ∧ ∃ d, RowBreaks s.env ps c A log d (.ok (.failure d)) B := by
  rw [parses_sequence_iff built]
  constructor
  · rintro ⟨fault | _ | ⟨values, e⟩, ends, same⟩
    · cases same
    · cases same
      exact ⟨rfl, ends⟩
    · cases same
      cases failed
  · rintro ⟨rfl, ends⟩
    exact ⟨.ok none, ends, rfl⟩

theorem parses_sequence_error_iff (built : rs.mapM (Rule.build s.env) s.store = (.ok ps, A))
    {fault : Fault} : s.Parses (.sequence rs) c (⟨log, .error fault⟩, B) ↔
      ∃ d, RowBreaks s.env ps c A log d (.error fault) B := by
  rw [parses_sequence_iff built]
  constructor
  · rintro ⟨fault | _ | ⟨values, e⟩, ends, same⟩
    · cases same
      exact ends
    · cases same
    · cases same
  · intro ends
    exact ⟨.error fault, ends, rfl⟩

/-- Let rules be built into parsers. Their sequence matches just where the parsers match in a row, each from
where the one before it has left off, with values that can be written; it lists all their values, one for
each parser, and leaves off where the last one does. It fails just where some of them match in a row and the
next one fails, and then gives back the cursor that it began with; it raises just where the next one raises
that fault, or matches with a value that cannot be written. In either case those behind are not run. The
records are those of the parsers that are run, in order. Two sequences put together, of which the second
names parsers that there are already, end as the first one does when it is gone on with by the second, with
the values of the second behind its own: in the same way, with the same records and the same cells. So do a
body between two others, and the second value of the three in sequence, if the values of the two others can
be written. -/
theorem sequence_in_order (s : Session) (c : Cursor) :
    (∀ rs ps A, rs.mapM (Rule.build s.env) s.store = (.ok ps, A) →
      (∀ log v d B, s.Parses (.sequence rs) c (⟨log, .ok (.success v d)⟩, B) ↔
        ∃ values, Row s.env ps c A log values d B ∧ values.length = ps.length ∧ v = .list values) ∧
      (∀ log r B, r.ok = false → (s.Parses (.sequence rs) c (⟨log, .ok r⟩, B) ↔
        r = .failure c ∧ ∃ d, RowBreaks s.env ps c A log d (.ok (.failure d)) B)) ∧
      ∀ log fault B, s.Parses (.sequence rs) c (⟨log, .error fault⟩, B) ↔
        ∃ d, RowBreaks s.env ps c A log d (.error fault) B) ∧
    (∀ rs rs', (∀ r ∈ rs', r.Standing s.env) → ∀ last,
      s.Parses (.sequence (rs ++ rs')) c last ↔
        s.Parses ((Rule.sequence rs).bind fun xs => pure ((Rule.sequence rs').map xs.append)) c last) ∧
    ∀ opening closing body p q t, Rule.build s.env opening = pure p →
      Rule.build s.env closing = pure q → Rule.build s.env body = pure t →
      p.FitsAt s.env c s.store →
      (∀ log values d B, Row s.env [p, t] c s.store log values d B → q.FitsAt s.env d B) →
      ∀ last, s.Parses (.between opening closing body) c last ↔
        s.Parses ((Rule.sequence [opening, body, closing]).map Value.second) c last := by
  refine ⟨fun rs ps A built => ⟨?_, ?_, ?_⟩, fun rs rs' standing last => ?_,
    fun opening closing body p q t hp hq ht opens closes last => ?_⟩
  · exact fun log v d B => parses_sequence_success_iff built
  · exact fun log r B failed => parses_sequence_failure_iff built failed
  · exact fun log fault B => parses_sequence_error_iff built
  · rw [parses_iff, parses_iff, Rule.eval_sequence_append rs standing]
  · have whole : (Rule.between opening closing body).build s.env = pure (Parser.between p q t) := by
      simp only [Rule.build, hp, hq, ht, pure_bind]
    rw [parses_iff, parses_iff, Rule.eval_of_pure whole,
      Rule.eval_of_pure (Rule.build_sequence_second hp hq ht),
      Parser.eval_sequence_second opens closes]

/-- A comma. In its place an exclamation mark raises. -/
def strictComma : CharTest := fun x =>
  if x == '!' then Logged.raise (.raised "no comma") else pure (x == ',')

/-- Knows an item, which is built when it is first used, and a comma. -/
def listing : Session :=
  ofCommands [.bind "item" (.lazy (some "item") true .digit), .bind "comma" (.satisfy strictComma "comma")]

/-- An item, a comma and an item. The second item is not run where no comma stands behind the first, nor
where the comma raises. -/
theorem sequence_in_order_listing : ∃ ps,
    [Rule.ref "item", .ref "comma", .ref "item"].mapM (Rule.build listing.env) listing.store =
      (.ok ps, listing.store) ∧
    (∃ B, listing.Parses (.sequence [.ref "item", .ref "comma", .ref "item"])
      (.start #['1', ',', '2']) (⟨[.filled (some "item")],
        .ok (.success (.list [.str "1", .str ",", .str "2"]) ⟨#['1', ',', '2'], 3⟩)⟩, B)) ∧
    (∃ B, listing.Parses (.sequence [.ref "item", .ref "comma", .ref "item"])
      (.start #['1', ';', '2'])
        (⟨[.filled (some "item")], .ok (.failure (.start #['1', ';', '2']))⟩, B)) ∧
    (∃ B, listing.Parses (.sequence [.ref "item", .ref "comma", .ref "item"])
      (.start #['1', '!', '2']) (⟨[.filled (some "item")], .error (.raised "no comma")⟩, B)) ∧
    (∀ last, listing.Parses (.sequence ([.ref "item"] ++ [.ref "comma", .ref "item"]))
        (.start #['1', ',', '2']) last ↔
      listing.Parses ((Rule.sequence [.ref "item"]).bind fun xs =>
        pure ((Rule.sequence [.ref "comma", .ref "item"]).map xs.append)) (.start #['1', ',', '2']) last) ∧
    ∀ last, listing.Parses (.between (.ref "item") (.ref "item") (.ref "comma"))
        (.start #['1', ',', '2']) last ↔
      listing.Parses ((Rule.sequence [.ref "item", .ref "comma", .ref "item"]).map Value.second)
        (.start #['1', ',', '2']) last := by
  let item : Parser := .lazy 0 (some "item")
  let comma : Parser := .atom (.satisfy strictComma "comma")
  let filled : Store := listing.store.fill 0 (.satisfy Text.isDigit "digit")
  have built : [Rule.ref "item", .ref "comma", .ref "item"].mapM (Rule.build listing.env)
      listing.store = (.ok [item, comma, item], listing.store) := rfl
  have builds : (Rule.ref "item").build listing.env = pure item := rfl
  have builds' : (Rule.ref "comma").build listing.env = pure comma := rfl
  have behind : ∀ r ∈ [Rule.ref "comma", .ref "item"], r.Standing listing.env := by
    simp only [List.forall_mem_cons]
    exact ⟨.ref rfl, .ref rfl, nofun⟩
  -- The item stands before all three of the others, and is built there.
  have first (x : Char) : item.eval listing.env (.start #['1', x, '2']) listing.store =
      some (⟨[.filled (some "item")], .ok (.success (.str "1") ⟨#['1', x, '2'], 1⟩)⟩, filled) :=
    Parser.eval_eq_some_iff.2 ⟨3, rfl⟩
  have one : (Value.str "1").writable = true := rfl
  have inOrder (c : Cursor) := sequence_in_order listing c
  have library : Trait.library.OfSession listing := by
    refine Reached.library (reached_ofCommands ?_)
    simp only [List.forall_mem_cons]
    exact ⟨trivial, trivial, nofun⟩
  have stock : Trait.library.parser item := ⟨trivial, trivial⟩
  have stock' : Trait.library.parser comma := ⟨trivial, rfl⟩
  refine ⟨_, built, ?_, ?_, ?_, (inOrder _).2.1 _ _ behind,
    (inOrder _).2.2 _ _ _ _ _ _ builds builds builds' ?_ ?_⟩
  · have second : comma.eval listing.env ⟨#['1', ',', '2'], 1⟩ filled =
        some (⟨[], .ok (.success (.str ",") ⟨#['1', ',', '2'], 2⟩)⟩, filled) :=
      Parser.eval_eq_some_iff.2 ⟨3, rfl⟩
    have third : item.eval listing.env ⟨#['1', ',', '2'], 2⟩ filled =
        some (⟨[], .ok (.success (.str "2") ⟨#['1', ',', '2'], 3⟩)⟩, filled) :=
      Parser.eval_eq_some_iff.2 ⟨3, rfl⟩
    have row := Row.cons (first ',') one (.cons second rfl (.cons third rfl (.nil _ _)))
    exact ⟨_, (((inOrder _).1 _ _ _ built).1 _ _ _ _).2 ⟨_, row, rfl, rfl⟩⟩
  · have second : comma.eval listing.env ⟨#['1', ';', '2'], 1⟩ filled =
        some (⟨[], .ok (.failure ⟨#['1', ';', '2'], 1⟩)⟩, filled) :=
      Parser.eval_eq_some_iff.2 ⟨3, rfl⟩
    have breaks : RowBreaks listing.env [item, comma, item] _ _ _ _ _ _ :=
      .later (first ';') one (.here second)
    exact ⟨_, (((inOrder _).1 _ _ _ built).2.1 _ _ _ rfl).2 ⟨rfl, _, breaks⟩⟩
  · have second : comma.eval listing.env ⟨#['1', '!', '2'], 1⟩ filled =
        some (⟨[], .error (.raised "no comma")⟩, filled) :=
      Parser.eval_eq_some_iff.2 ⟨3, rfl⟩
    have breaks : RowBreaks listing.env [item, comma, item] _ _ _ _ _ _ :=
      .later (first '!') one (.here second)
    exact ⟨_, (((inOrder _).1 _ _ _ built).2.2 _ _ _).2 ⟨_, breaks⟩⟩
  · exact fun _ _ _ ended => (Parser.eval_library library.env stock library.store ended).2
  · intro log values d B row log' r D ended
    have held := row.library library.env (by simp [stock, stock']) library.store
    exact (Parser.eval_library library.env stock held ended).2

/-- The only parser of a sequence matches, and the sequence raises. -/
theorem sequence_unwritten :
    start.Parses (.atom .bulky) (.start #['a'])
        (⟨[], .ok (.success .long ⟨#['a'], 1⟩)⟩, start.store) ∧
      start.Parses (.sequence [.atom .bulky]) (.start #['a'])
        (⟨[], .error .tooLongToWrite⟩, start.store) := by
  have parsed : start.Parses (.atom .bulky) (.start #['a'])
      (⟨[], .ok (.success .long ⟨#['a'], 1⟩)⟩, start.store) :=
    (parses_iff_of_pure (Rule.eval_bulky _)).2 rfl
  have built : (Rule.atom .bulky).build start.env start.store = (.ok (.atom .bulky), start.store) := rfl
  have whole : [Rule.atom .bulky].mapM (Rule.build start.env) start.store =
      (.ok [.atom .bulky], start.store) := rfl
  have ended := parses_iff.1 parsed
  rw [Rule.eval_of_built built] at ended
  exact ⟨parsed, (parses_sequence_error_iff whole).2
    ⟨_, .here_unwritten ended Value.not_writable_long⟩⟩

end Session

end Rewind
