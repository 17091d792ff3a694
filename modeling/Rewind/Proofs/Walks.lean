import Mathlib.Algebra.Ring.Int.Defs
import Rewind.Cursor.Steps

namespace Rewind.Cursor

/-- The cursor after moves, each from where the one before left it. -/
def walk (c : Cursor) (moves : List Int) : Cursor :=
  moves.foldl (fun d n => d.after (.advance n)) c

/-- Those of the moves from a position that do not lead before the start. -/
def made (position : Int) : List Int → List Int
  | [] => []
  | n :: moves =>
    if position + n < 0 then made position moves else n :: made (position + n) moves

variable {c : Cursor} {n : Int}

theorem take_advance_of_neg (before : c.position + n < 0) :
    c.take (.advance n) =
      .error (.showing (.int (c.position + n)) (.negativePosition (c.position + n))) := by
  have refused : c.advance n = _ := if_pos before
  rw [take, refused]
  rfl

theorem take_advance_of_nonneg (inside : 0 ≤ c.position + n) :
    c.take (.advance n) = .ok (.none, ⟨c.text, (c.position + n).toNat⟩) := by
  have moved : c.advance n = .ok ⟨c.text, (c.position + n).toNat⟩ :=
    at?_eq_ok_iff.2 ⟨inside, rfl⟩
  rw [take, moved]
  rfl

theorem after_advance_of_neg (before : c.position + n < 0) : c.after (.advance n) = c := by
  rw [after, take_advance_of_neg before]

theorem after_advance_of_nonneg (inside : 0 ≤ c.position + n) :
    c.after (.advance n) = ⟨c.text, (c.position + n).toNat⟩ := by
  rw [after, take_advance_of_nonneg inside]

/-- A move is refused just where it would lead before the start. -/
theorem advance_refused_iff :
    (∃ fault, c.take (.advance n) = .error fault ∧ fault.kind = .value) ↔ c.position + n < 0 := by
  constructor
  · rintro ⟨fault, refused, -⟩
    rcases Int.lt_or_le (c.position + n) 0 with before | inside
    · exact before
    · rw [take_advance_of_nonneg inside] at refused
      cases refused
  · intro before
    refine ⟨_, take_advance_of_neg before, ?_⟩
    unfold Fault.showing
    split
    · rfl
    · rfl

theorem walk_cons (c : Cursor) (n : Int) (moves : List Int) :
    c.walk (n :: moves) = (c.after (.advance n)).walk moves := rfl

theorem text_walk (c : Cursor) (moves : List Int) : (c.walk moves).text = c.text := by
  induction moves generalizing c with
  | nil => rfl
  | cons n moves ih =>
    rw [walk_cons, ih]
    by_cases before : c.position + n < 0
    · rw [after_advance_of_neg before]
    · rw [after_advance_of_nonneg (Int.not_lt.1 before)]

/-- Only the moves that are made count. -/
theorem position_walk (c : Cursor) (moves : List Int) :
    ((c.walk moves).position : Int) = c.position + (made c.position moves).sum := by
  induction moves generalizing c with
  | nil => simp [walk, made]
  | cons n moves ih =>
    rw [walk_cons, ih, made]
    by_cases before : c.position + n < 0
    · rw [after_advance_of_neg before, if_pos before]
    · have inside := Int.not_lt.1 before
      rw [after_advance_of_nonneg inside, if_neg before, Int.toNat_of_nonneg inside, List.sum_cons,
        Int.add_assoc]

theorem remaining_eq_extract (c : Cursor) :
    c.remaining = String.ofList (c.text.extract c.position).toList := by
  rw [remaining, rest, Array.toList_extract, List.extract_eq_take_drop]
  congr 1
  exact (List.take_of_length_le (by simp)).symm

theorem take_current (c : Cursor) : c.take .current =
    match c.remaining.toList.head? with
    | some x => .ok (.ofChar x, c)
    | none => .error (.showing (.int c.position) (.endOfInput c.position)) := by
  rw [remaining, String.toList_ofList, ← char?_eq_head?, take, current]
  rcases c.char? with _ | x
  · rfl
  · rfl

theorem current_refused_iff (shown : (Value.int c.position).writable = true) :
    (∃ fault, c.take .current = .error fault ∧ fault.kind = .endOfInput) ↔ c.atEnd = true := by
  rw [atEnd_iff_rest_eq_nil, take_current, remaining, String.toList_ofList]
  rcases c.rest with _ | ⟨x, xs⟩
  · simp [Fault.showing, shown, Fault.kind]
  · simp

/-- The message of the refusal shows the position, so it is not made if there are too many digits. -/
theorem take_current_of_not_writable (hidden : ¬(Value.int c.position).writable = true)
    (ended : c.atEnd = true) : c.take .current = .error .tooLongToWrite := by
  rw [take_current, (remaining_eq_empty_iff c).2 ended]
  simp [Fault.showing, hidden]

/-- From any cursor, after any moves in order: the text is the same one, and the position is the one at the
beginning with all moves added that were made, which is never negative. From there one more move is refused
just where it would lead before the start, and then the cursor stays; otherwise it is made, by as many
characters as it says, and the text is kept. What remains is the text from the position on, and nothing at the
end of it or beyond. The cursor is at the end just where nothing remains. The current character is the first
one of what remains, and is refused just at the end: for that reason if the position can be written, and else
because it cannot. -/
theorem walk_exact (c : Cursor) (moves : List Int) :
    ∃ d, d = c.walk moves ∧ d.text = c.text ∧
      (d.position : Int) = c.position + (made c.position moves).sum ∧
      0 ≤ c.position + (made c.position moves).sum ∧
      (∀ n : Int,
        ((∃ fault, d.take (.advance n) = .error fault ∧ fault.kind = .value) ↔ d.position + n < 0) ∧
        (d.position + n < 0 → d.after (.advance n) = d) ∧
        (0 ≤ d.position + n → ∃ e, d.take (.advance n) = .ok (.none, e) ∧ d.after (.advance n) = e ∧
          e.text = d.text ∧ (e.position : Int) = d.position + n)) ∧
      ∃ left ended, d.take .remaining = .ok (.str left, d) ∧ d.take .atEnd = .ok (.bool ended, d) ∧
        left.toList = (d.text.extract d.position).toList ∧ (d.text.size ≤ d.position → left = "") ∧
        (ended = true ↔ left = "") ∧
        ((Value.int d.position).writable = true →
          ((∃ fault, d.take .current = .error fault ∧ fault.kind = .endOfInput) ↔ ended = true)) ∧
        (¬(Value.int d.position).writable = true → ended = true →
          d.take .current = .error .tooLongToWrite) ∧
        ∀ x, left.toList.head? = some x → d.take .current = .ok (.ofChar x, d) := by
  have position := position_walk c moves
  refine ⟨_, rfl, text_walk c moves, position, position ▸ Int.natCast_nonneg _, fun n => ?_, ?_⟩
  · refine ⟨advance_refused_iff, after_advance_of_neg, fun inside => ?_⟩
    exact ⟨_, take_advance_of_nonneg inside, after_advance_of_nonneg inside, rfl,
      Int.toNat_of_nonneg inside⟩
  · refine ⟨_, _, rfl, rfl, ?_, fun beyond => ?_, (remaining_eq_empty_iff _).symm, current_refused_iff,
      take_current_of_not_writable, fun x first => ?_⟩
    · rw [remaining_eq_extract, String.toList_ofList]
    · exact (remaining_eq_empty_iff _).2 (decide_eq_true beyond)
    · rw [take_current, first]

/-- A move beyond the end is made, and so is the way back; a longer one in between is refused. -/
theorem walk_exact_refused : ∃ d, d = walk ⟨#['a', 'b'], 1⟩ [5, -9, -5] ∧ d.position = 1 ∧
    d.after (.advance (-2)) = d ∧ (∃ e, d.after (.advance (-1)) = e ∧ e.position = 0) ∧
    d.take .current = .ok (.ofChar 'b', d) := by
  obtain ⟨d, walked, text, position, -, moves, left, ended, -, -, rest, -, -, -, -, current⟩ :=
    walk_exact ⟨#['a', 'b'], 1⟩ [5, -9, -5]
  have added : (made 1 [5, -9, -5]).sum = 0 := by decide
  have there : d.position = 1 := by
    have position : (d.position : Int) = 1 + (made 1 [5, -9, -5]).sum := position
    rw [added] at position
    omega
  refine ⟨d, walked, there, (moves (-2)).2.1 (by omega), ?_, current 'b' (by rw [rest, text, there]; rfl)⟩
  obtain ⟨e, -, after, -, start⟩ := (moves (-1)).2.2 (by omega)
  exact ⟨e, after, by omega⟩

/-- A move that can be written, while two of them lead to where the position cannot. -/
def longMove : Int := 9 * Nat.pow 10 4299

/-- At the end, but refused for the digits of the position. -/
theorem walk_unshown : ∃ d, d = walk ⟨#['a', 'b'], 0⟩ [longMove, longMove] ∧ d.atEnd = true ∧
    d.take .current = .error .tooLongToWrite ∧ Fault.tooLongToWrite.kind ≠ .endOfInput := by
  have added : (made 0 [longMove, longMove]).sum = longMove + longMove := by decide +kernel
  have there := position_walk ⟨#['a', 'b'], 0⟩ [longMove, longMove]
  rw [Int.natCast_zero, added, Int.zero_add] at there
  have ended : (walk ⟨#['a', 'b'], 0⟩ [longMove, longMove]).atEnd = true := by
    rw [atEnd, text_walk]
    have far : 2 ≤ longMove + longMove := by decide +kernel
    exact decide_eq_true (by simp; omega)
  refine ⟨_, rfl, ended, take_current_of_not_writable ?_ ended, by decide⟩
  rw [there, Value.writable_int]
  decide +kernel

end Rewind.Cursor
