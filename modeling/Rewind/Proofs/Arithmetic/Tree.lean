import Rewind.Proofs.Layout
import Rewind.Proofs.Numerals
import Rewind.Parser.Combinators

namespace Rewind

/-- What is computed after something else has an outcome only if that has one. -/
theorem bind_eq_ok {ε α β : Type} {x : Except ε α} {f : α → Except ε β} {b : β} :
    x >>= f = .ok b ↔ ∃ a, x = .ok a ∧ f a = .ok b := by
  rcases x with fault | a
  · refine ⟨fun h => ?_, fun ⟨_, h, _⟩ => ?_⟩
    · cases h
    · cases h
  · refine ⟨fun h => ⟨a, rfl, h⟩, fun ⟨_, same, h⟩ => ?_⟩
    cases same
    exact h

namespace Value

/-- A double, or an integer of at most so many digits. -/
def Fits (digits : Nat) : Value → Prop
  | .int n => n.natAbs < Nat.pow 10 digits
  | .float _ => True
  | _ => False

variable {a b k : Nat} {x y z : Value}

theorem Fits.writable (h : x.Fits k) (short : k ≤ Text.digitLimit) : x.writable = true := by
  cases x with
  | int n => exact writable_int_of_lt h short
  | float => rfl
  | _ => exact h.elim

theorem Fits.negated (h : x.Fits k) : x.negated.Fits k := by
  cases x with
  | int n =>
    show (-n).natAbs < _
    rw [Int.natAbs_neg]
    exact h
  | float => trivial
  | _ => exact h.elim

theorem writable_negated (h : x.writable = true) : x.negated.writable = true := by
  cases x with
  | int n =>
    rw [negated, writable_int, Int.natAbs_neg, ← writable_int]
    exact h
  | float => rfl
  | _ => exact h

theorem Fits.arithmetic {onInts : Int → Int → Value} {onDoubles : Float → Float → Float}
    (hx : x.Fits a) (hy : y.Fits b)
    (ints : ∀ m n : Int, x = .int m → y = .int n → (onInts m n).Fits k)
    (h : Value.arithmetic onInts onDoubles x y = .ok z) : z.Fits k := by
  have double (operands : Except Fault (Float × Float))
      (h : (operands.map fun pair => Value.float (onDoubles pair.1 pair.2)) = .ok z) : z.Fits k := by
    rcases operands with fault | pair
    · cases h
    · cases h
      trivial
  cases x with
  | int m =>
    cases y with
    | int n =>
      cases h
      exact ints m n rfl rfl
    | float => exact double _ h
    | _ => exact hy.elim
  | float u =>
    cases y with
    | int => exact double _ h
    | float w => exact double (.ok (u, w)) h
    | _ => exact hy.elim
  | _ => exact hx.elim

/-- A sum has no more digits than its operands together, of which each has one at least. -/
theorem add_lt_pow {m n : Nat} (ha : 0 < a) (hb : 0 < b) (hm : m < Nat.pow 10 a)
    (hn : n < Nat.pow 10 b) : m + n < Nat.pow 10 (a + b) := by
  have two : ∀ k, 0 < k → 2 ≤ Nat.pow 10 k := fun k hk =>
    Nat.le_trans (by decide : 2 ≤ Nat.pow 10 1) (Nat.pow_le_pow_right (by decide) hk)
  calc m + n < Nat.pow 10 a + Nat.pow 10 b := Nat.add_lt_add hm hn
    _ ≤ Nat.pow 10 a * Nat.pow 10 b := Nat.add_le_mul (two a ha) (two b hb)
    _ = Nat.pow 10 (a + b) := (Nat.pow_add 10 a b).symm

/-- A quotient is a double. -/
theorem Fits.quotient (hx : x.Fits a) (hy : y.Fits b) (h : Value.quotient x y = .ok z) :
    z.Fits k := by
  unfold Value.quotient at h
  split at h
  · cases h
  · split at h
    · unfold intQuotient at h
      split at h
      · cases h
        trivial
      · cases h
    · next _ other =>
      exact hx.arithmetic hy (fun m n hm hn => absurd hn (other m n hm)) h

end Value

/-- An operation of arithmetic on numbers. -/
theorem Operator.apply_fits {o : Operator} (number : o ≠ .pair) {a b : Nat} {x y z : Value}
    (ha : 0 < a) (hb : 0 < b) (hx : x.Fits a) (hy : y.Fits b) (h : o.apply x y = .ok z) :
    z.Fits (a + b) := by
  cases o with
  | add =>
    refine hx.arithmetic hy (fun m n hm hn => ?_) h
    subst hm hn
    exact Nat.lt_of_le_of_lt (Int.natAbs_add_le m n) (Value.add_lt_pow ha hb hx hy)
  | sub =>
    refine hx.arithmetic hy (fun m n hm hn => ?_) h
    subst hm hn
    exact Nat.lt_of_le_of_lt (Int.natAbs_sub_le m n) (Value.add_lt_pow ha hb hx hy)
  | mul =>
    refine hx.arithmetic hy (fun m n hm hn => ?_) h
    subst hm hn
    show (m * n).natAbs < _
    rw [Int.natAbs_mul]
    exact Nat.lt_of_lt_of_eq (Nat.mul_lt_mul'' hx hy) (Nat.pow_add 10 a b).symm
  | div => exact hx.quotient hy h
  | pair => exact absurd rfl number

end Rewind

namespace Rewind.Grammar.Arithmetic

/-- The two layers of operators. -/
inductive Layer where
  | product
  | sum

namespace Layer

def sign : Layer → Bool → Char
  | product, false => '*'
  | product, true => '/'
  | sum, false => '+'
  | sum, true => '-'

def operator : Layer → Bool → Operator
  | product, false => .mul
  | product, true => .div
  | sum, false => .add
  | sum, true => .sub

end Layer

/-- The levels of the grammar: a sum is a chain over chains of products. -/
inductive Level where
  | factor
  | signed
  | chain (layer : Layer)

/-- What stands between the operators of a layer. -/
def Layer.operand : Layer → Level
  | product => .signed
  | sum => .chain .product

mutual

inductive Tree : Level → Type where
  | number (n : Text.Numeral) : Tree .factor
  | parens (body : Tree (.chain .sum)) : Tree .factor
  | bare (f : Tree .factor) : Tree .signed
  | minus (f : Tree .factor) : Tree .signed
  | chain {layer : Layer} (first : Tree layer.operand) (rounds : Rounds layer) :
    Tree (.chain layer)

/-- Operators of a layer, each with its right operand. The inverse operators are `/` and `-`. -/
inductive Rounds : Layer → Type where
  | nil {layer : Layer} : Rounds layer
  | cons {layer : Layer} (inverse : Bool) (operand : Tree layer.operand) (later : Rounds layer) :
    Rounds layer

end

abbrev Expression : Type := Tree (.chain .sum)

variable {level : Level} {layer : Layer}

mutual

def Tree.tokens {level : Level} : Tree level → List (List Char)
  | .number n => [n.chars]
  | .parens body => ['('] :: (body.tokens ++ [[')']])
  | .bare f => f.tokens
  | .minus f => ['-'] :: f.tokens
  | .chain first rounds => first.tokens ++ rounds.tokens

def Rounds.tokens {layer : Layer} : Rounds layer → List (List Char)
  | .nil => []
  | .cons inverse operand later => [layer.sign inverse] :: (operand.tokens ++ later.tokens)

end

/-- Applies operators from the left. -/
def fold (x : Value) (pairs : List (Operator × Value)) : Except Fault Value :=
  pairs.foldlM (fun acc pair => pair.1.apply acc pair.2) x

mutual

/-- What a tree comes to. The operands of a chain come from left to right before its operators. -/
def Tree.eval {level : Level} : Tree level → Except Fault Value
  | .number n => .ok (.int n.value)
  | .parens body => body.eval
  | .bare f => f.eval
  | .minus f => do
    let x ← f.eval
    return x.negated
  | .chain first rounds => do
    let x ← first.eval
    let pairs ← rounds.eval
    fold x pairs

def Rounds.eval {layer : Layer} : Rounds layer → Except Fault (List (Operator × Value))
  | .nil => .ok []
  | .cons inverse operand later => do
    let y ← operand.eval
    let pairs ← later.eval
    return (layer.operator inverse, y) :: pairs

end

mutual

/-- What the parser comes to: an integer of too many digits is not read, and neither is the result of a
chain that cannot be written. -/
def Tree.outcome {level : Level} : Tree level → Except Fault Value
  | .number n => n.read
  | .parens body => body.outcome
  | .bare f => f.outcome
  | .minus f => do
    let x ← f.outcome
    return x.negated
  | .chain first rounds => do
    let x ← first.outcome
    let pairs ← rounds.outcome
    let v ← fold x pairs
    v.asConstant.result

def Rounds.outcome {layer : Layer} : Rounds layer → Except Fault (List (Operator × Value))
  | .nil => .ok []
  | .cons inverse operand later => do
    let y ← operand.outcome
    let pairs ← later.outcome
    return (layer.operator inverse, y) :: pairs

end

mutual

/-- The number of digits in all numbers of a tree. -/
def Tree.digits {level : Level} : Tree level → Nat
  | .number n => n.chars.length
  | .parens body => body.digits
  | .bare f => f.digits
  | .minus f => f.digits
  | .chain first rounds => first.digits + rounds.digits

def Rounds.digits {layer : Layer} : Rounds layer → Nat
  | .nil => 0
  | .cons _ operand later => operand.digits + later.digits

end

/-- All numbers are short enough to be read. -/
def Tree.Short (t : Tree level) : Prop :=
  ∀ n : Text.Numeral, n.chars ∈ t.tokens → n.chars.length ≤ Text.digitLimit

def Rounds.Short (rs : Rounds layer) : Prop :=
  ∀ n : Text.Numeral, n.chars ∈ rs.tokens → n.chars.length ≤ Text.digitLimit

/-- The operators on integers. A tree without `/` has no use for the quotient. -/
def Layer.onInts : Layer → Bool → Int → Int → Int
  | product, false => (· * ·)
  | product, true => (· / ·)
  | sum, false => (· + ·)
  | sum, true => (· - ·)

mutual

/-- The integer that a tree without `/` stands for. -/
def Tree.exact {level : Level} : Tree level → Int
  | .number n => n.value
  | .parens body => body.exact
  | .bare f => f.exact
  | .minus f => -f.exact
  | .chain first rounds => rounds.exact first.exact

def Rounds.exact {layer : Layer} : Rounds layer → Int → Int
  | .nil, x => x
  | .cons inverse operand later, x => later.exact (layer.onInts inverse x operand.exact)

end

theorem apply_operator_int (inverse : Bool) (h : layer.sign inverse ≠ '/') (x y : Int) :
    (layer.operator inverse).apply (.int x) (.int y) = .ok (.int (layer.onInts inverse x y)) := by
  cases layer <;> cases inverse
  · rfl
  · exact absurd rfl h
  · rfl
  · rfl

mutual

theorem Tree.eval_exact {level : Level} :
    (t : Tree level) → ['/'] ∉ t.tokens → t.eval = .ok (.int t.exact)
  | .number n, _ => rfl
  | .parens body, h => by
    have hbody : ['/'] ∉ body.tokens := fun hm => h (by simp [Tree.tokens, hm])
    simp only [Tree.eval, Tree.exact]
    exact body.eval_exact hbody
  | .bare f, h => by
    simp only [Tree.eval, Tree.exact]
    exact f.eval_exact h
  | .minus f, h => by
    have hf : ['/'] ∉ f.tokens := fun hm => h (by simp [Tree.tokens, hm])
    simp only [Tree.eval, Tree.exact, f.eval_exact hf]
    rfl
  | .chain first rounds, h => by
    have hfirst : ['/'] ∉ first.tokens := fun hm => h (by simp [Tree.tokens, hm])
    have hrounds : ['/'] ∉ rounds.tokens := fun hm => h (by simp [Tree.tokens, hm])
    obtain ⟨pairs, heval, hfold⟩ := rounds.eval_exact hrounds
    simp only [Tree.eval, Tree.exact, first.eval_exact hfirst, heval]
    exact hfold first.exact

theorem Rounds.eval_exact {layer : Layer} :
    (rs : Rounds layer) → ['/'] ∉ rs.tokens →
      ∃ pairs, rs.eval = .ok pairs ∧ ∀ x : Int, fold (.int x) pairs = .ok (.int (rs.exact x))
  | .nil, _ => ⟨[], rfl, fun _ => rfl⟩
  | .cons inverse operand later, h => by
    have hsign : layer.sign inverse ≠ '/' := fun hs => h (by simp [Rounds.tokens, hs])
    have hoperand : ['/'] ∉ operand.tokens := fun hm => h (by simp [Rounds.tokens, hm])
    have hlater : ['/'] ∉ later.tokens := fun hm => h (by simp [Rounds.tokens, hm])
    obtain ⟨pairs, heval, hfold⟩ := later.eval_exact hlater
    refine ⟨(layer.operator inverse, .int operand.exact) :: pairs, ?_, fun x => ?_⟩
    · simp only [Rounds.eval, operand.eval_exact hoperand, heval]
      rfl
    · have step := apply_operator_int inverse hsign x operand.exact
      simp only [fold, List.foldlM_cons, step, Rounds.exact]
      exact hfold _

end

mutual

theorem Tree.digits_pos {level : Level} : (t : Tree level) → 0 < t.digits
  | .number n => List.length_pos_iff.2 n.nonempty
  | .parens body => body.digits_pos
  | .bare f => f.digits_pos
  | .minus f => f.digits_pos
  | .chain first rounds => Nat.add_pos_left first.digits_pos rounds.digits

end

theorem operator_ne_pair (layer : Layer) (inverse : Bool) : layer.operator inverse ≠ .pair := by
  cases layer <;> cases inverse <;> decide

mutual

/-- A tree comes to a number that has no more digits than the tree. -/
theorem Tree.eval_fits {level : Level} :
    (t : Tree level) → ∀ {v : Value}, t.eval = .ok v → v.Fits t.digits
  | .number n, _, h => by
    cases h
    exact n.value_lt
  | .parens body, _, h => body.eval_fits h
  | .bare f, _, h => f.eval_fits h
  | .minus f, _, h => by
    obtain ⟨x, hx, same⟩ := bind_eq_ok.1 h
    cases same
    exact (f.eval_fits hx).negated
  | .chain first rounds, _, h => by
    obtain ⟨x, hx, h⟩ := bind_eq_ok.1 h
    obtain ⟨pairs, hpairs, folded⟩ := bind_eq_ok.1 h
    exact rounds.fold_fits hpairs first.digits_pos (first.eval_fits hx) folded

theorem Rounds.fold_fits {layer : Layer} :
    (rs : Rounds layer) → ∀ {pairs : List (Operator × Value)}, rs.eval = .ok pairs →
      ∀ {a : Nat} {x v : Value}, 0 < a → x.Fits a → fold x pairs = .ok v → v.Fits (a + rs.digits)
  | .nil, _, hpairs, _, _, _, _, hx, h => by
    cases hpairs
    cases h
    exact hx
  | .cons inverse operand later, _, hpairs, a, x, v, ha, hx, h => by
    obtain ⟨y, hy, hpairs⟩ := bind_eq_ok.1 hpairs
    obtain ⟨pairs, hlater, same⟩ := bind_eq_ok.1 hpairs
    cases same
    obtain ⟨z, hz, folded⟩ := bind_eq_ok.1 h
    have applied := Operator.apply_fits (operator_ne_pair layer inverse) ha operand.digits_pos
      hx (operand.eval_fits hy) hz
    rw [Rounds.digits, ← Nat.add_assoc]
    exact later.fold_fits hlater (Nat.add_pos_left ha operand.digits) applied folded

end

mutual

/-- What the parser comes to can be written. -/
theorem Tree.outcome_writable {level : Level} :
    (t : Tree level) → ∀ {v : Value}, t.outcome = .ok v → v.writable = true
  | .number n, _, h => n.writable_of_read h
  | .parens body, _, h => body.outcome_writable h
  | .bare f, _, h => f.outcome_writable h
  | .minus f, _, h => by
    obtain ⟨x, hx, same⟩ := bind_eq_ok.1 h
    cases same
    exact Value.writable_negated (f.outcome_writable hx)
  | .chain first rounds, _, h => by
    obtain ⟨x, -, h⟩ := bind_eq_ok.1 h
    obtain ⟨pairs, -, h⟩ := bind_eq_ok.1 h
    obtain ⟨z, -, made⟩ := bind_eq_ok.1 h
    exact Value.writable_of_asConstant made

end

/-- The operands of rounds that come to an outcome can be written. -/
theorem Rounds.outcome_writable : (rs : Rounds layer) → ∀ {pairs : List (Operator × Value)},
    rs.outcome = .ok pairs → ∀ pair ∈ pairs, pair.2.writable = true
  | .nil, _, h => by
    cases h
    exact fun _ hm => nomatch hm
  | .cons inverse operand later, _, h => by
    obtain ⟨y, hy, h⟩ := bind_eq_ok.1 h
    obtain ⟨pairs, hlater, same⟩ := bind_eq_ok.1 h
    cases same
    exact List.forall_mem_cons.2 ⟨operand.outcome_writable hy, later.outcome_writable hlater⟩

/-- Whatever is computed next, with the outcome of the parts or after one of them was not written. -/
theorem bind_unwritten {α β : Type} {x y : Except Fault α} {f g : α → Except Fault β}
    (h : x = y ∨ x = .error .tooLongToWrite)
    (h' : ∀ a, f a = g a ∨ f a = .error .tooLongToWrite) :
    x >>= f = y >>= g ∨ x >>= f = .error .tooLongToWrite := by
  rcases h with rfl | rfl
  · rcases x with fault | a
    · exact .inl rfl
    · exact h' a
  · exact .inr rfl

mutual

/-- If all numbers can be read, then the tree is evaluated, or something on the way cannot be
written. -/
theorem Tree.outcome_of_short {level : Level} :
    (t : Tree level) → t.Short → t.outcome = t.eval ∨ t.outcome = .error .tooLongToWrite
  | .number n, short => .inl (Value.readInt_of_le (short n List.mem_cons_self) n.value)
  | .parens body, short => body.outcome_of_short fun n hn => short n (by simp [Tree.tokens, hn])
  | .bare f, short => f.outcome_of_short short
  | .minus f, short =>
    bind_unwritten (f.outcome_of_short fun n hn => short n (List.mem_cons_of_mem _ hn))
      fun _ => .inl rfl
  | .chain first rounds, short => by
    refine bind_unwritten (first.outcome_of_short fun n hn => short n (by simp [Tree.tokens, hn]))
      fun x => ?_
    refine bind_unwritten (rounds.outcome_of_short fun n hn => short n (by simp [Tree.tokens, hn]))
      fun pairs => ?_
    rcases fold x pairs with fault | v
    · exact .inl rfl
    · rcases v.asConstant_cases with ⟨-, same⟩ | ⟨-, same⟩
      · exact .inl (congrArg Logged.result same)
      · exact .inr (congrArg Logged.result same)

theorem Rounds.outcome_of_short {layer : Layer} :
    (rs : Rounds layer) → rs.Short → rs.outcome = rs.eval ∨ rs.outcome = .error .tooLongToWrite
  | .nil, _ => .inl rfl
  | .cons inverse operand later, short => by
    refine bind_unwritten (operand.outcome_of_short fun n hn => short n (by simp [Rounds.tokens, hn]))
      fun y => ?_
    exact bind_unwritten (later.outcome_of_short fun n hn => short n (by simp [Rounds.tokens, hn]))
      fun pairs => .inl rfl

end

mutual

/-- A tree with no more digits in all than can be written is evaluated. -/
theorem Tree.outcome_of_digits {level : Level} :
    (t : Tree level) → t.digits ≤ Text.digitLimit → t.outcome = t.eval
  | .number n, few => Value.readInt_of_le few n.value
  | .parens body, few => body.outcome_of_digits few
  | .bare f, few => f.outcome_of_digits few
  | .minus f, few => by rw [Tree.outcome, Tree.eval, f.outcome_of_digits few]
  | .chain first rounds, few => by
    have ahead : first.digits ≤ Text.digitLimit := Nat.le_trans (Nat.le_add_right _ _) few
    have behind : rounds.digits ≤ Text.digitLimit := Nat.le_trans (Nat.le_add_left _ _) few
    rw [Tree.outcome, Tree.eval, first.outcome_of_digits ahead, rounds.outcome_of_digits behind]
    rcases hx : first.eval with fault | x
    · rfl
    · rcases hpairs : rounds.eval with fault | pairs
      · rfl
      · show (do let v ← fold x pairs; v.asConstant.result) = fold x pairs
        rcases hv : fold x pairs with fault | v
        · rfl
        · have fits := rounds.fold_fits hpairs first.digits_pos (first.eval_fits hx) hv
          exact congrArg Logged.result (Value.asConstant_of_writable (fits.writable few))

theorem Rounds.outcome_of_digits {layer : Layer} :
    (rs : Rounds layer) → rs.digits ≤ Text.digitLimit → rs.outcome = rs.eval
  | .nil, _ => rfl
  | .cons inverse operand later, few => by
    have ahead : operand.digits ≤ Text.digitLimit := Nat.le_trans (Nat.le_add_right _ _) few
    have behind : later.digits ≤ Text.digitLimit := Nat.le_trans (Nat.le_add_left _ _) few
    rw [Rounds.outcome, Rounds.eval, operand.outcome_of_digits ahead, later.outcome_of_digits behind]

end

mutual

/-- If the parser comes to a value, then so does the tree. -/
theorem Tree.eval_of_outcome {level : Level} :
    (t : Tree level) → ∀ {v : Value}, t.outcome = .ok v → t.eval = .ok v
  | .number n, _, h => by
    have read : Value.readInt n.chars.length n.value = .ok _ := h
    unfold Value.readInt at read
    split at read
    · exact read
    · cases read
  | .parens body, _, h => body.eval_of_outcome h
  | .bare f, _, h => f.eval_of_outcome h
  | .minus f, _, h => by
    obtain ⟨x, hx, same⟩ := bind_eq_ok.1 h
    exact bind_eq_ok.2 ⟨x, f.eval_of_outcome hx, same⟩
  | .chain first rounds, _, h => by
    obtain ⟨x, hx, h⟩ := bind_eq_ok.1 h
    obtain ⟨pairs, hpairs, h⟩ := bind_eq_ok.1 h
    obtain ⟨v, hv, made⟩ := bind_eq_ok.1 h
    obtain ⟨rfl, -⟩ := Value.eq_of_asConstant made
    exact bind_eq_ok.2 ⟨x, first.eval_of_outcome hx,
      bind_eq_ok.2 ⟨pairs, rounds.eval_of_outcome hpairs, hv⟩⟩

theorem Rounds.eval_of_outcome {layer : Layer} : (rs : Rounds layer) →
    ∀ {pairs : List (Operator × Value)}, rs.outcome = .ok pairs → rs.eval = .ok pairs
  | .nil, _, h => h
  | .cons inverse operand later, _, h => by
    obtain ⟨y, hy, h⟩ := bind_eq_ok.1 h
    obtain ⟨pairs, hpairs, same⟩ := bind_eq_ok.1 h
    exact bind_eq_ok.2 ⟨y, operand.eval_of_outcome hy,
      bind_eq_ok.2 ⟨pairs, later.eval_of_outcome hpairs, same⟩⟩

end

theorem isDigit_sign (layer : Layer) (inverse : Bool) :
    Text.isDigit (layer.sign inverse) = false := by
  cases layer <;> cases inverse <;> decide

mutual

theorem Tree.countP_tokens {level : Level} :
    (t : Tree level) → t.tokens.flatten.countP Text.isDigit = t.digits
  | .number n => by
    rw [Tree.tokens, List.flatten_singleton, List.countP_eq_length.2 n.digits]
    rfl
  | .parens body => by
    have opened : Text.isDigit '(' = false := by decide
    have closed : Text.isDigit ')' = false := by decide
    simp [Tree.tokens, Tree.digits, opened, closed, body.countP_tokens]
  | .bare f => f.countP_tokens
  | .minus f => by
    have minus : Text.isDigit '-' = false := by decide
    simp [Tree.tokens, Tree.digits, minus, f.countP_tokens]
  | .chain first rounds => by
    simp [Tree.tokens, Tree.digits, first.countP_tokens, rounds.countP_tokens]

theorem Rounds.countP_tokens {layer : Layer} :
    (rs : Rounds layer) → rs.tokens.flatten.countP Text.isDigit = rs.digits
  | .nil => rfl
  | .cons inverse operand later => by
    simp [Rounds.tokens, Rounds.digits, isDigit_sign, operand.countP_tokens, later.countP_tokens]

end

theorem Tree.digits_le (t : Tree level) {text : List Char} (layout : Text.Written t.tokens text) :
    t.digits ≤ text.countP Text.isDigit := by
  rw [← t.countP_tokens]
  exact layout.sublist.countP_le

/-- Without a quotient the integer of a tree has no more digits than the tree. -/
theorem Tree.exact_fits (t : Tree level) (h : ['/'] ∉ t.tokens) : (Value.int t.exact).Fits t.digits :=
  t.eval_fits (t.eval_exact h)

end Rewind.Grammar.Arithmetic
