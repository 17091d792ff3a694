import Mathlib.Data.Nat.Digits.Defs
import Rewind.Proofs.Layout
import Rewind.Value.Transform

namespace Rewind

namespace Text

@[ext]
structure Numeral where
  chars : List Char
  nonempty : chars ≠ []
  digits : ∀ x ∈ chars, isDigit x = true

def Numeral.digitValues (n : Numeral) : List Nat := n.chars.filterMap digitValue?

/-- The value in base ten. -/
def Numeral.value (n : Numeral) : Nat := Nat.ofDigits 10 n.digitValues.reverse

theorem positional_eq_ofDigits (ds : List Nat) : positional ds = Nat.ofDigits 10 ds.reverse := by
  rw [Nat.ofDigits_eq_foldr, List.foldr_reverse, positional]
  congr 1
  funext n d
  exact Nat.add_comm _ _

theorem covers_disjoint {ranges ranges' : List (Nat × Nat)}
    (apart : ∀ r ∈ ranges, ∀ s ∈ ranges', r.2 < s.1 ∨ s.2 < r.1) {code : Nat}
    (h : covers ranges code = true) : covers ranges' code = false := by
  obtain ⟨r, hr⟩ := Option.isSome_iff_exists.1 h
  rw [← Bool.not_eq_true]
  intro h'
  obtain ⟨s, hs⟩ := Option.isSome_iff_exists.1 h'
  have inside := mem_of_rangeOf? hr
  have inside' := mem_of_rangeOf? hs
  have := apart r inside.1 s inside'.1
  omega

theorem isBlank_of_isDigit {x : Char} (h : isDigit x = true) : isBlank x = false :=
  covers_disjoint (by decide) h

theorem Numeral.exists_head (n : Numeral) : ∃ x xs, n.chars = x :: xs ∧ isDigit x = true := by
  obtain ⟨x, xs, hx⟩ := List.exists_cons_of_ne_nil n.nonempty
  exact ⟨x, xs, hx, n.digits x (by rw [hx]; exact List.mem_cons_self)⟩

theorem Numeral.skipBlanks_append (n : Numeral) (cs : List Char) :
    skipBlanks (n.chars ++ cs) = n.chars ++ cs := by
  obtain ⟨x, xs, hx, digit⟩ := n.exists_head
  rw [hx, List.cons_append, skipBlanks_of_not (isBlank_of_isDigit digit)]

theorem Follows.refuses_isDigit {stops : Char → Prop} {cs gap : List Char} (h : Follows stops cs)
    (stop : ∀ x, stops x → isDigit x = false) (hgap : ∀ x ∈ gap, isBlank x = true) :
    Refuses isDigit (gap ++ cs) := by
  refine h.refuses stop ?_ hgap
  intro x hx
  rw [← Bool.not_eq_true]
  intro digit
  rw [isBlank_of_isDigit digit] at hx
  cases hx

theorem mapM_digitValue? {cs : List Char} (h : ∀ x ∈ cs, isDigit x = true) :
    cs.mapM digitValue? = some (cs.filterMap digitValue?) := by
  induction cs with
  | nil => rfl
  | cons x xs ih =>
    have hx := h x List.mem_cons_self
    rw [isDigit_eq_isSome] at hx
    obtain ⟨d, hd⟩ := Option.isSome_iff_exists.1 hx
    rw [List.mapM_cons, hd, ih fun y hy => h y (List.mem_cons_of_mem x hy),
      List.filterMap_cons_some hd]
    rfl

theorem Numeral.numeral? (n : Numeral) : Text.numeral? n.chars = some n.value := by
  have h := n.nonempty
  rw [Text.numeral?, mapM_digitValue? n.digits, Numeral.value, ← positional_eq_ofDigits]
  simp [h, Numeral.digitValues]

/-- Every digit has a value. -/
theorem Numeral.map_digitValue? (n : Numeral) : n.chars.map digitValue? = n.digitValues.map some := by
  rw [digitValues, List.map_filterMap_some_eq_filter_map_isSome, eq_comm, List.filter_eq_self]
  intro value hvalue
  obtain ⟨x, hx, rfl⟩ := List.mem_map.1 hvalue
  rw [← isDigit_eq_isSome]
  exact n.digits x hx

theorem Numeral.digitValues_lt (n : Numeral) : ∀ d ∈ n.digitValues, d < 10 := by
  intro d hd
  obtain ⟨x, -, hx⟩ := List.mem_filterMap.1 hd
  exact digitValue?_lt hx

theorem Numeral.length_digitValues (n : Numeral) : n.digitValues.length = n.chars.length := by
  have same := congrArg List.length n.map_digitValue?
  rw [List.length_map, List.length_map] at same
  exact same.symm

/-- A numeral has as many digits as its value needs, or more. -/
theorem Numeral.value_lt (n : Numeral) : n.value < Nat.pow 10 n.chars.length := by
  have less := Nat.ofDigits_lt_base_pow_length (b := 10) (by decide)
    fun d hd => n.digitValues_lt d (List.mem_reverse.1 hd)
  rw [List.length_reverse, n.length_digitValues] at less
  exact less

/-- What is read, unless there are too many digits. -/
def Numeral.read (n : Numeral) : Except Fault Value := Value.readInt n.chars.length n.value

/-- How a number is written in base ten. -/
def Numeral.ofNat (n : Nat) : Numeral where
  chars := Nat.toDigits 10 n
  nonempty := Nat.toDigits_ne_nil
  digits := by
    intro x hx
    have digit := Nat.isDigit_of_mem_toDigits (by decide) (by decide) hx
    obtain ⟨low, high⟩ := Char.isDigit_iff_toNat.1 digit
    exact isDigit_of_ascii low high

theorem Numeral.toList_toString (n : Nat) : (toString n).toList = (ofNat n).chars := by
  rw [Nat.toString_eq_repr, Nat.toList_repr]
  rfl

theorem foldl_digitValue? {cs : List Char} (h : ∀ x ∈ cs, x.isDigit = true) (n : Nat) :
    (cs.filterMap digitValue?).foldl (fun n d => 10 * n + d) n = Nat.ofDigitChars 10 cs n := by
  induction cs generalizing n with
  | nil => rfl
  | cons x xs ih =>
    obtain ⟨low, high⟩ := Char.isDigit_iff_toNat.1 (h x List.mem_cons_self)
    rw [List.filterMap_cons_some (digitValue?_of_ascii low high), List.foldl_cons,
      Nat.ofDigitChars_cons, ih fun y hy => h y (List.mem_cons_of_mem x hy)]
    rfl

/-- A number that is written and read again is the same. -/
theorem Numeral.value_ofNat (n : Nat) : (ofNat n).value = n := by
  have digits : ∀ x ∈ Nat.toDigits 10 n, x.isDigit = true :=
    fun x hx => Nat.isDigit_of_mem_toDigits (by decide) (by decide) hx
  calc (ofNat n).value = positional (ofNat n).digitValues := (positional_eq_ofDigits _).symm
    _ = Nat.ofDigitChars 10 (Nat.toDigits 10 n) 0 := foldl_digitValue? digits 0
    _ = n := Nat.ofDigitChars_toDigits (by decide) (by decide)

end Text

namespace Value

theorem strings?_map_ofChar (cs : List Char) :
    strings? (cs.map ofChar) = some (cs.map String.singleton) := by
  induction cs with
  | nil => rfl
  | cons x xs ih => simp [strings?, ofChar, ih]

theorem join_singleton (cs : List Char) :
    String.join (cs.map String.singleton) = String.ofList cs := by
  have h : (String.join (cs.map String.singleton)).toList = cs := by
    simp [String.toList_join, List.flatMap_map]
  rw [← String.ofList_toList (s := String.join (cs.map String.singleton)), h]

theorem joined_map_ofChar (cs : List Char) :
    joined (.list (cs.map ofChar)) = .str (String.ofList cs) := by
  rw [joined, strings?_map_ofChar, Option.map_some, join_singleton]
  rfl

theorem readInt_of_le {digits : Nat} (short : digits ≤ Text.digitLimit) (n : Int) :
    readInt digits n = .ok (.int n) :=
  if_pos short

theorem readInt_of_lt {digits : Nat} (long : Text.digitLimit < digits) (n : Int) :
    readInt digits n = .error (.tooLongToRead digits) :=
  if_neg (Nat.not_le.2 long)

/-- An integer that could be read can be written. -/
theorem writable_of_readInt {digits : Nat} {n : Int} (less : n.natAbs < Nat.pow 10 digits)
    {v : Value} (read : readInt digits n = .ok v) : v.writable = true := by
  unfold readInt at read
  split at read
  · next short =>
    cases read
    exact writable_int_of_lt less short
  · cases read

theorem toInt_numeral (n : Text.Numeral) : toInt (.list (n.chars.map ofChar)) = n.read := by
  simp only [toInt, chars?, strings?_map_ofChar, Option.map_some, join_singleton,
    String.toList_ofList, n.numeral?]
  rfl

theorem toInt_joined_numeral (n : Text.Numeral) :
    toInt (joined (.list (n.chars.map ofChar))) = n.read := by
  simp only [joined_map_ofChar, toInt, chars?, String.toList_ofList, n.numeral?]
  rfl

end Value

theorem Text.Numeral.writable_of_read (n : Numeral) {v : Value} (h : n.read = .ok v) :
    v.writable = true := by
  have less : (n.value : Int).natAbs < Nat.pow 10 n.chars.length := n.value_lt
  exact Value.writable_of_readInt less h

end Rewind
