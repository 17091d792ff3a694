import Rewind.Proofs.Document.Dictionary
import Rewind.Proofs.Numerals

namespace Rewind.Grammar.Document

open Text

/-- A text without double quotes. -/
structure Unquoted where
  chars : List Char
  unquoted : '"' ∉ chars

def Unquoted.token (s : Unquoted) : List Char := '"' :: (s.chars ++ ['"'])

def Unquoted.text (s : Unquoted) : String := String.ofList s.chars

def signChars (negative : Bool) : List Char := if negative then ['-'] else []

/-- The point and the digits behind it, if there is a fraction. -/
def fractionChars : Option Numeral → List Char
  | none => []
  | some f => '.' :: f.chars

/-- An integer, or a decimal with digits on both sides of the point. -/
structure Number where
  negative : Bool
  whole : Numeral
  fraction : Option Numeral

def Number.token (n : Number) : List Char :=
  signChars n.negative ++ (n.whole.chars ++ fractionChars n.fraction)

def Number.integer (n : Number) : Int := if n.negative then -n.whole.value else n.whole.value

/-- The double that the digits write. -/
def Number.decimal (n : Number) (fraction : Numeral) : Float :=
  Decimal.ofPlaces n.negative n.whole.digitValues fraction.digitValues

/-- Integers are exact. -/
def Number.value (n : Number) : Value :=
  match n.fraction with
  | none => .int n.integer
  | some f => .float (n.decimal f)

/-- What is read: an integer must not have too many digits. -/
def Number.read (n : Number) : Except Fault Value :=
  match n.fraction with
  | none => Value.readInt n.whole.chars.length n.integer
  | some f => .ok (.float (n.decimal f))

/-- If it is an integer, then it is short enough to be read. -/
def Number.Short (n : Number) : Prop := n.fraction = none → n.whole.chars.length ≤ digitLimit

theorem Number.natAbs_integer (n : Number) : n.integer.natAbs = n.whole.value := by
  unfold integer
  split
  · rw [Int.natAbs_neg, Int.natAbs_natCast]
  · rw [Int.natAbs_natCast]

theorem Number.read_of_short {n : Number} (short : n.Short) : n.read = .ok n.value := by
  unfold read value
  rcases h : n.fraction with _ | f
  · exact Value.readInt_of_le (short h) n.integer
  · rfl

theorem Number.read_of_not_short {n : Number} (long : ¬n.Short) :
    n.read = .error (.tooLongToRead n.whole.chars.length) := by
  unfold Short at long
  rw [Classical.not_imp, Nat.not_le] at long
  unfold read
  rw [long.1]
  exact Value.readInt_of_lt long.2 n.integer

theorem Number.writable_of_read {n : Number} {v : Value} (h : n.read = .ok v) :
    v.writable = true := by
  unfold read at h
  split at h
  · have less : n.integer.natAbs < Nat.pow 10 n.whole.chars.length :=
      n.natAbs_integer ▸ n.whole.value_lt
    exact Value.writable_of_readInt less h
  · cases h
    rfl

theorem Number.value_of_read {n : Number} {v : Value} (h : n.read = .ok v) : v = n.value := by
  unfold read at h
  unfold value
  split at h
  · unfold Value.readInt at h
    split at h
    · cases h
      rfl
    · cases h
  · cases h
    rfl

theorem Number.long_of_read {n : Number} {fault : Fault} (h : n.read = .error fault) :
    n.fraction = none ∧ digitLimit < n.whole.chars.length ∧
      fault = .tooLongToRead n.whole.chars.length := by
  unfold read at h
  split at h
  · next integer =>
    unfold Value.readInt at h
    split at h
    · cases h
    · next long =>
      cases h
      exact ⟨integer, Nat.lt_of_not_le long, rfl⟩
  · cases h

inductive Tree where
  | null
  | bool (b : Bool)
  | text (s : Unquoted)
  | number (n : Number)
  | array (items : List Tree)
  | object (entries : List (Unquoted × Tree))

mutual

def Tree.tokens : Tree → List (List Char)
  | .null => ["null".toList]
  | .bool true => ["true".toList]
  | .bool false => ["false".toList]
  | .text s => [s.token]
  | .number n => [n.token]
  | .array items => ['['] :: (separated [','] (itemTokens items) ++ [[']']])
  | .object entries => ['\x7b'] :: (separated [','] (entryTokens entries) ++ [['\x7d']])

def itemTokens : List Tree → List (List (List Char))
  | [] => []
  | item :: items => item.tokens :: itemTokens items

def entryTokens : List (Unquoted × Tree) → List (List (List Char))
  | [] => []
  | (key, item) :: entries => (key.token :: [':'] :: item.tokens) :: entryTokens entries

end

mutual

def Tree.value : Tree → Value
  | .null => .none
  | .bool b => .bool b
  | .text s => .str s.text
  | .number n => n.value
  | .array items => .list (itemValues items)
  | .object entries => .dict (Value.dictionary (entryValues entries))

def itemValues : List Tree → List Value
  | [] => []
  | item :: items => item.value :: itemValues items

def entryValues : List (Unquoted × Tree) → List (String × Value)
  | [] => []
  | (key, item) :: entries => (key.text, item.value) :: entryValues entries

end

mutual

/-- All integers are short enough to be read. -/
def Tree.Short : Tree → Prop
  | .number n => n.Short
  | .array items => itemsShort items
  | .object entries => entriesShort entries
  | _ => True

def itemsShort : List Tree → Prop
  | [] => True
  | item :: items => item.Short ∧ itemsShort items

def entriesShort : List (Unquoted × Tree) → Prop
  | [] => True
  | (_, item) :: entries => item.Short ∧ entriesShort entries

end

/-- The tokens of documents. -/
inductive IsToken : List Char → Prop
  | symbol {s : String} (h : s ∈ ["null", "true", "false", "[", "]", "\x7b", "\x7d", ",", ":"]) :
    IsToken s.toList
  | text (s : Unquoted) : IsToken s.token
  | number (n : Number) : IsToken n.token

theorem isToken_separated {tss : List (List (List Char))}
    (h : ∀ tokens ∈ tss, ∀ t ∈ tokens, IsToken t) : ∀ t ∈ separated [','] tss, IsToken t := by
  have comma : IsToken [','] := .symbol (s := ",") (by simp)
  rcases tss with _ | ⟨first, tss⟩
  · exact fun _ ht => nomatch ht
  · intro t ht
    rcases List.mem_append.1 ht with ht | ht
    · exact h first List.mem_cons_self t ht
    · obtain ⟨tokens, later, ht⟩ := List.mem_flatMap.1 ht
      rcases List.mem_cons.1 ht with rfl | ht
      · exact comma
      · exact h tokens (List.mem_cons_of_mem _ later) t ht

theorem isToken_bracketed (opening closing : String) {tokens : List (List Char)}
    (hopen : IsToken opening.toList) (hclose : IsToken closing.toList)
    (h : ∀ t ∈ tokens, IsToken t) : ∀ t ∈ opening.toList :: (tokens ++ [closing.toList]), IsToken t := by
  intro t ht
  rcases List.mem_cons.1 ht with rfl | ht
  · exact hopen
  · rcases List.mem_append.1 ht with ht | ht
    · exact h t ht
    · exact List.mem_singleton.1 ht ▸ hclose

mutual

theorem Tree.isToken : (t : Tree) → ∀ token ∈ t.tokens, IsToken token
  | .null, _, h => List.mem_singleton.1 h ▸ .symbol (by simp)
  | .bool true, _, h => List.mem_singleton.1 h ▸ .symbol (by simp)
  | .bool false, _, h => List.mem_singleton.1 h ▸ .symbol (by simp)
  | .text s, _, h => List.mem_singleton.1 h ▸ .text s
  | .number n, _, h => List.mem_singleton.1 h ▸ .number n
  | .array items, _, h =>
    isToken_bracketed "[" "]" (.symbol (by simp)) (.symbol (by simp))
      (isToken_separated (items_isToken items)) _ h
  | .object entries, _, h =>
    isToken_bracketed "\x7b" "\x7d" (.symbol (by simp)) (.symbol (by simp))
      (isToken_separated (entries_isToken entries)) _ h

theorem items_isToken : (items : List Tree) →
    ∀ tokens ∈ itemTokens items, ∀ t ∈ tokens, IsToken t
  | [], _, h => nomatch h
  | item :: items, _, h => by
    rcases List.mem_cons.1 h with rfl | h
    · exact item.isToken
    · exact items_isToken items _ h

theorem entries_isToken : (entries : List (Unquoted × Tree)) →
    ∀ tokens ∈ entryTokens entries, ∀ t ∈ tokens, IsToken t
  | [], _, h => nomatch h
  | (key, item) :: entries, _, h => by
    rcases List.mem_cons.1 h with rfl | h
    · refine List.forall_mem_cons.2 ⟨.text key, List.forall_mem_cons.2 ⟨?_, item.isToken⟩⟩
      exact .symbol (s := ":") (by simp)
    · exact entries_isToken entries _ h

end

end Rewind.Grammar.Document
