namespace Rewind.Text

/-- The range that holds the code point. A range names its first and its last member. -/
def rangeOf? : List (Nat × Nat) → Nat → Option (Nat × Nat)
  | [], _ => none
  | r :: rest, code =>
    if code ≤ r.2 then if r.1 ≤ code then some r else none else rangeOf? rest code

def covers (ranges : List (Nat × Nat)) (code : Nat) : Bool := (rangeOf? ranges code).isSome

theorem mem_of_rangeOf? {ranges : List (Nat × Nat)} {code : Nat} {r : Nat × Nat}
    (h : rangeOf? ranges code = some r) : r ∈ ranges ∧ r.1 ≤ code ∧ code ≤ r.2 := by
  induction ranges with
  | nil => simp [rangeOf?] at h
  | cons s rest ih =>
    unfold rangeOf? at h
    split at h
    · split at h
      · cases h
        exact ⟨List.mem_cons_self, by assumption, by assumption⟩
      · cases h
    · have := ih h
      exact ⟨List.mem_cons_of_mem _ this.1, this.2⟩

end Rewind.Text
