import Rewind.Proofs.Distinct
import Rewind.Value.Equality
import Rewind.Value.Printer

namespace Rewind.Value

def lastValue (k : String) (pairs : List (String × Value)) : Value :=
  (pairs.reverse.lookup k).getD .none

/-- The keys in the order of their first places, each with its last value. -/
def dictionary (pairs : List (String × Value)) : List (Value × Value) :=
  (pairs.map Prod.fst).eraseDups.map fun k => (.str k, lastValue k pairs)

theorem writable_dictionary {pairs : List (String × Value)}
    (fits : ∀ pair ∈ pairs, pair.2.writable = true) : (Value.dict (dictionary pairs)).writable = true := by
  rw [writable, writableEntries_eq_true]
  intro e he
  obtain ⟨k, -, rfl⟩ := List.mem_map.1 he
  refine ⟨rfl, ?_⟩
  unfold lastValue
  rcases found : pairs.reverse.lookup k with _ | v
  · rfl
  · obtain ⟨before, behind, same, -⟩ := List.lookup_eq_some_iff.1 found
    exact fits (k, v) (by rw [← List.mem_reverse, same]; simp)

theorem lastValue_snoc (a k : String) (v : Value) (pairs : List (String × Value)) :
    lastValue a (pairs ++ [(k, v)]) = if a = k then v else lastValue a pairs := by
  unfold lastValue
  rw [List.reverse_append, List.reverse_singleton, List.singleton_append]
  by_cases h : a = k
  · simp [h]
  · have other : (a == k) = false := by simpa using h
    rw [List.lookup_cons, other, if_neg h]

theorem eraseDups_snoc (ks : List String) (k : String) :
    (ks ++ [k]).eraseDups = if k ∈ ks.eraseDups then ks.eraseDups else ks.eraseDups ++ [k] := by
  rw [List.eraseDups_append]
  by_cases h : k ∈ ks
  · simp [List.removeAll, h]
  · simp [List.removeAll, h, List.eraseDups_cons]

theorem same_str (a b : String) : same (.str a) (.str b) = (a == b) := rfl

/-- Setting a key changes its value in place, or adds it at the end. -/
theorem insertEntry_map {ks : List String} (distinct : ks.Nodup) (f : String → Value) (k : String)
    (v : Value) :
    insertEntry (ks.map fun a => (.str a, f a)) (.str k) v =
      (if k ∈ ks then ks else ks ++ [k]).map fun a => (.str a, if a = k then v else f a) := by
  induction ks with
  | nil => simp [insertEntry]
  | cons a ks ih =>
    obtain ⟨new, distinct⟩ := List.nodup_cons.1 distinct
    rw [List.map_cons, insertEntry, same_str]
    by_cases h : a = k
    · -- The key stands here only, so no later value changes.
      have kept : ∀ b ∈ ks, (if b = k then v else f b) = f b := by
        intro b hb
        refine if_neg ?_
        rintro rfl
        exact new (h ▸ hb)
      simp only [h, beq_self_eq_true, if_true, List.mem_cons, true_or, List.map_cons]
      refine congrArg _ (List.map_congr_left fun b hb => ?_)
      rw [kept b hb]
    · have other : (a == k) = false := by simpa using h
      have other' : ¬k = a := fun e => h e.symm
      simp only [other, Bool.false_eq_true, if_false, ih distinct, List.mem_cons, other', false_or]
      by_cases hk : k ∈ ks
      · simp [hk, h]
      · simp [hk, h]

theorem insertEntry_dictionary (pairs : List (String × Value)) (k : String) (v : Value) :
    insertEntry (dictionary pairs) (.str k) v = dictionary (pairs ++ [(k, v)]) := by
  unfold dictionary
  rw [insertEntry_map (nodup_eraseDups _), List.map_append, List.map_singleton, eraseDups_snoc]
  simp only [lastValue_snoc]

theorem ofEntries_pairs (pairs : List (String × Value)) :
    ofEntries (pairs.map fun pair => (.str pair.1, pair.2)) = .dict (dictionary pairs) := by
  have grown : ∀ seen : List (String × Value),
      (pairs.map fun pair => ((.str pair.1, pair.2) : Value × Value)).foldl
        (fun acc e => insertEntry acc e.1 e.2) (dictionary seen) = dictionary (seen ++ pairs) := by
    induction pairs with
    | nil => simp
    | cons pair pairs ih =>
      intro seen
      rw [List.map_cons, List.foldl_cons, insertEntry_dictionary, ih, List.append_assoc]
      rfl
  rw [ofEntries]
  exact congrArg Value.dict (grown [])

theorem toDict_pairs (pairs : List (String × Value)) :
    toDict (.list (pairs.map fun pair => .tuple [.str pair.1, pair.2])) =
      .dict (dictionary pairs) := by
  rw [← ofEntries_pairs, toDict, List.filterMap_map]
  -- All items are pairs, so none of them is left out.
  rw [← List.filterMap_eq_map]
  rfl

end Rewind.Value
