namespace Rewind

theorem nodup_eraseDups (ks : List String) : ks.eraseDups.Nodup := by
  induction h : ks.length using Nat.strongRecOn generalizing ks with
  | ind n ih =>
    rcases ks with _ | ⟨k, ks⟩
    · exact .nil
    · have shorter := List.length_filter_le (fun b => !b == k) ks
      rw [List.length_cons] at h
      rw [List.eraseDups_cons]
      refine List.nodup_cons.2 ⟨?_, ih _ (by omega) _ rfl⟩
      rw [List.mem_eraseDups]
      simp

theorem ascending_mergeSort (ks : List String) :
    (ks.mergeSort fun s t => decide (s ≤ t)).Pairwise (· ≤ ·) := by
  have sorted : (ks.mergeSort fun s t => decide (s ≤ t)).Pairwise fun s t => decide (s ≤ t) = true := by
    refine List.pairwise_mergeSort (fun a b c before after => ?_) (fun a b => ?_) ks
    · exact decide_eq_true (String.le_trans (of_decide_eq_true before) (of_decide_eq_true after))
    · rw [Bool.or_eq_true, decide_eq_true_eq, decide_eq_true_eq]
      exact String.le_total a b
  exact sorted.imp fun before => of_decide_eq_true before

/-- Neither the order nor the repetitions of a list show when its members are sorted. -/
theorem mergeSort_eraseDups_congr {ks ls : List String} (same : ∀ k, k ∈ ks ↔ k ∈ ls) :
    (ks.eraseDups.mergeSort fun s t => decide (s ≤ t)) =
      ls.eraseDups.mergeSort fun s t => decide (s ≤ t) := by
  have distinct : ks.eraseDups.Perm ls.eraseDups := by
    refine (List.perm_ext_iff_of_nodup (nodup_eraseDups ks) (nodup_eraseDups ls)).2 fun k => ?_
    rw [List.mem_eraseDups, List.mem_eraseDups]
    exact same k
  refine List.Perm.eq_of_pairwise (fun _ _ _ _ => String.le_antisymm) (ascending_mergeSort _)
    (ascending_mergeSort _) ?_
  exact (List.mergeSort_perm _ _).trans (distinct.trans (List.mergeSort_perm _ _).symm)

end Rewind
