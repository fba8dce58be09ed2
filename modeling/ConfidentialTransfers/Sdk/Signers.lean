-- SUMMARY: Which signers a call of signing together asks, through which interface, and for which transactions.
import ConfidentialTransfers.Sdk.Signing

/-!
# Whom signing together asks

Every address is asked through one interface. A wallet that can only modify is
always asked to modify; of the signers that can do both, at most one is.
-/

open Solana

namespace Sdk

section Signers

variable {signersByTx : List (List TransactionSigner)}

/-- Keeping the first signer of each address. -/
theorem foldl_unique (signers unique : List TransactionSigner)
    (hunique : (unique.map (·.address)).Nodup) :
    let result := signers.foldl (fun unique s =>
      if unique.any (·.address == s.address) then unique else unique ++ [s]) unique
    (result.map (·.address)).Nodup ∧ result ⊆ unique ++ signers ∧
      ∀ s ∈ unique ++ signers, s.address ∈ result.map (·.address) := by
  induction signers generalizing unique with
  | nil => exact ⟨hunique, by simp, by simp +contextual [List.mem_map_of_mem]⟩
  | cons s signers ih =>
    by_cases hknown : unique.any (·.address == s.address) = true
    · simp only [List.foldl_cons, hknown, if_true]
      obtain ⟨hnodup, hsub, hall⟩ := ih unique hunique
      refine ⟨hnodup, fun t ht => ?_, fun t ht => ?_⟩
      · have := hsub ht
        simp only [List.mem_append, List.mem_cons] at this ⊢
        tauto
      · rcases List.mem_append.mp ht with ht | ht
        · exact hall t (by simp [ht])
        · rcases List.mem_cons.mp ht with rfl | ht
          · obtain ⟨u, hu, haddress⟩ := List.any_eq_true.mp hknown
            rw [← beq_iff_eq.mp haddress]
            exact hall u (by simp [hu])
          · exact hall t (by simp [ht])
    · simp only [List.foldl_cons, hknown]
      have hnew : ((unique ++ [s]).map (·.address)).Nodup := by
        rw [List.map_append, List.nodup_append]
        refine ⟨hunique, by simp, fun a ha b hb hab => hknown (List.any_eq_true.mpr ?_)⟩
        obtain ⟨u, hu, rfl⟩ := List.mem_map.mp ha
        obtain rfl : b = s.address := by simpa using hb
        exact ⟨u, hu, by simpa using hab⟩
      obtain ⟨hnodup, hsub, hall⟩ := ih (unique ++ [s]) hnew
      exact ⟨hnodup, by simpa using hsub, by simpa using hall⟩

theorem nodup_uniqueSigners : ((uniqueSigners signersByTx).map (·.address)).Nodup :=
  (foldl_unique signersByTx.flatten [] (by simp)).1

theorem uniqueSigners_subset : uniqueSigners signersByTx ⊆ signersByTx.flatten :=
  (foldl_unique signersByTx.flatten [] (by simp)).2.1

theorem address_mem_uniqueSigners {s : TransactionSigner} (hs : s ∈ signersByTx.flatten) :
    s.address ∈ (uniqueSigners signersByTx).map (·.address) :=
  (foldl_unique signersByTx.flatten [] (by simp)).2.2 s hs

theorem candidates_subset : candidates signersByTx ⊆ signersByTx.flatten :=
  fun _ hs => uniqueSigners_subset (List.mem_filter.mp hs).1

theorem modifyingSigners_sublist : (modifyingSigners signersByTx).Sublist (candidates signersByTx) := by
  unfold modifyingSigners
  simp only
  split
  · exact List.filter_sublist.trans List.filter_sublist
  · exact (List.take_sublist _ _).trans List.filter_sublist

theorem nodup_candidates : ((candidates signersByTx).map (·.address)).Nodup :=
  nodup_uniqueSigners.sublist (List.filter_sublist.map _)

theorem nodup_partialSigners : ((partialSigners signersByTx).map (·.address)).Nodup :=
  nodup_candidates.sublist (List.filter_sublist.map _)

theorem isTransactionModifyingSigner_of_mem {s : TransactionSigner}
    (hs : s ∈ modifyingSigners signersByTx) : isTransactionModifyingSigner s = true := by
  unfold modifyingSigners at hs
  simp only at hs
  split at hs
  · exact (List.mem_filter.mp (List.mem_filter.mp hs).1).2
  · exact (List.mem_filter.mp (List.mem_of_mem_take hs)).2

theorem isTransactionPartialSigner_of_mem {s : TransactionSigner}
    (hs : s ∈ partialSigners signersByTx) : isTransactionPartialSigner s = true := by
  have hboth := (List.mem_filter.mp hs).2
  simp only [Bool.and_eq_true] at hboth
  exact hboth.1

/-- No address is asked both ways. -/
theorem nodup_asked : ((modifyingSigners signersByTx ++ partialSigners signersByTx).map
    (·.address)).Nodup := by
  rw [List.map_append, List.nodup_append]
  refine ⟨nodup_candidates.sublist (modifyingSigners_sublist.map _), nodup_partialSigners, ?_⟩
  rintro a ha b hb rfl
  obtain ⟨s, hs, rfl⟩ := List.mem_map.mp ha
  obtain ⟨t, ht, haddress⟩ := List.mem_map.mp hb
  have hnot := (List.mem_filter.mp ht).2
  simp only [Bool.and_eq_true, Bool.not_eq_true', List.any_eq_false] at hnot
  exact hnot.2 s hs (by simp [haddress])

/-- A signer that is not asked to modify can sign otherwise. -/
theorem mem_asked {s : TransactionSigner} (hs : s ∈ candidates signersByTx) :
    s.address ∈ (modifyingSigners signersByTx ++ partialSigners signersByTx).map (·.address) := by
  rw [List.map_append, List.mem_append]
  by_cases hchosen : (modifyingSigners signersByTx).any (·.address == s.address) = true
  · obtain ⟨t, ht, haddress⟩ := List.any_eq_true.mp hchosen
    exact .inl (List.mem_map.mpr ⟨t, ht, beq_iff_eq.mp haddress⟩)
  · refine .inr (List.mem_map.mpr ⟨s, List.mem_filter.mpr ⟨hs, ?_⟩, rfl⟩)
    simp only [hchosen, Bool.not_false, Bool.and_true]
    by_contra hpart
    -- then it is a modifying-only signer, and all of those are chosen
    have hmodifying : isTransactionModifyingSigner s = true := by
      have hone := (List.mem_filter.mp hs).2
      simpa [hpart] using hone
    have hmem : s ∈ ((candidates signersByTx).filter isTransactionModifyingSigner).filter
        (fun s => !isTransactionPartialSigner s) :=
      List.mem_filter.mpr ⟨List.mem_filter.mpr ⟨hs, hmodifying⟩, by simpa using hpart⟩
    refine hchosen (List.any_eq_true.mpr ⟨s, ?_, by simp⟩)
    unfold modifyingSigners
    simp only
    rw [if_pos (List.length_pos_of_mem hmem)]
    exact hmem

/-- A signer needs to sign exactly the transactions with a signer of its address. -/
theorem mem_needs {s : TransactionSigner} {i : Nat} :
    i ∈ needs signersByTx s ↔ ∃ signers, signersByTx[i]? = some signers ∧
      ∃ t ∈ signers, t.address = s.address := by
  unfold needs
  simp only [List.mem_filter, List.mem_range, List.any_eq_true, beq_iff_eq]
  constructor
  · rintro ⟨hi, hany⟩
    exact ⟨_, List.getElem?_eq_getElem hi, by simpa [List.getElem?_eq_getElem hi] using hany⟩
  · rintro ⟨signers, hsigners, hany⟩
    exact ⟨(List.getElem?_eq_some_iff.mp hsigners).1, by simpa [hsigners] using hany⟩

theorem nodup_needs (s : TransactionSigner) : (needs signersByTx s).Nodup :=
  List.nodup_range.filter _

theorem lt_of_mem_needs {s : TransactionSigner} {i : Nat} (hi : i ∈ needs signersByTx s) :
    i < signersByTx.length :=
  List.mem_range.mp (List.mem_filter.mp hi).1

theorem modifyingSigners_subset : modifyingSigners signersByTx ⊆ signersByTx.flatten :=
  fun _ hs => candidates_subset (modifyingSigners_sublist.subset hs)

theorem partialSigners_subset : partialSigners signersByTx ⊆ signersByTx.flatten :=
  fun _ hs => candidates_subset (List.mem_filter.mp hs).1

theorem needs_ne_nil {s : TransactionSigner} (hs : s ∈ signersByTx.flatten) :
    (needs signersByTx s).length ≠ 0 := by
  obtain ⟨signers, hsigners, hmem⟩ := List.mem_flatten.mp hs
  obtain ⟨i, hi⟩ := List.getElem?_of_mem hsigners
  exact (List.length_pos_of_mem (mem_needs.mpr ⟨signers, hi, s, hmem, rfl⟩)).ne'

end Signers

end Sdk
