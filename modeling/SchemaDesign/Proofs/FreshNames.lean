import Mathlib.Data.Nat.Digits.Lemmas
import Mathlib.Data.Finset.Card
import SchemaDesign.Proofs.Edit.NameScopes

/-!
# Fresh names

`uniqueName base max taken` tries the base cut to `max` characters, then the candidates
`suffixed base max k` for `k = 2, 3, …`: the base cut shorter, followed by `_k`. It searches only
the first `taken.length + 1` candidates, and that is always enough:

- candidates with different counters differ, since each ends in `_` followed by the counter's
  digits, and digits hold no underscore (`suffixed_injective`, with `uniqueName_not_mem`, in the
  module on name scopes);
- so among the candidates with counters `2, …, n + 2`, where `n` is the number of distinct taken
  names, one is free (`exists_free_suffixed`).

Main statement `uniqueName_first_free`: the name is not taken; it is the cut base when that is
free, and otherwise the first free candidate, whose counter is at most `n + 2`; and it keeps
within `max` characters whenever `max` leaves room for `_` and the digits of `n + 2`.
-/

namespace SchemaDesign

/-! ## Lengths -/

theorem length_truncate (s : String) (n : Nat) : (truncate s n).length = min n s.length := by
  simp [truncate, String.length_ofList, String.length_toList]

theorem length_truncate_le (s : String) (n : Nat) : (truncate s n).length ≤ n := by
  rw [length_truncate]
  exact Nat.min_le_left _ _

/-- A candidate is the base cut to leave room for the suffix, `_`, and the counter's digits. -/
theorem toList_suffixed (base : String) (max k : Nat) :
    (suffixed base max k).toList =
      base.toList.take (max - (1 + (toString k).length)) ++ '_' :: Nat.toDigits 10 k := by
  simp [suffixed, truncate, String.length_append, show "_".length = 1 from rfl]

/-- `toString` prints a number's digits. -/
theorem length_toString (n : Nat) : (toString n).length = (Nat.toDigits 10 n).length := by
  rw [← String.length_toList, Nat.toString_eq_repr, Nat.toList_repr]

theorem length_suffixed_le {base : String} {max k : Nat} (h : 1 + (toString k).length ≤ max) :
    (suffixed base max k).length ≤ max := by
  rw [← String.length_toList, toList_suffixed]
  simp only [List.length_append, List.length_take, List.length_cons, String.length_toList]
  rw [length_toString] at h ⊢
  omega

/-- The number of characters `toString` prints for a positive number is its number of decimal
digits. -/
theorem length_toString_eq_digits {n : Nat} (hn : 0 < n) :
    (toString n).length = (Nat.digits 10 n).length := by
  have hpos : 0 < (Nat.digits 10 n).length := by
    rw [List.length_pos_iff]
    exact Nat.digits_ne_nil_iff_ne_zero.2 (Nat.pos_iff_ne_zero.1 hn)
  have hprinted : 0 < (Nat.toDigits 10 n).length := Nat.length_toDigits_pos
  rw [length_toString]
  apply le_antisymm
  · exact (Nat.length_toDigits_le_iff (by decide) hpos).2
      ((Nat.digits_length_le_iff (by decide) n).1 le_rfl)
  · exact (Nat.digits_length_le_iff (by decide) n).2
      ((Nat.length_toDigits_le_iff (by decide) hprinted).1 le_rfl)

/-! ## One of the first candidates is free -/

/-- Pigeonhole: the `n + 1` candidates with counters `2, …, n + 2` are distinct, and at most `n`
distinct names are taken, so one of them is free. -/
theorem exists_free_suffixed (base : String) (max : Nat) (taken : List String) :
    ∃ i < taken.toFinset.card + 1, suffixed base max (i + 2) ∉ taken := by
  by_contra hall
  push Not at hall
  have hcard : (Finset.range (taken.toFinset.card + 1)).card ≤ taken.toFinset.card :=
    Finset.card_le_card_of_injOn (fun i => suffixed base max (i + 2))
      (fun i hi => List.mem_toFinset.2 (hall i (Finset.mem_range.1 hi)))
      (fun i _ j _ hij => by
        have := suffixed_injective base max hij
        omega)
  simp at hcard

/-! ## The search -/

section Search

variable (base : String) (max : Nat) (taken : List String)

theorem uniqueName_of_free (h : truncate base max ∉ taken) :
    uniqueName base max taken = truncate base max := by
  simp [uniqueName, h]

/-- With the cut base taken, the name is the first free candidate, and its counter is at most
`n + 2` for `n` distinct taken names. -/
theorem uniqueName_of_taken (h : truncate base max ∈ taken) :
    ∃ k, 2 ≤ k ∧ k ≤ taken.toFinset.card + 2 ∧ suffixed base max k ∉ taken ∧
      (∀ j, 2 ≤ j → j < k → suffixed base max j ∈ taken) ∧
      uniqueName base max taken = suffixed base max k := by
  obtain ⟨i₀, hi₀, hfree₀⟩ := exists_free_suffixed base max taken
  have hcard : taken.toFinset.card ≤ taken.length := List.toFinset_card_le taken
  -- the search runs over the counters `2, …, taken.length + 2`, and meets the free `i₀ + 2`
  have hfound : ∃ i, List.find? (fun i => decide (suffixed base max (i + 2) ∉ taken))
      (List.range (taken.length + 1)) = some i := by
    cases hfind : List.find? (fun i => decide (suffixed base max (i + 2) ∉ taken))
        (List.range (taken.length + 1)) with
    | some i => exact ⟨i, rfl⟩
    | none =>
      have := List.find?_range_eq_none.1 hfind i₀ (by omega)
      simp [hfree₀] at this
  obtain ⟨i, hi⟩ := hfound
  obtain ⟨hfree, -, hbefore⟩ := List.find?_range_eq_some.1 hi
  have hfree : suffixed base max (i + 2) ∉ taken := by simpa using hfree
  have hle : i ≤ i₀ := by
    by_contra hlt
    have := hbefore i₀ (by omega)
    simp [hfree₀] at this
  refine ⟨i + 2, by omega, by omega, hfree, fun j hj hji => ?_, ?_⟩
  · have := hbefore (j - 2) (by omega)
    rw [show j - 2 + 2 = j by omega] at this
    simpa using this
  · simp only [uniqueName, h, not_true_eq_false, if_false, List.find?_map]
    rw [show ((fun x => decide (x ∉ taken)) ∘ fun i => suffixed base max (i + 2)) =
      fun i => decide (suffixed base max (i + 2) ∉ taken) from rfl, hi]
    rfl

/-- The name keeps within `max` characters when `max` leaves room for `_` and the digits of the
largest counter the search may reach. -/
theorem length_uniqueName_le (h : 1 + (Nat.digits 10 (taken.toFinset.card + 2)).length ≤ max) :
    (uniqueName base max taken).length ≤ max := by
  by_cases hfirst : truncate base max ∈ taken
  · obtain ⟨k, hk, hkle, -, -, hname⟩ := uniqueName_of_taken base max taken hfirst
    rw [hname]
    apply length_suffixed_le
    have hmono := Nat.le_length_digits_le 10 k _ hkle
    rw [length_toString_eq_digits (by omega : 0 < k)]
    omega
  · rw [uniqueName_of_free base max taken hfirst]
    exact length_truncate_le base max

end Search

/-- `uniqueName` gives the first free candidate: the base cut to `max` characters, else
`suffixed base max k` for the least `k ≥ 2`, at most `n + 2` for `n` taken names, within `max`
characters when there is room for the counter. -/
theorem uniqueName_first_free (base : String) (max : Nat) (taken : List String) :
    uniqueName base max taken ∉ taken ∧
    (truncate base max ∉ taken → uniqueName base max taken = truncate base max) ∧
    (truncate base max ∈ taken → ∃ k, 2 ≤ k ∧ k ≤ taken.toFinset.card + 2 ∧
      (∀ j, 2 ≤ j → j < k → suffixed base max j ∈ taken) ∧
      uniqueName base max taken = suffixed base max k) ∧
    (1 + (Nat.digits 10 (taken.toFinset.card + 2)).length ≤ max →
      (uniqueName base max taken).length ≤ max) := by
  refine ⟨uniqueName_not_mem base max taken, uniqueName_of_free base max taken,
    fun h => ?_, length_uniqueName_le base max taken⟩
  obtain ⟨k, hk, hkle, -, hbefore, hname⟩ := uniqueName_of_taken base max taken h
  exact ⟨k, hk, hkle, hbefore, hname⟩

end SchemaDesign
