import Mathlib.Data.List.Perm.Subperm
import Mathlib.Data.List.Nodup

/-!
# The first free name

Names are tried one after another until one is not taken.  When no name is tried twice, the search ends after
at most one try more than there are names taken.
-/

namespace Kanta.Lib.Fresh

variable {α : Type*} [DecidableEq α] (name : ℕ → α) (taken : List α)

/-- The first name from the `n`-th on that is not taken, within so many tries. -/
def firstFree : ℕ → ℕ → Option α
  | 0, _ => none
  | tries + 1, n => if name n ∈ taken then firstFree tries (n + 1) else some (name n)

variable {name taken}

lemma firstFree_notMem {tries n : ℕ} {x : α} (h : firstFree name taken tries n = some x) : x ∉ taken := by
  induction tries generalizing n with
  | zero => cases h
  | succ tries ih =>
    rw [firstFree] at h
    split at h
    · exact ih h
    · next hfree =>
      obtain rfl := Option.some.inj h
      exact hfree

lemma mem_of_firstFree_none {tries n : ℕ} (h : firstFree name taken tries n = none) :
    ∀ k < tries, name (n + k) ∈ taken := by
  induction tries generalizing n with
  | zero => exact fun k hk => absurd hk (Nat.not_lt_zero k)
  | succ tries ih =>
    rw [firstFree] at h
    split at h
    · next hn =>
      rintro (_ | k) hk
      · exact hn
      · have := ih h k (by omega)
        rwa [Nat.add_right_comm] at this
    · cases h

/-- **There is a free name** among those that are tried. -/
theorem exists_firstFree (hinj : Function.Injective name) :
    ∃ x, firstFree name taken (taken.length + 1) 0 = some x ∧ x ∉ taken := by
  cases hsome : firstFree name taken (taken.length + 1) 0 with
  | some x => exact ⟨x, rfl, firstFree_notMem hsome⟩
  | none =>
    have htaken := mem_of_firstFree_none hsome
    have hsub : (List.range (taken.length + 1)).map name ⊆ taken := by
      intro x hx
      obtain ⟨k, hk, rfl⟩ := List.mem_map.mp hx
      have := htaken k (List.mem_range.mp hk)
      rwa [Nat.zero_add] at this
    have hnodup : ((List.range (taken.length + 1)).map name).Nodup := List.nodup_range.map hinj
    have hlen := (List.subperm_of_subset hnodup hsub).length_le
    rw [List.length_map, List.length_range] at hlen
    omega

end Kanta.Lib.Fresh
