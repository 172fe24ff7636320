import Mathlib.Data.List.Infix

/-!
# Finding a list in another

`find` returns the first place where the needle stands; the occurrences are what a search finds that starts
again behind each hit (`occurrencesFrom_of_find_some`).
-/

namespace Kanta.Lib.Search

variable {α : Type*} [DecidableEq α]

/-- The first place of `needle` in a list whose first element is at `pos`. -/
def find (needle : List α) : ℕ → List α → Option ℕ
  | pos, [] => if needle = [] then some pos else none
  | pos, c :: cs => if needle.isPrefixOf (c :: cs) then some pos else find needle (pos + 1) cs

/-- The places of `needle`, in a list whose first element is at `pos` and whose first `skip` elements belong
to the place before. -/
def occurrencesFrom (needle : List α) : ℕ → ℕ → List α → List ℕ
  | _, _, [] => []
  | skip + 1, pos, _ :: cs => occurrencesFrom needle skip (pos + 1) cs
  | 0, pos, c :: cs =>
    if needle.isPrefixOf (c :: cs) then pos :: occurrencesFrom needle (needle.length - 1) (pos + 1) cs
    else occurrencesFrom needle 0 (pos + 1) cs

/-- The places of `needle` from the left, none reaching into the next. -/
def occurrences (needle hay : List α) : List ℕ := occurrencesFrom needle 0 0 hay

variable {needle : List α}

lemma occurrencesFrom_skip (needle : List α) (skip pos : ℕ) (cs : List α) :
    occurrencesFrom needle skip pos cs = occurrencesFrom needle 0 (pos + skip) (cs.drop skip) := by
  induction cs generalizing skip pos with
  | nil =>
    rw [List.drop_nil]
    cases skip <;> rfl
  | cons c cs ih =>
    cases skip with
    | zero => rfl
    | succ skip => rw [occurrencesFrom, ih, List.drop_succ_cons, Nat.add_right_comm, Nat.add_assoc]

/-- Where nothing is found, the needle does not stand. -/
lemma occurrencesFrom_of_find_none {pos : ℕ} {cs : List α} (h : find needle pos cs = none) :
    occurrencesFrom needle 0 pos cs = [] := by
  induction cs generalizing pos with
  | nil => rfl
  | cons c cs ih =>
    rw [find] at h
    split at h
    · cases h
    · next hp => rw [occurrencesFrom, if_neg hp, ih h]

/-- The first place found is the first of the occurrences, and the search goes on behind it. -/
lemma occurrencesFrom_of_find_some (hne : needle ≠ []) {pos i : ℕ} {cs : List α}
    (h : find needle pos cs = some i) :
    pos ≤ i ∧ i + needle.length ≤ pos + cs.length ∧ needle <+: cs.drop (i - pos) ∧
      occurrencesFrom needle 0 pos cs =
        i :: occurrencesFrom needle 0 (i + needle.length) (cs.drop (i - pos + needle.length)) := by
  induction cs generalizing pos with
  | nil =>
    rw [find, if_neg hne] at h
    cases h
  | cons c cs ih =>
    rw [find] at h
    split at h
    · next hp =>
      obtain rfl : pos = i := Option.some.inj h
      have hprefix := List.isPrefixOf_iff_prefix.mp hp
      have hlen := hprefix.length_le
      have hpos := List.length_pos_iff.mpr hne
      rw [Nat.sub_self, Nat.zero_add]
      refine ⟨Nat.le_refl _, by omega, hprefix, ?_⟩
      rw [occurrencesFrom, if_pos hp, occurrencesFrom_skip]
      have e : pos + 1 + (needle.length - 1) = pos + needle.length := by omega
      rw [e]
      obtain ⟨n, hn⟩ : ∃ n, needle.length = n + 1 := ⟨needle.length - 1, by omega⟩
      rw [hn, Nat.add_sub_cancel, List.drop_succ_cons]
    · next hp =>
      obtain ⟨h1, h2, h3, h4⟩ := ih h
      have e : i - pos = i - (pos + 1) + 1 := by omega
      rw [List.length_cons, e, List.drop_succ_cons, occurrencesFrom, if_neg hp, h4]
      refine ⟨by omega, by omega, h3, ?_⟩
      rw [Nat.add_right_comm, List.drop_succ_cons]

/-- The needle stands at each occurrence. -/
theorem prefix_of_mem_occurrencesFrom {pos i : ℕ} {cs : List α} {skip : ℕ}
    (h : i ∈ occurrencesFrom needle skip pos cs) :
    pos ≤ i ∧ i < pos + cs.length ∧ needle <+: cs.drop (i - pos) := by
  induction cs generalizing skip pos with
  | nil => cases skip <;> cases h
  | cons c cs ih =>
    rw [List.length_cons]
    have hlater : ∀ {skip}, i ∈ occurrencesFrom needle skip (pos + 1) cs →
        pos ≤ i ∧ i < pos + (cs.length + 1) ∧ needle <+: (c :: cs).drop (i - pos) := by
      intro skip h
      obtain ⟨h1, h2, h3⟩ := ih h
      have e : i - pos = i - (pos + 1) + 1 := by omega
      rw [e, List.drop_succ_cons]
      exact ⟨by omega, by omega, h3⟩
    cases skip with
    | succ skip => exact hlater h
    | zero =>
      rw [occurrencesFrom] at h
      split at h
      · next hp =>
        rcases List.mem_cons.mp h with rfl | h
        · rw [Nat.sub_self]
          exact ⟨Nat.le_refl _, by omega, List.isPrefixOf_iff_prefix.mp hp⟩
        · exact hlater h
      · exact hlater h

/-- A place is found exactly when the needle is part of the list. -/
theorem isSome_find_iff (needle : List α) (pos : ℕ) (cs : List α) :
    (find needle pos cs).isSome = true ↔ needle <:+: cs := by
  induction cs generalizing pos with
  | nil =>
    rw [find, List.infix_nil]
    split
    · next h => simp [h]
    · next h => simp [h]
  | cons c cs ih =>
    rw [find, List.infix_cons_iff, ← List.isPrefixOf_iff_prefix]
    split
    · next hp => simp [hp]
    · next hp => rw [ih]; simp [hp]

/-- There is an occurrence exactly when the needle is part of the list. -/
theorem occurrences_ne_nil_iff (hne : needle ≠ []) (hay : List α) : occurrences needle hay ≠ [] ↔ needle <:+: hay := by
  have hfrom : ∀ pos : ℕ, ∀ cs : List α, occurrencesFrom needle 0 pos cs ≠ [] ↔ needle <:+: cs := by
    intro pos cs
    induction cs generalizing pos with
    | nil => simp [occurrencesFrom, hne]
    | cons c cs ih =>
      rw [occurrencesFrom, List.infix_cons_iff, ← List.isPrefixOf_iff_prefix]
      split
      · next hp => simp [hp]
      · next hp => rw [ih]; simp [hp]
  exact hfrom 0 hay

end Kanta.Lib.Search
