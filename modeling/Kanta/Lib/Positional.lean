import Mathlib.Data.List.Induction
import Mathlib.Data.List.InsertIdx

/-!
# Editing a list by position

Deletions and insertions that name positions, made one after the other.  Each shifts the positions behind
it, so deletions are given from the back and insertions from the front.  Then the deleted positions are
positions of the list before, and the inserted ones are positions of the list after.
-/

namespace Kanta.Lib.Positional

variable {α : Type*}

/-- The elements whose positions are not in `gone`, in their order. -/
def others (gone : List ℕ) (xs : List α) : List α :=
  (xs.zipIdx.filter fun q => q.2 ∉ gone).map Prod.fst

/-- Every deletion in its turn. -/
def deleteAll (positions : List ℕ) (xs : List α) : List α := positions.foldl List.eraseIdx xs

/-- Every insertion in its turn. -/
def insertAll (inserts : List (ℕ × α)) (xs : List α) : List α :=
  inserts.foldl (fun xs q => xs.insertIdx q.1 q.2) xs

/-- Each position is in range when it is reached, in a list that starts with `n` elements and grows. -/
def InRange : ℕ → List ℕ → Prop
  | _, [] => True
  | n, p :: ps => p ≤ n ∧ InRange (n + 1) ps

lemma inRange_append {n p : ℕ} {ps : List ℕ} :
    InRange n (ps ++ [p]) ↔ InRange n ps ∧ p ≤ n + ps.length := by
  induction ps generalizing n with
  | nil => simp [InRange]
  | cons q ps ih =>
    rw [List.cons_append, InRange, InRange, ih, and_assoc, List.length_cons]
    have e : n + 1 + ps.length = n + (ps.length + 1) := by omega
    rw [e]

/-! ### The elements left out -/

lemma others_congr {gone gone' : List ℕ} (h : ∀ p, p ∈ gone ↔ p ∈ gone') (xs : List α) :
    others gone xs = others gone' xs := by
  simp only [others, h]

/-- Behind all of `gone`, nothing is left out. -/
lemma filter_zipIdx_of_lt {gone : List ℕ} {n : ℕ} (h : ∀ p ∈ gone, p < n) (xs : List α) :
    ((xs.zipIdx n).filter fun q => q.2 ∉ gone).map Prod.fst = xs := by
  have hall : ∀ q ∈ xs.zipIdx n, q.2 ∉ gone := by
    intro q hq hgone
    have := List.le_snd_of_mem_zipIdx hq
    have := h q.2 hgone
    omega
  rw [List.filter_eq_self.mpr (by simpa using hall), List.zipIdx_map_fst]

lemma others_nil (xs : List α) : others [] xs = xs := filter_zipIdx_of_lt (by simp) xs

lemma filter_zipIdx_eraseIdx {gone : List ℕ} {n d : ℕ} (h : ∀ p ∈ gone, p < n + d) (xs : List α) :
    (((xs.eraseIdx d).zipIdx n).filter fun q => q.2 ∉ gone).map Prod.fst =
      ((xs.zipIdx n).filter fun q => q.2 ∉ (n + d) :: gone).map Prod.fst := by
  induction xs generalizing n d with
  | nil => simp
  | cons x xs ih =>
    cases d with
    | zero =>
      have hgone : ∀ p ∈ n :: gone, p < n + 1 := by
        intro p hp
        rcases List.mem_cons.mp hp with rfl | hp
        · omega
        · have := h p hp
          omega
      rw [List.eraseIdx_cons_zero, filter_zipIdx_of_lt (by simpa using h), List.zipIdx_cons,
        List.filter_cons_of_neg (by simp), Nat.add_zero, filter_zipIdx_of_lt hgone]
    | succ d =>
      have e : n + (d + 1) = n + 1 + d := by omega
      rw [e] at h ⊢
      rw [List.eraseIdx_cons_succ, List.zipIdx_cons, List.zipIdx_cons, List.filter_cons,
        List.filter_cons]
      by_cases hn : n ∈ gone
      · rw [if_neg (by simpa using hn), if_neg (by simp [hn]), ih h]
      · have hne : n ≠ n + 1 + d := by omega
        rw [if_pos (by simpa using hn), if_pos (by simp [hn, hne]), List.map_cons, List.map_cons, ih h]

/-- An element deleted behind `gone` is one more element left out. -/
lemma others_eraseIdx {gone : List ℕ} {d : ℕ} (h : ∀ p ∈ gone, p < d) (xs : List α) :
    others gone (xs.eraseIdx d) = others (d :: gone) xs := by
  have := filter_zipIdx_eraseIdx (n := 0) (by simpa using h) xs
  rwa [Nat.zero_add] at this

/-! ### Deletions from the back -/

lemma length_deleteAll {positions : List ℕ} {xs : List α} (hd : positions.Pairwise (· > ·))
    (hlt : ∀ p ∈ positions, p < xs.length) :
    (deleteAll positions xs).length + positions.length = xs.length := by
  induction positions generalizing xs with
  | nil => rfl
  | cons d positions ih =>
    obtain ⟨hd₁, hd₂⟩ := List.pairwise_cons.mp hd
    have hlen : (xs.eraseIdx d).length = xs.length - 1 :=
      List.length_eraseIdx_of_lt (hlt d List.mem_cons_self)
    have hpos := hlt d List.mem_cons_self
    have := @ih (xs.eraseIdx d) hd₂ (fun p hp => by
      have := hd₁ p hp
      omega)
    show (deleteAll positions (xs.eraseIdx d)).length + (positions.length + 1) = xs.length
    omega

/-- **Deleting from the back leaves the other elements.** -/
theorem deleteAll_eq {positions : List ℕ} {xs : List α} (hd : positions.Pairwise (· > ·)) :
    deleteAll positions xs = others positions xs := by
  induction positions generalizing xs with
  | nil => exact (others_nil xs).symm
  | cons d positions ih =>
    obtain ⟨hd₁, hd₂⟩ := List.pairwise_cons.mp hd
    show deleteAll positions (xs.eraseIdx d) = _
    rw [ih hd₂, others_eraseIdx hd₁]

/-! ### Insertions from the front -/

lemma insertAll_append (inserts : List (ℕ × α)) (q : ℕ × α) (xs : List α) :
    insertAll (inserts ++ [q]) xs = (insertAll inserts xs).insertIdx q.1 q.2 := by
  rw [insertAll, List.foldl_append]
  rfl

lemma length_insertAll {inserts : List (ℕ × α)} {xs : List α}
    (hr : InRange xs.length (inserts.map Prod.fst)) :
    (insertAll inserts xs).length = xs.length + inserts.length := by
  induction inserts using List.reverseRecOn with
  | nil => rfl
  | append_singleton inserts q ih =>
    rw [List.map_append, List.map_singleton, inRange_append, List.length_map] at hr
    have hlen := ih hr.1
    rw [insertAll_append, List.length_insertIdx_of_le_length (by omega), hlen, List.length_append,
      List.length_singleton]
    omega

lemma pairwise_front {ps : List ℕ} {p : ℕ} :
    (ps ++ [p]).Pairwise (· < ·) ↔ ps.Pairwise (· < ·) ∧ ∀ q ∈ ps, q < p := by
  simp [List.pairwise_append]

/-- **Inserting from the front is undone by leaving the inserted positions out, and each of them holds
its value.**  No other list does both. -/
theorem eq_insertAll_iff {inserts : List (ℕ × α)} {xs ys : List α}
    (ha : (inserts.map Prod.fst).Pairwise (· < ·)) (hr : InRange xs.length (inserts.map Prod.fst)) :
    ys = insertAll inserts xs ↔
      (∀ q ∈ inserts, ys[q.1]? = some q.2) ∧ others (inserts.map Prod.fst) ys = xs := by
  induction inserts using List.reverseRecOn generalizing ys with
  | nil => simp [insertAll, others_nil]
  | append_singleton inserts q ih =>
    obtain ⟨p, v⟩ := q
    rw [List.map_append, List.map_singleton] at ha hr ⊢
    rw [pairwise_front] at ha
    rw [inRange_append, List.length_map] at hr
    have hlen := length_insertAll hr.1
    rw [insertAll_append, others_congr (show ∀ x, _ ↔ x ∈ p :: inserts.map Prod.fst by simp [or_comm]),
      ← others_eraseIdx ha.2]
    constructor
    · rintro rfl
      rw [List.eraseIdx_insertIdx_self]
      obtain ⟨hget, hothers⟩ := (ih ha.1 hr.1).mp rfl
      refine ⟨fun q hq => ?_, hothers⟩
      rcases List.mem_append.mp hq with hq | hq
      · rw [List.getElem?_insertIdx_of_lt (ha.2 _ (List.mem_map_of_mem hq))]
        exact hget q hq
      · rw [List.mem_singleton.mp hq, List.getElem?_insertIdx_self, if_pos (by omega)]
    · rintro ⟨hget, hothers⟩
      have hp : ys[p]? = some v := hget (p, v) (by simp)
      obtain ⟨hpl, hpv⟩ := List.getElem?_eq_some_iff.mp hp
      have hrest : ys.eraseIdx p = insertAll inserts xs := by
        refine (ih ha.1 hr.1).mpr ⟨fun q hq => ?_, hothers⟩
        rw [List.getElem?_eraseIdx_of_lt (ha.2 _ (List.mem_map_of_mem hq))]
        exact hget q (List.mem_append_left _ hq)
      rw [← hrest, ← hpv, List.insertIdx_eraseIdx_getElem hpl]

end Kanta.Lib.Positional
