import Mathlib.Data.List.Basic
import Mathlib.Order.Lattice

/-!
# Cutting a sorted list at a key

In a list that is sorted by a key without repetition, the elements whose keys are below that of a place
are those in front of it.
-/

namespace Kanta.Lib.Sorted

variable {α β : Type*} {f : α → β} {l : List α} {bound : β} {i : ℕ}

/-- The key at a place of the list; behind its end, a bound. -/
def keyAt (f : α → β) (l : List α) (bound : β) (i : ℕ) : β := (l[i]?.map f).getD bound

lemma keyAt_of_le (h : l.length ≤ i) : keyAt f l bound i = bound := by
  rw [keyAt, List.getElem?_eq_none h]
  rfl

lemma keyAt_succ {x : α} : keyAt f (x :: l) bound (i + 1) = keyAt f l bound i := rfl

variable [LinearOrder β]

/-- The keys go up. -/
def Increasing (f : α → β) (l : List α) : Prop := l.Pairwise fun x y => f x < f y

lemma Increasing.tail {x : α} (h : Increasing f (x :: l)) : Increasing f l := (List.pairwise_cons.mp h).2

lemma Increasing.head {x : α} (h : Increasing f (x :: l)) : ∀ y ∈ l, f x < f y := (List.pairwise_cons.mp h).1

lemma lt_keyAt {x : α} (h : Increasing f (x :: l)) (hb : f x < bound) : f x < keyAt f l bound i := by
  rw [keyAt]
  cases hi : l[i]? with
  | none => exact hb
  | some y => exact h.head y (List.mem_of_getElem? hi)

/-- What is below the key at a place is in front of it. -/
lemma filter_lt (h : Increasing f l) (hb : ∀ x ∈ l, f x < bound) :
    l.filter (fun x => f x < keyAt f l bound i) = l.take i := by
  induction l generalizing i with
  | nil => simp
  | cons x l ih =>
    rw [List.forall_mem_cons] at hb
    cases i with
    | zero =>
      rw [List.take_zero, List.filter_eq_nil_iff]
      intro y hy
      have hxy : f x ≤ f y := by
        rcases List.mem_cons.mp hy with rfl | hy
        · exact le_rfl
        · exact le_of_lt (h.head y hy)
      simpa [keyAt] using hxy
    | succ i =>
      rw [keyAt_succ, List.filter_cons, decide_eq_true (lt_keyAt h hb.1), if_pos rfl, ih h.tail hb.2,
        List.take_succ_cons]

/-- What is up to the key at a place is in front of the next. -/
lemma filter_le (h : Increasing f l) (hi : i < l.length) :
    l.filter (fun x => f x ≤ keyAt f l bound i) = l.take (i + 1) := by
  induction l generalizing i with
  | nil => simp at hi
  | cons x l ih =>
    cases i with
    | zero =>
      have hrest : l.filter (fun y => f y ≤ f x) = [] :=
        List.filter_eq_nil_iff.mpr fun y hy => by simpa using h.head y hy
      simpa [keyAt] using hrest
    | succ i =>
      have hi : i < l.length := by simpa using hi
      have hx : f x ≤ keyAt f l bound i := by
        rw [keyAt, List.getElem?_eq_getElem hi]
        exact le_of_lt (h.head _ (List.getElem_mem hi))
      rw [keyAt_succ, List.filter_cons, decide_eq_true hx, if_pos rfl, ih h.tail hi, List.take_succ_cons]

/-- What is not below the key at a place is behind it. -/
lemma filter_not_lt (h : Increasing f l) (hb : ∀ x ∈ l, f x < bound) (j : ℕ) :
    (l.take j).filter (fun x => keyAt f l bound i ≤ f x) = (l.take j).drop i := by
  induction l generalizing i j with
  | nil => simp
  | cons x l ih =>
    rw [List.forall_mem_cons] at hb
    cases i with
    | zero =>
      rw [List.drop_zero, List.filter_eq_self]
      intro y hy
      have hxy : f x ≤ f y := by
        rcases List.mem_cons.mp (List.mem_of_mem_take hy) with rfl | hy
        · exact le_rfl
        · exact le_of_lt (h.head y hy)
      simpa [keyAt] using hxy
    | succ i =>
      cases j with
      | zero => simp
      | succ j =>
        have hx : ¬keyAt f l bound i ≤ f x := not_le.mpr (lt_keyAt h hb.1)
        rw [keyAt_succ, List.take_succ_cons, List.filter_cons, decide_eq_false hx, if_neg (by simp),
          ih h.tail hb.2, List.drop_succ_cons]

/-- In a list whose keys do not go down, what is below a bound is in front. -/
lemma takeWhile_lt (h : l.Pairwise fun x y => f x ≤ f y) :
    l.takeWhile (fun x => f x < bound) = l.filter fun x => f x < bound := by
  induction l with
  | nil => rfl
  | cons x l ih =>
    obtain ⟨hx, hl⟩ := List.pairwise_cons.mp h
    rw [List.takeWhile_cons, List.filter_cons, ih hl]
    by_cases hb : f x < bound
    · rw [decide_eq_true hb, if_pos rfl, if_pos rfl]
    · have hnone : l.filter (fun y => f y < bound) = [] := by
        rw [List.filter_eq_nil_iff]
        intro y hy
        simpa using le_trans (not_lt.mp hb) (hx y hy)
      rw [decide_eq_false hb, if_neg (by simp), if_neg (by simp), hnone]

end Kanta.Lib.Sorted
