import Mathlib.Logic.Function.Basic
import Mathlib.Tactic.Common

/-!
# Trees of partial maps, and updating them by differences

A tree is a leaf, a list of trees, or a node: a partial map from keys to trees.  Two nodes are
equal when they map every key alike, so a tree carries no order of keys.

`Step t x y t'` says that `t'` is what becomes of `t` when the difference *from `x` to `y`* is
applied to it: keys that `x` has and `y` lacks are dropped, keys that `y` has and `x` lacks are
set, keys whose value changed are updated inside when both values are nodes and set otherwise,
and nothing else is looked at.  The tree `t` need not be `x`.  Two facts are proved:

* `Step.exact`: applied to `x` itself, the difference gives `y`;
* `absorb`: the differences of a whole history `x₀, …, xₙ`, applied in order to the *last* tree
  `xₙ`, end in `xₙ` again, although the trees in between may be in no relation to the history.
-/

namespace Kanta.Lib

universe u v

/-- A leaf, a list, or a partial map. -/
inductive Tree (κ : Type u) (α : Type v) : Type (max u v) where
  | leaf (a : α)
  | list (xs : List (Tree κ α))
  | node (f : κ → Option (Tree κ α))

namespace Tree

variable {κ : Type u} {α : Type v}

/-- Whether the tree is a partial map. -/
def IsNode : Tree κ α → Prop
  | .node _ => True
  | _ => False

instance : DecidablePred (IsNode : Tree κ α → Prop) := fun t => by
  cases t <;> unfold IsNode <;> infer_instance

@[simp] lemma isNode_node (f : κ → Option (Tree κ α)) : (node f).IsNode := trivial
@[simp] lemma not_isNode_leaf (a : α) : ¬ (leaf a : Tree κ α).IsNode := id
@[simp] lemma not_isNode_list (xs : List (Tree κ α)) : ¬ (list xs).IsNode := id

/-- Induction through the values of a node. -/
theorem nodeInd {P : Tree κ α → Prop} (hother : ∀ t : Tree κ α, ¬ t.IsNode → P t)
    (hnode : ∀ f, (∀ k c, f k = some c → P c) → P (node f)) (t : Tree κ α) : P t := by
  refine Tree.rec (motive_1 := P) (motive_2 := fun _ => True)
    (motive_3 := fun o => ∀ c, o = some c → P c) ?_ ?_ ?_ ?_ ?_ ?_ ?_ t
  · exact fun a => hother _ (not_isNode_leaf a)
  · exact fun xs _ => hother _ (not_isNode_list xs)
  · exact fun f ih => hnode f fun k c hc => ih k c hc
  · trivial
  · intros; trivial
  · intro c hc
    exact absurd hc (by simp)
  · intro c ih c' hc
    exact Option.some.inj hc ▸ ih

/-! ### One difference -/

/-- `Step t x y t'`: the difference from `x` to `y`, applied to `t`, gives `t'`.  An absent value
is `none`.  What an update inside a missing value leaves behind is not specified (`stray`). -/
inductive Step : Option (Tree κ α) → Option (Tree κ α) → Option (Tree κ α) → Option (Tree κ α) → Prop
  | same (t x : Option (Tree κ α)) : Step t x x t
  | drop (t : Option (Tree κ α)) (x : Tree κ α) : Step t (some x) none none
  | put (y : Tree κ α) : Step none none (some y) (some y)
  | set (t : Tree κ α) (x : Option (Tree κ α)) (y : Tree κ α) (hy : ¬ y.IsNode) :
      Step (some t) x (some y) (some y)
  | merge (t y t' : κ → Option (Tree κ α)) (h : ∀ k, Step (t k) none (y k) (t' k)) :
      Step (some (node t)) none (some (node y)) (some (node t'))
  | inside (t x y t' : κ → Option (Tree κ α)) (h : ∀ k, Step (t k) (x k) (y k) (t' k)) :
      Step (some (node t)) (some (node x)) (some (node y)) (some (node t'))
  | stray (x y j : Tree κ α) : Step none (some x) (some y) (some j)

/-- **Applied to its own source, a difference gives its target.** -/
theorem Step.exact {t x y t' : Option (Tree κ α)} (h : Step t x y t') : t = x → t' = y := by
  induction h with
  | same t x => exact id
  | drop t x => exact fun _ => rfl
  | put y => exact fun _ => rfl
  | set t x y hy => exact fun _ => rfl
  | merge t y t' h ih => intro e; simp at e
  | inside t x y t' h ih =>
    intro e
    have e : t = x := by simpa using e
    subst e
    have : t' = y := funext fun k => ih k rfl
    rw [this]
  | stray x y j => intro e; simp at e

lemma Step.of_none {t x t' : Option (Tree κ α)} (h : Step t x none t') (hx : x ≠ none) : t' = none := by
  cases h with
  | same => exact absurd rfl hx
  | drop => rfl

/-! ### A history of differences -/

section History

variable {xs ts : ℕ → Option (Tree κ α)} {n : ℕ}

/-- Once the tree agrees with the history it stays in agreement. -/
lemma exact_from (hstep : ∀ i < n, Step (ts i) (xs i) (xs (i + 1)) (ts (i + 1))) {j : ℕ}
    (hj : j ≤ n) (h : ts j = xs j) : ts n = xs n := by
  induction n with
  | zero =>
    obtain rfl : j = 0 := by omega
    exact h
  | succ n ih =>
    by_cases e : j = n + 1
    · exact e ▸ h
    · exact (hstep n (Nat.lt_succ_self n)).exact
        (ih (fun i hi => hstep i (by omega)) (by omega))

/-- What every step keeps until the tree meets the history, holds at the end unless they met. -/
lemma met_or (hstep : ∀ i < n, Step (ts i) (xs i) (xs (i + 1)) (ts (i + 1))) {e : ℕ} (he : e ≤ n)
    (P : ℕ → Prop) (hP : P e)
    (hnext : ∀ i, e ≤ i → i < n → P i → ts (i + 1) = xs (i + 1) ∨ P (i + 1)) :
    ts n = xs n ∨ P n := by
  have key : ∀ i, e ≤ i → i ≤ n → (∃ j ≤ n, ts j = xs j) ∨ P i := by
    intro i
    induction i with
    | zero =>
      intro h1 _
      obtain rfl : e = 0 := by omega
      exact Or.inr hP
    | succ i ih =>
      intro h1 h2
      by_cases e' : e = i + 1
      · exact Or.inr (e' ▸ hP)
      · rcases ih (by omega) (by omega) with h | h
        · exact Or.inl h
        · exact (hnext i (by omega) (by omega) h).imp (fun h => ⟨i + 1, h2, h⟩) id
  rcases key n he (Nat.le_refl _) with ⟨j, hj, h⟩ | h
  · exact Or.inl (exact_from hstep hj h)
  · exact Or.inr h

/-- A history that ends in no value. -/
lemma absorb_none (hstep : ∀ i < n, Step (ts i) (xs i) (xs (i + 1)) (ts (i + 1)))
    (hn : xs n = none) (h0 : ts 0 = none) : ts n = none := by
  by_cases hx : xs 0 = none
  · exact hn ▸ exact_from hstep (Nat.zero_le n) (h0.trans hx.symm)
  · -- the value it had at the start was dropped at some step
    rcases met_or hstep (Nat.zero_le n) (fun i => xs i ≠ none) hx fun i _ hi hne => by
      by_cases h : xs (i + 1) = none
      · have hs := hstep i hi
        rw [h] at hs
        exact Or.inl (by rw [h, hs.of_none hne])
      · exact Or.inr h with h | h
    · exact h.trans hn
    · exact absurd hn h

/-- A history that ends in a value which is no node. -/
lemma absorb_other {v : Tree κ α} (hv : ¬ v.IsNode)
    (hstep : ∀ i < n, Step (ts i) (xs i) (xs (i + 1)) (ts (i + 1)))
    (hn : xs n = some v) (h0 : ts 0 = some v) : ts n = some v := by
  rcases met_or hstep (Nat.zero_le n) (fun i => ts i = some v) h0 fun i _ hi ht => by
    have hs := hstep i hi
    rw [ht] at hs
    generalize xs i = x, xs (i + 1) = y, ts (i + 1) = t' at hs
    cases hs with
    | same => exact Or.inr rfl
    | drop => exact Or.inl rfl
    | set => exact Or.inl rfl
    | merge => exact absurd (isNode_node _) hv
    | inside => exact absurd (isNode_node _) hv with h | h
  · exact h.trans hn
  · exact h

/-- Before the history reaches a node, the tree keeps its node `f`; the history reaches a node by
starting in one, or by one step that merges it into `f`. -/
lemma enter_node {f : κ → Option (Tree κ α)}
    (hstep : ∀ i < n, Step (ts i) (xs i) (xs (i + 1)) (ts (i + 1)))
    (hn : xs n = some (node f)) (h0 : ts 0 = some (node f)) :
    ts n = xs n ∨ ∃ e ≤ n, ∃ X T, xs e = some (node X) ∧ ts e = some (node T) ∧
      ((∀ k, T k = f k) ∨ ∀ k, Step (f k) none (X k) (T k)) := by
  let Entered (i : ℕ) : Prop := ∃ e ≤ i, ∃ X T, xs e = some (node X) ∧ ts e = some (node T) ∧
    ((∀ k, T k = f k) ∨ ∀ k, Step (f k) none (X k) (T k))
  by_cases hx : ∃ X, xs 0 = some (node X)
  · obtain ⟨X, hX⟩ := hx
    exact Or.inr ⟨0, Nat.zero_le n, X, f, hX, h0, Or.inl fun _ => rfl⟩
  rcases met_or hstep (Nat.zero_le n)
    (fun i => ((¬ ∃ X, xs i = some (node X)) ∧ ts i = some (node f)) ∨ Entered i) (Or.inl ⟨hx, h0⟩)
    fun i _ hi hP => by
      rcases hP with ⟨hxi, hti⟩ | ⟨e, he, h⟩
      · have hs := hstep i hi
        rw [hti] at hs
        generalize hX : xs i = x at hs hxi
        generalize hY : xs (i + 1) = y at hs
        generalize hT : ts (i + 1) = t' at hs
        cases hs with
        | same => exact Or.inr (Or.inl ⟨hxi, rfl⟩)
        | drop => exact Or.inl rfl
        | set => exact Or.inl rfl
        | merge t y t' h => exact Or.inr (Or.inr ⟨i + 1, Nat.le_refl _, y, t', hY, hT, Or.inr h⟩)
        | inside t x y t' h => exact absurd ⟨x, rfl⟩ hxi
      · exact Or.inr (Or.inr ⟨e, by omega, h⟩) with h | h | h
  · exact Or.inl h
  · exact absurd ⟨f, hn⟩ h.1
  · exact Or.inr h

/-- From a step at which both the history and the tree are nodes, either the two meet, or they
stay nodes and every step works inside them. -/
lemma nodes_from {e : ℕ} {X T : κ → Option (Tree κ α)}
    (hstep : ∀ i < n, Step (ts i) (xs i) (xs (i + 1)) (ts (i + 1))) (he : e ≤ n)
    (hX : xs e = some (node X)) (hT : ts e = some (node T)) :
    ts n = xs n ∨ ∃ Xs Ts : ℕ → κ → Option (Tree κ α), Xs e = X ∧ Ts e = T ∧
      xs n = some (node (Xs n)) ∧ ts n = some (node (Ts n)) ∧
      ∀ i, e ≤ i → i < n → ∀ k, Step (Ts i k) (Xs i k) (Xs (i + 1) k) (Ts (i + 1) k) := by
  let Inside (m : ℕ) : Prop := ∃ Xs Ts : ℕ → κ → Option (Tree κ α), Xs e = X ∧ Ts e = T ∧
    xs m = some (node (Xs m)) ∧ ts m = some (node (Ts m)) ∧
    ∀ i, e ≤ i → i < m → ∀ k, Step (Ts i k) (Xs i k) (Xs (i + 1) k) (Ts (i + 1) k)
  refine met_or hstep he Inside ⟨fun _ => X, fun _ => T, rfl, rfl, hX, hT, fun i h1 h2 => by omega⟩ ?_
  rintro m hem hm ⟨Xs, Ts, hXe, hTe, hXm, hTm, hin⟩
  have hs := hstep m hm
  rw [hXm, hTm] at hs
  -- the step keeps both nodes, or the two meet
  obtain ⟨X', T', hX', hT', hk⟩ | hmeet : (∃ X' T', xs (m + 1) = some (node X') ∧
      ts (m + 1) = some (node T') ∧ ∀ k, Step (Ts m k) (Xs m k) (X' k) (T' k)) ∨
      ts (m + 1) = xs (m + 1) := by
    generalize xs (m + 1) = x', ts (m + 1) = t' at hs
    cases hs with
    | same => exact Or.inl ⟨_, _, rfl, rfl, fun k => Step.same _ _⟩
    | drop => exact Or.inr rfl
    | set => exact Or.inr rfl
    | inside t x y t' h => exact Or.inl ⟨_, _, rfl, rfl, h⟩
  · refine Or.inr ⟨Function.update Xs (m + 1) X', Function.update Ts (m + 1) T', ?_, ?_, by simpa,
      by simpa, fun i h1 h2 k => ?_⟩
    · rwa [Function.update_of_ne (by omega)]
    · rwa [Function.update_of_ne (by omega)]
    · rw [Function.update_of_ne (a := i) (by omega), Function.update_of_ne (a := i) (by omega)]
      by_cases hi : i = m
      · subst hi
        simpa using hk k
      · rw [Function.update_of_ne (by omega), Function.update_of_ne (by omega)]
        exact hin i h1 (by omega) k
  · exact Or.inl hmeet

/-- **A history re-applied to its own end is absorbed.** -/
theorem absorb (o : Option (Tree κ α)) {n : ℕ} {xs ts : ℕ → Option (Tree κ α)}
    (hstep : ∀ i < n, Step (ts i) (xs i) (xs (i + 1)) (ts (i + 1)))
    (hn : xs n = o) (h0 : ts 0 = o) : ts n = o := by
  rcases o with _ | v
  · exact absorb_none hstep hn h0
  induction v using nodeInd generalizing n xs ts with
  | hother v hv => exact absorb_other hv hstep hn h0
  | hnode f ih =>
    -- the claim for the value of a key, whether or not `f` has it
    have key : ∀ (k : κ) (n : ℕ) (xs ts : ℕ → Option (Tree κ α)),
        (∀ i < n, Step (ts i) (xs i) (xs (i + 1)) (ts (i + 1))) → xs n = f k → ts 0 = f k →
        ts n = f k := by
      intro k n xs ts hstep hn h0
      rcases hk : f k with _ | c
      · exact absorb_none hstep (hn.trans hk) (h0.trans hk)
      · exact ih k c hk hstep (hn.trans hk) (h0.trans hk)
    rcases enter_node hstep hn h0 with h | ⟨e, he, X, T, hX, hT, hent⟩
    · exact h.trans hn
    rcases nodes_from hstep he hX hT with h | ⟨Xs, Ts, rfl, rfl, hXn, hTn, hin⟩
    · exact h.trans hn
    have hf : Xs n = f := by simpa [hXn] using hn
    rw [hTn]
    congr 2
    funext k
    rcases hent with hent | hent
    · -- the history started in a node: the steps from `e` on
      have := key k (n - e) (fun i => Xs (e + i) k) (fun i => Ts (e + i) k)
        (fun i hi => hin (e + i) (by omega) (by omega) k)
        (by rw [show e + (n - e) = n by omega, hf]) (hent k)
      rwa [show e + (n - e) = n by omega] at this
    · -- the node was merged in: the same steps after one from an absent value
      have := key k (n - e + 1) (fun | 0 => none | i + 1 => Xs (e + i) k)
        (fun | 0 => f k | i + 1 => Ts (e + i) k)
        (fun i hi => by
          cases i with
          | zero => exact hent k
          | succ i => exact hin (e + i) (by omega) (by omega) k)
        (by simp only; rw [show e + (n - e) = n by omega, hf]) rfl
      simpa only [show e + (n - e) = n by omega] using this

end History

end Tree

end Kanta.Lib
