import Mathlib.Data.List.Nodup
import Mathlib.Data.List.Perm.Subperm

/-!
# Ordered dictionaries as association lists

A dictionary is a list of pairs with pairwise distinct keys, in the order of insertion.  Reading
is `List.lookup`; the two updates are

* `put k v l`: the value of `k` is replaced in place, or the pair is appended when `k` is new;
* `remove k l`: the pair of `k` is dropped when there is one.

Order plays no role in the meaning of a dictionary, which is its lookup function.
-/

namespace Kanta.Lib.Assoc

variable {κ α : Type*} [DecidableEq κ]

/-- The keys, in order. -/
abbrev keys (l : List (κ × α)) : List κ := l.map Prod.fst

/-- `d[k] = v`: in place when `k` is there, at the end otherwise. -/
def put (k : κ) (v : α) : List (κ × α) → List (κ × α)
  | [] => [(k, v)]
  | (k', v') :: r => if k' = k then (k, v) :: r else (k', v') :: put k v r

/-- `d.pop(k, None)`. -/
def remove (k : κ) (l : List (κ × α)) : List (κ × α) := l.filter fun p => p.1 ≠ k

/-! ### Lookup -/

lemma lookup_cons_if (k k' : κ) (v : α) (l : List (κ × α)) :
    ((k', v) :: l).lookup k = if k = k' then some v else l.lookup k := by
  by_cases h : k = k'
  · simp [h]
  · have hk : (k == k') = false := beq_eq_false_iff_ne.mpr h
    simp [List.lookup_cons, hk, h]

/-- Keys renamed without collision, and values changed. -/
lemma lookup_map {κ' β : Type*} [DecidableEq κ'] {f : κ → κ'} (hf : Function.Injective f) (g : κ → α → β)
    (k : κ) (l : List (κ × α)) :
    (l.map fun q => (f q.1, g q.1 q.2)).lookup (f k) = (l.lookup k).map (g k) := by
  induction l with
  | nil => rfl
  | cons q l ih =>
    obtain ⟨k', v⟩ := q
    rw [List.map_cons, lookup_cons_if, lookup_cons_if, ih, if_congr hf.eq_iff rfl rfl]
    by_cases h : k = k'
    · rw [if_pos h, if_pos h, h]
      rfl
    · rw [if_neg h, if_neg h]

lemma lookup_isSome_iff {k : κ} {l : List (κ × α)} : (l.lookup k).isSome ↔ k ∈ keys l := by
  induction l with
  | nil => simp
  | cons p l ih =>
    obtain ⟨k', v⟩ := p
    rw [lookup_cons_if]
    by_cases h : k = k' <;> simp_all

lemma lookup_eq_none_iff {k : κ} {l : List (κ × α)} : l.lookup k = none ↔ k ∉ keys l := by
  rw [← lookup_isSome_iff]
  cases l.lookup k <;> simp

/-- An entry behind the others under a new key is found there. -/
lemma lookup_concat_self {k : κ} {l : List (κ × α)} (h : k ∉ keys l) (v : α) : (l ++ [(k, v)]).lookup k = some v := by
  rw [List.lookup_append, lookup_eq_none_iff.mpr h]
  simp

lemma lookup_concat_of_some {k : κ} {v : α} {l : List (κ × α)} (h : l.lookup k = some v) (entry : κ × α) :
    (l ++ [entry]).lookup k = some v := by
  rw [List.lookup_append, h]
  rfl

lemma mem_keys_of_lookup {k : κ} {v : α} {l : List (κ × α)} (h : l.lookup k = some v) :
    k ∈ keys l := by
  rw [← lookup_isSome_iff, h]
  rfl

lemma mem_of_lookup {k : κ} {v : α} {l : List (κ × α)} (h : l.lookup k = some v) :
    (k, v) ∈ l := by
  induction l with
  | nil => simp at h
  | cons p l ih =>
    obtain ⟨k', v'⟩ := p
    rw [lookup_cons_if] at h
    split at h
    · simp_all
    · exact List.mem_cons_of_mem _ (ih h)

/-- With distinct keys, the pairs of the list are the values of the lookup. -/
lemma lookup_eq_some_iff {k : κ} {v : α} {l : List (κ × α)} (hl : (keys l).Nodup) :
    l.lookup k = some v ↔ (k, v) ∈ l := by
  refine ⟨mem_of_lookup, fun h => ?_⟩
  induction l with
  | nil => simp at h
  | cons p l ih =>
    obtain ⟨k', v'⟩ := p
    simp only [keys, List.map_cons, List.nodup_cons] at hl
    rw [lookup_cons_if]
    rcases List.mem_cons.mp h with h | h
    · simp_all
    · have hk : k ≠ k' := fun e => hl.1 (e ▸ List.mem_map_of_mem (f := Prod.fst) h)
      rw [if_neg hk]
      exact ih hl.2 h

/-! ### Updates -/

@[simp] lemma lookup_put_self (k : κ) (v : α) (l : List (κ × α)) : (put k v l).lookup k = some v := by
  induction l with
  | nil => simp [put]
  | cons p l ih =>
    obtain ⟨k', v'⟩ := p
    unfold put
    by_cases h : k' = k
    · simp [h]
    · rw [if_neg h, lookup_cons_if, if_neg (Ne.symm h), ih]

lemma lookup_put_ne {k j : κ} (h : j ≠ k) (v : α) (l : List (κ × α)) :
    (put k v l).lookup j = l.lookup j := by
  induction l with
  | nil => simp [put, lookup_cons_if, h]
  | cons p l ih =>
    obtain ⟨k', v'⟩ := p
    unfold put
    by_cases hk : k' = k
    · subst hk
      simp [lookup_cons_if, h]
    · rw [if_neg hk, lookup_cons_if, lookup_cons_if, ih]

lemma lookup_put (k j : κ) (v : α) (l : List (κ × α)) :
    (put k v l).lookup j = if j = k then some v else l.lookup j := by
  split
  · simp_all
  · exact lookup_put_ne ‹_› v l

lemma put_map {κ' β : Type*} [DecidableEq κ'] {f : κ → κ'} (hf : Function.Injective f) (g : κ → α → β)
    (k : κ) (v : α) (l : List (κ × α)) :
    put (f k) (g k v) (l.map fun q => (f q.1, g q.1 q.2)) = (put k v l).map fun q => (f q.1, g q.1 q.2) := by
  induction l with
  | nil => rfl
  | cons q l ih =>
    obtain ⟨k', w⟩ := q
    rw [List.map_cons, put, put, if_congr hf.eq_iff rfl rfl]
    split
    · rfl
    · rw [ih, List.map_cons]

lemma put_of_notMem {k : κ} {l : List (κ × α)} (h : k ∉ keys l) (v : α) : put k v l = l ++ [(k, v)] := by
  induction l with
  | nil => rfl
  | cons p l ih =>
    obtain ⟨k', v'⟩ := p
    simp only [keys, List.map_cons, List.mem_cons, not_or] at h
    rw [put, if_neg (Ne.symm h.1), ih h.2, List.cons_append]

lemma mem_keys_put {k j : κ} {v : α} {l : List (κ × α)} : j ∈ keys (put k v l) ↔ j = k ∨ j ∈ keys l := by
  rw [← lookup_isSome_iff, ← lookup_isSome_iff, lookup_put]
  by_cases h : j = k <;> simp [h]

lemma keys_put_of_mem {k : κ} {l : List (κ × α)} (h : k ∈ keys l) (v : α) :
    keys (put k v l) = keys l := by
  induction l with
  | nil => simp at h
  | cons p l ih =>
    obtain ⟨k', v'⟩ := p
    rw [put]
    by_cases hk : k' = k
    · simp [hk]
    · rw [if_neg hk]
      have h' : k ∈ keys l := by
        rcases List.mem_cons.mp h with h | h
        · exact absurd h.symm hk
        · exact h
      simp only [keys, List.map_cons] at ih ⊢
      rw [ih h']

lemma nodup_put {k : κ} {l : List (κ × α)} (hl : (keys l).Nodup) (v : α) : (keys (put k v l)).Nodup := by
  by_cases h : k ∈ keys l
  · rwa [keys_put_of_mem h]
  · rw [put_of_notMem h]
    simp only [keys, List.map_append, List.map_cons, List.map_nil]
    exact List.nodup_append.mpr ⟨hl, by simp, fun a ha b hb => by
      rw [List.mem_singleton.mp hb]
      exact fun e => h (e ▸ ha)⟩

lemma mem_put {k j : κ} {v w : α} {l : List (κ × α)} (h : (j, w) ∈ put k v l) :
    (j = k ∧ w = v) ∨ (j, w) ∈ l := by
  induction l with
  | nil => simpa [put] using h
  | cons p l ih =>
    obtain ⟨k', v'⟩ := p
    rw [put] at h
    split at h
    · rcases List.mem_cons.mp h with h | h
      · exact Or.inl (by simpa using h)
      · exact Or.inr (List.mem_cons_of_mem _ h)
    · rcases List.mem_cons.mp h with h | h
      · exact Or.inr (h ▸ List.mem_cons_self)
      · exact (ih h).imp id (List.mem_cons_of_mem _)

lemma put_ne_nil (k : κ) (v : α) (l : List (κ × α)) : put k v l ≠ [] := by
  cases l with
  | nil => simp [put]
  | cons p l =>
    rw [put]
    split <;> simp

lemma lookup_remove (k j : κ) (l : List (κ × α)) :
    (remove k l).lookup j = if j = k then none else l.lookup j := by
  induction l with
  | nil => simp [remove]
  | cons p l ih =>
    obtain ⟨k', v'⟩ := p
    rw [lookup_cons_if]
    by_cases h : k' = k
    · have e : remove k ((k', v') :: l) = remove k l := by simp [remove, h]
      rw [e, ih]
      split
      · rfl
      · rw [if_neg (by simpa [h])]
    · have e : remove k ((k', v') :: l) = (k', v') :: remove k l := by simp [remove, h]
      rw [e, lookup_cons_if, ih]
      by_cases hj : j = k'
      · simp [hj, h]
      · simp [hj]

lemma nodup_remove {k : κ} {l : List (κ × α)} (hl : (keys l).Nodup) : (keys (remove k l)).Nodup :=
  hl.sublist (List.filter_sublist.map Prod.fst)

lemma mem_of_mem_remove {k : κ} {p : κ × α} {l : List (κ × α)} (h : p ∈ remove k l) : p ∈ l :=
  List.mem_of_mem_filter h

/-- Inserting pairs with new and distinct keys one by one appends them. -/
lemma foldl_put_eq_append {l acc : List (κ × α)} (hl : (keys (acc ++ l)).Nodup) :
    l.foldl (fun d p => put p.1 p.2 d) acc = acc ++ l := by
  induction l generalizing acc with
  | nil => simp
  | cons p l ih =>
    have hp : p.1 ∉ keys acc := by
      simp only [keys, List.map_append, List.map_cons, List.nodup_append] at hl
      exact fun h => hl.2.2 _ h _ List.mem_cons_self rfl
    have e : acc ++ p :: l = (acc ++ [p]) ++ l := by simp
    rw [List.foldl_cons, put_of_notMem hp, e]
    exact ih (e ▸ hl)

lemma lookup_foldl_put {l acc : List (κ × α)} (hl : (keys l).Nodup) (k : κ) :
    (l.foldl (fun d p => put p.1 p.2 d) acc).lookup k = (l.lookup k).or (acc.lookup k) := by
  induction l generalizing acc with
  | nil => simp
  | cons p l ih =>
    obtain ⟨j, v⟩ := p
    simp only [keys, List.map_cons, List.nodup_cons] at hl
    rw [List.foldl_cons, ih hl.2, lookup_cons_if, lookup_put]
    by_cases h : k = j
    · subst h
      simp [lookup_eq_none_iff.mpr hl.1]
    · simp [h]

lemma nodup_foldl_put {l acc : List (κ × α)} (hacc : (keys acc).Nodup) :
    (keys (l.foldl (fun d p => put p.1 p.2 d) acc)).Nodup := by
  induction l generalizing acc with
  | nil => exact hacc
  | cons p l ih => exact ih (nodup_put hacc _)

lemma mem_foldl_put {l acc : List (κ × α)} {q : κ × α}
    (h : q ∈ l.foldl (fun d p => put p.1 p.2 d) acc) : q ∈ l ∨ q ∈ acc := by
  induction l generalizing acc with
  | nil => exact Or.inr h
  | cons p l ih =>
    rcases ih h with h | h
    · exact Or.inl (List.mem_cons_of_mem _ h)
    · rcases mem_put h with ⟨h1, h2⟩ | h
      · exact Or.inl (by rw [show q = p from Prod.ext h1 h2]; exact List.mem_cons_self)
      · exact Or.inr h

lemma foldl_put_eq_nil {l acc : List (κ × α)} :
    l.foldl (fun d p => put p.1 p.2 d) acc = [] ↔ l = [] ∧ acc = [] := by
  induction l generalizing acc with
  | nil => simp
  | cons p l ih => simp [ih, put_ne_nil]

/-! ### Same meaning -/

omit [DecidableEq κ] in
/-- Two dictionaries with the same lookups have as many pairs. -/
lemma length_eq_of_keys {l r : List (κ × α)} (hl : (keys l).Nodup) (hr : (keys r).Nodup)
    (h : ∀ k, k ∈ keys l ↔ k ∈ keys r) : l.length = r.length := by
  have := ((List.perm_ext_iff_of_nodup hl hr).mpr h).length_eq
  simpa using this

omit [DecidableEq κ] in
/-- A dictionary whose keys all occur in one of the same length has the same keys. -/
lemma keys_subset_antisymm {l r : List (κ × α)} (hl : (keys l).Nodup)
    (hsub : ∀ k ∈ keys l, k ∈ keys r) (hlen : l.length = r.length) {k : κ} (hk : k ∈ keys r) :
    k ∈ keys l := by
  have hperm : (keys l).Subperm (keys r) := List.subperm_of_subset hl hsub
  have := hperm.perm_of_length_le (by simp [hlen])
  exact this.mem_iff.mpr hk

end Kanta.Lib.Assoc
