import Kanta.Lib.Assoc
import Kanta.Lib.Tree
import Mathlib.Algebra.Group.Int.Defs
import Mathlib.Algebra.Group.Nat.Defs
import Mathlib.Data.Rat.Defs

/-!
# Plain builtins

The values a state is made of once msgspec has turned it into plain builtins: `None`, booleans,
numbers, strings, lists and dicts with string keys.  A float stands for its exact value; NaN and
the infinities do not occur in JSON data.

* `pyEq` is Python's `==`: numbers compare by value across `bool`, `int` and `float`, dicts
  without regard to the order of their keys;
* `sem` forgets exactly what `pyEq` ignores: `pyEq_iff` says that two well-formed values are equal
  in Python when their trees are equal.
-/

namespace Kanta

open Kanta.Lib Kanta.Lib.Assoc

/-- A plain builtin. -/
inductive Val where
  | null
  | bool (b : Bool)
  | int (n : ℤ)
  | float (q : ℚ)
  | str (s : String)
  | list (xs : List Val)
  | dict (kvs : List (String × Val))

/-- What a scalar compares by. -/
inductive Atom where
  | null
  | num (q : ℚ)
  | str (s : String)

namespace Val

/-- Induction over the values inside a value. -/
@[elab_as_elim]
theorem ind {P : Val → Prop} (null : P .null) (bool : ∀ b, P (.bool b)) (int : ∀ n, P (.int n))
    (float : ∀ q, P (.float q)) (str : ∀ s, P (.str s))
    (list : ∀ xs, (∀ x ∈ xs, P x) → P (.list xs))
    (dict : ∀ kvs : List (String × Val), (∀ p ∈ kvs, P p.2) → P (.dict kvs)) (v : Val) : P v := by
  refine Val.rec (motive_1 := P) (motive_2 := fun xs => ∀ x ∈ xs, P x)
    (motive_3 := fun kvs => ∀ p ∈ kvs, P p.2) (motive_4 := fun p => P p.2)
    null bool int float str list dict ?_ ?_ ?_ ?_ ?_ v
  · simp
  · intro x xs hx hxs y hy
    rcases List.mem_cons.mp hy with rfl | hy
    · exact hx
    · exact hxs y hy
  · simp
  · intro p kvs hp hkvs q hq
    rcases List.mem_cons.mp hq with rfl | hq
    · exact hp
    · exact hkvs q hq
  · exact fun _ _ h => h

/-- Whether the value is a dict. -/
def isDict : Val → Bool
  | .dict _ => true
  | _ => false

lemma exists_of_isDict {v : Val} (h : v.isDict = true) : ∃ kvs, v = .dict kvs := by
  cases v <;> simp_all [isDict]

/-- The value a number, or a boolean, compares by. -/
def num? : Val → Option ℚ
  | .bool b => some (if b then 1 else 0)
  | .int n => some n
  | .float q => some q
  | _ => none

mutual
/-- Python's `==`. -/
def pyEq : Val → Val → Bool
  | .null, .null => true
  | .str s, .str t => s == t
  | .list xs, .list ys => pyEqList xs ys
  | .dict xs, .dict ys => xs.length == ys.length && pyEqItems xs ys
  | v, w =>
    match v.num?, w.num? with
    | some a, some b => a == b
    | _, _ => false
def pyEqList : List Val → List Val → Bool
  | [], [] => true
  | x :: xs, y :: ys => x.pyEq y && pyEqList xs ys
  | _, _ => false
def pyEqItems : List (String × Val) → List (String × Val) → Bool
  | [], _ => true
  | (k, v) :: r, ys =>
    (match ys.lookup k with
      | some w => v.pyEq w
      | none => false) && pyEqItems r ys
end

mutual
/-- The value as a tree: numbers by value, dicts as partial maps. -/
def sem : Val → Tree String Atom
  | .null => .leaf .null
  | .bool b => .leaf (.num (if b then 1 else 0))
  | .int n => .leaf (.num n)
  | .float q => .leaf (.num q)
  | .str s => .leaf (.str s)
  | .list xs => .list (semList xs)
  | .dict kvs => .node (semItems kvs)
def semList : List Val → List (Tree String Atom)
  | [] => []
  | x :: xs => x.sem :: semList xs
def semItems : List (String × Val) → String → Option (Tree String Atom)
  | [], _ => none
  | (k, v) :: r, j => if j = k then some v.sem else semItems r j
end

mutual
/-- `p` holds of the value and of every value inside it. -/
def all (p : Val → Bool) : Val → Bool
  | .list xs => p (.list xs) && allList p xs
  | .dict kvs => p (.dict kvs) && allItems p kvs
  | v => p v
def allList (p : Val → Bool) : List Val → Bool
  | [] => true
  | x :: xs => x.all p && allList p xs
def allItems (p : Val → Bool) : List (String × Val) → Bool
  | [] => true
  | (_, v) :: r => v.all p && allItems p r
end

mutual
/-- How deep the value nests. -/
def depth : Val → ℕ
  | .list xs => depthList xs + 1
  | .dict kvs => depthItems kvs + 1
  | _ => 0
def depthList : List Val → ℕ
  | [] => 0
  | x :: xs => max x.depth (depthList xs)
def depthItems : List (String × Val) → ℕ
  | [] => 0
  | (_, v) :: r => max v.depth (depthItems r)
end

/-- A dict has no key twice. -/
def keysDistinct : Val → Bool
  | .dict kvs => decide (keys kvs).Nodup
  | _ => true

/-- **Well-formed**: no dict inside has a key twice, as no Python dict does. -/
def wf (v : Val) : Bool := v.all keysDistinct

/-! ### Reading the mutual definitions through lists -/

lemma semList_eq (xs : List Val) : semList xs = xs.map sem := by
  induction xs with
  | nil => rfl
  | cons x xs ih => rw [semList, ih, List.map_cons]

lemma semItems_eq (kvs : List (String × Val)) (k : String) :
    semItems kvs k = (kvs.lookup k).map sem := by
  induction kvs with
  | nil => rfl
  | cons p kvs ih =>
    obtain ⟨j, v⟩ := p
    rw [semItems, lookup_cons_if, ih]
    split <;> rfl

@[simp] lemma sem_list (xs : List Val) : (list xs).sem = .list (xs.map sem) := by
  rw [sem, semList_eq]

@[simp] lemma sem_dict (kvs : List (String × Val)) :
    (dict kvs).sem = .node fun k => (kvs.lookup k).map sem := by
  rw [sem]
  congr 1
  exact funext (semItems_eq kvs)

lemma allList_iff {p : Val → Bool} {xs : List Val} :
    allList p xs = true ↔ ∀ x ∈ xs, x.all p = true := by
  induction xs with
  | nil => simp [allList]
  | cons x xs ih => simp [allList, ih]

lemma allItems_iff {p : Val → Bool} {kvs : List (String × Val)} :
    allItems p kvs = true ↔ ∀ q ∈ kvs, q.2.all p = true := by
  induction kvs with
  | nil => simp [allItems]
  | cons q kvs ih => simp [allItems, ih]

lemma all_list_iff {p : Val → Bool} {xs : List Val} :
    (list xs).all p = true ↔ p (list xs) = true ∧ ∀ x ∈ xs, x.all p = true := by
  rw [all, Bool.and_eq_true, allList_iff]

lemma all_dict_iff {p : Val → Bool} {kvs : List (String × Val)} :
    (dict kvs).all p = true ↔ p (dict kvs) = true ∧ ∀ q ∈ kvs, q.2.all p = true := by
  rw [all, Bool.and_eq_true, allItems_iff]

lemma wf_list_iff {xs : List Val} : (list xs).wf = true ↔ ∀ x ∈ xs, x.wf = true := by
  simp [wf, all_list_iff, keysDistinct]

lemma wf_dict_iff {kvs : List (String × Val)} :
    (dict kvs).wf = true ↔ (keys kvs).Nodup ∧ ∀ q ∈ kvs, q.2.wf = true := by
  simp [wf, all_dict_iff, keysDistinct]

lemma wf_of_lookup {kvs : List (String × Val)} (h : (dict kvs).wf = true) {k : String} {v : Val}
    (hk : kvs.lookup k = some v) : v.wf = true :=
  (wf_dict_iff.mp h).2 _ (mem_of_lookup hk)

lemma le_depthList {x : Val} {xs : List Val} (h : x ∈ xs) : x.depth ≤ depthList xs := by
  induction xs with
  | nil => simp at h
  | cons y ys ih =>
    rcases List.mem_cons.mp h with rfl | h
    · exact Nat.le_max_left _ _
    · exact (ih h).trans (Nat.le_max_right _ _)

lemma le_depthItems {p : String × Val} {kvs : List (String × Val)} (h : p ∈ kvs) :
    p.2.depth ≤ depthItems kvs := by
  induction kvs with
  | nil => simp at h
  | cons q kvs ih =>
    rcases List.mem_cons.mp h with rfl | h
    · exact Nat.le_max_left _ _
    · exact (ih h).trans (Nat.le_max_right _ _)

lemma depthList_le {xs : List Val} {n : ℕ} (h : ∀ x ∈ xs, x.depth ≤ n) : depthList xs ≤ n := by
  induction xs with
  | nil => exact Nat.zero_le _
  | cons x xs ih =>
    exact Nat.max_le.mpr ⟨h x List.mem_cons_self, ih fun y hy => h y (List.mem_cons_of_mem _ hy)⟩

lemma depthItems_le {kvs : List (String × Val)} {n : ℕ} (h : ∀ p ∈ kvs, p.2.depth ≤ n) :
    depthItems kvs ≤ n := by
  induction kvs with
  | nil => exact Nat.zero_le _
  | cons p kvs ih =>
    exact Nat.max_le.mpr ⟨h p List.mem_cons_self, ih fun y hy => h y (List.mem_cons_of_mem _ hy)⟩

/-- The value of a key is nested less deep than the dict. -/
lemma depth_lt_of_lookup {kvs : List (String × Val)} {k : String} {v : Val}
    (h : kvs.lookup k = some v) : v.depth < (dict kvs).depth :=
  Nat.lt_succ_of_le (le_depthItems (mem_of_lookup h))

/-! ### Python's equality and the trees -/

lemma pyEqItems_iff {xs ys : List (String × Val)} :
    pyEqItems xs ys = true ↔ ∀ p ∈ xs, ∃ w, ys.lookup p.1 = some w ∧ p.2.pyEq w = true := by
  induction xs with
  | nil => simp [pyEqItems]
  | cons p xs ih =>
    obtain ⟨k, v⟩ := p
    rw [pyEqItems, Bool.and_eq_true, ih, List.forall_mem_cons]
    refine and_congr_left fun _ => ?_
    cases ys.lookup k <;> simp

lemma pyEqList_iff {xs ys : List Val} :
    pyEqList xs ys = true ↔ List.Forall₂ (fun x y => x.pyEq y = true) xs ys := by
  induction xs generalizing ys with
  | nil => cases ys <;> simp [pyEqList]
  | cons x xs ih => cases ys <;> simp [pyEqList, ih]

/-- **Equal in Python means equal as trees.** -/
theorem pyEq_iff {v w : Val} (hv : v.wf = true) (hw : w.wf = true) :
    v.pyEq w = true ↔ v.sem = w.sem := by
  induction v using Val.ind generalizing w with
  | null => cases w <;> simp [pyEq, sem, num?]
  | bool b => cases w <;> simp [pyEq, sem, num?]
  | int n => cases w <;> simp [pyEq, sem, num?]
  | float q => cases w <;> simp [pyEq, sem, num?]
  | str s => cases w <;> simp [pyEq, sem, num?]
  | list xs ih =>
    cases w with
    | list ys =>
      have key : List.Forall₂ (fun x y => x.pyEq y = true) xs ys ↔ xs.map sem = ys.map sem := by
        rw [← List.forall₂_eq_eq_eq, List.forall₂_map_left_iff, List.forall₂_map_right_iff]
        have hx := wf_list_iff.mp hv
        have hy := wf_list_iff.mp hw
        clear hv hw
        induction xs generalizing ys with
        | nil => cases ys <;> simp
        | cons x xs ihx =>
          cases ys with
          | nil => simp
          | cons y ys =>
            simp only [List.forall_mem_cons] at hx hy ih
            rw [List.forall₂_cons, List.forall₂_cons]
            exact and_congr (ih.1 hx.1 hy.1) (ihx ih.2 ys hx.2 hy.2)
      rw [pyEq, pyEqList_iff, key]
      simp
    | _ => simp [pyEq, sem, num?]
  | dict xs ih =>
    cases w with
    | dict ys =>
      obtain ⟨hxs, hxv⟩ := wf_dict_iff.mp hv
      obtain ⟨hys, hyv⟩ := wf_dict_iff.mp hw
      rw [pyEq, Bool.and_eq_true, beq_iff_eq, pyEqItems_iff, sem_dict, sem_dict]
      simp only [Tree.node.injEq]
      constructor
      · rintro ⟨hlen, h⟩
        have hsub : ∀ k ∈ keys xs, k ∈ keys ys := by
          intro k hk
          obtain ⟨p, hp, rfl⟩ := List.mem_map.mp hk
          obtain ⟨w, hw, -⟩ := h p hp
          exact mem_keys_of_lookup hw
        funext k
        rcases hx : xs.lookup k with _ | v
        · rcases hy : ys.lookup k with _ | w
          · rfl
          · have := keys_subset_antisymm hxs hsub hlen (mem_keys_of_lookup hy)
            exact absurd this (lookup_eq_none_iff.mp hx)
        · obtain ⟨w, hw, he⟩ := h (k, v) (mem_of_lookup hx)
          rw [hw, Option.map_some, Option.map_some,
            (ih (k, v) (mem_of_lookup hx) (hxv _ (mem_of_lookup hx)) (hyv _ (mem_of_lookup hw))).mp he]
      · intro h
        have hk : ∀ k, k ∈ keys xs ↔ k ∈ keys ys := by
          intro k
          have := congrArg Option.isSome (congrFun h k)
          simp only [Option.isSome_map] at this
          rw [← lookup_isSome_iff, ← lookup_isSome_iff, this]
        refine ⟨length_eq_of_keys hxs hys hk, ?_⟩
        rintro ⟨k, v⟩ hp
        have hx : xs.lookup k = some v := (lookup_eq_some_iff hxs).mpr hp
        have := congrFun h k
        rw [hx, Option.map_some] at this
        obtain ⟨w, hw, he⟩ := Option.map_eq_some_iff.mp this.symm
        exact ⟨w, hw, (ih (k, v) hp (hxv _ hp) (hyv _ (mem_of_lookup hw))).mpr he.symm⟩
    | _ => simp [pyEq, sem, num?]

lemma sem_isNode {v : Val} : v.sem.IsNode ↔ v.isDict = true := by
  cases v <;> simp [isDict, sem, Tree.IsNode]

lemma isDict_congr {v w : Val} (h : v.sem = w.sem) : v.isDict = w.isDict := by
  rw [Bool.eq_iff_iff, ← sem_isNode, ← sem_isNode, h]

/-- Equal values nest equally deep. -/
lemma depth_congr {v w : Val} (hv : v.wf = true) (hw : w.wf = true) (h : v.sem = w.sem) :
    v.depth = w.depth := by
  have key : ∀ v : Val, ∀ w : Val, v.wf = true → w.wf = true → v.sem = w.sem → v.depth ≤ w.depth := by
    intro v
    induction v using Val.ind with
    | list xs ih =>
      intro w hv hw h
      cases w with
      | list ys =>
        simp only [sem_list, Tree.list.injEq] at h
        rw [depth, depth]
        refine Nat.succ_le_succ (depthList_le fun x hx => ?_)
        have : x.sem ∈ ys.map sem := h ▸ List.mem_map_of_mem hx
        obtain ⟨y, hy, he⟩ := List.mem_map.mp this
        exact (ih x hx y (wf_list_iff.mp hv x hx) (wf_list_iff.mp hw y hy) he.symm).trans (le_depthList hy)
      | _ => simp [sem] at h
    | dict xs ih =>
      intro w hv hw h
      cases w with
      | dict ys =>
        simp only [sem_dict, Tree.node.injEq] at h
        rw [depth, depth]
        refine Nat.succ_le_succ (depthItems_le fun p hp => ?_)
        have hx := (lookup_eq_some_iff (wf_dict_iff.mp hv).1).mpr hp
        have := congrFun h p.1
        rw [hx, Option.map_some] at this
        obtain ⟨y, hy, he⟩ := Option.map_eq_some_iff.mp this.symm
        exact (ih p hp y ((wf_dict_iff.mp hv).2 p hp) (wf_of_lookup hw hy) he.symm).trans
          (le_depthItems (mem_of_lookup hy))
      | _ => simp [sem] at h
    | _ => intros; exact Nat.zero_le _
  exact Nat.le_antisymm (key v w hv hw h) (key w v hw hv h.symm)

end Val

/-- A dict of plain builtins, without double keys anywhere inside. -/
structure Dict where
  items : List (String × Val)
  wf : (Val.dict items).wf = true

namespace Dict

/-- The dict as a value. -/
abbrev val (d : Dict) : Val := .dict d.items

/-- `{}`. -/
def empty : Dict := ⟨[], rfl⟩

/-- Python's `==` on dicts. -/
def pyEq (d e : Dict) : Bool := d.val.pyEq e.val

lemma pyEq_iff {d e : Dict} : d.pyEq e = true ↔ d.val.sem = e.val.sem := Val.pyEq_iff d.wf e.wf

/-- The value as a dict, if it is one. -/
def ofVal : Val → Option Dict
  | .dict items => if h : (Val.dict items).wf = true then some ⟨items, h⟩ else none
  | _ => none

lemma ofVal_val (d : Dict) : ofVal d.val = some d := by
  rw [ofVal, dif_pos d.wf]

lemma ofVal_eq_some {v : Val} {d : Dict} : ofVal v = some d ↔ v = d.val := by
  refine ⟨fun h => ?_, fun h => h ▸ ofVal_val d⟩
  unfold ofVal at h
  split at h
  · split at h
    · rw [← Option.some.inj h]
    · simp at h
  · simp at h

lemma exists_of_val {v : Val} (h : v.isDict = true) (hw : v.wf = true) : ∃ d : Dict, v = d.val := by
  obtain ⟨items, rfl⟩ := Val.exists_of_isDict h
  exact ⟨⟨items, hw⟩, rfl⟩

end Dict

end Kanta
