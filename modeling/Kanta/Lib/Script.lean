import Kanta.Lib.Tree
import Mathlib.Data.List.Perm.Basic

/-!
# Edit scripts over trees

An edit sets or removes what is at a path.  `Script l x y` says that the list `l` of edits, read from
the root down, is exactly what takes `x` to `y`: there is nothing to do, or the whole value is replaced,
or both are nodes and below each key stands a script for the values of that key.  Two facts are proved:

* `Script.run_eq`: applied in any order, the edits lead from `x` to `y`;
* `Script.apart`: no path of the script is a prefix of another one.
-/

namespace Kanta.Lib.Tree

universe u v

variable {κ : Type u} {α : Type v} [DecidableEq κ]

/-- What is at a path is set, or removed; where the path leads out of the tree nothing happens. -/
def edit (new : Option (Tree κ α)) : List κ → Option (Tree κ α) → Option (Tree κ α)
  | [], _ => new
  | k :: path, some (node f) => some (node (Function.update f k (edit new path (f k))))
  | _ :: _, t => t

/-- The edits one after another. -/
def run (l : List (List κ × Option (Tree κ α))) (t : Option (Tree κ α)) : Option (Tree κ α) :=
  l.foldl (fun t e => edit e.2 e.1 t) t

/-- What an edit does inside the value of a key. -/
def insideOf {β : Type*} (k : κ) : List κ × β → Option (List κ × β)
  | ([], _) => none
  | (j :: path, b) => if j = k then some (path, b) else none

/-- What a list of edits does inside the value of a key. -/
def inside {β : Type*} (k : κ) (l : List (List κ × β)) : List (List κ × β) := l.filterMap (insideOf k)

/-- The edits are what takes the one tree to the other. -/
inductive Script : List (List κ × Option (Tree κ α)) → Option (Tree κ α) → Option (Tree κ α) → Prop
  | nil (x : Option (Tree κ α)) : Script [] x x
  | put (x y : Option (Tree κ α)) : Script [([], y)] x y
  | node {l : List (List κ × Option (Tree κ α))} (f g : κ → Option (Tree κ α)) (hne : ∀ e ∈ l, e.1 ≠ [])
      (h : ∀ k, Script (inside k l) (f k) (g k)) : Script l (some (node f)) (some (node g))

/-! ### Below a key -/

section

variable {β : Type*}

/-- Edits that are written key by key are found again below the keys. -/
lemma inside_flatMap {ks : List κ} (hks : ks.Nodup) (ls : κ → List (List κ × β)) (k : κ) :
    inside k (ks.flatMap fun j => (ls j).map fun e => (j :: e.1, e.2)) = if k ∈ ks then ls k else [] := by
  have hone : ∀ j, inside k ((ls j).map fun e => (j :: e.1, e.2)) = if j = k then ls j else [] := by
    intro j
    rw [inside, List.filterMap_map]
    by_cases hj : j = k
    · rw [if_pos hj]
      exact (List.filterMap_congr fun e _ => by simp [insideOf, hj]).trans List.filterMap_some
    · rw [if_neg hj]
      exact List.filterMap_eq_nil_iff.mpr fun e _ => by simp [insideOf, hj]
  induction ks with
  | nil => rfl
  | cons j ks ih =>
    obtain ⟨hj, hks⟩ := List.nodup_cons.mp hks
    rw [List.flatMap_cons, inside, List.filterMap_append, ← inside, ← inside, hone, ih hks]
    by_cases hjk : j = k
    · subst hjk
      rw [if_pos rfl, if_neg hj, List.append_nil, if_pos List.mem_cons_self]
    · rw [if_neg hjk, List.nil_append, if_congr (show k ∈ j :: ks ↔ k ∈ ks by simp [Ne.symm hjk]) rfl rfl]

end

/-! ### Running a script -/

lemma run_node {l : List (List κ × Option (Tree κ α))} (hne : ∀ e ∈ l, e.1 ≠ [])
    (f : κ → Option (Tree κ α)) :
    run l (some (node f)) = some (node fun k => run (inside k l) (f k)) := by
  induction l generalizing f with
  | nil => rfl
  | cons e l ih =>
    obtain ⟨path, new⟩ := e
    cases path with
    | nil => exact (hne _ List.mem_cons_self rfl).elim
    | cons j path =>
      rw [run, List.foldl_cons, ← run, edit, ih fun e he => hne e (List.mem_cons_of_mem _ he)]
      refine congrArg (fun g => some (node g)) (funext fun k => ?_)
      by_cases hk : j = k
      · subst hk
        have he : insideOf j (j :: path, new) = some (path, new) := by simp [insideOf]
        rw [Function.update_self, inside, inside, List.filterMap_cons_some he]
        rfl
      · rw [Function.update_of_ne (Ne.symm hk), inside, inside, List.filterMap_cons_none (by simp [insideOf, hk])]

/-- **A script leads from the one tree to the other**, in whichever order its edits are applied. -/
theorem Script.run_eq {l l' : List (List κ × Option (Tree κ α))} {x y : Option (Tree κ α)} (h : Script l x y)
    (hperm : l'.Perm l) : run l' x = y := by
  induction h generalizing l' with
  | nil x => rw [hperm.eq_nil]; rfl
  | put x y => rw [List.perm_singleton.mp hperm]; rfl
  | node f g hne h ih =>
    rw [run_node fun e he => hne e (hperm.mem_iff.mp he)]
    exact congrArg (fun g => some (Tree.node g)) (funext fun k => ih k (hperm.filterMap _))

/-- **No path of a script is a prefix of another one.** -/
theorem Script.apart {l : List (List κ × Option (Tree κ α))} {x y : Option (Tree κ α)} (h : Script l x y) :
    l.Pairwise fun a b => ¬a.1 <+: b.1 ∧ ¬b.1 <+: a.1 := by
  induction h with
  | nil x => exact List.Pairwise.nil
  | put x y => exact List.pairwise_singleton _ _
  | @node l f g hne h ih =>
    refine List.pairwise_iff_forall_sublist.mpr fun {a b} hab => ?_
    have ha := hne a (hab.subset (by simp))
    have hb := hne b (hab.subset (by simp))
    obtain ⟨_ | ⟨j, p⟩, u⟩ := a
    · exact (ha rfl).elim
    obtain ⟨_ | ⟨k, q⟩, v⟩ := b
    · exact (hb rfl).elim
    by_cases hjk : j = k
    · subst hjk
      have hsub : [(p, u), (q, v)].Sublist (inside j l) := by
        have := hab.filterMap (insideOf j)
        simpa only [inside, insideOf, List.filterMap_cons, List.filterMap_nil, if_true] using this
      have := List.pairwise_iff_forall_sublist.mp (ih j) hsub
      simpa using this
    · simp [hjk, Ne.symm hjk]

end Kanta.Lib.Tree
