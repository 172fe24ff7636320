import Kanta.Patch

/-!
# The shape of a diff

`rawDiff` and `unmarshal` are loops that insert into a dict.  Here they are read as lists of items:
the diff of two dicts is its `$delete` entry followed by the entries of the added and the changed
keys, and unescaping maps over the items.  There is no diff exactly between equal states.
-/

namespace Kanta

open Kanta.Lib Kanta.Lib.Assoc

/-! ### Escaping -/

lemma startsWith_iff {p s : String} : startsWith p s = true ↔ ∃ t, s = p ++ t := by
  rw [startsWith, List.isPrefixOf_iff_prefix]
  constructor
  · rintro ⟨t, ht⟩
    exact ⟨String.ofList t, String.toList_injective (by simp [ht])⟩
  · rintro ⟨t, rfl⟩
    exact ⟨t.toList, by simp⟩

lemma unescape_double (t : String) : unescape ("$$" ++ t) = "$" ++ t := by
  have h : startsWith "$$" ("$$" ++ t) = true := startsWith_iff.mpr ⟨t, rfl⟩
  rw [unescape, if_pos h]
  apply String.toList_injective
  simp

lemma unescape_of_not {s : String} (h : startsWith "$$" s = false) : unescape s = s := by
  simp [unescape, h]

lemma startsWith_single_of_double {s : String} (h : startsWith "$$" s = true) :
    startsWith "$" s = true := by
  obtain ⟨t, rfl⟩ := startsWith_iff.mp h
  exact startsWith_iff.mpr ⟨"$" ++ t, by rw [← String.append_assoc]; rfl⟩

@[simp] lemma unescape_escapeKey (k : String) : unescape (escapeKey k) = k := by
  unfold escapeKey
  split
  · obtain ⟨t, rfl⟩ := startsWith_iff.mp ‹_›
    rw [← String.append_assoc]
    exact unescape_double t
  · rename_i h
    refine unescape_of_not ?_
    by_contra h'
    exact h (startsWith_single_of_double (by simpa using h'))

lemma escapeKey_injective : Function.Injective escapeKey := fun a b h => by
  rw [← unescape_escapeKey a, h, unescape_escapeKey]

lemma escapeKey_ne_delete (k : String) : escapeKey k ≠ "$delete" := by
  intro h
  have : k = "$delete" := by
    rw [← unescape_escapeKey k, h]
    exact unescape_of_not (by decide)
  subst this
  exact absurd h (by decide)

/-! ### The shape of a diff -/

/-- The entry of a diff for one item of the current dict, if it has one. -/
def change (previous : List (String × Val)) (item : String × Val) : Option (String × Val) :=
  match previous.lookup item.1 with
  | none => some (item.1, item.2)
  | some old => (rawDiff old item.2).map fun sub => (item.1, sub)

lemma change_key {previous : List (String × Val)} {item entry : String × Val}
    (h : change previous item = some entry) : entry.1 = item.1 := by
  unfold change at h
  split at h
  · simpa using (congrArg Prod.fst (Option.some.inj h)).symm
  · obtain ⟨sub, -, rfl⟩ := Option.map_eq_some_iff.mp h
    rfl

lemma change_eq_some {previous : List (String × Val)} {k : String} {v u : Val} :
    change previous (k, v) = some (k, u) ↔
      (previous.lookup k = none ∧ u = v) ∨
        ∃ old, previous.lookup k = some old ∧ rawDiff old v = some u := by
  unfold change
  cases h : previous.lookup k <;> simp [eq_comm]

/-- The entries of a diff under the unescaped keys. -/
def changes (previous current : List (String × Val)) : List (String × Val) :=
  current.filterMap (change previous)

lemma keys_changes_sublist (previous current : List (String × Val)) :
    (keys (changes previous current)).Sublist (keys current) := by
  induction current with
  | nil => exact List.Sublist.slnil
  | cons item current ih =>
    unfold changes at ih ⊢
    rcases h : change previous item with _ | entry
    · rw [List.filterMap_cons_none h]
      exact ih.cons _
    · rw [List.filterMap_cons_some h]
      simp only [keys, List.map_cons, change_key h]
      exact ih.cons_cons _

lemma nodup_changes {previous current : List (String × Val)} (h : (keys current).Nodup) :
    (keys (changes previous current)).Nodup :=
  h.sublist (keys_changes_sublist previous current)

lemma lookup_changes {previous current : List (String × Val)} (h : (keys current).Nodup)
    {k : String} {u : Val} :
    (changes previous current).lookup k = some u ↔
      ∃ v, current.lookup k = some v ∧ change previous (k, v) = some (k, u) := by
  rw [lookup_eq_some_iff (nodup_changes h), changes, List.mem_filterMap]
  constructor
  · rintro ⟨⟨j, v⟩, hj, hc⟩
    obtain rfl : k = j := change_key hc
    exact ⟨v, (lookup_eq_some_iff h).mpr hj, hc⟩
  · rintro ⟨v, hv, hc⟩
    exact ⟨(k, v), mem_of_lookup hv, hc⟩

/-- The keys a diff deletes. -/
def deletedKeys (previous current : List (String × Val)) : List String :=
  (keys previous).filter fun k => k ∉ keys current

lemma mem_deletedKeys {previous current : List (String × Val)} {k : String} :
    k ∈ deletedKeys previous current ↔ k ∈ keys previous ∧ k ∉ keys current := by
  simp [deletedKeys]

/-- The `$delete` entry, when there is one; `f` writes the keys. -/
def deleteEntry (f : String → String) (deleted : List String) : List (String × Val) :=
  if (deleted.map fun k => Val.str (f k)) = [] then []
  else [("$delete", .list (deleted.map fun k => .str (f k)))]

lemma keys_deleteEntry {f : String → String} {deleted : List String} {k : String}
    (h : k ∈ keys (deleteEntry f deleted)) : k = "$delete" := by
  unfold deleteEntry at h
  split at h <;> simp_all

lemma diffItems_eq {previous current : List (String × Val)} {result : List (String × Val)}
    (h : (keys (result ++ (changes previous current).map fun p => (escapeKey p.1, p.2))).Nodup) :
    diffItems previous current result =
      result ++ (changes previous current).map fun p => (escapeKey p.1, p.2) := by
  induction current generalizing result with
  | nil => simp [diffItems, changes]
  | cons item current ih =>
    obtain ⟨key, newValue⟩ := item
    -- the entry of this item, when there is one, goes to the end of the result
    have hput : ∀ u, changes previous ((key, newValue) :: current) = (key, u) :: changes previous current →
        diffItems previous current (put (escapeKey key) u result) =
          result ++ (changes previous ((key, newValue) :: current)).map fun p => (escapeKey p.1, p.2) := by
      intro u hu
      rw [hu] at h ⊢
      have hk : escapeKey key ∉ keys result := by
        simp only [keys, List.map_append, List.map_cons, List.nodup_append] at h
        exact fun hm => h.2.2 _ hm _ List.mem_cons_self rfl
      rw [put_of_notMem hk, ih (by simpa using h)]
      simp
    unfold diffItems
    rcases hl : previous.lookup key with _ | old
    · exact hput newValue (List.filterMap_cons_some (by simp [change, hl]))
    · rcases hd : rawDiff old newValue with _ | sub
      · have : changes previous ((key, newValue) :: current) = changes previous current :=
          List.filterMap_cons_none (by simp [change, hl, hd])
        simp only [hd, this] at h ⊢
        exact ih h
      · simp only [hd]
        exact hput sub (List.filterMap_cons_some (by simp [change, hl, hd]))

/-- The items of the diff of two dicts. -/
def diffEntries (previous current : List (String × Val)) : List (String × Val) :=
  deleteEntry escapeKey (deletedKeys previous current) ++
    (changes previous current).map fun p => (escapeKey p.1, p.2)

lemma nodup_diffEntries {previous current : List (String × Val)} (h : (keys current).Nodup) :
    (keys (diffEntries previous current)).Nodup := by
  have hch : (keys ((changes previous current).map fun p => (escapeKey p.1, p.2))).Nodup := by
    simp only [keys, List.map_map]
    have hn : (keys (changes previous current)).Nodup := nodup_changes h
    have := hn.map escapeKey_injective
    rw [keys, List.map_map] at this
    exact this
  simp only [diffEntries, keys, List.map_append]
  refine List.nodup_append.mpr ⟨?_, hch, fun a ha b hb => ?_⟩
  · unfold deleteEntry
    split <;> simp
  · rw [keys_deleteEntry ha]
    obtain ⟨q, hq, rfl⟩ := List.mem_map.mp hb
    obtain ⟨q', -, rfl⟩ := List.mem_map.mp hq
    exact (escapeKey_ne_delete q'.1).symm

lemma rawDiff_dict {previous current : List (String × Val)} (h : (keys current).Nodup) :
    rawDiff (.dict previous) (.dict current) =
      if diffEntries previous current = [] then none else some (.dict (diffEntries previous current)) := by
  have e : diffItems previous current (deleteEntry escapeKey (deletedKeys previous current)) =
      diffEntries previous current := diffItems_eq (nodup_diffEntries h)
  rw [← e]
  rfl

/-! ### No difference -/

lemma diffEntries_eq_nil {previous current : List (String × Val)} :
    diffEntries previous current = [] ↔
      (∀ k ∈ keys previous, k ∈ keys current) ∧ ∀ item ∈ current, change previous item = none := by
  have hdel : deleteEntry escapeKey (deletedKeys previous current) = [] ↔
      deletedKeys previous current = [] := by
    simp [deleteEntry]
  rw [diffEntries, List.append_eq_nil_iff, List.map_eq_nil_iff, hdel, changes,
    List.filterMap_eq_nil_iff, deletedKeys, List.filter_eq_nil_iff]
  simp

/-- **There is no diff exactly between equal states.** -/
theorem rawDiff_eq_none {prev cur : Val} (hp : prev.wf = true) (hc : cur.wf = true) :
    rawDiff prev cur = none ↔ prev.sem = cur.sem := by
  induction cur using Val.ind generalizing prev with
  | dict c ih =>
    cases prev with
    | dict p =>
      obtain ⟨hcn, hcv⟩ := Val.wf_dict_iff.mp hc
      have hchange : ∀ item ∈ c, change p item = none ↔
          ∃ old, p.lookup item.1 = some old ∧ old.sem = item.2.sem := by
        rintro ⟨k, v⟩ hm
        simp only [change]
        rcases hl : p.lookup k with _ | old
        · simp
        · simpa using ih (k, v) hm (Val.wf_of_lookup hp hl) (hcv _ hm)
      rw [rawDiff_dict hcn, ite_eq_left_iff, Val.sem_dict, Val.sem_dict]
      simp only [reduceCtorEq, imp_false, not_not, Tree.node.injEq, diffEntries_eq_nil]
      constructor
      · rintro ⟨hsub, hall⟩
        funext k
        rcases hk : c.lookup k with _ | v
        · have : p.lookup k = none :=
            lookup_eq_none_iff.mpr fun h => lookup_eq_none_iff.mp hk (hsub k h)
          rw [this]
        · obtain ⟨old, ho, he⟩ := (hchange (k, v) (mem_of_lookup hk)).mp (hall _ (mem_of_lookup hk))
          rw [ho, Option.map_some, Option.map_some, he]
      · intro h
        constructor
        · intro k hk
          have := congrArg Option.isSome (congrFun h k)
          simp only [Option.isSome_map] at this
          rwa [← lookup_isSome_iff, ← this, lookup_isSome_iff]
        · rintro ⟨k, v⟩ hm
          have := congrFun h k
          rw [(lookup_eq_some_iff hcn).mpr hm, Option.map_some] at this
          obtain ⟨old, ho, he⟩ := Option.map_eq_some_iff.mp this
          exact (hchange (k, v) hm).mpr ⟨old, ho, he⟩
    | _ => simp [rawDiff, Val.pyEq, Val.sem, Val.num?]
  | _ => cases prev <;> simp [rawDiff, Val.pyEq_iff hp hc]

/-! ### Unescaping a whole value -/

/-- No key and no string of the value itself starts with `start`. -/
def freeOf (start : String) : Val → Bool
  | .str s => !startsWith start s
  | .dict kvs => (keys kvs).all fun k => !startsWith start k
  | _ => true

/-- No key and no string anywhere inside starts with `$`. -/
def dollarFree (v : Val) : Bool := v.all (freeOf "$")

/-- No key and no string anywhere inside starts with `$$`. -/
def doubleFree (v : Val) : Bool := v.all (freeOf "$$")

lemma doubleFree_list_iff {xs : List Val} :
    doubleFree (.list xs) = true ↔ ∀ x ∈ xs, doubleFree x = true := by
  simp [doubleFree, Val.all_list_iff, freeOf]

lemma doubleFree_dict_iff {kvs : List (String × Val)} :
    doubleFree (.dict kvs) = true ↔
      (∀ k ∈ keys kvs, startsWith "$$" k = false) ∧ ∀ q ∈ kvs, doubleFree q.2 = true := by
  simp [doubleFree, Val.all_dict_iff, freeOf]

lemma dollarFree_list_iff {xs : List Val} :
    dollarFree (.list xs) = true ↔ ∀ x ∈ xs, dollarFree x = true := by
  simp [dollarFree, Val.all_list_iff, freeOf]

lemma dollarFree_dict_iff {kvs : List (String × Val)} :
    dollarFree (.dict kvs) = true ↔
      (∀ k ∈ keys kvs, startsWith "$" k = false) ∧ ∀ q ∈ kvs, dollarFree q.2 = true := by
  simp [dollarFree, Val.all_dict_iff, freeOf]

lemma doubleFree_of_dollarFree {v : Val} (h : dollarFree v = true) : doubleFree v = true := by
  have hs : ∀ s, startsWith "$" s = false → startsWith "$$" s = false := fun s hs => by
    by_contra h'
    simp [startsWith_single_of_double (by simpa using h')] at hs
  induction v using Val.ind with
  | str s => simpa [doubleFree, dollarFree, Val.all, freeOf] using hs s (by
      simpa [dollarFree, Val.all, freeOf] using h)
  | list xs ih =>
    rw [dollarFree_list_iff] at h
    exact doubleFree_list_iff.mpr fun x hx => ih x hx (h x hx)
  | dict kvs ih =>
    rw [dollarFree_dict_iff] at h
    exact doubleFree_dict_iff.mpr ⟨fun k hk => hs k (h.1 k hk), fun q hq => ih q hq (h.2 q hq)⟩
  | _ => rfl

/-- An item under its unescaped key. -/
def unescapeItem (p : String × Val) : String × Val := (unescape p.1, unmarshal p.2)

lemma unmarshalList_eq (xs : List Val) : unmarshalList xs = xs.map unmarshal := by
  induction xs with
  | nil => rfl
  | cons x xs ih => rw [unmarshalList, ih, List.map_cons]

lemma unmarshalItems_eq (kvs result : List (String × Val)) :
    unmarshalItems kvs result = (kvs.map unescapeItem).foldl (fun d p => put p.1 p.2 d) result := by
  induction kvs generalizing result with
  | nil => rfl
  | cons p kvs ih =>
    obtain ⟨k, v⟩ := p
    rw [unmarshalItems, ih]
    rfl

lemma unmarshal_list (xs : List Val) : unmarshal (.list xs) = .list (xs.map unmarshal) := by
  rw [unmarshal, unmarshalList_eq]

lemma wf_unmarshal {v : Val} (h : v.wf = true) : (unmarshal v).wf = true := by
  induction v using Val.ind with
  | list xs ih =>
    rw [unmarshal_list, Val.wf_list_iff]
    intro y hy
    obtain ⟨x, hx, rfl⟩ := List.mem_map.mp hy
    exact ih x hx (Val.wf_list_iff.mp h x hx)
  | dict kvs ih =>
    rw [unmarshal, unmarshalItems_eq, Val.wf_dict_iff]
    refine ⟨nodup_foldl_put (by simp), fun q hq => ?_⟩
    rcases mem_foldl_put hq with hq | hq
    · obtain ⟨p, hp, rfl⟩ := List.mem_map.mp hq
      exact ih p hp ((Val.wf_dict_iff.mp h).2 p hp)
    · simp at hq
  | _ => exact h

lemma depth_unmarshal_le (v : Val) : (unmarshal v).depth ≤ v.depth := by
  induction v using Val.ind with
  | list xs ih =>
    rw [unmarshal_list, Val.depth, Val.depth]
    refine Nat.succ_le_succ (Val.depthList_le fun y hy => ?_)
    obtain ⟨x, hx, rfl⟩ := List.mem_map.mp hy
    exact (ih x hx).trans (Val.le_depthList hx)
  | dict kvs ih =>
    rw [unmarshal, unmarshalItems_eq, Val.depth, Val.depth]
    refine Nat.succ_le_succ (Val.depthItems_le fun q hq => ?_)
    rcases mem_foldl_put hq with hq | hq
    · obtain ⟨p, hp, rfl⟩ := List.mem_map.mp hq
      exact (ih p hp).trans (Val.le_depthItems hp)
    · simp at hq
  | _ => exact Nat.le_refl _

/-- Unescaping leaves a value without `$$` as it is. -/
lemma unmarshal_of_doubleFree {v : Val} (hv : v.wf = true) (h : doubleFree v = true) :
    unmarshal v = v := by
  induction v using Val.ind with
  | str s => simpa [unmarshal] using unescape_of_not (by simpa [doubleFree, Val.all, freeOf] using h)
  | list xs ih =>
    rw [unmarshal_list]
    congr 1
    refine (List.map_congr_left fun x hx => ?_).trans (List.map_id xs)
    exact ih x hx (Val.wf_list_iff.mp hv x hx) (doubleFree_list_iff.mp h x hx)
  | dict kvs ih =>
    obtain ⟨hn, hvs⟩ := Val.wf_dict_iff.mp hv
    obtain ⟨hk, hd⟩ := doubleFree_dict_iff.mp h
    have e : kvs.map unescapeItem = kvs := by
      refine (List.map_congr_left fun p hp => ?_).trans (List.map_id kvs)
      rw [unescapeItem, unescape_of_not (hk _ (List.mem_map_of_mem hp)), ih p hp (hvs p hp) (hd p hp)]
      rfl
    rw [unmarshal, unmarshalItems_eq, e, foldl_put_eq_append (by simpa using hn), List.nil_append]
  | _ => rfl

end Kanta
