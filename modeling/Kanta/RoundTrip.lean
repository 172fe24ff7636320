import Kanta.ApplyLemmas
import Mathlib.Data.List.MinMax

/-!
# What a diff restores

`patch prev (diff prev cur)` is `cur` for some pairs of states and not for others.  The predicate
`restores prev cur` reads off the two states alone whether it is, and `apply_rawDiff_iff` proves
that it says exactly that, for all states.  It has two halves:

* `typeChangesOk`: no object takes the place of something else in a form the consumer reads as an
  edit of the old value;
* `escapesOk`: no change is under a key that reads as a command, and none assigns a key or a string
  that loses a `$` on the way.
-/

namespace Kanta

open Kanta.Lib Kanta.Lib.Assoc

/-! ### The diff as the consumer sees it -/

/-- The changed keys of two dicts with what the unescaped diff has under them. -/
def unescapedChanges (previous current : List (String × Val)) : List (String × Val) :=
  (changes previous current).map fun p => (p.1, unmarshal p.2)

lemma keys_unescapedChanges (previous current : List (String × Val)) :
    keys (unescapedChanges previous current) = keys (changes previous current) := by
  simp [unescapedChanges, keys, Function.comp_def]

lemma lookup_unescapedChanges (previous current : List (String × Val)) (k : String) :
    (unescapedChanges previous current).lookup k = ((changes previous current).lookup k).map unmarshal := by
  unfold unescapedChanges
  induction changes previous current with
  | nil => rfl
  | cons p l ih =>
    obtain ⟨j, v⟩ := p
    rw [List.map_cons, lookup_cons_if, lookup_cons_if, ih]
    split <;> rfl

/-- The items of the unescaped diff of two dicts. -/
def unescapedDiff (previous current : List (String × Val)) : List (String × Val) :=
  (unescapedChanges previous current).foldl (fun d p => put p.1 p.2 d)
    (deleteEntry id (deletedKeys previous current))

lemma unescapeItem_deleteEntry {deleted : List String} :
    ((deleteEntry escapeKey deleted).map unescapeItem).foldl (fun d p => put p.1 p.2 d) [] =
      deleteEntry id deleted := by
  have hdel : unescape "$delete" = "$delete" := unescape_of_not (by decide)
  unfold deleteEntry
  by_cases h : deleted = []
  · simp [h]
  · have hlist : (deleted.map fun k => Val.str (escapeKey k)).map unmarshal = deleted.map Val.str := by
      simp [Function.comp_def, unmarshal]
    simp [h, unescapeItem, hdel, unmarshal_list, hlist, put]

lemma unmarshal_rawDiff {previous current : List (String × Val)} :
    unmarshal (.dict (diffEntries previous current)) = .dict (unescapedDiff previous current) := by
  rw [unmarshal, unmarshalItems_eq, diffEntries, List.map_append, List.foldl_append,
    unescapeItem_deleteEntry, unescapedDiff]
  congr 2
  simp [unescapedChanges, unescapeItem]

lemma lookup_unescapedDiff {previous current : List (String × Val)} (h : (keys current).Nodup)
    (k : String) :
    (unescapedDiff previous current).lookup k =
      (((changes previous current).lookup k).map unmarshal).or
        ((deleteEntry id (deletedKeys previous current)).lookup k) := by
  have hn : (keys (unescapedChanges previous current)).Nodup := by
    rw [keys_unescapedChanges]
    exact nodup_changes h
  rw [unescapedDiff, lookup_foldl_put hn, lookup_unescapedChanges]

lemma lookup_unescapedDiff_of_ne {previous current : List (String × Val)} (h : (keys current).Nodup)
    {k : String} (hk : k ≠ "$delete") :
    (unescapedDiff previous current).lookup k =
      ((changes previous current).lookup k).map unmarshal := by
  have : (deleteEntry id (deletedKeys previous current)).lookup k = none :=
    lookup_eq_none_iff.mpr fun h => hk (keys_deleteEntry h)
  rw [lookup_unescapedDiff h, this, Option.or_none]

lemma unescapedDiff_ne_nil {previous current : List (String × Val)}
    (h : diffEntries previous current ≠ []) : unescapedDiff previous current ≠ [] := by
  intro hd
  obtain ⟨hch, hdel⟩ := foldl_put_eq_nil.mp hd
  have hch : changes previous current = [] := by simpa [unescapedChanges] using hch
  have : deletedKeys previous current = [] := by simpa [deleteEntry] using hdel
  exact h (by simp [diffEntries, hch, this, deleteEntry])

lemma rawDiff_of_not_dict {prev cur d : Val} (h : rawDiff prev cur = some d)
    (hn : prev.isDict = false ∨ cur.isDict = false) : d = cur := by
  cases prev <;> cases cur <;> simp_all [rawDiff, Val.isDict]

/-- A `$replace` key inside a diff never stands for the state the diff leads to. -/
lemma replace_ne {prev cur d r : Val} {diff : List (String × Val)} (hp : prev.wf = true)
    (hc : cur.wf = true) (h : rawDiff prev cur = some d) (hd : unmarshal d = .dict diff)
    (hr : diff.lookup "$replace" = some r) : r.sem ≠ cur.sem := by
  induction cur using Val.ind generalizing prev d r diff with
  | dict c ih =>
    have hcn := (Val.wf_dict_iff.mp hc).1
    cases prev with
    | dict p =>
      rw [rawDiff_dict hcn] at h
      split at h
      · simp at h
      · obtain rfl : Val.dict (diffEntries p c) = d := by simpa using h
        obtain rfl : unescapedDiff p c = diff := by simpa [unmarshal_rawDiff] using hd
        rw [lookup_unescapedDiff_of_ne hcn (by decide)] at hr
        obtain ⟨u, hu, rfl⟩ := Option.map_eq_some_iff.mp hr
        obtain ⟨v, hv, hch⟩ := (lookup_changes hcn).mp hu
        have hvw := Val.wf_of_lookup hc hv
        rcases change_eq_some.mp hch with ⟨-, rfl⟩ | ⟨old, ho, hu'⟩
        · -- a new value is too small
          intro e
          have := Val.depth_congr (wf_unmarshal hvw) hc e
          have := depth_unmarshal_le u
          have := Val.depth_lt_of_lookup hv
          omega
        · -- a changed value would have to hold a `$replace` of its own
          intro e
          cases hm : unmarshal u with
          | dict diff' =>
            rw [hm, Val.sem_dict, Val.sem_dict, Tree.node.injEq] at e
            have e := congrFun e "$replace"
            rw [hv, Option.map_some] at e
            obtain ⟨r', hr', e⟩ := Option.map_eq_some_iff.mp e
            exact ih ("$replace", v) (mem_of_lookup hv) (Val.wf_of_lookup hp ho) hvw hu' hm hr' e
          | _ => simp [hm, Val.sem] at e
    | _ =>
      obtain rfl := rawDiff_of_not_dict h (Or.inl rfl)
      intro e
      have hw := wf_unmarshal hc
      have hlt := Val.depth_lt_of_lookup hr
      rw [← hd] at hlt
      have := Val.depth_congr (Val.wf_of_lookup (hd ▸ hw) hr) hc e
      have := depth_unmarshal_le (Val.dict c)
      omega
  | _ =>
    obtain rfl := rawDiff_of_not_dict h (Or.inr rfl)
    simp [unmarshal] at hd

/-! ### When the consumer gives the state back -/

/-- The keys that are commands of a diff. -/
def isReserved (k : String) : Bool := k = "$replace" || isCommand k

mutual
/-- Nothing becomes `{}`, and no list an object whose keys all read as positions. -/
def typeChangesOk : Val → Val → Bool
  | .dict previous, .dict current => typeChangesOkItems previous current
  | .list _, .dict current => !isListPatch current
  | _, .dict current => !current.isEmpty
  | _, _ => true
def typeChangesOkItems (previous : List (String × Val)) : List (String × Val) → Bool
  | [] => true
  | (key, value) :: rest =>
    (match previous.lookup key with
      | none => true
      | some old => typeChangesOk old value) && typeChangesOkItems previous rest
end

mutual
/-- No change is under a command key, and no new value has a key or a string that starts with
`$$`. -/
def escapesOk : Val → Val → Bool
  | .dict previous, .dict current => escapesOkItems previous current
  | .list _, .dict current => decide ("$replace" ∉ keys current) && doubleFree (.dict current)
  | _, .dict current => ((keys current).all fun k => !isReserved k) && doubleFree (.dict current)
  | _, current => doubleFree current
def escapesOkItems (previous : List (String × Val)) : List (String × Val) → Bool
  | [] => true
  | (key, value) :: rest =>
    (match previous.lookup key with
      | none => !isReserved key && doubleFree value
      | some old => old.pyEq value || (!isReserved key && escapesOk old value)) &&
    escapesOkItems previous rest
end

/-- Whether the diff from `previous` to `current`, where there is one, is read as it was meant. -/
def restores (previous current : Val) : Bool := typeChangesOk previous current && escapesOk previous current

lemma typeChangesOk_dict_iff {previous current : List (String × Val)} :
    typeChangesOk (.dict previous) (.dict current) = true ↔
      ∀ q ∈ current, ∀ old, previous.lookup q.1 = some old → typeChangesOk old q.2 = true := by
  rw [typeChangesOk]
  induction current with
  | nil => simp [typeChangesOkItems]
  | cons q current ih =>
    obtain ⟨k, v⟩ := q
    rw [typeChangesOkItems, Bool.and_eq_true, ih, List.forall_mem_cons]
    refine and_congr_left fun _ => ?_
    cases previous.lookup k <;> simp

lemma escapesOk_dict_iff {previous current : List (String × Val)} :
    escapesOk (.dict previous) (.dict current) = true ↔
      ∀ q ∈ current,
        (previous.lookup q.1 = none → isReserved q.1 = false ∧ doubleFree q.2 = true) ∧
        ∀ old, previous.lookup q.1 = some old →
          old.pyEq q.2 = true ∨ (isReserved q.1 = false ∧ escapesOk old q.2 = true) := by
  rw [escapesOk]
  induction current with
  | nil => simp [escapesOkItems]
  | cons q current ih =>
    obtain ⟨k, v⟩ := q
    rw [escapesOkItems, Bool.and_eq_true, ih, List.forall_mem_cons]
    refine and_congr_left fun _ => ?_
    cases previous.lookup k <;> simp

/-- Between equal values there is no change of type. -/
lemma typeChangesOk_of_eq {prev cur : Val} (hc : cur.wf = true) (h : prev.sem = cur.sem) :
    typeChangesOk prev cur = true := by
  induction cur using Val.ind generalizing prev with
  | dict c ih =>
    cases prev with
    | dict p =>
      obtain ⟨hcn, hcv⟩ := Val.wf_dict_iff.mp hc
      rw [typeChangesOk_dict_iff]
      intro q hq old ho
      rw [Val.sem_dict, Val.sem_dict, Tree.node.injEq] at h
      have e := congrFun h q.1
      rw [ho, (lookup_eq_some_iff hcn).mpr hq] at e
      exact ih q hq (hcv q hq) (by simpa using e)
    | _ => simp [Val.sem] at h
  | _ => cases prev <;> rfl

/-- An item that the diff mentions is not under a command key, and its new value gets through. -/
lemma restores_dict_iff {previous current : List (String × Val)}
    (hp : (Val.dict previous).wf = true) (hc : (Val.dict current).wf = true) :
    restores (.dict previous) (.dict current) = true ↔
      ∀ k v u, current.lookup k = some v → change previous (k, v) = some (k, u) →
        isReserved k = false ∧ (previous.lookup k = none → doubleFree v = true) ∧
          ∀ old, previous.lookup k = some old → restores old v = true := by
  have hcn := (Val.wf_dict_iff.mp hc).1
  rw [restores, Bool.and_eq_true, typeChangesOk_dict_iff, escapesOk_dict_iff]
  constructor
  · rintro ⟨ht, he⟩ k v u hk hch
    have ht := ht (k, v) (mem_of_lookup hk)
    have he := he (k, v) (mem_of_lookup hk)
    rcases change_eq_some.mp hch with ⟨hl, -⟩ | ⟨old, hl, hd⟩
    · exact ⟨(he.1 hl).1, fun _ => (he.1 hl).2, fun old ho => by simp [hl] at ho⟩
    · have hw := Val.wf_of_lookup hp hl
      have hv := Val.wf_of_lookup hc hk
      rcases he.2 old hl with e | e
      · rw [(rawDiff_eq_none hw hv).mpr ((Val.pyEq_iff hw hv).mp e)] at hd
        simp at hd
      · refine ⟨e.1, fun ho => by simp [hl] at ho, fun old' ho => ?_⟩
        obtain rfl : old = old' := by simpa [hl] using ho
        rw [restores, ht old hl, e.2]
        rfl
  · intro h
    -- an item without an entry in the diff has not changed
    have key : ∀ q ∈ current, ∀ old, previous.lookup q.1 = some old →
        old.sem = q.2.sem ∨ (isReserved q.1 = false ∧ restores old q.2 = true) := by
      rintro ⟨k, v⟩ hm old hl
      have hk := (lookup_eq_some_iff hcn).mpr hm
      rcases hd : rawDiff old v with _ | u
      · exact Or.inl ((rawDiff_eq_none (Val.wf_of_lookup hp hl) (Val.wf_of_lookup hc hk)).mp hd)
      · have := h k v u hk (change_eq_some.mpr (Or.inr ⟨old, hl, hd⟩))
        exact Or.inr ⟨this.1, this.2.2 old hl⟩
    refine ⟨fun q hq old hl => ?_, fun q hq => ⟨fun hl => ?_, fun old hl => ?_⟩⟩
    · rcases key q hq old hl with e | e
      · exact typeChangesOk_of_eq ((Val.wf_dict_iff.mp hc).2 q hq) e
      · exact (Bool.and_eq_true _ _ ▸ e.2).1
    · have := h q.1 q.2 q.2 ((lookup_eq_some_iff hcn).mpr hq) (change_eq_some.mpr (Or.inl ⟨hl, rfl⟩))
      exact ⟨this.1, this.2.1 hl⟩
    · rcases key q hq old hl with e | e
      · exact Or.inl ((Val.pyEq_iff (Val.wf_of_lookup hp hl) ((Val.wf_dict_iff.mp hc).2 q hq)).mpr e)
      · exact Or.inr ⟨e.1, (Bool.and_eq_true _ _ ▸ e.2).2⟩

/-- If every key is the unescaped form of a key, none starts with `$$`. -/
lemma no_double {ks : List String} (h : ∀ k ∈ ks, ∃ k' ∈ ks, unescape k' = k) :
    ∀ k ∈ ks, startsWith "$$" k = false := by
  intro k hk
  by_contra hb
  rw [Bool.not_eq_false] at hb
  -- each such key would need a longer one
  have grow : ∀ n, ∃ k ∈ ks, startsWith "$$" k = true ∧ n ≤ k.length := by
    intro n
    induction n with
    | zero => exact ⟨k, hk, hb, Nat.zero_le _⟩
    | succ n ih =>
      obtain ⟨k, hk, hb, hlen⟩ := ih
      obtain ⟨k', hk', e⟩ := h k hk
      by_cases hb' : startsWith "$$" k' = true
      · refine ⟨k', hk', hb', ?_⟩
        obtain ⟨t, rfl⟩ := startsWith_iff.mp hb'
        rw [unescape_double] at e
        subst e
        simp only [String.length_append] at hlen ⊢
        have h1 : "$$".length = 2 := rfl
        have h2 : "$".length = 1 := rfl
        omega
      · rw [unescape_of_not (by simpa using hb')] at e
        exact absurd hb (e ▸ hb')
  obtain ⟨k', hk', -, hlen⟩ := grow ((ks.map String.length).foldr max 0 + 1)
  have := List.le_max_of_le' 0 (List.mem_map_of_mem hk') (Nat.le_refl k'.length)
  omega

/-- The keys of the unescaped dict come from the keys of the dict. -/
lemma mem_keys_unescaped {kvs : List (String × Val)} {k : String}
    (h : k ∈ keys ((kvs.map unescapeItem).foldl (fun d p => put p.1 p.2 d) [])) :
    ∃ k' ∈ keys kvs, unescape k' = k := by
  obtain ⟨q, hq, rfl⟩ := List.mem_map.mp h
  rcases mem_foldl_put hq with hq | hq
  · obtain ⟨p, hp, rfl⟩ := List.mem_map.mp hq
    exact ⟨p.1, List.mem_map_of_mem hp, rfl⟩
  · simp at hq

/-- Unescaping changes every value with a `$$` inside. -/
lemma doubleFree_of_unmarshal {v : Val} (hv : v.wf = true) (h : (unmarshal v).sem = v.sem) :
    doubleFree v = true := by
  induction v using Val.ind with
  | str s =>
    have e : unescape s = s := by simpa [unmarshal, Val.sem] using h
    have hfix : ∀ k ∈ [s], ∃ k' ∈ [s], unescape k' = k := by simpa using e
    have := no_double hfix s (by simp)
    simpa [doubleFree, Val.all, freeOf] using this
  | list xs ih =>
    rw [doubleFree_list_iff]
    intro x hx
    rw [unmarshal_list, Val.sem_list, Val.sem_list, Tree.list.injEq, List.map_map] at h
    exact ih x hx (Val.wf_list_iff.mp hv x hx) (List.map_inj_left.mp h x hx)
  | dict kvs ih =>
    obtain ⟨hn, hw⟩ := Val.wf_dict_iff.mp hv
    rw [unmarshal, unmarshalItems_eq, Val.sem_dict, Val.sem_dict, Tree.node.injEq] at h
    have hkeys : ∀ k ∈ keys kvs, startsWith "$$" k = false := by
      refine no_double fun k hk => mem_keys_unescaped ?_
      have := congrArg Option.isSome (congrFun h k)
      simp only [Option.isSome_map] at this
      rw [← lookup_isSome_iff, this, lookup_isSome_iff]
      exact hk
    have hsame : kvs.map unescapeItem = kvs.map fun p => (p.1, unmarshal p.2) :=
      List.map_congr_left fun p hp => by
        rw [unescapeItem, unescape_of_not (hkeys _ (List.mem_map_of_mem hp))]
    have hn' : (keys (kvs.map fun p => (p.1, unmarshal p.2))).Nodup := by
      simpa [keys, Function.comp_def] using hn
    refine doubleFree_dict_iff.mpr ⟨hkeys, fun q hq => ih q hq (hw q hq) ?_⟩
    have e := congrFun h q.1
    have hl : (kvs.map fun p => (p.1, unmarshal p.2)).lookup q.1 = some (unmarshal q.2) :=
      (lookup_eq_some_iff hn').mpr (List.mem_map_of_mem hq)
    rw [hsame, foldl_put_eq_append (by simpa using hn'), List.nil_append, hl,
      (lookup_eq_some_iff hn).mpr hq] at e
    simpa using e
  | _ => rfl

lemma unmarshal_sem_iff {v : Val} (hv : v.wf = true) :
    (unmarshal v).sem = v.sem ↔ doubleFree v = true :=
  ⟨doubleFree_of_unmarshal hv, fun h => by rw [unmarshal_of_doubleFree hv h]⟩

/-! ### The result of a diff between dicts -/

lemma not_reserved_iff {k : String} :
    isReserved k = false ↔ k ≠ "$replace" ∧ isCommand k = false := by
  simp [isReserved]

section

variable {previous current : List (String × Val)}

/-- When no change is under a command key, the deletions come first and then the changes. -/
lemma unescapedDiff_eq (hcn : (keys current).Nodup)
    (hres : ∀ k ∈ keys (changes previous current), isCommand k = false) :
    unescapedDiff previous current =
      deleteEntry id (deletedKeys previous current) ++ unescapedChanges previous current := by
  refine foldl_put_eq_append ?_
  rw [keys, List.map_append]
  refine List.nodup_append.mpr ⟨?_, ?_, fun a ha b hb e => ?_⟩
  · unfold deleteEntry
    split <;> simp
  · have := keys_unescapedChanges previous current
    rw [keys] at this
    exact this ▸ nodup_changes hcn
  · have := hres b (keys_unescapedChanges previous current ▸ hb)
    rw [← e, keys_deleteEntry ha] at this
    simp [isCommand] at this

lemma applyItems_unescapedDiff (hcn : (keys current).Nodup)
    (hres : ∀ k ∈ keys (changes previous current), isCommand k = false) (ts : List (String × Val)) :
    applyItems (unescapedDiff previous current) ts =
      applyItems (unescapedChanges previous current)
        ((deletedKeys previous current).foldl (fun d k => remove k d) ts) := by
  rw [unescapedDiff_eq hcn hres]
  unfold deleteEntry
  by_cases h : deletedKeys previous current = []
  · simp [h]
  · simp only [List.map_eq_nil_iff, h, if_false, List.cons_append, List.nil_append, id_eq]
    rw [applyItems, if_pos rfl, deleteKeys, foldlM_dictPop]
    rfl

/-- What the diff makes of any dict, key by key. -/
lemma lookup_apply (hcn : (keys current).Nodup)
    (hres : ∀ k ∈ keys (changes previous current), isCommand k = false) {ts r : List (String × Val)}
    (h : applyItems (unescapedDiff previous current) ts = .ok r) (k : String) :
    ((changes previous current).lookup k = none →
        r.lookup k = if k ∈ deletedKeys previous current then none else ts.lookup k) ∧
      ∀ u, (changes previous current).lookup k = some u →
        ∃ new, applyEntry (ts.lookup k) (unmarshal u) = .ok new ∧ r.lookup k = some new := by
  rw [applyItems_unescapedDiff hcn hres] at h
  have hspec := lookup_applyItems (by rw [keys_unescapedChanges]; exact nodup_changes hcn)
    (by rw [keys_unescapedChanges]; exact hres) h k
  rw [lookup_unescapedChanges, lookup_foldl_remove] at hspec
  refine ⟨fun hk => hspec.1 (by rw [hk]; rfl), fun u hu => ?_⟩
  have hnot : k ∉ deletedKeys previous current := fun hk =>
    (mem_deletedKeys.mp hk).2 ((keys_changes_sublist previous current).subset (mem_keys_of_lookup hu))
  have := hspec.2 (unmarshal u) (by rw [hu]; rfl)
  rwa [if_neg hnot] at this

/-- The diff applies to a dict when each of its changes does. -/
lemma exists_apply (hcn : (keys current).Nodup)
    (hres : ∀ k ∈ keys (changes previous current), isCommand k = false) {ts : List (String × Val)}
    (h : ∀ k u, (changes previous current).lookup k = some u →
      ∃ new, applyEntry (ts.lookup k) (unmarshal u) = .ok new) :
    ∃ r, applyItems (unescapedDiff previous current) ts = .ok r := by
  rw [applyItems_unescapedDiff hcn hres]
  refine exists_applyItems (by rw [keys_unescapedChanges]; exact nodup_changes hcn)
    (by rw [keys_unescapedChanges]; exact hres) fun k value hk => ?_
  rw [lookup_unescapedChanges] at hk
  obtain ⟨u, hu, rfl⟩ := Option.map_eq_some_iff.mp hk
  have hnot : k ∉ deletedKeys previous current := fun hk =>
    (mem_deletedKeys.mp hk).2 ((keys_changes_sublist previous current).subset (mem_keys_of_lookup hu))
  rw [lookup_foldl_remove, if_neg hnot]
  exact h k u hu

/-- A key without a change is gone, or both dicts have equal values under it. -/
lemma unchanged (hp : (Val.dict previous).wf = true) (hc : (Val.dict current).wf = true) {k : String}
    (h : (changes previous current).lookup k = none) :
    current.lookup k = none ∨ (previous.lookup k).map Val.sem = (current.lookup k).map Val.sem := by
  have hcn := (Val.wf_dict_iff.mp hc).1
  rcases hv : current.lookup k with _ | v
  · exact Or.inl rfl
  · refine Or.inr ?_
    rcases hch : change previous (k, v) with _ | ⟨j, u⟩
    · unfold change at hch
      rcases ho : previous.lookup k with _ | old
      · simp [ho] at hch
      · have hd : rawDiff old v = none := by simpa [ho] using hch
        have := (rawDiff_eq_none (Val.wf_of_lookup hp ho) (Val.wf_of_lookup hc hv)).mp hd
        rw [Option.map_some, Option.map_some, this]
    · obtain rfl : j = k := change_key hch
      rw [(lookup_changes hcn).mpr ⟨v, hv, hch⟩] at h
      simp at h

end

/-- When no change is under a command key, the pass over the items gives the current dict exactly
when each change gives its value. -/
lemma applyItems_unescapedDiff_iff {previous current : List (String × Val)}
    (hp : (Val.dict previous).wf = true) (hc : (Val.dict current).wf = true)
    (hres : ∀ k ∈ keys (changes previous current), isCommand k = false) :
    (∃ r, applyItems (unescapedDiff previous current) previous = .ok r ∧
        (Val.dict r).sem = (Val.dict current).sem) ↔
      ∀ k v u, current.lookup k = some v → change previous (k, v) = some (k, u) →
        ∃ new, applyEntry (previous.lookup k) (unmarshal u) = .ok new ∧ new.sem = v.sem := by
  have hcn := (Val.wf_dict_iff.mp hc).1
  simp only [Val.sem_dict, Tree.node.injEq]
  constructor
  · rintro ⟨r, hr, hsem⟩ k v u hk hch
    obtain ⟨new, hnew, hl⟩ := (lookup_apply hcn hres hr k).2 u ((lookup_changes hcn).mpr ⟨v, hk, hch⟩)
    exact ⟨new, hnew, by simpa [hl, hk] using congrFun hsem k⟩
  · intro h
    obtain ⟨r, hr⟩ : ∃ r, applyItems (unescapedDiff previous current) previous = .ok r := exists_apply hcn hres fun k u hu => by
      obtain ⟨v, hv, hch⟩ := (lookup_changes hcn).mp hu
      obtain ⟨new, hnew, -⟩ := h k v u hv hch
      exact ⟨new, hnew⟩
    refine ⟨r, hr, funext fun k => ?_⟩
    have hspec := lookup_apply hcn hres hr k
    rcases hl : (changes previous current).lookup k with _ | u
    · rw [hspec.1 hl]
      rcases unchanged hp hc hl with hv | hv
      · -- a key that is gone was deleted
        rw [hv]
        split
        · rfl
        · rename_i hk
          have : previous.lookup k = none := by
            by_contra hne
            refine hk (mem_deletedKeys.mpr ⟨?_, lookup_eq_none_iff.mp hv⟩)
            rw [← lookup_isSome_iff]
            exact Option.isSome_iff_ne_none.mpr hne
          rw [this]
      · rw [← hv]
        split
        · rename_i hk
          have hn := lookup_eq_none_iff.mpr (mem_deletedKeys.mp hk).2
          rw [hv, hn, Option.map_none]
        · rfl
    · obtain ⟨v, hv, hch⟩ := (lookup_changes hcn).mp hl
      obtain ⟨new, hnew, hsem⟩ := h k v u hv hch
      obtain ⟨new', hnew', hr'⟩ := hspec.2 u hl
      obtain rfl := Except.ok.inj (hnew.symm.trans hnew')
      rw [hr', hv, Option.map_some, Option.map_some, hsem]

/-! ### The main result -/

lemma unmarshal_isDict (v : Val) : (unmarshal v).isDict = v.isDict := by
  cases v <;> rfl

/-- A list edit gives a list. -/
lemma list_of_isListPatch {xs : List Val} {diff : List (String × Val)} {r : Val}
    (hlist : isListPatch diff = true) (hne : diff ≠ []) (hrep : diff.lookup "$replace" = none)
    (h : rawApply (.list xs) (.dict diff) = .ok r) : ∃ ys, r = .list ys := by
  rw [rawApply_dict hne, hrep] at h
  simp only [hlist, if_true, bind_eq_ok, map_eq_ok] at h
  obtain ⟨_, -, _, -, ys, -, rfl⟩ := h
  exact ⟨ys, rfl⟩

/-- Dict over scalar: the loop starts from an empty dict, so only the commands get lost. -/
lemma applyItems_empty_iff {c : List (String × Val)} (hc : (Val.dict c).wf = true) :
    (∃ r, applyItems ((c.map unescapeItem).foldl (fun d p => put p.1 p.2 d) []) [] = .ok r ∧
        (Val.dict r).sem = (Val.dict c).sem) ↔
      (∀ k ∈ keys c, isCommand k = false) ∧ doubleFree (.dict c) = true := by
  have hcn := (Val.wf_dict_iff.mp hc).1
  have hsame : doubleFree (.dict c) = true → (c.map unescapeItem).foldl (fun d p => put p.1 p.2 d) [] = c :=
    fun h => by simpa [unmarshal, unmarshalItems_eq] using unmarshal_of_doubleFree hc h
  have hplain : ∀ diff : List (String × Val), (keys diff).Nodup →
      (∀ k ∈ keys diff, isCommand k = false) →
      ∃ r, applyItems diff [] = .ok r ∧ (Val.dict r).sem = (Val.dict diff).sem := by
    intro diff hn hk
    obtain ⟨r, hr⟩ : ∃ r, applyItems diff [] = .ok r := exists_applyItems hn hk fun k value _ => ⟨value, rfl⟩
    refine ⟨r, hr, ?_⟩
    rw [Val.sem_dict, Val.sem_dict, Tree.node.injEq]
    funext k
    have hspec := lookup_applyItems hn hk hr k
    rcases hl : diff.lookup k with _ | value
    · rw [hspec.1 hl]
      rfl
    · obtain ⟨new, hnew, hl'⟩ := hspec.2 value hl
      obtain rfl : value = new := Except.ok.inj hnew
      rw [hl']
  constructor
  · rintro ⟨r, hr, hsem⟩
    have hlook := fun k => congrFun (Tree.node.inj (Val.sem_dict r ▸ Val.sem_dict c ▸ hsem)) k
    have hmem : ∀ k ∈ keys c, k ∈ keys r := fun k hk => by
      have := congrArg Option.isSome (hlook k)
      simp only [Option.isSome_map] at this
      rw [← lookup_isSome_iff, this, lookup_isSome_iff]
      exact hk
    have hcmd : ∀ k ∈ keys c, isCommand k = false := by
      intro k hk
      by_contra hb
      have : r.lookup k = none := by simpa using lookup_command (by simpa using hb) hr
      exact lookup_eq_none_iff.mp this (hmem k hk)
    have hdouble : ∀ k ∈ keys c, startsWith "$$" k = false := by
      refine no_double fun k hk => mem_keys_unescaped ?_
      rcases mem_keys_applyItems hr (hmem k hk) with h | h
      · simp at h
      · exact h
    refine ⟨hcmd, doubleFree_of_unmarshal hc ?_⟩
    have hn : (keys ((c.map unescapeItem).foldl (fun d p => put p.1 p.2 d) [])).Nodup :=
      nodup_foldl_put (by simp)
    obtain ⟨r', hr', hsem'⟩ := hplain _ hn fun k hk => by
      obtain ⟨k', hk', rfl⟩ := mem_keys_unescaped hk
      rw [unescape_of_not (hdouble k' hk')]
      exact hcmd k' hk'
    obtain rfl : r = r' := Except.ok.inj (hr.symm.trans hr')
    rw [unmarshal, unmarshalItems_eq, ← hsem', hsem]
  · rintro ⟨hk, hd⟩
    rw [hsame hd]
    exact hplain c hcn hk

lemma restores_of_not_dict {prev cur : Val} (h : cur.isDict = false) :
    restores prev cur = doubleFree cur := by
  cases cur with
  | dict => simp [Val.isDict] at h
  | _ => cases prev <;> simp [restores, typeChangesOk, escapesOk]

lemma restores_list_iff {xs : List Val} {c : List (String × Val)} :
    restores (.list xs) (.dict c) = true ↔
      isListPatch c = false ∧ "$replace" ∉ keys c ∧ doubleFree (.dict c) = true := by
  simp only [restores, typeChangesOk, escapesOk, Bool.and_eq_true, Bool.not_eq_true',
    decide_eq_true_eq]

lemma restores_scalar_iff {prev : Val} {c : List (String × Val)} (hd : prev.isDict = false)
    (hl : ∀ xs, prev ≠ .list xs) :
    restores prev (.dict c) = true ↔
      c ≠ [] ∧ (∀ k ∈ keys c, isReserved k = false) ∧ doubleFree (.dict c) = true := by
  have h : restores prev (.dict c) =
      (!c.isEmpty && (((keys c).all fun k => !isReserved k) && doubleFree (.dict c))) := by
    cases prev with
    | dict p => simp [Val.isDict] at hd
    | list xs => exact absurd rfl (hl xs)
    | _ => rfl
  simp only [h, Bool.and_eq_true, Bool.not_eq_true', List.all_eq_true, List.isEmpty_eq_false_iff, ne_eq]

/-- An object in the place of something else is written out as it is. -/
lemma apply_dict_iff {prev : Val} {c : List (String × Val)} (hn : prev.isDict = false)
    (hp : prev.wf = true) (hc : (Val.dict c).wf = true)
    (h : rawDiff prev (.dict c) = some (.dict c)) :
    (∃ r, rawApply prev (unmarshal (.dict c)) = .ok r ∧ r.sem = (Val.dict c).sem) ↔
      restores prev (.dict c) = true := by
  set diff := (c.map unescapeItem).foldl (fun d p => put p.1 p.2 d) [] with hdiff
  have hun : unmarshal (.dict c) = .dict diff := by rw [unmarshal, unmarshalItems_eq]
  have hsame : doubleFree (.dict c) = true → diff = c := fun hd => by
    simpa [hun] using unmarshal_of_doubleFree hc hd
  have hrep := fun r => replace_ne (r := r) hp hc h hun
  rw [hun]
  by_cases hne : diff = []
  · -- `{}` reads as no change
    obtain rfl : c = [] := by simpa using (foldl_put_eq_nil.mp hne).1
    refine iff_of_false ?_ ?_
    · rintro ⟨r, hr, hs⟩
      rw [hne, rawApply_nil] at hr
      obtain rfl := Except.ok.inj hr
      rw [Val.isDict_congr hs] at hn
      simp [Val.isDict] at hn
    · intro hr
      by_cases hlist : ∃ xs, prev = .list xs
      · obtain ⟨xs, rfl⟩ := hlist
        exact absurd (restores_list_iff.mp hr).1 (by decide)
      · exact ((restores_scalar_iff hn (not_exists.mp hlist)).mp hr).1 rfl
  · rw [rawApply_dict hne]
    rcases hl : diff.lookup "$replace" with _ | r'
    · have hc' : doubleFree (.dict c) = true → "$replace" ∉ keys c := fun hd => by
        rw [← hsame hd]
        exact lookup_eq_none_iff.mp hl
      have hscalar : (∀ xs, prev ≠ .list xs) →
          ((∃ r, applyItems diff [] = .ok r ∧ (Val.dict r).sem = (Val.dict c).sem) ↔
            restores prev (.dict c) = true) := fun hlist => by
        rw [hdiff, applyItems_empty_iff hc, restores_scalar_iff hn hlist]
        constructor
        · rintro ⟨hk, hd⟩
          refine ⟨fun e => hne (by rw [hdiff, e]; rfl), fun k hm => not_reserved_iff.mpr ⟨?_, hk k hm⟩, hd⟩
          exact fun e => hc' hd (e ▸ hm)
        · exact fun h => ⟨fun k hm => (not_reserved_iff.mp (h.2.1 k hm)).2, h.2.2⟩
      cases prev with
      | dict p => simp [Val.isDict] at hn
      | list xs =>
        rw [restores_list_iff]
        by_cases hlist : isListPatch diff = true
        · -- the list stays a list
          refine iff_of_false ?_ ?_
          · rintro ⟨r, hr, hs⟩
            have happ : rawApply (.list xs) (.dict diff) = .ok r := by
              rw [rawApply_dict hne, hl]
              exact hr
            obtain ⟨ys, rfl⟩ := list_of_isListPatch hlist hne hl happ
            simp [Val.sem] at hs
          · rintro ⟨h1, -, h2⟩
            rw [hsame h2, h1] at hlist
            simp at hlist
        · have hdouble := unmarshal_sem_iff hc
          rw [hun] at hdouble
          simp only [hlist, Bool.false_eq_true, if_false, Except.ok.injEq, exists_eq_left', hdouble]
          exact ⟨fun hd => ⟨by simpa [hsame hd] using hlist, hc' hd, hd⟩, fun h => h.2.2⟩
      | _ => simpa only [exists_map_ok] using hscalar (fun xs => by simp)
    · refine iff_of_false ?_ fun hr => ?_
      · rintro ⟨r, hr, hs⟩
        obtain rfl := Except.ok.inj hr
        exact hrep _ hl hs
      · have hd : doubleFree (.dict c) = true ∧ "$replace" ∉ keys c := by
          by_cases hlist : ∃ xs, prev = .list xs
          · obtain ⟨xs, rfl⟩ := hlist
            exact (restores_list_iff.mp hr).2.symm
          · have := (restores_scalar_iff hn (not_exists.mp hlist)).mp hr
            exact ⟨this.2.2, fun hm => (not_reserved_iff.mp (this.2.1 _ hm)).1 rfl⟩
        exact hd.2 (mem_keys_of_lookup (hsame hd.1 ▸ hl))

/-- **The exact round trip**: applying a diff to the state it was taken from gives the state it
leads to, exactly when `restores` says so. -/
theorem apply_rawDiff_iff {prev cur d : Val} (hp : prev.wf = true) (hc : cur.wf = true)
    (h : rawDiff prev cur = some d) :
    (∃ r, rawApply prev (unmarshal d) = .ok r ∧ r.sem = cur.sem) ↔ restores prev cur = true := by
  induction cur using Val.ind generalizing prev d with
  | dict c ih =>
    have hcn := (Val.wf_dict_iff.mp hc).1
    by_cases hprev : prev.isDict = true
    · obtain ⟨p, rfl⟩ := Val.exists_of_isDict hprev
      have hne : diffEntries p c ≠ [] := by
        intro e
        simp [rawDiff_dict hcn, e] at h
      obtain rfl : Val.dict (diffEntries p c) = d := by simpa [rawDiff_dict hcn, hne] using h
      have hrep := fun r => replace_ne (r := r) hp hc h unmarshal_rawDiff
      rw [unmarshal_rawDiff, restores_dict_iff hp hc, rawApply_dict (unescapedDiff_ne_nil hne)]
      by_cases hbad : ∃ k ∈ keys (changes p c), isReserved k = true
      · -- a change under a command key is lost
        obtain ⟨k, hk, hkr⟩ := hbad
        obtain ⟨u, hu⟩ : ∃ u, (changes p c).lookup k = some u :=
          Option.isSome_iff_exists.mp (lookup_isSome_iff.mpr hk)
        obtain ⟨v, hv, hch⟩ := (lookup_changes hcn).mp hu
        refine iff_of_false ?_ fun hall => by simp [(hall k v u hv hch).1] at hkr
        rintro ⟨r, hr, hsem⟩
        rcases hl : (unescapedDiff p c).lookup "$replace" with _ | r'
        · simp only [hl, map_eq_ok] at hr
          obtain ⟨r, hr, rfl⟩ := hr
          have hcmd : isCommand k = true := by
            rcases Bool.or_eq_true _ _ ▸ hkr with e | e
            · obtain rfl : k = "$replace" := by simpa using e
              rw [lookup_unescapedDiff_of_ne hcn (by decide), hu] at hl
              simp at hl
            · exact e
          rw [Val.sem_dict, Val.sem_dict, Tree.node.injEq] at hsem
          have e := congrFun hsem k
          rw [hv, Option.map_some] at e
          rcases lookup_command hcmd hr with h' | h' <;> rw [h'] at e
          · rcases change_eq_some.mp hch with ⟨ho, -⟩ | ⟨old, ho, hd⟩
            · simp [ho] at e
            · have hs : old.sem = v.sem := by simpa [ho] using e
              rw [(rawDiff_eq_none (Val.wf_of_lookup hp ho) (Val.wf_of_lookup hc hv)).mpr hs] at hd
              simp at hd
          · simp at e
        · simp only [hl] at hr
          obtain rfl := Except.ok.inj hr
          exact hrep r' hl hsem
      · push Not at hbad
        have hbad : ∀ k ∈ keys (changes p c), isReserved k = false := fun k hk => by
          simpa using hbad k hk
        have hnone : (unescapedDiff p c).lookup "$replace" = none := by
          rw [lookup_unescapedDiff_of_ne hcn (by decide), lookup_eq_none_iff.mpr]
          · rfl
          · exact fun hk => absurd (hbad _ hk) (by decide)
        have hitems := applyItems_unescapedDiff_iff hp hc fun k hk =>
          (not_reserved_iff.mp (hbad k hk)).2
        simp only [hnone, exists_map_ok]
        rw [hitems]
        refine forall_congr' fun k => forall_congr' fun v => forall_congr' fun u =>
          forall_congr' fun hv => forall_congr' fun hch => ?_
        have hvw := Val.wf_of_lookup hc hv
        have hkr : isReserved k = false :=
          hbad k (mem_keys_of_lookup ((lookup_changes hcn).mpr ⟨v, hv, hch⟩))
        rcases change_eq_some.mp hch with ⟨ho, rfl⟩ | ⟨old, ho, hd⟩
        · simp [ho, applyEntry, hkr, unmarshal_sem_iff hvw]
        · simp only [ho, applyEntry, hkr]
          rw [ih (k, v) (mem_of_lookup hv) (Val.wf_of_lookup hp ho) hvw hd]
          simp
    · obtain rfl := rawDiff_of_not_dict h (Or.inl (by simpa using hprev))
      exact apply_dict_iff (by simpa using hprev) hp hc h
  | _ =>
    obtain rfl := rawDiff_of_not_dict h (Or.inr rfl)
    rw [rawApply_not_dict (by rw [unmarshal_isDict]; rfl), restores_of_not_dict rfl,
      ← unmarshal_sem_iff hc]
    simp

end Kanta
