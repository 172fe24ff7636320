import Kanta.RoundTrip

/-!
# Diffs between states

The laws of `diff` and `patch` on state dicts, as Python's `==` sees them.  Between states without
`$` the round trip fails for two kinds of type changes and no others; between states whose objects
stay objects it fails for two kinds of `$` strings and no others.
-/

namespace Kanta

open Kanta.Lib Kanta.Lib.Assoc

/-! ### The laws -/

/-- Where there is a diff, patching it in gives the new state. -/
def PatchRestores (prev cur : Dict) : Prop :=
  ∀ d, diff prev cur = some d → ∃ r, patch prev.val d = .ok r ∧ r.pyEq cur.val = true

/-- There is no diff exactly between equal states, and otherwise patching it in gives the new
state. -/
def RoundTrips (prev cur : Dict) : Prop :=
  (diff prev cur = none ↔ prev.pyEq cur = true) ∧ PatchRestores prev cur

lemma diff_eq_none {prev cur : Dict} : diff prev cur = none ↔ prev.pyEq cur = true := by
  rw [diff, rawDiff_eq_none prev.wf cur.wf, Dict.pyEq_iff]

/-- The parts of a diff are parts of the new state, and lists of keys. -/
lemma wf_rawDiff {prev cur d : Val} (hc : cur.wf = true) (h : rawDiff prev cur = some d) :
    d.wf = true := by
  induction cur using Val.ind generalizing prev d with
  | dict c ih =>
    by_cases hp : prev.isDict = true
    · obtain ⟨p, rfl⟩ := Val.exists_of_isDict hp
      have hcn := (Val.wf_dict_iff.mp hc).1
      rw [rawDiff_dict hcn] at h
      split at h
      · simp at h
      · obtain rfl : Val.dict (diffEntries p c) = d := by simpa using h
        refine Val.wf_dict_iff.mpr ⟨nodup_diffEntries hcn, fun q hq => ?_⟩
        rcases List.mem_append.mp hq with hq | hq
        · unfold deleteEntry at hq
          split at hq
          · simp at hq
          · obtain rfl := List.mem_singleton.mp hq
            refine Val.wf_list_iff.mpr fun x hx => ?_
            obtain ⟨k, -, rfl⟩ := List.mem_map.mp hx
            rfl
        · obtain ⟨⟨k, u⟩, hm, rfl⟩ := List.mem_map.mp hq
          obtain ⟨v, hv, hch⟩ := (lookup_changes hcn).mp
            ((lookup_eq_some_iff (nodup_changes hcn)).mpr hm)
          have hvw := Val.wf_of_lookup hc hv
          rcases change_eq_some.mp hch with ⟨-, rfl⟩ | ⟨old, -, hd⟩
          · exact hvw
          · exact ih (k, v) (mem_of_lookup hv) hvw hd
    · obtain rfl := rawDiff_of_not_dict h (Or.inl (by simpa using hp))
      exact hc
  | _ =>
    obtain rfl := rawDiff_of_not_dict h (Or.inr rfl)
    exact hc

/-- The round trip, for any two states. -/
theorem patchRestores_iff (prev cur : Dict) :
    PatchRestores prev cur ↔ prev.pyEq cur = true ∨ restores prev.val cur.val = true := by
  rcases hd : diff prev cur with _ | d
  · exact iff_of_true (fun d h => by simp [hd] at h) (Or.inl (diff_eq_none.mp hd))
  · have hne : ¬prev.pyEq cur = true := fun h => by simp [diff_eq_none.mpr h] at hd
    rw [or_iff_right hne, ← apply_rawDiff_iff prev.wf cur.wf hd, PatchRestores]
    have heq : ∀ r, rawApply prev.val (unmarshal d) = .ok r →
        (r.pyEq cur.val = true ↔ r.sem = cur.val.sem) := fun r hr =>
      Val.pyEq_iff (wf_rawApply (wf_unmarshal (wf_rawDiff cur.wf hd)) prev.wf hr) cur.wf
    constructor
    · intro h
      obtain ⟨r, hr, he⟩ := h d hd
      exact ⟨r, hr, (heq r hr).mp he⟩
    · rintro ⟨r, hr, he⟩ d' hd'
      obtain rfl : d = d' := Option.some.inj (hd.symm.trans hd')
      exact ⟨r, hr, (heq r hr).mpr he⟩

/-! ### Type changes, without `$` -/

lemma startsWith_of_isReserved {k : String} (h : isReserved k = true) : startsWith "$" k = true := by
  simp only [isReserved, isCommand, Bool.or_eq_true, decide_eq_true_eq] at h
  rcases h with rfl | rfl | rfl <;> decide

lemma not_reserved_of_dollarFree {kvs : List (String × Val)} (h : dollarFree (.dict kvs) = true)
    {k : String} (hk : k ∈ keys kvs) : isReserved k = false := by
  by_contra hr
  have := startsWith_of_isReserved (by simpa using hr)
  simp [(dollarFree_dict_iff.mp h).1 k hk] at this

/-- In a state without `$` there is nothing to escape. -/
lemma escapesOk_of_dollarFree {prev cur : Val} (h : dollarFree cur = true) :
    escapesOk prev cur = true := by
  induction cur using Val.ind generalizing prev with
  | dict c ih =>
    have hd := doubleFree_of_dollarFree h
    have hk := fun k (hk : k ∈ keys c) => not_reserved_of_dollarFree h hk
    cases prev with
    | dict p =>
      rw [escapesOk_dict_iff]
      intro q hq
      have hkq := hk q.1 (List.mem_map_of_mem hq)
      have hq' := (dollarFree_dict_iff.mp h).2 q hq
      exact ⟨fun _ => ⟨hkq, doubleFree_of_dollarFree hq'⟩, fun old _ => Or.inr ⟨hkq, ih q hq hq'⟩⟩
    | list xs =>
      have : "$replace" ∉ keys c := fun hm => absurd (hk _ hm) (by decide)
      simp only [escapesOk, hd, this, not_false_eq_true, decide_true, Bool.and_self]
    | _ =>
      simp only [escapesOk, hd, Bool.and_true, List.all_eq_true, Bool.not_eq_true']
      exact hk
  | _ => cases prev <;> simpa [escapesOk] using doubleFree_of_dollarFree h

/-- **Round trips across type changes.**  When the new state has no `$`, the round trip holds
exactly when nothing becomes `{}` and no list becomes an object of integer-like keys. -/
theorem roundTrips_iff_typeChangesOk (prev cur : Dict) (h : dollarFree cur.val = true) :
    RoundTrips prev cur ↔ typeChangesOk prev.val cur.val = true := by
  rw [RoundTrips, patchRestores_iff, restores, escapesOk_of_dollarFree h, Bool.and_true]
  constructor
  · rintro ⟨-, he | he⟩
    · exact typeChangesOk_of_eq cur.wf (Dict.pyEq_iff.mp he)
    · exact he
  · exact fun he => ⟨diff_eq_none, Or.inr he⟩

/-- A list under a key that becomes an object, and a scalar that becomes a list. -/
theorem roundTrips_list_to_object :
    RoundTrips ⟨[("tags", .list [.int 1]), ("n", .int 3)], rfl⟩
      ⟨[("tags", .dict [("0", .int 1), ("x", .null)]), ("n", .list [])], rfl⟩ :=
  (roundTrips_iff_typeChangesOk _ _ (by decide)).mpr (by decide)

/-- An integer that becomes `{}` stays an integer, and a list that becomes `{"0": 5}` a list. -/
theorem object_over_other_lost :
    (∀ state ∈ [Val.dict [("a", .int 1)], .dict [("a", .dict [])], .dict [("a", .list [.int 1])],
        .dict [("a", .dict [("0", .int 5)])]], dollarFree state = true) ∧
      ¬RoundTrips ⟨[("a", .int 1)], rfl⟩ ⟨[("a", .dict [])], rfl⟩ ∧
      ¬RoundTrips ⟨[("a", .list [.int 1])], rfl⟩ ⟨[("a", .dict [("0", .int 5)])], rfl⟩ := by
  refine ⟨by decide, ?_, ?_⟩
  · rintro ⟨-, h⟩
    obtain ⟨r, hr, he⟩ := h (.dict [("a", .dict [])]) rfl
    obtain rfl : Val.dict [("a", .int 1)] = r := Except.ok.inj hr
    exact absurd he (by decide)
  · rintro ⟨-, h⟩
    obtain ⟨r, hr, he⟩ := h (.dict [("a", .dict [("0", .int 5)])]) rfl
    obtain rfl : Val.dict [("a", .list [.int 5])] = r := Except.ok.inj hr
    exact absurd he (by decide)

/-! ### Escaping, without type changes -/

mutual
/-- At every path that both states have, both hold an object or neither does. -/
def shapeKept : Val → Val → Bool
  | .dict previous, .dict current => shapeKeptItems previous current
  | .dict _, _ => false
  | _, .dict _ => false
  | _, _ => true
def shapeKeptItems (previous : List (String × Val)) : List (String × Val) → Bool
  | [] => true
  | (key, value) :: rest =>
    (match previous.lookup key with
      | none => true
      | some old => shapeKept old value) && shapeKeptItems previous rest
end

lemma shapeKept_dict_iff {previous current : List (String × Val)} :
    shapeKept (.dict previous) (.dict current) = true ↔
      ∀ q ∈ current, ∀ old, previous.lookup q.1 = some old → shapeKept old q.2 = true := by
  rw [shapeKept]
  induction current with
  | nil => simp [shapeKeptItems]
  | cons q current ih =>
    obtain ⟨k, v⟩ := q
    rw [shapeKeptItems, Bool.and_eq_true, ih, List.forall_mem_cons]
    refine and_congr_left fun _ => ?_
    cases previous.lookup k <;> simp

lemma typeChangesOk_of_shapeKept {prev cur : Val} (h : shapeKept prev cur = true) :
    typeChangesOk prev cur = true := by
  induction cur using Val.ind generalizing prev with
  | dict c ih =>
    cases prev with
    | dict p =>
      rw [shapeKept_dict_iff] at h
      exact typeChangesOk_dict_iff.mpr fun q hq old ho => ih q hq (h q hq old ho)
    | _ => simp [shapeKept] at h
  | _ => cases prev <;> rfl

lemma escapesOk_of_pyEq {prev cur : Dict} (h : prev.pyEq cur = true) :
    escapesOk prev.val cur.val = true := by
  rw [Dict.pyEq_iff, Val.sem_dict, Val.sem_dict, Tree.node.injEq] at h
  obtain ⟨hcn, hcv⟩ := Val.wf_dict_iff.mp cur.wf
  rw [escapesOk_dict_iff]
  intro q hq
  have e := congrFun h q.1
  rw [(lookup_eq_some_iff hcn).mpr hq, Option.map_some] at e
  refine ⟨fun hl => by simp [hl] at e, fun old hl => Or.inl ?_⟩
  exact (Val.pyEq_iff (Val.wf_of_lookup prev.wf hl) (hcv q hq)).mpr (by simpa [hl] using e)

/-- **Escaping.**  When objects stay objects, patching restores the new state exactly when no added
or changed key reads as a command and no new value holds a `$$`. -/
theorem patchRestores_iff_escapesOk (prev cur : Dict) (h : shapeKept prev.val cur.val = true) :
    PatchRestores prev cur ↔ escapesOk prev.val cur.val = true := by
  rw [patchRestores_iff, restores, typeChangesOk_of_shapeKept h, Bool.true_and]
  exact ⟨fun h => h.elim escapesOk_of_pyEq id, Or.inr⟩

/-- Keys with any number of `$` get through, single `$` values as well. -/
theorem patchRestores_dollars :
    PatchRestores ⟨[("$", .str "x"), ("o", .dict [("$$k", .int 1)])], rfl⟩
      ⟨[("$$$x", .str "$y"), ("o", .dict [("$$k", .int 2), ("$z", .list [.str "$"])])], rfl⟩ :=
  (patchRestores_iff_escapesOk _ _ (by decide)).mpr (by decide)

/-- A key `$delete` is read as the command, and a value `$$x` comes back as `$x`. -/
theorem escape_lost :
    (shapeKept (.dict []) (.dict [("$delete", .int 1)]) = true ∧
      ¬PatchRestores ⟨[], rfl⟩ ⟨[("$delete", .int 1)], rfl⟩) ∧
    (shapeKept (.dict [("a", .str "b")]) (.dict [("a", .str "$$x")]) = true ∧
      ¬PatchRestores ⟨[("a", .str "b")], rfl⟩ ⟨[("a", .str "$$x")], rfl⟩) := by
  refine ⟨⟨by decide, fun h => ?_⟩, ⟨by decide, fun h => ?_⟩⟩
  · obtain ⟨r, hr, he⟩ := h (.dict [("$$delete", .int 1)]) rfl
    obtain rfl : Val.dict [] = r := Except.ok.inj hr
    exact absurd he (by decide)
  · obtain ⟨r, hr, he⟩ := h (.dict [("a", .str "$$x")]) rfl
    obtain rfl : Val.dict [("a", .str "$x")] = r := Except.ok.inj hr
    exact absurd he (by decide)

end Kanta
