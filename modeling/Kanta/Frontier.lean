import Kanta.Changelog

/-!
# The frontier of two states

What `_collect_changes` reads off a diff can be said without one.  Two states are followed down as long as both hold
an object: a key that has gone is listed, and below a key whose values differ either the new value is listed, or the
two objects are followed further (`frontier`).  The list is the same, entry by entry and in the same order
(`listed_frontier`), and so the values in it are those of the two states, and nothing that differs is left out.
-/

namespace Kanta

open Kanta.Lib Kanta.Lib.Assoc

mutual
/-- Where two values stop being two objects. -/
def frontier : Val → Val → List String → List LoggedChange
  | .dict p, .dict c, path =>
    ((deletedKeys p c).map fun k => ⟨.delete, path ++ [k], .null⟩) ++ frontierItems p c path
  | p, c, path => [⟨if isNone p then .add else .update, path, c⟩]
/-- The frontiers below the keys of a state, for the keys whose values differ. -/
def frontierItems (p : List (String × Val)) : List (String × Val) → List String → List LoggedChange
  | [], _ => []
  | (k, v) :: rest, path =>
    (match p.lookup k with
      | none => [⟨.add, path ++ [k], v⟩]
      | some old => if old.pyEq v then [] else frontier old v (path ++ [k])) ++ frontierItems p rest path
end

section

variable {repr : Val → String}

/-! ### The list of a diff -/

lemma frontier_of_not_dict {p c : Val} (h : p.isDict = false ∨ c.isDict = false) (path : List String) :
    frontier p c path = [⟨if isNone p then .add else .update, path, c⟩] := by
  cases p <;> cases c <;> simp_all [frontier, Val.isDict]

/-- The entries of a diff below some of the keys. -/
lemma collectItems_frontier {previous : Val} {p rest : List (String × Val)} {path : List String}
    (hat : getNested previous path = .dict p) (hp : (Val.dict p).wf = true)
    (hplain : ∀ item ∈ rest, isReserved item.1 = false ∧ item.2.wf = true ∧ dollarFree item.2 = true)
    (ih : ∀ item ∈ rest, ∀ old u, p.lookup item.1 = some old → rawDiff old item.2 = some u → isNone old = false →
      ∀ acc, collectChanges repr previous (unmarshal u) (path ++ [item.1]) acc =
        .ok (acc ++ frontier old item.2 (path ++ [item.1]))) (acc : List LoggedChange) :
    collectItems repr previous (unescapedChanges p rest) path acc = .ok (acc ++ frontierItems p rest path) := by
  induction rest generalizing acc with
  | nil =>
    rw [unescapedChanges, changes, List.filterMap_nil, List.map_nil, collectItems, frontierItems, List.append_nil]
  | cons item rest ihrest =>
    obtain ⟨k, v⟩ := item
    obtain ⟨⟨hreserved, hvw, hvd⟩, hothers⟩ := List.forall_mem_cons.mp hplain
    obtain ⟨hentry, hentries⟩ := List.forall_mem_cons.mp ih
    obtain ⟨hreplace, hcommand⟩ := not_reserved_iff.mp hreserved
    have hdelete : k ≠ "$delete" := by
      rintro rfl
      simp [isCommand] at hcommand
    have hnested : getNested previous (path ++ [k]) = (p.lookup k).getD .null := by
      rw [getNested_append, hat, getNested_singleton]
    have hcons : ∀ u, change p (k, v) = some (k, u) →
        unescapedChanges p ((k, v) :: rest) = (k, unmarshal u) :: unescapedChanges p rest := by
      intro u hu
      rw [unescapedChanges, changes, List.filterMap_cons_some hu, List.map_cons]
      rfl
    rw [frontierItems]
    rcases hl : p.lookup k with _ | old
    · -- a new key
      rw [hcons v (change_eq_some.mpr (Or.inl ⟨hl, rfl⟩)), collectItems, if_neg hdelete, if_neg hreplace, hnested, hl,
        unmarshal_of_dollarFree hvw hvd]
      rw [if_pos (show isNone ((none : Option Val).getD .null) = true from rfl), ihrest hothers hentries,
        List.append_assoc]
    · have hold := Val.wf_of_lookup hp hl
      rcases hd : rawDiff old v with _ | u
      · -- an equal value
        have hsame : old.pyEq v = true := (Val.pyEq_iff hold hvw).mpr ((rawDiff_eq_none hold hvw).mp hd)
        have hnone : change p (k, v) = none := by simp [change, hl, hd]
        rw [unescapedChanges, changes, List.filterMap_cons_none hnone]
        dsimp only
        rw [if_pos hsame, List.nil_append]
        exact ihrest hothers hentries acc
      · have hdiffer : ¬old.pyEq v = true := by
          rw [Val.pyEq_iff hold hvw, ← rawDiff_eq_none hold hvw, hd]
          exact Option.some_ne_none u
        rw [hcons u (change_eq_some.mpr (Or.inr ⟨old, hl, hd⟩)), collectItems, if_neg hdelete, if_neg hreplace, hnested,
          hl]
        dsimp only
        rw [if_neg hdiffer, Option.getD_some]
        by_cases hnone : isNone old = true
        · have hnd : old.isDict = false := by cases old <;> simp_all [isNone, Val.isDict]
          obtain rfl := rawDiff_of_not_dict hd (Or.inl hnd)
          rw [if_pos hnone, frontier_of_not_dict (Or.inl hnd), if_pos hnone, unmarshal_of_dollarFree hvw hvd,
            ihrest hothers hentries, List.append_assoc]
        · rw [if_neg hnone, hentry old u hl hd (by simpa using hnone)]
          show collectItems repr previous _ path _ = _
          rw [ihrest hothers hentries, List.append_assoc]

/-- **What is collected from the diff of two values is their frontier.** -/
theorem collect_frontier {previous p c d : Val} {path : List String} (hp : p.wf = true) (hc : c.wf = true)
    (hcd : dollarFree c = true) (hkind : SameKind p c) (hd : rawDiff p c = some d)
    (hat : getNested previous path = p) (acc : List LoggedChange) :
    collectChanges repr previous (unmarshal d) path acc = .ok (acc ++ frontier p c path) := by
  induction c using Val.ind generalizing p d path acc with
  | dict c ih =>
    obtain ⟨p, rfl⟩ := Val.exists_of_isDict (hkind [] _ _ rfl rfl)
    have hcn := (Val.wf_dict_iff.mp hc).1
    have hplain : ∀ item ∈ c, isReserved item.1 = false ∧ item.2.wf = true ∧ dollarFree item.2 = true := by
      rintro ⟨k, v⟩ hm
      have hv : c.lookup k = some v := (lookup_eq_some_iff hcn).mpr hm
      obtain ⟨hk, hvd⟩ := dollar_of_lookup hcd hv
      exact ⟨not_reserved hk, Val.wf_of_lookup hc hv, hvd⟩
    have hcommands : ∀ k ∈ keys (changes p c), isCommand k = false := fun k hk => by
      obtain ⟨item, hm, rfl⟩ := List.mem_map.mp ((keys_changes_sublist p c).subset hk)
      exact (not_reserved_iff.mp (hplain item hm).1).2
    rw [rawDiff_dict hcn] at hd
    split at hd
    · cases hd
    obtain rfl := Option.some.inj hd
    rw [unmarshal_rawDiff, collectChanges_dict hat, unescapedDiff_eq hcn hcommands, collectItems_deleted,
      collectItems_frontier hat hp hplain, frontier, List.append_assoc]
    rintro ⟨k, v⟩ hm old u hl hsub hnone acc
    have hv : c.lookup k = some v := (lookup_eq_some_iff hcn).mpr hm
    obtain ⟨-, hvw, hvd⟩ := hplain _ hm
    exact ih (k, v) hm (Val.wf_of_lookup hp hl) hvw hvd (hkind.inside hl hv) hsub
      (by rw [getNested_append, hat, getNested_singleton, hl]; rfl) acc
  | _ =>
    obtain rfl := rawDiff_of_not_dict hd (Or.inr rfl)
    rw [unmarshal_of_dollarFree hc hcd, collectChanges_of_not_dict rfl, hat, frontier_of_not_dict (Or.inr rfl)]

/-- Equal states have no frontier. -/
lemma frontier_eq_nil {p c : List (String × Val)} (hp : (Val.dict p).wf = true) (hc : (Val.dict c).wf = true)
    (h : (Val.dict p).pyEq (.dict c) = true) (path : List String) : frontier (.dict p) (.dict c) path = [] := by
  obtain ⟨hcn, hcv⟩ := Val.wf_dict_iff.mp hc
  have hd : diffEntries p c = [] := by
    have hnone := (rawDiff_eq_none hp hc).mpr ((Val.pyEq_iff hp hc).mp h)
    rw [rawDiff_dict hcn] at hnone
    by_contra hne
    rw [if_neg hne] at hnone
    cases hnone
  obtain ⟨hkeys, hitems⟩ := diffEntries_eq_nil.mp hd
  have hdeleted : deletedKeys p c = [] := List.filter_eq_nil_iff.mpr fun k hk => by simpa using hkeys k hk
  have hrest : ∀ rest : List (String × Val), (∀ item ∈ rest, item ∈ c) → frontierItems p rest path = [] := by
    intro rest hsub
    induction rest with
    | nil => rw [frontierItems]
    | cons item rest ih =>
      obtain ⟨k, v⟩ := item
      obtain ⟨hm, hsub⟩ := List.forall_mem_cons.mp hsub
      have hchange := hitems _ hm
      rw [frontierItems, ih hsub, List.append_nil]
      rcases hl : p.lookup k with _ | old
      · simp [change, hl] at hchange
      · have hnone : rawDiff old v = none := by simpa [change, hl] using hchange
        have hold := Val.wf_of_lookup hp hl
        have hsame := (rawDiff_eq_none hold (hcv _ hm)).mp hnone
        exact if_pos ((Val.pyEq_iff hold (hcv _ hm)).mpr hsame)
  rw [frontier, hdeleted, hrest c fun _ hm => hm, List.map_nil, List.append_nil]

/-- **The change log lists the frontier** of the states before and after, in order. -/
theorem listed_frontier (repr : Val → String) {previous current : Dict} (hdollar : dollarFree current.val = true)
    (hkind : SameKind previous.val current.val) :
    listedChanges repr previous current = .ok (frontier previous.val current.val []) := by
  rw [listedChanges]
  rcases hd : diff previous current with _ | d
  · rw [show previous.val = .dict previous.items from rfl, show current.val = .dict current.items from rfl,
      frontier_eq_nil previous.wf current.wf (diff_eq_none.mp hd)]
    rfl
  · rw [Option.getD_some, collect_frontier previous.wf current.wf hdollar hkind hd rfl, List.nil_append]

end

/-! ### What is in a frontier -/

/-- The change says what becomes of the value at the path `rest`, and is listed under `path`. -/
inductive LoggedChange.Exact (p c : Val) (rest path : List String) : LoggedChange → Prop
  | gone (old : Val) (hp : valueAt p rest = some old) (hc : valueAt c rest = none) :
      Exact p c rest path ⟨.delete, path, .null⟩
  | new (v : Val) (hp : ∀ old, valueAt p rest = some old → isNone old = true) (hc : valueAt c rest = some v) :
      Exact p c rest path ⟨.add, path, v⟩
  | changed (old v : Val) (hp : valueAt p rest = some old) (hnone : isNone old = false)
      (hc : valueAt c rest = some v) : Exact p c rest path ⟨.update, path, v⟩

variable {p c : List (String × Val)} {k : String} {old v : Val} {path rest : List String}

lemma LoggedChange.Exact.path_eq {p c : Val} {change : LoggedChange} (h : change.Exact p c rest path) :
    change.path = path := by
  cases h <;> rfl

/-- What is exact below a key is exact. -/
lemma LoggedChange.Exact.under {change : LoggedChange} (h : change.Exact old v rest path)
    (hp : p.lookup k = some old) (hc : c.lookup k = some v) :
    change.Exact (.dict p) (.dict c) (k :: rest) path := by
  have hat : valueAt (.dict p) (k :: rest) = valueAt old rest := by rw [valueAt, hp]; rfl
  have hat' : valueAt (.dict c) (k :: rest) = valueAt v rest := by rw [valueAt, hc]; rfl
  cases h with
  | gone w hw hnone => exact .gone w (hat.trans hw) (hat'.trans hnone)
  | new w hnone hw => exact .new w (fun w' hw' => hnone w' (hat ▸ hw')) (hat'.trans hw)
  | changed w w' hw hnone hw' => exact .changed w w' (hat.trans hw) hnone (hat'.trans hw')

lemma LoggedChange.exact_whole (p c : Val) (path : List String) :
    LoggedChange.Exact p c [] path ⟨if isNone p then .add else .update, path, c⟩ := by
  by_cases hnone : isNone p = true
  · rw [if_pos hnone]
    refine .new c (fun old hold => ?_) rfl
    obtain rfl : p = old := Option.some.inj hold
    exact hnone
  · rw [if_neg hnone]
    exact .changed p c rfl (by simpa using hnone) rfl

/-- **Every listed change is exact.** -/
theorem exact_of_mem_frontier {p c : Val} (hc : c.wf = true) {change : LoggedChange}
    (h : change ∈ frontier p c path) : ∃ rest, change.Exact p c rest (path ++ rest) := by
  induction c using Val.ind generalizing p path with
  | dict c ih =>
    cases p with
    | dict p =>
      rw [frontier] at h
      rcases List.mem_append.mp h with h | h
      · obtain ⟨k, hk, rfl⟩ := List.mem_map.mp h
        obtain ⟨hin, hout⟩ := mem_deletedKeys.mp hk
        obtain ⟨old, hold⟩ := Option.isSome_iff_exists.mp (lookup_isSome_iff.mpr hin)
        exact ⟨[k], .gone old (by simp [valueAt, hold]) (by simp [valueAt, lookup_eq_none_iff.mpr hout])⟩
      · have hitems : ∀ items : List (String × Val), (∀ item ∈ items, item ∈ c) → change ∈ frontierItems p items path →
            ∃ rest, change.Exact (.dict p) (.dict c) rest (path ++ rest) := by
          intro items hsub h
          induction items with
          | nil =>
            rw [frontierItems] at h
            cases h
          | cons item items ihitems =>
            obtain ⟨k, v⟩ := item
            obtain ⟨hm, hsub⟩ := List.forall_mem_cons.mp hsub
            have hv : c.lookup k = some v := (lookup_eq_some_iff (Val.wf_dict_iff.mp hc).1).mpr hm
            rw [frontierItems] at h
            rcases List.mem_append.mp h with h | h
            · rcases hl : p.lookup k with _ | old
              · rw [hl] at h
                obtain rfl := List.mem_singleton.mp h
                exact ⟨[k], .new v (by simp [valueAt, hl]) (by simp [valueAt, hv])⟩
              · rw [hl] at h
                dsimp only at h
                split at h
                · cases h
                · obtain ⟨rest, hexact⟩ := ih (k, v) hm (Val.wf_of_lookup hc hv) h
                  exact ⟨k :: rest, by simpa using hexact.under hl hv⟩
            · exact ihitems hsub h
        exact hitems c (fun _ hm => hm) h
    | _ =>
      rw [frontier_of_not_dict (Or.inl rfl)] at h
      obtain rfl := List.mem_singleton.mp h
      refine ⟨[], ?_⟩
      rw [List.append_nil]
      exact LoggedChange.exact_whole _ _ path
  | _ =>
    rw [frontier_of_not_dict (Or.inr rfl)] at h
    obtain rfl := List.mem_singleton.mp h
    refine ⟨[], ?_⟩
    rw [List.append_nil]
    exact LoggedChange.exact_whole _ _ path

/-- The entries below a key of the new state. -/
lemma mem_frontier_of_lookup {change : LoggedChange} (hc : c.lookup k = some v)
    (h : change ∈ match p.lookup k with
      | none => [(⟨.add, path ++ [k], v⟩ : LoggedChange)]
      | some old => if old.pyEq v then [] else frontier old v (path ++ [k])) :
    change ∈ frontier (.dict p) (.dict c) path := by
  rw [frontier]
  refine List.mem_append_right _ ?_
  have hitems : ∀ items : List (String × Val), (k, v) ∈ items → change ∈ frontierItems p items path := by
    intro items hm
    induction items with
    | nil => cases hm
    | cons item items ih =>
      obtain ⟨j, w⟩ := item
      rw [frontierItems]
      rcases List.mem_cons.mp hm with he | hm
      · obtain ⟨rfl, rfl⟩ := Prod.mk.inj he
        exact List.mem_append_left _ h
      · exact List.mem_append_right _ (ih hm)
  exact hitems c (mem_of_lookup hc)

/-- What stands at a path of one of two equal values stands at that of the other. -/
lemma valueAt_sem {v w x : Val} (h : v.sem = w.sem) (hw : valueAt w rest = some x) :
    ∃ y, valueAt v rest = some y ∧ y.sem = x.sem := by
  induction rest generalizing v w with
  | nil =>
    obtain rfl : w = x := Option.some.inj hw
    exact ⟨v, rfl, h⟩
  | cons k rest ih =>
    cases w with
    | dict kvs =>
      obtain ⟨u, hu, hx⟩ := Option.bind_eq_some_iff.mp hw
      cases v with
      | dict items =>
        rw [Val.sem_dict, Val.sem_dict] at h
        have hk : (items.lookup k).map Val.sem = (kvs.lookup k).map Val.sem := congrFun (Tree.node.inj h) k
        rw [hu] at hk
        obtain ⟨o, ho, hsame⟩ := Option.map_eq_some_iff.mp hk
        obtain ⟨y, hy, hxy⟩ := ih hsame hx
        exact ⟨y, by rw [valueAt, ho]; exact hy, hxy⟩
      | _ => simp [Val.sem] at h
    | _ => cases hw

lemma wf_valueAt {v x : Val} (h : v.wf = true) (hx : valueAt v rest = some x) : x.wf = true := by
  induction rest generalizing v with
  | nil =>
    obtain rfl : v = x := Option.some.inj hx
    exact h
  | cons k rest ih =>
    cases v with
    | dict kvs =>
      obtain ⟨u, hu, hx⟩ := Option.bind_eq_some_iff.mp hx
      exact ih (Val.wf_of_lookup h hu) hx
    | _ => cases hx

/-- **Nothing that is new is left out**: what differs from what was there lies at or below a listed change, unless
it is an object where something was. -/
theorem frontier_covers {p c w : Val} (hp : p.wf = true) (hc : c.wf = true) (hw : valueAt c rest = some w)
    (hd : w.isDict = false ∨ valueAt p rest = none) (hdiffer : ∀ w', valueAt p rest = some w' → w'.pyEq w = false) :
    ∃ change ∈ frontier p c path, ∃ front, change.result ≠ none ∧ change.path = path ++ front ∧ front <+: rest := by
  have hwhole : ∀ (p c : Val) (path rest : List String), p.isDict = false ∨ c.isDict = false →
      ∃ change ∈ frontier p c path, ∃ front, change.result ≠ none ∧ change.path = path ++ front ∧ front <+: rest := by
    intro p c path rest h
    rw [frontier_of_not_dict h]
    refine ⟨_, List.mem_singleton_self _, [], ?_, (List.append_nil path).symm, List.nil_prefix⟩
    cases isNone p <;> exact Option.some_ne_none _
  induction c using Val.ind generalizing p rest path with
  | dict c ih =>
    cases p with
    | dict p =>
      cases rest with
      | nil =>
        obtain rfl : .dict c = w := Option.some.inj hw
        rcases hd with hd | hd <;> cases hd
      | cons k rest =>
        obtain ⟨v, hv, hw⟩ := Option.bind_eq_some_iff.mp hw
        have hvw := Val.wf_of_lookup hc hv
        rcases hl : p.lookup k with _ | old
        · refine ⟨⟨.add, path ++ [k], v⟩, mem_frontier_of_lookup hv (by simp [hl]), [k], Option.some_ne_none v, rfl, ?_⟩
          exact List.prefix_append [k] rest
        · have hold := Val.wf_of_lookup hp hl
          have hat : valueAt (.dict p) (k :: rest) = valueAt old rest := by rw [valueAt, hl]; rfl
          rw [hat] at hd hdiffer
          have hne : old.pyEq v = false := by
            by_contra hsame
            have hsem := (Val.pyEq_iff hold hvw).mp (by simpa using hsame)
            obtain ⟨y, hy, hyw⟩ := valueAt_sem hsem hw
            have := (Val.pyEq_iff (wf_valueAt hold hy) (wf_valueAt hvw hw)).mpr hyw
            simp [hdiffer y hy] at this
          obtain ⟨change, hm, front, hresult, hpath, hfront⟩ := ih (k, v) (mem_of_lookup hv)
            hold hvw hw hd hdiffer
          refine ⟨change, mem_frontier_of_lookup hv (by simpa [hl, hne] using hm), k :: front, hresult, ?_, ?_⟩
          · simpa using hpath
          · exact List.cons_prefix_cons.mpr ⟨rfl, hfront⟩
    | _ => exact hwhole _ _ path rest (Or.inl rfl)
  | _ => exact hwhole _ _ path rest (Or.inr rfl)

/-- **Nothing that is gone is left out**, as long as no path changes between object and non-object. -/
theorem frontier_deletes {p c w : Val} (hp : p.wf = true) (hc : c.wf = true) (hkind : SameKind p c)
    (hw : valueAt p rest = some w) (hgone : valueAt c rest = none) :
    ∃ change ∈ frontier p c path, ∃ front, change.type = .delete ∧ change.path = path ++ front ∧ front <+: rest := by
  have hroot := hkind [] p c rfl rfl
  cases rest with
  | nil => cases hgone
  | cons k rest =>
    induction c using Val.ind generalizing p k rest path with
    | dict c ih =>
      obtain ⟨p, rfl⟩ := Val.exists_of_isDict hroot
      obtain ⟨old, hold, hw⟩ := Option.bind_eq_some_iff.mp hw
      rcases hl : c.lookup k with _ | v
      · have hdeleted : k ∈ deletedKeys p c :=
          mem_deletedKeys.mpr ⟨mem_keys_of_lookup hold, lookup_eq_none_iff.mp hl⟩
        refine ⟨⟨.delete, path ++ [k], .null⟩, ?_, [k], rfl, rfl, List.prefix_append [k] rest⟩
        rw [frontier]
        exact List.mem_append_left _ (List.mem_map_of_mem hdeleted)
      · have hgone : valueAt v rest = none := by rw [valueAt, hl] at hgone; exact hgone
        have hkind' := hkind.inside hold hl
        have holdw := Val.wf_of_lookup hp hold
        have hvw := Val.wf_of_lookup hc hl
        have hne : old.pyEq v = false := by
          by_contra hsame
          have hsem := (Val.pyEq_iff holdw hvw).mp (by simpa using hsame)
          obtain ⟨y, hy, -⟩ := valueAt_sem hsem.symm hw
          rw [hgone] at hy
          cases hy
        cases rest with
        | nil => cases hgone
        | cons j rest =>
          obtain ⟨change, hm, front, htype, hpath, hfront⟩ := ih (k, v) (mem_of_lookup hl)
            holdw hvw hkind' (hkind' [] _ _ rfl rfl) j rest hw hgone
          refine ⟨change, mem_frontier_of_lookup hl (by simpa [hold, hne] using hm), k :: front, htype, ?_, ?_⟩
          · simpa using hpath
          · exact List.cons_prefix_cons.mpr ⟨rfl, hfront⟩
    | _ =>
      cases p with
      | dict => cases hroot
      | _ => cases hw

/-! ### The change log -/

end Kanta
