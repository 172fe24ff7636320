import Kanta.DiffShape

/-!
# Applying a diff

What the two loops of `_apply` do.  Over a dict, each item decides the value under its own key, and
the keys `$delete` and `$insert` only ever lose theirs.  The result of an application is again a
value without double keys.
-/

namespace Kanta

open Kanta.Lib Kanta.Lib.Assoc

/-! ### The cases of one application -/

lemma rawApply_dict {state : Val} {diff : List (String × Val)} (h : diff ≠ []) :
    rawApply state (.dict diff) =
      match diff.lookup "$replace" with
      | some value => .ok value
      | none =>
        match state with
        | .list xs =>
          if isListPatch diff then do
            let result ← listDeletes diff xs
            let result ← listInserts diff result
            .list <$> applyIndices diff result
          else .ok (.dict diff)
        | .dict kvs => .dict <$> applyItems diff kvs
        | _ => .dict <$> applyItems diff [] := by
  cases hr : diff.lookup "$replace" <;> cases state <;> simp only [rawApply, if_neg h, hr]

lemma rawApply_nil (state : Val) : rawApply state (.dict []) = .ok state := by
  cases state <;> simp only [rawApply, if_true]

lemma rawApply_not_dict {state diff : Val} (h : diff.isDict = false) : rawApply state diff = .ok diff := by
  cases diff <;> first | rfl | simp [Val.isDict] at h

/-! ### The items of a diff, applied to a dict -/

/-- The keys that are commands to the loop over the items. -/
def isCommand (k : String) : Bool := k = "$delete" || k = "$insert"

/-- What one item of a diff makes of the value under its key. -/
def applyEntry (old : Option Val) (value : Val) : Except Exc Val :=
  match old with
  | some old => rawApply old value
  | none => .ok value

lemma applyItems_cons {key : String} {value : Val} {rest result : List (String × Val)}
    (h : isCommand key = false) :
    applyItems ((key, value) :: rest) result =
      applyEntry (result.lookup key) value >>= fun new => applyItems rest (put key new result) := by
  simp only [isCommand, Bool.or_eq_false_iff, decide_eq_false_iff_not] at h
  rw [applyItems, if_neg h.1, if_neg h.2]
  cases result.lookup key <;> rfl

/-- What the loop leaves under a key when no key of the diff is a command. -/
lemma lookup_applyItems {diff result r : List (String × Val)} (hn : (keys diff).Nodup)
    (hc : ∀ k ∈ keys diff, isCommand k = false) (h : applyItems diff result = .ok r) (k : String) :
    (diff.lookup k = none → r.lookup k = result.lookup k) ∧
      ∀ value, diff.lookup k = some value →
        ∃ new, applyEntry (result.lookup k) value = .ok new ∧ r.lookup k = some new := by
  induction diff generalizing result with
  | nil =>
    obtain rfl : result = r := by simpa [applyItems] using h
    simp
  | cons p rest ih =>
    obtain ⟨key, value⟩ := p
    simp only [keys, List.map_cons, List.nodup_cons, List.forall_mem_cons] at hn hc
    rw [applyItems_cons hc.1, bind_eq_ok] at h
    obtain ⟨new, hnew, hrest⟩ := h
    have ih := ih hn.2 hc.2 hrest
    rw [lookup_cons_if]
    by_cases hk : k = key
    · subst hk
      have hr := ih.1 (lookup_eq_none_iff.mpr hn.1)
      rw [lookup_put_self] at hr
      simpa using ⟨new, hnew, hr⟩
    · rw [lookup_put_ne hk] at ih
      simpa [hk] using ih

/-- The loop succeeds when each of its items does. -/
lemma exists_applyItems {diff result : List (String × Val)} (hn : (keys diff).Nodup)
    (hc : ∀ k ∈ keys diff, isCommand k = false)
    (h : ∀ k value, diff.lookup k = some value → ∃ new, applyEntry (result.lookup k) value = .ok new) :
    ∃ r, applyItems diff result = .ok r := by
  induction diff generalizing result with
  | nil => exact ⟨result, rfl⟩
  | cons p rest ih =>
    obtain ⟨key, value⟩ := p
    simp only [keys, List.map_cons, List.nodup_cons, List.forall_mem_cons] at hn hc
    obtain ⟨new, hnew⟩ := h key value (by simp)
    obtain ⟨r, hr⟩ : ∃ r, applyItems rest (put key new result) = .ok r := ih hn.2 hc.2 fun k value' hk => by
      have hne : k ≠ key := fun e => hn.1 (e ▸ mem_keys_of_lookup hk)
      rw [lookup_put_ne hne]
      exact h k value' (by rw [lookup_cons_if, if_neg hne, hk])
    exact ⟨r, by rw [applyItems_cons hc.1, bind_eq_ok]; exact ⟨new, hnew, hr⟩⟩

lemma dictPop_eq {result r : List (String × Val)} {k : Val} (h : dictPop result k = .ok r) :
    r = result ∨ ∃ s, r = remove s result := by
  unfold dictPop at h
  split at h
  · exact Or.inl (by simpa using h.symm)
  · cases k with
    | str s => exact Or.inr ⟨s, by simpa using h.symm⟩
    | list | dict => simp at h
    | _ => exact Or.inl (by simpa using h.symm)

/-- No diff writes under a command: the value stays or goes. -/
lemma lookup_command {diff result r : List (String × Val)} {k : String} (hk : isCommand k = true)
    (h : applyItems diff result = .ok r) : r.lookup k = result.lookup k ∨ r.lookup k = none := by
  induction diff generalizing result with
  | nil => exact Or.inl (by simpa [applyItems] using (congrArg (List.lookup k) (Except.ok.inj h)).symm)
  | cons p rest ih =>
    obtain ⟨key, value⟩ := p
    by_cases hc : isCommand key = true
    · simp only [isCommand, Bool.or_eq_true, decide_eq_true_eq] at hc
      rcases hc with rfl | rfl
      · rw [applyItems, if_pos rfl, bind_eq_ok] at h
        obtain ⟨result', hpop, hrest⟩ := h
        have hkeep : result'.lookup k = result.lookup k ∨ result'.lookup k = none := by
          refine foldlM_keeps (P := fun d => d.lookup k = result.lookup k ∨ d.lookup k = none)
            (fun a b _ c hab ha => ?_) hpop (Or.inl rfl)
          rcases dictPop_eq hab with rfl | ⟨s, rfl⟩
          · exact ha
          · rw [lookup_remove]
            split
            · exact Or.inr rfl
            · exact ha
        rcases ih hrest with e | e
        · rw [e]
          exact hkeep
        · exact Or.inr e
      · rw [applyItems, if_neg (by decide), if_pos rfl] at h
        exact ih h
    · rw [applyItems_cons (by simpa using hc), bind_eq_ok] at h
      obtain ⟨new, -, hrest⟩ := h
      have hne : k ≠ key := fun e => hc (e ▸ hk)
      simpa [lookup_put_ne hne] using ih hrest

/-- The keys of the result come from the dict or from the diff. -/
lemma mem_keys_applyItems {diff result r : List (String × Val)} {k : String}
    (h : applyItems diff result = .ok r) (hk : k ∈ keys r) : k ∈ keys result ∨ k ∈ keys diff := by
  induction diff generalizing result with
  | nil =>
    obtain rfl : result = r := by simpa [applyItems] using h
    exact Or.inl hk
  | cons p rest ih =>
    obtain ⟨key, value⟩ := p
    by_cases hc : isCommand key = true
    · simp only [isCommand, Bool.or_eq_true, decide_eq_true_eq] at hc
      rcases hc with rfl | rfl
      · rw [applyItems, if_pos rfl, bind_eq_ok] at h
        obtain ⟨result', hpop, hrest⟩ := h
        have hsub : ∀ j ∈ keys result', j ∈ keys result := by
          refine foldlM_keeps (P := fun d => ∀ j ∈ keys d, j ∈ keys result)
            (fun a b _ c hab ha => ?_) hpop (fun j hj => hj)
          rcases dictPop_eq hab with rfl | ⟨s, rfl⟩
          · exact ha
          · intro j hj
            obtain ⟨q, hq, rfl⟩ := List.mem_map.mp hj
            exact ha _ (List.mem_map_of_mem (mem_of_mem_remove hq))
        exact (ih hrest).imp (hsub k) (List.mem_cons_of_mem _)
      · rw [applyItems, if_neg (by decide), if_pos rfl] at h
        exact (ih h).imp id (List.mem_cons_of_mem _)
    · rw [applyItems_cons (by simpa using hc), bind_eq_ok] at h
      obtain ⟨new, -, hrest⟩ := h
      rcases ih hrest with h' | h'
      · rcases mem_keys_put.mp h' with rfl | h'
        · exact Or.inr List.mem_cons_self
        · exact Or.inl h'
      · exact Or.inr (List.mem_cons_of_mem _ h')

lemma foldlM_dictPop (deleted : List String) (result : List (String × Val)) :
    (deleted.map Val.str).foldlM dictPop result = .ok (deleted.foldl (fun d k => remove k d) result) := by
  induction deleted generalizing result with
  | nil => rfl
  | cons k deleted ih =>
    have hpop : dictPop result (.str k) = .ok (remove k result) := by
      unfold dictPop
      split
      · simp [*, remove]
      · rfl
    rw [List.map_cons, List.foldlM_cons, hpop, List.foldl_cons]
    exact ih _

lemma lookup_foldl_remove (deleted : List String) (result : List (String × Val)) (k : String) :
    (deleted.foldl (fun d k => remove k d) result).lookup k =
      if k ∈ deleted then none else result.lookup k := by
  induction deleted generalizing result with
  | nil => simp
  | cons j deleted ih =>
    rw [List.foldl_cons, ih, lookup_remove]
    by_cases h1 : k ∈ deleted <;> by_cases h2 : k = j <;> simp [h1, h2]

/-! ### The result is a dict again -/

lemma wf_dictPop {result r : List (String × Val)} {k : Val} (h : dictPop result k = .ok r)
    (hw : (Val.dict result).wf = true) : (Val.dict r).wf = true := by
  rcases dictPop_eq h with rfl | ⟨s, rfl⟩
  · exact hw
  · obtain ⟨hn, hv⟩ := Val.wf_dict_iff.mp hw
    exact Val.wf_dict_iff.mpr ⟨nodup_remove hn, fun q hq => hv q (mem_of_mem_remove hq)⟩

lemma wf_put {result : List (String × Val)} {k : String} {v : Val}
    (hw : (Val.dict result).wf = true) (hv : v.wf = true) : (Val.dict (put k v result)).wf = true := by
  obtain ⟨hn, hvs⟩ := Val.wf_dict_iff.mp hw
  refine Val.wf_dict_iff.mpr ⟨nodup_put hn v, fun q hq => ?_⟩
  rcases mem_put hq with ⟨-, e⟩ | hq
  · rw [e]
    exact hv
  · exact hvs q hq

lemma wf_applyItems {diff result r : List (String × Val)} (hd : ∀ q ∈ diff, q.2.wf = true)
    (ih : ∀ q ∈ diff, ∀ s t : Val, s.wf = true → rawApply s q.2 = .ok t → t.wf = true)
    (hw : (Val.dict result).wf = true) (h : applyItems diff result = .ok r) :
    (Val.dict r).wf = true := by
  induction diff generalizing result with
  | nil =>
    obtain rfl : result = r := by simpa [applyItems] using h
    exact hw
  | cons p rest ihr =>
    obtain ⟨key, value⟩ := p
    rw [List.forall_mem_cons] at hd ih
    by_cases hc : isCommand key = true
    · simp only [isCommand, Bool.or_eq_true, decide_eq_true_eq] at hc
      rcases hc with rfl | rfl
      · rw [applyItems, if_pos rfl, bind_eq_ok] at h
        obtain ⟨result', hpop, hrest⟩ := h
        exact ihr hd.2 ih.2 (foldlM_keeps (P := fun d => (Val.dict d).wf = true)
          (fun a b _ c hab ha => wf_dictPop hab ha) hpop hw) hrest
      · rw [applyItems, if_neg (by decide), if_pos rfl] at h
        exact ihr hd.2 ih.2 hw h
    · rw [applyItems_cons (by simpa using hc), bind_eq_ok] at h
      obtain ⟨new, hnew, hrest⟩ := h
      refine ihr hd.2 ih.2 (wf_put hw ?_) hrest
      rcases hl : result.lookup key with _ | old <;> rw [hl, applyEntry] at hnew
      · exact Except.ok.inj hnew ▸ hd.1
      · exact ih.1 old new (Val.wf_of_lookup hw hl) hnew

lemma wf_iterate {v : Val} {xs : List Val} (hw : v.wf = true) (h : iterate v = .ok xs) :
    ∀ x ∈ xs, x.wf = true := by
  cases v with
  | list ys =>
    obtain rfl : ys = xs := Except.ok.inj h
    exact Val.wf_list_iff.mp hw
  | dict kvs =>
    obtain rfl := Except.ok.inj h
    intro x hx
    obtain ⟨k, -, rfl⟩ := List.mem_map.mp hx
    rfl
  | str s =>
    obtain rfl := Except.ok.inj h
    intro x hx
    obtain ⟨k, -, rfl⟩ := List.mem_map.mp hx
    rfl
  | _ => simp [iterate] at h

lemma wf_listDeletes {diff : List (String × Val)} {result r : List Val}
    (hr : ∀ x ∈ result, x.wf = true) (h : listDeletes diff result = .ok r) : ∀ x ∈ r, x.wf = true := by
  unfold listDeletes at h
  split at h
  · exact Except.ok.inj h ▸ hr
  · split at h
    · obtain ⟨ps, -, h⟩ := bind_eq_ok.mp h
      refine foldlM_keeps (P := fun l => ∀ x ∈ l, x.wf = true) (fun a b _ c hab ha => ?_) h hr
      obtain ⟨i, -, hab⟩ := bind_eq_ok.mp hab
      obtain ⟨j, -, hab⟩ := bind_eq_ok.mp hab
      rw [← Except.ok.inj hab]
      exact fun x hx => ha x (List.mem_of_mem_eraseIdx hx)
    · exact Except.ok.inj h ▸ hr

lemma wf_listInserts {diff : List (String × Val)} {result r : List Val}
    (hd : ∀ q ∈ diff, q.2.wf = true) (hr : ∀ x ∈ result, x.wf = true)
    (h : listInserts diff result = .ok r) : ∀ x ∈ r, x.wf = true := by
  obtain ⟨items, hi, h⟩ := bind_eq_ok.mp h
  have hitems : ∀ x ∈ items, x.wf = true := by
    refine wf_iterate ?_ hi
    rcases hl : diff.lookup "$insert" with _ | v
    · rfl
    · exact hd _ (mem_of_lookup hl)
  refine foldlM_keeps (P := fun l => ∀ x ∈ l, x.wf = true) (fun a item hm c hstep ha => ?_) h hr
  obtain ⟨⟨pos, value⟩, hpair, hstep⟩ := bind_eq_ok.mp hstep
  have hvalue : value.wf = true := by
    obtain ⟨ys, hy, hpair⟩ := bind_eq_ok.mp hpair
    have := wf_iterate (hitems item hm) hy
    split at hpair
    · obtain ⟨-, rfl⟩ := Prod.mk.inj (Except.ok.inj hpair)
      exact this _ (by simp)
    · simp at hpair
  obtain ⟨i, -, hstep⟩ := bind_eq_ok.mp hstep
  rw [← Except.ok.inj hstep]
  intro x hx
  rcases List.eq_or_mem_of_mem_insertIdx hx with rfl | hx
  · exact hvalue
  · exact ha x hx

lemma wf_applyIndices {diff : List (String × Val)} {result r : List Val}
    (ih : ∀ q ∈ diff, ∀ s t : Val, s.wf = true → rawApply s q.2 = .ok t → t.wf = true)
    (hr : ∀ x ∈ result, x.wf = true) (h : applyIndices diff result = .ok r) : ∀ x ∈ r, x.wf = true := by
  induction diff generalizing result with
  | nil =>
    obtain rfl : result = r := by simpa [applyIndices] using h
    exact hr
  | cons p rest ihr =>
    obtain ⟨key, value⟩ := p
    rw [List.forall_mem_cons] at ih
    rw [applyIndices] at h
    split at h
    · exact ihr ih.2 hr h
    · split at h
      · simp at h
      · obtain ⟨j, -, h⟩ := bind_eq_ok.mp h
        obtain ⟨new, hnew, h⟩ := bind_eq_ok.mp h
        refine ihr ih.2 ?_ h
        have hold : (result.getD j .null).wf = true := by
          rw [List.getD_eq_getElem?_getD]
          rcases he : result[j]? with _ | x
          · rfl
          · exact hr x (List.mem_of_getElem? he)
        intro x hx
        rcases List.mem_or_eq_of_mem_set hx with hx | rfl
        · exact hr x hx
        · exact ih.1 _ _ hold hnew

/-- Applying a diff gives a value without double keys. -/
theorem wf_rawApply {diff state r : Val} (hd : diff.wf = true) (hs : state.wf = true)
    (h : rawApply state diff = .ok r) : r.wf = true := by
  induction diff using Val.ind generalizing state r with
  | dict diff ih =>
    obtain ⟨-, hdv⟩ := Val.wf_dict_iff.mp hd
    have ih : ∀ q ∈ diff, ∀ s t : Val, s.wf = true → rawApply s q.2 = .ok t → t.wf = true :=
      fun q hq s t hs ht => ih q hq (hdv q hq) hs ht
    have hdict : ∀ kvs : List (String × Val), (Val.dict kvs).wf = true →
        Val.dict <$> applyItems diff kvs = .ok r → r.wf = true := by
      intro kvs hw h
      obtain ⟨a, ha, rfl⟩ := map_eq_ok.mp h
      exact wf_applyItems hdv ih hw ha
    by_cases hne : diff = []
    · subst hne
      rw [rawApply_nil] at h
      exact Except.ok.inj h ▸ hs
    · rw [rawApply_dict hne] at h
      split at h
      · rename_i value hl
        exact Except.ok.inj h ▸ hdv _ (mem_of_lookup hl)
      · split at h
        · split at h
          · obtain ⟨r1, h1, h⟩ := bind_eq_ok.mp h
            obtain ⟨r2, h2, h⟩ := bind_eq_ok.mp h
            obtain ⟨r3, h3, rfl⟩ := map_eq_ok.mp h
            have w1 := wf_listDeletes (Val.wf_list_iff.mp hs) h1
            exact Val.wf_list_iff.mpr (wf_applyIndices ih (wf_listInserts hdv w1 h2) h3)
          · exact Except.ok.inj h ▸ hd
        · exact hdict _ hs h
        · exact hdict [] rfl h
  | _ =>
    rw [rawApply_not_dict rfl] at h
    exact Except.ok.inj h ▸ hd

end Kanta
