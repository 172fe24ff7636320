import Kanta.History

/-!
# Diffs applied to other states

A log can hold changes behind a snapshot that shows them already, so a diff is also applied to
states it was not taken from.  When every path of the states holds objects only or no objects, and
no key or string starts with `$`, this never fails and does to the state what `Tree.Step` says
(`carries_record`).  By `Tree.absorb`, a stretch of history that is applied again to its own end is
absorbed (`reapply`).
-/

namespace Kanta

open Kanta.Lib Kanta.Lib.Assoc

/-! ### Where the objects are -/

/-- The paths inside the value of a key. -/
def under (τ : List String → Bool) (k : String) : List String → Bool := fun path => τ (k :: path)

mutual
/-- The value holds objects exactly at the paths that `τ` says.  Keys that start with `$` are none of
a state's own: they come from a diff that is read as a value. -/
def typed : Val → (List String → Bool) → Bool
  | .dict kvs, τ => τ [] && typedItems kvs τ
  | _, τ => !τ []
def typedItems : List (String × Val) → (List String → Bool) → Bool
  | [], _ => true
  | (k, v) :: rest, τ => (startsWith "$" k || typed v (under τ k)) && typedItems rest τ
end

lemma typed_isDict {v : Val} {τ : List String → Bool} (h : typed v τ = true) : v.isDict = τ [] := by
  cases v <;> simp_all [typed, Val.isDict]

lemma typed_of_not_dict {v : Val} {τ : List String → Bool} (hv : v.isDict = false) (hτ : τ [] = false) :
    typed v τ = true := by
  cases v <;> simp_all [typed, Val.isDict]

lemma typed_dict_iff {kvs : List (String × Val)} {τ : List String → Bool} (hn : (keys kvs).Nodup) :
    typed (.dict kvs) τ = true ↔
      τ [] = true ∧ ∀ k v, kvs.lookup k = some v → startsWith "$" k = false → typed v (under τ k) = true := by
  have hitems : typedItems kvs τ = true ↔
      ∀ q ∈ kvs, startsWith "$" q.1 = false → typed q.2 (under τ q.1) = true := by
    clear hn
    induction kvs with
    | nil => simp [typedItems]
    | cons q kvs ih =>
      obtain ⟨k, v⟩ := q
      rw [typedItems, Bool.and_eq_true, ih, List.forall_mem_cons]
      refine and_congr_left fun _ => ?_
      cases startsWith "$" k <;> simp
  rw [typed, Bool.and_eq_true, hitems]
  refine and_congr_right fun _ => ⟨fun h k v hl hk => h (k, v) (mem_of_lookup hl) hk, fun h q hq hk => ?_⟩
  exact h q.1 q.2 ((lookup_eq_some_iff hn).mpr hq) hk

section

variable {c : List (String × Val)} {k : String} {v : Val}

lemma dollar_of_lookup (h : dollarFree (.dict c) = true) (hl : c.lookup k = some v) :
    startsWith "$" k = false ∧ dollarFree v = true :=
  ⟨(dollarFree_dict_iff.mp h).1 k (mem_keys_of_lookup hl), (dollarFree_dict_iff.mp h).2 _ (mem_of_lookup hl)⟩

lemma not_reserved (h : startsWith "$" k = false) : isReserved k = false := by
  by_contra hr
  simp [startsWith_of_isReserved (by simpa using hr)] at h

lemma unmarshal_of_dollarFree (hw : v.wf = true) (h : dollarFree v = true) : unmarshal v = v :=
  unmarshal_of_doubleFree hw (doubleFree_of_dollarFree h)

end

/-! ### A value read as a diff -/

/-- A state that is merged into another one. -/
lemma merge_value {y t : Val} {τ : List String → Bool} (hy : y.wf = true) (hyd : dollarFree y = true)
    (hyτ : typed y τ = true) (ht : t.wf = true) (htτ : typed t τ = true) :
    ∃ t', rawApply t y = .ok t' ∧ typed t' τ = true ∧
      Tree.Step (some t.sem) none (some y.sem) (some t'.sem) := by
  induction y using Val.ind generalizing t τ with
  | dict c ih =>
    have hcn := (Val.wf_dict_iff.mp hy).1
    obtain ⟨ts, rfl⟩ := Val.exists_of_isDict ((typed_isDict htτ).trans (typed_isDict hyτ).symm)
    have htn := (Val.wf_dict_iff.mp ht).1
    by_cases hne : c = []
    · subst hne
      refine ⟨_, rawApply_nil _, htτ, ?_⟩
      rw [Val.sem_dict, Val.sem_dict]
      exact .merge _ _ _ fun k => .same _ _
    have hcmd : ∀ k ∈ keys c, isReserved k = false := fun k hk =>
      not_reserved ((dollarFree_dict_iff.mp hyd).1 k hk)
    -- what becomes of one key
    have hentry : ∀ k v, c.lookup k = some v → ∃ new, applyEntry (ts.lookup k) v = .ok new ∧
        typed new (under τ k) = true ∧
        Tree.Step ((ts.lookup k).map Val.sem) none (some v.sem) (some new.sem) := by
      intro k v hk
      obtain ⟨hd, hvd⟩ := dollar_of_lookup hyd hk
      have hvτ := ((typed_dict_iff hcn).mp hyτ).2 k v hk hd
      rcases hl : ts.lookup k with _ | old
      · exact ⟨v, rfl, hvτ, .put _⟩
      · exact ih (k, v) (mem_of_lookup hk) (Val.wf_of_lookup hy hk) hvd hvτ (Val.wf_of_lookup ht hl)
          (((typed_dict_iff htn).mp htτ).2 k old hl hd)
    have hnone : c.lookup "$replace" = none :=
      lookup_eq_none_iff.mpr fun h => absurd (hcmd _ h) (by decide)
    have hcmd' : ∀ k ∈ keys c, isCommand k = false := fun k hk => (not_reserved_iff.mp (hcmd k hk)).2
    obtain ⟨r, hr⟩ : ∃ r, applyItems c ts = .ok r := exists_applyItems hcn hcmd' fun k v hk =>
      (hentry k v hk).imp fun _ h => h.1
    have hspec := lookup_applyItems hcn hcmd' hr
    have happ : rawApply (.dict ts) (.dict c) = .ok (.dict r) := by
      rw [rawApply_dict hne, hnone]
      exact map_eq_ok.mpr ⟨r, hr, rfl⟩
    refine ⟨_, happ, ?_, ?_⟩
    · refine (typed_dict_iff (Val.wf_dict_iff.mp (wf_rawApply hy ht happ)).1).mpr
        ⟨((typed_dict_iff hcn).mp hyτ).1, fun k v hl hd => ?_⟩
      rcases hk : c.lookup k with _ | w
      · rw [(hspec k).1 hk] at hl
        exact ((typed_dict_iff htn).mp htτ).2 k v hl hd
      · obtain ⟨new, hnew, hτ, -⟩ := hentry k w hk
        obtain ⟨new', hnew', hl'⟩ := (hspec k).2 w hk
        obtain rfl := Except.ok.inj (hnew.symm.trans hnew')
        obtain rfl := Option.some.inj (hl.symm.trans hl')
        exact hτ
    · rw [Val.sem_dict, Val.sem_dict, Val.sem_dict]
      refine .merge _ _ _ fun k => ?_
      rcases hk : c.lookup k with _ | w
      · rw [(hspec k).1 hk]
        exact .same _ _
      · obtain ⟨new, hnew, -, hstep⟩ := hentry k w hk
        obtain ⟨new', hnew', hl'⟩ := (hspec k).2 w hk
        obtain rfl := Except.ok.inj (hnew.symm.trans hnew')
        rw [hl']
        exact hstep
  | _ =>
    refine ⟨_, rawApply_not_dict rfl, hyτ, .set _ _ _ ?_⟩
    rw [Val.sem_isNode]
    simp [Val.isDict]

/-! ### A diff -/

/-- A diff that is read as a value holds objects where the states do. -/
lemma typed_diff {x y d : Val} {τ : List String → Bool} (hy : y.wf = true) (hyd : dollarFree y = true)
    (hxτ : typed x τ = true) (hyτ : typed y τ = true) (hx : x.wf = true) (h : rawDiff x y = some d) :
    typed (unmarshal d) τ = true := by
  induction y using Val.ind generalizing x d τ with
  | dict c ih =>
    have hcn := (Val.wf_dict_iff.mp hy).1
    obtain ⟨p, rfl⟩ := Val.exists_of_isDict ((typed_isDict hxτ).trans (typed_isDict hyτ).symm)
    have hpn := (Val.wf_dict_iff.mp hx).1
    have hdw := wf_unmarshal (wf_rawDiff hy h)
    rw [rawDiff_dict hcn] at h
    split at h
    · simp at h
    · obtain rfl := Option.some.inj h
      rw [unmarshal_rawDiff] at hdw ⊢
      refine (typed_dict_iff (Val.wf_dict_iff.mp hdw).1).mpr
        ⟨((typed_dict_iff hcn).mp hyτ).1, fun k v hl hd => ?_⟩
      rw [lookup_unescapedDiff_of_ne hcn (by rintro rfl; simp [startsWith] at hd)] at hl
      obtain ⟨u, hu, rfl⟩ := Option.map_eq_some_iff.mp hl
      obtain ⟨v, hv, hch⟩ := (lookup_changes hcn).mp hu
      obtain ⟨-, hvd⟩ := dollar_of_lookup hyd hv
      have hvw := Val.wf_of_lookup hy hv
      have hvτ := ((typed_dict_iff hcn).mp hyτ).2 k v hv hd
      rcases change_eq_some.mp hch with ⟨-, rfl⟩ | ⟨old, ho, hsub⟩
      · rw [unmarshal_of_dollarFree hvw hvd]
        exact hvτ
      · exact ih (k, v) (mem_of_lookup hv) hvw hvd (((typed_dict_iff hpn).mp hxτ).2 k old ho hd) hvτ
          (Val.wf_of_lookup hx ho) hsub
  | _ =>
    obtain rfl := rawDiff_of_not_dict h (Or.inr rfl)
    rw [unmarshal_of_dollarFree hy hyd]
    exact hyτ

/-- **A diff applied to any state** does what the difference of the trees does. -/
theorem step_diff {x y d t : Val} {τ : List String → Bool} (hx : x.wf = true) (hy : y.wf = true)
    (hyd : dollarFree y = true) (hxτ : typed x τ = true) (hyτ : typed y τ = true)
    (h : rawDiff x y = some d) (ht : t.wf = true) (htτ : typed t τ = true) :
    ∃ t', rawApply t (unmarshal d) = .ok t' ∧ typed t' τ = true ∧
      Tree.Step (some t.sem) (some x.sem) (some y.sem) (some t'.sem) := by
  induction y using Val.ind generalizing x d t τ with
  | dict c ih =>
    have hcn := (Val.wf_dict_iff.mp hy).1
    obtain ⟨p, rfl⟩ := Val.exists_of_isDict ((typed_isDict hxτ).trans (typed_isDict hyτ).symm)
    obtain ⟨ts, rfl⟩ := Val.exists_of_isDict ((typed_isDict htτ).trans (typed_isDict hyτ).symm)
    have hpn := (Val.wf_dict_iff.mp hx).1
    have htn := (Val.wf_dict_iff.mp ht).1
    have hdw := wf_unmarshal (wf_rawDiff hy h)
    rw [rawDiff_dict hcn] at h
    split at h
    · simp at h
    rename_i hne
    obtain rfl := Option.some.inj h
    rw [unmarshal_rawDiff] at hdw ⊢
    have hres : ∀ k ∈ keys (changes p c), isReserved k = false := fun k hk =>
      not_reserved ((dollarFree_dict_iff.mp hyd).1 k ((keys_changes_sublist p c).subset hk))
    have hcmd : ∀ k ∈ keys (changes p c), isCommand k = false := fun k hk =>
      (not_reserved_iff.mp (hres k hk)).2
    have hnone : (unescapedDiff p c).lookup "$replace" = none := by
      rw [lookup_unescapedDiff_of_ne hcn (by decide), lookup_eq_none_iff.mpr]
      · rfl
      · exact fun hk => absurd (hres _ hk) (by decide)
    -- what becomes of a changed key
    have hentry : ∀ k u, (changes p c).lookup k = some u → ∃ v new, c.lookup k = some v ∧
        applyEntry (ts.lookup k) (unmarshal u) = .ok new ∧ typed new (under τ k) = true ∧
        Tree.Step ((ts.lookup k).map Val.sem) ((p.lookup k).map Val.sem) (some v.sem) (some new.sem) := by
      intro k u hu
      obtain ⟨v, hv, hch⟩ := (lookup_changes hcn).mp hu
      obtain ⟨hd, hvd⟩ := dollar_of_lookup hyd hv
      have hvw := Val.wf_of_lookup hy hv
      have hvτ := ((typed_dict_iff hcn).mp hyτ).2 k v hv hd
      have htk := fun old hl => ((typed_dict_iff htn).mp htτ).2 k old hl hd
      rcases change_eq_some.mp hch with ⟨ho, rfl⟩ | ⟨o, ho, hsub⟩
      · rw [unmarshal_of_dollarFree hvw hvd, ho]
        rcases hl : ts.lookup k with _ | old
        · exact ⟨u, u, hv, rfl, hvτ, .put _⟩
        · obtain ⟨new, hnew, hτ, hstep⟩ := merge_value hvw hvd hvτ (Val.wf_of_lookup ht hl) (htk old hl)
          exact ⟨u, new, hv, hnew, hτ, hstep⟩
      · have hoτ := ((typed_dict_iff hpn).mp hxτ).2 k o ho hd
        have how := Val.wf_of_lookup hx ho
        rw [ho]
        rcases hl : ts.lookup k with _ | old
        · exact ⟨v, unmarshal u, hv, rfl, typed_diff hvw hvd hoτ hvτ how hsub, .stray _ _ _⟩
        · obtain ⟨new, hnew, hτ, hstep⟩ := ih (k, v) (mem_of_lookup hv) how hvw hvd hoτ hvτ hsub
            (Val.wf_of_lookup ht hl) (htk old hl)
          exact ⟨v, new, hv, hnew, hτ, hstep⟩
    obtain ⟨r, hr⟩ : ∃ r, applyItems (unescapedDiff p c) ts = .ok r := exists_apply hcn hcmd fun k u hu => by
      obtain ⟨v, new, -, hnew, -⟩ := hentry k u hu
      exact ⟨new, hnew⟩
    have hspec := lookup_apply hcn hcmd hr
    have happ : rawApply (.dict ts) (.dict (unescapedDiff p c)) = .ok (.dict r) := by
      rw [rawApply_dict (unescapedDiff_ne_nil hne), hnone]
      exact map_eq_ok.mpr ⟨r, hr, rfl⟩
    refine ⟨_, happ, ?_, ?_⟩
    · refine (typed_dict_iff (Val.wf_dict_iff.mp (wf_rawApply hdw ht happ)).1).mpr
        ⟨((typed_dict_iff hcn).mp hyτ).1, fun k v hl hd => ?_⟩
      rcases hk : (changes p c).lookup k with _ | u
      · rw [(hspec k).1 hk] at hl
        split at hl
        · simp at hl
        · exact ((typed_dict_iff htn).mp htτ).2 k v hl hd
      · obtain ⟨-, new, -, hnew, hτ, -⟩ := hentry k u hk
        obtain ⟨new', hnew', hl'⟩ := (hspec k).2 u hk
        obtain rfl := Except.ok.inj (hnew.symm.trans hnew')
        obtain rfl := Option.some.inj (hl.symm.trans hl')
        exact hτ
    · rw [Val.sem_dict, Val.sem_dict, Val.sem_dict, Val.sem_dict]
      refine .inside _ _ _ _ fun k => ?_
      rcases hk : (changes p c).lookup k with _ | u
      · rw [(hspec k).1 hk]
        by_cases hdel : k ∈ deletedKeys p c
        · obtain ⟨hpk, hck⟩ := mem_deletedKeys.mp hdel
          obtain ⟨o, ho⟩ := Option.isSome_iff_exists.mp (lookup_isSome_iff.mpr hpk)
          rw [if_pos hdel, lookup_eq_none_iff.mpr hck, ho]
          exact .drop _ _
        · rw [if_neg hdel]
          have hsame : (p.lookup k).map Val.sem = (c.lookup k).map Val.sem := by
            refine (unchanged hx hy hk).elim (fun hc => ?_) id
            have hp : p.lookup k = none := by
              by_contra hne
              refine hdel (mem_deletedKeys.mpr ⟨?_, lookup_eq_none_iff.mp hc⟩)
              exact lookup_isSome_iff.mp (Option.isSome_iff_ne_none.mpr hne)
            rw [hp, hc]
          rw [hsame]
          exact .same _ _
      · obtain ⟨v, new, hv, hnew, -, hstep⟩ := hentry k u hk
        obtain ⟨new', hnew', hl'⟩ := (hspec k).2 u hk
        obtain rfl := Except.ok.inj (hnew.symm.trans hnew')
        rw [hl', hv]
        exact hstep
  | _ =>
    obtain rfl := rawDiff_of_not_dict h (Or.inr rfl)
    rw [unmarshal_of_dollarFree hy hyd]
    refine ⟨_, rawApply_not_dict rfl, hyτ, .set _ _ _ ?_⟩
    rw [Val.sem_isNode]
    simp [Val.isDict]

/-! ### A stretch of history, applied again -/

/-- The change carries over from `x` to `y` on every state of the type. -/
def Carries (τ : List String → Bool) (change : ChangeRecord) (x y : Val) : Prop :=
  ∀ t : Val, t.wf = true → typed t τ = true → ∃ t', patch t change.diff.val = .ok t' ∧
    t'.wf = true ∧ typed t' τ = true ∧ Tree.Step (some t.sem) (some x.sem) (some y.sem) (some t'.sem)

lemma carries_record {τ : List String → Bool} {previous current : Dict} {record : ChangeRecord}
    (hd : record.diff = (delta previous current).getD .empty) (hcd : dollarFree current.val = true)
    (hp : typed previous.val τ = true) (hc : typed current.val τ = true) :
    Carries τ record previous.val current.val := by
  intro t ht htτ
  rcases hdiff : diff previous current with _ | d
  · have hnone : record.diff = .empty := by rw [hd, delta, hdiff]; rfl
    refine ⟨t, ?_, ht, htτ, ?_⟩
    · rw [hnone]
      simp [patch, applyDiff, Dict.empty, unmarshal, unmarshalItems, rawApply_nil]
    · rw [Dict.pyEq_iff.mp (diff_eq_none.mp hdiff)]
      exact .same _ _
  · obtain ⟨dd, rfl, hdelta⟩ := exists_delta hdiff
    obtain ⟨t', ht', hτ, hstep⟩ := step_diff previous.wf current.wf hcd hp hc hdiff ht htτ
    rw [hd, hdelta, Option.getD_some]
    exact ⟨t', ht', wf_rawApply (wf_unmarshal dd.wf) ht ht', hτ, hstep⟩

/-- The states that the changes make of `t`, one after another. -/
lemma exists_states {τ : List String → Bool} {l : List ChangeRecord} {xs : ℕ → Val}
    (h : ∀ i c, l[i]? = some c → Carries τ c (xs i) (xs (i + 1))) {t : Val} (ht : t.wf = true)
    (htτ : typed t τ = true) : ∃ ts : ℕ → Val, ts 0 = t ∧ patchAll t l = .ok (ts l.length) ∧
      (ts l.length).wf = true ∧ typed (ts l.length) τ = true ∧
      ∀ i < l.length, Tree.Step (some (ts i).sem) (some (xs i).sem) (some (xs (i + 1)).sem)
        (some (ts (i + 1)).sem) := by
  induction l generalizing xs t with
  | nil => exact ⟨fun _ => t, rfl, rfl, ht, htτ, by simp⟩
  | cons c l ih =>
    obtain ⟨t', hp, hw, hτ, hstep⟩ := h 0 c rfl t ht htτ
    have h' : ∀ i c, l[i]? = some c → Carries τ c (xs (i + 1)) (xs (i + 1 + 1)) := fun i c hc => h (i + 1) c hc
    obtain ⟨ts, h0, hrun, hwn, hτn, hsteps⟩ := ih h' hw hτ
    refine ⟨fun | 0 => t | i + 1 => ts i, rfl, ?_, hwn, hτn, fun i hi => ?_⟩
    · rw [patchAll, List.foldlM_cons, hp]
      exact hrun
    · cases i with
      | zero => simpa [h0] using hstep
      | succ i => exact hsteps i (by simpa using hi)

/-- **A stretch of history is absorbed** by a state that has seen the first `j` changes of it: the
changes never fail and lead to the end of the stretch. -/
theorem reapply {τ : List String → Bool} {l : List ChangeRecord} {xs : ℕ → Val}
    (h : ∀ i c, l[i]? = some c → Carries τ c (xs i) (xs (i + 1))) {t : Val} (ht : t.wf = true)
    (htτ : typed t τ = true) {j : ℕ} (hj : j ≤ l.length) (hsem : t.sem = (xs j).sem) :
    ∃ t', patchAll t l = .ok t' ∧ t'.wf = true ∧ typed t' τ = true ∧ t'.sem = (xs l.length).sem := by
  obtain ⟨ts, h0, hrun, hw, hτ, hsteps⟩ := exists_states h ht htτ
  have hmeet : some (ts j).sem = some (xs j).sem :=
    Tree.absorb (some (xs j).sem) (n := j)
      (fun i hi => hsteps i (by omega)) rfl (by simp [h0, hsem])
  have hend : some (ts l.length).sem = some (xs l.length).sem := Tree.exact_from hsteps hj hmeet
  exact ⟨ts l.length, hrun, hw, hτ, by simpa using hend⟩

/-! ### States in a row -/

/-- The value at a path of keys. -/
def valueAt : Val → List String → Option Val
  | v, [] => some v
  | .dict kvs, k :: path => (kvs.lookup k).bind fun v => valueAt v path
  | _, _ :: _ => none

/-- The values at one path are all objects, or all none. -/
def OneKind (states : ℕ → Dict) (n : ℕ) : Prop :=
  ∀ i ≤ n, ∀ j ≤ n, ∀ path v w, valueAt (states i).val path = some v → valueAt (states j).val path = some w →
    v.isDict = w.isDict

/-- The diff of one step. -/
def stepDiff (states : ℕ → Dict) (j : ℕ) : Option Val := diff (states j) (states (j + 1))

/-- The diffs of the steps from `i` to `n`; a step without a change has none. -/
def diffsFrom (states : ℕ → Dict) (i n : ℕ) : List Val := (List.range' i (n - i)).filterMap (stepDiff states)

/-- A record that holds the diff of one step. -/
def stepRecord (states : ℕ → Dict) (j : ℕ) : ChangeRecord :=
  { ts := ⟨0, none⟩, diff := (delta (states j) (states (j + 1))).getD .empty }

/-- A value that holds objects where `τ` says is of that type. -/
lemma typed_of_valueAt {v : Val} {τ : List String → Bool} (hv : v.wf = true)
    (h : ∀ path w, valueAt v path = some w → w.isDict = τ path) : typed v τ = true := by
  induction v using Val.ind generalizing τ with
  | dict kvs ih =>
    refine (typed_dict_iff (Val.wf_dict_iff.mp hv).1).mpr ⟨(h [] _ rfl).symm, fun k v hl _ => ?_⟩
    refine ih (k, v) (mem_of_lookup hl) (Val.wf_of_lookup hv hl) fun path w hw => ?_
    exact h (k :: path) w (by rw [valueAt, hl]; exact hw)
  | _ => exact typed_of_not_dict rfl (h [] _ rfl).symm

lemma isDict_of_typed {v w : Val} {τ : List String → Bool} {path : List String} (hv : v.wf = true)
    (hd : dollarFree v = true) (h : typed v τ = true) (hw : valueAt v path = some w) : w.isDict = τ path := by
  induction path generalizing v τ with
  | nil =>
    obtain rfl := Option.some.inj hw
    exact typed_isDict h
  | cons k path ih =>
    cases v with
    | dict kvs =>
      obtain ⟨u, hu, hw⟩ := Option.bind_eq_some_iff.mp hw
      obtain ⟨hk, hud⟩ := dollar_of_lookup hd hu
      have hτ := ((typed_dict_iff (Val.wf_dict_iff.mp hv).1).mp h).2 k u hu hk
      exact ih (Val.wf_of_lookup hv hu) hud hτ hw
    | _ => simp [valueAt] at hw

/-- States of one kind are of one type. -/
lemma OneKind.exists_typed {states : ℕ → Dict} {n : ℕ} (h : OneKind states n) :
    ∃ τ, ∀ i ≤ n, typed (states i).val τ = true := by
  classical
  refine ⟨fun path => decide (∃ i ≤ n, ∃ v, valueAt (states i).val path = some v ∧ v.isDict = true), fun i hi => ?_⟩
  refine typed_of_valueAt (states i).wf fun path w hw => ?_
  cases hdict : w.isDict with
  | true => exact (decide_eq_true ⟨i, hi, w, hw, hdict⟩).symm
  | false =>
    refine (decide_eq_false ?_).symm
    rintro ⟨j, hj, v, hv, hvd⟩
    have := h j hj i hi path v w hv hw
    simp [hvd, hdict] at this

/-- Applying diffs is patching in the records that hold them. -/
lemma foldlM_diffs {states : ℕ → Dict} {t t' : Val} {js : List ℕ}
    (h : patchAll t (js.map (stepRecord states)) = .ok t') :
    (js.filterMap (stepDiff states)).foldlM applyDiff t = .ok t' := by
  induction js generalizing t with
  | nil => exact h
  | cons j js ih =>
    rw [List.map_cons, patchAll, List.foldlM_cons] at h
    obtain ⟨u, hu, h⟩ := bind_eq_ok.mp h
    rcases hdiff : stepDiff states j with _ | d
    · have hnone : (stepRecord states j).diff = .empty := by
        rw [stepRecord, delta, show diff (states j) (states (j + 1)) = none from hdiff]
        rfl
      have hsame : patch t (stepRecord states j).diff.val = .ok t := by
        simp [hnone, patch, applyDiff, Dict.empty, unmarshal, unmarshalItems, rawApply_nil]
      obtain rfl := Except.ok.inj (hsame.symm.trans hu)
      rw [List.filterMap_cons_none hdiff]
      exact ih h
    · obtain ⟨dd, rfl, hdelta⟩ := exists_delta hdiff
      have hrecord : (stepRecord states j).diff = dd := by rw [stepRecord, hdelta, Option.getD_some]
      rw [List.filterMap_cons_some hdiff, List.foldlM_cons]
      exact bind_eq_ok.mpr ⟨u, hrecord ▸ hu, ih h⟩

/-- **Changes that a state has absorbed** are applied to it again without harm. -/
theorem reapply_absorbed {states : ℕ → Dict} {n i : ℕ} (hi : i ≤ n)
    (hdollar : ∀ j ≤ n, dollarFree (states j).val = true) (hkind : OneKind states n) :
    ∃ t, (diffsFrom states i n).foldlM applyDiff (states n).val = .ok t ∧ t.pyEq (states n).val = true := by
  obtain ⟨τ, hτ⟩ := hkind.exists_typed
  have hcarries : ∀ k c, ((List.range' i (n - i)).map (stepRecord states))[k]? = some c →
      Carries τ c (states (i + k)).val (states (i + (k + 1))).val := by
    intro k c hc
    rw [List.getElem?_map] at hc
    obtain ⟨j, hj, rfl⟩ := Option.map_eq_some_iff.mp hc
    have hk : k < n - i := by
      obtain ⟨hlt, -⟩ := List.getElem?_eq_some_iff.mp hj
      simpa using hlt
    obtain rfl : i + k = j := by simpa [List.getElem?_range', hk] using hj
    exact carries_record rfl (hdollar _ (by omega)) (hτ _ (by omega)) (hτ _ (by omega))
  have hsem : (states n).val.sem = (states (i + (n - i))).val.sem := by rw [Nat.add_sub_cancel' hi]
  obtain ⟨t, ht, hwf, -, hsem⟩ := @reapply _ _ (fun k => (states (i + k)).val) hcarries _ (states n).wf (hτ n le_rfl)
    (n - i) (by simp) hsem
  refine ⟨t, foldlM_diffs ht, (Val.pyEq_iff hwf (states n).wf).mpr ?_⟩
  rw [hsem, List.length_map, List.length_range', Nat.add_sub_cancel' hi]

namespace Sample

/-- `{}`, then `{"a": {"x": 1}}`, then `{}` again, then `{"a": {"y": 2}}`. -/
def comeAndGone : ℕ → Dict
  | 1 => ⟨[("a", .dict [("x", .int 1)])], by decide⟩
  | 3 => ⟨[("a", .dict [("y", .int 2)])], by decide⟩
  | _ => .empty

/-- Where the objects of these states are. -/
def objects (path : List String) : Bool := path = [] || path = ["a"]

lemma typed_comeAndGone (j : ℕ) : typed (comeAndGone j).val objects = true ∧ dollarFree (comeAndGone j).val = true := by
  unfold comeAndGone
  split <;> decide +kernel

end Sample

open Sample in
/-- The object that comes and goes is applied to the last state again. -/
theorem reapply_absorbed_comeAndGone : (diffsFrom comeAndGone 0 3).length = 3 ∧
    ∃ t, (diffsFrom comeAndGone 0 3).foldlM applyDiff (comeAndGone 3).val = .ok t ∧
      t.pyEq (comeAndGone 3).val = true := by
  refine ⟨by decide +kernel, reapply_absorbed (by decide) (fun j _ => (typed_comeAndGone j).2) ?_⟩
  intro i _ j _ path v w hv hw
  rw [isDict_of_typed (comeAndGone i).wf (typed_comeAndGone i).2 (typed_comeAndGone i).1 hv,
    isDict_of_typed (comeAndGone j).wf (typed_comeAndGone j).2 (typed_comeAndGone j).1 hw]

end Kanta
