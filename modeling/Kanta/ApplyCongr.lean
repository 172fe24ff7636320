import Kanta.ApplyLemmas
import Mathlib.Data.List.InsertIdx

/-!
# Equal states

A diff cannot tell two states apart that are equal in Python: applied to either it gives equal
results, whatever the order of the keys and the types of the numbers (`rawApply_congr`).
-/

namespace Kanta

open Kanta.Lib Kanta.Lib.Assoc

/-! ### Dicts -/

/-- The two dicts have equal values under every key. -/
def Alike (kvs kvs' : List (String × Val)) : Prop :=
  ∀ k, (kvs.lookup k).map Val.sem = (kvs'.lookup k).map Val.sem

lemma alike_iff {kvs kvs' : List (String × Val)} : Alike kvs kvs' ↔ (Val.dict kvs).sem = (Val.dict kvs').sem := by
  simp [Alike, funext_iff]

namespace Alike

variable {kvs kvs' : List (String × Val)}

lemma put (h : Alike kvs kvs') (k : String) {v v' : Val} (hv : v.sem = v'.sem) :
    Alike (put k v kvs) (Assoc.put k v' kvs') := by
  intro j
  rw [lookup_put, lookup_put]
  split
  · simp [hv]
  · exact h j

lemma remove (h : Alike kvs kvs') (k : String) : Alike (remove k kvs) (Assoc.remove k kvs') := by
  intro j
  rw [lookup_remove, lookup_remove]
  split
  · rfl
  · exact h j

lemma nil_iff (h : Alike kvs kvs') : kvs = [] ↔ kvs' = [] := by
  have key : ∀ {l l' : List (String × Val)}, Alike l l' → l' = [] → l = [] := by
    rintro (_ | ⟨⟨k, v⟩, l⟩) _ h rfl
    · rfl
    · simpa using h k
  exact ⟨key fun k => (h k).symm, key h⟩

lemma dictPop {k : Val} {r : List (String × Val)} (h : Alike kvs kvs')
    (hr : dictPop kvs k = .ok r) : ∃ r', Kanta.dictPop kvs' k = .ok r' ∧ Alike r r' := by
  unfold Kanta.dictPop at hr ⊢
  by_cases hnil : kvs = []
  · rw [if_pos hnil] at hr
    rw [if_pos (h.nil_iff.mp hnil)]
    obtain rfl := Except.ok.inj hr
    exact ⟨kvs', rfl, h⟩
  · rw [if_neg hnil] at hr
    rw [if_neg fun e => hnil (h.nil_iff.mpr e)]
    cases k with
    | str s =>
      obtain rfl := Except.ok.inj hr
      exact ⟨_, rfl, h.remove s⟩
    | list | dict => simp at hr
    | _ =>
      obtain rfl := Except.ok.inj hr
      exact ⟨kvs', rfl, h⟩

end Alike

/-- A loop whose steps respect a relation respects it. -/
lemma foldlM_congr {α β : Type} {R : α → α → Prop} {f : α → β → Except Exc α} {l : List β}
    (hf : ∀ a a' b c, R a a' → f a b = .ok c → ∃ c', f a' b = .ok c' ∧ R c c') {a a' c : α}
    (h : R a a') (hc : l.foldlM f a = .ok c) : ∃ c', l.foldlM f a' = .ok c' ∧ R c c' := by
  induction l generalizing a a' with
  | nil =>
    obtain rfl : a = c := Except.ok.inj hc
    exact ⟨a', rfl, h⟩
  | cons b l ih =>
    rw [List.foldlM_cons, bind_eq_ok] at hc
    obtain ⟨d, hd, hc⟩ := hc
    obtain ⟨d', hd', hR⟩ := hf a a' b d h hd
    obtain ⟨c', hc', hR'⟩ := ih hR hc
    exact ⟨c', by rw [List.foldlM_cons, hd']; exact hc', hR'⟩

/-- What a value of a diff makes of two equal states is equal. -/
def Respects (diff : Val) : Prop :=
  ∀ v w r : Val, v.sem = w.sem → rawApply v diff = .ok r → ∃ r', rawApply w diff = .ok r' ∧ r.sem = r'.sem

lemma applyItems_congr {diff kvs kvs' r : List (String × Val)} (hd : ∀ q ∈ diff, Respects q.2)
    (h : Alike kvs kvs') (hr : applyItems diff kvs = .ok r) :
    ∃ r', applyItems diff kvs' = .ok r' ∧ Alike r r' := by
  induction diff generalizing kvs kvs' with
  | nil =>
    obtain rfl : kvs = r := Except.ok.inj hr
    exact ⟨kvs', rfl, h⟩
  | cons p rest ih =>
    obtain ⟨key, value⟩ := p
    rw [List.forall_mem_cons] at hd
    by_cases hc : isCommand key = true
    · simp only [isCommand, Bool.or_eq_true, decide_eq_true_eq] at hc
      rcases hc with rfl | rfl
      · rw [applyItems, if_pos rfl, bind_eq_ok] at hr
        obtain ⟨popped, hpop, hr⟩ := hr
        obtain ⟨popped', hpop', halike⟩ := foldlM_congr (fun _ _ _ _ ha hf => ha.dictPop hf) h hpop
        obtain ⟨r', hr', hrr⟩ := ih hd.2 halike hr
        exact ⟨r', by rw [applyItems, if_pos rfl, hpop']; exact hr', hrr⟩
      · rw [applyItems, if_neg (by decide), if_pos rfl] at hr ⊢
        exact ih hd.2 h hr
    · have hc : isCommand key = false := by simpa using hc
      rw [applyItems_cons hc, bind_eq_ok] at hr
      obtain ⟨new, hnew, hr⟩ := hr
      -- both dicts have the key, or neither does
      obtain ⟨new', hnew', hsem⟩ : ∃ new', applyEntry (kvs'.lookup key) value = .ok new' ∧
          new.sem = new'.sem := by
        have hk := h key
        rcases hl : kvs.lookup key with _ | old <;> rcases hl' : kvs'.lookup key with _ | old'
        · exact ⟨new, by rwa [hl] at hnew, rfl⟩
        · simp [hl, hl'] at hk
        · simp [hl, hl'] at hk
        · rw [hl] at hnew
          exact hd.1 old old' new (by simpa [hl, hl'] using hk) hnew
      obtain ⟨r', hr', hrr⟩ := ih hd.2 (h.put key hsem) hr
      exact ⟨r', by rw [applyItems_cons hc, hnew']; exact hr', hrr⟩

/-! ### Lists -/

lemma length_of_map_sem {xs ys : List Val} (h : xs.map Val.sem = ys.map Val.sem) : xs.length = ys.length := by
  simpa using congrArg List.length h

lemma position_congr {xs ys : List Val} (h : xs.map Val.sem = ys.map Val.sem) (i : ℤ) :
    position xs i = position ys i := by
  rw [position, position, length_of_map_sem h]

lemma listPop_congr {xs ys r : List Val} {pos : Val} (h : xs.map Val.sem = ys.map Val.sem)
    (hr : listPop xs pos = .ok r) : ∃ r', listPop ys pos = .ok r' ∧ r.map Val.sem = r'.map Val.sem := by
  obtain ⟨i, hi, hr⟩ := bind_eq_ok.mp hr
  obtain ⟨j, hj, hr⟩ := bind_eq_ok.mp hr
  obtain rfl := Except.ok.inj hr
  refine ⟨ys.eraseIdx j, ?_, by rw [← List.eraseIdx_map, ← List.eraseIdx_map, h]⟩
  rw [position_congr h] at hj
  simp [listPop, hi, hj, bind, Except.bind]

lemma listInsert_congr {xs ys r : List Val} {pos value : Val} (h : xs.map Val.sem = ys.map Val.sem)
    (hr : listInsert xs pos value = .ok r) :
    ∃ r', listInsert ys pos value = .ok r' ∧ r.map Val.sem = r'.map Val.sem := by
  obtain ⟨i, hi, hr⟩ := bind_eq_ok.mp hr
  obtain rfl := Except.ok.inj hr
  rw [length_of_map_sem h, List.map_insertIdx, h, ← List.map_insertIdx]
  exact ⟨_, by rw [listInsert, hi]; rfl, rfl⟩

lemma listDeletes_congr {diff : List (String × Val)} {xs ys r : List Val}
    (h : xs.map Val.sem = ys.map Val.sem) (hr : listDeletes diff xs = .ok r) :
    ∃ r', listDeletes diff ys = .ok r' ∧ r.map Val.sem = r'.map Val.sem := by
  unfold listDeletes at hr ⊢
  split at hr
  · obtain rfl := Except.ok.inj hr
    exact ⟨ys, rfl, h⟩
  · split at hr
    · rw [if_pos ‹_›]
      obtain ⟨positions, hp, hr⟩ := bind_eq_ok.mp hr
      obtain ⟨r', hr', hrr⟩ := foldlM_congr (R := fun a b => a.map Val.sem = b.map Val.sem)
        (fun _ _ _ _ ha hf => listPop_congr ha hf) h hr
      exact ⟨r', by rw [hp]; exact hr', hrr⟩
    · rw [if_neg ‹_›]
      obtain rfl := Except.ok.inj hr
      exact ⟨ys, rfl, h⟩

lemma listInserts_congr {diff : List (String × Val)} {xs ys r : List Val}
    (h : xs.map Val.sem = ys.map Val.sem) (hr : listInserts diff xs = .ok r) :
    ∃ r', listInserts diff ys = .ok r' ∧ r.map Val.sem = r'.map Val.sem := by
  obtain ⟨inserts, hi, hr⟩ := bind_eq_ok.mp hr
  obtain ⟨r', hr', hrr⟩ := foldlM_congr (R := fun a b => a.map Val.sem = b.map Val.sem)
    (fun a b item c ha hf => by
      obtain ⟨p, hp, hf⟩ := bind_eq_ok.mp hf
      obtain ⟨c', hc', hcc⟩ := listInsert_congr ha hf
      exact ⟨c', by rw [hp]; exact hc', hcc⟩) h hr
  exact ⟨r', by rw [listInserts, hi]; exact hr', hrr⟩

lemma sem_getD {xs ys : List Val} (h : xs.map Val.sem = ys.map Val.sem) (j : ℕ) :
    (xs.getD j .null).sem = (ys.getD j .null).sem := by
  have hj := congrArg (fun l => l.getD j (Val.sem .null)) h
  simpa only [List.getD_eq_getElem?_getD, List.getElem?_map, Option.getD_map] using hj

lemma applyIndices_congr {diff : List (String × Val)} {xs ys r : List Val}
    (hd : ∀ q ∈ diff, Respects q.2) (h : xs.map Val.sem = ys.map Val.sem)
    (hr : applyIndices diff xs = .ok r) :
    ∃ r', applyIndices diff ys = .ok r' ∧ r.map Val.sem = r'.map Val.sem := by
  induction diff generalizing xs ys with
  | nil =>
    obtain rfl : xs = r := Except.ok.inj hr
    exact ⟨ys, rfl, h⟩
  | cons p rest ih =>
    obtain ⟨key, value⟩ := p
    rw [List.forall_mem_cons] at hd
    rw [applyIndices] at hr ⊢
    split at hr
    · rw [if_pos ‹_›]
      exact ih hd.2 h hr
    · rw [if_neg ‹_›]
      split at hr
      · simp at hr
      · obtain ⟨j, hj, hr⟩ := bind_eq_ok.mp hr
        obtain ⟨new, hnew, hr⟩ := bind_eq_ok.mp hr
        obtain ⟨new', hnew', hsem⟩ := hd.1 _ _ _ (sem_getD h j) hnew
        have hset : (xs.set j new).map Val.sem = (ys.set j new').map Val.sem := by
          rw [List.map_set, List.map_set, h, hsem]
        obtain ⟨r', hr', hrr⟩ := ih hd.2 hset hr
        rw [position_congr h] at hj
        exact ⟨r', by rw [hj]; simp only [bind, Except.bind]; rw [hnew']; exact hr', hrr⟩

/-! ### Values -/

/-- **A diff cannot tell equal states apart.** -/
theorem rawApply_congr (diff : Val) : Respects diff := by
  induction diff using Val.ind with
  | dict diff ih =>
    intro v w r h hr
    by_cases hne : diff = []
    · subst hne
      rw [rawApply_nil] at hr ⊢
      obtain rfl := Except.ok.inj hr
      exact ⟨w, rfl, h⟩
    have hitems : ∀ {kvs kvs' : List (String × Val)}, Alike kvs kvs' →
        Val.dict <$> applyItems diff kvs = .ok r →
        ∃ r', Val.dict <$> applyItems diff kvs' = .ok r' ∧ r.sem = r'.sem := fun ha hr => by
      obtain ⟨items, hi, rfl⟩ := map_eq_ok.mp hr
      obtain ⟨items', hi', halike⟩ := applyItems_congr ih ha hi
      exact ⟨_, map_eq_ok.mpr ⟨items', hi', rfl⟩, alike_iff.mp halike⟩
    rw [rawApply_dict hne] at hr ⊢
    split at hr
    · exact ⟨r, hr, rfl⟩
    · -- equal values are of one kind
      cases v with
      | list xs =>
        cases w with
        | list ys =>
          have h : xs.map Val.sem = ys.map Val.sem := by simpa using h
          dsimp only at hr ⊢
          split at hr
          · rw [if_pos ‹_›]
            obtain ⟨r1, h1, hr⟩ := bind_eq_ok.mp hr
            obtain ⟨r2, h2, hr⟩ := bind_eq_ok.mp hr
            obtain ⟨r3, h3, rfl⟩ := map_eq_ok.mp hr
            obtain ⟨s1, g1, e1⟩ := listDeletes_congr h h1
            obtain ⟨s2, g2, e2⟩ := listInserts_congr e1 h2
            obtain ⟨s3, g3, e3⟩ := applyIndices_congr ih e2 h3
            exact ⟨.list s3, by simp [g1, g2, g3, bind, Except.bind, Functor.map, Except.map], by simp [e3]⟩
          · rw [if_neg ‹_›]
            exact ⟨r, hr, rfl⟩
        | _ => simp [Val.sem] at h
      | dict kvs =>
        cases w with
        | dict kvs' => exact hitems (alike_iff.mpr h) hr
        | _ => simp [Val.sem] at h
      | _ =>
        cases w with
        | list | dict => simp [Val.sem] at h
        | _ => exact ⟨r, hr, rfl⟩
  | _ =>
    intro v w r h hr
    rw [rawApply_not_dict rfl] at hr ⊢
    exact ⟨r, hr, rfl⟩

end Kanta
