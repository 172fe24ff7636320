import Kanta.ApplyLemmas
import Kanta.Lib.Positional

/-!
# Positional edits of a list

A dict applied to a list is an edit when its keys are `$delete`, `$insert` and positions.  The deletions
name positions of the list before, from the back, and the insertions name positions of the list after,
from the front, so an edit says which list it leads to (`ListEdit.LeadsTo`).  `applyDiff_list_edit`: that
list is what `apply_diff` returns.
-/

namespace Kanta

open Kanta.Lib Kanta.Lib.Assoc Kanta.Lib.Positional

/-- What an edit of a list says: positions to delete, values to insert, and diffs for single positions
under the keys that name them. -/
structure ListEdit where
  deletes : List ℕ
  inserts : List (ℕ × Val)
  nested : List (String × Val)

namespace ListEdit

/-- The dict `diff` says `e`.  A command with nothing to do may be left out, and the keys stand in any
order. -/
structure WrittenAs (e : ListEdit) (diff : List (String × Val)) : Prop where
  nodup : (keys diff).Nodup
  deletes : diff.lookup "$delete" = some (.list (e.deletes.map fun (p : ℕ) => .int p)) ∨
    diff.lookup "$delete" = none ∧ e.deletes = []
  inserts : diff.lookup "$insert" = some (.list (e.inserts.map fun q => .list [.int q.1, q.2])) ∨
    diff.lookup "$insert" = none ∧ e.inserts = []
  nested : diff.filter (fun q => !isCommand q.1) = e.nested

/-- How many elements a list of `n` elements has after the edit. -/
def size (e : ListEdit) (n : ℕ) : ℕ := n - e.deletes.length + e.inserts.length

/-- The positions are those of the list: deletions from the back, insertions from the front and in range
when reached, diffs for different positions of the final list.  Neither list is longer than Python's
lists can be. -/
structure Fits (e : ListEdit) (n : ℕ) : Prop where
  descending : e.deletes.Pairwise (· > ·)
  deletes_lt : ∀ p ∈ e.deletes, p < n
  ascending : (e.inserts.map Prod.fst).Pairwise (· < ·)
  in_range : InRange (n - e.deletes.length) (e.inserts.map Prod.fst)
  named : ∀ q ∈ e.nested, ∃ p : ℕ, pyInt q.1 = some (p : ℤ) ∧ p < e.size n
  distinct : (e.nested.map fun q => pyInt q.1).Nodup
  before_le : n < 2 ^ 63
  after_le : e.size n < 2 ^ 63

/-- The values to insert hold no `$`. -/
def Free (e : ListEdit) : Prop := ∀ q ∈ e.inserts, q.2.wf = true ∧ dollarFree q.2 = true

/-- A diff of the edit names position `p`. -/
def Names (e : ListEdit) (p : ℕ) : Prop := ∃ q ∈ e.nested, pyInt q.1 = some (p : ℤ)

/-- The edit leads from `xs` to `ys`.  In between is the list `base`, the same without the diffs. -/
structure LeadsTo (e : ListEdit) (xs base ys : List Val) : Prop where
  length_base : base.length = xs.length - e.deletes.length + e.inserts.length
  length : ys.length = base.length
  inserted : ∀ q ∈ e.inserts, base[q.1]? = some q.2
  surviving : others (e.inserts.map Prod.fst) base = others e.deletes xs
  unnamed : ∀ p, ¬e.Names p → ys[p]? = base[p]?
  patched : ∀ q ∈ e.nested, ∀ p : ℕ, pyInt q.1 = some (p : ℤ) →
    ∃ old new, base[p]? = some old ∧ applyDiff old q.2 = .ok new ∧ ys[p]? = some new

end ListEdit

/-! ### The three parts of an edit -/

lemma natCast_of_some {p q : ℕ} (h : some (p : ℤ) = some (q : ℤ)) : p = q := by
  have := Option.some.inj h
  omega

lemma toIndex_nat {p : ℕ} (h : p < 2 ^ 63) : toIndex (.int p) = .ok (p : ℤ) := by
  rw [toIndex, if_pos]
  constructor <;> omega

lemma position_nat {result : List Val} {p : ℕ} (h : p < result.length) : position result p = .ok p := by
  have hneg : ¬(p : ℤ) < 0 := by omega
  simp only [position, if_neg hneg]
  rw [if_pos (by omega), Int.toNat_natCast]

lemma listPop_nat {result : List Val} {p : ℕ} (h : p < result.length) (hmax : result.length < 2 ^ 63) :
    listPop result (.int p) = .ok (result.eraseIdx p) := by
  have hp : p < 2 ^ 63 := by omega
  rw [listPop, toIndex_nat hp]
  show (position result p >>= fun j => .ok (result.eraseIdx j)) = _
  rw [position_nat h]
  rfl

lemma listInsert_nat {result : List Val} {p : ℕ} (v : Val) (h : p ≤ result.length) (hmax : p < 2 ^ 63) :
    listInsert result (.int p) v = .ok (result.insertIdx p v) := by
  have hneg : ¬(p : ℤ) < 0 := by omega
  rw [listInsert, toIndex_nat hmax]
  show Except.ok (result.insertIdx (min (if (p : ℤ) < 0 then (p : ℤ) + result.length else p).toNat
    result.length) v) = _
  rw [if_neg hneg, Int.toNat_natCast, Nat.min_eq_left h]

lemma foldlM_listPop {positions : List ℕ} {xs : List Val} (hd : positions.Pairwise (· > ·))
    (hlt : ∀ p ∈ positions, p < xs.length) (hmax : xs.length < 2 ^ 63) :
    (positions.map fun (p : ℕ) => Val.int p).foldlM listPop xs = .ok (deleteAll positions xs) := by
  induction positions generalizing xs with
  | nil => rfl
  | cons d positions ih =>
    obtain ⟨hd₁, hd₂⟩ := List.pairwise_cons.mp hd
    have hpos := hlt d List.mem_cons_self
    have hlen := List.length_eraseIdx_of_lt hpos
    rw [List.map_cons, List.foldlM_cons, listPop_nat hpos hmax]
    show (positions.map fun (p : ℕ) => Val.int p).foldlM listPop (xs.eraseIdx d) = _
    rw [ih hd₂ (fun p hp => by
      have := hd₁ p hp
      omega) (by omega)]
    rfl

/-- The loop body `f` unpacks a pair and inserts. -/
lemma foldlM_listInsert {f : List Val → Val → Except Exc (List Val)} {inserts : List (ℕ × Val)}
    {xs : List Val} (hf : ∀ result pos value, f result (.list [pos, value]) = listInsert result pos value)
    (hr : InRange xs.length (inserts.map Prod.fst)) (hmax : xs.length + inserts.length < 2 ^ 63) :
    (inserts.map fun q => Val.list [.int q.1, q.2]).foldlM f xs = .ok (insertAll inserts xs) := by
  induction inserts generalizing xs with
  | nil => rfl
  | cons q inserts ih =>
    obtain ⟨p, v⟩ := q
    rw [List.map_cons, InRange] at hr
    rw [List.length_cons] at hmax
    have hlen : (xs.insertIdx p v).length = xs.length + 1 := List.length_insertIdx_of_le_length hr.1 v
    rw [List.map_cons, List.foldlM_cons, hf, listInsert_nat v hr.1 (by omega)]
    have hgrown : (xs.insertIdx p v).length + inserts.length < 2 ^ 63 := by omega
    exact ih (by rw [hlen]; exact hr.2) hgrown

lemma listDeletes_of_lookup {diff : List (String × Val)} {items : List Val}
    (h : diff.lookup "$delete" = some (.list items)) (result : List Val) :
    listDeletes diff result = items.foldlM listPop result := by
  rw [listDeletes, h]
  cases items <;> rfl

lemma listInserts_of_lookup {diff : List (String × Val)} {items : List Val}
    (h : diff.lookup "$insert" = some (.list items)) (result : List Val) :
    listInserts diff result = items.foldlM (fun result item => do
      let (pos, value) ← unpackPair item
      listInsert result pos value) result := by
  rw [listInserts, h]
  rfl

lemma applyIndices_filter (diff : List (String × Val)) (result : List Val) :
    applyIndices diff result = applyIndices (diff.filter fun q => !isCommand q.1) result := by
  induction diff generalizing result with
  | nil => rfl
  | cons q diff ih =>
    obtain ⟨key, value⟩ := q
    by_cases hc : isCommand key = true
    · rw [List.filter_cons_of_neg (by simpa using hc), ← ih, applyIndices]
      exact if_pos (by simpa [isCommand] using hc)
    · have hkey : ¬(key = "$delete" ∨ key = "$insert") := by simpa [isCommand] using hc
      rw [List.filter_cons_of_pos (by simpa using hc), applyIndices, applyIndices, if_neg hkey, if_neg hkey]
      cases pyInt key with
      | none => rfl
      | some pos => simp only [ih]

/-- `ys` is `result` with the diffs applied, each to the element that stands at its position. -/
structure Patched (nested : List (String × Val)) (result ys : List Val) : Prop where
  length_eq : ys.length = result.length
  unnamed : ∀ p : ℕ, (∀ q ∈ nested, pyInt q.1 ≠ some (p : ℤ)) → ys[p]? = result[p]?
  patched : ∀ q ∈ nested, ∀ p : ℕ, pyInt q.1 = some (p : ℤ) →
    ∃ old new, result[p]? = some old ∧ rawApply old q.2 = .ok new ∧ ys[p]? = some new

lemma patched_nil {result ys : List Val} : Patched [] result ys ↔ ys = result := by
  constructor
  · intro h
    exact List.ext_getElem? fun p => h.unnamed p (by simp)
  · rintro rfl
    exact ⟨rfl, fun _ _ => rfl, by simp⟩

section

variable {key : String} {value : Val} {nested : List (String × Val)} {result : List Val} {p : ℕ}

lemma applyIndices_cons (hc : isCommand key = false) (hp : pyInt key = some (p : ℤ)) (hlt : p < result.length) :
    applyIndices ((key, value) :: nested) result =
      rawApply result[p] value >>= fun new => applyIndices nested (result.set p new) := by
  have hc : ¬(key = "$delete" ∨ key = "$insert") := by simpa [isCommand] using hc
  have hold : result.getD p .null = result[p] := by
    rw [List.getD_eq_getElem?_getD, List.getElem?_eq_getElem hlt]
    rfl
  rw [applyIndices, if_neg hc, hp, ← hold]
  simp only [position_nat hlt]
  rfl

/-- The first diff is applied first, and no other names its position. -/
lemma patched_cons {ys : List Val} (hp : pyInt key = some (p : ℤ)) (hlt : p < result.length)
    (hother : ∀ q ∈ nested, pyInt q.1 ≠ some (p : ℤ)) :
    Patched ((key, value) :: nested) result ys ↔
      ∃ new, rawApply result[p] value = .ok new ∧ Patched nested (result.set p new) ys := by
  have hold : result[p]? = some result[p] := List.getElem?_eq_getElem hlt
  have hset : ∀ (new : Val) (i : ℕ), i ≠ p → (result.set p new)[i]? = result[i]? := fun _ _ hne =>
    List.getElem?_set_ne (Ne.symm hne)
  have hself : ∀ new : Val, (result.set p new)[p]? = some new := fun _ => List.getElem?_set_self hlt
  have hne : ∀ q ∈ nested, ∀ i : ℕ, pyInt q.1 = some (i : ℤ) → i ≠ p := by
    rintro q hq i hi rfl
    exact hother q hq hi
  constructor
  · intro h
    obtain ⟨old, new, hold', hnew, hget⟩ := h.patched (key, value) List.mem_cons_self p hp
    obtain rfl : result[p] = old := Option.some.inj (hold.symm.trans hold')
    refine ⟨new, hnew, h.length_eq.trans List.length_set.symm, fun i hi => ?_, fun q hq i hi => ?_⟩
    · by_cases hip : i = p
      · rw [hip, hget, hself]
      · rw [hset new i hip]
        exact h.unnamed i (List.forall_mem_cons.mpr ⟨fun heq => hip (natCast_of_some (heq.symm.trans hp)), hi⟩)
    · rw [hset new i (hne q hq i hi)]
      exact h.patched q (List.mem_cons_of_mem _ hq) i hi
  · rintro ⟨new, hnew, h⟩
    refine ⟨h.length_eq.trans List.length_set, fun i hi => ?_, fun q hq i hi => ?_⟩
    · rw [List.forall_mem_cons] at hi
      have hip : i ≠ p := by
        rintro rfl
        exact hi.1 hp
      rw [h.unnamed i hi.2, hset new i hip]
    · rcases List.mem_cons.mp hq with rfl | hq
      · obtain rfl : i = p := natCast_of_some (hi.symm.trans hp)
        exact ⟨_, new, hold, hnew, (h.unnamed i hother).trans (hself new)⟩
      · have hmore := h.patched q hq i hi
        rwa [hset new i (hne q hq i hi)] at hmore

end

/-- The diffs of single positions, each applied to the element that stands there before all of them. -/
lemma applyIndices_eq_ok {nested : List (String × Val)} {result ys : List Val}
    (hkey : ∀ q ∈ nested, isCommand q.1 = false)
    (hnamed : ∀ q ∈ nested, ∃ p : ℕ, pyInt q.1 = some (p : ℤ) ∧ p < result.length)
    (hdistinct : (nested.map fun q => pyInt q.1).Nodup) :
    applyIndices nested result = .ok ys ↔ Patched nested result ys := by
  induction nested generalizing result with
  | nil =>
    rw [applyIndices, patched_nil, Except.ok.injEq]
    exact eq_comm
  | cons q nested ih =>
    obtain ⟨key, value⟩ := q
    rw [List.forall_mem_cons] at hkey hnamed
    rw [List.map_cons, List.nodup_cons] at hdistinct
    obtain ⟨⟨p, hp, hlt⟩, hnamed⟩ := hnamed
    have hother : ∀ q ∈ nested, pyInt q.1 ≠ some (p : ℤ) := fun q hq heq =>
      hdistinct.1 (List.mem_map.mpr ⟨q, hq, heq.trans hp.symm⟩)
    rw [applyIndices_cons hkey.1 hp hlt, bind_eq_ok, patched_cons hp hlt hother]
    refine exists_congr fun new => and_congr_right fun _ => ih hkey.2 ?_ hdistinct.2
    simpa using hnamed

/-! ### The edit as a whole -/

/-- No position starts with `$`. -/
lemma pyInt_dollar {s : String} {cs : List Char} (h : s.toList = '$' :: cs) : pyInt s = none := by
  have hend : ∃ t, (cs.reverse ++ ['$']).dropWhile isIntSpace = t ++ ['$'] := by
    rw [List.dropWhile_append]
    split
    · exact ⟨[], by decide⟩
    · exact ⟨_, rfl⟩
  obtain ⟨t, ht⟩ := hend
  have hbody : ((s.toList.dropWhile isIntSpace).reverse.dropWhile isIntSpace).reverse = '$' :: t.reverse := by
    rw [h, List.dropWhile_cons_of_neg (by decide), List.reverse_cons, ht, List.reverse_append]
    rfl
  have hdigits : intDigits false ('$' :: t.reverse) = none := by
    have hvalue : decimalValue '$' = none := by decide
    unfold intDigits
    rw [if_neg (by decide), hvalue]
    rfl
  simp only [pyInt, hbody]
  split
  · rfl
  · next hread => cases hdigits.symm.trans hread

lemma startsWith_of_pyInt {key : String} {p : ℤ} (h : pyInt key = some p) :
    startsWith "$$" key = false := by
  by_contra hdollar
  obtain ⟨t, rfl⟩ := startsWith_iff.mp (by simpa using hdollar)
  rw [@pyInt_dollar _ ('$' :: t.toList) (by rw [String.toList_append]; rfl)] at h
  cases h

namespace ListEdit

variable {e : ListEdit} {diff : List (String × Val)} {xs : List Val} {n : ℕ}

/-- A key of the dict is a command, or a diff of the edit stands under it. -/
lemma WrittenAs.key (hw : e.WrittenAs diff) {q : String × Val} (hq : q ∈ diff) :
    isCommand q.1 = true ∨ q ∈ e.nested := by
  rw [← hw.nested, List.mem_filter]
  cases h : isCommand q.1 with
  | true => exact Or.inl rfl
  | false => exact Or.inr ⟨hq, rfl⟩

lemma WrittenAs.not_command (hw : e.WrittenAs diff) : ∀ q ∈ e.nested, isCommand q.1 = false := by
  intro q hq
  rw [← hw.nested, List.mem_filter] at hq
  simpa using hq.2

lemma WrittenAs.key_cases (hw : e.WrittenAs diff) (hf : e.Fits n) {k : String} (hk : k ∈ keys diff) :
    isCommand k = true ∨ ∃ p : ℕ, pyInt k = some (p : ℤ) := by
  obtain ⟨q, hq, rfl⟩ := List.mem_map.mp hk
  rcases hw.key hq with hc | hn
  · exact Or.inl hc
  · obtain ⟨p, hp, -⟩ := hf.named q hn
    exact Or.inr ⟨p, hp⟩

lemma WrittenAs.isListPatch (hw : e.WrittenAs diff) (hf : e.Fits n) : isListPatch diff = true := by
  rw [Kanta.isListPatch, List.all_eq_true]
  intro k hk
  rcases hw.key_cases hf hk with hc | ⟨p, hp⟩
  · simp only [isCommand] at hc
    rw [hc, Bool.true_or]
  · rw [hp, Option.isSome_some, Bool.or_true]

lemma WrittenAs.not_replace (hw : e.WrittenAs diff) (hf : e.Fits n) : diff.lookup "$replace" = none := by
  rw [lookup_eq_none_iff]
  intro hk
  rcases hw.key_cases hf hk with hc | ⟨p, hp⟩
  · exact absurd hc (by decide)
  · rw [@pyInt_dollar _ "replace".toList (by decide)] at hp
    cases hp

lemma WrittenAs.listDeletes (hw : e.WrittenAs diff) (hf : e.Fits xs.length) :
    listDeletes diff xs = .ok (deleteAll e.deletes xs) := by
  rcases hw.deletes with h | ⟨h, hnil⟩
  · rw [listDeletes_of_lookup h, foldlM_listPop hf.descending hf.deletes_lt hf.before_le]
  · rw [Kanta.listDeletes, h, hnil]
    rfl

lemma WrittenAs.listInserts {result : List Val} (hw : e.WrittenAs diff)
    (hr : InRange result.length (e.inserts.map Prod.fst))
    (hmax : result.length + e.inserts.length < 2 ^ 63) :
    listInserts diff result = .ok (insertAll e.inserts result) := by
  rcases hw.inserts with h | ⟨h, hnil⟩
  · rw [listInserts_of_lookup h, foldlM_listInsert (fun _ _ _ => rfl) hr hmax]
  · rw [Kanta.listInserts, h, hnil]
    rfl

lemma Fits.inRange (hf : e.Fits xs.length) :
    InRange (deleteAll e.deletes xs).length (e.inserts.map Prod.fst) := by
  have hr := hf.in_range
  rwa [← length_deleteAll hf.descending hf.deletes_lt, Nat.add_sub_cancel] at hr

/-- The edit of a list, in its three parts. -/
lemma WrittenAs.rawApply (hw : e.WrittenAs diff) (hf : e.Fits xs.length) :
    rawApply (.list xs) (.dict diff) =
      .list <$> applyIndices e.nested (insertAll e.inserts (deleteAll e.deletes xs)) := by
  have hlen := length_deleteAll hf.descending hf.deletes_lt
  have hafter : (deleteAll e.deletes xs).length + e.inserts.length < 2 ^ 63 := by
    have := hf.after_le
    rw [size] at this
    omega
  have hdel := hw.listDeletes hf
  have hins := hw.listInserts hf.inRange hafter
  have hind := applyIndices_filter diff (insertAll e.inserts (deleteAll e.deletes xs))
  rw [hw.nested] at hind
  by_cases hd : diff = []
  · subst hd
    have hdel : xs = deleteAll e.deletes xs := Except.ok.inj hdel
    have hins : deleteAll e.deletes xs = insertAll e.inserts (deleteAll e.deletes xs) := Except.ok.inj hins
    rw [rawApply_nil, ← hind, ← hins, ← hdel]
    rfl
  · rw [rawApply_dict hd, hw.not_replace hf]
    show (if Kanta.isListPatch diff then _ else _) = _
    rw [if_pos (hw.isListPatch hf), hdel]
    show (Kanta.listInserts diff (deleteAll e.deletes xs) >>= fun result => _) = _
    rw [hins, ← hind]
    rfl

/-- The edit with its diffs unescaped. -/
def unescaped (e : ListEdit) : ListEdit := { e with nested := e.nested.map fun q => (q.1, unmarshal q.2) }

lemma Fits.unescaped (hf : e.Fits n) : e.unescaped.Fits n where
  descending := hf.descending
  deletes_lt := hf.deletes_lt
  ascending := hf.ascending
  in_range := hf.in_range
  named := by
    intro q hq
    obtain ⟨q, hq', rfl⟩ := List.mem_map.mp hq
    exact hf.named q hq'
  distinct := by
    have := hf.distinct
    rwa [ListEdit.unescaped, List.map_map]
  before_le := hf.before_le
  after_le := hf.after_le

/-- Unescaping the dict of an edit leaves its keys and its commands as they are. -/
lemma WrittenAs.unmarshal (hw : e.WrittenAs diff) (hf : e.Fits n) (hfree : e.Free) :
    ∃ diff', Kanta.unmarshal (.dict diff) = .dict diff' ∧ e.unescaped.WrittenAs diff' := by
  have hkeys : ∀ q ∈ diff, unescapeItem q = (q.1, Kanta.unmarshal q.2) := by
    intro q hq
    have : startsWith "$$" q.1 = false := by
      rcases hw.key_cases hf (List.mem_map_of_mem hq) with hc | ⟨p, hp⟩
      · simp only [isCommand, Bool.or_eq_true, decide_eq_true_eq] at hc
        rcases hc with hc | hc <;> rw [hc] <;> decide
      · exact startsWith_of_pyInt hp
    rw [unescapeItem, unescape_of_not this]
  have hmap : diff.map unescapeItem = diff.map fun q => (q.1, Kanta.unmarshal q.2) :=
    List.map_congr_left hkeys
  have hk : keys (diff.map fun q => (q.1, Kanta.unmarshal q.2)) = keys diff := by
    simp [keys]
  have hlookup : ∀ k, (diff.map fun q => (q.1, Kanta.unmarshal q.2)).lookup k =
      (diff.lookup k).map Kanta.unmarshal := fun k =>
    lookup_map Function.injective_id (fun _ => Kanta.unmarshal) k diff
  refine ⟨diff.map fun q => (q.1, Kanta.unmarshal q.2), ?_, ?_⟩
  · rw [Kanta.unmarshal, unmarshalItems_eq, hmap,
      foldl_put_eq_append (by rw [List.nil_append, hk]; exact hw.nodup), List.nil_append]
  · refine ⟨by rw [hk]; exact hw.nodup, ?_, ?_, ?_⟩
    · rw [hlookup]
      refine hw.deletes.imp (fun h => ?_) fun h => ⟨by rw [h.1]; rfl, h.2⟩
      rw [h, Option.map_some, unmarshal_list, List.map_map]
      rfl
    · rw [hlookup]
      refine hw.inserts.imp (fun h => ?_) fun h => ⟨by rw [h.1]; rfl, h.2⟩
      rw [h, Option.map_some, unmarshal_list, List.map_map]
      congr 2
      refine List.map_congr_left fun q hq => ?_
      obtain ⟨hwf, hdollar⟩ := hfree q hq
      show Kanta.unmarshal (.list [.int q.1, q.2]) = _
      rw [unmarshal_list, List.map_cons, List.map_singleton,
        unmarshal_of_doubleFree hwf (doubleFree_of_dollarFree hdollar)]
      rfl
    · rw [ListEdit.unescaped, ← hw.nested, List.filter_map]
      rfl

/-- The list between: `LeadsTo` leaves no other. -/
lemma LeadsTo.base_eq {base ys : List Val} (hf : e.Fits xs.length) (h : e.LeadsTo xs base ys) :
    base = insertAll e.inserts (deleteAll e.deletes xs) := by
  refine (eq_insertAll_iff hf.ascending (hf.inRange)).mpr ⟨h.inserted, ?_⟩
  rw [h.surviving, deleteAll_eq hf.descending]

/-- The diffs for single positions make the difference between `base` and the final list. -/
lemma leadsTo_iff {ys : List Val} (hw : e.unescaped.WrittenAs diff) (hf : e.Fits xs.length) :
    applyIndices e.unescaped.nested (insertAll e.inserts (deleteAll e.deletes xs)) = .ok ys ↔
      ∃ base, e.LeadsTo xs base ys := by
  have hlen := length_deleteAll hf.descending hf.deletes_lt
  have hbase := length_insertAll hf.inRange
  have hsize : (insertAll e.inserts (deleteAll e.deletes xs)).length =
      xs.length - e.deletes.length + e.inserts.length := by omega
  have hnamed : ∀ q ∈ e.unescaped.nested, ∃ p : ℕ, pyInt q.1 = some (p : ℤ) ∧
      p < (insertAll e.inserts (deleteAll e.deletes xs)).length := by
    rw [hsize]
    exact hf.unescaped.named
  obtain ⟨hinserted, hothers⟩ := (eq_insertAll_iff hf.ascending hf.inRange).mp rfl
  rw [applyIndices_eq_ok hw.not_command hnamed hf.unescaped.distinct]
  constructor
  · intro h
    refine ⟨_, hsize, h.length_eq, hinserted, ?_, fun p hp => h.unnamed p fun q hq hname => ?_, fun q hq p hp => ?_⟩
    · rw [hothers, deleteAll_eq hf.descending]
    · obtain ⟨q, hq', rfl⟩ := List.mem_map.mp hq
      exact hp ⟨q, hq', hname⟩
    · exact h.patched (q.1, Kanta.unmarshal q.2) (List.mem_map.mpr ⟨q, hq, rfl⟩) p hp
  · rintro ⟨base, h⟩
    obtain rfl := h.base_eq hf
    refine ⟨h.length, fun p hp => h.unnamed p ?_, fun q hq p hp => ?_⟩
    · rintro ⟨q, hq, hname⟩
      exact hp (q.1, Kanta.unmarshal q.2) (List.mem_map.mpr ⟨q, hq, rfl⟩) hname
    · obtain ⟨q, hq', rfl⟩ := List.mem_map.mp hq
      exact h.patched q hq' p hp

end ListEdit

open ListEdit in
/-- **A positional edit leads `apply_diff` to the list it says.**  The result has the length of `xs` less
the deletions plus the insertions, the inserted values stand at their positions, the surviving elements
stand at the others in their order, and a diff for a position is applied to the element that stands
there.  When one of those diffs cannot be applied, neither can the edit. -/
theorem applyDiff_list_edit {e : ListEdit} {diff : List (String × Val)} {xs : List Val}
    (hw : e.WrittenAs diff) (hf : e.Fits xs.length) (hfree : e.Free) (r : Val) :
    applyDiff (.list xs) (.dict diff) = .ok r ↔ ∃ base ys, r = .list ys ∧ e.LeadsTo xs base ys := by
  obtain ⟨diff', hdiff, hw'⟩ := hw.unmarshal hf hfree
  have hraw : applyDiff (.list xs) (.dict diff) =
      .list <$> applyIndices e.unescaped.nested (insertAll e.inserts (deleteAll e.deletes xs)) := by
    rw [applyDiff, hdiff, hw'.rawApply hf.unescaped]
    rfl
  have hlist : applyDiff (.list xs) (.dict diff) = .ok r ↔
      ∃ ys, r = .list ys ∧ ∃ base, e.LeadsTo xs base ys := by
    simp only [← leadsTo_iff hw' hf]
    rw [hraw]
    cases applyIndices e.unescaped.nested (insertAll e.inserts (deleteAll e.deletes xs)) with
    | error exc => simp
    | ok ys => simp [eq_comm]
  rw [hlist]
  constructor
  · rintro ⟨ys, hr, base, h⟩
    exact ⟨base, ys, hr, h⟩
  · rintro ⟨base, ys, hr, h⟩
    exact ⟨ys, hr, base, h⟩

/-- Two deletions, an insertion, and a diff for each surviving element. -/
def sampleEdit : ListEdit where
  deletes := [3, 0]
  inserts := [(1, .str "new")]
  nested := [("2", .dict [("a", .int 5)]), ("0", .int 7)]

def sampleEditDiff : List (String × Val) :=
  [("2", .dict [("a", .int 5)]), ("$insert", .list [.list [.int 1, .str "new"]]),
    ("$delete", .list [.int 3, .int 0]), ("0", .int 7)]

theorem applyDiff_list_edit_sample :
    ∃ base ys, Val.list [.int 7, .str "new", .dict [("b", .null), ("a", .int 5)]] = .list ys ∧
      sampleEdit.LeadsTo [.int 1, .int 2, .dict [("b", .null)], .int 4] base ys :=
  (@applyDiff_list_edit sampleEdit sampleEditDiff _
    ⟨by decide, Or.inl rfl, Or.inl rfl, rfl⟩
    ⟨by decide, by decide, by decide, ⟨by decide, trivial⟩,
      List.forall_mem_cons.mpr ⟨⟨2, by decide, by decide⟩,
        List.forall_mem_cons.mpr ⟨⟨0, by decide, by decide⟩, List.forall_mem_nil _⟩⟩,
      by decide, by decide, by decide⟩
    (List.forall_mem_cons.mpr ⟨⟨rfl, by decide⟩, List.forall_mem_nil _⟩) _).mp (by rfl)

end Kanta
