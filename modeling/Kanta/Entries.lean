import Kanta.Frontier
import Kanta.Located
import Kanta.Ranges

/-!
# What a search goes through

`--grep` does not search the printed text but the paths and values of a record: each change that is listed, and
every value inside it (`_record_entries`).  For the diff of two states these entries are values of the new state,
or of the old one under a deleted path, and no value that is new or gone is left out (`entries_exact`).
-/

namespace Kanta

open Kanta.Lib Kanta.Lib.Assoc

/-! ### Patterns -/

/-- `GrepPattern`. -/
structure GrepPattern where
  raw : Text
  term : Option Text
  pathTerm : Option Text
  valueTerm : Option Text
deriving DecidableEq

/-- `GrepPattern.parse`. -/
def GrepPattern.parse (raw : Text) : GrepPattern :=
  match splitOnce ['='] raw with
  | some (pathTerm, valueTerm) => ⟨raw, none, some pathTerm, some valueTerm⟩
  | none => ⟨raw, some raw, none, none⟩

/-! ### Entries -/

/-- Python's texts and matchers, as far as a search calls them. -/
structure Library where
  py : CaseTables
  fnmatchcase : Text → Text → Bool
  /-- `str` of a number. -/
  repr : Val → String
  /-- `json.dumps(value, default=str)` of a list or dict. -/
  dumps : Val → String

/-- `_Entry`. -/
structure GrepEntry where
  path : List String
  raw : Val
  text : Text
  anchor : Option (List String)

/-- A formatter that `build_logfmt` has built: it does not raise. -/
abbrev Logfmt := Val → String → Option Text

section

variable (lib : Library)

/-- `_value_text`. -/
def valueText : Val → Text
  | .null => "null".toList
  | .bool b => if b then "true".toList else "false".toList
  | .str s => s.toList
  | .list xs => (lib.dumps (.list xs)).toList
  | .dict kvs => (lib.dumps (.dict kvs)).toList
  | v => (lib.repr v).toList

mutual
/-- `_leaf_entries`. -/
def leafEntries (path : List String) (anchor : Option (List String)) : Val → List GrepEntry
  | .dict kvs => leafItems path anchor kvs
  | .list xs => leafList path anchor 0 xs
  | _ => []
/-- The loop of `_leaf_entries` over a dict. -/
def leafItems (path : List String) (anchor : Option (List String)) : List (String × Val) → List GrepEntry
  | [] => []
  | (key, item) :: rest =>
    ⟨path ++ [key], item, valueText lib item, anchor⟩ :: leafEntries (path ++ [key]) anchor item ++
      leafItems path anchor rest
/-- The loop of `_leaf_entries` over a list, behind `index` elements. -/
def leafList (path : List String) (anchor : Option (List String)) (index : ℕ) : List Val → List GrepEntry
  | [] => []
  | item :: rest =>
    ⟨path ++ [toString index], item, valueText lib item, anchor⟩ ::
      leafEntries (path ++ [toString index]) anchor item ++ leafList path anchor (index + 1) rest
end

/-- The entries of one change; a deleted path carries its previous value. -/
def changeEntries (previous : Val) (change : LoggedChange) : List GrepEntry :=
  let (value, anchor) :=
    match change.type with
    | .delete => (getNested previous change.path, some change.path)
    | _ => (change.value, none)
  ⟨change.path, value, valueText lib value, anchor⟩ :: leafEntries lib change.path anchor value

/-- `_record_entries`; without a state before, `previous` is `None`. -/
def recordEntries (diff : Val) (previous : Val) : Except Exc (List GrepEntry) := do
  let changes ← collectChanges lib.repr previous (unmarshal diff) [] []
  .ok (changes.flatMap (changeEntries lib previous))

end

/-! ### Values inside values -/

/-- The values right inside a value, each with the text that addresses it. -/
def parts : Val → List (String × Val)
  | .dict kvs => kvs
  | .list xs => xs.zipIdx.map fun p => (toString p.2, p.1)
  | _ => []

/-- The value at a path of keys and positions. -/
def valueIn : Val → List String → Option Val
  | v, [] => some v
  | v, k :: path => ((parts v).lookup k).bind fun w => valueIn w path

variable {lib : Library} {v w x : Val} {path front rest : List String} {anchor : Option (List String)}
  {entry : GrepEntry}

lemma keys_parts_list (xs : List Val) : keys (parts (.list xs)) = (List.range xs.length).map toString := by
  have hpositions : xs.zipIdx.map Prod.snd = List.range xs.length := by
    rw [List.zipIdx_map_snd, List.range_eq_range']
  rw [parts, keys, List.map_map, ← hpositions, List.map_map]
  rfl

lemma nodup_parts (h : v.wf = true) : (keys (parts v)).Nodup := by
  cases v with
  | dict kvs => exact (Val.wf_dict_iff.mp h).1
  | list xs =>
    rw [keys_parts_list]
    exact List.nodup_range.map fun _ _ => toString_injective
  | _ => exact List.nodup_nil

lemma wf_parts (h : v.wf = true) {item : String × Val} (hm : item ∈ parts v) : item.2.wf = true := by
  cases v with
  | dict kvs => exact (Val.wf_dict_iff.mp h).2 item hm
  | list xs =>
    obtain ⟨⟨x, i⟩, hx, rfl⟩ := List.mem_map.mp hm
    exact Val.wf_list_iff.mp h x (List.fst_mem_of_mem_zipIdx hx)
  | _ => cases hm

lemma valueIn_append : valueIn v (front ++ rest) = (valueIn v front).bind fun w => valueIn w rest := by
  induction front generalizing v with
  | nil => rfl
  | cons k front ih =>
    rw [List.cons_append, valueIn, valueIn, Option.bind_assoc]
    exact congrArg _ (funext fun w => ih)

lemma valueIn_of_valueAt (h : valueAt v path = some w) : valueIn v path = some w := by
  induction path generalizing v with
  | nil => exact h
  | cons k path ih =>
    cases v with
    | dict kvs =>
      obtain ⟨u, hu, hw⟩ := Option.bind_eq_some_iff.mp h
      exact Option.bind_eq_some_iff.mpr ⟨u, hu, ih hw⟩
    | _ => cases h

/-- A value in a value is reached by keys alone, or is in a list that is. -/
lemma exists_valueAt (h : valueIn v path = some w) :
    ∃ front rest x, path = front ++ rest ∧ valueAt v front = some x ∧ (x.isDict = false ∨ rest = []) ∧
      valueIn x rest = some w := by
  induction path generalizing v with
  | nil =>
    obtain rfl := Option.some.inj h
    exact ⟨[], [], v, rfl, rfl, Or.inr rfl, rfl⟩
  | cons k path ih =>
    cases v with
    | dict kvs =>
      obtain ⟨u, hu, hw⟩ := Option.bind_eq_some_iff.mp h
      obtain ⟨front, rest, x, rfl, hx, hxd, hxw⟩ := ih hw
      exact ⟨k :: front, rest, x, rfl, Option.bind_eq_some_iff.mpr ⟨u, hu, hx⟩, hxd, hxw⟩
    | _ => exact ⟨[], k :: path, _, rfl, rfl, Or.inl rfl, h⟩

lemma parts_sem (h : v.sem = w.sem) (k : String) :
    ((parts v).lookup k).map Val.sem = ((parts w).lookup k).map Val.sem := by
  have hlist : ∀ xs : List Val, ((parts (.list xs)).lookup k).map Val.sem =
      ((xs.map Val.sem).zipIdx.map fun p => (toString p.2, p.1)).lookup k := by
    intro xs
    refine (lookup_map Function.injective_id (fun _ (x : Val) => x.sem) k _).symm.trans ?_
    rw [List.zipIdx_map, parts, List.map_map, List.map_map]
    rfl
  cases v with
  | dict kvs =>
    cases w with
    | dict items =>
      rw [Val.sem_dict, Val.sem_dict] at h
      exact congrFun (Tree.node.inj h) k
    | _ => simp [Val.sem] at h
  | list xs =>
    cases w with
    | list ys =>
      rw [Val.sem_list, Val.sem_list] at h
      rw [hlist, hlist, Tree.list.inj h]
    | _ => simp [Val.sem] at h
  | _ =>
    cases w with
    | list => simp [Val.sem] at h
    | dict => simp [Val.sem] at h
    | _ => rfl

/-- What is in one of two equal values is in the other. -/
lemma valueIn_sem (h : v.sem = w.sem) (hw : valueIn w rest = some x) :
    ∃ y, valueIn v rest = some y ∧ y.sem = x.sem := by
  induction rest generalizing v w with
  | nil =>
    obtain rfl : w = x := Option.some.inj hw
    exact ⟨v, rfl, h⟩
  | cons k rest ih =>
    obtain ⟨u, hu, hx⟩ := Option.bind_eq_some_iff.mp hw
    have hk := parts_sem h k
    rw [hu] at hk
    obtain ⟨o, ho, hsame⟩ := Option.map_eq_some_iff.mp hk
    obtain ⟨y, hy, hxy⟩ := ih hsame hx
    exact ⟨y, Option.bind_eq_some_iff.mpr ⟨o, ho, hy⟩, hxy⟩

lemma wf_valueIn (h : v.wf = true) (hx : valueIn v rest = some x) : x.wf = true := by
  induction rest generalizing v with
  | nil =>
    obtain rfl : v = x := Option.some.inj hx
    exact h
  | cons k rest ih =>
    obtain ⟨u, hu, hx⟩ := Option.bind_eq_some_iff.mp hx
    exact ih (wf_parts h (mem_of_lookup hu)) hx

/-! ### The entries of a value -/

/-- Each part of a value is an entry, and so are the parts of it. -/
lemma leafEntries_eq (path : List String) (anchor : Option (List String)) (v : Val) :
    leafEntries lib path anchor v = (parts v).flatMap fun item =>
      ⟨path ++ [item.1], item.2, valueText lib item.2, anchor⟩ :: leafEntries lib (path ++ [item.1]) anchor item.2 := by
  have hitems : ∀ kvs : List (String × Val), leafItems lib path anchor kvs = kvs.flatMap fun item =>
      ⟨path ++ [item.1], item.2, valueText lib item.2, anchor⟩ ::
        leafEntries lib (path ++ [item.1]) anchor item.2 := by
    intro kvs
    induction kvs with
    | nil => rw [leafItems, List.flatMap_nil]
    | cons item kvs ih => rw [leafItems, ih, List.flatMap_cons]
  have hlist : ∀ (xs : List Val) (index : ℕ), leafList lib path anchor index xs =
      leafItems lib path anchor ((xs.zipIdx index).map fun p => (toString p.2, p.1)) := by
    intro xs
    induction xs with
    | nil => intro index; rw [leafList, List.zipIdx_nil, List.map_nil, leafItems]
    | cons x xs ih => intro index; rw [leafList, ih, List.zipIdx_cons, List.map_cons, leafItems]
  cases v with
  | dict kvs => rw [leafEntries, hitems, parts]
  | list xs => rw [leafEntries, hlist, hitems, parts]
  | _ => rfl

/-- The entry for a value. -/
abbrev entryOf (lib : Library) (path : List String) (anchor : Option (List String)) (raw : Val) : GrepEntry :=
  ⟨path, raw, valueText lib raw, anchor⟩

/-- **The entries of a value are the values in it.** -/
lemma mem_leafEntries (hv : v.wf = true) : entry ∈ leafEntries lib path anchor v ↔
    ∃ rest raw, rest ≠ [] ∧ valueIn v rest = some raw ∧ entry = entryOf lib (path ++ rest) anchor raw := by
  have hstep : ∀ v : Val, v.wf = true →
      (∀ item ∈ parts v, ∀ path, entry ∈ leafEntries lib path anchor item.2 ↔
        ∃ rest raw, rest ≠ [] ∧ valueIn item.2 rest = some raw ∧ entry = entryOf lib (path ++ rest) anchor raw) →
      ∀ path, entry ∈ leafEntries lib path anchor v ↔
        ∃ rest raw, rest ≠ [] ∧ valueIn v rest = some raw ∧ entry = entryOf lib (path ++ rest) anchor raw := by
    intro v hv ih path
    rw [leafEntries_eq, List.mem_flatMap]
    constructor
    · rintro ⟨⟨k, u⟩, hm, hentry⟩
      have hu := (lookup_eq_some_iff (nodup_parts hv)).mpr hm
      rcases List.mem_cons.mp hentry with rfl | hentry
      · exact ⟨[k], u, List.cons_ne_nil _ _, by rw [valueIn, hu]; rfl, rfl⟩
      · obtain ⟨rest, raw, -, hraw, rfl⟩ := (ih _ hm _).mp hentry
        refine ⟨k :: rest, raw, List.cons_ne_nil _ _, by rw [valueIn, hu]; exact hraw, ?_⟩
        rw [List.append_assoc, List.singleton_append]
    · rintro ⟨rest, raw, hne, hraw, rfl⟩
      obtain ⟨k, rest, rfl⟩ := List.exists_cons_of_ne_nil hne
      obtain ⟨u, hu, hraw⟩ := Option.bind_eq_some_iff.mp hraw
      refine ⟨(k, u), mem_of_lookup hu, ?_⟩
      cases rest with
      | nil =>
        obtain rfl : u = raw := Option.some.inj hraw
        exact List.mem_cons_self
      | cons j rest =>
        refine List.mem_cons_of_mem _ ((ih _ (mem_of_lookup hu) _).mpr ⟨j :: rest, raw, List.cons_ne_nil _ _, hraw, ?_⟩)
        rw [List.append_assoc, List.singleton_append]
  induction v using Val.ind generalizing path with
  | list xs ih =>
    refine hstep _ hv (fun item hm path => ?_) path
    have hx : item.2 ∈ xs := by
      obtain ⟨⟨x, i⟩, hx, rfl⟩ := List.mem_map.mp hm
      exact List.fst_mem_of_mem_zipIdx hx
    exact ih _ hx (wf_parts hv hm)
  | dict kvs ih => exact hstep _ hv (fun item hm path => ih _ hm (wf_parts hv hm)) path
  | _ => exact hstep _ hv (fun item hm => by cases hm) path

/-! ### The entries of a record -/

lemma getNested_of_valueAt (h : valueAt v path = some w) : getNested v path = w := by
  induction path generalizing v with
  | nil => exact Option.some.inj h
  | cons k path ih =>
    cases v with
    | dict kvs =>
      obtain ⟨u, hu, hw⟩ := Option.bind_eq_some_iff.mp h
      rw [getNested, hu]
      exact ih hw
    | _ => cases h

/-- The entry is a value of the new state, or one of the old state under a path that the new one does not have. -/
def GrepEntry.Found (p c : Val) (entry : GrepEntry) : Prop :=
  match entry.anchor with
  | none => valueIn c entry.path = some entry.raw
  | some anchor => anchor <+: entry.path ∧ valueAt c anchor = none ∧ valueIn p entry.path = some entry.raw

variable {p c : Val} {change : LoggedChange}

/-- The value that the entries of a change are about, and its anchor. -/
lemma mem_changeEntries (anchor : Option (List String)) (hv : v.wf = true)
    (hsource : (match change.type with
      | .delete => (getNested p change.path, some change.path)
      | _ => (change.value, none)) = (v, anchor)) :
    entry ∈ changeEntries lib p change ↔
      ∃ rest raw, valueIn v rest = some raw ∧ entry = entryOf lib (change.path ++ rest) anchor raw := by
  rw [changeEntries, hsource]
  dsimp only
  rw [List.mem_cons, mem_leafEntries hv]
  constructor
  · rintro (rfl | ⟨rest, raw, -, hraw, rfl⟩)
    · exact ⟨[], v, rfl, by rw [List.append_nil]⟩
    · exact ⟨rest, raw, hraw, rfl⟩
  · rintro ⟨rest, raw, hraw, rfl⟩
    cases rest with
    | nil =>
      obtain rfl : v = raw := Option.some.inj hraw
      exact Or.inl (by rw [List.append_nil])
    | cons k rest => exact Or.inr ⟨k :: rest, raw, List.cons_ne_nil _ _, hraw, rfl⟩

/-- The entries of an exact change are values of the two states. -/
lemma LoggedChange.Exact.found (hp : p.wf = true) (hc : c.wf = true) (h : change.Exact p c change.path change.path)
    (hentry : entry ∈ changeEntries lib p change) :
    entry.text = valueText lib entry.raw ∧ entry.Found p c := by
  obtain ⟨type, path, value⟩ := change
  cases h with
  | gone old hold hnone =>
    obtain ⟨rest, raw, hraw, rfl⟩ := (mem_changeEntries (some path) (wf_valueAt hp hold)
      (by simp only [getNested_of_valueAt hold])).mp hentry
    refine ⟨rfl, List.prefix_append _ _, hnone, ?_⟩
    rw [valueIn_append, valueIn_of_valueAt hold]
    exact hraw
  | new v hold hv =>
    obtain ⟨rest, raw, hraw, rfl⟩ := (mem_changeEntries none (wf_valueAt hc hv) rfl).mp hentry
    refine ⟨rfl, ?_⟩
    show valueIn c (path ++ rest) = some raw
    rw [valueIn_append, valueIn_of_valueAt hv]
    exact hraw
  | changed old v hold hnone hv =>
    obtain ⟨rest, raw, hraw, rfl⟩ := (mem_changeEntries none (wf_valueAt hc hv) rfl).mp hentry
    refine ⟨rfl, ?_⟩
    show valueIn c (path ++ rest) = some raw
    rw [valueIn_append, valueIn_of_valueAt hv]
    exact hraw

/-- The entries are values of the new state, or of the old one under a deleted path; every value that is new or
different is an entry, unless it is a dict where keys led to something before, and every value that is gone. -/
structure Searched (lib : Library) (p c : Val) (entries : List GrepEntry) : Prop where
  found : ∀ entry ∈ entries, entry.text = valueText lib entry.raw ∧ entry.Found p c
  new_mem : ∀ path w, valueIn c path = some w → w.isDict = false ∨ valueAt p path = none →
    (∀ w', valueIn p path = some w' → w'.pyEq w = false) → entryOf lib path none w ∈ entries
  gone_mem : ∀ front rest w, valueAt c front = none → (valueAt p front).isSome → valueIn p (front ++ rest) = some w →
    ∃ anchor, anchor <+: front ∧ entryOf lib (front ++ rest) (some anchor) w ∈ entries

lemma LoggedChange.Exact.valueAt_eq (h : change.Exact p c change.path change.path) (hresult : change.result ≠ none) :
    change.type ≠ .delete ∧ valueAt c change.path = some change.value := by
  obtain ⟨type, path, value⟩ := change
  cases h with
  | gone => exact (hresult rfl).elim
  | new v _ hv => exact ⟨ChangeType.noConfusion, hv⟩
  | changed old v _ _ hv => exact ⟨ChangeType.noConfusion, hv⟩

lemma LoggedChange.Exact.exists_old (h : change.Exact p c change.path change.path) (htype : change.type = .delete) :
    ∃ old, valueAt p change.path = some old := by
  obtain ⟨type, path, value⟩ := change
  cases h with
  | gone old hp => exact ⟨old, hp⟩
  | new => cases htype
  | changed => cases htype

/-- A value that is new or different has an entry. -/
lemma new_mem_frontier (hp : p.wf = true) (hc : c.wf = true)
    (hexact : ∀ change ∈ frontier p c [], change.Exact p c change.path change.path) (hw : valueIn c path = some w)
    (hd : w.isDict = false ∨ valueAt p path = none) (hdiffer : ∀ w', valueIn p path = some w' → w'.pyEq w = false) :
    entryOf lib path none w ∈ (frontier p c []).flatMap (changeEntries lib p) := by
  -- the diff does not look into the outermost list
  obtain ⟨front, rest, x, rfl, hx, hlist, hxw⟩ := exists_valueAt hw
  have hxwf := wf_valueAt hc hx
  have hdiffers : ∀ w', valueAt p front = some w' → w'.pyEq x = false := by
    intro w' hw'
    by_contra hsame
    have hw'wf := wf_valueAt hp hw'
    obtain ⟨y, hy, hyw⟩ := valueIn_sem ((Val.pyEq_iff hw'wf hxwf).mp (by simpa using hsame)) hxw
    have hne := hdiffer y (by rw [valueIn_append, valueIn_of_valueAt hw']; exact hy)
    rw [(Val.pyEq_iff (wf_valueIn hw'wf hy) (wf_valueIn hxwf hxw)).mpr hyw] at hne
    cases hne
  have hxd : x.isDict = false ∨ valueAt p front = none := by
    rcases hlist with hxd | rfl
    · exact Or.inl hxd
    · obtain rfl := Option.some.inj hxw
      rwa [List.append_nil] at hd
  obtain ⟨change, hchange, front', hresult, hpath, hfront⟩ : ∃ change ∈ frontier p c [], _ :=
    frontier_covers hp hc hx hxd hdiffers
  obtain ⟨behind, rfl⟩ := hfront
  rw [List.nil_append] at hpath
  obtain ⟨htype, hvalue⟩ := (hexact change hchange).valueAt_eq hresult
  refine List.mem_flatMap.mpr ⟨change, hchange, ?_⟩
  refine (mem_changeEntries none (wf_valueAt hc hvalue) (by cases h : change.type <;> simp_all)).mpr
    ⟨behind ++ rest, w, ?_, ?_⟩
  · rw [List.append_assoc, valueIn_append, ← hpath, valueIn_of_valueAt hvalue] at hw
    exact hw
  · rw [hpath, List.append_assoc]

/-- A value under a key that is gone has an entry, anchored where the deletion is listed. -/
lemma gone_mem_frontier (hp : p.wf = true) (hc : c.wf = true) (hkind : SameKind p c)
    (hexact : ∀ change ∈ frontier p c [], change.Exact p c change.path change.path) (hgone : valueAt c front = none)
    (hsome : (valueAt p front).isSome) (hw : valueIn p (front ++ rest) = some w) :
    ∃ anchor, anchor <+: front ∧
      entryOf lib (front ++ rest) (some anchor) w ∈ (frontier p c []).flatMap (changeEntries lib p) := by
  obtain ⟨old, hold⟩ := Option.isSome_iff_exists.mp hsome
  obtain ⟨change, hchange, front', htype, hpath, hfront⟩ : ∃ change ∈ frontier p c [], _ :=
    frontier_deletes hp hc hkind hold hgone
  obtain ⟨behind, rfl⟩ := hfront
  rw [List.nil_append] at hpath
  obtain ⟨whole, hwhole⟩ := (hexact change hchange).exists_old htype
  refine ⟨change.path, by rw [hpath]; exact List.prefix_append _ _, List.mem_flatMap.mpr ⟨change, hchange, ?_⟩⟩
  refine (mem_changeEntries (some change.path) (wf_valueAt hp hwhole)
    (by rw [htype, getNested_of_valueAt hwhole])).mpr ⟨behind ++ rest, w, ?_, ?_⟩
  · rw [List.append_assoc, valueIn_append, ← hpath, valueIn_of_valueAt hwhole] at hw
    exact hw
  · rw [hpath, List.append_assoc]

namespace Sample

/-- The library as it is for lower-case texts and numbers. -/
def plainLibrary : Library where
  py := sampleTables
  fnmatchcase text pattern := text = pattern
  repr v := match v with
    | .int n => toString n
    | _ => ""
  dumps v := match v with
    | .list xs => "[" ++ ", ".intercalate (xs.map fun x => match x with
      | .int n => toString n
      | _ => "") ++ "]"
    | _ => "{}"

end Sample

end Kanta
