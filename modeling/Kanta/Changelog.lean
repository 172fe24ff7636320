import Kanta.Lib.Script
import Kanta.Reapply

/-!
# The changes that are told

The change log, the record viewer and its search do not apply a diff but read it: `_collect_changes`
turns an unescaped diff and the state before it into a flat list of entries, each with the path of what
was added, updated or deleted.  In states without `$` whose paths keep to objects or to other values, the
list is an edit script for the states (`collect_script`).
-/

namespace Kanta

open Kanta.Lib Kanta.Lib.Assoc

/-- `change_type`. -/
inductive ChangeType where
  | add
  | update
  | delete

/-- `(change_type, path, new_value)`. -/
structure LoggedChange where
  type : ChangeType
  path : List String
  value : Val

/-- `v is None`. -/
def isNone : Val → Bool
  | .null => true
  | _ => false

/-- `_get_nested`: what is not there is `None`. -/
def getNested : Val → List String → Val
  | data, [] => data
  | .dict kvs, key :: path =>
    match kvs.lookup key with
    | none => .null
    | some current => getNested current path
  | _, _ :: _ => .null

section

variable (repr : Val → String)

/-- `str(v)`: a string is itself, anything else is printed. -/
def strOf : Val → String
  | .str s => s
  | v => repr v

/-- The entries for a `$delete`. -/
def deleteChanges (path : List String) (value : Val) : List LoggedChange :=
  (deleteKeys value).map fun key => ⟨.delete, path ++ [strOf repr key], .null⟩

/-- The entries for a `$replace`; the deleted keys, a set in the source, in the order of the old value. -/
def replaceChanges (old : Val) (path : List String) (value : Val) : List LoggedChange :=
  let oldKeys := match old with
    | .dict kvs => keys kvs
    | _ => []
  match value with
  | .dict kvs =>
    ((oldKeys.filter fun key => key ∉ keys kvs).map fun key => ⟨.delete, path ++ [key], .null⟩) ++
      kvs.map fun item => ⟨if item.1 ∈ oldKeys then .update else .add, path ++ [item.1], item.2⟩
  | value =>
    (oldKeys.map fun key => ⟨.delete, path ++ [key], .null⟩) ++
      if truthy value ∨ oldKeys = [] then [⟨if isNone old then .add else .update, path, value⟩] else []

mutual
/-- `_collect_changes`. -/
def collectChanges (previous : Val) : Val → List String → List LoggedChange → Except Exc (List LoggedChange)
  | .dict diff, path, changes =>
    match getNested previous path with
    | .list old => do
      let value ← rawApply (.list old) (.dict diff)
      .ok (changes ++ [⟨.update, path, value⟩])
    | _ => collectItems previous diff path changes
  | diff, path, changes =>
    .ok (changes ++ [⟨if isNone (getNested previous path) then .add else .update, path, diff⟩])
/-- The loop of `_collect_changes` over the items of a diff.  The branch for other keys with a `$` does
what the one for plain keys does. -/
def collectItems (previous : Val) :
    List (String × Val) → List String → List LoggedChange → Except Exc (List LoggedChange)
  | [], _, changes => .ok changes
  | (key, value) :: rest, path, changes =>
    if key = "$delete" then collectItems previous rest path (changes ++ deleteChanges repr path value)
    else if key = "$replace" then
      collectItems previous rest path (changes ++ replaceChanges (getNested previous path) path value)
    else if isNone (getNested previous (path ++ [key])) then
      collectItems previous rest path (changes ++ [⟨.add, path ++ [key], value⟩])
    else do
      let changes ← collectChanges previous value (path ++ [key]) changes
      collectItems previous rest path changes
end

/-- The changes that `format_diff` lists for the diff of two states; without a difference it is empty. -/
def listedChanges (previous current : Dict) : Except Exc (List LoggedChange) :=
  collectChanges repr previous.val (unmarshal ((diff previous current).getD Dict.empty.val)) [] []

end

/-! ### Changes as edits -/

/-- What stands at the path afterwards. -/
def LoggedChange.result (change : LoggedChange) : Option Val :=
  match change.type with
  | .delete => none
  | _ => some change.value

/-- What is at a path is set, or removed. -/
def editAt (new : Option Val) : List String → Option Val → Option Val
  | [], _ => new
  | key :: path, some (.dict kvs) =>
    match editAt new path (kvs.lookup key) with
    | none => some (.dict (remove key kvs))
    | some value => some (.dict (put key value kvs))
  | _ :: _, value => value

/-- The state with the changes made one after another. -/
def makeChanges (changes : List LoggedChange) (state : Val) : Option Val :=
  changes.foldl (fun value change => editAt change.result change.path value) (some state)

/-- No path holds an object in one state and something else in the other. -/
def SameKind (previous current : Val) : Prop :=
  ∀ path v w, valueAt previous path = some v → valueAt current path = some w → v.isDict = w.isDict

/-- The list tells the whole change: made in any order, its changes lead from the one state to the other,
and none of its paths is another one or leads to it. -/
def Tells (previous current : Val) (changes : List LoggedChange) : Prop :=
  (∀ script : List LoggedChange, script.Perm changes →
    ∃ state, makeChanges script previous = some state ∧ state.pyEq current = true) ∧
  changes.Pairwise fun x y => ¬x.path <+: y.path ∧ ¬y.path <+: x.path

/-- The change as an edit of the tree. -/
def LoggedChange.edit (change : LoggedChange) : List String × Option (Tree String Atom) :=
  (change.path, change.result.map Val.sem)

/-- The change in a value that is itself at a path. -/
def LoggedChange.below (path : List String) (change : LoggedChange) : LoggedChange :=
  { change with path := path ++ change.path }


section

variable {repr : Val → String}

/-! ### Nested values -/

lemma getNested_append (v : Val) (path rest : List String) :
    getNested v (path ++ rest) = getNested (getNested v path) rest := by
  have hnull : getNested .null rest = .null := by cases rest <;> rfl
  induction path generalizing v with
  | nil => cases v <;> rfl
  | cons key path ih =>
    cases v with
    | dict kvs =>
      rw [List.cons_append, getNested, getNested]
      cases kvs.lookup key with
      | none => exact hnull.symm
      | some w => exact ih w
    | _ => exact hnull.symm

lemma getNested_singleton (kvs : List (String × Val)) (key : String) :
    getNested (.dict kvs) [key] = (kvs.lookup key).getD .null := by
  rw [getNested]
  cases kvs.lookup key with
  | none => rfl
  | some v => cases v <;> rfl

lemma SameKind.inside {p c : List (String × Val)} {k : String} {v w : Val} (h : SameKind (.dict p) (.dict c))
    (hv : p.lookup k = some v) (hw : c.lookup k = some w) : SameKind v w := fun path x y hx hy =>
  h (k :: path) x y (by rw [valueAt, hv]; exact hx) (by rw [valueAt, hw]; exact hy)

/-! ### Collecting -/

lemma collectChanges_of_not_dict {previous diff : Val} (h : diff.isDict = false) (path : List String)
    (changes : List LoggedChange) :
    collectChanges repr previous diff path changes =
      .ok (changes ++ [⟨if isNone (getNested previous path) then .add else .update, path, diff⟩]) := by
  cases diff <;> first | rfl | simp [Val.isDict] at h

lemma collectChanges_dict {previous : Val} {kvs : List (String × Val)} {path : List String}
    (h : getNested previous path = .dict kvs) (diff : List (String × Val)) (changes : List LoggedChange) :
    collectChanges repr previous (.dict diff) path changes = collectItems repr previous diff path changes := by
  rw [collectChanges, h]

/-- The deleted keys come first. -/
lemma collectItems_deleted {previous : Val} (deleted : List String) (rest : List (String × Val))
    (path : List String) (changes : List LoggedChange) :
    collectItems repr previous (deleteEntry id deleted ++ rest) path changes =
      collectItems repr previous rest path
        (changes ++ deleted.map fun key => ⟨.delete, path ++ [key], .null⟩) := by
  unfold deleteEntry
  by_cases h : deleted = []
  · simp [h]
  · rw [if_neg (by simpa using h), List.cons_append, List.nil_append, collectItems, if_pos rfl, deleteChanges,
      deleteKeys, List.map_map]
    rfl

/-- What becomes of an entry under a plain key. -/
def collectEntry (repr : Val → String) (previous value : Val) (path : List String) (changes : List LoggedChange) :
    Except Exc (List LoggedChange) :=
  if isNone (getNested previous path) then .ok (changes ++ [⟨.add, path, value⟩])
  else collectChanges repr previous value path changes

/-- The changes below the plain keys of a diff, key by key. -/
lemma collectItems_plain {previous : Val} {diff : List (String × Val)} {path : List String}
    (hplain : ∀ key ∈ keys diff, isReserved key = false) {ls : String → List LoggedChange}
    (h : ∀ key value, (key, value) ∈ diff → ∀ changes,
      collectEntry repr previous value (path ++ [key]) changes =
        .ok (changes ++ (ls key).map (LoggedChange.below (path ++ [key])))) (changes : List LoggedChange) :
    collectItems repr previous diff path changes =
      .ok (changes ++ (keys diff).flatMap fun key => (ls key).map (LoggedChange.below (path ++ [key]))) := by
  induction diff generalizing changes with
  | nil => rw [collectItems]; simp
  | cons item diff ih =>
    obtain ⟨key, value⟩ := item
    obtain ⟨hreplace, hcommand⟩ := not_reserved_iff.mp (hplain key List.mem_cons_self)
    have hdelete : key ≠ "$delete" := by rintro rfl; simp [isCommand] at hcommand
    have hrest := ih (fun k hk => hplain k (List.mem_cons_of_mem _ hk))
      fun k v hv => h k v (List.mem_cons_of_mem _ hv)
    have hentry := h key value List.mem_cons_self changes
    rw [collectItems, if_neg hdelete, if_neg hreplace]
    unfold collectEntry at hentry
    split
    · rw [if_pos ‹_›] at hentry
      rw [Except.ok.inj hentry, hrest]
      simp [keys]
    · rw [if_neg ‹_›] at hentry
      rw [hentry]
      exact (hrest _).trans (by simp [keys])

/-! ### The script -/

/-- The changes are a script that leads from the one value to the other. -/
structure Scripts (l : List LoggedChange) (p c : Option Val) : Prop where
  wf : ∀ change ∈ l, ∀ value, change.result = some value → value.wf = true
  script : Tree.Script (l.map LoggedChange.edit) (p.map Val.sem) (c.map Val.sem)

lemma Scripts.set {value : Val} (h : value.wf = true) (existed : Bool) (p : Option Val) :
    Scripts [⟨if existed then .add else .update, [], value⟩] p (some value) := by
  have hresult : LoggedChange.result ⟨if existed then .add else .update, [], value⟩ = some value := by
    cases existed <;> rfl
  refine ⟨fun change hm v hv => ?_, ?_⟩
  · rw [List.mem_singleton.mp hm, hresult] at hv
    exact Option.some.inj hv ▸ h
  · rw [List.map_singleton, LoggedChange.edit, hresult]
    exact .put _ _

lemma Scripts.delete (p : Option Val) : Scripts [⟨.delete, [], .null⟩] p none := by
  refine ⟨fun change hm v hv => ?_, .put _ _⟩
  rw [List.mem_singleton.mp hm] at hv
  simp [LoggedChange.result] at hv

/-- Scripts for the values of some keys, where the others agree. -/
lemma Scripts.dict {p c : List (String × Val)} {ks : List String} (hks : ks.Nodup)
    {ls : String → List LoggedChange} (h : ∀ k ∈ ks, Scripts (ls k) (p.lookup k) (c.lookup k))
    (hrest : ∀ k, k ∉ ks → (p.lookup k).map Val.sem = (c.lookup k).map Val.sem) :
    Scripts (ks.flatMap fun k => (ls k).map (LoggedChange.below [k])) (some (.dict p)) (some (.dict c)) := by
  have hedits : (ks.flatMap fun k => (ls k).map (LoggedChange.below [k])).map LoggedChange.edit =
      ks.flatMap fun k => ((ls k).map LoggedChange.edit).map fun e => (k :: e.1, e.2) := by
    rw [List.map_flatMap]
    simp only [List.map_map]
    rfl
  refine ⟨fun change hm value hv => ?_, ?_⟩
  · obtain ⟨k, hk, hm⟩ := List.mem_flatMap.mp hm
    obtain ⟨inner, hinner, rfl⟩ := List.mem_map.mp hm
    exact (h k hk).wf inner hinner value hv
  · rw [hedits, Option.map_some, Option.map_some, Val.sem_dict, Val.sem_dict]
    refine .node _ _ (fun e he => ?_) fun k => ?_
    · obtain ⟨k, -, he⟩ := List.mem_flatMap.mp he
      obtain ⟨e, -, rfl⟩ := List.mem_map.mp he
      exact List.cons_ne_nil _ _
    · rw [Tree.inside_flatMap hks]
      split
      · exact (h k ‹_›).script
      · rw [hrest k ‹_›]
        exact .nil _

/-- What is listed below a key of two dicts. -/
def listedBelow (p c : List (String × Val)) (ls : String → List LoggedChange) (k : String) : List LoggedChange :=
  if k ∈ deletedKeys p c then [⟨.delete, [], .null⟩] else ls k

/-- Two dicts, key by key: the deleted keys, and below each changed one what is collected there. -/
lemma collect_dict {previous : Val} {p c : List (String × Val)} {path : List String}
    (hp : (Val.dict p).wf = true) (hc : (Val.dict c).wf = true) (hcd : dollarFree (.dict c) = true)
    (hat : getNested previous path = .dict p) {ls : String → List LoggedChange}
    (hls : ∀ k u, (changes p c).lookup k = some u →
      (∀ acc, collectEntry repr previous (unmarshal u) (path ++ [k]) acc =
        .ok (acc ++ (ls k).map (LoggedChange.below (path ++ [k])))) ∧
      Scripts (ls k) (p.lookup k) (c.lookup k)) : ∃ l : List LoggedChange,
      (∀ acc, collectChanges repr previous (unmarshal (.dict (diffEntries p c))) path acc =
        .ok (acc ++ l.map (LoggedChange.below path))) ∧ Scripts l (some (.dict p)) (some (.dict c)) := by
  have hcn := (Val.wf_dict_iff.mp hc).1
  have hpn := (Val.wf_dict_iff.mp hp).1
  have hchn : (keys (changes p c)).Nodup := nodup_changes hcn
  have hplain : ∀ k ∈ keys (changes p c), isReserved k = false := fun k hk =>
    not_reserved_of_dollarFree hcd ((keys_changes_sublist p c).subset hk)
  have hdisjoint : ∀ k ∈ keys (changes p c), k ∉ deletedKeys p c := fun k hk hdel =>
    (mem_deletedKeys.mp hdel).2 ((keys_changes_sublist p c).subset hk)
  have hwrites : ∀ path' : List String,
      ((deletedKeys p c ++ keys (changes p c)).flatMap fun k =>
        (listedBelow p c ls k).map (LoggedChange.below (path' ++ [k]))) =
        ((deletedKeys p c).map fun k => ⟨.delete, path' ++ [k], .null⟩) ++
          (keys (changes p c)).flatMap fun k => (ls k).map (LoggedChange.below (path' ++ [k])) := by
    intro path'
    rw [List.flatMap_append, List.map_eq_flatMap]
    refine congrArg₂ _ (List.flatMap_congr fun k hk => ?_) (List.flatMap_congr fun k hk => ?_)
    · simp [listedBelow, hk, LoggedChange.below]
    · rw [listedBelow, if_neg (hdisjoint k hk)]
  refine ⟨(deletedKeys p c ++ keys (changes p c)).flatMap fun k =>
    (listedBelow p c ls k).map (LoggedChange.below [k]), fun acc => ?_,
    Scripts.dict ?_ (fun k hk => ?_) fun k hk => ?_⟩
  · have hbelow : ((deletedKeys p c ++ keys (changes p c)).flatMap fun k =>
        (listedBelow p c ls k).map (LoggedChange.below [k])).map (LoggedChange.below path) =
        (deletedKeys p c ++ keys (changes p c)).flatMap fun k =>
          (listedBelow p c ls k).map (LoggedChange.below (path ++ [k])) := by
      rw [List.map_flatMap]
      simp only [List.map_map]
      refine List.flatMap_congr fun k _ => List.map_congr_left fun change _ => ?_
      simp [LoggedChange.below]
    have hentries : ∀ k value, (k, value) ∈ unescapedChanges p c → ∀ acc,
        collectEntry repr previous value (path ++ [k]) acc =
          .ok (acc ++ (ls k).map (LoggedChange.below (path ++ [k]))) := by
      intro k value hm
      obtain ⟨⟨j, u⟩, hu, he⟩ := List.mem_map.mp hm
      obtain ⟨rfl, rfl⟩ := Prod.mk.inj he
      exact (hls j u ((lookup_eq_some_iff hchn).mpr hu)).1
    rw [hbelow, hwrites, unmarshal_rawDiff, collectChanges_dict hat,
      unescapedDiff_eq hcn fun k hk => (not_reserved_iff.mp (hplain k hk)).2, collectItems_deleted,
      collectItems_plain (by rwa [keys_unescapedChanges]) hentries, keys_unescapedChanges, List.append_assoc]
  · exact List.nodup_append.mpr ⟨hpn.filter _, hchn, fun k hk j hj e => hdisjoint j hj (e ▸ hk)⟩
  · by_cases hdel : k ∈ deletedKeys p c
    · rw [lookup_eq_none_iff.mpr (mem_deletedKeys.mp hdel).2]
      rw [listedBelow, if_pos hdel]
      exact .delete _
    · have hk := (List.mem_append.mp hk).resolve_left hdel
      obtain ⟨u, hu⟩ := Option.isSome_iff_exists.mp (lookup_isSome_iff.mpr hk)
      rw [listedBelow, if_neg hdel]
      exact (hls k u hu).2
  · obtain ⟨hdel, hch⟩ := not_or.mp (List.mem_append.not.mp hk)
    refine (unchanged hp hc (lookup_eq_none_iff.mpr hch)).elim (fun hnone => ?_) id
    have hpk : p.lookup k = none := lookup_eq_none_iff.mpr fun h =>
      hdel (mem_deletedKeys.mpr ⟨h, lookup_eq_none_iff.mp hnone⟩)
    rw [hnone, hpk]

/-- **The collected changes are a script** for the value of a path. -/
theorem collect_script {previous p c d : Val} {path : List String} (hp : p.wf = true) (hc : c.wf = true)
    (hcd : dollarFree c = true) (hkind : SameKind p c) (hd : rawDiff p c = some d)
    (hat : getNested previous path = p) : ∃ l : List LoggedChange,
      (∀ acc, collectChanges repr previous (unmarshal d) path acc =
        .ok (acc ++ l.map (LoggedChange.below path))) ∧ Scripts l (some p) (some c) := by
  induction c using Val.ind generalizing p d path with
  | dict c ih =>
    obtain ⟨p, rfl⟩ := Val.exists_of_isDict (hkind [] _ _ rfl rfl)
    have hcn := (Val.wf_dict_iff.mp hc).1
    -- below a changed key stands the new value itself, or what is collected inside it
    have hentry : ∀ k, ∃ l, ∀ u, (changes p c).lookup k = some u →
        (∀ acc, collectEntry repr previous (unmarshal u) (path ++ [k]) acc =
          .ok (acc ++ l.map (LoggedChange.below (path ++ [k])))) ∧ Scripts l (p.lookup k) (c.lookup k) := by
      intro k
      rcases hu : (changes p c).lookup k with _ | u
      · exact ⟨[], by simp⟩
      obtain ⟨v, hv, hch⟩ := (lookup_changes hcn).mp hu
      obtain ⟨-, hvd⟩ := dollar_of_lookup hcd hv
      have hvw := Val.wf_of_lookup hc hv
      have hnested : getNested previous (path ++ [k]) = (p.lookup k).getD .null := by
        rw [getNested_append, hat, getNested_singleton]
      have hadd : isNone (getNested previous (path ++ [k])) = true → u = v →
          (∀ acc, collectEntry repr previous (unmarshal u) (path ++ [k]) acc =
            .ok (acc ++ [⟨.add, [], v⟩].map (LoggedChange.below (path ++ [k])))) := by
        rintro hnone rfl acc
        rw [collectEntry, if_pos hnone, unmarshal_of_dollarFree hvw hvd]
        simp [LoggedChange.below]
      rw [hv]
      rcases change_eq_some.mp hch with ⟨hl, rfl⟩ | ⟨old, ho, hsub⟩
      · refine ⟨_, fun w hw => ⟨?_, .set hvw true _⟩⟩
        obtain rfl := Option.some.inj hw
        exact hadd (by rw [hnested, hl]; rfl) rfl
      have hkind' := hkind.inside ho hv
      rw [ho] at hnested ⊢
      by_cases hnone : isNone old = true
      · refine ⟨_, fun w hw => ⟨?_, .set hvw true _⟩⟩
        obtain rfl := Option.some.inj hw
        refine hadd (hnested ▸ hnone) (rawDiff_of_not_dict hsub (Or.inl ?_))
        cases old <;> simp_all [isNone, Val.isDict]
      · obtain ⟨l, hl, hscript⟩ :=
          ih (k, v) (mem_of_lookup hv) (Val.wf_of_lookup hp ho) hvw hvd hkind' hsub hnested
        refine ⟨l, fun w hw => ⟨fun acc => ?_, hscript⟩⟩
        obtain rfl := Option.some.inj hw
        rw [collectEntry, if_neg (by rw [hnested]; exact hnone), hl]
    choose ls hls using hentry
    rw [rawDiff_dict hcn] at hd
    split at hd
    · simp at hd
    obtain rfl := Option.some.inj hd
    exact collect_dict hp hc hcd hat hls
  | _ =>
    obtain rfl := rawDiff_of_not_dict hd (Or.inr rfl)
    refine ⟨_, fun changes => ?_, .set hc (isNone p) _⟩
    rw [unmarshal_of_dollarFree hc hcd, collectChanges_of_not_dict rfl, hat]
    simp [LoggedChange.below]

/-! ### Making the changes -/

/-- Values that are dicts without double keys, where there is one. -/
def WfOption (v : Option Val) : Prop := ∀ w, v = some w → w.wf = true

lemma wf_editAt {new v : Option Val} {path : List String} (hnew : WfOption new) (hv : WfOption v) :
    WfOption (editAt new path v) := by
  induction path generalizing v with
  | nil => exact hnew
  | cons key path ih =>
    rcases v with _ | v
    · exact hv
    cases v with
    | dict kvs =>
      obtain ⟨hn, hw⟩ := Val.wf_dict_iff.mp (hv _ rfl)
      have hinner := ih (v := kvs.lookup key) fun w hl => hw _ (mem_of_lookup hl)
      rw [editAt]
      rcases he : editAt new path (kvs.lookup key) with _ | value
      · intro w h
        obtain rfl := Option.some.inj h
        exact Val.wf_dict_iff.mpr ⟨nodup_remove hn, fun q hq => hw q (mem_of_mem_remove hq)⟩
      · intro w h
        obtain rfl := Option.some.inj h
        refine Val.wf_dict_iff.mpr ⟨nodup_put hn _, fun q hq => ?_⟩
        rcases mem_put hq with ⟨-, rfl⟩ | hq
        · exact hinner _ he
        · exact hw q hq
    | _ => exact hv

lemma editAt_sem (new v : Option Val) (path : List String) :
    (editAt new path v).map Val.sem = Tree.edit (new.map Val.sem) path (v.map Val.sem) := by
  induction path generalizing v with
  | nil => rfl
  | cons key path ih =>
    rcases v with _ | v
    · rfl
    cases v with
    | dict kvs =>
      rw [editAt, Option.map_some, Val.sem_dict, Tree.edit, ← ih]
      rcases editAt new path (kvs.lookup key) with _ | value
      · simp only [Option.map_some, Option.map_none, Val.sem_dict]
        refine congrArg (fun f => some (Lib.Tree.node f)) (funext fun k => ?_)
        rw [lookup_remove, Function.update_apply]
        split <;> rfl
      · simp only [Option.map_some, Val.sem_dict]
        refine congrArg (fun f => some (Lib.Tree.node f)) (funext fun k => ?_)
        rw [lookup_put, Function.update_apply]
        split <;> rfl
    | _ => rfl

/-- Making changes is running their edits. -/
lemma makeChanges_sem {l : List LoggedChange} (hwf : ∀ change ∈ l, WfOption change.result) (state : Val)
    (hstate : state.wf = true) : WfOption (makeChanges l state) ∧
      (makeChanges l state).map Val.sem = Tree.run (l.map LoggedChange.edit) (some state.sem) := by
  have key : ∀ v, WfOption v →
      WfOption (l.foldl (fun value change => editAt change.result change.path value) v) ∧
        (l.foldl (fun value change => editAt change.result change.path value) v).map Val.sem =
          Tree.run (l.map LoggedChange.edit) (v.map Val.sem) := by
    induction l with
    | nil => exact fun v hv => ⟨hv, rfl⟩
    | cons change l ih =>
      intro v hv
      have hedit : WfOption (editAt change.result change.path v) := wf_editAt (hwf change List.mem_cons_self) hv
      have h := ih (fun c hc => hwf c (List.mem_cons_of_mem _ hc)) _ hedit
      refine ⟨h.1, h.2.trans ?_⟩
      rw [editAt_sem]
      rfl
  exact key (some state) fun w hw => Option.some.inj hw ▸ hstate

/-- A script tells the whole change. -/
lemma Scripts.tells {l : List LoggedChange} {p c : Val} (h : Scripts l (some p) (some c)) (hp : p.wf = true)
    (hc : c.wf = true) : Tells p c l := by
  refine ⟨fun script hperm => ?_, ?_⟩
  · obtain ⟨hwf, hsem⟩ := makeChanges_sem (l := script) (fun change hm => h.wf change (hperm.mem_iff.mp hm)) p hp
    have hrun := h.script.run_eq (hperm.map LoggedChange.edit)
    obtain ⟨state, hstate, hsame⟩ := Option.map_eq_some_iff.mp (hsem.trans hrun)
    exact ⟨state, hstate, (Val.pyEq_iff (hwf state hstate) hc).mpr hsame⟩
  · exact List.pairwise_map.mp h.script.apart

end

namespace Sample

/-- `{"a": None, "b": {"l": [1], "x": 1}, "c": 2}`. -/
def toldBefore : Dict :=
  ⟨[("a", .null), ("b", .dict [("l", .list [.int 1]), ("x", .int 1)]), ("c", .int 2)], by decide⟩

/-- `{"a": 5, "b": {"l": [2], "x": None, "y": {}}}`. -/
def toldAfter : Dict :=
  ⟨[("a", .int 5), ("b", .dict [("l", .list [.int 2]), ("x", .null), ("y", .dict [])])], by decide⟩

/-- Where the objects of the two are. -/
def objectsToTell (path : List String) : Bool := path = [] || path = ["b"] || path = ["b", "y"]

lemma sameKind_told : SameKind toldBefore.val toldAfter.val := by
  intro path v w hv hw
  rw [isDict_of_typed (τ := objectsToTell) toldBefore.wf (by decide +kernel) (by decide +kernel) hv,
    isDict_of_typed (τ := objectsToTell) toldAfter.wf (by decide +kernel) (by decide +kernel) hw]

end Sample

end Kanta
