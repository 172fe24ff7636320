import Kanta.Refusals
import Kanta.Replaylog

/-!
# Two validators of a history

`scan_events` checks the snapshots of a file from the first record on, and takes a snapshot in front
for the initial state.  The planner checks them from its base on, and without one from the empty
state.  `rotation_accepts_iff` says when it takes what `scan_events` accepts.
-/

namespace Kanta

open Kanta.Lib

/-! ### The files that `scan_events` accepts -/

/-- The first record is no snapshot of a state that is not empty. -/
def StartsEmpty (records : List Record) : Prop :=
  ∀ snap rest, records = .snapshot snap :: rest → snap.state.items = []

lemma wf_change {v w : Val} {c : ChangeRecord} (hv : v.wf = true) (h : applyDiff v c.diff.val = .ok w) :
    w.wf = true := wf_rawApply (wf_unmarshal c.diff.wf) hv h

lemma Accords.congr {x y : Val} {records : List Record} (hx : x.wf = true) (hy : y.wf = true) (he : x.sem = y.sem)
    (h : Accords x records) : Accords y records := by
  induction records generalizing x y with
  | nil => trivial
  | cons record records ih =>
    cases record with
    | snapshot snap =>
      refine ⟨?_, ih hx hy he h.2⟩
      have hsnap := (Val.pyEq_iff snap.state.wf hx).mp h.1
      exact (Val.pyEq_iff snap.state.wf hy).mpr (hsnap.trans he)
    | change c =>
      obtain ⟨next, hnext, h⟩ := h
      obtain ⟨next', hnext', he'⟩ := rawApply_congr (unmarshal c.diff.val) x y next he hnext
      exact ⟨next', hnext', ih (wf_change hx hnext) (wf_change hy hnext') he' h⟩

/-- Behind a snapshot, the history accords with the state it shows. -/
lemma Accords.behind {x : Val} {front back : List Record} {snap : Snapshot} (hx : x.wf = true)
    (h : Accords x (front ++ .snapshot snap :: back)) : Accords snap.state.val back := by
  induction front generalizing x with
  | nil =>
    have he := (Val.pyEq_iff snap.state.wf hx).mp h.1
    exact h.2.congr hx snap.state.wf he.symm
  | cons record front ih =>
    cases record with
    | snapshot s => exact ih hx h.2
    | change c =>
      obtain ⟨next, hnext, h⟩ := h
      exact ih (wf_change hx hnext) h

/-- A history that accords with its origin accords with the empty state when it starts there. -/
lemma Accords.empty_iff {records : List Record} (h : Accords (origin records) records) :
    Accords (.dict []) records ↔ StartsEmpty records := by
  cases records with
  | nil => exact iff_of_true trivial fun _ _ h => by simp at h
  | cons record rest =>
    cases record with
    | change c => exact iff_of_true h fun _ _ h => by simp at h
    | snapshot snap =>
      have hempty : snap.state.val.pyEq (.dict []) = true ↔ snap.state.items = [] := by
        cases hitems : snap.state.items <;> simp [hitems, Val.pyEq, Val.pyEqItems]
      have hstarts : StartsEmpty (.snapshot snap :: rest) ↔ snap.state.items = [] := by
        refine ⟨fun h => h snap rest rfl, fun hitems s r heq => ?_⟩
        obtain rfl := Record.snapshot.inj (List.cons.inj heq).1
        exact hitems
      rw [hstarts, ← hempty]
      refine ⟨And.left, fun hpy => ⟨hpy, ?_⟩⟩
      have he := (Val.pyEq_iff snap.state.wf rfl).mp hpy
      exact h.2.congr snap.state.wf rfl he

section

variable {blake3 : Bytes → Bytes → Digest} {ser : Serializer} {bare : BareEncoder} {framer fr : Framer}
  {content : Bytes} {cutoff now : DateTime} {minDiffs : ℤ}

/-- What `scan_events` accepts behind the first record. -/
lemma scanRecord_accords {s s' : Scanned} {raw : RawRecord} (h : scanRecord ser s raw = .ok s')
    (hne : s.events ≠ []) (hwf : s.state.wf = true) : s'.state.wf = true ∧
      ∃ event, s'.events = s.events ++ [event] ∧
        ∀ rest, Accords s'.state rest → Accords s.state (event.record :: rest) := by
  unfold scanRecord at h
  dsimp only at h
  split at h
  · split at h
    · rename_i snap hdec
      split at h
      · simp at h
      · rename_i hagrees
        obtain rfl := Except.ok.inj h
        have hlen : 1 < s.events.length + 1 := by
          have := List.length_pos_of_ne_nil hne
          omega
        have hpy : s.state.pyEq snap.state.val = true := by simpa [hlen] using hagrees
        have he := (Val.pyEq_iff hwf snap.state.wf).mp hpy
        refine ⟨snap.state.wf, _, rfl, fun rest hrest => ⟨?_, hrest.congr snap.state.wf hwf he.symm⟩⟩
        exact (Val.pyEq_iff snap.state.wf hwf).mpr he.symm
    · simp at h
    · simp at h
  · split at h
    · rename_i change hdec
      obtain ⟨state, hpatch, h⟩ := bind_eq_ok.mp h
      obtain rfl := Except.ok.inj h
      exact ⟨wf_change hwf hpatch, _, rfl, fun rest hrest => ⟨state, hpatch, hrest⟩⟩
    · simp at h
    · simp at h

lemma scanRecords_accord {raws : List RawRecord} {s s' : Scanned} (h : raws.foldlM (scanRecord ser) s = .ok s')
    (hne : s.events ≠ []) (hwf : s.state.wf = true) :
    ∃ events, s'.events = s.events ++ events ∧ Accords s.state (events.map FileEvent.record) := by
  induction raws generalizing s with
  | nil =>
    obtain rfl : s = s' := Except.ok.inj h
    exact ⟨[], by simp, trivial⟩
  | cons raw raws ih =>
    rw [List.foldlM_cons] at h
    obtain ⟨t, ht, h⟩ := bind_eq_ok.mp h
    obtain ⟨hwf', event, hevent, haccords⟩ := scanRecord_accords ht hne hwf
    obtain ⟨events, hevents, hrest⟩ := ih h (by simp [hevent]) hwf'
    exact ⟨event :: events, by rw [hevents, hevent, List.append_assoc]; rfl, haccords _ hrest⟩

/-- The first record gives the initial state. -/
lemma scanRecord_first {s' : Scanned} {raw : RawRecord} (h : scanRecord ser ⟨.dict [], [], 0⟩ raw = .ok s') :
    s'.state.wf = true ∧ ∃ event, s'.events = [event] ∧
      ∀ rest, Accords s'.state rest → Accords (origin (event.record :: rest)) (event.record :: rest) := by
  unfold scanRecord at h
  dsimp only at h
  split at h
  · split at h
    · rename_i snap hdec
      rw [if_neg (by simp)] at h
      obtain rfl := Except.ok.inj h
      refine ⟨snap.state.wf, _, rfl, fun rest hrest => ⟨?_, hrest⟩⟩
      exact (Val.pyEq_iff snap.state.wf snap.state.wf).mpr rfl
    · simp at h
    · simp at h
  · split at h
    · rename_i change hdec
      obtain ⟨state, hpatch, h⟩ := bind_eq_ok.mp h
      obtain rfl := Except.ok.inj h
      exact ⟨wf_change (wf_origin []) hpatch, _, rfl, fun rest hrest => ⟨state, hpatch, hrest⟩⟩
    · simp at h
    · simp at h

/-- The history of a file that `scan_events` accepts accords with its origin. -/
lemma scan_accords {raws : List RawRecord} {s' : Scanned} (h : raws.foldlM (scanRecord ser) ⟨.dict [], [], 0⟩ = .ok s') :
    Accords (origin (s'.events.map FileEvent.record)) (s'.events.map FileEvent.record) := by
  cases raws with
  | nil =>
    obtain rfl := Except.ok.inj h
    trivial
  | cons raw raws =>
    rw [List.foldlM_cons] at h
    obtain ⟨t, ht, h⟩ := bind_eq_ok.mp h
    obtain ⟨hwf, event, hevent, haccords⟩ := scanRecord_first ht
    obtain ⟨events, hevents, hrest⟩ := scanRecords_accord h (by simp [hevent]) hwf
    rw [hevents, hevent]
    exact haccords _ hrest

/-- When the records of an accepted file accord with the base of the planner. -/
lemma based_iff {entries : List RotationEntry} (hsorted : (entries.map RotationEntry.bytePos).Pairwise (· < ·))
    (h : Accords (origin (entries.map RotationEntry.record)) (entries.map RotationEntry.record)) :
    Based cutoff entries ↔ ∃ base, findBase cutoff (newestFirst entries) = .ok base ∧
      (base = none → StartsEmpty (entries.map RotationEntry.record)) := by
  refine exists_congr fun base => and_congr_right fun hbase => ?_
  obtain ⟨front, back, rfl, -, hfront⟩ := findBase_ok hbase
  rcases hfront with ⟨rfl, rfl⟩ | ⟨before, e, snap, rfl, he, rfl, -⟩
  · have hall : behindBase none back = back.map RotationEntry.record := by simp [behindBase]
    rw [List.nil_append, hall]
    simp only [true_implies]
    exact h.empty_iff
  · refine iff_of_true ?_ (by simp)
    have hbehind : behindBase (some (snap, e.bytePos)) (before ++ [e] ++ back) = back.map RotationEntry.record :=
      congrArg (List.map RotationEntry.record) (filter_behind hsorted)
    rw [hbehind]
    have hsplit : (before ++ [e] ++ back).map RotationEntry.record =
        before.map RotationEntry.record ++ .snapshot snap :: back.map RotationEntry.record := by simp [he]
    exact Accords.behind (wf_origin _) (hsplit ▸ h)

variable (blake3 ser bare framer content cutoff now minDiffs) in
/-- The condition on an accepted file: the changes can be compared with the cutoff, and when one is before it,
so can the snapshots from the newest down to the base; without a base the first record is no snapshot of a
state that is not empty; and the new file can be written. -/
structure Acceptable (entries : List RotationEntry) : Prop where
  comparable : Comparable cutoff entries
  based : Early cutoff entries → ∃ base, findBase cutoff (newestFirst entries) = .ok base ∧
    (base = none → StartsEmpty (entries.map RotationEntry.record))
  written : ∀ s state, surveyEntries content.length cutoff entries = .ok (some s) → s.p.stateAtCutoff = some state →
    ∃ out, planContent blake3 ser bare (framer.reload content) now minDiffs s = .ok out

/-- **When the planner takes a file that `scan_events` accepts.** -/
theorem rotation_accepts_iff {items : List Item} {events : List FileEvent} {count : ℕ}
    (hload : framer.load content = .ok fr) (hfit : ∀ i ∈ items, fr.Fits i)
    (h : fr.frames blake3 0 items = .ok content)
    (hscan : scanEvents blake3 ser framer content = .ok (events, count)) :
    (∃ plan, planRotation blake3 ser bare framer content cutoff now minDiffs = .ok plan) ↔
      ∃ entries, scanEntries blake3 ser framer content = .ok entries ∧
        Acceptable blake3 ser bare framer content cutoff now minDiffs entries := by
  have hiter := iterRecords_start blake3 hfit h
  rw [← iterRecords_of_load hload] at hiter
  obtain ⟨s, hs, hscan⟩ := bind_eq_ok.mp hscan
  rw [hiter] at hs hscan
  obtain ⟨events', hevents, -, hdec, -⟩ := scanRecords_ok hs
  rw [itemsOf_placed] at hdec
  have haccords := scan_accords hs
  rw [hevents, List.nil_append] at haccords
  obtain ⟨entries, hentries, hrecords, hpos⟩ := @decodeEntries_placed ser fr _ _ 1 0 hdec content.length
  have hentries : scanEntries blake3 ser framer content = .ok entries := by
    rw [scanEntries, hiter]
    exact hentries
  rw [← hrecords] at haccords
  have hbased := @based_iff cutoff entries (hpos ▸ (bytePos_sorted 1 0 items).1) haccords
  have hplannable : Plannable blake3 ser bare framer content cutoff now minDiffs entries ↔
      Acceptable blake3 ser bare framer content cutoff now minDiffs entries :=
    ⟨fun hp => ⟨hp.comparable, fun he => hbased.mp (hp.based he), hp.written⟩,
      fun ha => ⟨ha.comparable, fun he => hbased.mpr (ha.based he), ha.written⟩⟩
  rw [planRotation_scanned hentries, hplannable]
  constructor
  · exact fun ha => ⟨entries, hentries, ha⟩
  · rintro ⟨entries', hentries', ha⟩
    rwa [Except.ok.inj (hentries.symm.trans hentries')]

end

open Sample in
/-- A file whose changes are in order. -/
theorem rotation_accepts_in_order : ∃ content,
    frameRecords noHash dated .line 0 inOrder = .ok content ∧
      ∃ entries, scanEntries noHash dated .line content = .ok entries ∧
        Acceptable noHash dated bare .line content (day 2) (day 3) 100 entries := by
  obtain ⟨run, hrun, hobs⟩ := exists_run inOrder (day 2) 100
    (fun run => (scanEvents noHash dated .line run.content).toOption.isSome) (by decide +kernel)
  obtain ⟨hcontent, hplan, -⟩ := rotate_ok hrun
  obtain ⟨items, hitems, hframes⟩ := frameRecords_iff.mp hcontent
  obtain ⟨⟨events, count⟩, hscan⟩ := Option.isSome_iff_exists.mp hobs
  have hfit := fits_of_encodes (fun r _ => decodable_dated r) hitems
  exact ⟨run.content, hcontent,
    (rotation_accepts_iff rfl hfit hframes (eq_ok_of_toOption hscan)).mp ⟨_, hplan⟩⟩

open Sample in
/-- **The planner refuses a file that `scan_events` accepts**: one takes the snapshot in front as the initial
state, the other starts from an empty one. -/
theorem rotation_refuses_front : ∃ content events count,
    frameRecords noHash dated .line 0 wentBack = .ok content ∧
      scanEvents noHash dated .line content = .ok (events, count) ∧
      planRotation noHash dated bare .line content (day 2) (day 3) 100 =
        .error (.typeError noAction) := by
  obtain ⟨content, hcontent, hplan⟩ := exists_refusal
    (show refusal wentBack = some noAction by decide +kernel)
  have hscan : (frameRecords noHash dated .line 0 wentBack).toOption.any
      (fun content => (scanEvents noHash dated .line content).toOption.isSome) = true := by decide +kernel
  rw [hcontent] at hscan
  obtain ⟨⟨events, count⟩, hscan⟩ := Option.isSome_iff_exists.mp hscan
  exact ⟨content, events, count, hcontent, eq_ok_of_toOption hscan, hplan⟩

end Kanta
