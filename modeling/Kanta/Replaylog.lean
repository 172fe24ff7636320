import Kanta.System
import Mathlib.Data.List.TakeWhile

/-!
# Replay of a whole file

`scan_events` decodes all records of a file and checks every snapshot against the state replayed so
far; `replay_events` yields the state behind each of them.  Replay itself starts at the last
snapshot.  On a file that `scan_events` accepts the two end in the same state and version, and in
the same `m` when the snapshots carry it along, if the last snapshot has a timestamp: replay asks
for it, and nothing else does (`replay_eq_replayEvents_iff`).
-/

namespace Kanta

/-! ### The events of a file -/

/-- `SnapshotEvent` and `ChangeEvent`: a record with its position in the file. -/
structure FileEvent where
  lineNumber : ℕ
  bytePos : ℕ
  recordIndex : ℕ
  record : Record

/-- `isinstance(event, ChangeEvent)`. -/
def FileEvent.isChange (event : FileEvent) : Bool := !event.record.isSnapshot

namespace Record

/-- The version a record carries. -/
def version : Record → ℤ
  | .change c => c.v
  | .snapshot s => s.v

/-- The modification time a record carries. -/
def m : Record → Option DateTime
  | .change c => c.m
  | .snapshot s => s.m

end Record

/-- `record_label`: the number is padded to three columns. -/
def recordLabel (lineNumber recordIndex : ℕ) : String :=
  let number := toString (if lineNumber ≠ 0 then lineNumber else recordIndex)
  "l" ++ number.pushn ' ' (3 - number.length)

/-- Where `scan_events` stands. -/
structure Scanned where
  state : Val
  events : List FileEvent
  changeCount : ℕ

section

variable (blake3 : Bytes → Bytes → Digest) (ser : Serializer)

/-- The error of a record that cannot be decoded; the text of the decoder is left out. -/
def parseError (label : String) (raw : RawRecord) : Exc :=
  .replayError ("Parse error at " ++ label) (some raw.lineNumber) (some raw.bytePos) none

/-- The body of the loop of `scan_events`. -/
def scanRecord (s : Scanned) (raw : RawRecord) : Except Exc Scanned :=
  let recordIndex := s.events.length + 1
  let label := recordLabel raw.lineNumber recordIndex
  if raw.isSnapshot then
    match ser.decodeSnapshot raw.payload with
    | .ok snap =>
      if 1 < recordIndex ∧ s.state.pyEq snap.state.val = false then
        .error (.replayError
          ("Snapshot mismatch at " ++ label ++ ": replayed state does not equal the snapshot state.")
          (some raw.lineNumber) (some raw.bytePos) (some "snapshot"))
      else
        .ok ⟨snap.state.val, s.events ++ [⟨raw.lineNumber, raw.bytePos, recordIndex, .snapshot snap⟩],
          s.changeCount⟩
    | .error .decodeError => .error (parseError label raw)
    | .error e => .error e
  else
    match ser.decodeChange raw.payload with
    | .ok change => do
      let state ← patch s.state change.diff.val
      .ok ⟨state, s.events ++ [⟨raw.lineNumber, raw.bytePos, recordIndex, .change change⟩],
        s.changeCount + 1⟩
    | .error .decodeError => .error (parseError label raw)
    | .error e => .error e

/-- `scan_events`. -/
def scanEvents (framer : Framer) (content : Bytes) : Except Exc (List FileEvent × ℕ) := do
  let scan := framer.iterRecords blake3 content 0
  let s ← scan.records.foldlM (scanRecord ser) ⟨.dict [], [], 0⟩
  match scan.error with
  | some e => .error e
  | none => .ok (s.events, s.changeCount)

end

/-- What `replay_events` yields: there is no previous state for a snapshot. -/
structure Replayed where
  event : FileEvent
  previous : Option Val
  state : Val

/-- The loop of `replay_events`. -/
def replayLoop (endLine : ℕ) : Val → List FileEvent → Scan Replayed
  | _, [] => ⟨[], none⟩
  | state, event :: events =>
    if endLine ≤ event.lineNumber then ⟨[], none⟩
    else
      match event.record with
      | .snapshot snap => (replayLoop endLine snap.state.val events).cons ⟨event, none, snap.state.val⟩
      | .change change =>
        match patch state change.diff.val with
        | .error e => .fail e
        | .ok new => (replayLoop endLine new events).cons ⟨event, some state, new⟩

/-- `replay_events`. -/
def replayEvents (events : List FileEvent) (endLine : ℕ) : Scan Replayed :=
  replayLoop endLine (.dict []) events

/-- `end_of_file`. -/
def endOfFile (events : List FileEvent) : ℕ :=
  match events.getLast? with
  | some event => event.lineNumber + 1
  | none => 0

/-! ### What a scan has decoded -/

section

variable {blake3 : Bytes → Bytes → Digest} {ser : Serializer} {framer : Framer}

/-- A record that `scan_events` takes is decoded, and the state is that of a replay. -/
lemma scanRecord_ok {s s' : Scanned} {raw : RawRecord} (h : scanRecord ser s raw = .ok s') :
    ∃ event, event.lineNumber = raw.lineNumber ∧ s'.events = s.events ++ [event] ∧
      Decodes ser (raw.isSnapshot, raw.payload) event.record ∧
      s'.changeCount = s.changeCount + ([event].filter FileEvent.isChange).length ∧
      ∀ r : ReplayResult, r.state = s.state →
        ∃ r', r.applyRecord event.record = .ok r' ∧ r'.state = s'.state := by
  unfold scanRecord at h
  dsimp only at h
  by_cases hkind : raw.isSnapshot = true
  · rw [if_pos hkind] at h
    split at h
    · rename_i snap hdec
      split at h
      · simp at h
      · obtain rfl := Except.ok.inj h
        refine ⟨_, rfl, rfl, ⟨hkind, ?_⟩, rfl, ?_⟩
        · simp [Serializer.decode, hkind, hdec]
        · intro r hr
          exact ⟨_, rfl, rfl⟩
    · simp at h
    · simp at h
  · rw [if_neg hkind] at h
    rw [Bool.not_eq_true] at hkind
    split at h
    · rename_i change hdec
      obtain ⟨state, hpatch, h⟩ := bind_eq_ok.mp h
      obtain rfl := Except.ok.inj h
      refine ⟨_, rfl, rfl, ⟨hkind, ?_⟩, rfl, ?_⟩
      · simp [Serializer.decode, hkind, hdec]
      · intro r hr
        have hpatch : applyDiff r.state change.diff.val = .ok state := by rwa [hr]
        refine ⟨{ r with
          state := state, version := change.v, hasMigration := r.hasMigration || startsWith "migrate" change.a
          m := change.m <|> r.m }, ?_, rfl⟩
        rw [ReplayResult.applyRecord, ReplayResult.applyChange, hpatch]
        rfl
    · simp at h
    · simp at h

/-- All records of a scan. -/
lemma scanRecords_ok {raws : List RawRecord} {s s' : Scanned} (h : raws.foldlM (scanRecord ser) s = .ok s') :
    ∃ events, s'.events = s.events ++ events ∧
      events.map FileEvent.lineNumber = raws.map RawRecord.lineNumber ∧
      List.Forall₂ (Decodes ser) (itemsOf raws) (events.map FileEvent.record) ∧
      s'.changeCount = s.changeCount + (events.filter FileEvent.isChange).length ∧
      ∀ r : ReplayResult, r.state = s.state →
        ∃ r', (events.map FileEvent.record).foldlM ReplayResult.applyRecord r = .ok r' ∧
          r'.state = s'.state := by
  induction raws generalizing s with
  | nil =>
    obtain rfl : s = s' := Except.ok.inj h
    exact ⟨[], by simp, rfl, .nil, rfl, fun r hr => ⟨r, rfl, hr⟩⟩
  | cons raw raws ih =>
    rw [List.foldlM_cons, bind_eq_ok] at h
    obtain ⟨t, ht, h⟩ := h
    obtain ⟨event, hline, hevents, hdec, hcount, hstep⟩ := scanRecord_ok ht
    obtain ⟨events, hmore, hlines, hdecs, hcounts, hrun⟩ := ih h
    refine ⟨event :: events, by rw [hmore, hevents, List.append_assoc, List.singleton_append], ?_,
      .cons hdec hdecs, ?_, ?_⟩
    · rw [List.map_cons, hline, hlines, List.map_cons]
    · rw [hcounts, hcount, Nat.add_assoc, ← List.length_append, ← List.filter_append, List.singleton_append]
    · intro r hr
      obtain ⟨r1, h1, hs1⟩ := hstep r hr
      obtain ⟨r2, h2, hs2⟩ := hrun r1 hs1
      refine ⟨r2, ?_, hs2⟩
      rw [List.map_cons, List.foldlM_cons, h1]
      exact h2

/-! ### Line numbers -/

/-- A reader counts lines upwards. -/
lemma placed_sorted (lineNumber offset : ℕ) (items : List Item) :
    ((framer.placed lineNumber offset items).map RawRecord.lineNumber).Pairwise (· ≤ ·) ∧
      ∀ n ∈ (framer.placed lineNumber offset items).map RawRecord.lineNumber,
        framer.lineNo lineNumber ≤ n := by
  induction items generalizing lineNumber offset with
  | nil => simp [Framer.placed]
  | cons item items ih =>
    obtain ⟨hsorted, hle⟩ :=
      ih (lineNumber + 1) (offset + framer.frameLength item.1 item.2 offset)
    have hnext : framer.lineNo lineNumber ≤ framer.lineNo (lineNumber + 1) := by
      cases framer <;> simp [Framer.lineNo]
    rw [Framer.placed, List.map_cons]
    constructor
    · apply List.pairwise_cons.mpr
      exact ⟨fun n hn => hnext.trans (hle n hn), hsorted⟩
    · intro n hn
      rcases List.mem_cons.mp hn with rfl | hn
      · exact Nat.le_refl _
      · exact hnext.trans (hle n hn)

/-- The end of the file is behind every event. -/
lemma lt_endOfFile {events : List FileEvent}
    (h : (events.map FileEvent.lineNumber).Pairwise (· ≤ ·)) :
    ∀ event ∈ events, event.lineNumber < endOfFile events := by
  induction events using List.reverseRecOn with
  | nil => simp
  | append_singleton events last _ =>
    rw [List.map_append, List.pairwise_append] at h
    intro event he
    rw [endOfFile, List.getLast?_concat]
    apply Nat.lt_succ_of_le
    rcases List.mem_append.mp he with he | he
    · exact h.2.2 _ (List.mem_map_of_mem he) _ (by simp)
    · rw [List.mem_singleton.mp he]

/-! ### The two replays -/

/-- What `replay_events` yields before the end, and the state it ends in when it gets through. -/
lemma replayLoop_of_fold {events : List FileEvent} {endLine : ℕ} {r r' : ReplayResult}
    (h : (events.map FileEvent.record).foldlM ReplayResult.applyRecord r = .ok r') :
    (replayLoop endLine r.state events).error = none ∧
      (replayLoop endLine r.state events).records.map Replayed.event =
        events.takeWhile (fun event => event.lineNumber < endLine) ∧
      ((∀ event ∈ events, event.lineNumber < endLine) →
        ((replayLoop endLine r.state events).records.getLast?.map Replayed.state).getD r.state = r'.state) := by
  induction events generalizing r with
  | nil =>
    obtain rfl : r = r' := Except.ok.inj h
    exact ⟨rfl, rfl, fun _ => rfl⟩
  | cons event events ih =>
    rw [List.map_cons, List.foldlM_cons, bind_eq_ok] at h
    obtain ⟨t, ht, h⟩ := h
    obtain ⟨herror, hevents, hlast⟩ := ih h
    by_cases hend : endLine ≤ event.lineNumber
    · have hloop : replayLoop endLine r.state (event :: events) = ⟨[], none⟩ := by rw [replayLoop, if_pos hend]
      rw [hloop, List.takeWhile_cons, decide_eq_false (Nat.not_lt.mpr hend), if_neg (by simp)]
      refine ⟨rfl, rfl, fun hall => ?_⟩
      have := hall event List.mem_cons_self
      omega
    have hloop : ∃ previous, replayLoop endLine r.state (event :: events) =
        (replayLoop endLine t.state events).cons ⟨event, previous, t.state⟩ := by
      rw [replayLoop, if_neg hend]
      cases hrec : event.record with
      | snapshot snap =>
        rw [hrec] at ht
        obtain rfl := Except.ok.inj ht
        exact ⟨none, rfl⟩
      | change change =>
        rw [hrec] at ht
        obtain ⟨state, hpatch, ht⟩ := bind_eq_ok.mp ht
        obtain rfl := Except.ok.inj ht
        have hpatch : patch r.state change.diff.val = .ok state := hpatch
        simp only [hpatch]
        exact ⟨some r.state, rfl⟩
    obtain ⟨previous, hloop⟩ := hloop
    rw [hloop]
    refine ⟨herror, ?_, fun hall => ?_⟩
    · rw [Scan.cons, List.map_cons, hevents, List.takeWhile_cons, decide_eq_true (Nat.not_le.mp hend), if_pos rfl]
    · rw [List.forall_mem_cons] at hall
      have hlast := hlast hall.2
      rw [Scan.cons, List.getLast?_cons]
      cases hl : (replayLoop endLine t.state events).records.getLast? with
      | none => simpa [hl] using hlast
      | some y => simpa [hl] using hlast

/-- The modification time in effect behind the records: the last one they carry. -/
def inEffect (records : List Record) : Option DateTime :=
  records.foldl (fun m r => r.m <|> m) none

lemma inEffect_append_singleton (records : List Record) (r : Record) :
    inEffect (records ++ [r]) = (r.m <|> inEffect records) := by
  rw [inEffect, List.foldl_append]
  rfl

/-- Every snapshot behind the first record carries the modification time in effect before it. -/
def CarriesM (records : List Record) : Prop :=
  ∀ before snap after, records = before ++ .snapshot snap :: after → before ≠ [] →
    snap.m = inEffect before

lemma CarriesM.of_append {records more : List Record} (h : CarriesM (records ++ more)) :
    CarriesM records :=
  fun before snap after he hne => h before snap (after ++ more) (by simp [he]) hne

/-- Version and modification time of a replay from the front. -/
lemma foldRecords_stamp {records : List Record} {r : ReplayResult} (h : foldRecords records = .ok r) :
    r.version = ((records.getLast?.map Record.version).getD 0) ∧
      (CarriesM records → r.m = inEffect records) := by
  induction records using List.reverseRecOn generalizing r with
  | nil =>
    obtain rfl : .empty = r := Except.ok.inj h
    exact ⟨rfl, fun _ => rfl⟩
  | append_singleton records record ih =>
    rw [foldRecords, List.foldlM_append, bind_eq_ok] at h
    obtain ⟨s, hs, h⟩ := h
    rw [List.foldlM_cons, bind_eq_ok] at h
    obtain ⟨t, ht, h⟩ := h
    obtain rfl : t = r := Except.ok.inj h
    rw [List.getLast?_concat, Option.map_some, Option.getD_some, inEffect_append_singleton]
    cases record with
    | change c =>
      obtain ⟨state, -, ht⟩ := bind_eq_ok.mp ht
      obtain rfl := Except.ok.inj ht
      refine ⟨rfl, fun hm => ?_⟩
      rw [← (ih hs).2 hm.of_append]
      rfl
    | snapshot snap =>
      obtain rfl := Except.ok.inj ht
      refine ⟨rfl, fun hm => ?_⟩
      show snap.m = (snap.m <|> inEffect records)
      by_cases hne : records = []
      · subst hne
        cases snap.m <;> rfl
      · rw [hm records snap [] rfl hne]
        cases inEffect records <;> rfl

/-- Replay from the last snapshot, beside `replay_events` over the whole file. -/
lemma replay_of_scan {items : List Item} {content : Bytes} {events : List FileEvent} {count : ℕ}
    (hfit : ∀ i ∈ items, framer.Fits i) (h : framer.frames blake3 0 items = .ok content)
    (hscan : scanEvents blake3 ser framer content = .ok (events, count)) :
    ∃ r, replay blake3 ser framer content =
        (timestampOf ser (lastSnapshot (events.map FileEvent.record)).1 >>= fun _ => .ok r) ∧
      (replayEvents events (endOfFile events)).error = none ∧
      (replayEvents events (endOfFile events)).records.map Replayed.event = events ∧
      r.state = (((replayEvents events (endOfFile events)).records.getLast?.map Replayed.state).getD
        (.dict [])) ∧
      r.version = (((replayEvents events (endOfFile events)).records.getLast?.map fun y =>
        y.event.record.version).getD 0) ∧
      (CarriesM (events.map FileEvent.record) → r.m = inEffect (events.map FileEvent.record)) := by
  obtain ⟨s, hs, hscan⟩ := bind_eq_ok.mp hscan
  rw [iterRecords_start blake3 hfit h] at hs hscan
  obtain ⟨rfl, rfl⟩ := Prod.mk.inj (Except.ok.inj hscan)
  obtain ⟨events, hevents, hlines, hdec, -, hrun⟩ := scanRecords_ok hs
  rw [itemsOf_placed] at hdec
  rw [List.nil_append] at hevents
  obtain rfl := hevents
  have hend := lt_endOfFile (hlines ▸ (placed_sorted 1 0 items).1)
  obtain ⟨r, hr, -⟩ := hrun .empty rfl
  obtain ⟨herror, hyield, hlast⟩ := @replayLoop_of_fold _ (endOfFile s.events) _ _ hr
  rw [List.takeWhile_eq_self_iff.mpr fun event he => decide_eq_true (hend event he)] at hyield
  have hlast := hlast hend
  obtain ⟨hversion, hm⟩ := foldRecords_stamp hr
  obtain ⟨r', hr', hstate, hversion', hm', -⟩ := replayLog_of_foldRecords hr
  refine ⟨r', by rw [replay_frames hfit hdec h, hr'], herror, hyield, ?_, ?_, ?_⟩
  · rw [← hstate, ← hlast]
    rfl
  · rw [← hversion', hversion, List.getLast?_map, ← hyield, List.getLast?_map, Option.map_map,
      Option.map_map]
    rw [hyield]
    rfl
  · intro hcarries
    rw [← hm', hm hcarries]

/-- **Replay from the last snapshot is the replay of the whole file**, when there is a timestamp for
that snapshot. -/
theorem replay_eq_replayEvents_iff {items : List Item} {content : Bytes} {events : List FileEvent} {count : ℕ}
    (hfit : ∀ i ∈ items, framer.Fits i) (h : framer.frames blake3 0 items = .ok content)
    (hscan : scanEvents blake3 ser framer content = .ok (events, count)) :
    (∃ r, replay blake3 ser framer content = .ok r ∧
      (replayEvents events (endOfFile events)).error = none ∧
      (replayEvents events (endOfFile events)).records.map Replayed.event = events ∧
      r.state = (((replayEvents events (endOfFile events)).records.getLast?.map Replayed.state).getD
        (.dict [])) ∧
      r.version = (((replayEvents events (endOfFile events)).records.getLast?.map fun y =>
        y.event.record.version).getD 0) ∧
      (CarriesM (events.map FileEvent.record) → r.m = inEffect (events.map FileEvent.record))) ↔
    ∀ snap, (lastSnapshot (events.map FileEvent.record)).1 = some snap →
      snap.ts.timestamp ser.localTime = .ok () := by
  obtain ⟨r, hr, hrest⟩ := replay_of_scan hfit h hscan
  rw [hr, ← timestampOf_eq_ok]
  constructor
  · rintro ⟨_, hr', -⟩
    obtain ⟨_, htime, -⟩ := bind_eq_ok.mp hr'
    exact htime
  · intro htime
    exact ⟨r, by rw [htime]; rfl, hrest⟩

end

/-! ### A small file -/

/-- A change, a snapshot, a change. -/
def Sample.three : List Record :=
  [.change { ts := ts, a := "set", diff := state 1 }, .snapshot { ts := ts, v := 0, state := state 1 },
    .change { ts := ts, a := "set", diff := state 2 }]

/-- The two replays of a small file. -/
theorem replay_eq_replayEvents_three :
    ∃ content events count r,
      frameRecords (Sample.env 1).blake3 Sample.ser .line 0 Sample.three = .ok content ∧
      scanEvents (Sample.env 1).blake3 Sample.ser .line content = .ok (events, count) ∧
      replay (Sample.env 1).blake3 Sample.ser .line content = .ok r ∧
      r.state = (((replayEvents events (endOfFile events)).records.getLast?.map Replayed.state).getD
        (.dict [])) := by
  obtain ⟨content, hcontent, hobs⟩ : ∃ content,
      frameRecords (Sample.env 1).blake3 Sample.ser .line 0 Sample.three = .ok content ∧
        (scanEvents (Sample.env 1).blake3 Sample.ser .line content).toOption.isSome = true :=
    ⟨_, rfl, by decide +kernel⟩
  obtain ⟨items, hitems, hframes⟩ := frameRecords_iff.mp hcontent
  cases hscan : scanEvents (Sample.env 1).blake3 Sample.ser .line content with
  | error e =>
    rw [hscan] at hobs
    exact absurd hobs (by simp [Except.toOption])
  | ok found =>
    obtain ⟨events, count⟩ := found
    obtain ⟨r, hr, -, -, hstate, -⟩ := (replay_eq_replayEvents_iff
      (fits_of_encodes (fun r _ => (Sample.readable r).1) hitems) hframes hscan).mpr
      fun snap _ => snap.ts.timestamp_total
    exact ⟨content, events, count, r, hcontent, hscan, hr, hstate⟩

namespace Sample

/-- The first moment of the year 1, in no time zone. -/
def firstMoment : DateTime := ⟨-62135596800000000, none⟩

/-- Local time is looked up a day earlier, too, and there is no year 0. -/
def sinceYearOne : LocalTime where
  mktime wall := if wall < -62135510400000000 then .error .valueError else .ok ()
  foreign wall e h := by
    split at h
    · rw [← Except.error.inj h]
      rfl
    · simp at h

/-- The snapshot of a state of the sample at the first moment. -/
def early (k : ℤ) : Snapshot := { ts := firstMoment, v := 0, state := state k }

/-- `{"ts":"0001-01-01T00:00:00","v":0,"state":{"n":1}}`. -/
def encodeEarly (s : Snapshot) : Except Exc Bytes :=
  if s.ts = firstMoment ∧ s.v = 0 ∧ s.m = none then
    json (ascii "\x7b\"ts\":\"0001-01-01T00:00:00\",\"v\":0,\"state\":\x7b\"n\":") s.state (ascii "\x7d\x7d")
  else .error (.typeError "not in the sample")

/-- The changes of the sample, and snapshots at the first moment. -/
def earlySer : Serializer where
  encodeChange := encodeChange
  encodeSnapshot := encodeEarly
  decodeChange := decode encodeChange changes
  decodeSnapshot := decode encodeEarly (digits.map early)
  localTime := sinceYearOne

lemma mem_early {s : Snapshot} {payload : Bytes} (h : encodeEarly s = .ok payload) : s ∈ digits.map early := by
  unfold encodeEarly at h
  split at h
  · rename_i hs
    obtain ⟨k, hk, hd⟩ := state_of_json h
    obtain ⟨ts, v, st, m⟩ := s
    obtain ⟨rfl, rfl, rfl⟩ := hs
    obtain rfl : st = state k := hd
    exact List.mem_map_of_mem hk
  · simp at h

lemma decodable_early (r : Record) : Decodable earlySer .line r :=
  decodable_of_lists sinceYearOne (by decide +kernel) (by decide +kernel) (fun _ _ => mem_changes)
    (fun _ _ => mem_early) (by decide +kernel) (by decide +kernel) r

end Sample

/-- A file whose only line is a snapshot of the first moment: `scan_events` takes it, and replay
raises `ValueError`. -/
theorem replay_eq_replayEvents_counterexample : ∃ items content events count,
    (∀ i ∈ items, Framer.line.Fits i) ∧ Framer.line.frames (Sample.env 1).blake3 0 items = .ok content ∧
    scanEvents (Sample.env 1).blake3 Sample.earlySer .line content = .ok (events, count) ∧
    replay (Sample.env 1).blake3 Sample.earlySer .line content = .error .valueError := by
  obtain ⟨content, hcontent, hscan, hreplay⟩ : ∃ content,
      frameRecords (Sample.env 1).blake3 Sample.earlySer .line 0 [.snapshot (Sample.early 1)] = .ok content ∧
        (scanEvents (Sample.env 1).blake3 Sample.earlySer .line content).toOption.isSome = true ∧
        replay (Sample.env 1).blake3 Sample.earlySer .line content = .error .valueError :=
    ⟨_, rfl, by decide +kernel, by rfl⟩
  obtain ⟨items, hitems, hframes⟩ := frameRecords_iff.mp hcontent
  cases hfound : scanEvents (Sample.env 1).blake3 Sample.earlySer .line content with
  | error e =>
    rw [hfound] at hscan
    exact absurd hscan (by simp [Except.toOption])
  | ok found =>
    exact ⟨items, content, found.1, found.2, fits_of_encodes (fun r _ => Sample.decodable_early r) hitems, hframes,
      hfound, hreplay⟩

end Kanta
