import Kanta.Layout
import Kanta.Patch
import Mathlib.Data.List.Induction

/-!
# Replay

`replay` rebuilds a state from the bytes of a file: it starts from the last snapshot and applies
the changes behind it.  `replayLog` does the same on a list of records.  For a file that was
written as frames at running offsets the two agree: `replay_frameRecords`.
-/

namespace Kanta

open Kanta.Lib

/-! ### The result of a replay -/

/-- `ReplayResult`; the time of the last snapshot is kept as it stands in the record. -/
structure ReplayResult where
  state : Val
  version : ℤ
  hasMigration : Bool
  lastSnapshot : Option DateTime
  m : Option DateTime

namespace ReplayResult

/-- Before any record. -/
def empty : ReplayResult := ⟨.dict [], 0, false, none, none⟩

/-- At the last snapshot. -/
def ofSnapshot (snap : Snapshot) : ReplayResult :=
  ⟨snap.state.val, snap.v, false, some snap.ts, snap.m⟩

/-- One change further. -/
def applyChange (r : ReplayResult) (change : ChangeRecord) : Except Exc ReplayResult := do
  let state ← applyDiff r.state change.diff.val
  .ok
    { state
      version := change.v
      hasMigration := r.hasMigration || startsWith "migrate" change.a
      lastSnapshot := r.lastSnapshot
      m := change.m <|> r.m }

end ReplayResult

/-! ### Replay of bytes -/

section

variable (blake3 : Bytes → Bytes → Digest) (ser : Serializer)

/-- The body of the loop of `replay`. -/
def replayRecord (r : ReplayResult) (raw : RawRecord) : Except Exc ReplayResult :=
  if raw.isSnapshot then
    match ser.decodeSnapshot raw.payload with
    | .ok snap => do
      let _ ← snap.ts.timestamp ser.localTime
      .ok { r with lastSnapshot := some snap.ts, m := snap.m <|> r.m }
    | .error e =>
      if e.isException then
        .error (.replayError "invalid snapshot record" (some raw.lineNumber) (some raw.bytePos)
          (some "snapshot"))
      else .error e
  else
    match ser.decodeChange raw.payload with
    | .ok change => r.applyChange change
    | .error .decodeError =>
      .error (.replayError "invalid record" (some raw.lineNumber) (some raw.bytePos) (some "change"))
    | .error e => .error e

/-- `replay` at the last snapshot, in front of the loop. -/
def replayStart (payload : Bytes) (bytePos : ℕ) : Except Exc ReplayResult :=
  match ser.decodeSnapshot payload with
  | .ok snap => do
    let _ ← snap.ts.timestamp ser.localTime
    .ok (.ofSnapshot snap)
  | .error .decodeError =>
    .error (.replayError "invalid snapshot record" (some 0) (some bytePos) (some "snapshot"))
  | .error e => .error e

/-- `replay`. -/
def replay (framer : Framer) (data : Bytes) : Except Exc ReplayResult := do
  let (snapPayload, offset, snapBytePos) ← framer.scanLastSnapshot blake3 data
  let start ←
    match snapPayload with
    | none => Except.ok ReplayResult.empty
    | some payload => replayStart ser payload snapBytePos
  let scan := framer.iterRecords blake3 data offset
  let result ← scan.records.foldlM (replayRecord ser) start
  match scan.error with
  | some e => .error e
  | none => .ok result

/-- The frames of records that are encoded and written one after another. -/
def frameRecords (framer : Framer) : ℕ → List Record → Except Exc Bytes
  | _, [] => .ok []
  | offset, record :: records => do
    let payload ← ser.encode record
    let framed ← framer.frame blake3 record.isSnapshot payload offset
    let rest ← frameRecords framer (offset + framed.length) records
    .ok (framed ++ rest)

end

/-! ### Replay of records -/

/-- The last snapshot of a log, and the changes behind it. -/
def lastSnapshot (records : List Record) : Option Snapshot × List ChangeRecord :=
  records.foldl
    (fun (snap, changes) record =>
      match record with
      | .change change => (snap, changes ++ [change])
      | .snapshot snap => (some snap, []))
    (none, [])

/-- Replay from a snapshot, or from nothing. -/
def replayFrom (snap : Option Snapshot) (changes : List ChangeRecord) : Except Exc ReplayResult :=
  changes.foldlM ReplayResult.applyChange ((snap.map .ofSnapshot).getD .empty)

/-- Replay of a log. -/
def replayLog (records : List Record) : Except Exc ReplayResult :=
  replayFrom (lastSnapshot records).1 (lastSnapshot records).2

lemma lastSnapshot_snapshot (records : List Record) (snap : Snapshot) :
    lastSnapshot (records ++ [.snapshot snap]) = (some snap, []) := by
  simp [lastSnapshot]

lemma lastSnapshot_changes (records : List Record) (changes : List ChangeRecord) :
    lastSnapshot (records ++ changes.map .change) =
      ((lastSnapshot records).1, (lastSnapshot records).2 ++ changes) := by
  induction changes generalizing records with
  | nil => simp
  | cons c changes ih =>
    rw [List.map_cons, List.append_cons, ih]
    simp [lastSnapshot]

lemma replayLog_changes (records : List Record) (more : List ChangeRecord) :
    replayLog (records ++ more.map .change) =
      replayLog records >>= fun rr => more.foldlM ReplayResult.applyChange rr := by
  rw [replayLog, lastSnapshot_changes, replayFrom, List.foldlM_append]
  rfl

/-- A log is changes only, or it has a last snapshot. -/
lemma records_split (records : List Record) :
    (∃ changes, records = changes.map .change ∧ lastSnapshot records = (none, changes)) ∨
      ∃ before snap changes, records = before ++ .snapshot snap :: changes.map .change ∧
        lastSnapshot records = (some snap, changes) := by
  induction records using List.reverseRecOn with
  | nil => exact Or.inl ⟨[], rfl, rfl⟩
  | append_singleton records record ih =>
    cases record with
    | snapshot snap => exact Or.inr ⟨records, snap, [], rfl, lastSnapshot_snapshot records snap⟩
    | change c =>
      have hadd := lastSnapshot_changes records [c]
      rw [List.map_singleton] at hadd
      rcases ih with ⟨changes, rfl, hl⟩ | ⟨before, snap, changes, rfl, hl⟩
      · exact Or.inl ⟨changes ++ [c], by simp, by rw [hadd, hl]⟩
      · exact Or.inr ⟨before, snap, changes ++ [c], by simp, by rw [hadd, hl]⟩

/-- What comes in front of a snapshot is not read. -/
lemma replayLog_snapshot (before records : List Record) (snap : Snapshot) :
    replayLog (before ++ .snapshot snap :: records) = replayLog (.snapshot snap :: records) := by
  have hlast : lastSnapshot (before ++ .snapshot snap :: records) = lastSnapshot (.snapshot snap :: records) := by
    induction records using List.reverseRecOn with
    | nil => exact (lastSnapshot_snapshot before snap).trans (lastSnapshot_snapshot [] snap).symm
    | append_singleton records record ih =>
      rw [← List.cons_append, ← List.append_assoc]
      cases record with
      | snapshot last => rw [lastSnapshot_snapshot, lastSnapshot_snapshot]
      | change c =>
        have hback := lastSnapshot_changes (before ++ .snapshot snap :: records) [c]
        have hfront := lastSnapshot_changes (.snapshot snap :: records) [c]
        rw [List.map_singleton] at hback hfront
        rw [hback, hfront, ih]
  rw [replayLog, replayLog, hlast]

/-! ### Replay from the front -/

namespace ReplayResult

/-- One record further: a change is patched in, a snapshot sets the state. -/
def applyRecord (r : ReplayResult) : Record → Except Exc ReplayResult
  | .change change => r.applyChange change
  | .snapshot snap =>
    .ok { r with state := snap.state.val, version := snap.v, lastSnapshot := some snap.ts, m := snap.m }

/-- The two results may differ in `has_migration` only. -/
def Alike (r r' : ReplayResult) : Prop :=
  r.state = r'.state ∧ r.version = r'.version ∧ r.m = r'.m ∧ r.lastSnapshot = r'.lastSnapshot

lemma Alike.refl (r : ReplayResult) : r.Alike r := ⟨rfl, rfl, rfl, rfl⟩

lemma Alike.applyChange {r r' s : ReplayResult} {change : ChangeRecord} (h : r.Alike r')
    (hs : r.applyChange change = .ok s) : ∃ s', r'.applyChange change = .ok s' ∧ s.Alike s' := by
  obtain ⟨hstate, hversion, hm, hlast⟩ := h
  obtain ⟨state, hd, hs⟩ := bind_eq_ok.mp hs
  rw [hstate] at hd
  refine ⟨{ r' with
    state := state, version := change.v, hasMigration := r'.hasMigration || startsWith "migrate" change.a
    m := change.m <|> r'.m }, by rw [ReplayResult.applyChange, hd]; rfl, ?_⟩
  rw [← Except.ok.inj hs]
  exact ⟨rfl, rfl, by rw [hm], hlast⟩

end ReplayResult

/-- Replay from the front. -/
def foldRecords (records : List Record) : Except Exc ReplayResult :=
  records.foldlM ReplayResult.applyRecord .empty

lemma foldlM_applyRecord_changes (changes : List ChangeRecord) (r : ReplayResult) :
    (changes.map Record.change).foldlM ReplayResult.applyRecord r =
      changes.foldlM ReplayResult.applyChange r := by
  rw [List.foldlM_map]
  rfl

lemma alike_foldlM {changes : List ChangeRecord} {r r' s : ReplayResult} (h : r.Alike r')
    (hs : changes.foldlM ReplayResult.applyChange r = .ok s) :
    ∃ s', changes.foldlM ReplayResult.applyChange r' = .ok s' ∧ s.Alike s' := by
  induction changes generalizing r r' with
  | nil =>
    obtain rfl : r = s := Except.ok.inj hs
    exact ⟨r', rfl, h⟩
  | cons c changes ih =>
    rw [List.foldlM_cons, bind_eq_ok] at hs
    obtain ⟨t, ht, hs⟩ := hs
    obtain ⟨t', ht', htt⟩ := h.applyChange ht
    obtain ⟨s', hs', hss⟩ := ih htt hs
    refine ⟨s', ?_, hss⟩
    rw [List.foldlM_cons, ht']
    exact hs'

/-- **The shortcut over the last snapshot** ends where a replay from the front ends. -/
theorem replayLog_of_foldRecords {records : List Record} {r : ReplayResult}
    (h : foldRecords records = .ok r) : ∃ r', replayLog records = .ok r' ∧ r.Alike r' := by
  rcases records_split records with ⟨changes, rfl, hl⟩ | ⟨before, snap, changes, rfl, hl⟩
  · refine ⟨r, ?_, .refl r⟩
    rw [foldRecords, foldlM_applyRecord_changes] at h
    rw [replayLog, hl]
    exact h
  · rw [foldRecords, List.foldlM_append, bind_eq_ok] at h
    obtain ⟨s, -, h⟩ := h
    rw [List.foldlM_cons, bind_eq_ok] at h
    obtain ⟨t, ht, h⟩ := h
    obtain rfl := Except.ok.inj ht
    rw [foldlM_applyRecord_changes] at h
    have hstart : ReplayResult.Alike { s with
        state := snap.state.val, version := snap.v, lastSnapshot := some snap.ts, m := snap.m }
        (.ofSnapshot snap) := ⟨rfl, rfl, rfl, rfl⟩
    obtain ⟨r', hr', hrr⟩ := alike_foldlM hstart h
    exact ⟨r', by rw [replayLog, hl]; exact hr', hrr⟩

/-! ### Version and modification time -/

/-- The last modification time among the changes. -/
def lastM (changes : List ChangeRecord) : Option DateTime := changes.foldl (fun m c => c.m <|> m) none

lemma foldl_m (l : List ChangeRecord) (m : Option DateTime) :
    l.foldl (fun m c => c.m <|> m) m = (lastM l <|> m) := by
  induction l generalizing m with
  | nil => rfl
  | cons c l ih =>
    rw [lastM, List.foldl_cons, List.foldl_cons, ih, ih (c.m <|> none)]
    cases lastM l <;> cases c.m <;> rfl

lemma lastM_append (l l' : List ChangeRecord) : lastM (l ++ l') = (lastM l' <|> lastM l) := by
  rw [lastM, List.foldl_append, foldl_m l']
  rfl

/-- What the replay of changes makes of the version and the modification time. -/
lemma applyChanges_stamp {l : List ChangeRecord} {r rr : ReplayResult}
    (h : l.foldlM ReplayResult.applyChange r = .ok rr) :
    rr.m = (lastM l <|> r.m) ∧ rr.version = (l.map ChangeRecord.v).getLastD r.version := by
  induction l generalizing r with
  | nil =>
    obtain rfl := Except.ok.inj h
    exact ⟨rfl, rfl⟩
  | cons c l ih =>
    obtain ⟨r', hr', h⟩ := bind_eq_ok.mp h
    obtain ⟨state, -, hr'⟩ := bind_eq_ok.mp hr'
    obtain rfl := Except.ok.inj hr'
    obtain ⟨hm, hv⟩ := ih h
    refine ⟨?_, by rw [hv, List.map_cons, List.getLastD_cons]⟩
    rw [hm, ← List.singleton_append, lastM_append]
    show (lastM l <|> (c.m <|> r.m)) = ((lastM l <|> (c.m <|> none)) <|> r.m)
    cases lastM l <;> cases c.m <;> rfl

/-! ### The two agree -/

section

variable {blake3 : Bytes → Bytes → Digest} {ser : Serializer} {framer : Framer}

/-- The record is encoded so that it can be decoded again. -/
def Decodable (ser : Serializer) (framer : Framer) (record : Record) : Prop :=
  ser.Inverts record ∧ ∀ payload, ser.encode record = .ok payload → framer.Fits (record.isSnapshot, payload)

/-- The record is encoded so that replay takes it. -/
def Readable (ser : Serializer) (framer : Framer) (record : Record) : Prop :=
  Decodable ser framer record ∧ ser.Timed record

/-- What asking for the timestamp of the last snapshot raises. -/
def timestampOf (ser : Serializer) (snap : Option Snapshot) : Except Exc Unit :=
  match snap with
  | some snap => snap.ts.timestamp ser.localTime
  | none => .ok ()

lemma timestampOf_eq_ok {snap : Option Snapshot} :
    timestampOf ser snap = .ok () ↔ ∀ s, snap = some s → s.ts.timestamp ser.localTime = .ok () := by
  cases snap <;> simp [timestampOf]

lemma timestampOf_timed {records : List Record} (h : ∀ r ∈ records, ser.Timed r) :
    timestampOf ser (lastSnapshot records).1 = .ok () := by
  rcases records_split records with ⟨changes, -, hl⟩ | ⟨before, snap, changes, rfl, hl⟩
  · rw [hl]
    rfl
  · rw [hl]
    exact h (.snapshot snap) (by simp)

/-- The payload of the item is the encoded record. -/
def Encodes (ser : Serializer) (record : Record) (item : Item) : Prop :=
  item.1 = record.isSnapshot ∧ ser.encode record = .ok item.2

lemma frameRecords_iff {offset : ℕ} {records : List Record} {data : Bytes} :
    frameRecords blake3 ser framer offset records = .ok data ↔
      ∃ items, List.Forall₂ (Encodes ser) records items ∧ framer.frames blake3 offset items = .ok data := by
  induction records generalizing offset data with
  | nil => simp [frameRecords, Framer.frames]
  | cons record records ih =>
    simp only [frameRecords, bind_eq_ok, ih, Except.ok.injEq]
    constructor
    · rintro ⟨payload, hp, fr, hfr, _, ⟨items, hi, hd⟩, rfl⟩
      exact ⟨(record.isSnapshot, payload) :: items, .cons ⟨rfl, hp⟩ hi,
        (frames_cons blake3).mpr ⟨fr, _, hfr, hd, rfl⟩⟩
    · rintro ⟨items, hi, hd⟩
      cases hi with
      | @cons _ item _ items hr hi =>
        obtain ⟨fr, tail, hfr, htail, rfl⟩ := (frames_cons blake3).mp hd
        exact ⟨item.2, hr.2, fr, hr.1 ▸ hfr, tail, ⟨items, hi, htail⟩, rfl⟩

lemma frameRecords_append {offset : ℕ} {records more : List Record} {data : Bytes} :
    frameRecords blake3 ser framer offset (records ++ more) = .ok data ↔
      ∃ d, frameRecords blake3 ser framer offset records = .ok d ∧
        ∃ d', frameRecords blake3 ser framer (offset + d.length) more = .ok d' ∧ d ++ d' = data := by
  induction records generalizing offset data with
  | nil => simp [frameRecords]
  | cons record records ih =>
    simp only [List.cons_append, frameRecords, bind_eq_ok, ih, Except.ok.injEq]
    constructor
    · rintro ⟨payload, hp, fr, hfr, _, ⟨d, hd, d', hd', rfl⟩, rfl⟩
      exact ⟨_, ⟨payload, hp, fr, hfr, d, hd, rfl⟩, d', by simpa [Nat.add_assoc] using hd', by simp⟩
    · rintro ⟨_, ⟨payload, hp, fr, hfr, d, hd, rfl⟩, d', hd', rfl⟩
      exact ⟨payload, hp, fr, hfr, _, ⟨d, hd, d', by simpa [Nat.add_assoc] using hd', rfl⟩, by simp⟩

lemma fits_of_encodes {records : List Record} {items : List Item}
    (hr : ∀ r ∈ records, Decodable ser framer r) (h : List.Forall₂ (Encodes ser) records items) :
    ∀ i ∈ items, framer.Fits i := by
  induction h with
  | nil => simp
  | @cons record item records items hri h ih =>
    rw [List.forall_mem_cons] at hr
    refine List.forall_mem_cons.mpr ⟨?_, ih hr.2⟩
    have := hr.1.2 item.2 hri.2
    rwa [← hri.1] at this

/-- The record is what the payload of the item is decoded to. -/
def Decodes (ser : Serializer) (item : Item) (record : Record) : Prop :=
  item.1 = record.isSnapshot ∧ ser.decode item.1 item.2 = .ok record

lemma decodes_of_encodes {records : List Record} {items : List Item}
    (hr : ∀ r ∈ records, ser.Inverts r) (h : List.Forall₂ (Encodes ser) records items) :
    List.Forall₂ (Decodes ser) items records := by
  induction h with
  | nil => exact .nil
  | @cons record item records items hri h ih =>
    rw [List.forall_mem_cons] at hr
    exact .cons ⟨hri.1, hri.1 ▸ hr.1 item.2 hri.2⟩ (ih hr.2)

lemma Decodes.change {payload : Bytes} {record : Record} (h : Decodes ser (false, payload) record) :
    ∃ c, record = .change c ∧ ser.decodeChange payload = .ok c := by
  obtain ⟨hkind, hdec⟩ := h
  simp only [Serializer.decode, Bool.false_eq_true, if_false, map_eq_ok] at hdec
  obtain ⟨c, hc, rfl⟩ := hdec
  exact ⟨c, rfl, hc⟩

lemma Decodes.snapshot {payload : Bytes} {record : Record} (h : Decodes ser (true, payload) record) :
    ∃ snap, record = .snapshot snap ∧ ser.decodeSnapshot payload = .ok snap := by
  obtain ⟨hkind, hdec⟩ := h
  simp only [Serializer.decode, if_true, map_eq_ok] at hdec
  obtain ⟨snap, hs, rfl⟩ := hdec
  exact ⟨snap, rfl, hs⟩

/-- A change that is decoded is patched in. -/
lemma replayRecord_change {raw : RawRecord} {c : ChangeRecord} (hkind : raw.isSnapshot = false)
    (h : ser.decodeChange raw.payload = .ok c) (r : ReplayResult) :
    replayRecord ser r raw = r.applyChange c := by
  simp [replayRecord, hkind, h]

/-- The records behind the last snapshot are replayed as they were written. -/
lemma foldlM_placed {changes : List ChangeRecord} {items : List Item} {lineNumber offset : ℕ}
    (h : List.Forall₂ (Decodes ser) items (changes.map .change)) (r : ReplayResult) :
    (framer.placed lineNumber offset items).foldlM (replayRecord ser) r =
      changes.foldlM ReplayResult.applyChange r := by
  induction changes generalizing items lineNumber offset r with
  | nil =>
    cases h
    rfl
  | cons c changes ih =>
    cases h with
    | @cons item _ items _ hri h =>
      obtain ⟨isSnapshot, payload⟩ := item
      obtain rfl : isSnapshot = false := hri.1
      obtain ⟨c', hc, hdec⟩ := hri.change
      obtain rfl := Record.change.inj hc
      rw [Framer.placed, List.foldlM_cons, List.foldlM_cons, replayRecord_change rfl hdec]
      exact bind_congr fun r' => ih h r'

lemma changes_of_decodes {changes : List ChangeRecord} {items : List Item}
    (h : List.Forall₂ (Decodes ser) items (changes.map .change)) : ∀ i ∈ items, i.1 = false := by
  induction changes generalizing items with
  | nil =>
    cases h
    simp
  | cons c changes ih =>
    cases h with
    | cons hi h => exact List.forall_mem_cons.mpr ⟨hi.1, ih h⟩

lemma forall₂_append {α β : Type} {R : α → β → Prop} {before after : List β} {items : List α}
    (h : List.Forall₂ R items (before ++ after)) :
    ∃ i j, items = i ++ j ∧ List.Forall₂ R i before ∧ List.Forall₂ R j after := by
  refine ⟨items.take before.length, items.drop before.length, (List.take_append_drop _ _).symm, ?_, ?_⟩
  · simpa using List.forall₂_take before.length h
  · simpa using List.forall₂_drop before.length h

/-- Replay of a framed file begins at the last snapshot; what stands in front of it need not be decoded. -/
theorem replay_frames_behind (before : List Item) {after : List Item} {payload : Bytes} (changes : List ChangeRecord)
    {data : Bytes}
    (hfit : ∀ i ∈ before ++ (true, payload) :: after, framer.Fits i)
    (hdec : List.Forall₂ (Decodes ser) after (changes.map .change))
    (hdata : framer.frames blake3 0 (before ++ (true, payload) :: after) = .ok data) :
    ∃ pos, replay blake3 ser framer data =
      (replayStart ser payload pos >>= fun start => changes.foldlM ReplayResult.applyChange start) := by
  obtain ⟨before'', -, hb, -, -⟩ := (frames_append blake3).mp hdata
  obtain ⟨offset, -, hscan, hiter⟩ :=
    scanLastSnapshot_frames blake3 hfit (changes_of_decodes hdec) hb hdata
  refine ⟨framer.framePos before''.length, ?_⟩
  rw [replay, hscan]
  simp only [bind, Except.bind, hiter]
  cases replayStart ser payload (framer.framePos before''.length) with
  | error e => rfl
  | ok start =>
    dsimp only
    rw [foldlM_placed hdec]
    cases changes.foldlM ReplayResult.applyChange start <;> rfl

/-- **Replaying a framed file** replays the records that its payloads are decoded to, once the last
snapshot has given its timestamp. -/
theorem replay_frames {items : List Item} {records : List Record} {data : Bytes}
    (hfit : ∀ i ∈ items, framer.Fits i) (hdec : List.Forall₂ (Decodes ser) items records)
    (hdata : framer.frames blake3 0 items = .ok data) :
    replay blake3 ser framer data =
      (timestampOf ser (lastSnapshot records).1 >>= fun _ => replayLog records) := by
  rcases records_split records with ⟨changes, rfl, hl⟩ | ⟨before, snap, changes, rfl, hl⟩
  · obtain ⟨offset, hscan, hiter⟩ :=
      scanLastSnapshot_changes blake3 hfit (changes_of_decodes hdec) hdata
    have hloop : (framer.placed 1 0 items).foldlM (replayRecord ser) .empty =
        changes.foldlM ReplayResult.applyChange .empty := foldlM_placed hdec .empty
    rw [replay, hscan, replayLog, hl, replayFrom, timestampOf]
    simp only [bind, Except.bind, hiter, hloop, Option.map_none, Option.getD_none]
    cases changes.foldlM ReplayResult.applyChange .empty <;> rfl
  · obtain ⟨before', rest, rfl, -, hrest⟩ := forall₂_append hdec
    cases hrest with
    | @cons item _ after _ hsnap hafter =>
      obtain ⟨isSnapshot, payload⟩ := item
      obtain rfl : isSnapshot = true := hsnap.1
      obtain ⟨snap', hs, hpayload⟩ := hsnap.snapshot
      obtain rfl := Record.snapshot.inj hs
      obtain ⟨pos, hreplay⟩ := replay_frames_behind _ _ hfit hafter hdata
      rw [hreplay, replayStart, hpayload, replayLog, hl, replayFrom, timestampOf]
      dsimp only
      cases snap.ts.timestamp ser.localTime <;> rfl

/-- A file of changes is replayed from the empty state. -/
lemma replay_changes {items : List Item} {changes : List ChangeRecord} {data : Bytes}
    (hfit : ∀ i ∈ items, framer.Fits i) (hdec : List.Forall₂ (Decodes ser) items (changes.map .change))
    (hdata : framer.frames blake3 0 items = .ok data) :
    replay blake3 ser framer data = changes.foldlM ReplayResult.applyChange .empty := by
  have hlast := lastSnapshot_changes [] changes
  rw [List.nil_append] at hlast
  rw [replay_frames hfit hdec hdata, replayLog, hlast]
  rfl

/-- **Replaying a written file** replays the records that were written, once the last snapshot has given
its timestamp. -/
theorem replay_frameRecords {records : List Record} {data : Bytes}
    (hr : ∀ r ∈ records, Decodable ser framer r)
    (h : frameRecords blake3 ser framer 0 records = .ok data) :
    replay blake3 ser framer data =
      (timestampOf ser (lastSnapshot records).1 >>= fun _ => replayLog records) := by
  obtain ⟨items, hitems, hdata⟩ := frameRecords_iff.mp h
  exact replay_frames (fits_of_encodes hr hitems) (decodes_of_encodes (fun r hr' => (hr r hr').1) hitems) hdata

end

end Kanta
