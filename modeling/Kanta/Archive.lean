import Kanta.Cutoff
import Kanta.Lib.Disk
import Kanta.Lib.Fresh
import Kanta.Lib.Lts

/-!
# Rotation after rotation

A database file over many sessions: records are appended, and now and then an `open` rotates.  Each rotation
moves the records from before its cutoff to a file of their own, whose name `rotated_path_for` chooses.

`history_kept`: however often it has been rotated, the rotated files in their order and the file hold the
change records that were ever written, once and in order, and no file has been overwritten.
-/

namespace Kanta

open Kanta.Lib Kanta.Lib.Assoc Kanta.Lib.Disk Kanta.Lib.Fresh Kanta.Lib.Lts

/-! ### The name of a rotated file -/

/-- The `n`-th name that `rotated_path_for` tries. -/
def rotatedCandidate (stem stamp : String) : ℕ → String
  | 0 => stem ++ "@" ++ stamp ++ ".kantadb"
  | n + 1 => stem ++ "@" ++ stamp ++ "." ++ toString (n + 1) ++ ".kantadb"

/-- `rotated_path_for`, in a directory of such names. -/
def rotatedPathFor (names : List String) (stem stamp : String) : Option String :=
  firstFree (rotatedCandidate stem stamp) names (names.length + 1) 0

lemma rotatedCandidate_injective (stem stamp : String) : Function.Injective (rotatedCandidate stem stamp) := by
  have hne : ∀ n, rotatedCandidate stem stamp 0 ≠ rotatedCandidate stem stamp (n + 1) := by
    intro n h
    have hlen := congrArg String.length h
    simp only [rotatedCandidate, String.length_append] at hlen
    have hdot : ".".length = 1 := rfl
    omega
  rintro (_ | m) (_ | n) h
  · rfl
  · exact absurd h (hne n)
  · exact absurd h.symm (hne m)
  · have hchars := congrArg String.toList h
    simp only [rotatedCandidate, String.toList_append] at hchars
    have hnumber := List.append_cancel_left (List.append_cancel_right hchars)
    rw [toString_injective (String.toList_inj.mp hnumber)]

/-- **A rotated file gets a name of its own**, however many there are of its second. -/
lemma exists_rotatedPathFor (names : List String) (stem stamp : String) :
    ∃ path, rotatedPathFor names stem stamp = some path ∧ path ∉ names :=
  exists_firstFree (rotatedCandidate_injective stem stamp)

/-! ### The file and its history -/

section

variable (blake3 : Bytes → Bytes → Digest) (ser : Serializer) (bare : BareEncoder) (framer : Framer)

/-- The records that `_scan` finds. -/
def recordsIn (content : Bytes) : List Record :=
  match scanEntries blake3 ser framer content with
  | .ok entries => entries.map RotationEntry.record
  | .error _ => []

/-- A database file, the other files of its directory, the names of the rotated ones in their order, and all
change records that have ever been written. -/
structure Archive where
  file : Bytes
  siblings : List (String × Bytes)
  rotated : List String
  history : List ChangeRecord

namespace Archive

/-- What happens to the file: a session appends records, or an `open` rotates. -/
inductive Event where
  | append (records : List Record)
  | rotate (cutoff now : DateTime) (minDiffs : ℤ)

/-- The path of the database: its name, its stem, and how `strftime` shows the time of a rotated file. -/
structure Naming where
  name : String
  stem : String
  strftime : DateTime → String

/-- The names in the directory. -/
def names (naming : Naming) (a : Archive) : List String := naming.name :: keys a.siblings

/-- One event; a rotation that cannot be planned leaves everything as it is. -/
def step (naming : Naming) (a : Archive) : Event → Option Archive
  | .append records =>
    match frameRecords blake3 ser (framer.reload a.file) a.file.length records with
    | .ok data => some { a with file := a.file ++ data, history := a.history ++ changeRecords records }
    | .error _ => none
  | .rotate cutoff now minDiffs =>
    match planRotation blake3 ser bare framer a.file cutoff now minDiffs with
    | .ok (some plan) =>
      match rotatedPathFor (a.names naming) naming.stem (naming.strftime plan.rotatedTs) with
      | some path =>
        some { a with
          file := plan.newContent
          siblings := a.siblings ++ [(path, resize 0 plan.cutoffEnd a.file)]
          rotated := a.rotated ++ [path] }
      | none => none
    | .ok none => some a
    | .error _ => some a

/-- Time goes on: what is appended is not older than the file, and the clock of a rotation is not behind it.
A rotation writes dicts only. -/
def InOrder (a : Archive) : Event → Prop
  | .append records => Chronological (recordsIn blake3 ser framer a.file ++ records)
  | .rotate cutoff now minDiffs =>
    (∀ r ∈ recordsIn blake3 ser framer a.file, r.ts.le now = .ok true) ∧
      WritesDicts cutoff minDiffs (recordsIn blake3 ser framer a.file)

/-- A file that nobody has rotated. -/
def start (file : Bytes) (siblings : List (String × Bytes)) : Archive :=
  ⟨file, siblings, [], changeRecords (recordsIn blake3 ser framer file)⟩

/-- The changes in the rotated files, in the order of the rotations. -/
def rotatedChanges (a : Archive) : List ChangeRecord :=
  a.rotated.flatMap fun path => changeRecords (recordsIn blake3 ser framer ((a.siblings.lookup path).getD []))

end Archive

end

/-! ### One rotation -/

namespace DateTime

/-- What is early comes before what is late. -/
lemma le_of_cut {a b cutoff : DateTime} (ha : early cutoff a = true) (hb : b.lt cutoff = .ok false) :
    a.le b = .ok true := by
  obtain ⟨w, o⟩ := a
  obtain ⟨v, p⟩ := b
  obtain ⟨u, q⟩ := cutoff
  cases o <;> cases p <;> cases q <;> simp [early, lt, le] at ha hb ⊢ <;> omega

end DateTime

section

variable {blake3 : Bytes → Bytes → Digest} {ser : Serializer} {bare : BareEncoder} {framer fr : Framer}
  {cutoff now : DateTime} {minDiffs : ℤ} {records front back : List Record} {s : Survey} {base : Option Snapshot}
  {content data : Bytes}

lemma recordsIn_eq (hr : ∀ r ∈ records, Decodable ser fr r) (hload : framer.load data = .ok fr)
    (h : frameRecords blake3 ser fr 0 records = .ok data) :
    (∃ entries, scanEntries blake3 ser framer data = .ok entries) ∧ recordsIn blake3 ser framer data = records := by
  obtain ⟨entries, hscan, hrecords⟩ := scanEntries_frameRecords hr hload h
  refine ⟨⟨entries, hscan⟩, ?_⟩
  rw [recordsIn, hscan]
  exact hrecords

lemma sublist_changeRecords (records : List Record) : ((changeRecords records).map .change).Sublist records := by
  induction records with
  | nil => exact .slnil
  | cons r records ih =>
    cases r with
    | change c => exact ih.cons_cons _
    | snapshot snap => exact ih.cons _

/-- The records of the new file are in order. -/
lemma Planned.chronological (h : Planned cutoff records s front back base) (hc : Chronological records)
    (hnow : ∀ r ∈ records, r.ts.le now = .ok true) (state : Dict) {tail : List Record}
    (htail : tail = [] ∨ ∃ last : Snapshot, tail = [.snapshot last] ∧ last.ts = now) :
    Chronological (.snapshot (s.leader state) :: (lateChanges cutoff records).map .change ++ tail) := by
  have hlate : ∀ c ∈ lateChanges cutoff records, .change c ∈ records ∧ c.ts.lt cutoff = .ok false := by
    intro c hmem
    obtain ⟨hc', hearly⟩ := List.mem_filter.mp hmem
    obtain ⟨b, hb⟩ := h.comparable c hc'
    rw [DateTime.early_of_lt hb] at hearly
    have hfalse : b = false := by simpa using hearly
    exact ⟨mem_changeRecords.mp hc', hfalse ▸ hb⟩
  -- the leading snapshot has the time of the last early change
  obtain ⟨e, hmem, hearly, hts⟩ : ∃ e : ChangeRecord, .change e ∈ records ∧ DateTime.early cutoff e.ts = true ∧
      e.ts = s.rotatedTs := by
    obtain ⟨e, he, hts⟩ := Option.map_eq_some_iff.mp h.last
    obtain ⟨hmem, hearly⟩ := List.mem_filter.mp (List.mem_of_getLast? he)
    exact ⟨e, mem_changeRecords.mp hmem, hearly, hts⟩
  have hlead : ∀ c ∈ lateChanges cutoff records, s.rotatedTs.le c.ts = .ok true := by
    intro c hmem
    rw [← hts]
    exact DateTime.le_of_cut hearly (hlate c hmem).2
  have hretained : Chronological ((lateChanges cutoff records).map .change) := by
    have hsub : ((lateChanges cutoff records).map Record.change).Sublist records :=
      ((List.filter_sublist).map _).trans (sublist_changeRecords records)
    exact List.Pairwise.sublist (hsub.map _) hc
  have hfront : Chronological (.snapshot (s.leader state) :: (lateChanges cutoff records).map .change) := by
    refine List.pairwise_cons.mpr ⟨fun t ht => ?_, hretained⟩
    obtain ⟨r, hr, rfl⟩ := List.mem_map.mp ht
    obtain ⟨c, hc', rfl⟩ := List.mem_map.mp hr
    exact hlead c hc'
  rcases htail with rfl | ⟨last, rfl, hlast⟩
  · rw [List.append_nil]
    exact hfront
  · rw [Chronological, List.map_append, List.pairwise_append]
    refine ⟨hfront, by simp, fun t ht t' ht' => ?_⟩
    obtain rfl : t' = last.ts := by simpa [Record.ts] using ht'
    rw [hlast]
    rw [List.map_cons, List.mem_cons] at ht
    rcases ht with rfl | ht
    · show s.rotatedTs.le now = .ok true
      rw [← hts]
      exact hnow _ hmem
    · obtain ⟨r, hr, rfl⟩ := List.mem_map.mp ht
      obtain ⟨c, hc', rfl⟩ := List.mem_map.mp hr
      exact hnow _ (hlate c hc').1

/-- The cutoff position is in the file. -/
lemma CutAt.le_length {cutoffEnd : ℕ} (h : CutAt blake3 ser fr cutoff records content cutoffEnd)
    (hframes : frameRecords blake3 ser fr 0 records = .ok content) : cutoffEnd ≤ content.length := by
  rcases h with ⟨-, rfl⟩ | ⟨before, c, after, d, rfl, -, -, hd, rfl⟩
  · exact Nat.le_refl _
  · obtain ⟨d', hd', rest, hrest, rfl⟩ := frameRecords_append.mp hframes
    obtain rfl := Except.ok.inj (hd'.symm.trans hd)
    obtain ⟨payload, -, hrest⟩ := bind_eq_ok.mp hrest
    obtain ⟨f, hf, hrest⟩ := bind_eq_ok.mp hrest
    obtain ⟨tail, -, hrest⟩ := bind_eq_ok.mp hrest
    obtain rfl := Except.ok.inj hrest
    rw [Nat.zero_add] at hf
    have hlt := framePos_lt fr (Record.change c).isSnapshot payload d'.length
    rw [List.length_append, List.length_append, frame_length blake3 hf]
    omega

/-! ### Any number of rotations -/

lemma StateCodec.of_load {ts : DateTime} {v : ℤ} {state : Val} {m : Option DateTime}
    (hload : framer.load content = .ok fr) (h : StateCodec ser bare framer ts v state m) :
    StateCodec ser bare fr ts v state m :=
  fun payload hp => ⟨Framer.fits_of_load hload (h payload hp).1, (h payload hp).2⟩

namespace Archive

variable {naming : Naming} {a a' : Archive} {e : Event}

/-- The file can be read and is in order, and what has been rotated is where it was put. -/
structure Inv (blake3 : Bytes → Bytes → Digest) (ser : Serializer) (framer : Framer) (naming : Naming)
    (a : Archive) : Prop where
  sound : ∃ fr records, framer.load a.file = .ok fr ∧ frameRecords blake3 ser fr 0 records = .ok a.file ∧
    Chronological records
  names : (a.names naming).Nodup
  kept : ∀ path ∈ a.rotated, ∃ content entries, a.siblings.lookup path = some content ∧
    scanEntries blake3 ser framer content = .ok entries
  whole : a.rotatedChanges blake3 ser framer ++ changeRecords (recordsIn blake3 ser framer a.file) = a.history

/-- Records that are appended to a file that can be read. -/
lemma sound_append {records more : List Record} (hload : framer.load content = .ok fr)
    (hframes : frameRecords blake3 ser fr 0 records = .ok content)
    (hmore : frameRecords blake3 ser (framer.reload content) content.length more = .ok data) :
    framer.load (content ++ data) = .ok fr ∧
      frameRecords blake3 ser fr 0 (records ++ more) = .ok (content ++ data) := by
  rw [Framer.reload_of_load hload] at hmore
  have hall : frameRecords blake3 ser fr 0 (records ++ more) = .ok (content ++ data) :=
    frameRecords_append.mpr ⟨_, hframes, _, by rwa [Nat.zero_add], rfl⟩
  refine ⟨?_, hall⟩
  by_cases hnil : records ++ more = []
  · obtain ⟨rfl, rfl⟩ := List.append_eq_nil_iff.mp hnil
    obtain rfl : [] = content := Except.ok.inj hframes
    obtain rfl : [] = data := Except.ok.inj hmore
    exact hload
  · exact load_written hload hnil hall

/-- **Appending** keeps the invariant. -/
lemma Inv.append (hser : ∀ r, Decodable ser framer r) (hi : a.Inv blake3 ser framer naming) {records : List Record}
    (h : a.step blake3 ser bare framer naming (.append records) = some a')
    (hG : Chronological (recordsIn blake3 ser framer a.file ++ records)) : a'.Inv blake3 ser framer naming := by
  rw [step] at h
  split at h
  · next data hdata =>
    obtain rfl := Option.some.inj h
    obtain ⟨fr, before, hload, hframes, -⟩ := hi.sound
    have hread : ∀ l : List Record, ∀ r ∈ l, Decodable ser fr r := fun _ r _ => (hser r).of_load hload
    obtain ⟨-, hbefore⟩ := recordsIn_eq (hread _) hload hframes
    obtain ⟨hload', hframes'⟩ := sound_append hload hframes hdata
    obtain ⟨-, hafter⟩ := recordsIn_eq (hread _) hload' hframes'
    rw [hbefore] at hG
    refine ⟨⟨fr, _, hload', hframes', hG⟩, hi.names, hi.kept, ?_⟩
    have hwhole := hi.whole
    rw [hbefore] at hwhole
    show rotatedChanges blake3 ser framer a ++ changeRecords (recordsIn blake3 ser framer (a.file ++ data)) =
      a.history ++ changeRecords records
    rw [hafter, changeRecords_append, ← List.append_assoc, hwhole]
  · cases h

/-- **A rotation** keeps the invariant. -/
lemma Inv.rotate (hser : ∀ r, Decodable ser framer r)
    (hstates : ∀ ts v state m, StateCodec ser bare framer ts v state m)
    (hi : a.Inv blake3 ser framer naming)
    (h : a.step blake3 ser bare framer naming (.rotate cutoff now minDiffs) = some a')
    (hG : a.InOrder blake3 ser framer (.rotate cutoff now minDiffs)) : a'.Inv blake3 ser framer naming := by
  obtain ⟨hnow, hdicts⟩ := hG
  rw [step] at h
  split at h
  · next plan hplan =>
    obtain ⟨fr, records, hload, hframes, hchron⟩ := hi.sound
    have hread : ∀ l : List Record, ∀ r ∈ l, Decodable ser fr r := fun _ r _ => (hser r).of_load hload
    obtain ⟨-, hrecords⟩ := recordsIn_eq (hread _) hload hframes
    rw [hrecords] at hnow hdicts
    have hreadable : PlanReadable blake3 ser bare framer a.file cutoff now minDiffs := by
      intro entries s _ _
      rw [Framer.reload_of_load hload]
      exact ⟨fun _ _ => (hstates _ _ _ _).of_load hload, fun _ => (hstates _ _ _ _).of_load hload⟩
    obtain ⟨⟨s, front, back, base, lead, bodies, closing, hp⟩, hcut⟩ :=
      exists_planFor (hread _) hload hframes hreadable hplan
    obtain ⟨state, tail, -, hnewread, hnew, htail⟩ := hp.new_records hdicts
    obtain ⟨before, after, hfront⟩ := front_of_cutAt hp.planned hchron hframes hcut
    obtain ⟨-, hnewrecords⟩ := recordsIn_eq hnewread hp.loads hnew
    obtain ⟨⟨entries, hscan⟩, hkept⟩ := recordsIn_eq (hread before)
      (load_written hload hfront.nonempty hfront.framed) hfront.framed
    have hresize : resize 0 plan.cutoffEnd a.file = a.file.take plan.cutoffEnd := by
      rw [resize, Nat.sub_eq_zero_of_le (hcut.le_length hframes), List.replicate_zero, List.append_nil]
    obtain ⟨path, hpath, hfree⟩ := exists_rotatedPathFor (a.names naming) naming.stem
      (naming.strftime plan.rotatedTs)
    rw [hpath] at h
    obtain rfl := Option.some.inj h
    have hsibling : path ∉ keys a.siblings := fun hmem => hfree (List.mem_cons_of_mem _ hmem)
    have hold : ∀ q ∈ a.rotated, (a.siblings ++ [(path, resize 0 plan.cutoffEnd a.file)]).lookup q =
        a.siblings.lookup q := by
      intro q hq
      obtain ⟨content, _, hlookup, -⟩ := hi.kept q hq
      rw [hlookup, lookup_concat_of_some hlookup]
    have hself := lookup_concat_self hsibling (resize 0 plan.cutoffEnd a.file)
    refine ⟨⟨fr, _, hp.loads, hnew, hp.planned.chronological hchron hnow state htail⟩, ?_, fun q hq => ?_, ?_⟩
    · show (naming.name :: keys (a.siblings ++ [(path, _)])).Nodup
      rw [keys, List.map_append, ← List.cons_append, List.nodup_append]
      refine ⟨hi.names, List.nodup_singleton _, ?_⟩
      rintro x hx y hy rfl
      obtain rfl : x = path := by simpa using hy
      exact hfree hx
    · dsimp only at hq ⊢
      rcases List.mem_append.mp hq with hq | hq
      · rw [hold q hq]
        exact hi.kept q hq
      · obtain rfl := List.mem_singleton.mp hq
        exact ⟨_, entries, hself, by rw [hresize, hscan]⟩
    · have hrotated : (a.rotated.flatMap fun q => changeRecords (recordsIn blake3 ser framer
          (((a.siblings ++ [(path, resize 0 plan.cutoffEnd a.file)]).lookup q).getD []))) =
            a.rotatedChanges blake3 ser framer := by
        refine List.flatMap_congr fun q hq => ?_
        rw [hold q hq]
      have hwhole := hi.whole
      rw [hrecords, hfront.whole, changeRecords_append, hfront.late, ← List.append_assoc] at hwhole
      rw [rotatedChanges]
      dsimp only
      rw [List.flatMap_append, hrotated, List.flatMap_singleton, hself, Option.getD_some, hresize, hkept,
        hnewrecords, changeRecords_new htail]
      exact hwhole
  · obtain rfl := Option.some.inj h
    exact hi
  · obtain rfl := Option.some.inj h
    exact hi

/-- **Rotations lose, double and overwrite nothing**, however many there are. -/
theorem history_kept {file : Bytes} {siblings : List (String × Bytes)} (hser : ∀ r, Decodable ser framer r)
    (hstates : ∀ ts v state m, StateCodec ser bare framer ts v state m)
    (hload : framer.load file = .ok fr) (hframes : frameRecords blake3 ser fr 0 records = .ok file)
    (hchron : Chronological records) (hnames : (naming.name :: keys siblings).Nodup)
    (h : Reach (step blake3 ser bare framer naming) (fun a e _ => a.InOrder blake3 ser framer e)
      (start blake3 ser framer file siblings) a) :
    a.rotatedChanges blake3 ser framer ++ changeRecords (recordsIn blake3 ser framer a.file) = a.history ∧
      (∀ path ∈ a.rotated, ∃ content entries, a.siblings.lookup path = some content ∧
        scanEntries blake3 ser framer content = .ok entries) ∧
      (∃ entries, scanEntries blake3 ser framer a.file = .ok entries) ∧
      siblings <+: a.siblings ∧ (a.names naming).Nodup := by
  have hi : a.Inv blake3 ser framer naming ∧ siblings <+: a.siblings := by
    induction h with
    | start => exact ⟨⟨⟨fr, records, hload, hframes, hchron⟩, hnames, by simp [start], rfl⟩, List.prefix_refl _⟩
    | @next b b' e _ hstep hG ih =>
      cases e with
      | append records =>
        refine ⟨ih.1.append hser hstep hG, ?_⟩
        rw [step] at hstep
        split at hstep
        · obtain rfl := Option.some.inj hstep
          exact ih.2
        · cases hstep
      | rotate cutoff now minDiffs =>
        refine ⟨ih.1.rotate hser hstates hstep hG, ?_⟩
        rw [step] at hstep
        split at hstep
        · split at hstep
          · obtain rfl := Option.some.inj hstep
            exact ih.2.trans (List.prefix_append _ _)
          · cases hstep
        · obtain rfl := Option.some.inj hstep
          exact ih.2
        · obtain rfl := Option.some.inj hstep
          exact ih.2
  obtain ⟨fr, records, hload, hframes, -⟩ := hi.1.sound
  obtain ⟨hscan, -⟩ := recordsIn_eq (fun r _ => (hser r).of_load hload) hload hframes
  exact ⟨hi.1.whole, hi.1.kept, hscan, hi.2, hi.1.names⟩

end Archive

end

/-! ### Two rotations -/

instance (x : Except Exc Bool) : Decidable (x = .ok true) :=
  match x with
  | .ok true => isTrue rfl
  | .ok false => isFalse (by simp)
  | .error _ => isFalse (by simp)

instance (records : List Record) : Decidable (Chronological records) :=
  inferInstanceAs (Decidable ((records.map Record.ts).Pairwise fun a b => a.le b = .ok true))

instance (records : List Record) : Decidable (EndsInDict records) :=
  decidable_of_iff ((replayLog records).toOption.any fun r => r.state.isDict) <| by
    unfold EndsInDict
    cases replayLog records <;> simp [Except.toOption]

instance (cutoff : DateTime) (minDiffs : ℤ) (records : List Record) : Decidable (WritesDicts cutoff minDiffs records) :=
  inferInstanceAs (Decidable (EndsInDict (cutoffPrefix cutoff records) ∧
    (minDiffs ≤ (lateChanges cutoff records).length → EndsInDict records)))

instance (blake3 : Bytes → Bytes → Digest) (ser : Serializer) (framer : Framer) (a : Archive) (e : Archive.Event) :
    Decidable (a.InOrder blake3 ser framer e) :=
  match e with
  | .append records =>
    inferInstanceAs (Decidable (Chronological (recordsIn blake3 ser framer a.file ++ records)))
  | .rotate cutoff now minDiffs =>
    inferInstanceAs (Decidable ((∀ r ∈ recordsIn blake3 ser framer a.file, r.ts.le now = .ok true) ∧
      WritesDicts cutoff minDiffs (recordsIn blake3 ser framer a.file)))

namespace Sample

/-- The rotated files of one second. -/
def naming : Archive.Naming := ⟨"db.kantadb", "db", fun _ => "20240101T000000Z"⟩

end Sample

/-- The file is rotated twice, into files of the same second. -/
theorem history_kept_twice : ∃ a : Archive,
    (a.rotated = ["db@20240101T000000Z.kantadb", "db@20240101T000000Z.1.kantadb"] ∧ a.history.length = 3) ∧
      a.rotatedChanges Sample.noHash Sample.dated .line ++
        changeRecords (recordsIn Sample.noHash Sample.dated .line a.file) = a.history ∧
      (∀ path ∈ a.rotated, ∃ content entries, a.siblings.lookup path = some content ∧
        scanEntries Sample.noHash Sample.dated .line content = .ok entries) ∧
      (∃ entries, scanEntries Sample.noHash Sample.dated .line a.file = .ok entries) ∧
      [] <+: a.siblings ∧ (a.names Sample.naming).Nodup := by
  obtain ⟨a, ha, hseen⟩ := exists_reach (Archive.step Sample.noHash Sample.dated Sample.bare .line Sample.naming)
    (fun a e _ => decide (a.InOrder Sample.noHash Sample.dated .line e))
    (Archive.start Sample.noHash Sample.dated .line [] [])
    [.append [.change (Sample.change 1 0 1), .change (Sample.change 3 0 2)],
      .rotate (Sample.day 2) (Sample.day 3) 100, .append [.change (Sample.change 3 0 3)],
      .rotate (Sample.day 4) (Sample.day 5) 100]
    (fun a => (a.rotated, a.history.length))
    (["db@20240101T000000Z.kantadb", "db@20240101T000000Z.1.kantadb"], 3) (by decide +kernel)
  have hreach : Reach _ (fun a e _ => a.InOrder Sample.noHash Sample.dated .line e) _ a :=
    ha.mono fun _ _ _ h => of_decide_eq_true h
  have hframes : frameRecords Sample.noHash Sample.dated .line 0 [] = .ok [] := rfl
  exact ⟨a, Prod.mk.inj hseen, Archive.history_kept Sample.decodable_dated Sample.stateCodec_dated rfl hframes
    (by decide) (by decide) hreach⟩

end Kanta
