import Kanta.Ahead
import Kanta.Lib.Descriptors
import Kanta.Torn

/-!
# Readers beside a writer

An instance that is opened read-only takes no lock.  It reads the file, chunk by chunk, while another
instance appends to it, and replays what it has read.  What has been written becomes visible bit by bit, so
that a reader may see the front of a batch, and a part of a frame.

`reader_lands`: it gets a `ReplayError`, or a state that the database has been in, not older than what the
file held when the reading began.
-/

namespace Kanta

open Kanta.Lib Kanta.Lib.Descriptors Kanta.Lib.Lts

/-! ### The writer and its readers -/

/-- Where a reader is; `start` is what could be read of the file when it began. -/
inductive Reader where
  | away
  | reading (start got : Bytes)
  | read (start got : Bytes)

/-- The instance that writes, what can be read of its file, and the readers. -/
structure World (ι : Type*) where
  writer : State
  shown : Bytes
  reader : ι → Reader

/-- An event of the writer, more of the file that becomes visible, a reader that opens the file, or a chunk. -/
inductive Sight (ι : Type*) where
  | writer (e : Event)
  | shows (length : ℕ)
  | opens (i : ι)
  | reads (i : ι) (count : ℕ)

namespace World

variable {ι : Type*}

/-- An instance that is not open yet, with its file. -/
def start (statedict : Dict) (version : ℤ) (framer : Framer) (file : Bytes) : World ι :=
  ⟨.init statedict version framer file, file, fun _ => .away⟩

/-- One event; `_read_unix` reads until there is nothing more. -/
def step [DecidableEq ι] (E : Env) (w : World ι) : Sight ι → Option (World ι)
  | .writer e => (Kanta.step E w.writer e).map fun s => { w with writer := s }
  | .shows length =>
    if w.shown.length ≤ length then some { w with shown := w.writer.core.file.take length } else none
  | .opens i => some { w with reader := Function.update w.reader i (.reading w.shown []) }
  | .reads i count =>
    match w.reader i with
    | .reading start got =>
      if count = 0 then none
      else
        let chunk := (w.shown.drop got.length).take count
        some { w with
          reader := Function.update w.reader i (if chunk = [] then .read start got else .reading start (got ++ chunk)) }
    | _ => none

/-- The events of the writer meet `Level`. -/
def Settled (E : Env) (w : World ι) (e : Sight ι) (w' : World ι) : Prop :=
  ∀ event, e = .writer event → Level E w.writer event w'.writer

/-! ### What can be read -/

/-- What a reader has, of a file that held `file` at first. -/
def Reads (file shown : Bytes) : Reader → Prop
  | .away => True
  | .reading start got => file <+: start ∧ Reading start got shown
  | .read start got => file <+: start ∧ start <+: got ∧ got <+: shown

/-- What can be read is a front of the file. -/
structure Inv (E : Env) (file : Bytes) (w : World ι) : Prop where
  control : Control w.writer
  written : Written E file w.writer.core
  base : file <+: w.shown
  shown : w.shown <+: w.writer.core.file
  reads : ∀ i, Reads file w.shown (w.reader i)

lemma Reads.grow {file shown shown' : Bytes} {r : Reader} (h : Reads file shown r) (hs : shown <+: shown') :
    Reads file shown' r := by
  cases r with
  | away => trivial
  | reading start got => exact ⟨h.1, h.2.grow hs⟩
  | read start got => exact ⟨h.1, h.2.1, h.2.2.trans hs⟩

/-- A chunk more, or the end. -/
lemma Reads.chunk {file shown start got : Bytes} (h : Reads file shown (.reading start got)) {count : ℕ}
    (hcount : count ≠ 0) : Reads file shown
      (if (shown.drop got.length).take count = [] then .read start got
        else .reading start (got ++ (shown.drop got.length).take count)) := by
  split
  · next hend =>
    obtain ⟨hgot, hstart⟩ := h.2.whole hcount hend
    exact ⟨h.1, hstart, h.2.got⟩
  · exact ⟨h.1, h.2.chunk count⟩

variable {E : Env} {file : Bytes}

lemma inv_start {statedict : Dict} {version : ℤ} {framer : Framer} :
    (start statedict version framer file : World ι).Inv E file where
  control := control_init ..
  written := ⟨by simp [start, State.init], by simp [start, State.init], by simp [start, State.init],
    by simp [start, State.init]⟩
  base := List.prefix_refl _
  shown := List.prefix_refl _
  reads _ := trivial

variable [DecidableEq ι]

/-- **Every event** leaves what can be read a front of the file, and the readers with a front of that. -/
lemma Inv.step {w w' : World ι} {e : Sight ι} (hi : w.Inv E file) (h : step E w e = some w') : w'.Inv E file := by
  cases e with
  | writer e =>
    obtain ⟨s, hs, rfl⟩ := Option.map_eq_some_iff.mp h
    have heff := step_effect hi.control hs
    have hwritten := hi.written.effect heff
    obtain ⟨more, hlog, -⟩ := heff.log_more
    refine ⟨hi.control.step hs, hwritten, hi.base, hi.shown.trans ?_, hi.reads⟩
    show w.writer.core.file <+: s.core.file
    rw [hwritten.file_eq, hi.written.file_eq, hlog, List.flatMap_append, ← List.append_assoc]
    exact List.prefix_append _ _
  | shows length =>
    rw [World.step] at h
    split at h
    · next hle =>
      obtain rfl := Option.some.inj h
      have hgrow : w.shown <+: w.writer.core.file.take length := by
        rw [List.prefix_iff_eq_take.mp hi.shown]
        exact List.take_prefix_take_left hle
      exact ⟨hi.control, hi.written, hi.base.trans hgrow, List.take_prefix _ _, fun i => (hi.reads i).grow hgrow⟩
    · cases h
  | opens i =>
    obtain rfl := Option.some.inj h
    refine ⟨hi.control, hi.written, hi.base, hi.shown, fun j => ?_⟩
    show Reads file w.shown (Function.update w.reader i _ j)
    rw [Function.update_apply]
    split
    · exact ⟨hi.base, .begin _⟩
    · exact hi.reads j
  | reads i count =>
    rw [World.step] at h
    split at h
    · next start got hr =>
      split at h
      · cases h
      · next hcount =>
        obtain rfl := Option.some.inj h
        refine ⟨hi.control, hi.written, hi.base, hi.shown, fun j => ?_⟩
        show Reads file w.shown (Function.update w.reader i _ j)
        rw [Function.update_apply]
        split
        · have hreads := hi.reads i
          rw [hr] at hreads
          exact hreads.chunk hcount
        · exact hi.reads j
    · cases h

/-- The writer's own run. -/
lemma writer_reach {statedict : Dict} {version : ℤ} {framer : Framer} {w : World ι}
    (h : Reach (step E) (Settled E) (start statedict version framer file) w) :
    Reach (Kanta.step E) (Level E) (.init statedict version framer file) w.writer ∧ w.Inv E file := by
  induction h with
  | start => exact ⟨.start, inv_start⟩
  | @next w w' e _ hstep hG ih =>
    refine ⟨?_, ih.2.step hstep⟩
    cases e with
    | writer e =>
      have hlevel := hG e rfl
      obtain ⟨s, hs, rfl⟩ := Option.map_eq_some_iff.mp hstep
      exact ih.1.next hs hlevel
    | shows length =>
      rw [World.step] at hstep
      split at hstep
      · rw [← Option.some.inj hstep]
        exact ih.1
      · cases hstep
    | opens i =>
      rw [← Option.some.inj hstep]
      exact ih.1
    | reads i count =>
      rw [World.step] at hstep
      split at hstep
      · split at hstep
        · cases hstep
        · rw [← Option.some.inj hstep]
          exact ih.1
      · cases hstep

end World

/-! ### The front of a file -/

variable {E : Env}

/-- The framers of one format. -/
def Framer.Kin : Framer → Framer → Prop
  | .line, .line => True
  | .bin _, .bin _ => True
  | _, _ => False

/-- The seed that a reader brings along does not matter. -/
lemma Framer.Kin.replay_eq {framer fr : Framer} (h : framer.Kin fr) (blake3 : Bytes → Bytes → Digest)
    (ser : Serializer) (data : Bytes) : replay blake3 ser framer data = replay blake3 ser fr data := by
  cases framer <;> cases fr
  · rfl
  · exact h.elim
  · exact h.elim
  · simp only [replay, Framer.scanLastSnapshot, Framer.iterRecords, Framer.load]
    by_cases hnil : data = []
    · simp [hnil]
    · simp only [if_neg hnil]

/-- Records whose frames lie in front of the cut are whole. -/
lemma wholeRecords_frames {blake3 : Bytes → Bytes → Digest} {ser : Serializer} {framer : Framer} {L offset : ℕ}
    {records : List Record} {data : Bytes} (h : frameRecords blake3 ser framer offset records = .ok data)
    (hL : offset + data.length ≤ L) (more : List Record) :
    wholeRecords ser framer L offset (records ++ more) =
      records ++ wholeRecords ser framer L (offset + data.length) more := by
  induction records generalizing offset data with
  | nil =>
    obtain rfl : [] = data := Except.ok.inj h
    rfl
  | cons record records ih =>
    obtain ⟨payload, hpay, h⟩ := bind_eq_ok.mp h
    obtain ⟨fr, hfr, h⟩ := bind_eq_ok.mp h
    obtain ⟨rest, hrest, h⟩ := bind_eq_ok.mp h
    obtain rfl := Except.ok.inj h
    rw [List.length_append] at hL
    have hlen := frame_length blake3 hfr
    rw [List.cons_append, wholeRecords, hpay]
    dsimp only
    rw [← hlen, if_pos (by omega), ih hrest (by omega), List.length_append, Nat.add_assoc]
    rfl

/-- The front of a consistent log is replayed. -/
lemma front_replays {base more front : List Record} {y : Val} (hc : Consistent (origin base) (base ++ more))
    (hy : Leads (origin base) (changeRecords (base ++ more)) y) (hfront : front <+: base ++ more) :
    ∃ r, replayLog front = .ok r ∧ (base <+: front → Leads (origin base) (changeRecords front) r.state) := by
  obtain ⟨after, hafter⟩ := hfront
  rw [← hafter] at hc hy
  have hfrontc : Consistent (origin base) front := hc.of_append
  obtain ⟨z, hz, -⟩ := hy
  rw [changeRecords_append, patchAll_append, bind_eq_ok] at hz
  obtain ⟨x, hx, -⟩ := hz
  have hlead : Leads (origin base) (changeRecords front) x := ⟨x, hx, rfl⟩
  by_cases hnil : front = []
  · subst hnil
    refine ⟨.empty, rfl, fun hb => ?_⟩
    obtain rfl := List.prefix_nil.mp hb
    exact .refl _
  · -- a log that does not begin with a snapshot begins with nothing
    have hnone : (∀ snap, Record.snapshot snap ∉ front) → origin base = .dict [] := by
      intro hno
      cases base with
      | nil => rfl
      | cons r base =>
        obtain ⟨r', rest, rfl⟩ := List.exists_cons_of_ne_nil hnil
        obtain ⟨rfl, -⟩ := List.cons.inj hafter
        cases r' with
        | change => rfl
        | snapshot snap => exact absurd List.mem_cons_self (hno snap)
    obtain ⟨r, hr, -⟩ := replayLog_of_consistent hfrontc hlead hnone
    exact ⟨r, hr, fun _ => leads_of_replayLog hr hfrontc hnone⟩

/-- **The front of a file of consistent records** is rejected, or replayed as the records that are whole. -/
lemma replay_front {blake3 : Bytes → Bytes → Digest} {ser : Serializer} {framer : Framer} {base more : List Record}
    {y : Val} {data : Bytes} (L : ℕ) (hr : ∀ r ∈ base ++ more, Readable ser framer r)
    (hcut : framer = .line → RejectsPrefixes ser (base ++ more))
    (h : frameRecords blake3 ser framer 0 (base ++ more) = .ok data)
    (hc : Consistent (origin base) (base ++ more)) (hy : Leads (origin base) (changeRecords (base ++ more)) y) :
    Rejected (replay blake3 ser framer (data.take L)) ∨
      ∃ r, replay blake3 ser framer (data.take L) = .ok r ∧
        (base <+: wholeRecords ser framer L 0 (base ++ more) →
          Leads (origin base) (changeRecords (wholeRecords ser framer L 0 (base ++ more))) r.state) := by
  have hcases := replay_cut L hr hcut h fun before after hsplit => by
    obtain ⟨r, hr, -⟩ := front_replays hc hy ⟨after, hsplit.symm⟩
    exact ⟨r, hr⟩
  refine hcases.imp_right fun heq => ?_
  obtain ⟨r, hr, hlead⟩ := front_replays hc hy wholeRecords_front
  exact ⟨r, heq.trans hr, hlead⟩

/-- The file is the frames of the records it held at first and of those that were appended, with a framer
that takes its seed from it. -/
lemma Located.frames_eq {framer : Framer} {file : Bytes} {base : List Record} {s : State}
    (h : Located E framer file s) (hb : Holds E framer file base) : ∃ fr, framer.Kin fr ∧
      framer.load file = .ok fr ∧
      frameRecords E.blake3 E.ser fr 0 base = .ok file ∧
      frameRecords E.blake3 E.ser fr 0 (base ++ recordsOf s.core.log) = .ok s.core.file ∧
      ∀ front, front <+: s.core.log →
        frameRecords E.blake3 E.ser fr file.length (recordsOf front) = .ok (front.flatMap Entry.bytes) := by
  obtain ⟨fr, hfr, hframes⟩ := hb.framed
  have hkin : framer.Kin fr := by
    rcases Framer.load_kind hfr with ⟨rfl, rfl⟩ | ⟨sync, sync', rfl, rfl⟩
    · trivial
    · trivial
  refine ⟨fr, hkin, hfr, hframes, ?_⟩
  rcases h.seeded with hseed | ⟨hu, -⟩
  · obtain rfl := Except.ok.inj (hseed.symm.trans hfr)
    have hfront : ∀ front, front <+: s.core.log →
        frameRecords E.blake3 E.ser s.core.framer file.length (recordsOf front) = .ok (front.flatMap Entry.bytes) := by
      rintro front ⟨rest, hrest⟩
      have hplaced := h.aligned.placed
      rw [← hrest] at hplaced
      exact frameRecords_of_placed (placed_append.mp hplaced).1
        fun entry he => h.aligned.complete entry (hrest ▸ List.mem_append_left _ he)
    refine ⟨?_, hfront⟩
    have hlog := hfront _ (List.prefix_refl _)
    rw [h.aligned.file_eq]
    exact frameRecords_append.mpr ⟨_, hframes, _, by rwa [Nat.zero_add], rfl⟩
  · have hfile : s.core.file = file := by simp [h.aligned.file_eq, hu.log]
    rw [hu.log, hfile]
    refine ⟨by rw [recordsOf, List.filterMap_nil, List.append_nil, hframes], fun front hf => ?_⟩
    obtain rfl := List.prefix_nil.mp hf
    rfl

lemma Leads.front {x y : Val} {l l' : List ChangeRecord} (h : Leads x (l ++ l') y) : ∃ z, Leads x l z := by
  obtain ⟨z, hz, -⟩ := h
  rw [patchAll_append, bind_eq_ok] at hz
  obtain ⟨z', hz', -⟩ := hz
  exact ⟨z', z', hz', rfl⟩

/-- What has been appended is the front of what has been committed. -/
lemma LevelState.changes_front {framer : Framer} {file : Bytes} {base : List Record} {s : State}
    (hs : LevelState E framer file base s) : changesOf s.core.log <+: s.core.store.committed :=
  ⟨s.core.drain.unwritten, hs.exact.exact⟩

/-- The records of the file lead somewhere. -/
lemma LevelState.leads {framer : Framer} {file : Bytes} {before base : List Record} {s : State}
    (hs : LevelState E framer file base s) (ha : Grounded E framer file before base) :
    ∃ y, Leads (origin base) (changeRecords (base ++ recordsOf s.core.log)) y := by
  rw [changeRecords_append, changeRecords_recordsOf]
  rcases hs.led with hu | hled
  · obtain ⟨x, hx⟩ := ha.leads
    exact ⟨x.val, by simpa [hu.log, changesOf] using hx⟩
  · obtain ⟨rest, hrest⟩ := hs.changes_front
    rw [← hrest, List.map_append, ← List.append_assoc] at hled
    exact hled.front

/-! ### The theorem -/

/-- **A reader lands on a state of the database**: what it has read is rejected, or its replay ends in the state
that the first `k` changes lead to, with all the changes among them that could be read when it began. -/
theorem reader_lands {ι : Type*} [DecidableEq ι] {framer fr : Framer} {file : Bytes} {base : List Record}
    {statedict : Dict} {version : ℤ} {w : World ι} {i : ι} {start got : Bytes} (ha : Accepted E framer file base)
    (h : Reach (World.step E) (World.Settled E) (World.start statedict version framer file) w)
    (hread : ∀ r ∈ base ++ recordsOf w.writer.core.log, Readable E.ser framer r)
    (hcut : framer = .line → RejectsPrefixes E.ser (base ++ recordsOf w.writer.core.log))
    (hlog : Complete w.writer.core.log) (hkin : fr.Kin framer) (hdone : w.reader i = .read start got) :
    Rejected (replay E.blake3 E.ser fr got) ∨
      ∃ k r, k ≤ w.writer.core.store.committed.length ∧
        (∀ front, front <+: w.writer.core.log → file ++ front.flatMap Entry.bytes <+: start →
          (changesOf front).length ≤ k) ∧
        replay E.blake3 E.ser fr got = .ok r ∧
        Leads (origin base)
          (changeRecords base ++ (w.writer.core.store.committed.take k).map Queued.record) r.state := by
  obtain ⟨hreach, hi⟩ := World.writer_reach h
  have hs : LevelState E framer file base w.writer :=
    invariant_of_log (P := Decodable E.ser framer) hreach (control_init ..) (.init ha.grounded)
      (fun t e t' hread' ht hstep hG => ht.step ha.grounded
        (fun r hr => (List.mem_append.mp hr).elim (fun hb => (hread r (List.mem_append_left _ hb)).1) (hread' r))
        hstep hG)
      fun r hr => (hread r (List.mem_append_right _ hr)).1
  obtain ⟨fr', hkin', hload, hbase, hframes, hfronts⟩ := (hs.located hlog).frames_eq ha.holds
  obtain ⟨y, hy⟩ := hs.leads ha.grounded
  -- the reader has a front of the file, with all that the file held at first
  have hreads := hi.reads i
  rw [hdone] at hreads
  obtain ⟨hfile, hstart, hgot⟩ := hreads
  have hprefix : got <+: w.writer.core.file := hgot.trans hi.shown
  have hL : file.length ≤ got.length := (hfile.trans hstart).length_le
  have hwhole : wholeRecords E.ser fr' got.length 0 (base ++ recordsOf w.writer.core.log) =
      base ++ wholeRecords E.ser fr' got.length file.length (recordsOf w.writer.core.log) := by
    have := wholeRecords_frames hbase (L := got.length) (by omega) (recordsOf w.writer.core.log)
    rwa [Nat.zero_add] at this
  have hreplay : replay E.blake3 E.ser fr got = replay E.blake3 E.ser fr' (w.writer.core.file.take got.length) := by
    rw [← List.prefix_iff_eq_take.mp hprefix, hkin.replay_eq, hkin'.replay_eq]
  rw [hreplay]
  have hcut' : fr' = .line → RejectsPrefixes E.ser (base ++ recordsOf w.writer.core.log) := by
    intro hline
    subst hline
    cases framer with
    | line => exact hcut rfl
    | bin => exact hkin'.elim
  have hread' : ∀ r ∈ base ++ recordsOf w.writer.core.log, Readable E.ser fr' r := fun r hr =>
    ⟨(hread r hr).1.of_load hload, (hread r hr).2⟩
  rcases replay_front got.length hread' hcut' hframes hs.consistent hy with hrej | ⟨r, hr, hlead⟩
  · exact Or.inl hrej
  · right
    rw [hwhole] at hlead
    have hlead := hlead (List.prefix_append _ _)
    -- the whole records among those that were appended
    have hpart : wholeRecords E.ser fr' got.length file.length (recordsOf w.writer.core.log) <+:
      recordsOf w.writer.core.log := wholeRecords_front
    have hbehind : ∀ front, front <+: w.writer.core.log → file ++ front.flatMap Entry.bytes <+: start →
        recordsOf front <+: wholeRecords E.ser fr' got.length file.length (recordsOf w.writer.core.log) := by
      intro front hfront hbytes
      have hlen := (hbytes.trans hstart).length_le
      rw [List.length_append] at hlen
      have hframed := hfronts front hfront
      obtain ⟨rest, hrest⟩ := hfront
      rw [← hrest, recordsOf_append, wholeRecords_frames hframed hlen]
      exact List.prefix_append _ _
    revert hlead hpart hbehind
    generalize wholeRecords E.ser fr' got.length file.length (recordsOf w.writer.core.log) = part
    intro hlead hpart hbehind
    have hchanges : changeRecords part <+: w.writer.core.store.committed.map Queued.record := by
      obtain ⟨rest, hrest⟩ := hpart
      have hsplit : changeRecords part <+: changeRecords (recordsOf w.writer.core.log) := by
        rw [← hrest, changeRecords_append]
        exact List.prefix_append _ _
      rw [changeRecords_recordsOf] at hsplit
      exact hsplit.trans (hs.changes_front.map _)
    have hk : (changeRecords part).length ≤ w.writer.core.store.committed.length := by
      simpa using hchanges.length_le
    refine ⟨(changeRecords part).length, r, hk, fun front hfront hbytes => ?_, hr, ?_⟩
    · obtain ⟨rest, hrest⟩ := hbehind front hfront hbytes
      rw [← hrest, changeRecords_append, changeRecords_recordsOf, List.length_append, List.length_map]
      exact Nat.le_add_right _ _
    · rw [changeRecords_append, List.prefix_iff_eq_take.mp hchanges, ← List.map_take] at hlead
      exact hlead

/-- Whether an event of the writer meets `Level`. -/
def World.settled (E : Env) {ι : Type*} (w : World ι) (e : Sight ι) (w' : World ι) : Bool :=
  match e with
  | .writer event => decide (Level E w.writer event w'.writer)
  | _ => true

/-- A change is appended between two chunks of a reader. -/
theorem reader_lands_beside : ∃ (w : World Unit) (start got : Bytes), w.reader () = .read start got ∧
    (recordsOf w.writer.core.log).length = 2 ∧
    (Rejected (replay (Sample.env 9).blake3 (Sample.env 9).ser .line got) ∨
      ∃ k r, k ≤ w.writer.core.store.committed.length ∧
        (∀ front, front <+: w.writer.core.log → [] ++ front.flatMap Entry.bytes <+: start →
          (changesOf front).length ≤ k) ∧
        replay (Sample.env 9).blake3 (Sample.env 9).ser .line got = .ok r ∧
        Leads (origin [])
          (changeRecords [] ++ (w.writer.core.store.committed.take k).map Queued.record) r.state) := by
  obtain ⟨w, hw, hseen⟩ := exists_reach (World.step (Sample.env 9)) (World.settled (Sample.env 9))
    (World.start .empty 0 .line [])
    [.writer Sample.opening, .writer .start, .writer (.wake (.ok Sample.ts)), .writer (.work .background .ok),
      .writer (.resume .background (.ok Sample.ts)), .writer (.work .background .ok),
      .writer (.resume .background (.ok Sample.ts)), .shows 100, .opens (), .reads () 2,
      .writer (Sample.set 2), .writer (.call 1 (.ok Sample.ts)), .writer (.work (.call 1) .ok),
      .writer (.resume (.call 1) (.ok Sample.ts)), .writer (.work (.call 1) .ok), .shows 100,
      .reads () 100, .reads () 1]
    (fun w => (match w.reader () with | .read _ _ => true | _ => false, decide (Complete w.writer.core.log),
      (recordsOf w.writer.core.log).length)) (true, true, 2) (by decide +kernel)
  obtain ⟨hread, hrest⟩ := Prod.mk.inj hseen
  obtain ⟨hcomplete, hlength⟩ := Prod.mk.inj hrest
  have hsettled : Reach _ (World.Settled (Sample.env 9)) _ w := hw.mono fun v e v' hv event he => by
    subst he
    exact of_decide_eq_true hv
  split at hread
  · next start got hr =>
    exact ⟨w, start, got, hr, hlength, reader_lands (.nil .line) hsettled (fun r _ => Sample.readable r)
      (fun _ => Sample.rejectsPrefixes _) (of_decide_eq_true hcomplete) trivial hr⟩
  · cases hread

end Kanta
