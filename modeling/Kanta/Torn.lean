import Kanta.History
import Kanta.Language
import Kanta.Lines
import Kanta.Replaylog
import Mathlib.Data.List.DropRight

/-!
# A torn tail

A crash can cut a file at any byte.  What replay makes of the cut file is either an error or the
replay of the records that are still there as a whole, unless one of the snapshots has a time
without a timestamp (`replay_torn_iff`).  A frame that the cut goes through is never taken for a
record: the binary reader misses the bytes its length announces, and the line reader meets a text
that is no document (`RejectsPrefixes`), or a snapshot line without its end.  A change line that
misses nothing but its newline counts as whole.
-/

namespace Kanta

variable {blake3 : Bytes → Bytes → Digest} {ser : Serializer} {framer : Framer}

/-! ### The records that are there as a whole -/

/-- How many bytes at the end of its frame a record can do without. -/
def Framer.spared (framer : Framer) (isSnapshot : Bool) : ℕ :=
  match framer with
  | .line => if isSnapshot then 0 else 1
  | .bin _ => 0

/-- The records whose frames, the first one at `offset`, lie within the first `L` bytes. -/
def wholeRecords (ser : Serializer) (framer : Framer) (L : ℕ) : ℕ → List Record → List Record
  | _, [] => []
  | offset, record :: records =>
    match ser.encode record with
    | .error _ => []
    | .ok payload =>
      let stop := offset + framer.frameLength record.isSnapshot payload offset
      if stop ≤ L + framer.spared record.isSnapshot then record :: wholeRecords ser framer L stop records
      else []

lemma Framer.spared_le (framer : Framer) (isSnapshot : Bool) : framer.spared isSnapshot ≤ 1 := by
  cases framer <;> cases isSnapshot <;> simp [Framer.spared]

/-- There is nothing behind the cut. -/
lemma wholeRecords_behind {L offset : ℕ} (h : L < offset) (records : List Record) :
    wholeRecords ser framer L offset records = [] := by
  cases records with
  | nil => rfl
  | cons record records =>
    rw [wholeRecords]
    split
    · rfl
    · rename_i payload _
      have h1 := frameLength_pos framer record.isSnapshot payload offset
      have h2 := framer.spared_le record.isSnapshot
      rw [if_neg (by omega)]

/-- A cut file: the frames in front of the cut, and a part of the next one. -/
inductive Cut (blake3 : Bytes → Bytes → Digest) (ser : Serializer) (framer : Framer) (offset : ℕ) :
    List Record → List Record → Bytes → Prop
  | between {before after : List Record} {items : List Item} {d : Bytes}
      (henc : List.Forall₂ (Encodes ser) before items) (h : framer.frames blake3 offset items = .ok d) :
      Cut blake3 ser framer offset (before ++ after) before d
  | within {before after : List Record} {record : Record} {items : List Item} {d payload fr p : Bytes}
      (henc : List.Forall₂ (Encodes ser) before items) (h : framer.frames blake3 offset items = .ok d)
      (hpay : ser.encode record = .ok payload) (hfit : framer.Fits (record.isSnapshot, payload))
      (hfr : framer.frame blake3 record.isSnapshot payload (offset + d.length) = .ok fr)
      (hpre : p <+: fr) (hlt : p.length < fr.length) (hne : p ≠ []) :
      Cut blake3 ser framer offset (before ++ record :: after)
        (before ++ if fr.length ≤ p.length + framer.spared record.isSnapshot then [record] else []) (d ++ p)

/-- Everything is cut off. -/
lemma Cut.nil {offset : ℕ} (records : List Record) : Cut blake3 ser framer offset records [] [] :=
  @Cut.between _ _ _ _ [] records [] [] .nil rfl

/-- One frame more in front. -/
lemma Cut.cons {offset : ℕ} {records left : List Record} {record : Record} {data fr payload : Bytes}
    (hpay : ser.encode record = .ok payload)
    (hfr : framer.frame blake3 record.isSnapshot payload offset = .ok fr)
    (h : Cut blake3 ser framer (offset + fr.length) records left data) :
    Cut blake3 ser framer offset (record :: records) (record :: left) (fr ++ data) := by
  have hitem : Encodes ser record (record.isSnapshot, payload) := ⟨rfl, hpay⟩
  cases h with
  | @between _ after items d henc h =>
    rw [← List.cons_append]
    exact .between (.cons hitem henc)
      ((frames_cons blake3).mpr ⟨fr, _, hfr, h, rfl⟩)
  | @within before after record' items d payload' fr' p henc h hpay' hfit hfr' hpre hlt hne =>
    rw [← List.append_assoc, ← List.cons_append, ← List.cons_append]
    refine .within (.cons hitem henc) ((frames_cons blake3).mpr ⟨fr, d, hfr, h, rfl⟩) hpay' hfit ?_ hpre hlt hne
    rwa [List.length_append, ← Nat.add_assoc]

/-- Every cut is one of the two kinds. -/
lemma cut_take {records : List Record} {items : List Item} {data : Bytes} {offset L : ℕ}
    (hfit : ∀ i ∈ items, framer.Fits i) (henc : List.Forall₂ (Encodes ser) records items)
    (h : framer.frames blake3 offset items = .ok data) (hL : offset ≤ L) :
    Cut blake3 ser framer offset records (wholeRecords ser framer L offset records)
      (data.take (L - offset)) := by
  induction henc generalizing data offset with
  | nil =>
    obtain rfl : [] = data := Except.ok.inj h
    rw [List.take_nil]
    exact Cut.nil []
  | @cons record item records items hri henc ih =>
    rw [List.forall_mem_cons] at hfit
    obtain ⟨isSnapshot, payload⟩ := item
    obtain ⟨hkind, hpay⟩ := hri
    obtain rfl : isSnapshot = record.isSnapshot := hkind
    have hpay : ser.encode record = .ok payload := hpay
    obtain ⟨fr, rest, hfr, hrest, rfl⟩ := (frames_cons blake3).mp h
    have hlen := frame_length blake3 hfr
    have hspared := framer.spared_le record.isSnapshot
    rw [wholeRecords, hpay]
    dsimp only at hlen ⊢
    rw [← hlen]
    by_cases hstop : offset + fr.length ≤ L
    · -- the first frame is whole
      have hdata : (fr ++ rest).take (L - offset) = fr ++ rest.take (L - (offset + fr.length)) := by
        rw [List.take_append, List.take_of_length_le (by omega), Nat.sub_sub]
      rw [if_pos (by omega), hdata]
      exact (ih hfit.2 hrest hstop).cons hpay hfr
    · -- the cut goes through the first frame
      have hdata : (fr ++ rest).take (L - offset) = fr.take (L - offset) :=
        List.take_append_of_le_length (by omega)
      have hplen : (fr.take (L - offset)).length = L - offset := by
        rw [List.length_take]
        omega
      rw [hdata, wholeRecords_behind (by omega)]
      by_cases hpart : fr.take (L - offset) = []
      · -- a frame takes more than a byte
        have h2 : 2 ≤ fr.length := by
          rw [hlen]
          cases framer with
          | line =>
            have : 0 < payload.length := List.length_pos_of_ne_nil hfit.1.not_empty
            simp only [Framer.frameLength]
            omega
          | bin sync =>
            simp only [Framer.frameLength]
            omega
        rw [hpart, List.length_nil] at hplen
        rw [if_neg (by omega), hpart]
        exact Cut.nil _
      · have hwithin : Cut blake3 ser framer offset (record :: records)
            ([] ++ if fr.length ≤ (fr.take (L - offset)).length + framer.spared record.isSnapshot
              then [record] else []) ([] ++ fr.take (L - offset)) :=
          @Cut.within _ _ _ _ [] records record [] [] _ _ _ .nil rfl hpay hfit.1 hfr (List.take_prefix _ _) (by omega) hpart
        rw [List.nil_append, List.nil_append, hplen] at hwithin
        by_cases hs : offset + fr.length ≤ L + framer.spared record.isSnapshot
        · rwa [if_pos (by omega)] at hwithin ⊢
        · rwa [if_neg (by omega)] at hwithin ⊢

/-! ### A torn binary frame -/

/-- `ReplayError` is raised. -/
def Rejected {α : Type} (x : Except Exc α) : Prop :=
  ∃ message lineNumber bytePos recordType,
    x = .error (.replayError message lineNumber bytePos recordType)

/-- The binary reader does not take a part of a frame. -/
lemma binLoop_part {sync : Sync} {isSnapshot : Bool} {payload fr p : Bytes} {pos : ℕ} (hpos : pos ≠ 0)
    (hfr : (Framer.bin sync).frame blake3 isSnapshot payload pos = .ok fr) (hpre : p <+: fr)
    (hlt : p.length < fr.length) (hne : p ≠ []) (fuel : ℕ) :
    ∃ recordType, binLoop blake3 sync (fuel + 1) p pos =
      .fail (.replayError "incomplete frame at end of file" (some 0) (some pos) recordType) := by
  obtain ⟨sum, len, hsum, hlen, hparts⟩ := frame_bin blake3 hfr
  rw [if_neg hpos, List.nil_append] at hparts
  have h2 := toBytes_length hlen
  have h3 := marker_length sync isSnapshot
  have hfrlen : fr.length = 16 + payload.length := by
    rw [frame_length blake3 hfr, Framer.frameLength, if_neg hpos, Nat.zero_add]
  obtain ⟨q, rfl⟩ := hpre
  rw [binLoop, if_neg hne]
  by_cases h4 : p.length < 4
  · exact ⟨none, if_pos h4⟩
  · rw [if_neg h4]
    -- the marker is whole
    have hmark : p.take 4 = sync.marker isSnapshot := by
      have hfront : (p ++ q).take 4 = p.take 4 := List.take_append_of_le_length (by omega)
      rw [← hfront, hparts, List.append_assoc, List.append_assoc, List.take_left' h3]
    have hnot : ¬(p.take 4 ≠ sync.marker true ∧ p.take 4 ≠ sync.marker false) := by
      rw [hmark]
      cases isSnapshot <;> simp
    rw [if_neg hnot]
    dsimp only
    by_cases h16 : p.length < 16
    · exact ⟨_, if_pos h16⟩
    · rw [if_neg h16]
      -- and so is the length
      have hlength : fromBytes ((p.drop 4).take 4) = payload.length := by
        have hsplit : (p.drop 4).take 4 = ((p ++ q).drop 4).take 4 := by
          rw [List.drop_append_of_le_length (by omega), List.take_append_of_le_length (by simp; omega)]
        rw [hsplit, hparts, List.append_assoc, List.append_assoc, List.drop_left' h3, List.take_left' h2,
          fromBytes_toBytes hlen]
      rw [hlength]
      exact ⟨_, if_pos (by omega)⟩

/-- A binary file that the reader fails on is rejected. -/
lemma replay_of_binLoop_error {sync seed : Sync} {body : Bytes} {e : Exc}
    (h : (binLoop blake3 seed (seed.bytes ++ body).length body 4).error = some e) :
    replay blake3 ser (.bin sync) (seed.bytes ++ body) = .error e := by
  have hne := seed.append_ne_nil body
  have hscan : (Framer.bin sync).scanLastSnapshot blake3 (seed.bytes ++ body) = .error e := by
    rw [Framer.scanLastSnapshot, if_neg hne, load_bin]
    simp only [bind, Except.bind, List.drop_left' seed.length_eq, h]
  rw [replay, hscan]
  rfl

/-- A file that holds a seed and nothing else. -/
lemma replay_seed {sync seed : Sync} :
    replay blake3 ser (.bin sync) seed.bytes = .ok .empty := by
  have hload : (Framer.bin sync).load (seed.bytes ++ []) = .ok (.bin seed) := load_bin []
  rw [List.append_nil] at hload
  have hne : seed.bytes ≠ [] := by
    intro h
    have := seed.length_eq
    simp [h] at this
  have hdrop : seed.bytes.drop 4 = [] := List.drop_eq_nil_of_le (by rw [seed.length_eq])
  rw [replay, Framer.scanLastSnapshot, if_neg hne, hload]
  simp only [bind, Except.bind, hdrop, binLoop_nil, List.foldl_nil, Framer.iterRecords, if_neg hne, hload,
    show (4 : ℕ) ≠ 0 by decide, if_false, List.map_nil, List.foldlM_nil, pure, Except.pure]

/-- The seed in front does not change what is whole. -/
lemma wholeRecords_seed {sync : Sync} {L : ℕ} {records : List Record} :
    wholeRecords ser (.bin sync) L 0 records = wholeRecords ser (.bin sync) L 4 records := by
  cases records with
  | nil => rfl
  | cons record records =>
    have hstop : ∀ payload, 0 + (Framer.bin sync).frameLength record.isSnapshot payload 0 =
        4 + (Framer.bin sync).frameLength record.isSnapshot payload 4 := by
      intro payload
      simp only [Framer.frameLength, if_true, show (4 : ℕ) ≠ 0 by decide, if_false]
      omega
    rw [wholeRecords, wholeRecords]
    split
    · rfl
    · dsimp only
      rw [hstop]

/-- **A cut binary file.** -/
theorem replay_cut_bin {sync : Sync} {records : List Record} {data : Bytes} (L : ℕ)
    (hr : ∀ r ∈ records, Decodable ser (.bin sync) r)
    (h : frameRecords blake3 ser (.bin sync) 0 records = .ok data) :
    Rejected (replay blake3 ser (.bin sync) (data.take L)) ∨
      replay blake3 ser (.bin sync) (data.take L) =
        (timestampOf ser (lastSnapshot (wholeRecords ser (.bin sync) L 0 records)).1 >>= fun _ =>
          replayLog (wholeRecords ser (.bin sync) L 0 records)) := by
  obtain ⟨items, henc, hdata⟩ := frameRecords_iff.mp h
  have hfit := fits_of_encodes hr henc
  by_cases hitems : items = []
  · subst hitems
    cases henc
    obtain rfl : [] = data := Except.ok.inj hdata
    rw [List.take_nil]
    exact Or.inr rfl
  · obtain ⟨body, rfl, hbody⟩ := frames_zero blake3 hitems hdata
    rw [wholeRecords_seed]
    by_cases hL : 4 ≤ L
    · have htake : (sync.bytes ++ body).take L = sync.bytes ++ body.take (L - 4) := by
        rw [List.take_append, List.take_of_length_le (by rw [sync.length_eq]; exact hL), sync.length_eq]
      rw [htake]
      have hcut := cut_take hfit henc hbody hL
      revert hcut
      generalize wholeRecords ser (.bin sync) L 4 records = left
      generalize body.take (L - 4) = part
      intro hcut
      cases hcut with
      | @between _ after items d henc' h' =>
        right
        by_cases hi : items = []
        · subst hi
          cases henc'
          obtain rfl : [] = part := Except.ok.inj h'
          rw [List.append_nil, replay_seed]
          rfl
        · exact replay_frames (fun i _ => trivial)
            (decodes_of_encodes (fun r hr' => (hr r (List.mem_append_left _ hr')).1) henc')
            (frames_seed blake3 hi h')
      | @within before after record items d payload fr p henc' h' hpay _ hfr hpre hlt hne =>
        left
        have hlen := length_le_of_frames blake3 h'
        have hp := List.length_pos_of_ne_nil hne
        have hloop := binLoop_frames blake3 (by decide) h' p ((sync.bytes ++ (d ++ p)).length - items.length)
        rw [Nat.sub_add_cancel (by simp; omega)] at hloop
        obtain ⟨recordType, hpart⟩ := binLoop_part (by omega) hfr hpre hlt hne
          ((sync.bytes ++ (d ++ p)).length - items.length - 1)
        rw [Nat.sub_add_cancel (by simp; omega)] at hpart
        refine ⟨"incomplete frame at end of file", some 0, some (4 + d.length), recordType,
          replay_of_binLoop_error ?_⟩
        rw [hloop, hpart]
        rfl
    · rw [wholeRecords_behind (by omega)]
      have htake : (sync.bytes ++ body).take L = sync.bytes.take L :=
        List.take_append_of_le_length (by rw [sync.length_eq]; omega)
      rw [htake]
      by_cases h0 : L = 0
      · subst h0
        exact Or.inr rfl
      · left
        have hlen : (sync.bytes.take L).length = L := by
          rw [List.length_take, sync.length_eq]
          omega
        have hne : sync.bytes.take L ≠ [] := by
          intro h
          rw [h, List.length_nil] at hlen
          omega
        refine ⟨"missing binary sync header", some 0, some 0, none, ?_⟩
        rw [replay, Framer.scanLastSnapshot, if_neg hne, Framer.load, if_neg hne, dif_pos (by omega)]
        rfl

/-! ### A torn line -/

/-- What the JSON decoder rejects: a part of a change, and the first letters of a snapshot line. -/
structure RejectsPrefixes (ser : Serializer) (records : List Record) : Prop where
  change : ∀ c, .change c ∈ records → ∀ payload p, ser.encodeChange c = .ok payload → p <+: payload →
    p ≠ payload → ser.decodeChange p = .error .decodeError
  mark : ∀ p, p <+: snapshotPrefix → p ≠ [] → ser.decodeChange p = .error .decodeError

lemma strip_of_head {b : UInt8} {p : Bytes} (hb : isSpace b = false) :
    strip (b :: p) = (b :: p).rdropWhile isSpace := by
  rw [strip, List.dropWhile_cons_of_neg (by simp [hb])]
  rfl

/-- A payload of the line framer does not begin with a space. -/
lemma head_of_strip {b : UInt8} {p : Bytes} (h : strip (b :: p) = b :: p) : isSpace b = false := by
  by_contra hb
  rw [Bool.not_eq_false] at hb
  have hlen := congrArg List.length h
  rw [strip, List.dropWhile_cons_of_pos hb, List.length_reverse, List.length_cons] at hlen
  have h1 := (List.dropWhile_sublist (l := (p.dropWhile isSpace).reverse) isSpace).length_le
  have h2 := (List.dropWhile_sublist (l := p) isSpace).length_le
  rw [List.length_reverse] at h1
  omega

/-- What the reader makes of a part of a payload is a part of it, too. -/
lemma strip_part {payload p : Bytes} (hstrip : strip payload = payload) (hpre : p <+: payload)
    (hne : p ≠ []) : strip p <+: p ∧ strip p ≠ [] := by
  obtain ⟨b, p, rfl⟩ := List.exists_cons_of_ne_nil hne
  obtain ⟨q, rfl⟩ := hpre
  rw [List.cons_append] at hstrip
  have hb := head_of_strip hstrip
  rw [strip_of_head hb]
  refine ⟨?_, ?_⟩
  · exact List.rdropWhile_prefix _ _
  · intro h
    have := List.rdropWhile_eq_nil_iff.mp h b (by simp)
    simp [hb] at this

/-- The first letters of a snapshot line do not end in a space. -/
lemma strip_snapshotPrefix {p : Bytes} (hpre : p <+: snapshotPrefix) (hmark : snapshotPrefix.isPrefixOf p = false) :
    strip p = p := by
  have hlt : p.length < 9 := by
    rcases Nat.lt_or_ge p.length 9 with h9 | h9
    · exact h9
    · rw [hpre.eq_of_length (Nat.le_antisymm hpre.length_le h9)] at hmark
      exact absurd hmark (by decide)
  have hp : p = snapshotPrefix.take p.length := List.prefix_iff_eq_take.mp hpre
  have hall : ∀ n < 9, strip (snapshotPrefix.take n) = snapshotPrefix.take n := by decide
  rw [hp]
  exact hall _ hlt

/-- What the lines in front of a rest raise is raised with it. -/
lemma replay_rest_error {d t : Bytes} {e : Exc} (hd : Lines d) (ht : newline ∉ t)
    (hmark : snapshotPrefix.isPrefixOf t = false) (hr : replay blake3 ser .line d = .error e) :
    replay blake3 ser .line (d ++ t) = .error e := by
  have hlast : lastSnapshotLine t = none := by
    rw [lastSnapshotLine_rest ht, hmark]
    rfl
  rw [replay_line_append hd hlast, hr]
  rfl

/-- A rest that is no record is rejected. -/
lemma rejected_rest {d t : Bytes} {r : ReplayResult} (hd : Lines d) (ht : newline ∉ t)
    (hmark : snapshotPrefix.isPrefixOf t = false) (hr : replay blake3 ser .line d = .ok r)
    (hne : strip t ≠ []) (hkind : snapshotPrefix.isPrefixOf (strip t) = false)
    (hdec : ser.decodeChange (strip t) = .error .decodeError) :
    Rejected (replay blake3 ser .line (d ++ t)) := by
  have hlast : lastSnapshotLine t = none := by
    rw [lastSnapshotLine_rest ht, hmark]
    rfl
  refine ⟨"invalid record", some (d.count newline + 1), some d.length, some "change", ?_⟩
  rw [replay_line_append hd hlast, hr, lineRecords_rest ht, readLine, if_neg hne, hkind]
  simp [replayRecord, hdec, bind, Except.bind]

/-- A snapshot line that breaks off is rejected. -/
lemma rejected_snapshot_part {d p payload : Bytes} {r : ReplayResult}
    (hmarks : ∀ p, p <+: snapshotPrefix → p ≠ [] → ser.decodeChange p = .error .decodeError) (hd : Lines d)
    (hnl : newline ∉ p) (hr : replay blake3 ser .line d = .ok r) (hne : p ≠ [])
    (hpre : p <+: snapshotPrefix ++ payload) : Rejected (replay blake3 ser .line (d ++ p)) := by
  by_cases hmark : snapshotPrefix.isPrefixOf p = true
  · exact ⟨_, _, _, _, replay_line_torn hd hnl hmark⟩
  · -- the first letters of a snapshot line
    rw [Bool.not_eq_true] at hmark
    have hp : p <+: snapshotPrefix := by
      rcases List.prefix_or_prefix_of_prefix hpre (List.prefix_append snapshotPrefix payload) with hp | hp
      · exact hp
      · rw [List.isPrefixOf_iff_prefix.mpr hp] at hmark
        exact absurd hmark (by simp)
    have hstrip := strip_snapshotPrefix hp hmark
    refine rejected_rest hd hnl hmark hr (hstrip.symm ▸ hne) (hstrip.symm ▸ hmark) ?_
    rw [hstrip]
    exact hmarks p hp hne

/-- A change that breaks off is rejected. -/
lemma rejected_change_part {d p payload : Bytes} {r : ReplayResult} (hd : Lines d) (hnl : newline ∉ p)
    (hr : replay blake3 ser .line d = .ok r) (hstrip : strip payload = payload)
    (hmarked : snapshotPrefix.isPrefixOf payload = false)
    (hparts : ∀ p, p <+: payload → p ≠ payload → ser.decodeChange p = .error .decodeError) (hne : p ≠ [])
    (hpre : p <+: payload) (hpart : p ≠ payload) : Rejected (replay blake3 ser .line (d ++ p)) := by
  have hmark : ∀ q, q <+: payload → snapshotPrefix.isPrefixOf q = false := by
    intro q hq
    by_contra hm
    rw [Bool.not_eq_false, List.isPrefixOf_iff_prefix] at hm
    rw [List.isPrefixOf_iff_prefix.mpr (hm.trans hq)] at hmarked
    exact absurd hmarked (by simp)
  obtain ⟨hstripped, hsne⟩ := strip_part hstrip hpre hne
  have hsp : strip p <+: payload := hstripped.trans hpre
  have hsne' : strip p ≠ payload := by
    intro he
    apply hpart
    apply hpre.eq_of_length
    have h1 := hstripped.length_le
    have h2 := hpre.length_le
    rw [he] at h1
    omega
  exact rejected_rest hd hnl (hmark p hpre) hr hsne (hmark _ hsp) (hparts _ hsp hsne')

/-- A change whose newline is missing is replayed like any other. -/
lemma replay_unterminated {d payload : Bytes} {c : ChangeRecord} (hd : Lines d) (hnl : newline ∉ payload)
    (hstrip : strip payload = payload) (hmarked : snapshotPrefix.isPrefixOf payload = false) (hne : payload ≠ [])
    (hdec : ser.decodeChange payload = .ok c) :
    replay blake3 ser .line (d ++ payload) = replay blake3 ser .line d >>= fun r => r.applyChange c := by
  have hlast : lastSnapshotLine payload = none := by
    rw [lastSnapshotLine_rest hnl, hmarked]
    rfl
  rw [replay_line_append hd hlast, lineRecords_rest hnl, readLine, hstrip, if_neg hne, hmarked]
  simp only [Bool.false_eq_true, if_false, List.foldlM_cons, List.foldlM_nil, bind_pure]
  exact bind_congr fun r => replayRecord_change rfl hdec r

/-- A snapshot that is cut is not whole, so that the last one is in front of the cut. -/
lemma lastSnapshot_spared (before : List Record) (record : Record) {size cut : ℕ} (hlt : cut < size) :
    (lastSnapshot (before ++ if size ≤ cut + Framer.line.spared record.isSnapshot then [record] else [])).1 =
      (lastSnapshot before).1 := by
  split
  · rename_i hle
    cases record with
    | snapshot snap =>
      have hspared : Framer.line.spared (Record.isSnapshot (.snapshot snap)) = 0 := rfl
      omega
    | change c =>
      have hchanges := lastSnapshot_changes before [c]
      rw [List.map_singleton] at hchanges
      rw [hchanges]
  · rw [List.append_nil]

/-- **A cut text file.** -/
theorem replay_cut_line {records : List Record} {data : Bytes} (L : ℕ)
    (hr : ∀ r ∈ records, Decodable ser .line r) (hcut : RejectsPrefixes ser records)
    (h : frameRecords blake3 ser .line 0 records = .ok data)
    (hok : ∀ before after, records = before ++ after → ∃ r, replayLog before = .ok r) :
    Rejected (replay blake3 ser .line (data.take L)) ∨
      replay blake3 ser .line (data.take L) =
        (timestampOf ser (lastSnapshot (wholeRecords ser .line L 0 records)).1 >>= fun _ =>
          replayLog (wholeRecords ser .line L 0 records)) := by
  obtain ⟨items, henc, hdata⟩ := frameRecords_iff.mp h
  have hcut' := cut_take (fits_of_encodes hr henc) henc hdata (Nat.zero_le L)
  rw [Nat.sub_zero] at hcut'
  revert hcut'
  generalize wholeRecords ser .line L 0 records = left
  generalize data.take L = part
  intro hcut'
  have hframes : ∀ {before : List Record} {items : List Item} {d : Bytes}, (∀ r ∈ before, r ∈ records) →
      List.Forall₂ (Encodes ser) before items → Framer.line.frames blake3 0 items = .ok d →
        replay blake3 ser .line d =
          (timestampOf ser (lastSnapshot before).1 >>= fun _ => replayLog before) ∧ Lines d := by
    intro before items d hmem henc' h'
    have hr' : ∀ r ∈ before, Decodable ser .line r := fun r hb => hr r (hmem r hb)
    have hfit := fits_of_encodes hr' henc'
    exact ⟨replay_frames hfit (decodes_of_encodes (fun r hb => (hr' r hb).1) henc') h', .of_frames hfit h'⟩
  cases hcut' with
  | @between _ after items d henc' h' =>
    exact Or.inr (hframes (fun r hb => List.mem_append_left _ hb) henc' h').1
  | @within before after record items d payload fr p henc' h' hpay hfit hfr hpre hlt hne =>
    obtain ⟨hreplay, hlines⟩ := hframes (fun r hb => List.mem_append_left _ hb) henc' h'
    obtain ⟨r, hrbefore⟩ := hok before (record :: after) rfl
    obtain rfl : lineOf (record.isSnapshot, payload) ++ [newline] = fr := Except.ok.inj hfr
    -- the newline is not there
    have hpl : p <+: lineOf (record.isSnapshot, payload) := by
      rcases List.prefix_concat_iff.mp hpre with rfl | hp
      · exact absurd hlt (Nat.lt_irrefl _)
      · exact hp
    have hnl : newline ∉ p := fun hm => newline_notMem_lineOf hfit (hpl.subset hm)
    have hfrlen : (lineOf (record.isSnapshot, payload) ++ [newline]).length =
        (lineOf (record.isSnapshot, payload)).length + 1 := by simp
    rw [lastSnapshot_spared before record hlt]
    rw [hrbefore] at hreplay
    cases htime : timestampOf ser (lastSnapshot before).1 with
    | error e =>
      rw [htime] at hreplay
      by_cases hmark : snapshotPrefix.isPrefixOf p = true
      · exact Or.inl ⟨_, _, _, _, replay_line_torn hlines hnl hmark⟩
      · rw [Bool.not_eq_true] at hmark
        exact Or.inr (replay_rest_error hlines hnl hmark hreplay)
    | ok _ =>
      rw [htime] at hreplay
      have hreplay : replay blake3 ser .line d = .ok r := hreplay
      cases record with
      | snapshot snap => exact Or.inl (rejected_snapshot_part hcut.mark hlines hnl hreplay hne hpl)
      | change c =>
        have hlineOf : lineOf (Record.isSnapshot (.change c), payload) = payload := rfl
        have hstrip : strip payload = payload := hfit.stripped
        have hmarked : snapshotPrefix.isPrefixOf payload = false := hfit.marked rfl
        rw [hlineOf] at hpl hfrlen
        have hspared : Framer.line.spared (Record.isSnapshot (.change c)) = 1 := rfl
        by_cases hwhole : p = payload
        · -- only the newline is missing
          right
          subst hwhole
          obtain ⟨c', he, hdec⟩ := Decodes.change ⟨rfl, (hr (.change c) (by simp)).1 p hpay⟩
          obtain rfl := Record.change.inj he
          have hadd := replayLog_changes before [c]
          rw [List.map_singleton, hrbefore] at hadd
          rw [hlineOf, hspared, if_pos (by omega), hadd, replay_unterminated hlines hnl hstrip hmarked hne hdec,
            hreplay]
          simp only [bind, Except.bind, List.foldlM_cons, List.foldlM_nil]
          cases r.applyChange c <;> rfl
        · exact Or.inl (rejected_change_part hlines hnl hreplay hstrip hmarked
            (fun q hq => hcut.change c (by simp) payload q hpay hq) hne hpl hwhole)

/-! ### The theorem -/

lemma foldRecords_front {before after : List Record} {r : ReplayResult}
    (h : foldRecords (before ++ after) = .ok r) : ∃ r', foldRecords before = .ok r' := by
  rw [foldRecords, List.foldlM_append, bind_eq_ok] at h
  obtain ⟨r', hr', -⟩ := h
  exact ⟨r', hr'⟩

/-- What is whole is the front of the log. -/
lemma wholeRecords_front {L offset : ℕ} {records : List Record} :
    wholeRecords ser framer L offset records <+: records := by
  induction records generalizing offset with
  | nil => exact List.prefix_refl _
  | cons record records ih =>
    rw [wholeRecords]
    split
    · exact List.nil_prefix
    · dsimp only
      split
      · exact List.cons_prefix_cons.mpr ⟨rfl, ih⟩
      · exact List.nil_prefix

/-- A cut file of records that replay takes, with either framer. -/
lemma replay_cut {records : List Record} {data : Bytes} (L : ℕ) (hr : ∀ r ∈ records, Readable ser framer r)
    (hcut : framer = .line → RejectsPrefixes ser records)
    (h : frameRecords blake3 ser framer 0 records = .ok data)
    (hok : ∀ before after, records = before ++ after → ∃ r, replayLog before = .ok r) :
    Rejected (replay blake3 ser framer (data.take L)) ∨
      replay blake3 ser framer (data.take L) = replayLog (wholeRecords ser framer L 0 records) := by
  have htime : timestampOf ser (lastSnapshot (wholeRecords ser framer L 0 records)).1 = .ok () :=
    timestampOf_timed fun r hw => (hr r (wholeRecords_front.subset hw)).2
  have hdec : ∀ r ∈ records, Decodable ser framer r := fun r hm => (hr r hm).1
  have hcases : Rejected (replay blake3 ser framer (data.take L)) ∨
      replay blake3 ser framer (data.take L) =
        (timestampOf ser (lastSnapshot (wholeRecords ser framer L 0 records)).1 >>= fun _ =>
          replayLog (wholeRecords ser framer L 0 records)) := by
    cases framer with
    | line => exact replay_cut_line L hdec (hcut rfl) h hok
    | bin sync => exact replay_cut_bin L hdec h
  rwa [htime] at hcases

/-- The state of a log with consistent snapshots is where its changes lead. -/
lemma leads_of_replayLog {x : Val} {records : List Record} {r : ReplayResult}
    (h : replayLog records = .ok r) (hc : Consistent x records)
    (hnone : (∀ snap, Record.snapshot snap ∉ records) → x = .dict []) :
    Leads x (changeRecords records) r.state := by
  rcases records_split records with ⟨changes, rfl, hl⟩ | ⟨before, snap, changes, rfl, hl⟩
  · obtain rfl := hnone (by simp)
    rw [replayLog, hl] at h
    rw [changeRecords_map]
    exact ⟨r.state, patchAll_of_foldlM h, rfl⟩
  · rw [replayLog, hl] at h
    have hrest : Leads snap.state.val changes r.state := ⟨r.state, patchAll_of_foldlM h, rfl⟩
    rw [changeRecords_split]
    exact (hc before snap _ rfl).append hrest

/-- A torn tail yields no wrong state where every snapshot has its timestamp. -/
lemma replay_torn {records : List Record} {data : Bytes} {total : ReplayResult} (L : ℕ)
    (hr : ∀ r ∈ records, Readable ser framer r) (hcut : framer = .line → RejectsPrefixes ser records)
    (h : frameRecords blake3 ser framer 0 records = .ok data) (hfold : foldRecords records = .ok total) :
    Rejected (replay blake3 ser framer (data.take L)) ∨
      ∃ r r', replay blake3 ser framer (data.take L) = .ok r ∧
        foldRecords (wholeRecords ser framer L 0 records) = .ok r' ∧ r'.Alike r ∧
        (Consistent (origin records) records → wholeRecords ser framer L 0 records ≠ [] →
          Leads (origin records) (changeRecords (wholeRecords ser framer L 0 records)) r.state) := by
  have hok : ∀ before after, records = before ++ after → ∃ r, replayLog before = .ok r := by
    rintro before after rfl
    obtain ⟨r', hr'⟩ := foldRecords_front hfold
    obtain ⟨r, hr, -⟩ := replayLog_of_foldRecords hr'
    exact ⟨r, hr⟩
  rcases replay_cut L hr hcut h hok with hrej | heq
  · exact Or.inl hrej
  · right
    obtain ⟨after, hafter⟩ : wholeRecords ser framer L 0 records <+: records := wholeRecords_front
    generalize wholeRecords ser framer L 0 records = left at *
    subst hafter
    obtain ⟨r', hr'⟩ := foldRecords_front hfold
    obtain ⟨r, hr, halike⟩ := replayLog_of_foldRecords hr'
    refine ⟨r, r', heq.trans hr, hr', halike, ?_⟩
    intro hc hne
    refine leads_of_replayLog hr hc.of_append ?_
    intro hnone
    -- a log that does not begin with a snapshot begins with nothing
    obtain ⟨record, rest, hcons⟩ := List.exists_cons_of_ne_nil hne
    rw [hcons]
    cases record with
    | change c => rfl
    | snapshot snap => exact absurd (by rw [hcons]; simp) (hnone snap)

/-- What the timestamp of a snapshot raises is raised behind its frame, and is no `ReplayError`. -/
lemma replay_untimed {records : List Record} {data : Bytes} {snap : Snapshot}
    (hr : ∀ r ∈ records, Decodable ser framer r) (h : frameRecords blake3 ser framer 0 records = .ok data)
    (hsnap : .snapshot snap ∈ records) (hraise : snap.ts.timestamp ser.localTime ≠ .ok ()) :
    ∃ L e, replay blake3 ser framer (data.take L) = .error e ∧ e.isDatabaseError = false := by
  obtain ⟨before, after, rfl⟩ := List.append_of_mem hsnap
  have hfront : before ++ .snapshot snap :: after = (before ++ [.snapshot snap]) ++ after := by simp
  rw [hfront] at h hr
  obtain ⟨d, hd, d', -, rfl⟩ := frameRecords_append.mp h
  have hr' : ∀ r ∈ before ++ [.snapshot snap], Decodable ser framer r := fun r hm =>
    hr r (List.mem_append_left _ hm)
  obtain ⟨items, henc, hframes⟩ := frameRecords_iff.mp hd
  have hreplay := replay_frames (fits_of_encodes hr' henc) (decodes_of_encodes (fun r hm => (hr' r hm).1) henc)
    hframes
  cases htime : snap.ts.timestamp ser.localTime with
  | ok => exact absurd htime hraise
  | error e =>
    refine ⟨d.length, e, ?_, ?_⟩
    · rw [List.take_left' rfl, hreplay, lastSnapshot_snapshot, timestampOf, htime]
      rfl
    · unfold DateTime.timestamp at htime
      split at htime
      · simp at htime
      · exact ser.localTime.foreign _ _ htime

/-- **A torn tail never yields a wrong state**, exactly when every snapshot has a timestamp. -/
theorem replay_torn_iff {records : List Record} {data : Bytes} {total : ReplayResult}
    (hr : ∀ r ∈ records, Decodable ser framer r) (hcut : framer = .line → RejectsPrefixes ser records)
    (h : frameRecords blake3 ser framer 0 records = .ok data) (hfold : foldRecords records = .ok total) :
    (∀ L, Rejected (replay blake3 ser framer (data.take L)) ∨
      ∃ r r', replay blake3 ser framer (data.take L) = .ok r ∧
        foldRecords (wholeRecords ser framer L 0 records) = .ok r' ∧ r'.Alike r ∧
        (Consistent (origin records) records → wholeRecords ser framer L 0 records ≠ [] →
          Leads (origin records) (changeRecords (wholeRecords ser framer L 0 records)) r.state)) ↔
    ∀ snap, .snapshot snap ∈ records → snap.ts.timestamp ser.localTime = .ok () := by
  constructor
  · intro hall snap hsnap
    by_contra hraise
    obtain ⟨L, e, hreplay, hforeign⟩ := replay_untimed hr h hsnap hraise
    rcases hall L with ⟨_, _, _, _, hrej⟩ | ⟨r, _, hok, -⟩
    · obtain rfl := Except.error.inj (hreplay.symm.trans hrej)
      simp [Exc.isDatabaseError] at hforeign
    · rw [hreplay] at hok
      simp at hok
  · intro htimed L
    refine replay_torn L (fun r hm => ⟨hr r hm, ?_⟩) hcut h hfold
    cases r with
    | change => trivial
    | snapshot snap => exact htimed snap hm

/-! ### A small file -/

namespace Sample

lemma mem_of_decode {α : Type} {E : α → Except Exc Bytes} {records : List α} {payload : Bytes} {r : α}
    (h : decode E records payload = .ok r) : r ∈ records ∧ E r = .ok payload := by
  unfold decode at h
  split at h
  · rename_i r' hr'
    obtain rfl := Except.ok.inj h
    have hp : (E r').toOption = some payload := by simpa using List.find?_some hr'
    refine ⟨List.mem_of_find?_eq_some hr', ?_⟩
    cases he : E r' with
    | ok q =>
      rw [he] at hp
      rw [Option.some.inj hp]
    | error e =>
      rw [he] at hp
      simp [Except.toOption] at hp
  · simp at h

/-- The decoder fails in one way only. -/
lemma decode_cases {α : Type} (E : α → Except Exc Bytes) (records : List α) (payload : Bytes) :
    (∃ r, decode E records payload = .ok r) ∨ decode E records payload = .error .decodeError := by
  unfold decode
  split
  · exact Or.inl ⟨_, rfl⟩
  · exact Or.inr rfl

/-- No payload of the sample begins another one. -/
lemma changes_alone : ∀ c ∈ changes, ∀ c' ∈ changes, ∀ p q, encodeChange c = .ok p → encodeChange c' = .ok q →
    p <+: q → p = q := by
  have hall : ∀ p ∈ changes.filterMap fun c => (encodeChange c).toOption,
      ∀ q ∈ changes.filterMap fun c => (encodeChange c).toOption, p.isPrefixOf q = true → p = q := by
    decide +kernel
  intro c hc c' hc' p q hp hq hpq
  exact hall p (List.mem_filterMap.mpr ⟨c, hc, congrArg Except.toOption hp⟩) q
    (List.mem_filterMap.mpr ⟨c', hc', congrArg Except.toOption hq⟩) (List.isPrefixOf_iff_prefix.mpr hpq)

lemma rejects_mark {p : Bytes} (hp : p <+: snapshotPrefix) (hne : p ≠ []) :
    Sample.ser.decodeChange p = .error .decodeError := by
  have hp' : p = snapshotPrefix.take p.length := List.prefix_iff_eq_take.mp hp
  have hlen : p.length ≤ 9 := hp.length_le
  have hall : ∀ n ≤ 9, n ≠ 0 → ∀ q ∈ changes.filterMap fun c => (encodeChange c).toOption,
      q ≠ snapshotPrefix.take n := by decide +kernel
  rcases decode_cases encodeChange changes p with ⟨c, hc⟩ | h
  · obtain ⟨hmem, he⟩ := mem_of_decode hc
    exact absurd hp' (hall _ hlen (by simpa using hne) p
      (List.mem_filterMap.mpr ⟨c, hmem, congrArg Except.toOption he⟩))
  · exact h

lemma rejects_part {c : ChangeRecord} {payload p : Bytes} (hpay : encodeChange c = .ok payload)
    (hp : p <+: payload) (hne : p ≠ payload) : Sample.ser.decodeChange p = .error .decodeError := by
  rcases decode_cases encodeChange changes p with ⟨c', hc'⟩ | h
  · obtain ⟨hmem, he⟩ := mem_of_decode hc'
    exact absurd (changes_alone c' hmem c (mem_changes hpay) p payload he hpay hp) hne
  · exact h

lemma rejectsPrefixes (records : List Record) : RejectsPrefixes Sample.ser records where
  change := fun _ _ _ _ hpay hp hne => rejects_part hpay hp hne
  mark := fun _ hp hne => rejects_mark hp hne

end Sample

/-- A text file that is cut in front of the first newline. -/
theorem replay_torn_newline :
    ∃ data r r', frameRecords (Sample.env 1).blake3 Sample.ser .line 0 Sample.three = .ok data ∧
      replay (Sample.env 1).blake3 Sample.ser .line (data.take 54) = .ok r ∧
      foldRecords (Sample.three.take 1) = .ok r' ∧ r'.Alike r := by
  obtain ⟨data, hdata, hobs⟩ : ∃ data,
      frameRecords (Sample.env 1).blake3 Sample.ser .line 0 Sample.three = .ok data ∧
        (replay (Sample.env 1).blake3 Sample.ser .line (data.take 54)).toOption.isSome = true :=
    ⟨_, rfl, by decide +kernel⟩
  obtain ⟨total, htotal⟩ : ∃ total, foldRecords Sample.three = .ok total := ⟨_, rfl⟩
  have hleft : wholeRecords Sample.ser .line 54 0 Sample.three = Sample.three.take 1 := rfl
  have htimed : ∀ snap, .snapshot snap ∈ Sample.three → snap.ts.timestamp Sample.ser.localTime = .ok () :=
    fun snap _ => snap.ts.timestamp_total
  rcases (replay_torn_iff (fun r _ => (Sample.readable r).1) (fun _ => Sample.rejectsPrefixes _) hdata
    htotal).mpr htimed 54 with ⟨_, _, _, _, hrej⟩ | ⟨r, r', hr, hr', halike, -⟩
  · rw [hrej] at hobs
    exact absurd hobs (by simp [Except.toOption])
  · exact ⟨data, r, r', hdata, hr, hleft ▸ hr', halike⟩

/-- A snapshot of the first moment and nothing behind it, with no byte cut off: replay raises
`ValueError`. -/
theorem replay_torn_counterexample : ∃ records data total,
    (∀ r ∈ records, Decodable Sample.earlySer .line r) ∧ RejectsPrefixes Sample.earlySer records ∧
    frameRecords (Sample.env 1).blake3 Sample.earlySer .line 0 records = .ok data ∧
    foldRecords records = .ok total ∧
    ¬(Rejected (replay (Sample.env 1).blake3 Sample.earlySer .line (data.take data.length)) ∨
      ∃ r, replay (Sample.env 1).blake3 Sample.earlySer .line (data.take data.length) = .ok r) := by
  obtain ⟨data, hdata, hreplay⟩ : ∃ data,
      frameRecords (Sample.env 1).blake3 Sample.earlySer .line 0 [.snapshot (Sample.early 1)] = .ok data ∧
        replay (Sample.env 1).blake3 Sample.earlySer .line (data.take data.length) = .error .valueError :=
    ⟨_, rfl, rfl⟩
  refine ⟨[.snapshot (Sample.early 1)], data, _, fun r _ => Sample.decodable_early r, ⟨?_, ?_⟩, hdata, rfl, ?_⟩
  · exact fun c _ payload p => Sample.rejects_part
  · exact fun p => Sample.rejects_mark
  · rw [hreplay]
    rintro (⟨_, _, _, _, h⟩ | ⟨r, h⟩) <;> simp at h

end Kanta
