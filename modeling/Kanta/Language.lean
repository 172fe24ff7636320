import Kanta.Layout

/-!
# The language of the framers

What a writer frames, a reader gives back: every payload with the place of its frame, the last
snapshot, and the records behind it (`framing_roundtrip`).  The binary reader accepts nothing else:
a file that it reads to the end is a seed and frames that were made with it
(`iterRecords_accepts`).
-/

namespace Kanta

section

variable (blake3 : Bytes → Bytes → Digest)

/-! ### When there are frames at all -/

namespace Framer

/-- The offset behind the frames of `items`, the first one at `offset`. -/
def framedEnd (framer : Framer) : ℕ → List Item → ℕ
  | offset, [] => offset
  | offset, (isSnapshot, payload) :: items =>
    framedEnd framer (offset + framer.frameLength isSnapshot payload offset) items

lemma le_framedEnd (framer : Framer) (offset : ℕ) (items : List Item) :
    offset ≤ framer.framedEnd offset items := by
  induction items generalizing offset with
  | nil => exact Nat.le_refl _
  | cons item items ih =>
    have := ih (offset + framer.frameLength item.1 item.2 offset)
    simp only [framedEnd]
    omega

end Framer

lemma toBytes_cases (n width : ℕ) :
    (∃ b, toBytes n width = .ok b) ∨ toBytes n width = .error .overflowError ∧ 256 ^ width ≤ n := by
  unfold toBytes
  by_cases h : n < 256 ^ width
  · exact Or.inl ⟨_, if_pos h⟩
  · exact Or.inr ⟨if_neg h, by omega⟩

/-- A payload is framed unless its offset does not fit into eight bytes. -/
lemma frame_cases (framer : Framer) (isSnapshot : Bool) (payload : Bytes) (offset : ℕ)
    (hp : framer ≠ .line → payload.length < 2 ^ 32) :
    (∃ fr, framer.frame blake3 isSnapshot payload offset = .ok fr) ∨
      framer.frame blake3 isSnapshot payload offset = .error .overflowError ∧ 2 ^ 64 ≤ offset := by
  cases framer with
  | line => exact Or.inl ⟨_, rfl⟩
  | bin sync =>
    have hlen : payload.length < 2 ^ 32 := hp (by simp)
    have hlen : toBytes payload.length 4 = .ok (littleEndian 4 payload.length) := if_pos hlen
    rcases toBytes_cases (if offset = 0 then 4 else offset) 8 with ⟨b, hb⟩ | ⟨hb, hle⟩
    · left
      simp only [Framer.frame, checksum, hb, hlen, bind, Except.bind]
      exact ⟨_, rfl⟩
    · right
      constructor
      · simp only [Framer.frame, checksum, hb, bind, Except.bind]
      · split at hle <;> omega

lemma frames_cases {framer : Framer} {items : List Item}
    (hp : framer ≠ .line → ∀ i ∈ items, i.2.length < 2 ^ 32) (offset : ℕ) :
    (∃ data, framer.frames blake3 offset items = .ok data) ∨
      framer.frames blake3 offset items = .error .overflowError ∧
        2 ^ 64 ≤ framer.framedEnd offset items := by
  induction items generalizing offset with
  | nil => exact Or.inl ⟨[], rfl⟩
  | cons item items ih =>
    obtain ⟨isSnapshot, payload⟩ := item
    have hhead : framer ≠ .line → payload.length < 2 ^ 32 := fun h => hp h _ List.mem_cons_self
    have htail : framer ≠ .line → ∀ i ∈ items, i.2.length < 2 ^ 32 := fun h i hi =>
      hp h i (List.mem_cons_of_mem _ hi)
    rcases frame_cases blake3 framer isSnapshot payload offset hhead with ⟨fr, hfr⟩ | ⟨hfr, hle⟩
    · have hlen := frame_length blake3 hfr
      rcases ih htail (offset + fr.length) with ⟨rest, hrest⟩ | ⟨hrest, hle⟩
      · exact Or.inl ⟨fr ++ rest, (frames_cons blake3).mpr ⟨fr, rest, hfr, hrest, rfl⟩⟩
      · right
        constructor
        · simp only [Framer.frames, hfr, hrest, bind, Except.bind]
        · rwa [hlen] at hle
    · right
      constructor
      · simp only [Framer.frames, hfr, bind, Except.bind]
      · have := framer.le_framedEnd offset ((isSnapshot, payload) :: items)
        omega

/-! ### What is framed is read back -/

/-- What `strip` leaves alone does not end in a space. -/
lemma dropWhile_reverse_of_strip {b : Bytes} (h : strip b = b) :
    b.reverse.dropWhile isSpace = b.reverse := by
  have hsuffix := List.dropWhile_suffix (l := b) isSpace
  have hfront : b.dropWhile isSpace = b := by
    apply hsuffix.eq_of_length
    have h1 := hsuffix.length_le
    have h2 := congrArg List.length h
    have h3 := (List.dropWhile_sublist (l := (b.dropWhile isSpace).reverse) isSpace).length_le
    rw [strip, List.length_reverse] at h2
    rw [List.length_reverse] at h3
    omega
  rw [strip, hfront] at h
  have hback := congrArg List.reverse h
  rwa [List.reverse_reverse] at hback

/-- The line framer is made for payloads that `strip` leaves alone. -/
lemma fits_of_strip {item : Item} (hne : item.2 ≠ []) (hnl : newline ∉ item.2)
    (hstrip : strip item.2 = item.2)
    (hmark : item.1 = false → snapshotPrefix.isPrefixOf item.2 = false) : Fits item := by
  refine ⟨hnl, hne, ?_, hmark⟩
  cases item.1 with
  | false => simpa using hstrip
  | true =>
    -- the line starts with a letter, and ends as the payload does
    have hfront : (snapshotPrefix ++ item.2).dropWhile isSpace = snapshotPrefix ++ item.2 := rfl
    have hback : (item.2.reverse.dropWhile isSpace).isEmpty = false := by
      rw [dropWhile_reverse_of_strip hstrip]
      simpa using hne
    simp only [if_true, strip]
    rw [hfront, List.reverse_append, List.dropWhile_append, hback, dropWhile_reverse_of_strip hstrip]
    simp

/-- What the two readers make of the frames of `items`. -/
structure ReadsBack (framer : Framer) (items : List Item) (data : Bytes) : Prop where
  /-- `iter_records(data, 0)` yields the records in order, on the lines `1`, `2`, …. -/
  all : framer.iterRecords blake3 data 0 = ⟨framer.placed 1 0 items, none⟩
  /-- Each record is found where its frame is. -/
  located : ∀ before item after, items = before ++ item :: after → ∃ d fr rest,
    framer.frames blake3 0 before = .ok d ∧ framer.frame blake3 item.1 item.2 d.length = .ok fr ∧
      data = d ++ fr ++ rest ∧
      (framer.placed 1 0 items)[before.length]? =
        some ⟨item.1, item.2, framer.lineNo (before.length + 1), framer.framePos d.length⟩
  /-- `scan_last_snapshot` finds the last snapshot, and reading goes on behind it. -/
  last : ∀ before payload after, items = before ++ (true, payload) :: after →
    (∀ i ∈ after, i.1 = false) → ∃ d offset, framer.frames blake3 0 before = .ok d ∧
      offset = d.length + framer.frameLength true payload d.length ∧
      framer.scanLastSnapshot blake3 data = .ok (some payload, offset, framer.framePos d.length) ∧
      framer.iterRecords blake3 data offset = ⟨framer.placed (before.length + 2) offset after, none⟩
  /-- Without a snapshot, reading goes on with all records. -/
  no_snapshot : (∀ i ∈ items, i.1 = false) → ∃ offset,
    framer.scanLastSnapshot blake3 data = .ok (none, offset, 0) ∧
      framer.iterRecords blake3 data offset = ⟨framer.placed 1 0 items, none⟩

variable {framer : Framer} {items : List Item} {data : Bytes}

/-- The line on which reading goes on. -/
lemma placed_behind {before after : List Item} {payload d : Bytes} {offset : ℕ}
    (hfit : ∀ i ∈ before ++ [(true, payload)], framer.Fits i)
    (hd : framer.frames blake3 0 (before ++ [(true, payload)]) = .ok d) :
    framer.placed (d.count newline + 1) offset after = framer.placed (before.length + 2) offset after := by
  cases framer with
  | line => rw [count_newline blake3 hfit hd, List.length_append, List.length_singleton]
  | bin sync => exact placed_bin.trans placed_bin.symm

/-- Both readers give back what was framed. -/
lemma readsBack_of_frames (hfit : ∀ i ∈ items, framer.Fits i)
    (h : framer.frames blake3 0 items = .ok data) : ReadsBack blake3 framer items data where
  all := iterRecords_start blake3 hfit h
  located := by
    rintro before item after rfl
    obtain ⟨d, e, hd, he, rfl⟩ := (frames_append blake3).mp h
    obtain ⟨fr, rest, hfr, hrest, rfl⟩ := (frames_cons blake3).mp he
    rw [Nat.zero_add] at hfr
    refine ⟨d, fr, rest, hd, hfr, (List.append_assoc ..).symm, ?_⟩
    rw [Framer.placed_getElem? blake3 hd, Nat.zero_add, Nat.add_comm 1]
  last := by
    rintro before payload after rfl hch
    obtain ⟨d, e, hd, he, rfl⟩ := (frames_append blake3).mp h
    obtain ⟨fr, rest, hfr, hrest, rfl⟩ := (frames_cons blake3).mp he
    obtain ⟨offset, hoffset, hscan, hiter⟩ := scanLastSnapshot_frames blake3 hfit hch hd h
    refine ⟨d, offset, hd, hoffset, hscan, ?_⟩
    have hframe : framer.frames blake3 0 (before ++ [(true, payload)]) = .ok (d ++ fr) :=
      (frames_append blake3).mpr ⟨d, fr, hd, (frames_cons blake3).mpr ⟨fr, [], hfr, rfl, by simp⟩, rfl⟩
    have htake : (d ++ (fr ++ rest)).take offset = d ++ fr := by
      rw [← List.append_assoc]
      apply List.take_left'
      rw [List.length_append, frame_length blake3 hfr, Nat.zero_add, hoffset]
    rw [hiter, htake, placed_behind blake3 (fun i hi => hfit i ?_) hframe]
    rw [List.mem_append, List.mem_singleton] at hi
    rcases hi with hi | rfl
    · exact List.mem_append_left _ hi
    · simp
  no_snapshot := fun hch => scanLastSnapshot_changes blake3 hfit hch h

/-- **What was framed is read back**, unless the file grows beyond what an offset can hold. -/
theorem framing_roundtrip {framer : Framer} {items : List Item}
    (hline : framer = .line → ∀ i ∈ items, i.2 ≠ [] ∧ newline ∉ i.2 ∧ strip i.2 = i.2 ∧
      (i.1 = false → snapshotPrefix.isPrefixOf i.2 = false))
    (hbin : framer ≠ .line → ∀ i ∈ items, i.2.length < 2 ^ 32) :
    (∃ data, framer.frames blake3 0 items = .ok data ∧ ReadsBack blake3 framer items data) ∨
      framer.frames blake3 0 items = .error .overflowError ∧ 2 ^ 64 ≤ framer.framedEnd 0 items := by
  have hfit : ∀ i ∈ items, framer.Fits i := by
    intro i hi
    cases framer with
    | line =>
      obtain ⟨hne, hnl, hstrip, hmark⟩ := hline rfl i hi
      exact fits_of_strip hne hnl hstrip hmark
    | bin sync => trivial
  rcases frames_cases blake3 hbin 0 with ⟨data, h⟩ | h
  · exact Or.inl ⟨data, h, readsBack_of_frames blake3 hfit h⟩
  · exact Or.inr h

/-- A snapshot and a change, as text and as binary. -/
theorem framing_roundtrip_pair :
    (∃ data, Framer.line.frames (fun _ _ => ⟨List.replicate 8 0, rfl⟩) 0
        [(true, ascii "{}"), (false, ascii "[]")] = .ok data ∧
      ReadsBack (fun _ _ => ⟨List.replicate 8 0, rfl⟩) .line [(true, ascii "{}"), (false, ascii "[]")] data) ∧
    ∃ data, (Framer.bin ⟨[1, 2, 3, 4], rfl⟩).frames (fun _ _ => ⟨List.replicate 8 0, rfl⟩) 0
        [(true, []), (false, [10])] = .ok data ∧
      ReadsBack (fun _ _ => ⟨List.replicate 8 0, rfl⟩) (.bin ⟨[1, 2, 3, 4], rfl⟩) [(true, []), (false, [10])] data := by
  constructor
  · refine (framing_roundtrip _ (fun _ => by decide +kernel) (by simp)).resolve_right ?_
    exact fun h => absurd h.2 (by decide)
  · refine (framing_roundtrip _ (by simp) (fun _ => by decide)).resolve_right ?_
    exact fun h => absurd h.2 (by decide)

/-! ### What is read back was framed -/

/-- The seed in front makes the first frame one that is written at offset `0`. -/
lemma frames_seed {sync : Sync} {items : List Item} {body : Bytes} (hne : items ≠ [])
    (h : (Framer.bin sync).frames blake3 4 items = .ok body) :
    (Framer.bin sync).frames blake3 0 items = .ok (sync.bytes ++ body) := by
  obtain ⟨item, items, rfl⟩ := List.exists_cons_of_ne_nil hne
  obtain ⟨fr, tail, hfr, htail, rfl⟩ := (frames_cons blake3).mp h
  obtain ⟨sum, len, hsum, hlen, rfl⟩ := frame_bin blake3 hfr
  rw [if_neg (by decide)] at hsum
  rw [if_neg (by decide), List.nil_append] at htail ⊢
  have hfr0 : (Framer.bin sync).frame blake3 item.1 item.2 0 =
      .ok (sync.bytes ++ (sync.marker item.1 ++ len ++ sum ++ item.2)) := by
    rw [Framer.frame, if_pos rfl, if_pos rfl, hsum, hlen]
    simp [bind, Except.bind]
  refine (frames_cons blake3).mpr ⟨_, tail, hfr0, ?_, by simp⟩
  rwa [Nat.zero_add, List.length_append, sync.length_eq]

/-- The reader of a binary file that begins with a seed. -/
lemma iterRecords_seed {sync seed : Sync} {body : Bytes} :
    (Framer.bin sync).iterRecords blake3 (seed.bytes ++ body) 0 =
      ⟨(binLoop blake3 seed (seed.bytes ++ body).length body 4).records.map Prod.fst,
        (binLoop blake3 seed (seed.bytes ++ body).length body 4).error⟩ := by
  rw [Framer.iterRecords, if_neg (seed.append_ne_nil body), load_bin]
  simp only [if_true, List.drop_left' seed.length_eq]

/-- A file that has been read has a seed. -/
lemma exists_seed {sync : Sync} {data : Bytes} (hne : data ≠ [])
    (h : ((Framer.bin sync).iterRecords blake3 data 0).error = none) :
    ∃ seed : Sync, ∃ body, data = seed.bytes ++ body := by
  by_cases hlen : data.length < 4
  · rw [Framer.iterRecords, if_neg hne, Framer.load, if_neg hne, dif_pos hlen] at h
    simp [Scan.fail] at h
  · exact ⟨.ofData data hlen, data.drop 4, (List.take_append_drop 4 data).symm⟩

/-- **The binary reader accepts what the writer writes**, and nothing else. -/
theorem iterRecords_accepts (sync : Sync) {data : Bytes} (hne : data ≠ []) :
    (((Framer.bin sync).iterRecords blake3 data 0).error = none ↔
      ∃ (seed : Sync) (items : List Item) (body : Bytes),
        data = seed.bytes ++ body ∧ (Framer.bin seed).frames blake3 4 items = .ok body) ∧
    (((Framer.bin sync).iterRecords blake3 data 0).error = none →
      ∃ (seed : Sync) (body : Bytes), data = seed.bytes ++ body ∧
        (Framer.bin seed).frames blake3 4 (itemsOf ((Framer.bin sync).iterRecords blake3 data 0).records) =
          .ok body ∧
        (((Framer.bin sync).iterRecords blake3 data 0).records ≠ [] →
          (Framer.bin seed).frames blake3 0
            (itemsOf ((Framer.bin sync).iterRecords blake3 data 0).records) = .ok data)) := by
  have hback : ((Framer.bin sync).iterRecords blake3 data 0).error = none →
      ∃ (seed : Sync) (body : Bytes), data = seed.bytes ++ body ∧
        (Framer.bin seed).frames blake3 4
          (itemsOf ((Framer.bin sync).iterRecords blake3 data 0).records) = .ok body := by
    intro h
    obtain ⟨seed, body, rfl⟩ := exists_seed blake3 hne h
    rw [iterRecords_seed] at h ⊢
    have := frames_of_binLoop blake3 (by decide) (by simp) h
    refine ⟨seed, body, rfl, ?_⟩
    rwa [itemsOf, List.map_map]
  refine ⟨⟨?_, ?_⟩, ?_⟩
  · intro h
    obtain ⟨seed, body, hdata, hframes⟩ := hback h
    exact ⟨seed, _, body, hdata, hframes⟩
  · rintro ⟨seed, items, body, rfl, hframes⟩
    have hlen := length_le_of_frames blake3 hframes
    have := binLoop_frames blake3 (by decide) hframes [] ((seed.bytes ++ body).length - items.length)
    rw [List.append_nil, binLoop_nil, Nat.sub_add_cancel (by simp; omega)] at this
    rw [iterRecords_seed, this]
  · intro h
    obtain ⟨seed, body, hdata, hframes⟩ := hback h
    refine ⟨seed, body, hdata, hframes, ?_⟩
    intro hrecords
    rw [hdata] at hrecords hframes ⊢
    exact frames_seed blake3 (by simpa [itemsOf] using hrecords) hframes

end

namespace Sample

lemma length_zeros : (List.replicate 8 0 : Bytes).length = 8 := rfl

/-- A hash of zeros. -/
def zeros : Bytes → Bytes → Digest := fun _ _ => ⟨List.replicate 8 0, length_zeros⟩

/-- A binary file with the seed `01020304`, a change and a snapshot. -/
def framed : Bytes :=
  [1, 2, 3, 4] ++ ([254, 253, 252, 251] ++ [1, 0, 0, 0] ++ List.replicate 8 0 ++ [7]) ++
    ([1, 2, 3, 4] ++ [2, 0, 0, 0] ++ List.replicate 8 0 ++ [8, 9])

end Sample

open Sample in
/-- Two frames are read to the end, and made again. -/
theorem iterRecords_accepts_two :
    (((Framer.bin ⟨[0, 0, 0, 0], rfl⟩).iterRecords zeros framed 0).error = none ↔
      ∃ (seed : Sync) (items : List Item) (body : Bytes),
        framed = seed.bytes ++ body ∧ (Framer.bin seed).frames zeros 4 items = .ok body) ∧
    itemsOf ((Framer.bin ⟨[0, 0, 0, 0], rfl⟩).iterRecords zeros framed 0).records = [(false, [7]), (true, [8, 9])] ∧
      ∃ (seed : Sync) (body : Bytes), framed = seed.bytes ++ body ∧
        (Framer.bin seed).frames zeros 4 [(false, [7]), (true, [8, 9])] = .ok body ∧
        (Framer.bin seed).frames zeros 0 [(false, [7]), (true, [8, 9])] = .ok framed := by
  have hitems : itemsOf ((Framer.bin ⟨[0, 0, 0, 0], rfl⟩).iterRecords zeros framed 0).records =
      [(false, [7]), (true, [8, 9])] := by rfl
  have hne : framed ≠ [] := List.cons_ne_nil 1 _
  obtain ⟨haccepts, hagain⟩ := iterRecords_accepts zeros ⟨[0, 0, 0, 0], rfl⟩ hne
  obtain ⟨seed, body, hdata, hbody, hwhole⟩ := hagain rfl
  rw [hitems] at hbody hwhole
  refine ⟨haccepts, hitems, seed, body, hdata, hbody, hwhole fun h => ?_⟩
  rw [h] at hitems
  cases hitems

end Kanta
