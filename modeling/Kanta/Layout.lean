import Kanta.Framing

/-!
# The layout of a file

`frames framer offset items` are the frames of a list of payloads, written one after another from
`offset` on.  Both readers give back what was framed: `iterRecords_frames` from any frame on, and
`scanLastSnapshot_frames` the last snapshot with the place to resume at.  The line reader needs
payloads that can stand on a line of their own (`Line.Fits`); the binary reader needs nothing.
-/

namespace Kanta

/-- The kind of a record and its payload. -/
abbrev Item := Bool × Bytes

/-! ### Prefixes and lines -/

lemma isPrefixOf_append_cons {p l r : Bytes} {b : UInt8} (hp : b ∉ p) :
    p.isPrefixOf (l ++ b :: r) = p.isPrefixOf l := by
  induction p generalizing l with
  | nil => simp
  | cons x p ih =>
    rw [List.mem_cons, not_or] at hp
    cases l with
    | nil => simp [List.isPrefixOf, Ne.symm hp.1]
    | cons y l => simp only [List.cons_append, List.isPrefixOf, ih hp.2]

lemma takeWhile_line {line rest : Bytes} (h : newline ∉ line) :
    (line ++ newline :: rest).takeWhile (· ≠ newline) = line := by
  have hne : ∀ b ∈ line, decide (b ≠ newline) = true := fun b hb => by
    simpa using fun e : b = newline => h (e ▸ hb)
  rw [List.takeWhile_append_of_pos hne]
  simp

lemma drop_line (line rest : Bytes) : (line ++ newline :: rest).drop (line.length + 1) = rest := by
  rw [show line ++ newline :: rest = (line ++ [newline]) ++ rest by simp]
  exact List.drop_left' (by simp)

lemma newline_notMem_snapshotPrefix : newline ∉ snapshotPrefix := by decide

lemma rfind_line {line rest : Bytes} (h : newline ∉ line) :
    rfind (newline :: snapshotPrefix) (line ++ rest) =
      (rfind (newline :: snapshotPrefix) rest).map (· + line.length) := by
  induction line with
  | nil => simp
  | cons b line ih =>
    rw [List.mem_cons, not_or] at h
    rw [List.cons_append, rfind, ih h.2]
    rcases rfind (newline :: snapshotPrefix) rest with _ | i
    · simp [List.isPrefixOf, h.1]
    · simp [Nat.add_assoc]

/-- Going back over one line in the search for the last snapshot. -/
lemma lastSnapshotLine_cons {line rest : Bytes} (h : newline ∉ line) :
    lastSnapshotLine (line ++ newline :: rest) =
      match lastSnapshotLine rest with
      | some pos => some (pos + (line.length + 1))
      | none => if snapshotPrefix.isPrefixOf line then some 0 else none := by
  have hcons : rfind (newline :: snapshotPrefix) (newline :: rest) =
      match rfind (newline :: snapshotPrefix) rest with
      | some i => some (i + 1)
      | none => if snapshotPrefix.isPrefixOf rest then some 0 else none := by
    cases hr : rfind (newline :: snapshotPrefix) rest <;> simp [rfind, List.isPrefixOf, hr]
  rw [lastSnapshotLine, lastSnapshotLine, rfind_line h, hcons,
    isPrefixOf_append_cons newline_notMem_snapshotPrefix]
  rcases rfind (newline :: snapshotPrefix) rest with _ | i
  · by_cases hp : snapshotPrefix.isPrefixOf rest = true <;> simp [hp]
  · simp only [Option.map_some, Option.some.injEq]
    omega

/-! ### Frames one after another -/

section

variable (blake3 : Bytes → Bytes → Digest)

namespace Framer

/-- The frames of `items`, the first one at `offset`. -/
def frames (framer : Framer) : ℕ → List Item → Except Exc Bytes
  | _, [] => .ok []
  | offset, (isSnapshot, payload) :: items => do
    let framed ← framer.frame blake3 isSnapshot payload offset
    let rest ← frames framer (offset + framed.length) items
    .ok (framed ++ rest)

/-- How many bytes the frame of a payload takes. -/
def frameLength (framer : Framer) (isSnapshot : Bool) (payload : Bytes) (offset : ℕ) : ℕ :=
  match framer with
  | .line => (if isSnapshot then snapshotPrefix.length else 0) + payload.length + 1
  | .bin _ => (if offset = 0 then 4 else 0) + 16 + payload.length

/-- Where the reader says that a frame written at `offset` is. -/
def framePos (framer : Framer) (offset : ℕ) : ℕ :=
  match framer with
  | .line => offset
  | .bin _ => if offset = 0 then 4 else offset

/-- The line number the reader gives: the binary one has none. -/
def lineNo (framer : Framer) (lineNumber : ℕ) : ℕ :=
  match framer with
  | .line => lineNumber
  | .bin _ => 0

/-- What the reader yields for the frames of `items` from `offset` on, the first on line
`lineNumber`. -/
def placed (framer : Framer) : ℕ → ℕ → List Item → List RawRecord
  | _, _, [] => []
  | lineNumber, offset, (isSnapshot, payload) :: items =>
    ⟨isSnapshot, payload, framer.lineNo lineNumber, framer.framePos offset⟩ ::
      placed framer (lineNumber + 1) (offset + framer.frameLength isSnapshot payload offset) items

end Framer

/-- The payloads a reader has yielded. -/
def itemsOf (records : List RawRecord) : List Item := records.map fun r => (r.isSnapshot, r.payload)

@[simp] lemma itemsOf_placed (framer : Framer) (lineNumber offset : ℕ) (items : List Item) :
    itemsOf (framer.placed lineNumber offset items) = items := by
  induction items generalizing lineNumber offset with
  | nil => rfl
  | cons item items ih =>
    rw [Framer.placed, itemsOf, List.map_cons]
    exact congrArg _ (ih _ _)

lemma littleEndian_length (width n : ℕ) : (littleEndian width n).length = width := by
  induction width generalizing n with
  | zero => rfl
  | succ width ih => simp [littleEndian, ih]

lemma fromBytes_littleEndian {width n : ℕ} (h : n < 256 ^ width) :
    fromBytes (littleEndian width n) = n := by
  induction width generalizing n with
  | zero =>
    have : n = 0 := by simpa using h
    simp [littleEndian, fromBytes, this]
  | succ width ih =>
    have hd : n / 256 < 256 ^ width := Nat.div_lt_of_lt_mul (by rwa [Nat.pow_succ, Nat.mul_comm] at h)
    rw [littleEndian, fromBytes, ih hd, UInt8.toNat_ofNat_of_lt' (Nat.mod_lt _ (by decide))]
    exact Nat.mod_add_div n 256

lemma toBytes_length {n width : ℕ} {b : Bytes} (h : toBytes n width = .ok b) : b.length = width := by
  unfold toBytes at h
  split at h
  · rw [← Except.ok.inj h, littleEndian_length]
  · simp at h

lemma fromBytes_toBytes {n width : ℕ} {b : Bytes} (h : toBytes n width = .ok b) : fromBytes b = n := by
  unfold toBytes at h
  split at h
  · rw [← Except.ok.inj h, fromBytes_littleEndian ‹_›]
  · simp at h

lemma checksum_length {sync : Sync} {isSnapshot : Bool} {offset : ℕ} {payload b : Bytes}
    (h : checksum blake3 sync isSnapshot offset payload = .ok b) : b.length = 8 := by
  obtain ⟨part, -, h⟩ := bind_eq_ok.mp h
  rw [← Except.ok.inj h]
  exact Digest.length_eq _

lemma marker_length (sync : Sync) (isSnapshot : Bool) : (sync.marker isSnapshot).length = 4 := by
  unfold Sync.marker
  split <;> simp [sync.length_eq]

lemma marker_injective (sync : Sync) : Function.Injective sync.marker := by
  have hne : sync.bytes ≠ sync.bytes.map (~~~ ·) := by
    obtain ⟨bytes, h⟩ := sync
    obtain ⟨b, bytes, rfl⟩ := List.exists_cons_of_length_pos (l := bytes) (by omega)
    simp only [List.map_cons, ne_eq, List.cons.injEq, not_and]
    intro e
    have hb := congrArg UInt8.toNat e
    have := b.toNat_lt
    rw [UInt8.toNat_not, UInt8.size] at hb
    omega
  intro a b h
  cases a <;> cases b <;> simp_all [Sync.marker, Ne.symm hne]

lemma frame_bin {sync : Sync} {isSnapshot : Bool} {payload fr : Bytes} {offset : ℕ}
    (h : (Framer.bin sync).frame blake3 isSnapshot payload offset = .ok fr) :
    ∃ sum len, checksum blake3 sync isSnapshot (if offset = 0 then 4 else offset) payload = .ok sum ∧
      toBytes payload.length 4 = .ok len ∧
      fr = (if offset = 0 then sync.bytes else []) ++ (sync.marker isSnapshot ++ len ++ sum ++ payload) := by
  obtain ⟨sum, hsum, h⟩ := bind_eq_ok.mp h
  obtain ⟨len, hlen, h⟩ := bind_eq_ok.mp h
  exact ⟨sum, len, hsum, hlen, (Except.ok.inj h).symm⟩

lemma frame_length {framer : Framer} {isSnapshot : Bool} {payload fr : Bytes} {offset : ℕ}
    (h : framer.frame blake3 isSnapshot payload offset = .ok fr) :
    fr.length = framer.frameLength isSnapshot payload offset := by
  cases framer with
  | line =>
    rw [← Except.ok.inj h]
    cases isSnapshot <;> simp [Framer.frameLength, Nat.add_assoc]
  | bin sync =>
    obtain ⟨sum, len, hsum, hlen, rfl⟩ := frame_bin blake3 h
    have h1 := checksum_length blake3 hsum
    have h2 := toBytes_length hlen
    have h3 := marker_length sync isSnapshot
    have h4 := sync.length_eq
    by_cases h0 : offset = 0 <;> simp [Framer.frameLength, h0] <;> omega

lemma frameLength_pos (framer : Framer) (isSnapshot : Bool) (payload : Bytes) (offset : ℕ) :
    0 < framer.frameLength isSnapshot payload offset := by
  cases framer <;> simp only [Framer.frameLength] <;> omega

lemma frames_cons {framer : Framer} {item : Item} {items : List Item} {offset : ℕ} {data : Bytes} :
    framer.frames blake3 offset (item :: items) = .ok data ↔
      ∃ fr rest, framer.frame blake3 item.1 item.2 offset = .ok fr ∧
        framer.frames blake3 (offset + fr.length) items = .ok rest ∧ data = fr ++ rest := by
  obtain ⟨isSnapshot, payload⟩ := item
  rw [Framer.frames]
  simp only [bind_eq_ok, Except.ok.injEq]
  constructor
  · rintro ⟨fr, hfr, rest, hrest, rfl⟩
    exact ⟨fr, rest, hfr, hrest, rfl⟩
  · rintro ⟨fr, rest, hfr, hrest, rfl⟩
    exact ⟨fr, hfr, rest, hrest, rfl⟩

lemma frames_append {framer : Framer} {items more : List Item} {offset : ℕ} {data : Bytes} :
    framer.frames blake3 offset (items ++ more) = .ok data ↔
      ∃ d e, framer.frames blake3 offset items = .ok d ∧
        framer.frames blake3 (offset + d.length) more = .ok e ∧ data = d ++ e := by
  induction items generalizing offset data with
  | nil => simp [Framer.frames]
  | cons item items ih =>
    simp only [List.cons_append, frames_cons, ih]
    constructor
    · rintro ⟨fr, rest, hfr, ⟨d, e, hd, he, rfl⟩, rfl⟩
      refine ⟨fr ++ d, e, ⟨fr, d, hfr, hd, rfl⟩, ?_, by simp⟩
      rwa [List.length_append, ← Nat.add_assoc]
    · rintro ⟨_, e, ⟨fr, d, hfr, hd, rfl⟩, he, rfl⟩
      refine ⟨fr, d ++ e, hfr, ⟨d, e, hd, ?_, rfl⟩, by simp⟩
      rwa [List.length_append, ← Nat.add_assoc] at he

lemma Framer.placed_length (framer : Framer) (lineNumber offset : ℕ) (items : List Item) :
    (framer.placed lineNumber offset items).length = items.length := by
  induction items generalizing lineNumber offset with
  | nil => rfl
  | cons item items ih => rw [Framer.placed, List.length_cons, List.length_cons, ih]

lemma Framer.placed_append {framer : Framer} {before after : List Item} {d : Bytes} (lineNumber : ℕ) {offset : ℕ}
    (hd : framer.frames blake3 offset before = .ok d) :
    framer.placed lineNumber offset (before ++ after) =
      framer.placed lineNumber offset before ++
        framer.placed (lineNumber + before.length) (offset + d.length) after := by
  induction before generalizing lineNumber offset d with
  | nil =>
    obtain rfl : [] = d := Except.ok.inj hd
    rfl
  | cons item before ih =>
    obtain ⟨fr, rest, hfr, hrest, rfl⟩ := (frames_cons blake3).mp hd
    have hlen := frame_length blake3 hfr
    rw [hlen] at hrest
    rw [List.cons_append, Framer.placed, Framer.placed, ih (lineNumber + 1) hrest, List.cons_append,
      List.length_append, hlen, List.length_cons, Nat.add_assoc, Nat.add_assoc, Nat.add_comm 1]

lemma Framer.placed_getElem? {framer : Framer} {before after : List Item} {item : Item} {d : Bytes}
    {lineNumber offset : ℕ} (hd : framer.frames blake3 offset before = .ok d) :
    (framer.placed lineNumber offset (before ++ item :: after))[before.length]? =
      some ⟨item.1, item.2, framer.lineNo (lineNumber + before.length),
        framer.framePos (offset + d.length)⟩ := by
  have hlen := framer.placed_length lineNumber offset before
  rw [Framer.placed_append blake3 lineNumber hd, ← hlen, List.getElem?_append_right (Nat.le_refl _),
    Nat.sub_self, hlen]
  rfl

/-! ### Reading binary frames -/

/-- One round of the binary reader takes one frame off. -/
lemma binLoop_frame {sync : Sync} {isSnapshot : Bool} {payload fr rest : Bytes} {pos fuel : ℕ}
    (hpos : pos ≠ 0) (h : (Framer.bin sync).frame blake3 isSnapshot payload pos = .ok fr) :
    binLoop blake3 sync (fuel + 1) (fr ++ rest) pos =
      (binLoop blake3 sync fuel rest (pos + fr.length)).cons
        (⟨isSnapshot, payload, 0, pos⟩, pos + fr.length) := by
  obtain ⟨sum, len, hsum, hlen, hfr⟩ := frame_bin blake3 h
  rw [if_neg hpos] at hsum hfr
  have h1 := checksum_length blake3 hsum
  have h2 := toBytes_length hlen
  have h3 := marker_length sync isSnapshot
  have hlength : fr.length = 16 + payload.length := by
    rw [frame_length blake3 h, Framer.frameLength, if_neg hpos, Nat.zero_add]
  have hdata : fr ++ rest = sync.marker isSnapshot ++ (len ++ (sum ++ (payload ++ rest))) := by
    simp [hfr]
  have t4 : (fr ++ rest).take 4 = sync.marker isSnapshot := by
    rw [hdata, List.take_left' h3]
  have d4 : (fr ++ rest).drop 4 = len ++ (sum ++ (payload ++ rest)) := by
    rw [hdata, List.drop_left' h3]
  have d8 : (fr ++ rest).drop 8 = sum ++ (payload ++ rest) := by
    rw [show 8 = 4 + 4 from rfl, ← List.drop_drop, d4, List.drop_left' h2]
  have d16 : (fr ++ rest).drop 16 = payload ++ rest := by
    rw [show 16 = 8 + 8 from rfl, ← List.drop_drop, d8, List.drop_left' h1]
  have dall : (fr ++ rest).drop (16 + payload.length) = rest := by
    rw [← List.drop_drop, d16, List.drop_left' rfl]
  have hlen' : (fr ++ rest).length = 16 + payload.length + rest.length := by
    rw [List.length_append, hlength]
  have hne : fr ++ rest ≠ [] := fun e => by
    rw [e, List.length_nil] at hlen'
    omega
  have hkind : decide (sync.marker isSnapshot = sync.marker true) = isSnapshot := by
    simp only [(marker_injective sync).eq_iff]
    cases isSnapshot <;> rfl
  have hmark : ¬(sync.marker isSnapshot ≠ sync.marker true ∧ sync.marker isSnapshot ≠ sync.marker false) := by
    cases isSnapshot <;> simp
  rw [binLoop, if_neg hne, if_neg (by omega), t4, if_neg hmark, if_neg (by omega), hkind, d4,
    List.take_left' h2, fromBytes_toBytes hlen, if_neg (by omega), d16, List.take_left' rfl]
  dsimp only
  rw [hsum, d8]
  dsimp only
  rw [List.take_left' h1, dall, hlength, if_neg (not_not_intro rfl)]

@[simp] lemma binLoop_nil (sync : Sync) (fuel pos : ℕ) : binLoop blake3 sync fuel [] pos = ⟨[], none⟩ := by
  cases fuel <;> simp [binLoop]

/-- What the binary reader yields for the frames of `items` from `pos` on, with the offset behind
each. -/
def binPlaced : ℕ → List Item → List (RawRecord × ℕ)
  | _, [] => []
  | pos, (isSnapshot, payload) :: items =>
    (⟨isSnapshot, payload, 0, pos⟩, pos + (16 + payload.length)) ::
      binPlaced (pos + (16 + payload.length)) items

lemma map_binPlaced {sync : Sync} {offset : ℕ} (h : offset ≠ 0) (lineNumber : ℕ) (items : List Item) :
    (binPlaced offset items).map Prod.fst = (Framer.bin sync).placed lineNumber offset items := by
  induction items generalizing offset lineNumber with
  | nil => rfl
  | cons item items ih =>
    simp [binPlaced, Framer.placed, Framer.framePos, Framer.lineNo, Framer.frameLength, h,
      ih (show offset + (16 + item.2.length) ≠ 0 by omega) (lineNumber + 1)]

/-- The binary reader counts no lines. -/
lemma placed_bin {sync : Sync} {lineNumber offset : ℕ} {items : List Item} :
    (Framer.bin sync).placed lineNumber offset items = (Framer.bin sync).placed 0 offset items := by
  induction items generalizing offset lineNumber with
  | nil => rfl
  | cons item items ih =>
    rw [Framer.placed, Framer.placed, ih]
    exact congrArg _ ih.symm

/-- The binary reader takes all frames off. -/
lemma binLoop_frames {sync : Sync} {items : List Item} {data : Bytes} {pos : ℕ} (hpos : pos ≠ 0)
    (h : (Framer.bin sync).frames blake3 pos items = .ok data) (rest : Bytes) (fuel : ℕ) :
    binLoop blake3 sync (fuel + items.length) (data ++ rest) pos =
      ⟨binPlaced pos items ++ (binLoop blake3 sync fuel rest (pos + data.length)).records,
        (binLoop blake3 sync fuel rest (pos + data.length)).error⟩ := by
  induction items generalizing data pos with
  | nil =>
    obtain rfl : [] = data := Except.ok.inj h
    rfl
  | cons item items ih =>
    obtain ⟨fr, tail, hfr, htail, rfl⟩ := (frames_cons blake3).mp h
    have hlen := frame_length blake3 hfr
    have hpos' := frameLength_pos (.bin sync) item.1 item.2 pos
    rw [List.length_cons, ← Nat.add_assoc, List.append_assoc, binLoop_frame blake3 hpos hfr,
      ih (by omega) htail, List.length_append]
    simp only [Framer.frameLength, if_neg hpos, Nat.zero_add] at hlen
    simp [Scan.cons, binPlaced, hlen, Nat.add_assoc]

lemma littleEndian_fromBytes (b : Bytes) : littleEndian b.length (fromBytes b) = b := by
  induction b with
  | nil => rfl
  | cons x b ih =>
    have hx := x.toNat_lt
    rw [List.length_cons, fromBytes, littleEndian, show (x.toNat + 256 * fromBytes b) / 256 = fromBytes b by omega,
      ih, show (x.toNat + 256 * fromBytes b) % 256 = x.toNat by omega, UInt8.ofNat_toNat]

lemma fromBytes_lt (b : Bytes) : fromBytes b < 256 ^ b.length := by
  induction b with
  | nil => simp [fromBytes]
  | cons x b ih =>
    have hx := x.toNat_lt
    rw [fromBytes, List.length_cons, Nat.pow_succ]
    omega

lemma toBytes_fromBytes {b : Bytes} {width : ℕ} (h : b.length = width) :
    toBytes (fromBytes b) width = .ok b := by
  subst h
  rw [toBytes, if_pos (fromBytes_lt b), littleEndian_fromBytes]

/-- A round of the binary reader that does not fail has read a frame. -/
lemma binLoop_round {sync : Sync} {rest : Bytes} {pos fuel : ℕ} (hpos : pos ≠ 0) (hne : rest ≠ [])
    (h : (binLoop blake3 sync (fuel + 1) rest pos).error = none) :
    ∃ isSnapshot payload fr tail, rest = fr ++ tail ∧
      (Framer.bin sync).frame blake3 isSnapshot payload pos = .ok fr := by
  unfold binLoop at h
  rw [if_neg hne] at h
  split at h
  · simp [Scan.fail] at h
  · split at h
    · simp [Scan.fail] at h
    · rename_i hmark
      dsimp only at h
      split at h
      · simp [Scan.fail] at h
      · rename_i h16
        split at h
        · simp [Scan.fail] at h
        · rename_i hlen
          split at h
          · simp [Scan.fail] at h
          · rename_i expected hsum
            split at h
            · simp [Scan.fail] at h
            · rename_i hstored
              -- the four parts of a frame
              generalize hn : fromBytes ((rest.drop 4).take 4) = n at *
              have hmarker : rest.take 4 = sync.marker (decide (rest.take 4 = sync.marker true)) := by
                by_cases hm : rest.take 4 = sync.marker true
                · rw [decide_eq_true hm, hm]
                · have hm' : rest.take 4 = sync.marker false := by
                    by_contra hm'
                    exact hmark ⟨hm, hm'⟩
                  rw [decide_eq_false hm, hm']
              have hpayload : ((rest.drop 16).take n).length = n := by
                rw [List.length_take, List.length_drop]
                omega
              have hsize : toBytes ((rest.drop 16).take n).length 4 = .ok ((rest.drop 4).take 4) := by
                rw [hpayload, ← hn]
                apply toBytes_fromBytes
                rw [List.length_take, List.length_drop]
                omega
              rw [not_ne_iff] at hstored
              refine ⟨decide (rest.take 4 = sync.marker true), (rest.drop 16).take n,
                rest.take (16 + n), rest.drop (16 + n), (List.take_append_drop _ _).symm, ?_⟩
              rw [Framer.frame, if_neg hpos, if_neg hpos, hsum, hsize]
              simp only [bind, Except.bind, List.nil_append, Except.ok.injEq]
              rw [← hstored, ← hmarker, List.take_add (i := 16), show rest.take 16 = rest.take (4 + (4 + 8)) from rfl,
                List.take_add (i := 4), List.take_add (i := 4), List.drop_drop]
              simp

/-- **What the binary reader accepts has been framed.** -/
lemma frames_of_binLoop {sync : Sync} {rest : Bytes} {pos fuel : ℕ} (hpos : pos ≠ 0)
    (hfuel : rest.length ≤ fuel) (h : (binLoop blake3 sync fuel rest pos).error = none) :
    (Framer.bin sync).frames blake3 pos
      ((binLoop blake3 sync fuel rest pos).records.map fun r => (r.1.isSnapshot, r.1.payload)) = .ok rest := by
  induction fuel generalizing rest pos with
  | zero =>
    obtain rfl := List.length_eq_zero_iff.mp (Nat.le_zero.mp hfuel)
    rfl
  | succ fuel ih =>
    by_cases hne : rest = []
    · subst hne
      rw [binLoop_nil]
      rfl
    · obtain ⟨isSnapshot, payload, fr, tail, rfl, hfr⟩ := binLoop_round blake3 hpos hne h
      have hlen := frame_length blake3 hfr
      have hframe := frameLength_pos (.bin sync) isSnapshot payload pos
      rw [List.length_append] at hfuel
      rw [binLoop_frame blake3 hpos hfr] at h ⊢
      exact (frames_cons blake3).mpr ⟨fr, tail, hfr, ih (by omega) (by omega) h, rfl⟩

lemma length_le_of_frames {framer : Framer} {items : List Item} {data : Bytes} {offset : ℕ}
    (h : framer.frames blake3 offset items = .ok data) : items.length ≤ data.length := by
  induction items generalizing data offset with
  | nil => exact Nat.zero_le _
  | cons item items ih =>
    obtain ⟨fr, tail, hfr, htail, rfl⟩ := (frames_cons blake3).mp h
    have := frameLength_pos framer item.1 item.2 offset
    rw [← frame_length blake3 hfr] at this
    have := ih htail
    rw [List.length_cons, List.length_append]
    omega

/-- A reader that accepts what is there also accepts frames written behind it. -/
lemma binLoop_append {sync : Sync} {items : List Item} {rest data : Bytes} {fuel pos : ℕ}
    (hpos : pos ≠ 0) (hfuel : rest.length ≤ fuel) (h : (binLoop blake3 sync fuel rest pos).error = none)
    (hd : (Framer.bin sync).frames blake3 (pos + rest.length) items = .ok data) (more : ℕ) :
    (binLoop blake3 sync (fuel + more + items.length) (rest ++ data) pos).error = none := by
  have hrest := frames_of_binLoop blake3 hpos hfuel h
  have hall := (frames_append blake3).mpr ⟨rest, data, hrest, hd, rfl⟩
  have hle := length_le_of_frames blake3 hrest
  have := binLoop_frames blake3 hpos hall []
    (fuel + more + items.length - (items.length + (binLoop blake3 sync fuel rest pos).records.length))
  rw [List.append_nil, binLoop_nil, List.length_append] at this
  rw [List.length_map] at this hle
  rw [show fuel + more + items.length = fuel + more + items.length - (items.length +
    (binLoop blake3 sync fuel rest pos).records.length) + ((binLoop blake3 sync fuel rest pos).records.length +
      items.length) by omega, this]

/-! ### Reading lines -/

/-- A payload that the line framer can carry: it is what `strip` leaves of its line, and a change
does not look like a snapshot. -/
structure Fits (item : Item) : Prop where
  no_newline : newline ∉ item.2
  not_empty : item.2 ≠ []
  stripped : strip ((if item.1 then snapshotPrefix else []) ++ item.2) =
    (if item.1 then snapshotPrefix else []) ++ item.2
  marked : item.1 = false → snapshotPrefix.isPrefixOf item.2 = false

instance (item : Item) : Decidable (Fits item) :=
  decidable_of_iff
    (newline ∉ item.2 ∧ item.2 ≠ [] ∧
      strip ((if item.1 then snapshotPrefix else []) ++ item.2) =
        (if item.1 then snapshotPrefix else []) ++ item.2 ∧
      (item.1 = false → snapshotPrefix.isPrefixOf item.2 = false))
    ⟨fun ⟨h1, h2, h3, h4⟩ => ⟨h1, h2, h3, h4⟩, fun ⟨h1, h2, h3, h4⟩ => ⟨h1, h2, h3, h4⟩⟩

/-- The line of a payload. -/
def lineOf (item : Item) : Bytes := (if item.1 then snapshotPrefix else []) ++ item.2

lemma newline_notMem_lineOf {item : Item} (h : Fits item) : newline ∉ lineOf item := by
  rw [lineOf, List.mem_append, not_or]
  refine ⟨?_, h.no_newline⟩
  split
  · exact newline_notMem_snapshotPrefix
  · simp

lemma lineOf_ne_nil {item : Item} (h : Fits item) : lineOf item ≠ [] := by
  simp [lineOf, h.not_empty]

lemma isPrefixOf_lineOf {item : Item} (h : Fits item) : snapshotPrefix.isPrefixOf (lineOf item) = item.1 := by
  obtain ⟨isSnapshot, payload⟩ := item
  cases isSnapshot with
  | false => simpa [lineOf] using h.marked rfl
  | true => simp [lineOf]

lemma drop_lineOf {payload : Bytes} : (lineOf (true, payload)).drop snapshotPrefix.length = payload := by
  simp [lineOf]

/-- One round of the line reader takes one line off. -/
lemma lineLoop_frame {item : Item} (h : Fits item) (rest : Bytes) (fuel lineNumber pos : ℕ) :
    lineLoop (fuel + 1) (lineOf item ++ newline :: rest) lineNumber pos =
      ⟨item.1, item.2, lineNumber, pos⟩ ::
        lineLoop fuel rest (lineNumber + 1) (pos + ((lineOf item).length + 1)) := by
  have hne : lineOf item ++ newline :: rest ≠ [] := by simp
  have hstrip : strip (lineOf item) = lineOf item := h.stripped
  have hpayload : (if item.1 then (lineOf item).drop snapshotPrefix.length else lineOf item) = item.2 := by
    obtain ⟨isSnapshot, payload⟩ := item
    cases isSnapshot with
    | false => simp [lineOf]
    | true => exact drop_lineOf
  rw [lineLoop, if_neg hne]
  dsimp only
  rw [takeWhile_line (newline_notMem_lineOf h), drop_line, hstrip, if_neg (lineOf_ne_nil h),
    isPrefixOf_lineOf h, hpayload]

@[simp] lemma lineLoop_nil (fuel lineNumber pos : ℕ) : lineLoop fuel [] lineNumber pos = [] := by
  cases fuel <;> simp [lineLoop]

/-- The line reader takes all frames off. -/
lemma lineLoop_frames {items : List Item} {data : Bytes} {offset : ℕ} (hfit : ∀ i ∈ items, Fits i)
    (h : Framer.line.frames blake3 offset items = .ok data) (rest : Bytes)
    (fuel lineNumber pos : ℕ) :
    lineLoop (fuel + items.length) (data ++ rest) lineNumber pos =
      Framer.line.placed lineNumber pos items ++
        lineLoop fuel rest (lineNumber + items.length) (pos + data.length) := by
  induction items generalizing data offset lineNumber pos with
  | nil =>
    obtain rfl : [] = data := Except.ok.inj h
    rfl
  | cons item items ih =>
    obtain ⟨fr, tail, hfr, htail, rfl⟩ := (frames_cons blake3).mp h
    rw [List.forall_mem_cons] at hfit
    have hlen := frame_length blake3 hfr
    obtain rfl : lineOf item ++ [newline] = fr := Except.ok.inj hfr
    have hlen' : (lineOf item).length + 1 = Framer.line.frameLength item.1 item.2 pos := by
      rw [← show (lineOf item ++ [newline]).length = (lineOf item).length + 1 by simp, hlen]
      rfl
    have e : (lineOf item ++ [newline] ++ tail) ++ rest = lineOf item ++ newline :: (tail ++ rest) := by simp
    rw [List.length_cons, ← Nat.add_assoc, e, lineLoop_frame hfit.1, ih hfit.2 htail, Framer.placed,
      ← hlen']
    simp only [List.cons_append, List.length_append, List.length_cons, List.length_nil]
    refine congrArg₂ _ rfl (congrArg₂ _ rfl ?_)
    congr 1 <;> omega

/-- A line for each payload. -/
lemma count_newline {items : List Item} {data : Bytes} {offset : ℕ} (hfit : ∀ i ∈ items, Fits i)
    (h : Framer.line.frames blake3 offset items = .ok data) : data.count newline = items.length := by
  induction items generalizing data offset with
  | nil =>
    obtain rfl : [] = data := Except.ok.inj h
    rfl
  | cons item items ih =>
    obtain ⟨fr, tail, hfr, htail, rfl⟩ := (frames_cons blake3).mp h
    rw [List.forall_mem_cons] at hfit
    obtain rfl : lineOf item ++ [newline] = fr := Except.ok.inj hfr
    rw [List.count_append, List.count_append, ih hfit.2 htail,
      List.count_eq_zero.mpr (newline_notMem_lineOf hfit.1), List.count_singleton_self, List.length_cons]
    omega

/-- The search for the last snapshot line goes over the frames of changes. -/
lemma lastSnapshotLine_changes {items : List Item} {data : Bytes} {offset : ℕ}
    (hfit : ∀ i ∈ items, Fits i) (hch : ∀ i ∈ items, i.1 = false)
    (h : Framer.line.frames blake3 offset items = .ok data) : lastSnapshotLine data = none := by
  induction items generalizing data offset with
  | nil =>
    obtain rfl : [] = data := Except.ok.inj h
    rfl
  | cons item items ih =>
    obtain ⟨fr, tail, hfr, htail, rfl⟩ := (frames_cons blake3).mp h
    rw [List.forall_mem_cons] at hfit hch
    obtain rfl : lineOf item ++ [newline] = fr := Except.ok.inj hfr
    rw [show lineOf item ++ [newline] ++ tail = lineOf item ++ newline :: tail by simp,
      lastSnapshotLine_cons (newline_notMem_lineOf hfit.1), ih hfit.2 hch.2 htail,
      isPrefixOf_lineOf hfit.1, hch.1]
    rfl

/-- It stops at the last snapshot. -/
lemma lastSnapshotLine_frames {items post : List Item} {payload data before : Bytes} {offset : ℕ}
    (hfit : ∀ i ∈ items ++ (true, payload) :: post, Fits i) (hch : ∀ i ∈ post, i.1 = false)
    (hb : Framer.line.frames blake3 offset items = .ok before)
    (h : Framer.line.frames blake3 offset (items ++ (true, payload) :: post) = .ok data) :
    lastSnapshotLine data = some before.length := by
  induction items generalizing data before offset with
  | nil =>
    obtain rfl : [] = before := Except.ok.inj hb
    obtain ⟨fr, tail, hfr, htail, rfl⟩ := (frames_cons blake3).mp h
    rw [List.nil_append, List.forall_mem_cons] at hfit
    obtain rfl : lineOf (true, payload) ++ [newline] = fr := Except.ok.inj hfr
    rw [show lineOf (true, payload) ++ [newline] ++ tail = lineOf (true, payload) ++ newline :: tail by simp,
      lastSnapshotLine_cons (newline_notMem_lineOf hfit.1),
      lastSnapshotLine_changes blake3 hfit.2 hch htail, isPrefixOf_lineOf hfit.1]
    rfl
  | cons item items ih =>
    rw [List.cons_append] at h hfit
    obtain ⟨fr, tail, hfr, htail, rfl⟩ := (frames_cons blake3).mp h
    obtain ⟨fr', before', hfr', hb', rfl⟩ := (frames_cons blake3).mp hb
    rw [List.forall_mem_cons] at hfit
    obtain rfl : fr = fr' := Except.ok.inj (hfr.symm.trans hfr')
    obtain rfl : lineOf item ++ [newline] = fr := Except.ok.inj hfr
    rw [show lineOf item ++ [newline] ++ tail = lineOf item ++ newline :: tail by simp,
      lastSnapshotLine_cons (newline_notMem_lineOf hfit.1), ih hfit.2 hb' htail]
    simp only [List.length_append, List.length_cons, List.length_nil, Option.some.injEq]
    omega

/-! ### Both readers -/

/-- What a framer asks of a payload. -/
def Framer.Fits (framer : Framer) (item : Item) : Prop :=
  match framer with
  | .line => Kanta.Fits item
  | .bin _ => True

/-- The first frame of a binary file brings the seed along. -/
lemma frames_zero {sync : Sync} {items : List Item} {data : Bytes} (hne : items ≠ [])
    (h : (Framer.bin sync).frames blake3 0 items = .ok data) :
    ∃ body, data = sync.bytes ++ body ∧ (Framer.bin sync).frames blake3 4 items = .ok body := by
  obtain ⟨item, items, rfl⟩ := List.exists_cons_of_ne_nil hne
  obtain ⟨fr, tail, hfr, htail, rfl⟩ := (frames_cons blake3).mp h
  obtain ⟨sum, len, hsum, hlen, rfl⟩ := frame_bin blake3 hfr
  rw [if_pos rfl] at hsum htail
  have hfr4 : (Framer.bin sync).frame blake3 item.1 item.2 4 =
      .ok (sync.marker item.1 ++ len ++ sum ++ item.2) := by
    rw [Framer.frame, if_neg (by decide), if_neg (by decide), hsum, hlen]
    simp [bind, Except.bind]
  refine ⟨sync.marker item.1 ++ len ++ sum ++ item.2 ++ tail, by simp, (frames_cons blake3).mpr
    ⟨_, tail, hfr4, ?_, rfl⟩⟩
  rw [List.length_append, sync.length_eq] at htail
  simpa using htail

/-- What begins with a seed is not empty. -/
lemma Sync.append_ne_nil (sync : Sync) (body : Bytes) : sync.bytes ++ body ≠ [] := by
  intro h
  have hlen := sync.length_eq
  simp [(List.append_eq_nil_iff.mp h).1] at hlen

lemma load_bin {sync sync' : Sync} (body : Bytes) :
    (Framer.bin sync').load (sync.bytes ++ body) = .ok (.bin sync) := by
  have hlen : ¬(sync.bytes ++ body).length < 4 := by
    rw [List.length_append, sync.length_eq]
    omega
  rw [Framer.load, if_neg (sync.append_ne_nil body), dif_neg hlen, Sync.ofData]
  congr 3
  exact List.take_left' sync.length_eq

/-- **The records from any frame on** are read back as they were framed. -/
theorem iterRecords_frames {framer : Framer} {before items : List Item} {d e : Bytes}
    (hfit : ∀ i ∈ items, framer.Fits i) (hd : framer.frames blake3 0 before = .ok d)
    (he : framer.frames blake3 d.length items = .ok e) :
    framer.iterRecords blake3 (d ++ e) d.length =
      ⟨framer.placed (d.count newline + 1) d.length items, none⟩ := by
  have hlen := length_le_of_frames blake3 he
  cases framer with
  | line =>
    rw [Framer.iterRecords, List.drop_left' rfl, List.take_left' rfl]
    have := lineLoop_frames blake3 hfit he [] ((d ++ e).length - items.length)
      (d.count newline + 1) d.length
    rw [List.append_nil, lineLoop_nil, List.append_nil, Nat.sub_add_cancel (by simp; omega)] at this
    rw [this]
  | bin sync =>
    rw [placed_bin]
    by_cases hall : before ++ items = []
    · obtain ⟨rfl, rfl⟩ := List.append_eq_nil_iff.mp hall
      obtain rfl : [] = d := Except.ok.inj hd
      obtain rfl : [] = e := Except.ok.inj he
      rfl
    · have hde : (Framer.bin sync).frames blake3 0 (before ++ items) = .ok (d ++ e) :=
        (frames_append blake3).mpr ⟨d, e, hd, by rwa [Nat.zero_add], rfl⟩
      obtain ⟨body, hbody, hframes⟩ := frames_zero blake3 hall hde
      have hne : d ++ e ≠ [] := hbody ▸ sync.append_ne_nil body
      rw [Framer.iterRecords, if_neg hne, hbody, load_bin, ← hbody]
      dsimp only
      by_cases h0 : d.length = 0
      · -- from the start: the seed is skipped
        obtain rfl : d = [] := List.eq_nil_of_length_eq_zero h0
        have hb : before = [] := by
          have := length_le_of_frames blake3 hd
          exact List.eq_nil_of_length_eq_zero (by simpa using this)
        subst hb
        rw [List.nil_append] at hbody hframes hne hall ⊢
        have := binLoop_frames blake3 (by decide) hframes [] (e.length - items.length)
        rw [List.append_nil, binLoop_nil, List.append_nil, Nat.sub_add_cancel hlen] at this
        simp only [List.length_nil, if_true]
        rw [hbody, List.drop_left' sync.length_eq, ← hbody, this]
        obtain ⟨item, items, rfl⟩ := List.exists_cons_of_ne_nil hall
        have hmap : (binPlaced (20 + item.2.length) items).map Prod.fst =
            (Framer.bin sync).placed 1 (20 + item.2.length) items := map_binPlaced (by omega) 1 items
        simp [binPlaced, Framer.placed, Framer.framePos, Framer.lineNo, Framer.frameLength, ← Nat.add_assoc, hmap]
      · have := binLoop_frames blake3 h0 he [] ((d ++ e).length - items.length)
        rw [List.append_nil, binLoop_nil, List.append_nil, Nat.sub_add_cancel (by simp; omega)] at this
        rw [if_neg h0, List.drop_left' rfl, this]
        simp only
        rw [map_binPlaced h0 0]

/-- All records, from the start. -/
lemma iterRecords_start {framer : Framer} {items : List Item} {data : Bytes}
    (hfit : ∀ i ∈ items, framer.Fits i) (h : framer.frames blake3 0 items = .ok data) :
    framer.iterRecords blake3 data 0 = ⟨framer.placed 1 0 items, none⟩ := by
  have h0 : framer.frames blake3 0 [] = .ok [] := rfl
  simpa using iterRecords_frames blake3 hfit h0 (by simpa using h)

/-- A reader that accepts a file has found a seed in it. -/
lemma load_of_iterRecords {framer : Framer} {file : Bytes} {offset : ℕ}
    (h : (framer.iterRecords blake3 file offset).error = none) : ∃ fr, framer.load file = .ok fr := by
  cases framer with
  | line => exact ⟨.line, rfl⟩
  | bin sync =>
    by_cases hne : file = []
    · exact ⟨.bin sync, by simp [Framer.load, hne]⟩
    · rw [Framer.iterRecords, if_neg hne] at h
      split at h
      · exact ⟨_, ‹_›⟩
      · exact ⟨_, ‹_›⟩
      · simp [Scan.fail] at h

/-- A file that was accepted is still accepted with frames behind it. -/
theorem iterRecords_append {framer fr : Framer} {file data : Bytes} {items : List Item}
    (h : (framer.iterRecords blake3 file 0).error = none) (hload : framer.load file = .ok fr)
    (hne : file ≠ []) (hd : fr.frames blake3 file.length items = .ok data) :
    (fr.iterRecords blake3 (file ++ data) 0).error = none := by
  cases framer with
  | line =>
    obtain rfl : Framer.line = fr := Except.ok.inj hload
    rfl
  | bin sync =>
    rw [Framer.iterRecords, if_neg hne] at h
    rw [Framer.load, if_neg hne] at hload
    split at hload
    · simp at hload
    · rename_i hlen
      obtain rfl := Except.ok.inj hload
      rw [Framer.load, if_neg hne, dif_neg hlen] at h
      have hl : (Framer.bin (.ofData file hlen)).load (file ++ data) = .ok (.bin (.ofData file hlen)) := by
        rw [Framer.load, if_neg (by simp [hne]), dif_neg (by simp; omega)]
        simp only [Sync.ofData, List.take_append_of_le_length (show 4 ≤ file.length by omega)]
      rw [Framer.iterRecords, if_neg (by simp [hne]), hl]
      have hdrop : (file ++ data).drop 4 = file.drop 4 ++ data :=
        List.drop_append_of_le_length (by omega)
      have hitems := length_le_of_frames blake3 hd
      -- the fuel is the length of the file, which is enough for both parts
      obtain ⟨k, hk⟩ : ∃ k, (file ++ data).length = file.length + k + items.length :=
        ⟨data.length - items.length, by simp; omega⟩
      have hlen' : 4 + (file.drop 4).length = file.length := by
        simp
        omega
      simp only [if_true] at h ⊢
      rw [hdrop, hk]
      exact binLoop_append blake3 (by simp) (by simp) h (by rwa [hlen']) k

/-- What `scan_last_snapshot` makes of a binary file whose frames are `items`. -/
lemma scanLastSnapshot_bin {sync : Sync} {items : List Item} {data : Bytes} (hne : items ≠ [])
    (h : (Framer.bin sync).frames blake3 0 items = .ok data) :
    (Framer.bin sync).scanLastSnapshot blake3 data =
      .ok ((binPlaced 4 items).foldl
        (fun last r => if r.1.isSnapshot then (some r.1.payload, r.2, r.1.bytePos) else last)
        (none, 4, 0)) := by
  have hlen := length_le_of_frames blake3 h
  obtain ⟨body, hbody, hframes⟩ := frames_zero blake3 hne h
  have hne : data ≠ [] := hbody ▸ sync.append_ne_nil body
  have := binLoop_frames blake3 (by decide) hframes [] (data.length - items.length)
  rw [List.append_nil, binLoop_nil, List.append_nil, Nat.sub_add_cancel hlen] at this
  rw [Framer.scanLastSnapshot, if_neg hne, hbody, load_bin, ← hbody]
  simp only [bind, Except.bind]
  rw [hbody, List.drop_left' sync.length_eq, ← hbody, this]

lemma foldl_changes {pos : ℕ} {items : List Item} (hch : ∀ i ∈ items, i.1 = false)
    (last : Option Bytes × ℕ × ℕ) :
    (binPlaced pos items).foldl
      (fun last r => if r.1.isSnapshot then (some r.1.payload, r.2, r.1.bytePos) else last) last =
      last := by
  induction items generalizing pos with
  | nil => rfl
  | cons item items ih =>
    rw [List.forall_mem_cons] at hch
    rw [binPlaced, List.foldl_cons]
    simp only [hch.1, Bool.false_eq_true, if_false]
    exact ih hch.2

lemma binPlaced_append {pos : ℕ} {sync : Sync} {items more : List Item} {d : Bytes} (hpos : pos ≠ 0)
    (h : (Framer.bin sync).frames blake3 pos items = .ok d) :
    binPlaced pos (items ++ more) = binPlaced pos items ++ binPlaced (pos + d.length) more := by
  induction items generalizing pos d with
  | nil =>
    obtain rfl : [] = d := Except.ok.inj h
    rfl
  | cons item items ih =>
    obtain ⟨fr, tail, hfr, htail, rfl⟩ := (frames_cons blake3).mp h
    have hlen := frame_length blake3 hfr
    simp only [Framer.frameLength, if_neg hpos, Nat.zero_add] at hlen
    rw [hlen] at htail
    rw [List.cons_append, binPlaced, binPlaced, ih (by omega) htail, List.cons_append,
      List.length_append, hlen, Nat.add_assoc]

/-- A file without snapshots. -/
theorem scanLastSnapshot_changes {framer : Framer} {items : List Item} {data : Bytes}
    (hfit : ∀ i ∈ items, framer.Fits i) (hch : ∀ i ∈ items, i.1 = false)
    (h : framer.frames blake3 0 items = .ok data) :
    ∃ offset, framer.scanLastSnapshot blake3 data = .ok (none, offset, 0) ∧
      framer.iterRecords blake3 data offset = ⟨framer.placed 1 0 items, none⟩ := by
  have hn := iterRecords_start blake3 hfit h
  cases framer with
  | line =>
    refine ⟨0, ?_, hn⟩
    have : lastSnapshotLine data = none := lastSnapshotLine_changes blake3 hfit hch h
    simp only [Framer.scanLastSnapshot, this]
  | bin sync =>
    by_cases hne : items = []
    · subst hne
      obtain rfl : [] = data := Except.ok.inj h
      exact ⟨0, rfl, rfl⟩
    · refine ⟨4, ?_, ?_⟩
      · rw [scanLastSnapshot_bin blake3 hne h, foldl_changes hch]
      · obtain ⟨body, rfl, -⟩ := frames_zero blake3 hne h
        have hne' := sync.append_ne_nil body
        -- reading from 4 is reading from the start
        rw [← hn, Framer.iterRecords, Framer.iterRecords, if_neg hne', if_neg hne']
        rfl

/-- **The last snapshot of a file**, and the changes behind it. -/
theorem scanLastSnapshot_frames {framer : Framer} {items post : List Item} {payload before data : Bytes}
    (hfit : ∀ i ∈ items ++ (true, payload) :: post, framer.Fits i) (hch : ∀ i ∈ post, i.1 = false)
    (hb : framer.frames blake3 0 items = .ok before)
    (h : framer.frames blake3 0 (items ++ (true, payload) :: post) = .ok data) :
    ∃ offset, offset = before.length + framer.frameLength true payload before.length ∧
      framer.scanLastSnapshot blake3 data = .ok (some payload, offset, framer.framePos before.length) ∧
      framer.iterRecords blake3 data offset =
        ⟨framer.placed ((data.take offset).count newline + 1) offset post, none⟩ := by
  obtain ⟨_, after, hb', ha, rfl⟩ := (frames_append blake3).mp h
  obtain rfl := Except.ok.inj (hb.symm.trans hb')
  obtain ⟨fr, e, hfr, he, rfl⟩ := (frames_cons blake3).mp ha
  have hb' : framer.frames blake3 0 (items ++ [(true, payload)]) = .ok (before ++ fr) :=
    (frames_append blake3).mpr ⟨before, fr, hb, (frames_cons blake3).mpr ⟨fr, [], hfr, rfl, by simp⟩, rfl⟩
  have hpost : ∀ i ∈ post, framer.Fits i := fun i hi => hfit i (by simp [hi])
  have hn := iterRecords_frames blake3 hpost hb'
    (by rwa [List.length_append, ← Nat.zero_add (before.length + fr.length), ← Nat.add_assoc])
  rw [List.append_assoc] at hn
  have hlen := frame_length blake3 hfr
  rw [Nat.zero_add] at hlen
  refine ⟨(before ++ fr).length, by rw [List.length_append, hlen], ?_, ?_⟩
  swap
  · rw [hn, ← List.append_assoc, List.take_left' rfl]
  cases framer with
  | line =>
    have hlast : lastSnapshotLine (before ++ (fr ++ e)) = some before.length :=
      lastSnapshotLine_frames blake3 hfit hch hb h
    obtain rfl : lineOf (true, payload) ++ [newline] = fr := Except.ok.inj hfr
    have hline : (List.drop before.length (before ++ (lineOf (true, payload) ++ [newline] ++ e))).takeWhile
        (· ≠ newline) = lineOf (true, payload) := by
      rw [List.drop_left' rfl, List.append_assoc, List.singleton_append]
      exact takeWhile_line (newline_notMem_lineOf (hfit _ (by simp)))
    simp only [Framer.scanLastSnapshot, hlast, hline, drop_lineOf]
    rw [if_neg (by simp only [List.length_append, List.length_cons]; omega)]
    simp [Framer.framePos, Nat.add_assoc]
  | bin sync =>
    rw [scanLastSnapshot_bin blake3 (by simp) h]
    obtain ⟨body, hbody, hframes⟩ := frames_zero blake3 (by simp) h
    obtain ⟨d, e', hd, -, -⟩ := (frames_append blake3).mp hframes
    rw [binPlaced_append blake3 (by decide) hd, List.foldl_append, binPlaced, List.foldl_cons,
      foldl_changes hch]
    -- the seed stands in front of the first frame
    have hd0 : before.length = 0 ∧ d = [] ∨ before.length = 4 + d.length := by
      by_cases hi : items = []
      · subst hi
        obtain rfl : [] = before := Except.ok.inj hb
        exact Or.inl ⟨rfl, (Except.ok.inj hd).symm⟩
      · obtain ⟨b, rfl, hb4⟩ := frames_zero blake3 hi hb
        obtain rfl : b = d := Except.ok.inj (hb4.symm.trans hd)
        exact Or.inr (by rw [List.length_append, sync.length_eq])
    simp only [if_true, Except.ok.injEq, Prod.mk.injEq, true_and, List.length_append, hlen,
      Framer.frameLength, Framer.framePos]
    rcases hd0 with ⟨h0, rfl⟩ | h0
    · simp [h0, ← Nat.add_assoc]
    · have : before.length ≠ 0 := by omega
      simp only [if_neg this]
      omega

end

end Kanta
