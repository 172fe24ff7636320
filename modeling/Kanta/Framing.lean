import Kanta.Structs

/-!
# Framing

How payloads are delimited on disk.  `LineFramer` writes one payload a line, with the prefix
`SNAPSHOT ` in front of a snapshot.  `BinFramer` writes a sync marker, the length and a checksum in
front of each payload; the checksum depends on the byte offset of the frame and on the seed in the
first four bytes of the file.  The hash BLAKE3 is an arbitrary function `blake3` of key and
payload.

A reader is a generator: what it yields before it fails is part of the result.
-/

namespace Kanta

/-! ### Bytes -/

/-- The bytes of an ASCII literal. -/
def ascii (s : String) : Bytes := s.toList.map fun c => UInt8.ofNat c.toNat

/-- The little-endian digits of `n`. -/
def littleEndian : ℕ → ℕ → Bytes
  | 0, _ => []
  | width + 1, n => UInt8.ofNat (n % 256) :: littleEndian width (n / 256)

/-- `n.to_bytes(width, "little")`. -/
def toBytes (n width : ℕ) : Except Exc Bytes :=
  if n < 256 ^ width then .ok (littleEndian width n) else .error .overflowError

/-- `int.from_bytes(b, "little")`. -/
def fromBytes : Bytes → ℕ
  | [] => 0
  | b :: r => b.toNat + 256 * fromBytes r

def newline : UInt8 := 10

/-- The bytes that `bytes.strip` strips. -/
def isSpace (b : UInt8) : Bool := b = 32 || (9 ≤ b && b ≤ 13)

/-- `b.strip()`. -/
def strip (b : Bytes) : Bytes := ((b.dropWhile isSpace).reverse.dropWhile isSpace).reverse

/-- `data.rfind(needle)`. -/
def rfind (needle : Bytes) : Bytes → Option ℕ
  | [] => if needle.isPrefixOf [] then some 0 else none
  | b :: r =>
    match rfind needle r with
    | some i => some (i + 1)
    | none => if needle.isPrefixOf (b :: r) then some 0 else none

/-! ### The two framers -/

/-- The seed of a binary file. -/
structure Sync where
  bytes : Bytes
  length_eq : bytes.length = 4

/-- An eight-byte digest. -/
structure Digest where
  bytes : Bytes
  length_eq : bytes.length = 8

/-- A framer with its state: the binary framer holds the seed of the file. -/
inductive Framer where
  | line
  | bin (sync : Sync)

/-- `SNAPSHOT_PREFIX`. -/
def snapshotPrefix : Bytes := ascii "SNAPSHOT "

namespace Sync

/-- The marker in front of a frame: the seed for a snapshot, its complement for a change. -/
def marker (sync : Sync) (isSnapshot : Bool) : Bytes :=
  if isSnapshot then sync.bytes else sync.bytes.map (~~~ ·)

/-- `data[:4]`. -/
def ofData (data : Bytes) (h : ¬data.length < 4) : Sync :=
  ⟨data.take 4, by simp; omega⟩

end Sync

section

variable (blake3 : Bytes → Bytes → Digest)

/-- `_checksum`. -/
def checksum (sync : Sync) (isSnapshot : Bool) (recordOffset : ℕ) (payload : Bytes) :
    Except Exc Bytes := do
  let domain := ascii (if isSnapshot then "SNAPSHOT" else "DIFFRECD")
  let offsetPart ← toBytes recordOffset 8
  .ok (blake3 (ascii "Kanta blake3" ++ domain ++ sync.bytes ++ offsetPart) payload).bytes

namespace Framer

/-- The frame of a payload that is written at `recordOffset`. -/
def frame : Framer → Bool → Bytes → ℕ → Except Exc Bytes
  | .line, isSnapshot, payload, _ =>
    .ok ((if isSnapshot then snapshotPrefix else []) ++ payload ++ [newline])
  | .bin sync, isSnapshot, payload, recordOffset => do
    -- the first frame of a file brings the seed along
    let header := if recordOffset = 0 then sync.bytes else []
    let effectiveOffset := if recordOffset = 0 then 4 else recordOffset
    let checksum ← checksum blake3 sync isSnapshot effectiveOffset payload
    let payloadLen ← toBytes payload.length 4
    .ok (header ++ (sync.marker isSnapshot ++ payloadLen ++ checksum ++ payload))

/-- `frame_change`. -/
def frameChange (framer : Framer) (payload : Bytes) (recordOffset : ℕ) : Except Exc Bytes :=
  framer.frame blake3 false payload recordOffset

/-- `frame_snapshot`. -/
def frameSnapshot (framer : Framer) (payload : Bytes) (recordOffset : ℕ) : Except Exc Bytes :=
  framer.frame blake3 true payload recordOffset

end Framer

end

/-! ### Reading -/

/-- What a reader yields for one record. -/
structure RawRecord where
  isSnapshot : Bool
  payload : Bytes
  lineNumber : ℕ
  bytePos : ℕ
deriving DecidableEq

/-- What a generator yields, and the exception it ends in, if any. -/
structure Scan (α : Type) where
  records : List α
  error : Option Exc

namespace Scan

/-- One more record in front. -/
def cons {α : Type} (r : α) (s : Scan α) : Scan α := ⟨r :: s.records, s.error⟩

/-- The end of the generator by an exception. -/
def fail {α : Type} (e : Exc) : Scan α := ⟨[], some e⟩

end Scan

/-- The loop of `LineFramer.iter_records`; each round takes at least one byte. -/
def lineLoop : ℕ → Bytes → ℕ → ℕ → List RawRecord
  | 0, _, _, _ => []
  | fuel + 1, rest, lineNumber, pos =>
    if rest = [] then []
    else
      let raw := rest.takeWhile (· ≠ newline)
      let line := strip raw
      let tail := lineLoop fuel (rest.drop (raw.length + 1)) (lineNumber + 1) (pos + (raw.length + 1))
      if line = [] then tail
      else
        let isSnapshot := snapshotPrefix.isPrefixOf line
        let payload := if isSnapshot then line.drop snapshotPrefix.length else line
        ⟨isSnapshot, payload, lineNumber, pos⟩ :: tail

/-- The record type a binary reader names in its errors. -/
def recordType (isSnapshot : Bool) : Option String :=
  some (if isSnapshot then "snapshot" else "change")

/-- The loop of `BinFramer._iter_records_internal`, with the offset behind each record. -/
def binLoop (blake3 : Bytes → Bytes → Digest) (sync : Sync) : ℕ → Bytes → ℕ → Scan (RawRecord × ℕ)
  | 0, _, _ => ⟨[], none⟩
  | fuel + 1, rest, pos =>
    if rest = [] then ⟨[], none⟩
    else if rest.length < 4 then
      .fail (.replayError "incomplete frame at end of file" (some 0) (some pos) none)
    else if rest.take 4 ≠ sync.marker true ∧ rest.take 4 ≠ sync.marker false then
      .fail (.replayError "invalid frame marker" (some 0) (some pos) none)
    else
      let isSnapshot := decide (rest.take 4 = sync.marker true)
      if rest.length < 16 then
        .fail (.replayError "incomplete frame at end of file" (some 0) (some pos) (recordType isSnapshot))
      else
        let payloadLen := fromBytes ((rest.drop 4).take 4)
        let stored := (rest.drop 8).take 8
        if rest.length < 16 + payloadLen then
          .fail (.replayError "incomplete frame at end of file" (some 0) (some pos)
            (recordType isSnapshot))
        else
          let payload := (rest.drop 16).take payloadLen
          match checksum blake3 sync isSnapshot pos payload with
          | .error e => .fail e
          | .ok expected =>
            if stored ≠ expected then
              .fail (.replayError "invalid frame checksum" (some 0) (some pos) (recordType isSnapshot))
            else
              let next := pos + (16 + payloadLen)
              (binLoop blake3 sync fuel (rest.drop (16 + payloadLen)) next).cons
                (⟨isSnapshot, payload, 0, pos⟩, next)

/-- Where the last snapshot line starts. -/
def lastSnapshotLine (data : Bytes) : Option ℕ :=
  match rfind (newline :: snapshotPrefix) data with
  | some pos => some (pos + 1)
  | none => if snapshotPrefix.isPrefixOf data then some 0 else none

namespace Framer

/-- `_load_sync_seed_from_data`: the binary framer takes over the seed of the file. -/
def load : Framer → Bytes → Except Exc Framer
  | .line, _ => .ok .line
  | .bin sync, data =>
    if data = [] then .ok (.bin sync)
    else if h : data.length < 4 then
      .error (.replayError "missing binary sync header" (some 0) (some 0) none)
    else .ok (.bin (.ofData data h))

/-- The framer after it has read a file, or has failed to. -/
def reload (framer : Framer) (data : Bytes) : Framer :=
  match framer.load data with
  | .ok framer => framer
  | .error _ => framer

variable (blake3 : Bytes → Bytes → Digest)

/-- `iter_records`. -/
def iterRecords (framer : Framer) (data : Bytes) (offset : ℕ) : Scan RawRecord :=
  match framer with
  | .line =>
    ⟨lineLoop data.length (data.drop offset) ((data.take offset).count newline + 1) offset, none⟩
  | .bin _ =>
    if data = [] then ⟨[], none⟩
    else
      match framer.load data with
      | .ok (.bin sync) =>
        let start := if offset = 0 then 4 else offset
        let s := binLoop blake3 sync data.length (data.drop start) start
        ⟨s.records.map Prod.fst, s.error⟩
      | .ok .line => ⟨[], none⟩
      | .error e => .fail e

/-- `scan_last_snapshot`: the payload of the last snapshot, where to go on reading, and where the
snapshot is. -/
def scanLastSnapshot (framer : Framer) (data : Bytes) : Except Exc (Option Bytes × ℕ × ℕ) :=
  match framer with
  | .line =>
    match lastSnapshotLine data with
    | none => .ok (none, 0, 0)
    | some pos =>
      let line := (data.drop pos).takeWhile (· ≠ newline)
      if pos + line.length = data.length then
        .error (.replayError "incomplete snapshot line at end of file"
          (some ((data.take pos).count newline + 1)) (some pos) (some "snapshot"))
      else .ok (some (line.drop snapshotPrefix.length), pos + line.length + 1, pos)
  | .bin _ =>
    if data = [] then .ok (none, 0, 0)
    else do
      match ← framer.load data with
      | .bin sync =>
        let s := binLoop blake3 sync data.length (data.drop 4) 4
        match s.error with
        | some e => .error e
        | none =>
          .ok (s.records.foldl
            (fun last r => if r.1.isSnapshot then (some r.1.payload, r.2, r.1.bytePos) else last)
            (none, 4, 0))
      | .line => .ok (none, 0, 0)

end Framer

end Kanta
