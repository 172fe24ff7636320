import Kanta.Lib.Lts
import Kanta.Migrations
import Kanta.Persistence
import Kanta.Replay

/-!
# An instance and its tasks

One instance with its file: the transactions that commit, the coroutines that run `flush` (the
background loop, `open`, `close` and any number of callers), and the worker threads that do the
file I/O for them.  The event loop runs one coroutine at a time, from one `await` to the next; a
submitted job runs at any moment between its submission and the resumption of its coroutine, also
while the loop is busy writing a snapshot.  A job whose coroutine was cancelled still runs.

`step` is the transition function.  `committed`, `log`, `entered`, `session` and `ended` only record
what happened; no transition reads them, except that a new change is numbered by its place in
`committed`.
-/

namespace Kanta

open Kanta.Lib Kanta.Lib.Assoc

/-! ### Configuration and state -/

/-- What an instance is configured with, and the code it calls. -/
structure Env where
  blake3 : Bytes → Bytes → Digest
  ser : Serializer
  minDiffs : ℕ
  migrations : Option Migrations
  /-- A time after `datetime.fromtimestamp(ts.timestamp(), UTC)`. -/
  fromTimestamp : DateTime → DateTime

/-- Who awaits a flush. -/
inductive Owner where
  | background
  | opening
  | closing
  | call (n : ℕ)
deriving DecidableEq

/-- A flush that waits for a worker thread, with the batch it copied and the result of the job once
the job has run. -/
inductive Flight where
  | sizing (batch : List Queued) (result : Option (Except Exc ℕ))
  | writing (batch : List (Queued × Bytes)) (result : Option (Except Exc Unit))

/-- Where the background task is. -/
inductive Background where
  | absent
  | ready
  | sleeping
  | flushing
  | handling
  | reporting
  | finished
  | raised (e : Exc)

/-- Where `close` is. -/
inductive Closing where
  | idle
  | joining
  | flushing
deriving DecidableEq

/-- What the coroutine that writes a snapshot does next. -/
inductive Next where
  | sleep
  | finish
  | spawn

/-- A snapshot between `file.size()` and `file.write()`. -/
structure Snapping where
  next : Next
  snap : Snapshot
  payload : Bytes
  offset : ℕ

/-- One append to the file. -/
inductive Entry where
  | change (queued : Queued) (bytes : Bytes)
  | snapshot (snap : Snapshot) (bytes : Bytes)
  | torn (bytes : Bytes)

namespace Entry

/-- The bytes that were appended. -/
def bytes : Entry → Bytes
  | .change _ b => b
  | .snapshot _ b => b
  | .torn b => b

end Entry

/-- The data that the coroutines and the worker threads share. -/
structure Core where
  store : Store
  framer : Framer
  file : Bytes
  flights : List (Owner × Flight)
  strays : List (List (Queued × Bytes))
  log : List Entry

/-- The whole state.  `entered` and `session` count the changes that had been committed when `open`
was last called, and when the last successful `open` was called; `ended` is the flush that ended in
the last step. -/
structure State where
  core : Core
  opened : Bool
  flushFailed : Bool
  snapshot : SnapshotState
  isOpen : Bool
  background : Background
  cancelling : Bool
  closing : Closing
  snapping : Option Snapping
  entered : ℕ
  session : ℕ
  ended : Option (Owner × Except Exc Unit)

namespace State

/-- A fresh instance, before `open`. -/
def init (statedict : Dict) (version : ℤ) (framer : Framer) (file : Bytes) : State where
  core := ⟨⟨statedict, version, none, [], []⟩, framer, file, [], [], []⟩
  opened := false
  flushFailed := false
  snapshot := {}
  isOpen := false
  background := .absent
  cancelling := false
  closing := .idle
  snapping := none
  entered := 0
  session := 0
  ended := none

end State

/-! ### Events -/

/-- How the operating system takes a job: a write that fails may have appended some bytes. -/
inductive Outcome where
  | ok
  | failed (written : ℕ)

/-- A transaction that commits. -/
structure Commit where
  action : String
  current : Dict
  user : Option String
  mtime : Mtime
  now : DateTime

/-- What happens inside one `open`: the data after the bootstrap callbacks, what restoring a state into
the data and encoding the data makes of the state, the verdict of the validators, and the clock. -/
structure Opening where
  bootstrap : Except Exc Dict
  action : String
  user : Option String
  mtime : Mtime
  normalize : Dict → Except Exc Dict
  validated : Except Exc Unit
  clock : Except Exc DateTime

inductive Event where
  /-- A transaction commits. -/
  | commit (c : Commit)
  /-- Somebody awaits `flush()`. -/
  | call (n : ℕ) (clock : Except Exc DateTime)
  /-- A worker thread runs the job of a flush. -/
  | work (o : Owner) (outcome : Outcome)
  /-- A worker thread runs a write that a cancelled flush left behind. -/
  | stray (outcome : Outcome)
  /-- A flush goes on after its job. -/
  | resume (o : Owner) (clock : Except Exc DateTime)
  /-- The background task takes its first step. -/
  | start
  /-- The background loop's sleep is over. -/
  | wake (clock : Except Exc DateTime)
  /-- The cancellation reaches the background task; a job that has not begun may be withdrawn. -/
  | deliver (survives : Bool) (clock : Except Exc DateTime)
  /-- The fatal-error callbacks are done. -/
  | reported
  /-- Somebody calls `request_snapshot()`. -/
  | request
  /-- Somebody awaits `close()`. -/
  | close (clock : Except Exc DateTime)
  /-- `close` goes on after the background task. -/
  | join (clock : Except Exc DateTime)
  /-- The second half of writing a snapshot. -/
  | snapshotWrite (outcome : Outcome)
  /-- Somebody awaits `open()`. -/
  | open (a : Opening)

/-! ### File access -/

namespace Core

/-- `file.write` of some frames. -/
def write (c : Core) (isOpen : Bool) (entries : List Entry) (outcome : Outcome) :
    Core × Except Exc Unit :=
  if isOpen then
    match outcome with
    | .ok =>
      ({ c with file := c.file ++ entries.flatMap Entry.bytes, log := c.log ++ entries }, .ok ())
    | .failed written =>
      let torn := (entries.flatMap Entry.bytes).take written
      ({ c with file := c.file ++ torn, log := c.log ++ [.torn torn] }, .error .osError)
  else (c, .error (.runtimeError "LockedFile.write() called on a closed file"))

/-- `file.size`. -/
def size (c : Core) (isOpen : Bool) (outcome : Outcome) : Except Exc ℕ :=
  if isOpen then
    match outcome with
    | .ok => .ok c.file.length
    | .failed _ => .error .osError
  else .error (.runtimeError "LockedFile.size() called on a closed file")

end Core

/-- The entries of a batch of framed changes. -/
def entriesOf (batch : List (Queued × Bytes)) : List Entry := batch.map fun p => .change p.1 p.2

variable (E : Env)

/-- The frames of a batch, the first one at `offset`. -/
def frameBatch (framer : Framer) : ℕ → List Queued → Except Exc (List (Queued × Bytes))
  | _, [] => .ok []
  | offset, q :: batch => do
    let payload ← E.ser.encodeChange q.record
    let framed ← framer.frameChange E.blake3 payload offset
    let rest ← frameBatch framer (offset + framed.length) batch
    .ok ((q, framed) :: rest)

/-! ### Coroutines -/

namespace State

/-- What follows a snapshot, or the decision against one. -/
def andThen (s : State) : Next → State
  | .sleep => { s with background := .sleeping }
  | .finish => { s with background := .finished }
  | .spawn => { s with background := .ready, session := s.entered }

/-- What follows when the code around a snapshot raises. -/
def andRaise (s : State) (e : Exc) : Next → State
  | .sleep => { s with background := if e.isDatabaseError then .reporting else .raised e }
  | .finish => { s with background := .raised e }
  | .spawn => s

/-- `maybe_snapshot` up to the size of the file. -/
def maybeSnapshot (s : State) (next : Next) (clock : Except Exc DateTime) : State :=
  match s.snapshot.due E.minDiffs clock with
  | .error e => s.andRaise e next
  | .ok none => s.andThen next
  | .ok (some ts) =>
    if s.isOpen then
      let store := s.core.store
      let snap : Snapshot := ⟨ts, store.version, store.statedict, store.mtime⟩
      match E.ser.encodeSnapshot snap with
      -- a snapshot that fails is only logged
      | .error _ => s.andThen next
      | .ok payload => { s with snapping := some ⟨next, snap, payload, s.core.file.length⟩ }
    else s.andThen next

/-- `maybe_snapshot` from the size of the file on. -/
def writeSnapshot (s : State) (sn : Snapping) (outcome : Outcome) : State :=
  let s := { s with snapping := none }
  match s.core.framer.frameSnapshot E.blake3 sn.payload sn.offset with
  | .error _ => s.andThen sn.next
  | .ok framed =>
    match s.core.write s.isOpen [.snapshot sn.snap framed] outcome with
    | (core, .error _) => { s with core := core }.andThen sn.next
    | (core, .ok ()) =>
      { s with core := core, snapshot := s.snapshot.written sn.snap.ts }.andThen sn.next

/-- What the coroutine that awaited a flush does with its result. -/
def afterFlush (s : State) (o : Owner) (result : Except Exc Unit) (clock : Except Exc DateTime) : State :=
  let s := { s with ended := some (o, result) }
  match o, result with
  | .call _, _ => s
  | .opening, .ok () => s.maybeSnapshot E .spawn clock
  | .opening, .error _ => s
  | .closing, .ok () => { s with isOpen := false, opened := false, closing := .idle }
  | .closing, .error _ => { s with closing := .idle }
  | .background, result =>
    match s.background, result with
    | .flushing, .ok () => s.maybeSnapshot E .sleep clock
    | .flushing, .error e =>
      { s with background := if e.isDatabaseError then .reporting else .raised e }
    | _, .ok () => s.maybeSnapshot E .finish clock
    | _, .error e => { s with background := .raised e }

/-- `flush` up to its first `await`, which it may not reach.  An open instance has its file open,
so the call that would open it is not made. -/
def startFlush (s : State) (o : Owner) (clock : Except Exc DateTime) : State :=
  if ¬s.opened then
    s.afterFlush E o (.error (.dataIntegrityError "Kanta instance must be opened before flush"
      (some "flush") none)) clock
  else if s.flushFailed then s.afterFlush E o (.ok ()) clock
  else if s.core.store.pending = [] then s.afterFlush E o (.ok ()) clock
  else { s with core.flights := put o (.sizing s.core.store.pending none) s.core.flights }

/-- The end of a flush whose job raised. -/
def failFlush (s : State) (o : Owner) (e : Exc) (clock : Except Exc DateTime) : State :=
  let s := { s with core.flights := remove o s.core.flights }
  match e with
  | .osError =>
    { s with flushFailed := true }.afterFlush E o
      (.error (.databaseError "Failed to flush database" (some "OSError"))) clock
  | e => s.afterFlush E o (.error e) clock

/-- The end of a flush that has written: one record of the queue goes for each record written, and
`popleft` raises when there are too few. -/
def popBatch (s : State) (o : Owner) (count : ℕ) (clock : Except Exc DateTime) : State :=
  let pending := s.core.store.pending
  let result : Except Exc Unit := if count ≤ pending.length then .ok () else .error .indexError
  { s with
      core.flights := remove o s.core.flights
      core.store.pending := pending.drop count
      snapshot := s.snapshot.recordChanges count }.afterFlush E o result clock

/-- `flush` after one of its jobs. -/
def resumeFlush (s : State) (o : Owner) (clock : Except Exc DateTime) : Option State :=
  match s.core.flights.lookup o with
  | some (.sizing batch (some (.ok size))) =>
    match frameBatch E s.core.framer size batch with
    | .ok framed => some { s with core.flights := put o (.writing framed none) s.core.flights }
    | .error e => some (s.failFlush E o e clock)
  | some (.writing batch (some (.ok ()))) => some (s.popBatch E o batch.length clock)
  | some (.sizing _ (some (.error e))) => some (s.failFlush E o e clock)
  | some (.writing _ (some (.error e))) => some (s.failFlush E o e clock)
  | _ => none

/-- A worker thread runs the job of a flush. -/
def work (s : State) (o : Owner) (outcome : Outcome) : Option State :=
  match s.core.flights.lookup o with
  | some (.sizing batch none) =>
    let result := s.core.size s.isOpen outcome
    some { s with core.flights := put o (.sizing batch (some result)) s.core.flights }
  | some (.writing batch none) =>
    let (core, result) := s.core.write s.isOpen (entriesOf batch) outcome
    some { s with core := { core with flights := put o (.writing batch (some result)) s.core.flights } }
  | _ => none

/-- A worker thread runs the oldest write left behind. -/
def workStray (s : State) (outcome : Outcome) : Option State :=
  match s.core.strays with
  | [] => none
  | batch :: strays =>
    let core := { s.core with strays := strays }
    some { s with core := (core.write s.isOpen (entriesOf batch) outcome).1 }

/-- The write that a cancelled flush leaves behind. -/
def abandon (s : State) (survives : Bool) : State :=
  let strays :=
    match s.core.flights.lookup .background, survives with
    | some (.writing batch none), true => s.core.strays ++ [batch]
    | _, _ => s.core.strays
  { s with core.flights := remove .background s.core.flights, core.strays := strays }

/-- The cancellation reaches the background task. -/
def deliver (s : State) (survives : Bool) (clock : Except Exc DateTime) : Option State :=
  if s.cancelling then
    let s := { s with cancelling := false }
    match s.background with
    | .ready => some { s with background := .finished }
    | .sleeping => some ({ s with background := .handling }.startFlush E .background clock)
    | .flushing => some ({ s.abandon survives with background := .handling }.startFlush E .background clock)
    | .reporting => some { s with background := .finished }
    | _ => none
  else none

/-- The last part of `close`. -/
def finalFlush (s : State) (clock : Except Exc DateTime) : State :=
  { s with background := .absent, closing := .flushing }.startFlush E .closing clock

/-- `close` up to its first `await`.  It is not called while `open` is still running. -/
def close (s : State) (clock : Except Exc DateTime) : Option State :=
  if s.closing ≠ .idle ∨ (s.core.flights.lookup .opening).isSome then none
  else if ¬s.opened then some s
  else
    match s.background with
    | .absent => some (s.finalFlush E clock)
    | .finished => some (s.finalFlush E clock)
    | .raised _ => some s
    | _ => some { s with cancelling := true, closing := .joining }

/-- `close` after the background task; it raises what the task raised. -/
def join (s : State) (clock : Except Exc DateTime) : Option State :=
  if s.closing = .joining then
    match s.background with
    | .finished => some (s.finalFlush E clock)
    | .raised _ => some { s with closing := .idle }
    | _ => none
  else none

/-- `open` on an empty file. -/
def bootstrap (s : State) (a : Opening) : State :=
  match a.bootstrap with
  | .error _ => { s with opened := false, isOpen := false }
  | .ok current =>
    let store := { s.core.store with statedict := .empty }
    match store.queueChange a.action current a.user a.mtime true a.clock with
    | .error _ => { s with core.store := store, opened := false, isOpen := false }
    | .ok (_, store) => { s with core.store := store }.andThen .spawn

/-- `open` on a file with content, once it is replayed. -/
def load (s : State) (a : Opening) (state : Dict) (rr : ReplayResult) : State :=
  match (E.migrations.map fun reg => reg.apply state rr.version).getD (.ok (state, rr.version)) with
  | .error _ => s
  | .ok (migrated, version) =>
    let s :=
      { s with
        snapshot := { s.snapshot with ts := rr.lastSnapshot.map E.fromTimestamp }
        core.store.statedict := state }
    match a.normalize migrated, a.validated with
    | .error _, _ => s
    | .ok _, .error _ => { s with opened := false, isOpen := false }
    | .ok normalized, .ok () =>
      let store := { s.core.store with version := version, mtime := rr.m }
      let action := if version ≠ rr.version then "migrate:v" ++ toString version else "migrate:msgspec"
      match store.queueChange action normalized none .omit false a.clock with
      | .error _ => { s with core.store := store }
      | .ok (record, store) =>
        let s := { s with core.store := store }
        if version ≠ rr.version ∨ record.isSome then
          { s with snapshot := s.snapshot.requestForce }.startFlush E .opening a.clock
        else s.andThen .spawn

/-- `open`; the loop does not run anything else before the first flush. -/
def openDb (s : State) (a : Opening) : Option State :=
  if s.opened then none
  else
    let s := { s with isOpen := true, opened := true, entered := s.core.store.committed.length }
    if s.core.file = [] then some (s.bootstrap a)
    else
      let s' := { s with core.framer := s.core.framer.reload s.core.file }
      match replay E.blake3 E.ser s.core.framer s.core.file with
      | .error _ => some s'
      | .ok rr =>
        match Dict.ofVal rr.state with
        -- a state that is no dict cannot be decoded into the struct
        | none => some s'
        | some state => some (s'.load E a state rr)

end State

/-! ### Transitions -/

/-- An event of the event loop. -/
def loopStep (s : State) : Event → Option State
  | .commit c =>
    match s.core.store.queueChange c.action c.current c.user c.mtime false (.ok c.now) with
    | .ok (_, store) => some { s with core.store := store }
    | .error _ => none
  | .call n clock =>
    if (s.core.flights.lookup (.call n)).isSome then none else some (s.startFlush E (.call n) clock)
  | .resume o clock =>
    -- a pending cancellation is thrown in instead
    if o = .background ∧ s.cancelling then none else s.resumeFlush E o clock
  | .start =>
    match s.background, s.cancelling with
    | .ready, false => some { s with background := .sleeping }
    | _, _ => none
  | .wake clock =>
    match s.background, s.cancelling with
    | .sleeping, false => some ({ s with background := .flushing }.startFlush E .background clock)
    | _, _ => none
  | .deliver survives clock => s.deliver E survives clock
  | .reported =>
    match s.background, s.cancelling with
    | .reporting, false => some { s with background := .finished }
    | _, _ => none
  | .request => some { s with snapshot := s.snapshot.requestForce }
  | .close clock => s.close E clock
  | .join clock => s.join E clock
  | .open a => s.openDb E a
  | .work .. | .stray .. | .snapshotWrite .. => none

/-- One event.  While the loop writes a snapshot, only worker threads run. -/
def step (s : State) (e : Event) : Option State :=
  let s := { s with ended := none }
  match e, s.snapping with
  | .work o outcome, _ => s.work o outcome
  | .stray outcome, _ => s.workStray outcome
  | .snapshotWrite outcome, some sn => some (s.writeSnapshot E sn outcome)
  | _, some _ => none
  | e, none => loopStep E s e

/-! ### A small instance

A line-framed JSON database with the states `{"n": k}` for one digit `k`, on which runs are evaluated. -/

namespace Sample

/-- Sunday, 2024-01-07, midnight UTC. -/
def ts : DateTime := ⟨1704585600000000, some 0⟩

def state (k : ℤ) : Dict := ⟨[("n", .int k)], rfl⟩

/-- The JSON of the state between two ASCII texts. -/
def json (before : Bytes) (d : Dict) (after : Bytes) : Except Exc Bytes :=
  match d.items with
  | [("n", .int (.ofNat k))] =>
    if k < 10 then .ok (before ++ UInt8.ofNat (48 + k) :: after)
    else .error (.typeError "not in the sample")
  | _ => .error (.typeError "not in the sample")

def digits : List ℤ := (List.range 10).map Int.ofNat

/-- The change records there are. -/
def changes : List ChangeRecord :=
  ["bootstrap", "set"].flatMap fun a => digits.map fun k => { ts := ts, a := a, diff := state k }

/-- The snapshots there are. -/
def snapshots : List Snapshot := digits.map fun k => { ts := ts, v := 0, state := state k }

/-- `{"ts":"2024-01-07T00:00:00Z","a":"set","diff":{"n":1}}`. -/
def encodeChange (c : ChangeRecord) : Except Exc Bytes :=
  if c.ts = ts ∧ c.a ∈ ["bootstrap", "set"] ∧ c.v = 0 ∧ c.u = none ∧ c.m = none then
    json (ascii "\x7b\"ts\":\"2024-01-07T00:00:00Z\",\"a\":\"" ++ ascii c.a ++
      ascii "\",\"diff\":\x7b\"n\":") c.diff (ascii "\x7d\x7d")
  else .error (.typeError "not in the sample")

/-- `{"ts":"2024-01-07T00:00:00Z","v":0,"state":{"n":1}}`. -/
def encodeSnapshot (s : Snapshot) : Except Exc Bytes :=
  if s.ts = ts ∧ s.v = 0 ∧ s.m = none then
    json (ascii "\x7b\"ts\":\"2024-01-07T00:00:00Z\",\"v\":0,\"state\":\x7b\"n\":") s.state
      (ascii "\x7d\x7d")
  else .error (.typeError "not in the sample")

/-- The record among `records` that is encoded as `payload`. -/
def decode {α : Type} (encode : α → Except Exc Bytes) (records : List α) (payload : Bytes) : Except Exc α :=
  match records.find? fun r => (encode r).toOption = some payload with
  | some r => .ok r
  | none => .error .decodeError

def ser : Serializer where
  encodeChange := encodeChange
  encodeSnapshot := encodeSnapshot
  decodeChange := decode encodeChange changes
  decodeSnapshot := decode encodeSnapshot snapshots
  localTime := .total

lemma state_of_json {before after payload : Bytes} {d : Dict} (h : json before d after = .ok payload) :
    ∃ k ∈ digits, d = state k := by
  unfold json at h
  split at h
  · rename_i k hk
    split at h
    · refine ⟨Int.ofNat k, List.mem_map_of_mem (List.mem_range.mpr ‹_›), ?_⟩
      cases d
      simp only at hk
      subst hk
      rfl
    · simp at h
  · simp at h

lemma mem_changes {c : ChangeRecord} {payload : Bytes} (h : encodeChange c = .ok payload) : c ∈ changes := by
  unfold encodeChange at h
  split at h
  · rename_i hc
    obtain ⟨k, hk, hd⟩ := state_of_json h
    obtain ⟨ts, a, v, u, m, diff⟩ := c
    obtain ⟨rfl, ha, rfl, rfl, rfl⟩ := hc
    obtain rfl : diff = state k := hd
    exact List.mem_flatMap.mpr ⟨a, ha, List.mem_map_of_mem hk⟩
  · simp at h

lemma mem_snapshots {s : Snapshot} {payload : Bytes} (h : encodeSnapshot s = .ok payload) : s ∈ snapshots := by
  unfold encodeSnapshot at h
  split at h
  · rename_i hs
    obtain ⟨k, hk, hd⟩ := state_of_json h
    obtain ⟨ts, v, st, m⟩ := s
    obtain ⟨rfl, rfl, rfl⟩ := hs
    obtain rfl : st = state k := hd
    exact List.mem_map_of_mem hk
  · simp at h

lemma decode_of_mem {α : Type} {E : α → Except Exc Bytes} {records : List α}
    (hn : (records.map fun r => (E r).toOption).Nodup) {r : α} {payload : Bytes} (hr : r ∈ records)
    (he : E r = .ok payload) : decode E records payload = .ok r := by
  unfold decode
  split
  · rename_i r' hr'
    have hp : (E r').toOption = some payload := by simpa using List.find?_some hr'
    have := List.inj_on_of_nodup_map hn (List.mem_of_find?_eq_some hr') hr (by rw [hp, he]; rfl)
    rw [this]
  · rename_i hnone
    simpa [he, Except.toOption] using List.find?_eq_none.mp hnone r hr

/-- A serializer of the records in two lists can decode what it encodes. -/
lemma decodable_of_lists {EC : ChangeRecord → Except Exc Bytes} {ES : Snapshot → Except Exc Bytes}
    {changes : List ChangeRecord} {snapshots : List Snapshot} (localTime : LocalTime)
    (hn : (changes.map fun c => (EC c).toOption).Nodup) (hn' : (snapshots.map fun s => (ES s).toOption).Nodup)
    (hmem : ∀ c payload, EC c = .ok payload → c ∈ changes) (hmem' : ∀ s payload, ES s = .ok payload → s ∈ snapshots)
    (hfits : ∀ p ∈ changes.filterMap fun c => (EC c).toOption, Fits (false, p))
    (hfits' : ∀ p ∈ snapshots.filterMap fun s => (ES s).toOption, Fits (true, p)) (r : Record) :
    Decodable ⟨EC, ES, decode EC changes, decode ES snapshots, localTime⟩ .line r := by
  cases r with
  | change c =>
    refine ⟨fun payload h => ?_, fun payload h => ?_⟩
    · have := decode_of_mem hn (hmem c payload h) h
      simp only [Serializer.decode, Record.isSnapshot, Bool.false_eq_true, if_false]
      exact map_eq_ok.mpr ⟨c, this, rfl⟩
    · exact hfits payload (List.mem_filterMap.mpr ⟨c, hmem c payload h, congrArg Except.toOption h⟩)
  | snapshot s =>
    refine ⟨fun payload h => ?_, fun payload h => ?_⟩
    · have := decode_of_mem hn' (hmem' s payload h) h
      simp only [Serializer.decode, Record.isSnapshot, if_true]
      exact map_eq_ok.mpr ⟨s, this, rfl⟩
    · exact hfits' payload (List.mem_filterMap.mpr ⟨s, hmem' s payload h, congrArg Except.toOption h⟩)

/-- What the sample writes can be read. -/
lemma readable (r : Record) : Readable ser .line r :=
  ⟨decodable_of_lists .total (by decide +kernel) (by decide +kernel) (fun _ _ => mem_changes)
    (fun _ _ => mem_snapshots) (by decide +kernel) (by decide +kernel) r, ser.timed_of_total rfl r⟩

/-- The kind of a record and its payload. -/
def view (r : Record) : Bool × Option Bytes := (r.isSnapshot, (ser.encode r).toOption)

/-- Records that look alike are the same, if they can be encoded. -/
lemma records_eq {l l' : List Record} (h : l.map view = l'.map view) (hs : ∀ r ∈ l', (view r).2 ≠ none) :
    l = l' := by
  induction l' generalizing l with
  | nil => exact List.map_eq_nil_iff.mp h
  | cons r' l' ih =>
    cases l with
    | nil => simp at h
    | cons r l =>
      rw [List.forall_mem_cons] at hs
      obtain ⟨hr, hl⟩ := List.cons.inj h
      obtain ⟨hkind, hpay⟩ := Prod.mk.inj hr
      cases hp : ser.encode r' with
      | error e => simp [view, hp, Except.toOption] at hs
      | ok payload =>
        have hp' : ser.encode r = .ok payload := by
          rw [hp] at hpay
          cases he : ser.encode r with
          | error e => simp [he, Except.toOption] at hpay
          | ok q => simpa [he, Except.toOption] using hpay
        have h1 := (readable r).1.1 payload hp'
        have h2 := (readable r').1.1 payload hp
        rw [hkind] at h1
        rw [Except.ok.inj (h1.symm.trans h2), ih hl hs.2]

/-- The instance with a snapshot due after `minDiffs` changes. -/
def env (minDiffs : ℕ) : Env where
  blake3 _ _ := ⟨List.replicate 8 0, rfl⟩
  ser := ser
  minDiffs := minDiffs
  migrations := none
  fromTimestamp := id

/-- The instance before `open`, on an empty file. -/
def start : State := .init .empty 0 .line []

/-- `open`, where the bootstrap callbacks make the state `{"n": 0}`. -/
def opening : Event := .open ⟨.ok (state 0), "bootstrap", none, .omit, .ok, .ok (), .ok ts⟩

/-- A transaction that sets `n`. -/
def set (k : ℤ) : Event := .commit ⟨"set", state k, none, .omit, ts⟩

end Sample

end Kanta
