import Kanta.Diff
import Kanta.Structs

/-!
# The state of an instance

What `PersistenceMixin` keeps in memory, how a committed change enters the queue, and the policy
that decides on snapshots.
-/

namespace Kanta

/-! ### The queue -/

/-- A queued change.  Records are told apart by identity: `id` counts them. -/
structure Queued where
  id : ℕ
  record : ChangeRecord

/-- The persistence-owned state.  `committed` is a history variable: every change that was ever
queued. -/
structure Store where
  statedict : Dict
  version : ℤ
  mtime : Option DateTime
  pending : List Queued
  committed : List Queued

/-- The `mtime` argument: `True`, `False` or a time. -/
inductive Mtime where
  | now
  | omit
  | at (t : DateTime)

/-- The diff that is recorded for a change; it is never an empty dict. -/
def delta (previous current : Dict) : Option Dict := (diff previous current).bind Dict.ofVal

namespace Store

/-- The record goes to the end of the queue and the new state takes over. -/
def append (store : Store) (record : ChangeRecord) (current : Dict) : Store :=
  let queued : Queued := ⟨store.committed.length, record⟩
  { store with
    statedict := current
    mtime := record.m <|> store.mtime
    pending := store.pending ++ [queued]
    committed := store.committed ++ [queued] }

/-- `queue_change`; `clock` is what `now()` does. -/
def queueChange (store : Store) (action : String) (current : Dict) (user : Option String)
    (mtime : Mtime) (force : Bool) (clock : Except Exc DateTime) :
    Except Exc (Option ChangeRecord × Store) :=
  match delta store.statedict current, force with
  | none, false => .ok (none, store)
  | d, _ => do
    let now ← clock
    let m :=
      match mtime with
      | .now => some now
      | .omit => none
      | .at t => some t
    let record : ChangeRecord :=
      { ts := now, a := action, v := store.version, u := user, m := m, diff := d.getD .empty }
    .ok (some record, store.append record current)

end Store

/-! ### Snapshots -/

/-- `SnapshotState`; `min_diffs` is a parameter of its functions. -/
structure SnapshotState where
  ts : Option DateTime := none
  changes : ℕ := 0
  forcePending : Bool := false

namespace SnapshotState

/-- `request_force`. -/
def requestForce (s : SnapshotState) : SnapshotState := { s with forcePending := true }

/-- `record_changes`. -/
def recordChanges (s : SnapshotState) (count : ℕ) : SnapshotState :=
  { s with changes := s.changes + count }

/-- The policy of `maybe_write`: the time of the snapshot to write, if one is due.  The clock is
only read when a snapshot may actually be written, and on Sundays only the first one is. -/
def due (s : SnapshotState) (minDiffs : ℕ) (clock : Except Exc DateTime) :
    Except Exc (Option DateTime) :=
  if s.forcePending then some <$> clock
  else if s.changes < minDiffs then .ok none
  else do
    let ts ← clock
    if ts.weekday ≠ 6 then .ok none
    else
      match s.ts with
      | none => .ok (some ts)
      | some last => do
        let done ← ts.midnight.le last
        .ok (if done then none else some ts)

/-- What `_write` leaves behind, and `maybe_write` after it. -/
def written (_ : SnapshotState) (ts : DateTime) : SnapshotState :=
  { ts := some ts, changes := 0, forcePending := false }

end SnapshotState

end Kanta
