import Kanta.Errors

/-!
# Record structures

The two records of the log, the timestamps in them, and the serializer that turns them into
payloads.  The encoder and the decoder belong to msgspec: the program only ever composes them, so
they are functions of a `Serializer`, and what a proof needs of them is asked of the records it is
about.  The platform's local time, which a naive time of a record is read in, stands beside them, and
so do the objects that the application keeps its data in.
-/

namespace Kanta

/-- The bytes of a file or of a payload. -/
abbrev Bytes := List UInt8

/-! ### Timestamps -/

/-- A `datetime`: the microseconds its calendar fields show, counted from 1970, and its offset
from UTC in microseconds when it is aware. -/
structure DateTime where
  wall : ℤ
  offset : Option ℤ
deriving DecidableEq

namespace DateTime

/-- Python's `a < b`. -/
def lt (a b : DateTime) : Except Exc Bool :=
  match a.offset, b.offset with
  | none, none => .ok (a.wall < b.wall)
  | some o, some p => .ok (a.wall - o < b.wall - p)
  | _, _ => .error (.typeError "can't compare offset-naive and offset-aware datetimes")

/-- Python's `a <= b`; `a >= b` is `b <= a`. -/
def le (a b : DateTime) : Except Exc Bool :=
  match a.offset, b.offset with
  | none, none => .ok (a.wall ≤ b.wall)
  | some o, some p => .ok (a.wall - o ≤ b.wall - p)
  | _, _ => .error (.typeError "can't compare offset-naive and offset-aware datetimes")

/-- The microseconds of a day. -/
def day : ℤ := 86400000000

/-- `ts.weekday()`: Monday is 0, and 1970 began on a Thursday. -/
def weekday (t : DateTime) : ℤ := (t.wall / day + 3) % 7

/-- `ts.replace(hour=0, minute=0, second=0, microsecond=0)`. -/
def midnight (t : DateTime) : DateTime := { t with wall := t.wall / day * day }

end DateTime

/-- The platform's local time: what `timestamp()` raises for a naive time, which is never an error
of this program. -/
structure LocalTime where
  mktime : ℤ → Except Exc Unit
  foreign : ∀ wall e, mktime wall = .error e → e.isDatabaseError = false

/-- Every naive time has its place. -/
def LocalTime.total : LocalTime := ⟨fun _ => .ok (), fun _ _ h => by simp at h⟩

/-- `ts.timestamp()`, of which only counts whether it raises: an aware time is taken from 1970 in UTC,
a naive one is looked up in the local time. -/
def DateTime.timestamp (t : DateTime) (localTime : LocalTime) : Except Exc Unit :=
  match t.offset with
  | some _ => .ok ()
  | none => localTime.mktime t.wall

lemma DateTime.timestamp_total (t : DateTime) : t.timestamp .total = .ok () := by
  rw [timestamp]
  cases t.offset <;> rfl

/-! ### Records -/

/-- One change of the log. -/
structure ChangeRecord where
  ts : DateTime
  a : String := ""
  v : ℤ := 0
  u : Option String := none
  m : Option DateTime := none
  diff : Dict := .empty

/-- A full state embedded in the log. -/
structure Snapshot where
  ts : DateTime
  v : ℤ
  state : Dict
  m : Option DateTime := none

/-- A record of the log. -/
inductive Record where
  | change (c : ChangeRecord)
  | snapshot (s : Snapshot)

namespace Record

/-- Which of the two frames carries the record. -/
def isSnapshot : Record → Bool
  | .change _ => false
  | .snapshot _ => true

end Record

/-! ### Payloads -/

/-- What msgspec does for one format, and the local time of the platform. -/
structure Serializer where
  encodeChange : ChangeRecord → Except Exc Bytes
  encodeSnapshot : Snapshot → Except Exc Bytes
  decodeChange : Bytes → Except Exc ChangeRecord
  decodeSnapshot : Bytes → Except Exc Snapshot
  localTime : LocalTime

namespace Serializer

variable (ser : Serializer)

/-- `serializer.encode(record)`. -/
def encode : Record → Except Exc Bytes
  | .change c => ser.encodeChange c
  | .snapshot s => ser.encodeSnapshot s

/-- `serializer.decode(payload, type=...)` with the type that belongs to the frame. -/
def decode (isSnapshot : Bool) (payload : Bytes) : Except Exc Record :=
  if isSnapshot then .snapshot <$> ser.decodeSnapshot payload else .change <$> ser.decodeChange payload

/-- Decoding gives back what was encoded. -/
def Inverts (r : Record) : Prop :=
  ∀ payload, ser.encode r = .ok payload → ser.decode r.isSnapshot payload = .ok r

/-- The time of a snapshot has a timestamp; that of a change is never asked for one. -/
def Timed : Record → Prop
  | .change _ => True
  | .snapshot snap => snap.ts.timestamp ser.localTime = .ok ()

lemma timed_of_total (h : ser.localTime = .total) (r : Record) : ser.Timed r := by
  cases r with
  | change => trivial
  | snapshot snap =>
    show snap.ts.timestamp ser.localTime = .ok ()
    rw [h, DateTime.timestamp_total]

end Serializer

/-! ### The data of the application -/

/-- The objects that hold the data: msgspec Structs, dataclasses, dicts or anything else. -/
structure Objects (D : Type) where
  /-- `type(restored) is type(data)`. -/
  sameType : D → D → Bool
  /-- `__struct_fields__`, which only a Struct has. -/
  structFields : D → List String
  /-- `setattr(data, name, getattr(restored, name))`, with the data behind it. -/
  setField : D → String → D → D × Except Exc Unit

namespace Objects

variable {D : Type} (objects : Objects D)

/-- The fields of `restored`, one after another, up to the first that cannot be set. -/
def copyFields (restored : D) : List String → D → D × Except Exc Unit
  | [], data => (data, .ok ())
  | name :: names, data =>
    match objects.setField restored name data with
    | (data, .ok ()) => copyFields restored names data
    | (data, .error e) => (data, .error e)

/-- `restore_data_in_place`, once the snapshot is decoded: an object of the same type is kept, and given
the fields of a Struct. -/
def restoreInPlace (data restored : D) : D × Except Exc Unit :=
  if objects.sameType restored data then objects.copyFields restored (objects.structFields restored) data
  else (restored, .ok ())

/-- **A dict or a dataclass is kept as it is**: it has no fields to copy. -/
lemma restoreInPlace_of_unfielded {data restored : D} (hsame : objects.sameType restored data = true)
    (hfields : objects.structFields restored = []) : objects.restoreInPlace data restored = (data, .ok ()) := by
  rw [restoreInPlace, if_pos hsame, hfields, copyFields]

end Objects

end Kanta
