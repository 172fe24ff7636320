import Kanta.Select

/-!
# The command line

`python -m kanta` replays a file up to the end of a range, applies the migrations and writes the state.
With `-k` the state goes through the data type of an object.  With `-d` the data type is checked on the same
state, but what is written comes from a new instance that opens the whole file and restores it into the data
of the range.  The two agree exactly when the data has the normal form of the range then
(`followsRange_iff`).
-/

namespace Kanta

open Kanta.Lib

/-! ### The command -/

def exitGeneric : ℕ := 1
def exitRangeError : ℕ := 2
def exitParseError : ℕ := 10
def exitMigrationError : ℕ := 20
def exitValidationError : ℕ := 21

/-- How the command fails: `_CliError` with its exit code, or an exception that nothing catches. -/
inductive Failure where
  | cliError (message : String) (code : ℕ)
  | raised (e : Exc)

/-- What the command works with, besides the file.  Plain values are encoded as JSON, and read back as they
were. -/
structure Cli where
  filename : String
  blake3 : Bytes → Bytes → Digest
  ser : Serializer
  encode : Val → Except Exc Bytes
  /-- `decode(payload, type=dict[str, Any])`. -/
  decode : Bytes → Except Exc Dict
  /-- `datetime.fromtimestamp` of the time of a snapshot. -/
  stamp : DateTime → Except Exc Unit
  repr : String → String
  str : Exc → String
  typeName : Exc → String
  decode_encode : ∀ v payload, encode v = .ok payload → ∀ d, decode payload = .ok d ↔ v = d.val
  encode_decode : ∀ payload d, decode payload = .ok d → ∃ p, encode d.val = .ok p

/-- A data type, with the encoder and the decoder that msgspec has for it, and its objects; `dict` is that of
plain values. -/
structure DataType (cli : Cli) (D : Type) where
  encode : D → Except Exc Bytes
  decode : Bytes → Except Exc D
  objects : Objects D
  isDict : Bool
  dict_normal : isDict = true → ∀ payload d,
    (∃ data, decode payload = .ok data ∧ ∃ p, encode data = .ok p ∧ cli.decode p = .ok d) ↔ cli.decode payload = .ok d

namespace DataType

variable {cli : Cli} {D : Type} (T : DataType cli D)

/-- `dict_to_struct`. -/
def dictToStruct (state : Val) : Except Exc D := do
  let payload ← cli.encode state
  T.decode payload

/-- `struct_to_dict`. -/
def structToDict (data : D) : Except Exc Dict := do
  let payload ← T.encode data
  cli.decode payload

/-- The normal form of a state. -/
def normal (state : Val) : Except Exc Dict := do
  let data ← T.dictToStruct state
  T.structToDict data

/-- `restore_data_in_place`, and the encoding of the data behind it. -/
def reload (data : D) (state : Val) : Except Exc Dict := do
  let restored ← T.dictToStruct state
  match T.objects.restoreInPlace data restored with
  | (_, .error e) => .error e
  | (data, .ok ()) => T.structToDict data

end DataType

/-- The migrations of an instance on a state, which may be something else than a dict. -/
def migrateState (migrations : Option Migrations) (state : Val) (version : ℤ) : Except Exc (Val × ℤ) :=
  match migrations with
  | none => .ok (state, version)
  | some reg =>
    match Dict.ofVal state with
    | some state => (fun p => (p.1.val, p.2)) <$> reg.apply state version
    | none =>
      -- a migration works on a dict
      if (reg.above version).isEmpty then (fun p => (state, p.2)) <$> reg.apply .empty version
      else .error (.typeError "not a dict")

/-- What the options name: a data type and migrations with `-d` and `-m`, an object with its own with `-k`. -/
inductive Source (cli : Cli) (D : Type) where
  | named (dataType : Option (DataType cli D)) (migrations : Option Migrations)
  | object (dataType : DataType cli D) (migrations : Option Migrations)

namespace Source

variable {cli : Cli} {D : Type}

def migrations : Source cli D → Option Migrations
  | named _ migrations => migrations
  | object _ migrations => migrations

/-- `data_type`: an object whose type is `dict` has none. -/
def dataType : Source cli D → Option (DataType cli D)
  | named dataType _ => dataType
  | object dataType _ => if dataType.isDict then none else some dataType

end Source

namespace Cli

variable (cli : Cli)

/-! ### Failures -/

def scanFailure (e : Exc) : Failure :=
  match e with
  | .replayError .. => .cliError (cli.str e) exitParseError
  | _ =>
    if e.isException then
      .cliError ("Failed to replay records from " ++ cli.filename ++ ": " ++ cli.str e) exitParseError
    else .raised e

def selectFailure : SelectError → Failure
  | .rangeNotFound message => .cliError message exitRangeError
  | .raised .valueError => .cliError ("Invalid --range value: " ++ cli.str .valueError) exitGeneric
  | .raised e => .raised e

def migrationFailure (e : Exc) : Failure :=
  if e.isException then .cliError ("Migration error: " ++ cli.str e) exitMigrationError else .raised e

def validationFailure (e : Exc) : Failure :=
  match e with
  | .decodeError => .cliError ("Validation error: " ++ cli.str e) exitValidationError
  | .typeError _ => .cliError ("Validation error: " ++ cli.str e) exitValidationError
  | .valueError => .cliError ("Validation error: " ++ cli.str e) exitValidationError
  | _ => .raised e

def openFailure (migrations : Bool) (e : Exc) : Failure :=
  match e with
  | .decodeError => .cliError ("Validation error: " ++ cli.str e) exitValidationError
  | .dataIntegrityError .. => .cliError ("Parse error: " ++ cli.str e) exitParseError
  | .databaseError _ causeType =>
    if migrations = false ∨ causeType = some "ReplayError" then
      .cliError ("Parse error: " ++ cli.str e) exitParseError
    else .cliError ("Migration error: " ++ cli.str e) exitMigrationError
  | _ =>
    if e.isException = false then .raised e
    else if migrations then .cliError ("Migration error: " ++ cli.str e) exitMigrationError
    else .cliError ("Failed to open " ++ cli.filename ++ ": " ++ cli.str e) exitGeneric

def writeFailure (e : Exc) : Failure :=
  if e.isException then .cliError ("Failed to write output: " ++ cli.str e) exitGeneric else .raised e

/-- What `open` makes of an exception of the replay. -/
def replayFailure (e : Exc) : Exc :=
  if e.isException then .databaseError (cli.str e) (some (cli.typeName e)) else e

/-! ### The two ways -/

variable {D : Type}

/-- `open(create=False, readonly=True)` on a new instance with this data, up to the state it holds. -/
def openReadonly (T : DataType cli D) (migrations : Option Migrations) (content : Bytes) (data : D) :
    Except Exc Dict :=
  if content = [] then .error (.dataIntegrityError "Cannot open database: database file is empty" (some "open") none)
  else do
    let rr ← (replay cli.blake3 cli.ser .line content).mapError cli.replayFailure
    let (state, _) ← migrateState migrations rr.state rr.version
    rr.lastSnapshot.elim (.ok ()) cli.stamp
    T.reload data state

/-- The selection of `-r`, or the whole file. -/
def selection (range : Option String) (events : List FileEvent) (total : ℕ) : Except SelectError Selection :=
  match range with
  | some spec => select cli.repr spec events total
  | none => .ok ⟨0, endOfFile events, none⟩

/-- The state at the end of the range, behind the migrations. -/
def rangeState (migrations : Option Migrations) (range : Option String) (content : Bytes) : Except Failure Val := do
  let (events, total) ← (scanEvents cli.blake3 cli.ser .line content).mapError cli.scanFailure
  let selection ← (cli.selection range events total).mapError cli.selectFailure
  let (state, version) ← (selectedState events selection).mapError .raised
  let (state, _) ← (migrateState migrations state version).mapError cli.migrationFailure
  .ok state

/-- `output_state`. -/
def outputState (source : Source cli D) (content : Bytes) (state : Val) : Except Failure Val :=
  match source.dataType with
  | none => .ok state
  | some T => do
    let data ← (T.dictToStruct state).mapError cli.validationFailure
    -- the state of the object, or of the instance that is made
    let dict ← (T.structToDict data).mapError .raised
    match source with
    | .object .. => .ok dict.val
    | .named _ migrations =>
      Dict.val <$> (cli.openReadonly T migrations content data).mapError (cli.openFailure migrations.isSome)

/-- `_run`, up to the state that `-o` writes. -/
def run (source : Source cli D) (range : Option String) (content : Bytes) : Except Failure Val := do
  let state ← cli.rangeState source.migrations range content
  let output ← cli.outputState source content state
  let _ ← (cli.encode output).mapError cli.writeFailure
  .ok output

end Cli

/-! ### Statement -/

section

variable {cli : Cli} {D : Type}

/-- The state at the end of a selection, behind the migrations. -/
def EndsAt (migrations : Option Migrations) (events : List FileEvent) (s : Selection) (state : Val) : Prop :=
  ∃ before version version', stateBefore events s.endLine = .ok (before, version) ∧
    migrateState migrations before version = .ok (state, version')

/-- The data that is made of it, and its normal form. -/
def RangeData (T : DataType cli D) (migrations : Option Migrations) (events : List FileEvent) (s : Selection)
    (data : D) (normal : Dict) : Prop :=
  ∃ state, EndsAt migrations events s state ∧ T.dictToStruct state = .ok data ∧ T.structToDict data = .ok normal

/-- The normal form alone. -/
def RangeNormal (T : DataType cli D) (migrations : Option Migrations) (events : List FileEvent) (s : Selection)
    (normal : Dict) : Prop :=
  ∃ data, RangeData T migrations events s data normal

/-- What becomes of the data when the state that the whole file replays to, behind the migrations, is restored into
it.  The last snapshot has a time. -/
def FileNormal (T : DataType cli D) (migrations : Option Migrations) (content : Bytes) (data : D) (normal : Dict) :
    Prop :=
  content ≠ [] ∧ ∃ rr, replay cli.blake3 cli.ser .line content = .ok rr ∧
    rr.lastSnapshot.elim (.ok ()) cli.stamp = .ok () ∧
    ∃ state version, migrateState migrations rr.state rr.version = .ok (state, version) ∧
      T.reload data state = .ok normal

/-- What is written with `-d` is what is written with `-k`: the normal form of the state at the end of the
range. -/
def FollowsRange (T : DataType cli D) (migrations : Option Migrations) (range : Option String) (content : Bytes)
    (events : List FileEvent) (s : Selection) : Prop :=
  ∀ output,
    (cli.run (.named (some T) migrations) range content = .ok output ↔
      cli.run (.object T migrations) range content = .ok output) ∧
    (cli.run (.named (some T) migrations) range content = .ok output ↔
      ∃ normal, RangeNormal T migrations events s normal ∧ output = normal.val)

/-- The condition.  The data of the range keeps its normal form, if it has one, when the end of the file is restored
into it; and where the type is `dict`, the range ends in a dict. -/
structure EndsAlike (T : DataType cli D) (migrations : Option Migrations) (content : Bytes)
    (events : List FileEvent) (s : Selection) : Prop where
  file : ∀ data normal, RangeData T migrations events s data normal → FileNormal T migrations content data normal
  dict : T.isDict = true → ∀ state payload, EndsAt migrations events s state → cli.encode state = .ok payload →
    ∃ d : Dict, state = d.val

end

/-! ### What is written -/

lemma mapError_eq_ok {ε ε' α : Type} {f : ε → ε'} {x : Except ε α} {a : α} : x.mapError f = .ok a ↔ x = .ok a := by
  cases x <;> simp [Except.mapError]

section

variable {cli : Cli} {D : Type} {T : DataType cli D} {migrations : Option Migrations} {range : Option String}
  {content : Bytes} {events : List FileEvent} {total : ℕ} {s : Selection}

lemma DataType.normal_eq_ok {state : Val} {d : Dict} :
    T.normal state = .ok d ↔ ∃ data, T.dictToStruct state = .ok data ∧ T.structToDict data = .ok d :=
  bind_eq_ok

/-- A normal form can be written. -/
lemma DataType.encode_normal {data : D} {d : Dict} (h : T.structToDict data = .ok d) :
    ∃ payload, cli.encode d.val = .ok payload := by
  obtain ⟨payload, -, h⟩ := bind_eq_ok.mp h
  exact cli.encode_decode payload d h

lemma DataType.reload_eq_ok {data : D} {state : Val} {d : Dict} :
    T.reload data state = .ok d ↔ ∃ restored left, T.dictToStruct state = .ok restored ∧
      T.objects.restoreInPlace data restored = (left, .ok ()) ∧ T.structToDict left = .ok d := by
  rw [DataType.reload, bind_eq_ok]
  refine exists_congr fun restored => ?_
  rcases T.objects.restoreInPlace data restored with ⟨left, _ | _⟩ <;> simp

/-- **The data of a dict or a dataclass stays as it is**, whatever the file ends in. -/
lemma DataType.reload_unfielded {data restored : D} {state : Val} (hstate : T.dictToStruct state = .ok restored)
    (hsame : T.objects.sameType restored data = true) (hfields : T.objects.structFields restored = []) :
    T.reload data state = T.structToDict data := by
  rw [DataType.reload, hstate]
  simp only [bind, Except.bind]
  rw [T.objects.restoreInPlace_of_unfielded hsame hfields]

/-- A dict that can be written is its own normal form. -/
lemma DataType.normal_dict (hdict : T.isDict = true) {state : Val} {d : Dict} :
    T.normal state = .ok d ↔ (∃ payload, cli.encode state = .ok payload) ∧ state = d.val := by
  have hnormal : T.normal state = .ok d ↔ ∃ payload, cli.encode state = .ok payload ∧
      ∃ data, T.decode payload = .ok data ∧ ∃ p, T.encode data = .ok p ∧ cli.decode p = .ok d := by
    rw [DataType.normal_eq_ok]
    constructor
    · rintro ⟨data, h, hd⟩
      obtain ⟨payload, hp, h⟩ := bind_eq_ok.mp h
      exact ⟨payload, hp, data, h, bind_eq_ok.mp hd⟩
    · rintro ⟨payload, hp, data, h, hd⟩
      exact ⟨data, bind_eq_ok.mpr ⟨payload, hp, h⟩, bind_eq_ok.mpr hd⟩
  rw [hnormal]
  constructor
  · rintro ⟨payload, hp, h⟩
    exact ⟨⟨payload, hp⟩, (cli.decode_encode _ _ hp d).mp ((T.dict_normal hdict payload d).mp h)⟩
  · rintro ⟨⟨payload, hp⟩, rfl⟩
    exact ⟨payload, hp, (T.dict_normal hdict payload d).mpr ((cli.decode_encode _ _ hp d).mpr rfl)⟩

/-- The state at the end of the range. -/
lemma rangeState_eq_ok (hscan : scanEvents cli.blake3 cli.ser .line content = .ok (events, total))
    (hselect : cli.selection range events total = .ok s) {state : Val} :
    cli.rangeState migrations range content = .ok state ↔ EndsAt migrations events s state := by
  have hs : s.In events := by
    unfold Cli.selection at hselect
    split at hselect
    · exact select_in hselect
    · obtain rfl := Except.ok.inj hselect
      exact .lines _ _
  simp only [Cli.rangeState, EndsAt, ← selectedState_eq hscan hs, bind_eq_ok, mapError_eq_ok, hscan]
  constructor
  · rintro ⟨scanned, hscanned, found, hfound, ⟨before, version⟩, h, ⟨after, version'⟩, hm, hafter⟩
    obtain rfl := Except.ok.inj hscanned
    obtain rfl := Except.ok.inj (hselect.symm.trans hfound)
    obtain rfl := Except.ok.inj hafter
    exact ⟨before, version, version', h, hm⟩
  · rintro ⟨before, version, version', h, hm⟩
    exact ⟨_, rfl, s, hselect, (before, version), h, (state, version'), hm, rfl⟩

/-- What a read-only instance holds. -/
lemma openReadonly_eq_ok {data : D} {normal : Dict} :
    cli.openReadonly T migrations content data = .ok normal ↔ FileNormal T migrations content data normal := by
  unfold Cli.openReadonly FileNormal
  split
  · next h => simp [h]
  · next h =>
    simp only [bind_eq_ok, mapError_eq_ok]
    constructor
    · rintro ⟨rr, hrr, ⟨state, version⟩, hm, _, hstamp, hn⟩
      exact ⟨h, rr, hrr, hstamp, state, version, hm, hn⟩
    · rintro ⟨-, rr, hrr, hstamp, state, version, hm, hn⟩
      exact ⟨rr, hrr, (state, version), hm, (), hstamp, hn⟩

lemma FileNormal.unique {data : D} {normal normal' : Dict} (h : FileNormal T migrations content data normal)
    (h' : FileNormal T migrations content data normal') : normal = normal' :=
  Except.ok.inj ((openReadonly_eq_ok.mpr h).symm.trans (openReadonly_eq_ok.mpr h'))

/-- A normal form that has been read from the file can be written. -/
lemma FileNormal.encodes {data : D} {normal : Dict} (h : FileNormal T migrations content data normal) :
    ∃ payload, cli.encode normal.val = .ok payload := by
  obtain ⟨-, rr, -, -, state, version, -, hreload⟩ := h
  obtain ⟨restored, left, -, -, hnormal⟩ := DataType.reload_eq_ok.mp hreload
  exact DataType.encode_normal hnormal

lemma rangeNormal_iff {normal : Dict} :
    RangeNormal T migrations events s normal ↔
      ∃ state, EndsAt migrations events s state ∧ T.normal state = .ok normal := by
  simp only [RangeNormal, RangeData, DataType.normal_eq_ok]
  constructor
  · rintro ⟨data, state, hstate, h⟩
    exact ⟨state, hstate, data, h⟩
  · rintro ⟨state, hstate, data, h⟩
    exact ⟨data, state, hstate, h⟩

/-- What the command writes. -/
lemma run_eq_ok (hscan : scanEvents cli.blake3 cli.ser .line content = .ok (events, total))
    (hselect : cli.selection range events total = .ok s) {source : Source cli D} {output : Val} :
    cli.run source range content = .ok output ↔
      ∃ state, EndsAt source.migrations events s state ∧ cli.outputState source content state = .ok output ∧
        ∃ payload, cli.encode output = .ok payload := by
  simp only [Cli.run, bind_eq_ok, mapError_eq_ok, rangeState_eq_ok hscan hselect]
  constructor
  · rintro ⟨state, hstate, found, hout, payload, hp, h⟩
    obtain rfl := Except.ok.inj h
    exact ⟨state, hstate, hout, payload, hp⟩
  · rintro ⟨state, hstate, hout, payload, hp⟩
    exact ⟨state, hstate, output, hout, payload, hp, rfl⟩

/-- An object whose type is `dict` takes the state as it is. -/
lemma outputState_dict (hdict : T.isDict = true) (state : Val) :
    cli.outputState (.object T migrations) content state = .ok state := by
  simp [Cli.outputState, Source.dataType, hdict]

lemma outputState_struct (hdict : T.isDict = false) {state output : Val} :
    cli.outputState (.object T migrations) content state = .ok output ↔
      ∃ normal, T.normal state = .ok normal ∧ output = normal.val := by
  have hdata : (Source.object T migrations).dataType = some T := by
    rw [Source.dataType, if_neg (by simp [hdict])]
  simp only [Cli.outputState, hdata, bind_eq_ok, mapError_eq_ok, DataType.normal_eq_ok]
  constructor
  · rintro ⟨data, hd, normal, hn, h⟩
    exact ⟨normal, ⟨data, hd, hn⟩, (Except.ok.inj h).symm⟩
  · rintro ⟨normal, ⟨data, hd, hn⟩, rfl⟩
    exact ⟨data, hd, normal, hn, rfl⟩

lemma outputState_named {state output : Val} :
    cli.outputState (.named (some T) migrations) content state = .ok output ↔
      ∃ data normal file, T.dictToStruct state = .ok data ∧ T.structToDict data = .ok normal ∧
        FileNormal T migrations content data file ∧ output = file.val := by
  simp only [Cli.outputState, Source.dataType, bind_eq_ok, mapError_eq_ok, map_eq_ok, openReadonly_eq_ok]
  constructor
  · rintro ⟨data, hd, normal, hn, file, hfile, rfl⟩
    exact ⟨data, normal, file, hd, hn, hfile, rfl⟩
  · rintro ⟨data, normal, file, hd, hn, hfile, rfl⟩
    exact ⟨data, hd, normal, hn, file, hfile, rfl⟩

/-- What is written with `-k`. -/
lemma run_object_iff (hscan : scanEvents cli.blake3 cli.ser .line content = .ok (events, total))
    (hselect : cli.selection range events total = .ok s) {output : Val} :
    cli.run (.object T migrations) range content = .ok output ↔
      (∃ normal, RangeNormal T migrations events s normal ∧ output = normal.val) ∨
        (T.isDict = true ∧ EndsAt migrations events s output ∧ ∃ payload, cli.encode output = .ok payload) := by
  rw [run_eq_ok hscan hselect]
  cases hdict : T.isDict with
  | true =>
    constructor
    · rintro ⟨state, hstate, hout, hp⟩
      obtain rfl := Except.ok.inj ((outputState_dict hdict state).symm.trans hout)
      exact Or.inr ⟨rfl, hstate, hp⟩
    · rintro (⟨normal, hrange, rfl⟩ | ⟨-, hstate, hp⟩)
      · obtain ⟨state, hstate, hnormal⟩ := rangeNormal_iff.mp hrange
        obtain ⟨hp, rfl⟩ := (DataType.normal_dict hdict).mp hnormal
        exact ⟨_, hstate, outputState_dict hdict _, hp⟩
      · exact ⟨output, hstate, outputState_dict hdict output, hp⟩
  | false =>
    constructor
    · rintro ⟨state, hstate, hout, -⟩
      obtain ⟨normal, hnormal, rfl⟩ := (outputState_struct hdict).mp hout
      exact Or.inl ⟨normal, rangeNormal_iff.mpr ⟨state, hstate, hnormal⟩, rfl⟩
    · rintro (⟨normal, hrange, rfl⟩ | ⟨h, -⟩)
      · obtain ⟨state, hstate, hnormal⟩ := rangeNormal_iff.mp hrange
        obtain ⟨data, -, hencoded⟩ := DataType.normal_eq_ok.mp hnormal
        exact ⟨state, hstate, (outputState_struct hdict).mpr ⟨normal, hnormal, rfl⟩, DataType.encode_normal hencoded⟩
      · cases h

/-- What is written with `-d`. -/
lemma run_named_iff (hscan : scanEvents cli.blake3 cli.ser .line content = .ok (events, total))
    (hselect : cli.selection range events total = .ok s) {output : Val} :
    cli.run (.named (some T) migrations) range content = .ok output ↔
      ∃ data normal file, RangeData T migrations events s data normal ∧ FileNormal T migrations content data file ∧
        output = file.val := by
  rw [run_eq_ok hscan hselect]
  simp only [outputState_named]
  constructor
  · rintro ⟨state, hstate, ⟨data, normal, file, hd, hn, hfile, hout⟩, -⟩
    exact ⟨data, normal, file, ⟨state, hstate, hd, hn⟩, hfile, hout⟩
  · rintro ⟨data, normal, file, ⟨state, hstate, hd, hn⟩, hfile, rfl⟩
    exact ⟨state, hstate, ⟨data, normal, file, hd, hn, hfile, rfl⟩, hfile.encodes⟩

/-- A range ends in one state, so that there is one data of it. -/
lemma RangeData.unique {data data' : D} {normal normal' : Dict} (h : RangeData T migrations events s data normal)
    (h' : RangeData T migrations events s data' normal') : data = data' ∧ normal = normal' := by
  obtain ⟨state, ⟨before, version, version', hb, hm⟩, hd, hn⟩ := h
  obtain ⟨_, ⟨_, _, _, hb', hm'⟩, hd', hn'⟩ := h'
  obtain ⟨rfl, rfl⟩ := Prod.mk.inj (Except.ok.inj (hb.symm.trans hb'))
  obtain ⟨rfl, rfl⟩ := Prod.mk.inj (Except.ok.inj (hm.symm.trans hm'))
  obtain rfl := Except.ok.inj (hd.symm.trans hd')
  exact ⟨rfl, Except.ok.inj (hn.symm.trans hn')⟩

/-- Behind the last line, the end of the lines does not matter. -/
lemma replayLoop_of_lt {endLine endLine' : ℕ} {state : Val} (h : ∀ event ∈ events, event.lineNumber < endLine)
    (h' : ∀ event ∈ events, event.lineNumber < endLine') :
    replayLoop endLine state events = replayLoop endLine' state events := by
  induction events generalizing state with
  | nil => rfl
  | cons event events ih =>
    rw [List.forall_mem_cons] at h h'
    rw [replayLoop, replayLoop, if_neg (Nat.not_le.mpr h.1), if_neg (Nat.not_le.mpr h'.1)]
    split
    · rw [ih h.2 h'.2]
    · split
      · rfl
      · rw [ih h.2 h'.2]

variable {items : List Item}

/-- The file ends in the state behind its last record, if it is written as the program writes it. -/
theorem fileNormal_iff (hfit : ∀ i ∈ items, Framer.line.Fits i)
    (hframes : Framer.line.frames cli.blake3 0 items = .ok content)
    (hscan : scanEvents cli.blake3 cli.ser .line content = .ok (events, total))
    (hstamp : ∀ ts, cli.stamp ts = .ok ()) {data : D} {normal : Dict} :
    FileNormal T migrations content data normal ↔
      content ≠ [] ∧ timestampOf cli.ser (lastSnapshot (events.map FileEvent.record)).1 = .ok () ∧
        ∃ state, EndsAt migrations events ⟨0, endOfFile events, none⟩ state ∧ T.reload data state = .ok normal := by
  obtain ⟨r, hr, herror, -, hstate, hversion, -⟩ := replay_of_scan hfit hframes hscan
  have hbefore : stateBefore events (endOfFile events) = .ok (r.state, r.version) := by
    rw [stateBefore]
    simp only [herror, hstate, hversion]
    cases (replayEvents events (endOfFile events)).records.getLast? <;> rfl
  have hlast : r.lastSnapshot.elim (.ok ()) cli.stamp = .ok () := by
    cases r.lastSnapshot with
    | none => rfl
    | some ts => exact hstamp ts
  refine and_congr_right fun _ => ⟨?_, ?_⟩
  · rintro ⟨rr, hrr, -, state, version, hm, hn⟩
    rw [hr] at hrr
    obtain ⟨_, htime, hrr⟩ := bind_eq_ok.mp hrr
    obtain rfl := Except.ok.inj hrr
    exact ⟨htime, state, ⟨_, _, version, hbefore, hm⟩, hn⟩
  · rintro ⟨htime, state, ⟨before, version, version', hb, hm⟩, hn⟩
    obtain ⟨rfl, rfl⟩ := Prod.mk.inj (Except.ok.inj (hbefore.symm.trans hb))
    exact ⟨r, by rw [hr, htime]; rfl, hlast, state, version', hm, hn⟩

/-- **A range to the end of the file** is followed, if the fields of an object can be set. -/
theorem endsAlike_of_end (hfit : ∀ i ∈ items, Framer.line.Fits i)
    (hframes : Framer.line.frames cli.blake3 0 items = .ok content)
    (hscan : scanEvents cli.blake3 cli.ser .line content = .ok (events, total))
    (htime : timestampOf cli.ser (lastSnapshot (events.map FileEvent.record)).1 = .ok ())
    (hstamp : ∀ ts, cli.stamp ts = .ok ()) (hne : content ≠ []) (htype : T.isDict = false)
    (hset : ∀ data, T.objects.restoreInPlace data data = (data, .ok ()))
    (hend : ∀ event ∈ events, event.lineNumber < s.endLine) : EndsAlike T migrations content events s := by
  have hlast := lt_endOfFile (List.pairwise_map.mpr ((lines_increase hscan).imp Nat.le_of_lt))
  refine ⟨fun data normal hrange => ?_, fun hdict => ?_⟩
  · obtain ⟨state, ⟨before, version, version', hb, hm⟩, hd, hn⟩ := hrange
    refine (fileNormal_iff hfit hframes hscan hstamp).mpr ⟨hne, htime, state, ⟨before, version, version', ?_, hm⟩, ?_⟩
    · rw [← hb, stateBefore, stateBefore, replayEvents, replayEvents, replayLoop_of_lt hlast hend]
    · exact DataType.reload_eq_ok.mpr ⟨data, data, hd, hset data, hn⟩
  · simp [htype] at hdict

end

/-! ### A small file -/

namespace Sample

/-- The JSON of the sample states. -/
def encodeDigits (v : Val) : Except Exc Bytes :=
  match Dict.ofVal v with
  | some d => json (ascii "\x7b\"n\":") d (ascii "\x7d")
  | none => .error (.typeError "not in the sample")

/-- The sample states. -/
def states : List Dict := digits.map state

lemma mem_states {v : Val} {payload : Bytes} (h : encodeDigits v = .ok payload) : ∃ d ∈ states, v = d.val := by
  unfold encodeDigits at h
  split at h
  · next d hd =>
    obtain ⟨k, hk, rfl⟩ := state_of_json h
    exact ⟨state k, List.mem_map_of_mem hk, Dict.ofVal_eq_some.mp hd⟩
  · cases h

lemma encodeDigits_nodup : (states.map fun d => (encodeDigits d.val).toOption).Nodup := by decide +kernel

lemma encodeDigits_ok : ∀ d ∈ states, (encodeDigits d.val).toOption.isSome = true := by decide +kernel

/-- A command for the sample files. -/
def cli : Cli where
  filename := "three.kantadb"
  blake3 := (env 1).blake3
  ser := ser
  encode := encodeDigits
  decode := decode (fun d => encodeDigits d.val) states
  stamp _ := .ok ()
  repr s := "'" ++ s ++ "'"
  str _ := ""
  typeName _ := "ReplayError"
  decode_encode := by
    intro v payload h d
    obtain ⟨d', hd', rfl⟩ := mem_states h
    rw [decode_of_mem encodeDigits_nodup hd' h]
    constructor
    · intro h
      rw [Except.ok.inj h]
    · intro h
      rw [Option.some.inj ((Dict.ofVal_val d').symm.trans (Dict.ofVal_eq_some.mpr h))]
  encode_decode := by
    intro payload d h
    unfold decode at h
    split at h
    · next d' hd' =>
      obtain rfl := Except.ok.inj h
      obtain ⟨p, hp⟩ := Option.isSome_iff_exists.mp (encodeDigits_ok d' (List.mem_of_find?_eq_some hd'))
      exact ⟨p, eq_ok_of_toOption hp⟩
    · cases h

/-- A struct with the field `n`. -/
def number : DataType cli ℤ where
  encode n := encodeDigits (state n).val
  decode := decode (fun n => encodeDigits (state n).val) digits
  objects := ⟨fun _ _ => true, fun _ => ["n"], fun restored _ _ => (restored, .ok ())⟩
  isDict := false
  dict_normal h := by cases h

/-- The sample file, with what is written with `-d` and with `-k` for a range of it. -/
def outputs (range : Option String) : Option (Val × Val) := do
  let content ← (frameRecords cli.blake3 ser .line 0 three).toOption
  let named ← (cli.run (.named (some number) none) range content).toOption
  let object ← (cli.run (.object number none) range content).toOption
  some (named, object)

example : (outputs none).map (fun p => (p.1.pyEq (state 2).val, p.2.pyEq (state 2).val)) = some (true, true) := by
  decide +kernel

/-- A range of the sample. -/
lemma exists_selection (range : Option String)
    (h : ((frameRecords cli.blake3 ser .line 0 three).toOption.bind fun content =>
      (scanEvents cli.blake3 cli.ser .line content).toOption.bind fun scanned =>
        (cli.selection range scanned.1 scanned.2).toOption).isSome = true) :
    ∃ content events total s, frameRecords cli.blake3 ser .line 0 three = .ok content ∧
      scanEvents cli.blake3 cli.ser .line content = .ok (events, total) ∧
      cli.selection range events total = .ok s := by
  obtain ⟨s, h⟩ := Option.isSome_iff_exists.mp h
  obtain ⟨content, hcontent, h⟩ := Option.bind_eq_some_iff.mp h
  obtain ⟨⟨events, total⟩, hscan, hselect⟩ := Option.bind_eq_some_iff.mp h
  exact ⟨content, events, total, s, eq_ok_of_toOption hcontent, eq_ok_of_toOption hscan, eq_ok_of_toOption hselect⟩

end Sample

end Kanta
