import Kanta.History

/-!
# Transactions

`transaction` lets the body change the data in place, checks the result, queues the change and logs
it; when any of this raises an `Exception`, it logs the failure and restores the data from the dict
it took at the start.  `transaction_atomic_iff` says when that is all or nothing.
-/

namespace Kanta

/-! ### The code that a transaction calls -/

/-- A log event, with what the transaction puts in. -/
structure LogEvent where
  kind : String
  action : Option String
  user : Option String
  error : Option Exc
  diff : Option Dict
  previous : Option Dict
  current : Option Dict

/-- A formatter once it is built. -/
abbrev Format := String → Except Exc (Option String)

/-- A registered log formatter: the path it is for, and the call that builds it from the two states. -/
structure Formatter where
  path : Option String
  build : Dict → Dict → Except Exc Format

/-- The code of the application and of msgspec; `D` is the type of the data. -/
structure Hooks (D : Type) where
  structToDict : D → Except Exc Dict
  dictToStruct : Dict → Except Exc D
  objects : Objects D
  /-- A validator may change the data. -/
  validators : List (D → D × Except Exc Unit)
  formatters : List Formatter
  /-- `logemit` callbacks: whether the event is passed on. -/
  handlers : List (LogEvent → Except Exc Bool)
  defaultEmit : LogEvent → Except Exc Unit
  clock : Except Exc DateTime

/-- The `mtime` argument as it is given. -/
inductive MtimeArgument where
  | valid (mtime : Mtime)
  | other

/-- `transaction(action, ...)` with the body of the with-statement. -/
structure Transaction (D : Type) where
  action : String
  user : Option String
  mtime : MtimeArgument
  log : Bool
  body : D → D × Except Exc Unit

/-- The instance, as far as a transaction sees it. -/
structure Live (D : Type) where
  data : D
  store : Store
  readonly : Bool
  inTransaction : Bool
  transactionSnapshot : Option Dict

/-- `_USER_PATH`. -/
def userPath : String := "$user"

/-- `invoke_sync` of the validators. -/
def invokeSync {D : Type} : List (D → D × Except Exc Unit) → D → D × Except Exc Unit
  | [], data => (data, .ok ())
  | validate :: rest, data =>
    match validate data with
    | (data, .ok ()) => invokeSync rest data
    | (data, .error e) => (data, .error e)

/-- `build_logfmt`. -/
def buildLogfmt (previous current : Dict) : List Formatter → Except Exc (List (Option String × Format))
  | [] => .ok []
  | formatter :: rest => do
    let format ← formatter.build previous current
    let formats ← buildLogfmt previous current rest
    .ok ((formatter.path, format) :: formats)

/-- `format_value`: a formatter that fails is passed over. -/
def formatValue (value path : String) : List (Option String × Format) → Except Exc (Option String)
  | [] => .ok none
  | (pattern, format) :: rest =>
    if pattern.isSome ∧ pattern ≠ some path then formatValue value path rest
    else
      match format value with
      | .ok (some text) => .ok (some text)
      | .ok none => formatValue value path rest
      | .error e => if e.isException then formatValue value path rest else .error e

/-- `_resolve_user`. -/
def resolveUser (formats : List (Option String × Format)) : Option String → Except Exc (Option String)
  | none => .ok none
  | some user => do
    let resolved ← formatValue user userPath formats
    .ok (some (resolved.getD user))

/-- The handlers of `emit_event`: whether the event is still to be rendered. -/
def passOn (ev : LogEvent) : List (LogEvent → Except Exc Bool) → Except Exc Bool
  | [] => .ok true
  | handler :: rest =>
    match handler ev with
    | .ok true => passOn ev rest
    | .ok false => .ok false
    | .error e => if e.isException then .ok true else .error e

/-- `queue_change`, which checks `mtime` once the clock has been read. -/
def Store.queueTransaction (store : Store) (action : String) (current : Dict) (user : Option String)
    (mtime : MtimeArgument) (clock : Except Exc DateTime) : Except Exc (Option ChangeRecord × Store) :=
  match mtime with
  | .valid mtime => store.queueChange action current user mtime false clock
  | .other =>
    match delta store.statedict current with
    | none => .ok (none, store)
    | some _ => do
      let _ ← clock
      .error (.typeError "mtime must be True, False, or a datetime")

/-! ### The with-statement -/

section

variable {D : Type} (hooks : Hooks D)

/-- `emit_event`. -/
def emitEvent (ev : LogEvent) : Except Exc Unit := do
  if ← passOn ev hooks.handlers then
    match hooks.defaultEmit ev with
    | .ok () => .ok ()
    | .error e => if e.isException then .ok () else .error e
  else .ok ()

/-- `restore_data_in_place`, with the data behind it. -/
def restoreDataInPlace (data : D) (snapshot : Dict) : D × Except Exc Unit :=
  match hooks.dictToStruct snapshot with
  | .error e => (data, .error e)
  | .ok restored => hooks.objects.restoreInPlace data restored

/-- What comes in front of the new state: the body, the encoding, the validators and `queue_change`. -/
def prepare (s : Live D) (c : Transaction D) : D × Except Exc (Option (Dict × ChangeRecord × Store)) :=
  match c.body s.data with
  | (data, .error e) => (data, .error e)
  | (data, .ok ()) =>
    match hooks.structToDict data with
    | .error e => (data, .error e)
    | .ok newDict =>
      match delta s.store.statedict newDict with
      | none => (data, .ok none)
      | some _ =>
        match invokeSync hooks.validators data with
        | (data, .error e) => (data, .error e)
        | (data, .ok ()) =>
          match s.store.queueTransaction c.action newDict c.user c.mtime hooks.clock with
          | .error e => (data, .error e)
          | .ok (none, _) => (data, .ok none)
          | .ok (some record, store) => (data, .ok (some (newDict, record, store)))

/-- The log of a change. -/
def logChange (c : Transaction D) (previous newDict : Dict) (record : ChangeRecord) : Except Exc Unit :=
  if c.log then do
    let logfmt ← buildLogfmt previous newDict hooks.formatters
    let user ← resolveUser logfmt c.user
    emitEvent hooks ⟨"change", some c.action, user, none, some record.diff, some previous, some newDict⟩
  else .ok ()

/-- The `try` block. -/
def attempt (s : Live D) (c : Transaction D) : Live D × Except Exc Unit :=
  match prepare hooks s c with
  | (data, .error e) => ({ s with data }, .error e)
  | (data, .ok none) => ({ s with data }, .ok ())
  | (data, .ok (some (newDict, record, store))) =>
    ({ s with data, store }, logChange hooks c s.store.statedict newDict record)

/-- The log of a failure. -/
def logAbort (c : Transaction D) (statedict : Dict) (e : Exc) : Except Exc Unit := do
  let user ←
    match c.user with
    | none => .ok none
    | some user => do
      let logfmt ← buildLogfmt statedict statedict hooks.formatters
      resolveUser logfmt (some user)
  emitEvent hooks ⟨"aborted", some c.action, user, some e, none, none, none⟩

/-- The `except` block, which ends in an exception. -/
def abort (s : Live D) (c : Transaction D) (e : Exc) : Live D × Exc :=
  match logAbort hooks c s.store.statedict e with
  | .error e' => (s, e')
  | .ok () =>
    match s.transactionSnapshot with
    | none => (s, e)
    | some snapshot =>
      match restoreDataInPlace hooks s.data snapshot with
      | (data, .error e') => ({ s with data }, e')
      | (data, .ok ()) => ({ s with data }, e)

/-- The data was changed outside of a transaction. -/
def modifiedOutside (s : Live D) (c : Transaction D) (current : Dict) : Bool :=
  !current.pyEq s.store.statedict && !(c.action = "bootstrap" && s.store.statedict.items.isEmpty) &&
    (delta s.store.statedict current).isSome

/-- `transaction`. -/
def transaction (s : Live D) (c : Transaction D) : Live D × Except Exc Unit :=
  if s.readonly then
    (s, .error (.dataIntegrityError "Cannot start transaction in read-only mode" (some c.action) none))
  else if s.inTransaction then
    (s, .error (.runtimeError
      "Nested or simultaneous transactions are not supported (don't await inside transactions)."))
  else
    match hooks.structToDict s.data with
    | .error e => (s, .error e)
    | .ok current =>
      -- the error to raise asks for `impl.db_path`, which there is not
      if modifiedOutside s c current then (s, .error (.attributeError "db_path"))
      else
        match attempt hooks { s with inTransaction := true, transactionSnapshot := some current } c with
        | (s, .ok ()) => ({ s with inTransaction := false, transactionSnapshot := none }, .ok ())
        | (s, .error e) =>
          let (s, e) := if e.isException then abort hooks s c e else (s, e)
          ({ s with inTransaction := false, transactionSnapshot := none }, .error e)

/-! ### All or nothing -/

/-- Two encodings of the data that are the same to Python. -/
def Same (x y : Except Exc Dict) : Prop := x = y ∨ ∃ d d', x = .ok d ∧ y = .ok d' ∧ d.pyEq d' = true

/-- Everything is as it was, and no transaction is under way. -/
structure Unchanged (s s' : Live D) : Prop where
  data : Same (hooks.structToDict s'.data) (hooks.structToDict s.data)
  statedict : s'.store.statedict = s.store.statedict
  pending : s'.store.pending = s.store.pending
  mtime : s'.store.mtime = s.store.mtime
  idle : s'.inTransaction = false

/-- The data and `statedict` hold the new state, which is what the body has made, and one record was
queued for it if it is new. -/
structure Done (s s' : Live D) (c : Transaction D) (newDict : Dict) : Prop where
  made : hooks.structToDict (c.body s.data).1 = .ok newDict
  data : Same (hooks.structToDict s'.data) (.ok newDict)
  statedict : s'.store.statedict.pyEq newDict = true
  queued : if s.store.statedict.pyEq newDict = true then s'.store.pending = s.store.pending
    else ∃ q, s'.store.pending = s.store.pending ++ [q]
  idle : s'.inTransaction = false

/-- A transaction that ends in an `Exception` changes nothing, and one that ends normally is done. -/
def Atomic (s : Live D) (c : Transaction D) : Prop :=
  match transaction hooks s c with
  | (s', .ok ()) => ∃ newDict, Done hooks s s' c newDict
  | (s', .error e) => e.isException = true → Unchanged hooks s s'

/-- What becomes of the data after a failure, and of the exception: the data is restored from the dict of
the start, unless the log of the failure or the restoration raises in turn. -/
def rollback (c : Transaction D) (statedict current : Dict) (data : D) (e : Exc) : D × Exc :=
  match logAbort hooks c statedict e with
  | .error e' => (data, e')
  | .ok () =>
    match restoreDataInPlace hooks data current with
    | (data, .error e') => (data, e')
    | (data, .ok ()) => (data, e)

/-- The failure of a body or of a check leaves the data as it was: the failure can be logged, the dict of
the start can be restored, and the object encodes to it then; where another `Exception` is raised on the
way, what the body has left encodes to it, or what the restoration has left by then. -/
def RollsBack (s : Live D) (c : Transaction D) (current : Dict) (data : D) (e : Exc) : Prop :=
  match logAbort hooks c s.store.statedict e with
  | .error e' => e'.isException = true → Same (hooks.structToDict data) (.ok current)
  | .ok () =>
    match restoreDataInPlace hooks data current with
    | (left, .error e') => e'.isException = true → Same (hooks.structToDict left) (.ok current)
    | (restored, .ok ()) => Same (hooks.structToDict restored) (.ok current)

/-- Once the change is queued, nothing raises an `Exception` any more, and the validators have left the
data as the body made it. -/
def Settles (s : Live D) (c : Transaction D) (current : Dict) (data : D) (newDict : Dict) (record : ChangeRecord)
    (store : Store) : Prop :=
  match logChange hooks c s.store.statedict newDict record with
  | .ok () => Same (hooks.structToDict data) (.ok newDict)
  | .error e => e.isException = true → (rollback hooks c store.statedict current data e).2.isException = false

/-- What fails in front of the queue is rolled back, and what comes behind it does not fail. -/
def HoldsUp (s : Live D) (c : Transaction D) (current : Dict) : Prop :=
  match prepare hooks s c with
  | (data, .error e) => e.isException = true → RollsBack hooks s c current data e
  | (_, .ok none) => True
  | (data, .ok (some (newDict, record, store))) => Settles hooks s c current data newDict record store

/-- The condition: no transaction is under way, and this one holds when it begins. -/
structure Safe (s : Live D) (c : Transaction D) : Prop where
  idle : s.inTransaction = false
  begun : ∀ current, s.readonly = false → hooks.structToDict s.data = .ok current →
    modifiedOutside s c current = false → HoldsUp hooks s c current

variable {hooks}

lemma Same.rfl {x : Except Exc Dict} : Same x x := Or.inl (Eq.refl x)

/-- If the with-statement ends in an `Exception`, the data is what it was. -/
lemma rollsBack_iff {s : Live D} {c : Transaction D} {current : Dict} {data : D} {e : Exc}
    (he : e.isException = true) :
    RollsBack hooks s c current data e ↔
      ((rollback hooks c s.store.statedict current data e).2.isException = true →
        Same (hooks.structToDict (rollback hooks c s.store.statedict current data e).1) (.ok current)) := by
  rw [RollsBack, rollback]
  cases logAbort hooks c s.store.statedict e with
  | error e' => rfl
  | ok u =>
    dsimp only
    rcases restoreDataInPlace hooks data current with ⟨left, e' | _⟩
    · rfl
    · simp only [he, true_implies]

/-- The `except` block restores the data, or ends in another exception. -/
lemma abort_eq {s : Live D} {c : Transaction D} {e : Exc} {current : Dict}
    (h : s.transactionSnapshot = some current) :
    abort hooks s c e =
      ({ s with data := (rollback hooks c s.store.statedict current s.data e).1 },
        (rollback hooks c s.store.statedict current s.data e).2) := by
  rw [abort, rollback]
  cases logAbort hooks c s.store.statedict e with
  | error e' => rfl
  | ok u =>
    rw [h]
    dsimp only
    rcases restoreDataInPlace hooks s.data current with ⟨data, _ | _⟩ <;> rfl

/-- **A dict or a dataclass is not rolled back**: what the body has left stays. -/
theorem rollback_unfielded {c : Transaction D} {statedict current : Dict} {data restored : D} {e : Exc}
    (hrestored : hooks.dictToStruct current = .ok restored) (hsame : hooks.objects.sameType restored data = true)
    (hfields : hooks.objects.structFields restored = []) : (rollback hooks c statedict current data e).1 = data := by
  rw [rollback]
  cases logAbort hooks c statedict e with
  | error e' => rfl
  | ok u =>
    dsimp only
    rw [restoreDataInPlace, hrestored]
    dsimp only
    rw [hooks.objects.restoreInPlace_of_unfielded hsame hfields]

/-- A record is queued for a change of the state, behind the others. -/
lemma Store.queueTransaction_some {store store' : Store} {action : String} {current : Dict}
    {user : Option String} {mtime : MtimeArgument} {clock : Except Exc DateTime} {record : ChangeRecord}
    (h : store.queueTransaction action current user mtime clock = .ok (some record, store')) :
    store' = store.append record current ∧ delta store.statedict current ≠ none := by
  cases mtime with
  | other =>
    rw [Store.queueTransaction] at h
    split at h
    · simp at h
    · obtain ⟨_, -, h⟩ := bind_eq_ok.mp h
      simp at h
  | valid mtime =>
    unfold Store.queueTransaction Store.queueChange at h
    dsimp only at h
    split at h
    · simp at h
    · rename_i hd
      obtain ⟨now, -, h⟩ := bind_eq_ok.mp h
      obtain ⟨hrecord, hstore⟩ := Prod.mk.inj (Except.ok.inj h)
      rw [Option.some.inj hrecord] at hstore
      refine ⟨hstore.symm, fun hnone => hd hnone rfl⟩

lemma delta_eq_none {previous current : Dict} : delta previous current = none ↔ previous.pyEq current = true := by
  rw [← diff_eq_none]
  constructor
  · intro h
    cases hd : diff previous current with
    | none => rfl
    | some d =>
      obtain ⟨dd, -, hdelta⟩ := exists_delta hd
      rw [h] at hdelta
      simp at hdelta
  · intro h
    rw [delta, h]
    rfl

/-- The `finally` block. -/
def Live.ended (s : Live D) : Live D := { s with inTransaction := false, transactionSnapshot := none }

/-- Inside the with-statement. -/
def Live.begun (s : Live D) (current : Dict) : Live D :=
  { s with inTransaction := true, transactionSnapshot := some current }

variable {s s' : Live D} {c : Transaction D} {current newDict : Dict} {data : D} {record : ChangeRecord} {store : Store}
  {e : Exc}

/-- A transaction that has begun. -/
structure Begins (hooks : Hooks D) (s : Live D) (c : Transaction D) (current : Dict) : Prop where
  writable : s.readonly = false
  idle : s.inTransaction = false
  encoded : hooks.structToDict s.data = .ok current
  inside : modifiedOutside s c current = false

lemma transaction_ok (h : Begins hooks s c current) (ha : attempt hooks (s.begun current) c = (s', .ok ())) :
    transaction hooks s c = (s'.ended, .ok ()) := by
  have ha : attempt hooks { s with inTransaction := true, transactionSnapshot := some current } c = (s', .ok ()) := ha
  rw [transaction, if_neg (by simp [h.writable]), if_neg (by simp [h.idle]), h.encoded]
  dsimp only
  rw [if_neg (by simp [h.inside]), ha]
  rfl

lemma transaction_raised (h : Begins hooks s c current)
    (ha : attempt hooks (s.begun current) c = (s', .error e)) (he : e.isException = true)
    (hs : s'.transactionSnapshot = some current) :
    transaction hooks s c =
      ({ s' with data := (rollback hooks c s'.store.statedict current s'.data e).1 }.ended,
        .error (rollback hooks c s'.store.statedict current s'.data e).2) := by
  have ha : attempt hooks { s with inTransaction := true, transactionSnapshot := some current } c =
    (s', .error e) := ha
  rw [transaction, if_neg (by simp [h.writable]), if_neg (by simp [h.idle]), h.encoded]
  dsimp only
  rw [if_neg (by simp [h.inside]), ha]
  simp only [he, if_true, abort_eq hs]
  rfl

lemma transaction_base (h : Begins hooks s c current)
    (ha : attempt hooks (s.begun current) c = (s', .error e)) (he : e.isException = false) :
    transaction hooks s c = (s'.ended, .error e) := by
  have ha : attempt hooks { s with inTransaction := true, transactionSnapshot := some current } c =
    (s', .error e) := ha
  rw [transaction, if_neg (by simp [h.writable]), if_neg (by simp [h.idle]), h.encoded]
  dsimp only
  rw [if_neg (by simp [h.inside]), ha]
  simp only [he, Bool.false_eq_true, if_false]
  rfl

/-! ### The body and what comes behind it -/

lemma attempt_failed (hp : prepare hooks s c = (data, .error e)) :
    attempt hooks (s.begun current) c = ({ s.begun current with data }, .error e) := by
  rw [attempt, show prepare hooks (s.begun current) c = (data, .error e) from hp]

lemma attempt_unchanged (hp : prepare hooks s c = (data, .ok none)) :
    attempt hooks (s.begun current) c = ({ s.begun current with data }, .ok ()) := by
  rw [attempt, show prepare hooks (s.begun current) c = (data, .ok none) from hp]

lemma attempt_queued (hp : prepare hooks s c = (data, .ok (some (newDict, record, store)))) :
    attempt hooks (s.begun current) c =
      ({ s.begun current with data, store }, logChange hooks c s.store.statedict newDict record) := by
  rw [attempt, show prepare hooks (s.begun current) c = _ from hp]
  rfl

/-! ### What comes in front of the new state -/

/-- The queue is left alone only when there is nothing to record. -/
lemma Store.queueTransaction_none {store store' : Store} {action : String} {current : Dict}
    {user : Option String} {mtime : MtimeArgument} {clock : Except Exc DateTime}
    (h : store.queueTransaction action current user mtime clock = .ok (none, store')) :
    delta store.statedict current = none := by
  cases mtime with
  | other =>
    rw [Store.queueTransaction] at h
    split at h
    · assumption
    · obtain ⟨_, -, h⟩ := bind_eq_ok.mp h
      simp at h
  | valid mtime =>
    unfold Store.queueTransaction Store.queueChange at h
    dsimp only at h
    split at h
    · assumption
    · obtain ⟨now, -, h⟩ := bind_eq_ok.mp h
      simp at h

/-- What the validators leave behind, and what is queued. -/
lemma prepare_queues (h : prepare hooks s c = (data, .ok (some (newDict, record, store)))) :
    invokeSync hooks.validators (c.body s.data).1 = (data, .ok ()) ∧
      s.store.queueTransaction c.action newDict c.user c.mtime hooks.clock = .ok (some record, store) := by
  rw [prepare] at h
  split at h
  · simp at h
  · rename_i made hbody
    rw [hbody]
    split at h
    · simp at h
    · split at h
      · simp at h
      · split at h
        · simp at h
        · rename_i hvalid
          split at h
          · simp at h
          · simp at h
          · rename_i hq
            obtain ⟨rfl, hresult⟩ := Prod.mk.inj h
            obtain ⟨rfl, hrest⟩ := Prod.mk.inj (Option.some.inj (Except.ok.inj hresult))
            obtain ⟨rfl, rfl⟩ := Prod.mk.inj hrest
            exact ⟨hvalid, hq⟩

/-- What the checks have found when they do not raise. -/
lemma prepare_ok {result : Option (Dict × ChangeRecord × Store)} (h : prepare hooks s c = (data, .ok result)) :
    ∃ newDict, hooks.structToDict (c.body s.data).1 = .ok newDict ∧
      ((delta s.store.statedict newDict = none ∧ (c.body s.data).1 = data ∧ result = none) ∨
        ∃ record, delta s.store.statedict newDict ≠ none ∧
          result = some (newDict, record, s.store.append record newDict)) := by
  rw [prepare] at h
  split at h
  · simp at h
  · rename_i made hbody
    rw [hbody]
    split at h
    · simp at h
    · rename_i newDict hnew
      refine ⟨newDict, hnew, ?_⟩
      split at h
      · rename_i hdelta
        obtain ⟨hdata, hresult⟩ := Prod.mk.inj h
        exact Or.inl ⟨hdelta, hdata, (Except.ok.inj hresult).symm⟩
      · rename_i dd hdelta
        split at h
        · simp at h
        · split at h
          · simp at h
          · rename_i hq
            rw [Store.queueTransaction_none hq] at hdelta
            simp at hdelta
          · rename_i record store hq
            obtain ⟨hstore, hne⟩ := Store.queueTransaction_some hq
            obtain ⟨-, hresult⟩ := Prod.mk.inj h
            exact Or.inr ⟨record, hne, by rw [← Except.ok.inj hresult, hstore]⟩

/-- Without a change, the validators are not asked. -/
lemma prepare_none (h : prepare hooks s c = (data, .ok none)) :
    ∃ newDict, (c.body s.data).1 = data ∧ hooks.structToDict data = .ok newDict ∧
      delta s.store.statedict newDict = none := by
  obtain ⟨newDict, hnew, ⟨hdelta, hdata, -⟩ | ⟨record, -, hresult⟩⟩ := prepare_ok h
  · exact ⟨newDict, hdata, hdata ▸ hnew, hdelta⟩
  · simp at hresult

/-- With a change, a record for it is queued. -/
lemma prepare_some (h : prepare hooks s c = (data, .ok (some (newDict, record, store)))) :
    hooks.structToDict (c.body s.data).1 = .ok newDict ∧ store = s.store.append record newDict ∧
      delta s.store.statedict newDict ≠ none := by
  obtain ⟨d, hnew, ⟨-, -, hresult⟩ | ⟨record, hdelta, hresult⟩⟩ := prepare_ok h
  · simp at hresult
  · obtain ⟨hd, hresult⟩ := Prod.mk.inj (Option.some.inj hresult)
    obtain ⟨-, hstore⟩ := Prod.mk.inj hresult
    obtain rfl := hd
    obtain ⟨rfl, hstore⟩ := Prod.mk.inj hresult
    exact ⟨hnew, hstore, hdelta⟩

/-! ### The three ways to end -/

lemma atomic_failed (h : Begins hooks s c current) (hp : prepare hooks s c = (data, .error e)) :
    Atomic hooks s c ↔ (e.isException = true → RollsBack hooks s c current data e) := by
  have ha : attempt hooks (s.begun current) c = _ := attempt_failed hp
  have hsame : ∀ d, Unchanged hooks s { s with data := d }.ended ↔ Same (hooks.structToDict d) (.ok current) := by
    intro d
    constructor
    · intro hu
      rw [← h.encoded]
      exact hu.data
    · intro hd
      exact ⟨by rw [h.encoded]; exact hd, rfl, rfl, rfl, rfl⟩
  by_cases he : e.isException = true
  · have htx := transaction_raised h ha he rfl
    dsimp only [Live.begun] at htx
    rw [Atomic, htx]
    simp only [he, true_implies, rollsBack_iff he]
    exact imp_congr_right fun _ => hsame _
  · have he : e.isException = false := by simpa using he
    rw [Atomic, transaction_base h ha he]
    simp [he]

lemma atomic_unchanged (h : Begins hooks s c current) (hp : prepare hooks s c = (data, .ok none)) :
    Atomic hooks s c := by
  obtain ⟨newDict, hbody, hnew, heq⟩ : ∃ newDict, (c.body s.data).1 = data ∧
      hooks.structToDict data = .ok newDict ∧ s.store.statedict.pyEq newDict = true := by
    obtain ⟨d, hd, hnew, hdelta⟩ := prepare_none hp
    exact ⟨d, hd, hnew, delta_eq_none.mp hdelta⟩
  rw [Atomic, transaction_ok h (attempt_unchanged hp)]
  refine ⟨newDict, ⟨hbody ▸ hnew, Or.inl hnew, heq, ?_, rfl⟩⟩
  rw [if_pos heq]
  rfl

lemma atomic_queued (h : Begins hooks s c current)
    (hp : prepare hooks s c = (data, .ok (some (newDict, record, store)))) :
    Atomic hooks s c ↔ Settles hooks s c current data newDict record store := by
  obtain ⟨hnew, hstore, hdelta⟩ := prepare_some hp
  have ha : attempt hooks (s.begun current) c = _ := attempt_queued hp
  have hnot : ∀ d, ¬Unchanged hooks s { s with data := d, store := store }.ended := by
    intro d hu
    have := hu.pending
    rw [hstore] at this
    simp [Live.ended, Store.append] at this
  rw [Settles]
  cases hlog : logChange hooks c s.store.statedict newDict record with
  | ok u =>
    rw [hlog] at ha
    rw [Atomic, transaction_ok h ha]
    constructor
    · rintro ⟨d, hdone⟩
      obtain rfl := Except.ok.inj (hnew.symm.trans hdone.made)
      exact hdone.data
    · intro hsame
      have hne : s.store.statedict.pyEq newDict = false := by
        rw [Ne, delta_eq_none] at hdelta
        simpa using hdelta
      refine ⟨newDict, ⟨hnew, hsame, ?_, ?_, rfl⟩⟩
      · rw [hstore]
        exact Dict.pyEq_iff.mpr rfl
      · rw [if_neg (by simp [hne]), hstore]
        exact ⟨_, rfl⟩
  | error e =>
    rw [hlog] at ha
    by_cases he : e.isException = true
    · have htx := transaction_raised h ha he rfl
      dsimp only [Live.begun] at htx
      rw [Atomic, htx]
      simp only [he, true_implies]
      constructor
      · intro hun
        by_contra hne
        exact hnot _ (hun (by simpa using hne))
      · intro hbase hex
        simp [hbase] at hex
    · have he : e.isException = false := by simpa using he
      rw [Atomic, transaction_base h ha he]
      simp [he]

/-- A transaction that has begun is all or nothing when it holds. -/
lemma Begins.atomic_iff (h : Begins hooks s c current) : Atomic hooks s c ↔ HoldsUp hooks s c current := by
  rw [HoldsUp]
  rcases hp : prepare hooks s c with ⟨data, e | _ | ⟨newDict, record, store⟩⟩
  · exact atomic_failed h hp
  · exact iff_of_true (atomic_unchanged h hp) trivial
  · exact atomic_queued h hp

lemma Store.queueTransaction_commit {store store' : Store} {action : String} {current : Dict}
    {user : Option String} {mtime : MtimeArgument} {clock : Except Exc DateTime} {record : ChangeRecord}
    (h : store.queueTransaction action current user mtime clock = .ok (some record, store')) :
    ∃ mtime now, store.queueChange action current user mtime false (.ok now) = .ok (some record, store') := by
  cases mtime with
  | other =>
    rw [Store.queueTransaction] at h
    split at h
    · simp at h
    · obtain ⟨_, -, h⟩ := bind_eq_ok.mp h
      simp at h
  | valid mtime =>
    cases hclock : clock with
    | ok now => exact ⟨mtime, now, by rw [← hclock]; exact h⟩
    | error e =>
      unfold Store.queueTransaction Store.queueChange at h
      dsimp only at h
      split at h
      · simp at h
      · rw [hclock] at h
        simp [bind, Except.bind] at h

/-- The log of a failure and the rollback leave the store alone. -/
lemma abort_store (s : Live D) (c : Transaction D) (e : Exc) : (abort hooks s c e).1.store = s.store := by
  unfold abort
  split
  · rfl
  · split
    · rfl
    · split <;> rfl

/-- **What a transaction queues**: nothing, or one change. -/
theorem transaction_store (s : Live D) (c : Transaction D) :
    (transaction hooks s c).1.store = s.store ∨
      ∃ newDict mtime now record, s.store.queueChange c.action newDict c.user mtime false (.ok now) =
        .ok (some record, (transaction hooks s c).1.store) := by
  have hattempt : ∀ t : Live D, t.store = s.store → (attempt hooks t c).1.store = s.store ∨
      ∃ newDict mtime now record, s.store.queueChange c.action newDict c.user mtime false (.ok now) =
        .ok (some record, (attempt hooks t c).1.store) := by
    intro t ht
    rw [attempt]
    rcases hp : prepare hooks t c with ⟨data, e | _ | ⟨newDict, record, store⟩⟩
    · exact Or.inl ht
    · exact Or.inl ht
    · obtain ⟨mtime, now, hq⟩ := Store.queueTransaction_commit (prepare_queues hp).2
      exact Or.inr ⟨newDict, mtime, now, record, ht ▸ hq⟩
  unfold transaction
  split
  · exact Or.inl rfl
  · split
    · exact Or.inl rfl
    · split
      · exact Or.inl rfl
      · rename_i current hcurrent
        split
        · exact Or.inl rfl
        · have hbegun := hattempt { s with inTransaction := true, transactionSnapshot := some current } rfl
          split
          · rename_i t ht
            rw [ht] at hbegun
            exact hbegun
          · rename_i t e ht
            rw [ht] at hbegun
            dsimp only
            split
            · have habort : (abort hooks t c e).1.store = t.store := abort_store t c e
              rw [← habort] at hbegun
              exact hbegun
            · exact hbegun

/-- A transaction begins, or is refused. -/
lemma begins_or_refused (s : Live D) (c : Transaction D) :
    (∃ current, Begins hooks s c current) ∨ ∃ e, transaction hooks s c = (s, .error e) := by
  by_cases hro : s.readonly = true
  · exact Or.inr ⟨_, by rw [transaction, if_pos hro]⟩
  by_cases hin : s.inTransaction = true
  · exact Or.inr ⟨_, by rw [transaction, if_neg hro, if_pos hin]⟩
  cases hcurrent : hooks.structToDict s.data with
  | error e => exact Or.inr ⟨e, by rw [transaction, if_neg hro, if_neg hin, hcurrent]⟩
  | ok current =>
    by_cases hout : modifiedOutside s c current = true
    · refine Or.inr ⟨.attributeError "db_path", ?_⟩
      rw [transaction, if_neg hro, if_neg hin, hcurrent]
      exact if_pos hout
    · exact Or.inl ⟨current, by simpa using hro, by simpa using hin, hcurrent, by simpa using hout⟩

lemma Same.symm {x y : Except Exc Dict} (h : Same x y) : Same y x := by
  rcases h with rfl | ⟨d, d', rfl, rfl, h⟩
  · exact .rfl
  · exact Or.inr ⟨d', d, Eq.refl _, Eq.refl _, Dict.pyEq_iff.mpr (Dict.pyEq_iff.mp h).symm⟩

lemma Same.trans {x y z : Except Exc Dict} (h : Same x y) (h' : Same y z) : Same x z := by
  rcases h with rfl | ⟨d, d', rfl, rfl, h⟩
  · exact h'
  · rcases h' with rfl | ⟨e, e', he, rfl, h'⟩
    · exact Or.inr ⟨d, d', Eq.refl _, Eq.refl _, h⟩
    · obtain rfl := Except.ok.inj he
      exact Or.inr ⟨d, e', Eq.refl _, Eq.refl _,
        Dict.pyEq_iff.mpr ((Dict.pyEq_iff.mp h).trans (Dict.pyEq_iff.mp h'))⟩

/-- The data encodes to `statedict`. -/
def Live.Agrees (hooks : Hooks D) (s : Live D) : Prop := Same (hooks.structToDict s.data) (.ok s.store.statedict)

/-- **Data and `statedict` stay together** in a transaction that holds and that no `BaseException` ends. -/
theorem Safe.agrees (h : Safe hooks s c) (ha : s.Agrees hooks)
    (hbase : ∀ e, (transaction hooks s c).2 = .error e → e.isException = true) :
    (transaction hooks s c).1.Agrees hooks := by
  have hcases : (∃ current, Begins hooks s c current) ∨ ∃ e, transaction hooks s c = (s, .error e) :=
    begins_or_refused s c
  rcases hcases with ⟨current, hb⟩ | ⟨e, htx⟩
  · have hatomic := hb.atomic_iff.mpr (h.begun current hb.writable hb.encoded hb.inside)
    rw [Atomic] at hatomic
    rcases htx : transaction hooks s c with ⟨s', ⟨⟩ | e⟩
    · rw [htx] at hbase hatomic
      have hun := hatomic (hbase _ rfl)
      rw [Live.Agrees, hun.statedict]
      exact hun.data.trans ha
    · rw [htx] at hatomic
      obtain ⟨newDict, hdone⟩ := hatomic
      exact hdone.data.trans (Or.inr ⟨newDict, _, Eq.refl _, Eq.refl _,
        Dict.pyEq_iff.mpr (Dict.pyEq_iff.mp hdone.statedict).symm⟩)
  · rw [htx]
    exact ha

end

/-! ### Failures that keep a change -/

namespace Sample

/-- A database with a log formatter that cannot be built, and a Struct with the one field `n`. -/
def unformatted : Hooks Dict where
  structToDict := .ok
  dictToStruct := .ok
  objects := ⟨fun _ _ => true, fun _ => ["n"], fun restored _ _ => (restored, .ok ())⟩
  validators := []
  formatters := [⟨none, fun _ _ => .error (.user 1)⟩]
  handlers := []
  defaultEmit _ := .ok ()
  clock := .ok ts

/-- A database whose data is a plain dict. -/
def unfielded : Hooks Dict :=
  { unformatted with formatters := [], objects := ⟨fun _ _ => true, fun _ => [], fun _ _ data => (data, .ok ())⟩ }

/-- An instance that holds `{"n": 0}`. -/
def live : Live Dict := ⟨state 0, ⟨state 0, 0, none, [], []⟩, false, false, none⟩

/-- A transaction that sets `n`. -/
def setting : Transaction Dict := ⟨"set", none, .valid .omit, true, fun _ => (state 1, .ok ())⟩

/-- A transaction that sets `n` and raises a `ValueError`. -/
def raising : Transaction Dict := { setting with body := fun _ => (state 1, .error .valueError) }

end Sample

end Kanta
