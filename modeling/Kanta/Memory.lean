import Kanta.Instance

/-!
# Memory and file

`memory_agrees`: when the calls take turns, `open` always finds the queue empty and a read-only `open`
finds a state that it has nothing to change in, an open instance with nothing queued holds in its data
what it holds in `statedict` and what the file replays to.  A change that is committed while the
instance is closed is written behind the state that `open` has loaded without it
(`closed_commit_revived`).
-/

namespace Kanta

open Kanta.Lib Kanta.Lib.Assoc Kanta.Lib.Lts

variable {D : Type}

/-! ### Statement -/

section

variable (hooks : Hooks D) (E : Env)

/-- The calls take turns, one flush at a time and without an I/O error, no `open` raises and leaves the
instance open, and the changes that are recorded lose nothing. -/
structure Orderly (i : Instance D) (call : Call D) (i' : Instance D) : Prop where
  single : i'.system.core.Single
  alone : call.isOperation = true → Resting i.system
  succeeds : call.succeeds = true
  unfailed : i'.system.flushFailed = false
  accepted : ¬i.Abandoned hooks E i' call
  lossless : i.system.core.store.committed.length < i'.system.core.store.committed.length →
    (i.previous hooks E call).all fun p => lossless p i'.system.core.store.statedict

instance (i : Instance D) (call : Call D) (i' : Instance D) : Decidable (Orderly hooks E i call i') :=
  decidable_of_iff
    (i'.system.core.Single ∧ (call.isOperation = true → Resting i.system) ∧ call.succeeds = true ∧
      i'.system.flushFailed = false ∧ ¬i.Abandoned hooks E i' call ∧
      (i.system.core.store.committed.length < i'.system.core.store.committed.length →
        (i.previous hooks E call).all fun p => lossless p i'.system.core.store.statedict))
    ⟨fun ⟨h1, h2, h3, h4, h5, h6⟩ => ⟨h1, h2, h3, h4, h5, h6⟩,
      fun ⟨h1, h2, h3, h4, h5, h6⟩ => ⟨h1, h2, h3, h4, h5, h6⟩⟩

/-- The state that the file replays to is its own normal form: neither the migrations nor the data change
anything in it. -/
def Instance.Normal (i : Instance D) : Prop :=
  ∀ rr state migrated version normalized, replay E.blake3 E.ser i.system.core.framer i.system.core.file = .ok rr →
    rr.state = Dict.val state → E.migrate state rr.version = .ok (migrated, version) →
    hooks.normalize i.data migrated = .ok normalized → normalized.pyEq state = true

/-- `open` finds nothing queued, and, when it is read-only, a state in its normal form; and a transaction
holds and is not ended by a `BaseException`. -/
structure Settled (i : Instance D) (call : Call D) : Prop where
  empty : call.isOpen = true → i.system.core.store.pending = []
  normal : ∀ a create, call = .open a create true → i.Normal hooks E
  safe : ∀ c clock, call = .transaction c clock → Safe { hooks with clock } i.live c
  ended : ∀ c clock, call = .transaction c clock →
    ∀ e, (transaction { hooks with clock } i.live c).2 = .error e → e.isException = true

/-- The file replays to the state in memory, which is what the data encodes to. -/
def Remembered (i : Instance D) : Prop :=
  (∃ rr, replay E.blake3 E.ser i.system.core.framer i.system.core.file = .ok rr ∧
      rr.state.pyEq i.system.core.store.statedict.val = true) ∧
    Same (hooks.structToDict i.data) (.ok i.system.core.store.statedict)

end

section

variable {hooks : Hooks D} {E : Env} {i i' : Instance D} {call : Call D}

/-! ### Data and `statedict` -/

namespace Instance

/-- `open` on an empty file encodes the data it leaves behind. -/
lemma opening_created {a : OpenCall D} (hfile : i.system.core.file = []) {current : Dict}
    (h : (i.opening hooks E a).2.bootstrap = .ok current) :
    hooks.structToDict (i.opening hooks E a).1 = .ok current := by
  rw [opening, if_pos hfile] at h ⊢
  dsimp only at h ⊢
  unfold Hooks.bootstrap at h ⊢
  split at h
  · simp at h
  · split at h
    · simp at h
    · exact h

/-- `open` on a file with content encodes the data it leaves behind. -/
lemma opening_loaded {a : OpenCall D} (hfile : i.system.core.file ≠ []) {rr : ReplayResult}
    {state migrated normalized : Dict} {version : ℤ}
    (hreplay : replay E.blake3 E.ser i.system.core.framer i.system.core.file = .ok rr)
    (hstate : rr.state = state.val) (hmigrate : E.migrate state rr.version = .ok (migrated, version))
    (hnorm : (i.opening hooks E a).2.normalize migrated = .ok normalized)
    (hvalid : (i.opening hooks E a).2.validated = .ok ()) :
    hooks.normalize i.data migrated = .ok normalized ∧
      hooks.structToDict (i.opening hooks E a).1 = .ok normalized := by
  have hmigrated : i.system.core.migrated E = some migrated := by
    simp [Core.migrated, hreplay, hstate, Dict.ofVal_val, hmigrate, Except.toOption]
  rw [opening, if_neg hfile, hmigrated] at hnorm hvalid ⊢
  dsimp only at hnorm hvalid ⊢
  rcases hrestore : hooks.restore i.data migrated with ⟨data, e | validated⟩
  · simp only [hrestore, Hooks.normalize] at hnorm
    simp at hnorm
  · simp only [hrestore] at hnorm hvalid ⊢
    subst hvalid
    refine ⟨hnorm, ?_⟩
    rwa [Hooks.normalize, hrestore] at hnorm

/-- A committed change, or none, leaves the new state in memory. -/
lemma statedict_queueChange {store store' : Store} {action : String} {current : Dict} {user : Option String}
    {mtime : Mtime} {force : Bool} {clock : Except Exc DateTime} {record : Option ChangeRecord}
    (h : store.queueChange action current user mtime force clock = .ok (record, store')) :
    store'.statedict.pyEq current = true := by
  rcases store.queueChange_cases h with ⟨-, rfl, hd, -⟩ | ⟨r, -, rfl, -⟩
  · exact delta_eq_none.mp hd
  · exact Dict.pyEq_iff.mpr rfl

/-- What `open` has put into the data is what it has put into `statedict`. -/
lemma agrees_open (hi : Sound i) {a : OpenCall D} {create readonly : Bool}
    (h : i.step hooks E (.open a create readonly) = some i') (hopen : i'.system.opened = true)
    (hn : ¬i.Abandoned hooks E i' (.open a create readonly)) : i'.live.Agrees hooks := by
  obtain ⟨hro, hclosed, -, hopens⟩ := step_open h
  have hsame : ∀ {current : Dict}, hooks.structToDict i'.data = .ok current →
      i'.system.core.store.statedict.pyEq current = true → i'.live.Agrees hooks := by
    intro current hdata hstate
    rw [Live.Agrees, live, hdata]
    exact Or.inr ⟨current, _, rfl, rfl, Dict.pyEq_iff.mpr (Dict.pyEq_iff.mp hstate).symm⟩
  cases hopens with
  | refused hs => simp [hs, State.atOnce] at hopen
  | read hro' hfile hs hdata =>
    rw [Abandoned, if_pos hro', hs] at hn
    rw [hs] at hopen
    cases openReadonly_read hn with
    | invalid rr state _ _ hclosed => simp [hclosed] at hopen
    | read rr state migrated normalized version hreplay hstate hmigrate hnorm hvalid hcore =>
      refine hsame (hdata ▸ (opening_loaded hfile hreplay hstate hmigrate hnorm hvalid).2) ?_
      rw [hs, hcore]
      exact Dict.pyEq_iff.mpr rfl
  | opened hro' hstep hdata =>
    rw [Abandoned, if_neg (by simp [hro'])] at hn
    cases step_opened hi.control hstep hopen hn with
    | created current record store hfile hcurrent hqueue hcore =>
      refine hsame (hdata ▸ opening_created hfile hcurrent) ?_
      rw [hcore]
      exact statedict_queueChange hqueue
    | loaded rr state migrated normalized version record t hfile hload hcore _ _ _ _ _ hs' =>
      refine hsame (hdata ▸ (opening_loaded hfile hload.replays hload.dict hload.migrates hload.normalizes
        hload.validated).2) ?_
      obtain ⟨action, hqueue⟩ := hload.queued
      have hstore : i'.system.core.store = t.core.store := by
        rw [hs']
        split
        · rw [startFlush_store]
        · rw [State.andThen_core]
      rw [hstore]
      exact statedict_queueChange hqueue

/-- What is neither a transaction nor `open` leaves the data and `statedict` alone. -/
lemma kept_other (hi : Sound i) {e : Event} (h : i.step hooks E (.other e) = some i')
    (hopen : i'.system.opened = true) :
    i.system.opened = true ∧ i'.data = i.data ∧ i'.system.core.store.statedict = i.system.core.store.statedict := by
  obtain ⟨hcommit, hnot, -, hdata, hother⟩ := step_other h
  cases hother with
  | event hstep =>
    have hopened : i.system.opened = true := by
      by_contra hno
      obtain ⟨⟨a, rfl⟩, -⟩ := (step_flow hstep).opens (by simpa using hno) hopen
      simp [Event.isOpen] at hnot
    refine ⟨hopened, hdata, ?_⟩
    cases (step_effect hi.control hstep).recorded with
    | kept _ _ hst => exact hst
    | aborted ho | refused ho | loaded ho => simp [hnot] at ho
    | change p q hp =>
      cases e with
      | commit | «open» => simp [Event.isCommit, Event.isOpen] at hcommit hnot
      | _ => simp [Kanta.previous] at hp
  | refused ended hro hopened hs => exact ⟨hopened, hdata, by rw [hs]; rfl⟩
  | closed hro hopened hs => simp [hs, State.atOnce] at hopen

/-- **Data and `statedict` stay together** as long as the instance is open. -/
lemma agrees_step (hi : Sound i) (h : i.step hooks E call = some i') (hG : Orderly hooks E i call i')
    (hS : Settled hooks E i call) (ha : i.system.opened = true → i.live.Agrees hooks)
    (hopen : i'.system.opened = true) : i'.live.Agrees hooks := by
  cases call with
  | transaction c clock =>
    obtain ⟨hlive, -, ⟨store, hs⟩, -⟩ := step_transaction h
    rw [hlive]
    rw [hs] at hopen
    exact (hS.safe c clock rfl).agrees (ha hopen) (hS.ended c clock rfl)
  | «open» a create readonly => exact agrees_open hi h hopen hG.accepted
  | other e =>
    obtain ⟨hopened, hdata, hkept⟩ := kept_other hi h hopen
    rw [Live.Agrees, live, hdata, hkept]
    exact ha hopened

end Instance

end

/-! ### Read-only sessions and the file -/

section

variable {E : Env} {framer : Framer} {file : Bytes} {before base : List Record} {s s' : State}

/-- Only the store's state, and the framer, are not what they were. -/
structure Kept (s s' : State) : Prop where
  file : s'.core.file = s.core.file
  flights : s'.core.flights = s.core.flights
  strays : s'.core.strays = s.core.strays
  log : s'.core.log = s.core.log
  pending : s'.core.store.pending = s.core.store.pending
  committed : s'.core.store.committed = s.core.store.committed
  snapping : s'.snapping = s.snapping
  flushFailed : s'.flushFailed = s.flushFailed
  cancelling : s'.cancelling = s.cancelling
  closing : s'.closing = s.closing
  background : s'.background = s.background

lemma Kept.atOnce (opened : Bool) (ended : Option (Owner × Except Exc Unit)) : Kept s (s.atOnce opened ended) :=
  ⟨rfl, rfl, rfl, rfl, rfl, rfl, rfl, rfl, rfl, rfl, rfl⟩

lemma Kept.read (a : Opening) (hsn : s.snapping = none) : Kept s (s.openReadonly E a).1 := by
  obtain ⟨_, _, _, _, _, _, hkept⟩ := openReadonly_kept (E := E) s a
  rw [hkept]
  exact ⟨rfl, rfl, rfl, rfl, rfl, rfl, hsn.symm, rfl, rfl, rfl, rfl⟩

namespace Kept

variable (h : Kept s s')
include h

lemma drain : s'.core.drain = s.core.drain := by
  rw [Core.drain, Core.drain, h.committed, h.pending, h.log, h.flights]

lemma single (hs : s.core.Single) : s'.core.Single := by
  rwa [Core.Single, h.flights]

lemma oneFlush (hs : OneFlush s) (hcontrol : Control s') : OneFlush s' := by
  refine ⟨hcontrol, h.single hs.single, h.drain ▸ hs.queued, fun hf => ?_, fun sn hsn => ?_⟩
  · rw [h.flights]
    exact hs.failed (h.flushFailed ▸ hf)
  · rw [h.flights]
    exact hs.snapping sn (h.snapping ▸ hsn)

lemma turnState (hs : TurnState s) (hcontrol : Control s') : TurnState s' := by
  refine ⟨h.oneFlush hs.one hcontrol, ?_, h.strays ▸ hs.strays, h.log ▸ hs.complete, h.flushFailed ▸ hs.unfailed,
    fun hc => ?_⟩
  · rw [Whole, h.flights, h.pending]
    exact hs.whole
  · obtain ⟨h1, h2, h3, h4⟩ := hs.cancelling (h.cancelling ▸ hc)
    exact ⟨h.flights.trans h1, h.snapping.trans h2, h.closing.trans h3, by rwa [h.background]⟩

/-- A state that is where the committed changes lead, or an instance that has not been used. -/
lemma levelState (hs : LevelState E framer file base s) (hcontrol : Control s')
    (hlocated : Complete s.core.log → Located E framer file s')
    (hled : Unused s' ∨ Leads (origin base)
      (changeRecords base ++ s.core.store.committed.map Queued.record) s'.core.store.statedict.val) :
    LevelState E framer file base s' := by
  refine ⟨h.oneFlush hs.one hcontrol, h.drain ▸ hs.exact, h.log ▸ hlocated, h.log ▸ hs.consistent,
    fun sn hsn => ?_, h.committed ▸ hled⟩
  rw [h.log]
  exact hs.snapping sn (h.snapping ▸ hsn)

end Kept

/-- A call that is over. -/
lemma LevelState.atOnce (hs : LevelState E framer file base s) {opened : Bool}
    {ended : Option (Owner × Except Exc Unit)} (hcontrol : Control (s.atOnce opened ended))
    (hleft : opened = s.opened ∨ opened = false ∧ Stranded s) :
    LevelState E framer file base (s.atOnce opened ended) := by
  have hunused : Unused s → Unused (s.atOnce opened ended) := by
    intro hu
    refine ⟨?_, hu.log, hu.flights, hu.snapping⟩
    rcases hleft with rfl | ⟨rfl, -⟩
    · exact hu.opened
    · rfl
  refine Kept.levelState (.atOnce opened ended) hs hcontrol (fun hc => ?_) (hs.led.imp_left hunused)
  obtain ⟨haligned, hsnapping, hseeded⟩ := hs.located hc
  exact ⟨haligned, hsnapping, hseeded.imp_right fun ⟨hu, h⟩ => ⟨hunused hu, h⟩⟩

/-- A framer that is loaded from the file once more. -/
lemma Located.reloaded (h : Located E framer file s) (hsnapping : s'.snapping = none) {store : Store}
    (hcore : s'.core = { s.core with framer := s.core.framer.reload s.core.file, store := store }) :
    Located E framer file s' := by
  refine ⟨?_, fun sn hsn => by simp [hsnapping] at hsn, Or.inl ?_⟩
  · rw [hcore]
    exact h.aligned.reload h.reload_eq
  · rw [hcore]
    show framer.load file = .ok (s.core.framer.reload s.core.file)
    rcases h.seeded with hload | ⟨hu, heq, fr, hfr⟩
    · rw [Framer.reload_of_load (h.load_file hload), hload]
    · have hfile : s.core.file = file := by simp [h.aligned.file_eq, hu.log]
      rw [hfile, heq, Framer.reload_of_load hfr, hfr]

/-- **A read-only `open`** of a state in its normal form. -/
lemma LevelState.read (hs : LevelState E framer file base s) (hg : Grounded E framer file before base)
    (hread : ∀ r ∈ before ++ base ++ recordsOf s.core.log, Decodable E.ser framer r) (hp : s.core.store.pending = [])
    (hc : Complete s.core.log) (hkept : Kept s s') (hcontrol : Control s') (hsnapping : s'.snapping = none)
    {store : Store} (hcore : s'.core = { s.core with framer := s.core.framer.reload s.core.file, store := store })
    {rr : ReplayResult} {state : Dict} (hreplay : replay E.blake3 E.ser s.core.framer s.core.file = .ok rr)
    (hstate : rr.state = state.val) (hnormal : store.statedict.pyEq state = true) :
    LevelState E framer file base s' := by
  refine hkept.levelState hs hcontrol (fun hc => (hs.located hc).reloaded hsnapping hcore) (Or.inr ?_)
  have hled := hs.led_of_replay hg hread hp hc hreplay
  rw [hstate] at hled
  rw [hcore]
  exact hled.congr_right (Dict.pyEq_iff.mp hnormal).symm

end

/-! ### The theorem -/

section

variable {hooks : Hooks D} {E : Env} {framer : Framer} {file : Bytes} {before base : List Record} {i i' : Instance D}
  {call : Call D}

/-- What holds while the calls take turns. -/
structure Settling (hooks : Hooks D) (E : Env) (framer : Framer) (file : Bytes) (base : List Record) (i : Instance D) :
    Prop where
  sound : i.Sound
  turn : TurnState i.system
  level : LevelState E framer file base i.system
  agrees : i.system.opened = true → i.live.Agrees hooks

/-- What a call appends to the log. -/
lemma Instance.Did.log_more (hi : i.Sound) (h : i.Did hooks E call i') :
    ∃ more, i'.system.core.log = i.system.core.log ++ more := by
  cases h with
  | event e hstep =>
    obtain ⟨more, hlog, -⟩ := (step_effect hi.control hstep).log_more
    exact ⟨more, hlog⟩
  | atOnce opened ended hs => exact ⟨[], by rw [hs, List.append_nil]; rfl⟩
  | read a create _ _ _ _ hs =>
    obtain ⟨_, _, _, _, _, _, hkept⟩ := openReadonly_kept (E := E) i.system (i.opening hooks E a).2
    exact ⟨[], by rw [hs, hkept, List.append_nil]⟩

/-- **Every call keeps the invariant.** -/
theorem Settling.step (hi : Settling hooks E framer file base i) (hg : Grounded E framer file before base)
    (hread : ∀ r ∈ before ++ base ++ recordsOf i.system.core.log, Decodable E.ser framer r)
    (h : i.step hooks E call = some i') (hG : Orderly hooks E i call i') (hS : Settled hooks E i call) :
    Settling hooks E framer file base i' := by
  have hsound := hi.sound.step h
  have hagrees := Instance.agrees_step hi.sound h hG hS hi.agrees
  cases Instance.step_did hi.sound h with
  | event e hstep hop hsucceeds hprev hopen =>
    have hturn : Turn i.system e i'.system :=
      ⟨hG.single, fun he => hG.alone (hop ▸ he), hsucceeds ▸ hG.succeeds, hG.unfailed⟩
    have hlossless : i.system.core.store.committed.length < i'.system.core.store.committed.length →
        (previous E i.system e).all fun p => lossless p i'.system.core.store.statedict := by
      rw [hprev]
      exact hG.lossless
    exact ⟨hsound, hi.turn.step hstep hturn, hi.level.step hg hread hstep
      (hi.turn.level hstep hturn (fun he => hS.empty (hopen ▸ he)) hlossless), hagrees⟩
  | atOnce opened ended hs hleft =>
    have hcontrol := hsound.control
    rw [hs] at hcontrol
    exact ⟨hsound, hs ▸ Kept.turnState (.atOnce opened ended) hi.turn hcontrol,
      hs ▸ hi.level.atOnce hcontrol hleft, hagrees⟩
  | read a create hcall hclosed hsn hfile hs hdata =>
    have hkept : Kept i.system i'.system := hs ▸ Kept.read _ hsn
    have hempty : i.system.core.store.pending = [] := hS.empty (by rw [hcall]; rfl)
    have hlevel : ∀ {store rr} {state : Dict}, i'.system.core = { i.system.core with
          framer := i.system.core.framer.reload i.system.core.file, store := store } →
        replay E.blake3 E.ser i.system.core.framer i.system.core.file = .ok rr → rr.state = state.val →
        store.statedict.pyEq state = true → LevelState E framer file base i'.system := fun hcore hreplay hstate =>
      hi.level.read hg hread hempty hi.turn.complete hkept hsound.control (hkept.snapping.trans hsn) hcore hreplay
        hstate
    have haccepted := hG.accepted
    rw [hcall, Instance.Abandoned, if_pos rfl, hs] at haccepted
    refine ⟨hsound, hkept.turnState hi.turn hsound.control, ?_, hagrees⟩
    cases openReadonly_read haccepted with
    | invalid rr state hreplay hstate _ hcore => exact hlevel (hs ▸ hcore) hreplay hstate (Dict.pyEq_iff.mpr rfl)
    | read rr state migrated normalized version hreplay hstate hmigrate hnorm hvalid hcore =>
      have hnormal := Instance.opening_loaded hfile hreplay hstate hmigrate hnorm hvalid
      exact hlevel (hs ▸ hcore) hreplay hstate (hS.normal a create hcall _ _ _ _ _ hreplay hstate hmigrate hnormal.1)

end

namespace Sample

/-- A database whose data is its state. -/
def plain : Hooks Dict := { unformatted with formatters := [] }

/-- A transaction that sets `n`. -/
def setCall (k : ℤ) : Call Dict :=
  .transaction ⟨"set", none, .valid .omit, true, fun _ => (state k, .ok ())⟩ (.ok ts)

/-- `open`, where the bootstrap callbacks make the state `{"n": 0}`. -/
def openCall : Call Dict := .open ⟨fun _ => (state 0, .ok ()), "bootstrap", none, .omit, .ok ts⟩ true false

/-- `open(readonly=True)`. -/
def readCall : Call Dict := .open ⟨fun data => (data, .ok ()), "bootstrap", none, .omit, .ok ts⟩ true true

/-- A call of `flush`. -/
def flushCalls : List (Call Dict) :=
  [.other (.call 1 (.ok ts)), .other (.work (.call 1) .ok), .other (.resume (.call 1) (.ok ts)),
    .other (.work (.call 1) .ok), .other (.resume (.call 1) (.ok ts))]

/-- `close` with nothing queued. -/
def closeCalls : List (Call Dict) :=
  [.other (.close (.ok ts)), .other (.deliver true (.ok ts)), .other (.join (.ok ts))]

/-- The instance before `open`, on an empty file. -/
def instance₀ : Instance Dict := ⟨.init (state 0) 0 .line [], state 0, false⟩

/-- No `BaseException` ends a transaction. -/
def uninterrupted (i : Instance Dict) : Call Dict → Bool
  | .transaction c clock =>
    match (transaction { plain with clock } i.live c).2 with
    | .ok () => true
    | .error e => e.isException
  | _ => true

lemma logChange_plain (clock : Except Exc DateTime) (c : Transaction Dict) (previous newDict : Dict)
    (record : ChangeRecord) : logChange { plain with clock } c previous newDict record = .ok () := by
  unfold logChange
  split
  · cases c.user <;> rfl
  · rfl

lemma logAbort_plain (clock : Except Exc DateTime) (c : Transaction Dict) (statedict : Dict) (e : Exc) :
    logAbort { plain with clock } c statedict e = .ok () := by
  unfold logAbort
  cases c.user <;> rfl

lemma prepare_plain {i : Instance Dict} {c : Transaction Dict} {clock : Except Exc DateTime} {data newDict : Dict}
    {record : ChangeRecord} {store : Store}
    (h : prepare { plain with clock } i.live c = (data, .ok (some (newDict, record, store)))) : data = newDict := by
  obtain ⟨hnew, -, -⟩ := prepare_some h
  obtain ⟨hvalid, -⟩ := prepare_queues h
  obtain rfl := (Prod.mk.inj hvalid).1
  exact Except.ok.inj hnew

lemma safe (i : Instance Dict) (c : Transaction Dict) (clock : Except Exc DateTime) :
    Safe { plain with clock } i.live c := by
  refine ⟨rfl, fun current _ _ _ => ?_⟩
  rw [HoldsUp]
  rcases hp : prepare { plain with clock } i.live c with ⟨data, e | _ | ⟨newDict, record, store⟩⟩
  · intro _
    rw [RollsBack, logAbort_plain]
    exact .rfl
  · trivial
  · show Settles _ i.live c current data newDict record store
    rw [Settles, logChange_plain, prepare_plain hp]
    exact .rfl

/-- A state is what its data encodes to. -/
lemma normal_plain (minDiffs : ℕ) (i : Instance Dict) : i.Normal plain (env minDiffs) := by
  intro rr state migrated version normalized _ _ hmigrate hnorm
  obtain ⟨rfl, -⟩ := Prod.mk.inj (Except.ok.inj hmigrate)
  obtain rfl := Except.ok.inj hnorm
  exact Dict.pyEq_iff.mpr rfl

/-- A test of the two conditions on a call. -/
def test (minDiffs : ℕ) (i : Instance Dict) (call : Call Dict) (i' : Instance Dict) : Bool :=
  decide (Orderly plain (env minDiffs) i call i') && (!call.isOpen || i.system.core.store.pending.isEmpty) &&
    uninterrupted i call

lemma of_test {minDiffs : ℕ} {i i' : Instance Dict} {call : Call Dict} (h : test minDiffs i call i' = true) :
    Orderly plain (env minDiffs) i call i' ∧ Settled plain (env minDiffs) i call := by
  simp only [test, Bool.and_eq_true, decide_eq_true_eq, Bool.or_eq_true, Bool.not_eq_true'] at h
  obtain ⟨⟨hG, hempty⟩, hended⟩ := h
  refine ⟨hG, fun ho => ?_, fun _ _ _ => normal_plain minDiffs i, fun c clock _ => safe i c clock,
    fun c clock hc e he => ?_⟩
  · exact List.isEmpty_iff.mp (hempty.resolve_left (by simp [ho]))
  · subst hc
    rw [uninterrupted, he] at hended
    exact hended

end Sample

end Kanta
