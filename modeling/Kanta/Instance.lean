import Kanta.Opening
import Kanta.Transaction
import Kanta.Turns

/-!
# An instance and its data

An instance with the data of the application: transactions run as a whole, `open` restores what it
reads into the data, and everything else happens as in the instance without its data.  A read-only
`open` keeps what it has read in memory and writes nothing, and no transaction begins behind it.
`step_did` says what a call amounts to for the instance without its data.
-/

namespace Kanta

open Kanta.Lib Kanta.Lib.Assoc Kanta.Lib.Lts

variable {D : Type}

/-! ### Calls -/

/-- `readonly` is what the last `open` was called with. -/
structure Instance (D : Type) where
  system : State
  data : D
  readonly : Bool

/-- What happens inside one `open`; the bootstrap callbacks may change the data. -/
structure OpenCall (D : Type) where
  callbacks : D → D × Except Exc Unit
  action : String
  user : Option String
  mtime : Mtime
  clock : Except Exc DateTime

inductive Call (D : Type) where
  /-- A transaction, from its beginning to its end. -/
  | transaction (c : Transaction D) (clock : Except Exc DateTime)
  /-- Somebody awaits `open(create=create, readonly=readonly)`. -/
  | open (a : OpenCall D) (create readonly : Bool)
  /-- Anything else. -/
  | other (e : Event)

namespace Hooks

variable (hooks : Hooks D)

/-- `open` on an empty file, up to the encoding of the data. -/
def bootstrap (callbacks : D → D × Except Exc Unit) (data : D) : D × Except Exc Dict :=
  match callbacks data with
  | (data, .error e) => (data, .error e)
  | (data, .ok ()) =>
    match invokeSync hooks.validators data with
    | (data, .error e) => (data, .error e)
    | (data, .ok ()) => (data, hooks.structToDict data)

/-- What `open` makes of its data and a state: the data, and, once it is restored, the verdict of the
validators. -/
def restore (data : D) (state : Dict) : D × Except Exc (Except Exc Unit) :=
  match restoreDataInPlace hooks data state with
  | (data, .error e) => (data, .error e)
  | (data, .ok ()) => ((invokeSync hooks.validators data).1, .ok (invokeSync hooks.validators data).2)

/-- The encoding of the data that `open` has restored; a validator that fails comes first. -/
def normalize (data : D) (state : Dict) : Except Exc Dict :=
  match hooks.restore data state with
  | (_, .error e) => .error e
  | (data, .ok (.ok ())) => hooks.structToDict data
  | (_, .ok (.error _)) => .ok state

end Hooks

/-- The state that `open` decodes, behind the migrations. -/
def Core.migrated (E : Env) (c : Core) : Option Dict := do
  let rr ← (replay E.blake3 E.ser c.framer c.file).toOption
  let state ← Dict.ofVal rr.state
  let (migrated, _) ← (E.migrate state rr.version).toOption
  some migrated

namespace State

variable (E : Env)

/-- `open(readonly=True)` on a file with content, once it is replayed, and whether it returns. -/
def loadReadonly (s : State) (a : Opening) (state : Dict) (rr : ReplayResult) : State × Bool :=
  match E.migrate state rr.version with
  | .error _ => (s, false)
  | .ok (migrated, version) =>
    let s :=
      { s with
        snapshot := { s.snapshot with ts := rr.lastSnapshot.map E.fromTimestamp }
        core.store.statedict := state }
    match a.normalize migrated, a.validated with
    | .error _, _ => (s, false)
    | .ok _, .error _ => ({ s with opened := false, isOpen := false }, false)
    | .ok normalized, .ok () =>
      ({ s with core.store := { s.core.store with statedict := normalized, version := version, mtime := rr.m } }, true)

/-- `open(readonly=True)` on a file with content, and whether it returns.  There is no background task. -/
def openReadonly (s : State) (a : Opening) : State × Bool :=
  let s :=
    { s with
      isOpen := true, opened := true, entered := s.core.store.committed.length, snapping := none, ended := none }
  let s' := { s with core.framer := s.core.framer.reload s.core.file }
  match replay E.blake3 E.ser s.core.framer s.core.file with
  | .error _ => (s', false)
  | .ok rr =>
    match Dict.ofVal rr.state with
    -- a state that is no dict cannot be decoded into the struct
    | none => (s', false)
    | some state => s'.loadReadonly E a state rr

/-- A call that ends at once: nothing but whether the instance is open has changed. -/
def atOnce (s : State) (opened : Bool) (ended : Option (Owner × Except Exc Unit)) : State :=
  { s with opened := opened, isOpen := opened, ended := ended }

/-- An event of an instance that is open read-only: `flush` raises, and `close` has nothing to flush. -/
def stepReadonly (s : State) : Event → Option State
  | .call n _ =>
    if (s.core.flights.lookup (.call n)).isSome then none
    else
      some (s.atOnce true
        (some (.call n, .error (.dataIntegrityError "Cannot flush in read-only mode" (some "flush") none))))
  | .close _ => some (s.atOnce false none)
  | e => Kanta.step E s e

end State

namespace Instance

variable (hooks : Hooks D) (E : Env)

/-- The instance as a transaction sees it; no transaction is under way. -/
def live (i : Instance D) : Live D := ⟨i.data, i.system.core.store, i.readonly, false, none⟩

/-- The data behind an `open`, and what the instance without its data sees of it. -/
def opening (i : Instance D) (a : OpenCall D) : D × Opening :=
  let opening : Opening :=
    ⟨.ok .empty, a.action, a.user, a.mtime, hooks.normalize i.data, .ok (), a.clock⟩
  if i.system.core.file = [] then
    let (data, bootstrap) := hooks.bootstrap a.callbacks i.data
    (data, { opening with bootstrap })
  else
    match i.system.core.migrated E with
    | none => (i.data, opening)
    | some migrated =>
      match hooks.restore i.data migrated with
      | (data, .error _) => (data, opening)
      | (data, .ok validated) => (data, { opening with validated })

/-- `open`, which refuses an empty file unless it may create one. -/
def openDb (i : Instance D) (a : OpenCall D) (create readonly : Bool) : Option (Instance D) :=
  if i.system.opened ∨ i.system.snapping.isSome then none
  else if i.system.core.file = [] ∧ (readonly ∨ ¬create) then
    some ⟨i.system.atOnce false none, i.data, readonly⟩
  else
    let (data, opening) := i.opening hooks E a
    if readonly then some ⟨(i.system.openReadonly E opening).1, data, readonly⟩
    else (Kanta.step E i.system (.open opening)).map fun system => ⟨system, data, readonly⟩

def step (i : Instance D) : Call D → Option (Instance D)
  | .transaction c clock =>
    -- the loop is busy while it writes a snapshot
    if i.system.snapping.isSome then none
    else
      let s := (transaction { hooks with clock } i.live c).1
      some ⟨{ i.system with core.store := s.store, ended := none }, s.data, i.readonly⟩
  | .open a create readonly => i.openDb hooks E a create readonly
  | .other e =>
    if e.isCommit || e.isOpen then none
    else
      let system := if i.readonly && i.system.opened then i.system.stepReadonly E e else Kanta.step E i.system e
      system.map fun system => { i with system }

end Instance

namespace Call

/-- A transaction, `flush`, `close` or `open` begins. -/
def isOperation : Call D → Bool
  | .transaction .. | .open .. => true
  | .other e => e.isOperation

/-- Somebody awaits `open()`. -/
def isOpen : Call D → Bool
  | .open .. => true
  | _ => false

/-- No I/O error. -/
def succeeds : Call D → Bool
  | .transaction .. | .open .. => true
  | .other e => e.succeeds

end Call

section

variable (hooks : Hooks D) (E : Env)

/-- The state that the change recorded by a call is taken from. -/
def Instance.previous (i : Instance D) : Call D → Option Dict
  | .transaction .. => some i.system.core.store.statedict
  | .open a _ _ => Kanta.previous E i.system (.open (i.opening hooks E a).2)
  | .other _ => none

/-- An `open` has raised, and has left the instance open. -/
def Instance.Abandoned (i i' : Instance D) : Call D → Prop
  | .open a _ readonly =>
    if readonly then i'.system.opened = true ∧ (i.system.openReadonly E (i.opening hooks E a).2).2 = false
    else Stranded i'.system
  | _ => False

instance (i i' : Instance D) (call : Call D) : Decidable (i.Abandoned hooks E i' call) := by
  cases call <;> unfold Instance.Abandoned <;> infer_instance

/-- What a call amounts to for the instance without its data. -/
inductive Instance.Did (i : Instance D) (call : Call D) (i' : Instance D) : Prop
  /-- An event. -/
  | event (e : Event) (hstep : Kanta.step E i.system e = some i'.system) (hop : e.isOperation = call.isOperation)
      (hsucceeds : e.succeeds = call.succeeds) (hprev : Kanta.previous E i.system e = i.previous hooks E call)
      (hopen : e.isOpen = call.isOpen)
  /-- A refused `open`, or `flush` and `close` of an instance that is open read-only. -/
  | atOnce (opened : Bool) (ended : Option (Owner × Except Exc Unit)) (hs : i'.system = i.system.atOnce opened ended)
      (hleft : opened = i.system.opened ∨ (opened = false ∧ Stranded i.system))
  /-- A read-only `open`. -/
  | read (a : OpenCall D) (create : Bool) (hcall : call = .open a create true) (hclosed : i.system.opened = false)
      (hsnapping : i.system.snapping = none) (hfile : i.system.core.file ≠ [])
      (hs : i'.system = (i.system.openReadonly E (i.opening hooks E a).2).1)
      (hdata : i'.data = (i.opening hooks E a).1)

end

/-! ### An instance that is open read-only -/

section

variable {hooks : Hooks D} {E : Env} {s s' : State} {e : Event}

/-- The end of a flush that a caller awaits touches nothing but the queue. -/
lemma Stranded.returned (h : Stranded s) {n : ℕ} {core : Core} (failed : Bool) (snapshot : SnapshotState)
    (r : Except Exc Unit) (clock : Except Exc DateTime)
    (hflights : core.flights = remove (.call n) s.core.flights) :
    Stranded (State.afterFlush E { s with core, flushFailed := failed, snapshot } (.call n) r clock) := by
  refine ⟨h.opened, h.background, h.closing, ?_, h.snapping⟩
  show core.flights.lookup .opening = none
  rw [hflights, lookup_remove, if_neg (by simp), h.opening]

lemma Stranded.failFlush (h : Stranded s) (n : ℕ) (exc : Exc) (clock : Except Exc DateTime) :
    Stranded (s.failFlush E (.call n) exc clock) := by
  unfold State.failFlush
  split
  · exact h.returned true s.snapshot _ clock rfl
  · exact h.returned s.flushFailed s.snapshot _ clock rfl

/-- A flush that a caller awaits goes on. -/
lemma Stranded.resumeFlush (h : Stranded s) {n : ℕ} {clock : Except Exc DateTime}
    (hstep : s.resumeFlush E (.call n) clock = some s') : Stranded s' := by
  unfold State.resumeFlush at hstep
  split at hstep
  · split at hstep
    · obtain rfl := Option.some.inj hstep
      refine ⟨h.opened, h.background, h.closing, ?_, h.snapping⟩
      show (put (.call n) _ s.core.flights).lookup .opening = none
      rw [lookup_put, if_neg (by simp), h.opening]
    · obtain rfl := Option.some.inj hstep
      exact h.failFlush n _ clock
  · obtain rfl := Option.some.inj hstep
    exact h.returned (E := E) s.flushFailed _ _ clock rfl
  · obtain rfl := Option.some.inj hstep
    exact h.failFlush n _ clock
  · obtain rfl := Option.some.inj hstep
    exact h.failFlush n _ clock
  · simp at hstep

/-- The coroutines that would await a flush are not there. -/
lemma Stranded.owner (h : Stranded s) (hs : Control s) {o : Owner} (ho : s.core.flights.lookup o ≠ none) :
    ∃ n, o = .call n := by
  have hawaits := hs.awaits o ho
  cases o with
  | call n => exact ⟨n, rfl⟩
  | opening => exact absurd h.opening ho
  | background => simp [Owner.Awaits, h.background] at hawaits
  | closing => simp [Owner.Awaits, h.closing] at hawaits

/-- **Nothing but a `flush` of a caller goes on** in an instance without its background task. -/
lemma Stranded.step (h : Stranded s) (hs : Control s) (hstep : Kanta.step E s e = some s')
    (he : e.isOperation = false) : Stranded s' := by
  obtain ⟨hopened, hback, hclosing, hopening, hsnapping⟩ := h
  unfold Kanta.step at hstep
  cases e with
  | commit | call | close | «open» => simp [Event.isOperation] at he
  | work o outcome =>
    simp only [State.work] at hstep
    have hother : ∀ f g, s.core.flights.lookup o = some f →
        (put o g s.core.flights).lookup .opening = none := fun f g hl => by
      have hne : Owner.opening ≠ o := by
        rintro rfl
        simp [hopening] at hl
      rw [lookup_put, if_neg hne, hopening]
    split at hstep
    · rename_i hl
      obtain rfl := Option.some.inj hstep
      exact ⟨hopened, hback, hclosing, hother _ _ hl, hsnapping⟩
    · rename_i hl
      obtain rfl := Option.some.inj hstep
      exact ⟨hopened, hback, hclosing, hother _ _ hl, hsnapping⟩
    · simp at hstep
  | stray outcome =>
    simp only [State.workStray] at hstep
    split at hstep
    · simp at hstep
    · obtain rfl := Option.some.inj hstep
      exact ⟨hopened, hback, hclosing, by simpa using hopening, hsnapping⟩
  | resume o clock =>
    simp only [hsnapping, loopStep] at hstep
    split at hstep
    · simp at hstep
    · have ho : s.core.flights.lookup o ≠ none := by
        intro hnone
        simp [State.resumeFlush, hnone] at hstep
      obtain ⟨n, rfl⟩ := Stranded.owner ⟨hopened, hback, hclosing, hopening, hsnapping⟩ hs ho
      exact Stranded.resumeFlush (s := { s with ended := none, snapping := none })
        ⟨hopened, hback, hclosing, hopening, rfl⟩ hstep
  | start | wake | reported => simp [hsnapping, loopStep, hback] at hstep
  | deliver => simp [hsnapping, loopStep, State.deliver, hback] at hstep
  | request =>
    simp only [hsnapping, loopStep] at hstep
    obtain rfl := Option.some.inj hstep
    exact ⟨hopened, hback, hclosing, hopening, rfl⟩
  | join => simp [hsnapping, loopStep, State.join, hclosing] at hstep
  | snapshotWrite => simp [hsnapping, loopStep] at hstep

/-- What a read-only `open` has read: the core it leaves behind. -/
inductive ReadBy (E : Env) (s : State) (a : Opening) (s' : State) : Prop
  /-- The validators raise, and the instance is closed again. -/
  | invalid (rr : ReplayResult) (state : Dict) (hreplay : replay E.blake3 E.ser s.core.framer s.core.file = .ok rr)
      (hstate : rr.state = state.val) (hclosed : s'.opened = false)
      (hcore : s'.core = { s.core with
        framer := s.core.framer.reload s.core.file
        store := { s.core.store with statedict := state } })
  | read (rr : ReplayResult) (state migrated normalized : Dict) (version : ℤ)
      (hreplay : replay E.blake3 E.ser s.core.framer s.core.file = .ok rr) (hstate : rr.state = state.val)
      (hmigrate : E.migrate state rr.version = .ok (migrated, version)) (hnorm : a.normalize migrated = .ok normalized)
      (hvalid : a.validated = .ok ())
      (hcore : s'.core = { s.core with
        framer := s.core.framer.reload s.core.file
        store := { s.core.store with statedict := normalized, version := version, mtime := rr.m } })

/-- **A read-only `open`** that does not leave the instance open when it raises. -/
theorem openReadonly_read {a : Opening}
    (h : ¬((s.openReadonly E a).1.opened = true ∧ (s.openReadonly E a).2 = false)) :
    ReadBy E s a (s.openReadonly E a).1 := by
  unfold State.openReadonly at h ⊢
  dsimp only at h ⊢
  split at h
  · exact absurd ⟨rfl, rfl⟩ h
  · rename_i rr hreplay
    split at h
    · exact absurd ⟨rfl, rfl⟩ h
    · rename_i state hstate
      have hstate := Dict.ofVal_eq_some.mp hstate
      unfold State.loadReadonly at h ⊢
      split at h
      · exact absurd ⟨rfl, rfl⟩ h
      · rename_i migrated version hmigrate
        dsimp only at h ⊢
        split at h
        · exact absurd ⟨rfl, rfl⟩ h
        · exact .invalid rr state hreplay hstate rfl rfl
        · rename_i normalized hnorm hvalid
          exact .read rr state migrated normalized version hreplay hstate hmigrate hnorm hvalid rfl

/-- A read-only `open` leaves nothing under way. -/
lemma openReadonly_kept (s : State) (a : Opening) :
    ∃ framer statedict version mtime snapshot opened, (s.openReadonly E a).1 = { s with
      core := { s.core with framer, store := { s.core.store with statedict, version, mtime } }
      snapshot, opened, isOpen := opened, entered := s.core.store.committed.length, snapping := none
      ended := none } := by
  unfold State.openReadonly
  dsimp only
  split
  · exact ⟨_, _, _, _, _, _, rfl⟩
  · split
    · exact ⟨_, _, _, _, _, _, rfl⟩
    · unfold State.loadReadonly
      split
      · exact ⟨_, _, _, _, _, _, rfl⟩
      · dsimp only
        split <;> exact ⟨_, _, _, _, _, _, rfl⟩

end

/-! ### What a call amounts to -/

namespace Instance

variable {hooks : Hooks D} {E : Env} {i i' : Instance D} {call : Call D}

/-- An instance that is open read-only has no background task. -/
structure Sound (i : Instance D) : Prop where
  control : Control i.system
  alone : i.readonly = true → i.system.opened = true → Stranded i.system

lemma sound_init (statedict : Dict) (version : ℤ) (framer : Framer) (file : Bytes) (data : D) (readonly : Bool) :
    Sound ⟨.init statedict version framer file, data, readonly⟩ :=
  ⟨control_init .., fun _ ho => by simp [State.init] at ho⟩

/-- A transaction is a commit. -/
lemma step_transaction {c : Transaction D} {clock : Except Exc DateTime}
    (h : i.step hooks E (.transaction c clock) = some i') :
    i'.live = { (transaction { hooks with clock } i.live c).1 with
      readonly := i.readonly, inTransaction := false, transactionSnapshot := none } ∧
    i'.readonly = i.readonly ∧ (∃ store, i'.system = { i.system with core.store := store, ended := none }) ∧
    ∃ commit, Kanta.step E i.system (.commit commit) = some i'.system := by
  rw [step] at h
  split at h
  · simp at h
  · rename_i hsn
    have hsn : i.system.snapping = none := by simpa using hsn
    obtain rfl := Option.some.inj h
    refine ⟨rfl, rfl, ⟨_, rfl⟩, ?_⟩
    have hcommit : ∀ commit record store,
        i.system.core.store.queueChange commit.action commit.current commit.user commit.mtime false (.ok commit.now) =
          .ok (record, store) →
        Kanta.step E i.system (.commit commit) =
          some { i.system with core.store := store, ended := none } := by
      intro commit record store hq
      unfold Kanta.step
      simp only [hsn, loopStep, hq]
    have hstore := @transaction_store D { hooks with clock } i.live c
    rcases hstore with hsame | ⟨newDict, mtime, now, record, hq⟩
    · have hnone : delta i.system.core.store.statedict i.system.core.store.statedict = none :=
        delta_eq_none.mpr (Dict.pyEq_iff.mpr rfl)
      rw [hsame]
      exact ⟨⟨"", i.system.core.store.statedict, none, .omit, ⟨0, none⟩⟩,
        hcommit _ none _ (by simp [Store.queueChange, hnone, live])⟩
    · exact ⟨⟨c.action, newDict, c.user, mtime, now⟩, hcommit _ _ _ hq⟩

/-- What `open` does. -/
inductive Opens (hooks : Hooks D) (E : Env) (i : Instance D) (a : OpenCall D) (readonly : Bool) (i' : Instance D) : Prop
  /-- There is nothing in the file, and it may not be created. -/
  | refused (hs : i'.system = i.system.atOnce false none) (hdata : i'.data = i.data)
  | read (hro : readonly = true) (hfile : i.system.core.file ≠ [])
      (hs : i'.system = (i.system.openReadonly E (i.opening hooks E a).2).1) (hdata : i'.data = (i.opening hooks E a).1)
  | opened (hro : readonly = false) (hstep : Kanta.step E i.system (.open (i.opening hooks E a).2) = some i'.system)
      (hdata : i'.data = (i.opening hooks E a).1)

lemma step_open {a : OpenCall D} {create readonly : Bool} (h : i.step hooks E (.open a create readonly) = some i') :
    i'.readonly = readonly ∧ i.system.opened = false ∧ i.system.snapping = none ∧ Opens hooks E i a readonly i' := by
  simp only [step, openDb] at h
  split at h
  · simp at h
  · rename_i hfree
    simp only [not_or, Bool.not_eq_true, Option.isSome_eq_false_iff, Option.isNone_iff_eq_none] at hfree
    split at h
    · obtain rfl := Option.some.inj h
      exact ⟨rfl, hfree.1, hfree.2, .refused rfl rfl⟩
    · rename_i hfile
      split at h
      · rename_i hro
        obtain rfl := Option.some.inj h
        exact ⟨rfl, hfree.1, hfree.2, .read hro (fun hnil => hfile ⟨hnil, Or.inl hro⟩) rfl rfl⟩
      · rename_i hro
        obtain ⟨system, hsystem, rfl⟩ := Option.map_eq_some_iff.mp h
        exact ⟨rfl, hfree.1, hfree.2, .opened (by simpa using hro) hsystem rfl⟩

/-- What is neither a transaction nor `open`. -/
inductive Others (E : Env) (i : Instance D) (e : Event) (i' : Instance D) : Prop
  | event (hstep : Kanta.step E i.system e = some i'.system) (hkept : i.readonly = true → i.system.opened = true →
      e.isOperation = false)
  /-- `flush` of an instance that is open read-only. -/
  | refused (ended : Option (Owner × Except Exc Unit)) (hro : i.readonly = true) (hopened : i.system.opened = true)
      (hs : i'.system = i.system.atOnce true ended)
  /-- `close` of an instance that is open read-only. -/
  | closed (hro : i.readonly = true) (hopened : i.system.opened = true)
      (hs : i'.system = i.system.atOnce false none)

lemma step_other {e : Event} (h : i.step hooks E (.other e) = some i') :
    e.isCommit = false ∧ e.isOpen = false ∧ i'.readonly = i.readonly ∧ i'.data = i.data ∧ Others E i e i' := by
  rw [step] at h
  split at h
  · simp at h
  · rename_i he
    simp only [Bool.or_eq_true, not_or, Bool.not_eq_true] at he
    obtain ⟨system, hsystem, rfl⟩ := Option.map_eq_some_iff.mp h
    refine ⟨he.1, he.2, rfl, rfl, ?_⟩
    split at hsystem
    · rename_i hro
      simp only [Bool.and_eq_true] at hro
      cases e with
      | commit | «open» => simp [Event.isCommit, Event.isOpen] at he
      | call n clock =>
        simp only [State.stepReadonly] at hsystem
        split at hsystem
        · simp at hsystem
        · exact .refused _ hro.1 hro.2 (Option.some.inj hsystem).symm
      | close clock => exact .closed hro.1 hro.2 (Option.some.inj hsystem).symm
      | _ => exact .event hsystem fun _ _ => rfl
    · rename_i hro
      simp only [Bool.and_eq_true, not_and] at hro
      exact .event hsystem fun h1 h2 => absurd h2 (hro h1)

/-- **A call amounts to an event** of the instance without its data, or it is the concern of a read-only
instance alone. -/
theorem step_did (hi : Sound i) (h : i.step hooks E call = some i') : Did hooks E i call i' := by
  cases call with
  | transaction c clock =>
    obtain ⟨-, -, -, commit, hcommit⟩ := step_transaction h
    exact .event _ hcommit rfl rfl rfl rfl
  | «open» a create readonly =>
    obtain ⟨-, hclosed, hsn, hopens⟩ := step_open h
    cases hopens with
    | refused hs => exact .atOnce false none hs (Or.inl hclosed.symm)
    | read hro hfile hs hdata => exact .read a create (by rw [hro]) hclosed hsn hfile hs hdata
    | opened hro hstep => exact .event _ hstep rfl rfl rfl rfl
  | other e =>
    obtain ⟨hcommit, hnot, -, -, hother⟩ := step_other h
    cases hother with
    | event hstep =>
      refine .event e hstep rfl rfl ?_ hnot
      cases e with
      | commit | «open» => simp [Event.isCommit, Event.isOpen] at hcommit hnot
      | _ => rfl
    | refused ended hro hopened hs => exact .atOnce true ended hs (Or.inl hopened.symm)
    | closed hro hopened hs => exact .atOnce false none hs (Or.inr ⟨rfl, hi.alone hro hopened⟩)

/-- Nothing awaits a flush but the callers. -/
lemma quiet_of_absent {s : State} (hs : Control s) (hback : s.background = .absent) (hclosing : s.closing = .idle)
    (hopening : s.core.flights.lookup .opening = none) (hsn : s.snapping = none) : s.Quiet :=
  ⟨hsn, hs.flight_none (by simp [Owner.Awaits, hback]), hopening, hs.flight_none (by simp [Owner.Awaits, hclosing])⟩

/-- A call that is over leaves an instance without a background task as it was, or closed. -/
lemma control_atOnce {s : State} {opened : Bool} {ended : Option (Owner × Except Exc Unit)} (hs : Control s)
    (hleft : opened = s.opened ∨ (opened = false ∧ Stranded s)) : Control (s.atOnce opened ended) := by
  rcases hleft with rfl | ⟨rfl, h⟩
  · exact hs.congr hs.isOpen.symm rfl rfl rfl rfl fun _ h => h
  · exact .of_quiet (quiet_of_absent hs h.background h.closing h.opening h.snapping) rfl h.snapping rfl
      (fun hne => absurd h.closing hne) (fun _ => h.background) fun _ => h.background

/-- A read-only `open` leaves a closed instance, or one without a background task. -/
lemma control_read {s : State} {a : Opening} (hs : Control s) (hclosed : s.opened = false) (hsn : s.snapping = none) :
    Control (s.openReadonly E a).1 ∧
      ((s.openReadonly E a).1.opened = true → Stranded (s.openReadonly E a).1) := by
  have hback := hs.shut hclosed
  have hclosing : s.closing = .idle := by
    by_contra hne
    simp [hs.closing_opened hne] at hclosed
  have hopening : s.core.flights.lookup .opening = none := hs.flight_none (by simp [Owner.Awaits, hclosed])
  obtain ⟨_, _, _, _, _, _, hkept⟩ := openReadonly_kept (E := E) s a
  rw [hkept]
  exact ⟨.of_quiet (quiet_of_absent hs hback hclosing hopening hsn) rfl rfl rfl (fun hne => absurd hclosing hne)
    (fun _ => hback) fun _ => hback, fun ho => ⟨ho, hback, hclosing, hopening, rfl⟩⟩

/-- **Every call keeps the invariant.** -/
theorem Sound.step (hi : Sound i) (h : i.step hooks E call = some i') : Sound i' := by
  cases call with
  | transaction c clock =>
    obtain ⟨-, hro, ⟨store, hs⟩, commit, hcommit⟩ := step_transaction h
    refine ⟨hi.control.step hcommit, fun hro' ho => ?_⟩
    rw [hs] at ho ⊢
    obtain ⟨h1, h2, h3, h4, h5⟩ := hi.alone (hro ▸ hro') ho
    exact ⟨h1, h2, h3, h4, h5⟩
  | «open» a create readonly =>
    obtain ⟨hro, hclosed, hsn, hopens⟩ := step_open h
    cases hopens with
    | refused hs =>
      refine ⟨hs ▸ control_atOnce hi.control (Or.inl hclosed.symm), fun _ ho => ?_⟩
      simp [hs, State.atOnce] at ho
    | read _ _ hs =>
      obtain ⟨hcontrol, halone⟩ := control_read (E := E) (a := (i.opening hooks E a).2) hi.control hclosed hsn
      rw [← hs] at hcontrol halone
      exact ⟨hcontrol, fun _ => halone⟩
    | opened hro' hstep => exact ⟨hi.control.step hstep, fun hro'' => by simp [hro, hro'] at hro''⟩
  | other e =>
    obtain ⟨-, hnot, hro, -, hother⟩ := step_other h
    cases hother with
    | event hstep hkept =>
      refine ⟨hi.control.step hstep, fun hro' ho => ?_⟩
      rw [hro] at hro'
      cases hopened : i.system.opened with
      | true => exact (hi.alone hro' hopened).step hi.control hstep (hkept hro' hopened)
      | false =>
        obtain ⟨⟨a, rfl⟩, -⟩ := (step_flow hstep).opens hopened ho
        simp [Event.isOpen] at hnot
    | refused ended hro' hopened hs =>
      obtain ⟨-, hback, hclosing, hopening, hsn⟩ := hi.alone hro' hopened
      refine ⟨hs ▸ control_atOnce hi.control (Or.inl hopened.symm), fun _ _ => ?_⟩
      rw [hs]
      exact ⟨rfl, hback, hclosing, hopening, hsn⟩
    | closed hro' hopened hs =>
      refine ⟨hs ▸ control_atOnce hi.control (Or.inr ⟨rfl, hi.alone hro' hopened⟩), fun _ ho => ?_⟩
      simp [hs, State.atOnce] at ho

end Instance

end Kanta
