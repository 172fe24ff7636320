import Kanta.Memory
import Kanta.Planner

/-!
# Into the with-statement

`async with Kanta(...)` opens the instance, and where `open` raises, nothing closes it again.
`State.enter` is `open` with everything that can fail in it: reading the file, the rotation, the
replay, the migrations, the struct, the validators, the bootstrap callbacks and the clock, with its two
handlers for `Exception`.  `Admits` says when none of the stages without a handler fails
(`enter_spec`), and `enter_eq_step` ties it to the `open` of `System`.
-/

namespace Kanta

open Kanta.Lib Kanta.Lib.Assoc

variable {D : Type}

/-! ### What can happen -/

/-- The retention of an instance, and what a rotation meets. -/
structure Retention where
  /-- `self.now() - self.retention`. -/
  cutoff : Except Exc DateTime
  now : Except Exc DateTime
  /-- What a failed `execute_rotation` leaves in the file, and what it raises. -/
  failure : Option (Bytes × Exc)

/-- What happens on the way into the with-statement. -/
structure Entrance (D : Type) where
  /-- Reading the file, once it is open and locked. -/
  read : Except Exc Unit
  rotation : Option Retention
  /-- What `datetime.fromtimestamp` raises for the time of a snapshot. -/
  stamp : DateTime → Except Exc Unit
  data : D
  call : OpenCall D

section

variable (E : Env) (hooks : Hooks D) (bare : BareEncoder)

/-- `_maybe_rotate`, with the content of the file afterwards. -/
def maybeRotate (framer : Framer) (content : Bytes) (r : Retention) : Bytes × Except Exc Unit :=
  match r.cutoff with
  | .error e => (content, .error e)
  | .ok cutoff =>
    match r.now with
    | .error e => (content, .error e)
    | .ok now =>
      match planRotation E.blake3 E.ser bare framer content cutoff now E.minDiffs with
      | .error e => (content, .error e)
      | .ok none => (content, .ok ())
      | .ok (some plan) =>
        match r.failure with
        | none => (plan.newContent, .ok ())
        | some (left, e) => (left, .error e)

/-- The rotation of an instance that has a retention, when there is content. -/
def rotateFile (framer : Framer) (content : Bytes) (rotation : Option Retention) : Bytes × Except Exc Unit :=
  if content = [] then (content, .ok ())
  else
    match rotation with
    | none => (content, .ok ())
    | some r => maybeRotate E bare framer content r

/-- The log of a new database: its file, and its first change. -/
def logCreated (call : OpenCall D) (current diff : Dict) : Except Exc Unit := do
  emitEvent hooks ⟨"created", none, none, none, none, none, none⟩
  let logfmt ← buildLogfmt .empty current hooks.formatters
  let user ← resolveUser logfmt call.user
  emitEvent hooks ⟨"change", some call.action, user, none, some diff, some .empty, some current⟩

namespace State

/-- `except Exception`, which closes the instance again. -/
def handled (s : State) (e : Exc) : State :=
  if e.isException then { s with opened := false, isOpen := false } else s

/-- `open` on an empty file. -/
def enterNew (s : State) (a : Entrance D) : State :=
  match (hooks.bootstrap a.call.callbacks a.data).2 with
  | .error e => s.handled e
  | .ok current =>
    let store := { s.core.store with statedict := .empty }
    match store.queueChange a.call.action current a.call.user a.call.mtime true a.call.clock with
    | .error e => { s with core.store := store }.handled e
    | .ok (record, store) =>
      let s := { s with core.store := store }
      match record.elim (.ok ()) fun record => logCreated hooks a.call current record.diff with
      | .error e => s.handled e
      | .ok () => s.andThen .spawn

/-- The record of what `open` has changed, and its flush. -/
def enterQueued (s : State) (clock : Except Exc DateTime) (previousVersion : ℤ) (normalized : Dict) : State :=
  let version := s.core.store.version
  let action := if version ≠ previousVersion then "migrate:v" ++ toString version else "migrate:msgspec"
  match s.core.store.queueChange action normalized none .omit false clock with
  | .error _ => s
  | .ok (record, store) =>
    let s := { s with core.store := store }
    if version ≠ previousVersion ∨ record.isSome then
      { s with snapshot := s.snapshot.requestForce }.startFlush E .opening clock
    else s.andThen .spawn

/-- `open` on a file with content, once it is replayed. -/
def enterLoaded (s : State) (a : Entrance D) (state : Dict) (rr : ReplayResult) : State :=
  match E.migrate state rr.version, rr.lastSnapshot.elim (.ok ()) a.stamp with
  | .error _, _ => s
  | .ok _, .error _ => s
  | .ok (migrated, version), .ok () =>
    let s :=
      { s with
        snapshot := { s.snapshot with ts := rr.lastSnapshot.map E.fromTimestamp }
        core.store.statedict := state }
    match hooks.restore a.data migrated with
    | (_, .error _) => s
    | (_, .ok (.error e)) => s.handled e
    | (data, .ok (.ok ())) =>
      match hooks.structToDict data with
      | .error _ => s
      | .ok normalized =>
        let store := { s.core.store with version := version, mtime := rr.m }
        { s with core.store := store }.enterQueued E a.call.clock rr.version normalized

/-- `open` on a file with content. -/
def enterOld (s : State) (a : Entrance D) : State :=
  let s' := { s with core.framer := s.core.framer.reload s.core.file }
  match replay E.blake3 E.ser s.core.framer s.core.file with
  | .error _ => s'
  | .ok rr =>
    match Dict.ofVal rr.state with
    -- a state that is no dict cannot be decoded into the struct
    | none => s'
    | some state => s'.enterLoaded E hooks a state rr

/-- `__aenter__` up to the flush of what `open` has queued. -/
def enter (s : State) (a : Entrance D) : Option State :=
  if s.opened ∨ s.snapping.isSome then none
  else
    let s := { s with isOpen := true, ended := none }
    match a.read with
    | .error _ => some s
    | .ok () =>
      let rotated := rotateFile E bare s.core.framer s.core.file a.rotation
      let s := { s with core.file := rotated.1, opened := true, entered := s.core.store.committed.length }
      match rotated.2 with
      | .error _ => some s
      | .ok () => some (if rotated.1 = [] then s.enterNew hooks a else s.enterOld E hooks a)

end State

/-! ### The condition -/

/-- What is raised. -/
def raisedBy {α : Type} : Except Exc α → Option Exc
  | .error e => some e
  | .ok _ => none

/-- What is raised, if anything, is an `Exception`. -/
def Caught {α : Type} (r : Except Exc α) : Prop := ∀ e, r = .error e → e.isException = true

/-- What an empty file asks for: the bootstrap callbacks, the validators, the encoding, the clock and the log
raise nothing but an `Exception`. -/
structure AdmitsNew (a : Entrance D) : Prop where
  bootstrap : Caught (hooks.bootstrap a.call.callbacks a.data).2
  clock : ∀ current, (hooks.bootstrap a.call.callbacks a.data).2 = .ok current → Caught a.call.clock
  logs : ∀ current, (hooks.bootstrap a.call.callbacks a.data).2 = .ok current → raisedBy a.call.clock = none →
    Caught (logCreated hooks a.call current ((delta .empty current).getD .empty))

/-- What a replayed state asks for: the migrations succeed, the last snapshot has a time, and the struct can
be decoded; the validators raise nothing but an `Exception`, and when they raise nothing, the struct can be
encoded, and the clock can be read if there is something to record. -/
structure AdmitsState (a : Entrance D) (state : Dict) (rr : ReplayResult) (migrated : Dict) (version : ℤ) (data : D)
    (verdict : Except Exc Unit) : Prop where
  migrates : E.migrate state rr.version = .ok (migrated, version)
  stamps : ∀ ts, rr.lastSnapshot = some ts → a.stamp ts = .ok ()
  restores : hooks.restore a.data migrated = (data, .ok verdict)
  caught : Caught verdict
  encodes : verdict = .ok () → ∃ normalized, hooks.structToDict data = .ok normalized ∧
    ((delta state normalized).isSome = true ∨ version ≠ rr.version → ∃ now, a.call.clock = .ok now)

/-- What a file with content asks for: it can be replayed, to a dict that is admitted. -/
structure AdmitsOld (framer : Framer) (file : Bytes) (a : Entrance D) : Prop where
  loads : ∃ rr state, replay E.blake3 E.ser framer file = .ok rr ∧ rr.state = state.val ∧
    ∃ migrated version data verdict, AdmitsState E hooks a state rr migrated version data verdict

/-- No stage of `open` in front of the flush fails but those with a handler. -/
structure Admits (s : State) (a : Entrance D) : Prop where
  read : a.read = .ok ()
  rotates : (rotateFile E bare s.core.framer s.core.file a.rotation).2 = .ok ()
  created : (rotateFile E bare s.core.framer s.core.file a.rotation).1 = [] → AdmitsNew hooks a
  loaded : (rotateFile E bare s.core.framer s.core.file a.rotation).1 ≠ [] →
    AdmitsOld E hooks s.core.framer (rotateFile E bare s.core.framer s.core.file a.rotation).1 a

end

/-! ### What `open` leaves behind -/

/-- The lock is released, and another instance can open the file. -/
structure Released (s : State) : Prop where
  isOpen : s.isOpen = false
  opened : s.opened = false

/-- The state behind `State.enter`, where `ok` says whether a failure has had a handler. -/
inductive Entered (s : State) (ok : Prop) : Prop
  /-- `open` has raised. -/
  | raised (hback : s.background = .absent) (hclosing : s.closing = .idle) (hquiet : s.Quiet)
      (hreleased : Released s ↔ ok)
  /-- Its flush is under way, or the snapshot behind it. -/
  | waits (hok : ok) (hcontrol : Control s) (hopened : s.opened = true) (hback : s.background = .absent)
      (hclosing : s.closing = .idle) (hopening : s.core.flights.lookup .opening ≠ none ∨ s.snapping ≠ none)
  /-- `open` has returned. -/
  | ready (hok : ok) (hcontrol : Control s) (hopened : s.opened = true) (hback : s.background = .ready)
      (hclosing : s.closing = .idle) (hflight : s.core.flights.lookup .opening = none) (hsnapping : s.snapping = none)

lemma Entered.congr {s : State} {p q : Prop} (h : Entered s p) (hpq : p ↔ q) : Entered s q := propext hpq ▸ h

/-- `open` is under way, up to its flush. -/
structure Begun (s : State) : Prop where
  opened : s.opened = true
  background : s.background = .absent
  closing : s.closing = .idle
  snapping : s.snapping = none
  control : Control s
  flight : s.core.flights.lookup .opening = none

section

variable {E : Env} {hooks : Hooks D} {bare : BareEncoder}

/-- The clock raises, or a snapshot is decided on. -/
lemma State.maybeSnapshot_cases (s : State) (next : Next) (clock : Except Exc DateTime) :
    (∃ e, raisedBy (s.snapshot.due E.minDiffs clock) = some e ∧ s.maybeSnapshot E next clock = s.andRaise e next) ∨
      (raisedBy (s.snapshot.due E.minDiffs clock) = none ∧ (s.maybeSnapshot E next clock = s.andThen next ∨
        ∃ sn : Snapping, sn.next = next ∧ s.maybeSnapshot E next clock = { s with snapping := some sn })) := by
  unfold State.maybeSnapshot
  cases hdue : s.snapshot.due E.minDiffs clock with
  | error e => exact Or.inl ⟨e, rfl, rfl⟩
  | ok ts =>
    refine Or.inr ⟨rfl, ?_⟩
    cases ts with
    | none => exact Or.inl rfl
    | some ts =>
      dsimp only
      split
      · split
        · exact Or.inl rfl
        · exact Or.inr ⟨_, rfl, rfl⟩
      · exact Or.inl rfl

namespace Begun

variable {s : State}

/-- `open` on a fresh instance. -/
lemma fresh (hopened : s.opened = true) (hopen : s.isOpen = true) (hback : s.background = .absent)
    (hclosing : s.closing = .idle) (hflights : s.core.flights = []) (hsnapping : s.snapping = none) : Begun s :=
  ⟨hopened, hback, hclosing, hsnapping, ⟨hopen.trans hopened.symm, by simp [hflights], by simp [hopened],
    by simp [hclosing], by simp [hopened], by simp [hsnapping]⟩, by simp [hflights]⟩

/-- What does not matter to it. -/
lemma congr {t : State} (h : Begun s) (h1 : t.opened = s.opened) (h2 : t.isOpen = s.isOpen)
    (h3 : t.background = s.background) (h4 : t.closing = s.closing) (h5 : t.snapping = s.snapping)
    (h6 : t.core.flights = s.core.flights) : Begun t :=
  ⟨h1.trans h.opened, h3.trans h.background, h4.trans h.closing, h5.trans h.snapping,
    h.control.congr h2 h1 h3 h4 h5 fun o ho => h6 ▸ ho, by rw [h6]; exact h.flight⟩

lemma awaits (h : Begun s) : Owner.Awaits s .opening := ⟨h.opened, h.closing, h.background⟩

lemma quiet (h : Begun s) : s.Quiet := h.control.quiet h.snapping h.awaits h.flight (by simp)

/-- `open` raises, with no handler. -/
lemma raised {ok : Prop} (h : Begun s) (hok : ¬ok) : Entered s ok := by
  refine .raised h.background h.closing h.quiet (iff_of_false (fun hr => ?_) hok)
  exact Bool.false_ne_true (hr.opened.symm.trans h.opened)

/-- `open` raises inside a handler for `Exception`. -/
lemma handled {ok : Prop} {e : Exc} (h : Begun s) (hok : ok ↔ e.isException = true) : Entered (s.handled e) ok := by
  unfold State.handled
  split
  · exact .raised h.background h.closing h.quiet (iff_of_true ⟨rfl, rfl⟩ (hok.mpr ‹_›))
  · exact h.raised fun h => ‹¬e.isException = true› (hok.mp h)

lemma spawn {ok : Prop} (h : Begun s) (hok : ok) : Entered (s.andThen .spawn) ok :=
  .ready hok (h.control.andThen h.quiet ⟨h.closing, h.background⟩ h.opened) h.opened rfl h.closing h.flight h.snapping

/-- The snapshot behind the flush of `open`. -/
lemma snapshot {ok : Prop} {clock : Except Exc DateTime} (h : Begun s)
    (hok : ok ↔ raisedBy (s.snapshot.due E.minDiffs clock) = none) : Entered (s.maybeSnapshot E .spawn clock) ok := by
  rcases s.maybeSnapshot_cases (E := E) .spawn clock with ⟨e, hdue, heq⟩ | ⟨hdue, heq⟩
  · rw [heq]
    exact h.raised fun h => by simp [hok.mp h] at hdue
  · have hcontrol := @Control.maybeSnapshot E s .spawn clock h.control h.quiet ⟨h.closing, h.background⟩ h.opened
    rcases heq with heq | ⟨sn, -, heq⟩
    · rw [heq]
      exact h.spawn (hok.mpr hdue)
    · rw [heq] at hcontrol ⊢
      exact .waits (hok.mpr hdue) hcontrol h.opened h.background h.closing (Or.inr (by simp))

/-- The flush of `open`; the snapshot behind it is forced. -/
lemma flush {ok : Prop} {clock : Except Exc DateTime} (h : Begun s)
    (hok : ok ↔ s.core.store.pending = [] → ∃ now, clock = .ok now) (hfailed : s.flushFailed = false)
    (hforce : s.snapshot.forcePending = true) : Entered (s.startFlush E .opening clock) ok := by
  have hcontrol := h.control.startFlush (E := E) (o := .opening) clock h.snapping h.awaits h.flight
  unfold State.startFlush at hcontrol ⊢
  rw [if_neg (by simp [h.opened]), if_neg (by simp [hfailed])] at hcontrol ⊢
  split
  · rename_i hnil
    refine Begun.snapshot (s := { s with ended := some (.opening, .ok ()) })
      (h.congr rfl rfl rfl rfl rfl rfl) (hok.trans ?_)
    cases clock <;> simp [hnil, SnapshotState.due, hforce, raisedBy, Functor.map, Except.map]
  · rename_i hne
    rw [if_neg hne] at hcontrol
    refine .waits (hok.mpr fun h => absurd h hne) hcontrol h.opened h.background h.closing (Or.inl ?_)
    simp

end Begun

/-- What becomes of `queue_change` when it always has a record. -/
lemma queueChange_forced {store : Store} {action : String} {current : Dict} {user : Option String} {mtime : Mtime}
    {clock : Except Exc DateTime} :
    raisedBy (store.queueChange action current user mtime true clock) = raisedBy clock := by
  unfold Store.queueChange
  split
  · simp_all
  · cases clock <;> rfl

/-- An empty file. -/
lemma enterNew_spec {s : State} {a : Entrance D} (h : Begun s) : Entered (s.enterNew hooks a) (AdmitsNew hooks a) := by
  unfold State.enterNew
  split
  · rename_i e he
    refine h.handled ⟨fun hok => hok.bootstrap e he,
      fun hexc => ⟨fun x hx => ?_, fun current hc => ?_, fun current hc => ?_⟩⟩
    · rw [Except.error.inj (hx.symm.trans he)]
      exact hexc
    · simp [he] at hc
    · simp [he] at hc
  · rename_i current hcurrent
    have hcaught : Caught (hooks.bootstrap a.call.callbacks a.data).2 := fun e he => by simp [hcurrent] at he
    have hclock := @queueChange_forced { s.core.store with statedict := .empty } a.call.action current a.call.user
      a.call.mtime a.call.clock
    dsimp only
    split
    · rename_i e he
      have hclock : a.call.clock = .error e := by
        cases hc : a.call.clock <;> simp_all [raisedBy]
      refine Begun.handled (h.congr rfl rfl rfl rfl rfl rfl) ⟨fun hok => ?_,
        fun hexc => ⟨hcaught, fun _ _ x hx => ?_, fun _ _ hnone => ?_⟩⟩
      · exact hok.clock current hcurrent e hclock
      · rw [Except.error.inj (hx.symm.trans hclock)]
        exact hexc
      · simp [hclock, raisedBy] at hnone
    · rename_i record store hq
      have hclock : raisedBy a.call.clock = none := by rw [← hclock, hq]; rfl
      have hcaught' : Caught a.call.clock := fun x hx => by simp [hx, raisedBy] at hclock
      obtain ⟨r, rfl, hdiff⟩ : ∃ r, record = some r ∧ r.diff = (delta .empty current).getD .empty := by
        rcases Store.queueChange_cases hq with ⟨-, -, -, hforce⟩ | ⟨r, hr, -, -, -, hdiff⟩
        · simp at hforce
        · exact ⟨r, hr, hdiff⟩
      have hlogs : AdmitsNew hooks a ↔ Caught (logCreated hooks a.call current r.diff) := by
        rw [hdiff]
        constructor
        · intro hok
          exact hok.logs current hcurrent hclock
        · intro hlog
          refine ⟨hcaught, fun _ _ => hcaught', fun current' hc _ => ?_⟩
          obtain rfl := Except.ok.inj (hcurrent.symm.trans hc)
          exact hlog
      rw [Option.elim_some]
      split
      · rename_i e he
        refine Begun.handled (h.congr rfl rfl rfl rfl rfl rfl) (hlogs.trans ?_)
        simp [Caught, he]
      · rename_i he
        exact Begun.spawn (h.congr rfl rfl rfl rfl rfl rfl) (hlogs.mpr fun x hx => by simp [he] at hx)

/-- The clock is read exactly when there is a difference. -/
lemma queueChange_clock {store : Store} {action : String} {current : Dict} {user : Option String} {mtime : Mtime}
    {clock : Except Exc DateTime} :
    (∃ r, store.queueChange action current user mtime false clock = .ok r) ↔
      ((delta store.statedict current).isSome = true → ∃ now, clock = .ok now) := by
  unfold Store.queueChange
  cases hd : delta store.statedict current with
  | none => simp
  | some d => cases clock <;> simp [bind, Except.bind]

lemma queueChange_isSome {store store' : Store} {action : String} {current : Dict} {user : Option String}
    {mtime : Mtime} {clock : Except Exc DateTime} {record : Option ChangeRecord}
    (h : store.queueChange action current user mtime false clock = .ok (record, store')) :
    record.isSome = (delta store.statedict current).isSome := by
  unfold Store.queueChange at h
  split at h
  · rename_i hd _
    rw [hd, ← (Prod.mk.inj (Except.ok.inj h)).1]
    rfl
  · rename_i hno
    obtain ⟨now, -, h⟩ := bind_eq_ok.mp h
    rw [← (Prod.mk.inj (Except.ok.inj h)).1]
    cases hd : delta store.statedict current with
    | none => exact (hno hd rfl).elim
    | some d => rfl

/-- A struct that is decoded, validated and encoded again. -/
lemma enterQueued_spec {s : State} {clock : Except Exc DateTime} {previousVersion : ℤ} {normalized : Dict} {ok : Prop}
    (h : Begun s) (hpending : s.core.store.pending = []) (hfailed : s.flushFailed = false)
    (hok : ok ↔ ((delta s.core.store.statedict normalized).isSome = true ∨ s.core.store.version ≠ previousVersion →
      ∃ now, clock = .ok now)) : Entered (s.enterQueued E clock previousVersion normalized) ok := by
  unfold State.enterQueued
  dsimp only
  split
  · rename_i e he
    refine h.raised fun h => ?_
    obtain ⟨r, hr⟩ := queueChange_clock.mpr fun hd => hok.mp h (Or.inl hd)
    have := he.symm.trans hr
    simp at this
  · rename_i record store hq
    have hclock := queueChange_clock.mp ⟨_, hq⟩
    rcases Store.queueChange_cases hq with ⟨rfl, rfl, hnone, -⟩ | ⟨r, rfl, rfl, -⟩
    · simp only [hnone, Option.isSome_none, Bool.false_eq_true, false_or, or_false] at hok ⊢
      split
      · refine Begun.flush (h.congr rfl rfl rfl rfl rfl rfl) ?_ hfailed rfl
        rw [hok]
        exact ⟨fun h _ => h ‹_›, fun h _ => h hpending⟩
      · exact h.spawn (hok.mpr fun hne => absurd hne ‹_›)
    · have hsome := queueChange_isSome hq
      rw [if_pos (Or.inr (by rfl))]
      refine Begun.flush (h.congr rfl rfl rfl rfl rfl rfl) ?_ hfailed rfl
      refine iff_of_true (hok.mpr fun _ => hclock (hsome.symm.trans rfl)) fun hnil => ?_
      simp [Store.append] at hnil

/-- A file with content, once it is replayed. -/
lemma enterLoaded_spec {s : State} {a : Entrance D} {state : Dict} {rr : ReplayResult} (h : Begun s)
    (hpending : s.core.store.pending = []) (hfailed : s.flushFailed = false) :
    Entered (s.enterLoaded E hooks a state rr)
      (∃ migrated version data verdict, AdmitsState E hooks a state rr migrated version data verdict) := by
  have hstamp : rr.lastSnapshot.elim (.ok ()) a.stamp = .ok () ↔
      ∀ ts, rr.lastSnapshot = some ts → a.stamp ts = .ok () := by
    cases rr.lastSnapshot <;> simp
  unfold State.enterLoaded
  split
  · rename_i e he
    refine h.raised ?_
    rintro ⟨migrated, version, data, verdict, hok⟩
    have := he.symm.trans hok.migrates
    simp at this
  · rename_i e _ he
    refine h.raised ?_
    rintro ⟨migrated, version, data, verdict, hok⟩
    have := he.symm.trans (hstamp.mpr hok.stamps)
    simp at this
  · rename_i migrated version hmigrates hstamped
    -- what is left to ask of the migrated state
    have hrest : ∀ {verdict : Except Exc Unit} {data : D}, hooks.restore a.data migrated = (data, .ok verdict) →
        ((∃ migrated version data verdict, AdmitsState E hooks a state rr migrated version data verdict) ↔
          Caught verdict ∧ (verdict = .ok () → ∃ normalized, hooks.structToDict data = .ok normalized ∧
            ((delta state normalized).isSome = true ∨ version ≠ rr.version → ∃ now, a.call.clock = .ok now))) := by
      intro verdict data hrestore
      constructor
      · rintro ⟨migrated', version', data', verdict', hok⟩
        obtain ⟨rfl, rfl⟩ := Prod.mk.inj (Except.ok.inj (hmigrates.symm.trans hok.migrates))
        obtain ⟨rfl, hverdict⟩ := Prod.mk.inj (hrestore.symm.trans hok.restores)
        obtain rfl := Except.ok.inj hverdict
        exact ⟨hok.caught, hok.encodes⟩
      · rintro ⟨hcaught, hencodes⟩
        exact ⟨migrated, version, data, verdict, hmigrates, hstamp.mp hstamped, hrestore, hcaught, hencodes⟩
    dsimp only
    split
    · rename_i e he
      refine Begun.raised (h.congr rfl rfl rfl rfl rfl rfl) ?_
      rintro ⟨migrated', version', data, verdict, hok⟩
      obtain ⟨rfl, rfl⟩ := Prod.mk.inj (Except.ok.inj (hmigrates.symm.trans hok.migrates))
      simpa using (Prod.mk.inj (he.symm.trans hok.restores)).2
    · rename_i data e hrestore
      refine Begun.handled (h.congr rfl rfl rfl rfl rfl rfl) ((hrest hrestore).trans ?_)
      simp [Caught]
    · rename_i data hrestore
      have hok := hrest hrestore
      split
      · rename_i e he
        refine Begun.raised (h.congr rfl rfl rfl rfl rfl rfl) fun h => ?_
        obtain ⟨normalized, hn, -⟩ := (hok.mp h).2 rfl
        simp [he] at hn
      · rename_i normalized hn
        refine enterQueued_spec (h.congr rfl rfl rfl rfl rfl rfl) hpending hfailed (hok.trans ?_)
        simp [Caught, hn]

/-- A file with content. -/
lemma enterOld_spec {s : State} {a : Entrance D} (h : Begun s) (hpending : s.core.store.pending = [])
    (hfailed : s.flushFailed = false) :
    Entered (s.enterOld E hooks a) (AdmitsOld E hooks s.core.framer s.core.file a) := by
  have hbegun : Begun { s with core.framer := s.core.framer.reload s.core.file } :=
    (h.congr rfl rfl rfl rfl rfl rfl)
  unfold State.enterOld
  dsimp only
  split
  · rename_i e he
    refine hbegun.raised ?_
    rintro ⟨rr, state, hreplay, -⟩
    have := he.symm.trans hreplay
    simp at this
  · rename_i rr hreplay
    split
    · rename_i hnone
      refine hbegun.raised ?_
      rintro ⟨rr', state, hreplay', hstate, -⟩
      obtain rfl := Except.ok.inj (hreplay.symm.trans hreplay')
      simp [Dict.ofVal_eq_some.mpr hstate] at hnone
    · rename_i state hstate
      have hstate := Dict.ofVal_eq_some.mp hstate
      refine (enterLoaded_spec hbegun hpending hfailed).congr ⟨fun hok => ⟨rr, state, hreplay, hstate, hok⟩, ?_⟩
      rintro ⟨rr', state', hreplay', hstate', hok⟩
      obtain rfl := Except.ok.inj (hreplay.symm.trans hreplay')
      obtain rfl : state = state' := by
        have := (Dict.ofVal_eq_some.mpr hstate).symm.trans (Dict.ofVal_eq_some.mpr hstate')
        exact Option.some.inj this
      exact hok

/-- **What the way into the with-statement leaves behind**: a failure has had a handler exactly when nothing
else has failed. -/
theorem enter_spec {s s' : State} {a : Entrance D} (hback : s.background = .absent) (hclosing : s.closing = .idle)
    (hflights : s.core.flights = []) (hpending : s.core.store.pending = []) (hfailed : s.flushFailed = false)
    (h : s.enter E hooks bare a = some s') : Entered s' (Admits E hooks bare s a) := by
  unfold State.enter at h
  split at h
  · simp at h
  rename_i hno
  obtain ⟨hopened, hsn⟩ := not_or.mp hno
  have hopened : s.opened = false := by simpa using hopened
  have hsn : s.snapping = none := by simpa using hsn
  dsimp only at h
  split at h
  · rename_i e he
    obtain rfl := Option.some.inj h
    refine .raised hback hclosing ⟨hsn, by simp [hflights]⟩ (iff_of_false (fun hr => ?_) fun hok => ?_)
    · exact Bool.false_ne_true hr.isOpen.symm
    · have := he.symm.trans hok.read
      simp at this
  · rename_i hread
    have hbegun : ∀ file, Begun
        { s with
          core := { s.core with file := file }
          isOpen := true
          opened := true
          ended := none
          entered := s.core.store.committed.length } := fun file =>
        .fresh rfl rfl hback hclosing hflights hsn
    split at h
    · rename_i e he
      obtain rfl := Option.some.inj h
      refine (hbegun _).raised fun hok => ?_
      have := he.symm.trans hok.rotates
      simp at this
    · rename_i hrotated
      obtain rfl := Option.some.inj h
      split
      · rename_i hnil
        refine (enterNew_spec (hbegun _)).congr ⟨fun hok => ?_, fun hok => hok.created hnil⟩
        exact ⟨hread, hrotated, fun _ => hok, fun hne => absurd hnil hne⟩
      · rename_i hne
        have hspec := @enterOld_spec _ E hooks _ a
          (hbegun (rotateFile E bare s.core.framer s.core.file a.rotation).1) hpending hfailed
        refine hspec.congr ⟨fun hok => ?_, fun hok => hok.loaded hne⟩
        exact ⟨hread, hrotated, fun hnil => absurd hnil hne, fun _ => hok⟩

/-! ### The `open` of an instance -/

lemma State.handled_caught {s : State} {α : Type} {r : Except Exc α} {e : Exc} (hr : Caught r) (he : r = .error e) :
    s.handled e = { s with opened := false, isOpen := false } := if_pos (hr e he)

lemma enterNew_eq {s : State} {a : Entrance D} (normalize : Dict → Except Exc Dict) (validated : Except Exc Unit)
    (hcaught : Caught (hooks.bootstrap a.call.callbacks a.data).2) (hcaught' : Caught a.call.clock)
    (hlogs : ∀ current diff, logCreated hooks a.call current diff = .ok ()) :
    s.enterNew hooks a = s.bootstrap ⟨(hooks.bootstrap a.call.callbacks a.data).2, a.call.action, a.call.user,
      a.call.mtime, normalize, validated, a.call.clock⟩ := by
  unfold State.enterNew State.bootstrap
  cases hboot : (hooks.bootstrap a.call.callbacks a.data).2 with
  | error e => exact State.handled_caught hcaught hboot
  | ok current =>
    dsimp only
    cases hq : ({ s.core.store with statedict := .empty } : Store).queueChange a.call.action current a.call.user
        a.call.mtime true a.call.clock with
    | error e =>
      have hraised : raisedBy a.call.clock = some e := queueChange_forced.symm.trans (congrArg raisedBy hq)
      refine State.handled_caught hcaught' ?_
      cases hc : a.call.clock <;> simp_all [raisedBy]
    | ok r =>
      obtain ⟨record, store⟩ := r
      cases record <;> simp only [Option.elim, hlogs]

lemma enterLoaded_eq {s : State} {a : Entrance D} {opening : Opening} {state : Dict} {rr : ReplayResult}
    (hclock : opening.clock = a.call.clock) (hnormalize : opening.normalize = hooks.normalize a.data)
    (hstamp : ∀ ts, a.stamp ts = .ok ())
    (hvalidated : ∀ migrated version data verdict, E.migrate state rr.version = .ok (migrated, version) →
      hooks.restore a.data migrated = (data, .ok verdict) → Caught verdict ∧ opening.validated = verdict) :
    s.enterLoaded E hooks a state rr = s.load E opening state rr := by
  unfold State.enterLoaded State.load
  have hlast : rr.lastSnapshot.elim (.ok ()) a.stamp = .ok () := by cases rr.lastSnapshot <;> simp [hstamp]
  have hmigrate : (E.migrations.map fun reg => reg.apply state rr.version).getD
      (.ok (state, rr.version)) = E.migrate state rr.version := rfl
  rw [hmigrate, hlast, ← hclock, hnormalize]
  cases hm : E.migrate state rr.version with
  | error e => rfl
  | ok r =>
    obtain ⟨migrated, version⟩ := r
    dsimp only
    rw [Hooks.normalize]
    rcases hr : hooks.restore a.data migrated with ⟨data, e | verdict⟩
    · rfl
    · obtain ⟨hcaught, hval⟩ := hvalidated migrated version data verdict hm hr
      rw [hval]
      cases verdict with
      | error e => exact State.handled_caught hcaught rfl
      | ok =>
        dsimp only
        cases hn : hooks.structToDict data with
        | error e => rfl
        | ok normalized => rfl

lemma step_open_eq {s : State} {opening : Opening} (h : s.snapping = none) :
    Kanta.step E s (.open opening) = ({ s with ended := none } : State).openDb E opening := by
  cases s
  subst h
  rfl

lemma opening_passed (i : Instance D) (a : OpenCall D) :
    (i.opening hooks E a).2.clock = a.clock ∧ (i.opening hooks E a).2.normalize = hooks.normalize i.data := by
  unfold Instance.opening
  dsimp only
  split
  · exact ⟨rfl, rfl⟩
  · split
    · exact ⟨rfl, rfl⟩
    · split <;> exact ⟨rfl, rfl⟩

lemma opening_validated {i : Instance D} {a : OpenCall D} {migrated : Dict} {data : D} {verdict : Except Exc Unit}
    (hfile : i.system.core.file ≠ []) (hm : i.system.core.migrated E = some migrated)
    (hr : hooks.restore i.data migrated = (data, .ok verdict)) : (i.opening hooks E a).2.validated = verdict := by
  unfold Instance.opening
  dsimp only
  rw [if_neg hfile, hm]
  dsimp only
  rw [hr]

/-- Without a failure at the file, in the rotation, in the log of a new database or in the time of a snapshot, and
without a `BaseException`, **the way into the with-statement is the `open` of an instance**. -/
theorem enter_eq_step {s : State} {a : Entrance D} {file : Bytes} {readonly : Bool} (hread : a.read = .ok ())
    (hstamp : ∀ ts, a.stamp ts = .ok ())
    (hrotates : rotateFile E bare s.core.framer s.core.file a.rotation = (file, .ok ())) (hsn : s.snapping = none)
    (hboot : Caught (hooks.bootstrap a.call.callbacks a.data).2) (hclock : Caught a.call.clock)
    (hlogs : ∀ current diff, logCreated hooks a.call current diff = .ok ())
    (hverdict : ∀ state data verdict, hooks.restore a.data state = (data, .ok verdict) → Caught verdict) :
    s.enter E hooks bare a =
      (Instance.step hooks E ⟨{ s with core.file := file }, a.data, readonly⟩ (.open a.call true false)).map
        Instance.system := by
  have hmap : ∀ (o : Option State) (data : D),
      (o.map fun system => (⟨system, data, false⟩ : Instance D)).map Instance.system = o := by
    intro o data
    cases o <;> rfl
  simp only [Instance.step, Instance.openDb]
  unfold State.enter
  by_cases hopened : s.opened = true
  · simp [hopened]
  rw [if_neg (by simp [hopened, hsn]), if_neg (by simp [hopened, hsn]), if_neg (by simp), if_neg (by simp), hmap,
    step_open_eq (by exact hsn)]
  unfold State.openDb
  simp only [hread, hrotates]
  rw [if_neg hopened]
  by_cases hnil : file = []
  · subst hnil
    simp only [if_true, Instance.opening]
    exact congrArg some (enterNew_eq _ _ hboot hclock hlogs)
  · simp only [if_neg hnil]
    unfold State.enterOld
    dsimp only
    cases hrr : replay E.blake3 E.ser s.core.framer file with
    | error e => rfl
    | ok rr =>
      dsimp only
      cases hstate : Dict.ofVal rr.state with
      | none => rfl
      | some state =>
        refine congrArg some ?_
        dsimp only
        refine enterLoaded_eq (opening_passed _ _).1 (opening_passed _ _).2 hstamp
          fun migrated version data verdict hm hr => ?_
        refine ⟨hverdict migrated data verdict hr, opening_validated (fun h => hnil h) ?_ hr⟩
        simp [Core.migrated, hrr, hstate, hm, Except.toOption]

end

end Kanta
