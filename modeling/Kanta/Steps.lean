import Kanta.Control

/-!
# What a step does

`Effect` lists what an event can do to the shared data, and `step_effect` says that the list is
complete; every invariant of the data is proved from it.
-/

namespace Kanta

open Kanta.Lib Kanta.Lib.Assoc Kanta.Lib.Lts

variable {E : Env}

/-! ### The coroutines leave the shared data alone -/

namespace State

@[simp] lemma andThen_core (s : State) (next : Next) : (s.andThen next).core = s.core := by
  cases next <;> rfl

@[simp] lemma andRaise_core (s : State) (e : Exc) (next : Next) : (s.andRaise e next).core = s.core := by
  cases next <;> rfl

@[simp] lemma maybeSnapshot_core (s : State) (next : Next) (clock : Except Exc DateTime) :
    (s.maybeSnapshot E next clock).core = s.core := by
  unfold maybeSnapshot
  split
  · simp
  · simp
  · split
    · dsimp only
      split <;> simp
    · simp

@[simp] lemma afterFlush_core (s : State) (o : Owner) (result : Except Exc Unit)
    (clock : Except Exc DateTime) : (s.afterFlush E o result clock).core = s.core := by
  unfold afterFlush
  dsimp only
  split
  · rfl
  · simp
  · rfl
  · rfl
  · rfl
  · split <;> simp

/-- A flush that starts is in flight with the whole queue, or ends at once. -/
lemma startFlush_core (s : State) (o : Owner) (clock : Except Exc DateTime) :
    (s.startFlush E o clock).core = s.core ∨
      (s.opened = true ∧ s.flushFailed = false ∧ s.core.store.pending ≠ [] ∧
        (s.startFlush E o clock).core =
          { s.core with flights := put o (.sizing s.core.store.pending none) s.core.flights }) := by
  unfold startFlush
  split
  · exact Or.inl (by simp)
  · split
    · exact Or.inl (by simp)
    · split
      · exact Or.inl (by simp)
      · exact Or.inr ⟨by simpa using ‹¬¬s.opened = true›, by simpa using ‹¬s.flushFailed = true›,
          ‹_›, rfl⟩

@[simp] lemma failFlush_core (s : State) (o : Owner) (e : Exc) (clock : Except Exc DateTime) :
    (s.failFlush E o e clock).core = { s.core with flights := remove o s.core.flights } := by
  unfold failFlush
  dsimp only
  split <;> simp

@[simp] lemma popBatch_core (s : State) (o : Owner) (count : ℕ) (clock : Except Exc DateTime) :
    (s.popBatch E o count clock).core =
      { s.core with
        flights := remove o s.core.flights
        store.pending := s.core.store.pending.drop count } := by
  simp [popBatch]

end State

/-! ### The list of effects -/

/-- The event is the work of a worker thread. -/
def Event.IsJob : Event → Prop
  | .work .. => True
  | .stray .. => True
  | _ => False

/-- The flush of `o` enters its flight with the whole queue. -/
def Core.begin (c : Core) (o : Owner) : Core := { c with flights := put o (.sizing c.store.pending none) c.flights }

/-- What `open` makes of the store: how far it gets. -/
inductive Loaded (E : Env) (store : Store) (a : Opening) (rr : ReplayResult) (state : Dict) : Store → Prop
  /-- The migrations refuse the version. -/
  | refused (e : Exc)
      (h : (E.migrations.map fun reg => reg.apply state rr.version).getD (.ok (state, rr.version)) =
        .error e) : Loaded E store a rr state store
  /-- The struct cannot be decoded, or a validator refuses it. -/
  | invalid : Loaded E store a rr state { store with statedict := state }
  /-- The clock fails. -/
  | stopped (migrated : Dict) (version : ℤ)
      (h : (E.migrations.map fun reg => reg.apply state rr.version).getD (.ok (state, rr.version)) =
        .ok (migrated, version)) :
      Loaded E store a rr state { store with statedict := state, version := version, mtime := rr.m }
  | done (migrated normalized : Dict) (version : ℤ) (action : String) (record : Option ChangeRecord)
      (store' : Store)
      (h : (E.migrations.map fun reg => reg.apply state rr.version).getD (.ok (state, rr.version)) =
        .ok (migrated, version))
      (hnorm : a.normalize migrated = .ok normalized)
      (hqueue : ({ store with statedict := state, version := version, mtime := rr.m } : Store).queueChange
        action normalized none .omit false a.clock = .ok (record, store')) :
      Loaded E store a rr state store'

namespace Event

/-- Somebody awaits `close()`. -/
def isClose : Event → Bool
  | .close _ => true
  | _ => false

/-- Somebody awaits `flush()`. -/
def isCall : Event → Bool
  | .call .. => true
  | _ => false

/-- The cancellation reaches the background task. -/
def isDeliver : Event → Bool
  | .deliver .. => true
  | _ => false

/-- A worker thread runs a write that was left behind. -/
def isStray : Event → Bool
  | .stray _ => true
  | _ => false

/-- Somebody awaits `open()`. -/
def isOpen : Event → Bool
  | .open _ => true
  | _ => false

/-- A transaction commits. -/
def isCommit : Event → Bool
  | .commit _ => true
  | _ => false

/-- A coroutine may begin a flush. -/
def flushes : Event → Bool
  | .call .. | .wake _ | .deliver .. | .close _ | .join _ | .open _ => true
  | _ => false

/-- The event begins a flush for `o`. -/
def Begins : Event → Owner → Prop
  | .call n _, o => o = .call n
  | .wake _, o => o = .background
  | .deliver .., o => o = .background
  | .close _, o => o = .closing
  | .join _, o => o = .closing
  | _, _ => False

lemma Begins.not_job {e : Event} {o : Owner} (h : e.Begins o) : ¬e.IsJob := by
  cases e <;> simp_all [Begins, IsJob]

lemma Begins.not_open {e : Event} {o : Owner} (h : e.Begins o) : e.isOpen = false := by
  cases e <;> simp_all [Begins, isOpen]

/-- No I/O error: a job or a write of a snapshot succeeds. -/
def succeeds : Event → Bool
  | .work _ (.failed _) => false
  | .stray (.failed _) => false
  | .snapshotWrite (.failed _) => false
  | _ => true

end Event

/-- What an event does to the shared data. -/
inductive Effect (E : Env) (s : State) : Event → Core → Prop
  /-- Nothing. -/
  | quiet (e : Event) (he : e.isOpen = true → s.core.file = []) : Effect E s e s.core
  | commit (c : Commit) (record : Option ChangeRecord) (store : Store)
      (h : s.core.store.queueChange c.action c.current c.user c.mtime false (.ok c.now) =
        .ok (record, store)) :
      Effect E s (.commit c) { s.core with store := store }
  /-- A flush starts and finds changes. -/
  | begin (e : Event) (o : Owner) (he : e.Begins o) (hopen : s.opened = true)
      (hfail : s.flushFailed = false) (hne : s.core.store.pending ≠ [])
      (hfree : s.core.flights.lookup o = none) : Effect E s e (s.core.begin o)
  | sized (o : Owner) (batch : List Queued) (outcome : Outcome)
      (h : s.core.flights.lookup o = some (.sizing batch none)) :
      Effect E s (.work o outcome)
        { s.core with flights := put o (.sizing batch (some (s.core.size s.isOpen outcome))) s.core.flights }
  | wrote (o : Owner) (batch : List (Queued × Bytes)) (outcome : Outcome)
      (h : s.core.flights.lookup o = some (.writing batch none)) :
      Effect E s (.work o outcome)
        { (s.core.write s.isOpen (entriesOf batch) outcome).1 with
          flights := put o
            (.writing batch (some (s.core.write s.isOpen (entriesOf batch) outcome).2)) s.core.flights }
  | framed (o : Owner) (clock : Except Exc DateTime) (batch : List Queued) (size : ℕ)
      (framed : List (Queued × Bytes))
      (h : s.core.flights.lookup o = some (.sizing batch (some (.ok size))))
      (hframed : frameBatch E s.core.framer size batch = .ok framed) :
      Effect E s (.resume o clock)
        { s.core with flights := put o (.writing framed none) s.core.flights }
  | popped (o : Owner) (clock : Except Exc DateTime) (batch : List (Queued × Bytes))
      (h : s.core.flights.lookup o = some (.writing batch (some (.ok ())))) :
      Effect E s (.resume o clock)
        { s.core with
          flights := remove o s.core.flights
          store.pending := s.core.store.pending.drop batch.length }
  /-- A flush ends by an exception, before or during its write. -/
  | failed (o : Owner) (clock : Except Exc DateTime) (flight : Flight)
      (h : s.core.flights.lookup o = some flight)
      (hno : ∀ batch, flight ≠ .writing batch (some (.ok ()))) :
      Effect E s (.resume o clock) { s.core with flights := remove o s.core.flights }
  | stray (batch : List (Queued × Bytes)) (strays : List (List (Queued × Bytes))) (outcome : Outcome)
      (h : s.core.strays = batch :: strays) :
      Effect E s (.stray outcome)
        (({ s.core with strays := strays } : Core).write s.isOpen (entriesOf batch) outcome).1
  /-- The background flush is cancelled, and none starts in its place. -/
  | cancelled (survives : Bool) (clock : Except Exc DateTime) (h : s.background = .flushing) :
      Effect E s (.deliver survives clock) (s.abandon survives).core
  /-- The background flush is cancelled, and another one starts. -/
  | restarted (survives : Bool) (clock : Except Exc DateTime) (h : s.background = .flushing)
      (hopen : s.opened = true) (hfail : s.flushFailed = false) (hne : s.core.store.pending ≠ []) :
      Effect E s (.deliver survives clock) ((s.abandon survives).core.begin .background)
  | snapshot (sn : Snapping) (framed : Bytes) (outcome : Outcome) (h : s.snapping = some sn)
      (hframed : s.core.framer.frameSnapshot E.blake3 sn.payload sn.offset = .ok framed) :
      Effect E s (.snapshotWrite outcome)
        (s.core.write s.isOpen [.snapshot sn.snap framed] outcome).1
  /-- `open` on an empty file fails, after it has dropped the state. -/
  | unborn (a : Opening) (hopen : s.opened = false) (hfile : s.core.file = []) :
      Effect E s (.open a) { s.core with store.statedict := .empty }
  /-- `open` creates the database. -/
  | created (a : Opening) (current : Dict) (record : Option ChangeRecord) (store : Store)
      (hopen : s.opened = false) (hfile : s.core.file = []) (hcur : a.bootstrap = .ok current)
      (h : ({ s.core.store with statedict := .empty } : Store).queueChange a.action current a.user
        a.mtime true a.clock = .ok (record, store)) :
      Effect E s (.open a) { s.core with store := store }
  /-- `open` cannot use the file. -/
  | unread (a : Opening) (hopen : s.opened = false) (hfile : s.core.file ≠ [])
      (hno : ∀ (rr : ReplayResult) (state : Dict),
        replay E.blake3 E.ser s.core.framer s.core.file = .ok rr → rr.state ≠ state.val) :
      Effect E s (.open a) { s.core with framer := s.core.framer.reload s.core.file }
  /-- `open` loads the file. -/
  | loaded (a : Opening) (rr : ReplayResult) (state : Dict) (store : Store) (hopen : s.opened = false)
      (hfile : s.core.file ≠ []) (hreplay : replay E.blake3 E.ser s.core.framer s.core.file = .ok rr)
      (hstate : rr.state = state.val) (h : Loaded E s.core.store a rr state store) :
      Effect E s (.open a)
        { s.core with framer := s.core.framer.reload s.core.file, store := store }
  /-- `open` loads the file, and its flush starts. -/
  | reloaded (a : Opening) (rr : ReplayResult) (state : Dict) (store : Store) (hopen : s.opened = false)
      (hfile : s.core.file ≠ []) (hreplay : replay E.blake3 E.ser s.core.framer s.core.file = .ok rr)
      (hstate : rr.state = state.val) (h : Loaded E s.core.store a rr state store)
      (hfail : s.flushFailed = false) (hne : store.pending ≠ [])
      (hfree : s.core.flights.lookup .opening = none) :
      Effect E s (.open a)
        (Core.begin { s.core with framer := s.core.framer.reload s.core.file, store := store } .opening)

/-! ### Every step is in the list -/

namespace Effect

variable {s s' : State}

lemma rest {e : Event} (he : e.isOpen = false) : Effect E s e s.core := .quiet e (by simp [he])

lemma startFlush {t : State} {e : Event} {o : Owner} {clock : Except Exc DateTime} (he : e.Begins o)
    (ho : t.opened = s.opened) (hf : t.flushFailed = s.flushFailed) (hc : t.core = s.core)
    (hfree : s.core.flights.lookup o = none) : Effect E s e (t.startFlush E o clock).core := by
  rcases t.startFlush_core (E := E) o clock with h | ⟨h1, h2, h3, h⟩
  · rw [h, hc]
    exact .quiet e (by simp [he.not_open])
  · rw [h, hc]
    exact .begin e o he (ho ▸ h1) (hf ▸ h2) (hc ▸ h3) hfree

lemma load {t : State} {a : Opening} {rr : ReplayResult} {state : Dict}
    (ht : t.core = { s.core with framer := s.core.framer.reload s.core.file })
    (hf : t.flushFailed = s.flushFailed) (hopen : s.opened = false) (hfile : s.core.file ≠ [])
    (hreplay : replay E.blake3 E.ser s.core.framer s.core.file = .ok rr)
    (hstate : rr.state = state.val) (hfree : s.core.flights.lookup .opening = none) :
    Effect E s (.open a) (t.load E a state rr).core := by
  unfold State.load
  split
  · rename_i exc hmig
    rw [ht]
    exact .loaded a rr state _ hopen hfile hreplay hstate (.refused exc hmig)
  · rename_i migrated version hmig
    dsimp only
    split
    · simp only [ht]
      exact .loaded a rr state _ hopen hfile hreplay hstate .invalid
    · simp only [ht]
      exact .loaded a rr state _ hopen hfile hreplay hstate .invalid
    · rename_i normalized hnorm hval
      simp only [ht]
      split
      · exact .loaded a rr state _ hopen hfile hreplay hstate (.stopped migrated version hmig)
      · rename_i record store hq
        have hdone : Loaded E s.core.store a rr state store :=
          .done migrated normalized version _ record store hmig hnorm hq
        split
        · rcases State.startFlush_core (E := E) _ Owner.opening a.clock with h | ⟨h1, h2, h3, h⟩
          · rw [h]
            exact .loaded a rr state _ hopen hfile hreplay hstate hdone
          · rw [h]
            exact .reloaded a rr state _ hopen hfile hreplay hstate hdone (hf ▸ h2) h3 hfree
        · simp only [State.andThen_core]
          exact .loaded a rr state _ hopen hfile hreplay hstate hdone

lemma bootstrap {t : State} {a : Opening} (ht : t.core = s.core) (hopen : s.opened = false)
    (hfile : s.core.file = []) : Effect E s (.open a) (t.bootstrap a).core := by
  unfold State.bootstrap
  split
  · exact ht ▸ .quiet _ fun _ => hfile
  · rename_i current hcur
    dsimp only
    rw [ht]
    split
    · exact .unborn a hopen hfile
    · rename_i record store hq
      simp only [State.andThen_core]
      exact .created a current record store hopen hfile hcur hq

lemma openDb {a : Opening} (hs : Control s) (h : s.openDb E a = some s') :
    Effect E s (.open a) s'.core := by
  unfold State.openDb at h
  split at h
  · simp at h
  · rename_i hopen
    have hopen : s.opened = false := by simpa using hopen
    dsimp only at h
    split at h
    · rename_i hfile
      obtain rfl := Option.some.inj h
      exact bootstrap rfl hopen hfile
    · rename_i hfile
      split at h
      · rename_i exc hrr
        obtain rfl := Option.some.inj h
        exact .unread a hopen hfile fun rr state hrr' => by simp [hrr] at hrr'
      · rename_i rr hrr
        split at h
        · rename_i hnone
          obtain rfl := Option.some.inj h
          refine .unread a hopen hfile fun rr' state hrr' hstate => ?_
          obtain rfl := Except.ok.inj (hrr.symm.trans hrr')
          simp [Dict.ofVal_eq_some.mpr hstate] at hnone
        · rename_i state hstate
          obtain rfl := Option.some.inj h
          exact load rfl rfl hopen hfile hrr (Dict.ofVal_eq_some.mp hstate)
            (hs.flight_none (by simp [Owner.Awaits, hopen]))

lemma work {o : Owner} {outcome : Outcome} (h : s.work o outcome = some s') :
    Effect E s (.work o outcome) s'.core := by
  unfold State.work at h
  split at h
  · rename_i batch hl
    obtain rfl := Option.some.inj h
    exact .sized o batch outcome hl
  · rename_i batch hl
    obtain rfl := Option.some.inj h
    exact .wrote o batch outcome hl
  · simp at h

lemma workStray {outcome : Outcome} (h : s.workStray outcome = some s') :
    Effect E s (.stray outcome) s'.core := by
  unfold State.workStray at h
  split at h
  · simp at h
  · rename_i batch strays hs
    obtain rfl := Option.some.inj h
    exact .stray batch strays outcome hs

lemma resumeFlush {o : Owner} {clock : Except Exc DateTime} (h : s.resumeFlush E o clock = some s') :
    Effect E s (.resume o clock) s'.core := by
  unfold State.resumeFlush at h
  split at h
  · rename_i batch size hl
    split at h
    · rename_i framed hf
      obtain rfl := Option.some.inj h
      exact .framed o clock batch size framed hl hf
    · obtain rfl := Option.some.inj h
      rw [State.failFlush_core]
      exact .failed o clock _ hl (by simp)
  · rename_i batch hl
    obtain rfl := Option.some.inj h
    rw [State.popBatch_core]
    exact .popped o clock batch hl
  · rename_i hl
    obtain rfl := Option.some.inj h
    rw [State.failFlush_core]
    exact .failed o clock _ hl (by simp)
  · rename_i hl
    obtain rfl := Option.some.inj h
    rw [State.failFlush_core]
    exact .failed o clock _ hl (by simp)
  · simp at h

lemma deliver {survives : Bool} {clock : Except Exc DateTime} (hs : Control s)
    (h : s.deliver E survives clock = some s') : Effect E s (.deliver survives clock) s'.core := by
  unfold State.deliver at h
  split at h
  · dsimp only at h
    split at h
    · obtain rfl := Option.some.inj h
      exact .rest rfl
    · rename_i hb
      obtain rfl := Option.some.inj h
      exact startFlush rfl rfl rfl rfl (hs.flight_none (by simp [Owner.Awaits, hb]))
    · rename_i hflush
      obtain rfl := Option.some.inj h
      rcases State.startFlush_core (E := E) _ Owner.background clock with h | ⟨h1, h2, h3, h⟩
      · rw [h]
        exact .cancelled survives clock hflush
      · rw [h]
        exact .restarted survives clock hflush h1 h2 h3
    · obtain rfl := Option.some.inj h
      exact .rest rfl
    · simp at h
  · simp at h

lemma close {clock : Except Exc DateTime} (hs : Control s) (h : s.close E clock = some s') :
    Effect E s (.close clock) s'.core := by
  unfold State.close at h
  split at h
  · simp at h
  · rename_i hidle
    simp only [not_or, not_not] at hidle
    have hfree := hs.flight_none (o := .closing) (by simp [Owner.Awaits, hidle.1])
    split at h
    · obtain rfl := Option.some.inj h
      exact .rest rfl
    · split at h
      · obtain rfl := Option.some.inj h
        exact startFlush rfl rfl rfl rfl hfree
      · obtain rfl := Option.some.inj h
        exact startFlush rfl rfl rfl rfl hfree
      · obtain rfl := Option.some.inj h
        exact .rest rfl
      · obtain rfl := Option.some.inj h
        exact .rest rfl

lemma join {clock : Except Exc DateTime} (hs : Control s) (h : s.join E clock = some s') :
    Effect E s (.join clock) s'.core := by
  unfold State.join at h
  split at h
  · rename_i hj
    split at h
    · obtain rfl := Option.some.inj h
      exact startFlush rfl rfl rfl rfl (hs.flight_none (by simp [Owner.Awaits, hj]))
    · obtain rfl := Option.some.inj h
      exact .rest rfl
    · simp at h
  · simp at h

lemma writeSnapshot {sn : Snapping} {outcome : Outcome} (hs : s.snapping = some sn) :
    Effect E s (.snapshotWrite outcome) (s.writeSnapshot E sn outcome).core := by
  unfold State.writeSnapshot
  dsimp only
  split
  · rw [State.andThen_core]
    exact .rest rfl
  · rename_i framed hframed
    have := Effect.snapshot (E := E) sn framed outcome hs hframed
    split <;> rename_i hw <;> simpa [hw] using this

lemma loopStep {e : Event} (hs : Control s) (h : Kanta.loopStep E s e = some s') :
    Effect E s e s'.core := by
  cases e with
  | commit c =>
    simp only [Kanta.loopStep] at h
    split at h
    · rename_i record store hq
      obtain rfl := Option.some.inj h
      exact .commit c record store hq
    · simp at h
  | call n clock =>
    simp only [Kanta.loopStep] at h
    split at h
    · simp at h
    · rename_i hl
      obtain rfl := Option.some.inj h
      exact startFlush rfl rfl rfl rfl (Option.not_isSome_iff_eq_none.mp hl)
  | resume o clock =>
    simp only [Kanta.loopStep] at h
    split at h
    · simp at h
    · exact resumeFlush h
  | start =>
    simp only [Kanta.loopStep] at h
    split at h
    · obtain rfl := Option.some.inj h
      exact .rest rfl
    · simp at h
  | wake clock =>
    simp only [Kanta.loopStep] at h
    split at h
    · rename_i hb _
      obtain rfl := Option.some.inj h
      exact startFlush rfl rfl rfl rfl (hs.flight_none (by simp [Owner.Awaits, hb]))
    · simp at h
  | deliver survives clock => exact deliver hs h
  | reported =>
    simp only [Kanta.loopStep] at h
    split at h
    · obtain rfl := Option.some.inj h
      exact .rest rfl
    · simp at h
  | request =>
    obtain rfl := Option.some.inj h
    exact .rest rfl
  | close clock => exact close hs h
  | join clock => exact join hs h
  | «open» a => exact openDb hs h
  | work | stray | snapshotWrite => simp [Kanta.loopStep] at h

/-- The list does not look at the flush that ended last. -/
lemma of_tick {e : Event} {c : Core} (h : Effect E { s with ended := none } e c) : Effect E s e c := by
  cases h with
  | quiet _ he => exact .quiet e he
  | commit c record store h => exact .commit c record store h
  | begin _ o he h1 h2 h3 h4 => exact .begin e o he h1 h2 h3 h4
  | sized o batch outcome h => exact .sized o batch outcome h
  | wrote o batch outcome h => exact .wrote o batch outcome h
  | framed o clock batch size framed h hf => exact .framed o clock batch size framed h hf
  | popped o clock batch h => exact .popped o clock batch h
  | failed o clock flight h hno => exact .failed o clock flight h hno
  | stray batch strays outcome h => exact .stray batch strays outcome h
  | cancelled survives clock h => exact .cancelled survives clock h
  | restarted survives clock h h1 h2 h3 => exact .restarted survives clock h h1 h2 h3
  | snapshot sn framed outcome h hf => exact .snapshot sn framed outcome h hf
  | unborn a h1 h2 => exact .unborn a h1 h2
  | created a current record store h1 h2 h3 h => exact .created a current record store h1 h2 h3 h
  | unread a h1 h2 h3 => exact .unread a h1 h2 h3
  | loaded a rr state store h1 h2 h3 h4 h => exact .loaded a rr state store h1 h2 h3 h4 h
  | reloaded a rr state store h1 h2 h3 h4 h h5 h6 h7 =>
    exact .reloaded a rr state store h1 h2 h3 h4 h h5 h6 h7

end Effect

/-- **What an event does to the shared data.** -/
theorem step_effect {s s' : State} {e : Event} (hs : Control s) (h : step E s e = some s') :
    Effect E s e s'.core := by
  have hs0 : Control { s with ended := none } := hs.congr rfl rfl rfl rfl rfl fun _ h => h
  unfold step at h
  dsimp only at h
  apply Effect.of_tick
  split at h
  · exact .work h
  · exact .workStray h
  · rename_i hsn
    obtain rfl := Option.some.inj h
    exact .writeSnapshot hsn
  · simp at h
  · exact .loopStep hs0 h

end Kanta
