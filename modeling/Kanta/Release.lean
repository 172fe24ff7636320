import Kanta.Entering

/-!
# Out of the with-statement

`Block` is the with-statement around an instance: `__aenter__`, the events inside, and `__aexit__`, which
runs only after an `__aenter__` that has returned.  `Move` lists what a step does to the places of
`open`, `close` and the background task.  `released_iff` says that the lock is released behind the
with-statement exactly when every step has met its condition: no stage without a handler has failed, and
neither `close` nor the background task has raised.
-/

namespace Kanta

open Kanta.Lib Kanta.Lib.Assoc Kanta.Lib.Lts

variable {D : Type}

/-! ### What a coroutine meets -/

/-- How `flush` reports what its jobs and its frames raise. -/
def Exc.reported : Exc → Exc
  | .osError => .databaseError "Failed to flush database" (some "OSError")
  | e => e

/-- The background task has raised. -/
def Background.Raised : Background → Prop
  | .raised _ => True
  | _ => False

/-- What a flush comes to behind one of its jobs. -/
inductive Verdict where
  /-- Another job. -/
  | pending
  | failed (e : Exc)
  /-- So many records are written. -/
  | done (count : ℕ)

section

variable (E : Env)

namespace State

/-- What the flush of `o` comes to behind its job. -/
def verdict (s : State) (o : Owner) : Verdict :=
  match s.core.flights.lookup o with
  | some (.sizing batch (some (.ok size))) =>
    match frameBatch E s.core.framer size batch with
    | .ok _ => .pending
    | .error e => .failed e.reported
  | some (.writing batch (some (.ok ()))) =>
    if batch.length ≤ s.core.store.pending.length then .done batch.length else .failed .indexError
  | some (.sizing _ (some (.error e))) => .failed e.reported
  | some (.writing _ (some (.error e))) => .failed e.reported
  | _ => .pending

/-- What the flush of `o` raises behind its job. -/
def flushRaises (s : State) (o : Owner) : Option Exc :=
  match s.verdict E o with
  | .failed e => some e
  | _ => none

/-- The same, with the clock of the snapshot that follows. -/
def raises (s : State) (o : Owner) (clock : Except Exc DateTime) : Option Exc :=
  match s.verdict E o with
  | .pending => none
  | .failed e => some e
  | .done count => raisedBy ((s.snapshot.recordChanges count).due E.minDiffs clock)

/-- What a flush that has just begun raises with the snapshot that follows: the clock, when there is
nothing to write. -/
def beginRaises (s : State) (clock : Except Exc DateTime) : Option Exc :=
  if s.flushFailed ∨ s.core.store.pending = [] then raisedBy (s.snapshot.due E.minDiffs clock) else none

end State

/-- **The condition on a step**: neither `open` nor `close` raises, and the background task raises nothing
but a `DatabaseError`, and that not in the flush that its cancellation asks for. -/
def Sound (s : State) : Event → Prop
  | .resume .background clock =>
    ∀ e, s.raises E .background clock = some e → s.background = .flushing ∧ e.isDatabaseError = true
  | .resume .opening clock => s.raises E .opening clock = none
  | .resume .closing _ => s.flushRaises E .closing = none
  | .wake clock => ∀ e, s.beginRaises E clock = some e → e.isDatabaseError = true
  | .deliver _ clock => s.background = .sleeping ∨ s.background = .flushing → s.beginRaises E clock = none
  | _ => True

/-! ### The with-statement -/

/-- Where the with-statement is. -/
inductive Stage where
  | outside
  | entering
  | inside
  | leaving
  | left
deriving DecidableEq

/-- A with-statement and its instance. -/
structure Block where
  state : State
  stage : Stage

namespace Block

inductive Event (D : Type) where
  /-- `__aenter__` -/
  | enter (a : Entrance D)
  /-- `__aexit__` -/
  | leave (clock : Except Exc DateTime)
  /-- Anything but another `open` or `close`. -/
  | other (e : Kanta.Event)

/-- A with-statement over a fresh instance. -/
def start (statedict : Dict) (version : ℤ) (framer : Framer) (file : Bytes) : Block :=
  ⟨.init statedict version framer file, .outside⟩

/-- Behind a step: without a background task, `__aenter__` has raised. -/
def after (stage : Stage) (s : State) : Block where
  state := s
  stage :=
    match stage with
    | .entering =>
      if (s.core.flights.lookup .opening).isSome ∨ s.snapping.isSome then .entering
      else if s.background.isAbsent then .left
      else .inside
    | .leaving => if s.closing = .idle then .left else .leaving
    | stage => stage

variable (hooks : Hooks D) (bare : BareEncoder)

/-- One event. -/
def step (b : Block) : Event D → Option Block
  | .enter a => if b.stage = .outside then (b.state.enter E hooks bare a).map (after .entering) else none
  | .leave clock => if b.stage = .inside then (Kanta.step E b.state (.close clock)).map (after .leaving) else none
  | .other e =>
    if b.stage = .outside ∨ e.isOpen ∨ e.isClose then none else (Kanta.step E b.state e).map (after b.stage)

/-- The condition on a step of the with-statement. -/
def Sound (b : Block) : Event D → Prop
  | .enter a => Admits E hooks bare b.state a
  | .leave _ => True
  | .other e => Kanta.Sound E b.state e

end Block

end

/-! ### Places -/

/-- Where `open`, `close`, the background task and a snapshot are. -/
structure Places where
  opened : Bool
  isOpen : Bool
  background : Background
  closing : Closing
  snapping : Option Snapping
  /-- Whether they have no flush in flight. -/
  flights : Bool × Bool × Bool

namespace State

def places (s : State) : Places where
  opened := s.opened
  isOpen := s.isOpen
  background := s.background
  closing := s.closing
  snapping := s.snapping
  flights := ((s.core.flights.lookup .background).isNone, (s.core.flights.lookup .opening).isNone,
    (s.core.flights.lookup .closing).isNone)

variable {s s' : State}

lemma flight_of_places (h : s'.places = s.places) {o : Owner} (ho : ∀ n, o ≠ .call n) :
    s'.core.flights.lookup o = none ↔ s.core.flights.lookup o = none := by
  have hflights := congrArg Places.flights h
  simp only [places, Prod.mk.injEq] at hflights
  obtain ⟨h1, h2, h3⟩ := hflights
  rw [← Option.isNone_iff_eq_none, ← Option.isNone_iff_eq_none]
  cases o with
  | background => rw [h1]
  | opening => rw [h2]
  | closing => rw [h3]
  | call n => exact absurd rfl (ho n)

lemma quiet_of_places (h : s'.places = s.places) (hq : s.Quiet) : s'.Quiet :=
  ⟨(congrArg Places.snapping h).trans hq.1, (flight_of_places h (by simp)).mpr hq.2.1,
    (flight_of_places h (by simp)).mpr hq.2.2.1, (flight_of_places h (by simp)).mpr hq.2.2.2⟩

/-- The flushes of the three stay in flight, or out of it. -/
lemma places_eq (h1 : s'.opened = s.opened) (h2 : s'.isOpen = s.isOpen) (h3 : s'.background = s.background)
    (h4 : s'.closing = s.closing) (h5 : s'.snapping = s.snapping)
    (h : ∀ o, (∀ n, o ≠ .call n) → (s'.core.flights.lookup o).isNone = (s.core.flights.lookup o).isNone) :
    s'.places = s.places := by
  simp only [places, h1, h2, h3, h4, h5, h .background (by simp), h .opening (by simp), h .closing (by simp)]

/-- A flush that stays in flight. -/
lemma places_put {o : Owner} {f : Flight} {core : Core} (ho : s.core.flights.lookup o ≠ none)
    (hcore : core.flights = put o f s.core.flights) : ({ s with core := core } : State).places = s.places := by
  refine places_eq rfl rfl rfl rfl rfl fun o' _ => ?_
  dsimp only
  rw [hcore, lookup_put]
  split
  · rename_i h
    rw [h, Option.isNone_some, eq_comm, Option.isNone_eq_false_iff, Option.isSome_iff_ne_none]
    exact ho
  · rfl

end State

/-! ### What a step does to them -/

/-- A step that leaves the flush of a coroutine behind it. -/
structure Lands (E : Env) (s : State) (o : Owner) (clock : Except Exc DateTime) (t : State) (r : Except Exc Unit) :
    Prop where
  opened : t.opened = s.opened
  isOpen : t.isOpen = s.isOpen
  background : t.background = s.background
  closing : t.closing = s.closing
  snapping : t.snapping = s.snapping
  flights : t.core.flights = remove o s.core.flights
  raises : raisedBy r = s.flushRaises E o
  clock : r = .ok () → raisedBy (t.snapshot.due E.minDiffs clock) = s.raises E o clock

/-- An error of the flush is what the step raises. -/
lemma Lands.raises_error {E : Env} {s t : State} {o : Owner} {clock : Except Exc DateTime} {r : Except Exc Unit}
    (h : Lands E s o clock t r) (e : Exc) (he : r = .error e) : s.raises E o clock = some e := by
  have hraises := h.raises
  rw [he, State.flushRaises] at hraises
  rw [State.raises]
  split at hraises
  · simp [‹s.verdict E o = _›, ← hraises, raisedBy]
  · simp [raisedBy] at hraises

/-- The background task begins a flush. -/
structure Departs (s : State) (b : Background) (t : State) : Prop where
  opened : t.opened = s.opened
  background : t.background = b
  closing : t.closing = s.closing
  raises : ∀ E clock, t.beginRaises E clock = s.beginRaises E clock

/-- What a step does to the places, other than another `open` or `close`. -/
inductive Move (E : Env) (s : State) : Event → State → Prop
  /-- A transaction, a caller, a worker thread, or a flush that has its frames. -/
  | beside {e : Event} {s' : State} (h : s'.places = s.places) (hsound : Sound E s e) : Move E s e s'
  /-- A flush is over. -/
  | lands (o : Owner) (clock : Except Exc DateTime) (t : State) (r : Except Exc Unit) (ho : ∀ n, o ≠ .call n)
      (hflight : s.core.flights.lookup o ≠ none) (hsnapping : s.snapping = none) (ht : Lands E s o clock t r) :
      Move E s (.resume o clock) (t.afterFlush E o r clock)
  /-- The background task goes on without a flush. -/
  | goes (e : Event) (t : State) (b : Background) (hb : b = .sleeping ∨ b = .finished)
      (h : s.background = .ready ∨ s.background = .reporting) (ht : t.places = { s.places with background := b })
      (hsound : Sound E s e) : Move E s e t
  /-- The background task wakes up. -/
  | wakes (clock : Except Exc DateTime) (t : State) (h : s.background = .sleeping) (ht : Departs s .flushing t) :
      Move E s (.wake clock) (t.startFlush E .background clock)
  /-- The cancellation reaches the background task. -/
  | handles (survives : Bool) (clock : Except Exc DateTime) (t : State)
      (h : s.background = .sleeping ∨ s.background = .flushing) (ht : Departs s .handling t) :
      Move E s (.deliver survives clock) (t.startFlush E .background clock)
  /-- `close` goes on behind the background task. -/
  | joins (clock : Except Exc DateTime) (t : State) (s' : State) (hs : Control s → Control t)
      (hsnapping : t.snapping = none) (ht : t.places = s.places) (h : t.join E clock = some s') :
      Move E s (.join clock) s'
  /-- A snapshot is over. -/
  | snaps (outcome : Outcome) (sn : Snapping) (t : State) (h : s.snapping = some sn)
      (ht : t.places = { s.places with snapping := none }) : Move E s (.snapshotWrite outcome) (t.andThen sn.next)

variable {E : Env} {s s' : State}

namespace Move

lemma call {n : ℕ} {clock : Except Exc DateTime} : Move E s (.call n clock) (s.startFlush E (.call n) clock) := by
  refine .beside ?_ trivial
  unfold State.startFlush
  split
  · rfl
  · split
    · rfl
    · split
      · rfl
      · refine State.places_eq rfl rfl rfl rfl rfl fun o ho => ?_
        dsimp only
        rw [lookup_put, if_neg (ho n)]

lemma failFlush {o : Owner} {e : Exc} {clock : Except Exc DateTime} (hflight : s.core.flights.lookup o ≠ none)
    (hsn : s.snapping = none) (hverdict : s.verdict E o = .failed e.reported) :
    Move E s (.resume o clock) (s.failFlush E o e clock) := by
  have hraises : s.flushRaises E o = some e.reported := by rw [State.flushRaises, hverdict]
  by_cases ho : ∃ n, o = .call n
  · obtain ⟨n, rfl⟩ := ho
    refine .beside ?_ trivial
    have hflights : ∀ o, (∀ n, o ≠ .call n) →
        ((remove (.call n) s.core.flights).lookup o).isNone = (s.core.flights.lookup o).isNone := by
      intro o ho
      rw [lookup_remove, if_neg (ho n)]
    unfold State.failFlush
    split <;> exact State.places_eq rfl rfl rfl rfl rfl hflights
  · rw [not_exists] at ho
    unfold State.failFlush
    split
    · exact .lands o clock _ _ ho hflight hsn ⟨rfl, rfl, rfl, rfl, rfl, rfl, hraises.symm, fun h => by simp at h⟩
    · rename_i hne
      have he : e.reported = e := by
        unfold Exc.reported
        split
        · exact (hne rfl).elim
        · rfl
      rw [he] at hraises
      exact .lands o clock _ _ ho hflight hsn ⟨rfl, rfl, rfl, rfl, rfl, rfl, hraises.symm, fun h => by simp at h⟩

lemma popBatch {o : Owner} {batch : List (Queued × Bytes)} {clock : Except Exc DateTime}
    (hflight : s.core.flights.lookup o = some (.writing batch (some (.ok ())))) (hsn : s.snapping = none) :
    Move E s (.resume o clock) (s.popBatch E o batch.length clock) := by
  have hverdict : s.verdict E o =
      if batch.length ≤ s.core.store.pending.length then .done batch.length else .failed .indexError := by
    rw [State.verdict, hflight]
  by_cases ho : ∃ n, o = .call n
  · obtain ⟨n, rfl⟩ := ho
    refine .beside (State.places_eq rfl rfl rfl rfl rfl fun o ho => ?_) trivial
    rw [State.popBatch_core]
    dsimp only
    rw [lookup_remove, if_neg (ho n)]
  · rw [not_exists] at ho
    refine .lands o clock _ _ ho (by simp [hflight]) hsn ⟨rfl, rfl, rfl, rfl, rfl, rfl, ?_, ?_⟩
    · rw [State.flushRaises, hverdict]
      split <;> rfl
    · intro h
      rw [State.raises, hverdict]
      split at h
      · rw [if_pos ‹_›]
      · simp at h

lemma resumeFlush {o : Owner} {clock : Except Exc DateTime} (hsn : s.snapping = none)
    (h : s.resumeFlush E o clock = some s') : Move E s (.resume o clock) s' := by
  unfold State.resumeFlush at h
  split at h
  · rename_i batch size hl
    split at h
    · rename_i framed hframed
      obtain rfl := Option.some.inj h
      have hverdict : s.verdict E o = .pending := by rw [State.verdict, hl]; simp only [hframed]
      refine .beside (State.places_put (by simp [hl]) rfl) ?_
      cases o with
      | call n => trivial
      | background =>
        intro e he
        simp [State.raises, hverdict] at he
      | opening => rw [Sound, State.raises, hverdict]
      | closing => rw [Sound, State.flushRaises, hverdict]
    · rename_i e hframed
      obtain rfl := Option.some.inj h
      exact .failFlush (by simp [hl]) hsn (by rw [State.verdict, hl]; simp only [hframed])
  · rename_i batch hl
    obtain rfl := Option.some.inj h
    exact .popBatch hl hsn
  · rename_i hl
    obtain rfl := Option.some.inj h
    exact .failFlush (by simp [hl]) hsn (by rw [State.verdict, hl])
  · rename_i hl
    obtain rfl := Option.some.inj h
    exact .failFlush (by simp [hl]) hsn (by rw [State.verdict, hl])
  · simp at h

lemma work {o : Owner} {outcome : Outcome} (h : s.work o outcome = some s') : Move E s (.work o outcome) s' := by
  refine .beside ?_ trivial
  unfold State.work at h
  split at h
  · rename_i hl
    obtain rfl := Option.some.inj h
    exact State.places_put (by simp [hl]) rfl
  · rename_i hl
    obtain rfl := Option.some.inj h
    exact State.places_put (by simp [hl]) rfl
  · simp at h

lemma workStray {outcome : Outcome} (h : s.workStray outcome = some s') : Move E s (.stray outcome) s' := by
  refine .beside ?_ trivial
  unfold State.workStray at h
  split at h
  · simp at h
  · obtain rfl := Option.some.inj h
    refine State.places_eq rfl rfl rfl rfl rfl fun o _ => ?_
    dsimp only
    rw [Core.write_flights]

lemma deliver {survives : Bool} {clock : Except Exc DateTime} (h : s.deliver E survives clock = some s') :
    Move E s (.deliver survives clock) s' := by
  unfold State.deliver at h
  split at h
  · dsimp only at h
    split at h
    · rename_i hb
      obtain rfl := Option.some.inj h
      exact .goes _ _ .finished (Or.inr rfl) (Or.inl hb) rfl fun h => by simp [hb] at h
    · rename_i hb
      obtain rfl := Option.some.inj h
      exact .handles survives clock _ (Or.inl hb) ⟨rfl, rfl, rfl, fun _ _ => rfl⟩
    · rename_i hb
      obtain rfl := Option.some.inj h
      exact .handles survives clock _ (Or.inr hb) ⟨rfl, rfl, rfl, fun _ _ => rfl⟩
    · rename_i hb
      obtain rfl := Option.some.inj h
      exact .goes _ _ .finished (Or.inr rfl) (Or.inr hb) rfl fun h => by simp [hb] at h
    · simp at h
  · simp at h

lemma writeSnapshot {sn : Snapping} {outcome : Outcome} (hsn : s.snapping = some sn) :
    Move E s (.snapshotWrite outcome) (s.writeSnapshot E sn outcome) := by
  have hplaces : ∀ core snapshot, core.flights = s.core.flights →
      ({ s with snapping := none, core := core, snapshot := snapshot } : State).places =
        { s.places with snapping := none } := by
    intro core snapshot hcore
    simp only [State.places, hcore]
  unfold State.writeSnapshot
  dsimp only
  split
  · exact .snaps outcome sn _ hsn (hplaces _ _ rfl)
  · rename_i framed hframed
    have hflights := s.core.write_flights s.isOpen [.snapshot sn.snap framed] outcome
    split <;> rename_i hw <;> rw [hw] at hflights <;> exact .snaps outcome sn _ hsn (hplaces _ _ hflights)

lemma loopStep {e : Event} (hsn : s.snapping = none) (ho : e.isOpen = false)
    (hc : e.isClose = false) (h : Kanta.loopStep E s e = some s') : Move E s e s' := by
  cases e with
  | commit c =>
    simp only [Kanta.loopStep] at h
    split at h
    · obtain rfl := Option.some.inj h
      exact .beside rfl trivial
    · simp at h
  | call n clock =>
    simp only [Kanta.loopStep] at h
    split at h
    · simp at h
    · obtain rfl := Option.some.inj h
      exact .call
  | resume o clock =>
    simp only [Kanta.loopStep] at h
    split at h
    · simp at h
    · exact .resumeFlush hsn h
  | start =>
    simp only [Kanta.loopStep] at h
    split at h
    · rename_i hb _
      obtain rfl := Option.some.inj h
      exact .goes _ _ .sleeping (Or.inl rfl) (Or.inl hb) rfl trivial
    · simp at h
  | wake clock =>
    simp only [Kanta.loopStep] at h
    split at h
    · rename_i hb _
      obtain rfl := Option.some.inj h
      exact .wakes clock _ hb ⟨rfl, rfl, rfl, fun _ _ => rfl⟩
    · simp at h
  | deliver survives clock => exact .deliver h
  | reported =>
    simp only [Kanta.loopStep] at h
    split at h
    · rename_i hb _
      obtain rfl := Option.some.inj h
      exact .goes _ _ .finished (Or.inr rfl) (Or.inr hb) rfl trivial
    · simp at h
  | request =>
    obtain rfl := Option.some.inj h
    exact .beside rfl trivial
  | join clock => exact .joins clock s s' id hsn rfl h
  | close | «open» => simp [Event.isOpen, Event.isClose] at ho hc
  | work | stray | snapshotWrite => simp [Kanta.loopStep] at h

/-- The list does not look at the flush that ended last. -/
lemma of_tick {e : Event} (h : Move E { s with ended := none } e s') : Move E s e s' := by
  cases h with
  | beside h hsound => exact .beside h hsound
  | lands o clock t r ho hflight hsn ht =>
    exact .lands o clock t r ho hflight hsn ⟨ht.1, ht.2, ht.3, ht.4, ht.5, ht.6, ht.7, ht.8⟩
  | goes _ _ b hb h ht hsound => exact .goes e s' b hb h ht hsound
  | wakes clock t h ht => exact .wakes clock t h ⟨ht.1, ht.2, ht.3, ht.4⟩
  | handles survives clock t h ht => exact .handles survives clock t h ⟨ht.1, ht.2, ht.3, ht.4⟩
  | joins clock t _ hs hsn ht h =>
    exact .joins clock t s' (fun h => hs (h.congr rfl rfl rfl rfl rfl fun _ h => h)) hsn ht h
  | snaps outcome sn t h ht => exact .snaps outcome sn t h ht

end Move

/-- **What a step does to the places.** -/
theorem step_move {e : Event} (ho : e.isOpen = false) (hc : e.isClose = false) (h : step E s e = some s') :
    Move E s e s' := by
  unfold step at h
  dsimp only at h
  apply Move.of_tick
  split at h
  · exact .work h
  · exact .workStray h
  · rename_i hsn
    obtain rfl := Option.some.inj h
    exact .writeSnapshot hsn
  · simp at h
  · rename_i hsn
    exact .loopStep hsn ho hc h

/-! ### The background task -/

/-- The background task goes on or is over, and `raises` says whether it has raised. -/
structure Proceeds (s s' : State) (raises : Prop) : Prop where
  opened : s'.opened = s.opened
  closing : s'.closing = s.closing
  background : s'.background ≠ .absent
  raised : s'.background.Raised ↔ raises

namespace Proceeds

lemma congr {p q : Prop} (h : Proceeds s s' p) (hpq : p ↔ q) : Proceeds s s' q := propext hpq ▸ h

lemma trans {t : State} {p q : Prop} (h : Proceeds s t p) (h' : Proceeds t s' q) : Proceeds s s' q :=
  ⟨h'.opened.trans h.opened, h'.closing.trans h.closing, h'.background, h'.raised⟩

/-- The background task stays where it is. -/
lemma same (h1 : s'.opened = s.opened) (h2 : s'.closing = s.closing) (h3 : s'.background = s.background)
    (hb : s.background ≠ .absent) : Proceeds s s' s.background.Raised :=
  ⟨h1, h2, h3 ▸ hb, by rw [h3]⟩

/-- The background task goes where it has not raised. -/
lemma goes {b : Background} (h : s' = { s with background := b }) (hb : b ≠ .absent) (hno : ¬b.Raised) :
    Proceeds s s' False := by
  subst h
  exact ⟨rfl, rfl, hb, iff_of_false hno id⟩

/-- What the background task raises while it flushes is handled when it is a `DatabaseError`. -/
lemma flushes {e : Exc} (h : s' = { s with background := if e.isDatabaseError then .reporting else .raised e }) :
    Proceeds s s' (e.isDatabaseError = false) := by
  subst h
  cases he : e.isDatabaseError with
  | true => exact ⟨rfl, rfl, by simp, by simp [Background.Raised]⟩
  | false => exact ⟨rfl, rfl, by simp, by simp [Background.Raised]⟩

/-- What it raises behind its cancellation is not. -/
lemma stops {e : Exc} (h : s' = { s with background := .raised e }) : Proceeds s s' True := by
  subst h
  exact ⟨rfl, rfl, by simp, by simp [Background.Raised]⟩

end Proceeds

/-- The background task behind a flush that has raised nothing. -/
lemma proceeds_maybeSnapshot {next : Next} (clock : Except Exc DateTime) (hb : s.background ≠ .absent)
    (hno : ¬s.background.Raised) :
    (next = .sleep → Proceeds s (s.maybeSnapshot E next clock)
      (∃ e, raisedBy (s.snapshot.due E.minDiffs clock) = some e ∧ e.isDatabaseError = false)) ∧
    (next = .finish → Proceeds s (s.maybeSnapshot E next clock)
      (∃ e, raisedBy (s.snapshot.due E.minDiffs clock) = some e)) := by
  rcases s.maybeSnapshot_cases (E := E) next clock with ⟨e, hdue, heq⟩ | ⟨hdue, heq⟩
  · constructor <;> rintro rfl
    · exact (Proceeds.flushes heq).congr (by simp [hdue])
    · exact (Proceeds.stops heq).congr (by simp [hdue])
  · have hgoes : next ≠ .spawn → Proceeds s (s.maybeSnapshot E next clock) False := by
      intro hnext
      rcases heq with heq | ⟨sn, -, heq⟩
      · cases next with
        | sleep => exact .goes heq (by simp) (by simp [Background.Raised])
        | finish => exact .goes heq (by simp) (by simp [Background.Raised])
        | spawn => exact absurd rfl hnext
      · rw [heq]
        exact ⟨rfl, rfl, hb, iff_of_false hno id⟩
    constructor <;> rintro rfl <;> exact (hgoes (by simp)).congr (by simp [hdue])

/-- What the flush of the background task raises escapes: only a `DatabaseError` is handled, and that not
behind the cancellation. -/
def Background.Escapes (b : Background) (raises : Option Exc) : Prop :=
  ∃ e, raises = some e ∧ (b = .flushing → e.isDatabaseError = false)

/-- The background task behind its flush. -/
lemma proceeds_afterFlush {r : Except Exc Unit} (clock : Except Exc DateTime) {raises : Option Exc}
    (hb : s.background = .flushing ∨ s.background = .handling) (herror : ∀ e, r = .error e → raises = some e)
    (hok : r = .ok () → raises = raisedBy (s.snapshot.due E.minDiffs clock)) :
    Proceeds s (s.afterFlush E .background r clock) (s.background.Escapes raises) := by
  have hne : s.background ≠ .absent := by rcases hb with hb | hb <;> simp [hb]
  have hno : ¬s.background.Raised := by rcases hb with hb | hb <;> simp [hb, Background.Raised]
  have hended : Proceeds s { s with ended := some (.background, r) } s.background.Raised := .same rfl rfl rfl hne
  unfold State.afterFlush
  dsimp only
  split
  · rename_i hflushing
    have hgoes := hended.trans ((proceeds_maybeSnapshot (E := E) clock (by exact hne) (by exact hno)).1 rfl)
    exact hgoes.congr (by simp [Background.Escapes, hflushing, hok rfl])
  · rename_i e hflushing
    refine (hended.trans (Proceeds.flushes (e := e) rfl)).congr ?_
    simp [Background.Escapes, hflushing, herror e rfl]
  · rename_i hnot
    have hgoes := hended.trans ((proceeds_maybeSnapshot (E := E) clock (by exact hne) (by exact hno)).2 rfl)
    exact hgoes.congr (by simp [Background.Escapes, hb.resolve_left hnot, hok rfl])
  · rename_i e hnot
    refine (hended.trans (Proceeds.stops (e := e) rfl)).congr ?_
    simp [Background.Escapes, hb.resolve_left hnot, herror e rfl]

/-- The background task begins a flush. -/
lemma proceeds_startFlush (clock : Except Exc DateTime) (hopen : s.opened = true)
    (hb : s.background = .flushing ∨ s.background = .handling) :
    Proceeds s (s.startFlush E .background clock) (s.background.Escapes (s.beginRaises E clock)) := by
  have hafter : ∀ clock, Proceeds s (s.afterFlush E .background (.ok ()) clock)
      (s.background.Escapes (raisedBy (s.snapshot.due E.minDiffs clock))) := fun clock =>
    proceeds_afterFlush clock hb (by simp) fun _ => rfl
  unfold State.startFlush State.beginRaises
  rw [if_neg (by simp [hopen])]
  split
  · rw [if_pos (Or.inl ‹_›)]
    exact hafter clock
  · split
    · rw [if_pos (Or.inr ‹_›)]
      exact hafter clock
    · rw [if_neg (not_or.mpr ⟨‹_›, ‹_›⟩)]
      refine ⟨rfl, rfl, ?_, iff_of_false ?_ ?_⟩
      · rcases hb with hb | hb <;> simp [hb]
      · rcases hb with hb | hb <;> simp [hb, Background.Raised]
      · rintro ⟨e, he, -⟩
        simp at he

/-- **A step beside the background task**: unless `close` goes on behind it, the task ends with an exception
exactly when it had, or when the step does not meet its condition. -/
theorem task_step {e : Event} (hs : Control s) (hopen : s.opened = true) (hback : s.background ≠ .absent)
    (h : Move E s e s') : Proceeds s s' (s.background.Raised ∨ ¬Sound E s e) ∨
      ∃ clock t, Control t ∧ t.snapping = none ∧ t.places = s.places ∧ Sound E s e ∧
        State.join E t clock = some s' := by
  cases h with
  | beside hplaces hsound =>
    refine Or.inl ((Proceeds.same (congrArg Places.opened hplaces) (congrArg Places.closing hplaces)
      (congrArg Places.background hplaces) hback).congr ?_)
    simp [hsound]
  | lands o clock t r ho hflight hsn ht =>
    have hawaits := hs.awaits o hflight
    cases o with
    | background =>
      have hb := hawaits.1
      have hno : ¬s.background.Raised := by rcases hb with hb | hb <;> simp [hb, Background.Raised]
      have hgoes := proceeds_afterFlush clock (ht.background ▸ hb) ht.raises_error fun hr => (ht.clock hr).symm
      refine Or.inl ⟨hgoes.opened.trans ht.opened, hgoes.closing.trans ht.closing, hgoes.background,
        hgoes.raised.trans ?_⟩
      rw [ht.background, or_iff_right hno]
      simp [Background.Escapes, Sound]
    | opening => exact absurd hawaits.2.2 hback
    | closing => exact absurd (hs.closing_alone hawaits) hback
    | call n => exact absurd rfl (ho n)
  | goes _ _ b hb h ht hsound =>
    have hb' : s'.background = b := congrArg Places.background ht
    refine Or.inl ⟨congrArg Places.opened ht, congrArg Places.closing ht, ?_, iff_of_false ?_ ?_⟩
    · rcases hb with rfl | rfl <;> simp [hb']
    · rcases hb with rfl | rfl <;> simp [hb', Background.Raised]
    · rcases h with h | h <;> simp [h, hsound, Background.Raised]
  | wakes clock t h ht =>
    have hgoes := proceeds_startFlush (E := E) clock (ht.opened.trans hopen) (Or.inl ht.background)
    refine Or.inl ⟨hgoes.opened.trans ht.opened, hgoes.closing.trans ht.closing, hgoes.background,
      hgoes.raised.trans ?_⟩
    simp [ht.raises, ht.background, h, Background.Escapes, Background.Raised, Sound]
  | handles survives clock t h ht =>
    have hgoes := proceeds_startFlush (E := E) clock (ht.opened.trans hopen) (Or.inr ht.background)
    refine Or.inl ⟨hgoes.opened.trans ht.opened, hgoes.closing.trans ht.closing, hgoes.background,
      hgoes.raised.trans ?_⟩
    have hno : ¬s.background.Raised := by rcases h with h | h <;> simp [h, Background.Raised]
    rw [or_iff_right hno]
    simp [ht.raises, ht.background, h, Background.Escapes, Sound, ← Option.ne_none_iff_exists']
  | joins clock t _ ht hsn hplaces h => exact Or.inr ⟨clock, t, ht hs, hsn, hplaces, trivial, h⟩
  | snaps outcome sn t h ht =>
    obtain ⟨hnext, -⟩ := hs.snapping sn h
    have ho : t.opened = s.opened := congrArg Places.opened ht
    have hc : t.closing = s.closing := congrArg Places.closing ht
    cases hsn : sn.next with
    | sleep =>
      rw [hsn] at hnext
      have hb : s.background = .flushing := hnext
      refine Or.inl ⟨ho, hc, by simp [State.andThen], ?_⟩
      simp [State.andThen, hb, Background.Raised, Sound]
    | finish =>
      rw [hsn] at hnext
      have hb : s.background = .handling := hnext
      refine Or.inl ⟨ho, hc, by simp [State.andThen], ?_⟩
      simp [State.andThen, hb, Background.Raised, Sound]
    | spawn =>
      rw [hsn] at hnext
      exact absurd hnext.2 hback

/-! ### `open` and `close` -/

lemma Lands.control {o : Owner} {clock : Except Exc DateTime} {t : State} {r : Except Exc Unit} (hs : Control s)
    (h : Lands E s o clock t r) : Control t := by
  refine hs.congr h.isOpen h.opened h.background h.closing h.snapping fun o' ho => ?_
  rw [h.flights, lookup_remove] at ho
  split at ho
  · exact absurd rfl ho
  · exact ho

/-- **A step while `open` waits** for its flush, or writes the snapshot behind it. -/
theorem entering_step {e : Event} (hs : Control s) (hs' : Control s') (hopen : s.opened = true)
    (hback : s.background = .absent) (hclosing : s.closing = .idle)
    (hwaits : s.core.flights.lookup .opening ≠ none ∨ s.snapping ≠ none) (h : Move E s e s') :
    Entered s' (Sound E s e) := by
  cases h with
  | beside hplaces hsound =>
    refine .waits hsound hs' ((congrArg Places.opened hplaces).trans hopen)
      ((congrArg Places.background hplaces).trans hback) ((congrArg Places.closing hplaces).trans hclosing) ?_
    have hsn : s'.snapping = s.snapping := congrArg Places.snapping hplaces
    rwa [ne_eq, State.flight_of_places hplaces (by simp), hsn]
  | lands o clock t r ho hflight hsn ht =>
    have hawaits := hs.awaits o hflight
    cases o with
    | background => simp [Owner.Awaits, hback] at hawaits
    | closing => simp [Owner.Awaits, hclosing] at hawaits
    | call n => exact absurd rfl (ho n)
    | opening =>
      have hbegun : Begun t := ⟨ht.opened.trans hopen, ht.background.trans hback, ht.closing.trans hclosing,
        ht.snapping.trans hsn, ht.control hs, by rw [ht.flights, lookup_remove, if_pos rfl]⟩
      cases r with
      | error e =>
        refine Begun.raised (hbegun.congr rfl rfl rfl rfl rfl rfl) ?_
        simp [Sound, ht.raises_error e rfl]
      | ok =>
        refine Begun.snapshot (hbegun.congr rfl rfl rfl rfl rfl rfl) ?_
        rw [Sound, ← ht.clock rfl]
  | goes _ _ b hb h => simp [hback] at h
  | wakes clock t h => simp [hback] at h
  | handles survives clock t h => simp [hback] at h
  | joins clock t _ _ _ ht h =>
    have hc : t.closing = s.closing := congrArg Places.closing ht
    simp [State.join, hc, hclosing] at h
  | snaps outcome sn t hsn ht =>
    obtain ⟨hnext, -, -, hopening, -⟩ := hs.snapping sn hsn
    have hflights := State.flight_of_places (s := { s with snapping := none }) ht (o := .opening) (by simp)
    cases hn : sn.next with
    | sleep => simp [hn, Next.Awaits, hback] at hnext
    | finish => simp [hn, Next.Awaits, hback] at hnext
    | spawn =>
      rw [hn] at hs'
      exact .ready trivial hs' ((congrArg Places.opened ht).trans hopen) rfl
        ((congrArg Places.closing ht).trans hclosing) (hflights.mpr hopening) (congrArg Places.snapping ht)

/-- Neither `open` nor `close` nor the background task will do anything more. -/
structure Still (s : State) : Prop where
  background : s.background = .absent ∨ s.background.Raised
  closing : s.closing = .idle
  quiet : s.Quiet

/-- **A step behind the with-statement.** -/
theorem still_step {e : Event} (hs : Still s) (h : Move E s e s') : s'.places = s.places ∧ Sound E s e := by
  have hno : ∀ b, s.background = b → b ≠ .absent → ¬b.Raised → False := by
    rintro b rfl habsent hraised
    exact hs.background.elim habsent hraised
  cases h with
  | beside hplaces hsound => exact ⟨hplaces, hsound⟩
  | lands o clock t r ho hflight =>
    cases o with
    | background => exact absurd hs.quiet.2.1 hflight
    | opening => exact absurd hs.quiet.2.2.1 hflight
    | closing => exact absurd hs.quiet.2.2.2 hflight
    | call n => exact absurd rfl (ho n)
  | goes _ _ b hb h => rcases h with h | h <;> exact (hno _ h (by simp) (by simp [Background.Raised])).elim
  | wakes clock t h => exact (hno _ h (by simp) (by simp [Background.Raised])).elim
  | handles survives clock t h =>
    rcases h with h | h <;> exact (hno _ h (by simp) (by simp [Background.Raised])).elim
  | joins clock t _ _ _ ht h =>
    have hc : t.closing = s.closing := congrArg Places.closing ht
    simp [State.join, hc, hs.closing] at h
  | snaps outcome sn t hsn ht => simp [hs.quiet.1] at hsn

lemma Still.of_places (hs : Still s) (h : s'.places = s.places) : Still s' := by
  have hb : s'.background = s.background := congrArg Places.background h
  exact ⟨hb ▸ hs.background, (congrArg Places.closing h).trans hs.closing, State.quiet_of_places h hs.quiet⟩

lemma released_of_places (h : s'.places = s.places) : Released s' ↔ Released s := by
  have h1 : s'.isOpen = s.isOpen := congrArg Places.isOpen h
  have h2 : s'.opened = s.opened := congrArg Places.opened h
  exact ⟨fun hr => ⟨h1 ▸ hr.isOpen, h2 ▸ hr.opened⟩, fun hr => ⟨h1 ▸ hr.isOpen, h2 ▸ hr.opened⟩⟩

/-- **A step while the last flush of `close` is in flight.** -/
theorem closing_step {e : Event} (hs : Control s) (hclosing : s.closing = .flushing)
    (hflight : s.core.flights.lookup .closing ≠ none) (h : Move E s e s') :
    (s'.places = s.places ∧ Sound E s e) ∨ (Still s' ∧ (Released s' ↔ Sound E s e)) := by
  have hback := hs.closing_alone hclosing
  have hopen : s.opened = true := hs.closing_opened (by simp [hclosing])
  cases h with
  | beside hplaces hsound => exact Or.inl ⟨hplaces, hsound⟩
  | lands o clock t r ho hflight hsn ht =>
    have hawaits := hs.awaits o hflight
    cases o with
    | background => simp [Owner.Awaits, hback] at hawaits
    | opening => simp [Owner.Awaits, hclosing] at hawaits
    | call n => exact absurd rfl (ho n)
    | closing =>
      have hquiet : t.Quiet := by
        have hfree := (ht.control hs).flight_none (o := .background) (by simp [Owner.Awaits, ht.background, hback])
        have hfree' := (ht.control hs).flight_none (o := .opening) (by simp [Owner.Awaits, ht.closing, hclosing])
        exact ⟨ht.snapping.trans hsn, hfree, hfree', by rw [ht.flights, lookup_remove, if_pos rfl]⟩
      have hb : t.background = .absent := ht.background.trans hback
      refine Or.inr ?_
      rw [Sound, ← ht.raises]
      cases r with
      | error e =>
        refine ⟨⟨Or.inl hb, rfl, hquiet⟩, iff_of_false (fun hr => ?_) (by simp [raisedBy])⟩
        exact Bool.false_ne_true (hr.opened.symm.trans (ht.opened.trans hopen))
      | ok => exact ⟨⟨Or.inl hb, rfl, hquiet⟩, iff_of_true ⟨rfl, rfl⟩ rfl⟩
  | goes _ _ b hb h => simp [hback] at h
  | wakes clock t h => simp [hback] at h
  | handles survives clock t h => simp [hback] at h
  | joins clock t _ _ _ ht h =>
    have hc : t.closing = s.closing := congrArg Places.closing ht
    simp [State.join, hc, hclosing] at h
  | snaps outcome sn t hsn ht => exact absurd (hs.snapping sn hsn).2.2.2.2 hflight

/-- The last part of `close` releases the lock, or awaits its flush. -/
lemma finalFlush_cases (clock : Except Exc DateTime) (hopen : s.opened = true) (hquiet : s.Quiet) :
    (Still (s.finalFlush E clock) ∧ Released (s.finalFlush E clock)) ∨
      ((s.finalFlush E clock).closing = .flushing ∧ (s.finalFlush E clock).core.flights.lookup .closing ≠ none) := by
  unfold State.finalFlush State.startFlush
  rw [if_neg (by simp [hopen])]
  split
  · exact Or.inl ⟨⟨Or.inl rfl, rfl, hquiet⟩, rfl, rfl⟩
  · split
    · exact Or.inl ⟨⟨Or.inl rfl, rfl, hquiet⟩, rfl, rfl⟩
    · exact Or.inr ⟨rfl, by simp⟩

/-! ### A run of the with-statement -/

/-- The instance at each stage of the with-statement, where `ok` says whether every step has met its
condition. -/
inductive Block.Holds : Block → Prop → Prop
  | outside {s : State} {ok : Prop} (hok : ok) (hback : s.background = .absent) (hclosing : s.closing = .idle)
      (hflights : s.core.flights = []) (hpending : s.core.store.pending = []) (hfailed : s.flushFailed = false) :
      Holds ⟨s, .outside⟩ ok
  | entering {s : State} {ok : Prop} (hok : ok) (hs : Control s) (hopen : s.opened = true)
      (hback : s.background = .absent) (hclosing : s.closing = .idle)
      (hwaits : s.core.flights.lookup .opening ≠ none ∨ s.snapping ≠ none) : Holds ⟨s, .entering⟩ ok
  | inside {s : State} {ok : Prop} (hs : Control s) (hopen : s.opened = true) (hback : s.background ≠ .absent)
      (hclosing : s.closing = .idle) (hraised : s.background.Raised ↔ ¬ok) : Holds ⟨s, .inside⟩ ok
  | joining {s : State} {ok : Prop} (hs : Control s) (hopen : s.opened = true) (hback : s.background ≠ .absent)
      (hclosing : s.closing = .joining) (hraised : s.background.Raised ↔ ¬ok) : Holds ⟨s, .leaving⟩ ok
  | flushing {s : State} {ok : Prop} (hok : ok) (hs : Control s) (hclosing : s.closing = .flushing)
      (hflight : s.core.flights.lookup .closing ≠ none) : Holds ⟨s, .leaving⟩ ok
  | left {s : State} {ok : Prop} (hstill : Still s) (hreleased : Released s ↔ ok) : Holds ⟨s, .left⟩ ok

namespace Block

/-- Behind `__aenter__`, or a step of it. -/
lemma holds_entered {ok : Prop} (h : Entered s ok) : Holds (after .entering s) ok := by
  unfold after
  cases h with
  | raised hback hclosing hquiet hreleased =>
    simp only [hquiet.1, hquiet.2.2.1, hback]
    exact .left ⟨Or.inl hback, hclosing, hquiet⟩ hreleased
  | waits hok hs hopen hback hclosing hwaits =>
    simp only [Option.isSome_iff_ne_none, hwaits, if_true]
    exact .entering hok hs hopen hback hclosing hwaits
  | ready hok hs hopen hback hclosing hflight hsn =>
    simp only [hflight, hsn, hback]
    exact .inside hs hopen (by simp [hback]) hclosing (by simp [hback, hok, Background.Raised])

/-- `close` behind the background task. -/
lemma holds_joined {clock : Except Exc DateTime} {ok : Prop} (hs : Control (s.finalFlush E clock))
    (hopen : s.opened = true) (hquiet : s.Quiet) (hok : ok) : Holds (after .leaving (s.finalFlush E clock)) ok := by
  unfold after
  rcases finalFlush_cases (E := E) clock hopen hquiet with ⟨hstill, hreleased⟩ | ⟨hclosing, hflight⟩
  · simp only [hstill.closing]
    exact .left hstill (iff_of_true hreleased hok)
  · simp only [hclosing]
    exact .flushing hok hs hclosing hflight

/-- `close` raises what the background task has raised. -/
lemma holds_unjoined {ok : Prop} (hs : Control s) (hsn : s.snapping = none) (hopen : s.opened = true)
    (hraised : s.background.Raised) (hclosing : s.closing = .idle) (hok : ¬ok) : Holds (after .leaving s) ok := by
  unfold after
  simp only [hclosing]
  have hback : ∀ o, (o = .background ∨ o = .opening ∨ o = .closing) → s.core.flights.lookup o = none := by
    intro o ho
    refine hs.flight_none ?_
    have hne : s.background ≠ .flushing ∧ s.background ≠ .handling ∧ s.background ≠ .absent := by
      refine ⟨?_, ?_, ?_⟩ <;> intro h <;> simp [h, Background.Raised] at hraised
    rcases ho with rfl | rfl | rfl <;> simp [Owner.Awaits, hne, hclosing]
  refine .left ⟨Or.inr hraised, hclosing, hsn, hback _ (by simp), hback _ (by simp), hback _ (by simp)⟩
    (iff_of_false (fun hr => ?_) hok)
  exact Bool.false_ne_true (hr.opened.symm.trans hopen)

lemma Holds.congr {b : Block} {p q : Prop} (h : b.Holds p) (hpq : p ↔ q) : b.Holds q := propext hpq ▸ h

/-- The background task is over, and so is its flush. -/
lemma quiet_finished {s : State} (hs : Control s) (hsn : s.snapping = none) (hb : s.background = .finished)
    (hclosing : s.closing ≠ .flushing) : s.Quiet :=
  ⟨hsn, hs.flight_none (by simp [Owner.Awaits, hb]), hs.flight_none (by simp [Owner.Awaits, hb]),
    hs.flight_none (by simpa [Owner.Awaits])⟩

/-- `close` up to its first `await`. -/
lemma holds_close {clock : Except Exc DateTime} {ok : Prop} (hs : Control s) (hs' : Control s')
    (hsn : s.snapping = none) (hopen : s.opened = true) (hback : s.background ≠ .absent) (hclosing : s.closing = .idle)
    (hraised : s.background.Raised ↔ ¬ok) (h : s.close E clock = some s') : Holds (after .leaving s') ok := by
  have hfree : s.core.flights.lookup .opening = none := hs.flight_none (by simp [Owner.Awaits, hback])
  unfold State.close at h
  rw [if_neg (by simp [hclosing, hfree]), if_neg (by simp [hopen])] at h
  split at h
  · exact absurd ‹_› hback
  · rename_i hb
    obtain rfl := Option.some.inj h
    refine holds_joined hs' hopen (quiet_finished hs hsn hb (by simp [hclosing])) ?_
    by_contra hok
    simpa [hb, Background.Raised] using hraised.mpr hok
  · rename_i e hb
    obtain rfl := Option.some.inj h
    have hr : s.background.Raised := by simp [hb, Background.Raised]
    exact holds_unjoined hs hsn hopen hr hclosing (hraised.mp hr)
  · obtain rfl := Option.some.inj h
    exact .joining hs' hopen hback rfl hraised

/-- `close` behind the background task. -/
lemma holds_join {clock : Except Exc DateTime} {ok : Prop} (hs : Control s) (hs' : Control s')
    (hsn : s.snapping = none) (hopen : s.opened = true) (hclosing : s.closing = .joining)
    (hraised : s.background.Raised ↔ ¬ok) (h : s.join E clock = some s') : Holds (after .leaving s') ok := by
  unfold State.join at h
  rw [if_pos hclosing] at h
  split at h
  · rename_i hb
    obtain rfl := Option.some.inj h
    refine holds_joined hs' hopen (quiet_finished hs hsn hb (by simp [hclosing])) ?_
    by_contra hok
    simpa [hb, Background.Raised] using hraised.mpr hok
  · rename_i e hb
    obtain rfl := Option.some.inj h
    have hr : s.background.Raised := by simp [hb, Background.Raised]
    exact holds_unjoined hs' hsn hopen hr rfl (hraised.mp hr)
  · simp at h

variable {hooks : Hooks D} {bare : BareEncoder}

lemma step_close {clock : Except Exc DateTime} (h : Kanta.step E s (.close clock) = some s') :
    s.snapping = none ∧ ({ s with ended := none } : State).close E clock = some s' := by
  have hsn : s.snapping = none := by
    by_contra hne
    obtain ⟨sn, hsn⟩ := Option.ne_none_iff_exists'.mp hne
    have hnone : Kanta.step E s (.close clock) = none := by
      cases s
      subst hsn
      rfl
    simp [hnone] at h
  refine ⟨hsn, ?_⟩
  rw [← h]
  cases s
  subst hsn
  rfl

/-- An event inside the with-statement. -/
lemma step_other {b b' : Block} {e : Kanta.Event} (h : b.step E hooks bare (.other e) = some b') :
    b.stage ≠ .outside ∧ e.isOpen = false ∧ e.isClose = false ∧
      ∃ s', Kanta.step E b.state e = some s' ∧ b' = after b.stage s' := by
  rw [step] at h
  split at h
  · simp at h
  · rename_i hno
    simp only [not_or, Bool.not_eq_true] at hno
    obtain ⟨s', hs', rfl⟩ := Option.map_eq_some_iff.mp h
    exact ⟨hno.1, hno.2.1, hno.2.2, s', hs', rfl⟩

/-- **A step of the with-statement.** -/
theorem holds_step (b : Block) (e : Event D) (b' : Block) (ok : Prop) (hb : b.Holds ok)
    (h : b.step E hooks bare e = some b') : b'.Holds (ok ∧ b.Sound E hooks bare e) := by
  cases e with
  | enter a =>
    rw [step] at h
    split at h
    · rename_i hstage
      obtain ⟨s', henter, rfl⟩ := Option.map_eq_some_iff.mp h
      cases hb with
      | outside hok hback hclosing hflights hpending hfailed =>
        refine (holds_entered (enter_spec hback hclosing hflights hpending hfailed henter)).congr ?_
        exact (and_iff_right hok).symm
      | _ => simp at hstage
    · simp at h
  | leave clock =>
    rw [step] at h
    split at h
    · rename_i hstage
      obtain ⟨s', hclose, rfl⟩ := Option.map_eq_some_iff.mp h
      cases hb with
      | @inside s _ hs hopen hback hclosing hraised =>
        obtain ⟨hsn, hclose'⟩ := step_close hclose
        have hs0 : Control { s with ended := none } := hs.congr rfl rfl rfl rfl rfl fun _ h => h
        rw [Sound, and_true]
        exact holds_close hs0 (hs.step hclose) hsn hopen hback hclosing hraised hclose'
      | _ => simp at hstage
    · simp at h
  | other e =>
    obtain ⟨hstage, hopen', hclose', s', hstep, rfl⟩ := step_other h
    cases hb with
    | outside => simp at hstage
    | entering hok hs hopen hback hclosing hwaits =>
      have hmove := step_move hopen' hclose' hstep
      refine (holds_entered (entering_step hs (hs.step hstep) hopen hback hclosing hwaits hmove)).congr ?_
      exact (and_iff_right hok).symm
    | inside hs hopen hback hclosing hraised =>
      rcases task_step hs hopen hback (step_move hopen' hclose' hstep) with hgoes | ⟨clock, t, -, -, ht, -, hjoin⟩
      · refine .inside (hs.step hstep) (hgoes.opened.trans hopen) hgoes.background (hgoes.closing.trans hclosing) ?_
        rw [hgoes.raised, hraised, not_and_or]
        rfl
      · have hc : t.closing = .idle := (congrArg Places.closing ht).trans hclosing
        simp [State.join, hc] at hjoin
    | @joining s _ hs hopen hback hclosing hraised =>
      rcases task_step hs hopen hback (step_move hopen' hclose' hstep) with
        hgoes | ⟨clock, t, hcontrol, hsn, ht, hsound, hjoin⟩
      · have hc := hgoes.closing.trans hclosing
        unfold after
        simp only [hc]
        refine .joining (hs.step hstep) (hgoes.opened.trans hopen) hgoes.background hc ?_
        rw [hgoes.raised, hraised, not_and_or]
        rfl
      · have hb : t.background = s.background := congrArg Places.background ht
        refine (holds_join hcontrol (hs.step hstep) hsn ((congrArg Places.opened ht).trans hopen)
          ((congrArg Places.closing ht).trans hclosing) (hb.symm ▸ hraised) hjoin).congr ?_
        exact (and_iff_left hsound).symm
    | flushing hok hs hclosing hflight =>
      rcases closing_step hs hclosing hflight (step_move hopen' hclose' hstep) with ⟨hplaces, hsound⟩ | ⟨hstill, hiff⟩
      · have hc : s'.closing = .flushing := (congrArg Places.closing hplaces).trans hclosing
        unfold after
        simp only [hc]
        refine .flushing ⟨hok, hsound⟩ (hs.step hstep) hc ?_
        rwa [ne_eq, State.flight_of_places hplaces (by simp)]
      · unfold after
        simp only [hstill.closing]
        exact .left hstill (hiff.trans (and_iff_right hok).symm)
    | left hstill hreleased =>
      obtain ⟨hplaces, hsound⟩ := still_step hstill (step_move hopen' hclose' hstep)
      refine .left (hstill.of_places hplaces) ((released_of_places hplaces).trans (hreleased.trans ?_))
      exact (and_iff_left hsound).symm

end Block

/-- **The lock behind the with-statement.**  Once it is left, the lock is released exactly when every step of
the run has met its condition. -/
theorem released_iff (hooks : Hooks D) (E : Env) (bare : BareEncoder) {statedict : Dict} {version : ℤ}
    {framer : Framer} {file : Bytes} {es : List (Block.Event D)} {b : Block}
    (h : run (Block.step E hooks bare) (.start statedict version framer file) es = some b) (hleft : b.stage = .left) :
    Released b.state ↔
      Along (Block.step E hooks bare) (Block.Sound E hooks bare) (.start statedict version framer file) es := by
  have hstart : (Block.start statedict version framer file).Holds True :=
    .outside trivial rfl rfl rfl rfl rfl
  have hb := run_along Block.holds_step hstart h
  cases hb with
  | left hstill hreleased => exact hreleased.trans (and_iff_right trivial)
  | _ => simp at hleft

namespace Sample

/-- The way into the with-statement without a failure. -/
def entrance : Entrance Dict where
  read := .ok ()
  rotation := none
  stamp _ := .ok ()
  data := state 0
  call := ⟨fun _ => (state 0, .ok ()), "bootstrap", none, .omit, .ok ts⟩

def block (file : Bytes) : Block := .start .empty 0 .line file

/-- No state is anything but a dict. -/
def noBare : BareEncoder := fun _ _ _ _ => .error (.typeError "not in the sample")

/-- The with-statement around one transaction, with the outcome of the last write. -/
def blockEvents (outcome : Outcome) : List (Block.Event Dict) :=
  [.enter entrance, .other (set 1), .leave (.ok ts), .other (.deliver true (.ok ts)), .other (.join (.ok ts)),
    .other (.work .closing .ok), .other (.resume .closing (.ok ts)), .other (.work .closing outcome),
    .other (.resume .closing (.ok ts))]

/-- A run through the with-statement, seen through the lock behind it. -/
lemma exists_block {file : Bytes} {es : List (Block.Event Dict)} {isOpen opened : Bool}
    (h : (run (Block.step (env 1000) plain noBare) (block file) es).map
      (fun b => (b.stage, b.state.isOpen, b.state.opened)) = some (.left, isOpen, opened)) :
    ∃ b, run (Block.step (env 1000) plain noBare) (block file) es = some b ∧ b.stage = .left ∧
      b.state.isOpen = isOpen ∧ b.state.opened = opened := by
  obtain ⟨b, hb, heq⟩ := Option.map_eq_some_iff.mp h
  simp only [Prod.mk.injEq] at heq
  exact ⟨b, hb, heq⟩

end Sample

open Sample in
/-- The with-statement around one transaction. -/
theorem released_after_commit : ∃ b, run (Block.step (env 1000) plain noBare) (block []) (blockEvents .ok) = some b ∧
    b.stage = .left ∧ Released b.state ∧ Along (Block.step (env 1000) plain noBare)
      (Block.Sound (env 1000) plain noBare) (block []) (blockEvents .ok) := by
  obtain ⟨b, hb, hleft, hopen, hopened⟩ := @exists_block [] (blockEvents .ok) false false (by decide +kernel)
  have hreleased : Released b.state := ⟨hopen, hopened⟩
  exact ⟨b, hb, hleft, hreleased, (released_iff plain (env 1000) noBare hb hleft).mp hreleased⟩

open Sample in
/-- **The lock is kept**: `replay` refuses the only line of a file, or the last flush of `close` fails. -/
theorem lock_kept :
    (∃ b, run (Block.step (env 1000) plain noBare) (block [120, 10]) [.enter entrance] = some b ∧ b.stage = .left ∧
      ¬Released b.state) ∧
    (∃ b, run (Block.step (env 1000) plain noBare) (block []) (blockEvents (.failed 0)) = some b ∧ b.stage = .left ∧
      ¬Released b.state) := by
  constructor
  · obtain ⟨b, hb, hleft, hopen, -⟩ := @exists_block [120, 10] [.enter entrance] true true (by decide +kernel)
    exact ⟨b, hb, hleft, fun hr => by simp [hr.isOpen] at hopen⟩
  · obtain ⟨b, hb, hleft, hopen, -⟩ := @exists_block [] (blockEvents (.failed 0)) true true (by decide +kernel)
    exact ⟨b, hb, hleft, fun hr => by simp [hr.isOpen] at hopen⟩

end Kanta
