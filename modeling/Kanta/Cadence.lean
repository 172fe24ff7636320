import Mathlib.Algebra.Order.BigOperators.Group.List
import Mathlib.Algebra.Order.Ring.Nat
import Kanta.Frozen
import Kanta.Life

/-!
# When snapshots are written

`SnapshotState` counts the changes since the last snapshot and knows its time.  A snapshot that nobody has
forced is written on a Sunday, after enough changes, and when the last one is from before that Sunday
(`snapshot_cadence`).  The count and the time are kept by `flush`, `maybe_write` and `open` at different
moments; that they agree with what the file holds is the invariant `PacedState`.
-/

namespace Kanta

open Kanta.Lib Kanta.Lib.Assoc Kanta.Lib.Lts

variable {E : Env}

/-! ### A snapshot that is due -/

namespace State

variable {t : State} {o : Owner} {clock : Except Exc DateTime} {sn : Snapping}

/-- A snapshot under way is one that was due. -/
lemma maybeSnapshot_due (hsn : t.snapping = none) {next : Next}
    (h : (t.maybeSnapshot E next clock).snapping = some sn) :
    t.snapshot.due E.minDiffs clock = .ok (some sn.snap.ts) := by
  unfold maybeSnapshot at h
  split at h
  · simp [hsn] at h
  · simp [hsn] at h
  · next ts hdue =>
    split at h
    · dsimp only at h
      split at h
      · simp [hsn] at h
      · obtain rfl := Option.some.inj h
        exact hdue
    · simp [hsn] at h

lemma afterFlush_due (hsn : t.snapping = none) {r : Except Exc Unit}
    (h : (t.afterFlush E o r clock).snapping = some sn) : t.snapshot.due E.minDiffs clock = .ok (some sn.snap.ts) := by
  have hnone : t.snapping ≠ some sn := by simp [hsn]
  cases o with
  | call | closing => cases r <;> exact absurd h hnone
  | opening =>
    cases r with
    | error => exact absurd h hnone
    | ok => exact maybeSnapshot_due (t := { t with ended := some (.opening, .ok ()) }) hsn h
  | background =>
    unfold afterFlush at h
    dsimp only at h
    split at h
    · exact maybeSnapshot_due (t := { t with ended := some (.background, .ok ()) }) hsn h
    · exact absurd h hnone
    · exact maybeSnapshot_due (t := { t with ended := some (.background, .ok ()) }) hsn h
    · exact absurd h hnone

lemma startFlush_due (hsn : t.snapping = none) (h : (t.startFlush E o clock).snapping = some sn) :
    t.snapshot.due E.minDiffs clock = .ok (some sn.snap.ts) := by
  unfold startFlush at h
  split at h
  · exact afterFlush_due hsn h
  · split at h
    · exact afterFlush_due hsn h
    · split at h
      · exact afterFlush_due hsn h
      · simp [hsn] at h

@[simp] lemma failFlush_snapshot (e : Exc) : (t.failFlush E o e clock).snapshot = t.snapshot := by
  unfold failFlush
  dsimp only
  split <;> simp

/-- Every snapshot under way is due. -/
def SnapsDue (E : Env) (s : State) : Prop :=
  ∀ sn, s.snapping = some sn → ∃ clock, s.snapshot.due E.minDiffs clock = .ok (some sn.snap.ts)

lemma snapsDue_of_none (h : t.snapping = none) : t.SnapsDue E := by
  intro sn hsn
  rw [h] at hsn
  cases hsn

lemma snapsDue_startFlush (hsn : t.snapping = none) : (t.startFlush E o clock).SnapsDue E := by
  intro sn h
  rw [startFlush_snapshot]
  exact ⟨clock, startFlush_due hsn h⟩

end State

/-! ### What a step does to the count and the time -/

/-- The background loop runs, or will run: it is from here that snapshots come. -/
def Awake (s : State) : Prop :=
  s.background ≠ .absent ∨ s.core.flights.lookup .opening ≠ none ∨ s.snapping ≠ none

/-- How the count and the time of `SnapshotState` go on. -/
inductive Tally (E : Env) (s : State) (e : Event) (s' : State) : Prop
  | kept (he : ∀ outcome, e ≠ .snapshotWrite outcome) (hc : s'.snapshot.changes = s.snapshot.changes)
      (ht : s'.snapshot.ts = s.snapshot.ts) (hopen : e.isOpen = true → s.core.file = [] ∨ ¬Awake s')
  /-- A flush counts what it has written. -/
  | popped (o : Owner) (clock : Except Exc DateTime) (batch : List (Queued × Bytes)) (he : e = .resume o clock)
      (hl : s.core.flights.lookup o = some (.writing batch (some (.ok ()))))
      (hflights : s'.core.flights = remove o s.core.flights) (hlog : s'.core.log = s.core.log)
      (hs : s'.snapshot = s.snapshot.recordChanges batch.length)
  /-- `open` takes the time over from the file. -/
  | loaded (a : Opening) (rr : ReplayResult) (he : e = .open a)
      (hrr : replay E.blake3 E.ser s.core.framer s.core.file = .ok rr)
      (hc : s'.snapshot.changes = s.snapshot.changes)
      (ht : s'.snapshot.ts = rr.lastSnapshot.map E.fromTimestamp)
  | written (outcome : Outcome) (sn : Snapping) (bytes : Bytes) (he : e = .snapshotWrite outcome)
      (hsn : s.snapping = some sn) (hlog : s'.core.log = s.core.log ++ [.snapshot sn.snap bytes])
      (hflights : s'.core.flights = s.core.flights) (hs : s'.snapshot = s.snapshot.written sn.snap.ts)
  /-- A snapshot cannot be framed, or its write fails. -/
  | unwritten (outcome : Outcome) (sn : Snapping) (he : e = .snapshotWrite outcome) (hsn : s.snapping = some sn)
      (hlog : recordsOf s'.core.log = recordsOf s.core.log) (hflights : s'.core.flights = s.core.flights)
      (hs : s'.snapshot = s.snapshot)

/-- A write appends all of its records or none. -/
lemma Core.write_records (c : Core) (isOpen : Bool) (entries : List Entry) (outcome : Outcome) :
    c.write isOpen entries outcome =
        ({ c with file := c.file ++ entries.flatMap Entry.bytes, log := c.log ++ entries }, .ok ()) ∨
      ∃ exc, (c.write isOpen entries outcome).2 = .error exc ∧
        recordsOf (c.write isOpen entries outcome).1.log = recordsOf c.log := by
  unfold Core.write
  split
  · cases outcome with
    | ok => exact Or.inl rfl
    | failed n => exact Or.inr ⟨_, rfl, by simp [recordsOf, Entry.record]⟩
  · exact Or.inr ⟨_, rfl, rfl⟩

namespace Tally

variable {s s' t : State} {o : Owner} {clock : Except Exc DateTime} {e : Event}

lemma same (he : ∀ outcome, e ≠ .snapshotWrite outcome) (ho : e.isOpen = false) (hc : s'.snapshot = s.snapshot) :
    Tally E s e s' :=
  .kept he (by rw [hc]) (by rw [hc]) (by simp [ho])

/-- A flush that starts. -/
lemma startFlush (he : ∀ outcome, e ≠ .snapshotWrite outcome) (ho : e.isOpen = false) (hc : t.snapshot = s.snapshot)
    (hsn : t.snapping = none) :
    Tally E s e (t.startFlush E o clock) ∧ (t.startFlush E o clock).SnapsDue E :=
  ⟨.same he ho ((State.startFlush_snapshot ..).trans hc), State.snapsDue_startFlush hsn⟩

lemma failFlush (hsn : s.snapping = none) (exc : Exc) :
    Tally E s (.resume o clock) (s.failFlush E o exc clock) ∧ (s.failFlush E o exc clock).SnapsDue E :=
  ⟨.same nofun rfl (State.failFlush_snapshot exc),
    State.snapsDue_of_none ((State.failFlush_snapping exc).trans hsn)⟩

/-- A flush that goes on. -/
lemma resumeFlush (hsn : s.snapping = none) (h : s.resumeFlush E o clock = some s') :
    Tally E s (.resume o clock) s' ∧ s'.SnapsDue E := by
  unfold State.resumeFlush at h
  split at h
  · split at h <;> obtain rfl := Option.some.inj h
    · exact ⟨.same nofun rfl rfl, State.snapsDue_of_none hsn⟩
    · exact failFlush hsn _
  · next batch hl =>
    obtain rfl := Option.some.inj h
    refine ⟨.popped o clock batch rfl hl (by simp) (by simp) (by simp [State.popBatch]), fun sn hs => ⟨clock, ?_⟩⟩
    unfold State.popBatch at hs ⊢
    dsimp only at hs ⊢
    rw [State.afterFlush_snapshot]
    exact State.afterFlush_due (t := { s with
      core.flights := remove o s.core.flights
      core.store.pending := s.core.store.pending.drop batch.length
      snapshot := s.snapshot.recordChanges batch.length }) hsn hs
  · obtain rfl := Option.some.inj h
    exact failFlush hsn _
  · obtain rfl := Option.some.inj h
    exact failFlush hsn _
  · cases h

lemma deliver {survives : Bool} (hsn : s.snapping = none) (h : s.deliver E survives clock = some s') :
    Tally E s (.deliver survives clock) s' ∧ s'.SnapsDue E := by
  unfold State.deliver at h
  split at h
  · dsimp only at h
    split at h
    · obtain rfl := Option.some.inj h
      exact ⟨.same nofun rfl rfl, State.snapsDue_of_none hsn⟩
    · obtain rfl := Option.some.inj h
      exact startFlush nofun rfl rfl hsn
    · obtain rfl := Option.some.inj h
      exact startFlush nofun rfl rfl hsn
    · obtain rfl := Option.some.inj h
      exact ⟨.same nofun rfl rfl, State.snapsDue_of_none hsn⟩
    · cases h
  · cases h

lemma finalFlush (he : ∀ outcome, e ≠ .snapshotWrite outcome) (ho : e.isOpen = false) (hsn : s.snapping = none) :
    Tally E s e (s.finalFlush E clock) ∧ (s.finalFlush E clock).SnapsDue E :=
  startFlush he ho rfl hsn

/-- `open` knows the time of the last snapshot before its flush can take another one. -/
lemma openDb {a : Opening} (hs : Control s) (hsn : s.snapping = none) (h : s.openDb E a = some s') :
    Tally E s (.open a) s' ∧ s'.SnapsDue E := by
  unfold State.openDb at h
  split at h
  · cases h
  · next hopened =>
    have hopened : s.opened = false := by simpa using hopened
    have hasleep : ∀ t : State, t.background = s.background → t.core.flights = s.core.flights →
        t.snapping = s.snapping → ¬Awake t := by
      rintro t hb hf ht (h | h | h)
      · exact h (hb.trans (hs.shut hopened))
      · rw [hf] at h
        simpa [hopened] using (hs.awaits .opening h).1
      · exact h (ht.trans hsn)
    have hkept : ∀ t : State, t.snapshot = s.snapshot → t.background = s.background →
        t.core.flights = s.core.flights → t.snapping = s.snapping → Tally E s (.open a) t ∧ t.SnapsDue E :=
      fun t ht hb hf hsn' => ⟨.kept nofun (by rw [ht]) (by rw [ht]) fun _ => Or.inr (hasleep t hb hf hsn'),
        State.snapsDue_of_none (hsn'.trans hsn)⟩
    dsimp only at h
    split at h
    · next hfile =>
      obtain rfl := Option.some.inj h
      have hboot : ∀ t : State, t.snapshot = s.snapshot → t.snapping = s.snapping →
          Tally E s (.open a) t ∧ t.SnapsDue E :=
        fun t ht hsn' => ⟨.kept nofun (by rw [ht]) (by rw [ht]) fun _ => Or.inl hfile,
          State.snapsDue_of_none (hsn'.trans hsn)⟩
      unfold State.bootstrap
      split
      · exact hboot _ rfl rfl
      · dsimp only
        split
        · exact hboot _ rfl rfl
        · exact hboot _ rfl rfl
    · split at h
      · obtain rfl := Option.some.inj h
        exact hkept _ rfl rfl rfl rfl
      · next rr hrr =>
        split at h
        · obtain rfl := Option.some.inj h
          exact hkept _ rfl rfl rfl rfl
        · obtain rfl := Option.some.inj h
          unfold State.load
          split
          · exact hkept _ rfl rfl rfl rfl
          · dsimp only
            have hloaded : ∀ t : State, t.snapshot.changes = s.snapshot.changes →
                t.snapshot.ts = rr.lastSnapshot.map E.fromTimestamp → Tally E s (.open a) t :=
              fun t hc ht => .loaded a rr rfl hrr hc ht
            split
            · exact ⟨hloaded _ rfl rfl, State.snapsDue_of_none hsn⟩
            · exact ⟨hloaded _ rfl rfl, State.snapsDue_of_none hsn⟩
            · split
              · exact ⟨hloaded _ rfl rfl, State.snapsDue_of_none hsn⟩
              · split
                · refine ⟨hloaded _ ?_ ?_, State.snapsDue_startFlush hsn⟩
                  · rw [State.startFlush_snapshot]
                    rfl
                  · rw [State.startFlush_snapshot]
                    rfl
                · exact ⟨hloaded _ rfl rfl, State.snapsDue_of_none hsn⟩

lemma writeSnapshot {sn : Snapping} (outcome : Outcome) (hsn : s.snapping = some sn) :
    Tally E s (.snapshotWrite outcome) (s.writeSnapshot E sn outcome) ∧
      (s.writeSnapshot E sn outcome).SnapsDue E := by
  have hnone : ∀ t : State, t.snapping = none → (t.andThen sn.next).SnapsDue E := fun t ht =>
    State.snapsDue_of_none ((State.andThen_snapping t sn.next).trans ht)
  unfold State.writeSnapshot
  dsimp only
  split
  · exact ⟨.unwritten outcome sn rfl hsn (by simp) (by simp) (by simp), hnone _ rfl⟩
  · next framed _ =>
    rcases s.core.write_records s.isOpen [.snapshot sn.snap framed] outcome with hw | ⟨exc, hexc, hrecords⟩
    · rw [hw]
      exact ⟨.written outcome sn framed rfl hsn (by simp) (by simp) (by simp), hnone _ rfl⟩
    · have hflights := s.core.write_flights s.isOpen [.snapshot sn.snap framed] outcome
      split
      · next hw =>
        rw [hw] at hrecords hflights
        exact ⟨.unwritten outcome sn rfl hsn (by simpa using hrecords) (by simpa using hflights) (by simp),
          hnone _ rfl⟩
      · next hw =>
        rw [hw] at hexc
        cases hexc

lemma loopStep (hs : Control s) (hsn : s.snapping = none) (h : Kanta.loopStep E s e = some s') :
    Tally E s e s' ∧ s'.SnapsDue E := by
  have hstill : ∀ t : State, e.isOpen = false → (∀ outcome, e ≠ .snapshotWrite outcome) →
      t.snapshot.changes = s.snapshot.changes → t.snapshot.ts = s.snapshot.ts → t.snapping = none →
      Tally E s e t ∧ t.SnapsDue E :=
    fun t ho he hc ht hsn' => ⟨.kept he hc ht (by simp [ho]), State.snapsDue_of_none hsn'⟩
  cases e with
  | commit c =>
    simp only [Kanta.loopStep] at h
    split at h
    · obtain rfl := Option.some.inj h
      exact hstill _ rfl (by rintro _ ⟨⟩) rfl rfl hsn
    · cases h
  | call n clock =>
    simp only [Kanta.loopStep] at h
    split at h
    · cases h
    · obtain rfl := Option.some.inj h
      exact startFlush (by rintro _ ⟨⟩) rfl rfl hsn
  | resume o clock =>
    simp only [Kanta.loopStep] at h
    split at h
    · cases h
    · exact resumeFlush hsn h
  | start =>
    simp only [Kanta.loopStep] at h
    split at h
    · obtain rfl := Option.some.inj h
      exact hstill _ rfl (by rintro _ ⟨⟩) rfl rfl hsn
    · cases h
  | wake clock =>
    simp only [Kanta.loopStep] at h
    split at h
    · obtain rfl := Option.some.inj h
      exact startFlush (by rintro _ ⟨⟩) rfl rfl hsn
    · cases h
  | deliver survives clock => exact deliver hsn h
  | reported =>
    simp only [Kanta.loopStep] at h
    split at h
    · obtain rfl := Option.some.inj h
      exact hstill _ rfl (by rintro _ ⟨⟩) rfl rfl hsn
    · cases h
  | request =>
    obtain rfl := Option.some.inj h
    exact hstill _ rfl (by rintro _ ⟨⟩) rfl rfl hsn
  | close clock =>
    simp only [Kanta.loopStep, State.close] at h
    split at h
    · cases h
    · split at h
      · obtain rfl := Option.some.inj h
        exact hstill _ rfl (by rintro _ ⟨⟩) rfl rfl hsn
      · split at h <;> obtain rfl := Option.some.inj h
        · exact finalFlush (by rintro _ ⟨⟩) rfl hsn
        · exact finalFlush (by rintro _ ⟨⟩) rfl hsn
        · exact hstill _ rfl (by rintro _ ⟨⟩) rfl rfl hsn
        · exact hstill _ rfl (by rintro _ ⟨⟩) rfl rfl hsn
  | join clock =>
    simp only [Kanta.loopStep, State.join] at h
    split at h
    · split at h
      · obtain rfl := Option.some.inj h
        exact finalFlush (by rintro _ ⟨⟩) rfl hsn
      · obtain rfl := Option.some.inj h
        exact hstill _ rfl (by rintro _ ⟨⟩) rfl rfl hsn
      · cases h
    · cases h
  | «open» a => exact openDb hs hsn h
  | work | stray | snapshotWrite => cases h

/-- A worker thread neither counts nor decides. -/
lemma job (hdue : s.SnapsDue E) (hjob : e.IsJob) (hc : s'.snapshot = s.snapshot) (hsn : s'.snapping = s.snapping) :
    Tally E s e s' ∧ s'.SnapsDue E := by
  refine ⟨.same ?_ ?_ hc, fun sn hs => ?_⟩
  · rintro outcome rfl
    exact hjob
  · cases e <;> first | rfl | exact hjob.elim
  · rw [hc]
    exact hdue sn (hsn ▸ hs)

/-- The step of the loop that begins with no flush ended. -/
lemma of_tick (h : Tally E { s with ended := none } e s') : Tally E s e s' := by
  cases h with
  | kept he hc ht hopen => exact .kept he hc ht hopen
  | popped o clock batch he hl hflights hlog hs => exact .popped o clock batch he hl hflights hlog hs
  | loaded a rr he hrr hc ht => exact .loaded a rr he hrr hc ht
  | written outcome sn bytes he hsn hlog hflights hs => exact .written outcome sn bytes he hsn hlog hflights hs
  | unwritten outcome sn he hsn hlog hflights hs => exact .unwritten outcome sn he hsn hlog hflights hs

/-- **Every step** counts in one of these ways, and what it puts under way is due. -/
theorem step (hs : Control s) (hdue : s.SnapsDue E) (h : Kanta.step E s e = some s') :
    Tally E s e s' ∧ s'.SnapsDue E := by
  unfold Kanta.step at h
  dsimp only at h
  split at h
  · unfold State.work at h
    split at h
    · obtain rfl := Option.some.inj h
      exact job hdue trivial rfl rfl
    · obtain rfl := Option.some.inj h
      exact job hdue trivial rfl rfl
    · cases h
  · unfold State.workStray at h
    split at h
    · cases h
    · obtain rfl := Option.some.inj h
      exact job hdue trivial rfl rfl
  · next outcome sn hsn =>
    obtain rfl := Option.some.inj h
    have hwrite := writeSnapshot (E := E) (s := { s with ended := none }) outcome hsn
    exact ⟨hwrite.1.of_tick, hwrite.2⟩
  · cases h
  · next hsn =>
    have hs0 : Control { s with ended := none } := hs.congr rfl rfl rfl rfl rfl fun _ h => h
    have hloop := loopStep hs0 hsn h
    exact ⟨hloop.1.of_tick, hloop.2⟩

end Tally

/-! ### Before the background loop -/

namespace State

variable {s s' t : State} {o : Owner} {clock : Except Exc DateTime} {e : Event}

/-- What `flush` leaves of a caller and of `close`: no snapshot, and the background task where it was. -/
lemma afterFlush_asleep (clock : Except Exc DateTime) (ho : o.snapshots = false) (r : Except Exc Unit) :
    (t.afterFlush E o r clock).background = t.background ∧ (t.afterFlush E o r clock).core = t.core ∧
      (t.afterFlush E o r clock).snapping = t.snapping := by
  cases o with
  | call => exact ⟨rfl, rfl, rfl⟩
  | closing => cases r <;> exact ⟨rfl, rfl, rfl⟩
  | opening | background => cases ho

lemma startFlush_asleep (ho : o.snapshots = false) (h : ¬Awake t) : ¬Awake (t.startFlush E o clock) := by
  have hafter : ∀ r, ¬Awake (t.afterFlush E o r clock) := fun r => by
    obtain ⟨hb, hc, hsn⟩ := afterFlush_asleep (E := E) (t := t) clock ho r
    rwa [Awake, hb, hc, hsn]
  unfold startFlush
  split
  · exact hafter _
  · split
    · exact hafter _
    · split
      · exact hafter _
      · have hne : o ≠ .opening := by
          rintro rfl
          cases ho
        rwa [Awake, lookup_put, if_neg hne.symm]

lemma failFlush_asleep (ho : o.snapshots = false) (h : ¬Awake t) (exc : Exc) : ¬Awake (t.failFlush E o exc clock) := by
  have hne : o ≠ .opening := by
    rintro rfl
    cases ho
  have hremove : ∀ u : State, u.background = t.background → u.core.flights = remove o t.core.flights →
      u.snapping = t.snapping → ∀ r, ¬Awake (u.afterFlush E o r clock) := fun u hb hf hsn r => by
    obtain ⟨hb', hc', hsn'⟩ := afterFlush_asleep (E := E) (t := u) clock ho r
    rwa [Awake, hb', hc', hsn', hb, hf, hsn, lookup_remove, if_neg hne.symm]
  unfold failFlush
  dsimp only
  split
  · exact hremove { t with core.flights := remove o t.core.flights, flushFailed := true } rfl rfl rfl _
  · exact hremove { t with core.flights := remove o t.core.flights } rfl rfl rfl _

lemma resumeFlush_asleep (ho : o.snapshots = false) (h : ¬Awake s) (hr : s.resumeFlush E o clock = some s') :
    ¬Awake s' := by
  have hne : o ≠ .opening := by
    rintro rfl
    cases ho
  unfold resumeFlush at hr
  split at hr
  · split at hr <;> obtain rfl := Option.some.inj hr
    · rwa [Awake, lookup_put, if_neg hne.symm]
    · exact failFlush_asleep ho h _
  · obtain rfl := Option.some.inj hr
    unfold popBatch
    dsimp only
    obtain ⟨hb, hc, hsn⟩ := afterFlush_asleep (E := E) (o := o) clock ho _
    rw [Awake, hb, hc, hsn]
    dsimp only
    rwa [lookup_remove, if_neg hne.symm]
  · obtain rfl := Option.some.inj hr
    exact failFlush_asleep ho h _
  · obtain rfl := Option.some.inj hr
    exact failFlush_asleep ho h _
  · cases hr

lemma loopStep_asleep (hs : Control s) (h : ¬Awake s) (ho : e.isOpen = false) (hstep : loopStep E s e = some s') :
    ¬Awake s' := by
  have hparts : s.background = .absent ∧ s.core.flights.lookup .opening = none ∧ s.snapping = none := by
    simpa only [Awake, not_or, not_not] using h
  obtain ⟨hb, hopening, hsn⟩ := hparts
  cases e with
  | commit c =>
    simp only [loopStep] at hstep
    split at hstep
    · obtain rfl := Option.some.inj hstep
      exact h
    · cases hstep
  | call n clock =>
    simp only [loopStep] at hstep
    split at hstep
    · cases hstep
    · obtain rfl := Option.some.inj hstep
      exact startFlush_asleep rfl h
  | resume o clock =>
    simp only [loopStep] at hstep
    split at hstep
    · cases hstep
    · -- neither the loop nor `open` has a flush in flight
      have hin : s.core.flights.lookup o ≠ none := by
        intro hnone
        simp [resumeFlush, hnone] at hstep
      have howner : o.snapshots = false := by
        cases o with
        | call | closing => rfl
        | opening => exact absurd hopening hin
        | background => simpa [Owner.Awaits, hb] using hs.awaits .background hin
      exact resumeFlush_asleep howner h hstep
  | start => simp [loopStep, hb] at hstep
  | wake clock => simp [loopStep, hb] at hstep
  | deliver survives clock => simp [loopStep, deliver, hb] at hstep
  | reported => simp [loopStep, hb] at hstep
  | request =>
    obtain rfl := Option.some.inj hstep
    exact h
  | close clock =>
    simp only [loopStep, close, hb] at hstep
    split at hstep
    · cases hstep
    · split at hstep
      · obtain rfl := Option.some.inj hstep
        exact h
      · obtain rfl := Option.some.inj hstep
        refine startFlush_asleep rfl ?_
        simp [Awake, hopening, hsn]
  | join clock => simp [loopStep, join, hb] at hstep
  | «open» a => cases ho
  | work | stray | snapshotWrite => cases hstep

/-- Only `open` starts the background loop. -/
lemma step_asleep (hs : Control s) (h : ¬Awake s) (ho : e.isOpen = false) (hstep : step E s e = some s') :
    ¬Awake s' := by
  have hs0 : Control { s with ended := none } := hs.congr rfl rfl rfl rfl rfl fun _ h => h
  unfold step at hstep
  dsimp only at hstep
  split at hstep
  · have hput : ∀ o f g core, s.core.flights.lookup o = some f → core.flights = put o g s.core.flights →
        ¬Awake { s with core := core, ended := none } := by
      intro o f g core hl hflights
      have hne : o ≠ .opening := by
        rintro rfl
        exact h (Or.inr (Or.inl (by simp [hl])))
      rwa [Awake, hflights, lookup_put, if_neg hne.symm]
    unfold work at hstep
    split at hstep
    · next hl =>
      obtain rfl := Option.some.inj hstep
      exact hput _ _ _ _ hl rfl
    · next hl =>
      obtain rfl := Option.some.inj hstep
      exact hput _ _ _ _ hl rfl
    · cases hstep
  · unfold workStray at hstep
    split at hstep
    · cases hstep
    · obtain rfl := Option.some.inj hstep
      simpa [Awake] using h
  · next hsn => exact absurd (Or.inr (Or.inr (by simp [hsn]))) h
  · cases hstep
  · exact loopStep_asleep hs0 h ho hstep

end State

/-! ### The changes behind the last snapshot -/

/-- How many changes lie behind the last snapshot of a log. -/
def tail (log : List Entry) : ℕ := (lastSnapshot (recordsOf log)).2.length

/-- The changes that a flush has written and not yet counted. -/
def Flight.uncounted : Flight → ℕ
  | .writing batch (some (.ok ())) => batch.length
  | _ => 0

def Core.uncounted (c : Core) : ℕ := (c.flights.map fun p => p.2.uncounted).sum

@[simp] lemma uncounted_sizing (batch : List Queued) (result : Option (Except Exc ℕ)) :
    (Flight.sizing batch result).uncounted = 0 := rfl

lemma tail_changes {log more : List Entry} {changes : List ChangeRecord} (h : recordsOf more = changes.map .change) :
    tail (log ++ more) = tail log + changes.length := by
  rw [tail, recordsOf_append, h, lastSnapshot_changes, List.length_append, tail]

/-- A write appends the changes of its batch, or nothing that is a record. -/
lemma tail_write (c : Core) (isOpen : Bool) (batch : List (Queued × Bytes)) (outcome : Outcome) :
    ((c.write isOpen (entriesOf batch) outcome).2 = .ok () ∧
        tail (c.write isOpen (entriesOf batch) outcome).1.log = tail c.log + batch.length) ∨
      ∃ exc, (c.write isOpen (entriesOf batch) outcome).2 = .error exc ∧
        tail (c.write isOpen (entriesOf batch) outcome).1.log = tail c.log := by
  rcases c.write_records isOpen (entriesOf batch) outcome with hw | ⟨exc, hexc, hrecords⟩
  · rw [hw]
    refine Or.inl ⟨rfl, ?_⟩
    rw [tail_changes (recordsOf_entriesOf batch), List.length_map]
  · exact Or.inr ⟨exc, hexc, by rw [tail, hrecords, tail]⟩

namespace Core

variable {c c' : Core} {o : Owner} {f g : Flight}

lemma uncounted_of_nil (h : c.flights = []) : c.uncounted = 0 := by simp [uncounted, h]

lemma uncounted_of_single (h : c.flights = [(o, f)]) : c.uncounted = f.uncounted := by simp [uncounted, h]

/-- A flight that has not been written has nothing to count. -/
lemma uncounted_put (h : c.Single) (hl : c.flights.lookup o = some f) (hf : c'.flights = put o g c.flights) :
    c'.uncounted = g.uncounted := by
  rw [h.of_lookup hl, put_single] at hf
  exact uncounted_of_single hf

end Core

/-- Only the write of a snapshot appends one. -/
lemma Effect.changes_more {s : State} {e : Event} {core : Core} (h : Effect E s e core)
    (he : ∀ outcome, e ≠ .snapshotWrite outcome) :
    ∃ changes : List ChangeRecord, recordsOf core.log = recordsOf s.core.log ++ changes.map .change := by
  have hbatch : ∀ (c : Core) isOpen batch outcome, ∃ changes : List ChangeRecord,
      recordsOf (c.write isOpen (entriesOf batch) outcome).1.log = recordsOf c.log ++ changes.map .change := by
    intro c isOpen batch outcome
    rcases c.write_records isOpen (entriesOf batch) outcome with hw | ⟨exc, -, hrecords⟩
    · exact ⟨_, by rw [hw, recordsOf_append, recordsOf_entriesOf]⟩
    · exact ⟨[], by simp [hrecords]⟩
  cases h with
  | wrote o batch outcome => exact hbatch s.core s.isOpen batch outcome
  | stray batch strays outcome => exact hbatch { s.core with strays := strays } s.isOpen batch outcome
  | snapshot sn framed outcome => exact absurd rfl (he outcome)
  | quiet | commit | begin | sized | framed | popped | failed | cancelled | restarted | unborn | created
  | unread | loaded | reloaded => exact ⟨[], (List.append_nil _).symm⟩

/-- **What is written is counted later**: the changes that are not counted yet grow with the log. -/
lemma Effect.uncounted {s : State} {e : Event} {core : Core} (h : Effect E s e core) (h1 : s.core.Single)
    (h2 : core.Single) (he : ∀ outcome, e ≠ .snapshotWrite outcome) :
    core.uncounted + tail s.core.log ≤ s.core.uncounted + tail core.log := by
  have hbegin : ∀ (c : Core) (o : Owner), (c.begin o).Single → c.flights.lookup o = none →
      (c.begin o).uncounted = 0 := by
    intro c o hc hl
    have hnil := Core.Single.of_put hc hl
    exact Core.uncounted_of_single (o := o) (f := .sizing c.store.pending none) (by simp [Core.begin, hnil, put])
  have habandon : ∀ survives, (s.abandon survives).core.uncounted ≤ s.core.uncounted := by
    intro survives
    have hsub : (s.abandon survives).core.flights.Sublist s.core.flights := List.filter_sublist
    exact (hsub.map _).sum_le_sum fun _ _ => Nat.zero_le _
  cases h with
  | quiet | commit | unborn | created | unread | loaded => exact le_rfl
  | begin _ o _ _ _ _ hfree =>
    rw [hbegin _ o h2 hfree]
    simp [Core.begin]
  | sized o batch outcome hl =>
    rw [Core.uncounted_put h1 hl rfl]
    simp
  | wrote o batch outcome hl =>
    rw [Core.uncounted_put (g := .writing batch (some (s.core.write s.isOpen (entriesOf batch) outcome).2)) h1 hl rfl]
    rcases tail_write s.core s.isOpen batch outcome with ⟨hok, htail⟩ | ⟨exc, hexc, htail⟩
    · simp only [hok, Flight.uncounted, htail]
      omega
    · simp only [hexc, Flight.uncounted, htail]
      omega
  | framed o clock batch size framed hl hframed =>
    rw [Core.uncounted_put h1 hl rfl]
    simp [Flight.uncounted]
  | popped o clock batch hl =>
    rw [Core.uncounted_of_nil (by simp [h1.of_lookup hl])]
    simp
  | failed o clock flight hl =>
    rw [Core.uncounted_of_nil (by simp [h1.of_lookup hl])]
    simp
  | stray batch strays outcome hs =>
    have hflights : (({ s.core with strays := strays } : Core).write s.isOpen (entriesOf batch)
        outcome).1.uncounted = s.core.uncounted := by simp [Core.uncounted]
    rcases tail_write { s.core with strays := strays } s.isOpen batch outcome with ⟨-, htail⟩ | ⟨exc, -, htail⟩
    · rw [htail, hflights]
      dsimp only
      omega
    · rw [htail, hflights]
  | cancelled survives => exact Nat.add_le_add_right (habandon survives) _
  | restarted survives =>
    rw [hbegin _ .background h2 (by simp [State.abandon, lookup_remove])]
    simp [Core.begin, State.abandon]
  | snapshot sn framed outcome => exact absurd rfl (he outcome)
  | reloaded a rr state store _ _ _ _ _ _ _ hfree =>
    rw [hbegin _ .opening h2 hfree]
    simp [Core.begin]

/-! ### The last snapshot -/

/-- What the replay of a log knows of its last snapshot. -/
lemma replayLog_lastSnapshot {records : List Record} {rr : ReplayResult} (h : replayLog records = .ok rr) :
    rr.lastSnapshot = (lastSnapshot records).1.map Snapshot.ts := by
  have hchanges : ∀ (changes : List ChangeRecord) (r : ReplayResult),
      changes.foldlM ReplayResult.applyChange r = .ok rr → rr.lastSnapshot = r.lastSnapshot := by
    intro changes
    induction changes with
    | nil =>
      intro r h
      obtain rfl := Except.ok.inj h
      rfl
    | cons c changes ih =>
      intro r h
      obtain ⟨r', hr', h⟩ := bind_eq_ok.mp h
      obtain ⟨state, -, hr'⟩ := bind_eq_ok.mp hr'
      obtain rfl := Except.ok.inj hr'
      exact (ih _ h).trans rfl
  rw [hchanges _ _ h]
  cases (lastSnapshot records).1 <;> rfl

/-- `fromtimestamp(ts.timestamp())` is on no earlier day than `ts`: a midnight behind the one lies behind the
other.  A midnight is a whole number of seconds, which a float holds. -/
def Env.KeepsTime (E : Env) : Prop :=
  ∀ t x : DateTime, x.midnight.le (E.fromTimestamp t) = .ok false → x.midnight.le t ≠ .ok true

/-- The time that `SnapshotState` knows stands for the last snapshot of the file: a midnight behind it is behind
that snapshot. -/
def KnowsLast (records : List Record) (ts : Option DateTime) : Prop :=
  ∀ last, (lastSnapshot records).1 = some last →
    ∃ t, ts = some t ∧ ∀ x : DateTime, x.midnight.le t = .ok false → x.midnight.le last.ts ≠ .ok true

/-- One flush at a time, and no write that a cancelled flush left behind reaches the file. -/
structure Paced (s : State) (e : Event) (s' : State) : Prop where
  single : s'.core.Single
  not_left : e.isStray = true → s.isOpen = false

instance (s : State) (e : Event) (s' : State) : Decidable (Paced s e s') :=
  decidable_of_iff (s'.core.Single ∧ (e.isStray = true → s.isOpen = false)) ⟨fun ⟨h1, h2⟩ => ⟨h1, h2⟩,
    fun ⟨h1, h2⟩ => ⟨h1, h2⟩⟩

/-- `SnapshotState` counts no more than what is behind the last snapshot, and knows its time. -/
structure PacedState (E : Env) (framer : Framer) (file : Bytes) (base : List Record) (s : State) : Prop where
  one : OneFlush s
  located : Complete s.core.log → Located E framer file s
  counted : s.snapshot.changes + s.core.uncounted ≤ tail s.core.log
  current : Awake s → Complete s.core.log → KnowsLast (base ++ recordsOf s.core.log) s.snapshot.ts
  due : s.SnapsDue E

lemma KnowsLast.keep {records records' : List Record} {ts : Option DateTime} (h : KnowsLast records ts)
    (hlast : (lastSnapshot records').1 = (lastSnapshot records).1) : KnowsLast records' ts :=
  fun last hl => h last (hlast ▸ hl)

namespace PacedState

variable {framer : Framer} {file : Bytes} {base : List Record} {s s' : State} {e : Event}

lemma init {statedict : Dict} {version : ℤ} (hb : Holds E framer file base) :
    PacedState E framer file base (.init statedict version framer file) where
  one := .init statedict version framer file
  located _ := .init (hb.framed.imp fun _ h => h.1)
  counted := by simp [State.init, Core.uncounted]
  current := by simp [Awake, State.init]
  due := State.snapsDue_of_none rfl

lemma counted_step (hs : PacedState E framer file base s) (h : Kanta.step E s e = some s') (h2 : s'.core.Single)
    (ht : Tally E s e s') : s'.snapshot.changes + s'.core.uncounted ≤ tail s'.core.log := by
  have hcounted := hs.counted
  have heff := step_effect hs.one.control h
  cases ht with
  | kept he hc =>
    have := heff.uncounted hs.one.single h2 he
    omega
  | popped o clock batch he hl hflights hlog hsnap =>
    have hf := hs.one.single.of_lookup hl
    rw [hf, remove_single] at hflights
    rw [Core.uncounted_of_single hf] at hcounted
    rw [hsnap, hlog, Core.uncounted_of_nil hflights]
    exact hcounted
  | loaded a rr he hrr hc =>
    have := heff.uncounted hs.one.single h2 fun outcome => by simp [he]
    omega
  | written outcome sn bytes he hsn hlog hflights hsnap =>
    rw [hs.one.snapping sn hsn] at hflights
    rw [hsnap, Core.uncounted_of_nil hflights]
    simp [SnapshotState.written]
  | unwritten outcome sn he hsn hlog hflights hsnap =>
    rw [hs.one.snapping sn hsn] at hflights
    have htail : tail s'.core.log = tail s.core.log := by rw [tail, hlog, tail]
    rw [hsnap, htail, Core.uncounted_of_nil hflights]
    omega

lemma current_step (hs : PacedState E framer file base s) (hb : Holds E framer file base) (hkeeps : E.KeepsTime)
    (hread : ∀ r ∈ base ++ recordsOf s.core.log, Decodable E.ser framer r) (h : Kanta.step E s e = some s')
    (ht : Tally E s e s') (hawake : Awake s') (hcomplete : Complete s'.core.log) :
    KnowsLast (base ++ recordsOf s'.core.log) s'.snapshot.ts := by
  have heff := step_effect hs.one.control h
  have hc0 : Complete s.core.log := by
    obtain ⟨more, hlog, -⟩ := heff.log_more
    exact fun entry he => hcomplete entry (by simp [hlog, he])
  have hbefore : e.isOpen = false → KnowsLast (base ++ recordsOf s.core.log) s.snapshot.ts := fun ho =>
    hs.current (by_contra fun hn => State.step_asleep hs.one.control hn ho h hawake) hc0
  have hlast : (∀ outcome, e ≠ .snapshotWrite outcome) →
      (lastSnapshot (base ++ recordsOf s'.core.log)).1 = (lastSnapshot (base ++ recordsOf s.core.log)).1 := fun he => by
    obtain ⟨changes, hchanges⟩ := heff.changes_more he
    rw [hchanges, ← List.append_assoc, lastSnapshot_changes]
  cases ht with
  | kept he hc hts hopen =>
    rw [hts]
    by_cases ho : e.isOpen = true
    · -- an empty file has no snapshot
      have hfile := (hopen ho).resolve_right (not_not_intro hawake)
      have hnil := ((hs.located hc0).holds hb).file_eq_nil.mp hfile
      intro last hl
      rw [hlast he, hnil] at hl
      cases hl
    · exact (hbefore (by simpa using ho)).keep (hlast he)
  | popped o clock batch he hl hflights hlog hsnap =>
    rw [hlog, hsnap]
    exact hbefore (by rw [he]; rfl)
  | loaded a rr he hrr hc hts =>
    obtain ⟨-, -, hrr⟩ := bind_eq_ok.mp (((hs.located hc0).replay_eq hb hread).symm.trans hrr)
    intro last hl
    rw [hlast fun outcome => by simp [he]] at hl
    rw [replayLog_lastSnapshot hrr, hl] at hts
    exact ⟨_, hts, hkeeps last.ts⟩
  | written outcome sn bytes he hsn hlog hflights hsnap =>
    intro last hl
    have hrecords : recordsOf s'.core.log = recordsOf s.core.log ++ [.snapshot sn.snap] := by
      simp [hlog, recordsOf, Entry.record]
    rw [hrecords, ← List.append_assoc, lastSnapshot_snapshot] at hl
    obtain rfl := Option.some.inj hl
    rw [hsnap]
    exact ⟨_, rfl, fun x hx => by simp [hx]⟩
  | unwritten outcome sn he hsn hlog hflights hsnap =>
    rw [hlog, hsnap]
    exact hbefore (by rw [he]; rfl)

/-- **Every step keeps the invariant.** -/
theorem step (hs : PacedState E framer file base s) (hb : Holds E framer file base) (hkeeps : E.KeepsTime)
    (hread : ∀ r ∈ base ++ recordsOf s.core.log, Decodable E.ser framer r) (h : Kanta.step E s e = some s')
    (hG : Paced s e s') : PacedState E framer file base s' := by
  have heff := step_effect hs.one.control h
  obtain ⟨ht, hdue⟩ := Tally.step hs.one.control hs.due h
  refine ⟨hs.one.step h hG.single, fun hc => ?_, hs.counted_step h hG.single ht,
    hs.current_step hb hkeeps hread h ht, hdue⟩
  obtain ⟨more, hlog, -⟩ := heff.log_more
  have hc0 : Complete s.core.log := fun entry he => hc entry (by simp [hlog, he])
  exact (hs.located hc0).step hs.one h hG.single hc fun outcome he => hG.not_left (he ▸ rfl)

end PacedState

/-! ### The theorem -/

/-- What the policy of `maybe_write` has seen when it lets a snapshot through. -/
lemma SnapshotState.due_eq_ok {s : SnapshotState} {minDiffs : ℕ} {clock : Except Exc DateTime} {ts : DateTime}
    (h : s.due minDiffs clock = .ok (some ts)) : s.forcePending = true ∨
      (ts.weekday = 6 ∧ minDiffs ≤ s.changes ∧ ∀ last, s.ts = some last → ts.midnight.le last = .ok false) := by
  unfold due at h
  split at h
  · exact Or.inl ‹_›
  · split at h
    · cases h
    · next hchanges =>
      obtain ⟨ts', hts', h⟩ := bind_eq_ok.mp h
      split at h
      · cases h
      · next hsunday =>
        refine Or.inr ?_
        split at h
        · next hnone =>
          obtain rfl := Option.some.inj (Except.ok.inj h)
          exact ⟨by simpa using hsunday, by omega, fun last hl => by simp [hnone] at hl⟩
        · next last hlast =>
          obtain ⟨done, hdone, h⟩ := bind_eq_ok.mp h
          cases done with
          | true => simp at h
          | false =>
            obtain rfl : ts' = ts := by simpa using h
            refine ⟨by simpa using hsunday, by omega, fun last' hl => ?_⟩
            obtain rfl := Option.some.inj (hlast.symm.trans hl)
            exact hdone

/-- **When a snapshot is written** that nobody has forced: on a Sunday, with at least `min_diffs` changes behind the
last snapshot of the file, and only if that one is not from this Sunday. -/
theorem snapshot_cadence {framer : Framer} {file : Bytes} {base : List Record} {statedict : Dict} {version : ℤ}
    {s s' : State} {e : Event} {snap : Snapshot} {bytes : Bytes} (hkeeps : E.KeepsTime)
    (hb : Holds E framer file base) (h : Reach (step E) Paced (.init statedict version framer file) s)
    (hread : ∀ r ∈ base ++ recordsOf s.core.log, Decodable E.ser framer r) (hcomplete : Complete s.core.log)
    (hstep : step E s e = some s') (hlog : s'.core.log = s.core.log ++ [.snapshot snap bytes]) :
    s.snapshot.forcePending = true ∨
      (snap.ts.weekday = 6 ∧ E.minDiffs ≤ (lastSnapshot (recordsOf s.core.log)).2.length ∧
        ∀ last, (lastSnapshot (base ++ recordsOf s.core.log)).1 = some last →
          snap.ts.midnight.le last.ts ≠ .ok true) := by
  have hs : PacedState E framer file base s :=
    invariant_of_log (P := Decodable E.ser framer) h (control_init ..) (.init hb)
      (fun t e t' hread' ht hstep hG => ht.step hb hkeeps
        (fun r hr => (List.mem_append.mp hr).elim (fun hbase => hread r (List.mem_append_left _ hbase)) (hread' r))
        hstep hG)
      fun r hr => hread r (List.mem_append_right _ hr)
  obtain ⟨sn, hsn, rfl⟩ : ∃ sn, s.snapping = some sn ∧ sn.snap = snap := by
    obtain ⟨more, hmore, hkind⟩ := (step_effect hs.one.control hstep).log_more
    rw [hlog] at hmore
    obtain rfl := List.append_cancel_left hmore
    rcases hkind with ⟨changes, hchanges⟩ | ⟨sn, framed, hsn, he, -⟩
    · cases changes <;> simp [recordsOf, Entry.record] at hchanges
    · obtain ⟨rfl, -⟩ : snap = sn.snap ∧ bytes = framed := by simpa using he
      exact ⟨sn, hsn, rfl⟩
  obtain ⟨clock, hdue⟩ := hs.due sn hsn
  rcases SnapshotState.due_eq_ok hdue with hforce | ⟨hsunday, hmin, hbehind⟩
  · exact Or.inl hforce
  · have hcounted : s.snapshot.changes + s.core.uncounted ≤ (lastSnapshot (recordsOf s.core.log)).2.length := hs.counted
    refine Or.inr ⟨hsunday, by omega, fun last hl => ?_⟩
    obtain ⟨t, ht, hx⟩ := hs.current (Or.inr (Or.inr (by simp [hsn]))) hcomplete last hl
    exact hx _ (hbehind t ht)

/-- The first snapshot, behind the first two changes. -/
theorem snapshot_cadence_first : ∃ s s' : State, ∃ snap bytes, s.snapshot.forcePending = false ∧
    step (Sample.env 1) s (.snapshotWrite .ok) = some s' ∧ s'.core.log = s.core.log ++ [.snapshot snap bytes] ∧
    (s.snapshot.forcePending = true ∨
      (snap.ts.weekday = 6 ∧ 1 ≤ (lastSnapshot (recordsOf s.core.log)).2.length ∧
        ∀ last, (lastSnapshot ([] ++ recordsOf s.core.log)).1 = some last →
          snap.ts.midnight.le last.ts ≠ .ok true)) := by
  obtain ⟨s, hs, hseen⟩ := exists_reach (step (Sample.env 1)) (fun s e s' => decide (Paced s e s')) Sample.start
    [Sample.opening, .start, Sample.set 1, .wake (.ok Sample.ts), .work .background .ok,
      .resume .background (.ok Sample.ts), .work .background .ok, .resume .background (.ok Sample.ts)]
    (fun s => (s.snapshot.forcePending, decide (Complete s.core.log), (recordsOf s.core.log).map Record.isSnapshot,
      (step (Sample.env 1) s (.snapshotWrite .ok)).map fun s' => (recordsOf s'.core.log).map Record.isSnapshot))
    (false, true, [false, false], some [false, false, true]) (by decide +kernel)
  obtain ⟨hforce, hseen⟩ := Prod.mk.inj hseen
  obtain ⟨hcomplete, hseen⟩ := Prod.mk.inj hseen
  obtain ⟨hbefore, hseen⟩ := Prod.mk.inj hseen
  obtain ⟨s', hstep, hkinds⟩ := Option.map_eq_some_iff.mp hseen
  have hpaced : Reach (step (Sample.env 1)) Paced Sample.start s := hs.mono fun _ _ _ h => of_decide_eq_true h
  obtain ⟨more, hlog, ⟨changes, hchanges⟩ | ⟨sn, bytes, hsn, rfl, -⟩⟩ :=
    (step_effect (control_of_reach hs (control_init ..)) hstep).log_more
  · rw [hlog, recordsOf_append, List.map_append, hbefore, hchanges] at hkinds
    cases changes <;> simp [Record.isSnapshot] at hkinds
  · exact ⟨s, s', sn.snap, bytes, hforce, hstep, hlog,
      snapshot_cadence (fun t x hx => by simp [show x.midnight.le t = .ok false from hx]) (.nil .line) hpaced
        (fun r _ => (Sample.readable r).1) (of_decide_eq_true hcomplete) hstep hlog⟩

end Kanta
