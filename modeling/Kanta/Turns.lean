import Kanta.Ahead

/-!
# One operation at a time

Transactions, `flush`, `close` and `open` take turns: each begins when nothing is under way.  Then a
flush always writes the whole queue, the cancellation by `close` never hits a flush, and no snapshot
runs ahead of the log, so that `TurnState` is kept by every step, and such a run is one of those
that keep `LevelState`.
-/

namespace Kanta

open Kanta.Lib Kanta.Lib.Assoc Kanta.Lib.Lts

variable {E : Env}

/-! ### Taking turns -/

/-- Nothing is under way. -/
structure Resting (s : State) : Prop where
  flights : s.core.flights = []
  snapping : s.snapping = none
  closing : s.closing = .idle

instance (s : State) : Decidable (Resting s) :=
  decidable_of_iff (s.core.flights.isEmpty = true ∧ s.snapping.isNone = true ∧ s.closing = .idle)
    ⟨fun ⟨h1, h2, h3⟩ => ⟨List.isEmpty_iff.mp h1, Option.isNone_iff_eq_none.mp h2, h3⟩,
      fun h => ⟨by simp [h.flights], by simp [h.snapping], h.closing⟩⟩

/-- A transaction, `flush`, `close` or `open` begins. -/
def Event.isOperation : Event → Bool
  | .commit _ | .call .. | .close _ | .open _ => true
  | _ => false

/-- The operations take turns, one flush at a time and without an I/O error. -/
structure Turn (s : State) (e : Event) (s' : State) : Prop where
  single : s'.core.Single
  alone : e.isOperation = true → Resting s
  succeeds : e.succeeds = true
  unfailed : s'.flushFailed = false

instance (s : State) (e : Event) (s' : State) : Decidable (Turn s e s') :=
  decidable_of_iff
    (s'.core.Single ∧ (e.isOperation = true → Resting s) ∧ e.succeeds = true ∧ s'.flushFailed = false)
    ⟨fun ⟨h1, h2, h3, h4⟩ => ⟨h1, h2, h3, h4⟩, fun ⟨h1, h2, h3, h4⟩ => ⟨h1, h2, h3, h4⟩⟩

/-- The cancellation has not reached the background task yet. -/
structure Cancelling (s : State) : Prop where
  flights : s.core.flights = []
  snapping : s.snapping = none
  closing : s.closing = .joining
  running : s.background ≠ .finished ∧ ∀ e, s.background ≠ .raised e

/-- What holds while the operations take turns. -/
structure TurnState (s : State) : Prop where
  one : OneFlush s
  whole : Whole (fun _ => True) s.core
  strays : s.core.strays = []
  complete : Complete s.core.log
  unfailed : s.flushFailed = false
  cancelling : s.cancelling = true → Cancelling s

/-! ### The cancellation -/

/-- Nothing but a request for a snapshot comes before the cancellation is delivered. -/
lemma Cancelling.delivers {s s' : State} {e : Event} (hc : Cancelling s) (hs : s.cancelling = true)
    (hstrays : s.core.strays = []) (h : step E s e = some s') (hG : Turn s e s') :
    e.isDeliver = true ∨ Cancelling s' := by
  have hop : e.isOperation = false := by
    by_contra hop
    simpa [hc.closing] using (hG.alone (by simpa using hop)).closing
  unfold step at h
  cases e with
  | deliver => exact Or.inl rfl
  | request =>
    simp only [hc.snapping, loopStep] at h
    obtain rfl := Option.some.inj h
    exact Or.inr ⟨hc.flights, rfl, hc.closing, hc.running⟩
  | commit | call | close | «open» => simp [Event.isOperation] at hop
  | work => simp [State.work, hc.flights] at h
  | stray => simp [State.workStray, hstrays] at h
  | resume => simp [hc.snapping, loopStep, State.resumeFlush, hc.flights] at h
  | start | wake | reported => simp [hc.snapping, loopStep, hs] at h
  | join =>
    simp only [hc.snapping, loopStep, State.join] at h
    rw [if_pos hc.closing] at h
    split at h
    · exact absurd ‹_› hc.running.1
    · exact absurd ‹_› (hc.running.2 _)
    · simp at h
  | snapshotWrite => simp [hc.snapping, loopStep] at h

/-- `close` cancels the background task when nothing is under way. -/
lemma cancelling_close {s s' : State} {clock : Except Exc DateTime} (hr : Resting s)
    (hs : s.cancelling = false) (h : step E s (.close clock) = some s') (hc : s'.cancelling = true) :
    Cancelling s' := by
  have hfinal : ∀ t : State, t.cancelling = false → ¬(t.finalFlush E clock).cancelling = true := by
    intro t ht
    rcases startFlush_returns (E := E) { t with background := .absent, closing := .flushing } .closing clock
      with ⟨r, hret, -⟩ | hbegin
    · rw [State.finalFlush, hret.cancelling]
      simp [ht]
    · rw [State.finalFlush, hbegin]
      simp [ht]
  unfold step at h
  simp only [hr.snapping, loopStep, State.close] at h
  split at h
  · simp at h
  · split at h
    · obtain rfl := Option.some.inj h
      simp [hs] at hc
    · split at h
      · obtain rfl := Option.some.inj h
        exact absurd hc (hfinal _ hs)
      · obtain rfl := Option.some.inj h
        exact absurd hc (hfinal _ hs)
      · obtain rfl := Option.some.inj h
        simp [hs] at hc
      · rename_i hfin hraised
        obtain rfl := Option.some.inj h
        exact ⟨hr.flights, rfl, rfl, hfin, hraised⟩

/-- A cancellation that has been delivered is over. -/
lemma not_cancelling_deliver {s s' : State} {survives : Bool} {clock : Except Exc DateTime}
    (h : step E s (.deliver survives clock) = some s') : s'.cancelling = false := by
  have hstart : ∀ t : State, t.cancelling = false → (t.startFlush E .background clock).cancelling = false := by
    intro t ht
    rcases startFlush_returns (E := E) t .background clock with ⟨r, hret, -⟩ | hbegin
    · exact hret.cancelling.trans ht
    · rw [hbegin]
      exact ht
  unfold step at h
  dsimp only at h
  split at h <;> try contradiction
  simp only [loopStep, State.deliver] at h
  split at h
  · split at h
    · obtain rfl := Option.some.inj h
      rfl
    · obtain rfl := Option.some.inj h
      exact hstart _ rfl
    · obtain rfl := Option.some.inj h
      exact hstart _ rfl
    · obtain rfl := Option.some.inj h
      rfl
    · simp at h
  · simp at h

/-- A flush does not end in the work of a worker thread. -/
lemma ended_job {s s' : State} {e : Event} (h : step E s e = some s') (he : e.IsJob) : s'.ended = none := by
  unfold step at h
  cases e with
  | work o outcome =>
    simp only [State.work] at h
    split at h
    · obtain rfl := Option.some.inj h
      rfl
    · obtain rfl := Option.some.inj h
      rfl
    · simp at h
  | stray outcome =>
    simp only [State.workStray] at h
    split at h
    · simp at h
    · obtain rfl := Option.some.inj h
      rfl
  | _ => exact he.elim

/-! ### The invariant -/

namespace TurnState

variable {s s' : State} {e : Event}

lemma init (statedict : Dict) (version : ℤ) (framer : Framer) (file : Bytes) :
    TurnState (.init statedict version framer file) where
  one := .init statedict version framer file
  whole := .of_nil rfl
  strays := rfl
  complete := by simp [Complete, State.init]
  unfailed := rfl
  cancelling h := by simp [State.init] at h

/-- A cancellation comes when no flush is in flight. -/
lemma flights_deliver (hs : TurnState s) (h : Kanta.step E s e = some s') (he : e.isDeliver = true) :
    s.core.flights = [] := by
  cases e with
  | deliver => exact (hs.cancelling (step_deliver h)).flights
  | _ => simp [Event.isDeliver] at he

/-- Nothing is recorded while a flush is in flight. -/
lemma committed_eq (hs : TurnState s) (h : Kanta.step E s e = some s') (hG : Turn s e s')
    (hf : s.core.flights ≠ []) : s'.core.store.committed.length = s.core.store.committed.length := by
  have hop : e.isOperation = false := by
    by_contra hop
    exact hf (hG.alone (by simpa using hop)).flights
  cases (step_effect hs.one.control h).recorded with
  | kept _ hc => rw [hc]
  | aborted _ _ hcore => rw [hcore]
  | refused _ _ _ hc => rw [hc]
  | loaded _ _ hc => rw [hc]
  | change p q hp =>
    cases e with
    | commit | «open» => simp [Event.isOperation] at hop
    | _ => simp [previous] at hp

/-- **Every step keeps the invariant.** -/
theorem step (hs : TurnState s) (h : Kanta.step E s e = some s') (hG : Turn s e s') : TurnState s' := by
  have heff := step_effect hs.one.control h
  refine ⟨hs.one.step h hG.single, ?_, heff.strays_nil hs.strays (hs.flights_deliver h),
    heff.complete hG.succeeds hs.complete, hG.unfailed, fun hc => ?_⟩
  · exact hs.whole.effect heff hs.one.single hG.single fun ⟨p, hp, _⟩ =>
      hs.committed_eq h hG (List.ne_nil_of_mem hp)
  · cases hc0 : s.cancelling with
    | true =>
      rcases (hs.cancelling hc0).delivers hc0 hs.strays h hG with he | hc'
      · cases e with
        | deliver => simp [not_cancelling_deliver h] at hc
        | _ => simp [Event.isDeliver] at he
      · exact hc'
    | false =>
      rcases (step_flow h).cancels hc with hc' | ⟨clock, rfl⟩
      · simp [hc0] at hc'
      · exact cancelling_close (hG.alone rfl) hc0 h hc

/-- A flush that ends has emptied the queue. -/
lemma pending_of_ended (hs : TurnState s) (h : Kanta.step E s e = some s') {o : Owner}
    (hend : s'.ended = some (o, .ok ())) : s'.core.store.pending = [] := by
  cases (step_flow h).ended _ hend with
  | idle _ hp => exact hp
  | failed _ _ hfail => simp [hs.unfailed] at hfail
  | popped clock batch he hl hlen hcore =>
    rw [hcore]
    exact hs.whole.drop_eq_nil hs.one.single hl trivial

/-- **No snapshot is ahead of the log**, and no batch is written twice. -/
lemma level (hs : TurnState s) (h : Kanta.step E s e = some s') (hG : Turn s e s')
    (hempty : e.isOpen = true → s.core.store.pending = [])
    (hlossless : s.core.store.committed.length < s'.core.store.committed.length →
      (previous E s e).all fun p => lossless p s'.core.store.statedict) : Level E s e s' where
  single := hG.single
  not_written he := by simp [Core.hasWritten, hs.flights_deliver h he]
  not_left he := by
    cases e with
    | stray => exact absurd hs.strays (step_stray h)
    | _ => simp [Event.isStray] at he
  lossless := hlossless
  settled he := ⟨hempty he, hs.complete⟩
  calm hend hsn := by
    obtain ⟨sn, hsn⟩ := Option.isSome_iff_exists.mp hsn
    rcases (step_flow h).snapping sn hsn with ⟨-, hjob⟩ | ⟨-, o, hend⟩
    · simp [ended_job h hjob] at hend
    · exact hs.pending_of_ended h hend

end TurnState

end Kanta
