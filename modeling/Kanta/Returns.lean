import Kanta.Steps

/-!
# When a flush returns

`Returns` relates the state in which a flush returns to the state just before; `Flow` says of every
step how a flush can have ended in it, how a snapshot can have come under way, and when the flags
of the instance change.
-/

namespace Kanta

open Kanta.Lib Kanta.Lib.Assoc

variable {E : Env}

/-! ### What a committed change does to the store -/

namespace Store

/-- Nothing has changed and no record is forced, or a record is queued. -/
lemma queueChange_cases {store store' : Store} {action : String} {current : Dict} {user : Option String}
    {mtime : Mtime} {force : Bool} {clock : Except Exc DateTime} {record : Option ChangeRecord}
    (h : store.queueChange action current user mtime force clock = .ok (record, store')) :
    (record = none ∧ store' = store ∧ delta store.statedict current = none ∧ force = false) ∨
      ∃ r : ChangeRecord, record = some r ∧ store' = store.append r current ∧ r.v = store.version ∧
        r.a = action ∧ r.diff = (delta store.statedict current).getD .empty := by
  unfold queueChange at h
  split at h
  · rename_i hd
    obtain ⟨rfl, rfl⟩ := Prod.mk.inj (Except.ok.inj h)
    exact Or.inl ⟨rfl, rfl, hd, rfl⟩
  · obtain ⟨now, -, h⟩ := bind_eq_ok.mp h
    obtain ⟨rfl, rfl⟩ := Prod.mk.inj (Except.ok.inj h)
    exact Or.inr ⟨_, rfl, rfl, rfl, rfl, rfl⟩

end Store

/-! ### The coroutine goes on -/

/-- The snapshot under way was taken of the state as it is. -/
structure Fresh (E : Env) (s : State) (sn : Snapping) : Prop where
  snap : sn.snap = ⟨sn.snap.ts, s.core.store.version, s.core.store.statedict, s.core.store.mtime⟩
  payload : E.ser.encodeSnapshot sn.snap = .ok sn.payload
  offset : sn.offset = s.core.file.length

/-- What may change when `o` goes on after a flush that ended in `r`. -/
structure Returns (E : Env) (t s' : State) (o : Owner) (r : Except Exc Unit) : Prop where
  core : s'.core = t.core
  ended : s'.ended = some (o, r)
  flushFailed : s'.flushFailed = t.flushFailed
  entered : s'.entered = t.entered
  cancelling : s'.cancelling = t.cancelling
  snapping : s'.snapping = t.snapping ∨ r = .ok () ∧ ∃ sn, s'.snapping = some sn ∧ Fresh E s' sn
  opened : s'.opened = t.opened ∨ s'.opened = false ∧ o = .closing ∧ r = .ok ()
  closed : o = .closing → r = .ok () → s'.opened = false
  session : s'.session = t.session ∨ s'.session = t.entered ∧ o = .opening

/-- What a snapshot, or the decision against one, leaves alone. -/
structure Passes (E : Env) (t s' : State) (next : Next) : Prop where
  core : s'.core = t.core
  ended : s'.ended = t.ended
  flushFailed : s'.flushFailed = t.flushFailed
  entered : s'.entered = t.entered
  cancelling : s'.cancelling = t.cancelling
  opened : s'.opened = t.opened
  snapping : s'.snapping = t.snapping ∨ ∃ sn, s'.snapping = some sn ∧ Fresh E s' sn
  session : s'.session = t.session ∨ s'.session = t.entered ∧ next = .spawn

namespace Passes

lemma andThen (t : State) (next : Next) : Passes E t (t.andThen next) next := by
  cases next with
  | sleep => exact ⟨rfl, rfl, rfl, rfl, rfl, rfl, Or.inl rfl, Or.inl rfl⟩
  | finish => exact ⟨rfl, rfl, rfl, rfl, rfl, rfl, Or.inl rfl, Or.inl rfl⟩
  | spawn => exact ⟨rfl, rfl, rfl, rfl, rfl, rfl, Or.inl rfl, Or.inr ⟨rfl, rfl⟩⟩

lemma andRaise (t : State) (e : Exc) (next : Next) : Passes E t (t.andRaise e next) next := by
  cases next <;> exact ⟨rfl, rfl, rfl, rfl, rfl, rfl, Or.inl rfl, Or.inl rfl⟩

lemma maybeSnapshot (t : State) (next : Next) (clock : Except Exc DateTime) :
    Passes E t (t.maybeSnapshot E next clock) next := by
  unfold State.maybeSnapshot
  split
  · exact andRaise t _ next
  · exact andThen t next
  · split
    · dsimp only
      split
      · exact andThen t next
      · rename_i payload hp
        exact ⟨rfl, rfl, rfl, rfl, rfl, rfl, Or.inr ⟨_, rfl, rfl, hp, rfl⟩, Or.inl rfl⟩
    · exact andThen t next

end Passes

namespace Returns

lemma of_passes {t s' : State} {o : Owner} {r : Except Exc Unit} {next : Next}
    (h : Passes E { t with ended := some (o, r) } s' next) (hr : r = .ok ()) (ho : o ≠ .closing)
    (hn : next = .spawn → o = .opening) : Returns E t s' o r where
  core := h.core
  ended := h.ended
  flushFailed := h.flushFailed
  entered := h.entered
  cancelling := h.cancelling
  snapping := h.snapping.imp_right fun hsn => ⟨hr, hsn⟩
  opened := Or.inl h.opened
  closed hc := absurd hc ho
  session := h.session.imp_right fun ⟨h1, h2⟩ => ⟨h1, hn h2⟩

/-- **What follows a flush** keeps the shared data. -/
lemma afterFlush (t : State) (o : Owner) (r : Except Exc Unit) (clock : Except Exc DateTime) :
    Returns E t (t.afterFlush E o r clock) o r := by
  have hquiet : ∀ b : Background, o ≠ .closing →
      Returns E t { t with ended := some (o, r), background := b } o r := fun b ho =>
    ⟨rfl, rfl, rfl, rfl, rfl, Or.inl rfl, Or.inl rfl, fun h => absurd h ho, Or.inl rfl⟩
  cases o with
  | call n => exact hquiet t.background (by simp)
  | opening =>
    cases r with
    | error => exact hquiet t.background (by simp)
    | ok => exact of_passes (Passes.maybeSnapshot _ .spawn clock) rfl (by simp) fun _ => rfl
  | closing =>
    cases r with
    | error => exact ⟨rfl, rfl, rfl, rfl, rfl, Or.inl rfl, Or.inl rfl, by simp, Or.inl rfl⟩
    | ok => exact ⟨rfl, rfl, rfl, rfl, rfl, Or.inl rfl, Or.inr ⟨rfl, rfl, rfl⟩, fun _ _ => rfl, Or.inl rfl⟩
  | background =>
    unfold State.afterFlush
    dsimp only
    split
    · exact of_passes (Passes.maybeSnapshot _ .sleep clock) rfl (by simp) (by simp)
    · exact hquiet _ (by simp)
    · exact of_passes (Passes.maybeSnapshot _ .finish clock) rfl (by simp) (by simp)
    · exact hquiet _ (by simp)

end Returns

/-- A flush that starts is in flight, or returns at once: it is refused, or there is nothing it
would write. -/
lemma startFlush_returns (t : State) (o : Owner) (clock : Except Exc DateTime) :
    (∃ r, Returns E t (t.startFlush E o clock) o r ∧
        (r = .ok () → t.opened = true ∧ (t.flushFailed = true ∨ t.core.store.pending = []))) ∨
      t.startFlush E o clock = { t with core := t.core.begin o } := by
  unfold State.startFlush
  split
  · exact Or.inl ⟨_, .afterFlush t o _ clock, by simp⟩
  · rename_i ho
    have ho : t.opened = true := by simpa using ho
    split
    · exact Or.inl ⟨_, .afterFlush t o _ clock, fun _ => ⟨ho, Or.inl ‹_›⟩⟩
    · split
      · exact Or.inl ⟨_, .afterFlush t o _ clock, fun _ => ⟨ho, Or.inr ‹_›⟩⟩
      · exact Or.inr rfl

/-! ### Every step -/

/-- How a flush can have returned normally in a step. -/
inductive Finished (s : State) (e : Event) (s' : State) (o : Owner) : Prop
  /-- It has written and takes its batch off the queue. -/
  | popped (clock : Except Exc DateTime) (batch : List (Queued × Bytes)) (he : e = .resume o clock)
      (h : s.core.flights.lookup o = some (.writing batch (some (.ok ()))))
      (hlen : batch.length ≤ s.core.store.pending.length)
      (hcore : s'.core = { s.core with
        flights := remove o s.core.flights
        store.pending := s.core.store.pending.drop batch.length })
  /-- There was nothing to write. -/
  | idle (ho : s.opened = true ∨ ∃ a, e = .open a) (h : s'.core.store.pending = [])
  /-- An earlier flush has failed. -/
  | failed (ho : s.opened = true ∨ ∃ a, e = .open a) (he : e.flushes = true) (h : s.flushFailed = true)

/-- What a step can do besides its effect on the shared data. -/
structure Flow (E : Env) (s : State) (e : Event) (s' : State) : Prop where
  ended : ∀ o, s'.ended = some (o, .ok ()) → Finished s e s' o
  snapping : ∀ sn, s'.snapping = some sn →
    (s.snapping = some sn ∧ e.IsJob) ∨ Fresh E s' sn ∧ ∃ o, s'.ended = some (o, .ok ())
  flushFailed : s'.flushFailed = s.flushFailed ∨
    ∃ o clock, e = .resume o clock ∧ s.core.flights.lookup o ≠ none ∧
      s'.core.flights = remove o s.core.flights
  shuts : s.opened = true → s'.opened = false → s'.ended = some (.closing, .ok ())
  closed : s'.ended = some (.closing, .ok ()) → s'.opened = false
  opens : s.opened = false → s'.opened = true → (∃ a, e = .open a) ∧
    (s.core.file = [] → s.core.store.committed.length < s'.core.store.committed.length)
  session : s'.session = s.session ∨ (∃ a, e = .open a) ∨ (∃ clock, e = .resume .opening clock) ∨
    ∃ outcome, e = .snapshotWrite outcome
  entered : ∀ a, e = .open a → s'.session = s.session ∨ s'.session = s.core.store.committed.length
  bootstraps : e.isOpen = true → s.core.file = [] → s'.snapping = none
  cancels : s'.cancelling = true → s.cancelling = true ∨ ∃ clock, e = .close clock

namespace Flow

variable {s s' : State} {e : Event}

/-- No flush returns, no snapshot begins, and the instance is as open as before. -/
lemma still (hend : s'.ended = none) (hsn : s'.snapping = none) (hf : s'.flushFailed = s.flushFailed)
    (ho : s'.opened = s.opened) (hses : s'.session = s.session)
    (hc : s'.cancelling = true → s.cancelling = true ∨ ∃ clock, e = .close clock) : Flow E s e s' where
  ended o h := by simp [hend] at h
  snapping sn h := by simp [hsn] at h
  flushFailed := Or.inl hf
  shuts h1 h2 := by simp [ho, h1] at h2
  closed h := by simp [hend] at h
  opens h1 h2 := by simp [ho, h1] at h2
  session := Or.inl hses
  entered _ _ := Or.inl hses
  bootstraps _ _ := hsn
  cancels := hc

/-- A flush of `o` returns in the state `t`. -/
lemma of_returns {t : State} {o : Owner} {r : Except Exc Unit} (hr : Returns E t s' o r)
    (hsn : t.snapping = none) (hfin : r = .ok () → Finished s e s' o)
    (hf : t.flushFailed = s.flushFailed ∨ ∃ o clock, e = .resume o clock ∧
      s.core.flights.lookup o ≠ none ∧ s'.core.flights = remove o s.core.flights)
    (ho : t.opened = s.opened ∨ t.opened = true ∧ (∃ a, e = .open a) ∧ s.core.file ≠ []) (hses : t.session = s.session)
    (hopen : o = .opening → (∃ a, e = .open a) ∨ ∃ clock, e = .resume .opening clock)
    (hent : ∀ a, e = .open a → t.entered = s.core.store.committed.length ∧ s.core.file ≠ [])
    (hc : t.cancelling = true → s.cancelling = true) : Flow E s e s' where
  ended o' h := by
    rw [hr.ended] at h
    obtain ⟨rfl, hok⟩ := Prod.mk.inj (Option.some.inj h)
    exact hfin hok
  snapping sn h := by
    rcases hr.snapping with h' | ⟨rfl, sn', h', hfresh⟩
    · rw [h', hsn] at h
      simp at h
    · obtain rfl := Option.some.inj (h'.symm.trans h)
      exact Or.inr ⟨hfresh, o, hr.ended⟩
  flushFailed := by
    rw [hr.flushFailed]
    exact hf
  shuts h1 h2 := by
    rcases hr.opened with h | ⟨-, rfl, rfl⟩
    · rcases ho with ho | ⟨ho, -⟩ <;> simp [h, ho, h1] at h2
    · exact hr.ended
  closed h := by
    rw [hr.ended] at h
    obtain ⟨hc, hok⟩ := Prod.mk.inj (Option.some.inj h)
    exact hr.closed hc hok
  opens h1 h2 := by
    rcases hr.opened with h | ⟨h, -⟩
    · rcases ho with ho | ⟨-, ho, hfile⟩
      · simp [h, ho, h1] at h2
      · exact ⟨ho, fun h => absurd h hfile⟩
    · simp [h] at h2
  session := by
    rcases hr.session with h | ⟨-, h⟩
    · exact Or.inl (h.trans hses)
    · exact Or.inr ((hopen h).imp_right Or.inl)
  entered a he := by
    rcases hr.session with h | ⟨h, -⟩
    · exact Or.inl (h.trans hses)
    · exact Or.inr (h.trans (hent a he).1)
  bootstraps he hfile := by
    cases e <;> simp [Event.isOpen] at he
    exact absurd hfile (hent _ rfl).2
  cancels h := Or.inl (hc (hr.cancelling ▸ h))

/-- A flush of `o` starts in the state `t`. -/
lemma startFlush {t : State} {o : Owner} {clock : Except Exc DateTime} (hsn : t.snapping = none)
    (hend : t.ended = none) (he : e.flushes = true) (hf : t.flushFailed = s.flushFailed)
    (ho : t.opened = s.opened ∨ t.opened = true ∧ (∃ a, e = .open a) ∧ s.core.file ≠ []) (hses : t.session = s.session)
    (hopen : o = .opening → ∃ a, e = .open a)
    (hent : ∀ a, e = .open a → t.entered = s.core.store.committed.length ∧ s.core.file ≠ [])
    (hc : t.cancelling = true → s.cancelling = true) : Flow E s e (t.startFlush E o clock) := by
  rcases startFlush_returns (E := E) t o clock with ⟨r, hr, hok⟩ | h
  · refine of_returns hr hsn (fun h => ?_) (Or.inl hf) ho hses (fun h => Or.inl (hopen h)) hent hc
    obtain ⟨hopen, h⟩ := hok h
    have ho : s.opened = true ∨ ∃ a, e = .open a := ho.imp (fun ho => ho.symm.trans hopen) fun ho => ho.2.1
    rcases h with h | h
    · exact .failed ho he (hf ▸ h)
    · exact .idle ho (hr.core ▸ h)
  · rw [h]
    refine ⟨fun o h => ?_, fun sn h => ?_, Or.inl hf, fun h1 h2 => ?_, fun h => ?_, fun h1 h2 => ?_,
      Or.inl hses, fun _ _ => Or.inl hses, fun _ _ => hsn, fun h => Or.inl (hc h)⟩
    · simp [hend] at h
    · simp [hsn] at h
    · rcases ho with ho | ⟨ho, -⟩ <;> simp [ho, h1] at h2
    · simp [hend] at h
    · rcases ho with ho | ⟨-, ho, hfile⟩
      · simp [ho, h1] at h2
      · exact ⟨ho, fun h => absurd h hfile⟩

lemma failFlush {o : Owner} {exc : Exc} {clock : Except Exc DateTime} (hsn : s.snapping = none)
    (hl : s.core.flights.lookup o ≠ none) :
    Flow E s (.resume o clock) (s.failFlush E o exc clock) := by
  have hcore := s.failFlush_core (E := E) o exc clock
  have hf : ∃ o' clock', Event.resume o clock = .resume o' clock' ∧ s.core.flights.lookup o' ≠ none ∧
      (s.failFlush E o exc clock).core.flights = remove o' s.core.flights :=
    ⟨o, clock, rfl, hl, by rw [hcore]⟩
  revert hf
  unfold State.failFlush
  dsimp only
  split <;> intro hf
  · exact of_returns (.afterFlush _ o _ clock) hsn (by simp) (Or.inr hf) (Or.inl rfl) rfl
      (fun h => Or.inr ⟨clock, h ▸ rfl⟩) (by simp) id
  · exact of_returns (.afterFlush _ o _ clock) hsn (by simp) (Or.inr hf) (Or.inl rfl) rfl
      (fun h => Or.inr ⟨clock, h ▸ rfl⟩) (by simp) id

lemma resumeFlush {o : Owner} {clock : Except Exc DateTime} (hsn : s.snapping = none)
    (hend : s.ended = none) (h : s.resumeFlush E o clock = some s') : Flow E s (.resume o clock) s' := by
  unfold State.resumeFlush at h
  split at h
  · rename_i hl
    split at h
    · obtain rfl := Option.some.inj h
      exact still hend hsn rfl rfl rfl Or.inl
    · obtain rfl := Option.some.inj h
      exact failFlush hsn (by simp [hl])
  · rename_i batch hl
    obtain rfl := Option.some.inj h
    have hcore := s.popBatch_core (E := E) o batch.length clock
    unfold State.popBatch at hcore ⊢
    refine of_returns (.afterFlush _ o _ clock) hsn (fun hok => ?_) (Or.inl rfl) (Or.inl rfl) rfl
      (fun h => Or.inr ⟨clock, h ▸ rfl⟩) (by simp) id
    split at hok
    · exact .popped clock batch rfl hl ‹_› hcore
    · simp at hok
  · rename_i hl
    obtain rfl := Option.some.inj h
    exact failFlush hsn (by simp [hl])
  · rename_i hl
    obtain rfl := Option.some.inj h
    exact failFlush hsn (by simp [hl])
  · simp at h

lemma openDb {a : Opening} (hsn : s.snapping = none) (hend : s.ended = none)
    (h : s.openDb E a = some s') : Flow E s (.open a) s' := by
  unfold State.openDb at h
  split at h
  · simp at h
  · rename_i ho
    have ho : s.opened = false := by simpa using ho
    have key : ∀ t : State, t.ended = none → t.snapping = none → t.flushFailed = s.flushFailed →
        (t.session = s.session ∨ t.session = s.core.store.committed.length) →
        t.cancelling = s.cancelling →
        (t.opened = true → s.core.file = [] →
          s.core.store.committed.length < t.core.store.committed.length) →
        Flow E s (.open a) t := fun t h1 h2 h3 h4 h5 h6 =>
        { ended := fun o h => by simp [h1] at h
          snapping := fun sn h => by simp [h2] at h
          flushFailed := Or.inl h3
          shuts := fun h => by simp [ho] at h
          closed := fun h => by simp [h1] at h
          opens := fun _ h => ⟨⟨a, rfl⟩, h6 h⟩
          session := Or.inr (Or.inl ⟨a, rfl⟩)
          entered := fun _ _ => h4
          bootstraps := fun _ _ => h2
          cancels := fun h => Or.inl (h5 ▸ h) }
    dsimp only at h
    split at h
    · obtain rfl := Option.some.inj h
      unfold State.bootstrap
      split
      · exact key _ hend hsn rfl (Or.inl rfl) rfl (by simp)
      · dsimp only
        split
        · exact key _ hend hsn rfl (Or.inl rfl) rfl (by simp)
        · rename_i hq
          refine key _ hend hsn rfl (Or.inr rfl) rfl fun _ _ => ?_
          rcases Store.queueChange_cases hq with ⟨-, -, -, h⟩ | ⟨r, -, rfl, -⟩
          · simp at h
          · simp [Store.append, State.andThen]
    · rename_i hfile
      have hne : ∀ t : State, t.opened = true → s.core.file = [] →
          s.core.store.committed.length < t.core.store.committed.length := fun _ _ h => absurd h hfile
      split at h
      · obtain rfl := Option.some.inj h
        exact key _ hend hsn rfl (Or.inl rfl) rfl (hne _)
      · split at h
        · obtain rfl := Option.some.inj h
          exact key _ hend hsn rfl (Or.inl rfl) rfl (hne _)
        · obtain rfl := Option.some.inj h
          unfold State.load
          split
          · exact key _ hend hsn rfl (Or.inl rfl) rfl (hne _)
          · dsimp only
            split
            · exact key _ hend hsn rfl (Or.inl rfl) rfl (hne _)
            · exact key _ hend hsn rfl (Or.inl rfl) rfl (hne _)
            · split
              · exact key _ hend hsn rfl (Or.inl rfl) rfl (hne _)
              · split
                · exact startFlush hsn hend rfl rfl (Or.inr ⟨rfl, ⟨a, rfl⟩, hfile⟩) rfl (fun _ => ⟨a, rfl⟩)
                    (fun _ _ => ⟨rfl, hfile⟩) id
                · exact key _ hend hsn rfl (Or.inr rfl) rfl (hne _)

lemma writeSnapshot {sn : Snapping} {outcome : Outcome} (hend : s.ended = none) :
    Flow E s (.snapshotWrite outcome) (s.writeSnapshot E sn outcome) := by
  have key : ∀ t : State, t.ended = none → t.snapping = none → t.flushFailed = s.flushFailed →
      t.opened = s.opened → t.cancelling = s.cancelling →
      Flow E s (.snapshotWrite outcome) (t.andThen sn.next) := fun t h1 h2 h3 h4 h5 => by
    have hp := Passes.andThen (E := E) t sn.next
    have hsn : (t.andThen sn.next).snapping = none := by
      cases hn : sn.next <;> simpa [State.andThen] using h2
    exact
      { ended := fun o h => by simp [hp.ended, h1] at h
        snapping := fun sn h => by simp [hsn] at h
        flushFailed := Or.inl (hp.flushFailed.trans h3)
        shuts := fun h h' => by simp [hp.opened, h4, h] at h'
        closed := fun h => by simp [hp.ended, h1] at h
        opens := fun h h' => by simp [hp.opened, h4, h] at h'
        session := Or.inr (Or.inr (Or.inr ⟨outcome, rfl⟩))
        entered := fun a h => by simp at h
        bootstraps := fun h => by simp [Event.isOpen] at h
        cancels := fun h => Or.inl (h5 ▸ hp.cancelling ▸ h) }
  unfold State.writeSnapshot
  dsimp only
  split
  · exact key _ hend rfl rfl rfl rfl
  · split
    · exact key _ hend rfl rfl rfl rfl
    · exact key _ hend rfl rfl rfl rfl

lemma loopStep (hsn : s.snapping = none) (hend : s.ended = none)
    (h : Kanta.loopStep E s e = some s') : Flow E s e s' := by
  cases e with
  | commit c =>
    simp only [Kanta.loopStep] at h
    split at h
    · obtain rfl := Option.some.inj h
      exact still hend hsn rfl rfl rfl Or.inl
    · simp at h
  | call n clock =>
    simp only [Kanta.loopStep] at h
    split at h
    · simp at h
    · obtain rfl := Option.some.inj h
      exact startFlush hsn hend rfl rfl (Or.inl rfl) rfl (by simp) (by simp) id
  | resume o clock =>
    simp only [Kanta.loopStep] at h
    split at h
    · simp at h
    · exact resumeFlush hsn hend h
  | start =>
    simp only [Kanta.loopStep] at h
    split at h
    · obtain rfl := Option.some.inj h
      exact still hend hsn rfl rfl rfl Or.inl
    · simp at h
  | wake clock =>
    simp only [Kanta.loopStep] at h
    split at h
    · obtain rfl := Option.some.inj h
      exact startFlush hsn hend rfl rfl (Or.inl rfl) rfl (by simp) (by simp) id
    · simp at h
  | deliver survives clock =>
    simp only [Kanta.loopStep, State.deliver] at h
    split at h
    · split at h
      · obtain rfl := Option.some.inj h
        exact still hend hsn rfl rfl rfl fun h => absurd h Bool.false_ne_true
      · obtain rfl := Option.some.inj h
        exact startFlush hsn hend rfl rfl (Or.inl rfl) rfl (by simp) (by simp)
          fun h => absurd h Bool.false_ne_true
      · obtain rfl := Option.some.inj h
        exact startFlush hsn hend rfl rfl (Or.inl rfl) rfl (by simp) (by simp)
          fun h => absurd h Bool.false_ne_true
      · obtain rfl := Option.some.inj h
        exact still hend hsn rfl rfl rfl fun h => absurd h Bool.false_ne_true
      · simp at h
    · simp at h
  | reported =>
    simp only [Kanta.loopStep] at h
    split at h
    · obtain rfl := Option.some.inj h
      exact still hend hsn rfl rfl rfl Or.inl
    · simp at h
  | request =>
    obtain rfl := Option.some.inj h
    exact still hend hsn rfl rfl rfl Or.inl
  | close clock =>
    simp only [Kanta.loopStep, State.close] at h
    split at h
    · simp at h
    · split at h
      · obtain rfl := Option.some.inj h
        exact still hend hsn rfl rfl rfl Or.inl
      · split at h
        · obtain rfl := Option.some.inj h
          exact startFlush hsn hend rfl rfl (Or.inl rfl) rfl (by simp) (by simp) id
        · obtain rfl := Option.some.inj h
          exact startFlush hsn hend rfl rfl (Or.inl rfl) rfl (by simp) (by simp) id
        · obtain rfl := Option.some.inj h
          exact still hend hsn rfl rfl rfl Or.inl
        · obtain rfl := Option.some.inj h
          exact still hend hsn rfl rfl rfl fun _ => Or.inr ⟨clock, rfl⟩
  | join clock =>
    simp only [Kanta.loopStep, State.join] at h
    split at h
    · split at h
      · obtain rfl := Option.some.inj h
        exact startFlush hsn hend rfl rfl (Or.inl rfl) rfl (by simp) (by simp) id
      · obtain rfl := Option.some.inj h
        exact still hend hsn rfl rfl rfl Or.inl
      · simp at h
    · simp at h
  | «open» a => exact openDb hsn hend h
  | work | stray | snapshotWrite => simp [Kanta.loopStep] at h

/-- A worker thread leaves the coroutines alone. -/
lemma worker {core : Core} (he : e.IsJob) :
    Flow E s e { s with core := core, ended := none } where
  ended o h := by simp at h
  snapping sn h := Or.inl ⟨h, he⟩
  flushFailed := Or.inl rfl
  shuts h1 h2 := by simp [h1] at h2
  closed h := by simp at h
  opens h1 h2 := by simp [h1] at h2
  session := Or.inl rfl
  entered _ _ := Or.inl rfl
  bootstraps h := by cases e <;> simp_all [Event.isOpen, Event.IsJob]
  cancels := Or.inl

end Flow

/-- **What a step does besides its effect on the shared data.** -/
theorem step_flow {s s' : State} {e : Event} (h : step E s e = some s') : Flow E s e s' := by
  have tick : Flow E { s with ended := none } e s' → Flow E s e s' := fun h =>
    { ended := fun o ho => by
        cases h.ended o ho with
        | popped clock batch he h hlen hcore => exact .popped clock batch he h hlen hcore
        | idle ho h => exact .idle ho h
        | failed ho he h => exact .failed ho he h
      snapping := h.snapping
      flushFailed := h.flushFailed
      shuts := h.shuts
      closed := h.closed
      opens := h.opens
      session := h.session
      entered := h.entered
      bootstraps := h.bootstraps
      cancels := h.cancels }
  unfold step at h
  dsimp only at h
  split at h
  · unfold State.work at h
    split at h
    · obtain rfl := Option.some.inj h
      exact .worker trivial
    · obtain rfl := Option.some.inj h
      exact .worker trivial
    · simp at h
  · unfold State.workStray at h
    split at h
    · simp at h
    · obtain rfl := Option.some.inj h
      exact .worker trivial
  · obtain rfl := Option.some.inj h
    exact tick (.writeSnapshot rfl)
  · simp at h
  · rename_i hsn
    exact tick (.loopStep hsn rfl h)

/-- `open` is refused while the instance is open, and leaves the queue alone when it closes it again. -/
lemma step_open {s s' : State} {e : Event} (h : step E s e = some s') (he : e.isOpen = true) :
    s.opened = false ∧ (s'.opened = false → s'.core.store.pending = s.core.store.pending) := by
  obtain ⟨a, rfl⟩ : ∃ a, e = .open a := by cases e <;> simp_all [Event.isOpen]
  have hopening : ∀ t : State, t.opened = true → (t.startFlush E .opening a.clock).opened = true := by
    intro t ht
    rcases startFlush_returns (E := E) t .opening a.clock with ⟨r, hr, -⟩ | hbegin
    · rcases hr.opened with ho | ⟨-, ho, -⟩
      · rw [ho, ht]
      · simp at ho
    · rw [hbegin]
      exact ht
  unfold step at h
  dsimp only at h
  split at h <;> try contradiction
  simp only [loopStep] at h
  unfold State.openDb at h
  split at h
  · simp at h
  rename_i hopen
  refine ⟨by simpa using hopen, ?_⟩
  dsimp only at h
  split at h
  · obtain rfl := Option.some.inj h
    unfold State.bootstrap
    split
    · exact fun _ => rfl
    · dsimp only
      split
      · exact fun _ => rfl
      · simp [State.andThen]
  · split at h
    · obtain rfl := Option.some.inj h
      simp
    · split at h
      · obtain rfl := Option.some.inj h
        simp
      · obtain rfl := Option.some.inj h
        unfold State.load
        split
        · simp
        · dsimp only
          split
          · simp
          · exact fun _ => rfl
          · split
            · simp
            · split
              · exact fun ho => by simp [hopening] at ho
              · simp [State.andThen]

/-- Only a task that has been cancelled sees the cancellation. -/
lemma step_deliver {s s' : State} {survives : Bool} {clock : Except Exc DateTime}
    (h : step E s (.deliver survives clock) = some s') : s.cancelling = true := by
  by_contra hc
  unfold step at h
  dsimp only at h
  split at h <;> simp_all [loopStep, State.deliver]

/-- Only a write that was left behind can be run. -/
lemma step_stray {s s' : State} {outcome : Outcome} (h : step E s (.stray outcome) = some s') :
    s.core.strays ≠ [] := by
  intro hc
  unfold step at h
  simp [State.workStray, hc] at h

end Kanta
