import Kanta.Returns

/-!
# What a successful `open` has done

`open` sets `opened` before it reads the file, and most of what can fail behind that leaves it set.
`Stranded` is the state in which such an `open` has raised, and `step_opened` says what the others
have read and queued.
-/

namespace Kanta

open Kanta.Lib Kanta.Lib.Assoc

variable {E : Env}

/-- `open` has raised, and has left the instance open, without its background task. -/
structure Stranded (s : State) : Prop where
  opened : s.opened = true
  background : s.background = .absent
  closing : s.closing = .idle
  opening : s.core.flights.lookup .opening = none
  snapping : s.snapping = none

/-- `open` has begun, and has neither returned nor closed the file again. -/
structure Entering (s : State) : Prop where
  opened : s.opened = true
  background : s.background = .absent
  closing : s.closing = .idle

lemma Entering.waits {s : State} (h : Entering s) (hn : ¬Stranded s) :
    s.core.flights.lookup .opening ≠ none ∨ ∃ sn, s.snapping = some sn := by
  by_contra hno
  simp only [not_or, ne_eq, not_not, not_exists] at hno
  exact hn ⟨h.opened, h.background, h.closing, hno.1, Option.eq_none_iff_forall_ne_some.mpr hno.2⟩

/-- Whether there is no background task. -/
def Background.isAbsent : Background → Bool
  | .absent => true
  | _ => false

lemma Background.isAbsent_iff {b : Background} : b.isAbsent = true ↔ b = .absent := by
  cases b <;> simp [isAbsent]

instance (s : State) : Decidable (Stranded s) :=
  decidable_of_iff
    (s.opened = true ∧ s.background.isAbsent = true ∧ s.closing = .idle ∧
      (s.core.flights.lookup .opening).isNone = true ∧ s.snapping.isNone = true)
    ⟨fun ⟨h1, h2, h3, h4, h5⟩ => ⟨h1, Background.isAbsent_iff.mp h2, h3, Option.isNone_iff_eq_none.mp h4,
        Option.isNone_iff_eq_none.mp h5⟩,
      fun h => ⟨h.opened, Background.isAbsent_iff.mpr h.background, h.closing, by simp [h.opening],
        by simp [h.snapping]⟩⟩

instance (s : State) : Decidable (Entering s) :=
  decidable_of_iff (s.opened = true ∧ s.background.isAbsent = true ∧ s.closing = .idle)
    ⟨fun ⟨h1, h2, h3⟩ => ⟨h1, Background.isAbsent_iff.mp h2, h3⟩,
      fun h => ⟨h.opened, Background.isAbsent_iff.mpr h.background, h.closing⟩⟩

/-- The migrations of an instance, which it may have none of. -/
def Env.migrate (E : Env) (state : Dict) (version : ℤ) : Except Exc (Dict × ℤ) :=
  (E.migrations.map fun reg => reg.apply state version).getD (.ok (state, version))

/-- What `open` has read from a file with content, and what it has queued. -/
structure LoadedFrom (E : Env) (s : State) (a : Opening) (rr : ReplayResult) (state migrated normalized : Dict)
    (version : ℤ) (record : Option ChangeRecord) (store : Store) : Prop where
  replays : replay E.blake3 E.ser s.core.framer s.core.file = .ok rr
  dict : rr.state = state.val
  migrates : E.migrate state rr.version = .ok (migrated, version)
  normalizes : a.normalize migrated = .ok normalized
  validated : a.validated = .ok ()
  queued : ∃ action, ({ s.core.store with statedict := state, version := version, mtime := rr.m } : Store).queueChange
    action normalized none .omit false a.clock = .ok (record, store)

/-- A flush that starts leaves the store alone. -/
lemma startFlush_store (t : State) (o : Owner) (clock : Except Exc DateTime) :
    (t.startFlush E o clock).core.store = t.core.store := by
  rcases t.startFlush_core (E := E) o clock with h | ⟨-, -, -, h⟩ <;> rw [h]

/-- What `open` leaves behind when it has not raised yet. -/
inductive Opened (E : Env) (s : State) (a : Opening) (s' : State) : Prop
  /-- A new database. -/
  | created (current : Dict) (record : Option ChangeRecord) (store : Store) (hfile : s.core.file = [])
      (hcurrent : a.bootstrap = .ok current)
      (hqueue : ({ s.core.store with statedict := .empty } : Store).queueChange a.action current a.user a.mtime true
        a.clock = .ok (record, store))
      (hcore : s'.core = { s.core with store := store }) (hready : s'.background = .ready)
      (hsnapping : s'.snapping = none) (hsnapshot : s'.snapshot = s.snapshot)
  /-- A database that was there. -/
  | loaded (rr : ReplayResult) (state migrated normalized : Dict) (version : ℤ) (record : Option ChangeRecord)
      (t : State) (hfile : s.core.file ≠ [])
      (hload : LoadedFrom E s a rr state migrated normalized version record t.core.store)
      (hcore : t.core = { s.core with framer := s.core.framer.reload s.core.file, store := t.core.store })
      (hentering : Entering t) (hisOpen : t.isOpen = true) (hfailed : t.flushFailed = s.flushFailed)
      (hsnapping : t.snapping = none) (hforce : t.snapshot.forcePending = s.snapshot.forcePending)
      (hs' : s' = if version ≠ rr.version ∨ record.isSome then
          { t with snapshot := t.snapshot.requestForce }.startFlush E .opening a.clock
        else t.andThen .spawn)

/-- **A successful `open`.** -/
theorem step_opened {s s' : State} {a : Opening} (hs : Control s) (h : step E s (.open a) = some s')
    (ho : s'.opened = true) (hn : ¬Stranded s') : Opened E s a s' := by
  unfold step at h
  cases hsn : s.snapping with
  | some sn => simp [hsn] at h
  | none =>
    simp only [hsn, loopStep, State.openDb] at h
    split at h
    · simp at h
    rename_i hopen
    have hopen : s.opened = false := by simpa using hopen
    have hback := hs.shut hopen
    have hclosing : s.closing = .idle := by
      by_contra hc
      simp [hs.closing_opened hc] at hopen
    have hfree : s.core.flights.lookup .opening = none := hs.flight_none (by simp [Owner.Awaits, hopen])
    -- an `open` that raises leaves the rest as it was
    have hstranded : ∀ t : State, t.opened = true → t.background = s.background → t.closing = s.closing →
        t.core.flights = s.core.flights → t.snapping = none → Stranded t := by
      intro t h1 h2 h3 h4 h5
      exact ⟨h1, h2.trans hback, h3.trans hclosing, by rw [h4]; exact hfree, h5⟩
    split at h
    · rename_i hfile
      obtain rfl := Option.some.inj h
      unfold State.bootstrap at ho ⊢
      split at ho
      · simp at ho
      · rename_i current hcurrent
        dsimp only at ho ⊢
        split at ho
        · simp at ho
        · rename_i record store hqueue
          exact .created current record store hfile hcurrent hqueue rfl rfl rfl rfl
    · rename_i hfile
      split at h
      · obtain rfl := Option.some.inj h
        exact (hn (hstranded _ rfl rfl rfl rfl rfl)).elim
      · rename_i rr hrr
        split at h
        · obtain rfl := Option.some.inj h
          exact (hn (hstranded _ rfl rfl rfl rfl rfl)).elim
        · rename_i state hstate
          obtain rfl := Option.some.inj h
          unfold State.load at ho hn ⊢
          split at hn
          · exact (hn (hstranded _ rfl rfl rfl rfl rfl)).elim
          · rename_i migrated version hmigrates
            dsimp only at hn ⊢
            split at hn
            · exact (hn (hstranded _ rfl rfl rfl rfl rfl)).elim
            · rename_i hnorm hvalid
              rw [hmigrates] at ho
              dsimp only at ho
              rw [hnorm, hvalid] at ho
              simp at ho
            · rename_i normalized hnorm hvalid
              split at hn
              · exact (hn (hstranded _ rfl rfl rfl rfl rfl)).elim
              · rename_i record store hqueue
                have hload : LoadedFrom E s a rr state migrated normalized version record store :=
                  ⟨hrr, Dict.ofVal_eq_some.mp hstate, hmigrates, hnorm, hvalid, _, hqueue⟩
                exact .loaded rr state migrated normalized version record
                  { s with
                    core := { s.core with framer := s.core.framer.reload s.core.file, store := store }
                    opened := true
                    isOpen := true
                    snapshot := { s.snapshot with ts := rr.lastSnapshot.map E.fromTimestamp }
                    snapping := none
                    entered := s.core.store.committed.length
                    ended := none } hfile hload rfl ⟨rfl, hback, hclosing⟩ rfl rfl rfl rfl rfl

end Kanta
