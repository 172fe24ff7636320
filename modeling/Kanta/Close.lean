import Kanta.Placement

/-!
# What `close` leaves behind

`close_exactly_once`: when `close` has returned, the file holds the frame of every committed change
once, in order and at its offset, in every run in which the background loop, `open` and `close` are
the only ones to flush, no cancellation hits a flush between its write and its pop, no write that
was left behind reaches the open file, and nothing is committed while `close` awaits its last flush.
A cancellation at the wrong moment makes `close` write a batch twice (`cancelled_write_twice`).
-/

namespace Kanta

open Kanta.Lib Kanta.Lib.Assoc Kanta.Lib.Lts

variable {E : Env}

/-! ### Statement -/

/-- The file holds the frame of every committed change exactly once, in order, each frame at the
offset it was computed for, and it can be read. -/
structure ExactlyOnce (E : Env) (file : Bytes) (c : Core) : Prop where
  appended : c.file = file ++ c.log.flatMap Entry.bytes
  once : changesOf c.log = c.store.committed
  distinct : (c.store.committed.map Queued.id).Nodup
  placed : Placed E c.framer file.length c.log
  accepted : (c.framer.iterRecords E.blake3 c.file 0).error = none

/-- Transactions, the background loop, `open` and `close`, without an I/O error. -/
structure Undisturbed (e : Event) (s' : State) : Prop where
  no_call : e.isCall = false
  succeeds : e.succeeds = true
  unfailed : s'.flushFailed = false

instance (e : Event) (s' : State) : Decidable (Undisturbed e s') :=
  decidable_of_iff (e.isCall = false ∧ e.succeeds = true ∧ s'.flushFailed = false)
    ⟨fun ⟨h1, h2, h3⟩ => ⟨h1, h2, h3⟩, fun ⟨h1, h2, h3⟩ => ⟨h1, h2, h3⟩⟩

/-- The cancellation does not come between the write of a flush and its pop, a write that was left
behind finds the file closed, and nothing is committed while `close` awaits its flush. -/
structure Timely (s : State) (e : Event) (s' : State) : Prop where
  not_written : e.isDeliver = true → s.core.hasWritten = false
  not_left : e.isStray = true → s.isOpen = false
  not_late : s.closing = .flushing → s'.core.store.committed.length = s.core.store.committed.length

instance (s : State) (e : Event) (s' : State) : Decidable (Timely s e s') :=
  decidable_of_iff
    ((e.isDeliver = true → s.core.hasWritten = false) ∧ (e.isStray = true → s.isOpen = false) ∧
      (s.closing = .flushing → s'.core.store.committed.length = s.core.store.committed.length))
    ⟨fun ⟨h1, h2, h3⟩ => ⟨h1, h2, h3⟩, fun ⟨h1, h2, h3⟩ => ⟨h1, h2, h3⟩⟩

/-! ### The coroutines take turns -/

/-- Without calls from outside, at most one flush is in flight. -/
lemma Control.single {s : State} (hs : Control s) (hnd : (keys s.core.flights).Nodup)
    (hcall : ∀ n, s.core.flights.lookup (.call n) = none) : s.core.Single := by
  unfold Core.Single
  rcases hf : s.core.flights with _ | ⟨⟨o, f⟩, _ | ⟨⟨o', f'⟩, r⟩⟩
  · simp
  · simp
  · -- two flushes would have two owners, in two places at once
    have hne : o ≠ o' := by
      rw [hf] at hnd
      simp only [keys, List.map_cons, List.nodup_cons, List.mem_cons, not_or] at hnd
      exact hnd.1.1
    have hl : s.core.flights.lookup o ≠ none := by simp [hf]
    have hl' : s.core.flights.lookup o' ≠ none := by simp [hf, lookup_cons_if, hne.symm]
    have h1 := hs.awaits o hl
    have h2 := hs.awaits o' hl'
    have h3 := hs.closing_alone
    have hc : ∀ n, o ≠ .call n := fun n he => hl (he ▸ hcall n)
    have hc' : ∀ n, o' ≠ .call n := fun n he => hl' (he ▸ hcall n)
    clear hf hl hl'
    cases o <;> cases o' <;> simp_all [Owner.Awaits]

lemma Effect.keys_nodup {s : State} {e : Event} {core : Core} (h : Effect E s e core)
    (hnd : (keys s.core.flights).Nodup) : (keys core.flights).Nodup := by
  cases h with
  | begin => exact nodup_put hnd _
  | sized => exact nodup_put hnd _
  | wrote => exact nodup_put hnd _
  | framed => exact nodup_put hnd _
  | popped => exact nodup_remove hnd
  | failed => exact nodup_remove hnd
  | cancelled => exact nodup_remove hnd
  | restarted => exact nodup_put (nodup_remove hnd) _
  | reloaded => exact nodup_put hnd _
  | stray | snapshot => simpa using hnd
  | quiet | commit | unborn | created | unread | loaded => exact hnd

lemma Effect.no_call {s : State} {e : Event} {core : Core} (h : Effect E s e core)
    (he : e.isCall = false) (hno : ∀ n, s.core.flights.lookup (.call n) = none) :
    ∀ n, core.flights.lookup (.call n) = none := by
  have hput : ∀ {o f}, s.core.flights.lookup o = some f → ∀ g n,
      (put o g s.core.flights).lookup (.call n) = none := fun {o f} hl g n => by
    rw [lookup_put]
    split
    · rename_i heq
      simp [← heq, hno] at hl
    · exact hno n
  cases h with
  | begin _ o hb =>
    intro n
    simp only [Core.begin, lookup_put]
    split
    · rename_i heq
      subst heq
      cases e <;> simp_all [Event.Begins, Event.isCall]
    · exact hno n
  | sized o batch outcome hl => exact hput hl _
  | wrote o batch outcome hl => exact hput hl _
  | framed o clock batch size framed hl => exact hput hl _
  | popped | failed | cancelled =>
    intro n
    simp [State.abandon, lookup_remove, hno]
  | restarted => simp [State.abandon, Core.begin, lookup_put, lookup_remove, hno]
  | reloaded => simp [Core.begin, lookup_put, hno]
  | stray | snapshot => simpa using hno
  | quiet | commit | unborn | created | unread | loaded => exact hno

/-! ### The invariant -/

structure CloseState (E : Env) (framer : Framer) (file : Bytes) (s : State) : Prop where
  one : OneFlush s
  nodup : (keys s.core.flights).Nodup
  no_call : ∀ n, s.core.flights.lookup (.call n) = none
  exact : s.core.drain.Exact []
  whole : Whole (· = .closing) s.core
  located : Located E framer file s
  numbered : Numbered s.core
  unfailed : s.flushFailed = false

namespace CloseState

variable {framer : Framer} {file : Bytes} {s s' : State} {e : Event}

lemma init {statedict : Dict} {version : ℤ} (h : ∃ fr, framer.load file = .ok fr) :
    CloseState E framer file (.init statedict version framer file) where
  one := .init statedict version framer file
  nodup := List.nodup_nil
  no_call _ := rfl
  exact := ⟨(OneFlush.init statedict version framer file).queued, rfl⟩
  whole := .of_nil rfl
  located := .init h
  numbered := rfl
  unfailed := rfl

lemma step (hs : CloseState E framer file s) (h : Kanta.step E s e = some s')
    (hG : Undisturbed e s') (hT : Timely s e s') : CloseState E framer file s' := by
  have heff := step_effect hs.one.control h
  have hnd := heff.keys_nodup hs.nodup
  have hno := heff.no_call hG.no_call hs.no_call
  have h1 : s'.core.Single := (hs.one.control.step h).single hnd hno
  have hleft : ∀ outcome, e = .stray outcome → s.isOpen = false := fun outcome he =>
    hT.not_left (he ▸ rfl)
  refine ⟨hs.one.step h h1, hnd, hno, ?_, ?_, hs.located.step hs.one h h1
    (heff.complete hG.succeeds hs.located.aligned.complete) hleft,
    hs.numbered.effect heff, hG.unfailed⟩
  · exact heff.drain_exact hs.one.single h1 hs.exact hleft hT.not_written
  · refine hs.whole.effect heff hs.one.single h1 fun ⟨p, hp, ho⟩ => hT.not_late ?_
    have hl : s.core.flights.lookup p.1 ≠ none := fun hl =>
      lookup_eq_none_iff.mp hl (List.mem_map_of_mem hp)
    have := hs.one.control.awaits p.1 hl
    rwa [ho] at this

/-- With an empty queue everything is in the file. -/
lemma exactlyOnce (hs : CloseState E framer file s) (h : s.core.store.pending = [])
    (hfile : (framer.iterRecords E.blake3 file 0).error = none) : ExactlyOnce E file s.core := by
  have hal := hs.located.aligned
  refine ⟨hal.file_eq, hs.exact.log_eq h, ?_, hal.placed, ?_⟩
  · rw [hs.numbered]
    exact List.nodup_range
  · obtain ⟨items, -, hitems⟩ := frameRecords_iff.mp (frameRecords_of_placed hal.placed hal.complete)
    rw [hal.file_eq]
    by_cases hnil : file = []
    · subst hnil
      cases hfr : s.core.framer with
      | line => rfl
      | bin sync =>
        rw [hfr] at hitems
        have hstart : (Framer.bin sync).frames E.blake3 0 [] = .ok [] := rfl
        have hfit : ∀ i ∈ items, (Framer.bin sync).Fits i := fun _ _ => trivial
        exact congrArg Scan.error (iterRecords_frames E.blake3 hfit hstart hitems)
    · rcases hs.located.seeded with hseed | ⟨hu, hfr, -⟩
      · exact iterRecords_append E.blake3 hfile hseed hnil hitems
      · simpa [hu.log, hfr] using hfile

end CloseState

/-! ### The theorem -/

/-- A job that is left when the file is closed changes nothing. -/
lemma job_closed {s s' : State} {e : Event} (h : step E s e = some s') (he : e.IsJob)
    (ho : s.isOpen = false) (hf : s.core.flights = []) :
    s'.isOpen = false ∧ ∃ strays, s'.core = { s.core with strays := strays } := by
  cases e with
  | work o outcome =>
    unfold step at h
    simp [State.work, hf] at h
  | stray outcome =>
    unfold step State.workStray at h
    dsimp only at h
    split at h
    · simp at h
    · rename_i batch strays hs
      obtain rfl := Option.some.inj h
      exact ⟨ho, strays, by simp [Core.write, ho]⟩
  | _ => exact he.elim

/-- **`close` writes every change exactly once.** -/
theorem close_exactly_once {statedict : Dict} {version : ℤ} {framer : Framer} {file : Bytes}
    {s s' : State} (hfile : (framer.iterRecords E.blake3 file 0).error = none)
    (h : Reach (step E) (fun s e s' => Undisturbed e s' ∧ Timely s e s')
      (.init statedict version framer file) s)
    (hend : s.ended = some (.closing, .ok ())) (hjobs : Reach (step E) (fun _ e _ => e.IsJob) s s') :
    ExactlyOnce E file s'.core := by
  have hstate : ∀ t, Reach (step E) (fun s e s' => Undisturbed e s' ∧ Timely s e s')
      (.init statedict version framer file) t → CloseState E framer file t := fun t ht =>
    ht.invariant (.init (load_of_iterRecords E.blake3 hfile)) fun _ _ _ hs hstep hG =>
      hs.step hstep hG.1 hG.2
  have hs := hstate s h
  rcases h.last with rfl | ⟨t, e, ht, hstep, -⟩
  · simp [State.init] at hend
  · have hp := (hstate t ht).whole.pending_nil (hstate t ht).one.single (hstate t ht).unfailed hstep hend
    have hclosed : s.isOpen = false := hs.one.control.isOpen.trans ((step_flow hstep).closed hend)
    -- the jobs that are left find the file closed
    have hdone : s'.isOpen = false ∧ ∃ strays, s'.core = { s.core with strays := strays } := by
      refine hjobs.invariant
        (I := fun u => u.isOpen = false ∧ ∃ strays, u.core = { s.core with strays := strays })
        ⟨hclosed, s.core.strays, rfl⟩ fun u e u' hu hstep he => ?_
      obtain ⟨ho, strays, hcore⟩ := hu
      have hf : u.core.flights = [] := by
        rw [hcore]
        exact OneFlush.flights_of_pending hs.one.queued hp
      obtain ⟨ho', strays', hcore'⟩ := job_closed hstep he ho hf
      exact ⟨ho', strays', by rw [hcore', hcore]⟩
    obtain ⟨-, strays, hcore⟩ := hdone
    have hex := hs.exactlyOnce hp hfile
    rw [hcore]
    exact ⟨hex.appended, hex.once, hex.distinct, hex.placed, hex.accepted⟩

/-- `close` cancels a flush that awaits the size of the file. -/
theorem close_exactly_once_sizing : ∃ s : State,
    s.seen = ⟨some (.closing, true), false, 0, [0, 1], [], [0, 1]⟩ ∧
      ExactlyOnce (Sample.env 1000) [] s.core := by
  obtain ⟨s, hs, hseen⟩ := exists_reach (step (Sample.env 1000))
    (fun s e s' => decide (Undisturbed e s' ∧ Timely s e s')) Sample.start
    [Sample.opening, .start, Sample.set 1, .wake (.ok Sample.ts), .close (.ok Sample.ts),
      .deliver true (.ok Sample.ts), .work .background .ok, .resume .background (.ok Sample.ts),
      .work .background .ok, .resume .background (.ok Sample.ts), .join (.ok Sample.ts)]
    State.seen ⟨some (.closing, true), false, 0, [0, 1], [], [0, 1]⟩ (by decide +kernel)
  have hend : s.ended = some (.closing, .ok ()) := ended_of_seen (by rw [hseen])
  exact ⟨s, hseen, close_exactly_once rfl (hs.mono fun _ _ _ h => of_decide_eq_true h) hend .start⟩

/-- **A cancellation at the wrong moment**: the batch has been written and not yet popped, and the
handler of the cancellation writes it again. -/
theorem cancelled_write_twice : ∃ s : State,
    Reach (step (Sample.env 1000)) (fun _ e s' => Undisturbed e s') Sample.start s ∧
      s.ended = some (.closing, .ok ()) ∧ s.core.strays = [] ∧
      s.seen = ⟨some (.closing, true), false, 0, [0, 1], [], [0, 1, 0, 1]⟩ ∧
      ¬ExactlyOnce (Sample.env 1000) [] s.core := by
  obtain ⟨s, hs, hobs⟩ := exists_reach (step (Sample.env 1000)) (fun _ e s' => decide (Undisturbed e s'))
    Sample.start
    [Sample.opening, .start, Sample.set 1, .wake (.ok Sample.ts), .work .background .ok,
      .resume .background (.ok Sample.ts), .close (.ok Sample.ts), .work .background .ok,
      .deliver true (.ok Sample.ts), .work .background .ok, .resume .background (.ok Sample.ts),
      .work .background .ok, .resume .background (.ok Sample.ts), .join (.ok Sample.ts)]
    (fun s => (s.core.strays.length, s.seen))
    (0, ⟨some (.closing, true), false, 0, [0, 1], [], [0, 1, 0, 1]⟩) (by decide +kernel)
  obtain ⟨hstrays, hseen⟩ := Prod.mk.inj hobs
  refine ⟨s, hs.mono fun _ _ _ h => of_decide_eq_true h, ended_of_seen (by rw [hseen]),
    List.length_eq_zero_iff.mp hstrays, hseen, fun h => ?_⟩
  have honce : s.seen.log = s.seen.committed := congrArg (List.map Queued.id) h.once
  rw [hseen] at honce
  exact absurd honce (by decide)

end Kanta
