import Kanta.Placement

/-!
# What a flush that returns has made durable

`flush_durable`: a call of `flush` that returns normally has left every change since the last
successful `open` in the file, in every run in which flushes do not overlap, nothing commits while
one is in flight, and no flush starts once one has failed and such a change is still queued.  The
last condition is needed because nothing ever clears the failure flag: after a failed flush every
later one returns at once, on the same instance also after `close` and `open`
(`reopened_flush_lost`).
-/

namespace Kanta

open Kanta.Lib Kanta.Lib.Lts

variable {E : Env}

/-! ### Statement -/

/-- Every change since the last successful `open` is in the file, as a frame of its own. -/
structure Durable (E : Env) (file : Bytes) (s : State) : Prop where
  appended : s.core.file = file ++ s.core.log.flatMap Entry.bytes
  own_frame : ∀ entry ∈ s.core.log, entry.Framed E
  session : ∀ q ∈ s.core.store.committed.drop s.session, q ∈ changesOf s.core.log

/-- Flushes do not overlap, nothing is committed while one is in flight, and once one has failed,
no flush is started while a change of the session is queued. -/
structure Steady (s : State) (e : Event) (s' : State) : Prop where
  single : s'.core.Single
  calm : s.core.flights ≠ [] → s'.core.store.committed.length = s.core.store.committed.length
  unfailed : e.flushes = true → s.flushFailed = true →
    (∀ q ∈ s.core.store.pending, q.id < s.session) ∧
      s'.core.store.committed.length = s.core.store.committed.length

instance (s : State) (e : Event) (s' : State) : Decidable (Steady s e s') :=
  decidable_of_iff
    (s'.core.Single ∧
      (s.core.flights.isEmpty = false → s'.core.store.committed.length = s.core.store.committed.length) ∧
      (e.flushes = true → s.flushFailed = true → (∀ q ∈ s.core.store.pending, q.id < s.session) ∧
        s'.core.store.committed.length = s.core.store.committed.length))
    ⟨fun ⟨h1, h2, h3⟩ => ⟨h1, fun hne => h2 (by simpa using hne), h3⟩,
      fun h => ⟨h.single, fun hne => h.calm (by simpa using hne), h.unfailed⟩⟩

/-! ### The invariant -/

/-- Nothing is lost, and the flush in flight has copied the whole queue. -/
structure SteadyState (E : Env) (file : Bytes) (s : State) : Prop where
  one : OneFlush s
  kept : s.core.drain.Kept
  whole : Whole (fun _ => True) s.core
  written : Written E file s.core
  numbered : Numbered s.core

namespace SteadyState

variable {file : Bytes} {s s' : State} {e : Event}

lemma init (statedict : Dict) (version : ℤ) (framer : Framer) :
    SteadyState E file (.init statedict version framer file) where
  one := .init statedict version framer file
  kept := ⟨(OneFlush.init statedict version framer file).queued, by simp [Core.drain, State.init],
    by simp [Core.drain, State.init]⟩
  whole := .of_nil rfl
  written := ⟨by simp [State.init], by simp [State.init], by simp [State.init], by simp [State.init]⟩
  numbered := rfl

lemma step (hs : SteadyState E file s) (h : Kanta.step E s e = some s') (hG : Steady s e s') :
    SteadyState E file s' := by
  have heff := step_effect hs.one.control h
  refine ⟨hs.one.step h hG.single, ?_, ?_, hs.written.effect heff, hs.numbered.effect heff⟩
  · exact heff.drain_kept hs.one.single hG.single hs.kept
  · exact hs.whole.effect heff hs.one.single hG.single fun ⟨p, hp, _⟩ =>
      hG.calm (List.ne_nil_of_mem hp)

lemma of_reach {statedict : Dict} {version : ℤ} {framer : Framer}
    (h : Reach (Kanta.step E) Steady (.init statedict version framer file) s) : SteadyState E file s :=
  h.invariant (.init statedict version framer) fun _ _ _ hs hstep hG => hs.step hstep hG

/-- With an empty queue everything is in the file. -/
lemma durable_of_pending (hs : SteadyState E file s) (h : s.core.store.pending = []) : Durable E file s where
  appended := hs.written.file_eq
  own_frame := hs.written.log
  session q hq := by
    rcases hs.kept.kept q (List.mem_of_mem_drop hq) with hl | hp
    · exact hl
    · rw [show s.core.drain.queue = [] from h] at hp
      simp at hp

end SteadyState

/-- A flush that starts after one has failed changes nothing in memory or on disk. -/
lemma Effect.store_of_failed {s : State} {e : Event} {core : Core} (h : Effect E s e core)
    (hf : s.flushFailed = true) (he : e.flushes = true)
    (hc : core.store.committed.length = s.core.store.committed.length) :
    core.store.pending = s.core.store.pending ∧ core.store.committed = s.core.store.committed := by
  have hqueue : ∀ {store store' : Store} {action current user mtime force clock record},
      store.queueChange action current user mtime force clock = .ok (record, store') →
      store.pending = s.core.store.pending → store.committed = s.core.store.committed →
      store'.committed.length = s.core.store.committed.length →
      store'.pending = s.core.store.pending ∧ store'.committed = s.core.store.committed := by
    intro store store' action current user mtime force clock record hq hp hcc hlen
    rcases store.queueChange_cases hq with ⟨-, rfl, -⟩ | ⟨r, -, rfl, -⟩
    · exact ⟨hp, hcc⟩
    · simp [Store.append, hcc] at hlen
  have hload : ∀ {a rr state store}, Loaded E s.core.store a rr state store →
      store.committed.length = s.core.store.committed.length →
      store.pending = s.core.store.pending ∧ store.committed = s.core.store.committed := fun hl hlen => by
    cases hl with
    | refused => exact ⟨rfl, rfl⟩
    | invalid => exact ⟨rfl, rfl⟩
    | stopped => exact ⟨rfl, rfl⟩
    | done migrated normalized version action record store' hm hn hq => exact hqueue hq rfl rfl hlen
  cases h with
  | begin _ _ _ _ hfail => simp [hfail] at hf
  | restarted _ _ _ _ hfail => simp [hfail] at hf
  | reloaded _ _ _ _ _ _ _ _ _ hfail => simp [hfail] at hf
  | created _ _ _ _ _ _ _ hq => exact hqueue hq rfl rfl hc
  | loaded _ _ _ _ _ _ _ _ hl => exact hload hl hc
  | quiet | cancelled | unborn | unread => exact ⟨rfl, rfl⟩
  | commit | sized | wrote | framed | popped | failed | stray | snapshot => simp [Event.flushes] at he

/-- **A flush that returns normally is durable.** -/
theorem flush_durable {statedict : Dict} {version : ℤ} {framer : Framer} {file : Bytes} {s : State}
    (h : Reach (step E) Steady (.init statedict version framer file) s) {o : Owner}
    (hend : s.ended = some (o, .ok ())) : Durable E file s := by
  have hs := SteadyState.of_reach h
  rcases h.last with rfl | ⟨t, e, ht, hstep, hG⟩
  · simp [State.init] at hend
  · have hflow := step_flow hstep
    have ht := SteadyState.of_reach ht
    cases hflow.ended o hend with
    | idle _ hp => exact hs.durable_of_pending hp
    | popped clock batch he hl hlen hcore =>
      -- the batch was the whole queue
      refine hs.durable_of_pending ?_
      rw [hcore]
      exact ht.whole.drop_eq_nil ht.one.single hl trivial
    | failed _ he hf =>
      obtain ⟨hold, hlen⟩ := hG.unfailed he hf
      obtain ⟨hp, hc⟩ := (step_effect ht.one.control hstep).store_of_failed hf he hlen
      -- no change of the session is queued, and no new session has one
      have hnone : ∀ q ∈ s.core.store.committed.drop s.session, q ∉ s.core.store.pending := by
        intro q hq hqp
        rw [hc] at hq
        have hlt := hold q (hp ▸ hqp)
        have hsame : s.session = t.session → False := fun hses => by
          rw [hses] at hq
          have := ht.numbered.le hq
          omega
        rcases hflow.session with hses | ⟨a, rfl⟩ | ⟨clock, rfl⟩ | ⟨outcome, rfl⟩
        · exact hsame hses
        · rcases hflow.entered a rfl with hses | hses
          · exact hsame hses
          · simp [hses] at hq
        · simp [Event.flushes] at he
        · simp [Event.flushes] at he
      refine ⟨hs.written.file_eq, hs.written.log, fun q hq => ?_⟩
      rcases hs.kept.kept q (List.mem_of_mem_drop hq) with hl | hqp
      · exact hl
      · exact absurd hqp (hnone q hq)

/-- A change, a flush, `close` and `open`, another change and another flush. -/
theorem flush_durable_reopened : ∃ s : State,
    s.seen = ⟨some (.call 1, true), true, 2, [0, 1, 2], [], [0, 1, 2]⟩ ∧ Durable (Sample.env 1000) [] s := by
  obtain ⟨s, hs, hseen⟩ := exists_reach (step (Sample.env 1000)) (fun s e s' => decide (Steady s e s'))
    Sample.start
    [Sample.opening, Sample.set 1, .call 1 (.ok Sample.ts), .work (.call 1) .ok,
      .resume (.call 1) (.ok Sample.ts), .work (.call 1) .ok, .resume (.call 1) (.ok Sample.ts),
      .close (.ok Sample.ts), .deliver false (.ok Sample.ts), .join (.ok Sample.ts), Sample.opening,
      Sample.set 2, .call 1 (.ok Sample.ts), .work (.call 1) .ok, .resume (.call 1) (.ok Sample.ts),
      .work (.call 1) .ok, .resume (.call 1) (.ok Sample.ts)]
    State.seen ⟨some (.call 1, true), true, 2, [0, 1, 2], [], [0, 1, 2]⟩ (by decide +kernel)
  have hend : s.ended = some (.call 1, .ok ()) := ended_of_seen (by rw [hseen])
  exact ⟨s, hseen, flush_durable (hs.mono fun _ _ _ h => of_decide_eq_true h) hend⟩

/-- **A flush of a reopened instance loses the session**: the flag set by the failed flush makes the
flush of `close`, and after `open` the next call, return normally without writing anything. -/
theorem reopened_flush_lost : ∃ s : State,
    Reach (step (Sample.env 1000)) (fun _ _ _ => True) Sample.start s ∧
      s.seen = ⟨some (.call 1, true), true, 2, [0, 1, 2, 3], [0, 1, 2, 3], []⟩ ∧
      s.ended = some (.call 1, .ok ()) ∧ ¬Durable (Sample.env 1000) [] s := by
  obtain ⟨s, hs, hseen⟩ := exists_reach (step (Sample.env 1000)) (fun _ _ _ => true) Sample.start
    [Sample.opening, Sample.set 1, .call 1 (.ok Sample.ts), .work (.call 1) .ok,
      .resume (.call 1) (.ok Sample.ts), .work (.call 1) (.failed 0), .resume (.call 1) (.ok Sample.ts),
      .close (.ok Sample.ts), .deliver false (.ok Sample.ts), .join (.ok Sample.ts), Sample.opening,
      Sample.set 2, .call 1 (.ok Sample.ts)]
    State.seen ⟨some (.call 1, true), true, 2, [0, 1, 2, 3], [0, 1, 2, 3], []⟩ (by decide +kernel)
  refine ⟨s, hs.mono fun _ _ _ _ => trivial, hseen, ended_of_seen (by rw [hseen]), fun h => ?_⟩
  have hlog : changesOf s.core.log = [] := List.map_eq_nil_iff.mp (congrArg Seen.log hseen)
  have hlen : s.core.store.committed.length = 4 := by
    simpa [State.seen] using congrArg (fun v => v.committed.length) hseen
  have hne : s.core.store.committed.drop s.session ≠ [] := by
    rw [show s.session = 2 from congrArg Seen.session hseen]
    simp [hlen]
  obtain ⟨q, hq⟩ := List.exists_mem_of_ne_nil _ hne
  simpa [hlog] using h.session q hq

end Kanta
