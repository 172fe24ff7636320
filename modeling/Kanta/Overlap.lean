import Kanta.Placement

/-!
# Overlapping flushes

`flush` copies the queue, writes the copy and then pops as many records as it copied, whichever they
are.  On an open instance no update is lost or written twice as long as at most one flush is in
flight (`noLostUpdate_of_single`).  Two calls that overlap write the same changes twice, and pop
changes that nobody has written (`overlap_loses_update`).
-/

namespace Kanta

open Kanta.Lib Kanta.Lib.Lts

variable {E : Env}

/-! ### No lost update -/

/-- A change leaves the queue only after its own frame has been appended to the file, and no change
is appended twice. -/
structure NoLostUpdate (E : Env) (file : Bytes) (c : Core) : Prop where
  appended : c.file = file ++ c.log.flatMap Entry.bytes
  own_frame : ∀ entry ∈ c.log, entry.Framed E
  kept : ∀ q ∈ c.store.committed, q ∈ c.store.pending ∨ q ∈ changesOf c.log
  distinct : (c.store.committed.map Queued.id).Nodup
  once : ((changesOf c.log).map Queued.id).Nodup

/-- What holds on one open instance while no second flush begins. -/
structure OneDrain (E : Env) (file : Bytes) (s : State) : Prop where
  one : OneFlush s
  exact : s.core.drain.Exact []
  written : Written E file s.core
  numbered : Numbered s.core
  cancelling : s.cancelling = false
  strays : s.core.strays = []

namespace OneDrain

variable {file : Bytes} {s s' : State} {e : Event}

lemma init (statedict : Dict) (version : ℤ) (framer : Framer) :
    OneDrain E file (.init statedict version framer file) where
  one := .init statedict version framer file
  exact := ⟨(OneFlush.init statedict version framer file).queued, rfl⟩
  written := ⟨by simp [State.init], by simp [State.init], by simp [State.init], by simp [State.init]⟩
  numbered := rfl
  cancelling := rfl
  strays := rfl

lemma step (hs : OneDrain E file s) (h : Kanta.step E s e = some s') (hclose : e.isClose = false)
    (h1 : s'.core.Single) : OneDrain E file s' := by
  have heff := step_effect hs.one.control h
  -- nothing is cancelled, so no batch is forgotten and none is left behind
  have hdel : ∀ survives clock, e ≠ .deliver survives clock := fun survives clock he => by
    subst he
    have := step_deliver h
    simp [hs.cancelling] at this
  have hstray : ∀ outcome, e ≠ .stray outcome := fun outcome he => by
    subst he
    exact step_stray h hs.strays
  refine ⟨hs.one.step h h1, ?_, hs.written.effect heff, hs.numbered.effect heff, ?_, ?_⟩
  · refine heff.drain_exact hs.one.single h1 hs.exact (fun outcome he => (hstray outcome he).elim) fun he => ?_
    cases e with
    | deliver survives clock => exact (hdel survives clock rfl).elim
    | _ => simp [Event.isDeliver] at he
  · by_contra hc
    rcases (step_flow h).cancels (by simpa using hc) with hc | ⟨clock, rfl⟩
    · simp [hs.cancelling] at hc
    · simp [Event.isClose] at hclose
  · exact heff.strays_nil hs.strays fun he => by cases e <;> simp_all [Event.isDeliver]

end OneDrain

/-- **No lost update**: on an open instance, as long as no flush begins while another one is in
flight, a change leaves the queue only once its own frame has been appended, and no change is
appended twice. -/
theorem noLostUpdate_of_single {statedict : Dict} {version : ℤ} {framer : Framer} {file : Bytes}
    {s : State}
    (h : Reach (step E) (fun _ e s' => e.isClose = false ∧ s'.core.Single)
      (.init statedict version framer file) s) : NoLostUpdate E file s.core := by
  have hs : OneDrain E file s :=
    h.invariant (.init statedict version framer) fun _ _ _ hs hstep hG => hs.step hstep hG.1 hG.2
  obtain ⟨hq, hex⟩ := hs.exact
  rw [List.nil_append] at hex
  have hdistinct : (s.core.store.committed.map Queued.id).Nodup := by
    rw [hs.numbered]
    exact List.nodup_range
  refine ⟨hs.written.file_eq, hs.written.log, fun q hq => ?_, hdistinct, ?_⟩
  · -- what is not in the log is the rest of the queue
    have hq : q ∈ s.core.drain.log ++ s.core.drain.unwritten := hex ▸ hq
    rcases List.mem_append.mp hq with h | h
    · exact Or.inr h
    · refine Or.inl ?_
      unfold Drain.unwritten at h
      split at h
      · exact List.mem_of_mem_drop h
      · exact h
  · have : changesOf s.core.log <+: s.core.store.committed := ⟨_, hex⟩
    exact hdistinct.sublist (this.sublist.map _)

/-- One call of `flush`, with a transaction that commits during its write. -/
theorem noLostUpdate_one_call : ∃ s : State,
    s.seen = ⟨some (.call 1, true), true, 0, [0, 1, 2], [2], [0, 1]⟩ ∧
      NoLostUpdate (Sample.env 1000) [] s.core := by
  obtain ⟨s, hs, hseen⟩ := exists_reach (step (Sample.env 1000))
    (fun _ e s' => decide (e.isClose = false ∧ s'.core.Single)) Sample.start
    [Sample.opening, Sample.set 1, .call 1 (.ok Sample.ts), .work (.call 1) .ok,
      .resume (.call 1) (.ok Sample.ts), Sample.set 2, .work (.call 1) .ok, .resume (.call 1) (.ok Sample.ts)]
    State.seen ⟨some (.call 1, true), true, 0, [0, 1, 2], [2], [0, 1]⟩ (by decide +kernel)
  exact ⟨s, hseen, noLostUpdate_of_single (hs.mono fun _ _ _ h => of_decide_eq_true h)⟩

/-- **Two calls that overlap lose an update**: both write changes 0 and 1, and the second one pops
changes 2 and 3, which nobody has written. -/
theorem overlap_loses_update : ∃ s : State,
    Reach (step (Sample.env 1000)) (fun _ e _ => e.isClose = false ∧ e.succeeds = true) Sample.start s ∧
      s.seen = ⟨some (.call 2, true), true, 0, [0, 1, 2, 3], [], [0, 1, 0, 1]⟩ ∧
      ¬NoLostUpdate (Sample.env 1000) [] s.core := by
  obtain ⟨s, hs, hseen⟩ := exists_reach (step (Sample.env 1000))
    (fun _ e _ => decide (e.isClose = false ∧ e.succeeds = true)) Sample.start
    [Sample.opening, Sample.set 1, .call 1 (.ok Sample.ts), .call 2 (.ok Sample.ts),
      .work (.call 1) .ok, .work (.call 2) .ok, .resume (.call 1) (.ok Sample.ts),
      .resume (.call 2) (.ok Sample.ts), .work (.call 1) .ok, .resume (.call 1) (.ok Sample.ts),
      Sample.set 2, Sample.set 3, .work (.call 2) .ok, .resume (.call 2) (.ok Sample.ts)]
    State.seen ⟨some (.call 2, true), true, 0, [0, 1, 2, 3], [], [0, 1, 0, 1]⟩ (by decide +kernel)
  refine ⟨s, hs.mono fun _ _ _ h => of_decide_eq_true h, hseen, fun h => ?_⟩
  have honce : s.seen.log.Nodup := h.once
  rw [hseen] at honce
  exact absurd honce (by decide)

end Kanta
