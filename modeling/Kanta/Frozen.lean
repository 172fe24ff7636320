import Kanta.Overlap

/-!
# After a failed flush

`flush` looks at `flush_failed` when it is called, and at no other time; `maybe_snapshot` does not
look at it at all.  `failed_freezes` says which steps behind a failure must not come for the file to
stay as the failure has left it, and `failed_thaws` is a run in which the background loop comes upon
the failure of another flush and appends a snapshot to what it left.
-/

namespace Kanta

open Kanta.Lib Kanta.Lib.Assoc Kanta.Lib.Lts

variable {E : Env}

/-! ### Statement -/

/-- The flush of `o` is about to fail with an `OSError`. -/
inductive Fails (s : State) (o : Owner) : Prop
  | sizing (batch : List Queued) (h : s.core.flights.lookup o = some (.sizing batch (some (.error .osError))))
  | writing (batch : List (Queued × Bytes))
      (h : s.core.flights.lookup o = some (.writing batch (some (.error .osError))))

/-- Who takes a snapshot after a flush. -/
def Owner.snapshots : Owner → Bool
  | .background | .opening => true
  | _ => false

/-- `maybe_write` finds no snapshot to write. -/
def SnapshotState.Undue (E : Env) (s : SnapshotState) (clock : Except Exc DateTime) : Prop :=
  ∀ ts, s.due E.minDiffs clock ≠ .ok (some ts)

/-- The condition on a step behind the failure: a write is not run that belongs to another flush, which
was in flight already, or was left behind by a cancelled one; and where `maybe_snapshot` is reached,
which is behind every flush of the background loop and of `open`, no snapshot is due. -/
def Halted (E : Env) (s : State) : Event → Prop
  | .work o _ => ∀ batch, s.core.flights.lookup o ≠ some (.writing batch none)
  | .stray _ => False
  | .resume o clock => o.snapshots = true → ∀ batch, s.core.flights.lookup o = some (.writing batch (some (.ok ()))) →
    (s.snapshot.recordChanges batch.length).Undue E clock
  | .wake clock => s.snapshot.Undue E clock
  | .deliver _ clock => s.background = .sleeping ∨ s.background = .flushing → s.snapshot.Undue E clock
  | _ => True

/-! ### No snapshot comes under way -/

namespace State

variable {t : State} {o : Owner} {clock : Except Exc DateTime}

@[simp] lemma andThen_snapping (t : State) (next : Next) : (t.andThen next).snapping = t.snapping := by
  cases next <;> rfl

@[simp] lemma andRaise_snapping (t : State) (e : Exc) (next : Next) : (t.andRaise e next).snapping = t.snapping := by
  cases next <;> rfl

lemma maybeSnapshot_undue {next : Next} (h : t.snapshot.Undue E clock) :
    (t.maybeSnapshot E next clock).snapping = t.snapping := by
  unfold maybeSnapshot
  split
  · simp
  · simp
  · rename_i ts hdue
    exact (h ts hdue).elim

lemma afterFlush_undue {r : Except Exc Unit} (h : o.snapshots = true → r = .ok () → t.snapshot.Undue E clock) :
    (t.afterFlush E o r clock).snapping = t.snapping := by
  cases o with
  | call | closing => cases r <;> rfl
  | opening =>
    cases r with
    | error => rfl
    | ok => exact maybeSnapshot_undue (t := { t with ended := some (.opening, .ok ()) }) (h rfl rfl)
  | background =>
    unfold afterFlush
    dsimp only
    split
    · exact maybeSnapshot_undue (t := { t with ended := _ }) (h rfl rfl)
    · rfl
    · exact maybeSnapshot_undue (t := { t with ended := _ }) (h rfl rfl)
    · rfl

/-- A flush that is called after a failure does nothing. -/
lemma startFlush_failed (hf : t.flushFailed = true) (h : o.snapshots = true → t.snapshot.Undue E clock) :
    (t.startFlush E o clock).core = t.core ∧ (t.startFlush E o clock).snapping = t.snapping ∧
      (t.startFlush E o clock).flushFailed = true := by
  have hreturns : ∀ r, (t.afterFlush E o r clock).core = t.core ∧ (t.afterFlush E o r clock).snapping = t.snapping ∧
      (t.afterFlush E o r clock).flushFailed = true := fun r =>
    ⟨by simp, afterFlush_undue fun ho _ => h ho, (Returns.afterFlush t o r clock).flushFailed.trans hf⟩
  unfold startFlush
  split
  · exact hreturns _
  · exact hreturns _

/-- A flush that fails takes no snapshot. -/
lemma failFlush_snapping (e : Exc) : (t.failFlush E o e clock).snapping = t.snapping := by
  unfold failFlush
  dsimp only
  split <;> exact afterFlush_undue (by simp)

end State

/-! ### Every step -/

/-- The file is as the failure has left it. -/
structure FrozenAt (file : Bytes) (s : State) : Prop where
  failed : s.flushFailed = true
  snapping : s.snapping = none
  file : s.core.file = file

namespace FrozenAt

variable {file : Bytes} {s t s' : State} {o : Owner} {clock : Except Exc DateTime}

lemma congr (hs : FrozenAt file s) (hf : t.flushFailed = s.flushFailed) (hsn : t.snapping = s.snapping)
    (hc : t.core.file = s.core.file) : FrozenAt file t :=
  ⟨hf.trans hs.failed, hsn.trans hs.snapping, hc.trans hs.file⟩

lemma startFlush (hs : FrozenAt file s) (h : o.snapshots = true → s.snapshot.Undue E clock) :
    FrozenAt file (s.startFlush E o clock) := by
  obtain ⟨hcore, hsn, hf⟩ := State.startFlush_failed hs.failed h
  exact ⟨hf, hsn.trans hs.snapping, hcore ▸ hs.file⟩

lemma failFlush (hs : FrozenAt file s) (e : Exc) : FrozenAt file (s.failFlush E o e clock) := by
  refine ⟨?_, (State.failFlush_snapping e).trans hs.snapping, by rw [State.failFlush_core]; exact hs.file⟩
  unfold State.failFlush
  dsimp only
  split
  · rw [(Returns.afterFlush ..).flushFailed]
  · rw [(Returns.afterFlush ..).flushFailed]
    exact hs.failed

lemma resumeFlush (hs : FrozenAt file s) (h : s.resumeFlush E o clock = some s')
    (hhalted : Halted E s (.resume o clock)) : FrozenAt file s' := by
  unfold State.resumeFlush at h
  split at h
  · split at h <;> obtain rfl := Option.some.inj h
    · exact hs.congr rfl rfl rfl
    · exact hs.failFlush _
  · rename_i batch hl
    obtain rfl := Option.some.inj h
    refine ⟨?_, ?_, by rw [State.popBatch_core]; exact hs.file⟩
    · rw [State.popBatch, (Returns.afterFlush ..).flushFailed]
      exact hs.failed
    · rw [State.popBatch, State.afterFlush_undue fun ho _ => hhalted ho batch hl]
      exact hs.snapping
  · obtain rfl := Option.some.inj h
    exact hs.failFlush _
  · obtain rfl := Option.some.inj h
    exact hs.failFlush _
  · simp at h

lemma deliver {survives : Bool} (hs : FrozenAt file s) (h : s.deliver E survives clock = some s')
    (hhalted : Halted E s (.deliver survives clock)) : FrozenAt file s' := by
  unfold State.deliver at h
  split at h
  · dsimp only at h
    split at h
    · obtain rfl := Option.some.inj h
      exact hs.congr rfl rfl rfl
    · rename_i hb
      obtain rfl := Option.some.inj h
      exact startFlush (hs.congr rfl rfl rfl) fun _ => hhalted (Or.inl hb)
    · rename_i hb
      obtain rfl := Option.some.inj h
      exact startFlush (hs.congr rfl rfl rfl) fun _ => hhalted (Or.inr hb)
    · obtain rfl := Option.some.inj h
      exact hs.congr rfl rfl rfl
    · simp at h
  · simp at h

lemma finalFlush (hs : FrozenAt file s) : FrozenAt file (s.finalFlush E clock) :=
  startFlush (hs.congr rfl rfl rfl) (by simp [Owner.snapshots])

lemma loopStep {e : Event} (hs : FrozenAt file s) (h : Kanta.loopStep E s e = some s') (ho : e.isOpen = false)
    (hhalted : Halted E s e) : FrozenAt file s' := by
  cases e with
  | commit c =>
    simp only [Kanta.loopStep] at h
    split at h
    · obtain rfl := Option.some.inj h
      exact hs.congr rfl rfl rfl
    · simp at h
  | call n clock =>
    simp only [Kanta.loopStep] at h
    split at h
    · simp at h
    · obtain rfl := Option.some.inj h
      exact hs.startFlush (by simp [Owner.snapshots])
  | resume o clock =>
    simp only [Kanta.loopStep] at h
    split at h
    · simp at h
    · exact hs.resumeFlush h hhalted
  | start =>
    simp only [Kanta.loopStep] at h
    split at h
    · obtain rfl := Option.some.inj h
      exact hs.congr rfl rfl rfl
    · simp at h
  | wake clock =>
    simp only [Kanta.loopStep] at h
    split at h
    · obtain rfl := Option.some.inj h
      exact startFlush (hs.congr rfl rfl rfl) fun _ => hhalted
    · simp at h
  | deliver survives clock => exact hs.deliver h hhalted
  | reported =>
    simp only [Kanta.loopStep] at h
    split at h
    · obtain rfl := Option.some.inj h
      exact hs.congr rfl rfl rfl
    · simp at h
  | request =>
    obtain rfl := Option.some.inj h
    exact hs.congr rfl rfl rfl
  | close clock =>
    simp only [Kanta.loopStep, State.close] at h
    split at h
    · simp at h
    · split at h
      · obtain rfl := Option.some.inj h
        exact hs
      · split at h <;> obtain rfl := Option.some.inj h
        · exact hs.finalFlush
        · exact hs.finalFlush
        · exact hs
        · exact hs.congr rfl rfl rfl
  | join clock =>
    simp only [Kanta.loopStep, State.join] at h
    split at h
    · split at h
      · obtain rfl := Option.some.inj h
        exact hs.finalFlush
      · obtain rfl := Option.some.inj h
        exact hs.congr rfl rfl rfl
      · simp at h
    · simp at h
  | «open» a => simp [Event.isOpen] at ho
  | work | stray | snapshotWrite => simp [Kanta.loopStep] at h

/-- **Every step leaves the file as it is** when the condition is met. -/
theorem step {e : Event} (hs : FrozenAt file s) (h : Kanta.step E s e = some s') (ho : e.isOpen = false)
    (hhalted : Halted E s e) : FrozenAt file s' := by
  have hs0 : FrozenAt file { s with ended := none } := hs.congr rfl rfl rfl
  unfold Kanta.step at h
  dsimp only at h
  split at h
  · rename_i o outcome _
    unfold State.work at h
    split at h
    · obtain rfl := Option.some.inj h
      exact hs0.congr rfl rfl rfl
    · rename_i batch hl
      exact (hhalted batch hl).elim
    · simp at h
  · exact hhalted.elim
  · rename_i hsn
    have hsn : s.snapping = some _ := hsn
    simp [hs.snapping] at hsn
  · simp at h
  · exact hs0.loopStep h ho hhalted

end FrozenAt

/-- The failure itself. -/
lemma Fails.frozen {s s' : State} {o : Owner} {clock : Except Exc DateTime} (hfails : Fails s o)
    (h : step E s (.resume o clock) = some s') : FrozenAt s.core.file s' := by
  have hfail : ∀ t : State, t.snapping = none → t.core = s.core →
      FrozenAt s.core.file (t.failFlush E o .osError clock) := by
    intro t hsn hcore
    refine ⟨?_, (State.failFlush_snapping _).trans hsn, by rw [State.failFlush_core, hcore]⟩
    unfold State.failFlush
    dsimp only
    rw [(Returns.afterFlush ..).flushFailed]
  unfold step at h
  cases hsn : s.snapping with
  | some sn => simp [hsn] at h
  | none =>
    simp only [hsn, loopStep] at h
    split at h
    · simp at h
    · unfold State.resumeFlush at h
      rcases hfails with ⟨batch, hl⟩ | ⟨batch, hl⟩
      · simp only [hl] at h
        obtain rfl := Option.some.inj h
        exact hfail _ rfl rfl
      · simp only [hl] at h
        obtain rfl := Option.some.inj h
        exact hfail _ rfl rfl

/-! ### The theorem -/

/-- **A failed flush freezes the file** as long as no write comes behind it that was under way, and no
snapshot is due. -/
theorem failed_freezes (E : Env) {s₀ s s' : State} {o : Owner} {clock : Except Exc DateTime}
    (hfails : Fails s₀ o) (hstep : step E s₀ (.resume o clock) = some s)
    (h : Reach (step E) (fun s e _ => e.isOpen = false ∧ Halted E s e) s s') : s'.core.file = s₀.core.file := by
  have hfrozen : FrozenAt s₀.core.file s' :=
    h.invariant (hfails.frozen hstep) fun _ _ _ hs hstep hG => hs.step hstep hG.1 hG.2
  exact hfrozen.file

namespace Sample

/-- A flush of a caller, which writes five bytes of the frame of the first change. -/
def failing : List Event :=
  [opening, .start, .call 1 (.ok ts), .work (.call 1) .ok, .resume (.call 1) (.ok ts), .work (.call 1) (.failed 5)]

/-- A test for `Fails`. -/
def fails (s : State) (o : Owner) : Bool :=
  match s.core.flights.lookup o with
  | some (.writing _ (some (.error .osError))) => true
  | _ => false

/-- A test for `Halted`, on steps that are no part of a flush. -/
def halted (minDiffs : ℕ) (s : State) : Event → Bool
  | .work .. | .stray _ | .resume .. | .deliver .. | .open _ => false
  | .wake clock => (s.snapshot.due minDiffs clock).toOption = some none
  | _ => true

lemma of_fails {s : State} {o : Owner} (h : fails s o = true) : Fails s o := by
  unfold fails at h
  split at h
  · exact .writing _ ‹_›
  · simp at h

lemma of_halted {minDiffs : ℕ} {s : State} {e : Event} (h : halted minDiffs s e = true) :
    e.isOpen = false ∧ Halted (env minDiffs) s e := by
  cases e with
  | wake clock =>
    refine ⟨rfl, fun ts hts => ?_⟩
    have hts : s.snapshot.due minDiffs clock = .ok (some ts) := hts
    simp [halted, hts, Except.toOption] at h
  | work | stray | resume | deliver | «open» => simp [halted] at h
  | _ => exact ⟨rfl, trivial⟩

/-- A failure, and what the steps of `tail` make of it when they pass a test. -/
lemma exists_failing (g : State → Event → State → Bool) (tail : List Event) (grown : Bool)
    (h : (runIf (step (env 1000)) (fun _ _ _ => true) start failing).map
      (fun s₀ => (fails s₀ (.call 1), (step (env 1000) s₀ (.resume (.call 1) (.ok ts))).map fun s =>
        (runIf (step (env 1000)) g s tail).map fun s' => decide (s'.core.file ≠ s₀.core.file))) =
      some (true, some (some grown))) :
    ∃ s₀ s s' : State, Reach (step (env 1000)) (fun _ _ _ => True) start s₀ ∧ Fails s₀ (.call 1) ∧
      step (env 1000) s₀ (.resume (.call 1) (.ok ts)) = some s ∧
      Reach (step (env 1000)) (fun s e s' => g s e s' = true) s s' ∧ decide (s'.core.file ≠ s₀.core.file) = grown := by
  obtain ⟨s₀, hs₀, h⟩ := Option.map_eq_some_iff.mp h
  obtain ⟨hfails, h⟩ := Prod.mk.inj h
  obtain ⟨s, hs, h⟩ := Option.map_eq_some_iff.mp h
  obtain ⟨s', hs', h⟩ := Option.map_eq_some_iff.mp h
  exact ⟨s₀, s, s', (reach_of_runIf hs₀).mono fun _ _ _ _ => trivial, of_fails hfails, hs, reach_of_runIf hs', h⟩

end Sample

open Sample in
/-- A tick of the background loop and a call of `flush` behind a failure. -/
theorem failed_freezes_tick : ∃ s₀ s s' : State, Fails s₀ (.call 1) ∧
    step (env 1000) s₀ (.resume (.call 1) (.ok ts)) = some s ∧
    Reach (step (env 1000)) (fun s e _ => e.isOpen = false ∧ Halted (env 1000) s e) s s' ∧
    s'.core.file = s₀.core.file := by
  obtain ⟨s₀, s, s', -, hfails, hs, h, -⟩ := exists_failing (fun s e _ => halted 1000 s e)
    [.wake (.ok ts), .call 2 (.ok ts), .close (.ok ts)] false (by decide +kernel)
  have h := h.mono fun _ _ _ hG => of_halted hG
  exact ⟨s₀, s, s', hfails, hs, h, failed_freezes (env 1000) hfails hs h⟩

open Sample in
/-- **A snapshot is appended to what a failed flush has left.** -/
theorem failed_thaws : ∃ s₀ s s' : State, Reach (step (env 1000)) (fun _ _ _ => True) start s₀ ∧
    Fails s₀ (.call 1) ∧ step (env 1000) s₀ (.resume (.call 1) (.ok ts)) = some s ∧
    Reach (step (env 1000)) (fun _ e _ => e.isOpen = false) s s' ∧ s'.core.file ≠ s₀.core.file := by
  obtain ⟨s₀, s, s', hs₀, hfails, hs, h, hgrown⟩ := exists_failing (fun _ e _ => !e.isOpen)
    [.request, .wake (.ok ts), .snapshotWrite .ok] true (by decide +kernel)
  exact ⟨s₀, s, s', hs₀, hfails, hs, h.mono fun _ _ _ hG => by simpa using hG, of_decide_eq_true hgrown⟩

end Kanta
