import Mathlib.Data.Option.Basic

/-!
# Runs of a step function

`step s e` is the state after event `e` in state `s`, or `none` when the event is not possible
there.  `Reach step G s₀ s` says that some run from `s₀` ends in `s` and that every one of its
steps satisfies the condition `G`, which sees the state before, the event and the state after.
An invariant is proved for one step and holds on all of them: `Reach.invariant`.
-/

namespace Kanta.Lib.Lts

variable {σ ε : Type*} (step : σ → ε → Option σ)

/-- The state at the end of a list of events. -/
def run (s : σ) : List ε → Option σ
  | [] => some s
  | e :: es =>
    match step s e with
    | none => none
    | some s' => run s' es

/-- The states reached by runs whose steps satisfy `G`. -/
inductive Reach (G : σ → ε → σ → Prop) (s₀ : σ) : σ → Prop
  | start : Reach G s₀ s₀
  | next {s s' : σ} {e : ε} (h : Reach G s₀ s) (hstep : step s e = some s') (hG : G s e s') :
      Reach G s₀ s'

/-- The end of a list of events, when every step passes the test `g`. -/
def runIf (g : σ → ε → σ → Bool) (s : σ) : List ε → Option σ
  | [] => some s
  | e :: es =>
    match step s e with
    | none => none
    | some s' => if g s e s' then runIf g s' es else none

/-- Every event of the list meets the condition in the state in which it comes. -/
def Along (P : σ → ε → Prop) (s : σ) : List ε → Prop
  | [] => True
  | e :: es => P s e ∧ ∀ s', step s e = some s' → Along P s' es

variable {step}

instance decidableAlong {P : σ → ε → Prop} [∀ s e, Decidable (P s e)] :
    ∀ (s : σ) (es : List ε), Decidable (Along step P s es)
  | _, [] => inferInstanceAs (Decidable True)
  | s, e :: es =>
    match h : step s e with
    | none => decidable_of_iff (P s e) (by simp [Along, h])
    | some s' =>
      have : Decidable (Along step P s' es) := decidableAlong s' es
      decidable_of_iff (P s e ∧ Along step P s' es) (by simp [Along, h])

/-- **Invariant induction along a list of events**, where the invariant may look at whether every event so
far has met the condition. -/
theorem run_along {P : σ → ε → Prop} {I : σ → Prop → Prop}
    (hstep : ∀ s e s' ok, I s ok → step s e = some s' → I s' (ok ∧ P s e)) {s s' : σ} {es : List ε} {ok : Prop}
    (h : I s ok) (hrun : run step s es = some s') : I s' (ok ∧ Along step P s es) := by
  induction es generalizing s ok with
  | nil =>
    obtain rfl : s = s' := Option.some.inj hrun
    rwa [Along, and_true]
  | cons e es ih =>
    rw [run] at hrun
    split at hrun
    · simp at hrun
    · rename_i t ht
      have hiff : (∀ s', step s e = some s' → Along step P s' es) ↔ Along step P t es := by simp [ht]
      have := ih (hstep s e t ok h ht) hrun
      rwa [and_assoc, ← hiff] at this

/-- **A condition that is exact for one step is exact for a run**: the states on the way have the property
just when the events meet the condition. -/
theorem along_iff {P : σ → ε → Prop} {I : σ → Prop}
    (hstep : ∀ s e s', I s → step s e = some s' → (I s' ↔ P s e)) {s s' : σ} {es : List ε} (h : I s)
    (hrun : run step s es = some s') :
    (∀ done rest t, es = done ++ rest → run step s done = some t → I t) ↔ Along step P s es := by
  induction es generalizing s with
  | nil =>
    refine ⟨fun _ => trivial, fun _ done rest t he hdone => ?_⟩
    obtain ⟨rfl, -⟩ := List.append_eq_nil_iff.mp he.symm
    obtain rfl : s = t := Option.some.inj hdone
    exact h
  | cons e es ih =>
    rw [run] at hrun
    split at hrun
    · cases hrun
    · next u hu =>
      constructor
      · intro hall
        have hI : I u := hall [e] es u rfl (by rw [run, hu]; rfl)
        refine ⟨(hstep s e u h hu).mp hI, fun t ht => ?_⟩
        obtain rfl : u = t := Option.some.inj (hu.symm.trans ht)
        refine (ih hI hrun).mp fun done rest t he hdone => hall (e :: done) rest t (by rw [he]; rfl) ?_
        rw [run, hu]
        exact hdone
      · rintro ⟨hP, hrest⟩ done rest t he hdone
        have hI : I u := (hstep s e u h hu).mpr hP
        cases done with
        | nil =>
          obtain rfl : s = t := Option.some.inj hdone
          exact h
        | cons e' done =>
          obtain ⟨rfl, hes⟩ := List.cons.inj he
          rw [run, hu] at hdone
          exact (ih hI hrun).mpr (hrest u hu) done rest t hes hdone

/-- What the events meet wherever they come, they meet on the way. -/
lemma along_of_forall {P : σ → ε → Prop} {es : List ε} (h : ∀ e ∈ es, ∀ s, P s e) (s : σ) : Along step P s es := by
  induction es generalizing s with
  | nil => trivial
  | cons e es ih =>
    obtain ⟨he, hes⟩ := List.forall_mem_cons.mp h
    exact ⟨he s, fun s' _ => ih hes s'⟩

/-- A list of events is a run whose steps satisfy what all of the events do. -/
lemma reach_of_run {P : ε → Prop} {s s' : σ} {es : List ε} (hP : ∀ e ∈ es, P e) (h : run step s es = some s') :
    Reach step (fun _ e _ => P e) s s' := by
  have hgo : ∀ (es : List ε) (t : σ), (∀ e ∈ es, P e) → Reach step (fun _ e _ => P e) s t →
      run step t es = some s' → Reach step (fun _ e _ => P e) s s' := by
    intro es
    induction es with
    | nil =>
      intro t _ ht hrun
      obtain rfl : t = s' := Option.some.inj hrun
      exact ht
    | cons e es ih =>
      intro t hP ht hrun
      rw [run] at hrun
      split at hrun
      · cases hrun
      · next u hu =>
        obtain ⟨he, hes⟩ := List.forall_mem_cons.mp hP
        exact ih u hes (ht.next hu he) hrun
  exact hgo es s hP .start h

namespace Reach

variable {G G' : σ → ε → σ → Prop} {s₀ s : σ}

/-- **Invariant induction**: what holds at the start and is kept by every step that satisfies the
condition holds in every state reached. -/
theorem invariant {I : σ → Prop} (h : Reach step G s₀ s) (h0 : I s₀)
    (hstep : ∀ s e s', I s → step s e = some s' → G s e s' → I s') : I s := by
  induction h with
  | start => exact h0
  | next _ hs hG ih => exact hstep _ _ _ ih hs hG

/-- A weaker condition is met by more runs. -/
theorem mono (h : Reach step G s₀ s) (hG : ∀ s e s', G s e s' → G' s e s') : Reach step G' s₀ s := by
  induction h with
  | start => exact .start
  | next _ hs hg ih => exact .next ih hs (hG _ _ _ hg)

/-- What every step establishes holds in every state but the first. -/
theorem last (h : Reach step G s₀ s) : s = s₀ ∨ ∃ s' e, Reach step G s₀ s' ∧ step s' e = some s ∧ G s' e s := by
  cases h with
  | start => exact Or.inl rfl
  | next h hs hG => exact Or.inr ⟨_, _, h, hs, hG⟩

/-- **Simulation**: when every step amounts to a step of another system, a run amounts to a run. -/
theorem simulates {σ' ε' : Type*} {step' : σ' → ε' → Option σ'} {G' : σ' → ε' → σ' → Prop} (f : σ → σ')
    (h : Reach step G s₀ s) (hstep : ∀ s e s', step s e = some s' → G s e s' →
      ∃ e', step' (f s) e' = some (f s') ∧ G' (f s) e' (f s')) : Reach step' G' (f s₀) (f s) := by
  induction h with
  | start => exact .start
  | next _ hs hg ih =>
    obtain ⟨e', hs', hg'⟩ := hstep _ _ _ hs hg
    exact .next ih hs' hg'

theorem trans {s' : σ} (h : Reach step G s₀ s) (h' : Reach step G s s') : Reach step G s₀ s' := by
  induction h' with
  | start => exact h
  | next _ hs hG ih => exact .next ih hs hG

end Reach

/-- A list of events that passes the test is a run. -/
theorem reach_of_runIf {g : σ → ε → σ → Bool} {s s' : σ} {es : List ε}
    (h : runIf step g s es = some s') : Reach step (fun s e s' => g s e s' = true) s s' := by
  induction es generalizing s with
  | nil =>
    obtain rfl : s = s' := Option.some.inj h
    exact .start
  | cons e es ih =>
    unfold runIf at h
    split at h
    · simp at h
    · split at h
      · exact (Reach.start.next ‹_› ‹_›).trans (ih h)
      · simp at h

/-- The same, seen through an observation of the last state. -/
lemma exists_reach {β : Type*} (step : σ → ε → Option σ) (g : σ → ε → σ → Bool) (s : σ) (es : List ε)
    (f : σ → β) (v : β) (h : (runIf step g s es).map f = some v) :
    ∃ s', Reach step (fun s e s' => g s e s' = true) s s' ∧ f s' = v := by
  obtain ⟨s', hs', hv⟩ := Option.map_eq_some_iff.mp h
  exact ⟨s', reach_of_runIf hs', hv⟩

end Kanta.Lib.Lts
