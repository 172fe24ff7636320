import Kanta.System

/-!
# Where the coroutines are

`Control` ties the flushes in flight and a snapshot under way to the places of the coroutines that
await them: the background task, `open` and `close` take turns, so at most one of the three has a
flush in flight.  It holds in every reachable state, whatever the worker threads and the callers do.
-/

namespace Kanta

open Kanta.Lib Kanta.Lib.Assoc Kanta.Lib.Lts

variable {E : Env}

/-! ### Writing -/

namespace Core

variable (c : Core) (isOpen : Bool) (entries : List Entry) (outcome : Outcome)

/-- A write changes the file and nothing else. -/
lemma write_eq : ∃ file log, (c.write isOpen entries outcome).1 = { c with file := file, log := log } := by
  unfold write
  split
  · split <;> exact ⟨_, _, rfl⟩
  · exact ⟨_, _, rfl⟩

@[simp] lemma write_flights : (c.write isOpen entries outcome).1.flights = c.flights := by
  obtain ⟨_, _, h⟩ := c.write_eq isOpen entries outcome
  rw [h]

@[simp] lemma write_store : (c.write isOpen entries outcome).1.store = c.store := by
  obtain ⟨_, _, h⟩ := c.write_eq isOpen entries outcome
  rw [h]

@[simp] lemma write_framer : (c.write isOpen entries outcome).1.framer = c.framer := by
  obtain ⟨_, _, h⟩ := c.write_eq isOpen entries outcome
  rw [h]

@[simp] lemma write_strays : (c.write isOpen entries outcome).1.strays = c.strays := by
  obtain ⟨_, _, h⟩ := c.write_eq isOpen entries outcome
  rw [h]

end Core

/-! ### The invariant -/

/-- Where a coroutine has to be while it awaits its flush. -/
def Owner.Awaits (s : State) : Owner → Prop
  | .background => (s.background = .flushing ∨ s.background = .handling) ∧ s.opened = true
  | .opening => s.opened = true ∧ s.closing = .idle ∧ s.background = .absent
  | .closing => s.closing = .flushing
  | .call _ => True

/-- Where a coroutine has to be while it writes a snapshot. -/
def Next.Awaits (s : State) : Next → Prop
  | .sleep => s.background = .flushing
  | .finish => s.background = .handling
  | .spawn => s.closing = .idle ∧ s.background = .absent

structure Control (s : State) : Prop where
  isOpen : s.isOpen = s.opened
  awaits : ∀ o, s.core.flights.lookup o ≠ none → o.Awaits s
  closing_opened : s.closing ≠ .idle → s.opened = true
  closing_alone : s.closing = .flushing → s.background = .absent
  shut : s.opened = false → s.background = .absent
  snapping : ∀ sn, s.snapping = some sn →
    sn.next.Awaits s ∧ s.opened = true ∧ s.core.flights.lookup .background = none ∧
      s.core.flights.lookup .opening = none ∧ s.core.flights.lookup .closing = none

theorem control_init (statedict : Dict) (version : ℤ) (framer : Framer) (file : Bytes) :
    Control (.init statedict version framer file) := by
  constructor <;> simp [State.init]

/-! ### Coroutines -/

namespace Control

variable {s : State}

/-- What the invariant does not look at. -/
lemma congr {t : State} (hs : Control s) (h1 : t.isOpen = s.isOpen) (h2 : t.opened = s.opened)
    (h3 : t.background = s.background) (h4 : t.closing = s.closing) (h5 : t.snapping = s.snapping)
    (h6 : ∀ o, t.core.flights.lookup o ≠ none → s.core.flights.lookup o ≠ none) : Control t := by
  have haw : ∀ o, Owner.Awaits t o ↔ Owner.Awaits s o := fun o => by
    cases o <;> simp [Owner.Awaits, h2, h3, h4]
  have hnx : ∀ n, Next.Awaits t n ↔ Next.Awaits s n := fun n => by
    cases n <;> simp [Next.Awaits, h3, h4]
  have hnone : ∀ o, s.core.flights.lookup o = none → t.core.flights.lookup o = none := fun o h => by
    by_contra hne
    exact h6 o hne h
  refine ⟨by rw [h1, h2, hs.isOpen], fun o ho => (haw o).mpr (hs.awaits o (h6 o ho)), ?_, ?_, ?_, ?_⟩
  · rw [h4, h2]
    exact hs.closing_opened
  · rw [h4, h3]
    exact hs.closing_alone
  · rw [h2, h3]
    exact hs.shut
  · intro sn hsn
    obtain ⟨g1, g2, g3, g4, g5⟩ := hs.snapping sn (h5 ▸ hsn)
    exact ⟨(hnx _).mpr g1, h2 ▸ g2, hnone _ g3, hnone _ g4, hnone _ g5⟩

end Control

/-- No flush of one of the three coroutines is in flight. -/
def State.Quiet (s : State) : Prop :=
  s.snapping = none ∧ s.core.flights.lookup .background = none ∧
    s.core.flights.lookup .opening = none ∧ s.core.flights.lookup .closing = none

namespace Control

variable {s : State}

/-- The three coroutines exclude each other. -/
lemma quiet {o : Owner} (hs : Control s) (hsn : s.snapping = none) (ho : o.Awaits s)
    (hfree : s.core.flights.lookup o = none) (hcall : ∀ n, o ≠ .call n) : s.Quiet := by
  have h1 := hs.awaits .background
  have h2 := hs.awaits .opening
  have h3 := hs.awaits .closing
  have h4 := hs.closing_alone
  simp only [Owner.Awaits] at h1 h2 h3
  cases o <;> simp only [Owner.Awaits, State.Quiet] at * <;> grind

/-- While nothing is in flight, only the places count. -/
lemma of_quiet {t : State} (hq : s.Quiet) (hf : t.core.flights = s.core.flights) (hsn : t.snapping = none)
    (h1 : t.isOpen = t.opened) (h2 : t.closing ≠ .idle → t.opened = true)
    (h3 : t.closing = .flushing → t.background = .absent) (h4 : t.opened = false → t.background = .absent) :
    Control t := by
  obtain ⟨-, hb, ho, hc⟩ := hq
  rw [← hf] at hb ho hc
  refine ⟨h1, fun o hne => ?_, h2, h3, h4, fun sn h => by simp [hsn] at h⟩
  cases o with
  | background => exact absurd hb hne
  | opening => exact absurd ho hne
  | closing => exact absurd hc hne
  | call => trivial

/-- The background task goes elsewhere. -/
lemma background {b : Background} (hs : Control s) (hq : s.Quiet) (ho : s.opened = true)
    (hc : s.closing ≠ .flushing) : Control { s with background := b } :=
  of_quiet hq rfl hq.1 hs.isOpen hs.closing_opened (fun h => absurd h hc) (fun h => by simp [ho] at h)

lemma next_not_flushing {next : Next} (hs : Control s) (hn : next.Awaits s) : s.closing ≠ .flushing := by
  intro h
  have hb := hs.closing_alone h
  cases next <;> simp_all [Next.Awaits]

lemma andThen {next : Next} (hs : Control s) (hq : s.Quiet) (hn : next.Awaits s) (ho : s.opened = true) :
    Control (s.andThen next) := by
  have hc := hs.next_not_flushing hn
  cases next with
  | sleep => exact hs.background hq ho hc
  | finish => exact hs.background hq ho hc
  | spawn => exact (hs.background hq ho hc (b := .ready)).congr rfl rfl rfl rfl rfl fun _ h => h

lemma andRaise {next : Next} (e : Exc) (hs : Control s) (hq : s.Quiet) (hn : next.Awaits s)
    (ho : s.opened = true) : Control (s.andRaise e next) := by
  have hc := hs.next_not_flushing hn
  cases next with
  | sleep => exact hs.background hq ho hc
  | finish => exact hs.background hq ho hc
  | spawn => exact hs

lemma maybeSnapshot {next : Next} (clock : Except Exc DateTime) (hs : Control s) (hq : s.Quiet)
    (hn : next.Awaits s) (ho : s.opened = true) : Control (s.maybeSnapshot E next clock) := by
  unfold State.maybeSnapshot
  split
  · exact hs.andRaise _ hq hn ho
  · exact hs.andThen hq hn ho
  · split
    · dsimp only
      split
      · exact hs.andThen hq hn ho
      · refine ⟨hs.isOpen, hs.awaits, hs.closing_opened, hs.closing_alone, hs.shut, fun sn h => ?_⟩
        obtain rfl := Option.some.inj h
        exact ⟨hn, ho, hq.2⟩
    · exact hs.andThen hq hn ho

lemma afterFlush {o : Owner} (r : Except Exc Unit) (clock : Except Exc DateTime) (hs : Control s)
    (hsn : s.snapping = none) (ho : o.Awaits s) (hfree : s.core.flights.lookup o = none) :
    Control (s.afterFlush E o r clock) := by
  have hs' : Control { s with ended := some (o, r) } := hs.congr rfl rfl rfl rfl rfl fun _ h => h
  cases o with
  | call n => exact hs'
  | opening =>
    have hq := hs.quiet hsn ho hfree (by simp)
    cases r with
    | error => exact hs'
    | ok => exact hs'.maybeSnapshot clock hq ho.2 ho.1
  | closing =>
    have hq := hs.quiet hsn ho hfree (by simp)
    have hb := hs.closing_alone ho
    cases r with
    | error => exact of_quiet hq rfl hsn hs.isOpen (absurd rfl) (fun h => nomatch h) hs.shut
    | ok => exact of_quiet hq rfl hsn rfl (absurd rfl) (fun h => nomatch h) fun _ => hb
  | background =>
    have hq : State.Quiet { s with ended := some (.background, r) } := hs.quiet hsn ho hfree (by simp)
    have hc : s.closing ≠ .flushing := fun h => by
      rcases ho.1 with hb | hb <;> simp [hs.closing_alone h] at hb
    unfold State.afterFlush
    dsimp only
    rcases ho.1 with hb | hb <;> cases r <;> simp only [hb]
    · exact hs'.background hq ho.2 hc
    · simpa only [hb] using hs'.maybeSnapshot (E := E) clock hq (show Next.Awaits _ .sleep from hb) ho.2
    · exact hs'.background hq ho.2 hc
    · simpa only [hb] using hs'.maybeSnapshot (E := E) clock hq (show Next.Awaits _ .finish from hb) ho.2

lemma startFlush {o : Owner} (clock : Except Exc DateTime) (hs : Control s) (hsn : s.snapping = none)
    (ho : o.Awaits s) (hfree : s.core.flights.lookup o = none) : Control (s.startFlush E o clock) := by
  unfold State.startFlush
  split
  · exact hs.afterFlush _ clock hsn ho hfree
  · split
    · exact hs.afterFlush _ clock hsn ho hfree
    · split
      · exact hs.afterFlush _ clock hsn ho hfree
      · refine ⟨hs.isOpen, fun o' h => ?_, hs.closing_opened, hs.closing_alone, hs.shut, fun sn h => ?_⟩
        · dsimp only at h
          rw [lookup_put] at h
          split at h
          · rename_i heq
            subst heq
            cases o' <;> exact ho
          · have := hs.awaits o' h
            cases o' <;> exact this
        · simp [hsn] at h

/-- A flush that is over. -/
lemma remove {o : Owner} (hs : Control s) :
    Control { s with core.flights := Assoc.remove o s.core.flights } :=
  hs.congr rfl rfl rfl rfl rfl fun o' h => by
    dsimp only at h
    rw [lookup_remove] at h
    split at h
    · exact absurd rfl h
    · exact h

lemma failFlush {o : Owner} (e : Exc) (clock : Except Exc DateTime) (hs : Control s)
    (hsn : s.snapping = none) (ho : s.core.flights.lookup o ≠ none) : Control (s.failFlush E o e clock) := by
  have haw := hs.awaits o ho
  have hfree : (Assoc.remove o s.core.flights).lookup o = none := by simp [lookup_remove]
  unfold State.failFlush
  dsimp only
  split
  · refine Control.afterFlush _ clock ?_ hsn ?_ hfree
    · exact (hs.remove (o := o)).congr rfl rfl rfl rfl rfl fun _ h => h
    · cases o <;> exact haw
  · refine hs.remove.afterFlush _ clock hsn ?_ hfree
    cases o <;> exact haw

lemma popBatch {o : Owner} (count : ℕ) (clock : Except Exc DateTime) (hs : Control s)
    (hsn : s.snapping = none) (ho : s.core.flights.lookup o ≠ none) : Control (s.popBatch E o count clock) := by
  have haw := hs.awaits o ho
  have hfree : (Assoc.remove o s.core.flights).lookup o = none := by simp [lookup_remove]
  unfold State.popBatch
  refine Control.afterFlush _ clock ?_ hsn ?_ hfree
  · exact (hs.remove (o := o)).congr rfl rfl rfl rfl rfl fun _ h => h
  · cases o <;> exact haw

/-- A job or a frame of a flush in flight. -/
lemma put {o : Owner} {f : Flight} {core : Core} (hs : Control s) (ho : s.core.flights.lookup o ≠ none)
    (hcore : core.flights = Assoc.put o f s.core.flights) : Control { s with core := core } :=
  hs.congr rfl rfl rfl rfl rfl fun o' h => by
    dsimp only at h
    rw [hcore, lookup_put] at h
    split at h
    · rename_i heq
      exact heq ▸ ho
    · exact h

lemma resumeFlush {o : Owner} {clock : Except Exc DateTime} {s' : State} (hs : Control s)
    (hsn : s.snapping = none) (h : s.resumeFlush E o clock = some s') : Control s' := by
  unfold State.resumeFlush at h
  split at h
  · rename_i hl
    have hl : s.core.flights.lookup o ≠ none := by simp [hl]
    split at h
    · obtain rfl := Option.some.inj h
      exact hs.put hl rfl
    · obtain rfl := Option.some.inj h
      exact hs.failFlush _ clock hsn hl
  · rename_i hl
    obtain rfl := Option.some.inj h
    exact hs.popBatch _ clock hsn (by simp [hl])
  · rename_i hl
    obtain rfl := Option.some.inj h
    exact hs.failFlush _ clock hsn (by simp [hl])
  · rename_i hl
    obtain rfl := Option.some.inj h
    exact hs.failFlush _ clock hsn (by simp [hl])
  · simp at h

lemma work {o : Owner} {outcome : Outcome} {s' : State} (hs : Control s)
    (h : s.work o outcome = some s') : Control s' := by
  unfold State.work at h
  split at h
  · rename_i hl
    obtain rfl := Option.some.inj h
    exact hs.put (by simp [hl]) rfl
  · rename_i hl
    obtain rfl := Option.some.inj h
    exact hs.put (by simp [hl]) rfl
  · simp at h

lemma writeSnapshot {sn : Snapping} (outcome : Outcome) (hs : Control s) (hsn : s.snapping = some sn) :
    Control (s.writeSnapshot E sn outcome) := by
  obtain ⟨hn, ho, hf⟩ := hs.snapping sn hsn
  have key : ∀ t : State, t.core.flights = s.core.flights → t.isOpen = s.isOpen → t.opened = s.opened →
      t.background = s.background → t.closing = s.closing → t.snapping = none →
      Control (t.andThen sn.next) := fun t h1 h2 h3 h4 h5 h6 => by
    have hq : t.Quiet := ⟨h6, h1 ▸ hf⟩
    have ht : Control t := of_quiet hq rfl h6 (by rw [h2, h3, hs.isOpen]) (h5 ▸ h3 ▸ hs.closing_opened)
      (h5 ▸ h4 ▸ hs.closing_alone) (h3 ▸ h4 ▸ hs.shut)
    refine ht.andThen hq ?_ (h3 ▸ ho)
    cases hnext : sn.next <;> rw [hnext] at hn <;> simpa [Next.Awaits, h4, h5] using hn
  unfold State.writeSnapshot
  dsimp only
  split
  · exact key _ rfl rfl rfl rfl rfl rfl
  · rename_i framed hframed
    have := s.core.write_flights s.isOpen [.snapshot sn.snap framed] outcome
    split <;> rename_i hw <;> rw [hw] at this <;> exact key _ this rfl rfl rfl rfl rfl

lemma flight_none {o : Owner} (hs : Control s) (h : ¬o.Awaits s) : s.core.flights.lookup o = none := by
  by_contra hne
  exact h (hs.awaits o hne)

/-- An instance with a background task is open. -/
lemma opened_of_background (hs : Control s) (hne : s.background ≠ .absent) : s.opened = true := by
  by_contra ho
  exact hne (hs.shut (by simpa using ho))

/-- The background task, without a flush in flight, goes anywhere. -/
lemma elsewhere {t : State} (hs : Control s) (hne : s.background ≠ .absent) (h1 : t.isOpen = s.isOpen)
    (h2 : t.opened = s.opened) (h3 : t.closing = s.closing) (hsn : t.snapping = none)
    (hl : t.core.flights.lookup .background = none)
    (hf : ∀ o, t.core.flights.lookup o ≠ none → s.core.flights.lookup o ≠ none) : Control t := by
  refine ⟨by rw [h1, h2, hs.isOpen], fun o ho => ?_, ?_, fun hc => ?_, fun hc => ?_, by simp [hsn]⟩
  · have hawaits := hs.awaits o (hf o ho)
    cases o with
    | background => exact absurd hl ho
    | opening => exact absurd hawaits.2.2 hne
    | closing => exact h3.trans hawaits
    | call => exact hawaits
  · rw [h2, h3]
    exact hs.closing_opened
  · exact absurd (hs.closing_alone (h3.symm.trans hc)) hne
  · exact absurd (hs.shut (h2.symm.trans hc)) hne

lemma deliver {survives : Bool} {clock : Except Exc DateTime} {s' : State} (hs : Control s)
    (hsn : s.snapping = none) (h : s.deliver E survives clock = some s') : Control s' := by
  unfold State.deliver at h
  split at h
  · dsimp only at h
    split at h
    · rename_i hb
      obtain rfl := Option.some.inj h
      exact hs.elsewhere (by simp [hb]) rfl rfl rfl hsn (hs.flight_none (by simp [Owner.Awaits, hb])) fun _ h => h
    · rename_i hb
      obtain rfl := Option.some.inj h
      have hne : s.background ≠ .absent := by simp [hb]
      have hl := hs.flight_none (o := .background) (by simp [Owner.Awaits, hb])
      refine Control.startFlush clock ?_ hsn ⟨Or.inr rfl, hs.opened_of_background hne⟩ hl
      exact hs.elsewhere hne rfl rfl rfl hsn hl fun _ h => h
    · rename_i hb
      obtain rfl := Option.some.inj h
      have hne : s.background ≠ .absent := by simp [hb]
      have hl : (Assoc.remove Owner.background s.core.flights).lookup .background = none := by
        simp [lookup_remove]
      refine Control.startFlush clock ?_ hsn ⟨Or.inr rfl, hs.opened_of_background hne⟩ hl
      refine hs.elsewhere hne rfl rfl rfl hsn hl fun o ho => ?_
      dsimp only [State.abandon] at ho
      rw [lookup_remove] at ho
      split at ho
      · exact absurd rfl ho
      · exact ho
    · rename_i hb
      obtain rfl := Option.some.inj h
      exact hs.elsewhere (by simp [hb]) rfl rfl rfl hsn (hs.flight_none (by simp [Owner.Awaits, hb])) fun _ h => h
    · simp at h
  · simp at h

/-- The last flush of `close` begins once the background task is out of the way. -/
lemma finalFlush (clock : Except Exc DateTime) (hs : Control s) (hq : s.Quiet) (ho : s.opened = true) :
    Control (s.finalFlush E clock) := by
  refine Control.startFlush clock ?_ hq.1 rfl hq.2.2.2
  exact of_quiet hq rfl hq.1 hs.isOpen (fun _ => ho) (fun _ => rfl) (fun _ => rfl)

lemma close {clock : Except Exc DateTime} {s' : State} (hs : Control s) (hsn : s.snapping = none)
    (h : s.close E clock = some s') : Control s' := by
  unfold State.close at h
  split at h
  · simp at h
  · rename_i hidle
    simp only [not_or, not_not] at hidle
    obtain ⟨hidle, hop⟩ := hidle
    have hop : s.core.flights.lookup .opening = none := Option.not_isSome_iff_eq_none.mp hop
    have hcl : s.core.flights.lookup .closing = none := hs.flight_none (by simp [Owner.Awaits, hidle])
    split at h
    · obtain rfl := Option.some.inj h
      exact hs
    · rename_i ho
      have ho : s.opened = true := by simpa using ho
      have hjoin : Control { s with cancelling := true, closing := .joining } := by
        refine ⟨hs.isOpen, fun o hl => ?_, fun _ => ho, by simp, hs.shut, by simp [hsn]⟩
        have := hs.awaits o hl
        cases o with
        | background => exact this
        | opening => exact absurd hop hl
        | closing => exact absurd hcl hl
        | call => exact this
      split at h
      · rename_i hb
        obtain rfl := Option.some.inj h
        exact hs.finalFlush clock ⟨hsn, hs.flight_none (by simp [Owner.Awaits, hb]), hop, hcl⟩ ho
      · rename_i hb
        obtain rfl := Option.some.inj h
        exact hs.finalFlush clock ⟨hsn, hs.flight_none (by simp [Owner.Awaits, hb]), hop, hcl⟩ ho
      · obtain rfl := Option.some.inj h
        exact hs
      · obtain rfl := Option.some.inj h
        exact hjoin

lemma join {clock : Except Exc DateTime} {s' : State} (hs : Control s) (hsn : s.snapping = none)
    (h : s.join E clock = some s') : Control s' := by
  unfold State.join at h
  split at h
  · rename_i hj
    have ho : s.opened = true := hs.closing_opened (by simp [hj])
    have hq : ∀ b, s.background = b → b ≠ .flushing → b ≠ .handling → s.Quiet := fun b hb h1 h2 =>
      ⟨hsn, hs.flight_none (by simp [Owner.Awaits, hb, h1, h2]),
        hs.flight_none (by simp [Owner.Awaits, hj]), hs.flight_none (by simp [Owner.Awaits, hj])⟩
    split at h
    · rename_i hb
      obtain rfl := Option.some.inj h
      exact hs.finalFlush clock (hq _ hb (by simp) (by simp)) ho
    · rename_i hb
      obtain rfl := Option.some.inj h
      exact of_quiet (hq _ hb (by simp) (by simp)) rfl hsn hs.isOpen (absurd rfl) (fun h => nomatch h) hs.shut
    · simp at h
  · simp at h

/-- `open` finds nothing running. -/
lemma openDb {a : Opening} {s' : State} (hs : Control s) (hsn : s.snapping = none)
    (h : s.openDb E a = some s') : Control s' := by
  unfold State.openDb at h
  split at h
  · simp at h
  · rename_i ho
    have ho : s.opened = false := by simpa using ho
    have hb := hs.shut ho
    have hc : s.closing = .idle := by
      by_contra hne
      simp [hs.closing_opened hne] at ho
    have hq : s.Quiet := ⟨hsn, hs.flight_none (by simp [Owner.Awaits, hb]),
      hs.flight_none (by simp [Owner.Awaits, ho]), hs.flight_none (by simp [Owner.Awaits, hc])⟩
    -- all that `open` changes without a flush
    have key : ∀ t : State, t.core.flights = s.core.flights → t.isOpen = t.opened → t.background = .absent →
        t.closing = .idle → t.snapping = none → Control t := fun t h1 h2 h3 h4 h5 =>
      of_quiet hq h1 h5 h2 (fun h => absurd h4 h) (fun h => by simp [h4] at h) fun _ => h3
    have hspawn : ∀ t : State, t.core.flights = s.core.flights → t.isOpen = true → t.opened = true →
        t.background = .absent → t.closing = .idle → t.snapping = none → Control (t.andThen .spawn) :=
      fun t h1 h2 h3 h4 h5 h6 =>
        (key t h1 (h2.trans h3.symm) h4 h5 h6).andThen ⟨h6, h1 ▸ hq.2⟩ ⟨h5, h4⟩ h3
    dsimp only at h
    split at h
    · obtain rfl := Option.some.inj h
      unfold State.bootstrap
      split
      · exact key _ rfl rfl hb hc hsn
      · dsimp only
        split
        · exact key _ rfl rfl hb hc hsn
        · exact hspawn _ rfl rfl rfl hb hc hsn
    · split at h
      · obtain rfl := Option.some.inj h
        exact key _ rfl rfl hb hc hsn
      · split at h
        · obtain rfl := Option.some.inj h
          exact key _ rfl rfl hb hc hsn
        · obtain rfl := Option.some.inj h
          unfold State.load
          split
          · exact key _ rfl rfl hb hc hsn
          · dsimp only
            split
            · exact key _ rfl rfl hb hc hsn
            · exact key _ rfl rfl hb hc hsn
            · split
              · exact key _ rfl rfl hb hc hsn
              · split
                · exact Control.startFlush (o := .opening) _ (key _ rfl rfl hb hc hsn) hsn ⟨rfl, hc, hb⟩ hq.2.2.1
                · exact hspawn _ rfl rfl rfl hb hc hsn

lemma loopStep {e : Event} {s' : State} (hs : Control s) (hsn : s.snapping = none)
    (h : Kanta.loopStep E s e = some s') : Control s' := by
  cases e with
  | commit c =>
    simp only [Kanta.loopStep] at h
    split at h
    · obtain rfl := Option.some.inj h
      exact hs.congr rfl rfl rfl rfl rfl fun _ h => h
    · simp at h
  | call n clock =>
    simp only [Kanta.loopStep] at h
    split at h
    · simp at h
    · rename_i hl
      obtain rfl := Option.some.inj h
      exact hs.startFlush clock hsn trivial (Option.not_isSome_iff_eq_none.mp hl)
  | resume o clock =>
    simp only [Kanta.loopStep] at h
    split at h
    · simp at h
    · exact hs.resumeFlush hsn h
  | start =>
    simp only [Kanta.loopStep] at h
    split at h
    · rename_i hb _
      obtain rfl := Option.some.inj h
      exact hs.elsewhere (by simp [hb]) rfl rfl rfl hsn (hs.flight_none (by simp [Owner.Awaits, hb])) fun _ h => h
    · simp at h
  | wake clock =>
    simp only [Kanta.loopStep] at h
    split at h
    · rename_i hb _
      obtain rfl := Option.some.inj h
      have hne : s.background ≠ .absent := by simp [hb]
      have hl := hs.flight_none (o := .background) (by simp [Owner.Awaits, hb])
      refine Control.startFlush clock ?_ hsn ⟨Or.inl rfl, hs.opened_of_background hne⟩ hl
      exact hs.elsewhere hne rfl rfl rfl hsn hl fun _ h => h
    · simp at h
  | deliver survives clock => exact hs.deliver hsn h
  | reported =>
    simp only [Kanta.loopStep] at h
    split at h
    · rename_i hb _
      obtain rfl := Option.some.inj h
      exact hs.elsewhere (by simp [hb]) rfl rfl rfl hsn (hs.flight_none (by simp [Owner.Awaits, hb])) fun _ h => h
    · simp at h
  | request =>
    obtain rfl := Option.some.inj h
    exact hs.congr rfl rfl rfl rfl rfl fun _ h => h
  | close clock => exact hs.close hsn h
  | join clock => exact hs.join hsn h
  | «open» a => exact hs.openDb hsn h
  | work | stray | snapshotWrite => simp [Kanta.loopStep] at h

/-- **Every step keeps the places.** -/
theorem step {e : Event} {s' : State} (hs : Control s) (h : Kanta.step E s e = some s') : Control s' := by
  have hs0 : Control { s with ended := none } := hs.congr rfl rfl rfl rfl rfl fun _ h => h
  unfold Kanta.step at h
  dsimp only at h
  split at h
  · exact hs0.work h
  · unfold State.workStray at h
    split at h
    · simp at h
    · obtain rfl := Option.some.inj h
      refine hs.congr rfl rfl rfl rfl rfl fun o h => ?_
      simpa using h
  · rename_i hsn
    obtain rfl := Option.some.inj h
    exact hs0.writeSnapshot _ hsn
  · simp at h
  · rename_i hsn
    exact hs0.loopStep hsn h

end Control

/-- **In every reachable state** the coroutines are in their places. -/
theorem control_of_reach {G : State → Event → State → Prop} {s₀ s : State} (h : Reach (step E) G s₀ s)
    (h0 : Control s₀) : Control s :=
  h.invariant h0 fun _ _ _ hs hstep _ => hs.step hstep

end Kanta
