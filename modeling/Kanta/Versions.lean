import Kanta.Log
import Kanta.Opening

/-!
# Versions

Every change that an instance queues and every snapshot that it writes carries the version of the
instance, which only `open` changes.  A migration that changes nothing queues no record: `open` then
forces a snapshot, and until that is written the file does not carry the new version.  Without a
forced snapshot the last record of the file carries the version of the instance (`Versioned.step`).
-/

namespace Kanta

open Kanta.Lib Kanta.Lib.Assoc Kanta.Lib.Lts

variable {E : Env}

/-! ### The version of a log -/

/-- The version a record carries. -/
def Record.v : Record → ℤ
  | .change c => c.v
  | .snapshot snap => snap.v

/-- The version that the last record carries. -/
def lastVersion (records : List Record) : ℤ := (records.map Record.v).getLastD 0

lemma getLastD_append {α : Type} (l m : List α) (a : α) : (l ++ m).getLastD a = m.getLastD (l.getLastD a) := by
  induction l generalizing a with
  | nil => rfl
  | cons b l ih => rw [List.cons_append, List.getLastD_cons, List.getLastD_cons, ih]

lemma lastVersion_append (l m : List Record) :
    lastVersion (l ++ m) = (m.map Record.v).getLastD (lastVersion l) := by
  rw [lastVersion, List.map_append, getLastD_append, lastVersion]

/-- Records of one version, behind others. -/
lemma lastVersion_of_forall (l : List Record) {m : List Record} {v : ℤ} (hne : m ≠ []) (hv : ∀ r ∈ m, r.v = v) :
    lastVersion (l ++ m) = v := by
  rw [lastVersion_append]
  have hmem : (m.map Record.v).getLastD (lastVersion l) ∈ m.map Record.v := by
    rw [List.getLastD_eq_getLast?, List.getLast?_eq_some_getLast (by simpa using hne), Option.getD_some]
    exact List.getLast_mem _
  obtain ⟨r, hr, heq⟩ := List.mem_map.mp hmem
  rw [← heq, hv r hr]

/-- **The version of a replay** is the one that the last record carries. -/
theorem replayLog_version {records : List Record} {rr : ReplayResult} (h : replayLog records = .ok rr) :
    rr.version = lastVersion records := by
  have hmap : ∀ changes : List ChangeRecord, (changes.map Record.change).map Record.v = changes.map ChangeRecord.v := by
    intro changes
    rw [List.map_map]
    rfl
  rcases records_split records with ⟨changes, rfl, hl⟩ | ⟨before, snap, changes, rfl, hl⟩
  · rw [replayLog, hl] at h
    rw [lastVersion, hmap]
    exact (applyChanges_stamp h).2
  · rw [replayLog, hl] at h
    rw [lastVersion_append, List.map_cons, List.getLastD_cons, hmap]
    exact (applyChanges_stamp h).2

/-- The changes behind the last snapshot can be applied, one after the other. -/
def Applicable (records : List Record) : Prop :=
  ∃ state, patchAll (((lastSnapshot records).1.map fun snap => snap.state.val).getD (.dict []))
    (lastSnapshot records).2 = .ok state

/-- Nothing else can fail when a log is replayed. -/
lemma replayLog_isOk_iff {records : List Record} : (∃ rr, replayLog records = .ok rr) ↔ Applicable records := by
  have hstart : ((lastSnapshot records).1.map fun snap => snap.state.val).getD (.dict []) =
      (((lastSnapshot records).1.map ReplayResult.ofSnapshot).getD .empty).state := by
    cases (lastSnapshot records).1 <;> rfl
  rw [Applicable, hstart]
  constructor
  · rintro ⟨rr, hrr⟩
    exact ⟨rr.state, patchAll_of_foldlM hrr⟩
  · rintro ⟨state, hstate⟩
    obtain ⟨rr, hrr, -⟩ := foldlM_applyChange hstate
    exact ⟨rr, hrr⟩

/-- Versions that do not decrease stay below the last one. -/
lemma le_getLastD {a : ℤ} {l : List ℤ} (h : (a :: l).Pairwise (· ≤ ·)) : ∀ x ∈ a :: l, x ≤ l.getLastD a := by
  induction l generalizing a with
  | nil => simp
  | cons b l ih =>
    rw [List.pairwise_cons] at h
    have htail := ih h.2
    rw [List.getLastD_cons]
    refine List.forall_mem_cons.mpr ⟨?_, htail⟩
    exact (h.1 b List.mem_cons_self).trans (htail b List.mem_cons_self)

/-- Records of a version that is not below the others. -/
lemma pairwise_append_const {a v : ℤ} {l m : List ℤ} (h : (a :: l).Pairwise (· ≤ ·)) (hl : ∀ x ∈ a :: l, x ≤ v)
    (hm : ∀ x ∈ m, x = v) : (a :: (l ++ m)).Pairwise (· ≤ ·) := by
  rw [← List.cons_append, List.pairwise_append]
  refine ⟨h, ?_, fun x hx y hy => (hl x hx).trans_eq (hm y hy).symm⟩
  exact List.pairwise_of_forall_mem_list fun x hx y hy => ((hm x hx).trans (hm y hy).symm).le

/-! ### What is appended -/

namespace Effect

variable {s : State} {e : Event} {core : Core}

/-- Only `open` changes the version and the framer, and only `open` and a commit record a change. -/
lemma stays (h : Effect E s e core) (ho : e.isOpen = false) :
    core.store.version = s.core.store.version ∧ core.framer = s.core.framer ∧
      (∀ q ∈ core.store.committed, q ∈ s.core.store.committed ∨ q.record.v = s.core.store.version) ∧
      (e.isCommit = false → core.store.committed = s.core.store.committed) := by
  cases h with
  | commit c record store hq =>
    refine ⟨?_, rfl, ?_, fun hc => by simp [Event.isCommit] at hc⟩
    · rcases s.core.store.queueChange_cases hq with ⟨-, rfl, -⟩ | ⟨r, -, rfl, -⟩ <;> rfl
    · rcases s.core.store.queueChange_cases hq with ⟨-, rfl, -⟩ | ⟨r, -, rfl, hv, -⟩
      · exact fun q hm => Or.inl hm
      · intro q hm
        rcases List.mem_append.mp hm with hm | hm
        · exact Or.inl hm
        · rw [List.mem_singleton.mp hm]
          exact Or.inr hv
  | wrote | stray | snapshot => exact ⟨by simp, by simp, fun q hm => Or.inl (by simpa using hm), fun _ => by simp⟩
  | unborn | created | unread | loaded | reloaded => simp [Event.isOpen] at ho
  | quiet | begin | sized | framed | popped | failed | cancelled | restarted =>
    exact ⟨rfl, rfl, fun q hm => Or.inl hm, fun _ => rfl⟩

/-- **What is appended** are committed changes, or the snapshot under way. -/
theorem appends (h : Effect E s e core) (hs : OneFlush s) (hleft : e.isStray = true → s.isOpen = false) :
    ∃ more, core.log = s.core.log ++ more ∧ ∀ r ∈ recordsOf more,
      (∃ q ∈ s.core.store.committed, r = .change q.record) ∨ ∃ sn, s.snapping = some sn ∧ r = .snapshot sn.snap := by
  cases h with
  | wrote o batch outcome hl =>
    rcases write_log s.core s.isOpen (entriesOf batch) outcome with hw | ⟨torn, hw, ht⟩
    · refine ⟨_, hw, fun r hr => Or.inl ?_⟩
      rw [recordsOf_entriesOf] at hr
      obtain ⟨c, hc, rfl⟩ := List.mem_map.mp hr
      obtain ⟨p, hp, rfl⟩ := List.mem_map.mp hc
      have hbatch : p.1 ∈ s.core.store.pending :=
        (hs.batch_prefix hl).1.subset (List.mem_map_of_mem hp)
      exact ⟨p.1, hs.queued.suffix.subset hbatch, rfl⟩
    · exact ⟨torn, hw, by simp [ht]⟩
  | stray batch strays outcome =>
    have hclosed : s.isOpen = false := hleft rfl
    refine ⟨[], ?_, by simp [recordsOf]⟩
    simp [Core.write, hclosed]
  | snapshot sn framed outcome hsn =>
    rcases write_log s.core s.isOpen [.snapshot sn.snap framed] outcome with hw | ⟨torn, hw, ht⟩
    · refine ⟨_, hw, fun r hr => Or.inr ⟨sn, hsn, ?_⟩⟩
      simpa [recordsOf, Entry.record] using hr
    · exact ⟨torn, hw, by simp [ht]⟩
  | quiet | commit | begin | sized | framed | popped | failed | cancelled | restarted | unborn | created
  | unread | loaded | reloaded => exact ⟨[], (List.append_nil _).symm, by simp [recordsOf]⟩

end Effect

/-! ### A snapshot that is forced -/

namespace State

@[simp] lemma andThen_snapshot (s : State) (next : Next) : (s.andThen next).snapshot = s.snapshot := by
  cases next <;> rfl

@[simp] lemma andRaise_snapshot (s : State) (e : Exc) (next : Next) : (s.andRaise e next).snapshot = s.snapshot := by
  cases next <;> rfl

@[simp] lemma maybeSnapshot_snapshot (s : State) (next : Next) (clock : Except Exc DateTime) :
    (s.maybeSnapshot E next clock).snapshot = s.snapshot := by
  unfold maybeSnapshot
  split
  · simp
  · simp
  · split
    · dsimp only
      split <;> simp
    · simp

@[simp] lemma afterFlush_snapshot (s : State) (o : Owner) (result : Except Exc Unit) (clock : Except Exc DateTime) :
    (s.afterFlush E o result clock).snapshot = s.snapshot := by
  unfold afterFlush
  dsimp only
  split
  · rfl
  · simp
  · rfl
  · rfl
  · rfl
  · split <;> simp

@[simp] lemma startFlush_snapshot (s : State) (o : Owner) (clock : Except Exc DateTime) :
    (s.startFlush E o clock).snapshot = s.snapshot := by
  unfold startFlush
  split
  · simp
  · split
    · simp
    · split <;> simp

lemma resumeFlush_force {s s' : State} {o : Owner} {clock : Except Exc DateTime}
    (h : s.resumeFlush E o clock = some s') : s'.snapshot.forcePending = s.snapshot.forcePending := by
  have hfail : ∀ exc, (s.failFlush E o exc clock).snapshot = s.snapshot := by
    intro exc
    unfold failFlush
    dsimp only
    split <;> simp
  unfold resumeFlush at h
  split at h
  · split at h <;> obtain rfl := Option.some.inj h
    · rfl
    · rw [hfail]
  · obtain rfl := Option.some.inj h
    simp [popBatch, SnapshotState.recordChanges]
  · obtain rfl := Option.some.inj h
    rw [hfail]
  · obtain rfl := Option.some.inj h
    rw [hfail]
  · simp at h

end State

/-- The write of a snapshot ends the demand for one, if it appends the snapshot. -/
lemma State.writeSnapshot_force (s : State) (sn : Snapping) (outcome : Outcome) :
    (s.writeSnapshot E sn outcome).snapshot.forcePending = s.snapshot.forcePending ∨
      ∃ bytes, (s.writeSnapshot E sn outcome).core.log = s.core.log ++ [.snapshot sn.snap bytes] ∧
        (s.writeSnapshot E sn outcome).snapshot.forcePending = false := by
  unfold State.writeSnapshot
  dsimp only
  split
  · simp
  · rename_i framed hframed
    rcases write_cases s.core s.isOpen [.snapshot sn.snap framed] outcome with ⟨-, hw⟩ | ⟨torn, exc, hw, -⟩
    · rw [hw]
      exact Or.inr ⟨framed, by simp, by simp [SnapshotState.written]⟩
    · rw [hw]
      simp

/-- An event of the loop other than `open` leaves a demand for a snapshot as it is. -/
lemma loopStep_force {s s' : State} {e : Event} (h : loopStep E s e = some s') (ho : e.isOpen = false)
    (hf : s.snapshot.forcePending = true) : s'.snapshot.forcePending = true := by
  cases e with
  | commit c =>
    simp only [loopStep] at h
    split at h <;> simp at h
    subst h
    exact hf
  | call n clock =>
    simp only [loopStep] at h
    split at h <;> simp at h
    subst h
    simpa using hf
  | resume o clock =>
    simp only [loopStep] at h
    split at h
    · simp at h
    · rw [State.resumeFlush_force h, hf]
  | start =>
    simp only [loopStep] at h
    split at h <;> simp at h
    subst h
    exact hf
  | wake clock =>
    simp only [loopStep] at h
    split at h <;> simp at h
    subst h
    simpa using hf
  | deliver survives clock =>
    simp only [loopStep, State.deliver] at h
    split at h
    · split at h <;> simp at h <;> subst h <;> simpa [State.abandon] using hf
    · simp at h
  | reported =>
    simp only [loopStep] at h
    split at h <;> simp at h
    subst h
    exact hf
  | request =>
    obtain rfl := Option.some.inj h
    rfl
  | close clock =>
    simp only [loopStep, State.close] at h
    split at h
    · simp at h
    · split at h
      · simp at h
        subst h
        exact hf
      · split at h <;> simp at h <;> subst h <;> simpa [State.finalFlush] using hf
  | join clock =>
    simp only [loopStep, State.join] at h
    split at h
    · split at h <;> simp at h <;> subst h <;> simpa [State.finalFlush] using hf
    · simp at h
  | «open» => simp [Event.isOpen] at ho
  | work | stray | snapshotWrite => simp [loopStep] at h

/-- Only the write of a snapshot ends a demand for one. -/
lemma step_force {s s' : State} {e : Event} (h : step E s e = some s') (ho : e.isOpen = false)
    (hf : s.snapshot.forcePending = true) : s'.snapshot.forcePending = true ∨
      ∃ sn bytes, s.snapping = some sn ∧ s'.core.log = s.core.log ++ [.snapshot sn.snap bytes] := by
  unfold step at h
  dsimp only at h
  split at h
  · unfold State.work at h
    split at h <;> simp at h <;> subst h <;> exact Or.inl hf
  · unfold State.workStray at h
    split at h <;> simp at h
    subst h
    exact Or.inl hf
  · rename_i outcome sn hsn
    obtain rfl := Option.some.inj h
    rcases State.writeSnapshot_force (E := E) { s with ended := none } sn outcome with hkept | ⟨bytes, hlog, -⟩
    · exact Or.inl (hkept.trans hf)
    · exact Or.inr ⟨sn, bytes, hsn, hlog⟩
  · simp at h
  · exact Or.inl (loopStep_force (s := { s with ended := none }) h ho hf)

/-! ### A forced snapshot is written -/

/-- The snapshot that is taken at a time. -/
def State.snapshotAt (s : State) (ts : DateTime) : Snapshot :=
  ⟨ts, s.core.store.version, s.core.store.statedict, s.core.store.mtime⟩

/-- The time an event reads from the clock, where `open` may go on in it. -/
def Event.clock : Event → Option DateTime
  | .resume _ clock => clock.toOption
  | .open a => a.clock.toOption
  | _ => none

namespace Entering

variable {s t : State}

lemma congr (h : Entering s) (h1 : t.opened = s.opened) (h2 : t.background = s.background)
    (h3 : t.closing = s.closing) : Entering t :=
  ⟨h1.trans h.opened, h2.trans h.background, h3.trans h.closing⟩

/-- A snapshot that can be encoded comes under way. -/
lemma maybeSnapshot {clock : Except Exc DateTime} (h : Entering t) (hforce : t.snapshot.forcePending = true)
    (hopen : t.isOpen = true) (henc : ∀ ts, clock = .ok ts → (E.ser.encodeSnapshot (t.snapshotAt ts)).isOk = true) :
    Entering (t.maybeSnapshot E .spawn clock) := by
  unfold State.maybeSnapshot SnapshotState.due
  rw [if_pos hforce]
  cases clock with
  | error e => exact h
  | ok ts =>
    have hok := henc ts rfl
    unfold State.snapshotAt at hok
    simp only [Functor.map, Except.map, hopen, if_true]
    split
    · rename_i exc hexc
      rw [hexc] at hok
      simp [Except.isOk, Except.toBool] at hok
    · exact h.congr rfl rfl rfl

lemma afterFlush {r : Except Exc Unit} {clock : Except Exc DateTime} (h : Entering t)
    (hforce : t.snapshot.forcePending = true) (hopen : t.isOpen = true)
    (henc : ∀ ts, clock = .ok ts → (E.ser.encodeSnapshot (t.snapshotAt ts)).isOk = true) :
    Entering (t.afterFlush E .opening r clock) := by
  have ht : Entering { t with ended := some (.opening, r) } := h.congr rfl rfl rfl
  cases r with
  | error e => exact ht
  | ok => exact ht.maybeSnapshot hforce hopen henc

lemma startFlush {clock : Except Exc DateTime} (h : Entering t) (hforce : t.snapshot.forcePending = true)
    (hopen : t.isOpen = true) (henc : ∀ ts, clock = .ok ts → (E.ser.encodeSnapshot (t.snapshotAt ts)).isOk = true) :
    Entering (t.startFlush E .opening clock) := by
  unfold State.startFlush
  split
  · exact h.afterFlush hforce hopen henc
  · split
    · exact h.afterFlush hforce hopen henc
    · split
      · exact h.afterFlush hforce hopen henc
      · exact h.congr rfl rfl rfl

/-- A call of `flush` leaves `open` where it is. -/
lemma call {n : ℕ} {clock : Except Exc DateTime} (h : Entering t) : Entering (t.startFlush E (.call n) clock) := by
  unfold State.startFlush
  split
  · exact h.congr rfl rfl rfl
  · split
    · exact h.congr rfl rfl rfl
    · split <;> exact h.congr rfl rfl rfl

lemma failFlush {exc : Exc} {clock : Except Exc DateTime} (h : Entering t) :
    Entering (t.failFlush E .opening exc clock) := by
  unfold State.failFlush
  dsimp only
  split <;> exact h.congr rfl rfl rfl

lemma resumeFlush {clock : Except Exc DateTime} (h : Entering s) (hforce : s.snapshot.forcePending = true)
    (hopen : s.isOpen = true) (henc : ∀ ts, clock = .ok ts → (E.ser.encodeSnapshot (s.snapshotAt ts)).isOk = true)
    (hstep : s.resumeFlush E .opening clock = some t) : Entering t := by
  unfold State.resumeFlush at hstep
  split at hstep
  · split at hstep <;> obtain rfl := Option.some.inj hstep
    · exact h.congr rfl rfl rfl
    · exact h.failFlush
  · obtain rfl := Option.some.inj hstep
    unfold State.popBatch
    refine afterFlush (h.congr rfl rfl rfl) hforce hopen henc
  · obtain rfl := Option.some.inj hstep
    exact h.failFlush
  · obtain rfl := Option.some.inj hstep
    exact h.failFlush
  · simp at hstep

end Entering

/-- A flush that goes on leaves what a snapshot would show. -/
lemma Effect.resumed {s s' : State} {o : Owner} {clock : Except Exc DateTime}
    (h : Effect E s (.resume o clock) s'.core) (ts : DateTime) : s'.snapshotAt ts = s.snapshotAt ts := by
  unfold State.snapshotAt
  generalize s'.core = core at h
  cases h with
  | begin _ _ hb => exact absurd hb (by simp [Event.Begins])
  | quiet | framed | popped | failed => rfl

/-- One flush at a time, transactions only while the instance is open, no I/O error, every `open` succeeds, and
a snapshot that `open` forces can be encoded and framed. -/
structure Lawful (E : Env) (s : State) (e : Event) (s' : State) : Prop where
  single : s'.core.Single
  not_left : e.isStray = true → s.isOpen = false
  while_open : e.isCommit = true → s.opened = true
  succeeds : e.succeeds = true
  opens : e.isOpen = true → s'.opened = true
  accepted : ¬Stranded s'
  encodes : Entering s ∨ e.isOpen = true → s'.snapshot.forcePending = true →
    e.clock.all (fun ts => (E.ser.encodeSnapshot (s'.snapshotAt ts)).isOk) = true
  frames : Entering s → s.snapshot.forcePending = true →
    s.snapping.all (fun sn => (s.core.framer.frameSnapshot E.blake3 sn.payload sn.offset).isOk) = true

instance (s : State) (e : Event) (s' : State) : Decidable (Lawful E s e s') :=
  decidable_of_iff
    (s'.core.Single ∧ (e.isStray = true → s.isOpen = false) ∧ (e.isCommit = true → s.opened = true) ∧
      e.succeeds = true ∧ (e.isOpen = true → s'.opened = true) ∧ ¬Stranded s' ∧
      (Entering s ∨ e.isOpen = true → s'.snapshot.forcePending = true →
        e.clock.all (fun ts => (E.ser.encodeSnapshot (s'.snapshotAt ts)).isOk) = true) ∧
      (Entering s → s.snapshot.forcePending = true →
        s.snapping.all (fun sn => (s.core.framer.frameSnapshot E.blake3 sn.payload sn.offset).isOk) = true))
    ⟨fun ⟨h1, h2, h3, h4, h5, h6, h7, h8⟩ => ⟨h1, h2, h3, h4, h5, h6, h7, h8⟩,
      fun ⟨h1, h2, h3, h4, h5, h6, h7, h8⟩ => ⟨h1, h2, h3, h4, h5, h6, h7, h8⟩⟩

namespace Entering

variable {s s' : State} {e : Event}

/-- While `open` writes its snapshot, the loop is busy. -/
lemma step_snapping {sn : Snapping} (hs : Control s) (hent : Entering s) (hsn : s.snapping = some sn)
    (h : Kanta.step E s e = some s') (hG : Lawful E s e s') (hf : s.snapshot.forcePending = true)
    (hf' : s'.snapshot.forcePending = true) : Entering s' := by
  have hframes := hG.frames hent hf
  rw [hsn, Option.all_some] at hframes
  have hsucceeds := hG.succeeds
  unfold Kanta.step at h
  dsimp only at h
  split at h
  · unfold State.work at h
    split at h <;> simp at h <;> subst h <;> exact hent.congr rfl rfl rfl
  · unfold State.workStray at h
    split at h <;> simp at h
    subst h
    exact hent.congr rfl rfl rfl
  · -- the snapshot is written, and nothing is forced any more
    rename_i outcome sn' hsn'
    obtain rfl := Option.some.inj (hsn.symm.trans hsn')
    obtain rfl := Option.some.inj h
    exfalso
    revert hf'
    unfold State.writeSnapshot
    dsimp only
    split
    · rename_i exc hexc
      rw [hexc] at hframes
      simp [Except.isOk, Except.toBool] at hframes
    · rename_i framed hframed
      cases outcome with
      | failed => simp [Event.succeeds] at hsucceeds
      | ok =>
        have hopen : s.isOpen = true := hs.isOpen.trans hent.opened
        simp [Core.write, hopen, SnapshotState.written]
  · simp at h
  · rename_i hnone
    simp [hsn] at hnone

lemma loopStep_waiting (hs : Control s) (h1 : s.core.Single) (hent : Entering s)
    (hl : s.core.flights.lookup .opening ≠ none) (h : Kanta.loopStep E s e = some s')
    (hf : s.snapshot.forcePending = true)
    (hencodes : e.clock.all (fun ts => (E.ser.encodeSnapshot (s'.snapshotAt ts)).isOk) = true) : Entering s' := by
  have heff := Effect.loopStep hs h
  have hback := hent.background
  cases e with
  | commit c =>
    simp only [loopStep] at h
    split at h <;> simp at h
    subst h
    exact hent.congr rfl rfl rfl
  | call n clock =>
    simp only [loopStep] at h
    split at h <;> simp at h
    subst h
    exact hent.call
  | resume o clock =>
    simp only [loopStep] at h
    split at h
    · simp at h
    · have hsame := heff.resumed
      have henc : ∀ ts, clock = .ok ts → (E.ser.encodeSnapshot (s.snapshotAt ts)).isOk = true := by
        rintro ts rfl
        rw [← hsame ts]
        simpa [Event.clock, Except.toOption] using hencodes
      have hopening : o = .opening := by
        have ho : s.core.flights.lookup o ≠ none := by
          intro hnone
          simp [State.resumeFlush, hnone] at h
        obtain ⟨f, hf⟩ := Option.ne_none_iff_exists'.mp ho
        rw [h1.of_lookup hf, lookup_cons_if] at hl
        by_contra hne
        rw [if_neg (Ne.symm hne)] at hl
        simp at hl
      subst hopening
      exact hent.resumeFlush hf (hs.isOpen.trans hent.opened) henc h
  | start => simp [loopStep, hback] at h
  | wake clock => simp [loopStep, hback] at h
  | deliver survives clock =>
    simp only [loopStep, State.deliver, hback] at h
    split at h <;> simp at h
  | reported => simp [loopStep, hback] at h
  | request =>
    obtain rfl := Option.some.inj h
    exact hent.congr rfl rfl rfl
  | close clock =>
    simp only [loopStep, State.close] at h
    rw [if_pos (Or.inr (Option.isSome_iff_ne_none.mpr hl))] at h
    simp at h
  | join clock => simp [loopStep, State.join, hent.closing] at h
  | «open» a => simp [loopStep, State.openDb, hent.opened] at h
  | work | stray | snapshotWrite => simp [loopStep] at h

/-- While `open` awaits its flush, nothing else moves it. -/
lemma step_waiting (hs : OneFlush s) (hent : Entering s) (hsn : s.snapping = none)
    (hl : s.core.flights.lookup .opening ≠ none) (h : Kanta.step E s e = some s') (hG : Lawful E s e s')
    (hf : s.snapshot.forcePending = true) (hf' : s'.snapshot.forcePending = true) : Entering s' := by
  unfold Kanta.step at h
  dsimp only at h
  split at h
  · unfold State.work at h
    split at h <;> simp at h <;> subst h <;> exact hent.congr rfl rfl rfl
  · unfold State.workStray at h
    split at h <;> simp at h
    subst h
    exact hent.congr rfl rfl rfl
  · rename_i hsn'
    simp [hsn] at hsn'
  · simp at h
  · exact loopStep_waiting (s := { s with ended := none }) (hs.control.congr rfl rfl rfl rfl rfl fun _ h => h)
      hs.single (hent.congr rfl rfl rfl) hl h hf (hG.encodes (Or.inl hent) hf')

/-- **A forced snapshot is written** before `open` returns. -/
theorem step (hs : OneFlush s) (hn : ¬Stranded s) (hent : Entering s) (h : Kanta.step E s e = some s')
    (hG : Lawful E s e s') (hf : s.snapshot.forcePending = true) (hf' : s'.snapshot.forcePending = true) :
    Entering s' := by
  rcases hent.waits hn with hl | ⟨sn, hsn⟩
  · have hsn : s.snapping = none := by
      by_contra hne
      obtain ⟨sn, hsn⟩ := Option.ne_none_iff_exists'.mp hne
      simp [hs.snapping sn hsn] at hl
    exact step_waiting hs hent hsn hl h hG hf hf'
  · exact step_snapping hs.control hent hsn h hG hf hf'

/-- An `open` that forces a snapshot goes on until it is written. -/
theorem forces {a : Opening} (hent : Entering t) (hopen : t.isOpen = true)
    (hG : Lawful E s (.open a) ({ t with snapshot := t.snapshot.requestForce }.startFlush E .opening a.clock)) :
    Entering ({ t with snapshot := t.snapshot.requestForce }.startFlush E .opening a.clock) := by
  have hencodes := hG.encodes (Or.inr rfl) (by simp [SnapshotState.requestForce])
  have hsame : ∀ ts, State.snapshotAt (State.startFlush E
      { t with snapshot := t.snapshot.requestForce } .opening a.clock) ts = t.snapshotAt ts := by
    intro ts
    rw [State.snapshotAt, startFlush_store]
    rfl
  simp only [hsame] at hencodes
  refine startFlush (hent.congr rfl rfl rfl) rfl hopen fun ts hts => ?_
  rw [Event.clock, hts] at hencodes
  exact hencodes

end Entering

end Kanta
