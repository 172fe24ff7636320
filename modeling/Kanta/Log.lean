import Kanta.Ahead
import Kanta.Reapply

/-!
# The log

`log_durable`: whenever an instance that began with an empty file is open, with nothing queued, the
replay of its file gives its state, version and modification time, in every run with one flush at a
time, no I/O error, no write of a cancelled flush in the open file and no change committed while
`close` awaits its last flush.  Snapshots may be ahead of the log and batches may be written twice:
what the log then holds once more is absorbed.  A change that is committed during the last flush of
`close` stays queued, and is written to the log of the next session, which does not know it
(`late_commit_revived`).
-/

namespace Kanta

open Kanta.Lib Kanta.Lib.Assoc Kanta.Lib.Lts

variable {E : Env}

/-! ### Statement -/

/-- The version of a fresh instance. -/
def Env.version (E : Env) : ℤ := (E.migrations.map Migrations.dbver).getD 0

/-- The replay of the file gives what the instance holds. -/
def Recovers (E : Env) (c : Core) : Prop :=
  ∃ rr, replay E.blake3 E.ser c.framer c.file = .ok rr ∧ rr.state.pyEq c.store.statedict.val = true ∧
    rr.version = c.store.version ∧ rr.m = c.store.mtime

/-- One flush at a time, transactions only while the instance is open, no I/O error, and states that
hold objects at the paths of `τ` and no `$` in front of a key or a string. -/
structure Regular (τ : List String → Bool) (s : State) (e : Event) (s' : State) : Prop where
  single : s'.core.Single
  while_open : e.isCommit = true → s.opened = true
  succeeds : e.succeeds = true
  unfailed : s'.flushFailed = false
  plain : dollarFree s'.core.store.statedict.val = true
  typed : typed s'.core.store.statedict.val τ = true

instance (τ : List String → Bool) (s : State) (e : Event) (s' : State) : Decidable (Regular τ s e s') :=
  decidable_of_iff
    (s'.core.Single ∧ (e.isCommit = true → s.opened = true) ∧ e.succeeds = true ∧ s'.flushFailed = false ∧
      dollarFree s'.core.store.statedict.val = true ∧ typed s'.core.store.statedict.val τ = true)
    ⟨fun ⟨h1, h2, h3, h4, h5, h6⟩ => ⟨h1, h2, h3, h4, h5, h6⟩,
      fun ⟨h1, h2, h3, h4, h5, h6⟩ => ⟨h1, h2, h3, h4, h5, h6⟩⟩

/-- A write that was left behind finds the file closed, and nothing is committed while `close` awaits
its flush. -/
structure Prompt (s : State) (e : Event) (s' : State) : Prop where
  not_left : e.isStray = true → s.isOpen = false
  not_late : s.closing = .flushing → s'.core.store.committed.length = s.core.store.committed.length

instance (s : State) (e : Event) (s' : State) : Decidable (Prompt s e s') :=
  decidable_of_iff
    ((e.isStray = true → s.isOpen = false) ∧
      (s.closing = .flushing → s'.core.store.committed.length = s.core.store.committed.length))
    ⟨fun ⟨h1, h2⟩ => ⟨h1, h2⟩, fun ⟨h1, h2⟩ => ⟨h1, h2⟩⟩

/-! ### Modification times -/

/-- A stretch that begins at or before `k` changes nothing of what the first `k` changes say. -/
lemma lastM_segment (changes : List ChangeRecord) {i k j : ℕ} (hik : i ≤ k) (hkj : k ≤ j) :
    (lastM ((changes.take j).drop i) <|> lastM (changes.take k)) = lastM (changes.take j) := by
  have htake : changes.take k = (changes.take j).take k := by rw [List.take_take, Nat.min_eq_left hkj]
  rw [htake]
  generalize changes.take j = l
  have hdrop : l.drop i = (l.take k).drop i ++ l.drop k := by
    rw [List.drop_take, ← Nat.add_sub_cancel' hik, ← List.drop_drop, Nat.add_sub_cancel_left,
      List.take_append_drop]
  have hfront : lastM (l.take k) = (lastM ((l.take k).drop i) <|> lastM ((l.take k).take i)) := by
    rw [← lastM_append, List.take_append_drop]
  have hall : lastM l = (lastM (l.drop k) <|> lastM (l.take k)) := by
    rw [← lastM_append, List.take_append_drop]
  rw [hall, hdrop, lastM_append, hfront]
  cases lastM (l.drop k) <;> cases lastM ((l.take k).drop i) <;> rfl

/-! ### How far a log has come -/

/-- The states that the changes lead through, from an empty one, with the version of the changes. -/
structure Told (τ : List String → Bool) (version : ℤ) (changes : List ChangeRecord) (xs : ℕ → Val) :
    Prop where
  begins : (xs 0).sem = (Val.dict []).sem
  carries : ∀ i c, changes[i]? = some c → Carries τ c (xs i) (xs (i + 1))
  version : ∀ c ∈ changes, c.v = version

/-- The replay of the records ends behind the first `k` changes. -/
structure Stands (τ : List String → Bool) (version : ℤ) (changes : List ChangeRecord) (xs : ℕ → Val)
    (records : List Record) (k : ℕ) : Prop where
  replay : ∃ rr, replayLog records = .ok rr ∧ rr.state.wf = true ∧ typed rr.state τ = true ∧
    rr.state.sem = (xs k).sem ∧ rr.m = lastM (changes.take k) ∧ (records ≠ [] → rr.version = version)
  none : records = [] → k = 0

namespace Told

variable {τ : List String → Bool} {version : ℤ} {changes : List ChangeRecord} {xs : ℕ → Val}

/-- One change more. -/
lemma change (h : Told τ version changes xs) {c : ChangeRecord} {y : Val} (hv : c.v = version)
    (hc : Carries τ c (xs changes.length) y) :
    Told τ version (changes ++ [c]) (Function.update xs (changes.length + 1) y) := by
  refine ⟨by simpa [Function.update] using h.begins, fun i c' hi => ?_, fun c' hc' => ?_⟩
  · rcases Nat.lt_trichotomy i changes.length with hlt | rfl | hgt
    · rw [List.getElem?_append_left hlt] at hi
      rw [Function.update_of_ne (by omega), Function.update_of_ne (by omega)]
      exact h.carries i c' hi
    · simp only [List.getElem?_concat_length, Option.some.injEq] at hi
      subst hi
      rw [Function.update_of_ne (by omega), Function.update_self]
      exact hc
    · rw [List.getElem?_eq_none (by simp; omega)] at hi
      simp at hi
  · rcases List.mem_append.mp hc' with hm | hm
    · exact h.version c' hm
    · rw [List.mem_singleton.mp hm, hv]

end Told

namespace Stands

variable {τ : List String → Bool} {version : ℤ} {changes : List ChangeRecord} {xs : ℕ → Val}
  {records : List Record} {k : ℕ}

lemma nil (hτ : τ [] = true) (h : Told τ version changes xs) : Stands τ version changes xs [] 0 where
  replay := ⟨.empty, rfl, rfl, by simp [ReplayResult.empty, typed, typedItems, hτ], h.begins.symm, rfl,
    fun h => absurd rfl h⟩
  none _ := rfl

/-- A longer history that begins in the same way. -/
lemma mono (h : Stands τ version changes xs records k) (hk : k ≤ changes.length) (more : List ChangeRecord)
    {xs' : ℕ → Val} (hxs : ∀ i ≤ changes.length, xs' i = xs i) :
    Stands τ version (changes ++ more) xs' records k where
  replay := by
    obtain ⟨rr, hrr, hw, hτ, hsem, hm, hv⟩ := h.replay
    exact ⟨rr, hrr, hw, hτ, by rw [hsem, hxs k hk], by rw [hm, List.take_append_of_le_length hk], hv⟩
  none := h.none

/-- A snapshot stands where it was taken. -/
lemma snapshot {snap : Snapshot} (hτ : typed snap.state.val τ = true) (hsem : snap.state.val.sem = (xs k).sem)
    (hm : snap.m = lastM (changes.take k)) (hv : snap.v = version) :
    Stands τ version changes xs (records ++ [.snapshot snap]) k where
  replay := ⟨.ofSnapshot snap, by rw [replayLog, lastSnapshot_snapshot]; rfl, snap.state.wf, hτ, hsem, hm,
    fun _ => hv⟩
  none h := by simp at h

/-- **A segment of the history that overlaps** what the log holds already brings it to its own end. -/
lemma segment (h : Stands τ version changes xs records k) (ht : Told τ version changes xs) {i j : ℕ}
    (hik : i ≤ k) (hkj : k ≤ j) (hj : j ≤ changes.length) :
    Stands τ version changes xs (records ++ ((changes.take j).drop i).map .change) j := by
  obtain ⟨rr, hrr, hw, hτ, hsem, hm, hv⟩ := h.replay
  have hlen : ((changes.take j).drop i).length = j - i := by simp; omega
  have hget : ∀ a c, ((changes.take j).drop i)[a]? = some c → Carries τ c (xs (i + a)) (xs (i + (a + 1))) := by
    intro a c hc
    have ha : a < j - i := by
      rw [← hlen]
      exact (List.getElem?_eq_some_iff.mp hc).1
    rw [List.getElem?_drop, List.getElem?_take, if_pos (by omega)] at hc
    exact ht.carries (i + a) c hc
  obtain ⟨t', hpatch, hw', hτ', hsem'⟩ := reapply hget hw hτ (j := k - i)
    (by omega) (by rw [hsem]; congr 3; omega)
  obtain ⟨rr', hrr', rfl⟩ := foldlM_applyChange hpatch
  obtain ⟨hm', hv'⟩ := applyChanges_stamp hrr'
  refine ⟨⟨rr', by rw [replayLog_changes, hrr]; exact hrr', hw', hτ', ?_, ?_, fun hne => ?_⟩, fun hnil => ?_⟩
  · rw [hsem', hlen]
    congr 3
    omega
  · rw [hm', hm, lastM_segment changes hik hkj]
  · rw [hv']
    rcases hseg : (changes.take j).drop i with _ | ⟨c, l⟩
    · exact hv fun hr => hne (by simp [hr, hseg])
    · rw [List.map_cons, List.getLastD_cons]
      have hmem : (l.map ChangeRecord.v).getLastD c.v ∈ (c :: l).map ChangeRecord.v := List.getLastD_mem_cons
      obtain ⟨c', hc', hlast⟩ := List.mem_map.mp hmem
      rw [← hlast]
      rw [← hseg] at hc'
      exact ht.version c' (List.mem_of_mem_take (List.mem_of_mem_drop hc'))
  · obtain ⟨hr, hs⟩ := List.append_eq_nil_iff.mp hnil
    have := h.none hr
    have := congrArg List.length hs
    simp only [List.length_map, hlen, List.length_nil] at this
    omega

/-- Segments, one after another. -/
theorem covers (h : Stands τ version changes xs records k) (ht : Told τ version changes xs)
    {more : List ChangeRecord} {k' : ℕ} (hc : Drain.Covers changes k more k') :
    Stands τ version changes xs (records ++ more.map .change) k' := by
  induction hc with
  | nil => simpa using h
  | append _ i j hik hkj hj ih =>
    rw [List.map_append, ← List.append_assoc]
    exact ih.segment ht hik hkj hj

end Stands

/-! ### Version and modification time -/

/-- A database of the current version needs no migration. -/
lemma Env.migrate_version (E : Env) (state : Dict) :
    (E.migrations.map fun reg => reg.apply state E.version).getD (.ok (state, E.version)) =
      .ok (state, E.version) := by
  unfold Env.version
  cases E.migrations with
  | none => rfl
  | some reg => exact reg.apply_dbver state

/-- The store carries the version of its changes and their last modification time. -/
structure Stamped (version : ℤ) (store : Store) : Prop where
  own : store.version = version
  changes : ∀ q ∈ store.committed, q.record.v = version
  mtime : store.mtime = lastM (store.committed.map Queued.record)

namespace Stamped

variable {version : ℤ} {store store' : Store}

lemma queueChange {action : String} {current : Dict} {user : Option String} {mtime : Mtime} {force : Bool}
    {clock : Except Exc DateTime} {record : Option ChangeRecord} (h : Stamped version store)
    (hq : store.queueChange action current user mtime force clock = .ok (record, store')) :
    Stamped version store' := by
  rcases store.queueChange_cases hq with ⟨-, rfl, -⟩ | ⟨r, -, rfl, hv, -⟩
  · exact h
  · refine ⟨h.own, fun q hm => ?_, ?_⟩
    · rcases List.mem_append.mp hm with hm | hm
      · exact h.changes q hm
      · rw [List.mem_singleton.mp hm]
        exact hv.trans h.own
    · show (r.m <|> store.mtime) = lastM ((store.committed ++ [_]).map Queued.record)
      rw [List.map_append, lastM_append, ← h.mtime, List.map_singleton]
      show _ = ((r.m <|> none) <|> store.mtime)
      cases r.m <;> rfl

lemma loaded {a : Opening} {rr : ReplayResult} {state : Dict} (h : Stamped E.version store)
    (hv : rr.version = E.version) (hm : rr.m = store.mtime) (hl : Loaded E store a rr state store') :
    Stamped E.version store' := by
  have hmig := E.migrate_version state
  cases hl with
  | refused => exact h
  | invalid => exact ⟨h.own, h.changes, h.mtime⟩
  | stopped migrated version hap =>
    rw [hv, hmig] at hap
    obtain ⟨-, rfl⟩ := Prod.mk.inj (Except.ok.inj hap)
    exact ⟨rfl, h.changes, hm.trans h.mtime⟩
  | done migrated normalized version action record store' hap hn hq =>
    rw [hv, hmig] at hap
    obtain ⟨-, rfl⟩ := Prod.mk.inj (Except.ok.inj hap)
    refine Stamped.queueChange ?_ hq
    exact ⟨rfl, h.changes, hm.trans h.mtime⟩

/-- **Every event** keeps the version, and the modification time with the changes. -/
lemma effect {s : State} {e : Event} {core : Core} (h : Stamped E.version s.core.store)
    (he : Effect E s e core)
    (hload : ∀ rr, e.isOpen = true → s.core.file ≠ [] →
      replay E.blake3 E.ser s.core.framer s.core.file = .ok rr →
      rr.version = E.version ∧ rr.m = s.core.store.mtime) :
    Stamped E.version core.store := by
  cases he with
  | commit c record store hq => exact h.queueChange hq
  | popped => exact ⟨h.own, h.changes, h.mtime⟩
  | wrote | stray | snapshot => simpa using h
  | unborn => exact ⟨h.own, h.changes, h.mtime⟩
  | created a current record store _ _ _ hq =>
    refine Stamped.queueChange ?_ hq
    exact ⟨h.own, h.changes, h.mtime⟩
  | loaded a rr state store _ hfile hreplay _ hl =>
    obtain ⟨hv, hm⟩ := hload rr rfl hfile hreplay
    exact h.loaded hv hm hl
  | reloaded a rr state store _ hfile hreplay _ hl =>
    obtain ⟨hv, hm⟩ := hload rr rfl hfile hreplay
    exact h.loaded hv hm hl
  | quiet | begin | sized | framed | failed | cancelled | restarted | unread => exact h

end Stamped

/-! ### The invariant -/

/-- `open` on an empty file writes nothing. -/
lemma Effect.open_empty {s : State} {e : Event} {core : Core} (h : Effect E s e core) (he : e.isOpen = true)
    (hfile : s.core.file = []) : core.log = s.core.log ∧ core.flights = s.core.flights := by
  cases h with
  | begin _ _ hb => simp [hb.not_open] at he
  | unread _ _ hne | loaded _ _ _ _ _ hne | reloaded _ _ _ _ _ hne => exact absurd hfile hne
  | quiet | unborn | created => exact ⟨rfl, rfl⟩
  | commit | sized | wrote | framed | popped | failed | stray | cancelled | restarted | snapshot =>
    simp [Event.isOpen] at he

/-- `open` of an instance that has not been used creates the database, or leaves the instance so. -/
lemma Unused.step_open {s s' : State} {e : Event} (hu : Unused s) (hs : Control s)
    (h : Kanta.step E s e = some s') (he : e.isOpen = true) (hfile : s.core.file = []) :
    Unused s' ∨ s.core.store.committed.length < s'.core.store.committed.length := by
  have hflow := step_flow h
  obtain ⟨hlog, hflights⟩ := (step_effect hs h).open_empty he hfile
  cases ho : s'.opened with
  | true => exact Or.inr ((hflow.opens hu.opened ho).2 hfile)
  | false =>
    exact Or.inl ⟨ho, hlog.trans hu.log, hflights.trans hu.flights, hflow.bootstraps he hfile⟩

/-- An event other than a commit and `open` fills no empty queue. -/
lemma Effect.pending_nil {s : State} {e : Event} {core : Core} (h : Effect E s e core)
    (hp : s.core.store.pending = []) (hc : e.isCommit = false) (ho : e.isOpen = false) :
    core.store.pending = [] := by
  cases h with
  | commit => simp [Event.isCommit] at hc
  | unborn | created | unread | loaded | reloaded => simp [Event.isOpen] at ho
  | popped => simp [hp]
  | wrote | stray | snapshot => simpa using hp
  | quiet | begin | sized | framed | failed | cancelled | restarted => exact hp

/-- The states and the position that the queue, the log and the state in memory agree on. -/
structure Agreed (τ : List String → Bool) (version : ℤ) (s : State) (xs : ℕ → Val) (k : ℕ) : Prop where
  told : Told τ version (s.core.store.committed.map Queued.record) xs
  stands : Stands τ version (s.core.store.committed.map Queued.record) xs (recordsOf s.core.log) k
  upTo : s.core.drain.UpTo k
  led : Unused s ∨ (s.core.store.committed ≠ [] ∧ typed s.core.store.statedict.val τ = true ∧
    s.core.store.statedict.val.sem = (xs s.core.store.committed.length).sem)

structure LogState (E : Env) (τ : List String → Bool) (framer : Framer) (s : State) : Prop where
  one : OneFlush s
  whole : Whole (· = .closing) s.core
  located : Located E framer [] s
  stamped : Stamped E.version s.core.store
  unfailed : s.flushFailed = false
  closed : s.opened = false → s.core.store.pending = []
  snapping : ∀ sn, s.snapping = some sn → sn.snap.v = s.core.store.version ∧
    sn.snap.state = s.core.store.statedict ∧ sn.snap.m = s.core.store.mtime
  agreed : ∃ xs k, Agreed τ E.version s xs k

namespace LogState

variable {τ : List String → Bool} {framer : Framer} {s s' : State} {e : Event} {xs : ℕ → Val} {k : ℕ}

lemma init {statedict : Dict} (hτ : τ [] = true) : LogState E τ framer (.init statedict E.version framer []) where
  one := .init statedict E.version framer []
  whole := .of_nil rfl
  located := .init ⟨framer, framer.load_nil⟩
  stamped := ⟨rfl, by simp [State.init], rfl⟩
  unfailed := rfl
  closed _ := rfl
  snapping sn hsn := by simp [State.init] at hsn
  agreed := by
    have ht : Told τ E.version [] (fun _ => .dict []) := ⟨rfl, by simp, by simp⟩
    exact ⟨_, 0, ht, .nil hτ ht, .all rfl, Or.inl (.init statedict E.version framer [])⟩

lemma file_eq_nil (hs : LogState E τ framer s) (hu : Unused s) : s.core.file = [] := by
  simp [hs.located.aligned.file_eq, hu.log]

/-- With an empty queue, the file holds the state that the history leads to, if its last snapshot has a
timestamp. -/
lemma replay_eq (hs : LogState E τ framer s) (ha : Agreed τ E.version s xs k)
    (hread : ∀ r ∈ recordsOf s.core.log, Decodable E.ser framer r) (hp : s.core.store.pending = []) :
    ∃ rr, replay E.blake3 E.ser s.core.framer s.core.file =
        (timestampOf E.ser (lastSnapshot (recordsOf s.core.log)).1 >>= fun _ => .ok rr) ∧ rr.state.wf = true ∧
      typed rr.state τ = true ∧ rr.state.sem = (xs s.core.store.committed.length).sem ∧
      rr.m = s.core.store.mtime ∧ (s.core.store.committed ≠ [] → rr.version = E.version) := by
  obtain rfl : k = s.core.store.committed.length := by
    have hle : k ≤ s.core.store.committed.length := ha.upTo.le
    have hpass : s.core.store.committed.length ≤ k + s.core.store.pending.length := ha.upTo.passed
    rw [hp, List.length_nil] at hpass
    omega
  obtain ⟨rr, hrr, hw, hτ, hsem, hm, hv⟩ := ha.stands.replay
  refine ⟨rr, ?_, hw, hτ, hsem, ?_, fun hne => hv fun hnil => hne ?_⟩
  · rw [hs.located.replay_eq (.nil framer) (by simpa using hread), List.nil_append, hrr]
  · rw [hm, hs.stamped.mtime, List.take_of_length_le (by simp)]
  · exact List.length_eq_zero_iff.mp (ha.stands.none hnil)

/-- What a replay of the file gives, where there is one. -/
lemma of_replay (hs : LogState E τ framer s) (ha : Agreed τ E.version s xs k)
    (hread : ∀ r ∈ recordsOf s.core.log, Decodable E.ser framer r) (hp : s.core.store.pending = [])
    {rr : ReplayResult} (hrr : replay E.blake3 E.ser s.core.framer s.core.file = .ok rr) :
    typed rr.state τ = true ∧ rr.state.sem = (xs s.core.store.committed.length).sem ∧
      rr.m = s.core.store.mtime ∧ (s.core.store.committed ≠ [] → rr.version = E.version) := by
  obtain ⟨rr', hrr', -, hfound⟩ := hs.replay_eq ha hread hp
  obtain ⟨-, -, h⟩ := bind_eq_ok.mp (hrr'.symm.trans hrr)
  obtain rfl := Except.ok.inj h
  exact hfound

/-- The state that an event takes its change from is the last one of the history. -/
lemma previous_led (hs : LogState E τ framer s) (ha : Agreed τ E.version s xs k)
    (hread : ∀ r ∈ recordsOf s.core.log, Decodable E.ser framer r)
    (hp : e.isOpen = true → s.core.store.pending = []) (hu : e.isOpen = false → ¬Unused s) {p : Dict}
    (hprev : previous E s e = some p) :
    typed p.val τ = true ∧ p.val.sem = (xs s.core.store.committed.length).sem := by
  cases e with
  | commit c =>
    obtain rfl := Option.some.inj hprev
    exact (ha.led.resolve_left (hu rfl)).2
  | «open» a =>
    obtain ⟨rr, hrr, hstate⟩ := previous_open hprev
    obtain ⟨hτ, hsem, -⟩ := hs.of_replay ha hread (hp rfl) hrr
    rw [← hstate]
    exact ⟨hτ, hsem⟩
  | _ => simp [previous] at hprev

/-- The history of `s'` goes on where that of `s` ends. -/
structure Continues (τ : List String → Bool) (version : ℤ) (s s' : State) (xs xs' : ℕ → Val) : Prop where
  more : ∃ more, s'.core.store.committed.map Queued.record =
    s.core.store.committed.map Queued.record ++ more
  same : ∀ i ≤ s.core.store.committed.length, xs' i = xs i
  told : Told τ version (s'.core.store.committed.map Queued.record) xs'
  led : Unused s' ∨ (s'.core.store.committed ≠ [] ∧ typed s'.core.store.statedict.val τ = true ∧
    s'.core.store.statedict.val.sem = (xs' s'.core.store.committed.length).sem)

/-- **The history goes on** with every step. -/
lemma continues (hs : LogState E τ framer s) (ha : Agreed τ E.version s xs k)
    (hread : ∀ r ∈ recordsOf s.core.log, Decodable E.ser framer r) (h : Kanta.step E s e = some s')
    (hG : Regular τ s e s') (hleft : ∀ outcome, e = .stray outcome → s.isOpen = false)
    (hstamped : Stamped E.version s'.core.store) : ∃ xs', Continues τ E.version s s' xs xs' := by
  have heff := step_effect hs.one.control h
  have hopen := fun he => hs.closed (step_open h he).1
  -- an instance that is not in use stays so, as long as nothing is committed
  have hunused : Unused s → s'.core.store.committed = s.core.store.committed → Unused s' := fun hu hc => by
    cases he : e.isOpen with
    | false => exact hu.step hs.one.control h hleft fun a ha => by simp [ha, Event.isOpen] at he
    | true => exact (hu.step_open hs.one.control h he (hs.file_eq_nil hu)).resolve_right (by simp [hc])
  have hkeep : s'.core.store.committed = s.core.store.committed →
      (¬Unused s → s'.core.store.statedict.val.sem = (xs s.core.store.committed.length).sem) →
      ∃ xs', Continues τ E.version s s' xs xs' := fun hc hsem => by
    refine ⟨xs, ⟨[], by simp [hc]⟩, fun _ _ => rfl, hc ▸ ha.told, ?_⟩
    by_cases hu : Unused s
    · exact Or.inl (hunused hu hc)
    · exact Or.inr ⟨hc ▸ (ha.led.resolve_left hu).1, hG.typed, hc ▸ hsem hu⟩
  cases heff.recorded with
  | kept he hc hst => exact hkeep hc fun hu => by rw [hst, (ha.led.resolve_left hu).2.2]
  | aborted he hfile hcore =>
    exact hkeep (by rw [hcore]) fun hu => by rw [hcore, (ha.led.resolve_left hu).2.2]
  | refused he hfile hno hc hst => exact hkeep hc fun hu => by rw [hst, (ha.led.resolve_left hu).2.2]
  | loaded he hp hc =>
    exact hkeep hc fun hu => (hs.previous_led ha hread hopen (by simp [he]) hp).2
  | change p q hp hd hc =>
    have hused : e.isOpen = false → ¬Unused s := fun he hu => by
      cases e with
      | commit c => exact absurd (hG.while_open rfl) (by simp [hu.opened])
      | «open» => simp [Event.isOpen] at he
      | _ => simp [previous] at hp
    obtain ⟨hpτ, hsem⟩ := hs.previous_led ha hread hopen hused hp
    have hcarries := carries_record hd hG.plain hpτ hG.typed
    refine ⟨Function.update xs (s.core.store.committed.length + 1) s'.core.store.statedict.val,
      ⟨[q.record], by simp [hc]⟩, fun i hi => Function.update_of_ne (by omega) _ _, ?_, Or.inr ⟨?_, hG.typed, ?_⟩⟩
    · have := ha.told.change (c := q.record) (y := s'.core.store.statedict.val)
        (hstamped.changes q (by simp [hc])) ?_
      · simpa [hc] using this
      · intro t ht htτ
        simpa [hsem] using hcarries t ht htτ
    · simp [hc]
    · rw [hc, List.length_append, List.length_singleton, Function.update_self]

/-- What is written to the log keeps it in agreement with the history. -/
lemma written (hs : LogState E τ framer s) (ha : Agreed τ E.version s xs k) {xs' : ℕ → Val}
    (hc : Continues τ E.version s s' xs xs') (heff : Effect E s e s'.core) (h1 : s'.core.Single)
    (hleft : ∀ outcome, e = .stray outcome → s.isOpen = false) :
    ∃ k', Stands τ E.version (s'.core.store.committed.map Queued.record) xs' (recordsOf s'.core.log) k' ∧
      s'.core.drain.UpTo k' := by
  obtain ⟨new, hnew⟩ := hc.more
  have hstands : Stands τ E.version (s'.core.store.committed.map Queued.record) xs' (recordsOf s.core.log) k := by
    rw [hnew]
    exact ha.stands.mono (by rw [List.length_map]; exact ha.upTo.le) new (by simpa using hc.same)
  obtain ⟨more, hlog, ⟨changes, hchanges⟩ | ⟨sn, bytes, hsn, rfl, hstore, hflights⟩⟩ := heff.log_more
  · -- the flush in flight has appended its batch
    have hcov : s'.core.drain.Covered (changesOf s.core.log) k := by
      refine (heff.moves hs.one.single h1).keeps (fun a _ _ ha hstep hcov => hcov.step hstep ?_)
        ⟨hs.one.queued, [], k, by simp [Core.drain], .nil, ha.upTo⟩
      rintro rfl
      obtain ⟨outcome, he, ho⟩ := ha
      simp [hleft outcome he] at ho
    obtain ⟨-, more', k', hlog', hcovers, hup⟩ := hcov
    have hmore : changesOf more = more' := by
      have : changesOf s.core.log ++ changesOf more = changesOf s.core.log ++ more' := by
        rw [← changesOf_append, ← hlog]
        exact hlog'
      exact List.append_cancel_left this
    have hrec : changes = more'.map Queued.record := by
      rw [← hmore, ← changeRecords_recordsOf, hchanges, changeRecords_map]
    refine ⟨k', ?_, hup⟩
    rw [hlog, recordsOf_append, hchanges, hrec]
    exact hstands.covers hc.told (hcovers.map Queued.record)
  · -- the snapshot shows the state in memory
    obtain ⟨hv, hstate, hm⟩ := hs.snapping sn hsn
    obtain ⟨-, hτ, hsem⟩ := hc.led.resolve_left fun hu => absurd hu.log (by simp [hlog])
    refine ⟨s'.core.store.committed.length, ?_, ?_⟩
    · rw [hlog, recordsOf_append]
      exact Stands.snapshot (hstate ▸ hstore ▸ hτ) (by rw [hstate, ← hstore, hsem])
        (by rw [hm, hs.stamped.mtime, hstore, List.take_of_length_le (by simp)]) (hv.trans hs.stamped.own)
    · refine Drain.UpTo.all (d := s'.core.drain) ?_
      simp [Core.drain, hflights, hs.one.snapping sn hsn]

/-- **Every step keeps the invariant.** -/
theorem step (hs : LogState E τ framer s) (hread : ∀ r ∈ recordsOf s.core.log, Decodable E.ser framer r)
    (h : Kanta.step E s e = some s') (hG : Regular τ s e s') (hT : Prompt s e s') : LogState E τ framer s' := by
  have heff := step_effect hs.one.control h
  have hflow := step_flow h
  have hleft : ∀ outcome, e = .stray outcome → s.isOpen = false := fun outcome he =>
    hT.not_left (he ▸ rfl)
  have hlocated := hs.located.step hs.one h hG.single
    (heff.complete hG.succeeds hs.located.aligned.complete) hleft
  obtain ⟨xs, k, ha⟩ := hs.agreed
  have hstamped : Stamped E.version s'.core.store := hs.stamped.effect heff fun rr he hfile hrr => by
    have hne := (ha.led.resolve_left fun hu => hfile (hs.file_eq_nil hu)).1
    obtain ⟨-, -, hm, hv⟩ := hs.of_replay ha hread (hs.closed (step_open h he).1) hrr
    exact ⟨hv hne, hm⟩
  obtain ⟨xs', hcont⟩ := hs.continues ha hread h hG hleft hstamped
  obtain ⟨k', hstands, hup⟩ := hs.written ha hcont heff hG.single hleft
  refine ⟨hs.one.step h hG.single, ?_, hlocated, hstamped, hG.unfailed, fun ho => ?_, fun sn hsn => ?_,
    xs', k', hcont.told, hstands, hup, hcont.led⟩
  · refine hs.whole.effect heff hs.one.single hG.single fun ⟨p, hp, ho⟩ => hT.not_late ?_
    have hl : s.core.flights.lookup p.1 ≠ none := fun hl =>
      lookup_eq_none_iff.mp hl (List.mem_map_of_mem hp)
    have := hs.one.control.awaits p.1 hl
    rwa [ho] at this
  · cases hopen : s.opened with
    | true => exact hs.whole.pending_nil hs.one.single hs.unfailed h (hflow.shuts hopen ho)
    | false =>
      have hp := hs.closed hopen
      cases he : e.isOpen with
      | true => exact ((step_open h he).2 ho).trans hp
      | false =>
        exact heff.pending_nil hp (by by_contra hc; simp [hG.while_open (by simpa using hc)] at hopen) he
  · rcases hflow.snapping sn hsn with ⟨hsn0, hjob⟩ | ⟨hfresh, -⟩
    · rw [(heff.idle hjob (hs.one.snapping sn hsn0) hleft).2.2]
      exact hs.snapping sn hsn0
    · rw [hfresh.snap]
      exact ⟨rfl, rfl, rfl⟩

end LogState

/-! ### The theorem -/

/-- **The log is durable**: with nothing queued, the file holds what the open instance holds, if its last
snapshot has a timestamp. -/
theorem log_durable {τ : List String → Bool} {framer : Framer} {statedict : Dict} {s : State}
    (hτ : τ [] = true)
    (h : Reach (step E) (fun s e s' => Regular τ s e s' ∧ Prompt s e s')
      (.init statedict E.version framer []) s)
    (hread : ∀ r ∈ recordsOf s.core.log, Decodable E.ser framer r)
    (htime : timestampOf E.ser (lastSnapshot (recordsOf s.core.log)).1 = .ok ()) (hopen : s.opened = true)
    (hp : s.core.store.pending = []) : Recovers E s.core := by
  have hs : LogState E τ framer s :=
    invariant_of_log (P := Decodable E.ser framer) h (control_init ..) (.init hτ)
      (fun _ _ _ hread' ht hstep hG => ht.step hread' hstep hG.1 hG.2) hread
  obtain ⟨xs, k, ha⟩ := hs.agreed
  obtain ⟨hne, -, hled⟩ := ha.led.resolve_left fun hu => by simp [hu.opened] at hopen
  obtain ⟨rr, hrr, hw, -, hsem, hm, hv⟩ := hs.replay_eq ha hread hp
  rw [htime] at hrr
  refine ⟨rr, hrr, ?_, (hv hne).trans hs.stamped.own.symm, hm⟩
  exact (Val.pyEq_iff hw s.core.store.statedict.wf).mpr (hsem.trans hled.symm)

/-- A snapshot ahead of the log, the change that it shows, `close` and `open`. -/
theorem log_durable_reopened : ∃ s : State,
    (recordsOf s.core.log).map Record.isSnapshot = [false, false, true, false] ∧ s.opened = true ∧
      s.core.store.pending.length = 0 ∧ Recovers (Sample.env 1) s.core := by
  obtain ⟨s, hs, hobs⟩ := exists_reach (step (Sample.env 1))
    (fun s e s' => decide (Regular List.isEmpty s e s' ∧ Prompt s e s')) Sample.start
    [Sample.opening, .start, Sample.set 1, .wake (.ok Sample.ts), .work .background .ok,
      .resume .background (.ok Sample.ts), .work .background .ok, Sample.set 2,
      .resume .background (.ok Sample.ts), .snapshotWrite .ok, .close (.ok Sample.ts),
      .deliver true (.ok Sample.ts), .work .background .ok, .resume .background (.ok Sample.ts),
      .work .background .ok, .resume .background (.ok Sample.ts), .join (.ok Sample.ts), Sample.opening]
    (fun s => ((recordsOf s.core.log).map Record.isSnapshot, s.opened, s.core.store.pending.length))
    ([false, false, true, false], true, 0) (by decide +kernel)
  obtain ⟨hkinds, hrest⟩ := Prod.mk.inj hobs
  obtain ⟨hopen, hpending⟩ := Prod.mk.inj hrest
  exact ⟨s, hkinds, hopen, hpending, log_durable (τ := List.isEmpty) rfl
    (hs.mono fun _ _ _ h => of_decide_eq_true h) (fun r _ => (Sample.readable r).1)
    (timestampOf_timed fun r _ => (Sample.readable r).2) hopen
    (List.length_eq_zero_iff.mp hpending)⟩

/-- **A late commit is revived**: the change is committed while `close` awaits its flush, `open` loads
the file without it, and the next flush writes it. -/
theorem late_commit_revived : ∃ s : State,
    Reach (step (Sample.env 1000)) (Regular List.isEmpty) Sample.start s ∧ s.opened = true ∧
      s.core.flights.length = 0 ∧ s.core.store.pending.length = 0 ∧ ¬Recovers (Sample.env 1000) s.core := by
  obtain ⟨s, hs, hobs⟩ := exists_reach (step (Sample.env 1000))
    (fun s e s' => decide (Regular List.isEmpty s e s')) Sample.start
    [Sample.opening, Sample.set 1, .close (.ok Sample.ts), .deliver true (.ok Sample.ts),
      .join (.ok Sample.ts), .work .closing .ok, .resume .closing (.ok Sample.ts), .work .closing .ok,
      Sample.set 2, .resume .closing (.ok Sample.ts), Sample.opening, .call 1 (.ok Sample.ts),
      .work (.call 1) .ok, .resume (.call 1) (.ok Sample.ts), .work (.call 1) .ok,
      .resume (.call 1) (.ok Sample.ts)]
    (fun s => (s.opened, s.core.flights.length, s.core.store.pending.length,
      (replay (Sample.env 1000).blake3 Sample.ser s.core.framer s.core.file).toOption.map fun rr =>
        rr.state.pyEq s.core.store.statedict.val))
    (true, 0, 0, some false) (by decide +kernel)
  simp only [Prod.mk.injEq] at hobs
  obtain ⟨hopen, hflights, hpending, hreplay⟩ := hobs
  refine ⟨s, hs.mono fun _ _ _ h => of_decide_eq_true h, hopen, hflights, hpending, ?_⟩
  rintro ⟨rr, hrr, heq, -⟩
  have hrr : replay (Sample.env 1000).blake3 Sample.ser s.core.framer s.core.file = .ok rr := hrr
  rw [hrr] at hreplay
  simp [Except.toOption, heq] at hreplay

end Kanta
