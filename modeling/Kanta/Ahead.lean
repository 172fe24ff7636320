import Kanta.History

/-!
# Snapshots and the log

`snapshots_level`: every snapshot that an instance appends shows the state that the change records
in front of it lead to, in every run with one flush at a time in which no change is queued when a
snapshot is taken, every change that is recorded loses nothing in its diff, a cancelled flush does
not write twice, and `open` finds the queue empty and the log without gaps.  A change that is
committed while the batch in front of it is being written is in the snapshot that follows, and not
yet in the log (`snapshot_ahead`).
-/

namespace Kanta

open Kanta.Lib Kanta.Lib.Assoc Kanta.Lib.Lts

variable {E : Env}

/-! ### Statement -/

/-- Every snapshot that was appended shows the state that the change records in front of it lead to. -/
def NeverAhead (base : List Record) (log : List Entry) : Prop :=
  ∀ before snap bytes after, log = before ++ .snapshot snap bytes :: after →
    ∃ state, patchAll (origin base) (changeRecords (base ++ recordsOf before)) = .ok state ∧
      state.pyEq snap.state.val = true

/-- A file that `open` accepts: the frames of a consistent log that leads to a dict, of a version the
migrations can start from, with a timestamp for its last snapshot. -/
structure Accepted (E : Env) (framer : Framer) (file : Bytes) (base : List Record) : Prop where
  holds : Holds E framer file base
  timed : timestampOf E.ser (lastSnapshot base).1 = .ok ()
  consistent : Consistent (origin base) base
  leads : ∃ x : Dict, Leads (origin base) (changeRecords base) x.val
  migrates : file ≠ [] → ∀ (rr : ReplayResult) (state : Dict), replay E.blake3 E.ser framer file = .ok rr →
    rr.state = state.val → ∃ p, (E.migrations.map fun reg => reg.apply state rr.version).getD
      (.ok (state, rr.version)) = .ok p

lemma Accepted.nil (framer : Framer) : Accepted E framer [] [] :=
  ⟨.nil framer, rfl, .nil, ⟨.empty, .refl _⟩, fun h => absurd rfl h⟩

/-- A file of which the replay reads `base`, which is consistent and leads to a dict, and leaves out
`before`, of a version the migrations can start from, with a timestamp for its last snapshot. -/
structure Grounded (E : Env) (framer : Framer) (file : Bytes) (before base : List Record) : Prop where
  holds : Holds E framer file (before ++ base)
  timed : timestampOf E.ser (lastSnapshot (before ++ base)).1 = .ok ()
  hidden : ∀ more, replayLog (before ++ (base ++ more)) = replayLog (base ++ more)
  consistent : Consistent (origin base) base
  leads : ∃ x : Dict, Leads (origin base) (changeRecords base) x.val
  migrates : file ≠ [] → ∀ (rr : ReplayResult) (state : Dict), replay E.blake3 E.ser framer file = .ok rr →
    rr.state = state.val → ∃ p, (E.migrations.map fun reg => reg.apply state rr.version).getD
      (.ok (state, rr.version)) = .ok p

lemma Accepted.grounded {framer : Framer} {file : Bytes} {base : List Record}
    (h : Accepted E framer file base) : Grounded E framer file [] base :=
  ⟨h.holds, h.timed, fun _ => rfl, h.consistent, h.leads, h.migrates⟩

/-- A file that `open` can load: the frames of records whose replay gives a dict, of a version the
migrations can start from, with a timestamp for the last snapshot. -/
structure Loadable (E : Env) (framer : Framer) (file : Bytes) (records : List Record) : Prop where
  holds : Holds E framer file records
  timed : timestampOf E.ser (lastSnapshot records).1 = .ok ()
  replays : ∃ (rr : ReplayResult) (state : Dict), replayLog records = .ok rr ∧ rr.state = state.val
  migrates : file ≠ [] → ∀ (rr : ReplayResult) (state : Dict), replay E.blake3 E.ser framer file = .ok rr →
    rr.state = state.val → ∃ p, (E.migrations.map fun reg => reg.apply state rr.version).getD
      (.ok (state, rr.version)) = .ok p

lemma Loadable.nil (framer : Framer) : Loadable E framer [] [] :=
  ⟨.nil framer, rfl, ⟨.empty, .empty, rfl, rfl⟩, fun h => absurd rfl h⟩

/-- The last snapshot and the changes behind it are consistent. -/
lemma Loadable.grounded {framer : Framer} {file : Bytes} {records : List Record}
    (h : Loadable E framer file records) :
    ∃ before base, records = before ++ base ∧ Grounded E framer file before base := by
  obtain ⟨rr, state, hrr, hstate⟩ := h.replays
  rcases records_split records with ⟨changes, rfl, hl⟩ | ⟨before, snap, changes, rfl, hl⟩
  · have horigin : origin (changes.map .change) = .dict [] := by cases changes <;> rfl
    refine ⟨[], _, rfl, h.holds, h.timed, fun _ => rfl, Consistent.nil.changes changes, ⟨state, ?_⟩, h.migrates⟩
    rw [replayLog, hl] at hrr
    rw [horigin, changeRecords_map]
    exact ⟨_, patchAll_of_foldlM hrr, by rw [hstate]⟩
  · refine ⟨before, _, rfl, h.holds, h.timed, fun more => replayLog_snapshot before _ snap, ?_, ⟨state, ?_⟩, h.migrates⟩
    · have hfront : Consistent snap.state.val [.snapshot snap] := Consistent.nil.snapshot (.refl _)
      exact hfront.changes changes
    · rw [replayLog, hl] at hrr
      have hrest : changeRecords (.snapshot snap :: changes.map .change) = changes := changeRecords_map changes
      rw [hrest]
      exact ⟨_, patchAll_of_foldlM (r := .ofSnapshot snap) hrr, by rw [hstate]⟩

/-- The state that the change recorded by an event is taken from. -/
def previous (E : Env) (s : State) : Event → Option Dict
  | .commit _ => some s.core.store.statedict
  | .open _ =>
    if s.core.file = [] then some .empty
    else (replay E.blake3 E.ser s.core.framer s.core.file).toOption.bind fun rr => Dict.ofVal rr.state
  | _ => none

/-- One flush at a time, which is not cancelled between its write and its pop; the changes that are
recorded lose nothing; `open` comes when nothing is queued and no append has failed; and nothing is
queued when a snapshot is taken. -/
structure Level (E : Env) (s : State) (e : Event) (s' : State) : Prop where
  single : s'.core.Single
  not_written : e.isDeliver = true → s.core.hasWritten = false
  not_left : e.isStray = true → s.isOpen = false
  lossless : s.core.store.committed.length < s'.core.store.committed.length →
    (previous E s e).all fun p => lossless p s'.core.store.statedict
  settled : e.isOpen = true → s.core.store.pending = [] ∧ Complete s.core.log
  calm : s'.ended.isSome = true → s'.snapping.isSome = true → s'.core.store.pending = []

instance (log : List Entry) : Decidable (Complete log) :=
  inferInstanceAs (Decidable (∀ entry ∈ log, entry.record ≠ none))

instance (s : State) (e : Event) (s' : State) : Decidable (Level E s e s') :=
  decidable_of_iff
    (s'.core.Single ∧ (e.isDeliver = true → s.core.hasWritten = false) ∧
      (e.isStray = true → s.isOpen = false) ∧
      (s.core.store.committed.length < s'.core.store.committed.length →
        (previous E s e).all fun p => lossless p s'.core.store.statedict) ∧
      (e.isOpen = true → s.core.store.pending = [] ∧ Complete s.core.log) ∧
      (s'.ended.isSome = true → s'.snapping.isSome = true → s'.core.store.pending = []))
    ⟨fun ⟨h1, h2, h3, h4, h5, h6⟩ => ⟨h1, h2, h3, h4, h5, h6⟩,
      fun ⟨h1, h2, h3, h4, h5, h6⟩ => ⟨h1, h2, h3, h4, h5, h6⟩⟩

/-! ### What an event records -/

lemma replay_nil (blake3 : Bytes → Bytes → Digest) (ser : Serializer) (framer : Framer) :
    replay blake3 ser framer [] = .ok .empty := by
  cases framer <;> rfl

/-- The file cannot be loaded. -/
def Unloadable (E : Env) (c : Core) : Prop :=
  ∀ (rr : ReplayResult) (state : Dict), replay E.blake3 E.ser c.framer c.file = .ok rr →
    rr.state = state.val → ∃ exc, (E.migrations.map fun reg => reg.apply state rr.version).getD
      (.ok (state, rr.version)) = .error exc

/-- How the state in memory and the committed changes can go on. -/
inductive Recorded (E : Env) (s : State) (e : Event) (core : Core) : Prop
  /-- As before. -/
  | kept (he : e.isOpen = false) (hc : core.store.committed = s.core.store.committed)
      (hs : core.store.statedict = s.core.store.statedict)
  /-- The bootstrap callbacks fail. -/
  | aborted (he : e.isOpen = true) (hfile : s.core.file = []) (h : core = s.core)
  /-- `open` cannot load the file. -/
  | refused (he : e.isOpen = true) (hfile : s.core.file ≠ []) (h : Unloadable E s.core)
      (hc : core.store.committed = s.core.store.committed)
      (hs : core.store.statedict = s.core.store.statedict)
  /-- A state is loaded. -/
  | loaded (he : e.isOpen = true) (hp : previous E s e = some core.store.statedict)
      (hc : core.store.committed = s.core.store.committed)
  /-- A change is recorded. -/
  | change (p : Dict) (q : Queued) (hp : previous E s e = some p)
      (hd : q.record.diff = (delta p core.store.statedict).getD .empty)
      (hc : core.store.committed = s.core.store.committed ++ [q])

namespace Effect

variable {s : State} {e : Event} {core : Core}

lemma recorded_queueChange {store store' : Store} {action : String} {current : Dict} {user : Option String}
    {mtime : Mtime} {force : Bool} {clock : Except Exc DateTime} {record : Option ChangeRecord}
    (h : store.queueChange action current user mtime force clock = .ok (record, store')) :
    store' = store ∨ ∃ q : Queued, q.record.diff = (delta store.statedict store'.statedict).getD .empty ∧
      store'.committed = store.committed ++ [q] := by
  rcases store.queueChange_cases h with ⟨-, rfl, -⟩ | ⟨r, -, rfl, -, -, hd⟩
  · exact Or.inl rfl
  · exact Or.inr ⟨_, hd, rfl⟩

/-- **What an event records.** -/
theorem recorded (h : Effect E s e core) : Recorded E s e core := by
  have hload : ∀ {a rr state} {c : Core}, s.core.file ≠ [] →
      replay E.blake3 E.ser s.core.framer s.core.file = .ok rr → rr.state = Dict.val state →
      Loaded E s.core.store a rr state c.store → Recorded E s (.open a) c := by
    intro a rr state c hfile hreplay hstate hl
    have hprev : previous E s (.open a) = some state := by
      simp only [previous, if_neg hfile, hreplay, Except.toOption, Option.bind_some, hstate, Dict.ofVal_val]
    generalize hst : c.store = store at hl
    cases hl with
    | refused exc hexc =>
      refine .refused rfl hfile (fun rr' state' hr' hs' => ?_) (by rw [hst]) (by rw [hst])
      obtain rfl := Except.ok.inj (hreplay.symm.trans hr')
      obtain rfl : state = state' := by
        have := Dict.ofVal_val state
        rw [← hstate, hs', Dict.ofVal_val] at this
        exact (Option.some.inj this).symm
      exact ⟨exc, hexc⟩
    | invalid => exact .loaded rfl (by rw [hprev, hst]) (by rw [hst])
    | stopped => exact .loaded rfl (by rw [hprev, hst]) (by rw [hst])
    | done migrated normalized version action record store' hm hn hq =>
      rcases recorded_queueChange hq with rfl | ⟨q, hd, hc⟩
      · exact .loaded rfl (by rw [hprev, hst]) (by rw [hst])
      · exact .change state q hprev (by rw [hst]; exact hd) (by rw [hst]; exact hc)
  cases h with
  | quiet e he =>
    cases ho : e.isOpen with
    | false => exact .kept ho rfl rfl
    | true => exact .aborted ho (he ho) rfl
  | commit c record store hq =>
    rcases recorded_queueChange hq with rfl | ⟨q, hd, hc⟩
    · exact .kept rfl rfl rfl
    · exact .change _ q rfl hd hc
  | begin e o he => exact .kept he.not_open rfl rfl
  | sized | framed | popped | failed | cancelled | restarted => exact .kept rfl rfl rfl
  | wrote | stray | snapshot => exact .kept rfl (by simp) (by simp)
  | unborn a _ hfile => exact .loaded rfl (by simp [previous, hfile]) rfl
  | created a current record store _ hfile hcur hq =>
    have hp : previous E s (.open a) = some .empty := by simp [previous, hfile]
    rcases recorded_queueChange hq with rfl | ⟨q, hd, hc⟩
    · exact .loaded rfl hp rfl
    · exact .change .empty q hp hd hc
  | unread a _ hfile hno => exact .refused rfl hfile (fun rr state hr hs => absurd hs (hno rr state hr)) rfl rfl
  | loaded a rr state store _ hfile hreplay hstate hl => exact hload hfile hreplay hstate hl
  | reloaded a rr state store _ hfile hreplay hstate hl =>
    exact hload (c := Core.begin { s.core with framer := _, store := store } .opening) hfile hreplay hstate hl

end Effect

/-- `open` takes its change from what it finds in the file. -/
lemma previous_open {s : State} {a : Opening} {p : Dict} (hp : previous E s (.open a) = some p) :
    ∃ rr, replay E.blake3 E.ser s.core.framer s.core.file = .ok rr ∧ rr.state = p.val := by
  simp only [previous] at hp
  split at hp
  · rename_i hfile
    obtain rfl := Option.some.inj hp
    exact ⟨.empty, by rw [hfile, replay_nil], rfl⟩
  · obtain ⟨rr, hrr, hstate⟩ := Option.bind_eq_some_iff.mp hp
    exact ⟨rr, eq_ok_of_toOption hrr, Dict.ofVal_eq_some.mp hstate⟩

/-! ### The invariant -/

/-- The state in memory is where the committed changes lead, and a snapshot under way shows where the
log leads. -/
structure LevelState (E : Env) (framer : Framer) (file : Bytes) (base : List Record) (s : State) :
    Prop where
  one : OneFlush s
  exact : s.core.drain.Exact []
  located : Complete s.core.log → Located E framer file s
  consistent : Consistent (origin base) (base ++ recordsOf s.core.log)
  snapping : ∀ sn, s.snapping = some sn →
    Leads (origin base) (changeRecords (base ++ recordsOf s.core.log)) sn.snap.state.val
  led : Unused s ∨ Leads (origin base)
    (changeRecords base ++ s.core.store.committed.map Queued.record) s.core.store.statedict.val

namespace LevelState

variable {framer : Framer} {file : Bytes} {before base : List Record} {s s' : State} {e : Event}

lemma init {statedict : Dict} {version : ℤ} (ha : Grounded E framer file before base) :
    LevelState E framer file base (.init statedict version framer file) where
  one := .init statedict version framer file
  exact := ⟨(OneFlush.init statedict version framer file).queued, rfl⟩
  located _ := .init (ha.holds.framed.imp fun _ h => h.1)
  consistent := by simpa [recordsOf, State.init] using ha.consistent
  snapping sn hsn := by simp [State.init] at hsn
  led := Or.inl (.init statedict version framer file)

/-- With an empty queue the log holds every change. -/
lemma changes_of_pending (hs : LevelState E framer file base s) (hp : s.core.store.pending = []) :
    changeRecords (base ++ recordsOf s.core.log) =
      changeRecords base ++ s.core.store.committed.map Queued.record := by
  have : changesOf s.core.log = [] ++ s.core.store.committed := hs.exact.log_eq hp
  rw [changeRecords_append, changeRecords_recordsOf, this, List.nil_append]

/-- **What `open` finds**: the file holds the state where the committed changes lead, if its last snapshot
has a timestamp. -/
lemma replay_settled (hs : LevelState E framer file base s) (ha : Grounded E framer file before base)
    (hread : ∀ r ∈ before ++ base ++ recordsOf s.core.log, Decodable E.ser framer r)
    (hp : s.core.store.pending = []) (hc : Complete s.core.log) :
    ∃ rr, replay E.blake3 E.ser s.core.framer s.core.file =
        (timestampOf E.ser (lastSnapshot (before ++ base ++ recordsOf s.core.log)).1 >>= fun _ => .ok rr) ∧
      rr.state.wf = true ∧ Leads (origin base)
        (changeRecords base ++ s.core.store.committed.map Queued.record) rr.state ∧
      rr.state.isDict = true := by
  obtain ⟨y, hy⟩ : ∃ y : Dict, Leads (origin base) (changeRecords (base ++ recordsOf s.core.log)) y.val := by
    rw [hs.changes_of_pending hp]
    rcases hs.led with hu | hled
    · obtain ⟨x, hx⟩ := ha.leads
      have hnil : s.core.store.committed = [] := by
        have : changesOf s.core.log = [] ++ s.core.store.committed := hs.exact.log_eq hp
        rw [hu.log] at this
        exact this.symm
      exact ⟨x, by rw [hnil]; simpa using hx⟩
    · exact ⟨_, hled⟩
  obtain ⟨rr, hrr, he, hw⟩ := replayLog_of_consistent hs.consistent hy fun hno => by
    cases base with
    | nil => rfl
    | cons r base =>
      cases r with
      | change => rfl
      | snapshot snap => exact absurd (by simp) (hno snap)
  refine ⟨rr, by rw [(hs.located hc).replay_eq ha.holds hread, List.append_assoc, ha.hidden, hrr], hw, ?_, ?_⟩
  · rw [← hs.changes_of_pending hp]
    exact hy.congr_right he.symm
  · rw [Val.isDict_congr he]
    rfl

/-- What a replay of the file gives, where there is one. -/
lemma led_of_replay (hs : LevelState E framer file base s) (ha : Grounded E framer file before base)
    (hread : ∀ r ∈ before ++ base ++ recordsOf s.core.log, Decodable E.ser framer r)
    (hp : s.core.store.pending = []) (hc : Complete s.core.log) {rr : ReplayResult}
    (hrr : replay E.blake3 E.ser s.core.framer s.core.file = .ok rr) :
    Leads (origin base) (changeRecords base ++ s.core.store.committed.map Queued.record) rr.state := by
  obtain ⟨rr', hrr', -, hled, -⟩ := hs.replay_settled ha hread hp hc
  obtain ⟨-, -, h⟩ := bind_eq_ok.mp (hrr'.symm.trans hrr)
  obtain rfl := Except.ok.inj h
  exact hled

/-- The state that an event takes its change from is where the committed changes lead. -/
lemma previous_led (hs : LevelState E framer file base s) (ha : Grounded E framer file before base)
    (hread : ∀ r ∈ before ++ base ++ recordsOf s.core.log, Decodable E.ser framer r)
    (hsettled : e.isOpen = true → s.core.store.pending = [] ∧ Complete s.core.log)
    (hu : e.isOpen = false → ¬Unused s) {p : Dict} (hp : previous E s e = some p) :
    Leads (origin base) (changeRecords base ++ s.core.store.committed.map Queued.record) p.val := by
  cases e with
  | commit c =>
    obtain rfl := Option.some.inj hp
    exact hs.led.resolve_left (hu rfl)
  | «open» a =>
    obtain ⟨hpend, hc⟩ := hsettled rfl
    obtain ⟨rr, hrr, hstate⟩ := previous_open hp
    rw [← hstate]
    exact hs.led_of_replay ha hread hpend hc hrr
  | _ => simp [previous] at hp

/-- An accepted file that nobody has used is loaded. -/
lemma not_unloadable (hs : LevelState E framer file base s) (ha : Grounded E framer file before base)
    (hread : ∀ r ∈ before ++ base ++ recordsOf s.core.log, Decodable E.ser framer r)
    (hp : s.core.store.pending = []) (hu : Unused s) (hne : s.core.file ≠ []) : ¬Unloadable E s.core := by
  intro hno
  have hc : Complete s.core.log := by simp [Complete, hu.log]
  obtain ⟨rr, hrr, hw, -, hd⟩ := hs.replay_settled ha hread hp hc
  have hrr : replay E.blake3 E.ser s.core.framer s.core.file = .ok rr := by
    have hlog : recordsOf s.core.log = [] := by rw [hu.log]; rfl
    rw [hrr, hlog, List.append_nil, ha.timed]
    rfl
  obtain ⟨d, hd⟩ := Dict.exists_of_val hd hw
  obtain ⟨exc, hexc⟩ := hno rr d hrr hd
  have hfile : s.core.file = file := by simp [(hs.located hc).aligned.file_eq, hu.log]
  have hframer : replay E.blake3 E.ser framer file = .ok rr := by
    rw [hfile] at hrr
    rcases (hs.located hc).seeded with hseed | ⟨-, heq, -⟩
    · rw [Framer.replay_of_load hseed, hrr]
    · rw [← heq, hrr]
  obtain ⟨q, hq⟩ := ha.migrates (hfile ▸ hne) rr d hframer hd
  simp [hq] at hexc

/-- **Every step keeps the invariant.** -/
theorem step (hs : LevelState E framer file base s) (ha : Grounded E framer file before base)
    (hread : ∀ r ∈ before ++ base ++ recordsOf s.core.log, Decodable E.ser framer r)
    (h : Kanta.step E s e = some s') (hG : Level E s e s') : LevelState E framer file base s' := by
  have heff := step_effect hs.one.control h
  have hflow := step_flow h
  have hone := hs.one.step h hG.single
  have hleft : ∀ outcome, e = .stray outcome → s.isOpen = false := fun outcome he =>
    hG.not_left (he ▸ rfl)
  have hexact : s'.core.drain.Exact [] :=
    heff.drain_exact hs.one.single hG.single hs.exact hleft hG.not_written
  have hlocated : Complete s'.core.log → Located E framer file s' := fun hc => by
    obtain ⟨more, hlog, -⟩ := heff.log_more
    have hc0 : Complete s.core.log := fun entry he => hc entry (by simp [hlog, he])
    exact (hs.located hc0).step hs.one h hG.single hc hleft
  have hled : Unused s' ∨ Leads (origin base)
      (changeRecords base ++ s'.core.store.committed.map Queued.record) s'.core.store.statedict.val := by
    by_cases hu : Unused s ∧ e.isOpen = false
    · exact Or.inl (hu.1.step hs.one.control h hleft fun a he => by simp [he, Event.isOpen] at hu)
    · have hu' : e.isOpen = false → ¬Unused s := fun he hun => hu ⟨hun, he⟩
      cases heff.recorded with
      | kept he hc hst =>
        rw [hc, hst]
        exact Or.inr (hs.led.resolve_left (hu' he))
      | aborted he hfile hcore =>
        rw [hcore]
        refine hs.led.imp_left fun hun => ?_
        refine ⟨?_, by rw [hcore]; exact hun.log, by rw [hcore]; exact hun.flights, hflow.bootstraps he hfile⟩
        by_contra ho
        obtain ⟨-, hlt⟩ := hflow.opens hun.opened (by simpa using ho)
        have := hlt hfile
        rw [hcore] at this
        omega
      | refused he hfile hno hc hst =>
        rw [hc, hst]
        refine Or.inr (hs.led.resolve_left fun hun => ?_)
        exact hs.not_unloadable ha hread (hG.settled he).1 hun hfile hno
      | loaded he hp hc =>
        rw [hc]
        exact Or.inr (hs.previous_led ha hread hG.settled hu' hp)
      | change p q hp hd hc =>
        have hlossless := hG.lossless (by simp [hc])
        rw [hp, Option.all_some] at hlossless
        rw [hc, List.map_append, ← List.append_assoc]
        exact Or.inr ((hs.previous_led ha hread hG.settled hu' hp).append (leads_record hd hlossless))
  have hcons := hs.consistent.effect heff hs.snapping
  refine ⟨hone, hexact, hlocated, hcons, fun sn hsn => ?_, hled⟩
  rcases hflow.snapping sn hsn with ⟨hsn0, hjob⟩ | ⟨hfresh, o, hend⟩
  · rw [(heff.idle hjob (hs.one.snapping sn hsn0) hleft).2.1]
    exact hs.snapping sn hsn0
  · -- the snapshot is taken of the state in memory, with nothing queued
    have hp := hG.calm (by simp [hend]) (by simp [hsn])
    have hchanges : changesOf s'.core.log = [] ++ s'.core.store.committed := hexact.log_eq hp
    rw [changeRecords_append, changeRecords_recordsOf, hchanges, List.nil_append, hfresh.snap]
    exact hled.resolve_left fun hun => by simp [hun.snapping] at hsn

end LevelState

/-! ### The theorem -/

/-- **Snapshots never run ahead of the log.** -/
theorem snapshots_level {framer : Framer} {file : Bytes} {base : List Record} {statedict : Dict} {version : ℤ}
    {s : State} (ha : Accepted E framer file base)
    (h : Reach (step E) (Level E) (.init statedict version framer file) s)
    (hread : ∀ r ∈ base ++ recordsOf s.core.log, Decodable E.ser framer r) : NeverAhead base s.core.log := by
  have hs : LevelState E framer file base s :=
    invariant_of_log (P := Decodable E.ser framer) h (control_init ..) (.init ha.grounded)
      (fun t e t' hread' ht hstep hG => ht.step ha.grounded
        (fun r hr => (List.mem_append.mp hr).elim (fun hb => hread r (List.mem_append_left _ hb)) (hread' r))
        hstep hG)
      fun r hr => hread r (List.mem_append_right _ hr)
  intro before snap bytes after hlog
  have := hs.consistent (base ++ recordsOf before) snap (recordsOf after) (by
    simp [hlog, recordsOf, Entry.record])
  exact this.pyEq (wf_origin base) snap.state.wf

/-- Two changes, a snapshot, `close` and `open`, and another change. -/
theorem snapshots_level_reopened : ∃ s : State,
    (recordsOf s.core.log).map Record.isSnapshot = [false, false, true, false] ∧
      NeverAhead [] s.core.log := by
  obtain ⟨s, hs, hlog⟩ := exists_reach (step (Sample.env 1)) (fun s e s' => decide (Level (Sample.env 1) s e s'))
    Sample.start
    [Sample.opening, .start, Sample.set 1, .wake (.ok Sample.ts), .work .background .ok,
      .resume .background (.ok Sample.ts), .work .background .ok, .resume .background (.ok Sample.ts),
      .snapshotWrite .ok, .close (.ok Sample.ts), .deliver true (.ok Sample.ts), .join (.ok Sample.ts),
      Sample.opening, Sample.set 2, .call 1 (.ok Sample.ts), .work (.call 1) .ok,
      .resume (.call 1) (.ok Sample.ts), .work (.call 1) .ok, .resume (.call 1) (.ok Sample.ts)]
    (fun s => (recordsOf s.core.log).map Record.isSnapshot) [false, false, true, false] (by decide +kernel)
  exact ⟨s, hlog, snapshots_level (.nil .line) (hs.mono fun _ _ _ h => of_decide_eq_true h)
    fun r _ => (Sample.readable r).1⟩

/-- **A snapshot ahead of the log**: a change is committed while the batch in front of it is being
written, and the snapshot that follows shows it although the log does not hold it yet. -/
theorem snapshot_ahead : ∃ s : State,
    Reach (step (Sample.env 1)) (fun _ e s' => s'.core.Single ∧ e.succeeds = true) Sample.start s ∧
      recordsOf s.core.log =
        [.change { ts := Sample.ts, a := "bootstrap", diff := Sample.state 0 },
          .change { ts := Sample.ts, a := "set", diff := Sample.state 1 },
          .snapshot { ts := Sample.ts, v := 0, state := Sample.state 2 }] ∧
      ¬NeverAhead [] s.core.log := by
  obtain ⟨s, hs, hlog⟩ := exists_reach (step (Sample.env 1))
    (fun _ e s' => decide (s'.core.Single ∧ e.succeeds = true)) Sample.start
    [Sample.opening, .start, Sample.set 1, .wake (.ok Sample.ts), .work .background .ok,
      .resume .background (.ok Sample.ts), .work .background .ok, Sample.set 2,
      .resume .background (.ok Sample.ts), .snapshotWrite .ok]
    (fun s => (recordsOf s.core.log).map Sample.view)
    ([.change { ts := Sample.ts, a := "bootstrap", diff := Sample.state 0 },
      .change { ts := Sample.ts, a := "set", diff := Sample.state 1 },
      .snapshot { ts := Sample.ts, v := 0, state := Sample.state 2 }].map Sample.view) (by decide +kernel)
  have hrec := Sample.records_eq hlog (by decide +kernel)
  refine ⟨s, hs.mono fun _ _ _ h => of_decide_eq_true h, hrec, fun h => ?_⟩
  obtain ⟨before, snap, bytes, after, hsplit, hbefore, rfl⟩ :
      ∃ before snap bytes after, s.core.log = before ++ .snapshot snap bytes :: after ∧
        recordsOf before = [.change { ts := Sample.ts, a := "bootstrap", diff := Sample.state 0 },
          .change { ts := Sample.ts, a := "set", diff := Sample.state 1 }] ∧
        snap = { ts := Sample.ts, v := 0, state := Sample.state 2 } := by
    obtain ⟨l, l', hl, h1, h2⟩ := List.filterMap_eq_append_iff.mp (show s.core.log.filterMap Entry.record =
      [_, _] ++ [.snapshot { ts := Sample.ts, v := 0, state := Sample.state 2 }] from hrec)
    obtain ⟨l1, entry, l2, rfl, h3, h4, -⟩ := List.filterMap_eq_cons_iff.mp h2
    cases entry with
    | snapshot snap bytes =>
      refine ⟨l ++ l1, snap, bytes, l2, by simp [hl], ?_, by simpa [Entry.record] using h4⟩
      rw [recordsOf_append, show recordsOf l1 = [] from List.filterMap_eq_nil_iff.mpr h3, List.append_nil]
      exact h1
    | _ => simp [Entry.record] at h4
  obtain ⟨state, hpatch, heq⟩ := h _ _ _ _ hsplit
  rw [List.nil_append, hbefore] at hpatch
  obtain rfl : Val.dict [("n", .int 1)] = state := Except.ok.inj hpatch
  exact absurd heq (by decide)

end Kanta
