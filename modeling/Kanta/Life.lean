import Kanta.Versions

/-!
# The life of a database

One instance after another opens the same file: `restart` sets up the next one when the file is
closed, with other migrations if it likes.  `migrations_once`: over the whole life every migration runs
at most once, in ascending order, the versions in the file do not decrease, and behind `open` the file
carries the version of the last migration.  It replays to that version if its changes can be applied;
the diff of a bootstrapped state may be one that cannot (`bootstrap_unreadable`).
-/

namespace Kanta

open Kanta.Lib Kanta.Lib.Assoc Kanta.Lib.Lts

variable {E : Env}

/-! ### Instances one after another -/

/-- What an application passes to a new instance. -/
structure Setup where
  minDiffs : ℕ
  migrations : Option Migrations

/-- The configuration of an instance that is set up so. -/
def Setup.env (setup : Setup) (E : Env) : Env :=
  { E with minDiffs := setup.minDiffs, migrations := setup.migrations }

/-- The framer of a new instance, which draws a seed of its own. -/
def Framer.renew (framer : Framer) (sync : Sync) : Framer :=
  match framer with
  | .line => .line
  | .bin _ => .bin sync

/-- The migrations that `open` runs. -/
def Env.ran (E : Env) (c : Core) : Event → List ℕ
  | .open _ =>
    if c.file = [] then []
    else
      let ran := do
        let rr ← (replay E.blake3 E.ser c.framer c.file).toOption
        let state ← Dict.ofVal rr.state
        let reg ← E.migrations
        (reg.report state rr.version).toOption
      ran.getD []
  | _ => []

/-- The instance that has the file, the records that others before it have appended, and the migrations
that have run. -/
structure Life where
  setup : Setup
  system : State
  past : List Record
  applied : List ℕ

namespace Life

inductive Event where
  /-- Something happens to the instance. -/
  | inside (e : Kanta.Event)
  /-- Another instance takes over the file. -/
  | restart (setup : Setup) (statedict : Dict) (sync : Sync)

/-- The configuration of the instance. -/
def env (E : Env) (life : Life) : Env := life.setup.env E

/-- The records that have been appended. -/
def records (life : Life) : List Record := life.past ++ recordsOf life.system.core.log

/-- A file that is there, and an instance that has not opened it. -/
def start (E : Env) (setup : Setup) (statedict : Dict) (framer : Framer) (file : Bytes) : Life :=
  ⟨setup, .init statedict (setup.env E).version framer file, [], []⟩

def step (E : Env) (life : Life) : Event → Option Life
  | .inside e =>
    (Kanta.step (life.env E) life.system e).map fun system =>
      { life with system, applied := life.applied ++ (life.env E).ran life.system.core e }
  | .restart setup statedict sync =>
    if life.system.opened then none
    else
      let c := life.system.core
      some ⟨setup, .init statedict (setup.env E).version (c.framer.renew sync) c.file, life.records, life.applied⟩

/-- The rules hold for what happens to each instance. -/
def Lawful (E : Env) (life : Life) : Event → Life → Prop
  | .inside e, life' => Kanta.Lawful (life.env E) life.system e life'.system
  | .restart .., _ => True

instance (life : Life) (e : Event) (life' : Life) : Decidable (life.Lawful E e life') := by
  cases e
  · exact inferInstanceAs (Decidable (Kanta.Lawful _ _ _ _))
  · exact inferInstanceAs (Decidable True)

end Life

/-! ### The file from session to session -/

lemma frameRecords_eq_nil {framer : Framer} {offset : ℕ} {records : List Record}
    (h : frameRecords E.blake3 E.ser framer offset records = .ok []) : records = [] := by
  cases records with
  | nil => rfl
  | cons r records =>
    obtain ⟨payload, -, h⟩ := bind_eq_ok.mp h
    obtain ⟨fr, hfr, h⟩ := bind_eq_ok.mp h
    obtain ⟨rest, -, h⟩ := bind_eq_ok.mp h
    have hnil : fr ++ rest = [] := Except.ok.inj h
    have hlen := frame_length E.blake3 hfr
    rw [(List.append_eq_nil_iff.mp hnil).1] at hlen
    have hpos : 0 < framer.frameLength r.isSnapshot payload offset := by
      cases framer <;> simp only [Framer.frameLength] <;> omega
    simp at hlen
    omega

namespace Holds

variable {framer : Framer} {file : Bytes} {records : List Record}

lemma file_eq_nil (h : Holds E framer file records) : file = [] ↔ records = [] := by
  obtain ⟨fr, -, hframes⟩ := h.framed
  constructor
  · rintro rfl
    exact frameRecords_eq_nil hframes
  · rintro rfl
    exact (Except.ok.inj hframes).symm

/-- The seed is in the file. -/
lemma renew (h : Holds E framer file records) (sync : Sync) : Holds E (framer.renew sync) file records := by
  by_cases hfile : file = []
  · obtain rfl := h.file_eq_nil.mp hfile
    subst hfile
    exact .nil _
  · obtain ⟨fr, hload, hframes⟩ := h.framed
    refine ⟨fr, ?_, hframes⟩
    cases framer with
    | line => exact hload
    | bin sync' =>
      rw [Framer.load, if_neg hfile] at hload
      rw [Framer.renew, Framer.load, if_neg hfile]
      exact hload

end Holds

/-- A session leaves the file with the records it has appended. -/
lemma Located.holds {framer : Framer} {file : Bytes} {base : List Record} {s : State}
    (h : Located E framer file s) (hb : Holds E framer file base) :
    Holds E s.core.framer s.core.file (base ++ recordsOf s.core.log) := by
  rcases h.seeded with hseed | ⟨hu, heq, -⟩
  · obtain ⟨fr, hfr, hframes⟩ := hb.framed
    obtain rfl := Except.ok.inj (hseed.symm.trans hfr)
    refine ⟨s.core.framer, h.load_file hseed, ?_⟩
    rw [h.aligned.file_eq]
    have hlog := frameRecords_of_placed h.aligned.placed h.aligned.complete
    exact frameRecords_append.mpr ⟨_, hframes, _, by rwa [Nat.zero_add], rfl⟩
  · have hfile : s.core.file = file := by simp [h.aligned.file_eq, hu.log]
    have hlog : recordsOf s.core.log = [] := by rw [hu.log]; rfl
    rw [hfile, heq, hlog, List.append_nil]
    exact hb

/-- The format of the payloads stays. -/
lemma Located.fits {framer : Framer} {file : Bytes} {s : State} (h : Located E framer file s) {item : Item}
    (hfits : framer.Fits item) : s.core.framer.Fits item := by
  rcases h.seeded with hseed | ⟨-, heq, -⟩
  · exact Framer.fits_of_load hseed hfits
  · exact heq ▸ hfits

lemma Framer.fits_renew {framer : Framer} {item : Item} (h : framer.Fits item) (sync : Sync) :
    (framer.renew sync).Fits item := by
  cases framer with
  | line => exact h
  | bin => trivial

/-! ### What `open` runs -/

/-- `open` appends nothing before its flush. -/
lemma Effect.open_log {s : State} {e : Event} {core : Core} (h : Effect E s e core) (he : e.isOpen = true) :
    core.log = s.core.log := by
  cases h with
  | begin _ _ hb => simp [hb.not_open] at he
  | quiet | unborn | created | unread | loaded | reloaded => rfl
  | commit | sized | wrote | framed | popped | failed | stray | cancelled | restarted | snapshot =>
    simp [Event.isOpen] at he

/-- The migrations above a version, in ascending order. -/
lemma Migrations.pairwise_above (reg : Migrations) (version : ℤ) :
    ((reg.above version).map Prod.fst).Pairwise (· < ·) :=
  reg.sorted.sublist (List.filter_sublist.map Prod.fst)

/-- What the migrations make of the version of a file. -/
structure Raised (E : Env) (stored version : ℤ) (ran : List ℕ) : Prop where
  ascends : stored ≤ version
  offers : ∀ reg, E.migrations = some reg → version = reg.dbver ∧ ran = (reg.above stored).map Prod.fst
  none : E.migrations = none → version = stored
  pairwise : ran.Pairwise (· < ·)
  between : ∀ n ∈ ran, stored < n ∧ (n : ℤ) ≤ version

/-- **`open` runs what is above the version of the file.** -/
theorem LoadedFrom.raised {s : State} {a : Opening} {rr : ReplayResult} {state migrated normalized : Dict}
    {version : ℤ} {record : Option ChangeRecord} {store : Store} (hfile : s.core.file ≠ [])
    (h : LoadedFrom E s a rr state migrated normalized version record store) :
    Raised E rr.version version (E.ran s.core (.open a)) := by
  have hmigrates := h.migrates
  have hran : E.ran s.core (.open a) =
      (E.migrations.bind fun reg => (reg.report state rr.version).toOption).getD [] := by
    simp [Env.ran, hfile, h.replays, Except.toOption, h.dict, Dict.ofVal_val]
  rw [hran]
  unfold Env.migrate at hmigrates
  cases hreg : E.migrations with
  | none =>
    rw [hreg] at hmigrates
    obtain ⟨-, rfl⟩ := Prod.mk.inj (Except.ok.inj hmigrates)
    exact ⟨le_rfl, by simp [hreg], fun _ => rfl, .nil, by simp⟩
  | some reg =>
    rw [hreg] at hmigrates
    obtain ⟨hle, htop, hreport, -⟩ := reg.apply_ok hmigrates
    simp only [Option.bind_some, hreport, Except.toOption, Option.getD_some]
    refine ⟨hle.trans_eq htop.symm, fun reg' hreg' => ?_, by simp [hreg], reg.pairwise_above _, fun n hn => ?_⟩
    · obtain rfl := Option.some.inj (hreg.symm.trans hreg')
      exact ⟨htop, rfl⟩
    · obtain ⟨m, hm, rfl⟩ := List.mem_map.mp hn
      obtain ⟨hmem, habove⟩ := List.mem_filter.mp hm
      exact ⟨by simpa using habove, htop ▸ reg.le_dbver hmem⟩

/-! ### Statement -/

/-- What holds of a database over its life: no migration has run twice, and they ran in ascending order;
the file is the frames of what it held at first and of what was appended, with versions that do not
decrease; `open` runs the migrations above the version of the file; and when `open` has returned and what
it queued is flushed, the file replays to the version of the last migration, if its changes can be applied
at all and its last snapshot has a timestamp. -/
structure Migrated (E : Env) (base : List Record) (life : Life) : Prop where
  once : life.applied.Pairwise (· < ·)
  ascending : (lastVersion base :: life.records.map Record.v).Pairwise (· ≤ ·)
  file : Holds (life.env E) life.system.core.framer life.system.core.file (base ++ life.records)
  offered : ∀ a life', life.step E (.inside (.open a)) = some life' → life.Lawful E (.inside (.open a)) life' →
    life.system.core.file ≠ [] → ∃ rr, replay E.blake3 E.ser life.system.core.framer life.system.core.file = .ok rr ∧
      ∀ reg, life.setup.migrations = some reg →
        life'.applied = life.applied ++ (reg.above rr.version).map Prod.fst
  current : life.system.opened = true → ¬Entering life.system →
    (life.system.core.store.pending = [] ∨ life.system.core.file ≠ []) → ∀ reg, life.setup.migrations = some reg →
    ((∃ rr, replay E.blake3 E.ser life.system.core.framer life.system.core.file = .ok rr ∧ rr.version = reg.dbver) ↔
      Applicable (base ++ life.records) ∧ timestampOf E.ser (lastSnapshot (base ++ life.records)).1 = .ok ())

/-! ### The invariant -/

/-- How the versions stand in a session. -/
inductive Phase (E : Env) (records : List Record) (stamps : List ℤ) (applied : List ℕ) (s : State) : Prop
  /-- The instance has not been opened. -/
  | fresh (unused : Unused s) (committed : s.core.store.committed = [])
      (version : s.core.store.version = E.version) (ran : ∀ n ∈ applied, (n : ℤ) ≤ lastVersion records)
  /-- Nothing is above the version of the instance, which is the one of the file unless `open` is still to
  write a snapshot. -/
  | used (ran : ∀ n ∈ applied, (n : ℤ) ≤ s.core.store.version) (stamps : ∀ v ∈ stamps, v ≤ s.core.store.version)
      (level : (Entering s → s.snapshot.forcePending = false) → records ≠ [] →
        lastVersion records = s.core.store.version)

/-- The invariant of a life. -/
structure Lived (E : Env) (framer : Framer) (base : List Record) (life : Life) : Prop where
  one : OneFlush life.system
  kept : life.system.core.drain.Kept
  accepted : ¬Stranded life.system
  located : ∃ start bytes, (∀ item, framer.Fits item → start.Fits item) ∧
    Holds (life.env E) start bytes (base ++ life.past) ∧ Located (life.env E) start bytes life.system
  own : ∀ reg, life.setup.migrations = some reg → life.system.core.store.version = reg.dbver
  changes : ∀ q ∈ life.system.core.store.committed, q.record.v = life.system.core.store.version
  snapping : ∀ sn, life.system.snapping = some sn → sn.snap.v = life.system.core.store.version
  begun : life.system.opened = true → base ++ life.records ≠ [] ∨ life.system.core.store.committed ≠ []
  once : life.applied.Pairwise (· < ·)
  ran : life.applied ≠ [] → base ++ life.records ≠ []
  ascending : (lastVersion base :: life.records.map Record.v).Pairwise (· ≤ ·)
  phase : Phase (life.env E) (base ++ life.records) (lastVersion base :: life.records.map Record.v) life.applied
    life.system

namespace Lived

variable {framer : Framer} {base : List Record} {life life' : Life}

lemma holds (hl : Lived E framer base life) :
    Holds (life.env E) life.system.core.framer life.system.core.file (base ++ life.records) := by
  obtain ⟨start, bytes, -, hholds, hlocated⟩ := hl.located
  rw [Life.records, ← List.append_assoc]
  exact hlocated.holds hholds

/-- What the file replays to, if its last snapshot has a timestamp. -/
lemma replay_eq (hl : Lived E framer base life) (hread : ∀ r ∈ base ++ life.records, Decodable E.ser framer r) :
    replay E.blake3 E.ser life.system.core.framer life.system.core.file =
      (timestampOf E.ser (lastSnapshot (base ++ life.records)).1 >>= fun _ => replayLog (base ++ life.records)) := by
  obtain ⟨start, bytes, hfits, hholds, hlocated⟩ := hl.located
  rw [Life.records, ← List.append_assoc] at hread ⊢
  exact hlocated.replay_eq hholds fun r hr =>
    ⟨(hread r hr).1, fun payload hp => hfits _ ((hread r hr).2 payload hp)⟩

/-- No migration that has run is above the version of the file, while it is closed. -/
lemma ran_le (hl : Lived E framer base life) (hclosed : life.system.opened = false) :
    ∀ n ∈ life.applied, (n : ℤ) ≤ lastVersion (base ++ life.records) := by
  intro n hn
  cases hl.phase with
  | fresh _ _ _ hran => exact hran n hn
  | used hran _ hlevel =>
    have hreturned : Entering life.system → life.system.snapshot.forcePending = false := by
      intro hent
      simp [hent.opened] at hclosed
    rw [hlevel hreturned (hl.ran (List.ne_nil_of_mem hn))]
    exact hran n hn

/-- The last version is the highest one. -/
lemma le_last (hl : Lived E framer base life) :
    ∀ v ∈ lastVersion base :: life.records.map Record.v, v ≤ lastVersion (base ++ life.records) := by
  rw [lastVersion_append]
  exact le_getLastD hl.ascending

lemma start_version (setup : Setup) : ∀ reg, setup.migrations = some reg → (setup.env E).version = reg.dbver := by
  intro reg hreg
  simp [Env.version, Setup.env, hreg]

/-- A new instance on the file of an old one. -/
lemma renewed {setup : Setup} {statedict : Dict} {start : Framer} {file : Bytes} {past : List Record}
    {applied : List ℕ} (hfits : ∀ item, framer.Fits item → start.Fits item)
    (hholds : Holds (setup.env E) start file (base ++ past)) (honce : applied.Pairwise (· < ·))
    (hran : applied ≠ [] → base ++ past ≠ [])
    (hascending : (lastVersion base :: past.map Record.v).Pairwise (· ≤ ·))
    (hle : ∀ n ∈ applied, (n : ℤ) ≤ lastVersion (base ++ past)) :
    Lived E framer base ⟨setup, .init statedict (setup.env E).version start file, past, applied⟩ := by
  have hrecords : past ++ recordsOf (State.init statedict (setup.env E).version start file).core.log = past := by
    simp [recordsOf, State.init]
  refine ⟨.init .., ?_, ?_, ⟨start, file, hfits, hholds, ?_⟩, start_version setup, ?_, ?_, ?_, honce, ?_, ?_, ?_⟩
  · exact ⟨(OneFlush.init ..).queued, by simp [Core.drain, State.init], by simp [Core.drain, State.init]⟩
  · exact fun hs => by simpa [State.init] using hs.opened
  · exact .init (hholds.framed.imp fun _ h => h.1)
  · simp [State.init]
  · simp [State.init]
  · simp [State.init]
  · unfold Life.records
    rwa [hrecords]
  · unfold Life.records
    rwa [hrecords]
  · refine .fresh (.init ..) rfl rfl ?_
    unfold Life.records
    rwa [hrecords]

/-- The file as it is at first. -/
lemma start {setup : Setup} {statedict : Dict} {file : Bytes} (h : Holds (setup.env E) framer file base) :
    Lived E framer base (.start E setup statedict framer file) := by
  refine renewed (fun _ h => h) (by rwa [List.append_nil]) .nil (absurd rfl) ?_ (by simp)
  simp

/-- The next instance. -/
lemma restart (hl : Lived E framer base life) {setup : Setup} {statedict : Dict} {sync : Sync}
    (hclosed : life.system.opened = false) :
    Lived E framer base ⟨setup, .init statedict (setup.env E).version (life.system.core.framer.renew sync)
      life.system.core.file, life.records, life.applied⟩ := by
  obtain ⟨start, bytes, hfits, -, hlocated⟩ := hl.located
  refine renewed (fun item h => ?_) ⟨(hl.holds.renew sync).framed⟩ hl.once hl.ran hl.ascending (hl.ran_le hclosed)
  exact Framer.fits_renew (hlocated.fits (hfits item h)) sync

/-- A step of the instance. -/
lemma grows {e : Event} {system : State} (hl : Lived E framer base life)
    (h : Kanta.step (life.env E) life.system e = some system) (hG : Kanta.Lawful (life.env E) life.system e system) :
    ∃ more, system.core.log = life.system.core.log ++ more ∧
      ∀ r ∈ recordsOf more, r.v = life.system.core.store.version := by
  obtain ⟨more, hlog, hmore⟩ := (step_effect hl.one.control h).appends hl.one hG.not_left
  refine ⟨more, hlog, fun r hr => ?_⟩
  rcases hmore r hr with ⟨q, hq, rfl⟩ | ⟨sn, hsn, rfl⟩
  · exact hl.changes q hq
  · exact hl.snapping sn hsn

lemma located_step {e : Event} {system : State} (hl : Lived E framer base life)
    (h : Kanta.step (life.env E) life.system e = some system) (hG : Kanta.Lawful (life.env E) life.system e system) :
    ∃ start bytes, (∀ item, framer.Fits item → start.Fits item) ∧
      Holds (life.env E) start bytes (base ++ life.past) ∧ Located (life.env E) start bytes system := by
  obtain ⟨start, bytes, hfits, hholds, hlocated⟩ := hl.located
  have hcomplete := (step_effect hl.one.control h).complete hG.succeeds hlocated.aligned.complete
  have hleft : ∀ outcome, e = .stray outcome → life.system.isOpen = false := fun outcome he => hG.not_left (he ▸ rfl)
  exact ⟨start, bytes, hfits, hholds, hlocated.step hl.one h hG.single hcomplete hleft⟩

lemma begun_step {e : Event} {system : State} {applied : List ℕ} (hl : Lived E framer base life)
    (h : Kanta.step (life.env E) life.system e = some system) (hG : Kanta.Lawful (life.env E) life.system e system)
    (hopen : system.opened = true) :
    base ++ Life.records { life with system, applied } ≠ [] ∨ system.core.store.committed ≠ [] := by
  have heff := step_effect hl.one.control h
  obtain ⟨more, hlog, -⟩ := hl.grows h hG
  have hrecords : Life.records { life with system, applied } = life.records ++ recordsOf more := by
    simp [Life.records, hlog]
  have hcommitted : ∃ new, system.core.store.committed = life.system.core.store.committed ++ new := by
    cases heff.recorded with
    | kept _ hc | refused _ _ _ hc | loaded _ _ hc => exact ⟨[], by simp [hc]⟩
    | aborted _ _ hcore => exact ⟨[], by simp [hcore]⟩
    | change p q _ _ hc => exact ⟨[q], hc⟩
  obtain ⟨new, hnew⟩ := hcommitted
  rw [hrecords, hnew]
  cases hwas : life.system.opened with
  | true => exact (hl.begun hwas).imp (by simp; tauto) (by simp; tauto)
  | false =>
    obtain ⟨-, hcreates⟩ := (step_flow h).opens hwas hopen
    by_cases hfile : life.system.core.file = []
    · have hlen := hcreates hfile
      rw [hnew] at hlen
      exact Or.inr fun hnil => by simp [hnil] at hlen
    · exact Or.inl fun hnil => hfile (hl.holds.file_eq_nil.mpr (by simp at hnil ⊢; tauto))

/-- What the versions do in a step that is no `open`. -/
lemma inside {e : Event} {system : State} (hl : Lived E framer base life)
    (h : Kanta.step (life.env E) life.system e = some system) (hG : Kanta.Lawful (life.env E) life.system e system)
    (ho : e.isOpen = false) : Lived E framer base { life with system } := by
  have heff := step_effect hl.one.control h
  obtain ⟨hversion, -, hcommitted, hnone⟩ := heff.stays ho
  obtain ⟨more, hlog, hmore⟩ := hl.grows h hG
  have hrecords : Life.records { life with system } = life.records ++ recordsOf more := by simp [Life.records, hlog]
  have hstamps : ∀ v ∈ (recordsOf more).map Record.v, v = life.system.core.store.version := by
    intro v hv
    obtain ⟨r, hr, rfl⟩ := List.mem_map.mp hv
    exact hmore r hr
  have hversions : (lastVersion base :: (life.records ++ recordsOf more).map Record.v).Pairwise (· ≤ ·) ∧
      Phase (life.env E) (base ++ (life.records ++ recordsOf more))
        (lastVersion base :: (life.records ++ recordsOf more).map Record.v) life.applied system := by
    cases hl.phase with
    | fresh unused committed version ran =>
      have hcommit : e.isCommit = false := by
        by_contra hc
        have hopen := hG.while_open (by simpa using hc)
        simp [unused.opened] at hopen
      have hunused : Unused system := unused.step hl.one.control h (fun outcome he => hG.not_left (he ▸ rfl))
        fun a ha => by simp [ha, Event.isOpen] at ho
      have hnil : recordsOf more = [] := by
        have hlog' := hunused.log
        rw [hlog, List.append_eq_nil_iff] at hlog'
        rw [hlog'.2]
        rfl
      rw [hnil, List.append_nil]
      exact ⟨hl.ascending, .fresh hunused ((hnone hcommit).trans committed) (hversion.trans version) ran⟩
    | used ran stamps level =>
      rw [List.map_append]
      refine ⟨pairwise_append_const hl.ascending stamps hstamps, .used ?_ ?_ ?_⟩
      · rwa [hversion]
      · rw [hversion, ← List.cons_append]
        intro v hv
        rcases List.mem_append.mp hv with hv | hv
        · exact stamps v hv
        · exact (hstamps v hv).le
      · intro hreturned hne
        rw [hversion]
        by_cases hnil : recordsOf more = []
        · rw [hnil, List.append_nil] at hne ⊢
          refine level (fun hent => ?_) hne
          by_contra hf
          have hf : life.system.snapshot.forcePending = true := by simpa using hf
          rcases step_force h ho hf with hf' | ⟨sn, bytes, -, hwrites⟩
          · have hent' := hent.step hl.one hl.accepted h hG hf hf'
            rw [hreturned hent'] at hf'
            simp at hf'
          · obtain rfl := List.append_cancel_left (hlog.symm.trans hwrites)
            simp [recordsOf, Entry.record] at hnil
        · rw [← List.append_assoc]
          exact lastVersion_of_forall _ hnil hmore
  refine ⟨hl.one.step h hG.single, ?_, hG.accepted, hl.located_step h hG, ?_, ?_, ?_, ?_, hl.once, ?_, ?_, ?_⟩
  · exact heff.drain_kept hl.one.single hG.single hl.kept
  · exact fun reg hreg => hversion.trans (hl.own reg hreg)
  · intro q hq
    rw [hversion]
    exact (hcommitted q hq).elim (hl.changes q) id
  · intro sn hsn
    rcases (step_flow h).snapping sn hsn with ⟨hold, -⟩ | ⟨hfresh, -⟩
    · exact (hl.snapping sn hold).trans hversion.symm
    · rw [hfresh.snap]
  · exact hl.begun_step h hG
  · intro hne
    rw [hrecords, ← List.append_assoc]
    exact fun hnil => hl.ran hne (List.append_eq_nil_iff.mp hnil).1
  · rw [hrecords]
    exact hversions.1
  · rw [hrecords]
    exact hversions.2

/-- What the versions do when `open` creates the database. -/
lemma created {a : Opening} {system : State} {applied : List ℕ} {current : Dict} {record : Option ChangeRecord}
    {store : Store} (hl : Lived E framer base life)
    (h : Kanta.step (life.env E) life.system (.open a) = some system)
    (hG : Kanta.Lawful (life.env E) life.system (.open a) system) (hfile : life.system.core.file = [])
    (hqueue : ({ life.system.core.store with statedict := .empty } : Store).queueChange a.action current a.user
      a.mtime true a.clock = .ok (record, store)) (hcore : system.core = { life.system.core with store := store })
    (hsnapping : system.snapping = none) (happlied : applied = life.applied) :
    Lived E framer base { life with system, applied } := by
  subst happlied
  have heff := step_effect hl.one.control h
  have hempty : base ++ life.records = [] := hl.holds.file_eq_nil.mp hfile
  have hrecords : Life.records { life with system } = life.records := by simp [Life.records, hcore]
  have hran : life.applied = [] := by
    by_contra hne
    exact hl.ran hne hempty
  obtain ⟨hbase, hgrown⟩ := List.append_eq_nil_iff.mp hempty
  have hversion : system.core.store.version = life.system.core.store.version := by
    rw [hcore]
    rcases Store.queueChange_cases hqueue with ⟨-, rfl, -⟩ | ⟨r, -, rfl, -⟩ <;> rfl
  refine ⟨hl.one.step h hG.single, ?_, hG.accepted, hl.located_step h hG, ?_, ?_, ?_, ?_, hl.once, ?_, ?_, ?_⟩
  · exact heff.drain_kept hl.one.single hG.single hl.kept
  · exact fun reg hreg => hversion.trans (hl.own reg hreg)
  · intro q hq
    rw [hversion]
    rw [hcore] at hq
    rcases Store.queueChange_cases hqueue with ⟨-, rfl, -⟩ | ⟨r, -, rfl, hv, -⟩
    · exact hl.changes q hq
    · rcases List.mem_append.mp hq with hq | hq
      · exact hl.changes q hq
      · rw [List.mem_singleton.mp hq]
        exact hv
  · intro sn hsn
    simp [hsnapping] at hsn
  · exact hl.begun_step h hG
  · exact absurd hran
  · rw [hrecords]
    exact hl.ascending
  · rw [hrecords, hran]
    refine .used (by simp) ?_ fun _ hne => absurd hempty hne
    rw [hversion]
    cases hl.phase with
    | used _ hstamps => exact hstamps
    | fresh _ _ hfresh =>
      rw [hgrown, hbase, hfresh]
      simp only [lastVersion, List.map_nil, List.getLastD_nil, List.mem_singleton, forall_eq]
      unfold Env.version
      cases (life.env E).migrations with
      | none => exact le_rfl
      | some reg => exact Int.natCast_nonneg _

/-- What the versions do when `open` loads the database. -/
lemma loaded {a : Opening} {system t : State} {rr : ReplayResult} {state migrated normalized : Dict} {version : ℤ}
    {record : Option ChangeRecord} (hl : Lived E framer base life)
    (hread : ∀ r ∈ base ++ life.records, Decodable E.ser framer r)
    (h : Kanta.step (life.env E) life.system (.open a) = some system)
    (hG : Kanta.Lawful (life.env E) life.system (.open a) system) (hfile : life.system.core.file ≠ [])
    (hload : LoadedFrom (life.env E) life.system a rr state migrated normalized version record t.core.store)
    (hentering : Entering t) (hisOpen : t.isOpen = true)
    (hsystem : system = if version ≠ rr.version ∨ record.isSome then
      { t with snapshot := t.snapshot.requestForce }.startFlush (life.env E) .opening a.clock else t.andThen .spawn) :
    Lived E framer base
      { life with system, applied := life.applied ++ (life.env E).ran life.system.core (.open a) } := by
  have heff := step_effect hl.one.control h
  have hclosed := (step_open h rfl).1
  have hrecords : ∀ applied, Life.records { life with system, applied } = life.records := by
    simp [Life.records, heff.open_log rfl]
  have hraised := hload.raised hfile
  have hlast : rr.version = lastVersion (base ++ life.records) := by
    obtain ⟨-, -, hrr⟩ := bind_eq_ok.mp ((hl.replay_eq hread).symm.trans hload.replays)
    exact replayLog_version hrr
  have hle : ∀ n ∈ life.applied, (n : ℤ) ≤ rr.version := by
    rw [hlast]
    exact hl.ran_le hclosed
  have hne : base ++ life.records ≠ [] := fun hnil => hfile (hl.holds.file_eq_nil.mpr hnil)
  have hreturned : Entering life.system → life.system.snapshot.forcePending = false := by
    intro hent
    simp [hent.opened] at hclosed
  -- an instance that has been in use finds the version it left
  have hold : ∀ q ∈ life.system.core.store.committed, q.record.v = version := by
    intro q hq
    cases hl.phase with
    | fresh _ hcommitted => simp [hcommitted] at hq
    | used _ _ hlevel =>
      rw [hl.changes q hq]
      cases hreg : life.setup.migrations with
      | none => rw [hraised.none hreg, hlast, hlevel hreturned hne]
      | some reg => rw [(hraised.offers reg hreg).1, hl.own reg hreg]
  have hstore : system.core.store = t.core.store := by
    rw [hsystem]
    split
    · rw [startFlush_store]
    · rw [State.andThen_core]
  obtain ⟨action, hqueue⟩ := hload.queued
  have hversion : system.core.store.version = version := by
    rw [hstore]
    rcases Store.queueChange_cases hqueue with ⟨-, hsame, -⟩ | ⟨r, -, hsame, -⟩
    · rw [hsame]
    · rw [hsame]
      rfl
  have hstamps : ∀ v ∈ lastVersion base :: life.records.map Record.v, v ≤ version := by
    intro v hv
    exact (hl.le_last v hv).trans (hlast ▸ hraised.ascends)
  refine ⟨hl.one.step h hG.single, ?_, hG.accepted, hl.located_step h hG, ?_, ?_, ?_, ?_, ?_, ?_, ?_, ?_⟩
  · exact heff.drain_kept hl.one.single hG.single hl.kept
  · exact fun reg hreg => hversion.trans (hraised.offers reg hreg).1
  · intro q hq
    rw [hversion]
    rw [hstore] at hq
    rcases Store.queueChange_cases hqueue with ⟨-, hsame, -⟩ | ⟨r, -, hsame, hv, -⟩
    · exact hold q (by rwa [hsame] at hq)
    · rw [hsame] at hq
      rcases List.mem_append.mp hq with hq | hq
      · exact hold q hq
      · rw [List.mem_singleton.mp hq]
        exact hv
  · intro sn hsn
    rcases (step_flow h).snapping sn hsn with ⟨-, hjob⟩ | ⟨hfresh, -⟩
    · exact hjob.elim
    · rw [hfresh.snap]
  · exact hl.begun_step h hG
  · refine List.pairwise_append.mpr ⟨hl.once, hraised.pairwise, fun n hn m hm => ?_⟩
    have hbelow := hle n hn
    have habove := (hraised.between m hm).1
    omega
  · rw [hrecords]
    exact fun _ => hne
  · rw [hrecords]
    exact hl.ascending
  · rw [hrecords]
    refine .used (fun n hn => ?_) (by rwa [hversion]) fun hreturned _ => ?_
    · rw [hversion]
      rcases List.mem_append.mp hn with hn | hn
      · exact (hle n hn).trans hraised.ascends
      · exact (hraised.between n hn).2
    · -- without a forced snapshot the version is the one of the file
      rw [hversion, ← hlast]
      subst hsystem
      split at hreturned
      · rename_i hchanged
        rw [if_pos hchanged] at hG
        have hforced := hreturned (hentering.forces hisOpen hG)
        simp [SnapshotState.requestForce] at hforced
      · rename_i hkept
        simp only [not_or, not_not] at hkept
        exact hkept.1.symm

/-- **Every step of a life** keeps the invariant. -/
theorem step {e : Life.Event} (hl : Lived E framer base life)
    (hread : ∀ r ∈ base ++ life.records, Decodable E.ser framer r) (h : life.step E e = some life')
    (hG : life.Lawful E e life') : Lived E framer base life' := by
  cases e with
  | restart setup statedict sync =>
    rw [Life.step] at h
    split at h
    · simp at h
    · rename_i hclosed
      obtain rfl := Option.some.inj h
      exact hl.restart (by simpa using hclosed)
  | inside e =>
    obtain ⟨system, hsystem, rfl⟩ := Option.map_eq_some_iff.mp h
    have hG : Kanta.Lawful (life.env E) life.system e system := hG
    cases ho : e.isOpen with
    | false =>
      have hran : (life.env E).ran life.system.core e = [] := by
        cases e <;> first | rfl | simp [Event.isOpen] at ho
      rw [hran, List.append_nil]
      exact hl.inside hsystem hG ho
    | true =>
      obtain ⟨a, rfl⟩ : ∃ a, e = .open a := by cases e <;> simp_all [Event.isOpen]
      cases step_opened hl.one.control hsystem (hG.opens ho) hG.accepted with
      | created current record store hfile _ hqueue hcore _ hsnapping =>
        have hran : (life.env E).ran life.system.core (.open a) = [] := by simp [Env.ran, hfile]
        refine hl.created hsystem hG hfile hqueue hcore hsnapping ?_
        rw [hran, List.append_nil]
      | loaded rr state migrated normalized version record t hfile hload _ hentering hisOpen _ _ _ hs' =>
        exact hl.loaded hread hsystem hG hfile hload hentering hisOpen hs'

/-- With nothing queued, the file of an open instance is not empty. -/
lemma records_ne_nil (hl : Lived E framer base life) (hopen : life.system.opened = true)
    (hp : life.system.core.store.pending = []) : base ++ life.records ≠ [] := by
  rcases hl.begun hopen with hne | hne
  · exact hne
  · intro hnil
    obtain ⟨q, hq⟩ := List.exists_mem_of_ne_nil _ hne
    rcases hl.kept.kept q hq with hlog | hqueue
    · have hchange : q.record ∈ changeRecords (recordsOf life.system.core.log) := by
        rw [changeRecords_recordsOf]
        exact List.mem_map_of_mem hlog
      have hrecords : recordsOf life.system.core.log = [] := by
        rw [Life.records] at hnil
        simp only [List.append_eq_nil_iff] at hnil
        exact hnil.2.2
      simp [hrecords, changeRecords] at hchange
    · have hqueue : q ∈ life.system.core.store.pending := hqueue
      simp [hp] at hqueue

/-- **What the invariant says.** -/
theorem migrated (hl : Lived E framer base life) (hread : ∀ r ∈ base ++ life.records, Decodable E.ser framer r) :
    Migrated E base life where
  once := hl.once
  ascending := hl.ascending
  file := hl.holds
  offered a life' h hG hfile := by
    obtain ⟨system, hsystem, rfl⟩ := Option.map_eq_some_iff.mp h
    have hG : Kanta.Lawful (life.env E) life.system (.open a) system := hG
    cases step_opened hl.one.control hsystem (hG.opens rfl) hG.accepted with
    | created _ _ _ hempty => exact absurd hempty hfile
    | loaded rr state migrated normalized version record t _ hload =>
      have hraised := hload.raised hfile
      exact ⟨rr, hload.replays, fun reg hreg => by rw [(hraised.offers reg hreg).2]⟩
  current hopen hreturned hflushed reg hreg := by
    have hne : base ++ life.records ≠ [] := by
      rcases hflushed with hp | hfile
      · exact hl.records_ne_nil hopen hp
      · exact fun hnil => hfile (hl.holds.file_eq_nil.mpr hnil)
    have hlast : lastVersion (base ++ life.records) = reg.dbver := by
      cases hl.phase with
      | fresh hunused => simp [hunused.opened] at hopen
      | used _ _ hlevel => rw [hlevel (fun hent => (hreturned hent).elim) hne, hl.own reg hreg]
    rw [hl.replay_eq hread, ← replayLog_isOk_iff, ← hlast]
    constructor
    · rintro ⟨rr, hrr, -⟩
      obtain ⟨_, htime, hrr⟩ := bind_eq_ok.mp hrr
      exact ⟨⟨rr, hrr⟩, htime⟩
    · rintro ⟨⟨rr, hrr⟩, htime⟩
      refine ⟨rr, ?_, replayLog_version hrr⟩
      rw [htime]
      exact hrr

end Lived

/-! ### The theorem -/

/-- What has been appended stays. -/
lemma Life.records_step {life life' : Life} {e : Life.Event} (hs : Control life.system)
    (h : life.step E e = some life') : Control life'.system ∧ ∃ more, life'.records = life.records ++ more := by
  cases e with
  | restart setup statedict sync =>
    rw [Life.step] at h
    split at h
    · simp at h
    · obtain rfl := Option.some.inj h
      exact ⟨control_init .., [], rfl⟩
  | inside e =>
    obtain ⟨system, hsystem, rfl⟩ := Option.map_eq_some_iff.mp h
    obtain ⟨more, hlog, -⟩ := (step_effect hs hsystem).log_more
    exact ⟨hs.step hsystem, recordsOf more, by simp [Life.records, hlog]⟩

/-- **Migrations run at most once** over the life of a database. -/
theorem migrations_once {framer : Framer} {file : Bytes} {base : List Record} {setup : Setup} {statedict : Dict}
    {life : Life} (hfile : Holds E framer file base)
    (h : Reach (Life.step E) (Life.Lawful E) (.start E setup statedict framer file) life)
    (hread : ∀ r ∈ base ++ life.records, Decodable E.ser framer r) : Migrated E base life := by
  have hlived : Control life.system ∧
      ((∀ r ∈ base ++ life.records, Decodable E.ser framer r) → Lived E framer base life) := by
    refine h.invariant (I := fun life => Control life.system ∧
      ((∀ r ∈ base ++ life.records, Decodable E.ser framer r) → Lived E framer base life)) ?_ ?_
    · exact ⟨control_init .., fun _ => .start ⟨hfile.framed⟩⟩
    · intro life e life' ⟨hs, hl⟩ hstep hG
      obtain ⟨hs', more, hmore⟩ := Life.records_step hs hstep
      refine ⟨hs', fun hread' => ?_⟩
      have hread : ∀ r ∈ base ++ life.records, Decodable E.ser framer r := fun r hr => hread' r (by
        rw [hmore, ← List.append_assoc]
        exact List.mem_append_left _ hr)
      exact (hl hread).step hread hstep hG
  exact (hlived.2 hread).migrated hread

namespace Sample

/-- The changes of a database with migrations, and their versions. -/
def actions : List (String × ℤ) := [("bootstrap", 0), ("migrate:v2", 2)]

/-- A version of zero is left out. -/
def versionField (v : ℤ) : Bytes := if v = 0 then [] else ascii ("\"v\":" ++ toString v ++ ",")

/-- `{"ts":"2024-01-07T00:00:00Z","a":"migrate:v2","v":2,"diff":{"n":2}}`. -/
def encodeVersion (c : ChangeRecord) : Except Exc Bytes :=
  if c.ts = ts ∧ (c.a, c.v) ∈ actions ∧ c.u = none ∧ c.m = none then
    json (ascii "\x7b\"ts\":\"2024-01-07T00:00:00Z\",\"a\":\"" ++ ascii c.a ++ ascii "\"," ++ versionField c.v ++
      ascii "\"diff\":\x7b\"n\":") c.diff (ascii "\x7d\x7d")
  else .error (.typeError "not in the sample")

/-- `{"ts":"2024-01-07T00:00:00Z","v":1,"state":{"n":0}}`. -/
def encodeVersionSnapshot (s : Snapshot) : Except Exc Bytes :=
  if s.ts = ts ∧ s.v ∈ [1, 2] ∧ s.m = none then
    json (ascii "\x7b\"ts\":\"2024-01-07T00:00:00Z\",\"v\":" ++ ascii (toString s.v) ++
      ascii ",\"state\":\x7b\"n\":") s.state (ascii "\x7d\x7d")
  else .error (.typeError "not in the sample")

/-- Its change records. -/
def versionChanges : List ChangeRecord :=
  actions.flatMap fun (a, v) => digits.map fun k => { ts := ts, a := a, v := v, diff := state k }

/-- Its snapshots. -/
def versionSnapshots : List Snapshot :=
  [1, 2].flatMap fun v => digits.map fun k => { ts := ts, v := v, state := state k }

lemma mem_versionChanges {c : ChangeRecord} {payload : Bytes} (h : encodeVersion c = .ok payload) :
    c ∈ versionChanges := by
  unfold encodeVersion at h
  split at h
  · rename_i hc
    obtain ⟨k, hk, hd⟩ := state_of_json h
    obtain ⟨ts, a, v, u, m, diff⟩ := c
    obtain ⟨rfl, ha, rfl, rfl⟩ := hc
    obtain rfl : diff = state k := hd
    exact List.mem_flatMap.mpr ⟨(a, v), ha, List.mem_map_of_mem hk⟩
  · simp at h

lemma mem_versionSnapshots {s : Snapshot} {payload : Bytes} (h : encodeVersionSnapshot s = .ok payload) :
    s ∈ versionSnapshots := by
  unfold encodeVersionSnapshot at h
  split at h
  · rename_i hs
    obtain ⟨k, hk, hd⟩ := state_of_json h
    obtain ⟨ts, v, st, m⟩ := s
    obtain ⟨rfl, hv, rfl⟩ := hs
    obtain rfl : st = state k := hd
    exact List.mem_flatMap.mpr ⟨v, hv, List.mem_map_of_mem hk⟩
  · simp at h

def versionSer : Serializer where
  encodeChange := encodeVersion
  encodeSnapshot := encodeVersionSnapshot
  decodeChange := decode encodeVersion versionChanges
  decodeSnapshot := decode encodeVersionSnapshot versionSnapshots
  localTime := .total

lemma decodable_version (r : Record) : Decodable versionSer .line r :=
  decodable_of_lists .total (by decide +kernel) (by decide +kernel) (fun _ _ => mem_versionChanges)
    (fun _ _ => mem_versionSnapshots) (by decide +kernel) (by decide +kernel) r

/-- A migration that changes nothing, and one that sets `n`. -/
def idle : ℕ × (Dict → Except Exc Dict) := (1, .ok)

def raise : ℕ × (Dict → Except Exc Dict) := (2, fun _ => .ok (state 2))

/-- Nothing to migrate, the first migration, and both. -/
def unmigrated : Setup := ⟨1000, none⟩

def first : Setup := ⟨1000, some ⟨[idle], by decide⟩⟩

def second : Setup := ⟨1000, some ⟨[idle, raise], by decide⟩⟩

/-- The code that all instances share. -/
def versionEnv : Env := { env 1000 with ser := versionSer }

/-- The next instance takes over. -/
def takeOver (setup : Setup) : Life.Event := .restart setup (state 0) ⟨[1, 2, 3, 4], rfl⟩

/-- `flush`, and `close` of an instance with nothing queued. -/
def flushing (o : Owner) : List Event :=
  [.work o .ok, .resume o (.ok ts), .work o .ok, .resume o (.ok ts)]

def closing : List Event := [.close (.ok ts), .deliver true (.ok ts), .join (.ok ts)]

end Sample

open Sample in
/-- A database that is created without migrations, goes through one that changes nothing and one that
changes its state, and is opened once more. -/
theorem migrations_once_twice : ∃ life : Life, life.applied = [1, 2] ∧ life.system.opened = true ∧
    (life.records.map Record.v) = [0, 1, 2, 2] ∧ Migrated versionEnv [] life := by
  obtain ⟨life, hlife, hobs⟩ := exists_reach (Life.step versionEnv)
    (fun life e life' => decide (life.Lawful versionEnv e life')) (.start versionEnv unmigrated (state 0) .line [])
    (([opening, .call 1 (.ok ts)] ++ flushing (.call 1) ++ closing).map .inside ++
      takeOver first :: ([opening, Event.snapshotWrite .ok] ++ closing).map .inside ++
      takeOver second :: ([opening] ++ flushing .opening ++ [Event.snapshotWrite .ok] ++ closing).map .inside ++
      takeOver second :: [.inside opening])
    (fun life => (life.applied, life.system.opened, life.records.map Record.v))
    ([1, 2], true, [0, 1, 2, 2]) (by decide +kernel)
  simp only [Prod.mk.injEq] at hobs
  obtain ⟨happlied, hopen, hversions⟩ := hobs
  exact ⟨life, happlied, hopen, hversions, migrations_once (.nil .line) (hlife.mono fun _ _ _ h => of_decide_eq_true h)
    fun r _ => decodable_version r⟩

namespace Sample

/-- `{"a":1,"$delete":[[1]]}`. -/
def odd : Dict := ⟨[("a", .int 1), ("$delete", .list [.list [.int 1]])], rfl⟩

/-- The record of a bootstrap that makes this state. -/
def oddChange : ChangeRecord :=
  { ts := ts, a := "bootstrap", v := 1, diff := ⟨[("a", .int 1), ("$$delete", .list [.list [.int 1]])], rfl⟩ }

def oddPayload : Bytes :=
  ascii "\x7b\"ts\":\"2024-01-07T00:00:00Z\",\"a\":\"bootstrap\",\"v\":1,\"diff\":\x7b\"a\":1,\"$$delete\":[[1]]\x7d\x7d"

def oddSer : Serializer where
  encodeChange c :=
    if c.ts = ts ∧ c.a = "bootstrap" ∧ c.v = 1 ∧ c.u = none ∧ c.m = none ∧
        c.diff.val.pyEq oddChange.diff.val = true then .ok oddPayload
    else .error (.typeError "not in the sample")
  encodeSnapshot _ := .error (.typeError "not in the sample")
  decodeChange payload := if payload = oddPayload then .ok oddChange else .error .decodeError
  decodeSnapshot _ := .error .decodeError
  localTime := .total

def oddEnv : Env := { env 1000 with ser := oddSer }

/-- `open`, where the bootstrap callbacks make this state. -/
def oddOpening : Event := .open ⟨.ok odd, "bootstrap", none, .omit, .ok, .ok (), .ok ts⟩

end Sample

open Sample in
/-- **A bootstrapped state that cannot be read**: the key `$delete` of the state is escaped in the diff, and
unescaped before it is applied, where it takes `[1]` for a key to delete.  Every replay raises. -/
theorem bootstrap_unreadable : ∃ (life : Life) (reg : Migrations),
    Reach (Life.step oddEnv) (Life.Lawful oddEnv) (.start oddEnv first .empty .line []) life ∧
      life.setup.migrations = some reg ∧ life.system.opened = true ∧ ¬Entering life.system ∧
      life.system.core.store.pending = [] ∧
      ¬∃ rr, replay oddEnv.blake3 oddSer life.system.core.framer life.system.core.file = .ok rr ∧
        rr.version = reg.dbver := by
  obtain ⟨life, hlife, hobs⟩ := exists_reach (Life.step oddEnv)
    (fun life e life' => decide (life.Lawful oddEnv e life')) (.start oddEnv first .empty .line [])
    (([oddOpening, .call 1 (.ok ts)] ++ flushing (.call 1)).map .inside)
    (fun life => (life.setup.migrations.isSome, life.system.opened, life.system.background.isAbsent,
      life.system.core.store.pending.length,
      (replay oddEnv.blake3 oddSer life.system.core.framer life.system.core.file).isOk))
    (true, true, false, 0, false) (by decide +kernel)
  simp only [Prod.mk.injEq] at hobs
  obtain ⟨hmigrations, hopen, hback, hpending, hreplay⟩ := hobs
  obtain ⟨reg, hreg⟩ := Option.isSome_iff_exists.mp hmigrations
  refine ⟨life, reg, hlife.mono fun _ _ _ h => of_decide_eq_true h, hreg, hopen, fun hent => ?_,
    List.length_eq_zero_iff.mp hpending, ?_⟩
  · simp [Background.isAbsent_iff.mpr hent.background] at hback
  · rintro ⟨rr, hrr, -⟩
    simp [hrr, Except.isOk, Except.toBool] at hreplay

end Kanta
