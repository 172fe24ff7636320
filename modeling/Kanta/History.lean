import Kanta.ApplyCongr
import Kanta.Placement
import Kanta.Replay
import Kanta.StateDiff

/-!
# The history in a file

A file tells a history: the states that its change records lead to, one after another.  `Leads` is
one stretch of it, `Consistent` says that the snapshots in between show the states they stand at.
The replay of a consistent log, which begins at its last snapshot, ends where all of its changes
lead (`replayLog_of_consistent`), and the replay of the file an instance has written is the replay
of its log (`Located.replay_eq`).
-/

namespace Kanta

open Kanta.Lib Kanta.Lib.Assoc Kanta.Lib.Lts

variable {E : Env}

/-! ### Patching one change after another -/

/-- `state = patch(state, record.diff)`, for each change in turn. -/
def patchAll (state : Val) (changes : List ChangeRecord) : Except Exc Val :=
  changes.foldlM (fun state change => patch state change.diff.val) state

lemma patchAll_append (state : Val) (l l' : List ChangeRecord) :
    patchAll state (l ++ l') = patchAll state l >>= fun state => patchAll state l' := by
  rw [patchAll, List.foldlM_append]
  rfl

lemma patchAll_congr {v w r : Val} {l : List ChangeRecord} (h : v.sem = w.sem) (hr : patchAll v l = .ok r) :
    ∃ r', patchAll w l = .ok r' ∧ r.sem = r'.sem :=
  foldlM_congr (R := fun v w : Val => v.sem = w.sem)
    (fun v w change c h hc => rawApply_congr (unmarshal change.diff.val) v w c h hc) h hr

lemma wf_patchAll {v r : Val} {l : List ChangeRecord} (hv : v.wf = true) (hr : patchAll v l = .ok r) :
    r.wf = true :=
  foldlM_keeps (P := fun v : Val => v.wf = true)
    (fun _ change _ _ hc ha => wf_rawApply (wf_unmarshal change.diff.wf) ha hc) hr hv

/-- The changes lead from a state that equals `x` to one that equals `y`. -/
def Leads (x : Val) (changes : List ChangeRecord) (y : Val) : Prop :=
  ∃ z, patchAll x changes = .ok z ∧ z.sem = y.sem

namespace Leads

variable {x y z : Val} {l l' : List ChangeRecord}

lemma refl (x : Val) : Leads x [] x := ⟨x, rfl, rfl⟩

lemma congr_left {x' : Val} (h : Leads x l y) (hx : x.sem = x'.sem) : Leads x' l y := by
  obtain ⟨r, hr, hy⟩ := h
  obtain ⟨r', hr', he⟩ := patchAll_congr hx hr
  exact ⟨r', hr', he.symm.trans hy⟩

lemma congr_right {y' : Val} (h : Leads x l y) (hy : y.sem = y'.sem) : Leads x l y' := by
  obtain ⟨r, hr, he⟩ := h
  exact ⟨r, hr, he.trans hy⟩

lemma append (h : Leads x l y) (h' : Leads y l' z) : Leads x (l ++ l') z := by
  obtain ⟨r, hr, hy⟩ := h
  obtain ⟨r', hr', hz⟩ := h'.congr_left hy.symm
  exact ⟨r', by rw [patchAll_append, hr]; exact hr', hz⟩

/-- Changes lead to one state. -/
lemma unique (h : Leads x l y) (h' : Leads x l z) : y.sem = z.sem := by
  obtain ⟨r, hr, hy⟩ := h
  obtain ⟨r', hr', hz⟩ := h'
  obtain rfl := Except.ok.inj (hr.symm.trans hr')
  exact hy.symm.trans hz

/-- The rest of a stretch starts where the first part of it leads. -/
lemma rest (h : Leads x l y) (h' : Leads x (l ++ l') z) : Leads y l' z := by
  obtain ⟨r, hr, hy⟩ := h
  obtain ⟨r', hr', hz⟩ := h'
  rw [patchAll_append, hr] at hr'
  exact Leads.congr_left ⟨r', hr', hz⟩ hy

/-- In Python's terms. -/
lemma pyEq (h : Leads x l y) (hx : x.wf = true) (hy : y.wf = true) :
    ∃ z, patchAll x l = .ok z ∧ z.pyEq y = true := by
  obtain ⟨z, hz, he⟩ := h
  exact ⟨z, hz, (Val.pyEq_iff (wf_patchAll hx hz) hy).mpr he⟩

end Leads

/-- A diff between two states is recorded as it is. -/
lemma exists_delta {previous current : Dict} {d : Val} (h : diff previous current = some d) :
    ∃ dd : Dict, d = dd.val ∧ delta previous current = some dd := by
  have hdict : d.isDict = true := by
    have hd := h
    rw [diff, rawDiff_dict (Val.wf_dict_iff.mp current.wf).1] at hd
    split at hd
    · simp at hd
    · obtain rfl := Option.some.inj hd
      rfl
  obtain ⟨dd, rfl⟩ := Dict.exists_of_val hdict (wf_rawDiff current.wf h)
  exact ⟨dd, rfl, by rw [delta, h, Option.bind_some, Dict.ofVal_val]⟩

/-- A change that loses nothing: the states are equal, or the diff can be patched in. -/
def lossless (previous current : Dict) : Bool :=
  previous.pyEq current || restores previous.val current.val

/-- The record that is queued for a lossless change leads to the new state. -/
lemma leads_record {previous current : Dict} {record : ChangeRecord}
    (hd : record.diff = (delta previous current).getD .empty) (h : lossless previous current = true) :
    Leads previous.val [record] current.val := by
  rcases hdiff : diff previous current with _ | d
  · have hnone : record.diff = .empty := by rw [hd, delta, hdiff]; rfl
    have he := Dict.pyEq_iff.mp (diff_eq_none.mp hdiff)
    refine ⟨previous.val, ?_, he⟩
    rw [patchAll, List.foldlM_cons, hnone]
    simp [patch, applyDiff, Dict.empty, unmarshal, unmarshalItems, rawApply_nil, bind, Except.bind, pure, Except.pure]
  · obtain ⟨dd, rfl, hdelta⟩ := exists_delta hdiff
    obtain ⟨r, hr, he⟩ := (patchRestores_iff previous current).mpr (by simpa [lossless] using h) _ hdiff
    refine ⟨r, ?_, (Val.pyEq_iff ?_ current.wf).mp he⟩
    · rw [patchAll, List.foldlM_cons, hd, hdelta, Option.getD_some, hr]
      rfl
    · exact wf_rawApply (wf_unmarshal dd.wf) previous.wf hr

/-! ### The records of a log -/

/-- The change records among the records. -/
def changeRecords (records : List Record) : List ChangeRecord :=
  records.filterMap fun | .change c => some c | .snapshot _ => none

/-- The records that were appended as a whole. -/
def recordsOf (log : List Entry) : List Record := log.filterMap Entry.record

@[simp] lemma changeRecords_append (l l' : List Record) :
    changeRecords (l ++ l') = changeRecords l ++ changeRecords l' := List.filterMap_append

@[simp] lemma recordsOf_append (l l' : List Entry) : recordsOf (l ++ l') = recordsOf l ++ recordsOf l' :=
  List.filterMap_append

lemma changeRecords_map (changes : List ChangeRecord) : changeRecords (changes.map .change) = changes := by
  simp [changeRecords, List.filterMap_map]

/-- The changes around the last snapshot. -/
lemma changeRecords_split (before : List Record) (snap : Snapshot) (changes : List ChangeRecord) :
    changeRecords (before ++ .snapshot snap :: changes.map .change) = changeRecords before ++ changes := by
  rw [changeRecords_append, ← changeRecords_map changes]
  simp [changeRecords, List.filterMap_map]

lemma mem_changeRecords {records : List Record} {c : ChangeRecord} :
    c ∈ changeRecords records ↔ .change c ∈ records := by
  rw [changeRecords, List.mem_filterMap]
  constructor
  · rintro ⟨r, hr, hrc⟩
    cases r with
    | change c' =>
      obtain rfl := Option.some.inj hrc
      exact hr
    | snapshot snap => simp at hrc
  · intro h
    exact ⟨.change c, h, rfl⟩

/-- Without snapshots, the changes are all there is. -/
lemma map_changeRecords {records : List Record} (h : ∀ r ∈ records, r.isSnapshot = false) :
    (changeRecords records).map Record.change = records := by
  induction records with
  | nil => rfl
  | cons r records ih =>
    rw [List.forall_mem_cons] at h
    cases r with
    | change c =>
      rw [show changeRecords (.change c :: records) = c :: changeRecords records from rfl, List.map_cons, ih h.2]
    | snapshot snap => simp [Record.isSnapshot] at h

lemma changeRecords_recordsOf (log : List Entry) :
    changeRecords (recordsOf log) = (changesOf log).map Queued.record := by
  rw [changeRecords, recordsOf, changesOf, List.filterMap_filterMap, List.map_filterMap]
  congr 1
  funext entry
  cases entry <;> rfl

/-- The state a log begins with: that of a snapshot in front, or none. -/
def origin : List Record → Val
  | .snapshot snap :: _ => snap.state.val
  | _ => .dict []

lemma wf_origin (records : List Record) : (origin records).wf = true := by
  unfold origin
  split
  · exact Dict.wf _
  · rfl

/-- Every snapshot shows the state that the changes in front of it lead to. -/
def Consistent (x : Val) (records : List Record) : Prop :=
  ∀ before snap after, records = before ++ .snapshot snap :: after →
    Leads x (changeRecords before) snap.state.val

namespace Consistent

variable {x : Val} {records : List Record}

lemma nil : Consistent x [] := fun before snap after h => by simp at h

/-- One change more. -/
lemma changes (h : Consistent x records) (more : List ChangeRecord) :
    Consistent x (records ++ more.map .change) := by
  intro before snap after he
  rcases List.append_eq_append_iff.mp he with ⟨l, rfl, hl⟩ | ⟨l, rfl, hl⟩
  · -- the changes hold no snapshot
    have hm : Record.snapshot snap ∈ more.map Record.change := by simp [hl]
    simp at hm
  · cases l with
    | nil =>
      have hm : Record.snapshot snap ∈ more.map Record.change := by
        rw [List.nil_append] at hl
        simp [← hl]
      simp at hm
    | cons r l =>
      obtain ⟨rfl, -⟩ := List.cons.inj hl
      exact h before snap l rfl

/-- One snapshot more. -/
lemma snapshot (h : Consistent x records) {snap : Snapshot}
    (hs : Leads x (changeRecords records) snap.state.val) : Consistent x (records ++ [.snapshot snap]) := by
  intro before snap' after he
  rcases List.append_eq_append_iff.mp he with ⟨l, rfl, hl⟩ | ⟨l, rfl, hl⟩
  · cases l with
    | nil =>
      obtain ⟨hsnap, -⟩ := List.cons.inj hl
      obtain rfl := Record.snapshot.inj hsnap
      simpa using hs
    | cons r l => simp at hl
  · cases l with
    | nil =>
      obtain ⟨hsnap, -⟩ := List.cons.inj hl
      obtain rfl := Record.snapshot.inj hsnap
      simpa using hs
    | cons r l =>
      obtain ⟨rfl, -⟩ := List.cons.inj hl
      exact h before snap' l rfl

lemma of_append {more : List Record} (h : Consistent x (records ++ more)) : Consistent x records :=
  fun before snap after he => h before snap (after ++ more) (by simp [he])

end Consistent

/-! ### Replay of a consistent log -/

lemma foldlM_applyChange {r : ReplayResult} {l : List ChangeRecord} {z : Val}
    (h : patchAll r.state l = .ok z) : ∃ rr, l.foldlM ReplayResult.applyChange r = .ok rr ∧ rr.state = z := by
  induction l generalizing r with
  | nil => exact ⟨r, rfl, Except.ok.inj h⟩
  | cons c l ih =>
    rw [patchAll, List.foldlM_cons, bind_eq_ok] at h
    obtain ⟨state, hs, h⟩ := h
    have hs : applyDiff r.state c.diff.val = .ok state := hs
    obtain ⟨rr, hrr, hz⟩ := ih (r := { r with
      state := state, version := c.v, hasMigration := r.hasMigration || startsWith "migrate" c.a
      m := c.m <|> r.m }) h
    refine ⟨rr, ?_, hz⟩
    rw [List.foldlM_cons, ReplayResult.applyChange, hs]
    exact hrr

lemma patchAll_of_foldlM {r rr : ReplayResult} {l : List ChangeRecord}
    (h : l.foldlM ReplayResult.applyChange r = .ok rr) : patchAll r.state l = .ok rr.state := by
  induction l generalizing r with
  | nil =>
    obtain rfl : r = rr := Except.ok.inj h
    rfl
  | cons c l ih =>
    rw [List.foldlM_cons, bind_eq_ok] at h
    obtain ⟨t, ht, h⟩ := h
    obtain ⟨state, hstate, ht⟩ := bind_eq_ok.mp ht
    have htail := ih h
    rw [← Except.ok.inj ht] at htail
    have hstate : patch r.state c.diff.val = .ok state := hstate
    rw [patchAll, List.foldlM_cons, hstate]
    exact htail

lemma wf_replayLog {records : List Record} {r : ReplayResult} (h : replayLog records = .ok r) :
    r.state.wf = true := by
  refine wf_patchAll ?_ (patchAll_of_foldlM h)
  cases (lastSnapshot records).1 with
  | none => rfl
  | some snap => exact snap.state.wf

/-- **The replay of a consistent log** ends in the state that all of its changes lead to. -/
theorem replayLog_of_consistent {x y : Val} {records : List Record} (hc : Consistent x records)
    (hy : Leads x (changeRecords records) y)
    (hnone : (∀ snap, Record.snapshot snap ∉ records) → x = .dict []) :
    ∃ rr, replayLog records = .ok rr ∧ rr.state.sem = y.sem ∧ rr.state.wf = true := by
  rcases records_split records with ⟨changes, rfl, hl⟩ | ⟨before, snap, changes, rfl, hl⟩
  · obtain rfl := hnone (by simp)
    rw [changeRecords_map] at hy
    obtain ⟨z, hz, he⟩ := hy
    obtain ⟨rr, hrr, rfl⟩ := foldlM_applyChange (r := .empty) hz
    exact ⟨rr, by rw [replayLog, hl]; exact hrr, he, wf_patchAll rfl hz⟩
  · have hsnap := hc before snap _ rfl
    rw [changeRecords_split] at hy
    obtain ⟨z, hz, he⟩ := hsnap.rest hy
    obtain ⟨rr, hrr, rfl⟩ := foldlM_applyChange (r := .ofSnapshot snap) hz
    exact ⟨rr, by rw [replayLog, hl]; exact hrr, he, wf_patchAll snap.state.wf hz⟩

/-! ### How a log grows -/

lemma recordsOf_entriesOf (batch : List (Queued × Bytes)) :
    recordsOf (entriesOf batch) = (batch.map fun p => p.1.record).map .change := by
  simp [recordsOf, entriesOf, List.filterMap_map, Function.comp_def, Entry.record]

/-- A write appends its entries, or nothing that can be read. -/
lemma write_log (c : Core) (isOpen : Bool) (entries : List Entry) (outcome : Outcome) :
    (c.write isOpen entries outcome).1.log = c.log ++ entries ∨
      ∃ torn, (c.write isOpen entries outcome).1.log = c.log ++ torn ∧ recordsOf torn = [] := by
  unfold Core.write
  split
  · cases outcome with
    | ok => exact Or.inl rfl
    | failed n => exact Or.inr ⟨_, rfl, rfl⟩
  · exact Or.inr ⟨[], by simp, rfl⟩

/-- An event appends changes, or the snapshot under way and does nothing else. -/
lemma Effect.log_more {s : State} {e : Event} {core : Core} (h : Effect E s e core) :
    ∃ more, core.log = s.core.log ++ more ∧
      ((∃ changes : List ChangeRecord, recordsOf more = changes.map .change) ∨
        ∃ sn bytes, s.snapping = some sn ∧ more = [.snapshot sn.snap bytes] ∧
          core.store = s.core.store ∧ core.flights = s.core.flights) := by
  have hnone : core.log = s.core.log → ∃ more, core.log = s.core.log ++ more ∧
      ((∃ changes : List ChangeRecord, recordsOf more = changes.map .change) ∨
        ∃ sn bytes, s.snapping = some sn ∧ more = [.snapshot sn.snap bytes] ∧
          core.store = s.core.store ∧ core.flights = s.core.flights) :=
    fun hl => ⟨[], by simp [hl], Or.inl ⟨[], rfl⟩⟩
  have hbatch : ∀ (c : Core) isOpen batch outcome, c.log = s.core.log →
      ∃ more, (c.write isOpen (entriesOf batch) outcome).1.log = s.core.log ++ more ∧
        ∃ changes : List ChangeRecord, recordsOf more = changes.map .change := by
    intro c isOpen batch outcome hc
    rcases write_log c isOpen (entriesOf batch) outcome with hw | ⟨torn, hw, ht⟩
    · exact ⟨_, by rw [hw, hc], _, recordsOf_entriesOf batch⟩
    · exact ⟨torn, by rw [hw, hc], [], ht⟩
  cases h with
  | wrote o batch outcome =>
    obtain ⟨more, hl, hm⟩ := hbatch s.core s.isOpen batch outcome rfl
    exact ⟨more, hl, Or.inl hm⟩
  | stray batch strays outcome =>
    obtain ⟨more, hl, hm⟩ := hbatch { s.core with strays := strays } s.isOpen batch outcome rfl
    exact ⟨more, hl, Or.inl hm⟩
  | snapshot sn framed outcome hsn =>
    rcases write_log s.core s.isOpen [.snapshot sn.snap framed] outcome with hw | ⟨torn, hw, ht⟩
    · exact ⟨_, hw, Or.inr ⟨sn, framed, hsn, rfl, by simp, by simp⟩⟩
    · exact ⟨torn, hw, Or.inl ⟨[], ht⟩⟩
  | quiet | commit | begin | sized | framed | popped | failed | cancelled | restarted | unborn | created
  | unread | loaded | reloaded => exact hnone rfl

/-- What is in the log stays there, so that an invariant may rest on what it holds at the end. -/
lemma invariant_of_log {G : State → Event → State → Prop} {I : State → Prop} {P : Record → Prop} {s₀ s : State}
    (h : Reach (step E) G s₀ s) (hs : Control s₀) (h0 : I s₀)
    (hstep : ∀ t e t', (∀ r ∈ recordsOf t.core.log, P r) → I t → step E t e = some t' → G t e t' → I t')
    (hP : ∀ r ∈ recordsOf s.core.log, P r) : I s := by
  refine (h.invariant (I := fun t => Control t ∧ ((∀ r ∈ recordsOf t.core.log, P r) → I t))
    ⟨hs, fun _ => h0⟩ fun t e t' ⟨hctrl, ht⟩ he hG => ⟨hctrl.step he, fun hP' => ?_⟩).2 hP
  obtain ⟨more, hlog, -⟩ := (step_effect hctrl he).log_more
  have hP0 : ∀ r ∈ recordsOf t.core.log, P r := fun r hr => hP' r (by simp [hlog, hr])
  exact hstep t e t' hP0 (ht hP0) he hG

/-- **A log without gaps stays consistent** when the snapshot under way shows the state it stands at. -/
lemma Consistent.effect {x : Val} {base : List Record} {s : State} {e : Event} {core : Core}
    (h : Consistent x (base ++ recordsOf s.core.log)) (he : Effect E s e core)
    (hsn : ∀ sn, s.snapping = some sn →
      Leads x (changeRecords (base ++ recordsOf s.core.log)) sn.snap.state.val) :
    Consistent x (base ++ recordsOf core.log) := by
  obtain ⟨more, hlog, ⟨changes, hc⟩ | ⟨sn, bytes, hsn', rfl, -⟩⟩ := he.log_more
  · rw [hlog, recordsOf_append, hc, ← List.append_assoc]
    exact h.changes changes
  · rw [hlog, recordsOf_append, ← List.append_assoc]
    exact h.snapshot (hsn sn hsn')

/-! ### Replay of the file -/

/-- The file begins with the frames of `base`. -/
structure Holds (E : Env) (framer : Framer) (file : Bytes) (base : List Record) : Prop where
  framed : ∃ fr, framer.load file = .ok fr ∧ frameRecords E.blake3 E.ser fr 0 base = .ok file

lemma Holds.nil (framer : Framer) : Holds E framer [] [] :=
  ⟨framer, framer.load_nil, rfl⟩

namespace Framer

variable {framer fr : Framer} {data : Bytes}

lemma fits_of_load (h : framer.load data = .ok fr) {item : Item} (hf : framer.Fits item) : fr.Fits item := by
  rcases load_kind h with ⟨rfl, rfl⟩ | ⟨sync, sync', rfl, rfl⟩
  · exact hf
  · trivial

/-- A reader takes the seed from the file, not from the framer. -/
lemma replay_of_load {blake3 : Bytes → Bytes → Digest} {ser : Serializer} (h : framer.load data = .ok fr) :
    replay blake3 ser framer data = replay blake3 ser fr data := by
  by_cases hne : data = []
  · subst hne
    obtain rfl := Except.ok.inj ((load_nil framer).symm.trans h)
    rfl
  · have h' := load_self h hne
    rcases load_kind h with ⟨rfl, rfl⟩ | ⟨sync, sync', rfl, rfl⟩
    · rfl
    · simp only [replay, scanLastSnapshot, iterRecords, h, h']

end Framer

lemma Decodable.of_load {ser : Serializer} {framer fr : Framer} {data : Bytes} {record : Record}
    (hload : framer.load data = .ok fr) (h : Decodable ser framer record) : Decodable ser fr record :=
  ⟨h.1, fun payload hp => Framer.fits_of_load hload (h.2 payload hp)⟩

/-- **The file is the log**: replaying it replays the records it held at first and those that were
appended, once the last snapshot has given its timestamp. -/
theorem Located.replay_eq {framer : Framer} {file : Bytes} {base : List Record} {s : State}
    (h : Located E framer file s) (hb : Holds E framer file base)
    (hread : ∀ r ∈ base ++ recordsOf s.core.log, Decodable E.ser framer r) :
    replay E.blake3 E.ser s.core.framer s.core.file =
      (timestampOf E.ser (lastSnapshot (base ++ recordsOf s.core.log)).1 >>= fun _ =>
        replayLog (base ++ recordsOf s.core.log)) := by
  obtain ⟨fr, hfr, hframes⟩ := hb.framed
  have hread : ∀ r ∈ base ++ recordsOf s.core.log, Decodable E.ser fr r := fun r hr =>
    (hread r hr).of_load hfr
  have hlog := frameRecords_of_placed h.aligned.placed h.aligned.complete
  rcases h.seeded with hseed | ⟨hu, heq, -⟩
  · obtain rfl := Except.ok.inj (hseed.symm.trans hfr)
    have := frameRecords_append.mpr ⟨_, hframes, _, by rwa [Nat.zero_add], rfl⟩
    rw [h.aligned.file_eq]
    exact replay_frameRecords hread this
  · have hfile : s.core.file = file := by simp [h.aligned.file_eq, hu.log]
    have hrec : recordsOf s.core.log = [] := by rw [hu.log]; rfl
    rw [hrec, List.append_nil] at hread ⊢
    rw [hfile, heq, Framer.replay_of_load hfr]
    exact replay_frameRecords hread hframes

end Kanta
