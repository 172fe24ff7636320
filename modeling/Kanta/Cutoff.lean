import Kanta.Stamps

/-!
# The cutoff

In a file in the order of time the cutoff divides the changes in two.  The old file, cut at
`cutoff_end`, keeps the first part, and the new file holds the second one behind a snapshot of where
the first one led.
-/

namespace Kanta

open Kanta.Lib

/-! ### Times at the cutoff -/

namespace DateTime

/-- What is late stays late for an earlier cutoff. -/
lemma not_lt_of_le {a cutoff earlier : DateTime} (h : earlier.le cutoff = .ok true)
    (ha : a.lt cutoff = .ok false) : a.lt earlier = .ok false := by
  obtain ⟨w, o⟩ := a
  obtain ⟨v, p⟩ := cutoff
  obtain ⟨u, q⟩ := earlier
  cases o <;> cases p <;> cases q <;> simp [lt, le] at h ha ⊢ <;> omega

/-- What is not behind an early time is not behind the cutoff. -/
lemma le_of_early {a b cutoff : DateTime} (h : a.le b = .ok true) (hb : early cutoff b = true) :
    a.le cutoff = .ok true := by
  obtain ⟨w, o⟩ := a
  obtain ⟨v, p⟩ := b
  obtain ⟨u, q⟩ := cutoff
  cases o <;> cases p <;> cases q <;> simp [early, lt, le] at h hb ⊢ <;> omega

end DateTime

/-- Behind a change from the cutoff on, all changes are. -/
lemma Chronological.late_behind {cutoff : DateTime} {before after : List Record} {c : ChangeRecord}
    (h : Chronological (before ++ .change c :: after)) (hc : DateTime.early cutoff c.ts = false) :
    ∀ c' ∈ changeRecords (.change c :: after), DateTime.early cutoff c'.ts = false := by
  intro c' hc'
  rcases List.mem_cons.mp (mem_changeRecords.mp hc') with heq | hmem
  · rw [Record.change.inj heq]
    exact hc
  · have hle : c.ts.le c'.ts = .ok true :=
      (h.append.2.1.append (l := [.change c])).2.2 _ (List.mem_singleton_self _) _ hmem
    cases hc' : DateTime.early cutoff c'.ts with
    | false => rfl
    | true =>
      rw [DateTime.early_of_le hle hc'] at hc
      simp at hc

section

variable {blake3 : Bytes → Bytes → Digest} {ser : Serializer} {bare : BareEncoder} {framer fr : Framer}
  {cutoff now : DateTime} {minDiffs : ℤ} {records front back : List Record} {s : Survey} {base : Option Snapshot}
  {content lead : Bytes} {bodies closing : List Item} {plan : RotationPlan}

/-! ### The two parts -/

lemma Planned.exists_early (h : Planned cutoff records s front back base) :
    ∃ c, .change c ∈ records ∧ DateTime.early cutoff c.ts = true := by
  cases hlast : (earlyChanges cutoff records).getLast? with
  | none =>
    have := h.last
    rw [hlast] at this
    simp at this
  | some c =>
    obtain ⟨hmem, hearly⟩ := List.mem_filter.mp (List.mem_of_getLast? hlast)
    exact ⟨c, mem_changeRecords.mp hmem, hearly⟩

/-- What is in front of the cutoff position: all early changes and no late one. -/
structure Front (blake3 : Bytes → Bytes → Digest) (ser : Serializer) (fr : Framer) (cutoff : DateTime)
    (records : List Record) (content : Bytes) (cutoffEnd : ℕ) (before after : List Record) : Prop where
  whole : records = before ++ after
  nonempty : before ≠ []
  none_late : lateChanges cutoff before = []
  late : changeRecords after = lateChanges cutoff records
  first : after = [] ∨ ∃ c rest, after = .change c :: rest ∧ DateTime.early cutoff c.ts = false
  framed : frameRecords blake3 ser fr 0 before = .ok (content.take cutoffEnd)

lemma front_of_cutAt (h : Planned cutoff records s front back base) (hc : Chronological records)
    (hframes : frameRecords blake3 ser fr 0 records = .ok content)
    (hcut : CutAt blake3 ser fr cutoff records content plan.cutoffEnd) :
    ∃ before after, Front blake3 ser fr cutoff records content plan.cutoffEnd before after := by
  obtain ⟨e, hmem, hearly⟩ := h.exists_early
  rcases hcut with ⟨hlate, hend⟩ | ⟨before, c, after, d, hwhole, hlate, hc', hd, hend⟩
  · refine ⟨records, [], (List.append_nil _).symm, List.ne_nil_of_mem hmem, hlate, hlate.symm, Or.inl rfl, ?_⟩
    rw [hend, List.take_length]
    exact hframes
  · subst hwhole
    have hbehind := hc.late_behind hc'
    have hne : before ≠ [] := by
      rintro rfl
      rw [hbehind e (mem_changeRecords.mpr hmem)] at hearly
      simp at hearly
    have hdne : d.length ≠ 0 := by
      obtain ⟨items, hitems, hf⟩ := frameRecords_iff.mp hd
      cases hitems with
      | nil => exact absurd rfl hne
      | @cons _ item _ items _ _ =>
        obtain ⟨f, rest, hfr, -, rfl⟩ := (frames_cons blake3).mp hf
        have hlen := frame_length blake3 hfr
        have hpos := frameLength_pos fr item.1 item.2 0
        rw [List.length_append]
        omega
    have hpos : fr.framePos d.length = d.length := by
      cases fr with
      | line => rfl
      | bin sync => rw [Framer.framePos, if_neg hdne]
    obtain ⟨d', hd', rest, -, rfl⟩ := frameRecords_append.mp hframes
    obtain rfl := Except.ok.inj (hd'.symm.trans hd)
    refine ⟨before, .change c :: after, rfl, hne, hlate, ?_, Or.inr ⟨c, after, rfl, hc'⟩, ?_⟩
    · rw [lateChanges_append, hlate, List.nil_append, lateChanges, List.filter_eq_self.mpr]
      intro c' hmem'
      rw [hbehind c' hmem']
      rfl
    · rw [hend, hpos, List.take_left]
      exact hd

/-! ### History is neither lost nor doubled -/

/-- The records that are scanned are those that were framed. -/
lemma scanEntries_frameRecords {data : Bytes} {l : List Record} (hr : ∀ r ∈ l, Decodable ser fr r)
    (hload : framer.load data = .ok fr) (h : frameRecords blake3 ser fr 0 l = .ok data) :
    ∃ entries, scanEntries blake3 ser framer data = .ok entries ∧ entries.map RotationEntry.record = l := by
  obtain ⟨items, hitems, hframes⟩ := frameRecords_iff.mp h
  have hdec := decodes_of_encodes (fun r hr' => (hr r hr').1) hitems
  obtain ⟨entries, hscan, hrecords, -⟩ := scanEntries_frames (fits_of_encodes hr hitems) hdec hframes
  refine ⟨entries, ?_, hrecords⟩
  rw [← hscan, scanEntries, scanEntries, iterRecords_of_load hload]

/-- The scan decodes every record. -/
lemma decodes_of_decodeEntries {total : ℕ} {raws : List RawRecord} {entries : List RotationEntry}
    (h : decodeEntries ser total raws = .ok entries) :
    ∀ raw ∈ raws, ∃ record, ser.decode raw.isSnapshot raw.payload = .ok record := by
  induction raws generalizing entries with
  | nil => simp
  | cons raw raws ih =>
    obtain ⟨record, hrecord, h⟩ := bind_eq_ok.mp h
    obtain ⟨rest, hrest, -⟩ := bind_eq_ok.mp h
    exact List.forall_mem_cons.mpr ⟨⟨record, hrecord⟩, ih hrest⟩

/-- Nothing is dropped when all changes are late. -/
lemma surveyEntries_none {earlier : DateTime} {total : ℕ} {entries : List RotationEntry}
    (h : ∀ c ∈ changeRecords (entries.map RotationEntry.record), c.ts.lt earlier = .ok false) :
    surveyEntries total earlier entries = .ok none := by
  rw [surveyEntries]
  dsimp only
  split
  · rfl
  · have hdropped : filterE (fun c => c.1.ts.lt earlier) (entries.filterMap RotationEntry.change) = .ok [] := by
      rw [filterE_of_ok (q := fun _ => false), List.filter_eq_nil_iff.mpr (by simp)]
      intro x hx
      rw [← map_fst_change] at h
      exact h _ (List.mem_map_of_mem hx)
    rw [hdropped]
    rfl

/-- The leading snapshot. -/
def Survey.leader (s : Survey) (state : Dict) : Snapshot := ⟨s.rotatedTs, s.p.versionAtCutoff, state, s.p.mAtCutoff⟩

/-- The states that the planner writes are dicts: that of the cutoff prefix, and that of the file where a
closing snapshot is written. -/
def WritesDicts (cutoff : DateTime) (minDiffs : ℤ) (records : List Record) : Prop :=
  EndsInDict (cutoffPrefix cutoff records) ∧
    (minDiffs ≤ (lateChanges cutoff records).length → EndsInDict records)

lemma encodeState_dict (ts : DateTime) (v : ℤ) (state : Dict) (m : Option DateTime) :
    encodeState ser bare ts v state.val m = ser.encode (.snapshot ⟨ts, v, state, m⟩) := by
  simp only [encodeState, Dict.ofVal_val]
  rfl

lemma StateCodec.decodable {ts : DateTime} {v : ℤ} {state : Dict} {m : Option DateTime}
    (h : StateCodec ser bare fr ts v state.val m) : Decodable ser fr (.snapshot ⟨ts, v, state, m⟩) := by
  refine ⟨fun payload hp => ?_, fun payload hp => ?_⟩
  · obtain ⟨-, hdec⟩ := h payload ((encodeState_dict ..).trans hp)
    rw [Dict.ofVal_val] at hdec
    exact map_eq_ok.mpr ⟨_, hdec, rfl⟩
  · exact (h payload ((encodeState_dict ..).trans hp)).1

/-- The records of the new file, when the states in it are dicts. -/
lemma PlanFor.new_records
    (h : PlanFor blake3 ser bare framer fr cutoff now minDiffs records plan s front back base lead bodies closing)
    (hdicts : WritesDicts cutoff minDiffs records) :
    ∃ state tail, s.p.stateAtCutoff = some state.val ∧
      (∀ r ∈ .snapshot (s.leader state) :: (lateChanges cutoff records).map .change ++ tail, Decodable ser fr r) ∧
      frameRecords blake3 ser fr 0 (.snapshot (s.leader state) :: (lateChanges cutoff records).map .change ++ tail) =
        .ok plan.newContent ∧
      (tail = [] ∨ ∃ last : Snapshot, tail = [.snapshot last] ∧ last.ts = now) := by
  obtain ⟨val, hstate, hlead⟩ := h.file.leading
  obtain ⟨state, hd⟩ := (h.planned.cutoff_dict hstate).mp hdicts.1
  obtain rfl := Dict.ofVal_eq_some.mp hd
  rw [encodeState_dict] at hlead
  have hleads : Decodable ser fr (.snapshot (s.leader state)) := (h.leads _ hstate).decodable
  have hbodies := h.file.changes
  rw [h.planned.retained] at hbodies
  have hfront : ∀ r ∈ .snapshot (s.leader state) :: (lateChanges cutoff records).map Record.change,
      Decodable ser fr r := by
    exact List.forall_mem_cons.mpr ⟨hleads, h.kept_decodable⟩
  have hitems : List.Forall₂ (Encodes ser)
      (.snapshot (s.leader state) :: (lateChanges cutoff records).map .change) ((true, lead) :: bodies) :=
    .cons ⟨rfl, hlead⟩ hbodies
  rcases h.file.closed with ⟨-, hnil⟩ | ⟨hmany, payload, hpayload, hcons⟩
  · refine ⟨state, [], hstate, ?_, frameRecords_iff.mpr ⟨_, ?_, h.file.frames⟩, Or.inl rfl⟩
    · rwa [List.append_nil]
    · rwa [List.append_nil, hnil, List.append_nil]
  · rw [h.planned.length_retained] at hmany
    obtain ⟨final, hfinal⟩ := h.planned.final_dict.mp (hdicts.2 hmany)
    have hval := Dict.ofVal_eq_some.mp hfinal
    have hcloses := h.closes (by rwa [h.planned.length_retained])
    rw [hval] at hpayload hcloses
    rw [encodeState_dict] at hpayload
    refine ⟨state, [.snapshot ⟨now, s.p.finalVersion, final, s.p.finalM⟩], hstate, fun r hr => ?_,
      frameRecords_iff.mpr ⟨_, ?_, h.file.frames⟩, Or.inr ⟨_, rfl, rfl⟩⟩
    · rcases List.mem_append.mp hr with hr | hr
      · exact hfront r hr
      · rw [List.mem_singleton.mp hr]
        exact hcloses.decodable
    · rw [hcons, ← List.cons_append]
      exact List.rel_append hitems (.cons ⟨rfl, hpayload⟩ .nil)

/-- The reader of the new file finds its frames. -/
lemma PlanFor.iterRecords
    (h : PlanFor blake3 ser bare framer fr cutoff now minDiffs records plan s front back base lead bodies closing) :
    framer.iterRecords blake3 plan.newContent 0 = ⟨fr.placed 1 0 ((true, lead) :: (bodies ++ closing)), none⟩ := by
  rw [iterRecords_of_load h.loads, iterRecords_start blake3 h.fits h.file.frames]

/-- A snapshot that is planned can be decoded when its state is a dict. -/
lemma StateCodec.decode_iff {ts : DateTime} {v : ℤ} {state : Val} {m : Option DateTime} {payload : Bytes}
    (h : StateCodec ser bare fr ts v state m) (hp : encodeState ser bare ts v state m = .ok payload)
    {snap : Snapshot} : ser.decodeSnapshot payload = .ok snap ↔
      ∃ d, Dict.ofVal state = some d ∧ snap = ⟨ts, v, d, m⟩ := by
  rw [(h payload hp).2]
  cases Dict.ofVal state with
  | none => simp
  | some d => simp [eq_comm]

/-- The new file can be scanned when the states in it are dicts. -/
lemma PlanFor.writesDicts_of_scan
    (h : PlanFor blake3 ser bare framer fr cutoff now minDiffs records plan s front back base lead bodies closing)
    {entries : List RotationEntry} (hscan : scanEntries blake3 ser framer plan.newContent = .ok entries) :
    WritesDicts cutoff minDiffs records := by
  rw [scanEntries, h.iterRecords] at hscan
  have hdec := decodes_of_decodeEntries hscan
  have hpayloads : ∀ payload, (true, payload) ∈ (true, lead) :: (bodies ++ closing) →
      ∃ snap, ser.decodeSnapshot payload = .ok snap := by
    intro payload hmem
    rw [← itemsOf_placed fr 1 0 ((true, lead) :: (bodies ++ closing))] at hmem
    obtain ⟨raw, hraw, heq⟩ := List.mem_map.mp hmem
    obtain ⟨hkind, rfl⟩ := Prod.mk.inj heq
    obtain ⟨record, hrecord⟩ := hdec raw hraw
    rw [hkind] at hrecord
    obtain ⟨snap, hsnap, -⟩ := map_eq_ok.mp hrecord
    exact ⟨snap, hsnap⟩
  obtain ⟨state, hstate, hlead⟩ := h.file.leading
  constructor
  · obtain ⟨snap, hsnap⟩ := hpayloads lead List.mem_cons_self
    obtain ⟨d, hd, -⟩ := ((h.leads state hstate).decode_iff hlead).mp hsnap
    exact (h.planned.cutoff_dict hstate).mpr ⟨d, hd⟩
  · intro hmin
    rcases h.file.closed with ⟨hfew, -⟩ | ⟨hmany, payload, hpayload, rfl⟩
    · rw [h.planned.length_retained] at hfew
      omega
    · obtain ⟨snap, hsnap⟩ := hpayloads payload (by simp)
      obtain ⟨d, hd, -⟩ := ((h.closes hmany).decode_iff hpayload).mp hsnap
      exact h.planned.final_dict.mpr ⟨d, hd⟩

lemma changeRecords_new {late : List ChangeRecord} {tail : List Record} {snap : Snapshot}
    (h : tail = [] ∨ ∃ last : Snapshot, tail = [.snapshot last] ∧ last.ts = now) :
    changeRecords (.snapshot snap :: late.map .change ++ tail) = late := by
  have hfront : changeRecords (.snapshot snap :: late.map .change) = late := changeRecords_map late
  rw [changeRecords_append, hfront]
  rcases h with rfl | ⟨last, rfl, -⟩ <;> simp [changeRecords]

/-- **Rotation loses and doubles no history**, exactly when it writes dicts. -/
theorem rotation_splits_iff (hr : ∀ r ∈ records, Decodable ser fr r) (hload : framer.load content = .ok fr)
    (h : frameRecords blake3 ser fr 0 records = .ok content)
    (hs : PlanReadable blake3 ser bare framer content cutoff now minDiffs) (hc : Chronological records)
    (hplan : planRotation blake3 ser bare framer content cutoff now minDiffs = .ok (some plan)) :
    ((∃ all kept new, scanEntries blake3 ser framer content = .ok all ∧
        scanEntries blake3 ser framer (content.take plan.cutoffEnd) = .ok kept ∧
        scanEntries blake3 ser framer plan.newContent = .ok new ∧
        changeRecords (kept.map RotationEntry.record) ++ changeRecords (new.map RotationEntry.record) =
          changeRecords (all.map RotationEntry.record)) ∧
      (∃ before after, records = before ++ after ∧
        frameRecords blake3 ser fr 0 before = .ok (content.take plan.cutoffEnd)) ∧
      ∀ earlier later minDiffs', earlier.le cutoff = .ok true →
        planRotation blake3 ser bare framer plan.newContent earlier later minDiffs' = .ok none) ↔
    WritesDicts cutoff minDiffs records := by
  obtain ⟨⟨s, front, back, base, lead, bodies, closing, hp⟩, hcut⟩ := exists_planFor hr hload h hs hplan
  constructor
  · rintro ⟨⟨all, kept, new, -, -, hnew, -⟩, -⟩
    exact hp.writesDicts_of_scan hnew
  · intro hdicts
    obtain ⟨state, tail, -, hread, hnew, htail⟩ := hp.new_records hdicts
    obtain ⟨before, after, hfront⟩ := front_of_cutAt hp.planned hc h hcut
    obtain ⟨all, hall, hallr⟩ := scanEntries_frameRecords hr hload h
    obtain ⟨new, hnews, hnewr⟩ := scanEntries_frameRecords hread hp.loads hnew
    have hrb : ∀ r ∈ before, Decodable ser fr r := fun r hr' => hr r (by simp [hfront.whole, hr'])
    obtain ⟨kept, hkept, hkeptr⟩ := scanEntries_frameRecords hrb
      (load_written hload hfront.nonempty hfront.framed) hfront.framed
    refine ⟨⟨all, kept, new, hall, hkept, hnews, ?_⟩, ⟨before, after, hfront.whole, hfront.framed⟩, ?_⟩
    · rw [hkeptr, hnewr, hallr, changeRecords_new htail, ← hfront.late, ← changeRecords_append, ← hfront.whole]
    · intro earlier later minDiffs' hle
      have hnone : surveyEntries plan.newContent.length earlier new = .ok none := by
        apply surveyEntries_none
        intro c hmem
        rw [hnewr, changeRecords_new htail] at hmem
        obtain ⟨hc', hlate⟩ := List.mem_filter.mp hmem
        obtain ⟨b, hb⟩ := hp.planned.comparable c hc'
        rw [DateTime.early_of_lt hb] at hlate
        have hb' : b = false := by simpa using hlate
        exact DateTime.not_lt_of_le hle (hb' ▸ hb)
      rw [planRotation]
      split
      · rfl
      · rw [hnews]
        simp only [bind, Except.bind, hnone]

/-! ### Where the two files meet -/

/-- The snapshot says what the replay of the records says. -/
def Shows (snap : Snapshot) (records : List Record) : Prop :=
  ∃ r, replayLog records = .ok r ∧ snap.state.val.pyEq r.state = true ∧ snap.v = r.version ∧ snap.m = r.m

/-- Every snapshot behind the first record says what the replay in front of it says. -/
def Agrees (records : List Record) : Prop :=
  ∀ before snap after, records = before ++ .snapshot snap :: after → before ≠ [] → Shows snap before

/-- The base is not behind the first retained change, or it says what the records in front of that
change say. -/
def MeetsAtCutoff (cutoff : DateTime) (records : List Record) : Prop :=
  ∀ before c after, records = before ++ .change c :: after → lateChanges cutoff before = [] →
    DateTime.early cutoff c.ts = false →
      (upTo (Record.isBase cutoff) records).length ≤ before.length ∨
        ∃ snap, snapshotAtEnd (upTo (Record.isBase cutoff) records) = some snap ∧ Shows snap before

/-- In a file in the order of time, the planner meets no snapshot between the base and the cutoff. -/
lemma Planned.changes_to_cutoff (h : Planned cutoff records s front back base)
    (hc : Chronological records) :
    ∃ changes : List ChangeRecord, upTo (Record.early cutoff) back = changes.map .change := by
  obtain ⟨rest, hback, -, hend⟩ := upTo_split (Record.early cutoff) back
  rcases hend with hnil | ⟨l, r, hl, hr⟩
  · exact ⟨[], hnil⟩
  · have hall : ∀ x ∈ l ++ [r], x.isSnapshot = false := by
      intro x hx
      cases x with
      | change c => rfl
      | snapshot snap =>
        have hmem : .snapshot snap ∈ back := by
          rw [hback, hl]
          exact List.mem_append_left _ hx
        rcases List.mem_append.mp hx with hx | hx
        · rw [h.whole, hback, hl] at hc
          have hle := hc.append.2.1.append.1.append.2.2 _ hx _ (List.mem_singleton_self r)
          cases r with
          | snapshot s => simp [Record.early] at hr
          | change c =>
            have := DateTime.le_of_early hle hr
            rw [show (Record.snapshot snap).ts = snap.ts from rfl, h.behind snap hmem] at this
            simp at this
        · rw [← List.mem_singleton.mp hx] at hr
          simp [Record.early] at hr
    exact ⟨changeRecords (l ++ [r]), hl.trans (map_changeRecords hall).symm⟩

/-- The leading snapshot says what the cutoff prefix says. -/
lemma Planned.lead_shows (h : Planned cutoff records s front back base) (hc : Chronological records) {state : Dict}
    (hstate : s.p.stateAtCutoff = some state.val) : Shows (s.leader state) (cutoffPrefix cutoff records) ∧
      (upTo (Record.early cutoff) back = [] → ∀ snap, base = some snap →
        (s.leader state).state.val = snap.state.val ∧ (s.leader state).v = snap.v ∧ (s.leader state).m = snap.m) := by
  obtain ⟨changes, hchanges⟩ := h.changes_to_cutoff hc
  obtain ⟨hrun, r, hr, hsem, hwf⟩ := h.cutoff_state hstate
  have hstamp := Point.run_stamp hrun
  have hlast : lastSnapshot (front ++ changes.map .change) = (base, changes) := by
    rw [lastSnapshot_changes]
    rcases h.front_eq with ⟨rfl, rfl⟩ | ⟨before, snap, rfl, rfl⟩
    · rfl
    · rw [lastSnapshot_snapshot, List.nil_append]
  have hr' := hr
  rw [h.prefix_eq, hchanges] at hr'
  rw [hchanges, replayLog_stamp hr' hlast] at hstamp
  obtain ⟨hv, hm⟩ := Stamp.mk.inj hstamp
  refine ⟨⟨r, hr, (Val.pyEq_iff state.wf hwf).mpr hsem.symm, hv.symm, hm.symm⟩, ?_⟩
  rintro hnil snap rfl
  rw [hnil] at hrun
  obtain ⟨hs', hv', hm'⟩ := Point.mk.inj (Except.ok.inj hrun)
  exact ⟨hs'.symm, hv'.symm, hm'.symm⟩

/-- Snapshots that agree change nothing. -/
lemma Shows.behind {lead : Snapshot} {before more : List Record} (h : Shows lead before) (hne : before ≠ [])
    (hagrees : Agrees (before ++ more)) (hmore : changeRecords more = []) : Shows lead (before ++ more) := by
  induction more using List.reverseRecOn with
  | nil => rwa [List.append_nil]
  | append_singleton more record ih =>
    rw [changeRecords_append, List.append_eq_nil_iff] at hmore
    cases record with
    | change c => simp [changeRecords] at hmore
    | snapshot snap =>
      rw [← List.append_assoc] at hagrees ⊢
      obtain ⟨r, hr, hstate, hv, hm⟩ :=
        ih (fun b s a he hb => hagrees b s (a ++ [.snapshot snap]) (by simp [he]) hb) hmore.1
      obtain ⟨r', hr', hstate', hv', hm'⟩ := hagrees (before ++ more) snap [] rfl (by simp [hne])
      obtain rfl := Except.ok.inj (hr.symm.trans hr')
      refine ⟨.ofSnapshot snap, by rw [replayLog, lastSnapshot_snapshot]; rfl, ?_, hv.trans hv'.symm,
        hm.trans hm'.symm⟩
      have hwf := wf_replayLog hr
      apply (Val.pyEq_iff lead.state.wf snap.state.wf).mpr
      exact ((Val.pyEq_iff lead.state.wf hwf).mp hstate).trans ((Val.pyEq_iff snap.state.wf hwf).mp hstate').symm

variable {before after : List Record} {cutoffEnd : ℕ}

lemma Front.not_early (h : Front blake3 ser fr cutoff records content cutoffEnd before after) :
    ∀ r ∈ after, Record.early cutoff r = false := by
  intro r hr
  cases r with
  | snapshot snap => rfl
  | change c =>
    have hmem := mem_changeRecords.mpr hr
    rw [h.late] at hmem
    have hlate := (List.mem_filter.mp hmem).2
    rw [Record.early]
    simpa using hlate

/-- When the base lies in front of the cutoff position, only snapshots stand between the last early
change and that position. -/
lemma Front.base_in_front (hf : Front blake3 ser fr cutoff records content cutoffEnd before after)
    (h : Planned cutoff records s front back base) (hle : front.length ≤ before.length) :
    ∃ more, before = cutoffPrefix cutoff records ++ more ∧ changeRecords more = [] := by
  obtain ⟨b, hb⟩ : front <+: before :=
    List.prefix_of_prefix_length_le ⟨back, h.whole.symm⟩ ⟨after, hf.whole.symm⟩ hle
  subst hb
  have hback : back = b ++ after := by
    have heq := h.whole.symm.trans hf.whole
    rw [List.append_assoc] at heq
    exact List.append_cancel_left heq
  obtain ⟨more, hsplit, hnone, -⟩ := upTo_split (Record.early cutoff) b
  refine ⟨more, ?_, ?_⟩
  · rw [h.prefix_eq, hback, upTo_append_of_none hf.not_early, List.append_assoc, ← hsplit]
  · have hlate := hf.none_late
    rw [lateChanges, List.filter_eq_nil_iff] at hlate
    rw [List.eq_nil_iff_forall_not_mem]
    intro c hc
    have hmem := mem_changeRecords.mp hc
    refine hlate c (mem_changeRecords.mpr ?_) ?_
    · rw [hsplit]
      simp [hmem]
    · rw [show DateTime.early cutoff c.ts = false from hnone _ hmem]
      rfl

/-- When the base lies behind the cutoff position, no early change is behind the base. -/
lemma Front.base_behind (hf : Front blake3 ser fr cutoff records content cutoffEnd before after)
    (h : Planned cutoff records s front back base) (hlt : before.length < front.length) :
    upTo (Record.early cutoff) back = [] ∧ ∃ snap, base = some snap := by
  obtain ⟨t, ht⟩ : before <+: front :=
    List.prefix_of_prefix_length_le ⟨after, hf.whole.symm⟩ ⟨back, h.whole.symm⟩ hlt.le
  subst ht
  have hafter : after = t ++ back := by
    have heq := hf.whole.symm.trans h.whole
    rw [List.append_assoc] at heq
    exact List.append_cancel_left heq
  constructor
  · exact upTo_append_of_none (l := []) fun r hr => hf.not_early r (by simp [hafter, hr])
  · rcases h.front_eq with ⟨hnil, -⟩ | ⟨_, snap, -, hbase⟩
    · rw [hnil] at hlt
      simp at hlt
    · exact ⟨snap, hbase⟩

/-- The first late change is where the old file is cut. -/
lemma Front.unique (hf : Front blake3 ser fr cutoff records content cutoffEnd before after)
    {before' after' : List Record} {c : ChangeRecord} (hwhole : records = before' ++ .change c :: after')
    (hlate : lateChanges cutoff before' = []) (hc : DateTime.early cutoff c.ts = false) : before' = before := by
  have hmem : ∀ {l l' : List Record} {e : ChangeRecord}, DateTime.early cutoff e.ts = false →
      lateChanges cutoff (l ++ .change e :: l') ≠ [] := by
    intro l l' e he hnil
    rw [lateChanges, List.filter_eq_nil_iff] at hnil
    exact hnil e (mem_changeRecords.mpr (by simp)) (by rw [he]; rfl)
  rcases List.append_eq_append_iff.mp (hwhole.symm.trans hf.whole) with ⟨t, hb, ht⟩ | ⟨t, hb, ht⟩
  · cases t with
    | nil => rw [hb, List.append_nil]
    | cons r t =>
      obtain ⟨rfl, -⟩ := List.cons.inj ht
      exact absurd (hb ▸ hf.none_late) (hmem hc)
  · cases t with
    | nil => rw [hb, List.append_nil]
    | cons r t =>
      rcases hf.first with hnil | ⟨e, rest, hcons, he⟩
      · rw [hnil] at ht
        simp at ht
      · rw [hcons] at ht
        obtain ⟨rfl, -⟩ := List.cons.inj ht
        exact absurd (hb ▸ hlate) (hmem he)

/-- **The leading snapshot says what the records in front of the cutoff position say** exactly when
the base does not come between. -/
lemma Front.shows_iff (hf : Front blake3 ser fr cutoff records content cutoffEnd before after)
    (h : Planned cutoff records s front back base) (hc : Chronological records)
    (hagrees : Agrees records) {state : Dict} (hstate : s.p.stateAtCutoff = some state.val) :
    Shows (s.leader state) before ↔ MeetsAtCutoff cutoff records := by
  obtain ⟨hshows, hbase⟩ := h.lead_shows hc hstate
  obtain ⟨hfront, hend, -⟩ := h.upTo_base
  have hne : cutoffPrefix cutoff records ≠ [] := by
    obtain ⟨e, hmem, hearly⟩ := h.exists_early
    intro hnil
    obtain ⟨t, hsplit, hnone, -⟩ := upTo_split (Record.settled cutoff) records
    rw [← cutoffPrefix, hnil, List.nil_append] at hsplit
    rw [hsplit] at hmem
    have := hnone _ hmem
    rw [Record.settled, hearly] at this
    simp at this
  have hleft : front.length ≤ before.length → Shows (s.leader state) before := by
    intro hle
    obtain ⟨more, hmore, hnone⟩ := hf.base_in_front h hle
    rw [hmore]
    refine hshows.behind hne ?_ hnone
    intro b s a he
    exact hagrees b s (a ++ after) (by rw [hf.whole, hmore, he]; simp)
  have hright : before.length < front.length →
      ∃ snap, base = some snap ∧ (Shows (s.leader state) before ↔ Shows snap before) := by
    intro hlt
    obtain ⟨hnil, snap, hsnap⟩ := hf.base_behind h hlt
    obtain ⟨hs, hv, hm⟩ := hbase hnil snap hsnap
    exact ⟨snap, hsnap, by rw [Shows, Shows, hs, hv, hm]⟩
  constructor
  · intro hshow b c a hwhole hlate hearly
    obtain rfl := hf.unique hwhole hlate hearly
    rw [hfront, hend]
    rcases Nat.lt_or_ge b.length front.length with hlt | hle
    · obtain ⟨snap, hsnap, hiff⟩ := hright hlt
      exact Or.inr ⟨snap, hsnap, hiff.mp hshow⟩
    · exact Or.inl hle
  · intro hmeets
    rcases Nat.lt_or_ge before.length front.length with hlt | hle
    · rcases hf.first with rfl | ⟨c, rest, rfl, hearly⟩
      · -- without retained changes the old file is cut at its end
        have hlen := congrArg List.length (hf.whole.symm.trans h.whole)
        simp only [List.length_append, List.length_nil] at hlen
        omega
      · rcases hmeets before c rest hf.whole hf.none_late hearly with hle | ⟨snap, hsnap, hshow⟩
        · rw [hfront] at hle
          omega
        · rw [hfront, hend] at hsnap
          obtain ⟨snap', hsnap', hiff⟩ := hright hlt
          obtain rfl := Option.some.inj (hsnap.symm.trans hsnap')
          exact hiff.mpr hshow
    · exact hleft hle

/-- The records in front of the first change from the cutoff on. -/
def keptRecords (cutoff : DateTime) (records : List Record) : List Record :=
  records.takeWhile fun r =>
    match r with
    | .change c => DateTime.early cutoff c.ts
    | .snapshot _ => true

lemma Front.kept_eq (hf : Front blake3 ser fr cutoff records content cutoffEnd before after) :
    keptRecords cutoff records = before := by
  rw [hf.whole, keptRecords, List.takeWhile_append_of_pos]
  · rcases hf.first with rfl | ⟨c, rest, rfl, hc⟩
    · simp
    · simp [hc]
  · intro r hr
    cases r with
    | snapshot => rfl
    | change c =>
      have hlate := hf.none_late
      rw [lateChanges, List.filter_eq_nil_iff] at hlate
      simpa using hlate c (mem_changeRecords.mpr hr)

/-- **Where the old file ends, the new one begins**: the leading snapshot says what a replay of the
old file up to the cutoff position says. -/
theorem rotation_meets_iff (hr : ∀ r ∈ records, Decodable ser fr r) (hload : framer.load content = .ok fr)
    (h : frameRecords blake3 ser fr 0 records = .ok content)
    (hs : PlanReadable blake3 ser bare framer content cutoff now minDiffs) (hc : Chronological records)
    (hagrees : Agrees records)
    (hplan : planRotation blake3 ser bare framer content cutoff now minDiffs = .ok (some plan)) :
    (∃ raw rest lead r, (framer.iterRecords blake3 plan.newContent 0).records = raw :: rest ∧
        raw.isSnapshot = true ∧ ser.decodeSnapshot raw.payload = .ok lead ∧
        replay blake3 ser framer (content.take plan.cutoffEnd) = .ok r ∧
        lead.state.val.pyEq r.state = true ∧ lead.v = r.version ∧ lead.m = r.m) ↔
      timestampOf ser (lastSnapshot (keptRecords cutoff records)).1 = .ok () ∧
        EndsInDict (cutoffPrefix cutoff records) ∧ MeetsAtCutoff cutoff records := by
  obtain ⟨⟨s, front, back, base, payload, bodies, closing, hp⟩, hcut⟩ := exists_planFor hr hload h hs hplan
  obtain ⟨before, after, hfront⟩ := front_of_cutAt hp.planned hc h hcut
  obtain ⟨state, hstate, hlead⟩ := hp.file.leading
  obtain ⟨items, hitems, hframes⟩ := frameRecords_iff.mp hfront.framed
  have hrb : ∀ r ∈ before, Decodable ser fr r := fun r hr' => hr r (by simp [hfront.whole, hr'])
  have hreplay : ∀ r, replay blake3 ser framer (content.take plan.cutoffEnd) = .ok r ↔
      timestampOf ser (lastSnapshot before).1 = .ok () ∧ replayLog before = .ok r := by
    intro r
    rw [Framer.replay_of_load (load_written hload hfront.nonempty hfront.framed),
      replay_frames (fits_of_encodes hrb hitems) (decodes_of_encodes (fun r hr' => (hrb r hr').1) hitems) hframes]
    cases timestampOf ser (lastSnapshot before).1 <;> simp [bind, Except.bind]
  rw [hfront.kept_eq, hp.iterRecords, hp.planned.cutoff_dict hstate]
  constructor
  · rintro ⟨raw, rest, lead, r, hraw, -, hdec, hr', hshow⟩
    obtain ⟨rfl, -⟩ := List.cons.inj hraw
    obtain ⟨d, hd, rfl⟩ := ((hp.leads state hstate).decode_iff hlead).mp hdec
    obtain ⟨htime, hlog⟩ := (hreplay r).mp hr'
    rw [Dict.ofVal_eq_some.mp hd] at hstate
    exact ⟨htime, ⟨d, hd⟩, (hfront.shows_iff hp.planned hc hagrees hstate).mp ⟨r, hlog, hshow⟩⟩
  · rintro ⟨htime, ⟨d, hd⟩, hmeets⟩
    have hdec := ((hp.leads state hstate).decode_iff hlead).mpr ⟨d, hd, rfl⟩
    rw [Dict.ofVal_eq_some.mp hd] at hstate
    obtain ⟨r, hlog, hshow⟩ := (hfront.shows_iff hp.planned hc hagrees hstate).mpr hmeets
    exact ⟨_, _, _, r, rfl, rfl, hdec, (hreplay r).mpr ⟨htime, hlog⟩, hshow⟩

end

/-! ### A file over two days -/

namespace Sample

/-- Two changes with a snapshot in between. -/
def between : List Record := [.change (change 1 0 1), .snapshot (shot 1 0 1), .change (change 3 0 2)]

/-- Two changes with a snapshot behind them, at the time of the second one. -/
def tie : List Record := [.change (change 1 0 1), .change (change 3 0 2), .snapshot (shot 3 0 2)]

lemma chronological_between : Chronological between := by
  simp [Chronological, between, Record.ts, change, shot, day, ts, DateTime.le, DateTime.day]

lemma chronological_tie : Chronological tie := by
  simp [Chronological, tie, Record.ts, change, shot, day, ts, DateTime.le, DateTime.day]

lemma agrees_between : Agrees between := by
  intro before snap after he hne
  rcases before with _ | ⟨r, _ | ⟨r', _ | ⟨r'', before⟩⟩⟩
  · exact absurd rfl hne
  · simp only [between, List.cons_append, List.nil_append, List.cons.injEq, Record.snapshot.injEq] at he
    obtain ⟨rfl, rfl, -⟩ := he
    exact ⟨_, rfl, rfl, rfl, rfl⟩
  · simp [between] at he
  · simp [between] at he

lemma agrees_tie : Agrees tie := by
  intro before snap after he hne
  rcases before with _ | ⟨r, _ | ⟨r', _ | ⟨r'', before⟩⟩⟩
  · exact absurd rfl hne
  · simp [tie] at he
  · simp only [tie, List.cons_append, List.nil_append, List.cons.injEq, Record.snapshot.injEq] at he
    obtain ⟨rfl, rfl, rfl, -⟩ := he
    exact ⟨_, rfl, by decide +kernel, rfl, rfl⟩
  · simp [tie] at he

/-- The leading snapshot, and the replay of the old file up to the cutoff position. -/
def meet (run : Run) : Option (Snapshot × ReplayResult) := do
  let raw ← (Framer.line.iterRecords noHash run.plan.newContent 0).records.head?
  let lead ← (if raw.isSnapshot then (dated.decodeSnapshot raw.payload).toOption else none)
  let r ← (replay noHash dated .line (run.content.take run.plan.cutoffEnd)).toOption
  some (lead, r)

lemma meet_ok {run : Run} {x : Snapshot × ReplayResult} (h : meet run = some x) :
    ∃ raw rest, (Framer.line.iterRecords noHash run.plan.newContent 0).records = raw :: rest ∧
      raw.isSnapshot = true ∧ dated.decodeSnapshot raw.payload = .ok x.1 ∧
      replay noHash dated .line (run.content.take run.plan.cutoffEnd) = .ok x.2 := by
  obtain ⟨raw, hraw, h⟩ := Option.bind_eq_some_iff.mp h
  obtain ⟨lead, hlead, h⟩ := Option.bind_eq_some_iff.mp h
  obtain ⟨r, hr, h⟩ := Option.bind_eq_some_iff.mp h
  rw [← Option.some.inj h]
  obtain ⟨rest, hrest⟩ := List.head?_eq_some_iff.mp hraw
  split at hlead
  · exact ⟨raw, rest, hrest, ‹_›, eq_ok_of_toOption hlead, eq_ok_of_toOption hr⟩
  · simp at hlead

/-- A change that makes a list of the state. -/
def toList : ChangeRecord := { ts := day 1, a := "set", diff := ⟨[("$replace", .list [.int 1])], rfl⟩ }

/-- `{"ts":"2024-01-01T00:00:00Z","a":"set","diff":{"$replace":[1]}}`. -/
def toListPayload : Bytes :=
  ascii "\x7b\"ts\":\"2024-01-01T00:00:00Z\",\"a\":\"set\",\"diff\":\x7b\"$replace\":[1]\x7d\x7d"

/-- The change, and no snapshot that could be decoded. -/
def listed : Serializer where
  encodeChange c :=
    match c.diff.items with
    | [("$replace", .list [.int 1])] =>
      if c.ts = day 1 ∧ c.a = "set" ∧ c.v = 0 ∧ c.u = none ∧ c.m = none then .ok toListPayload
      else .error (.typeError "not in the sample")
    | _ => .error (.typeError "not in the sample")
  encodeSnapshot _ := .error (.typeError "not in the sample")
  decodeChange payload := if payload = toListPayload then .ok toList else .error .decodeError
  decodeSnapshot _ := .error .decodeError
  localTime := .total

/-- `{"ts":"2024-01-01T00:00:00Z","v":0,"state":[1]}`. -/
def listPayload : Bytes := ascii "\x7b\"ts\":\"2024-01-01T00:00:00Z\",\"v\":0,\"state\":[1]\x7d"

/-- The encoder of the list. -/
def bareList : BareEncoder := fun ts v state m =>
  match state with
  | .list [.int 1] =>
    if ts = day 1 ∧ v = 0 ∧ m = none then .ok listPayload else .error (.typeError "not in the sample")
  | _ => .error (.typeError "not in the sample")

lemma decodable_toList : Decodable listed .line (.change toList) := by
  have henc : listed.encode (.change toList) = .ok toListPayload := by rfl
  refine ⟨fun payload hp => ?_, fun payload hp => ?_⟩
  · obtain rfl := Except.ok.inj (henc.symm.trans hp)
    have hdec : listed.decodeChange toListPayload = .ok toList := by simp [listed]
    exact map_eq_ok.mpr ⟨toList, hdec, rfl⟩
  · obtain rfl := Except.ok.inj (henc.symm.trans hp)
    have hfits : Fits (false, toListPayload) := by decide +kernel
    exact hfits

lemma stateCodec_listed (ts : DateTime) (v : ℤ) (state : Val) (m : Option DateTime) :
    StateCodec listed bareList .line ts v state m := by
  intro payload hp
  rw [encodeState] at hp
  cases hstate : Dict.ofVal state with
  | some d => simp [hstate, listed] at hp
  | none =>
    rw [hstate] at hp
    obtain rfl : listPayload = payload := by
      simp only [bareList] at hp
      split at hp
      · split at hp
        · exact Except.ok.inj hp
        · simp at hp
      · simp at hp
    have hfits : Fits (true, listPayload) := by decide +kernel
    exact ⟨hfits, rfl⟩

/-- What comes of a rotation, with the list as the state at the cutoff. -/
def relisted : Option (Bytes × RotationPlan) := do
  let content ← (frameRecords noHash listed .line 0 [.change toList]).toOption
  let plan ← (planRotation noHash listed bareList .line content (day 2) (day 3) 100).toOption
  let plan ← plan
  some (content, plan)

/-- Whether the decoder has failed. -/
def undecoded {α : Type} : Except Exc α → Bool
  | .error .decodeError => true
  | _ => false

lemma eq_decodeError {α : Type} {x : Except Exc α} (h : undecoded x = true) : x = .error .decodeError := by
  unfold undecoded at h
  split at h
  · rfl
  · simp at h

end Sample

/-- The history of a small file. -/
theorem rotation_splits_between : ∃ content plan all kept new,
    frameRecords Sample.noHash Sample.dated .line 0 Sample.between = .ok content ∧
      planRotation Sample.noHash Sample.dated Sample.bare .line content (Sample.day 2) (Sample.day 3) 100 =
        .ok (some plan) ∧
      scanEntries Sample.noHash Sample.dated .line content = .ok all ∧
      scanEntries Sample.noHash Sample.dated .line (content.take plan.cutoffEnd) = .ok kept ∧
      scanEntries Sample.noHash Sample.dated .line plan.newContent = .ok new ∧
      changeRecords (kept.map RotationEntry.record) ++ changeRecords (new.map RotationEntry.record) =
        changeRecords (all.map RotationEntry.record) := by
  obtain ⟨run, hrun, -⟩ := Sample.exists_run Sample.between (Sample.day 2) 100 (fun _ => true) (by decide +kernel)
  obtain ⟨hcontent, hplan, -⟩ := Sample.rotate_ok hrun
  have hdicts : WritesDicts (Sample.day 2) 100 Sample.between := ⟨⟨_, rfl, rfl⟩, fun _ => ⟨_, rfl, rfl⟩⟩
  obtain ⟨⟨all, kept, new, hall, hkept, hnew, heq⟩, -, -⟩ := (rotation_splits_iff
    (fun r _ => Sample.decodable_dated r) rfl hcontent (Sample.planReadable _ _ _ _)
    Sample.chronological_between hplan).mpr hdicts
  exact ⟨run.content, run.plan, all, kept, new, hcontent, hplan, hall, hkept, hnew, heq⟩

/-- A change makes a list of the state, and the planner writes it as the state of a snapshot: the new file
can be neither scanned nor rotated again. -/
theorem rotation_writes_list : ∃ content plan,
    Decodable Sample.listed .line (.change Sample.toList) ∧
      frameRecords Sample.noHash Sample.listed .line 0 [.change Sample.toList] = .ok content ∧
      PlanReadable Sample.noHash Sample.listed Sample.bareList .line content (Sample.day 2) (Sample.day 3) 100 ∧
      planRotation Sample.noHash Sample.listed Sample.bareList .line content (Sample.day 2) (Sample.day 3) 100 =
        .ok (some plan) ∧
      scanEntries Sample.noHash Sample.listed .line plan.newContent = .error .decodeError ∧
      planRotation Sample.noHash Sample.listed Sample.bareList .line plan.newContent (Sample.day 2) (Sample.day 3)
        100 = .error .decodeError := by
  obtain ⟨⟨content, plan⟩, hrun, hobs⟩ : ∃ run, Sample.relisted = some run ∧
      (Sample.undecoded (scanEntries Sample.noHash Sample.listed .line run.2.newContent) &&
        Sample.undecoded (planRotation Sample.noHash Sample.listed Sample.bareList .line run.2.newContent
          (Sample.day 2) (Sample.day 3) 100)) = true := by
    have h : Sample.relisted.any (fun run =>
        Sample.undecoded (scanEntries Sample.noHash Sample.listed .line run.2.newContent) &&
          Sample.undecoded (planRotation Sample.noHash Sample.listed Sample.bareList .line run.2.newContent
            (Sample.day 2) (Sample.day 3) 100)) = true := by decide +kernel
    simpa [Option.any_eq_true] using h
  unfold Sample.relisted at hrun
  obtain ⟨content, hcontent, hrun⟩ := Option.bind_eq_some_iff.mp hrun
  obtain ⟨found, hplan, hrun⟩ := Option.bind_eq_some_iff.mp hrun
  obtain ⟨plan, hfound, hrun⟩ := Option.bind_eq_some_iff.mp hrun
  obtain ⟨rfl, rfl⟩ := Prod.mk.inj (Option.some.inj hrun)
  rw [hfound] at hplan
  rw [Bool.and_eq_true] at hobs
  exact ⟨content, plan, Sample.decodable_toList, eq_ok_of_toOption hcontent,
    fun _ _ _ _ => ⟨fun _ _ => Sample.stateCodec_listed _ _ _ _, fun _ => Sample.stateCodec_listed _ _ _ _⟩,
    eq_ok_of_toOption hplan, Sample.eq_decodeError hobs.1, Sample.eq_decodeError hobs.2⟩

/-- The snapshot at the cutoff is taken as the base, and it shows the change that is retained. -/
theorem leading_snapshot_ahead : ∃ content plan raw rest lead r,
    frameRecords Sample.noHash Sample.dated .line 0 Sample.tie = .ok content ∧
      Chronological Sample.tie ∧ Agrees Sample.tie ∧
      planRotation Sample.noHash Sample.dated Sample.bare .line content (Sample.day 3) (Sample.day 3) 100 =
        .ok (some plan) ∧
      (Framer.line.iterRecords Sample.noHash plan.newContent 0).records = raw :: rest ∧ raw.isSnapshot = true ∧
      Sample.dated.decodeSnapshot raw.payload = .ok lead ∧
      replay Sample.noHash Sample.dated .line (content.take plan.cutoffEnd) = .ok r ∧
      lead.state.val.pyEq (Sample.state 2).val = true ∧ r.state.pyEq (Sample.state 1).val = true ∧
      lead.state.val.pyEq r.state = false := by
  obtain ⟨run, hrun, hobs⟩ := Sample.exists_run Sample.tie (Sample.day 3) 100
    (fun run => (Sample.meet run).any fun x => x.1.state.val.pyEq (Sample.state 2).val &&
      x.2.state.pyEq (Sample.state 1).val && !x.1.state.val.pyEq x.2.state) (by decide +kernel)
  obtain ⟨hcontent, hplan, -⟩ := Sample.rotate_ok hrun
  rw [Option.any_eq_true] at hobs
  obtain ⟨x, hx, hobs⟩ := hobs
  obtain ⟨raw, rest, hraw, hkind, hlead, hr⟩ := Sample.meet_ok hx
  simp only [Bool.and_eq_true, Bool.not_eq_true'] at hobs
  exact ⟨run.content, run.plan, raw, rest, x.1, x.2, hcontent, Sample.chronological_tie,
    Sample.agrees_tie, hplan, hraw, hkind, hlead, hr, hobs.1.1, hobs.1.2, hobs.2⟩

/-- With the snapshot in front of the retained change, the two files meet. -/
theorem rotation_meets_between : ∃ content plan raw rest lead r,
    frameRecords Sample.noHash Sample.dated .line 0 Sample.between = .ok content ∧
      planRotation Sample.noHash Sample.dated Sample.bare .line content (Sample.day 2) (Sample.day 3) 100 =
        .ok (some plan) ∧
      (Framer.line.iterRecords Sample.noHash plan.newContent 0).records = raw :: rest ∧
      Sample.dated.decodeSnapshot raw.payload = .ok lead ∧
      replay Sample.noHash Sample.dated .line (content.take plan.cutoffEnd) = .ok r ∧
      lead.state.val.pyEq r.state = true := by
  obtain ⟨run, hrun, -⟩ := Sample.exists_run Sample.between (Sample.day 2) 100 (fun _ => true) (by decide +kernel)
  obtain ⟨hcontent, hplan, -⟩ := Sample.rotate_ok hrun
  have hmeets : MeetsAtCutoff (Sample.day 2) Sample.between := by
    intro before c after he hlate hc
    left
    have hlen : (upTo (Record.isBase (Sample.day 2)) Sample.between).length = 2 := rfl
    rw [hlen]
    rcases before with _ | ⟨r, _ | ⟨r', before⟩⟩
    · obtain ⟨hfirst, -⟩ := List.cons.inj he
      rw [← Record.change.inj hfirst] at hc
      exact absurd hc (by decide +kernel)
    · simp [Sample.between] at he
    · simp
  obtain ⟨raw, rest, lead, r, hraw, -, hlead, hr, hstate, -⟩ := (rotation_meets_iff
    (fun r _ => Sample.decodable_dated r) rfl hcontent (Sample.planReadable _ _ _ _)
    Sample.chronological_between Sample.agrees_between hplan).mpr
      ⟨Sample.timely_dated _, ⟨_, rfl, rfl⟩, hmeets⟩
  exact ⟨run.content, run.plan, raw, rest, lead, r, hcontent, hplan, hraw, hlead, hr, hstate⟩

end Kanta
