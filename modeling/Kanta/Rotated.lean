import Kanta.Replaylog
import Kanta.Rotation

/-!
# The rotated file

What a replay of the new file gives beside a replay of the old one.  The planner replays from the
base and leaves the old file at the last change from before the cutoff, while the retained changes
are chosen by their times over the whole file.  Nothing looks at the states the planner writes: a
new file can be replayed when it is `Resumable`.
-/

namespace Kanta

open Kanta.Lib

/-! ### The cutoff prefix -/

namespace Record

/-- Whether the record lies in front of the cutoff: a change from before it, or a snapshot that is
not behind it. -/
def settled (cutoff : DateTime) : Record → Bool
  | .change c => DateTime.early cutoff c.ts
  | .snapshot snap =>
    match snap.ts.le cutoff with
    | .ok b => b
    | .error _ => false

end Record

/-- The records up to the last one that lies in front of the cutoff. -/
def cutoffPrefix (cutoff : DateTime) (records : List Record) : List Record :=
  upTo (Record.settled cutoff) records

/-- The records behind. -/
def cutoffRest (cutoff : DateTime) (records : List Record) : List Record :=
  records.drop (cutoffPrefix cutoff records).length

lemma upTo_congr {α : Type} {P Q : α → Bool} {l : List α} (h : ∀ x ∈ l, P x = Q x) : upTo P l = upTo Q l := by
  induction l using List.reverseRecOn with
  | nil => rfl
  | append_singleton l x ih =>
    rw [upTo_concat, upTo_concat, h x (by simp), ih fun y hy => h y (List.mem_append_left _ hy)]

section

variable {cutoff : DateTime} {records front back : List Record} {s : Survey} {base : Option Snapshot}

/-- The front ends in the base. -/
lemma Planned.front_eq (h : Planned cutoff records s front back base) :
    (front = [] ∧ base = none) ∨ ∃ before snap, front = before ++ [.snapshot snap] ∧ base = some snap := by
  rcases h.base_eq with hnone | ⟨before, snap, hf, hb, -⟩
  · exact Or.inl hnone
  · exact Or.inr ⟨before, snap, hf, hb⟩

/-- The planner is at the cutoff behind the cutoff prefix. -/
lemma Planned.prefix_eq (h : Planned cutoff records s front back base) :
    cutoffPrefix cutoff records = front ++ upTo (Record.early cutoff) back := by
  have hsame : ∀ r ∈ back, Record.settled cutoff r = Record.early cutoff r := by
    intro r hr
    cases r with
    | change c => rfl
    | snapshot snap => rw [Record.settled, h.behind snap hr, Record.early]
  rw [cutoffPrefix, h.whole]
  by_cases hex : ∃ r ∈ back, Record.early cutoff r = true
  · obtain ⟨r, hr, hearly⟩ := hex
    rw [upTo_append_of_mem hr ((hsame r hr).trans hearly), upTo_congr hsame]
  · have hnone : ∀ r ∈ back, Record.early cutoff r = false := by
      intro r hr
      by_contra hne
      exact hex ⟨r, hr, by simpa using hne⟩
    have hnil := upTo_append_of_none (l := []) hnone
    rw [List.nil_append] at hnil
    rw [upTo_append_of_none fun r hr => (hsame r hr).trans (hnone r hr), hnil]
    rcases h.base_eq with ⟨rfl, -⟩ | ⟨before, snap, rfl, -, hle⟩
    · rfl
    · rw [upTo_concat, if_pos (by rw [Record.settled, hle])]
      exact (List.append_nil _).symm

/-- The records behind the cutoff prefix. -/
lemma Planned.rest_eq (h : Planned cutoff records s front back base) :
    ∃ rest, cutoffRest cutoff records = rest ∧ back = upTo (Record.early cutoff) back ++ rest ∧
      records = cutoffPrefix cutoff records ++ rest ∧ lateChanges cutoff rest = changeRecords rest := by
  obtain ⟨rest, hback, hrest, -⟩ := upTo_split (Record.early cutoff) back
  have hrecords : records = cutoffPrefix cutoff records ++ rest := by
    rw [h.prefix_eq, List.append_assoc, ← hback]
    exact h.whole
  refine ⟨rest, ?_, hback, hrecords, ?_⟩
  · rw [cutoffRest]
    nth_rewrite 2 [hrecords]
    exact List.drop_left
  · rw [lateChanges, List.filter_eq_self]
    intro c hc
    have hlate : DateTime.early cutoff c.ts = false := hrest _ (mem_changeRecords.mp hc)
    rw [hlate]
    rfl

end

/-! ### The planner and the replay -/

lemma Point.wf_run {base : Option Snapshot} {records : List Record} {q : Point}
    (h : Point.run base records = .ok q) : q.state.wf = true := by
  refine foldlM_keeps (P := fun p : Point => p.state.wf = true) ?_ h ?_
  · intro p r p' _ hr hp
    cases r with
    | snapshot snap =>
      rw [Point.advance] at hr
      split at hr
      · simp at hr
      · rw [← Except.ok.inj hr]
        exact hp
    | change c =>
      obtain ⟨state, hstate, hr⟩ := bind_eq_ok.mp hr
      rw [← Except.ok.inj hr]
      exact wf_rawApply (wf_unmarshal c.diff.wf) hp hstate
  · cases base with
    | none => rfl
    | some snap => exact snap.state.wf

/-- Where the planner is, a replay is. -/
lemma run_replay {front : List Record} {base : Option Snapshot} {q : Point}
    (hbase : (front = [] ∧ base = none) ∨ ∃ before snap, front = before ++ [.snapshot snap] ∧ base = some snap)
    {l : List Record} (h : Point.run base l = .ok q) :
    ∃ r, replayLog (front ++ l) = .ok r ∧ r.state.sem = q.state.sem ∧ r.state.wf = true := by
  induction l using List.reverseRecOn generalizing q with
  | nil =>
    obtain rfl : Point.start base = q := Except.ok.inj h
    rw [List.append_nil]
    rcases hbase with ⟨rfl, rfl⟩ | ⟨before, snap, rfl, rfl⟩
    · exact ⟨.empty, rfl, rfl, rfl⟩
    · exact ⟨.ofSnapshot snap, by rw [replayLog, lastSnapshot_snapshot]; rfl, rfl, snap.state.wf⟩
  | append_singleton l record ih =>
    rw [Point.run, List.foldlM_append, bind_eq_ok] at h
    obtain ⟨t, ht, h⟩ := h
    obtain ⟨r, hr, hsem, hwf⟩ := ih ht
    have h : t.advance record = .ok q := by rw [← bind_pure (t.advance record)]; exact h
    rw [← List.append_assoc]
    cases record with
    | snapshot snap =>
      rw [Point.advance] at h
      split at h
      · simp at h
      · rename_i heq
        obtain rfl := Except.ok.inj h
        refine ⟨.ofSnapshot snap, by rw [replayLog, lastSnapshot_snapshot]; rfl, ?_, snap.state.wf⟩
        exact (Val.pyEq_iff snap.state.wf (Point.wf_run ht)).mp (by simpa using heq)
    | change c =>
      obtain ⟨state, hstate, h⟩ := bind_eq_ok.mp h
      obtain rfl := Except.ok.inj h
      obtain ⟨state', hstate', hsem'⟩ := rawApply_congr (unmarshal c.diff.val) _ _ _ hsem.symm hstate
      have happly : applyDiff r.state c.diff.val = .ok state' := hstate'
      refine ⟨{ r with
        state := state', version := c.v, hasMigration := r.hasMigration || startsWith "migrate" c.a
        m := c.m <|> r.m }, ?_, hsem'.symm, wf_rawApply (wf_unmarshal c.diff.wf) hwf hstate'⟩
      have hadd := replayLog_changes (front ++ l) [c]
      rw [List.map_singleton] at hadd
      rw [hadd, hr]
      simp only [List.foldlM_cons, List.foldlM_nil, bind, Except.bind, ReplayResult.applyChange, happly]
      rfl

/-- The planner patches the changes in. -/
lemma patchAll_of_advance {l : List Record} {q q' : Point} (h : l.foldlM Point.advance q = .ok q') :
    patchAll q.state (changeRecords l) = .ok q'.state := by
  induction l generalizing q with
  | nil =>
    obtain rfl : q = q' := Except.ok.inj h
    rfl
  | cons record l ih =>
    rw [List.foldlM_cons, bind_eq_ok] at h
    obtain ⟨t, ht, h⟩ := h
    have htail := ih h
    cases record with
    | snapshot snap =>
      rw [Point.advance] at ht
      split at ht
      · simp at ht
      · rw [← Except.ok.inj ht] at htail
        exact htail
    | change c =>
      obtain ⟨state, hstate, ht⟩ := bind_eq_ok.mp ht
      rw [← Except.ok.inj ht] at htail
      have hstate : patch q.state c.diff.val = .ok state := hstate
      rw [show changeRecords (.change c :: l) = c :: changeRecords l from rfl, patchAll, List.foldlM_cons, hstate]
      exact htail

/-- The planner ends where a replay of the old file does. -/
lemma Planned.replay_old {cutoff : DateTime} {records front back : List Record} {s : Survey}
    {base : Option Snapshot} (h : Planned cutoff records s front back base) :
    ∃ r, replayLog records = .ok r ∧ r.state.sem = s.p.state.sem ∧ r.state.wf = true := by
  have hrun := run_replay h.front_eq h.tracks.here
  rwa [← h.whole] at hrun

/-! ### The new file -/

section

variable {blake3 : Bytes → Bytes → Digest} {ser : Serializer} {bare : BareEncoder} {framer fr : Framer}
  {cutoff now : DateTime} {minDiffs : ℤ} {records front back : List Record} {s : Survey} {base : Option Snapshot}
  {content out lead : Bytes} {bodies closing : List Item} {plan : RotationPlan}

/-- A file takes the seed of the framer that wrote it. -/
lemma load_frames {data : Bytes} {items : List Item} (hload : framer.load content = .ok fr) (hne : items ≠ [])
    (h : fr.frames blake3 0 items = .ok data) : framer.load data = .ok fr := by
  rcases Framer.load_kind hload with ⟨rfl, rfl⟩ | ⟨sync, sync', rfl, rfl⟩
  · rfl
  · obtain ⟨body, rfl, -⟩ := frames_zero blake3 hne h
    exact load_bin body

lemma load_written {data : Bytes} {new : List Record} (hload : framer.load content = .ok fr) (hne : new ≠ [])
    (h : frameRecords blake3 ser fr 0 new = .ok data) : framer.load data = .ok fr := by
  obtain ⟨items, hitems, hframes⟩ := frameRecords_iff.mp h
  refine load_frames hload ?_ hframes
  rintro rfl
  cases hitems
  exact hne rfl

/-- What msgspec makes of a snapshot that is planned: a state that is a dict comes back, and any other is
refused by the type of the field. -/
def StateCodec (ser : Serializer) (bare : BareEncoder) (framer : Framer) (ts : DateTime) (v : ℤ) (state : Val)
    (m : Option DateTime) : Prop :=
  ∀ payload, encodeState ser bare ts v state m = .ok payload → framer.Fits (true, payload) ∧
    ser.decodeSnapshot payload =
      match Dict.ofVal state with
      | some d => .ok ⟨ts, v, d, m⟩
      | none => .error .decodeError

/-- The snapshots that are planned are read back as far as their states are dicts. -/
def PlanReadable (blake3 : Bytes → Bytes → Digest) (ser : Serializer) (bare : BareEncoder) (framer : Framer)
    (content : Bytes) (cutoff now : DateTime) (minDiffs : ℤ) : Prop :=
  ∀ entries s, scanEntries blake3 ser framer content = .ok entries →
    surveyEntries content.length cutoff entries = .ok (some s) →
      (∀ state, s.p.stateAtCutoff = some state →
        StateCodec ser bare (framer.reload content) s.rotatedTs s.p.versionAtCutoff state s.p.mAtCutoff) ∧
      (minDiffs ≤ s.retained.length →
        StateCodec ser bare (framer.reload content) now s.p.finalVersion s.p.state s.p.finalM)

/-- A plan for the records of a file: how the planner divides them, and what it writes. -/
structure PlanFor (blake3 : Bytes → Bytes → Digest) (ser : Serializer) (bare : BareEncoder) (framer fr : Framer)
    (cutoff now : DateTime) (minDiffs : ℤ) (records : List Record) (plan : RotationPlan) (s : Survey)
    (front back : List Record) (base : Option Snapshot) (lead : Bytes) (bodies closing : List Item) : Prop where
  planned : Planned cutoff records s front back base
  file : NewFile blake3 ser bare fr now minDiffs s plan.newContent lead bodies closing
  loads : framer.load plan.newContent = .ok fr
  leads : ∀ state, s.p.stateAtCutoff = some state →
    StateCodec ser bare fr s.rotatedTs s.p.versionAtCutoff state s.p.mAtCutoff
  closes : minDiffs ≤ s.retained.length → StateCodec ser bare fr now s.p.finalVersion s.p.state s.p.finalM
  stamp : plan.rotatedTs = s.rotatedTs
  kept : ∀ c ∈ lateChanges cutoff records, Decodable ser fr (.change c)

lemma exists_planFor (hr : ∀ r ∈ records, Decodable ser fr r) (hload : framer.load content = .ok fr)
    (h : frameRecords blake3 ser fr 0 records = .ok content)
    (hs : PlanReadable blake3 ser bare framer content cutoff now minDiffs)
    (hplan : planRotation blake3 ser bare framer content cutoff now minDiffs = .ok (some plan)) :
    (∃ s front back base lead bodies closing,
      PlanFor blake3 ser bare framer fr cutoff now minDiffs records plan s front back base lead bodies closing) ∧
      CutAt blake3 ser fr cutoff records content plan.cutoffEnd := by
  obtain ⟨entries, s, front, back, base, lead, bodies, closing, hscan, hsurvey, hplanned, hcut, hfile, hts⟩ :=
    planRotation_ok hr hload h hplan
  have hreload : framer.reload content = fr := by rw [Framer.reload, hload]
  obtain ⟨hleads, hcloses⟩ := hs entries s hscan hsurvey
  rw [hreload] at hleads hcloses
  refine ⟨⟨s, front, back, base, lead, bodies, closing, hplanned, hfile, ?_, hleads, hcloses, hts, ?_⟩, hcut⟩
  · exact load_frames hload (List.cons_ne_nil _ _) hfile.frames
  · intro c hc
    exact hr _ (mem_changeRecords.mp (List.mem_filter.mp hc).1)

/-- What a replay of the new file patches in and where it starts, be the states dicts or not. -/
def Survey.replayed (now : DateTime) (minDiffs : ℤ) (s : Survey) : Except Exc ReplayResult :=
  if minDiffs ≤ s.retained.length then .ok ⟨s.p.state, s.p.finalVersion, false, some now, s.p.finalM⟩
  else
    (s.retained.map Prod.fst).foldlM ReplayResult.applyChange
      ⟨s.p.stateAtCutoff.getD (.dict []), s.p.versionAtCutoff, false, some s.rotatedTs, s.p.mAtCutoff⟩

/-- A replay of the records, which ends in a dict. -/
def EndsInDict (records : List Record) : Prop := ∃ r, replayLog records = .ok r ∧ r.state.isDict = true

/-- The snapshot that a replay of the new file starts at can be read: its state is a dict, and its time has a
timestamp.  A closing snapshot comes before the leading one. -/
def Resumable (ser : Serializer) (cutoff now : DateTime) (minDiffs : ℤ) (records : List Record) : Prop :=
  if minDiffs ≤ (lateChanges cutoff records).length then
    now.timestamp ser.localTime = .ok () ∧ EndsInDict records
  else
    (∀ c, (earlyChanges cutoff records).getLast? = some c → c.ts.timestamp ser.localTime = .ok ()) ∧
      EndsInDict (cutoffPrefix cutoff records)

lemma Point.exists_dict {base : Option Snapshot} {l : List Record} {q : Point} (h : Point.run base l = .ok q)
    (hdict : q.state.isDict = true) : ∃ d, Dict.ofVal q.state = some d := by
  obtain ⟨d, hd⟩ := Dict.exists_of_val hdict (Point.wf_run h)
  exact ⟨d, by rw [hd, Dict.ofVal_val]⟩

lemma isDict_of_ofVal {v : Val} {d : Dict} (h : Dict.ofVal v = some d) : v.isDict = true := by
  rw [Dict.ofVal_eq_some.mp h]
  rfl

/-- The state at the cutoff is where the cutoff prefix ends. -/
lemma Planned.cutoff_state (h : Planned cutoff records s front back base) {state : Val}
    (hstate : s.p.stateAtCutoff = some state) :
    Point.run base (upTo (Record.early cutoff) back) = .ok ⟨state, s.p.versionAtCutoff, s.p.mAtCutoff⟩ ∧
      ∃ r, replayLog (cutoffPrefix cutoff records) = .ok r ∧ r.state.sem = state.sem ∧ r.state.wf = true := by
  obtain ⟨atCutoff, hrun, hcut⟩ := h.tracks.atCutoff
  obtain rfl := hcut _ hstate
  obtain ⟨r, hr, hsem, hwf⟩ := run_replay h.front_eq hrun
  rw [← h.prefix_eq] at hr
  exact ⟨hrun, r, hr, hsem, hwf⟩

lemma Planned.cutoff_dict (h : Planned cutoff records s front back base) {state : Val}
    (hstate : s.p.stateAtCutoff = some state) :
    EndsInDict (cutoffPrefix cutoff records) ↔ ∃ d, Dict.ofVal state = some d := by
  obtain ⟨hrun, r, hr, hsem, -⟩ := h.cutoff_state hstate
  constructor
  · rintro ⟨r', hr', hdict⟩
    obtain rfl := Except.ok.inj (hr.symm.trans hr')
    exact Point.exists_dict hrun (by rwa [Val.isDict_congr hsem] at hdict)
  · rintro ⟨d, hd⟩
    exact ⟨r, hr, by rw [Val.isDict_congr hsem, isDict_of_ofVal hd]⟩

lemma Planned.final_dict (h : Planned cutoff records s front back base) :
    EndsInDict records ↔ ∃ d, Dict.ofVal s.p.state = some d := by
  obtain ⟨r, hr, hsem, -⟩ := h.replay_old
  constructor
  · rintro ⟨r', hr', hdict⟩
    obtain rfl := Except.ok.inj (hr.symm.trans hr')
    exact Point.exists_dict h.tracks.here (by rwa [Val.isDict_congr hsem] at hdict)
  · rintro ⟨d, hd⟩
    exact ⟨r, hr, by rw [Val.isDict_congr hsem, isDict_of_ofVal hd]⟩

lemma Planned.timely (h : Planned cutoff records s front back base) {localTime : LocalTime} :
    (∀ c, (earlyChanges cutoff records).getLast? = some c → c.ts.timestamp localTime = .ok ()) ↔
      s.rotatedTs.timestamp localTime = .ok () := by
  obtain ⟨c, hc, hts⟩ := Option.map_eq_some_iff.mp h.last
  rw [hc, ← hts]
  simp

lemma Planned.length_retained (h : Planned cutoff records s front back base) :
    s.retained.length = (lateChanges cutoff records).length := by
  rw [← h.retained, List.length_map]

/-- A snapshot that is planned starts a replay when its state is a dict and its time has a timestamp. -/
lemma StateCodec.start_iff {ts : DateTime} {v : ℤ} {state : Val} {m : Option DateTime} {payload : Bytes}
    {changes : List ChangeRecord} {pos : ℕ} {r' : ReplayResult} (h : StateCodec ser bare framer ts v state m)
    (hp : encodeState ser bare ts v state m = .ok payload) :
    (replayStart ser payload pos >>= fun start => changes.foldlM ReplayResult.applyChange start) = .ok r' ↔
      (ts.timestamp ser.localTime = .ok () ∧ ∃ d, Dict.ofVal state = some d) ∧
        changes.foldlM ReplayResult.applyChange ⟨state, v, false, some ts, m⟩ = .ok r' := by
  rw [replayStart, (h payload hp).2]
  cases hstate : Dict.ofVal state with
  | none => simp [bind, Except.bind]
  | some d =>
    obtain rfl := Dict.ofVal_eq_some.mp hstate
    cases htime : ts.timestamp ser.localTime with
    | error e => simp [htime, bind, Except.bind]
    | ok _ => simp [htime, bind, Except.bind, ReplayResult.ofSnapshot]

section

variable (h : PlanFor blake3 ser bare framer fr cutoff now minDiffs records plan s front back base lead bodies closing)

include h

lemma PlanFor.kept_decodable : ∀ r ∈ (lateChanges cutoff records).map Record.change, Decodable ser fr r := by
  intro r hr
  obtain ⟨c, hc, rfl⟩ := List.mem_map.mp hr
  exact h.kept c hc

/-- The retained changes come back from their frames. -/
lemma PlanFor.middle : (∀ i ∈ bodies, fr.Fits i) ∧
    List.Forall₂ (Decodes ser) bodies ((lateChanges cutoff records).map .change) := by
  have hbodies := h.file.changes
  rw [h.planned.retained] at hbodies
  exact ⟨fits_of_encodes h.kept_decodable hbodies,
    decodes_of_encodes (fun r hr => (h.kept_decodable r hr).1) hbodies⟩

/-- The frames of the new file fit the framer, be the states dicts or not. -/
lemma PlanFor.fits : ∀ i ∈ (true, lead) :: (bodies ++ closing), fr.Fits i := by
  obtain ⟨state, hstate, hlead⟩ := h.file.leading
  refine List.forall_mem_cons.mpr ⟨(h.leads state hstate lead hlead).1, fun i hi => ?_⟩
  rcases List.mem_append.mp hi with hi | hi
  · exact h.middle.1 i hi
  · rcases h.file.closed with ⟨-, rfl⟩ | ⟨hmany, payload, hpayload, rfl⟩
    · simp at hi
    · rw [List.mem_singleton.mp hi]
      exact (h.closes hmany payload hpayload).1

/-- **When a new file can be replayed**, and what comes out. -/
lemma PlanFor.replay_iff {r' : ReplayResult} : replay blake3 ser framer plan.newContent = .ok r' ↔
    Resumable ser cutoff now minDiffs records ∧ s.replayed now minDiffs = .ok r' := by
  obtain ⟨state, hstate, hlead⟩ := h.file.leading
  have hfits := h.fits
  have hframes := h.file.frames
  rw [Framer.replay_of_load h.loads, Resumable, Survey.replayed, ← h.planned.length_retained, h.planned.final_dict,
    h.planned.cutoff_dict hstate, h.planned.timely, hstate]
  rcases h.file.closed with ⟨hfew, rfl⟩ | ⟨hmany, payload, hpayload, rfl⟩
  · rw [List.append_nil] at hfits hframes
    rw [if_neg (by omega), if_neg (by omega), h.planned.retained]
    obtain ⟨pos, hreplay⟩ := replay_frames_behind [] _ hfits h.middle.2 hframes
    rw [hreplay]
    exact (h.leads state hstate).start_iff hlead
  · rw [if_pos hmany, if_pos hmany]
    obtain ⟨pos, hreplay⟩ := replay_frames_behind ((true, lead) :: bodies) [] hfits .nil hframes
    rw [hreplay]
    exact (h.closes hmany).start_iff hpayload

end

/-- The plan keeps the state: a closing snapshot shows it, or the retained changes lead from the
cutoff prefix to where those behind it lead. -/
def KeepsState (cutoff : DateTime) (minDiffs : ℤ) (records : List Record) : Prop :=
  minDiffs ≤ (lateChanges cutoff records).length ∨
    ∃ r y, replayLog (cutoffPrefix cutoff records) = .ok r ∧
      Leads r.state (lateChanges cutoff (cutoffRest cutoff records)) y ∧
      Leads r.state (lateChanges cutoff records) y

/-- Behind the cutoff prefix, the old file leads where it leads as a whole. -/
lemma Planned.rest_leads (h : Planned cutoff records s front back base) {state : Val} {rc r : ReplayResult}
    (hstate : s.p.stateAtCutoff = some state) (hsem : rc.state.sem = state.sem)
    (hr : r.state.sem = s.p.state.sem) :
    Leads rc.state (lateChanges cutoff (cutoffRest cutoff records)) r.state := by
  obtain ⟨hrun, -⟩ := h.cutoff_state hstate
  obtain ⟨rest, hrest, hback, -, hlate⟩ := h.rest_eq
  have hhere := h.tracks.here
  rw [hback, Point.run, List.foldlM_append, bind_eq_ok] at hhere
  obtain ⟨q, hq, hhere⟩ := hhere
  obtain rfl := Except.ok.inj (hrun.symm.trans hq)
  rw [hrest, hlate]
  exact Leads.congr_left ⟨s.p.state, patchAll_of_advance hhere, hr.symm⟩ hsem.symm

variable (now) in
/-- The replay of the new file ends where that of the old one does, exactly when the plan keeps the state. -/
lemma Planned.keeps_iff (h : Planned cutoff records s front back base) {state : Val} {r : ReplayResult}
    (hstate : s.p.stateAtCutoff = some state) (hr : replayLog records = .ok r) :
    (∃ r', s.replayed now minDiffs = .ok r' ∧ r'.state.pyEq r.state = true) ↔ KeepsState cutoff minDiffs records := by
  obtain ⟨r₁, hr₁, hsem, hwf⟩ := h.replay_old
  obtain rfl := Except.ok.inj (hr.symm.trans hr₁)
  rw [Survey.replayed, KeepsState, ← h.length_retained, h.retained, hstate]
  by_cases hmany : minDiffs ≤ s.retained.length
  · -- the closing snapshot shows the state of the planner at the end
    rw [if_pos hmany]
    refine iff_of_true ⟨_, rfl, ?_⟩ (Or.inl hmany)
    exact (Val.pyEq_iff (Point.wf_run h.tracks.here) hwf).mpr hsem.symm
  · -- the retained changes are patched into the state at the cutoff
    obtain ⟨hrun, rc, hrc, hcsem, -⟩ := h.cutoff_state hstate
    have hbehind := h.rest_leads hstate hcsem hsem
    rw [if_neg hmany, Option.getD_some]
    constructor
    · rintro ⟨r', hr', heq⟩
      have hpatch := patchAll_of_foldlM hr'
      have hwf' : r'.state.wf = true := wf_patchAll (Point.wf_run hrun) hpatch
      refine Or.inr ⟨rc, r.state, hrc, hbehind, ?_⟩
      exact Leads.congr_left ⟨r'.state, hpatch, (Val.pyEq_iff hwf' hwf).mp heq⟩ hcsem.symm
    · rintro (hmin | ⟨rc', y, hrc', hy, hall⟩)
      · exact absurd hmin hmany
      · obtain rfl := Except.ok.inj (hrc.symm.trans hrc')
        obtain ⟨z, hz, hzy⟩ := hall.congr_left hcsem
        obtain ⟨r', hr', rfl⟩ := foldlM_applyChange
          (r := ⟨state, s.p.versionAtCutoff, false, some s.rotatedTs, s.p.mAtCutoff⟩) hz
        refine ⟨r', hr', ?_⟩
        apply (Val.pyEq_iff (wf_patchAll (Point.wf_run hrun) hz) hwf).mpr
        exact hzy.trans (hy.unique hbehind)

/-- A replay of the file that is rotated. -/
lemma Planned.replay_iff (h : Planned cutoff records s front back base) (hr : ∀ r ∈ records, Decodable ser fr r)
    (hload : framer.load content = .ok fr) (hframes : frameRecords blake3 ser fr 0 records = .ok content) :
    ∃ r, replayLog records = .ok r ∧ ∀ r', replay blake3 ser framer content = .ok r' ↔
      timestampOf ser (lastSnapshot records).1 = .ok () ∧ r = r' := by
  obtain ⟨r, hlog, -⟩ := h.replay_old
  obtain ⟨items, hitems, hf⟩ := frameRecords_iff.mp hframes
  refine ⟨r, hlog, fun r' => ?_⟩
  rw [Framer.replay_of_load hload, replay_frames (fits_of_encodes hr hitems)
    (decodes_of_encodes (fun r hr' => (hr r hr').1) hitems) hf, hlog]
  cases timestampOf ser (lastSnapshot records).1 <;> simp [bind, Except.bind]

/-- **When a rotation keeps the state**: a replay of the new file ends in the state that a replay of
the old one ends in. -/
theorem rotation_state_iff (hr : ∀ r ∈ records, Decodable ser fr r) (hload : framer.load content = .ok fr)
    (h : frameRecords blake3 ser fr 0 records = .ok content)
    (hs : PlanReadable blake3 ser bare framer content cutoff now minDiffs)
    (hplan : planRotation blake3 ser bare framer content cutoff now minDiffs = .ok (some plan)) :
    (∃ r r', replay blake3 ser framer content = .ok r ∧ replay blake3 ser framer plan.newContent = .ok r' ∧
        r'.state.pyEq r.state = true) ↔
      timestampOf ser (lastSnapshot records).1 = .ok () ∧ Resumable ser cutoff now minDiffs records ∧
        KeepsState cutoff minDiffs records := by
  obtain ⟨⟨s, front, back, base, lead, bodies, closing, hp⟩, -⟩ := exists_planFor hr hload h hs hplan
  obtain ⟨state, hstate, -⟩ := hp.file.leading
  obtain ⟨r, hlog, hold⟩ := hp.planned.replay_iff hr hload h
  rw [← hp.planned.keeps_iff now hstate hlog]
  constructor
  · rintro ⟨r₁, r', hr₁, hr', heq⟩
    obtain ⟨htime, rfl⟩ := (hold r₁).mp hr₁
    obtain ⟨hres, hr'⟩ := hp.replay_iff.mp hr'
    exact ⟨htime, hres, r', hr', heq⟩
  · rintro ⟨htime, hres, r', hr', heq⟩
    exact ⟨r, r', (hold r).mpr ⟨htime, rfl⟩, hp.replay_iff.mpr ⟨hres, hr'⟩, heq⟩

end

/-! ### A file over several days -/

namespace Sample

/-- Midnight of a day of January 2024, UTC. -/
def day (d : ℕ) : DateTime := ⟨ts.wall + (d - 7) * DateTime.day, some 0⟩

/-- A change that sets `n` on a day. -/
def change (d : ℕ) (v k : ℤ) : ChangeRecord := { ts := day d, a := "set", v := v, diff := state k }

/-- A snapshot on a day. -/
def shot (d : ℕ) (v k : ℤ) : Snapshot := { ts := day d, v := v, state := state k }

/-- The days and versions there are. -/
def dates : List (ℕ × ℤ) := [(1, 0), (1, 1), (3, 0), (3, 1)]

/-- `{"ts":"2024-01-01T00:00:00Z","a":"set","v":1,"diff":{"n":1}}`, without a version that is 0. -/
def encodeDatedChange (c : ChangeRecord) : Except Exc Bytes :=
  match dates.find? fun p => c.ts = day p.1 ∧ c.v = p.2 with
  | some (d, v) =>
    if c.a = "set" ∧ c.u = none ∧ c.m = none then
      json (ascii "\x7b\"ts\":\"2024-01-0" ++ UInt8.ofNat (48 + d) :: ascii "T00:00:00Z\",\"a\":\"set\"," ++
        (if v = 0 then [] else ascii "\"v\":1,") ++ ascii "\"diff\":\x7b\"n\":") c.diff (ascii "\x7d\x7d")
    else .error (.typeError "not in the sample")
  | none => .error (.typeError "not in the sample")

/-- `{"ts":"2024-01-01T00:00:00Z","v":0,"state":{"n":1}}`. -/
def encodeDatedSnapshot (s : Snapshot) : Except Exc Bytes :=
  match dates.find? fun p => s.ts = day p.1 ∧ s.v = p.2 with
  | some (d, v) =>
    if s.m = none then
      json (ascii "\x7b\"ts\":\"2024-01-0" ++ UInt8.ofNat (48 + d) :: ascii "T00:00:00Z\",\"v\":" ++
        UInt8.ofNat (48 + v.toNat) :: ascii ",\"state\":\x7b\"n\":") s.state (ascii "\x7d\x7d")
    else .error (.typeError "not in the sample")
  | none => .error (.typeError "not in the sample")

def datedChanges : List ChangeRecord := dates.flatMap fun p => digits.map fun k => change p.1 p.2 k

def datedSnapshots : List Snapshot := dates.flatMap fun p => digits.map fun k => shot p.1 p.2 k

def dated : Serializer where
  encodeChange := encodeDatedChange
  encodeSnapshot := encodeDatedSnapshot
  decodeChange := decode encodeDatedChange datedChanges
  decodeSnapshot := decode encodeDatedSnapshot datedSnapshots
  localTime := .total

lemma mem_datedChanges {c : ChangeRecord} {payload : Bytes} (h : encodeDatedChange c = .ok payload) :
    c ∈ datedChanges := by
  unfold encodeDatedChange at h
  split at h
  · rename_i d v hp
    split at h
    · rename_i hc
      obtain ⟨k, hk, hd⟩ := state_of_json h
      obtain ⟨hts, hv⟩ : c.ts = day d ∧ c.v = v := by simpa using List.find?_some hp
      obtain ⟨ts, a, v', u, m, diff⟩ := c
      obtain ⟨rfl, rfl, rfl⟩ := hc
      obtain rfl : diff = state k := hd
      obtain rfl : ts = day d := hts
      obtain rfl : v' = v := hv
      exact List.mem_flatMap.mpr ⟨(d, v'), List.mem_of_find?_eq_some hp, List.mem_map_of_mem hk⟩
    · simp at h
  · simp at h

lemma mem_datedSnapshots {s : Snapshot} {payload : Bytes} (h : encodeDatedSnapshot s = .ok payload) :
    s ∈ datedSnapshots := by
  unfold encodeDatedSnapshot at h
  split at h
  · rename_i d v hp
    split at h
    · rename_i hm
      obtain ⟨k, hk, hd⟩ := state_of_json h
      obtain ⟨hts, hv⟩ : s.ts = day d ∧ s.v = v := by simpa using List.find?_some hp
      obtain ⟨ts, v', st, m⟩ := s
      obtain rfl : m = none := hm
      obtain rfl : st = state k := hd
      obtain rfl : ts = day d := hts
      obtain rfl : v' = v := hv
      exact List.mem_flatMap.mpr ⟨(d, v'), List.mem_of_find?_eq_some hp, List.mem_map_of_mem hk⟩
    · simp at h
  · simp at h

/-- What is written can be read. -/
lemma decodable_dated (r : Record) : Decodable dated .line r :=
  decodable_of_lists .total (by decide +kernel) (by decide +kernel) (fun _ _ => mem_datedChanges)
    (fun _ _ => mem_datedSnapshots) (by decide +kernel) (by decide +kernel) r

/-- The states of the sample are dicts. -/
def bare : BareEncoder := fun _ _ _ _ => .error (.typeError "not in the sample")

/-- The hash of the sample is never used by text files. -/
def noHash : Bytes → Bytes → Digest := (env 1).blake3

/-- A text file, the plan for it, and the replays of the old file and the new one. -/
structure Run where
  content : Bytes
  plan : RotationPlan
  old : ReplayResult
  new : ReplayResult

/-- The rotation of a text file of records, on day 3. -/
def rotate (records : List Record) (cutoff : DateTime) (minDiffs : ℤ) : Option Run := do
  let content ← (frameRecords noHash dated .line 0 records).toOption
  let plan ← (planRotation noHash dated bare .line content cutoff (day 3) minDiffs).toOption
  let plan ← plan
  let old ← (replay noHash dated .line content).toOption
  let new ← (replay noHash dated .line plan.newContent).toOption
  some ⟨content, plan, old, new⟩

lemma rotate_ok {records : List Record} {cutoff : DateTime} {minDiffs : ℤ} {run : Run}
    (h : rotate records cutoff minDiffs = some run) :
    frameRecords noHash dated .line 0 records = .ok run.content ∧
      planRotation noHash dated bare .line run.content cutoff (day 3) minDiffs = .ok (some run.plan) ∧
      replay noHash dated .line run.content = .ok run.old ∧
      replay noHash dated .line run.plan.newContent = .ok run.new := by
  obtain ⟨content, hcontent, h⟩ := Option.bind_eq_some_iff.mp h
  obtain ⟨found, hplan, h⟩ := Option.bind_eq_some_iff.mp h
  obtain ⟨plan, hfound, h⟩ := Option.bind_eq_some_iff.mp h
  rw [hfound] at hplan
  obtain ⟨old, hold, h⟩ := Option.bind_eq_some_iff.mp h
  obtain ⟨new, hnew, h⟩ := Option.bind_eq_some_iff.mp h
  rw [← Option.some.inj h]
  exact ⟨eq_ok_of_toOption hcontent, eq_ok_of_toOption hplan, eq_ok_of_toOption hold, eq_ok_of_toOption hnew⟩

/-- A run that shows what is looked for. -/
lemma exists_run (records : List Record) (cutoff : DateTime) (minDiffs : ℤ) (P : Run → Bool)
    (h : (rotate records cutoff minDiffs).any P = true) :
    ∃ run, rotate records cutoff minDiffs = some run ∧ P run = true := by
  simpa [Option.any_eq_true] using h

lemma stateCodec_dated (ts : DateTime) (v : ℤ) (state : Val) (m : Option DateTime) :
    StateCodec dated bare .line ts v state m := by
  intro payload hp
  rw [encodeState] at hp
  cases hstate : Dict.ofVal state with
  | none => simp [hstate, bare] at hp
  | some d =>
    rw [hstate] at hp
    have hd := decodable_dated (.snapshot ⟨ts, v, d, m⟩)
    refine ⟨hd.2 payload hp, ?_⟩
    obtain ⟨snap, hsnap, heq⟩ := map_eq_ok.mp (hd.1 payload hp)
    rw [hsnap, Record.snapshot.inj heq]

lemma planReadable (content : Bytes) (cutoff now : DateTime) (minDiffs : ℤ) :
    PlanReadable noHash dated bare .line content cutoff now minDiffs :=
  fun _ _ _ _ => ⟨fun _ _ => stateCodec_dated _ _ _ _, fun _ => stateCodec_dated _ _ _ _⟩

lemma timely_dated (records : List Record) : timestampOf dated (lastSnapshot records).1 = .ok () :=
  timestampOf_timed fun r _ => dated.timed_of_total rfl r

end Sample

/-- The clock went back between the two changes, so that the first of them is retained: it is patched
in again, and the new file shows it. -/
theorem rotation_reapplies : ∃ content plan r r',
    frameRecords Sample.noHash Sample.dated .line 0
        [.change (Sample.change 3 0 1), .change (Sample.change 1 0 2)] = .ok content ∧
      planRotation Sample.noHash Sample.dated Sample.bare .line content (Sample.day 2) (Sample.day 3) 100 =
        .ok (some plan) ∧
      replay Sample.noHash Sample.dated .line content = .ok r ∧
      replay Sample.noHash Sample.dated .line plan.newContent = .ok r' ∧
      r.state.pyEq (Sample.state 2).val = true ∧ r'.state.pyEq (Sample.state 1).val = true ∧
      r'.state.pyEq r.state = false := by
  obtain ⟨run, hrun, hobs⟩ := Sample.exists_run
    [.change (Sample.change 3 0 1), .change (Sample.change 1 0 2)] (Sample.day 2) 100
    (fun run => run.old.state.pyEq (Sample.state 2).val && run.new.state.pyEq (Sample.state 1).val &&
      !run.new.state.pyEq run.old.state) (by decide +kernel)
  obtain ⟨hcontent, hplan, hold, hnew⟩ := Sample.rotate_ok hrun
  simp only [Bool.and_eq_true, Bool.not_eq_true'] at hobs
  exact ⟨run.content, run.plan, run.old, run.new, hcontent, hplan, hold, hnew, hobs.1.1, hobs.1.2, hobs.2⟩

/-- With the changes in order, the state is kept. -/
theorem rotation_state_in_order : ∃ content plan r r',
    frameRecords Sample.noHash Sample.dated .line 0
        [.change (Sample.change 1 0 1), .change (Sample.change 3 0 2)] = .ok content ∧
      planRotation Sample.noHash Sample.dated Sample.bare .line content (Sample.day 2) (Sample.day 3) 100 =
        .ok (some plan) ∧
      replay Sample.noHash Sample.dated .line content = .ok r ∧
      replay Sample.noHash Sample.dated .line plan.newContent = .ok r' ∧ r'.state.pyEq r.state = true := by
  obtain ⟨run, hrun, -⟩ := Sample.exists_run
    [.change (Sample.change 1 0 1), .change (Sample.change 3 0 2)] (Sample.day 2) 100 (fun _ => true)
    (by decide +kernel)
  obtain ⟨hcontent, hplan, -⟩ := Sample.rotate_ok hrun
  have hkeeps : KeepsState (Sample.day 2) 100 [.change (Sample.change 1 0 1), .change (Sample.change 3 0 2)] :=
    Or.inr ⟨_, _, rfl, ⟨_, rfl, rfl⟩, ⟨_, rfl, rfl⟩⟩
  have hresumes : Resumable Sample.dated (Sample.day 2) (Sample.day 3) 100
      [.change (Sample.change 1 0 1), .change (Sample.change 3 0 2)] :=
    ⟨fun c _ => c.ts.timestamp_total, _, rfl, rfl⟩
  obtain ⟨r, r', hr, hr', heq⟩ := (rotation_state_iff (fun r _ => Sample.decodable_dated r) rfl hcontent
    (Sample.planReadable _ _ _ _) hplan).mpr ⟨Sample.timely_dated _, hresumes, hkeeps⟩
  exact ⟨run.content, run.plan, r, r', hcontent, hplan, hr, hr', heq⟩

end Kanta
