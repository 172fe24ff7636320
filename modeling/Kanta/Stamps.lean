import Kanta.Rotated

/-!
# The stamps of a rotated file

Version and modification time stand in two kinds of records.  The planner takes them from the base
and the changes behind it, and from the other snapshots the modification time only; the replay takes
both from the last snapshot of the file.
-/

namespace Kanta

/-! ### Files in the order of time -/

namespace Record

/-- The timestamp. -/
def ts : Record → DateTime
  | .change c => c.ts
  | .snapshot snap => snap.ts

/-- A snapshot that is not behind the cutoff. -/
def isBase (cutoff : DateTime) : Record → Bool
  | .change _ => false
  | .snapshot snap => Record.settled cutoff (.snapshot snap)

end Record

/-- The timestamps do not decrease. -/
def Chronological (records : List Record) : Prop :=
  (records.map Record.ts).Pairwise fun a b => a.le b = .ok true

namespace DateTime

lemma early_of_le {a b cutoff : DateTime} (h : a.le b = .ok true) (hb : early cutoff b = true) :
    early cutoff a = true := by
  obtain ⟨w, o⟩ := a
  obtain ⟨v, p⟩ := b
  obtain ⟨u, q⟩ := cutoff
  cases o <;> cases p <;> cases q <;> simp [early, lt, le] at h hb ⊢ <;> omega

end DateTime

lemma Chronological.append {l l' : List Record} (h : Chronological (l ++ l')) :
    Chronological l ∧ Chronological l' ∧ ∀ r ∈ l, ∀ r' ∈ l', r.ts.le r'.ts = .ok true := by
  rw [Chronological, List.map_append, List.pairwise_append] at h
  obtain ⟨hl, hl', hall⟩ := h
  exact ⟨hl, hl', fun r hr r' hr' => hall _ (List.mem_map_of_mem hr) _ (List.mem_map_of_mem hr')⟩

/-! ### Stamps -/

/-- Version and modification time. -/
structure Stamp where
  version : ℤ
  m : Option DateTime

namespace Stamp

/-- At a base. -/
def start : Option Snapshot → Stamp
  | none => ⟨0, none⟩
  | some snap => ⟨snap.v, snap.m⟩

/-- One record further, as the planner reads it. -/
def next (s : Stamp) : Record → Stamp
  | .change c => ⟨c.v, c.m <|> s.m⟩
  | .snapshot snap => { s with m := snap.m <|> s.m }

lemma next_changes (l : List ChangeRecord) (s : Stamp) :
    (l.map Record.change).foldl next s = ⟨(l.map ChangeRecord.v).getLastD s.version, lastM l <|> s.m⟩ := by
  induction l generalizing s with
  | nil => rfl
  | cons c l ih =>
    rw [List.map_cons, List.foldl_cons, ih, List.map_cons, List.getLastD_cons, ← List.singleton_append,
      lastM_append]
    have hm : (lastM l <|> (c.m <|> s.m)) = ((lastM l <|> lastM [c]) <|> s.m) := by
      rw [show lastM [c] = (c.m <|> none) from rfl]
      cases lastM l <;> cases c.m <;> rfl
    rw [← hm]
    rfl

end Stamp

lemma Point.run_stamp {base : Option Snapshot} {l : List Record} {q : Point} (h : Point.run base l = .ok q) :
    l.foldl Stamp.next (.start base) = ⟨q.version, q.m⟩ := by
  induction l using List.reverseRecOn generalizing q with
  | nil =>
    obtain rfl : Point.start base = q := Except.ok.inj h
    cases base <;> rfl
  | append_singleton l record ih =>
    rw [Point.run, List.foldlM_append, bind_eq_ok] at h
    obtain ⟨t, ht, h⟩ := h
    have h : t.advance record = .ok q := by rw [← bind_pure (t.advance record)]; exact h
    rw [List.foldl_append, ih ht]
    cases record with
    | snapshot snap =>
      rw [Point.advance] at h
      split at h
      · simp at h
      · rw [← Except.ok.inj h]
        rfl
    | change c =>
      obtain ⟨state, -, h⟩ := bind_eq_ok.mp h
      rw [← Except.ok.inj h]
      rfl

/-! ### What the new file shows -/

/-- The snapshot at the end of the records, if one is there. -/
def snapshotAtEnd (records : List Record) : Option Snapshot :=
  match records.getLast? with
  | some (.snapshot snap) => some snap
  | _ => none

/-- The records behind the base whose stamps the new file shows: up to the last change, where the
closing snapshot shows them or all changes are from before the cutoff, and otherwise those in the
leading snapshot and the retained changes. -/
def shownRecords (cutoff : DateTime) (minDiffs : ℤ) (records : List Record) : List Record :=
  let back := records.drop (upTo (Record.isBase cutoff) records).length
  let late := lateChanges cutoff records
  if late.isEmpty ∨ minDiffs ≤ late.length then upTo (fun r => !r.isSnapshot) back
  else upTo (Record.early cutoff) back ++ late.map .change

/-- The stamp that the new file shows. -/
def shownStamp (cutoff : DateTime) (minDiffs : ℤ) (records : List Record) : Stamp :=
  (shownRecords cutoff minDiffs records).foldl Stamp.next
    (.start (snapshotAtEnd (upTo (Record.isBase cutoff) records)))

section

variable {cutoff : DateTime} {minDiffs : ℤ} {records front back : List Record} {s : Survey} {base : Option Snapshot}

lemma Planned.upTo_base (h : Planned cutoff records s front back base) :
    upTo (Record.isBase cutoff) records = front ∧ snapshotAtEnd front = base ∧
      records.drop front.length = back := by
  have hnone : ∀ r ∈ back, Record.isBase cutoff r = false := by
    intro r hr
    cases r with
    | change c => rfl
    | snapshot snap => rw [Record.isBase, Record.settled, h.behind snap hr]
  refine ⟨?_, ?_, by rw [h.whole, List.drop_left]⟩
  · rw [h.whole, upTo_append_of_none hnone]
    rcases h.base_eq with ⟨rfl, -⟩ | ⟨before, snap, rfl, -, hle⟩
    · rfl
    · rw [upTo_concat, if_pos (by rw [Record.isBase, Record.settled, hle])]
  · rcases h.base_eq with ⟨rfl, rfl⟩ | ⟨before, snap, rfl, rfl, -⟩
    · rfl
    · rw [snapshotAtEnd, List.getLast?_concat]

lemma Planned.shown_eq (h : Planned cutoff records s front back base) :
    shownRecords cutoff minDiffs records =
      if (lateChanges cutoff records).isEmpty ∨ minDiffs ≤ (lateChanges cutoff records).length then
        upTo (fun r => !r.isSnapshot) back
      else upTo (Record.early cutoff) back ++ (lateChanges cutoff records).map .change := by
  obtain ⟨hfront, -, hdrop⟩ := h.upTo_base
  rw [shownRecords, hfront, hdrop]

/-- In front of a change from before the cutoff there is none from behind it. -/
lemma lateChanges_of_early {l : List Record} {c : ChangeRecord} (h : Chronological (l ++ [.change c]))
    (hc : DateTime.early cutoff c.ts = true) : lateChanges cutoff (l ++ [.change c]) = [] := by
  rw [lateChanges, List.filter_eq_nil_iff]
  intro c' hc'
  rcases List.mem_append.mp (mem_changeRecords.mp hc') with hr | hr
  · have hearly : DateTime.early cutoff c'.ts = true :=
      DateTime.early_of_le (h.append.2.2 _ hr _ (List.mem_singleton_self _)) hc
    rw [hearly]
    decide
  · obtain rfl := Record.change.inj (List.mem_singleton.mp hr)
    rw [hc]
    decide

/-- The changes behind the last snapshot are shown last. -/
lemma Planned.shown_ends (h : Planned cutoff records s front back base)
    (hc : Chronological records) {pre : List Record} {changes : List ChangeRecord}
    (hback : back = pre ++ changes.map .change) (hne : changes ≠ []) :
    ∃ shown, shownRecords cutoff minDiffs records = shown ++ changes.map .change ∧
      (records = changes.map .change → shown = []) := by
  have hlen : records = changes.map .change → front = [] ∧ pre = [] := by
    intro heq
    have := congrArg List.length (h.whole.symm.trans heq)
    rw [hback, List.length_append, List.length_append] at this
    constructor <;> (apply List.length_eq_zero_iff.mp; omega)
  rw [h.shown_eq]
  split
  · refine ⟨pre, ?_, fun heq => (hlen heq).2⟩
    obtain ⟨l, c, rfl⟩ := (List.eq_nil_or_concat' changes).resolve_left hne
    rw [hback, List.map_append, List.map_singleton, ← List.append_assoc, upTo_concat]
    rfl
  · obtain ⟨rest, -, hsplit, hrecords, hlate⟩ := h.rest_eq
    have hall : lateChanges cutoff records =
        lateChanges cutoff (front ++ upTo (Record.early cutoff) back) ++ changeRecords rest := by
      nth_rewrite 1 [hrecords]
      rw [lateChanges_append, hlate, h.prefix_eq]
    obtain ⟨_, -, -, hmid⟩ := upTo_split (Record.early cutoff) back
    rcases List.append_eq_append_iff.mp (hback.symm.trans hsplit) with ⟨t, hm, hrest⟩ | ⟨t, hpre, hrest⟩
    · -- the changes reach in front of the cutoff
      rcases hmid with hnil | ⟨l, r, hl, hr⟩
      · rw [hnil] at hm
        obtain ⟨rfl, rfl⟩ := List.append_eq_nil_iff.mp hm.symm
        rw [List.nil_append] at hrest
        refine ⟨(lateChanges cutoff (front ++ [])).map .change, ?_, ?_⟩
        · rw [hall, hnil, ← hrest, changeRecords_map, List.map_append, List.nil_append]
        · intro heq
          rw [(hlen heq).1]
          rfl
      · cases r with
        | snapshot snap => simp [Record.early] at hr
        | change c =>
          have hnone : lateChanges cutoff (front ++ upTo (Record.early cutoff) back) = [] := by
            rw [hl, ← List.append_assoc]
            apply lateChanges_of_early _ hr
            rw [List.append_assoc, ← hl, ← h.prefix_eq]
            rw [hrecords] at hc
            exact hc.append.1
          have hmap : (changeRecords rest).map Record.change = rest := by
            obtain ⟨l₁, l₂, rfl, -, rfl⟩ := List.map_eq_append_iff.mp hrest
            rw [changeRecords_map]
          refine ⟨pre, ?_, fun heq => (hlen heq).2⟩
          rw [hall, hnone, List.nil_append, hmap, ← hsplit, hback]
    · refine ⟨upTo (Record.early cutoff) back ++
        (lateChanges cutoff (front ++ upTo (Record.early cutoff) back) ++ changeRecords t).map .change, ?_, ?_⟩
      · rw [hall, hrest, changeRecords_append, changeRecords_map, ← List.append_assoc, List.map_append,
          List.append_assoc]
      · intro heq
        obtain ⟨hfront, hnil⟩ := hlen heq
        rw [hnil] at hpre
        obtain ⟨hm, rfl⟩ := List.append_eq_nil_iff.mp hpre.symm
        rw [hm, hfront]
        rfl

/-- The changes behind the last snapshot are behind the base. -/
lemma Planned.back_ends (h : Planned cutoff records s front back base) (before : List Record)
    {changes : List ChangeRecord} (hrec : records = before ++ changes.map .change) :
    ∃ pre, back = pre ++ changes.map .change := by
  rcases List.append_eq_append_iff.mp (h.whole.symm.trans hrec) with ⟨t, -, hback⟩ | ⟨t, hfront, hchanges⟩
  · exact ⟨t, hback⟩
  · -- the base is no change
    rcases List.eq_nil_or_concat' t with rfl | ⟨l, r, rfl⟩
    · exact ⟨[], hchanges.symm⟩
    · rcases h.base_eq with ⟨hnil, -⟩ | ⟨before', snap, hsnap, -⟩
      · simp [hnil] at hfront
      · have hr : r = .snapshot snap := by
          rw [hsnap, ← List.append_assoc] at hfront
          exact (List.singleton_injective (List.append_inj_right' hfront rfl)).symm
        have hmem : r ∈ changes.map Record.change := by
          rw [hchanges]
          simp
        rw [hr] at hmem
        simp at hmem

/-- Without late changes, the last change is the last one from before the cutoff. -/
lemma Planned.upTo_early (h : Planned cutoff records s front back base)
    (hlate : lateChanges cutoff records = []) :
    upTo (Record.early cutoff) back = upTo (fun r => !r.isSnapshot) back := by
  apply upTo_congr
  intro r hr
  cases r with
  | snapshot snap => rfl
  | change c =>
    have hmem : c ∈ changeRecords records := by
      rw [h.whole]
      exact mem_changeRecords.mpr (List.mem_append_right _ hr)
    rw [lateChanges, List.filter_eq_nil_iff] at hlate
    simpa [Record.early, Record.isSnapshot] using hlate c hmem

end

/-- The stamp of a replay: that of the last snapshot and the changes behind it. -/
lemma replayLog_stamp {records : List Record} {r : ReplayResult} {snap : Option Snapshot}
    {changes : List ChangeRecord} (h : replayLog records = .ok r) (hl : lastSnapshot records = (snap, changes)) :
    (changes.map Record.change).foldl Stamp.next (.start snap) = ⟨r.version, r.m⟩ := by
  rw [replayLog, hl] at h
  obtain ⟨hm, hv⟩ := applyChanges_stamp h
  rw [Stamp.next_changes, hm, hv]
  cases snap <;> rfl

section

variable {blake3 : Bytes → Bytes → Digest} {ser : Serializer} {bare : BareEncoder} {framer fr : Framer}
  {cutoff now : DateTime} {minDiffs : ℤ} {records front back : List Record} {s : Survey} {base : Option Snapshot}
  {content : Bytes} {plan : RotationPlan}

/-- **The stamp of the new file** is the one it shows. -/
lemma Planned.stamp (h : Planned cutoff records s front back base) {r' : ReplayResult}
    (hr' : s.replayed now minDiffs = .ok r') :
    shownStamp cutoff minDiffs records = ⟨r'.version, r'.m⟩ := by
  obtain ⟨hfront, hend, -⟩ := h.upTo_base
  rw [shownStamp, h.shown_eq, hfront, hend]
  rw [Survey.replayed, h.length_retained, h.retained] at hr'
  by_cases hmany : minDiffs ≤ (lateChanges cutoff records).length
  · obtain ⟨atLast, hrun⟩ := h.tracks.atLast
    rw [if_pos hmany] at hr'
    rw [if_pos (Or.inr hmany), Point.run_stamp hrun, ← Except.ok.inj hr']
  · obtain ⟨atCutoff, hrun, -⟩ := h.tracks.atCutoff
    rw [if_neg hmany] at hr'
    obtain ⟨hm, hv⟩ := applyChanges_stamp hr'
    rw [hm, hv]
    by_cases hnil : lateChanges cutoff records = []
    · rw [if_pos (Or.inl (by rw [hnil]; rfl)), ← h.upTo_early hnil, Point.run_stamp hrun, hnil]
      rfl
    · rw [if_neg (by simp [hnil]; omega), List.foldl_append, Point.run_stamp hrun, Stamp.next_changes]

/-- The plan keeps version and modification time: the new file can be replayed, and the last
snapshot carries no stamp that the new file would not show without it. -/
def KeepsStamp (cutoff : DateTime) (minDiffs : ℤ) (records : List Record) : Prop :=
  (minDiffs ≤ (lateChanges cutoff records).length ∨
      ∃ r y, replayLog (cutoffPrefix cutoff records) = .ok r ∧ Leads r.state (lateChanges cutoff records) y) ∧
    ∀ snap changes, lastSnapshot records = (some snap, changes) →
      (changes = [] → snap.v = (shownStamp cutoff minDiffs records).version) ∧
        (lastM changes = none → snap.m = (shownStamp cutoff minDiffs records).m)

variable (now) in
/-- The retained changes can be patched into the state at the cutoff, or a closing snapshot stands behind
them. -/
lemma Planned.replays_iff (h : Planned cutoff records s front back base) {state : Val}
    (hstate : s.p.stateAtCutoff = some state) : (∃ r', s.replayed now minDiffs = .ok r') ↔
      (minDiffs ≤ (lateChanges cutoff records).length ∨
        ∃ r y, replayLog (cutoffPrefix cutoff records) = .ok r ∧ Leads r.state (lateChanges cutoff records) y) := by
  obtain ⟨-, rc, hrc, hcsem, -⟩ := h.cutoff_state hstate
  rw [Survey.replayed, h.length_retained, h.retained, hstate, Option.getD_some]
  by_cases hmany : minDiffs ≤ (lateChanges cutoff records).length
  · rw [if_pos hmany]
    exact iff_of_true ⟨_, rfl⟩ (Or.inl hmany)
  · rw [if_neg hmany]
    constructor
    · rintro ⟨r', hr'⟩
      exact Or.inr ⟨rc, r'.state, hrc, Leads.congr_left ⟨r'.state, patchAll_of_foldlM hr', rfl⟩ hcsem.symm⟩
    · rintro (hmin | ⟨rc', y, hrc', hy⟩)
      · exact absurd hmin hmany
      · obtain rfl := Except.ok.inj (hrc.symm.trans hrc')
        obtain ⟨z, hz, -⟩ := hy.congr_left hcsem
        obtain ⟨r', hr', -⟩ := foldlM_applyChange
          (r := ⟨state, s.p.versionAtCutoff, false, some s.rotatedTs, s.p.mAtCutoff⟩) hz
        exact ⟨r', hr'⟩

variable (now) in
/-- The two replays show the same stamp, exactly when the plan keeps it. -/
lemma Planned.keepsStamp_iff (h : Planned cutoff records s front back base) (hc : Chronological records)
    {state : Val} {r : ReplayResult} (hstate : s.p.stateAtCutoff = some state) (hro : replayLog records = .ok r) :
    (∃ r', s.replayed now minDiffs = .ok r' ∧ r'.version = r.version ∧ r'.m = r.m) ↔
      KeepsStamp cutoff minDiffs records := by
  constructor
  · rintro ⟨r', hrn, hv, hm⟩
    refine ⟨(h.replays_iff now hstate).mp ⟨r', hrn⟩, ?_⟩
    intro snap changes hl
    have hstamp := replayLog_stamp hro hl
    rw [Stamp.next_changes] at hstamp
    obtain ⟨hv', hm'⟩ := Stamp.mk.inj hstamp
    rw [h.stamp hrn, hv, hm, ← hv', ← hm']
    constructor
    · rintro rfl
      rfl
    · intro hnone
      rw [hnone]
      rfl
  · rintro ⟨hpatch, hsnap⟩
    obtain ⟨r', hrn⟩ := (h.replays_iff now hstate).mpr hpatch
    refine ⟨r', hrn, ?_⟩
    have hshown := h.stamp hrn
    rcases records_split records with ⟨changes, hrec, hl⟩ | ⟨before, snap, changes, hrec, hl⟩
    · -- without a snapshot the new file shows all changes
      have hstamp := replayLog_stamp hro hl
      have hne : changes ≠ [] := by
        rintro rfl
        have hlast := h.last
        rw [hrec] at hlast
        simp [earlyChanges, changeRecords] at hlast
      obtain ⟨pre, hback⟩ := h.back_ends [] (by rw [List.nil_append, ← hrec])
      obtain ⟨shown, hs', hnil⟩ := h.shown_ends hc hback hne
      have hfront : upTo (Record.isBase cutoff) records = [] := by
        rw [hrec]
        exact upTo_append_of_none (l := []) fun r hr => by
          obtain ⟨c, -, rfl⟩ := List.mem_map.mp hr
          rfl
      rw [shownStamp, hs', hnil hrec, hfront, List.nil_append] at hshown
      have heq := Stamp.mk.inj (hshown.symm.trans hstamp)
      exact heq
    · have hstamp := replayLog_stamp hro hl
      rw [Stamp.next_changes] at hstamp
      obtain ⟨hv, hm⟩ := Stamp.mk.inj hstamp
      obtain ⟨hver, hmod⟩ := hsnap snap changes hl
      rw [hshown] at hver hmod
      dsimp only at hver hmod
      rw [← hv, ← hm]
      by_cases hne : changes = []
      · subst hne
        exact ⟨(hver rfl).symm, (hmod rfl).symm⟩
      obtain ⟨pre, hback⟩ := h.back_ends (before ++ [.snapshot snap]) (by simpa using hrec)
      obtain ⟨shown, hs', -⟩ := h.shown_ends hc hback hne
      rw [shownStamp, hs', List.foldl_append, Stamp.next_changes] at hshown
      obtain ⟨hv', hm'⟩ := Stamp.mk.inj hshown
      constructor
      · rw [← hv']
        obtain ⟨l, c, rfl⟩ := (List.eq_nil_or_concat' changes).resolve_left hne
        simp
      · by_cases hnone : lastM changes = none
        · rw [← hmod hnone, hnone]
          rfl
        · rw [← hm']
          obtain ⟨m, hm''⟩ := Option.ne_none_iff_exists'.mp hnone
          rw [hm'']
          rfl

/-- **When a rotation keeps version and modification time.** -/
theorem rotation_stamp_iff (hr : ∀ r ∈ records, Decodable ser fr r) (hload : framer.load content = .ok fr)
    (h : frameRecords blake3 ser fr 0 records = .ok content)
    (hs : PlanReadable blake3 ser bare framer content cutoff now minDiffs) (hc : Chronological records)
    (hplan : planRotation blake3 ser bare framer content cutoff now minDiffs = .ok (some plan)) :
    (∃ r r', replay blake3 ser framer content = .ok r ∧ replay blake3 ser framer plan.newContent = .ok r' ∧
        r'.version = r.version ∧ r'.m = r.m) ↔
      timestampOf ser (lastSnapshot records).1 = .ok () ∧ Resumable ser cutoff now minDiffs records ∧
        KeepsStamp cutoff minDiffs records := by
  obtain ⟨⟨s, front, back, base, lead, bodies, closing, hp⟩, -⟩ := exists_planFor hr hload h hs hplan
  obtain ⟨state, hstate, -⟩ := hp.file.leading
  obtain ⟨r, hlog, hold⟩ := hp.planned.replay_iff hr hload h
  rw [← hp.planned.keepsStamp_iff now hc hstate hlog]
  constructor
  · rintro ⟨r₁, r', hr₁, hr', hv, hm⟩
    obtain ⟨htime, rfl⟩ := (hold r₁).mp hr₁
    obtain ⟨hres, hr'⟩ := hp.replay_iff.mp hr'
    exact ⟨htime, hres, r', hr', hv, hm⟩
  · rintro ⟨htime, hres, r', hr', hv, hm⟩
    exact ⟨r, r', (hold r).mpr ⟨htime, rfl⟩, hp.replay_iff.mpr ⟨hres, hr'⟩, hv, hm⟩

end

/-- A migration that changed nothing has written a snapshot, and nothing has been written since: its
version is lost. -/
theorem rotation_forgets_version : ∃ content plan r r',
    frameRecords Sample.noHash Sample.dated .line 0
        [.change (Sample.change 1 0 1), .snapshot (Sample.shot 3 1 1)] = .ok content ∧
      planRotation Sample.noHash Sample.dated Sample.bare .line content (Sample.day 2) (Sample.day 3) 100 =
        .ok (some plan) ∧
      replay Sample.noHash Sample.dated .line content = .ok r ∧
      replay Sample.noHash Sample.dated .line plan.newContent = .ok r' ∧ r.version = 1 ∧ r'.version = 0 := by
  obtain ⟨run, hrun, hobs⟩ := Sample.exists_run
    [.change (Sample.change 1 0 1), .snapshot (Sample.shot 3 1 1)] (Sample.day 2) 100
    (fun run => run.old.version = 1 && run.new.version = 0) (by decide +kernel)
  obtain ⟨hcontent, hplan, hold, hnew⟩ := Sample.rotate_ok hrun
  simp only [Bool.and_eq_true, decide_eq_true_eq] at hobs
  exact ⟨run.content, run.plan, run.old, run.new, hcontent, hplan, hold, hnew, hobs.1, hobs.2⟩

/-- A change behind the snapshot keeps the version. -/
theorem rotation_stamp_behind : ∃ content plan r r',
    frameRecords Sample.noHash Sample.dated .line 0 [.change (Sample.change 1 0 1), .snapshot (Sample.shot 3 1 1),
        .change (Sample.change 3 1 2)] = .ok content ∧
      planRotation Sample.noHash Sample.dated Sample.bare .line content (Sample.day 2) (Sample.day 3) 100 =
        .ok (some plan) ∧
      replay Sample.noHash Sample.dated .line content = .ok r ∧
      replay Sample.noHash Sample.dated .line plan.newContent = .ok r' ∧ r'.version = r.version ∧ r'.m = r.m := by
  obtain ⟨run, hrun, -⟩ := Sample.exists_run [.change (Sample.change 1 0 1), .snapshot (Sample.shot 3 1 1),
    .change (Sample.change 3 1 2)] (Sample.day 2) 100 (fun _ => true) (by decide +kernel)
  obtain ⟨hcontent, hplan, -⟩ := Sample.rotate_ok hrun
  have hchron : Chronological [.change (Sample.change 1 0 1), .snapshot (Sample.shot 3 1 1),
      .change (Sample.change 3 1 2)] := by
    simp [Chronological, Record.ts, Sample.change, Sample.shot, Sample.day, Sample.ts, DateTime.le, DateTime.day]
  have hkeeps : KeepsStamp (Sample.day 2) 100 [.change (Sample.change 1 0 1), .snapshot (Sample.shot 3 1 1),
      .change (Sample.change 3 1 2)] := by
    refine ⟨Or.inr ⟨_, _, rfl, ⟨_, rfl, rfl⟩⟩, ?_⟩
    intro snap changes hl
    obtain ⟨hsnap, rfl⟩ := Prod.mk.inj hl
    rw [← Option.some.inj hsnap]
    exact ⟨fun _ => rfl, fun _ => rfl⟩
  have hresumes : Resumable Sample.dated (Sample.day 2) (Sample.day 3) 100 [.change (Sample.change 1 0 1),
      .snapshot (Sample.shot 3 1 1), .change (Sample.change 3 1 2)] :=
    ⟨fun c _ => c.ts.timestamp_total, _, rfl, rfl⟩
  obtain ⟨r, r', hr, hr', hv, hm⟩ := (rotation_stamp_iff (fun r _ => Sample.decodable_dated r) rfl hcontent
    (Sample.planReadable _ _ _ _) hchron hplan).mpr ⟨Sample.timely_dated _, hresumes, hkeeps⟩
  exact ⟨run.content, run.plan, r, r', hcontent, hplan, hr, hr', hv, hm⟩

end Kanta
