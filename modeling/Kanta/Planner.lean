import Kanta.Rotation

/-!
# What the planner asks of a file

The survey and the new file are the two parts of `plan_rotation` behind its scan.  When the records of
a file are decoded, the planner raises nothing exactly when they are `Plannable`.
-/

namespace Kanta

open Kanta.Lib

/-! ### What the planner replays -/

/-- Every diff applies to the state that those before it lead to, and every snapshot shows it. -/
def Accords (state : Val) : List Record → Prop
  | [] => True
  | .change c :: rest => ∃ next, applyDiff state c.diff.val = .ok next ∧ Accords next rest
  | .snapshot s :: rest => s.state.val.pyEq state = true ∧ Accords state rest

/-- Some change is before the cutoff. -/
def Early (cutoff : DateTime) (entries : List RotationEntry) : Prop :=
  ∃ c ∈ entries.filterMap RotationEntry.change, c.1.ts.lt cutoff = .ok true

/-- The times of all changes can be compared with the cutoff. -/
def Comparable (cutoff : DateTime) (entries : List RotationEntry) : Prop :=
  ∀ c ∈ entries.filterMap RotationEntry.change, ∃ b, c.1.ts.lt cutoff = .ok b

section

variable {cutoff : DateTime} {entries : List RotationEntry} {total : ℕ}

/-- The loop of the planner raises nothing on records that accord with each other. -/
lemma fold_iff_accords {records : List Record} {p : PlanState}
    (hc : ∀ c, .change c ∈ records → ∃ b, c.ts.lt cutoff = .ok b) :
    (∃ p', records.foldlM (planRecord cutoff) p = .ok p') ↔ Accords p.state records := by
  induction records generalizing p with
  | nil => exact iff_of_true ⟨p, rfl⟩ trivial
  | cons record records ih =>
    have ih := fun q => @ih q fun c hmem => hc c (List.mem_cons_of_mem _ hmem)
    rw [List.foldlM_cons]
    cases record with
    | snapshot snap =>
      rw [Accords, planRecord]
      cases hsnap : snap.state.val.pyEq p.state with
      | false => simp [bind, Except.bind]
      | true =>
        rw [if_neg (by simp)]
        exact (ih _).trans (by simp)
    | change c =>
      obtain ⟨early, hearly⟩ := hc c List.mem_cons_self
      rw [Accords, planRecord]
      cases happly : applyDiff p.state c.diff.val with
      | error e => simp [bind, Except.bind]
      | ok next =>
        rw [hearly]
        exact (ih _).trans (by simp)

/-- Behind an early change, or a base, the state at the cutoff is known. -/
lemma fold_known {records : List Record} {p p' : PlanState}
    (h : records.foldlM (planRecord cutoff) p = .ok p')
    (hknown : (∃ state, p.stateAtCutoff = some state) ∨ ∃ c, .change c ∈ records ∧ c.ts.lt cutoff = .ok true) :
    ∃ state, p'.stateAtCutoff = some state := by
  induction records generalizing p with
  | nil =>
    obtain rfl : p = p' := Except.ok.inj h
    simpa using hknown
  | cons record records ih =>
    rw [List.foldlM_cons] at h
    obtain ⟨q, hq, h⟩ := bind_eq_ok.mp h
    refine ih h ?_
    cases record with
    | snapshot snap =>
      rw [planRecord] at hq
      split at hq
      · simp at hq
      · obtain rfl := Except.ok.inj hq
        simpa using hknown
    | change c =>
      obtain ⟨next, -, hq⟩ := bind_eq_ok.mp hq
      obtain ⟨early, hearly, hq⟩ := bind_eq_ok.mp hq
      obtain rfl := Except.ok.inj hq
      rcases hknown with ⟨state, hstate⟩ | ⟨c', hmem, hc'⟩
      · refine Or.inl ?_
        dsimp only
        split
        · exact ⟨_, rfl⟩
        · exact ⟨_, hstate⟩
      · rcases List.mem_cons.mp hmem with heq | hmem
        · obtain rfl := Record.change.inj heq
          obtain rfl := Except.ok.inj (hc'.symm.trans hearly)
          exact Or.inl ⟨next, rfl⟩
        · exact Or.inr ⟨c', hmem, hc'⟩

lemma survey_comparable {found : Option Survey} (h : surveyEntries total cutoff entries = .ok found) :
    Comparable cutoff entries := by
  unfold surveyEntries at h
  dsimp only at h
  split at h
  · rename_i hempty
    intro c hc
    rw [List.isEmpty_iff.mp hempty] at hc
    simp at hc
  · obtain ⟨dropped, hdropped, -⟩ := bind_eq_ok.mp h
    exact (filterE_ok hdropped).1

lemma Comparable.early (h : Comparable cutoff entries) : ∀ c ∈ entries.filterMap RotationEntry.change,
    c.1.ts.lt cutoff = .ok (DateTime.early cutoff c.1.ts) := by
  intro c hc
  obtain ⟨b, hb⟩ := h c hc
  rw [hb, DateTime.early_of_lt hb]

lemma survey_none (h : Comparable cutoff entries) (hno : ¬Early cutoff entries) :
    surveyEntries total cutoff entries = .ok none := by
  unfold surveyEntries
  dsimp only
  split
  · rfl
  · rw [filterE_of_ok h.early, List.filter_eq_nil_iff.mpr ?_]
    · rfl
    · intro c hc hearly
      refine hno ⟨c, hc, ?_⟩
      rw [h.early c hc, hearly]

/-- The survey behind the choice of the changes. -/
lemma survey_early (h : Comparable cutoff entries) (hearly : Early cutoff entries) :
    ∃ retained cutoffEnd rotatedTs, surveyEntries total cutoff entries =
      findBase cutoff (newestFirst entries) >>= fun base =>
        (behindBase base entries).foldlM (planRecord cutoff) (.start (base.map Prod.fst)) >>= fun p =>
          .ok (some ⟨retained, cutoffEnd, rotatedTs, p⟩) := by
  obtain ⟨c, hc, hlt⟩ := hearly
  have hmem : c ∈ (entries.filterMap RotationEntry.change).filter fun c => DateTime.early cutoff c.1.ts :=
    List.mem_filter.mpr ⟨hc, DateTime.early_of_lt hlt⟩
  obtain ⟨last, hlast⟩ := List.getLast?_isSome.mpr (List.ne_nil_of_mem hmem) |> Option.isSome_iff_exists.mp
  have hlate : ∀ c ∈ entries.filterMap RotationEntry.change,
      cutoff.le c.1.ts = .ok (!DateTime.early cutoff c.1.ts) := fun c hc => DateTime.le_of_lt (h.early c hc)
  refine ⟨(entries.filterMap RotationEntry.change).filter fun c => !DateTime.early cutoff c.1.ts,
    (((entries.filterMap RotationEntry.change).filter fun c => !DateTime.early cutoff c.1.ts).head?.map
      Prod.snd).getD total, last.1.ts, ?_⟩
  unfold surveyEntries
  dsimp only
  rw [if_neg (by simpa [List.isEmpty_iff] using List.ne_nil_of_mem hc), filterE_of_ok h.early]
  simp only [filterE_of_ok hlate, hlast, bind, Except.bind]

lemma exists_of_mem_behindBase {base : Option (Snapshot × ℕ)} {c : ChangeRecord}
    (h : .change c ∈ behindBase base entries) : ∃ pos, (c, pos) ∈ entries.filterMap RotationEntry.change := by
  obtain ⟨e, he, hrecord⟩ := List.mem_map.mp h
  refine ⟨e.bytePos, List.mem_filterMap.mpr ⟨e, (List.mem_filter.mp he).1, ?_⟩⟩
  rw [RotationEntry.change, hrecord]

lemma mem_behindBase_none {c : ChangeRecord × ℕ} (h : c ∈ entries.filterMap RotationEntry.change) :
    .change c.1 ∈ behindBase none entries := by
  obtain ⟨e, he, hc⟩ := List.mem_filterMap.mp h
  refine List.mem_map.mpr ⟨e, List.mem_filter.mpr ⟨he, rfl⟩, ?_⟩
  rw [RotationEntry.change] at hc
  split at hc
  · rename_i c' hrecord
    obtain rfl := Option.some.inj hc
    exact hrecord
  · simp at hc

/-- The changes from the base on, and the snapshots between them, accord with each other. -/
def Based (cutoff : DateTime) (entries : List RotationEntry) : Prop :=
  ∃ base, findBase cutoff (newestFirst entries) = .ok base ∧
    Accords (PlanState.start (base.map Prod.fst)).state (behindBase base entries)

/-- When the survey raises nothing. -/
lemma survey_ok_iff (total : ℕ) : (∃ found, surveyEntries total cutoff entries = .ok found) ↔
    Comparable cutoff entries ∧ (Early cutoff entries → Based cutoff entries) := by
  by_cases hc : Comparable cutoff entries
  case neg => exact iff_of_false (fun ⟨found, h⟩ => hc (survey_comparable h)) fun h => hc h.1
  by_cases hearly : Early cutoff entries
  case neg => exact iff_of_true ⟨none, survey_none hc hearly⟩ ⟨hc, fun h => (hearly h).elim⟩
  obtain ⟨retained, cutoffEnd, rotatedTs, hsurvey⟩ := @survey_early _ _ total hc hearly
  have hfold := fun base p => @fold_iff_accords cutoff (behindBase base entries) p fun c hmem => by
    obtain ⟨pos, hpos⟩ := exists_of_mem_behindBase hmem
    exact hc _ hpos
  rw [hsurvey]
  constructor
  · rintro ⟨found, h⟩
    obtain ⟨base, hbase, h⟩ := bind_eq_ok.mp h
    obtain ⟨p, hp, -⟩ := bind_eq_ok.mp h
    exact ⟨hc, fun _ => ⟨base, hbase, (hfold _ _).mp ⟨p, hp⟩⟩⟩
  · rintro ⟨-, h⟩
    obtain ⟨base, hbase, haccords⟩ := h hearly
    obtain ⟨p, hp⟩ := (hfold _ _).mpr haccords
    exact ⟨_, bind_eq_ok.mpr ⟨base, hbase, bind_eq_ok.mpr ⟨p, hp, rfl⟩⟩⟩

/-- When there is something to rotate, the state at the cutoff is known. -/
lemma survey_known {s : Survey} (h : surveyEntries total cutoff entries = .ok (some s)) :
    ∃ state, s.p.stateAtCutoff = some state := by
  have hc := survey_comparable h
  by_cases hearly : Early cutoff entries
  case neg =>
    rw [survey_none hc hearly] at h
    simp at h
  obtain ⟨retained, cutoffEnd, rotatedTs, hsurvey⟩ := @survey_early _ _ total hc hearly
  rw [hsurvey] at h
  obtain ⟨base, -, h⟩ := bind_eq_ok.mp h
  obtain ⟨p, hp, h⟩ := bind_eq_ok.mp h
  obtain rfl := Option.some.inj (Except.ok.inj h)
  refine fold_known hp ?_
  cases base with
  | some b => exact Or.inl ⟨_, rfl⟩
  | none =>
    obtain ⟨c, hmem, hlt⟩ := hearly
    exact Or.inr ⟨c.1, mem_behindBase_none hmem, hlt⟩

end

/-! ### When it raises nothing -/

section

variable {blake3 : Bytes → Bytes → Digest} {ser : Serializer} {bare : BareEncoder} {framer : Framer}
  {content : Bytes} {cutoff now : DateTime} {minDiffs : ℤ}

variable (blake3 ser bare framer content cutoff now minDiffs) in
/-- The condition on the records of the file, for the planner to raise nothing: the changes can be compared
with the cutoff, and when one is before it, the history from the base on is sound, and the new file can
be written. -/
structure Plannable (entries : List RotationEntry) : Prop where
  comparable : Comparable cutoff entries
  based : Early cutoff entries → Based cutoff entries
  written : ∀ s state, surveyEntries content.length cutoff entries = .ok (some s) → s.p.stateAtCutoff = some state →
    ∃ out, planContent blake3 ser bare (framer.reload content) now minDiffs s = .ok out

/-- When the planner raises nothing behind the scan. -/
lemma planRotation_scanned {entries : List RotationEntry}
    (hentries : scanEntries blake3 ser framer content = .ok entries) :
    (∃ plan, planRotation blake3 ser bare framer content cutoff now minDiffs = .ok plan) ↔
      Plannable blake3 ser bare framer content cutoff now minDiffs entries := by
  have hsurvey := @survey_ok_iff cutoff entries content.length
  by_cases hne : content = []
  · subst hne
    have hnil : scanEntries blake3 ser framer [] = .ok [] := by cases framer <;> rfl
    obtain rfl := Except.ok.inj (hnil.symm.trans hentries)
    refine iff_of_true ⟨none, rfl⟩ ⟨by simp [Comparable], by simp [Early], fun s state hs => ?_⟩
    have hs : Except.ok none = Except.ok (some s) := hs
    simp at hs
  unfold planRotation
  rw [if_neg hne, hentries]
  constructor
  · rintro ⟨plan, h⟩
    obtain ⟨entries', he, h⟩ := bind_eq_ok.mp h
    obtain rfl := Except.ok.inj he
    obtain ⟨found, hfound, h⟩ := bind_eq_ok.mp h
    obtain ⟨hc, hbased⟩ := hsurvey.mp ⟨found, hfound⟩
    refine ⟨hc, hbased, fun s state hs _ => ?_⟩
    obtain rfl := Except.ok.inj (hfound.symm.trans hs)
    obtain ⟨out, hout, -⟩ := bind_eq_ok.mp h
    exact ⟨out, hout⟩
  · intro h
    obtain ⟨found, hfound⟩ := hsurvey.mpr ⟨h.comparable, h.based⟩
    cases found with
    | none => exact ⟨none, bind_eq_ok.mpr ⟨entries, rfl, bind_eq_ok.mpr ⟨none, hfound, rfl⟩⟩⟩
    | some s =>
      obtain ⟨state, hstate⟩ := survey_known hfound
      obtain ⟨out, hout⟩ := h.written s state hfound hstate
      exact ⟨_, bind_eq_ok.mpr ⟨entries, rfl, bind_eq_ok.mpr ⟨some s, hfound, bind_eq_ok.mpr ⟨out, hout, rfl⟩⟩⟩⟩

end

end Kanta
