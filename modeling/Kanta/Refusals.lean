import Kanta.Lib.Raises
import Kanta.Planner
import Kanta.Rotated

/-!
# What the planner raises

`plan_rotation` means to raise a `DatabaseError` when the history of a file is corrupt.  Only the
framer does: a record that cannot be decoded, a diff that does not apply and a time that cannot be
compared each come out as what they are, and `DatabaseError` does not take the argument with which
the planner would raise it.  `plan_clean_iff` says on which files the planner raises nothing else.
-/

namespace Kanta

open Kanta.Lib

/-! ### What is not raised -/

/-- No exception of this package. -/
def Exc.Foreign (e : Exc) : Prop := e.isDatabaseError = false

lemma foreign_iterate (v : Val) : Raises Exc.Foreign (iterate v) := by
  cases v <;> first | exact .ok _ | exact .error rfl

lemma foreign_toIndex (v : Val) : Raises Exc.Foreign (toIndex v) := by
  cases v with
  | int n =>
    rw [toIndex]
    split
    · exact .ok _
    · exact .error rfl
  | bool => exact .ok _
  | _ => exact .error rfl

lemma foreign_position (result : List Val) (i : ℤ) : Raises Exc.Foreign (position result i) := by
  unfold position
  dsimp only
  split <;> split <;> first | exact .ok _ | exact .error rfl

lemma foreign_listDeletes (diff : List (String × Val)) (result : List Val) :
    Raises Exc.Foreign (listDeletes diff result) := by
  unfold listDeletes
  split
  · exact .ok _
  · split
    · refine .bind (foreign_iterate _) fun deletes _ => .foldlM (fun result pos _ => ?_) _
      exact .bind (foreign_toIndex pos) fun i _ => .bind (foreign_position result i) fun j _ => .ok _
    · exact .ok _

lemma foreign_listInserts (diff : List (String × Val)) (result : List Val) :
    Raises Exc.Foreign (listInserts diff result) := by
  refine .bind (foreign_iterate _) fun inserts _ => .foldlM (fun result item _ => ?_) _
  refine .bind (.bind (foreign_iterate item) fun items _ => ?_) fun pair _ => ?_
  · split
    · exact .ok _
    · exact .error rfl
  · exact .bind (foreign_toIndex _) fun i _ => .ok _

lemma foreign_dictPop (result : List (String × Val)) (k : Val) : Raises Exc.Foreign (dictPop result k) := by
  unfold dictPop
  split
  · exact .ok _
  · split <;> first | exact .ok _ | exact .error rfl

mutual
lemma foreign_rawApply (state diff : Val) : Raises Exc.Foreign (rawApply state diff) := by
  cases diff with
  | dict diff =>
    have hitems : ∀ kvs, Raises Exc.Foreign (Val.dict <$> applyItems diff kvs) := fun kvs =>
      .map (foreign_applyItems diff kvs)
    unfold rawApply
    split
    · exact .ok _
    · split
      · exact .ok _
      · split
        · split
          · refine .bind (foreign_listDeletes diff _) fun result _ => ?_
            refine .bind (foreign_listInserts diff result) fun result _ => ?_
            exact .map (foreign_applyIndices diff result)
          · exact .ok _
        · exact hitems _
        · exact hitems _
  | _ =>
    rw [rawApply]
    · exact .ok _
    · simp
lemma foreign_applyIndices (diff : List (String × Val)) (result : List Val) :
    Raises Exc.Foreign (applyIndices diff result) := by
  cases diff with
  | nil => exact .ok _
  | cons p rest =>
    obtain ⟨key, value⟩ := p
    rw [applyIndices]
    split
    · exact foreign_applyIndices rest result
    · split
      · exact .error rfl
      · refine .bind (foreign_position result _) fun j _ => ?_
        exact .bind (foreign_rawApply _ value) fun new _ => foreign_applyIndices rest _
lemma foreign_applyItems (diff result : List (String × Val)) : Raises Exc.Foreign (applyItems diff result) := by
  cases diff with
  | nil => exact .ok _
  | cons p rest =>
    obtain ⟨key, value⟩ := p
    rw [applyItems]
    split
    · refine .bind (.foldlM (fun result k _ => foreign_dictPop result k) _) fun result _ => ?_
      exact foreign_applyItems rest result
    · split
      · exact foreign_applyItems rest result
      · split
        · exact .bind (foreign_rawApply _ value) fun new _ => foreign_applyItems rest _
        · exact foreign_applyItems rest _
end

/-- A diff that does not apply is no `DatabaseError`. -/
lemma foreign_applyDiff (state diff : Val) : Raises Exc.Foreign (applyDiff state diff) := foreign_rawApply _ _

lemma foreign_lt (a b : DateTime) : Raises Exc.Foreign (a.lt b) := by
  unfold DateTime.lt
  split <;> first | exact .ok _ | exact .error rfl

lemma foreign_le (a b : DateTime) : Raises Exc.Foreign (a.le b) := by
  unfold DateTime.le
  split <;> first | exact .ok _ | exact .error rfl

lemma foreign_filterE {α : Type} {p : α → Except Exc Bool} (h : ∀ x, Raises Exc.Foreign (p x)) (l : List α) :
    Raises Exc.Foreign (filterE p l) := by
  induction l with
  | nil => exact .ok _
  | cons x l ih => exact .bind (h x) fun _ _ => .bind ih fun _ _ => .ok _

lemma foreign_findBase (cutoff : DateTime) (snapshots : List (Snapshot × ℕ)) :
    Raises Exc.Foreign (findBase cutoff snapshots) := by
  induction snapshots with
  | nil => exact .ok _
  | cons s older ih =>
    rw [findBase]
    refine .bind (foreign_le _ _) fun b _ => ?_
    split
    · exact .ok _
    · exact ih

lemma foreign_planRecord (cutoff : DateTime) (p : PlanState) (record : Record) :
    Raises Exc.Foreign (planRecord cutoff p record) := by
  cases record with
  | snapshot snap =>
    rw [planRecord]
    split
    · exact .error rfl
    · exact .ok _
  | change c =>
    exact .bind (foreign_applyDiff _ _) fun _ _ => .bind (foreign_lt _ _) fun _ _ => .ok _

/-! ### The errors of the planner -/

section

variable (blake3 : Bytes → Bytes → Digest) (ser : Serializer) (bare : BareEncoder) (framer : Framer)
  (content : Bytes) (cutoff now : DateTime) (minDiffs : ℤ)

/-- The serializer raises no exception of this package. -/
structure ForeignCodec : Prop where
  encode : ∀ r, Raises Exc.Foreign (ser.encode r)
  decode : ∀ isSnapshot payload, Raises Exc.Foreign (ser.decode isSnapshot payload)
  bare : ∀ ts v state m, Raises Exc.Foreign (bare ts v state m)

/-- A snapshot behind the base differs from the state that the changes before it lead to. -/
def Mismatch (cutoff : DateTime) (entries : List RotationEntry) : Prop :=
  Early cutoff entries ∧ ∃ base before snap after state, findBase cutoff (newestFirst entries) = .ok base ∧
    behindBase base entries = before ++ .snapshot snap :: after ∧
    patchAll (PlanState.start (base.map Prod.fst)).state (changeRecords before) = .ok state ∧
    snap.state.val.pyEq state = false

/-- The planner raises a `DatabaseError` and nothing else, and it does on a mismatch. -/
structure Graceful : Prop where
  raises : Raises (fun e => e.isDatabaseError = true)
    (planRotation blake3 ser bare framer content cutoff now minDiffs)
  mismatch : ∀ entries, scanEntries blake3 ser framer content = .ok entries → Mismatch cutoff entries →
    ∃ e, planRotation blake3 ser bare framer content cutoff now minDiffs = .error e ∧ e.isDatabaseError = true

/-- The condition on the file. -/
inductive Plans : Prop
  | empty (h : content = [])
  | rejected (e : Exc) (h : (framer.iterRecords blake3 content 0).error = some e) (he : e.isDatabaseError = true)
  | decoded (entries : List RotationEntry) (h : scanEntries blake3 ser framer content = .ok entries)
      (hp : Plannable blake3 ser bare framer content cutoff now minDiffs entries)

variable {blake3 ser bare framer content cutoff now minDiffs}

lemma foreign_toBytes (n width : ℕ) : Raises Exc.Foreign (toBytes n width) := by
  unfold toBytes
  split <;> first | exact .ok _ | exact .error rfl

lemma foreign_frame (framer : Framer) (isSnapshot : Bool) (payload : Bytes) (offset : ℕ) :
    Raises Exc.Foreign (framer.frame blake3 isSnapshot payload offset) := by
  cases framer with
  | line => exact .ok _
  | bin sync =>
    refine .bind (.bind (foreign_toBytes _ _) fun _ _ => .ok _) fun _ _ => ?_
    exact .bind (foreign_toBytes _ _) fun _ _ => .ok _

lemma ForeignCodec.frameRecords (h : ForeignCodec ser bare) (framer : Framer) (offset : ℕ) (records : List Record) :
    Raises Exc.Foreign (frameRecords blake3 ser framer offset records) := by
  induction records generalizing offset with
  | nil => exact .ok _
  | cons record records ih =>
    refine .bind (h.encode record) fun payload _ => .bind (foreign_frame _ _ _ _) fun framed _ => ?_
    exact .bind (ih _) fun _ _ => .ok _

lemma ForeignCodec.encodeState (h : ForeignCodec ser bare) (ts : DateTime) (v : ℤ) (state : Val)
    (m : Option DateTime) : Raises Exc.Foreign (encodeState ser bare ts v state m) := by
  unfold Kanta.encodeState
  split
  · exact h.encode (.snapshot _)
  · exact h.bare _ _ _ _

lemma ForeignCodec.planContent (h : ForeignCodec ser bare) (framer : Framer) (s : Survey) :
    Raises Exc.Foreign (planContent blake3 ser bare framer now minDiffs s) := by
  refine .bind ?_ fun leading _ => .bind (foreign_frame _ _ _ _) fun head _ => .bind (h.frameRecords _ _ _) fun body _ =>
    .bind ?_ fun _ _ => .ok _
  · unfold Survey.leading
    split
    · exact h.encodeState _ _ _ _
    · exact .error rfl
  · unfold Survey.closing
    split
    · exact .bind (h.encodeState _ _ _ _) fun _ _ => foreign_frame _ _ _ _
    · exact .ok _

lemma foreign_surveyEntries (total : ℕ) (cutoff : DateTime) (entries : List RotationEntry) :
    Raises Exc.Foreign (surveyEntries total cutoff entries) := by
  unfold surveyEntries
  dsimp only
  split
  · exact .ok _
  · refine .bind (foreign_filterE (fun _ => foreign_lt _ _) _) fun dropped _ => ?_
    split
    · exact .ok _
    · refine .bind (foreign_filterE (fun _ => foreign_le _ _) _) fun retained _ => ?_
      refine .bind (foreign_findBase _ _) fun base _ => ?_
      exact .bind (.foldlM (fun _ _ _ => foreign_planRecord _ _ _) _) fun _ _ => .ok _

lemma ForeignCodec.decodeEntries (h : ForeignCodec ser bare) (total : ℕ) (raws : List RawRecord) :
    Raises Exc.Foreign (decodeEntries ser total raws) := by
  induction raws with
  | nil => exact .ok _
  | cons raw raws ih => exact .bind (h.decode _ _) fun _ _ => .bind ih fun _ _ => .ok _

lemma binLoop_rejects {sync : Sync} {fuel pos : ℕ} {rest : Bytes} {e : Exc} (hlen : pos + rest.length < 256 ^ 8)
    (h : (binLoop blake3 sync fuel rest pos).error = some e) : e.isDatabaseError = true := by
  induction fuel generalizing rest pos with
  | zero => simp [binLoop] at h
  | succ fuel ih =>
    have hrejected : ∀ {e' : Exc}, e'.isDatabaseError = true → some e' = some e → e.isDatabaseError = true :=
      fun he' heq => Option.some.inj heq ▸ he'
    rw [binLoop] at h
    split at h
    · simp at h
    split at h
    · exact hrejected rfl h
    split at h
    · exact hrejected rfl h
    dsimp only at h
    split at h
    · exact hrejected rfl h
    split at h
    · exact hrejected rfl h
    rename_i hwhole
    split at h
    · rename_i e' hsum
      rw [checksum, toBytes, if_pos (by omega)] at hsum
      simp [bind, Except.bind] at hsum
    · split at h
      · exact hrejected rfl h
      · exact ih (by rw [List.length_drop]; omega) h

/-- The framer rejects a file with a `ReplayError`, as long as offsets fit into eight bytes. -/
lemma iterRecords_rejects {e : Exc} (hlen : content.length < 256 ^ 8)
    (h : (framer.iterRecords blake3 content 0).error = some e) : e.isDatabaseError = true := by
  cases framer with
  | line => simp [Framer.iterRecords] at h
  | bin sync =>
    rw [Framer.iterRecords] at h
    split at h
    · simp at h
    · split at h
      · exact binLoop_rejects (by rw [List.length_drop]; simp; omega) h
      · simp at h
      · rename_i e' hload
        obtain rfl := Option.some.inj h
        rw [Framer.load] at hload
        split at hload
        · simp at hload
        · split at hload
          · rw [← Except.error.inj hload]
            rfl
          · simp at hload

/-- A history that accords with the base has no mismatch. -/
lemma Accords.shows {before after : List Record} {snap : Snapshot} {x z : Val}
    (h : Accords x (before ++ .snapshot snap :: after)) (hz : patchAll x (changeRecords before) = .ok z) :
    snap.state.val.pyEq z = true := by
  induction before generalizing x with
  | nil =>
    obtain rfl : x = z := Except.ok.inj hz
    exact h.1
  | cons record before ih =>
    cases record with
    | snapshot s => exact ih h.2 hz
    | change c =>
      obtain ⟨next, hnext, h⟩ := h
      obtain ⟨y, hy, hz⟩ := bind_eq_ok.mp hz
      obtain rfl := Except.ok.inj (hnext.symm.trans hy)
      exact ih h hz

lemma ForeignCodec.scanned (h : ForeignCodec ser bare) {entries : List RotationEntry}
    (hentries : scanEntries blake3 ser framer content = .ok entries) :
    Raises Exc.Foreign (planRotation blake3 ser bare framer content cutoff now minDiffs) := by
  unfold planRotation
  split
  · exact .ok _
  · rw [hentries]
    refine .bind (.ok entries) fun entries _ => .bind (foreign_surveyEntries _ _ _) fun found _ => ?_
    cases found with
    | none => exact .ok _
    | some s => exact .bind (h.planContent _ _) fun _ _ => .ok _

/-- On a mismatch the planner raises something. -/
lemma Mismatch.not_based {entries : List RotationEntry} (h : Mismatch cutoff entries) : ¬Based cutoff entries := by
  obtain ⟨-, base, before, snap, after, state, hbase, hbehind, hstate, hdiffers⟩ := h
  rintro ⟨base', hbase', haccords⟩
  obtain rfl := Except.ok.inj (hbase.symm.trans hbase')
  rw [hbehind] at haccords
  rw [haccords.shows hstate] at hdiffers
  simp at hdiffers

/-- A planner that raises only a `DatabaseError` does so on a mismatch. -/
lemma graceful_iff : Graceful blake3 ser bare framer content cutoff now minDiffs ↔
    Raises (fun e => e.isDatabaseError = true) (planRotation blake3 ser bare framer content cutoff now minDiffs) := by
  refine ⟨Graceful.raises, fun h => ⟨h, fun entries hentries hmis => ?_⟩⟩
  cases hplan : planRotation blake3 ser bare framer content cutoff now minDiffs with
  | error e => exact ⟨e, rfl, h e hplan⟩
  | ok plan => exact (hmis.not_based (((planRotation_scanned hentries).mp ⟨plan, hplan⟩).based hmis.1)).elim

/-- **When the planner fails only with a `DatabaseError`**: when the framer rejects the file, or nothing
fails at all. -/
theorem plan_clean_iff (hcodec : ForeignCodec ser bare) :
    Graceful blake3 ser bare framer content cutoff now minDiffs ↔
      Plans blake3 ser bare framer content cutoff now minDiffs := by
  rw [graceful_iff]
  by_cases hne : content = []
  · have hplan : planRotation blake3 ser bare framer content cutoff now minDiffs = .ok none := if_pos hne
    exact iff_of_true (hplan ▸ .ok _) (.empty hne)
  cases hscan : (framer.iterRecords blake3 content 0).error with
  | some e =>
    have hentries : scanEntries blake3 ser framer content = .error e := by rw [scanEntries, hscan]
    have hplan : planRotation blake3 ser bare framer content cutoff now minDiffs = .error e := by
      rw [planRotation, if_neg hne, hentries]
      rfl
    rw [hplan]
    constructor
    · exact fun h => .rejected e hscan (h e rfl)
    · rintro (hempty | ⟨e', hscan', he'⟩ | ⟨entries, hentries', -⟩)
      · exact (hne hempty).elim
      · obtain rfl := Option.some.inj (hscan.symm.trans hscan')
        exact .error he'
      · simp [hentries] at hentries'
  | none =>
    have hdecode : scanEntries blake3 ser framer content =
        decodeEntries ser content.length (framer.iterRecords blake3 content 0).records := by rw [scanEntries, hscan]
    have hforeign : ∀ e, Exc.Foreign e → ¬e.isDatabaseError = true := fun e he => by simpa [Exc.Foreign] using he
    cases hentries : scanEntries blake3 ser framer content with
    | error e =>
      have he : Exc.Foreign e := hcodec.decodeEntries _ _ e (hdecode ▸ hentries)
      have hplan : planRotation blake3 ser bare framer content cutoff now minDiffs = .error e := by
        rw [planRotation, if_neg hne, hentries]
        rfl
      rw [hplan]
      refine iff_of_false (fun h => hforeign e he (h e rfl)) ?_
      rintro (hempty | ⟨e', hscan', -⟩ | ⟨entries, hentries', -⟩)
      · exact hne hempty
      · simp [hscan] at hscan'
      · simp [hentries] at hentries'
    | ok entries =>
      rw [(hcodec.scanned hentries).iff_ok hforeign, planRotation_scanned hentries]
      constructor
      · exact .decoded entries hentries
      · rintro (hempty | ⟨e', hscan', -⟩ | ⟨entries', hentries', hp⟩)
        · exact (hne hempty).elim
        · simp [hscan] at hscan'
        · rwa [Except.ok.inj (hentries.symm.trans hentries')]

end

namespace Sample

/-- A change on day 1 and one on day 3. -/
def inOrder : List Record := [.change (change 1 0 1), .change (change 3 0 2)]

/-- A change to 1, and a snapshot of 2 behind it. -/
def mismatched : List Record := [.change (change 1 0 1), .snapshot (shot 3 0 2)]

/-- A snapshot of an earlier rotation, and a change behind it for which the clock went back. -/
def wentBack : List Record := [.snapshot (shot 3 0 1), .change (change 1 0 2)]

/-- What is raised in place of a `DatabaseError`. -/
def noAction : String := "DatabaseError.__init__() got an unexpected keyword argument 'action'"

lemma foreign_json {front back : Bytes} {d : Dict} : Raises Exc.Foreign (json front d back) := by
  unfold json
  split
  · split <;> first | exact .ok _ | exact .error rfl
  · exact .error rfl

lemma foreign_decode {α : Type} (encode : α → Except Exc Bytes) (records : List α) (payload : Bytes) :
    Raises Exc.Foreign (decode encode records payload) := by
  unfold decode
  split <;> first | exact .ok _ | exact .error rfl

/-- The serializer of the sample raises nothing of this package. -/
lemma foreignCodec : ForeignCodec dated bare where
  encode r := by
    cases r with
    | change c =>
      show Raises Exc.Foreign (encodeDatedChange c)
      unfold encodeDatedChange
      split
      · split <;> first | exact foreign_json | exact .error rfl
      · exact .error rfl
    | snapshot s =>
      show Raises Exc.Foreign (encodeDatedSnapshot s)
      unfold encodeDatedSnapshot
      split
      · split <;> first | exact foreign_json | exact .error rfl
      · exact .error rfl
  decode isSnapshot payload := by
    unfold Serializer.decode
    split <;> exact .map (foreign_decode _ _ _)
  bare _ _ _ _ := .error rfl

/-- The text of a `TypeError`. -/
def typeErrorOf {α : Type} : Except Exc α → Option String
  | .error (.typeError message) => some message
  | _ => none

lemma eq_typeError {α : Type} {x : Except Exc α} {message : String} (h : typeErrorOf x = some message) :
    x = .error (.typeError message) := by
  unfold typeErrorOf at h
  split at h
  · rw [Option.some.inj h]
  · simp at h

/-- What is raised when a text file is to be rotated, with day 2 as the cutoff. -/
def refusal (records : List Record) : Option String := do
  let content ← (frameRecords noHash dated .line 0 records).toOption
  typeErrorOf (planRotation noHash dated bare .line content (day 2) (day 3) 100)

lemma exists_refusal {records : List Record} {message : String} (h : refusal records = some message) :
    ∃ content, frameRecords noHash dated .line 0 records = .ok content ∧
      planRotation noHash dated bare .line content (day 2) (day 3) 100 = .error (.typeError message) := by
  obtain ⟨content, hcontent, h⟩ := Option.bind_eq_some_iff.mp h
  exact ⟨content, eq_ok_of_toOption hcontent, eq_typeError h⟩

end Sample

open Sample in
/-- A file whose changes are in order. -/
theorem plan_clean_in_order : ∃ content,
    frameRecords noHash dated .line 0 inOrder = .ok content ∧
      Plans noHash dated bare .line content (day 2) (day 3) 100 := by
  obtain ⟨run, hrun, -⟩ := exists_run inOrder (day 2) 100 (fun _ => true)
    (by decide +kernel)
  obtain ⟨hcontent, hplan, -⟩ := rotate_ok hrun
  refine ⟨run.content, hcontent, (plan_clean_iff foreignCodec).mp (graceful_iff.mpr ?_)⟩
  rw [hplan]
  exact .ok _

open Sample in
/-- **A mismatch is met with a `TypeError`.** -/
theorem mismatch_untold : ∃ content,
    frameRecords noHash dated .line 0 mismatched = .ok content ∧
      planRotation noHash dated bare .line content (day 2) (day 3) 100 =
        .error (.typeError noAction) ∧
      ¬Graceful noHash dated bare .line content (day 2) (day 3) 100 := by
  obtain ⟨content, hcontent, hplan⟩ := exists_refusal
    (show refusal mismatched = some noAction by decide +kernel)
  exact ⟨content, hcontent, hplan, fun h => by simpa [Exc.isDatabaseError] using h.raises _ hplan⟩

end Kanta
