import Kanta.Ranges

/-!
# What a range specification selects

A specification is a range of lines, or a single change, line, snapshot or version, which must be there.
A single snapshot is shown as it stands in the file, without a replay; in a text file this is the state
that a replay up to it ends in (`selectedState_eq`).
-/

namespace Kanta

open Kanta.Lib Kanta.Lib.Assoc

/-! ### Single items -/

/-- What `select` raises: `RangeNotFoundError` with its message, or something else. -/
inductive SelectError where
  | rangeNotFound (message : String)
  | raised (e : Exc)

/-- `SnapshotEvent`: a snapshot at its place in the file. -/
structure SnapshotEvent where
  lineNumber : ℕ
  bytePos : ℕ
  recordIndex : ℕ
  snap : Snapshot

def SnapshotEvent.event (shown : SnapshotEvent) : FileEvent :=
  ⟨shown.lineNumber, shown.bytePos, shown.recordIndex, .snapshot shown.snap⟩

/-- The event, if `isinstance(event, SnapshotEvent)`. -/
def FileEvent.snapshotEvent (event : FileEvent) : Option SnapshotEvent :=
  match event.record with
  | .snapshot snap => some ⟨event.lineNumber, event.bytePos, event.recordIndex, snap⟩
  | .change _ => none

lemma FileEvent.snapshotEvent_eq_some {event : FileEvent} {shown : SnapshotEvent} :
    event.snapshotEvent = some shown ↔ event = shown.event := by
  obtain ⟨lineNumber, bytePos, recordIndex, record⟩ := event
  cases record with
  | snapshot snap =>
    refine Option.some_inj.trans ⟨fun h => h ▸ rfl, fun h => ?_⟩
    obtain ⟨rfl, rfl, rfl, hsnap⟩ := FileEvent.mk.inj h
    obtain rfl := Record.snapshot.inj hsnap
    rfl
  | change c =>
    constructor
    · rintro ⟨⟩
    · intro h
      cases (FileEvent.mk.inj h).2.2.2

/-- `Selection`. -/
structure Selection where
  startLine : ℕ
  endLine : ℕ
  snapshot : Option SnapshotEvent := none

/-- `_version_lines`, in the order of the keys. -/
def versionLines (events : List FileEvent) : List (ℤ × ℕ) :=
  events.foldl (fun lines event =>
    if (lines.lookup event.record.version).isSome then lines
    else put event.record.version event.lineNumber lines) [(0, 0)]

/-- `_event_at_line`. -/
def eventAtLine (events : List FileEvent) (line : ℕ) : Option FileEvent :=
  events.find? fun event => event.lineNumber = line

/-- `_plural`. -/
def plural (count : ℕ) (word : String) : String := toString count ++ " " ++ word ++ if count = 1 then "" else "s"

/-- The index `value` of a list of `n` elements, if there is one. -/
def indexOf (n : ℕ) (value : ℤ) : Option ℕ :=
  let index := if value < 0 then n + value else value
  if 0 ≤ index ∧ index < n then some index.toNat else none

section

variable (repr : String → String) (spec : String) (events : List FileEvent)

/-- `select` on `sN`. -/
def selectSnapshot (value : ℤ) : Except SelectError Selection :=
  let lines := snapshotLines events
  let count := plural (events.filter fun event => event.record.isSnapshot).length "snapshot"
  match indexOf lines.length value with
  | none => .error (.rangeNotFound ("Snapshot " ++ repr spec ++ " not found in file (" ++ count ++ ")"))
  | some index =>
    match eventAtLine events (lines.getD index 0) with
    | none =>
      .error (.rangeNotFound ("Snapshot " ++ repr spec ++
        " not found in file: the file starts with an empty initial state (" ++ count ++ ")"))
    | some event =>
      match event.snapshotEvent with
      | some shown => .ok ⟨event.lineNumber, event.lineNumber + 1, some shown⟩
      | none => .error (.raised (.runtimeError "AssertionError"))

/-- `select` on `lN`. -/
def selectLine (value : ℤ) : Except SelectError Selection :=
  if value < 0 then .error (.raised .valueError)
  else
    match eventAtLine events value.toNat with
    | none =>
      .error (.rangeNotFound ("Line " ++ repr spec ++ " not found in file (" ++
        plural ((events.getLast?.map FileEvent.lineNumber).getD 0) "line" ++ ")"))
    | some event =>
      match event.snapshotEvent with
      | some shown => .ok ⟨value.toNat, value.toNat + 1, some shown⟩
      | none => .ok ⟨value.toNat, value.toNat + 1, none⟩

/-- `select` on `vN`. -/
def selectVersion (value : ℤ) : Except SelectError Selection :=
  if value < 0 then .error (.raised .valueError)
  else
    let lines := versionLines events
    match lines.lookup value with
    | none =>
      .error (.rangeNotFound ("Version " ++ repr spec ++ " not found in file (" ++
        plural lines.length "version" ++ ")"))
    | some startLine =>
      let later := (lines.map Prod.snd).filter fun line => startLine < line
      .ok ⟨startLine, later.min?.getD (endOfFile events), none⟩

/-- `select` on a change index. -/
def selectChange (total : ℕ) (value : ℤ) : Except SelectError Selection :=
  let lines := changeLines events
  match indexOf total value with
  | none =>
    .error (.rangeNotFound ("Change index " ++ repr spec ++ " not found in file (" ++ plural total "change" ++ ")"))
  | some index =>
    match lines[index]? with
    | none => .error (.raised .indexError)
    | some line =>
      if index + 1 < total then
        match lines[index + 1]? with
        | none => .error (.raised .indexError)
        | some next => .ok ⟨line, next, none⟩
      else .ok ⟨line, endOfFile events, none⟩

/-- `select`. -/
def select (total : ℕ) : Except SelectError Selection :=
  if (splitOnce [':'] spec.toList).isSome ∨ (splitOnce ['.', '.'] spec.toList).isSome then
    match resolveRange spec events total with
    | .ok (startLine, endLine) => .ok ⟨startLine, endLine, none⟩
    | .error e => .error (.raised e)
  else
    match parseBound spec with
    | .error e => .error (.raised e)
    | .ok (_, none) => .error (.raised .valueError)
    | .ok (.snapshot, some value) => selectSnapshot repr spec events value
    | .ok (.line, some value) => selectLine repr spec events value
    | .ok (.version, some value) => selectVersion repr spec events value
    | .ok (.change, some value) => selectChange repr spec events total value

end

/-! ### The selected state -/

/-- The state and the version that a replay of the lines in front of `endLine` ends in. -/
def stateBefore (events : List FileEvent) (endLine : ℕ) : Except Exc (Val × ℤ) :=
  let scan := replayEvents events endLine
  match scan.error with
  | some e => .error e
  | none => .ok ((scan.records.getLast?.map fun y => (y.state, y.event.record.version)).getD (.dict [], 0))

/-- What the command takes for the state of a selection, and its version. -/
def selectedState (events : List FileEvent) (s : Selection) : Except Exc (Val × ℤ) :=
  match s.snapshot with
  | some shown => .ok (shown.snap.state.val, shown.snap.v)
  | none => stateBefore events s.endLine

section

variable {events : List FileEvent} {endLine : ℕ}

lemma lookup_versionLines (version : ℤ) : (versionLines events).lookup version = versionLine events version := by
  have hfold : ∀ lines : List (ℤ × ℕ), (events.foldl (fun lines event =>
      if (lines.lookup event.record.version).isSome then lines
      else put event.record.version event.lineNumber lines) lines).lookup version =
        (lines.lookup version <|> (events.find? fun event => event.record.version = version).map
          FileEvent.lineNumber) := by
    induction events with
    | nil =>
      intro lines
      cases h : lines.lookup version <;> simp [h]
    | cons event events ih =>
      intro lines
      rw [List.foldl_cons, ih, List.find?_cons]
      by_cases hv : event.record.version = version
      · rw [hv, decide_eq_true rfl]
        cases h : lines.lookup version <;> simp [h]
      · rw [decide_eq_false hv]
        split
        · rfl
        · rw [lookup_put_ne (Ne.symm hv)]
  rw [versionLines, hfold, versionLine, lookup_cons_if]
  split <;> rfl

/-- A snapshot sets the state. -/
lemma replayLoop_snapshot {state : Val} {y : Replayed} {snap : Snapshot}
    (hy : y ∈ (replayLoop endLine state events).records) (hsnap : y.event.record = .snapshot snap) :
    y.state = snap.state.val := by
  induction events generalizing state with
  | nil => cases hy
  | cons event events ih =>
    rw [replayLoop] at hy
    split at hy
    · cases hy
    · split at hy
      · next s hs =>
        rcases List.mem_cons.mp hy with rfl | hy
        · cases hs.symm.trans hsnap
          rfl
        · exact ih hy
      · next change hc =>
        split at hy
        · cases hy
        · rcases List.mem_cons.mp hy with rfl | hy
          · cases hc.symm.trans hsnap
          · exact ih hy

lemma mem_of_eventAtLine {event : FileEvent} {line : ℕ} (h : eventAtLine events line = some event) :
    event ∈ events ∧ event.lineNumber = line :=
  ⟨List.mem_of_find?_eq_some h, by simpa using List.find?_some h⟩

/-- The snapshot of a selection is one of the file, and the selected lines end behind it. -/
def Selection.In (s : Selection) (events : List FileEvent) : Prop :=
  ∀ shown, s.snapshot = some shown → shown.event ∈ events ∧ s.endLine = shown.lineNumber + 1

lemma Selection.In.lines (startLine endLine : ℕ) : Selection.In ⟨startLine, endLine, none⟩ events :=
  fun _ h => by cases h

lemma Selection.In.snapshot {startLine : ℕ} {event : FileEvent} {shown : SnapshotEvent} (hmem : event ∈ events)
    (hshown : event.snapshotEvent = some shown) :
    Selection.In ⟨startLine, event.lineNumber + 1, some shown⟩ events := by
  obtain rfl := FileEvent.snapshotEvent_eq_some.mp hshown
  intro found h
  obtain rfl := Option.some.inj h
  exact ⟨hmem, rfl⟩

variable {repr : String → String} {spec : String} {value : ℤ} {s : Selection}

lemma selectSnapshot_in (h : selectSnapshot repr spec events value = .ok s) : s.In events := by
  unfold selectSnapshot at h
  dsimp only at h
  split at h
  · cases h
  · split at h
    · cases h
    · next event hevent =>
      split at h
      · next shown hshown =>
        obtain rfl := Except.ok.inj h
        exact .snapshot (mem_of_eventAtLine hevent).1 hshown
      · cases h

lemma selectLine_in (h : selectLine repr spec events value = .ok s) : s.In events := by
  unfold selectLine at h
  split at h
  · cases h
  · split at h
    · cases h
    · next event hevent =>
      obtain ⟨hmem, hline⟩ := mem_of_eventAtLine hevent
      rw [← hline] at h
      split at h
      · next shown hshown =>
        obtain rfl := Except.ok.inj h
        exact .snapshot hmem hshown
      · obtain rfl := Except.ok.inj h
        exact .lines _ _

lemma selectVersion_in (h : selectVersion repr spec events value = .ok s) : s.In events := by
  unfold selectVersion at h
  dsimp only at h
  split at h
  · cases h
  · split at h
    · cases h
    · obtain rfl := Except.ok.inj h
      exact .lines _ _

lemma selectChange_in {total : ℕ} (h : selectChange repr spec events total value = .ok s) : s.In events := by
  unfold selectChange at h
  dsimp only at h
  split at h
  · cases h
  · split at h
    · cases h
    · split at h
      · split at h
        · cases h
        · obtain rfl := Except.ok.inj h
          exact .lines _ _
      · obtain rfl := Except.ok.inj h
        exact .lines _ _

lemma select_in {total : ℕ} (h : select repr spec events total = .ok s) : s.In events := by
  unfold select at h
  split at h
  · split at h
    · obtain rfl := Except.ok.inj h
      exact .lines _ _
    · cases h
  · split at h
    · cases h
    · cases h
    · exact selectSnapshot_in h
    · exact selectLine_in h
    · exact selectVersion_in h
    · exact selectChange_in h

end

section

variable {blake3 : Bytes → Bytes → Digest} {ser : Serializer} {content : Bytes} {events : List FileEvent} {total : ℕ}

/-- Every record of a text file is on a line of its own. -/
lemma lines_increase (hscan : scanEvents blake3 ser .line content = .ok (events, total)) :
    events.Pairwise fun x y => x.lineNumber < y.lineNumber :=
  List.pairwise_map.mp ((scanEvents_ok hscan).1 ▸ (lineLoop_lines _ _ _ _).1)

/-- **A single snapshot** stands for the replay that ends with it. -/
theorem selectedState_eq (hscan : scanEvents blake3 ser .line content = .ok (events, total)) {s : Selection}
    (hs : s.In events) : selectedState events s = stateBefore events s.endLine := by
  unfold selectedState
  cases hsnap : s.snapshot with
  | none => rfl
  | some shown =>
    obtain ⟨hmem, hend⟩ := hs shown hsnap
    obtain ⟨-, -, hyield⟩ := scanEvents_ok hscan
    obtain ⟨herror, hyield⟩ := hyield s.endLine
    have hlast : ((replayEvents events s.endLine).records.map Replayed.event).getLast? = some shown.event := by
      have hstrict := lines_increase hscan
      rw [hyield, hend, Sorted.takeWhile_lt (hstrict.imp Nat.le_of_lt)]
      obtain ⟨before, after, rfl⟩ := List.append_of_mem hmem
      rw [List.pairwise_append, List.pairwise_cons] at hstrict
      obtain ⟨-, ⟨hafter, -⟩, hbefore⟩ := hstrict
      have hnone : (shown.event :: after).filter (fun x => x.lineNumber < shown.lineNumber + 1) = [shown.event] := by
        rw [List.filter_cons_of_pos (by simp [SnapshotEvent.event]), List.filter_eq_nil_iff.mpr]
        intro x hx
        have : shown.lineNumber < x.lineNumber := hafter x hx
        simp only [decide_eq_true_eq]
        omega
      rw [List.filter_append, hnone, List.getLast?_concat]
    rw [List.getLast?_map] at hlast
    obtain ⟨y, hy, hevent⟩ := Option.map_eq_some_iff.mp hlast
    have hrecord : y.event.record = .snapshot shown.snap := congrArg FileEvent.record hevent
    rw [stateBefore]
    simp only [herror, hy, Option.map_some, Option.getD_some, hrecord,
      replayLoop_snapshot (List.mem_of_getLast? hy) hrecord]
    rfl

end

end Kanta
