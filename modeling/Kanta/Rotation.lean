import Kanta.History
import Mathlib.Data.List.DropRight

/-!
# Rotation

`plan_rotation` splits a log at a cutoff time.  It takes the newest snapshot that is not behind the
cutoff as the base, replays from there, and plans a new file: a snapshot of the state at the cutoff,
the retained changes, and a last snapshot when many changes are retained.  A diff in a file can make
a state of anything, and the planner writes it as it is.  `planRotation_ok` says what it does to the
records of a file.
-/

namespace Kanta

/-! ### The planner -/

/-- `_Entry`: a record with its byte range. -/
structure RotationEntry where
  record : Record
  bytePos : ℕ
  endPos : ℕ

namespace RotationEntry

/-- A change and its position. -/
def change (e : RotationEntry) : Option (ChangeRecord × ℕ) :=
  match e.record with
  | .change c => some (c, e.bytePos)
  | .snapshot _ => none

/-- A snapshot and its position. -/
def snapshot (e : RotationEntry) : Option (Snapshot × ℕ) :=
  match e.record with
  | .change _ => none
  | .snapshot s => some (s, e.bytePos)

end RotationEntry

/-- `RotationPlan`. -/
structure RotationPlan where
  newContent : Bytes
  cutoffEnd : ℕ
  rotatedTs : DateTime
  retainedChanges : ℕ

/-- `[x for x in l if p(x)]`, where the test may raise. -/
def filterE {α : Type} (p : α → Except Exc Bool) : List α → Except Exc (List α)
  | [] => .ok []
  | x :: l => do
    let keep ← p x
    let rest ← filterE p l
    .ok (if keep then x :: rest else rest)

/-- The newest snapshot that is not behind the cutoff. -/
def findBase (cutoff : DateTime) : List (Snapshot × ℕ) → Except Exc (Option (Snapshot × ℕ))
  | [] => .ok none
  | s :: older => do
    if ← s.1.ts.le cutoff then .ok (some s) else findBase cutoff older

/-- The variables of the loop of `plan_rotation`. -/
structure PlanState where
  state : Val
  version : ℤ
  m : Option DateTime
  stateAtCutoff : Option Val
  versionAtCutoff : ℤ
  mAtCutoff : Option DateTime
  finalVersion : ℤ
  finalM : Option DateTime

/-- Before the loop. -/
def PlanState.start : Option Snapshot → PlanState
  | none => ⟨.dict [], 0, none, none, 0, none, 0, none⟩
  | some snap => ⟨snap.state.val, snap.v, snap.m, some snap.state.val, snap.v, snap.m, snap.v, snap.m⟩

/-- The body of the loop of `plan_rotation`.  `DatabaseError` takes no `action`, so that the attempt
to raise it is a `TypeError`. -/
def planRecord (cutoff : DateTime) (p : PlanState) (record : Record) : Except Exc PlanState :=
  match record with
  | .snapshot snap =>
    if snap.state.val.pyEq p.state = false then
      .error (.typeError "DatabaseError.__init__() got an unexpected keyword argument 'action'")
    else .ok { p with m := snap.m <|> p.m }
  | .change change => do
    let state ← applyDiff p.state change.diff.val
    let m := change.m <|> p.m
    let early ← change.ts.lt cutoff
    .ok
      { state
        version := change.v
        m
        stateAtCutoff := if early then some state else p.stateAtCutoff
        versionAtCutoff := if early then change.v else p.versionAtCutoff
        mAtCutoff := if early then m else p.mAtCutoff
        finalVersion := change.v
        finalM := m }

section

variable (blake3 : Bytes → Bytes → Digest) (ser : Serializer)

/-- The records with their byte ranges; the last one ends where the file does. -/
def decodeEntries (total : ℕ) : List RawRecord → Except Exc (List RotationEntry)
  | [] => .ok []
  | raw :: rest => do
    let endPos :=
      match rest with
      | next :: _ => next.bytePos
      | [] => total
    let record ← ser.decode raw.isSnapshot raw.payload
    let entries ← decodeEntries total rest
    .ok (⟨record, raw.bytePos, endPos⟩ :: entries)

/-- `_scan`. -/
def scanEntries (framer : Framer) (content : Bytes) : Except Exc (List RotationEntry) :=
  let scan := framer.iterRecords blake3 content 0
  match scan.error with
  | some e => .error e
  | none => decodeEntries ser content.length scan.records

end

/-- The variables of `plan_rotation` behind its loop. -/
structure Survey where
  retained : List (ChangeRecord × ℕ)
  cutoffEnd : ℕ
  rotatedTs : DateTime
  p : PlanState

/-- The snapshots, the newest first. -/
def newestFirst (entries : List RotationEntry) : List (Snapshot × ℕ) :=
  (entries.filterMap RotationEntry.snapshot).reverse

/-- The records that are replayed from the base. -/
def behindBase (base : Option (Snapshot × ℕ)) (entries : List RotationEntry) : List Record :=
  (entries.filter fun e =>
    match base with
    | some b => decide (b.2 < e.bytePos)
    | none => true).map RotationEntry.record

/-- `plan_rotation` between the scan and the new file. -/
def surveyEntries (total : ℕ) (cutoff : DateTime) (entries : List RotationEntry) : Except Exc (Option Survey) :=
  let changes := entries.filterMap RotationEntry.change
  if changes.isEmpty then .ok none
  else do
    let dropped ← filterE (fun c => c.1.ts.lt cutoff) changes
    match dropped.getLast? with
    | none => .ok none
    | some last =>
      let retained ← filterE (fun c => cutoff.le c.1.ts) changes
      let cutoffEnd := (retained.head?.map Prod.snd).getD total
      let base ← findBase cutoff (newestFirst entries)
      let p ← (behindBase base entries).foldlM (planRecord cutoff) (.start (base.map Prod.fst))
      .ok (some ⟨retained, cutoffEnd, last.1.ts, p⟩)

/-- `serializer.encode` of a `Snapshot` whose state is no dict; nothing checks that it is one. -/
abbrev BareEncoder := DateTime → ℤ → Val → Option DateTime → Except Exc Bytes

section

variable (blake3 : Bytes → Bytes → Digest) (ser : Serializer) (bare : BareEncoder)

/-- `serializer.encode(Snapshot(ts=..., v=..., state=..., m=...))`. -/
def encodeState (ts : DateTime) (v : ℤ) (state : Val) (m : Option DateTime) : Except Exc Bytes :=
  match Dict.ofVal state with
  | some d => ser.encodeSnapshot ⟨ts, v, d, m⟩
  | none => bare ts v state m

/-- The payload of the leading snapshot. -/
def Survey.leading (s : Survey) : Except Exc Bytes :=
  match s.p.stateAtCutoff with
  | some state => encodeState ser bare s.rotatedTs s.p.versionAtCutoff state s.p.mAtCutoff
  | none => .error (.runtimeError "assert state_at_cutoff is not None")

/-- The frame of the closing snapshot, when enough changes are retained. -/
def Survey.closing (framer : Framer) (now : DateTime) (minDiffs : ℤ) (offset : ℕ) (s : Survey) : Except Exc Bytes :=
  if minDiffs ≤ s.retained.length then do
    let closing ← encodeState ser bare now s.p.finalVersion s.p.state s.p.finalM
    framer.frameSnapshot blake3 closing offset
  else .ok []

/-- The new file. -/
def planContent (framer : Framer) (now : DateTime) (minDiffs : ℤ) (s : Survey) : Except Exc Bytes := do
  let leading ← s.leading ser bare
  let head ← framer.frameSnapshot blake3 leading 0
  let body ← frameRecords blake3 ser framer head.length (s.retained.map fun c => .change c.1)
  let tail ← s.closing blake3 ser bare framer now minDiffs (head.length + body.length)
  .ok (head ++ body ++ tail)

/-- `plan_rotation`. -/
def planRotation (framer : Framer) (content : Bytes) (cutoff now : DateTime) (minDiffs : ℤ) :
    Except Exc (Option RotationPlan) :=
  if content = [] then .ok none
  else do
    let entries ← scanEntries blake3 ser framer content
    match ← surveyEntries content.length cutoff entries with
    | none => .ok none
    | some s =>
      -- the framer has read the seed of the file
      let newContent ← planContent blake3 ser bare (framer.reload content) now minDiffs s
      .ok (some ⟨newContent, s.cutoffEnd, s.rotatedTs, s.retained.length⟩)

end

/-! ### Times -/

namespace DateTime

/-- Whether a time is compared as before the cutoff. -/
def early (cutoff t : DateTime) : Bool :=
  match t.lt cutoff with
  | .ok b => b
  | .error _ => false

lemma early_of_lt {cutoff t : DateTime} {b : Bool} (h : t.lt cutoff = .ok b) : early cutoff t = b := by
  rw [early, h]

/-- `a >= b` is what `a < b` is not. -/
lemma le_of_lt {a b : DateTime} {x : Bool} (h : a.lt b = .ok x) : b.le a = .ok (!x) := by
  obtain ⟨w, o⟩ := a
  obtain ⟨v, p⟩ := b
  cases o <;> cases p <;> simp [lt, le] at h ⊢
  · rw [← h, ← decide_not]
    simp
  · rw [← h, ← decide_not]
    simp

end DateTime

/-! ### The tests of a list -/

lemma filterE_ok {α : Type} {p : α → Except Exc Bool} {l l' : List α} (h : filterE p l = .ok l') :
    (∀ x ∈ l, ∃ b, p x = .ok b) ∧
      ∀ q : α → Bool, (∀ x ∈ l, ∀ b, p x = .ok b → q x = b) → l' = l.filter q := by
  induction l generalizing l' with
  | nil =>
    obtain rfl : [] = l' := Except.ok.inj h
    exact ⟨by simp, fun _ _ => rfl⟩
  | cons x l ih =>
    obtain ⟨keep, hkeep, h⟩ := bind_eq_ok.mp h
    obtain ⟨rest, hrest, h⟩ := bind_eq_ok.mp h
    obtain ⟨hall, hfilter⟩ := ih hrest
    refine ⟨List.forall_mem_cons.mpr ⟨⟨keep, hkeep⟩, hall⟩, ?_⟩
    intro q hq
    rw [List.forall_mem_cons] at hq
    rw [← Except.ok.inj h, List.filter_cons, hq.1 keep hkeep, hfilter q hq.2]

lemma filterE_of_ok {α : Type} {p : α → Except Exc Bool} {q : α → Bool} {l : List α}
    (h : ∀ x ∈ l, p x = .ok (q x)) : filterE p l = .ok (l.filter q) := by
  induction l with
  | nil => rfl
  | cons x l ih =>
    rw [List.forall_mem_cons] at h
    rw [filterE, h.1, ih h.2, List.filter_cons]
    rfl

/-! ### The records of a file -/

section

variable {blake3 : Bytes → Bytes → Digest} {ser : Serializer} {framer : Framer}

lemma decodeEntries_placed {items : List Item} {records : List Record} {lineNumber offset : ℕ}
    (hdec : List.Forall₂ (Decodes ser) items records) (total : ℕ) :
    ∃ entries, decodeEntries ser total (framer.placed lineNumber offset items) = .ok entries ∧
      entries.map RotationEntry.record = records ∧
      entries.map RotationEntry.bytePos = (framer.placed lineNumber offset items).map RawRecord.bytePos := by
  induction hdec generalizing lineNumber offset with
  | nil => exact ⟨[], rfl, rfl, rfl⟩
  | @cons item record items records hitem _ ih =>
    obtain ⟨entries, hentries, hrecords, hpos⟩ :=
      @ih (lineNumber + 1) (offset + framer.frameLength item.1 item.2 offset)
    obtain ⟨isSnapshot, payload⟩ := item
    have hdec : ser.decode isSnapshot payload = .ok record := hitem.2
    simp only [Framer.placed, decodeEntries, hdec, hentries, bind, Except.bind]
    refine ⟨_, rfl, ?_, ?_⟩
    · rw [List.map_cons, hrecords]
    · rw [List.map_cons, hpos]
      rfl

lemma scanEntries_frames {items : List Item} {records : List Record} {content : Bytes}
    (hfit : ∀ i ∈ items, framer.Fits i) (hdec : List.Forall₂ (Decodes ser) items records)
    (h : framer.frames blake3 0 items = .ok content) :
    ∃ entries, scanEntries blake3 ser framer content = .ok entries ∧
      entries.map RotationEntry.record = records ∧
      entries.map RotationEntry.bytePos = (framer.placed 1 0 items).map RawRecord.bytePos := by
  rw [scanEntries, iterRecords_start blake3 hfit h]
  exact decodeEntries_placed hdec content.length

lemma Framer.le_framePos (framer : Framer) (offset : ℕ) : offset ≤ framer.framePos offset := by
  cases framer with
  | line => exact Nat.le_refl _
  | bin sync =>
    simp only [Framer.framePos]
    split <;> omega

/-- Frames begin one behind the other. -/
lemma framePos_lt (framer : Framer) (isSnapshot : Bool) (payload : Bytes) (offset : ℕ) :
    framer.framePos offset < offset + framer.frameLength isSnapshot payload offset := by
  cases framer with
  | line =>
    simp only [Framer.framePos, Framer.frameLength]
    omega
  | bin sync =>
    simp only [Framer.framePos, Framer.frameLength]
    split <;> omega

lemma bytePos_sorted (lineNumber offset : ℕ) (items : List Item) :
    ((framer.placed lineNumber offset items).map RawRecord.bytePos).Pairwise (· < ·) ∧
      ∀ pos ∈ (framer.placed lineNumber offset items).map RawRecord.bytePos,
        framer.framePos offset ≤ pos := by
  induction items generalizing lineNumber offset with
  | nil => simp [Framer.placed]
  | cons item items ih =>
    obtain ⟨hsorted, hle⟩ := ih (lineNumber + 1) (offset + framer.frameLength item.1 item.2 offset)
    have hnext : ∀ pos ∈ (framer.placed (lineNumber + 1)
        (offset + framer.frameLength item.1 item.2 offset) items).map RawRecord.bytePos,
          framer.framePos offset < pos := by
      intro pos hpos
      have h1 := framePos_lt framer item.1 item.2 offset
      have h2 := framer.le_framePos (offset + framer.frameLength item.1 item.2 offset)
      have h3 := hle pos hpos
      omega
    rw [Framer.placed, List.map_cons]
    constructor
    · exact List.pairwise_cons.mpr ⟨hnext, hsorted⟩
    · intro pos hpos
      rcases List.mem_cons.mp hpos with rfl | hpos
      · exact Nat.le_refl _
      · exact (hnext pos hpos).le

/-! ### The base -/

/-- The newest snapshot that is not behind the cutoff ends the front of the file. -/
lemma findBase_ok {cutoff : DateTime} {entries : List RotationEntry} {base : Option (Snapshot × ℕ)}
    (h : findBase cutoff (entries.filterMap RotationEntry.snapshot).reverse = .ok base) :
    ∃ front back, entries = front ++ back ∧
      (∀ s, .snapshot s ∈ back.map RotationEntry.record → s.ts.le cutoff = .ok false) ∧
      ((front = [] ∧ base = none) ∨ ∃ before e s, front = before ++ [e] ∧ e.record = .snapshot s ∧
        base = some (s, e.bytePos) ∧ s.ts.le cutoff = .ok true) := by
  induction entries using List.reverseRecOn with
  | nil =>
    obtain rfl : none = base := Except.ok.inj h
    exact ⟨[], [], rfl, by simp, Or.inl ⟨rfl, rfl⟩⟩
  | append_singleton entries e ih =>
    cases he : e.record with
    | change c =>
      have hnone : RotationEntry.snapshot e = none := by simp [RotationEntry.snapshot, he]
      rw [List.filterMap_append, List.filterMap_cons_none hnone, List.filterMap_nil, List.append_nil] at h
      obtain ⟨front, back, rfl, hback, hbase⟩ := ih h
      refine ⟨front, back ++ [e], by simp, ?_, hbase⟩
      intro s hs
      rw [List.map_append, List.mem_append] at hs
      rcases hs with hs | hs
      · exact hback s hs
      · simp [he] at hs
    | snapshot s =>
      have hsome : RotationEntry.snapshot e = some (s, e.bytePos) := by simp [RotationEntry.snapshot, he]
      rw [List.filterMap_append, List.filterMap_cons_some hsome, List.filterMap_nil, List.reverse_append,
        List.reverse_singleton, List.singleton_append, findBase] at h
      obtain ⟨b, hb, h⟩ := bind_eq_ok.mp h
      cases b with
      | true =>
        obtain rfl := Except.ok.inj h
        exact ⟨entries ++ [e], [], by simp, by simp, Or.inr ⟨entries, e, s, rfl, he, rfl, hb⟩⟩
      | false =>
        obtain ⟨front, back, rfl, hback, hbase⟩ := ih h
        refine ⟨front, back ++ [e], by simp, ?_, hbase⟩
        intro s' hs'
        rw [List.map_append, List.mem_append] at hs'
        rcases hs' with hs' | hs'
        · exact hback s' hs'
        · simp only [List.map_cons, List.map_nil, List.mem_singleton, he, Record.snapshot.injEq] at hs'
          rwa [hs']

end

/-! ### The front of a list -/

section

variable {α : Type} {P : α → Bool} {l l' : List α}

/-- The front of a list up to the last element with the property. -/
def upTo (P : α → Bool) (l : List α) : List α := l.rdropWhile fun x => !P x

lemma upTo_concat (P : α → Bool) (l : List α) (x : α) : upTo P (l ++ [x]) = if P x then l ++ [x] else upTo P l := by
  rw [upTo, List.rdropWhile_concat]
  cases P x <;> rfl

/-- What is behind the front lacks the property. -/
lemma upTo_split (P : α → Bool) (l : List α) : ∃ rest, l = upTo P l ++ rest ∧ (∀ x ∈ rest, P x = false) ∧
    (upTo P l = [] ∨ ∃ before x, upTo P l = before ++ [x] ∧ P x = true) := by
  induction l using List.reverseRecOn with
  | nil => exact ⟨[], rfl, by simp, Or.inl rfl⟩
  | append_singleton l x ih =>
    rw [upTo_concat]
    by_cases hx : P x = true
    · rw [if_pos hx]
      exact ⟨[], by simp, by simp, Or.inr ⟨l, x, rfl, hx⟩⟩
    · rw [if_neg hx]
      obtain ⟨rest, hl, hrest, hend⟩ := ih
      refine ⟨rest ++ [x], by rw [← List.append_assoc, ← hl], ?_, hend⟩
      intro y hy
      rcases List.mem_append.mp hy with hy | hy
      · exact hrest y hy
      · rw [List.mem_singleton.mp hy]
        simpa using hx

lemma upTo_append_of_none (h : ∀ x ∈ l', P x = false) : upTo P (l ++ l') = upTo P l := by
  induction l' using List.reverseRecOn with
  | nil => rw [List.append_nil]
  | append_singleton l' x ih =>
    rw [← List.append_assoc, upTo_concat, if_neg (by rw [h x (by simp)]; decide)]
    exact ih fun y hy => h y (List.mem_append_left _ hy)

lemma upTo_append_of_mem {x : α} (hmem : x ∈ l') (hx : P x = true) : upTo P (l ++ l') = l ++ upTo P l' := by
  induction l' using List.reverseRecOn with
  | nil => simp at hmem
  | append_singleton l' y ih =>
    rw [← List.append_assoc, upTo_concat, upTo_concat]
    by_cases hy : P y = true
    · rw [if_pos hy, if_pos hy, List.append_assoc]
    · rw [if_neg hy, if_neg hy]
      apply ih
      rcases List.mem_append.mp hmem with h | h
      · exact h
      · rw [List.mem_singleton.mp h] at hx
        exact absurd hx hy

end

/-! ### The loop -/

/-- What the planner knows at a place of the file. -/
structure Point where
  state : Val
  version : ℤ
  m : Option DateTime

namespace Point

/-- At the base. -/
def start : Option Snapshot → Point
  | none => ⟨.dict [], 0, none⟩
  | some snap => ⟨snap.state.val, snap.v, snap.m⟩

/-- One record further: a snapshot has to show the state. -/
def advance (p : Point) : Record → Except Exc Point
  | .snapshot snap =>
    if snap.state.val.pyEq p.state = false then
      .error (.typeError "DatabaseError.__init__() got an unexpected keyword argument 'action'")
    else .ok { p with m := snap.m <|> p.m }
  | .change change => do
    let state ← applyDiff p.state change.diff.val
    .ok ⟨state, change.v, change.m <|> p.m⟩

/-- From the base over the records. -/
def run (base : Option Snapshot) (records : List Record) : Except Exc Point :=
  records.foldlM advance (start base)

lemma run_concat {base : Option Snapshot} {records : List Record} {record : Record} {p : Point}
    (h : run base records = .ok p) : run base (records ++ [record]) = p.advance record := by
  rw [run] at h
  rw [run, List.foldlM_append, h]
  exact bind_pure (p.advance record)

end Point

namespace Record

/-- A change from before the cutoff. -/
def early (cutoff : DateTime) : Record → Bool
  | .change c => DateTime.early cutoff c.ts
  | .snapshot _ => false

end Record

/-- The planner behind the records: where it is, where the last change has led, and where the last
change from before the cutoff has led. -/
structure Tracks (cutoff : DateTime) (base : Option Snapshot) (records : List Record) (p : PlanState) : Prop where
  here : Point.run base records = .ok ⟨p.state, p.version, p.m⟩
  atLast : ∃ state, Point.run base (upTo (fun r => !r.isSnapshot) records) =
    .ok ⟨state, p.finalVersion, p.finalM⟩
  atCutoff : ∃ state, Point.run base (upTo (Record.early cutoff) records) =
    .ok ⟨state, p.versionAtCutoff, p.mAtCutoff⟩ ∧ ∀ s, p.stateAtCutoff = some s → s = state
  comparable : ∀ c, .change c ∈ records → ∃ b, c.ts.lt cutoff = .ok b

lemma tracks_start (cutoff : DateTime) (base : Option Snapshot) : Tracks cutoff base [] (.start base) where
  here := by cases base <;> rfl
  atLast := ⟨(Point.start base).state, by cases base <;> rfl⟩
  atCutoff := by
    refine ⟨(Point.start base).state, by cases base <;> rfl, ?_⟩
    cases base with
    | none => simp [PlanState.start]
    | some snap => simp [PlanState.start, Point.start]
  comparable := by simp

/-- One record further. -/
lemma Tracks.step {cutoff : DateTime} {base : Option Snapshot} {records : List Record} {record : Record}
    {p p' : PlanState} (h : Tracks cutoff base records p) (hp : planRecord cutoff p record = .ok p') :
    Tracks cutoff base (records ++ [record]) p' := by
  have hrun : Point.run base (records ++ [record]) = Point.advance ⟨p.state, p.version, p.m⟩ record :=
    Point.run_concat h.here
  cases record with
  | snapshot snap =>
    rw [planRecord] at hp
    split at hp
    · simp at hp
    · rename_i heq
      obtain rfl := Except.ok.inj hp
      have hlast : upTo (fun r : Record => !r.isSnapshot) (records ++ [.snapshot snap]) =
          upTo (fun r => !r.isSnapshot) records := by
        rw [upTo_concat]
        rfl
      have hcut : upTo (Record.early cutoff) (records ++ [.snapshot snap]) =
          upTo (Record.early cutoff) records := by
        rw [upTo_concat]
        rfl
      constructor
      · rw [hrun, Point.advance, if_neg heq]
      · rw [hlast]
        exact h.atLast
      · rw [hcut]
        exact h.atCutoff
      · intro c hc
        exact h.comparable c (by simpa using hc)
  | change c =>
    obtain ⟨state, hstate, hp⟩ := bind_eq_ok.mp hp
    obtain ⟨b, hb, hp⟩ := bind_eq_ok.mp hp
    obtain rfl := Except.ok.inj hp
    have hearly : Record.early cutoff (.change c) = b := DateTime.early_of_lt hb
    have hlast : upTo (fun r : Record => !r.isSnapshot) (records ++ [.change c]) = records ++ [.change c] := by
      rw [upTo_concat]
      rfl
    rw [Point.advance, hstate] at hrun
    constructor
    · exact hrun
    · rw [hlast]
      exact ⟨state, hrun⟩
    · rw [upTo_concat, hearly]
      cases b with
      | true => exact ⟨state, hrun, fun s hs => (Option.some.inj hs).symm⟩
      | false => exact h.atCutoff
    · intro c' hc'
      rcases List.mem_append.mp hc' with hc' | hc'
      · exact h.comparable c' hc'
      · obtain rfl := Record.change.inj (List.mem_singleton.mp hc')
        exact ⟨b, hb⟩

lemma tracks_of_fold {cutoff : DateTime} {base : Option Snapshot} {records : List Record} {p : PlanState}
    (h : records.foldlM (planRecord cutoff) (.start base) = .ok p) : Tracks cutoff base records p := by
  induction records using List.reverseRecOn generalizing p with
  | nil =>
    obtain rfl : PlanState.start base = p := Except.ok.inj h
    exact tracks_start cutoff base
  | append_singleton records record ih =>
    rw [List.foldlM_append, bind_eq_ok] at h
    obtain ⟨q, hq, h⟩ := h
    rw [List.foldlM_cons, bind_eq_ok] at h
    obtain ⟨t, ht, h⟩ := h
    obtain rfl : t = p := Except.ok.inj h
    exact (ih hq).step ht

/-! ### The plan -/

/-- The changes from before the cutoff. -/
def earlyChanges (cutoff : DateTime) (records : List Record) : List ChangeRecord :=
  (changeRecords records).filter fun c => DateTime.early cutoff c.ts

/-- The changes from the cutoff on. -/
def lateChanges (cutoff : DateTime) (records : List Record) : List ChangeRecord :=
  (changeRecords records).filter fun c => !DateTime.early cutoff c.ts

lemma lateChanges_append (cutoff : DateTime) (l l' : List Record) :
    lateChanges cutoff (l ++ l') = lateChanges cutoff l ++ lateChanges cutoff l' := by
  rw [lateChanges, changeRecords_append, List.filter_append]
  rfl

/-- How the planner divides the records of a file: the base ends `front`, and `back` is replayed. -/
structure Planned (cutoff : DateTime) (records : List Record) (s : Survey) (front back : List Record)
    (base : Option Snapshot) : Prop where
  whole : records = front ++ back
  base_eq : (front = [] ∧ base = none) ∨ ∃ before snap, front = before ++ [.snapshot snap] ∧
    base = some snap ∧ snap.ts.le cutoff = .ok true
  behind : ∀ snap, .snapshot snap ∈ back → snap.ts.le cutoff = .ok false
  comparable : ∀ c ∈ changeRecords records, ∃ b, c.ts.lt cutoff = .ok b
  tracks : Tracks cutoff base back s.p
  last : (earlyChanges cutoff records).getLast?.map ChangeRecord.ts = some s.rotatedTs
  retained : s.retained.map Prod.fst = lateChanges cutoff records

/-- The frames of a new file: the leading snapshot, the retained changes, and a closing snapshot when
there are many. -/
structure NewFile (blake3 : Bytes → Bytes → Digest) (ser : Serializer) (bare : BareEncoder) (framer : Framer)
    (now : DateTime) (minDiffs : ℤ) (s : Survey) (out lead : Bytes) (bodies closing : List Item) : Prop where
  leading : ∃ state, s.p.stateAtCutoff = some state ∧
    encodeState ser bare s.rotatedTs s.p.versionAtCutoff state s.p.mAtCutoff = .ok lead
  changes : List.Forall₂ (Encodes ser) ((s.retained.map Prod.fst).map .change) bodies
  closed : (s.retained.length < minDiffs ∧ closing = []) ∨ (minDiffs ≤ s.retained.length ∧
    ∃ payload, encodeState ser bare now s.p.finalVersion s.p.state s.p.finalM = .ok payload ∧
      closing = [(true, payload)])
  frames : framer.frames blake3 0 ((true, lead) :: (bodies ++ closing)) = .ok out

section

variable {blake3 : Bytes → Bytes → Digest} {ser : Serializer} {framer fr : Framer}

/-- The cutoff position: in front of the first retained change, or at the end. -/
def CutAt (blake3 : Bytes → Bytes → Digest) (ser : Serializer) (framer : Framer) (cutoff : DateTime)
    (records : List Record) (content : Bytes) (cutoffEnd : ℕ) : Prop :=
  (lateChanges cutoff records = [] ∧ cutoffEnd = content.length) ∨
    ∃ before c after d, records = before ++ .change c :: after ∧ lateChanges cutoff before = [] ∧
      DateTime.early cutoff c.ts = false ∧ frameRecords blake3 ser framer 0 before = .ok d ∧
      cutoffEnd = framer.framePos d.length

lemma map_fst_change (entries : List RotationEntry) :
    (entries.filterMap RotationEntry.change).map Prod.fst = changeRecords (entries.map RotationEntry.record) := by
  rw [changeRecords, List.filterMap_map, List.map_filterMap]
  congr 1
  funext e
  cases he : e.record <;> simp [RotationEntry.change, he]

lemma map_fst_late (cutoff : DateTime) (entries : List RotationEntry) :
    ((entries.filterMap RotationEntry.change).filter (fun c => !DateTime.early cutoff c.1.ts)).map Prod.fst =
      lateChanges cutoff (entries.map RotationEntry.record) := by
  rw [lateChanges, ← map_fst_change, List.filter_map]
  rfl

/-- The entries behind a position are those behind its entry. -/
lemma filter_behind {before back : List RotationEntry} {e : RotationEntry}
    (h : ((before ++ [e] ++ back).map RotationEntry.bytePos).Pairwise (· < ·)) :
    (before ++ [e] ++ back).filter (fun x => decide (e.bytePos < x.bytePos)) = back := by
  rw [List.map_append, List.pairwise_append, List.map_append, List.pairwise_append] at h
  obtain ⟨⟨-, -, hbefore⟩, -, hback⟩ := h
  rw [List.filter_append, List.filter_append, List.filter_singleton, List.filter_eq_nil_iff.mpr,
    List.filter_eq_self.mpr]
  · simp
  · intro x hx
    simpa using hback e.bytePos (by simp) x.bytePos (List.mem_map_of_mem hx)
  · intro x hx
    have := hbefore x.bytePos (List.mem_map_of_mem hx) e.bytePos (by simp)
    simp only [decide_eq_true_eq]
    omega

/-- The first retained change, and where its frame is. -/
lemma cutAt_of_cons {cutoff : DateTime} {records : List Record} {content : Bytes}
    {entries : List RotationEntry} {first : ChangeRecord × ℕ} {more : List (ChangeRecord × ℕ)}
    {items : List Item} (hitems : List.Forall₂ (Encodes ser) records items)
    (hframes : framer.frames blake3 0 items = .ok content) (hrecords : entries.map RotationEntry.record = records)
    (hpos : entries.map RotationEntry.bytePos = (framer.placed 1 0 items).map RawRecord.bytePos)
    (h : (entries.filterMap RotationEntry.change).filter (fun c => !DateTime.early cutoff c.1.ts) =
      first :: more) :
    CutAt blake3 ser framer cutoff records content first.2 := by
  obtain ⟨l₁, l₂, hl, hl₁, hfirst, -⟩ := List.filter_eq_cons_iff.mp h
  obtain ⟨be, ae, rfl, hbe, hae⟩ := List.filterMap_eq_append_iff.mp hl
  obtain ⟨skip, e, after, rfl, hskip, he, -⟩ := List.filterMap_eq_cons_iff.mp hae
  obtain ⟨hrecord, hbyte⟩ : e.record = .change first.1 ∧ e.bytePos = first.2 := by
    cases hr : e.record <;> simp [RotationEntry.change, hr] at he
    rw [← he]
    exact ⟨rfl, rfl⟩
  have hlate : lateChanges cutoff ((be ++ skip).map RotationEntry.record) = [] := by
    rw [← map_fst_late, List.filterMap_append, hbe, List.filterMap_eq_nil_iff.mpr hskip, List.append_nil,
      List.filter_eq_nil_iff.mpr hl₁, List.map_nil]
  rw [← List.append_assoc, List.map_append, List.map_cons, hrecord] at hrecords
  subst hrecords
  obtain ⟨bi, ai, rfl, hbi, hai⟩ := forall₂_append (List.Forall₂.flip (R := flip (Encodes ser)) hitems)
  cases hai with
  | @cons item _ ai _ hi hai =>
    obtain ⟨d, rest, hd, -, -⟩ := (frames_append blake3).mp hframes
    have hlen : bi.length = (be ++ skip).length := by
      rw [hbi.length_eq, List.length_map]
    have hentry : ((be ++ (skip ++ e :: after)).map RotationEntry.bytePos)[(be ++ skip).length]? =
        some first.2 := by
      rw [← List.append_assoc, List.map_append, List.map_cons, hbyte,
        List.getElem?_append_right (by rw [List.length_map]), List.length_map, Nat.sub_self]
      rfl
    rw [hpos, ← hlen, List.getElem?_map, Framer.placed_getElem? blake3 hd, Nat.zero_add] at hentry
    refine Or.inr ⟨_, first.1, _, d, rfl, hlate, by simpa using hfirst, ?_, ?_⟩
    · exact frameRecords_iff.mpr ⟨bi, hbi.flip, hd⟩
    · exact (Option.some.inj hentry).symm

/-- A reader takes the seed from the file. -/
lemma iterRecords_of_load {data : Bytes} (h : framer.load data = .ok fr) :
    framer.iterRecords blake3 data 0 = fr.iterRecords blake3 data 0 := by
  by_cases hne : data = []
  · subst hne
    obtain rfl := Except.ok.inj ((framer.load_nil).symm.trans h)
    rfl
  · have h' := Framer.load_self h hne
    rcases Framer.load_kind h with ⟨rfl, rfl⟩ | ⟨sync, sync', rfl, rfl⟩
    · rfl
    · simp only [Framer.iterRecords, h, h']

/-- The planner on the entries of a file. -/
lemma surveyEntries_ok {cutoff : DateTime} {entries : List RotationEntry} {s : Survey} {total : ℕ}
    (hsorted : (entries.map RotationEntry.bytePos).Pairwise (· < ·))
    (h : surveyEntries total cutoff entries = .ok (some s)) :
    (∃ front back base, Planned cutoff (entries.map RotationEntry.record) s front back base) ∧
      (entries.filterMap RotationEntry.change).filter (fun c => !DateTime.early cutoff c.1.ts) = s.retained ∧
      s.cutoffEnd = (s.retained.head?.map Prod.snd).getD total := by
  rw [surveyEntries] at h
  dsimp only at h
  split at h
  · simp at h
  obtain ⟨dropped, hdropped, h⟩ := bind_eq_ok.mp h
  cases hlast : dropped.getLast? with
  | none => simp [hlast] at h
  | some last =>
    rw [hlast] at h
    obtain ⟨retained, hretained, h⟩ := bind_eq_ok.mp h
    obtain ⟨base, hbase, h⟩ := bind_eq_ok.mp h
    obtain ⟨p, hp, h⟩ := bind_eq_ok.mp h
    obtain rfl := Option.some.inj (Except.ok.inj h)
    obtain ⟨hcomparable, hdrop⟩ := filterE_ok hdropped
    have hdrop := hdrop (fun c => DateTime.early cutoff c.1.ts) fun x _ b hb => DateTime.early_of_lt hb
    have hretain := (filterE_ok hretained).2 (fun c => !DateTime.early cutoff c.1.ts) fun x hx b hb => by
      obtain ⟨b', hb'⟩ := hcomparable x hx
      rw [DateTime.le_of_lt hb'] at hb
      rw [DateTime.early_of_lt hb', Except.ok.inj hb]
    obtain ⟨front, back, rfl, hbehind, hfront⟩ := findBase_ok hbase
    have hrest : behindBase base (front ++ back) = back.map RotationEntry.record := by
      rw [behindBase]
      rcases hfront with ⟨rfl, rfl⟩ | ⟨before, e, snap, rfl, -, rfl, -⟩
      · simp
      · rw [filter_behind hsorted]
    rw [hrest] at hp
    refine ⟨⟨front.map RotationEntry.record, back.map RotationEntry.record, base.map Prod.fst, ?_⟩,
      hretain.symm, rfl⟩
    constructor
    · exact List.map_append
    · rcases hfront with ⟨rfl, rfl⟩ | ⟨before, e, snap, rfl, he, rfl, hle⟩
      · exact Or.inl ⟨rfl, rfl⟩
      · exact Or.inr ⟨before.map RotationEntry.record, snap, by simp [he], rfl, hle⟩
    · exact hbehind
    · intro c hc
      rw [← map_fst_change] at hc
      obtain ⟨x, hx, rfl⟩ := List.mem_map.mp hc
      exact hcomparable x hx
    · exact tracks_of_fold hp
    · rw [earlyChanges, ← map_fst_change, List.filter_map, List.getLast?_map]
      rw [hdrop] at hlast
      exact congrArg (Option.map ChangeRecord.ts) (congrArg (Option.map Prod.fst) hlast)
    · rw [← map_fst_late, ← hretain]

/-- The frames of what the planner writes. -/
lemma planContent_ok {bare : BareEncoder} {now : DateTime} {minDiffs : ℤ} {s : Survey} {out : Bytes}
    (h : planContent blake3 ser bare framer now minDiffs s = .ok out) :
    ∃ lead bodies closing, NewFile blake3 ser bare framer now minDiffs s out lead bodies closing := by
  obtain ⟨lead, hlead, h⟩ := bind_eq_ok.mp h
  obtain ⟨head, hhead, h⟩ := bind_eq_ok.mp h
  obtain ⟨body, hbody, h⟩ := bind_eq_ok.mp h
  obtain ⟨tail, htail, h⟩ := bind_eq_ok.mp h
  obtain rfl := Except.ok.inj h
  obtain ⟨bodies, hbodies, hframes⟩ := frameRecords_iff.mp hbody
  have hleading : ∃ state, s.p.stateAtCutoff = some state ∧
      encodeState ser bare s.rotatedTs s.p.versionAtCutoff state s.p.mAtCutoff = .ok lead := by
    unfold Survey.leading at hlead
    split at hlead
    · exact ⟨_, ‹_›, hlead⟩
    · simp at hlead
  have hretained : List.Forall₂ (Encodes ser) ((s.retained.map Prod.fst).map .change) bodies := by
    rwa [List.map_map]
  have hhead : framer.frame blake3 true lead 0 = .ok head := hhead
  have hall : ∀ {closing : List Item} {tail : Bytes},
      framer.frames blake3 (head.length + body.length) closing = .ok tail →
        framer.frames blake3 0 ((true, lead) :: (bodies ++ closing)) = .ok (head ++ body ++ tail) := by
    intro closing tail hclosing
    rw [List.append_assoc]
    refine (frames_cons blake3).mpr ⟨head, body ++ tail, hhead, ?_, rfl⟩
    exact (frames_append blake3).mpr ⟨body, tail, by rwa [Nat.zero_add], by rwa [Nat.zero_add], rfl⟩
  rw [Survey.closing] at htail
  split at htail
  · rename_i hmany
    obtain ⟨payload, hpayload, htail⟩ := bind_eq_ok.mp htail
    refine ⟨lead, bodies, [(true, payload)], hleading, hretained, Or.inr ⟨hmany, payload, hpayload, rfl⟩, hall ?_⟩
    exact (frames_cons blake3).mpr ⟨tail, [], htail, rfl, (List.append_nil tail).symm⟩
  · rename_i hfew
    obtain rfl := Except.ok.inj htail
    exact ⟨lead, bodies, [], hleading, hretained, Or.inl ⟨by omega, rfl⟩, hall rfl⟩

/-- **What `plan_rotation` does** to the records of a file. -/
theorem planRotation_ok {bare : BareEncoder} {cutoff now : DateTime} {minDiffs : ℤ} {records : List Record}
    {content : Bytes} {plan : RotationPlan} (hr : ∀ r ∈ records, Decodable ser fr r)
    (hload : framer.load content = .ok fr) (h : frameRecords blake3 ser fr 0 records = .ok content)
    (hplan : planRotation blake3 ser bare framer content cutoff now minDiffs = .ok (some plan)) :
    ∃ entries s front back base lead bodies closing, scanEntries blake3 ser framer content = .ok entries ∧
      surveyEntries content.length cutoff entries = .ok (some s) ∧
      Planned cutoff records s front back base ∧
      CutAt blake3 ser fr cutoff records content plan.cutoffEnd ∧
      NewFile blake3 ser bare fr now minDiffs s plan.newContent lead bodies closing ∧
      plan.rotatedTs = s.rotatedTs := by
  obtain ⟨items, hitems, hframes⟩ := frameRecords_iff.mp h
  have hdec := decodes_of_encodes (fun r hr' => (hr r hr').1) hitems
  obtain ⟨entries, hscan, hrecords, hpos⟩ := scanEntries_frames (fits_of_encodes hr hitems) hdec hframes
  have hplaced : ((fr.placed 1 0 items).map RawRecord.bytePos).Pairwise (· < ·) := (bytePos_sorted 1 0 items).1
  have hsorted := hpos ▸ hplaced
  have hscan : scanEntries blake3 ser framer content = .ok entries := by
    rw [← hscan, scanEntries, scanEntries, iterRecords_of_load hload]
  have hreload : framer.reload content = fr := by rw [Framer.reload, hload]
  unfold planRotation at hplan
  split at hplan
  · simp at hplan
  obtain ⟨entries', he, hplan⟩ := bind_eq_ok.mp hplan
  obtain rfl := Except.ok.inj (hscan.symm.trans he)
  obtain ⟨found, hentries, hplan⟩ := bind_eq_ok.mp hplan
  cases found with
  | none => simp at hplan
  | some s =>
    obtain ⟨newContent, hcontent, hplan⟩ := bind_eq_ok.mp hplan
    obtain rfl := Option.some.inj (Except.ok.inj hplan)
    rw [hreload] at hcontent
    obtain ⟨lead, bodies, closing, hframed⟩ := planContent_ok hcontent
    obtain ⟨⟨front, back, base, hplanned⟩, hretained, hend⟩ := surveyEntries_ok hsorted hentries
    rw [hrecords] at hplanned
    refine ⟨entries, s, front, back, base, lead, bodies, closing, hscan, hentries, hplanned, ?_, hframed, rfl⟩
    dsimp only
    rw [hend]
    cases hs : s.retained with
    | nil => exact Or.inl ⟨by rw [← hplanned.retained, hs]; rfl, rfl⟩
    | cons first more => exact cutAt_of_cons hitems hframes hrecords hpos (hretained.trans hs)

end

end Kanta
