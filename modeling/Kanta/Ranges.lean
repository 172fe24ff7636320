import Kanta.History
import Kanta.Lib.Sorted
import Kanta.Replaylog

/-!
# Ranges of records

`-r` takes a range of records, whose bounds count changes, lines, snapshots or versions.  Both are
resolved to line numbers, and `replay_events` yields the records of these lines.  With changes as the
bounds this is the slice of a Python list, but for two things (`select_slices_iff`): an inclusive end
that lies before the first record means the first record, and the records of a binary file are all on
line 0.
-/

namespace Kanta

open Kanta.Lib

/-! ### The lines of a file -/

/-- `_change_lines`. -/
def changeLines (events : List FileEvent) : List ℕ := (events.filter FileEvent.isChange).map FileEvent.lineNumber

/-- `_snapshot_lines`. -/
def snapshotLines (events : List FileEvent) : List ℕ :=
  let lines := (events.filter fun event => event.record.isSnapshot).map FileEvent.lineNumber
  match events with
  | first :: _ => if first.record.isSnapshot then lines else 0 :: lines
  | [] => 0 :: lines

/-- `_version_lines(events).get(version)`: the line where the version first appears. -/
def versionLine (events : List FileEvent) (version : ℤ) : Option ℕ :=
  if version = 0 then some 0
  else (events.find? fun event => event.record.version = version).map FileEvent.lineNumber

/-! ### Bounds -/

/-- What a bound counts. -/
inductive RangeUnit where
  | change
  | line
  | snapshot
  | version

/-- `unit_map`. -/
def rangeUnit : Char → Option RangeUnit
  | 'l' => some .line
  | 's' => some .snapshot
  | 'v' => some .version
  | _ => none

/-- `int(value)` with a unit. -/
def readBound (unit : RangeUnit) (value : String) : Except Exc (RangeUnit × Option ℤ) :=
  match pyInt value with
  | some n => .ok (unit, some n)
  | none => .error .valueError

/-- `_parse_bound`. -/
def parseBound (bound : String) : Except Exc (RangeUnit × Option ℤ) :=
  match bound.toList with
  | [] => .ok (.change, none)
  | c :: rest =>
    match rangeUnit c with
    | some unit => if rest = [] then .error .valueError else readBound unit (String.ofList rest)
    | none => readBound .change bound

/-- `_bound_to_line`. -/
def boundToLine (unit : RangeUnit) (value : Option ℤ) (events : List FileEvent) (total : ℕ) (isStart : Bool) :
    Except Exc ℕ :=
  let eof := endOfFile events
  match value with
  | none => .ok (if isStart then 0 else eof)
  | some value =>
    match unit with
    | .change =>
      let value := if value < 0 then total + value else value
      let value := (max 0 (min value total)).toNat
      if value < total then
        match (changeLines events)[value]? with
        | some line => .ok line
        | none => .error .indexError
      else .ok eof
    | .line => if value < 0 then .error .valueError else .ok value.toNat
    | .snapshot =>
      let lines := snapshotLines events
      let index := if value < 0 then lines.length + value else value
      if index < 0 then .ok 0
      else .ok ((lines[index.toNat]?).getD eof)
    | .version => if value < 0 then .error .valueError else .ok ((versionLine events value).getD eof)

/-! ### Ranges -/

/-- `s.split(sep, 1)`, where it splits. -/
def splitOnce (sep : List Char) : List Char → Option (List Char × List Char)
  | [] => if sep = [] then some ([], []) else none
  | c :: cs =>
    if sep.isPrefixOf (c :: cs) then some ([], (c :: cs).drop sep.length)
    else (splitOnce sep cs).map fun p => (c :: p.1, p.2)

/-- `_resolve_range` behind the split. -/
def resolveBounds (inclusive : Bool) (start stop : String) (events : List FileEvent) (total : ℕ) :
    Except Exc (ℕ × ℕ) := do
  let (startUnit, startVal) ← parseBound start
  let (endUnit, endVal) ← parseBound stop
  let startLine ← boundToLine startUnit startVal events total true
  let endLine ← boundToLine endUnit endVal events total false
  let endLine := if inclusive ∧ endVal.isSome then endLine + 1 else endLine
  .ok (min startLine endLine, endLine)

/-- `_resolve_range`. -/
def resolveRange (range : String) (events : List FileEvent) (total : ℕ) : Except Exc (ℕ × ℕ) :=
  match splitOnce ['.', '.'] range.toList with
  | some (start, stop) => resolveBounds true (String.ofList start) (String.ofList stop) events total
  | none =>
    match splitOnce [':'] range.toList with
    | some (start, stop) => resolveBounds false (String.ofList start) (String.ofList stop) events total
    | none => .error .valueError

/-! ### Statement -/

/-- The changes of a file. -/
def changesOfEvents (events : List FileEvent) : List ChangeRecord := changeRecords (events.map FileEvent.record)

/-- The changes that are replayed and not in front of the range. -/
def changesInRange (events : List FileEvent) (startLine endLine : ℕ) : List ChangeRecord :=
  changesOfEvents (((replayEvents events endLine).records.map Replayed.event).filter
    fun event => startLine ≤ event.lineNumber)

/-- A bound as it is written. -/
def boundText : Option ℤ → String
  | none => ""
  | some a => toString a

/-- `a:b` and `a..b`. -/
def rangeText (inclusive : Bool) (a b : Option ℤ) : String :=
  boundText a ++ (if inclusive then ".." else ":") ++ boundText b

/-- Where a slice of `n` elements begins or ends, with an index counted from the end when negative. -/
def sliceIndex (n : ℕ) (a : ℤ) : ℕ := (max 0 (min (if a < 0 then n + a else a) n)).toNat

/-- Where the elements through an index end; one that lies before the first ends in front of it. -/
def throughIndex (n : ℕ) (b : ℤ) : ℕ := (max 0 (min ((if b < 0 then n + b else b) + 1) n)).toNat

/-- Where a range begins. -/
def startIndex (n : ℕ) (a : Option ℤ) : ℕ := (a.map (sliceIndex n)).getD 0

/-- Where a range ends. -/
def stopIndex (n : ℕ) (inclusive : Bool) (b : Option ℤ) : ℕ :=
  (b.map (if inclusive then throughIndex n else sliceIndex n)).getD n

/-- `l[a:b]`, and the elements from `a` through `b`. -/
def slice {α : Type} (inclusive : Bool) (a b : Option ℤ) (l : List α) : List α :=
  (l.take (stopIndex l.length inclusive b)).drop (startIndex l.length a)

/-- The range means the slice of the changes of the file. -/
def Slices (events : List FileEvent) (total : ℕ) (inclusive : Bool) (a b : Option ℤ) : Prop :=
  ∃ startLine endLine, resolveRange (rangeText inclusive a b) events total = .ok (startLine, endLine) ∧
    (replayEvents events endLine).error = none ∧
    changesInRange events startLine endLine = slice inclusive a b (changesOfEvents events)

/-- `int` reads a bound of at most 4300 digits. -/
def Short (a : Option ℤ) : Prop := ∀ n, a = some n → n.natAbs < intBound

/-- The condition.  In a text file, an inclusive end does not lie before the first record of a range that
begins with it; in a binary file, the slice holds no change or all of them, and for an inclusive end it
holds all of them unless the range begins behind the last. -/
def Sliceable (framer : Framer) (n : ℕ) (inclusive : Bool) (a b : Option ℤ) : Prop :=
  match framer with
  | .line => ∀ b', b = some b' → inclusive = true → n + b' < 0 → startIndex n a = 0 → n = 0
  | .bin _ => (startIndex n a = 0 ∧ stopIndex n inclusive b = n) ∨
      if inclusive then startIndex n a = n else stopIndex n inclusive b ≤ startIndex n a

/-! ### The text of a range -/

lemma splitOnce_none {sep cs : List Char} {s : Char} (h : s ∉ cs) : splitOnce (s :: sep) cs = none := by
  induction cs with
  | nil => rfl
  | cons c cs ih =>
    obtain ⟨hc, hcs⟩ := not_or.mp (List.mem_cons.not.mp h)
    rw [splitOnce, if_neg (by simp [hc]), ih hcs]
    rfl

lemma splitOnce_append {sep before after : List Char} {s : Char} (h : s ∉ before) :
    splitOnce (s :: sep) (before ++ s :: sep ++ after) = some (before, after) := by
  induction before with
  | nil =>
    rw [List.nil_append, List.cons_append, splitOnce, if_pos (by simp), ← List.cons_append, List.drop_left]
  | cons c before ih =>
    obtain ⟨hc, hbefore⟩ := not_or.mp (List.mem_cons.not.mp h)
    rw [List.cons_append, List.cons_append, splitOnce, if_neg (by simp [hc]), ih hbefore]
    rfl

lemma mem_boundText {a : Option ℤ} {c : Char} (h : c ∈ (boundText a).toList) : c.isDigit = true ∨ c = '-' := by
  cases a with
  | none => simp [boundText] at h
  | some a =>
    rw [boundText, toList_toString] at h
    rcases List.mem_append.mp h with h | h
    · split at h
      · exact Or.inr (by simpa using h)
      · simp at h
    · exact Or.inl (literal_digits _ c h)

/-- The text of a range is taken apart again. -/
lemma resolveRange_text (events : List FileEvent) (total : ℕ) (inclusive : Bool) (a b : Option ℤ) :
    resolveRange (rangeText inclusive a b) events total =
      resolveBounds inclusive (boundText a) (boundText b) events total := by
  have hnot : ∀ c : Char, ¬(c.isDigit = true ∨ c = '-') → ∀ a, c ∉ (boundText a).toList := fun c hc a hmem =>
    hc (mem_boundText hmem)
  have hdot := hnot '.' (by decide)
  have hcolon := hnot ':' (by decide)
  rw [resolveRange, rangeText, String.toList_append, String.toList_append]
  cases inclusive with
  | true =>
    rw [if_pos rfl, show "..".toList = ['.', '.'] from rfl, splitOnce_append (hdot a)]
    simp
  | false =>
    have hnone : '.' ∉ (boundText a).toList ++ [':'] ++ (boundText b).toList := by simp [hdot a, hdot b]
    rw [if_neg (by simp), show ":".toList = [':'] from rfl, splitOnce_none hnone, splitOnce_append (hcolon a)]
    simp

/-- A bound is read back unless it is too long. -/
lemma parseBound_text (a : Option ℤ) :
    (Short a → parseBound (boundText a) = .ok (.change, a)) ∧
      (¬Short a → parseBound (boundText a) = .error .valueError) := by
  cases a with
  | none => exact ⟨fun _ => rfl, fun h => (h fun n hn => by simp at hn).elim⟩
  | some a =>
    have hshort : Short (some a) ↔ a.natAbs < intBound :=
      ⟨fun h => h a rfl, fun h n hn => Option.some.inj hn ▸ h⟩
    have hread : parseBound (boundText (some a)) = readBound .change (toString a) := by
      have hne : (toString a).toList ≠ [] := by
        rw [toList_toString]
        simp [Nat.toDigits_ne_nil]
      obtain ⟨c, cs, hcs⟩ := List.exists_cons_of_ne_nil hne
      have hunit : rangeUnit c = none := by
        have hc : c ∈ (boundText (some a)).toList := hcs ▸ List.mem_cons_self
        have hletter : ∀ d : Char, ¬(d.isDigit = true ∨ d = '-') → c ≠ d := fun d hd h => hd (h ▸ mem_boundText hc)
        unfold rangeUnit
        split
        · exact (hletter 'l' (by decide) rfl).elim
        · exact (hletter 's' (by decide) rfl).elim
        · exact (hletter 'v' (by decide) rfl).elim
        · rfl
      have hcs : (boundText (some a)).toList = c :: cs := hcs
      rw [parseBound, hcs]
      simp only [hunit]
      rfl
    rw [hread, readBound, pyInt_toString, hshort]
    constructor
    · intro h
      rw [if_pos h]
    · intro h
      rw [if_neg h]

/-! ### The lines of a range -/

section

variable {events : List FileEvent}

/-- The changes among the events. -/
def changeEvents (events : List FileEvent) : List FileEvent := events.filter FileEvent.isChange

/-- The line of a change; behind the last one, the end of the file. -/
def changeLine (events : List FileEvent) (i : ℕ) : ℕ :=
  Sorted.keyAt FileEvent.lineNumber (changeEvents events) (endOfFile events) i

/-- Where a range of changes begins. -/
def startLineOf (events : List FileEvent) (a : Option ℤ) : ℕ :=
  (a.map fun a => changeLine events (sliceIndex (changeEvents events).length a)).getD 0

/-- Where a range of changes ends. -/
def endLineOf (events : List FileEvent) (inclusive : Bool) (b : Option ℤ) : ℕ :=
  (b.map fun b => changeLine events (sliceIndex (changeEvents events).length b) + if inclusive then 1 else 0).getD
    (endOfFile events)

lemma sliceIndex_le (n : ℕ) (a : ℤ) : sliceIndex n a ≤ n := by
  unfold sliceIndex
  omega

lemma boundToLine_change (a : ℤ) (isStart : Bool) :
    boundToLine .change (some a) events (changeEvents events).length isStart =
      .ok (changeLine events (sliceIndex (changeEvents events).length a)) := by
  have hle := sliceIndex_le (changeEvents events).length a
  have hlines : (changeLines events)[sliceIndex (changeEvents events).length a]? =
      ((changeEvents events)[sliceIndex (changeEvents events).length a]?).map FileEvent.lineNumber := by
    rw [changeLines, List.getElem?_map]
    rfl
  have hindex : (max 0 (min (if a < 0 then ((changeEvents events).length : ℤ) + a else a)
      (changeEvents events).length)).toNat = sliceIndex (changeEvents events).length a := rfl
  unfold boundToLine
  dsimp only
  rw [hindex]
  generalize sliceIndex (changeEvents events).length a = i at *
  split
  · rename_i hlt
    rw [hlines, changeLine, Sorted.keyAt, List.getElem?_eq_getElem hlt]
    rfl
  · rw [changeLine, Sorted.keyAt_of_le (by omega)]

/-- What a range of changes is resolved to. -/
lemma resolveRange_ok {inclusive : Bool} {a b : Option ℤ} (ha : Short a) (hb : Short b) :
    resolveRange (rangeText inclusive a b) events (changeEvents events).length =
      .ok (min (startLineOf events a) (endLineOf events inclusive b), endLineOf events inclusive b) := by
  have hstart : boundToLine .change a events (changeEvents events).length true = .ok (startLineOf events a) := by
    cases a with
    | none => rfl
    | some a => exact boundToLine_change a true
  have hend : ∃ line, boundToLine .change b events (changeEvents events).length false = .ok line ∧
      (if inclusive ∧ b.isSome then line + 1 else line) = endLineOf events inclusive b := by
    cases b with
    | none => exact ⟨_, rfl, by simp [endLineOf]⟩
    | some b =>
      refine ⟨_, boundToLine_change b false, ?_⟩
      cases inclusive <;> simp [endLineOf]
  obtain ⟨line, hline, hend⟩ := hend
  rw [resolveRange_text, resolveBounds, (parseBound_text a).1 ha, (parseBound_text b).1 hb]
  simp only [bind, Except.bind, hstart, hline, hend]

/-- A bound that is too long is not read. -/
lemma resolveRange_long {inclusive : Bool} {a b : Option ℤ} {total : ℕ} (h : ¬(Short a ∧ Short b)) :
    resolveRange (rangeText inclusive a b) events total = .error .valueError := by
  rw [resolveRange_text, resolveBounds]
  by_cases ha : Short a
  · rw [(parseBound_text a).1 ha, (parseBound_text b).2 fun hb => h ⟨ha, hb⟩]
    rfl
  · rw [(parseBound_text a).2 ha]
    rfl

lemma changesOfEvents_changeEvents (events : List FileEvent) :
    changesOfEvents events = changesOfEvents (changeEvents events) := by
  induction events with
  | nil => rfl
  | cons event events ih =>
    cases hrecord : event.record <;>
      simp_all [changesOfEvents, changeRecords, changeEvents, FileEvent.isChange, Record.isSnapshot]

/-- The changes on the lines of a range. -/
lemma changesInRange_eq {s e : ℕ} (hsorted : events.Pairwise fun x y => x.lineNumber ≤ y.lineNumber)
    (hyield : (replayEvents events e).records.map Replayed.event =
      events.takeWhile fun event => event.lineNumber < e) :
    changesInRange events (min s e) e = changesOfEvents
      (((changeEvents events).filter fun event => event.lineNumber < e).filter fun event => s ≤ event.lineNumber) := by
  rw [changesInRange, hyield, Sorted.takeWhile_lt hsorted, changesOfEvents_changeEvents, changeEvents, changeEvents]
  congr 1
  rw [List.filter_filter, List.filter_filter, List.filter_filter, List.filter_filter]
  refine List.filter_congr fun event _ => ?_
  have hmin : min s e ≤ event.lineNumber ∧ event.lineNumber < e ↔ s ≤ event.lineNumber ∧ event.lineNumber < e := by
    omega
  rw [Bool.eq_iff_iff]
  simp only [Bool.and_eq_true, decide_eq_true_eq]
  rw [and_assoc, hmin, and_comm]

end

/-! ### The lines that a reader counts -/

lemma lineLoop_lines (fuel : ℕ) (rest : Bytes) (lineNumber pos : ℕ) :
    ((lineLoop fuel rest lineNumber pos).map RawRecord.lineNumber).Pairwise (· < ·) ∧
      ∀ n ∈ (lineLoop fuel rest lineNumber pos).map RawRecord.lineNumber, lineNumber ≤ n := by
  induction fuel generalizing rest lineNumber pos with
  | zero => simp [lineLoop]
  | succ fuel ih =>
    rw [lineLoop]
    split
    · simp
    dsimp only
    obtain ⟨hsorted, hle⟩ := ih (rest.drop ((rest.takeWhile (· ≠ newline)).length + 1)) (lineNumber + 1)
      (pos + ((rest.takeWhile (· ≠ newline)).length + 1))
    have hbehind := fun n hn => Nat.lt_of_succ_le (hle n hn)
    split
    · exact ⟨hsorted, fun n hn => (hbehind n hn).le⟩
    · rw [List.map_cons]
      refine ⟨List.pairwise_cons.mpr ⟨hbehind, hsorted⟩, fun n hn => ?_⟩
      rcases List.mem_cons.mp hn with rfl | hn
      · exact Nat.le_refl _
      · exact (hbehind n hn).le

section

variable {blake3 : Bytes → Bytes → Digest} {ser : Serializer} {framer : Framer} {content : Bytes}
  {events : List FileEvent} {total : ℕ}

lemma binLoop_lines {sync : Sync} {fuel pos : ℕ} {rest : Bytes} :
    ∀ r ∈ (binLoop blake3 sync fuel rest pos).records, r.1.lineNumber = 0 := by
  induction fuel generalizing rest pos with
  | zero => simp [binLoop]
  | succ fuel ih =>
    rw [binLoop]
    dsimp only
    repeat' split
    all_goals first
      | exact List.forall_mem_cons.mpr ⟨rfl, ih⟩
      | simp [Scan.fail]

/-- In a binary file all records are on line 0. -/
lemma iterRecords_lines_bin {sync : Sync} :
    ∀ r ∈ ((Framer.bin sync).iterRecords blake3 content 0).records, r.lineNumber = 0 := by
  rw [Framer.iterRecords]
  split
  · simp
  · split
    · intro r hr
      obtain ⟨p, hp, rfl⟩ := List.mem_map.mp hr
      exact binLoop_lines p hp
    · simp
    · simp [Scan.fail]

/-- What `scan_events` says of its events. -/
lemma scanEvents_ok (hscan : scanEvents blake3 ser framer content = .ok (events, total)) :
    events.map FileEvent.lineNumber = (framer.iterRecords blake3 content 0).records.map RawRecord.lineNumber ∧
      total = (changeEvents events).length ∧
      ∀ endLine, (replayEvents events endLine).error = none ∧
        (replayEvents events endLine).records.map Replayed.event =
          events.takeWhile fun event => event.lineNumber < endLine := by
  obtain ⟨s, hs, hscan⟩ := bind_eq_ok.mp hscan
  obtain ⟨found, hevents, hlines, -, hcount, hrun⟩ := scanRecords_ok hs
  rw [List.nil_append] at hevents
  have hpair : s.events = events ∧ s.changeCount = total := by
    split at hscan
    · simp at hscan
    · exact Prod.mk.inj (Except.ok.inj hscan)
  obtain ⟨rfl, rfl⟩ := hpair
  rw [hevents, hcount, Nat.zero_add]
  obtain ⟨r, hr, -⟩ := hrun .empty rfl
  exact ⟨hlines, rfl, fun endLine => ⟨(replayLoop_of_fold hr).1, (replayLoop_of_fold hr).2.1⟩⟩

end

/-! ### The changes of a range -/

section

variable {events : List FileEvent} {inclusive : Bool} {a b : Option ℤ}

/-- Where a range ends that is read with an inclusive end: at least behind the first change. -/
def readStop (n : ℕ) (inclusive : Bool) (b : Option ℤ) : ℕ :=
  (b.map fun b => if inclusive then min (sliceIndex n b + 1) n else sliceIndex n b).getD n

lemma startIndex_le (n : ℕ) (a : Option ℤ) : startIndex n a ≤ n := by
  cases a with
  | none => exact Nat.zero_le n
  | some a => exact sliceIndex_le n a

lemma stopIndex_le (n : ℕ) (inclusive : Bool) (b : Option ℤ) : stopIndex n inclusive b ≤ n := by
  cases b with
  | none => exact Nat.le_refl n
  | some b =>
    cases inclusive with
    | false => exact sliceIndex_le n b
    | true =>
      show throughIndex n b ≤ n
      unfold throughIndex
      omega

/-- An inclusive end that lies before the first change. -/
def EndsBefore (n : ℕ) (inclusive : Bool) (b : Option ℤ) : Prop := ∃ b', b = some b' ∧ inclusive = true ∧ (n : ℤ) + b' < 0

lemma readStop_of_before {n : ℕ} (h : EndsBefore n inclusive b) :
    stopIndex n inclusive b = 0 ∧ readStop n inclusive b = min 1 n := by
  obtain ⟨b, rfl, rfl, hb⟩ := h
  show throughIndex n b = 0 ∧ min (sliceIndex n b + 1) n = min 1 n
  unfold throughIndex sliceIndex
  omega

/-- Any other end is read as it is meant. -/
lemma readStop_of_not {n : ℕ} (h : ¬EndsBefore n inclusive b) : readStop n inclusive b = stopIndex n inclusive b := by
  cases b with
  | none => rfl
  | some b =>
    cases inclusive with
    | false => rfl
    | true =>
      have hb : ¬(n : ℤ) + b < 0 := fun hb => h ⟨b, rfl, rfl, hb⟩
      show min (sliceIndex n b + 1) n = throughIndex n b
      unfold throughIndex sliceIndex
      omega

lemma map_changesOfEvents (events : List FileEvent) :
    (changesOfEvents (changeEvents events)).map Record.change = (changeEvents events).map FileEvent.record := by
  apply map_changeRecords
  intro r hr
  obtain ⟨event, hevent, rfl⟩ := List.mem_map.mp hr
  simpa [FileEvent.isChange] using (List.mem_filter.mp hevent).2

lemma length_changesOfEvents (events : List FileEvent) :
    (changesOfEvents events).length = (changeEvents events).length := by
  have := congrArg List.length (map_changesOfEvents events)
  rwa [List.length_map, List.length_map, ← changesOfEvents_changeEvents] at this

/-- Cutting the changes is cutting their events. -/
lemma changesOfEvents_slice (i j : ℕ) :
    changesOfEvents (((changeEvents events).take j).drop i) = ((changesOfEvents events).take j).drop i := by
  rw [changesOfEvents, List.map_drop, List.map_take, ← map_changesOfEvents, ← List.map_take, ← List.map_drop,
    changeRecords_map, ← changesOfEvents_changeEvents]

/-- What is on the lines of a range of a text file. -/
lemma text_range (hsorted : Sorted.Increasing FileEvent.lineNumber (changeEvents events))
    (hend : ∀ event ∈ changeEvents events, event.lineNumber < endOfFile events) :
    (((changeEvents events).filter fun event => event.lineNumber < endLineOf events inclusive b).filter
        fun event => startLineOf events a ≤ event.lineNumber) =
      ((changeEvents events).take (readStop (changeEvents events).length inclusive b)).drop
        (startIndex (changeEvents events).length a) := by
  have htake : (changeEvents events).filter (fun event => event.lineNumber < endLineOf events inclusive b) =
      (changeEvents events).take (readStop (changeEvents events).length inclusive b) := by
    cases b with
    | none =>
      have hall : (changeEvents events).filter (fun event => event.lineNumber < endOfFile events) = changeEvents events :=
        List.filter_eq_self.mpr fun event he => decide_eq_true (hend event he)
      exact hall.trans List.take_length.symm
    | some b =>
      cases inclusive with
      | false => exact Sorted.filter_lt hsorted hend
      | true =>
        show (changeEvents events).filter (fun event => event.lineNumber <
          changeLine events (sliceIndex (changeEvents events).length b) + 1) = (changeEvents events).take
            (min (sliceIndex (changeEvents events).length b + 1) (changeEvents events).length)
        simp only [Nat.lt_succ_iff]
        have hle := sliceIndex_le (changeEvents events).length b
        generalize sliceIndex (changeEvents events).length b = j at *
        by_cases hj : j < (changeEvents events).length
        · rw [Nat.min_eq_left hj]
          exact Sorted.filter_le hsorted hj
        · rw [Nat.min_eq_right (by omega), List.take_length, changeLine, Sorted.keyAt_of_le (by omega)]
          exact List.filter_eq_self.mpr fun event he => decide_eq_true (hend event he).le
  rw [htake]
  cases a with
  | none =>
    rw [show startIndex (changeEvents events).length none = 0 from rfl, List.drop_zero, List.filter_eq_self]
    exact fun event _ => decide_eq_true (Nat.zero_le _)
  | some a => exact Sorted.filter_not_lt hsorted hend _

/-- Where a binary file has its changes, and where it ends. -/
lemma bin_lines (hzero : ∀ event ∈ events, event.lineNumber = 0) (hne : changeEvents events ≠ []) :
    endOfFile events = 1 ∧ ∀ i, changeLine events i = if i < (changeEvents events).length then 0 else 1 := by
  have heof : endOfFile events = 1 := by
    obtain ⟨event, he⟩ := List.exists_mem_of_ne_nil _ hne
    have hne' : events ≠ [] := List.ne_nil_of_mem (List.mem_filter.mp he).1
    rw [endOfFile, List.getLast?_eq_some_getLast hne']
    exact congrArg (· + 1) (hzero _ (List.getLast_mem hne'))
  refine ⟨heof, fun i => ?_⟩
  rw [changeLine, Sorted.keyAt, heof]
  split
  · rename_i hi
    rw [List.getElem?_eq_getElem hi]
    exact hzero _ (List.mem_filter.mp (List.getElem_mem hi)).1
  · rw [List.getElem?_eq_none (by omega)]
    rfl

/-- What is on the lines of a range of a binary file. -/
lemma bin_range (hzero : ∀ event ∈ events, event.lineNumber = 0) (hne : changeEvents events ≠ []) :
    (((changeEvents events).filter fun event => event.lineNumber < endLineOf events inclusive b).filter
        fun event => startLineOf events a ≤ event.lineNumber) =
      if startIndex (changeEvents events).length a < (changeEvents events).length ∧
        (inclusive = true ∨ stopIndex (changeEvents events).length inclusive b = (changeEvents events).length)
      then changeEvents events else [] := by
  obtain ⟨heof, hline⟩ := bin_lines hzero hne
  have hpos : 0 < (changeEvents events).length := List.length_pos_of_ne_nil hne
  have hstart : startLineOf events a ≤ 0 ↔ startIndex (changeEvents events).length a < (changeEvents events).length := by
    cases a with
    | none => exact iff_of_true (Nat.le_refl 0) hpos
    | some a =>
      show changeLine events (sliceIndex (changeEvents events).length a) ≤ 0 ↔
        sliceIndex (changeEvents events).length a < (changeEvents events).length
      rw [hline]
      split <;> simp [*]
  have hend : 0 < endLineOf events inclusive b ↔
      inclusive = true ∨ stopIndex (changeEvents events).length inclusive b = (changeEvents events).length := by
    cases b with
    | none => exact iff_of_true (by simp [endLineOf, heof]) (Or.inr rfl)
    | some b =>
      cases inclusive with
      | true => exact iff_of_true (Nat.succ_pos _) (Or.inl rfl)
      | false =>
        show 0 < changeLine events (sliceIndex (changeEvents events).length b) ↔
          false = true ∨ sliceIndex (changeEvents events).length b = (changeEvents events).length
        have hle := sliceIndex_le (changeEvents events).length b
        rw [hline]
        split
        · simp only [Bool.false_eq_true, false_or]
          omega
        · simp only [Bool.false_eq_true, false_or]
          omega
  rw [List.filter_filter]
  have hmem : ∀ event ∈ changeEvents events, event.lineNumber = 0 := fun event he =>
    hzero event (List.mem_filter.mp he).1
  split
  · rename_i hboth
    rw [← hstart, ← hend] at hboth
    refine List.filter_eq_self.mpr fun event he => ?_
    simpa [hmem event he] using hboth
  · rename_i hboth
    rw [← hstart, ← hend] at hboth
    refine List.filter_eq_nil_iff.mpr fun event he => ?_
    simpa [hmem event he] using hboth

/-- The changes that a range of a scanned file means. -/
lemma slices_iff (ha : Short a) (hb : Short b)
    (hsorted : events.Pairwise fun x y => x.lineNumber ≤ y.lineNumber)
    (hyield : ∀ endLine, (replayEvents events endLine).error = none ∧
      (replayEvents events endLine).records.map Replayed.event =
        events.takeWhile fun event => event.lineNumber < endLine) :
    Slices events (changeEvents events).length inclusive a b ↔
      changesOfEvents (((changeEvents events).filter fun event =>
        event.lineNumber < endLineOf events inclusive b).filter fun event => startLineOf events a ≤ event.lineNumber) =
        slice inclusive a b (changesOfEvents events) := by
  have hresolve := @resolveRange_ok events inclusive a b ha hb
  have hrange := @changesInRange_eq events (startLineOf events a) (endLineOf events inclusive b) hsorted
    (hyield _).2
  constructor
  · rintro ⟨startLine, endLine, hres, -, heq⟩
    obtain ⟨rfl, rfl⟩ := Prod.mk.inj (Except.ok.inj (hresolve.symm.trans hres))
    exact hrange.symm.trans heq
  · intro heq
    exact ⟨_, _, hresolve, (hyield _).1, hrange.trans heq⟩

lemma text_slices_iff (l : List ChangeRecord) :
    (l.take (readStop l.length inclusive b)).drop (startIndex l.length a) = slice inclusive a b l ↔
      Sliceable .line l.length inclusive a b := by
  have hsliceable : Sliceable .line l.length inclusive a b ↔
      (EndsBefore l.length inclusive b → startIndex l.length a = 0 → l.length = 0) :=
    ⟨fun h ⟨b', hb, hinc, hlt⟩ => h b' hb hinc hlt, fun h b' hb hinc hlt => h ⟨b', hb, hinc, hlt⟩⟩
  rw [hsliceable, slice]
  by_cases hbefore : EndsBefore l.length inclusive b
  · obtain ⟨hstop, hread⟩ := readStop_of_before hbefore
    rw [hstop, hread, List.take_zero, List.drop_nil, List.drop_eq_nil_iff, List.length_take]
    simp only [hbefore, true_implies]
    omega
  · exact iff_of_true (by rw [readStop_of_not hbefore]) fun h => (hbefore h).elim

lemma bin_slices_iff {l : List ChangeRecord} {sync : Sync} (hne : l ≠ []) :
    (if startIndex l.length a < l.length ∧ (inclusive = true ∨ stopIndex l.length inclusive b = l.length) then l else []) =
        slice inclusive a b l ↔ Sliceable (.bin sync) l.length inclusive a b := by
  have hpos := List.length_pos_of_ne_nil hne
  have hstart := startIndex_le l.length a
  have hstop := stopIndex_le l.length inclusive b
  have hall : l = slice inclusive a b l ↔ startIndex l.length a = 0 ∧ stopIndex l.length inclusive b = l.length := by
    constructor
    · intro h
      have hlen := congrArg List.length h
      rw [slice, List.length_drop, List.length_take] at hlen
      omega
    · rintro ⟨hi, hj⟩
      rw [slice, hi, hj, List.take_length, List.drop_zero]
  have hnone : [] = slice inclusive a b l ↔ stopIndex l.length inclusive b ≤ startIndex l.length a := by
    rw [eq_comm, slice, List.drop_eq_nil_iff, List.length_take]
    omega
  simp only [Sliceable]
  generalize startIndex l.length a = i at *
  generalize stopIndex l.length inclusive b = j at *
  split
  · rename_i h
    rw [hall]
    cases inclusive with
    | true =>
      simp only [if_true]
      omega
    | false =>
      simp only [Bool.false_eq_true, if_false, false_or] at h ⊢
      omega
  · rename_i h
    rw [hnone]
    cases inclusive with
    | true =>
      simp only [true_or, and_true, if_true] at h ⊢
      omega
    | false =>
      simp only [Bool.false_eq_true, if_false, false_or] at h ⊢
      omega

/-- **When a range of changes is a slice** of the changes of the file. -/
theorem select_slices_iff {blake3 : Bytes → Bytes → Digest} {ser : Serializer} {framer : Framer} {content : Bytes}
    {total : ℕ} (hscan : scanEvents blake3 ser framer content = .ok (events, total)) (inclusive : Bool)
    (a b : Option ℤ) : Slices events total inclusive a b ↔
      Short a ∧ Short b ∧ Sliceable framer (changesOfEvents events).length inclusive a b := by
  obtain ⟨hlines, rfl, hyield⟩ := scanEvents_ok hscan
  by_cases hshort : Short a ∧ Short b
  case neg =>
    refine iff_of_false ?_ fun h => hshort ⟨h.1, h.2.1⟩
    rintro ⟨startLine, endLine, hres, -⟩
    rw [resolveRange_long hshort] at hres
    simp at hres
  obtain ⟨ha, hb⟩ := hshort
  refine Iff.trans ?_ (show Sliceable framer (changesOfEvents events).length inclusive a b ↔ _ from
    ⟨fun h => ⟨ha, hb, h⟩, fun h => h.2.2⟩)
  cases framer with
  | line =>
    have hstrict : events.Pairwise fun x y => x.lineNumber < y.lineNumber :=
      List.pairwise_map.mp (hlines ▸ (lineLoop_lines _ _ _ _).1)
    have hsorted : events.Pairwise fun x y => x.lineNumber ≤ y.lineNumber := hstrict.imp Nat.le_of_lt
    have hend : ∀ event ∈ changeEvents events, event.lineNumber < endOfFile events := fun event he =>
      lt_endOfFile (List.pairwise_map.mpr hsorted) event (List.mem_filter.mp he).1
    rw [slices_iff ha hb hsorted hyield, text_range (hstrict.filter _) hend, changesOfEvents_slice,
      ← length_changesOfEvents]
    exact text_slices_iff _
  | bin sync =>
    have hzero : ∀ event ∈ events, event.lineNumber = 0 := by
      intro event he
      have hmem := hlines ▸ List.mem_map_of_mem (f := FileEvent.lineNumber) he
      obtain ⟨raw, hraw, hline⟩ := List.mem_map.mp hmem
      rw [← hline, iterRecords_lines_bin raw hraw]
    have hsorted : events.Pairwise fun x y => x.lineNumber ≤ y.lineNumber :=
      List.pairwise_of_forall_mem_list fun x hx y hy => by rw [hzero x hx, hzero y hy]
    rw [slices_iff ha hb hsorted hyield]
    by_cases hne : changeEvents events = []
    · have hlen : (changesOfEvents events).length = 0 := by
        rw [length_changesOfEvents, hne]
        rfl
      have hstart := startIndex_le (changesOfEvents events).length a
      have hstop := stopIndex_le (changesOfEvents events).length inclusive b
      refine iff_of_true ?_ (Or.inl ⟨by omega, by omega⟩)
      rw [List.length_eq_zero_iff.mp hlen, hne, slice, List.take_nil, List.drop_nil]
      rfl
    · rw [bin_range hzero hne, apply_ite changesOfEvents, ← changesOfEvents_changeEvents, ← length_changesOfEvents]
      refine bin_slices_iff fun h => hne ?_
      rw [← List.length_eq_zero_iff, ← length_changesOfEvents, h]
      rfl

end

namespace Sample

/-- A binary framer. -/
def binary : Framer := .bin ⟨[4, 3, 2, 1], rfl⟩

lemma short_digit {n : ℤ} (h : n.natAbs < 10) : Short (some n) := by
  intro m hm
  obtain rfl := Option.some.inj hm
  exact lt_intBound h

/-- How many changes are on the lines of a range, and in the slice that it means. -/
def rangeCounts (framer : Framer) (inclusive : Bool) (a b : Option ℤ) : Option (ℕ × ℕ) := do
  let content ← (frameRecords (env 1).blake3 ser framer 0 three).toOption
  let scanned ← (scanEvents (env 1).blake3 ser framer content).toOption
  let endLine := endLineOf scanned.1 inclusive b
  some ((changesInRange scanned.1 (min (startLineOf scanned.1 a) endLine) endLine).length,
    (slice inclusive a b (changesOfEvents scanned.1)).length)

/-- A range of the sample that is no slice. -/
lemma exists_range (framer : Framer) {inclusive : Bool} {a b : Option ℤ} (ha : Short a) (hb : Short b) {n m : ℕ}
    (hne : n ≠ m) (h : rangeCounts framer inclusive a b = some (n, m)) :
    ∃ content events total, frameRecords (env 1).blake3 ser framer 0 three = .ok content ∧
      scanEvents (env 1).blake3 ser framer content = .ok (events, total) ∧ ¬Slices events total inclusive a b := by
  obtain ⟨content, hcontent, h⟩ := Option.bind_eq_some_iff.mp h
  obtain ⟨⟨events, total⟩, hscan, h⟩ := Option.bind_eq_some_iff.mp h
  obtain ⟨hn, hm⟩ := Prod.mk.inj (Option.some.inj h)
  refine ⟨content, events, total, eq_ok_of_toOption hcontent, eq_ok_of_toOption hscan, ?_⟩
  rintro ⟨startLine, endLine, hres, -, heq⟩
  rw [(scanEvents_ok (eq_ok_of_toOption hscan)).2.1] at hres
  obtain ⟨rfl, rfl⟩ := Prod.mk.inj (Except.ok.inj ((resolveRange_ok ha hb).symm.trans hres))
  refine hne ?_
  rw [← hn, ← hm]
  exact congrArg List.length heq

end Sample

open Sample in
/-- The second change of a text file, with a snapshot in front of it. -/
theorem select_slices_second : ∃ content events total,
    frameRecords (env 1).blake3 ser .line 0 three = .ok content ∧
      scanEvents (env 1).blake3 ser .line content = .ok (events, total) ∧
      Slices events total false (some (-1)) none := by
  have hcontent : ((frameRecords (env 1).blake3 ser .line 0 three).toOption.bind fun content =>
      (scanEvents (env 1).blake3 ser .line content).toOption).isSome = true := by decide +kernel
  obtain ⟨⟨events, total⟩, hscan⟩ := Option.isSome_iff_exists.mp hcontent
  obtain ⟨content, hcontent, hscan⟩ := Option.bind_eq_some_iff.mp hscan
  refine ⟨content, events, total, eq_ok_of_toOption hcontent, eq_ok_of_toOption hscan, ?_⟩
  exact (select_slices_iff (eq_ok_of_toOption hscan) false (some (-1)) none).mpr
    ⟨short_digit (by decide), fun n hn => by simp at hn, show ∀ b', none = some b' → _ from fun b' hb => by simp at hb⟩

open Sample in
/-- **`0..-5` is the first change** of a text file with two, and `0:1` is no change of a binary one. -/
theorem ranges_unlike_slices :
    (∃ content events total, frameRecords (env 1).blake3 ser .line 0 three = .ok content ∧
      scanEvents (env 1).blake3 ser .line content = .ok (events, total) ∧
      ¬Slices events total true (some 0) (some (-5))) ∧
    ∃ content events total, frameRecords (env 1).blake3 ser binary 0 three = .ok content ∧
      scanEvents (env 1).blake3 ser binary content = .ok (events, total) ∧
      ¬Slices events total false (some 0) (some 1) :=
  ⟨exists_range .line (short_digit (by decide)) (short_digit (by decide)) (show 1 ≠ 0 by decide) (by decide +kernel),
    exists_range binary (short_digit (by decide)) (short_digit (by decide)) (show 0 ≠ 1 by decide) (by decide +kernel)⟩

end Kanta
