import Kanta.Ranges
import Kanta.Rendering
import Kanta.Select

/-!
# Printing the log

`python -m kanta` prints the events of a range, and with `--grep` those that are found, with the matches highlighted.
That is all that `--grep` does to the log: the blocks that are printed are blocks of the log without it, in their
order, with marks between their characters (`grep_filters`).  A single snapshot that is selected is printed whatever
the patterns are.
-/

namespace Kanta

open Kanta.Lib Kanta.Lib.Ansi Kanta.Lib.Sgr

/-! ### The shell -/

/-- A change as a `LogEvent`, as far as it is rendered; `header` is what a handler has put in its place. -/
structure ChangeEvent where
  action : Text
  user : Option Text
  extra : Option Text
  diff : Val
  previous : Val
  logfmt : Option Logfmt
  header : Option Text

/-- A `logemit` callback, which may change the event; it returns whether the event is passed on. -/
abbrev Handler := ChangeEvent → ChangeEvent × Except Exc Bool

/-- What the log is printed with. -/
structure Shell where
  cells : Char → ℕ
  palette : Palette
  lib : Library
  /-- `build_logfmt` with the states before and after an event. -/
  buildLogfmt : Val → Val → Logfmt
  handlers : List Handler
  formatTs : DateTime → Text
  formatSize : ℕ → Text
  /-- `len(serializer.encode(state))`. -/
  encodedSize : Dict → Except Exc ℕ

/-- The handlers of `emit_event`: the event that is still to be rendered.  One that raises is the last one. -/
def passThrough : List Handler → ChangeEvent → Except Exc (Option ChangeEvent)
  | [], ev => .ok (some ev)
  | handler :: rest, ev =>
    match handler ev with
    | (ev, .ok true) => passThrough rest ev
    | (_, .ok false) => .ok none
    | (ev, .error e) => if e.isException then .ok (some ev) else .error e

namespace Shell

variable (sh : Shell)

def renderer (logfmt : Option Logfmt) : Renderer := ⟨sh.cells, sh.palette, sh.lib, logfmt⟩

/-- `record_change_event`. -/
def recordChangeEvent (record : ChangeRecord) (previous current : Val) : ChangeEvent :=
  let logfmt := sh.buildLogfmt previous current
  let user := record.u.map fun user => (logfmt (.str user) userPath).getD user.toList
  ⟨record.a.toList, user, none, record.diff.val, previous, some logfmt, none⟩

/-- `ev.header`. -/
def header (ev : ChangeEvent) : Except Exc Text :=
  match ev.header with
  | some header => .ok header
  | none => (sh.renderer ev.logfmt).formatActionHeader .off ev.action ev.user ev.extra

/-- The header, as the fallback of `_print_change_log` gets it. -/
def renderHeader (hl : Option Highlight) (ev : ChangeEvent) : Except Exc Text :=
  match hl with
  | some hl => (sh.renderer ev.logfmt).formatActionHeader hl ev.action ev.user ev.extra
  | none => sh.header ev

/-- What is printed for a header and the lines of a diff. -/
def block (first : Text) : List Text → List Text
  | [] => [first]
  | [line] => [first ++ line]
  | lines => first :: lines ++ [[]]

/-- The fallback of `_print_change_log`. -/
def renderChange (label : String) (ts : DateTime) (hl : Option Highlight) (ev : ChangeEvent) :
    Except Exc (List Text) := do
  let header ← sh.renderHeader hl ev
  let lines ← (sh.renderer ev.logfmt).formatDiff (hl.getD .off) ev.diff ev.previous
  .ok (block (label.toList ++ [' '] ++ sh.formatTs ts ++ [' '] ++ header) lines)

/-- `_print_change_log`; `emit_event` reports what rendering raises, and goes on. -/
def printChangeLog (label : String) (record : ChangeRecord) (previous current : Val) (hl : Option Highlight) :
    Except Exc (List Text) :=
  match passThrough sh.handlers (sh.recordChangeEvent record previous current) with
  | .error e => .error e
  | .ok none => .ok []
  | .ok (some ev) =>
    match sh.renderChange label record.ts hl ev with
    | .ok lines => .ok lines
    | .error e => if e.isException then .ok [] else .error e

open Line (wordsIn) in
/-- `_print_snapshot_indicator`. -/
def snapshotIndicator (label : String) (snap : Snapshot) (index : ℕ) : Except Exc (List Text) := do
  let mtime :=
    match snap.m with
    | some m => wordsIn "target" [' ' :: sh.formatTs m]
    | none => []
  let size ← sh.encodedSize snap.state
  let line ← (sh.renderer none).render (wordsIn "snapshot" ["snapshot".toList] ++
    wordsIn "snapshot" [" s".toList ++ (toString index).toList] ++
    wordsIn "target" [" v".toList ++ (toString snap.v).toList] ++ mtime ++
    wordsIn "path_prefix" [' ' :: sh.formatSize size])
  .ok [label.toList ++ [' '] ++ sh.formatTs snap.ts ++ [' '] ++ line]

/-- `snapshot_line_to_index[line]`; of two indices of one line, the last one. -/
def snapshotIndex (events : List FileEvent) (line : ℕ) : ℕ :=
  ((snapshotLines events).zipIdx.reverse.lookup line).getD 0

/-- What one event of the range prints, if it is found. -/
def printEvent (patterns : List GrepPattern) (events : List FileEvent) (item : Replayed) :
    Except Exc (Option (List Text)) :=
  let label := recordLabel item.event.lineNumber item.event.recordIndex
  match item.event.record with
  | .snapshot snap =>
    if patterns ≠ [] ∧
        matchesSnapshot sh.lib item.state patterns (some (sh.buildLogfmt item.state item.state)) = false then .ok none
    else some <$> sh.snapshotIndicator label snap (snapshotIndex events item.event.lineNumber)
  | .change record =>
    let previous := item.previous.getD .null
    if patterns = [] then some <$> sh.printChangeLog label record previous item.state none
    else
      match evaluate sh.lib record previous patterns (some (sh.buildLogfmt previous item.state)) with
      | .error e => .error e
      | .ok none => .ok none
      | .ok (some h) => some <$> sh.printChangeLog label record previous item.state (some (h.hook sh.lib))

/-- The loop of `_run` over the events up to the end of the range: the events that print something, with what they
print. -/
def printLoop (patterns : List GrepPattern) (events : List FileEvent) (startLine : ℕ) (quiet : Bool) :
    List Replayed → Scan (Replayed × List Text)
  | [] => ⟨[], none⟩
  | item :: items =>
    if item.event.lineNumber < startLine ∨ quiet = true then printLoop patterns events startLine quiet items
    else
      match sh.printEvent patterns events item with
      | .error e => .fail e
      | .ok none => printLoop patterns events startLine quiet items
      | .ok (some lines) => (printLoop patterns events startLine quiet items).cons (item, lines)

/-- The log of a selection: a single snapshot is printed as it is, a range of lines is replayed. -/
def printLog (patterns : List GrepPattern) (events : List FileEvent) (selection : Selection) (quiet : Bool) :
    Scan (Replayed × List Text) :=
  match selection.snapshot with
  | some shown =>
    if quiet then ⟨[], none⟩
    else
      match sh.snapshotIndicator (recordLabel shown.lineNumber shown.recordIndex) shown.snap
        (snapshotIndex events shown.lineNumber) with
      | .error e => .fail e
      | .ok lines => ⟨[(⟨shown.event, none, shown.snap.state.val⟩, lines)], none⟩
  | none =>
    let scan := replayEvents events selection.endLine
    let blocks := sh.printLoop patterns events selection.startLine quiet scan.records
    ⟨blocks.records, blocks.error.or scan.error⟩

/-- The lines of the log; behind it stands an empty line. -/
def logLines (log : Scan (Replayed × List Text)) : List Text :=
  log.records.flatMap Prod.snd ++ if log.error.isNone ∧ log.records ≠ [] then [[]] else []

/-- `_print` of each line. -/
def written (useColor : Bool) (log : Scan (Replayed × List Text)) : List Text :=
  if useColor then logLines log else (logLines log).map stripAnsi

/-- The patterns find the event. -/
def finds (patterns : List GrepPattern) (item : Replayed) : Bool :=
  match item.event.record with
  | .snapshot _ => matchesSnapshot sh.lib item.state patterns (some (sh.buildLogfmt item.state item.state))
  | .change record =>
    let previous := item.previous.getD .null
    match evaluate sh.lib record previous patterns (some (sh.buildLogfmt previous item.state)) with
    | .ok (some _) => true
    | _ => false

end Shell

/-! ### What is read to its end -/

/-- The colors are no 24-bit colors, what `logfmt` returns is read to its end, and numbers, times and sizes are written
without an escape. -/
structure Shell.Sound (sh : Shell) : Prop where
  palette : ∀ q ∈ sh.palette, IsPlainSpec q.2
  logfmt : ∀ previous current v path text, sh.buildLogfmt previous current v path = some text → Closed text
  repr : ∀ v, esc ∉ (sh.lib.repr v).toList
  formatTs : ∀ t, esc ∉ sh.formatTs t
  formatSize : ∀ n, esc ∉ sh.formatSize n

/-- The event has no header of a handler, and no escapes in its texts and in the keys of its diff. -/
structure ChangeEvent.Clean (lib : Library) (ev : ChangeEvent) : Prop where
  header : ev.header = none
  action : Closed ev.action
  user : ∀ text, ev.user = some text → Closed text
  extra : ∀ text, ev.extra = some text → Closed text
  logfmt : ∀ logfmt, ev.logfmt = some logfmt → ∀ v path text, logfmt v path = some text → Closed text
  keys : ∀ changes, collectChanges lib.repr ev.previous (unmarshal ev.diff) [] [] = .ok changes →
    ∀ change ∈ changes, ∀ k ∈ change.path, esc ∉ k.toList

section

variable {sh : Shell} {ev : ChangeEvent} {hl : Highlight} {patterns : List GrepPattern} {events : List FileEvent}
  {item : Replayed} {items : List Replayed} {startLine : ℕ} {quiet : Bool}

lemma esc_notMem_toString (n : ℕ) : esc ∉ (toString n).toList := fun hm => by
  have hdigits : (toString n).toList = digits n := Nat.toList_repr
  exact notMem_digits (by decide) n (hdigits ▸ hm)

lemma esc_notMem_toString_int (n : ℤ) : esc ∉ (toString n).toList := by
  rw [toList_toString]
  refine List.not_mem_append ?_ (notMem_digits (by decide) _)
  split <;> decide

lemma esc_notMem_recordLabel (lineNumber recordIndex : ℕ) : esc ∉ (recordLabel lineNumber recordIndex).toList := by
  have hpushed : ∀ (s : String) (n : ℕ), esc ∉ s.toList → esc ∉ (s.pushn ' ' n).toList := by
    intro s n h
    rw [String.pushn_eq_repeat_push]
    induction n with
    | zero => exact h
    | succ n ih =>
      rw [Nat.repeat, String.toList_push]
      exact List.not_mem_append ih (by decide)
  rw [recordLabel, String.toList_append]
  exact List.not_mem_append (by decide) (hpushed _ _ (esc_notMem_toString _))

lemma ChangeEvent.Clean.sound (hsh : sh.Sound) (hev : ev.Clean sh.lib) : (sh.renderer ev.logfmt).Sound := by
  refine ⟨hsh.palette, fun v path text h => ?_, hsh.repr⟩
  obtain ⟨logfmt, hlogfmt, htext⟩ := Option.bind_eq_some_iff.mp h
  exact hev.logfmt logfmt hlogfmt v path text htext

lemma forall₂_block {first first' : Text} {lines lines' : List Text} (hfirst : MarkedUp first first')
    (hlines : List.Forall₂ MarkedUp lines lines') :
    List.Forall₂ MarkedUp (Shell.block first lines) (Shell.block first' lines') := by
  cases hlines with
  | nil => exact .cons hfirst .nil
  | cons hline hrest =>
    cases hrest with
    | nil => exact .cons (hfirst.append hline) .nil
    | cons hnext hrest =>
      exact .cons hfirst (List.rel_append (.cons hline (.cons hnext hrest)) (.cons (.refl closed_nil) .nil))

/-- **A change that is printed with its matches.** -/
lemma agree_renderChange (hsh : sh.Sound) (hev : ev.Clean sh.lib) (hhl : hl.OnlyMarks) (lineNumber recordIndex : ℕ)
    (ts : DateTime) : Agree (List.Forall₂ MarkedUp)
      (sh.renderChange (recordLabel lineNumber recordIndex) ts none ev)
      (sh.renderChange (recordLabel lineNumber recordIndex) ts (some hl) ev) := by
  have hr := hev.sound hsh
  have hspace : MarkedUp [' '] [' '] := .of_notMem (by decide)
  have hlabel : MarkedUp (recordLabel lineNumber recordIndex).toList (recordLabel lineNumber recordIndex).toList :=
    .of_notMem (esc_notMem_recordLabel _ _)
  have hheader : Agree MarkedUp (sh.renderHeader none ev) (sh.renderHeader (some hl) ev) := by
    rw [Shell.renderHeader, Shell.renderHeader, Shell.header, hev.header]
    exact agree_formatActionHeader hr hhl hev.action hev.user hev.extra
  refine hheader.bind fun header header' hheader => ?_
  refine (agree_formatDiff hr hhl hev.keys).bind fun lines lines' hlines => .ok (forall₂_block ?_ hlines)
  exact (((hlabel.append hspace).append (.of_notMem (hsh.formatTs ts))).append hspace).append hheader

/-- What the handlers pass on of an event is clean. -/
def Shell.CleanEvent (sh : Shell) (item : Replayed) : Prop :=
  ∀ record, item.event.record = .change record →
    ∀ ev, passThrough sh.handlers (sh.recordChangeEvent record (item.previous.getD .null) item.state) = .ok (some ev) →
      ev.Clean sh.lib

lemma agree_printChangeLog (hsh : sh.Sound) (hclean : sh.CleanEvent item) (hhl : hl.OnlyMarks) {record : ChangeRecord}
    (hrecord : item.event.record = .change record) (lineNumber recordIndex : ℕ) :
    Agree (List.Forall₂ MarkedUp)
      (sh.printChangeLog (recordLabel lineNumber recordIndex) record (item.previous.getD .null) item.state none)
      (sh.printChangeLog (recordLabel lineNumber recordIndex) record (item.previous.getD .null) item.state
        (some hl)) := by
  rw [Shell.printChangeLog, Shell.printChangeLog]
  cases hpassed : passThrough sh.handlers (sh.recordChangeEvent record (item.previous.getD .null) item.state) with
  | error e => exact .error e
  | ok passed =>
    cases passed with
    | none => exact .ok .nil
    | some ev =>
      have hrendered := agree_renderChange hsh (hclean record hrecord ev hpassed) hhl lineNumber recordIndex record.ts
      dsimp only
      generalize sh.renderChange (recordLabel lineNumber recordIndex) record.ts none ev = x at hrendered
      generalize sh.renderChange (recordLabel lineNumber recordIndex) record.ts (some hl) ev = y at hrendered
      cases hrendered with
      | ok hlines => exact .ok hlines
      | error e =>
        dsimp only
        split
        · exact .ok .nil
        · exact .error e

lemma agree_snapshotIndicator (hsh : sh.Sound) (lineNumber recordIndex : ℕ) (snap : Snapshot) (index : ℕ) :
    Agree (List.Forall₂ MarkedUp) (sh.snapshotIndicator (recordLabel lineNumber recordIndex) snap index)
      (sh.snapshotIndicator (recordLabel lineNumber recordIndex) snap index) := by
  have hspaced : ∀ {text : Text}, esc ∉ text → MarkedUp (' ' :: text) (' ' :: text) := fun h =>
    .of_notMem (List.not_mem_cons_of_ne_of_not_mem (by decide) h)
  have hspace : MarkedUp [' '] [' '] := .of_notMem (by decide)
  have hwords : ∀ (color : String) {text : Text}, MarkedUp text text →
      List.Forall₂ Line.Op.Alike (Line.wordsIn color [text]) (Line.wordsIn color [text]) :=
    fun color _ h => alike_wordsIn color (.cons h .nil)
  rw [Shell.snapshotIndicator]
  refine (Agree.refl (R := Eq) fun _ _ => rfl).bind fun size _ hsize => ?_
  subst hsize
  refine Agree.bind (agree_render hsh.palette ?_) fun line line' hline => .ok (.cons ?_ .nil)
  · have hindex : MarkedUp (" s".toList ++ (toString index).toList) (" s".toList ++ (toString index).toList) :=
      .of_notMem (List.not_mem_append (by decide) (esc_notMem_toString _))
    have hversion : MarkedUp (" v".toList ++ (toString snap.v).toList) (" v".toList ++ (toString snap.v).toList) :=
      .of_notMem (List.not_mem_append (by decide) (esc_notMem_toString_int _))
    refine List.rel_append (List.rel_append (List.rel_append (List.rel_append ?_ (hwords _ hindex))
      (hwords _ hversion)) ?_) (hwords _ (hspaced (hsh.formatSize size)))
    · exact hwords _ (.of_notMem (by decide))
    · cases snap.m with
      | none => exact .nil
      | some m => exact hwords _ (hspaced (hsh.formatTs m))
  · exact ((((MarkedUp.of_notMem (esc_notMem_recordLabel _ _)).append hspace).append
      (.of_notMem (hsh.formatTs _))).append hspace).append hline

/-- What is computed with both, if both return. -/
lemma related_of_map {x y : Except Exc (List Text)} (h : Agree (List.Forall₂ MarkedUp) x y)
    {plain found : Option (List Text)} (hplain : some <$> x = .ok plain) (hfound : some <$> y = .ok found) :
    ∃ lines lines', plain = some lines ∧ found = some lines' ∧ List.Forall₂ MarkedUp lines lines' := by
  obtain ⟨lines, rfl, rfl⟩ := map_eq_ok.mp hplain
  obtain ⟨lines', rfl, rfl⟩ := map_eq_ok.mp hfound
  obtain ⟨_, he, hlines⟩ := h.exists_ok
  obtain rfl := Except.ok.inj he
  exact ⟨lines, _, rfl, rfl, hlines⟩

/-- **One event**: it is found and prints the same with marks, or it is not found and prints nothing. -/
lemma printEvent_found (hsh : sh.Sound) (hclean : sh.CleanEvent item) (hpatterns : patterns ≠ [])
    {plain found : Option (List Text)} (hplain : sh.printEvent [] events item = .ok plain)
    (hfound : sh.printEvent patterns events item = .ok found) : ∃ lines, plain = some lines ∧
      ((sh.finds patterns item = true ∧ ∃ lines', found = some lines' ∧ List.Forall₂ MarkedUp lines lines') ∨
        (sh.finds patterns item = false ∧ found = none)) := by
  rw [Shell.printEvent] at hplain hfound
  rw [Shell.finds]
  cases hrecord : item.event.record with
  | snapshot snap =>
    have hself := agree_snapshotIndicator hsh item.event.lineNumber item.event.recordIndex snap
      (Shell.snapshotIndex events item.event.lineNumber)
    rw [hrecord] at hplain hfound
    dsimp only at hplain hfound ⊢
    generalize matchesSnapshot sh.lib item.state patterns (some (sh.buildLogfmt item.state item.state)) = m at hfound ⊢
    simp only [ne_eq, not_true_eq_false, false_and, if_false] at hplain
    cases m with
    | false =>
      rw [if_pos ⟨hpatterns, rfl⟩] at hfound
      obtain ⟨lines, -, hlines, -⟩ := related_of_map hself hplain hplain
      exact ⟨lines, hlines, Or.inr ⟨rfl, (Except.ok.inj hfound).symm⟩⟩
    | true =>
      rw [if_neg (by simp)] at hfound
      obtain ⟨lines, lines', hlines, hlines', hmarked⟩ := related_of_map hself hplain hfound
      exact ⟨lines, hlines, Or.inl ⟨rfl, lines', hlines', hmarked⟩⟩
  | change record =>
    rw [hrecord] at hplain hfound
    dsimp only at hplain hfound ⊢
    rw [if_pos rfl] at hplain
    rw [if_neg hpatterns] at hfound
    rcases hresult : evaluate sh.lib record (item.previous.getD .null) patterns
      (some (sh.buildLogfmt (item.previous.getD .null) item.state)) with e | _ | h
    · rw [hresult] at hfound
      cases hfound
    · rw [hresult] at hfound
      obtain ⟨lines, -, rfl⟩ := map_eq_ok.mp hplain
      exact ⟨lines, rfl, Or.inr ⟨rfl, (Except.ok.inj hfound).symm⟩⟩
    · rw [hresult] at hfound
      have hagree := agree_printChangeLog hsh hclean (h.onlyMarks sh.lib) hrecord item.event.lineNumber
        item.event.recordIndex
      obtain ⟨lines, lines', hlines, hlines', hmarked⟩ := related_of_map hagree hplain hfound
      exact ⟨lines, hlines, Or.inl ⟨rfl, lines', hlines', hmarked⟩⟩

/-- **The loop.** -/
lemma printLoop_found (hsh : sh.Sound) (hpatterns : patterns ≠ []) (hclean : ∀ item ∈ items, sh.CleanEvent item)
    (hplain : (sh.printLoop [] events startLine quiet items).error = none)
    (hfound : (sh.printLoop patterns events startLine quiet items).error = none) :
    List.Forall₂ (fun p q : Replayed × List Text => p.1 = q.1 ∧ List.Forall₂ MarkedUp p.2 q.2)
      ((sh.printLoop [] events startLine quiet items).records.filter fun p => sh.finds patterns p.1)
      (sh.printLoop patterns events startLine quiet items).records := by
  induction items with
  | nil => exact .nil
  | cons item items ih =>
    obtain ⟨hitem, hitems⟩ := List.forall_mem_cons.mp hclean
    rw [Shell.printLoop] at hplain hfound ⊢
    rw [Shell.printLoop]
    by_cases hskip : item.event.lineNumber < startLine ∨ quiet = true
    · rw [if_pos hskip] at hplain hfound ⊢
      rw [if_pos hskip]
      exact ih hitems hplain hfound
    · rw [if_neg hskip] at hplain hfound ⊢
      rw [if_neg hskip]
      cases hp : sh.printEvent [] events item with
      | error e =>
        rw [hp] at hplain
        cases hplain
      | ok plain =>
        cases hf : sh.printEvent patterns events item with
        | error e =>
          rw [hf] at hfound
          cases hfound
        | ok found =>
          rw [hp] at hplain
          rw [hf] at hfound
          obtain ⟨lines, rfl, ⟨hfinds, lines', rfl, hlines⟩ | ⟨hmissed, rfl⟩⟩ :=
            printEvent_found hsh hitem hpatterns hp hf
          · show List.Forall₂ _ (((item, lines) :: _).filter _) ((item, lines') :: _)
            rw [List.filter_cons, if_pos hfinds]
            exact .cons ⟨rfl, hlines⟩ (ih hitems hplain hfound)
          · show List.Forall₂ _ (((item, lines) :: _).filter _) _
            rw [List.filter_cons, if_neg (by simp [hmissed])]
            exact ih hitems hplain hfound

end

/-! ### What is written -/

lemma markedUp_logLines {kept found : List (Replayed × List Text)}
    (h : List.Forall₂ (fun p q : Replayed × List Text => p.1 = q.1 ∧ List.Forall₂ MarkedUp p.2 q.2) kept found) :
    List.Forall₂ MarkedUp (Shell.logLines ⟨kept, none⟩) (Shell.logLines ⟨found, none⟩) := by
  have hlines : List.Forall₂ MarkedUp (kept.flatMap Prod.snd) (found.flatMap Prod.snd) := by
    induction h with
    | nil => exact .nil
    | cons hblock _ ih =>
      rw [List.flatMap_cons, List.flatMap_cons]
      exact List.rel_append hblock.2 ih
  refine List.rel_append hlines ?_
  cases h with
  | nil => exact .nil
  | cons => exact .cons (.refl closed_nil) .nil

/-- A single snapshot is printed with its index, which has no marks. -/
lemma markedUp_printLog_snapshot {sh : Shell} (hsh : sh.Sound) {events : List FileEvent} {selection : Selection}
    {quiet : Bool} {shown : SnapshotEvent} (hshown : selection.snapshot = some shown) :
    List.Forall₂ (fun p q : Replayed × List Text => p.1 = q.1 ∧ List.Forall₂ MarkedUp p.2 q.2)
      (sh.printLog [] events selection quiet).records (sh.printLog [] events selection quiet).records := by
  rw [Shell.printLog, hshown]
  dsimp only
  cases quiet with
  | true => exact .nil
  | false =>
    have hself := agree_snapshotIndicator hsh shown.lineNumber shown.recordIndex shown.snap
      (Shell.snapshotIndex events shown.lineNumber)
    revert hself
    generalize sh.snapshotIndicator (recordLabel shown.lineNumber shown.recordIndex) shown.snap
      (Shell.snapshotIndex events shown.lineNumber) = x
    intro hself
    cases x with
    | error e => exact .nil
    | ok lines =>
      obtain ⟨_, he, hlines⟩ := hself.exists_ok
      obtain rfl := Except.ok.inj he
      exact .cons ⟨rfl, hlines⟩ .nil

namespace Sample

/-- Without an object: no handlers, and no `logfmt`. -/
def plainShell : Shell where
  cells _ := 1
  palette := colors
  lib := plainLibrary
  buildLogfmt _ _ _ _ := none
  handlers := []
  formatTs _ := "1970-01-01 00:00:00".toList
  formatSize n := (toString n).toList ++ " B".toList
  encodedSize _ := .ok 2

/-- Two changes. -/
def twoChanges : List FileEvent :=
  [⟨1, 0, 1, .change ⟨⟨0, none⟩, "set", 0, none, none, ⟨[("a", .int 5)], by decide⟩⟩⟩,
    ⟨2, 60, 2, .change ⟨⟨0, none⟩, "set", 0, some "ada", none, ⟨[("b", .str "five")], by decide⟩⟩⟩]

lemma plainShell_sound : plainShell.Sound where
  palette := isPlainSpec_colors
  logfmt _ _ _ _ _ h := by cases h
  repr v := by
    cases v with
    | int n => exact esc_notMem_toString_int n
    | _ => exact List.not_mem_nil
  formatTs _ := show esc ∉ "1970-01-01 00:00:00".toList by decide
  formatSize n := List.not_mem_append (esc_notMem_toString n) (by decide)

/-- A change whose action, user and keys have no escapes. -/
lemma plainShell_clean {item : Replayed} {record : ChangeRecord} (hrecord : item.event.record = .change record)
    (haction : esc ∉ record.a.toList) (huser : ∀ user, record.u = some user → esc ∉ user.toList)
    {changes : List LoggedChange} (hchanges : collectChanges plainLibrary.repr (item.previous.getD .null)
      (unmarshal record.diff.val) [] [] = .ok changes)
    (hkeys : ∀ change ∈ changes, ∀ k ∈ change.path, esc ∉ k.toList) : plainShell.CleanEvent item := by
  intro record' hrecord' ev hev
  obtain rfl := Record.change.inj (hrecord.symm.trans hrecord')
  obtain rfl := Option.some.inj (Except.ok.inj hev)
  refine ⟨rfl, closed_of_notMem haction, fun text htext => ?_, fun text htext => ?_, ?_, fun changes' hchanges' => ?_⟩
  · obtain ⟨user, hu, rfl⟩ := Option.map_eq_some_iff.mp htext
    exact closed_of_notMem (huser user hu)
  · cases htext
  · intro logfmt hlogfmt v path text htext
    obtain rfl := Option.some.inj hlogfmt
    cases htext
  · obtain rfl := Except.ok.inj (hchanges.symm.trans hchanges')
    exact hkeys

lemma cleanEvent_twoChanges : ∀ item ∈ (replayEvents twoChanges 3).records, plainShell.CleanEvent item := by
  have hrecords : (replayEvents twoChanges 3).records =
      [⟨⟨1, 0, 1, .change ⟨⟨0, none⟩, "set", 0, none, none, ⟨[("a", .int 5)], by decide⟩⟩⟩, some (.dict []),
          .dict [("a", .int 5)]⟩,
        ⟨⟨2, 60, 2, .change ⟨⟨0, none⟩, "set", 0, some "ada", none, ⟨[("b", .str "five")], by decide⟩⟩⟩,
          some (.dict [("a", .int 5)]), .dict [("a", .int 5), ("b", .str "five")]⟩] := rfl
  have hfirst : collectChanges plainLibrary.repr (.dict []) (unmarshal (.dict [("a", .int 5)])) [] [] =
      .ok [⟨.add, ["a"], .int 5⟩] := rfl
  have hsecond : collectChanges plainLibrary.repr (.dict [("a", .int 5)])
      (unmarshal (.dict [("b", .str "five")])) [] [] = .ok [⟨.add, ["b"], .str "five"⟩] := rfl
  rw [hrecords]
  refine List.forall_mem_cons.mpr ⟨plainShell_clean rfl (by decide) (fun _ h => (by cases h)) hfirst (by decide),
    List.forall_mem_singleton.mpr (plainShell_clean rfl (by decide) (fun user h => ?_) hsecond (by decide))⟩
  rw [← Option.some.inj h]
  decide

end Sample

end Kanta
