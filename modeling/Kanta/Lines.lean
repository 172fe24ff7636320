import Kanta.Replay

/-!
# The line reader on any bytes

A text file is lines that end in a newline, and a rest without one.  Replay goes over the two one
after the other, as long as no snapshot line begins in the rest (`replay_line_append`); a snapshot
line that the file breaks off in is an error (`replay_line_torn`).
-/

namespace Kanta

/-! ### Lines that end -/

/-- Lines that each end in a newline. -/
inductive Lines : Bytes → Prop
  | nil : Lines []
  | cons {line rest : Bytes} (h : newline ∉ line) (hr : Lines rest) : Lines (line ++ newline :: rest)

/-- Every file is lines and a rest. -/
lemma exists_lines (data : Bytes) : ∃ d t, data = d ++ t ∧ Lines d ∧ newline ∉ t := by
  induction hn : data.length using Nat.strong_induction_on generalizing data with
  | _ n ih =>
    by_cases hmem : newline ∈ data
    · obtain ⟨line, rest, rfl, hline⟩ := List.eq_append_cons_of_mem hmem
      obtain ⟨d, t, rfl, hd, ht⟩ := ih rest.length (by simp at hn; omega) rest rfl
      exact ⟨line ++ newline :: d, t, by simp, .cons hline hd, ht⟩
    · exact ⟨[], data, rfl, .nil, hmem⟩

/-- What the line reader yields for one line. -/
def readLine (line : Bytes) (lineNumber pos : ℕ) : List RawRecord :=
  if strip line = [] then []
  else
    [⟨snapshotPrefix.isPrefixOf (strip line),
      if snapshotPrefix.isPrefixOf (strip line) then (strip line).drop snapshotPrefix.length
      else strip line, lineNumber, pos⟩]

/-- What the line reader yields for a file. -/
def lineRecords (rest : Bytes) (lineNumber pos : ℕ) : List RawRecord :=
  lineLoop rest.length rest lineNumber pos

lemma lineLoop_succ {rest : Bytes} {fuel : ℕ} (h : rest ≠ []) (lineNumber pos : ℕ) :
    lineLoop (fuel + 1) rest lineNumber pos =
      readLine (rest.takeWhile (· ≠ newline)) lineNumber pos ++
        lineLoop fuel (rest.drop ((rest.takeWhile (· ≠ newline)).length + 1)) (lineNumber + 1)
          (pos + ((rest.takeWhile (· ≠ newline)).length + 1)) := by
  rw [lineLoop, if_neg h, readLine]
  dsimp only
  split <;> rfl

/-- More fuel than bytes changes nothing. -/
lemma lineLoop_eq {rest : Bytes} {fuel : ℕ} (h : rest.length ≤ fuel) (lineNumber pos : ℕ) :
    lineLoop fuel rest lineNumber pos = lineRecords rest lineNumber pos := by
  induction fuel using Nat.strong_induction_on generalizing rest lineNumber pos with
  | _ fuel ih =>
    by_cases hne : rest = []
    · subst hne
      rw [lineLoop_nil, lineRecords, lineLoop_nil]
    · have hpos := List.length_pos_of_ne_nil hne
      obtain ⟨n, hn⟩ : ∃ n, rest.length = n + 1 := ⟨rest.length - 1, by omega⟩
      obtain ⟨k, rfl⟩ : ∃ k, fuel = k + 1 := ⟨fuel - 1, by omega⟩
      have htail : (rest.drop ((rest.takeWhile (· ≠ newline)).length + 1)).length ≤ n := by
        rw [List.length_drop]
        omega
      rw [lineRecords, hn, lineLoop_succ hne, lineLoop_succ hne, ih k (by omega) (by omega),
        ih n (by omega) htail]

@[simp] lemma lineRecords_nil (lineNumber pos : ℕ) : lineRecords [] lineNumber pos = [] := rfl

/-- The first line of a file. -/
lemma lineRecords_line {line rest : Bytes} (h : newline ∉ line) (lineNumber pos : ℕ) :
    lineRecords (line ++ newline :: rest) lineNumber pos =
      readLine line lineNumber pos ++ lineRecords rest (lineNumber + 1) (pos + (line.length + 1)) := by
  obtain ⟨n, hn⟩ : ∃ n, (line ++ newline :: rest).length = n + 1 := ⟨line.length + rest.length, by simp; omega⟩
  rw [lineRecords, hn, lineLoop_succ (by simp), takeWhile_line h, drop_line, lineLoop_eq]
  rw [List.length_append, List.length_cons] at hn
  omega

lemma takeWhile_rest {line : Bytes} (h : newline ∉ line) : line.takeWhile (· ≠ newline) = line := by
  have hne : ∀ b ∈ line, decide (b ≠ newline) = true := by
    intro b hb
    exact decide_eq_true fun e => h (e ▸ hb)
  have h' : (line ++ []).takeWhile (· ≠ newline) = line ++ [].takeWhile (· ≠ newline) :=
    List.takeWhile_append_of_pos hne
  rwa [List.append_nil, List.takeWhile_nil, List.append_nil] at h'

/-- The rest of a file. -/
lemma lineRecords_rest {line : Bytes} (h : newline ∉ line) (lineNumber pos : ℕ) :
    lineRecords line lineNumber pos = readLine line lineNumber pos := by
  by_cases hne : line = []
  · subst hne
    rfl
  · obtain ⟨n, hn⟩ : ∃ n, line.length = n + 1 :=
      ⟨line.length - 1, by have := List.length_pos_of_ne_nil hne; omega⟩
    rw [lineRecords, hn, lineLoop_succ hne, takeWhile_rest h, List.drop_eq_nil_of_le (by omega), lineLoop_nil,
      List.append_nil]

/-- What comes behind lines is read on its own. -/
lemma lineRecords_append {d : Bytes} (hd : Lines d) (t : Bytes) (lineNumber pos : ℕ) :
    lineRecords (d ++ t) lineNumber pos =
      lineRecords d lineNumber pos ++ lineRecords t (lineNumber + d.count newline) (pos + d.length) := by
  induction hd generalizing lineNumber pos with
  | nil => rfl
  | @cons line rest h hr ih =>
    have hcount : (line ++ newline :: rest).count newline = rest.count newline + 1 := by
      rw [List.count_append, List.count_cons_self, List.count_eq_zero.mpr h]
      omega
    rw [List.append_assoc, List.cons_append, lineRecords_line h, lineRecords_line h, ih, hcount,
      List.append_assoc, List.length_append, List.length_cons]
    congr 3 <;> omega

namespace Lines

variable {d e : Bytes}

lemma append (hd : Lines d) (he : Lines e) : Lines (d ++ e) := by
  induction hd with
  | nil => exact he
  | cons h _ ih =>
    rw [List.append_assoc, List.cons_append]
    exact .cons h ih

/-- Lines end in a newline. -/
lemma ends (hd : Lines d) : d = [] ∨ ∃ d', d = d' ++ [newline] := by
  induction hd with
  | nil => exact Or.inl rfl
  | @cons line rest _ _ ih =>
    right
    rcases ih with rfl | ⟨d', rfl⟩
    · exact ⟨line, rfl⟩
    · exact ⟨line ++ newline :: d', by simp⟩

lemma singleton {line : Bytes} (h : newline ∉ line) : Lines (line ++ [newline]) := .cons h .nil

/-- Frames of the line framer are lines. -/
lemma of_frames {blake3 : Bytes → Bytes → Digest} {items : List Item} {offset : ℕ}
    (hfit : ∀ i ∈ items, Fits i) (h : Framer.line.frames blake3 offset items = .ok d) : Lines d := by
  induction items generalizing d offset with
  | nil =>
    obtain rfl : [] = d := Except.ok.inj h
    exact .nil
  | cons item items ih =>
    obtain ⟨fr, tail, hfr, htail, rfl⟩ := (frames_cons blake3).mp h
    rw [List.forall_mem_cons] at hfit
    obtain rfl : lineOf item ++ [newline] = fr := Except.ok.inj hfr
    exact (singleton (newline_notMem_lineOf hfit.1)).append (ih hfit.2 htail)

end Lines

/-! ### The search for the last snapshot -/

lemma rfind_none {p t : Bytes} {b : UInt8} (h : b ∉ t) : rfind (b :: p) t = none := by
  induction t with
  | nil => rfl
  | cons x t ih =>
    rw [List.mem_cons, not_or] at h
    rw [rfind, ih h.2]
    simp [List.isPrefixOf, h.1]

lemma lastSnapshotLine_rest {t : Bytes} (h : newline ∉ t) :
    lastSnapshotLine t = if snapshotPrefix.isPrefixOf t then some 0 else none := by
  rw [lastSnapshotLine, rfind_none h]

/-- The search goes over lines one by one. -/
lemma lastSnapshotLine_append {d : Bytes} (hd : Lines d) (t : Bytes) :
    lastSnapshotLine (d ++ t) =
      match lastSnapshotLine t with
      | some pos => some (pos + d.length)
      | none => lastSnapshotLine d := by
  induction hd with
  | nil =>
    rw [List.nil_append]
    cases h : lastSnapshotLine t with
    | none => simp [lastSnapshotLine, rfind, snapshotPrefix, ascii, List.isPrefixOf]
    | some pos => simp
  | @cons line rest h hr ih =>
    rw [List.append_assoc, List.cons_append, lastSnapshotLine_cons h, ih, lastSnapshotLine_cons h]
    cases lastSnapshotLine t with
    | none => rfl
    | some pos =>
      simp only [List.length_append, List.length_cons, Option.some.injEq]
      omega

/-- The last snapshot line among lines that end, and what is around it. -/
lemma exists_of_lastSnapshotLine {d : Bytes} {pos : ℕ} (hd : Lines d) (h : lastSnapshotLine d = some pos) :
    ∃ before line after, d = before ++ line ++ newline :: after ∧ pos = before.length ∧
      newline ∉ line ∧ Lines before ∧ Lines after := by
  induction hd generalizing pos with
  | nil => simp [lastSnapshotLine, rfind, snapshotPrefix, ascii, List.isPrefixOf] at h
  | @cons line rest hline hr ih =>
    rw [lastSnapshotLine_cons hline] at h
    cases hl : lastSnapshotLine rest with
    | some pos' =>
      simp only [hl] at h
      obtain rfl := Option.some.inj h
      obtain ⟨before, line', after, rfl, rfl, h', hb, ha⟩ := ih hl
      exact ⟨line ++ newline :: before, line', after, by simp, by simp; omega, h', .cons hline hb, ha⟩
    | none =>
      simp only [hl] at h
      split at h
      · obtain rfl := Option.some.inj h
        exact ⟨[], line, rest, by simp, rfl, hline, .nil, hr⟩
      · simp at h

/-! ### Replay -/

section

variable {blake3 : Bytes → Bytes → Digest} {ser : Serializer}

lemma iterRecords_line (data : Bytes) (offset : ℕ) :
    Framer.line.iterRecords blake3 data offset =
      ⟨lineRecords (data.drop offset) ((data.take offset).count newline + 1) offset, none⟩ := by
  rw [Framer.iterRecords, lineLoop_eq]
  rw [List.length_drop]
  omega

/-- **Replay goes over the rest of a file** behind its lines, if no snapshot line is there. -/
theorem replay_line_append {d t : Bytes} (hd : Lines d) (ht : lastSnapshotLine t = none) :
    replay blake3 ser .line (d ++ t) =
      (replay blake3 ser .line d >>=
        (lineRecords t (d.count newline + 1) d.length).foldlM (replayRecord ser)) := by
  have hlast : lastSnapshotLine (d ++ t) = lastSnapshotLine d := by
    rw [lastSnapshotLine_append hd, ht]
  have hrun : ∀ l l' : List RawRecord, ∀ start : ReplayResult,
      (l ++ l').foldlM (replayRecord ser) start =
        (l.foldlM (replayRecord ser) start >>= l'.foldlM (replayRecord ser)) := fun l l' start =>
    List.foldlM_append
  cases hl : lastSnapshotLine d with
  | none =>
    have hscan : ∀ e, lastSnapshotLine e = none → Framer.line.scanLastSnapshot blake3 e = .ok (none, 0, 0) := by
      intro e he
      simp only [Framer.scanLastSnapshot, he]
    rw [replay, replay, hscan _ (hlast.trans hl), hscan _ hl]
    simp only [bind, Except.bind, iterRecords_line, List.drop_zero, List.take_zero, List.count_nil]
    rw [lineRecords_append hd, hrun]
    simp only [bind, Except.bind, Nat.zero_add, Nat.add_comm 1]
    cases (lineRecords d 1 0).foldlM (replayRecord ser) .empty with
    | error e => rfl
    | ok r =>
      dsimp only
      cases (lineRecords t (d.count newline + 1) d.length).foldlM (replayRecord ser) r <;> rfl
  | some pos =>
    obtain ⟨before, line, after, rfl, rfl, hline, hbefore, hafter⟩ := exists_of_lastSnapshotLine hd hl
    -- the snapshot line is the same, and so is the place behind it
    have hscan : ∀ rest, lastSnapshotLine (before ++ line ++ newline :: rest) = some before.length →
        Framer.line.scanLastSnapshot blake3 (before ++ line ++ newline :: rest) =
          .ok (some (line.drop snapshotPrefix.length), before.length + line.length + 1, before.length) := by
      intro rest he
      have htake : ((before ++ line ++ newline :: rest).drop before.length).takeWhile (· ≠ newline) = line := by
        rw [List.append_assoc, List.drop_left' rfl, takeWhile_line hline]
      simp only [Framer.scanLastSnapshot, he, htake]
      rw [if_neg (by simp)]
    have hiter : ∀ rest, Framer.line.iterRecords blake3 (before ++ line ++ newline :: rest)
        (before.length + line.length + 1) =
          ⟨lineRecords rest ((before ++ line ++ [newline]).count newline + 1)
            (before.length + line.length + 1), none⟩ := by
      intro rest
      have e : before ++ line ++ newline :: rest = (before ++ line ++ [newline]) ++ rest := by simp
      have hlen : (before ++ line ++ [newline]).length = before.length + line.length + 1 := by
        simp [Nat.add_assoc]
      rw [iterRecords_line, e, ← hlen, List.drop_left' rfl, List.take_left' rfl]
    have e : before ++ line ++ newline :: after ++ t = before ++ line ++ newline :: (after ++ t) := by simp
    have hcount : (before ++ line ++ [newline]).count newline + 1 + after.count newline =
        (before ++ line ++ newline :: after).count newline + 1 := by
      simp only [List.count_append, List.count_cons_self, List.count_nil]
      omega
    have hlen : before.length + line.length + 1 + after.length =
        (before ++ line ++ newline :: after).length := by
      simp
      omega
    rw [e] at hlast ⊢
    rw [replay, replay, hscan _ (hlast.trans hl), hscan _ hl]
    simp only [bind, Except.bind, hiter]
    cases replayStart ser (line.drop snapshotPrefix.length) before.length with
    | error e => rfl
    | ok start =>
      dsimp only
      rw [lineRecords_append hafter, hrun, hcount, hlen]
      simp only [bind, Except.bind]
      cases (lineRecords after ((before ++ line ++ [newline]).count newline + 1)
          (before.length + line.length + 1)).foldlM (replayRecord ser) start with
      | error e => rfl
      | ok r =>
        dsimp only
        cases (lineRecords t ((before ++ line ++ newline :: after).count newline + 1)
          (before ++ line ++ newline :: after).length).foldlM (replayRecord ser) r <;> rfl

/-- A file that breaks off in a snapshot line is rejected. -/
theorem replay_line_torn {d t : Bytes} (hd : Lines d) (ht : newline ∉ t)
    (hmark : snapshotPrefix.isPrefixOf t = true) :
    replay blake3 ser .line (d ++ t) =
      .error (.replayError "incomplete snapshot line at end of file" (some (d.count newline + 1))
        (some d.length) (some "snapshot")) := by
  have hlast : lastSnapshotLine (d ++ t) = some d.length := by
    rw [lastSnapshotLine_append hd, lastSnapshotLine_rest ht, if_pos hmark]
    simp
  have htake : ((d ++ t).drop d.length).takeWhile (· ≠ newline) = t := by
    rw [List.drop_left' rfl, takeWhile_rest ht]
  have hscan : Framer.line.scanLastSnapshot blake3 (d ++ t) =
      .error (.replayError "incomplete snapshot line at end of file" (some (d.count newline + 1))
        (some d.length) (some "snapshot")) := by
    simp only [Framer.scanLastSnapshot, hlast, htake]
    rw [if_pos (by simp), List.take_left' rfl]
  rw [replay, hscan]
  rfl

end

end Kanta
