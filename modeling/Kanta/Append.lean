import Kanta.Torn

/-!
# Appending to an accepted file

A flush writes its frames at the end of the file that `open` has read.  The file then replays to
the old state with the new changes patched in, unless it is a text file whose last line has text but
no newline: the first frame joins that line, and the two are no document (`replay_append_iff`).
-/

namespace Kanta

variable {blake3 : Bytes → Bytes → Digest} {ser : Serializer} {framer : Framer}

/-! ### Text files -/

/-- Whether a frame that is written behind the content begins a line of its own. -/
def Framer.endsLine (framer : Framer) (content : Bytes) : Bool :=
  match framer with
  | .line => strip (content.rtakeWhile (· ≠ newline)) = []
  | .bin _ => true

lemma rtakeWhile_rest {d t : Bytes} (hd : Lines d) (ht : newline ∉ t) :
    (d ++ t).rtakeWhile (· ≠ newline) = t := by
  have hne : ∀ b ∈ t.reverse, decide (b ≠ newline) = true := by
    intro b hb
    exact decide_eq_true fun e => ht (e ▸ List.mem_reverse.mp hb)
  rw [List.rtakeWhile, List.reverse_append, List.takeWhile_append_of_pos hne]
  have hback : d.reverse.takeWhile (· ≠ newline) = [] := by
    rcases hd.ends with rfl | ⟨d', rfl⟩
    · rfl
    · rw [List.reverse_append]
      rfl
  rw [hback, List.append_nil, List.reverse_reverse]

lemma strip_eq_nil {b : Bytes} : strip b = [] ↔ ∀ x ∈ b, isSpace x = true := by
  rw [strip, List.reverse_eq_nil_iff, List.dropWhile_eq_nil_iff]
  constructor
  · intro h
    by_cases hd : b.dropWhile isSpace = []
    · exact List.dropWhile_eq_nil_iff.mp hd
    · -- the first byte that is left is no space
      obtain ⟨x, l, hx⟩ := List.exists_cons_of_ne_nil hd
      have hspace := h x (by simp [hx])
      have hhead := List.head_dropWhile_not isSpace hd
      simp [hx, hspace] at hhead
  · intro h x hx
    rw [List.dropWhile_eq_nil_iff.mpr h] at hx
    simp at hx

/-- A payload behind a text without newline. -/
lemma strip_append {t payload : Bytes} (hpay : strip payload = payload) (hne : payload ≠ []) :
    if strip t = [] then strip (t ++ payload) = payload
    else ∃ w, strip (t ++ payload) = strip t ++ w ∧ strip w ≠ [] := by
  have hback := dropWhile_reverse_of_strip hpay
  have hfull : (payload.reverse.dropWhile isSpace).isEmpty = false := by
    rw [hback]
    simpa using hne
  split
  · rename_i ht
    have hfront : (t ++ payload).dropWhile isSpace = payload.dropWhile isSpace := by
      rw [List.dropWhile_append, List.dropWhile_eq_nil_iff.mpr (strip_eq_nil.mp ht)]
      rfl
    rw [strip, hfront]
    exact hpay
  · rename_i ht
    have hd : (t.dropWhile isSpace).isEmpty = false := by
      rw [List.isEmpty_eq_false_iff]
      intro h
      exact ht (strip_eq_nil.mpr (List.dropWhile_eq_nil_iff.mp h))
    refine ⟨(t.dropWhile isSpace).rtakeWhile isSpace ++ payload, ?_, ?_⟩
    · have hsplit : strip t = (t.dropWhile isSpace).rdropWhile isSpace := rfl
      rw [strip, List.dropWhile_append, hd]
      simp only [Bool.false_eq_true, if_false, List.reverse_append]
      rw [List.dropWhile_append, hfull]
      simp only [Bool.false_eq_true, if_false]
      rw [hback, List.reverse_append, List.reverse_reverse, List.reverse_reverse, hsplit,
        ← List.append_assoc, List.rdropWhile_append_rtakeWhile]
    · intro h
      have hall := strip_eq_nil.mp h
      have hp : strip payload = [] := strip_eq_nil.mpr fun x hx => hall x (List.mem_append_right _ hx)
      exact hne (hpay.symm.trans hp)

/-- What the JSON decoder rejects: a second text behind a document, and the first letters of a
snapshot line. -/
structure Documents (ser : Serializer) : Prop where
  change : ∀ p c q, ser.decodeChange p = .ok c → strip q ≠ [] →
    ser.decodeChange (p ++ q) = .error .decodeError
  snapshot : ∀ p s q, ser.decodeSnapshot p = .ok s → strip q ≠ [] →
    ser.decodeSnapshot (p ++ q) = .error .decodeError
  mark : ∀ p, p <+: snapshotPrefix → p ≠ [] → ser.decodeChange p = .error .decodeError

/-- A text that is accepted as a line, with a payload behind it, is not accepted. -/
lemma replayRecord_joined {t payload : Bytes} {r r' : ReplayResult} {lineNumber pos : ℕ}
    (hdoc : Documents ser) (hpay : strip payload = payload) (hne : payload ≠ []) (ht : strip t ≠ [])
    (h : (readLine t lineNumber pos).foldlM (replayRecord ser) r = .ok r') :
    ∃ e, (readLine (t ++ payload) lineNumber pos).foldlM (replayRecord ser) r = .error e := by
  have happ := strip_append hpay hne (t := t)
  rw [if_neg ht] at happ
  obtain ⟨w, hw, hwne⟩ := happ
  have hjne : strip (t ++ payload) ≠ [] := by
    rw [hw]
    simp [ht]
  rw [readLine, if_neg ht, List.foldlM_cons, bind_eq_ok] at h
  obtain ⟨r1, h1, -⟩ := h
  rw [readLine, if_neg hjne, hw, List.foldlM_cons]
  by_cases hmark : snapshotPrefix.isPrefixOf (strip t) = true
  · -- a snapshot line
    have hmark' : snapshotPrefix.isPrefixOf (strip t ++ w) = true := by
      rw [List.isPrefixOf_iff_prefix] at hmark ⊢
      exact hmark.trans (List.prefix_append _ _)
    have hlen := (List.isPrefixOf_iff_prefix.mp hmark).length_le
    simp only [hmark, hmark', if_true, replayRecord] at h1 ⊢
    rw [List.drop_append_of_le_length hlen]
    cases hdec : ser.decodeSnapshot ((strip t).drop snapshotPrefix.length) with
    | error e =>
      rw [hdec] at h1
      dsimp only at h1
      split at h1 <;> simp at h1
    | ok s =>
      rw [hdoc.snapshot _ s w hdec hwne]
      exact ⟨_, rfl⟩
  · have hdec : ∃ c, ser.decodeChange (strip t) = .ok c := by
      rw [Bool.not_eq_true] at hmark
      simp only [hmark, Bool.false_eq_true, if_false, replayRecord] at h1
      cases hdec : ser.decodeChange (strip t) with
      | ok c => exact ⟨c, rfl⟩
      | error e =>
        rw [hdec] at h1
        cases e <;> simp at h1
    obtain ⟨c, hdec⟩ := hdec
    have hmark' : snapshotPrefix.isPrefixOf (strip t ++ w) = false := by
      by_contra hm
      rw [Bool.not_eq_false, List.isPrefixOf_iff_prefix] at hm
      rcases List.prefix_or_prefix_of_prefix hm (List.prefix_append (strip t) w) with hp | hp
      · exact hmark (List.isPrefixOf_iff_prefix.mpr hp)
      · rw [hdoc.mark _ hp ht] at hdec
        simp at hdec
    simp only [hmark', Bool.false_eq_true, if_false, replayRecord]
    rw [hdoc.change _ c w hdec hwne]
    exact ⟨_, rfl⟩

/-- What the reader makes of frames of changes behind the rest of a file. -/
lemma rest_frames {t : Bytes} {item : Item} {items : List Item} {d : Bytes} {offset : ℕ}
    (ht : newline ∉ t) (hmark : snapshotPrefix.isPrefixOf t = false)
    (hmark' : t <+: snapshotPrefix → t = []) (hfit : ∀ i ∈ item :: items, Fits i)
    (hch : ∀ i ∈ item :: items, i.1 = false)
    (hd : Framer.line.frames blake3 offset (item :: items) = .ok d) :
    lastSnapshotLine (t ++ d) = none ∧ ∀ lineNumber pos, ∃ lineNumber' pos',
      lineRecords (t ++ d) lineNumber pos =
        readLine (t ++ item.2) lineNumber pos ++ Framer.line.placed lineNumber' pos' items := by
  obtain ⟨fr, rest, hfr, hrest, rfl⟩ := (frames_cons blake3).mp hd
  rw [List.forall_mem_cons] at hfit hch
  obtain ⟨isSnapshot, payload⟩ := item
  obtain rfl : isSnapshot = false := hch.1
  obtain rfl : payload ++ [newline] = fr := Except.ok.inj hfr
  have hpay : newline ∉ payload := hfit.1.no_newline
  have hline : newline ∉ t ++ payload := by
    rw [List.mem_append, not_or]
    exact ⟨ht, hpay⟩
  have hnot : snapshotPrefix.isPrefixOf (t ++ payload) = false := by
    by_contra hm
    rw [Bool.not_eq_false, List.isPrefixOf_iff_prefix] at hm
    rcases List.prefix_or_prefix_of_prefix hm (List.prefix_append t payload) with hp | hp
    · rw [List.isPrefixOf_iff_prefix.mpr hp] at hmark
      exact absurd hmark (by simp)
    · rw [hmark' hp, List.nil_append] at hm
      have := hfit.1.marked rfl
      rw [List.isPrefixOf_iff_prefix.mpr hm] at this
      exact absurd this (by simp)
  have e : t ++ (payload ++ [newline] ++ rest) = (t ++ payload) ++ newline :: rest := by simp
  rw [e]
  constructor
  · rw [lastSnapshotLine_cons hline, lastSnapshotLine_changes blake3 hfit.2 hch.2 hrest, hnot]
    rfl
  · intro lineNumber pos
    refine ⟨lineNumber + 1, pos + ((t ++ payload).length + 1), ?_⟩
    have hlen := length_le_of_frames blake3 hrest
    have hrun := lineLoop_frames blake3 hfit.2 hrest [] (rest.length - items.length) (lineNumber + 1)
      (pos + ((t ++ payload).length + 1))
    rw [List.append_nil, lineLoop_nil, List.append_nil, Nat.sub_add_cancel hlen] at hrun
    rw [lineRecords_line hline, lineRecords, hrun]

/-- **Appending to a text file.** -/
theorem replay_append_line {content d : Bytes} {r r' : ReplayResult} {changes : List ChangeRecord}
    (hread : ∀ c ∈ changes, Decodable ser .line (.change c)) (hdoc : Documents ser)
    (hr : replay blake3 ser .line content = .ok r)
    (hd : frameRecords blake3 ser .line content.length (changes.map .change) = .ok d)
    (hfold : changes.foldlM ReplayResult.applyChange r = .ok r') :
    replay blake3 ser .line (content ++ d) = .ok r' ↔
      changes = [] ∨ Framer.line.endsLine content = true := by
  obtain ⟨items, henc, hframes⟩ := frameRecords_iff.mp hd
  obtain ⟨lines, t, rfl, hlines, ht⟩ := exists_lines content
  cases changes with
  | nil =>
    cases henc
    obtain rfl : [] = d := Except.ok.inj hframes
    obtain rfl : r = r' := Except.ok.inj hfold
    simp [hr]
  | cons c changes =>
    rw [Framer.endsLine, rtakeWhile_rest hlines ht, decide_eq_true_iff]
    have hread' : ∀ record ∈ (c :: changes).map Record.change, Decodable ser .line record := by
      intro record hm
      obtain ⟨c', hc', rfl⟩ := List.mem_map.mp hm
      exact hread c' hc'
    have hfit := fits_of_encodes hread' henc
    have hdec := decodes_of_encodes (fun record hm => (hread' record hm).1) henc
    have hch := changes_of_decodes hdec
    -- the rest of the file is no snapshot line
    have hmark : snapshotPrefix.isPrefixOf t = false := by
      by_contra hm
      rw [Bool.not_eq_false] at hm
      rw [replay_line_torn hlines ht hm] at hr
      simp at hr
    have hlast : lastSnapshotLine t = none := by
      rw [lastSnapshotLine_rest ht, hmark]
      rfl
    rw [replay_line_append hlines hlast, lineRecords_rest ht, bind_eq_ok] at hr
    obtain ⟨r0, hr0, hr⟩ := hr
    cases henc with
    | @cons _ item _ items hitem henc =>
      cases hdec with
      | cons hitem' hdec =>
        obtain ⟨isSnapshot, payload⟩ := item
        obtain rfl : isSnapshot = false := hitem.1
        obtain ⟨c', hc', hpayload⟩ := hitem'.change
        obtain rfl := Record.change.inj hc'
        rw [List.forall_mem_cons] at hfit
        have hne : payload ≠ [] := hfit.1.not_empty
        have hstrip : strip payload = payload := hfit.1.stripped
        have hmark' : t <+: snapshotPrefix → t = [] := by
          intro hp
          by_contra htne
          have hst := strip_snapshotPrefix hp hmark
          rw [readLine, hst, if_neg htne, hmark, List.foldlM_cons, bind_eq_ok] at hr
          obtain ⟨r1, h1, -⟩ := hr
          simp [replayRecord, hdoc.mark t hp htne] at h1
        obtain ⟨hnone, hrec⟩ := rest_frames ht hmark hmark' (List.forall_mem_cons.mpr hfit) hch hframes
        obtain ⟨n, pos, hrec⟩ := hrec (lines.count newline + 1) lines.length
        rw [List.append_assoc, replay_line_append hlines hnone, hr0, hrec]
        simp only [bind, Except.bind, List.foldlM_append]
        constructor
        · intro h
          by_contra hcond
          rw [not_or] at hcond
          obtain ⟨e, he⟩ := replayRecord_joined hdoc hstrip hne hcond.2 hr
          rw [he] at h
          simp at h
        · rintro (h | hblank)
          · simp at h
          · -- a line of its own
            have happ := strip_append hstrip hne (t := t)
            rw [if_pos hblank] at happ
            rw [readLine, if_pos hblank] at hr
            obtain rfl : r0 = r := Except.ok.inj hr
            rw [readLine, happ, if_neg hne, hfit.1.marked rfl]
            rw [List.foldlM_cons, bind_eq_ok] at hfold
            obtain ⟨r1, h1, hfold⟩ := hfold
            simp only [Bool.false_eq_true, if_false, List.foldlM_cons, List.foldlM_nil]
            rw [replayRecord_change rfl hpayload, h1]
            exact (foldlM_placed hdec r1).trans hfold

/-! ### Binary files -/

/-- The items behind the last snapshot. -/
lemma items_split (items : List Item) :
    (∀ i ∈ items, i.1 = false) ∨
      ∃ before payload after, items = before ++ (true, payload) :: after ∧ ∀ i ∈ after, i.1 = false := by
  induction items using List.reverseRecOn with
  | nil => exact Or.inl (by simp)
  | append_singleton items item ih =>
    obtain ⟨isSnapshot, payload⟩ := item
    cases isSnapshot with
    | true => exact Or.inr ⟨items, payload, [], rfl, by simp⟩
    | false =>
      rcases ih with h | ⟨before, p, after, rfl, h⟩
      · left
        intro i hi
        rcases List.mem_append.mp hi with hi | hi
        · exact h i hi
        · rw [List.mem_singleton.mp hi]
      · right
        refine ⟨before, p, after ++ [(false, payload)], by simp, ?_⟩
        intro i hi
        rcases List.mem_append.mp hi with hi | hi
        · exact h i hi
        · rw [List.mem_singleton.mp hi]

/-- Frames of changes behind frames are replayed behind them. -/
lemma replay_frames_append {items more : List Item} {c d : Bytes} {changes : List ChangeRecord}
    (hfit : ∀ i ∈ items ++ more, framer.Fits i) (hc : framer.frames blake3 0 items = .ok c)
    (hd : framer.frames blake3 c.length more = .ok d)
    (hdec : List.Forall₂ (Decodes ser) more (changes.map .change)) :
    replay blake3 ser framer (c ++ d) =
      (replay blake3 ser framer c >>= fun r => changes.foldlM ReplayResult.applyChange r) := by
  have hcd : framer.frames blake3 0 (items ++ more) = .ok (c ++ d) :=
    (frames_append blake3).mpr ⟨c, d, hc, by rwa [Nat.zero_add], rfl⟩
  have hfitc : ∀ i ∈ items, framer.Fits i := fun i hi => hfit i (List.mem_append_left _ hi)
  have hmore := changes_of_decodes hdec
  have hrun : ∀ (l : List RawRecord) (n offset : ℕ) (start : ReplayResult),
      (l ++ framer.placed n offset more).foldlM (replayRecord ser) start =
        (l.foldlM (replayRecord ser) start >>= fun r => changes.foldlM ReplayResult.applyChange r) := by
    intro l n offset start
    rw [List.foldlM_append]
    exact bind_congr fun r => foldlM_placed hdec r
  rcases items_split items with hch | ⟨before, payload, after, rfl, hch⟩
  · have hall : ∀ i ∈ items ++ more, i.1 = false := by
      intro i hi
      rcases List.mem_append.mp hi with hi | hi
      · exact hch i hi
      · exact hmore i hi
    obtain ⟨o, hscan, hiter⟩ := scanLastSnapshot_changes blake3 hfitc hch hc
    obtain ⟨o', hscan', hiter'⟩ := scanLastSnapshot_changes blake3 hfit hall hcd
    rw [replay, replay, hscan, hscan']
    simp only [bind, Except.bind, hiter, hiter']
    rw [Framer.placed_append blake3 1 hc, hrun]
    simp only [bind, Except.bind]
    cases (framer.placed 1 0 items).foldlM (replayRecord ser) .empty with
    | error e => rfl
    | ok r =>
      dsimp only
      cases changes.foldlM ReplayResult.applyChange r <;> rfl
  · obtain ⟨b, e, hb, he, rfl⟩ := (frames_append blake3).mp hc
    obtain ⟨fr, a, hfr, ha, rfl⟩ := (frames_cons blake3).mp he
    have hall : ∀ i ∈ after ++ more, i.1 = false := by
      intro i hi
      rcases List.mem_append.mp hi with hi | hi
      · exact hch i hi
      · exact hmore i hi
    obtain ⟨o, ho, hscan, hiter⟩ := scanLastSnapshot_frames blake3 hfitc hch hb hc
    rw [List.append_assoc, List.cons_append] at hcd hfit
    obtain ⟨o', ho', hscan', hiter'⟩ := scanLastSnapshot_frames blake3 hfit hall hb hcd
    obtain rfl : o = o' := ho.trans ho'.symm
    have hlen : fr.length = framer.frameLength true payload b.length := by
      rw [frame_length blake3 hfr, Nat.zero_add]
    rw [Nat.zero_add] at ha
    have hframes : framer.frames blake3 o after = .ok a := by
      rw [ho, ← hlen]
      exact ha
    have htake : (b ++ (fr ++ a) ++ d).take o = (b ++ (fr ++ a)).take o := by
      apply List.take_append_of_le_length
      simp only [List.length_append]
      omega
    rw [replay, replay, hscan, hscan']
    simp only [bind, Except.bind, hiter, hiter']
    cases replayStart ser payload (framer.framePos b.length) with
    | error e => rfl
    | ok start =>
      dsimp only
      rw [htake, Framer.placed_append blake3 _ hframes, hrun]
      simp only [bind, Except.bind]
      cases (framer.placed (((b ++ (fr ++ a)).take o).count newline + 1) o after).foldlM
          (replayRecord ser) start with
      | error e => rfl
      | ok r =>
        dsimp only
        cases changes.foldlM ReplayResult.applyChange r <;> rfl

/-- **Appending to a binary file.** -/
theorem replay_append_bin {sync : Sync} {content d : Bytes} {r r' : ReplayResult} {changes : List ChangeRecord}
    (hread : ∀ c ∈ changes, Decodable ser (.bin sync) (.change c))
    (hr : replay blake3 ser (.bin sync) content = .ok r)
    (hd : frameRecords blake3 ser ((Framer.bin sync).reload content) content.length
      (changes.map .change) = .ok d)
    (hfold : changes.foldlM ReplayResult.applyChange r = .ok r') :
    replay blake3 ser (.bin sync) (content ++ d) = .ok r' := by
  obtain ⟨more, henc, hframes⟩ := frameRecords_iff.mp hd
  have hdec : List.Forall₂ (Decodes ser) more (changes.map .change) := by
    refine decodes_of_encodes (fun record hm => ?_) henc
    obtain ⟨c, hc, rfl⟩ := List.mem_map.mp hm
    exact (hread c hc).1
  have hfit : ∀ (sync : Sync) (items : List Item), ∀ i ∈ items, (Framer.bin sync).Fits i :=
    fun _ _ _ _ => trivial
  by_cases hne : content = []
  · -- the first frames of a new file
    subst hne
    rw [Framer.reload, Framer.load_nil] at hframes
    obtain rfl : .empty = r := Except.ok.inj hr
    rw [List.nil_append, replay_changes (hfit sync more) hdec hframes, hfold]
  · -- the file holds frames with a seed of its own
    have hscan : ∃ x, (Framer.bin sync).scanLastSnapshot blake3 content = .ok x := by
      obtain ⟨x, hx, -⟩ := bind_eq_ok.mp hr
      exact ⟨x, hx⟩
    have hlen : ¬content.length < 4 := by
      intro hlt
      obtain ⟨x, hx⟩ := hscan
      rw [Framer.scanLastSnapshot, if_neg hne, Framer.load, if_neg hne, dif_pos hlt] at hx
      simp [bind, Except.bind] at hx
    obtain ⟨seed, body, rfl⟩ : ∃ seed : Sync, ∃ body, content = seed.bytes ++ body :=
      ⟨.ofData content hlen, content.drop 4, (List.take_append_drop 4 content).symm⟩
    have hload : ∀ rest, (Framer.bin sync).load (seed.bytes ++ rest) = .ok (.bin seed) := load_bin
    rw [Framer.reload, hload] at hframes
    have hseed : ∀ rest, replay blake3 ser (.bin sync) (seed.bytes ++ rest) =
        replay blake3 ser (.bin seed) (seed.bytes ++ rest) := fun rest => by
      have h1 := hload rest
      have h2 : (Framer.bin seed).load (seed.bytes ++ rest) = .ok (.bin seed) := load_bin rest
      simp only [replay, Framer.scanLastSnapshot, Framer.iterRecords, h1, h2]
    have hbody : ∃ items, (Framer.bin seed).frames blake3 4 items = .ok body := by
      cases herr : (binLoop blake3 seed (seed.bytes ++ body).length body 4).error with
      | none => exact ⟨_, frames_of_binLoop blake3 (by decide) (by simp) herr⟩
      | some e =>
        rw [replay_of_binLoop_error herr] at hr
        simp at hr
    obtain ⟨items, hitems⟩ := hbody
    rw [List.length_append, seed.length_eq] at hframes
    rw [List.append_assoc, hseed]
    rw [hseed] at hr
    by_cases hnil : items = []
    · subst hnil
      obtain rfl : [] = body := Except.ok.inj hitems
      rw [List.append_nil, replay_seed] at hr
      obtain rfl := Except.ok.inj hr
      rw [List.nil_append]
      by_cases hmore : more = []
      · subst hmore
        obtain rfl : [] = d := Except.ok.inj hframes
        have hnone : changes = [] := by simpa using henc.length_eq
        subst hnone
        rw [List.append_nil, replay_seed]
        exact hfold
      · have h0 := frames_seed blake3 hmore hframes
        rw [replay_changes (hfit seed more) hdec h0, hfold]
    · have h0 := frames_seed blake3 hnil hitems
      rw [← List.append_assoc, replay_frames_append (hfit seed _) h0
        (by rwa [List.length_append, seed.length_eq]) hdec, hr]
      exact hfold

/-! ### Both -/

/-- **Appending to an accepted file** keeps it readable exactly when the first frame begins a line of
its own. -/
theorem replay_append_iff {content d : Bytes} {r r' : ReplayResult} {changes : List ChangeRecord}
    (hread : ∀ c ∈ changes, Decodable ser framer (.change c)) (hdoc : framer = .line → Documents ser)
    (hr : replay blake3 ser framer content = .ok r)
    (hd : frameRecords blake3 ser (framer.reload content) content.length (changes.map .change) = .ok d)
    (hfold : changes.foldlM ReplayResult.applyChange r = .ok r') :
    replay blake3 ser framer (content ++ d) = .ok r' ↔ changes = [] ∨ framer.endsLine content = true := by
  cases framer with
  | line => exact replay_append_line hread (hdoc rfl) hr hd hfold
  | bin sync =>
    constructor
    · intro _
      exact Or.inr rfl
    · intro _
      exact replay_append_bin hread hr hd hfold

/-! ### A small file -/

namespace Sample

lemma snapshots_alone : ∀ s ∈ snapshots, ∀ s' ∈ snapshots, ∀ p q, encodeSnapshot s = .ok p →
    encodeSnapshot s' = .ok q → p <+: q → p = q := by
  have hall : ∀ p ∈ snapshots.filterMap fun s => (encodeSnapshot s).toOption,
      ∀ q ∈ snapshots.filterMap fun s => (encodeSnapshot s).toOption, p.isPrefixOf q = true → p = q := by
    decide +kernel
  intro s hs s' hs' p q hp hq hpq
  exact hall p (List.mem_filterMap.mpr ⟨s, hs, congrArg Except.toOption hp⟩) q
    (List.mem_filterMap.mpr ⟨s', hs', congrArg Except.toOption hq⟩) (List.isPrefixOf_iff_prefix.mpr hpq)

lemma documents : Documents Sample.ser where
  change := by
    intro p c q hc hq
    obtain ⟨hmem, he⟩ := mem_of_decode hc
    rcases decode_cases encodeChange changes (p ++ q) with ⟨c', hc'⟩ | h
    · obtain ⟨hmem', he'⟩ := mem_of_decode hc'
      have heq := changes_alone c hmem c' hmem' p (p ++ q) he he' (List.prefix_append _ _)
      have hnil : q = [] := by simpa using heq
      exact absurd (by rw [hnil]; rfl) hq
    · exact h
  snapshot := by
    intro p s q hs hq
    obtain ⟨hmem, he⟩ := mem_of_decode hs
    rcases decode_cases encodeSnapshot snapshots (p ++ q) with ⟨s', hs'⟩ | h
    · obtain ⟨hmem', he'⟩ := mem_of_decode hs'
      have heq := snapshots_alone s hmem s' hmem' p (p ++ q) he he' (List.prefix_append _ _)
      have hnil : q = [] := by simpa using heq
      exact absurd (by rw [hnil]; rfl) hq
    · exact h
  mark := fun _ hp hne => rejects_mark hp hne

/-- A file with one change, as it is written and without its newline. -/
def written (n : ℕ) : Bytes :=
  ((frameRecords (env 1).blake3 Sample.ser .line 0 (three.take 1)).toOption.getD []).take n

/-- The change that is appended. -/
def two : ChangeRecord := { ts := ts, a := "set", diff := state 2 }

end Sample

/-- A change is appended to a file that ends in a newline. -/
theorem replay_append_written :
    ∃ d r', frameRecords (Sample.env 1).blake3 Sample.ser .line (Sample.written 55).length
        [.change Sample.two] = .ok d ∧
      replay (Sample.env 1).blake3 Sample.ser .line (Sample.written 55 ++ d) = .ok r' := by
  obtain ⟨d, hd⟩ : ∃ d, frameRecords (Sample.env 1).blake3 Sample.ser (Framer.line.reload (Sample.written 55))
    (Sample.written 55).length ([Sample.two].map .change) = .ok d := ⟨_, rfl⟩
  obtain ⟨r, r', hr, hr'⟩ : ∃ r r', replay (Sample.env 1).blake3 Sample.ser .line (Sample.written 55) = .ok r ∧
    [Sample.two].foldlM ReplayResult.applyChange r = .ok r' := ⟨_, _, rfl, rfl⟩
  exact ⟨d, r', hd, (replay_append_iff (fun c _ => (Sample.readable (.change c)).1) (fun _ => Sample.documents)
    hr hd hr').mpr (Or.inr (by decide +kernel))⟩

/-- **A text file whose last line has no newline** is accepted, and a change can be patched in; but
the frame that is appended joins the last line, and the file is rejected. -/
theorem append_joins_line :
    ∃ d r r', frameRecords (Sample.env 1).blake3 Sample.ser .line (Sample.written 54).length
        [.change Sample.two] = .ok d ∧
      replay (Sample.env 1).blake3 Sample.ser .line (Sample.written 54) = .ok r ∧
      [Sample.two].foldlM ReplayResult.applyChange r = .ok r' ∧
      replay (Sample.env 1).blake3 Sample.ser .line (Sample.written 54 ++ d) =
        .error (.replayError "invalid record" (some 1) (some 0) (some "change")) :=
  ⟨_, _, _, rfl, rfl, rfl, rfl⟩

end Kanta
