import Kanta.Grep
import Kanta.Lib.Sgr

/-!
# Where marks are shown

`mark_spans` puts codes between the characters of a styled text and leaves everything else where it is.
A visible character is then shown with the background of a mark exactly when its offset lies in one of the
spans, and otherwise as before (`markSpans_marks`).
-/

namespace Kanta

open Kanta.Lib Kanta.Lib.Ansi Kanta.Lib.Sgr

/-- The offset lies in one of the spans. -/
def within (spans : List Span) (i : ℤ) : Bool := spans.any fun q => q.1 ≤ i && i < q.2

lemma within_iff {spans : List Span} {i : ℤ} : within spans i = true ↔ ∃ q ∈ spans, q.1 ≤ i ∧ i < q.2 := by
  simp [within]

lemma within_cons (q : Span) (spans : List Span) (i : ℤ) :
    within (q :: spans) i = true ↔ (q.1 ≤ i ∧ i < q.2) ∨ within spans i = true := by
  simp [within]

lemma within_cons_of_not {q : Span} {spans : List Span} {i : ℤ} (h : ¬(q.1 ≤ i ∧ i < q.2)) :
    within (q :: spans) i = within spans i := by
  rw [Bool.eq_iff_iff, within_cons]
  simp only [h, false_or]

/-- Nothing is marked in front of the first span. -/
lemma within_of_lt {spans : List Span} {i bound : ℤ} (h : ∀ q ∈ spans, bound < q.1) (hi : i ≤ bound) :
    within spans i = false := by
  rw [Bool.eq_false_iff]
  intro hin
  obtain ⟨q, hq, hle, -⟩ := within_iff.mp hin
  have := h q hq
  omega

/-! ### Merging -/

/-- Spans that are not empty and lie one behind the other with a gap between. -/
structure Separated (spans : List Span) : Prop where
  apart : spans.Pairwise fun a b => a.2 < b.1
  proper : ∀ q ∈ spans, q.1 < q.2

/-- What holds in the loop, before a span that starts at `bound` or behind it. -/
structure Merged (bound : ℤ) (merged : List Span) : Prop where
  apart : merged.Pairwise fun a b => b.2 < a.1
  proper : ∀ q ∈ merged, q.1 < q.2
  start_le : ∀ q ∈ merged, q.1 ≤ bound

lemma mergeStep_empty {span : Span} (h : span.1 ≥ span.2) (merged : List Span) :
    mergeStep merged span = merged := by
  unfold mergeStep
  rw [if_pos h]

lemma mergeStep_nil {span : Span} (h : span.1 < span.2) : mergeStep [] span = [span] := by
  unfold mergeStep
  rw [if_neg (by omega)]

lemma mergeStep_touch {span last : Span} (h : span.1 < span.2) (ht : span.1 ≤ last.2) (rest : List Span) :
    mergeStep (last :: rest) span = (last.1, max span.2 last.2) :: rest := by
  unfold mergeStep
  rw [if_neg (by omega)]
  exact if_pos ht

lemma mergeStep_apart {span last : Span} (h : span.1 < span.2) (ht : last.2 < span.1) (rest : List Span) :
    mergeStep (last :: rest) span = span :: last :: rest := by
  unfold mergeStep
  rw [if_neg (by omega)]
  exact if_neg (by omega)

/-- One span more. -/
lemma merged_step {merged : List Span} {span : Span} (h : Merged span.1 merged) :
    Merged span.1 (mergeStep merged span) ∧
      ∀ i, within (mergeStep merged span) i = true ↔ within merged i = true ∨ (span.1 ≤ i ∧ i < span.2) := by
  by_cases hempty : span.1 ≥ span.2
  · rw [mergeStep_empty hempty]
    refine ⟨h, fun i => ?_⟩
    have hno : ¬(span.1 ≤ i ∧ i < span.2) := by omega
    simp only [hno, or_false]
  have hspan : span.1 < span.2 := by omega
  cases merged with
  | nil =>
    rw [mergeStep_nil hspan]
    refine ⟨⟨List.pairwise_singleton _ _, List.forall_mem_singleton.mpr hspan,
      List.forall_mem_singleton.mpr le_rfl⟩, fun i => ?_⟩
    simp [within]
  | cons last rest =>
    obtain ⟨hlast, hapart⟩ := List.pairwise_cons.mp h.apart
    obtain ⟨hproper, hrest⟩ := List.forall_mem_cons.mp h.proper
    obtain ⟨hle, hles⟩ := List.forall_mem_cons.mp h.start_le
    by_cases htouch : span.1 ≤ last.2
    · have hmore : last.1 < max span.2 last.2 := by omega
      rw [mergeStep_touch hspan htouch]
      refine ⟨⟨List.pairwise_cons.mpr ⟨hlast, hapart⟩, List.forall_mem_cons.mpr ⟨hmore, hrest⟩,
        List.forall_mem_cons.mpr ⟨hle, hles⟩⟩, fun i => ?_⟩
      have hunion : (last.1 ≤ i ∧ i < max span.2 last.2) ↔
          (last.1 ≤ i ∧ i < last.2) ∨ (span.1 ≤ i ∧ i < span.2) := by omega
      rw [within_cons, within_cons, hunion]
      exact or_right_comm
    · have hbehind : ∀ q ∈ last :: rest, q.2 < span.1 := by
        refine List.forall_mem_cons.mpr ⟨by omega, fun q hq => ?_⟩
        have := hlast q hq
        omega
      rw [mergeStep_apart hspan (by omega)]
      refine ⟨⟨List.pairwise_cons.mpr ⟨hbehind, h.apart⟩, List.forall_mem_cons.mpr ⟨hspan, h.proper⟩,
        List.forall_mem_cons.mpr ⟨le_rfl, h.start_le⟩⟩, fun i => ?_⟩
      rw [within_cons]
      exact or_comm

/-- Sorted spans, one after the other. -/
lemma merged_run {spans merged : List Span} (hsorted : spans.Pairwise fun a b => a.1 ≤ b.1)
    (h : ∀ q ∈ spans, Merged q.1 merged)
    (hproper : merged.Pairwise (fun a b => b.2 < a.1) ∧ ∀ q ∈ merged, q.1 < q.2) :
    (spans.foldl mergeStep merged).Pairwise (fun a b => b.2 < a.1) ∧
      (∀ q ∈ spans.foldl mergeStep merged, q.1 < q.2) ∧
      ∀ i, within (spans.foldl mergeStep merged) i = true ↔ within merged i = true ∨ within spans i = true := by
  induction spans generalizing merged with
  | nil => exact ⟨hproper.1, hproper.2, fun i => by simp [within]⟩
  | cons span spans ih =>
    obtain ⟨hfirst, hsorted⟩ := List.pairwise_cons.mp hsorted
    obtain ⟨hstep, hwithin⟩ := merged_step (h span List.mem_cons_self)
    have hlater : ∀ q ∈ spans, Merged q.1 (mergeStep merged span) := fun q hq =>
      ⟨hstep.apart, hstep.proper, fun p hp => (hstep.start_le p hp).trans (hfirst q hq)⟩
    obtain ⟨hapart, hprop, hrest⟩ := ih hsorted hlater ⟨hstep.apart, hstep.proper⟩
    refine ⟨hapart, hprop, fun i => ?_⟩
    rw [List.foldl_cons, hrest, hwithin, within_cons, or_assoc]

lemma sorted_sortedSpans (spans : List Span) : (sortedSpans spans).Pairwise fun a b => a.1 ≤ b.1 := by
  have hsorted := List.pairwise_insertionSort (fun a b : Span => toLex a ≤ toLex b) spans
  refine hsorted.imp fun {a b} hab => ?_
  rcases Prod.Lex.toLex_le_toLex.mp hab with h | h
  · omega
  · omega

/-- **Merging** leaves the offsets that lie in a span as they are. -/
theorem mergeSpans_spec (spans : List Span) :
    Separated (mergeSpans spans) ∧ ∀ i, within (mergeSpans spans) i = within spans i := by
  have hmem : ∀ q, q ∈ sortedSpans spans ↔ q ∈ spans := fun q =>
    (List.perm_insertionSort (fun a b : Span => toLex a ≤ toLex b) spans).mem_iff
  obtain ⟨hapart, hproper, hwithin⟩ := merged_run (sorted_sortedSpans spans)
    (fun q _ => ⟨List.Pairwise.nil, by simp, by simp⟩) ⟨List.Pairwise.nil, by simp⟩
  refine ⟨⟨List.pairwise_reverse.mpr hapart, fun q hq => hproper q (List.mem_reverse.mp hq)⟩, fun i => ?_⟩
  have hreverse : within (mergeSpans spans) i = true ↔ within ((sortedSpans spans).foldl mergeStep []) i = true := by
    simp only [within_iff, mergeSpans, List.mem_reverse]
  have hsorted : within (sortedSpans spans) i = true ↔ within spans i = true := by
    simp only [within_iff, hmem]
  rw [Bool.eq_iff_iff, hreverse, hwithin, hsorted]
  simp [within]

/-! ### Marking one run -/

/-- The sequence that marks. -/
def markSeq : Sequence := ⟨"48;5;220".toList, 'm', List.all_eq_true.mp (by decide), by decide⟩

/-- The sequence that unmarks. -/
def unmarkSeq : Sequence := ⟨"49".toList, 'm', List.all_eq_true.mp (by decide), by decide⟩

lemma text_markSeq : markSeq.text = markBg := rfl

lemma text_unmarkSeq : unmarkSeq.text = unmarkBg := rfl

/-- A sequence that `mark_spans` puts in. -/
def IsMark (s : Sequence) : Prop := s = markSeq ∨ s = unmarkSeq

/-- The rendition with the background of a mark. -/
def marked (r : Rendition) : Rendition := r.set .background (some (.indexed 220))

lemma perform_markSeq (r : Rendition) : perform markSeq r = marked r := rfl

/-- A mark ends with the rendition before it when that had no background. -/
lemma perform_unmarkSeq {r : Rendition} (h : r .background = none) : perform unmarkSeq (marked r) = r := by
  show (marked r).set .background none = r
  funext c
  by_cases hc : c = .background
  · subst hc
    rw [Rendition.set_self, h]
  · rw [Rendition.set_of_ne hc, marked, Rendition.set_of_ne hc]

/-- The characters `shown`, the first of them at offset `k`, with the marks of the spans. -/
def paint (spans : List Span) (k : ℤ) (shown : List (Char × Rendition)) : List (Char × Rendition) :=
  shown.zipIdx.map fun q => (q.1.1, if within spans (k + q.2) = true then marked q.1.2 else q.1.2)

lemma paint_append (spans : List Span) (k : ℤ) (front back : List (Char × Rendition)) :
    paint spans k (front ++ back) = paint spans k front ++ paint spans (k + front.length) back := by
  rw [paint, List.zipIdx_append, List.map_append]
  congr 1
  rw [Nat.zero_add, List.zipIdx_eq_map_add, List.map_map, paint]
  refine List.map_congr_left fun q _ => ?_
  have e : k + (↑(front.length + q.2) : ℤ) = k + front.length + q.2 := by omega
  simp only [Function.comp_apply, e]

lemma paint_congr {spans spans' : List Span} {k : ℤ} {shown : List (Char × Rendition)}
    (h : ∀ i, k ≤ i → i < k + shown.length → within spans i = within spans' i) :
    paint spans k shown = paint spans' k shown := by
  refine List.map_congr_left fun q hq => ?_
  have hlt := List.snd_lt_of_mem_zipIdx hq
  rw [h (k + q.2) (by omega) (by omega)]

/-- Characters that all lie in a span, or all outside. -/
lemma paint_const {spans : List Span} {k : ℤ} {shown : List (Char × Rendition)} (inside : Bool)
    (h : ∀ i, k ≤ i → i < k + shown.length → within spans i = inside) :
    paint spans k shown = shown.map fun p => (p.1, if inside = true then marked p.2 else p.2) := by
  have hfst : shown.map (fun p => (p.1, if inside = true then marked p.2 else p.2)) =
      shown.zipIdx.map fun q => (q.1.1, if inside = true then marked q.1.2 else q.1.2) := by
    conv_lhs => rw [← List.zipIdx_map_fst 0 shown]
    rw [List.map_map]
    rfl
  rw [hfst]
  refine List.map_congr_left fun q hq => ?_
  have hlt := List.snd_lt_of_mem_zipIdx hq
  rw [h (k + q.2) (by omega) (by omega)]

lemma drop_eq_append (run : Text) {s e : ℕ} (h : s ≤ e) : run.drop s = (run.take e).drop s ++ run.drop e := by
  have he : run.drop e = (run.drop s).drop (e - s) := by rw [List.drop_drop, Nat.add_sub_cancel' h]
  rw [List.drop_take, he, List.take_append_drop]

/-- Two plain texts with a mark around the second. -/
lemma pieces_wrapped {front inside : Text} (hf : Plain front) (hi : Plain inside) (rest : Text) :
    pieces (front ++ (markBg ++ inside ++ unmarkBg) ++ rest) =
      front.map .char ++ (.seq markSeq :: (inside.map .char ++ .seq unmarkSeq :: pieces rest)) := by
  have e : front ++ (markBg ++ inside ++ unmarkBg) ++ rest =
      front ++ (markSeq.text ++ (inside ++ (unmarkSeq.text ++ rest))) := by
    simp [text_markSeq, text_unmarkSeq]
  rw [e, pieces_append _ (detached_text _ _), pieces_seq, pieces_append _ (detached_text _ _), pieces_seq,
    pieces_plain hf, pieces_plain hi]

/-- `out` is the text of the pieces `ps`, the first character at offset `k`, with the marks of the spans. -/
structure Paints (spans : List Span) (k : ℤ) (ps : List Piece) (out : Text) : Prop where
  inserted : Inserted IsMark ps (pieces out)
  shown_eq : ∀ r : Rendition, r .background = none → shown r (pieces out) = paint spans k (shown r ps)
  leaves_eq : ∀ r : Rendition, r .background = none → leaves r (pieces out) = leaves r ps

/-- What holds of the loop behind position `pos` of a run. -/
def Wraps (spans : List Span) (run : Text) (plainStart : ℤ) (pos : ℕ) (out : Text) : Prop :=
  Paints spans (plainStart + pos) ((run.drop pos).map .char) out

/-- A mark from `s` to `e`, in front of what is already right. -/
lemma Wraps.mark {spans spans' : List Span} {run : Text} {plainStart : ℤ} {pos s e : ℕ} {out : Text}
    (h : Wraps spans run plainStart e out) (hrun : Plain run) (hps : pos ≤ s) (hse : s < e)
    (hen : e ≤ run.length)
    (hbefore : ∀ i : ℤ, plainStart + pos ≤ i → i < plainStart + s → within spans' i = false)
    (hinside : ∀ i : ℤ, plainStart + s ≤ i → i < plainStart + e → within spans' i = true)
    (hbehind : ∀ i : ℤ, plainStart + e ≤ i → i < plainStart + run.length → within spans' i = within spans i) :
    Wraps spans' run plainStart pos
      ((run.take s).drop pos ++ (markBg ++ (run.take e).drop s ++ unmarkBg) ++ out) := by
  have hcut : run.drop pos = (run.take s).drop pos ++ ((run.take e).drop s ++ run.drop e) := by
    rw [drop_eq_append run hps, drop_eq_append run (Nat.le_of_lt hse)]
  have hlen₁ : ((run.take s).drop pos).length = s - pos := by
    rw [List.length_drop, List.length_take]
    omega
  have hlen₂ : ((run.take e).drop s).length = e - s := by
    rw [List.length_drop, List.length_take]
    omega
  have hp := pieces_wrapped ((hrun.take s).drop pos) ((hrun.take e).drop s) out
  refine ⟨?_, fun r hr => ?_, fun r hr => ?_⟩
  · rw [hcut, List.map_append, List.map_append, hp]
    exact (Inserted.refl _).append (.put (Or.inl rfl) ((Inserted.refl _).append (.put (Or.inr rfl) h.inserted)))
  · have hshown : shown r (pieces ((run.take s).drop pos ++ (markBg ++ (run.take e).drop s ++ unmarkBg) ++ out)) =
        ((run.take s).drop pos).map (fun c => (c, r)) ++
          (((run.take e).drop s).map (fun c => (c, marked r)) ++ shown r (pieces out)) := by
      rw [hp, shown_append, shown_chars, leaves_chars, shown, perform_markSeq, shown_append, shown_chars,
        leaves_chars, shown, perform_unmarkSeq hr]
    rw [hshown, h.shown_eq r hr, hcut, shown_chars, shown_chars, List.map_append, List.map_append, paint_append,
      paint_append, List.length_map, List.length_map, hlen₁, hlen₂]
    have e₁ : plainStart + pos + ((s - pos : ℕ) : ℤ) = plainStart + s := by omega
    have e₂ : plainStart + s + ((e - s : ℕ) : ℤ) = plainStart + e := by omega
    rw [e₁, e₂]
    congr 1
    · rw [paint_const false fun i hi hlt => hbefore i hi (by
        rw [List.length_map, hlen₁] at hlt
        omega)]
      exact (List.map_id _).symm
    · congr 1
      · rw [paint_const true fun i hi hlt => hinside i hi (by
          rw [List.length_map, hlen₂] at hlt
          omega), List.map_map]
        rfl
      · refine (paint_congr fun i hi hlt => hbehind i hi ?_).symm
        rw [List.length_map, List.length_drop] at hlt
        omega
  · rw [hp, leaves_append, leaves_chars, leaves, perform_markSeq, leaves_append, leaves_chars, leaves,
      perform_unmarkSeq hr, h.leaves_eq r hr, leaves_chars, leaves_chars]

/-- **One run.** -/
lemma wraps_wrapLoop {spans : List Span} {run : Text} {plainStart : ℤ} {pos : ℕ} (hrun : Plain run)
    (hsep : Separated spans) (hpos : ∀ q ∈ spans, (pos : ℤ) ≤ max (q.1 - plainStart) 0)
    (hle : pos ≤ run.length) : Wraps spans run plainStart pos (wrapLoop run plainStart spans pos) := by
  induction spans generalizing pos with
  | nil =>
    rw [wrapLoop]
    have hp := pieces_plain (hrun.drop pos)
    refine ⟨by rw [hp]; exact .refl _, fun r _ => ?_, fun r _ => by rw [hp]⟩
    rw [hp, paint_const false (fun i _ _ => rfl)]
    exact (List.map_id _).symm
  | cons q spans ih =>
    obtain ⟨start, stop⟩ := q
    obtain ⟨hgap, hapart⟩ := List.pairwise_cons.mp hsep.apart
    obtain ⟨hproper, hprop⟩ := List.forall_mem_cons.mp hsep.proper
    obtain ⟨hhere, hlater⟩ := List.forall_mem_cons.mp hpos
    have hhere : (pos : ℤ) ≤ max (start - plainStart) 0 := hhere
    rw [wrapLoop]
    by_cases hskip : max (start - plainStart) 0 ≥ min (stop - plainStart) run.length ∨
        min (stop - plainStart) run.length ≤ pos
    · show Wraps _ run plainStart pos (if _ then _ else _)
      rw [if_pos hskip]
      obtain ⟨hins, hshown, hleaves⟩ := ih ⟨hapart, hprop⟩ hlater hle
      refine ⟨hins, fun r hr => ?_, hleaves⟩
      rw [hshown r hr]
      refine paint_congr fun i hi hlt => ?_
      rw [shown_chars, List.length_map, List.length_drop] at hlt
      exact (within_cons_of_not (by omega)).symm
    · show Wraps _ run plainStart pos (if _ then _ else _)
      rw [if_neg hskip]
      obtain ⟨s, hs⟩ : ∃ s : ℕ, (s : ℤ) = max (start - plainStart) 0 := ⟨_, Int.toNat_of_nonneg (by omega)⟩
      obtain ⟨e, he⟩ : ∃ e : ℕ, (e : ℤ) = min (stop - plainStart) run.length := ⟨_, Int.toNat_of_nonneg (by omega)⟩
      rw [← hs, ← he] at hskip ⊢
      rw [Int.toNat_natCast, Int.toNat_natCast]
      have hps : pos ≤ s := by omega
      have hse : s < e := by omega
      have hen : e ≤ run.length := by omega
      have hrest := @ih e ⟨hapart, hprop⟩ (fun q hq => by
        have hq : stop < q.1 := hgap q hq
        omega) hen
      have hother : ∀ i, i < plainStart + e → within spans i = false := fun i hi =>
        within_of_lt hgap (show i ≤ stop by omega)
      refine hrest.mark hrun hps hse hen (fun i h1 h2 => ?_) (fun i h1 h2 => ?_) fun i h1 h2 => ?_
      · rw [within_cons_of_not (by omega), hother i (by omega)]
      · rw [within_cons]
        exact Or.inl (by omega)
      · exact within_cons_of_not (by omega)

/-! ### Marking a styled text -/

/-- The runs and matches of a text are its pieces. -/
lemma pieces_finditer (ps : List Piece) :
    ps = (finditer ps).1.map .char ++ (finditer ps).2.flatMap fun q => .seq q.1 :: q.2.map .char := by
  induction ps with
  | nil => rfl
  | cons p ps ih =>
    cases p with
    | seq s => exact congrArg (List.cons (.seq s)) ih
    | char c => exact congrArg (List.cons (.char c)) ih

/-- The first run is what the text starts with. -/
lemma exists_text_finditer (cs : Text) : ∃ rest, cs = (finditer (pieces cs)).1 ++ rest := by
  have h := congrArg (List.flatMap Piece.text) (pieces_finditer (pieces cs))
  rw [flatMap_text_pieces, List.flatMap_append, List.flatMap_map] at h
  have hchars : (finditer (pieces cs)).1.flatMap (fun c => (Piece.char c).text) = (finditer (pieces cs)).1 :=
    List.flatMap_singleton' _
  rw [hchars] at h
  exact ⟨_, h⟩

/-- No sequence starts inside a run. -/
lemma plain_finditer (cs : Text) :
    Plain (finditer (pieces cs)).1 ∧ ∀ q ∈ (finditer (pieces cs)).2, Plain q.2 := by
  induction cs using pieces_induction with
  | nil => exact ⟨plain_nil, by simp [pieces, scan, finditer]⟩
  | seq s cs ih =>
    rw [pieces_seq]
    exact ⟨plain_nil, List.forall_mem_cons.mpr ih⟩
  | char c cs h ih =>
    rw [pieces_char h]
    refine ⟨Plain.cons ?_ ih.1, ih.2⟩
    obtain ⟨rest, hrest⟩ := exists_text_finditer cs
    cases hs : readSequence (c :: (finditer (pieces cs)).1) with
    | none => rfl
    | some s =>
      have hmore := readSequence_append hs rest
      rw [List.cons_append, ← hrest, h] at hmore
      cases hmore

/-- The own sequences of the text set no background. -/
def NoBackground (styled : Text) : Prop :=
  ∀ s, .seq s ∈ pieces styled → ∀ r : Rendition, r .background = none → perform s r .background = none

section Paint

variable {spans : List Span} {k : ℤ} {ps : List Piece} {out : Text}

lemma Paints.seq {s : Sequence} (hs : ∀ r : Rendition, r .background = none → perform s r .background = none)
    (h : Paints spans k ps out) : Paints spans k (.seq s :: ps) (s.text ++ out) := by
  refine ⟨?_, fun r hr => ?_, fun r hr => ?_⟩
  · rw [pieces_seq]
    exact .keep _ h.inserted
  · rw [pieces_seq]
    exact h.shown_eq _ (hs r hr)
  · rw [pieces_seq]
    exact h.leaves_eq _ (hs r hr)

lemma Paints.append {run : Text} {qs : List Piece} {out' : Text} (h : Paints spans k (run.map .char) out)
    (h' : Paints spans (k + run.length) qs out') (hdetached : Detached out') :
    Paints spans k (run.map .char ++ qs) (out ++ out') := by
  refine ⟨?_, fun r hr => ?_, fun r hr => ?_⟩
  · rw [pieces_append _ hdetached]
    exact h.inserted.append h'.inserted
  · have hlen : (shown r (run.map .char)).length = run.length := by rw [shown_chars, List.length_map]
    rw [pieces_append _ hdetached, shown_append, h.shown_eq r hr, h.leaves_eq r hr, leaves_chars,
      h'.shown_eq r hr, shown_append, leaves_chars, paint_append, hlen]
  · rw [pieces_append _ hdetached, leaves_append, h.leaves_eq r hr, leaves_append, leaves_chars, h'.leaves_eq r hr]

lemma paints_wrapRun {run : Text} (hrun : Plain run) (hsep : Separated spans) (plainStart : ℤ) :
    Paints spans plainStart (run.map .char) (wrapRun run plainStart spans) := by
  rw [wrapRun]
  by_cases hnil : run = []
  · subst hnil
    rw [if_pos rfl]
    exact ⟨.nil, fun r _ => rfl, fun r _ => rfl⟩
  · rw [if_neg hnil]
    have h : Wraps spans run plainStart 0 (wrapLoop run plainStart spans 0) :=
      wraps_wrapLoop hrun hsep (fun q _ => le_max_right _ _) (Nat.zero_le _)
    have e : plainStart + ((0 : ℕ) : ℤ) = plainStart := by omega
    rwa [Wraps, e, List.drop_zero] at h

lemma detached_markLoop (spans : List Span) (rest : List (Sequence × Text)) (pos : ℕ) :
    Detached (markLoop spans rest pos) := by
  cases rest with
  | nil => exact Or.inl rfl
  | cons q rest =>
    rw [markLoop, List.append_assoc]
    exact detached_text _ _

/-- The matches and the runs behind them. -/
lemma paints_markLoop {rest : List (Sequence × Text)} (hsep : Separated spans) (hplain : ∀ q ∈ rest, Plain q.2)
    (hbg : ∀ q ∈ rest, ∀ r : Rendition, r .background = none → perform q.1 r .background = none) (pos : ℕ) :
    Paints spans pos (rest.flatMap fun q => .seq q.1 :: q.2.map .char) (markLoop spans rest pos) := by
  induction rest generalizing pos with
  | nil => exact ⟨.nil, fun r _ => rfl, fun r _ => rfl⟩
  | cons q rest ih =>
    rw [List.forall_mem_cons] at hplain hbg
    have htail := ih hplain.2 hbg.2 (pos + q.2.length)
    rw [Int.natCast_add] at htail
    rw [markLoop, List.append_assoc, List.flatMap_cons, List.cons_append]
    exact .seq hbg.1 ((paints_wrapRun hplain.1 hsep pos).append htail (detached_markLoop _ _ _))

/-- `mark_spans` paints. -/
lemma paints_markSpans {styled : Text} (hbg : NoBackground styled) (spans : List Span) :
    Paints spans 0 (pieces styled) (markSpans styled spans) := by
  obtain ⟨hsep, hwithin⟩ := mergeSpans_spec spans
  have hpaint : ∀ shown, paint (mergeSpans spans) 0 shown = paint spans 0 shown := fun shown =>
    paint_congr fun i _ _ => hwithin i
  suffices h : Paints (mergeSpans spans) 0 (pieces styled) (markSpans styled spans) from
    ⟨h.inserted, fun r hr => (h.shown_eq r hr).trans (hpaint _), h.leaves_eq⟩
  rw [markSpans]
  by_cases hnone : mergeSpans spans = []
  · show Paints _ 0 _ (if mergeSpans spans = [] then _ else _)
    rw [if_pos hnone, hnone]
    refine ⟨.refl _, fun r _ => ?_, fun r _ => rfl⟩
    rw [paint_const false fun i _ _ => rfl]
    exact (List.map_id _).symm
  · show Paints _ 0 _ (if mergeSpans spans = [] then _ else
      wrapRun (finditer (pieces styled)).1 0 (mergeSpans spans) ++
        markLoop (mergeSpans spans) (finditer (pieces styled)).2 (finditer (pieces styled)).1.length)
    rw [if_neg hnone]
    obtain ⟨hfirst, hrest⟩ := plain_finditer styled
    have hseqs : ∀ q ∈ (finditer (pieces styled)).2, .seq q.1 ∈ pieces styled := by
      intro q hq
      rw [pieces_finditer (pieces styled)]
      exact List.mem_append_right _ (List.mem_flatMap.mpr ⟨q, hq, List.mem_cons_self⟩)
    have hloop := paints_markLoop hsep hrest (fun q hq => hbg q.1 (hseqs q hq))
      (finditer (pieces styled)).1.length
    have hrun := paints_wrapRun hfirst hsep 0
    have hall := hrun.append (by rw [zero_add]; exact hloop) (detached_markLoop _ _ _)
    rwa [← pieces_finditer] at hall

/-- Where no background is set, none is shown. -/
lemma background_of_mem_shown {ps : List Piece}
    (h : ∀ s, .seq s ∈ ps → ∀ r : Rendition, r .background = none → perform s r .background = none)
    {r : Rendition} (hr : r .background = none) : ∀ p ∈ shown r ps, p.2 .background = none := by
  induction ps generalizing r with
  | nil => simp [shown]
  | cons p ps ih =>
    have htail : ∀ s, .seq s ∈ ps → ∀ r : Rendition, r .background = none → perform s r .background = none :=
      fun s hs => h s (List.mem_cons_of_mem _ hs)
    cases p with
    | seq s => exact ih htail (h s List.mem_cons_self r hr)
    | char c => exact List.forall_mem_cons.mpr ⟨hr, ih htail hr⟩

lemma marked_background (r : Rendition) : marked r .background = some (.indexed 220) := Rendition.set_self r _ _

end Paint

/-- **`mark_spans` marks the spans and nothing else.**  The visible text stays, the sequences of the text
stay in their places with codes of marks between them, and a character is shown as before, but with the
background of a mark exactly when its offset lies in one of the spans. -/
theorem markSpans_marks {styled : Text} (hbg : NoBackground styled) (spans : List Span) :
    stripAnsi (markSpans styled spans) = stripAnsi styled ∧
      Inserted IsMark (pieces styled) (pieces (markSpans styled spans)) ∧
      ∀ r : Rendition, r .background = none →
        shown r (pieces (markSpans styled spans)) = paint spans 0 (shown r (pieces styled)) ∧
        ∀ (i : ℕ) (p : Char × Rendition), (shown r (pieces (markSpans styled spans)))[i]? = some p →
          (p.2 .background = some (.indexed 220) ↔ ∃ q ∈ spans, q.1 ≤ i ∧ i < q.2) := by
  have h := paints_markSpans hbg spans
  refine ⟨h.inserted.visible_eq, h.inserted, fun r hr => ⟨h.shown_eq r hr, fun i p hp => ?_⟩⟩
  rw [h.shown_eq r hr, paint, List.getElem?_map, List.getElem?_zipIdx] at hp
  obtain ⟨q, hq, rfl⟩ := Option.map_eq_some_iff.mp hp
  obtain ⟨p, hplain, rfl⟩ := Option.map_eq_some_iff.mp hq
  have hnone := background_of_mem_shown hbg hr p (List.mem_of_getElem? hplain)
  have e : (0 : ℤ) + ((0 + i : ℕ) : ℤ) = i := by omega
  rw [← within_iff]
  simp only [e]
  split
  · next hin => exact ⟨fun _ => hin, fun _ => marked_background _⟩
  · next hout =>
    rw [hnone]
    exact ⟨fun h => (by cases h), fun h => absurd h hout⟩

/-- A green beginning and a plain end. -/
def sampleStyled : Text := "\x1b[32mal\x1b[0mlice".toList

lemma noBackground_sampleStyled : NoBackground sampleStyled := by
  have hpieces : pieces sampleStyled = [.seq ⟨"32".toList, 'm', List.all_eq_true.mp (by decide), by decide⟩,
      .char 'a', .char 'l', .seq ⟨"0".toList, 'm', List.all_eq_true.mp (by decide), by decide⟩, .char 'l', .char 'i',
      .char 'c', .char 'e'] := rfl
  intro s hs r hr
  rw [hpieces] at hs
  simp only [List.mem_cons, Piece.seq.injEq, reduceCtorEq, false_or, List.not_mem_nil, or_false] at hs
  rcases hs with rfl | rfl
  · exact hr
  · rfl

theorem markSpans_marks_sample :
    stripAnsi (markSpans sampleStyled [(4, 9), (1, 3), (2, 3)]) = "allice".toList ∧
      shown Rendition.plain (pieces (markSpans sampleStyled [(4, 9), (1, 3), (2, 3)])) =
        paint [(4, 9), (1, 3), (2, 3)] 0 (shown Rendition.plain (pieces sampleStyled)) := by
  obtain ⟨hvisible, -, hshown⟩ := markSpans_marks noBackground_sampleStyled [(4, 9), (1, 3), (2, 3)]
  exact ⟨hvisible.trans (by decide), (hshown _ rfl).1⟩

end Kanta
