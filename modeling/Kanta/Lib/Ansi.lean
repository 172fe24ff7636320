import Mathlib.Data.List.Basic

/-!
# Text with control sequences

A text for a terminal is read from the left.  Where a control sequence starts (an escape, a bracket,
parameters and a letter) it is read as a whole, and every other character stands for itself.  A stray escape
is such a character.

A text that is empty or starts with an escape can be put behind any other: the two are read one after the
other (`pieces_append`).
-/

namespace Kanta.Lib.Ansi

/-- The escape character. -/
def esc : Char := '\x1b'

/-- A character of the parameters. -/
def isParam (c : Char) : Bool := c.isDigit || c = ';' || c = ':'

/-- The letter a sequence ends with. -/
def isFinal (c : Char) : Bool := c.isAlpha

/-- A control sequence. -/
structure Sequence where
  params : List Char
  final : Char
  isParam_params : ∀ c ∈ params, isParam c = true
  isFinal_final : isFinal final = true
  deriving DecidableEq

/-- The characters of a sequence. -/
def Sequence.text (s : Sequence) : List Char := esc :: '[' :: (s.params ++ [s.final])

/-- One more parameter character in front. -/
def Sequence.cons (c : Char) (hc : isParam c = true) (s : Sequence) : Sequence where
  params := c :: s.params
  final := s.final
  isParam_params := List.forall_mem_cons.mpr ⟨hc, s.isParam_params⟩
  isFinal_final := s.isFinal_final

/-- The sequence whose parameters start here. -/
def readBody : List Char → Option Sequence
  | [] => none
  | c :: cs =>
    if hp : isParam c = true then (readBody cs).map (Sequence.cons c hp)
    else if hf : isFinal c = true then some ⟨[], c, by simp, hf⟩
    else none

/-- The sequence that starts here. -/
def readSequence : List Char → Option Sequence
  | e :: b :: cs => if e = esc ∧ b = '[' then readBody cs else none
  | _ => none

/-- What a text is read as. -/
inductive Piece where
  | seq (s : Sequence)
  | char (c : Char)
  deriving DecidableEq

/-- Read a text whose first `skip` characters belong to the sequence before. -/
def scan : ℕ → List Char → List Piece
  | _, [] => []
  | skip + 1, _ :: cs => scan skip cs
  | 0, c :: cs =>
    match readSequence (c :: cs) with
    | some s => .seq s :: scan (s.text.length - 1) cs
    | none => .char c :: scan 0 cs

/-- Read a text. -/
def pieces (cs : List Char) : List Piece := scan 0 cs

def Piece.text : Piece → List Char
  | .seq s => s.text
  | .char c => [c]

def Piece.char? : Piece → Option Char
  | .seq _ => none
  | .char c => some c

/-- The characters a reader sees. -/
def visible (ps : List Piece) : List Char := ps.filterMap Piece.char?

/-! ### Reading one sequence -/

lemma isParam_of_isFinal {c : Char} (h : isFinal c = true) : isParam c = false := by
  change (c.isUpper || c.isLower) = true at h
  rw [Bool.or_eq_true] at h
  have hupper : c.isUpper = true → 65 ≤ c.toNat ∧ c.toNat ≤ 90 := of_decide_eq_true
  have hlower : c.isLower = true → 97 ≤ c.toNat ∧ c.toNat ≤ 122 := fun h =>
    (Bool.and_eq_true_iff.mp h).imp of_decide_eq_true of_decide_eq_true
  have h := h.imp hupper hlower
  have hdigit : c.isDigit = false := by
    rw [Bool.eq_false_iff]
    intro hd
    simp only [Char.isDigit, Bool.and_eq_true, decide_eq_true_eq, UInt32.le_iff_toNat_le, ge_iff_le] at hd
    change 48 ≤ c.toNat ∧ c.toNat ≤ 57 at hd
    omega
  have hsemi : c ≠ ';' := by
    rintro rfl
    exact absurd h (by decide)
  have hcolon : c ≠ ':' := by
    rintro rfl
    exact absurd h (by decide)
  simp [isParam, hdigit, hsemi, hcolon]

lemma readBody_text {s : Sequence} (cs : List Char) : readBody (s.params ++ s.final :: cs) = some s := by
  obtain ⟨params, final, hp, hf⟩ := s
  induction params with
  | nil =>
    rw [List.nil_append, readBody, dif_neg (by simp [isParam_of_isFinal hf]), dif_pos hf]
  | cons c params ih =>
    rw [List.forall_mem_cons] at hp
    rw [List.cons_append, readBody, dif_pos hp.1, ih hp.2]
    rfl

lemma readSequence_text (s : Sequence) (cs : List Char) : readSequence (s.text ++ cs) = some s := by
  have e : s.text ++ cs = esc :: '[' :: (s.params ++ s.final :: cs) := by simp [Sequence.text]
  rw [e, readSequence, if_pos ⟨rfl, rfl⟩, readBody_text]

lemma text_of_readBody {cs : List Char} {s : Sequence} (h : readBody cs = some s) :
    ∃ rest, cs = s.params ++ s.final :: rest := by
  induction cs generalizing s with
  | nil => cases h
  | cons c cs ih =>
    rw [readBody] at h
    split at h
    · obtain ⟨t, ht, rfl⟩ := Option.map_eq_some_iff.mp h
      obtain ⟨rest, rfl⟩ := ih ht
      exact ⟨rest, rfl⟩
    · split at h
      · cases h
        exact ⟨cs, rfl⟩
      · cases h

/-- A sequence is read where its characters stand, and nowhere else. -/
lemma readSequence_eq_some {cs : List Char} {s : Sequence} :
    readSequence cs = some s ↔ ∃ rest, cs = s.text ++ rest := by
  constructor
  · intro h
    rcases cs with _ | ⟨e, _ | ⟨b, cs⟩⟩
    · cases h
    · cases h
    · rw [readSequence] at h
      split at h
      · next heb =>
        obtain ⟨rest, rfl⟩ := text_of_readBody h
        exact ⟨rest, by simp [Sequence.text, heb.1, heb.2]⟩
      · cases h
  · rintro ⟨rest, rfl⟩
    exact readSequence_text s rest

lemma readSequence_append {cs : List Char} {s : Sequence} (h : readSequence cs = some s) (rest : List Char) :
    readSequence (cs ++ rest) = some s := by
  obtain ⟨rest', rfl⟩ := readSequence_eq_some.mp h
  rw [List.append_assoc]
  exact readSequence_text s _

/-- Nothing of the texts before belongs to what a text like this starts with. -/
def Detached (cs : List Char) : Prop := cs = [] ∨ ∃ rest, cs = esc :: rest

lemma detached_text (s : Sequence) (cs : List Char) : Detached (s.text ++ cs) := Or.inr ⟨_, rfl⟩

lemma readBody_detached {cs rest : List Char} (hr : Detached rest) (h : readBody cs = none) :
    readBody (cs ++ rest) = none := by
  induction cs with
  | nil =>
    rcases hr with rfl | ⟨rest, rfl⟩
    · rfl
    · rw [List.nil_append, readBody, dif_neg (by decide), dif_neg (by decide)]
  | cons c cs ih =>
    rw [readBody] at h
    rw [List.cons_append, readBody]
    split at h
    · next hp => rw [dif_pos hp, ih (Option.map_eq_none_iff.mp h), Option.map_none]
    · next hp =>
      split at h
      · cases h
      · next hf => rw [dif_neg hp, dif_neg hf]

lemma readSequence_detached {cs rest : List Char} (hr : Detached rest) (hne : cs ≠ [])
    (h : readSequence cs = none) : readSequence (cs ++ rest) = none := by
  rcases cs with _ | ⟨e, _ | ⟨b, cs⟩⟩
  · exact (hne rfl).elim
  · rcases hr with rfl | ⟨rest, rfl⟩
    · exact h
    · show readSequence (e :: esc :: rest) = none
      rw [readSequence, if_neg (fun heb => absurd heb.2 (by decide))]
  · rw [readSequence] at h
    rw [List.cons_append, List.cons_append, readSequence]
    split at h
    · next heb => rw [if_pos heb, readBody_detached hr h]
    · next heb => rw [if_neg heb]

/-! ### Reading a text -/

lemma scan_drop (skip : ℕ) (cs : List Char) : scan skip cs = pieces (cs.drop skip) := by
  induction cs generalizing skip with
  | nil =>
    rw [List.drop_nil]
    cases skip <;> rfl
  | cons c cs ih =>
    cases skip with
    | zero => rfl
    | succ skip => rw [scan, ih, List.drop_succ_cons]

lemma pieces_seq (s : Sequence) (cs : List Char) : pieces (s.text ++ cs) = .seq s :: pieces cs := by
  have hread := readSequence_text s cs
  have e : s.text ++ cs = esc :: ('[' :: (s.params ++ [s.final]) ++ cs) := rfl
  rw [e] at hread ⊢
  rw [pieces, scan, hread]
  simp only [scan_drop]
  rw [Sequence.text, List.length_cons, Nat.add_sub_cancel, List.drop_left]

lemma pieces_char {c : Char} {cs : List Char} (h : readSequence (c :: cs) = none) :
    pieces (c :: cs) = .char c :: pieces cs := by
  rw [pieces, scan, h]
  rfl

/-- Induction along the reading of a text. -/
@[elab_as_elim]
theorem pieces_induction {motive : List Char → Prop} (nil : motive [])
    (seq : ∀ s cs, motive cs → motive (Sequence.text s ++ cs))
    (char : ∀ c cs, readSequence (c :: cs) = none → motive cs → motive (c :: cs)) (cs : List Char) :
    motive cs := by
  induction hn : cs.length using Nat.strongRecOn generalizing cs with
  | _ n ih =>
    subst hn
    cases cs with
    | nil => exact nil
    | cons c cs =>
      cases hs : readSequence (c :: cs) with
      | none => exact char c cs hs (ih cs.length (by simp) cs rfl)
      | some s =>
        obtain ⟨rest, hrest⟩ := readSequence_eq_some.mp hs
        have hlen : rest.length < (c :: cs).length := by
          rw [hrest, List.length_append, Sequence.text, List.length_cons]
          omega
        rw [hrest]
        exact seq s rest (ih rest.length hlen rest rfl)

/-- **A detached text is read by itself, whatever stands before it.** -/
theorem pieces_append (cs : List Char) {rest : List Char} (hr : Detached rest) :
    pieces (cs ++ rest) = pieces cs ++ pieces rest := by
  induction cs using pieces_induction with
  | nil => rfl
  | seq s cs ih => rw [List.append_assoc, pieces_seq, pieces_seq, ih, List.cons_append]
  | char c cs h ih =>
    have hrest := readSequence_detached hr (by simp) h
    rw [List.cons_append] at hrest
    rw [List.cons_append, pieces_char h, pieces_char hrest, ih, List.cons_append]

/-- The text is in its pieces. -/
theorem flatMap_text_pieces (cs : List Char) : (pieces cs).flatMap Piece.text = cs := by
  induction cs using pieces_induction with
  | nil => rfl
  | seq s cs ih =>
    rw [pieces_seq, List.flatMap_cons, ih]
    rfl
  | char c cs h ih =>
    rw [pieces_char h, List.flatMap_cons, ih]
    rfl

/-! ### Texts without sequences -/

/-- No sequence starts anywhere in the text. -/
def Plain (cs : List Char) : Prop := ∀ front back, cs = front ++ back → readSequence back = none

lemma Plain.cons {c : Char} {cs : List Char} (hc : readSequence (c :: cs) = none) (h : Plain cs) :
    Plain (c :: cs) := by
  intro front back hcut
  cases front with
  | nil =>
    rw [List.nil_append] at hcut
    rwa [← hcut]
  | cons d front => exact h front back (List.cons.inj hcut).2

/-- A text without the escape character. -/
lemma plain_of_notMem {cs : List Char} (h : esc ∉ cs) : Plain cs := by
  rintro front back rfl
  rw [Option.eq_none_iff_forall_ne_some]
  intro s hs
  obtain ⟨rest, rfl⟩ := readSequence_eq_some.mp hs
  exact h (by simp [Sequence.text])

lemma plain_nil : Plain [] := by
  intro front back h
  rw [(List.append_eq_nil_iff.mp h.symm).2]
  rfl

lemma Plain.append_left {cs rest : List Char} (h : Plain (cs ++ rest)) : Plain cs := by
  rintro front back rfl
  cases hs : readSequence back with
  | none => rfl
  | some s =>
    have := h front (back ++ rest) (List.append_assoc _ _ _)
    rw [readSequence_append hs] at this
    cases this

lemma Plain.append_right {front cs : List Char} (h : Plain (front ++ cs)) : Plain cs := by
  rintro front' back rfl
  exact h (front ++ front') back (List.append_assoc _ _ _).symm

lemma Plain.take {cs : List Char} (h : Plain cs) (n : ℕ) : Plain (cs.take n) := by
  rw [← List.take_append_drop n cs] at h
  exact h.append_left

lemma Plain.drop {cs : List Char} (h : Plain cs) (n : ℕ) : Plain (cs.drop n) := by
  rw [← List.take_append_drop n cs] at h
  exact h.append_right

lemma pieces_plain {cs : List Char} (h : Plain cs) : pieces cs = cs.map .char := by
  induction cs with
  | nil => rfl
  | cons c cs ih =>
    rw [pieces_char (h [] (c :: cs) rfl), ih (Plain.append_right (show Plain ([c] ++ cs) from h)), List.map_cons]

lemma visible_chars (cs : List Char) : visible (cs.map .char) = cs := by
  induction cs with
  | nil => rfl
  | cons c cs ih => exact congrArg (List.cons c) ih

/-! ### Texts that are read to their end -/

/-- Whatever stands behind the text is read by itself. -/
def Closed (cs : List Char) : Prop := ∀ rest, pieces (cs ++ rest) = pieces cs ++ pieces rest

lemma closed_nil : Closed [] := fun _ => rfl

lemma Closed.append {cs ds : List Char} (hc : Closed cs) (hd : Closed ds) : Closed (cs ++ ds) := by
  intro rest
  rw [List.append_assoc, hc, hd, hc, List.append_assoc]

lemma pieces_text (s : Sequence) : pieces s.text = [.seq s] := by
  have := pieces_seq s []
  rwa [List.append_nil] at this

lemma closed_text (s : Sequence) : Closed s.text := by
  intro rest
  rw [pieces_seq, pieces_text]
  rfl

/-- A text without an escape is read character by character. -/
lemma pieces_of_notMem {cs : List Char} (h : esc ∉ cs) (rest : List Char) :
    pieces (cs ++ rest) = cs.map .char ++ pieces rest := by
  induction cs with
  | nil => rfl
  | cons c cs ih =>
    rw [List.mem_cons, not_or] at h
    have hread : readSequence (c :: (cs ++ rest)) = none := by
      cases hs : readSequence (c :: (cs ++ rest)) with
      | none => rfl
      | some s =>
        obtain ⟨tail, htail⟩ := readSequence_eq_some.mp hs
        exact absurd (List.cons.inj htail).1.symm h.1
    rw [List.cons_append, pieces_char hread, ih h.2]
    rfl

lemma closed_of_notMem {cs : List Char} (h : esc ∉ cs) : Closed cs := by
  intro rest
  have hself := pieces_of_notMem h []
  rw [List.append_nil] at hself
  rw [pieces_of_notMem h, hself]
  show _ = cs.map .char ++ [] ++ pieces rest
  rw [List.append_nil]

/-- The end of a text that is read to its end. -/
lemma Closed.of_cons {c : Char} {cs : List Char} (h : Closed (c :: cs)) : Closed cs := by
  cases hread : readSequence (c :: cs) with
  | none =>
    intro rest
    have hrest := h rest
    rw [pieces_char hread, List.cons_append] at hrest
    cases hs : readSequence (c :: (cs ++ rest)) with
    | none =>
      rw [pieces_char hs] at hrest
      exact (List.cons.inj hrest).2
    | some s =>
      obtain ⟨tail, htail⟩ := readSequence_eq_some.mp hs
      rw [htail, pieces_seq] at hrest
      exact absurd (List.cons.inj hrest).1 (by simp)
  | some s =>
    -- the rest of the sequence has no escape
    obtain ⟨tail, htail⟩ := readSequence_eq_some.mp hread
    have hbody : esc ∉ '[' :: (s.params ++ [s.final]) := by
      have hparams : esc ∉ s.params := fun hm => absurd (s.isParam_params _ hm) (by decide)
      have hfinal : s.final ≠ esc := fun he => absurd (he ▸ s.isFinal_final) (by decide)
      simp [hparams, hfinal.symm, show esc ≠ '[' by decide]
    obtain rfl : cs = '[' :: (s.params ++ [s.final]) ++ tail := (List.cons.inj htail).2
    refine (closed_of_notMem hbody).append fun rest => ?_
    have hrest := h rest
    rw [htail, List.append_assoc, pieces_seq, pieces_seq, List.cons_append] at hrest
    exact (List.cons.inj hrest).2

lemma Closed.of_append {front cs : List Char} (h : Closed (front ++ cs)) : Closed cs := by
  induction front with
  | nil => exact h
  | cons c front ih => exact ih h.of_cons

/-- What ends in a sequence and a text that is read to its end is read to its end. -/
lemma Closed.behind {cs : List Char} (h : Closed cs) (front : List Char) (s : Sequence) :
    Closed (front ++ (s.text ++ cs)) := by
  intro rest
  have htail := (closed_text s).append h
  rw [List.append_assoc, pieces_append _ (by rw [List.append_assoc]; exact detached_text _ _), htail,
    pieces_append _ (detached_text _ _), List.append_assoc]

/-! ### Putting sequences into a text -/

/-- The second list is the first with some of the sequences `extra` put in between. -/
inductive Inserted (extra : Sequence → Prop) : List Piece → List Piece → Prop
  | nil : Inserted extra [] []
  | keep {ps qs : List Piece} (p : Piece) : Inserted extra ps qs → Inserted extra (p :: ps) (p :: qs)
  | put {ps qs : List Piece} {s : Sequence} : extra s → Inserted extra ps qs → Inserted extra ps (.seq s :: qs)

namespace Inserted

variable {extra : Sequence → Prop} {ps qs ps' qs' : List Piece}

lemma refl (ps : List Piece) : Inserted extra ps ps := by
  induction ps with
  | nil => exact nil
  | cons p ps ih => exact keep p ih

lemma append (h : Inserted extra ps qs) (h' : Inserted extra ps' qs') :
    Inserted extra (ps ++ ps') (qs ++ qs') := by
  induction h with
  | nil => exact h'
  | keep p _ ih => exact keep p ih
  | put hs _ ih => exact put hs ih

/-- The characters a reader sees stay. -/
lemma visible_eq (h : Inserted extra ps qs) : visible qs = visible ps := by
  induction h with
  | nil => rfl
  | keep p _ ih =>
    cases p with
    | seq s => exact ih
    | char c => exact congrArg (List.cons c) ih
  | put _ _ ih => exact ih

end Inserted

end Kanta.Lib.Ansi
