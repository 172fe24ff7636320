import Kanta.Grep

/-!
# Where a matched term is highlighted

`_match_value` looks for the case-folded term in the case-folded value, and `_find_spans` for the lower-case
term in the lower-case text.  The two agree as long as lower-case forms are single characters and tell apart
no more than case folding does: `highlights_located` says so, and that nothing else will do in a text whose
lower-case forms are all single characters.
-/

namespace Kanta

open Kanta.Lib Kanta.Lib.Ansi Kanta.Lib.Search

/-- `text[start:stop]`. -/
def textAt (text : Text) (span : Span) : Text := (text.take span.2.toNat).drop span.1.toNat

/-- When the term is matched in the string `text`, a span is found, and each span delimits a part of the text
that is the term up to case. -/
def Highlights (py : CaseTables) (fnmatchcase : Text → Text → Bool) (term text : Text) : Prop :=
  matchValue py fnmatchcase term (.str (String.ofList text)) text ≠ none →
    findSpans py text term ≠ [] ∧ ∀ q ∈ findSpans py text term, py.casefold (textAt text q) = py.casefold term

namespace CaseTables

variable (py : CaseTables)

/-- How many characters at the start of what stands behind `before` have a single character as their
lower-case form. -/
def steadyFrom (before : Text) : Text → ℕ
  | [] => 0
  | c :: after => if (py.lowerAt before c after).length = 1 then steadyFrom (before ++ [c]) after + 1 else 0

/-- How many characters at the start of the text have a single character as their lower-case form. -/
def steady (text : Text) : ℕ := py.steadyFrom [] text

lemma casefold_append (s t : Text) : py.casefold (s ++ t) = py.casefold s ++ py.casefold t := List.flatMap_append

lemma casefold_cons (c : Char) (s : Text) : py.casefold (c :: s) = py.foldOf c ++ py.casefold s := List.flatMap_cons

/-- Case folding takes a text and its lower-case form for the same. -/
lemma casefold_lowerFrom (before text : Text) : py.casefold (py.lowerFrom before text) = py.casefold text := by
  induction text generalizing before with
  | nil => rfl
  | cons c text ih =>
    rw [lowerFrom, casefold_append, ih, casefold_cons]
    congr 1
    exact py.fold_lowerAt before c text

/-- Before the first character that changes the length, the parts of a text and of its lower-case form are
the same up to case. -/
lemma casefold_part {before text : Text} {i j : ℕ} (h : j ≤ py.steadyFrom before text) :
    py.casefold (((py.lowerFrom before text).take j).drop i) = py.casefold ((text.take j).drop i) := by
  induction text generalizing before i j with
  | nil => rfl
  | cons c text ih =>
    rw [steadyFrom] at h
    split at h
    · next hone =>
      obtain ⟨d, hd⟩ := List.length_eq_one_iff.mp hone
      have hfold : py.foldOf d = py.foldOf c := by
        have := py.fold_lowerAt before c text
        rwa [hd, List.flatMap_singleton] at this
      rw [lowerFrom, hd, List.singleton_append]
      cases j with
      | zero => rfl
      | succ j =>
        have hj : j ≤ py.steadyFrom (before ++ [c]) text := by omega
        rw [List.take_succ_cons, List.take_succ_cons]
        cases i with
        | zero =>
          have := ih (i := 0) hj
          rw [List.drop_zero, List.drop_zero] at this ⊢
          rw [casefold_cons, casefold_cons, hfold, this]
        | succ i =>
          rw [List.drop_succ_cons, List.drop_succ_cons]
          exact ih hj
    · obtain rfl : j = 0 := by omega
      rfl

lemma lower_ne_nil {text : Text} (h : text ≠ []) : py.lower text ≠ [] := by
  obtain ⟨c, after, rfl⟩ := List.exists_cons_of_ne_nil h
  exact List.append_ne_nil_of_left_ne_nil (py.lowerAt_ne_nil [] c after) _

/-- The lower-case form of the character is the one that case folding gives. -/
def Agrees (c : Char) : Prop := ∀ before after, py.lowerAt before c after = py.foldOf c

lemma lowerFrom_of_agrees {text : Text} (h : ∀ c ∈ text, py.Agrees c) (before : Text) :
    py.lowerFrom before text = py.casefold text := by
  induction text generalizing before with
  | nil => rfl
  | cons c text ih =>
    rw [List.forall_mem_cons] at h
    rw [lowerFrom, h.1 before text, ih h.2, casefold_cons]

lemma length_lowerFrom_of_steady {before text : Text} (h : py.steadyFrom before text = text.length) :
    (py.lowerFrom before text).length = text.length := by
  induction text generalizing before with
  | nil => rfl
  | cons c text ih =>
    rw [steadyFrom] at h
    split at h
    · next hone =>
      rw [lowerFrom, List.length_append, hone, ih (Nat.succ.inj h), List.length_cons, Nat.add_comm]
    · cases h

lemma steadyFrom_of_agrees {text : Text} (h : ∀ c ∈ text, py.Agrees c ∧ (py.foldOf c).length = 1) (before : Text) :
    py.steadyFrom before text = (py.lowerFrom before text).length := by
  induction text generalizing before with
  | nil => rfl
  | cons c text ih =>
    rw [List.forall_mem_cons] at h
    have hone : (py.lowerAt before c text).length = 1 := by rw [h.1.1 before text, h.1.2]
    rw [steadyFrom, if_pos hone, ih h.2, lowerFrom, List.length_append, hone, Nat.add_comm]

end CaseTables

/-! ### The spans -/

/-- The loop finds the occurrences. -/
lemma findLoop_eq {haystack needle : Text} (hne : needle ≠ []) {fuel pos : ℕ}
    (hfuel : haystack.length < fuel + pos) :
    findLoop haystack needle fuel pos =
      (occurrencesFrom needle 0 pos (haystack.drop pos)).map fun (i : ℕ) =>
        ((i : ℤ), ((i + needle.length : ℕ) : ℤ)) := by
  induction fuel generalizing pos with
  | zero =>
    rw [List.drop_eq_nil_of_le (by omega)]
    rfl
  | succ fuel ih =>
    rw [findLoop]
    cases hfind : find needle pos (haystack.drop pos) with
    | none =>
      rw [occurrencesFrom_of_find_none hfind]
      rfl
    | some i =>
      obtain ⟨hle, hend, -, hocc⟩ := occurrencesFrom_of_find_some hne hfind
      have hpos := List.length_pos_iff.mpr hne
      have e : pos + (i - pos + needle.length) = i + needle.length := by omega
      rw [List.length_drop] at hend
      rw [hocc, List.map_cons, List.drop_drop, e]
      exact congrArg _ (ih (by omega))

/-- What `_find_spans` finds in a text without escape sequences. -/
lemma findSpans_eq {py : CaseTables} {term text : Text} (hterm : term ≠ []) (htext : Plain text) :
    findSpans py text term = (occurrences (py.lower term) (py.lower text)).map
      fun (i : ℕ) => ((i : ℤ), ((i + (py.lower term).length : ℕ) : ℤ)) := by
  have hstrip : stripAnsi text = text := by
    rw [stripAnsi, pieces_plain htext, visible_chars]
  rw [findSpans, if_neg hterm, hstrip]
  exact findLoop_eq (py.lower_ne_nil hterm) (by omega)

/-- A term without wildcards is matched in a string by substring. -/
lemma matchValue_ne_none_iff {py : CaseTables} {fnmatchcase : Text → Text → Bool} {term text : Text}
    (hterm : term ≠ []) (hglob : hasGlob (py.casefold term) = false) :
    matchValue py fnmatchcase term (.str (String.ofList text)) text ≠ none ↔
      py.casefold term <:+: py.casefold text := by
  rw [matchValue, if_neg hterm]
  show (if hasGlob (py.casefold term) = true then _ else
    if (find (py.casefold term) 0 (py.casefold text)).isSome then _ else none) ≠ none ↔ _
  rw [if_neg (by simp [hglob]), ← isSome_find_iff (py.casefold term) 0]
  split
  · next h => simp [h]
  · next h => simp [h]

/-- The term stands in the lower-case text when it stands in the case-folded one, and each of its places lies
before the first character that changes the length. -/
def LocatedIn (py : CaseTables) (term text : Text) : Prop :=
  py.casefold term <:+: py.casefold text →
    py.lower term <:+: py.lower text ∧
      ∀ i ∈ occurrences (py.lower term) (py.lower text), i + (py.lower term).length ≤ py.steady text

instance (py : CaseTables) (term text : Text) : Decidable (LocatedIn py term text) :=
  inferInstanceAs (Decidable (_ → _ ∧ _))

/-- Before the first character that changes the length, a place of the lower-case term is a place of the
term. -/
lemma casefold_at_occurrence {py : CaseTables} {term text : Text} {i : ℕ}
    (hi : i ∈ occurrences (py.lower term) (py.lower text))
    (hsteady : i + (py.lower term).length ≤ py.steady text) :
    py.casefold ((text.take (i + (py.lower term).length)).drop i) = py.casefold term := by
  obtain ⟨-, -, rest, hrest⟩ := prefix_of_mem_occurrencesFrom hi
  rw [Nat.sub_zero] at hrest
  have hpart : ((py.lower text).take (i + (py.lower term).length)).drop i = py.lower term := by
    rw [List.drop_take, Nat.add_sub_cancel_left, ← hrest, List.take_left]
  rw [← @CaseTables.casefold_part py [] text i _ hsteady]
  show py.casefold (((py.lower text).take _).drop i) = _
  rw [hpart]
  exact py.casefold_lowerFrom [] term

/-- The places of the term lie within the lower-case text. -/
lemma occurrence_le {py : CaseTables} {term text : Text} {i : ℕ}
    (hi : i ∈ occurrences (py.lower term) (py.lower text)) :
    i + (py.lower term).length ≤ (py.lower text).length := by
  obtain ⟨-, hi, hocc⟩ := prefix_of_mem_occurrencesFrom hi
  have hlen := hocc.length_le
  rw [List.length_drop] at hlen
  omega

/-- Where the lower-case form of a character is one character and the one case folding gives, as in ASCII, a
term is located in a text wherever it is matched. -/
theorem locatedIn_of_agrees {py : CaseTables} {term text : Text} (hterm : ∀ c ∈ term, py.Agrees c)
    (htext : ∀ c ∈ text, py.Agrees c ∧ (py.foldOf c).length = 1) : LocatedIn py term text := by
  intro hmatch
  refine ⟨?_, fun i hi => ?_⟩
  · rw [CaseTables.lower, CaseTables.lower, py.lowerFrom_of_agrees hterm,
      py.lowerFrom_of_agrees fun c hc => (htext c hc).1]
    exact hmatch
  · rw [CaseTables.steady, py.steadyFrom_of_agrees htext]
    exact occurrence_le hi

/-- **When a match is highlighted where it is**: when the term is located in the text, and only then if no
character of the text changes the length. -/
theorem highlights_located {py : CaseTables} (fnmatchcase : Text → Text → Bool) {term text : Text}
    (hterm : term ≠ []) (hglob : hasGlob (py.casefold term) = false) (htext : Plain text) :
    (LocatedIn py term text → Highlights py fnmatchcase term text) ∧
      (py.steady text = text.length → Highlights py fnmatchcase term text → LocatedIn py term text) := by
  rw [Highlights, LocatedIn, matchValue_ne_none_iff hterm hglob, findSpans_eq hterm htext]
  have hfound : (occurrences (py.lower term) (py.lower text)).map
      (fun (i : ℕ) => ((i : ℤ), ((i + (py.lower term).length : ℕ) : ℤ))) ≠ [] ↔
        py.lower term <:+: py.lower text := by
    rw [ne_eq, List.map_eq_nil_iff]
    exact occurrences_ne_nil_iff (py.lower_ne_nil hterm) _
  constructor
  · intro h hmatch
    obtain ⟨hlower, hplaces⟩ := h hmatch
    refine ⟨hfound.mpr hlower, List.forall_mem_map.mpr fun i hi => ?_⟩
    exact casefold_at_occurrence hi (hplaces i hi)
  · intro hsteady h hmatch
    refine ⟨hfound.mp (h hmatch).1, fun i hi => ?_⟩
    have hlength : (py.lower text).length = text.length := py.length_lowerFrom_of_steady hsteady
    rw [hsteady, ← hlength]
    exact occurrence_le hi

/-- The case tables for some characters: a capital, a character that case folding makes two, and one whose
lower-case form is two. -/
def sampleTables : CaseTables where
  lowerAt _ c _ := if c = 'S' then ['s'] else if c = 'İ' then ['i', '\u0307'] else [c]
  foldOf c := if c = 'S' then ['s'] else if c = 'ß' then ['s', 's'] else if c = 'İ' then ['i', '\u0307'] else [c]
  lowerAt_ne_nil := by
    intro before c after
    split
    · simp
    · split <;> simp
  fold_lowerAt := by
    intro before c after
    by_cases hS : c = 'S'
    · subst hS
      decide
    by_cases hI : c = 'İ'
    · subst hI
      decide
    simp [hS, hI]

/-- A match before a character that changes the length. -/
theorem highlights_located_sample :
    Highlights sampleTables (fun _ _ => false) "tra".toList "Straße İ".toList :=
  (highlights_located _ (by decide) (by decide) (plain_of_notMem (by decide))).1 (by decide)

/-- The term `ss` is matched in `Straße` and not found. -/
theorem highlights_counterexample :
    ¬∀ (py : CaseTables) (fnmatchcase : Text → Text → Bool) (term text : Text), term ≠ [] →
      hasGlob (py.casefold term) = false → Plain text → Highlights py fnmatchcase term text := by
  intro h
  have hss := h sampleTables (fun _ _ => false) "ss".toList "Straße".toList (by decide) (by decide)
    (plain_of_notMem (by decide)) (by decide)
  exact hss.1 (by decide)

end Kanta
