import Kanta.Lib.Sgr
import Kanta.Tty

/-!
# What a line shows

A specification resets and sets; a line is meant to show the text of each call in the rendition the
specification of its color denotes.  `parseSgr` reads a specification into a dict of what is in force, and
the sequences the builder emits take a terminal from one such dict to the next
(`displays_transition`).  24-bit colors are the exception: the parser takes one component too few with them.
-/

namespace Kanta

open Kanta.Lib Kanta.Lib.Ansi Kanta.Lib.Assoc Kanta.Lib.Sgr

/-! ### Specifications -/

/-- One item of a specification. -/
inductive SgrItem where
  | reset
  | set (c : Aspect) (v : Setting)

namespace SgrItem

def Valid : SgrItem → Prop
  | .reset => True
  | .set c v => Settable c v

def numbers : SgrItem → List ℕ
  | .reset => [0]
  | .set c v => Sgr.numbers c v

/-- A 24-bit color. -/
def isRgb : SgrItem → Bool
  | .set _ (.rgb ..) => true
  | _ => false

/-- What is in force after the item. -/
def apply (settings : List (Aspect × Setting)) : SgrItem → List (Aspect × Setting)
  | .reset => []
  | .set c v => put c v settings

end SgrItem

/-- `spec` is the string of these items. -/
structure SpecOf (items : List SgrItem) (spec : Text) : Prop where
  ne_nil : items ≠ []
  valid : ∀ i ∈ items, i.Valid
  spec_eq : spec = joinParams ((items.flatMap SgrItem.numbers).map digits)

/-- A specification: resets, attributes, basic and bright colors, indexed and 24-bit colors. -/
def IsSpec (spec : Text) : Prop := ∃ items, SpecOf items spec

/-- A specification without a 24-bit color. -/
def IsPlainSpec (spec : Text) : Prop := ∃ items, SpecOf items spec ∧ ∀ i ∈ items, i.isRgb = false

/-- The rendition a specification denotes. -/
def denotes (spec : Text) : Rendition := interpret (parameters spec) Rendition.plain

/-- The rendition of what is in force. -/
def inForce (settings : List (Aspect × Setting)) : Rendition := fun c => settings.lookup c

lemma inForce_nil : inForce [] = Rendition.plain := rfl

lemma inForce_put (c : Aspect) (v : Setting) (settings : List (Aspect × Setting)) :
    inForce (put c v settings) = (inForce settings).set c (some v) := by
  funext d
  rw [inForce, lookup_put]
  rfl

lemma SgrItem.numbers_ne_nil {i : SgrItem} (h : i.Valid) : i.numbers ≠ [] := by
  cases i with
  | reset => exact List.cons_ne_nil 0 []
  | set c v => exact Sgr.numbers_ne_nil h

/-- A terminal that reads the numbers of items has in force what they leave. -/
lemma interpret_items {items : List SgrItem} (h : ∀ i ∈ items, i.Valid) (settings : List (Aspect × Setting)) :
    interpret (singles (items.flatMap SgrItem.numbers)) (inForce settings) =
      inForce (items.foldl SgrItem.apply settings) := by
  induction items generalizing settings with
  | nil => rfl
  | cons i items ih =>
    rw [List.forall_mem_cons] at h
    rw [List.flatMap_cons, singles, List.map_append]
    show interpret (singles i.numbers ++ singles (items.flatMap SgrItem.numbers)) _ = _
    cases i with
    | reset =>
      show interpret ([0] :: singles (items.flatMap SgrItem.numbers)) _ = _
      rw [interpret_code (by decide) (by decide)]
      exact ih h.2 []
    | set c v =>
      show interpret (singles (Sgr.numbers c v) ++ _) _ = _
      rw [interpret_numbers h.1, ← inForce_put]
      exact ih h.2 (put c v settings)

lemma SpecOf.numbers_ne_nil {items : List SgrItem} {spec : Text} (h : SpecOf items spec) :
    items.flatMap SgrItem.numbers ≠ [] := by
  obtain ⟨i, rest, rfl⟩ := List.exists_cons_of_ne_nil h.ne_nil
  rw [List.flatMap_cons]
  exact List.append_ne_nil_of_left_ne_nil
    (SgrItem.numbers_ne_nil (h.valid i List.mem_cons_self)) _

/-- What a specification denotes is what its items leave in force. -/
lemma SpecOf.denotes {items : List SgrItem} {spec : Text} (h : SpecOf items spec) :
    denotes spec = inForce (items.foldl SgrItem.apply []) := by
  rw [Kanta.denotes, h.spec_eq, joinParams, parameters_intercalate h.numbers_ne_nil, ← inForce_nil]
  exact interpret_items h.valid []

/-! ### The dict of the parser -/

/-- The name of an aspect in the dict. -/
def aspectName : Aspect → String
  | .foreground => "fg"
  | .background => "bg"
  | .attr n => attrKey (digits n)

/-- The group of parameters of a value in the dict. -/
def groupOf (c : Aspect) (v : Setting) : Text := joinParams ((Sgr.numbers c v).map digits)

/-- The dict for what is in force. -/
def dictOf (settings : List (Aspect × Setting)) : SgrState :=
  settings.map fun q => (aspectName q.1, groupOf q.1 q.2)

lemma digits_ne {name : Text} {c : Char} (hc : c ∈ name) (hd : c.isDigit = false) (n : ℕ) : digits n ≠ name := by
  rintro rfl
  exact notMem_digits hd n hc

lemma toList_aspectName_attr (n : ℕ) :
    (aspectName (.attr n)).toList = digits n ∨ (aspectName (.attr n)).toList = "other:".toList ++ digits n := by
  rw [aspectName, attrKey]
  split
  · exact Or.inl (String.toList_ofList)
  · exact Or.inr (by simp)

lemma aspectName_injective : Function.Injective aspectName := by
  intro c d h
  have hcolor : ∀ n : ℕ, aspectName (.attr n) ≠ "fg" ∧ aspectName (.attr n) ≠ "bg" := by
    intro n
    rcases toList_aspectName_attr n with hn | hn
    · refine ⟨fun h => ?_, fun h => ?_⟩
      · exact digits_ne (c := 'g') (by decide) rfl n (hn.symm.trans (congrArg String.toList h))
      · exact digits_ne (c := 'g') (by decide) rfl n (hn.symm.trans (congrArg String.toList h))
    · refine ⟨fun h => ?_, fun h => ?_⟩ <;> rw [h] at hn <;> cases hn
  cases c with
  | foreground =>
    cases d with
    | foreground => rfl
    | background => exact absurd h (by decide)
    | attr n => exact absurd h.symm (hcolor n).1
  | background =>
    cases d with
    | foreground => exact absurd h (by decide)
    | background => rfl
    | attr n => exact absurd h.symm (hcolor n).2
  | attr m =>
    cases d with
    | foreground => exact absurd h (hcolor m).1
    | background => exact absurd h (hcolor m).2
    | attr n =>
      have h := congrArg String.toList h
      congr 1
      rcases toList_aspectName_attr m with hm | hm <;> rcases toList_aspectName_attr n with hn | hn <;>
        rw [hm, hn] at h
      · exact digits_injective h
      · exact absurd h (digits_ne (c := 'o') (by simp) rfl m)
      · exact absurd h.symm (digits_ne (c := 'o') (by simp) rfl n)
      · exact digits_injective (List.append_cancel_left h)

lemma dictOf_nil : dictOf [] = [] := rfl

lemma put_dictOf (c : Aspect) (v : Setting) (settings : List (Aspect × Setting)) :
    put (aspectName c) (groupOf c v) (dictOf settings) = dictOf (put c v settings) :=
  put_map aspectName_injective groupOf c v settings

lemma lookup_dictOf (c : Aspect) (settings : List (Aspect × Setting)) :
    (dictOf settings).lookup (aspectName c) = (settings.lookup c).map (groupOf c) :=
  lookup_map aspectName_injective groupOf c settings

/-! ### Parsing -/

lemma isdigit_digits (n : ℕ) : isdigit (digits n) = true := by
  have hne : digits n ≠ [] := Nat.toDigits_ne_nil
  rw [isdigit, Bool.and_eq_true, List.all_eq_true]
  refine ⟨by simpa using hne, fun c hc => ?_⟩
  rw [decimalValue_digit (isDigit_digits hc)]
  rfl

lemma pyInt_digits {n : ℕ} (h : n < intBound) : pyInt (String.ofList (digits n)) = some (n : ℤ) := by
  have e : String.ofList (digits n) = toString (n : ℤ) := by
    rw [← String.toList_inj, String.toList_ofList, toList_toString, if_neg (by omega)]
    rfl
  rw [e, pyInt_toString, if_pos (by simpa using h)]

lemma isBetween_digits {n : ℕ} (h : n < intBound) (a b c d : ℤ) :
    isBetween (digits n) a b c d = .ok (decide (a ≤ n ∧ n ≤ b ∨ c ≤ n ∧ n ≤ d)) := by
  rw [isBetween, if_pos (isdigit_digits n), pyInt_digits h]

lemma lt_intBound_of_le {n : ℕ} (h : n ≤ 107) : n < intBound := by
  have hsmall : n < 10 ^ 3 := by omega
  unfold intBound
  apply Nat.lt_of_lt_of_le hsmall
  apply Nat.pow_le_pow_right <;> decide

/-- A number that is no color sets its attribute. -/
lemma parseToken_attr {n : ℕ} (h : n ≤ 9) (settings : List (Aspect × Setting)) :
    parseToken (digits n) (dictOf settings) = .ok (dictOf (put (.attr n) .on settings)) := by
  have hb : n < intBound := lt_intBound_of_le (by omega)
  have hg : digits n = groupOf (.attr n) .on := by simp [groupOf, Sgr.numbers, joinParams]
  have hfg : ¬((30 : ℤ) ≤ n ∧ (n : ℤ) ≤ 37 ∨ (90 : ℤ) ≤ n ∧ (n : ℤ) ≤ 97) := by omega
  have hbg : ¬((40 : ℤ) ≤ n ∧ (n : ℤ) ≤ 47 ∨ (100 : ℤ) ≤ n ∧ (n : ℤ) ≤ 107) := by omega
  rw [parseToken, isBetween_digits hb, isBetween_digits hb, decide_eq_false hfg, decide_eq_false hbg,
    ← put_dictOf, aspectName, ← hg]
  rfl

lemma parseToken_foreground {n : ℕ} (h : 30 ≤ n ∧ n ≤ 37 ∨ 90 ≤ n ∧ n ≤ 97)
    (settings : List (Aspect × Setting)) :
    parseToken (digits n) (dictOf settings) = .ok (dictOf (put .foreground (.basic n) settings)) := by
  have hb : n < intBound := lt_intBound_of_le (by omega)
  have hg : digits n = groupOf .foreground (.basic n) := by simp [groupOf, Sgr.numbers, joinParams]
  have hfg : (30 : ℤ) ≤ n ∧ (n : ℤ) ≤ 37 ∨ (90 : ℤ) ≤ n ∧ (n : ℤ) ≤ 97 := by omega
  rw [parseToken, isBetween_digits hb, isBetween_digits hb, decide_eq_true hfg, ← put_dictOf, ← hg]
  rfl

lemma parseToken_background {n : ℕ} (h : 40 ≤ n ∧ n ≤ 47 ∨ 100 ≤ n ∧ n ≤ 107)
    (settings : List (Aspect × Setting)) :
    parseToken (digits n) (dictOf settings) = .ok (dictOf (put .background (.basic n) settings)) := by
  have hb : n < intBound := lt_intBound_of_le (by omega)
  have hg : digits n = groupOf .background (.basic n) := by simp [groupOf, Sgr.numbers, joinParams]
  have hfg : ¬((30 : ℤ) ≤ n ∧ (n : ℤ) ≤ 37 ∨ (90 : ℤ) ≤ n ∧ (n : ℤ) ≤ 97) := by omega
  have hbg : (40 : ℤ) ≤ n ∧ (n : ℤ) ≤ 47 ∨ (100 : ℤ) ≤ n ∧ (n : ℤ) ≤ 107 := by omega
  rw [parseToken, isBetween_digits hb, isBetween_digits hb, decide_eq_false hfg, decide_eq_true hbg,
    ← put_dictOf, ← hg]
  rfl

lemma digits_eq_iff {m n : ℕ} : digits m = digits n ↔ m = n := ⟨digits_injective, congrArg digits⟩

/-- A number that starts nothing is a token by itself. -/
lemma parseSgrLoop_token {n : ℕ} (h0 : n ≠ 0) (h38 : n ≠ 38) (h48 : n ≠ 48) (tokens : List Text)
    (state : SgrState) : parseSgrLoop 0 (digits n :: tokens) state =
      parseToken (digits n) state >>= parseSgrLoop 0 tokens := by
  have e0 : "0".toList = digits 0 := rfl
  have e38 : "38".toList = digits 38 := rfl
  have e48 : "48".toList = digits 48 := rfl
  rw [parseSgrLoop, e0, e38, e48]
  simp only [digits_eq_iff, h0, h38, h48, or_self, if_false]

/-- One item, as the parser reads it. -/
lemma parseSgrLoop_item {i : SgrItem} (h : i.Valid) (hrgb : i.isRgb = false) (tokens : List Text)
    (settings : List (Aspect × Setting)) :
    parseSgrLoop 0 (i.numbers.map digits ++ tokens) (dictOf settings) =
      parseSgrLoop 0 tokens (dictOf (i.apply settings)) := by
  cases i with
  | reset => rfl
  | set c v =>
    cases v with
    | on =>
      cases c with
      | attr n =>
        obtain ⟨h1, h9⟩ : 1 ≤ n ∧ n ≤ 9 := h
        show parseSgrLoop 0 (digits n :: tokens) _ = _
        rw [parseSgrLoop_token (by omega) (by omega) (by omega), parseToken_attr h9]
        rfl
      | _ => exact h.elim
    | basic n =>
      cases c with
      | foreground =>
        have h : 30 ≤ n ∧ n ≤ 37 ∨ 90 ≤ n ∧ n ≤ 97 := h
        show parseSgrLoop 0 (digits n :: tokens) _ = _
        rw [parseSgrLoop_token (by omega) (by omega) (by omega), parseToken_foreground h]
        rfl
      | background =>
        have h : 40 ≤ n ∧ n ≤ 47 ∨ 100 ≤ n ∧ n ≤ 107 := h
        show parseSgrLoop 0 (digits n :: tokens) _ = _
        rw [parseSgrLoop_token (by omega) (by omega) (by omega), parseToken_background h]
        rfl
      | attr n => exact h.elim
    | indexed n =>
      cases c with
      | foreground =>
        show parseSgrLoop 0 tokens (put (aspectName .foreground) (groupOf .foreground (.indexed n)) _) = _
        rw [put_dictOf]
        rfl
      | background =>
        show parseSgrLoop 0 tokens (put (aspectName .background) (groupOf .background (.indexed n)) _) = _
        rw [put_dictOf]
        rfl
      | attr n => exact h.elim
    | rgb red green blue => cases hrgb

/-- The last component of a 24-bit color is read as a parameter of its own. -/
theorem parseSgrLoop_rgb (red green blue : ℕ) (tokens : List Text) (settings : List (Aspect × Setting)) :
    parseSgrLoop 0 ((Sgr.numbers .foreground (.rgb red green blue)).map digits ++ tokens) (dictOf settings) =
      parseSgrLoop 0 (digits blue :: tokens)
        (put "fg" (joinParams [digits 38, digits 2, digits red, digits green]) (dictOf settings)) := rfl

lemma parseSgrLoop_items {items : List SgrItem} (h : ∀ i ∈ items, i.Valid) (hrgb : ∀ i ∈ items, i.isRgb = false)
    (settings : List (Aspect × Setting)) :
    parseSgrLoop 0 ((items.flatMap SgrItem.numbers).map digits) (dictOf settings) =
      .ok (dictOf (items.foldl SgrItem.apply settings)) := by
  induction items generalizing settings with
  | nil => rfl
  | cons i items ih =>
    rw [List.forall_mem_cons] at h hrgb
    rw [List.flatMap_cons, List.map_append, parseSgrLoop_item h.1 hrgb.1, ih h.2 hrgb.2, List.foldl_cons]

/-- **Parsing.**  The dict of a specification without 24-bit colors is the dict of what it leaves in
force. -/
theorem parseSgr_eq {items : List SgrItem} {spec : Text} (h : SpecOf items spec)
    (hrgb : ∀ i ∈ items, i.isRgb = false) :
    parseSgr spec = .ok (dictOf (items.foldl SgrItem.apply [])) := by
  have hsemi : ∀ ds ∈ (items.flatMap SgrItem.numbers).map digits, ';' ∉ ds := by
    intro ds hds
    obtain ⟨n, -, rfl⟩ := List.mem_map.mp hds
    exact notMem_digits rfl n
  rw [parseSgr, h.spec_eq, joinParams, List.splitOn_intercalate ';' hsemi (by simpa using h.numbers_ne_nil)]
  exact parseSgrLoop_items h.valid hrgb []

/-! ### Transitions -/

/-- A dict of values, each in its aspect. -/
structure InForce (settings : List (Aspect × Setting)) : Prop where
  nodup : (keys settings).Nodup
  settable : ∀ q ∈ settings, Settable q.1 q.2

lemma inForce_apply {settings : List (Aspect × Setting)} (hs : InForce settings) {i : SgrItem} (h : i.Valid) :
    InForce (i.apply settings) := by
  cases i with
  | reset => exact ⟨List.nodup_nil, by simp [SgrItem.apply]⟩
  | set c v =>
    refine ⟨nodup_put hs.nodup v, fun q hq => ?_⟩
    obtain ⟨d, w⟩ := q
    rcases mem_put hq with ⟨rfl, rfl⟩ | hq
    · exact h
    · exact hs.settable _ hq

lemma inForce_items {items : List SgrItem} (h : ∀ i ∈ items, i.Valid) {settings : List (Aspect × Setting)}
    (hs : InForce settings) : InForce (items.foldl SgrItem.apply settings) := by
  induction items generalizing settings with
  | nil => exact hs
  | cons i items ih =>
    rw [List.forall_mem_cons] at h
    exact ih h.2 (inForce_apply hs h.1)

section Transition

variable {current new : List (Aspect × Setting)}

/-- The group of a value tells the value. -/
lemma groupOf_injective {c : Aspect} {v w : Setting} (hv : Settable c v) (hw : Settable c w)
    (h : groupOf c v = groupOf c w) : v = w := by
  have hread : ∀ u, Settable c u → interpret (parameters (groupOf c u)) Rendition.plain c = some u := by
    intro u hu
    have := interpret_numbers hu [] Rendition.plain
    rw [List.append_nil] at this
    rw [groupOf, joinParams, parameters_intercalate (Sgr.numbers_ne_nil hu)]
    show interpret (singles (Sgr.numbers c u)) Rendition.plain c = some u
    rw [this]
    exact Rendition.set_self _ c (some u)
  have := hread v hv
  rw [h, hread w hw] at this
  exact (Option.some.inj this).symm

lemma keys_dictOf (settings : List (Aspect × Setting)) : keys (dictOf settings) = (keys settings).map aspectName := by
  simp [dictOf, keys]

/-- A value is in both dicts under the same group when it is in force in both. -/
lemma lookup_group_iff (hc : InForce current) {q : Aspect × Setting} (hq : Settable q.1 q.2) :
    (dictOf current).lookup (aspectName q.1) = some (groupOf q.1 q.2) ↔ current.lookup q.1 = some q.2 := by
  rw [lookup_dictOf]
  constructor
  · intro h
    obtain ⟨v, hv, hg⟩ := Option.map_eq_some_iff.mp h
    exact hv.trans (congrArg some (groupOf_injective (hc.settable _ (mem_of_lookup hv)) hq hg))
  · intro h
    rw [h]
    rfl

/-- Dicts that compare equal put the same in force. -/
lemma sameDict_iff (hc : InForce current) (hn : InForce new) :
    sameDict (dictOf current) (dictOf new) = true ↔ inForce current = inForce new := by
  have hall : ((dictOf current).all fun q => (dictOf new).lookup q.1 = some q.2) = true ↔
      ∀ q ∈ current, new.lookup q.1 = some q.2 := by
    rw [dictOf, List.all_map, List.all_eq_true]
    refine forall₂_congr fun q hq => ?_
    simp only [Function.comp_apply, decide_eq_true_eq]
    exact lookup_group_iff hn (hc.settable q hq)
  have hlen : (dictOf current).length = (dictOf new).length ↔ current.length = new.length := by
    simp [dictOf]
  rw [sameDict, Bool.and_eq_true, hall, decide_eq_true_eq, hlen]
  constructor
  · rintro ⟨hl, h⟩
    funext c
    show current.lookup c = new.lookup c
    have hsub : ∀ d ∈ keys current, d ∈ keys new := by
      intro d hd
      obtain ⟨q, hq, rfl⟩ := List.mem_map.mp hd
      exact mem_keys_of_lookup (h q hq)
    cases hcur : current.lookup c with
    | some v => exact (h (c, v) (mem_of_lookup hcur)).symm
    | none =>
      rw [lookup_eq_none_iff] at hcur
      exact (lookup_eq_none_iff.mpr fun hk => hcur (keys_subset_antisymm hc.nodup hsub hl hk)).symm
  · intro h
    have hlookup : ∀ c, current.lookup c = new.lookup c := fun c => congrFun h c
    refine ⟨length_eq_of_keys hc.nodup hn.nodup fun c => ?_, fun q hq => ?_⟩
    · rw [← lookup_isSome_iff, ← lookup_isSome_iff, hlookup]
    · rw [← hlookup]
      exact (lookup_eq_some_iff hc.nodup).mpr hq

lemma joinParams_append {front back : List Text} (hf : front ≠ []) (hb : back ≠ []) :
    joinParams (front ++ back) = joinParams front ++ ';' :: joinParams back := by
  induction front with
  | nil => exact (hf rfl).elim
  | cons token front ih =>
    cases front with
    | nil => simp [joinParams, List.intercalate_cons_of_ne_nil hb]
    | cons token' front =>
      have := ih (by simp)
      simp only [joinParams, List.cons_append, List.intercalate_cons_cons, List.append_assoc] at this ⊢
      rw [this]

/-- Groups joined are their numbers joined. -/
lemma joinParams_groups {settings : List (Aspect × Setting)} (h : ∀ q ∈ settings, Settable q.1 q.2) :
    joinParams ((dictOf settings).map Prod.snd) = joinParams ((allNumbers settings).map digits) := by
  induction settings with
  | nil => rfl
  | cons q settings ih =>
    rw [List.forall_mem_cons] at h
    have hq : (Sgr.numbers q.1 q.2).map digits ≠ [] := by simpa using Sgr.numbers_ne_nil h.1
    show joinParams ([groupOf q.1 q.2] ++ (dictOf settings).map Prod.snd) =
      joinParams ((Sgr.numbers q.1 q.2 ++ allNumbers settings).map digits)
    cases settings with
    | nil => simp [dictOf, allNumbers, groupOf, joinParams]
    | cons p settings =>
      have hall : (allNumbers (p :: settings)).map digits ≠ [] := by
        have hp := Sgr.numbers_ne_nil (List.forall_mem_cons.mp h.2).1
        simp [allNumbers, hp]
      have hgroups : (dictOf (p :: settings)).map Prod.snd ≠ [] := by simp [dictOf]
      have hg : joinParams [groupOf q.1 q.2] = joinParams ((Sgr.numbers q.1 q.2).map digits) := by
        simp [joinParams, groupOf]
      rw [List.map_append, joinParams_append (by simp) hgroups, joinParams_append hq hall, ih h.2, hg]

/-- A sequence that sets values. -/
lemma displays_groups {settings : List (Aspect × Setting)} (h : ∀ q ∈ settings, Settable q.1 q.2)
    (hne : settings ≠ []) (r : Rendition) :
    Displays (sgrText (joinParams ((dictOf settings).map Prod.snd))) r [] (setAll settings r) := by
  have hall : allNumbers settings ≠ [] := by
    obtain ⟨q, rest, rfl⟩ := List.exists_cons_of_ne_nil hne
    have hq := Sgr.numbers_ne_nil (h q List.mem_cons_self)
    simp [allNumbers, hq]
  rw [joinParams_groups h, ← interpret_allNumbers h]
  exact displays_numbers hall r

/-- A sequence that resets, and sets values in the same breath. -/
lemma displays_reset_groups {settings : List (Aspect × Setting)} (h : ∀ q ∈ settings, Settable q.1 q.2)
    (hne : settings ≠ []) (r : Rendition) :
    Displays (sgrText (['0', ';'] ++ joinParams ((dictOf settings).map Prod.snd))) r []
      (setAll settings Rendition.plain) := by
  have hall : (allNumbers settings).map digits ≠ [] := by
    obtain ⟨q, rest, rfl⟩ := List.exists_cons_of_ne_nil hne
    have hq := Sgr.numbers_ne_nil (h q List.mem_cons_self)
    simp [allNumbers, hq]
  have hjoin : ['0', ';'] ++ joinParams ((allNumbers settings).map digits) =
      joinParams ((0 :: allNumbers settings).map digits) := by
    rw [List.map_cons]
    exact (@joinParams_append [digits 0] _ (by simp) hall).symm
  rw [joinParams_groups h, hjoin, ← interpret_allNumbers h]
  exact displays_numbers (by simp) r

lemma displays_reset (r : Rendition) : Displays (sgrText ['0']) r [] Rendition.plain :=
  @displays_numbers [0] (by simp) r

lemma setAll_plain (hn : InForce new) : setAll new Rendition.plain = inForce new := by
  funext c
  rw [setAll_apply hn.nodup]
  split
  · rfl
  · next h => exact (lookup_eq_none_iff.mpr h).symm

/-- Where nothing is lost, the values that differ are all there is to set. -/
lemma setAll_changed (hn : InForce new) (hkept : ∀ c ∈ keys current, c ∈ keys new) :
    setAll (new.filter fun q => current.lookup q.1 ≠ some q.2) (inForce current) = inForce new := by
  have hnodup : (keys (new.filter fun q => current.lookup q.1 ≠ some q.2)).Nodup :=
    hn.nodup.sublist (List.filter_sublist.map Prod.fst)
  have hmem : ∀ c v, (c, v) ∈ new.filter (fun q => current.lookup q.1 ≠ some q.2) ↔
      new.lookup c = some v ∧ current.lookup c ≠ some v := by
    intro c v
    rw [List.mem_filter, lookup_eq_some_iff hn.nodup, decide_eq_true_eq]
  funext c
  rw [setAll_apply hnodup]
  split
  · next hk =>
    obtain ⟨q, hq, rfl⟩ := List.mem_map.mp hk
    rw [(lookup_eq_some_iff hnodup).mpr hq]
    exact (((hmem _ _).mp hq).1).symm
  · next hk =>
    show current.lookup c = new.lookup c
    cases hnew : new.lookup c with
    | some v =>
      by_contra hne
      exact hk (List.mem_map_of_mem (f := Prod.fst) ((hmem c v).mpr ⟨hnew, hne⟩))
    | none =>
      rw [lookup_eq_none_iff] at hnew ⊢
      exact fun h => hnew (hkept c h)

/-- Nothing is lost when every key of the old dict is one of the new dict. -/
lemma kept_of_not_lost (h : ¬((keys (dictOf current)).any fun cls => cls ∉ keys (dictOf new)) = true) :
    ∀ c ∈ keys current, c ∈ keys new := by
  intro c hk
  by_contra hno
  apply h
  rw [List.any_eq_true]
  refine ⟨aspectName c, ?_, ?_⟩
  · rw [keys_dictOf]
    exact List.mem_map_of_mem hk
  · rw [keys_dictOf, decide_eq_true_eq, List.mem_map_of_injective aspectName_injective]
    exact hno

/-- The groups that differ from those of the old dict are the groups of what changes. -/
lemma changed_dictOf (hc : InForce current) (hn : InForce new) :
    (dictOf new).filter (fun q => (dictOf current).lookup q.1 ≠ some q.2) =
      dictOf (new.filter fun q => current.lookup q.1 ≠ some q.2) := by
  have hmap : ∀ f : String × Text → Bool, (dictOf new).filter f =
      (new.filter fun q => f (aspectName q.1, groupOf q.1 q.2)).map fun q => (aspectName q.1, groupOf q.1 q.2) :=
    fun f => List.filter_map
  refine (hmap _).trans (congrArg dictOf (List.filter_congr fun q hq => ?_))
  simp only [ne_eq, lookup_group_iff hc (hn.settable q hq)]

/-- **Transitions.**  The sequence emitted between two calls shows nothing and takes a terminal from what
was in force to what is to be in force. -/
theorem displays_transition (hc : InForce current) (hn : InForce new) :
    Displays (sgrTransition (dictOf current) (dictOf new)) (inForce current) [] (inForce new) := by
  rw [sgrTransition]
  by_cases hsame : sameDict (dictOf current) (dictOf new) = true
  · rw [if_pos hsame, (sameDict_iff hc hn).mp hsame]
    exact displays_nil _
  rw [if_neg hsame]
  by_cases hnew : new = []
  · subst hnew
    have hcur : dictOf current ≠ [] := by
      intro h
      rw [h] at hsame
      exact hsame rfl
    rw [if_pos dictOf_nil, if_pos hcur]
    exact displays_reset _
  have hnew' : dictOf new ≠ [] := by simpa [dictOf] using hnew
  rw [if_neg hnew']
  by_cases hcur : current = []
  · subst hcur
    rw [if_pos dictOf_nil, ← setAll_plain hn]
    exact displays_groups hn.settable hnew _
  have hcur' : dictOf current ≠ [] := by simpa [dictOf] using hcur
  rw [if_neg hcur']
  by_cases hlost : ((keys (dictOf current)).any fun cls => cls ∉ keys (dictOf new)) = true
  · rw [if_pos hlost, ← setAll_plain hn]
    exact displays_reset_groups hn.settable hnew _
  rw [if_neg hlost]
  have hsettable : ∀ q ∈ new.filter fun q => current.lookup q.1 ≠ some q.2, Settable q.1 q.2 :=
    fun q hq => hn.settable q (List.mem_of_mem_filter hq)
  have hafter := setAll_changed hn (kept_of_not_lost hlost)
  rw [changed_dictOf hc hn]
  by_cases hnone : new.filter (fun q => current.lookup q.1 ≠ some q.2) = []
  · rw [hnone] at hafter ⊢
    rw [← hafter]
    exact displays_nil _
  · have hne : (dictOf (new.filter fun q => current.lookup q.1 ≠ some q.2)).map Prod.snd ≠ [] := by
      simpa only [dictOf, ne_eq, List.map_eq_nil_iff] using hnone
    rw [← hafter]
    show Displays (if _ then _ else _) _ _ _
    rw [if_pos hne]
    exact displays_groups hsettable hnone _

end Transition

/-! ### Lines -/

namespace Line

/-- What a line is meant to show: the text of each call in the rendition of the color armed for it, and
in the default rendition when none is. -/
def intended (palette : Palette) (cells : Char → ℕ) : Rendition → List Op → List (Char × Rendition)
  | _, [] => []
  | _, .color name :: ops => intended palette cells (denotes ((palette.lookup name).getD [])) ops
  | r, .call args width align :: ops =>
    ((callText cells args width align).map fun c => (c, r)) ++ intended palette cells Rendition.plain ops

/-- The finished line shows what it is meant to and leaves the default rendition. -/
def Renders (palette : Palette) (cells : Char → ℕ) (ops : List Op) : Prop :=
  ∃ line, (Line.new palette).run cells ops = .ok line ∧
    shown Rendition.plain (pieces line.str) = intended palette cells Rendition.plain ops ∧
    leaves Rendition.plain (pieces line.str) = Rendition.plain

/-- The color is one of the palette, and the text has no escapes. -/
def Op.Fits (palette : Palette) : Op → Prop
  | .color name => startsWith "_" name = false ∧ ∃ spec, palette.lookup name = some spec ∧ IsSpec spec
  | .call args _ _ => ∀ arg ∈ args, esc ∉ arg

/-- The color is no 24-bit color. -/
def Op.Plain (palette : Palette) : Op → Prop
  | .color name => ∀ spec, palette.lookup name = some spec → IsPlainSpec spec
  | .call .. => True

lemma esc_notMem_callText {cells : Char → ℕ} {args : List Text} {width : ℤ} {align : String}
    (h : ∀ arg ∈ args, esc ∉ arg) : esc ∉ callText cells args width align := by
  have hflat : esc ∉ args.flatten := by simpa using h
  have hspaces : ∀ n, esc ∉ List.replicate n ' ' := by
    intro n hn
    exact absurd (List.eq_of_mem_replicate hn) (by decide)
  rw [callText]
  split
  · rw [pad]
    dsimp only
    split
    · exact hflat
    split
    · exact List.not_mem_append (hspaces _) hflat
    split
    · exact List.not_mem_append (List.not_mem_append (hspaces _) hflat) (hspaces _)
    · exact List.not_mem_append hflat (hspaces _)
  · exact hflat

/-- The line has shown `out`, and the next call is armed for rendition `r`. -/
structure Has (palette : Palette) (line : Line) (out : List (Char × Rendition)) (r : Rendition) : Prop where
  palette_eq : line.palette = palette
  state : ∃ active pending, line.active = dictOf active ∧ line.pending = dictOf pending ∧
    InForce active ∧ InForce pending ∧ inForce pending = r ∧
    Displays line.parts.flatten Rendition.plain out (inForce active)

lemma inForce_empty : InForce [] := ⟨List.nodup_nil, by simp⟩

variable {palette : Palette} {cells : Char → ℕ} {line : Line} {out : List (Char × Rendition)} {r : Rendition}

lemma has_new : (Line.new palette).Has palette [] Rendition.plain :=
  ⟨rfl, [], [], rfl, rfl, inForce_empty, inForce_empty, rfl, displays_nil _⟩

/-- A color arms the next call. -/
lemma Has.color (h : line.Has palette out r) {name : String} (hf : (Op.color name).Fits palette)
    (hp : (Op.color name).Plain palette) :
    ∃ line', line.color name = .ok line' ∧
      line'.Has palette out (denotes ((palette.lookup name).getD [])) := by
  obtain ⟨hname, spec, hspec, -⟩ := hf
  obtain ⟨items, hitems, hrgb⟩ := hp spec hspec
  obtain ⟨hpalette, active, pending, hactive, -, hforce, -, -, hdisplays⟩ := h
  refine ⟨{ line with pending := dictOf (items.foldl SgrItem.apply []) }, ?_, hpalette, active, _, hactive,
    rfl, hforce, inForce_items hitems.valid inForce_empty, ?_, hdisplays⟩
  · rw [Line.color, if_neg (by simp [hname]), hpalette, hspec]
    show (parseSgr spec >>= fun pending => Except.ok { line with pending := pending, palette := palette }) = _
    rw [parseSgr_eq hitems hrgb, ← hpalette]
    rfl
  · rw [hspec, Option.getD_some, hitems.denotes]

/-- A call shows its text in the rendition it is armed for. -/
lemma Has.call (h : line.Has palette out r) {args : List Text} {width : ℤ} {align : String}
    (hf : (Op.call args width align).Fits palette) :
    (line.call cells args width align).Has palette
      (out ++ (callText cells args width align).map fun c => (c, r)) Rendition.plain := by
  obtain ⟨hpalette, active, pending, hactive, hpending, hforce, hforce', hr, hdisplays⟩ := h
  have htext := displays_chars (@esc_notMem_callText cells args width align hf) r
  rw [Line.call, hactive, hpending]
  by_cases hsame : sameDict (dictOf pending) (dictOf active) = true
  · have hr' : inForce active = r := by rw [← hr, (sameDict_iff hforce' hforce).mp hsame]
    rw [if_pos hsame]
    refine ⟨hpalette, active, [], rfl, rfl, hforce, inForce_empty, rfl, ?_⟩
    rw [List.flatten_append, List.flatten_singleton]
    rw [hr'] at hdisplays ⊢
    exact hdisplays.append htext
  · rw [if_neg hsame]
    refine ⟨hpalette, pending, [], rfl, rfl, hforce', inForce_empty, rfl, ?_⟩
    have hmove := displays_transition hforce hforce'
    rw [hr] at hmove ⊢
    have := hdisplays.append (hmove.append htext)
    simpa using this

/-- The rest of the operations, one after the other. -/
lemma Has.run (h : line.Has palette out r) {ops : List Op} (hf : ∀ op ∈ ops, op.Fits palette)
    (hp : ∀ op ∈ ops, op.Plain palette) :
    ∃ line' r', line.run cells ops = .ok line' ∧
      line'.Has palette (out ++ intended palette cells r ops) r' := by
  induction ops generalizing line out r with
  | nil => exact ⟨line, r, rfl, by rwa [intended, List.append_nil]⟩
  | cons op ops ih =>
    rw [List.forall_mem_cons] at hf hp
    cases op with
    | color name =>
      obtain ⟨line₁, hstep, h₁⟩ := h.color hf.1 hp.1
      obtain ⟨line', r', hrun, h'⟩ := ih h₁ hf.2 hp.2
      refine ⟨line', r', ?_, h'⟩
      rw [Line.run, List.foldlM_cons, step, hstep]
      exact hrun
    | call args width align =>
      obtain ⟨line', r', hrun, h'⟩ := ih (h.call hf.1) hf.2 hp.2
      rw [List.append_assoc] at h'
      exact ⟨line', r', hrun, h'⟩

/-- A finished line leaves the default rendition. -/
lemma Has.str (h : line.Has palette out r) : Displays line.str Rendition.plain out Rendition.plain := by
  obtain ⟨-, active, pending, hactive, -, hforce, -, -, hdisplays⟩ := h
  rw [Line.str, hactive]
  by_cases hnil : active = []
  · subst hnil
    rw [if_neg (by simp [dictOf])]
    exact hdisplays
  · rw [if_pos (by simpa [dictOf] using hnil)]
    have := hdisplays.append (displays_reset (inForce active))
    rwa [List.append_nil] at this

end Line

open Line in
/-- **A line renders every part in its own color**, in every run whose colors are no 24-bit colors. -/
theorem line_renders {palette : Palette} {cells : Char → ℕ} {ops : List Op}
    (hf : ∀ op ∈ ops, op.Fits palette) (hp : ∀ op ∈ ops, op.Plain palette) : Renders palette cells ops := by
  obtain ⟨line, r, hrun, h⟩ : ∃ line r, (Line.new palette).run cells ops = .ok line ∧
      line.Has palette ([] ++ intended palette cells Rendition.plain ops) r := has_new.run hf hp
  exact ⟨line, hrun, h.str.shown_eq, h.str.leaves_eq⟩

lemma IsPlainSpec.isSpec {spec : Text} (h : IsPlainSpec spec) : IsSpec spec := by
  obtain ⟨items, hitems, -⟩ := h
  exact ⟨items, hitems⟩

/-- The colors of the default palette are no 24-bit colors. -/
lemma isPlainSpec_colors : ∀ q ∈ colors, IsPlainSpec q.2 := by
  have hbasic : ∀ n, 30 ≤ n ∧ n ≤ 37 ∨ 90 ≤ n ∧ n ≤ 97 → IsPlainSpec (joinParams [digits n]) := fun n hn =>
    ⟨[.set .foreground (.basic n)], ⟨by simp, List.forall_mem_singleton.mpr hn, rfl⟩, by simp [SgrItem.isRgb]⟩
  have hbold : ∀ n, 30 ≤ n ∧ n ≤ 37 ∨ 90 ≤ n ∧ n ≤ 97 → IsPlainSpec (joinParams [['1'], digits n]) := fun n hn =>
    ⟨[.set (.attr 1) .on, .set .foreground (.basic n)], ⟨by simp,
      List.forall_mem_cons.mpr ⟨⟨le_rfl, by decide⟩, List.forall_mem_singleton.mpr hn⟩, rfl⟩,
      by simp [SgrItem.isRgb]⟩
  have hindexed : ∀ n, IsPlainSpec (joinParams [['3', '8'], ['5'], digits n]) := fun n =>
    ⟨[.set .foreground (.indexed n)], ⟨by simp, List.forall_mem_singleton.mpr trivial, rfl⟩,
      by simp [SgrItem.isRgb]⟩
  simp only [colors, List.forall_mem_cons]
  exact ⟨hbold 34 (by decide), hbasic 34 (by decide), hindexed 250, hbasic 97 (by decide), hindexed 242,
    hindexed 242, hindexed 250, hbasic 32 (by decide), hbold 31 (by decide), hindexed 242, by simp⟩

/-- A bold color, one without bold, and text without a color. -/
def sampleOps : List Line.Op :=
  [.color "action", .call ["update".toList] 8 "left", .color "user", .call ["alice".toList] 0 "left",
    .call [" by ".toList] 0 "left"]

open Line in
theorem line_renders_sample : Renders colors (fun _ => 1) sampleOps := by
  have hcolor : ∀ name spec, startsWith "_" name = false → colors.lookup name = some spec →
      (Op.color name).Fits colors ∧ (Op.color name).Plain colors := by
    intro name spec hname hspec
    have hplain := isPlainSpec_colors _ (mem_of_lookup hspec)
    refine ⟨⟨hname, spec, hspec, hplain.isSpec⟩, fun spec' hspec' => ?_⟩
    obtain rfl : spec = spec' := Option.some.inj (hspec.symm.trans hspec')
    exact hplain
  have haction := hcolor "action" _ (by decide) rfl
  have huser := hcolor "user" _ (by decide) rfl
  apply line_renders
  · simp only [sampleOps, List.forall_mem_cons]
    exact ⟨haction.1, show ∀ arg ∈ ["update".toList], esc ∉ arg by decide, huser.1,
      show ∀ arg ∈ ["alice".toList], esc ∉ arg by decide,
      show ∀ arg ∈ [" by ".toList], esc ∉ arg by decide, by simp⟩
  · simp only [sampleOps, List.forall_mem_cons]
    exact ⟨haction.2, trivial, huser.2, trivial, trivial, by simp⟩

/-- A palette with a 24-bit color whose last component is zero. -/
def trueColorPalette : Palette := [("orange", "38;2;255;160;0".toList)]

open Line in
/-- The parser takes the last component for a reset, and the text is shown in the default rendition. -/
theorem line_renders_counterexample :
    ¬∀ (palette : Palette) (cells : Char → ℕ) (ops : List Op),
      (∀ op ∈ ops, op.Fits palette) → Renders palette cells ops := by
  intro h
  have hspec : IsSpec "38;2;255;160;0".toList :=
    ⟨[.set .foreground (.rgb 255 160 0)], by simp, by simp [SgrItem.Valid, Settable], by decide⟩
  have hfits : ∀ op ∈ [Op.color "orange", .call ["x".toList] 0 "left"], op.Fits trueColorPalette := by
    rw [List.forall_mem_cons, List.forall_mem_singleton]
    refine ⟨⟨by decide, _, rfl, hspec⟩, fun arg harg => ?_⟩
    rw [List.mem_singleton.mp harg]
    decide
  obtain ⟨line, hrun, hshown, -⟩ := h trueColorPalette (fun _ => 1) _ hfits
  obtain rfl : { palette := trueColorPalette, parts := ["x".toList], active := [], pending := [] } = line :=
    Except.ok.inj hrun
  have hdefault : Rendition.plain .foreground = denotes "38;2;255;160;0".toList .foreground :=
    congrFun (congrArg Prod.snd (List.cons.inj hshown).1) .foreground
  exact absurd hdefault (by decide)

end Kanta
