import Mathlib.Algebra.Group.Int.Defs
import Mathlib.Algebra.Group.Nat.Defs
import Mathlib.Data.Int.Notation
import Mathlib.Data.List.Basic
import Mathlib.Data.Nat.Notation

/-!
# `int(key)` on a string

What Python's `int` reads off a string in base ten: surrounding whitespace, a sign, decimal
digits of any script, single underscores between digits, and at most 4300 digits.  It reads the
literal of every integer that is not longer (`pyInt_toString`).
-/

namespace Kanta

/-- The code points of the zeros of the decimal digits; each is followed by its other nine. -/
def decimalZeros : List ℕ :=
  [0x30, 0x660, 0x6f0, 0x7c0, 0x966, 0x9e6, 0xa66, 0xae6, 0xb66, 0xbe6, 0xc66, 0xce6, 0xd66, 0xde6,
    0xe50, 0xed0, 0xf20, 0x1040, 0x1090, 0x17e0, 0x1810, 0x1946, 0x19d0, 0x1a80, 0x1a90, 0x1b50,
    0x1bb0, 0x1c40, 0x1c50, 0xa620, 0xa8d0, 0xa900, 0xa9d0, 0xa9f0, 0xaa50, 0xabf0, 0xff10, 0x104a0,
    0x10d30, 0x11066, 0x110f0, 0x11136, 0x111d0, 0x112f0, 0x11450, 0x114d0, 0x11650, 0x116c0,
    0x11730, 0x118e0, 0x11950, 0x11c50, 0x11d50, 0x11da0, 0x16a60, 0x16ac0, 0x16b50, 0x1d7ce,
    0x1d7d8, 0x1d7e2, 0x1d7ec, 0x1d7f6, 0x1e140, 0x1e2f0, 0x1e950, 0x1fbf0]

/-- The value of a decimal digit of any script. -/
def decimalValue (c : Char) : Option ℕ :=
  (decimalZeros.find? fun z => z ≤ c.toNat && c.toNat < z + 10).map fun z => c.toNat - z

/-- The whitespace `int` strips: ASCII whitespace, and the Unicode spaces above ASCII. -/
def isIntSpace (c : Char) : Bool :=
  [0x9, 0xa, 0xb, 0xc, 0xd, 0x20, 0x85, 0xa0, 0x1680, 0x2028, 0x2029, 0x202f, 0x205f, 0x3000].contains
      c.toNat ||
    (0x2000 ≤ c.toNat && c.toNat ≤ 0x200a)

/-- The digits of a literal, most significant first; an underscore stands between two digits.
`after` tells that the character before was a digit. -/
def intDigits : Bool → List Char → Option (List ℕ)
  | after, [] => if after then some [] else none
  | after, c :: cs =>
    if c = '_' then
      if after then
        match cs with
        | [] => none
        | d :: ds => do
          let v ← decimalValue d
          let vs ← intDigits true ds
          some (v :: vs)
      else none
    else do
      let v ← decimalValue c
      let vs ← intDigits true cs
      some (v :: vs)

/-- `int(s)`, or `none` where it raises `ValueError`. -/
def pyInt (s : String) : Option ℤ :=
  let body := ((s.toList.dropWhile isIntSpace).reverse.dropWhile isIntSpace).reverse
  let (negative, digits) :=
    match body with
    | '-' :: cs => (true, cs)
    | '+' :: cs => (false, cs)
    | cs => (false, cs)
  match intDigits false digits with
  | none => none
  | some vs =>
    if 4300 < vs.length then none
    else
      let n : ℕ := vs.foldl (fun a v => 10 * a + v) 0
      some (if negative then -n else n)

example : pyInt " -1_0\u0665 " = some (-105) := by decide
example : pyInt "1__0" = none := by decide

/-! ### The literal of an integer -/

lemma decimalValue_digit {c : Char} (h : c.isDigit = true) : decimalValue c = some (c.toNat - 48) := by
  simp only [Char.isDigit, Bool.and_eq_true, decide_eq_true_eq] at h
  have h48 : 48 ≤ c.toNat := h.1
  have h57 : c.toNat ≤ 57 := h.2
  have hfind : decimalZeros.find? (fun z => z ≤ c.toNat && c.toNat < z + 10) = some 48 := by
    rw [decimalZeros, List.find?_cons_of_pos]
    simp only [Bool.and_eq_true, decide_eq_true_eq]
    omega
  rw [decimalValue, hfind]
  rfl

lemma not_isIntSpace {c : Char} (h : c.isDigit = true ∨ c = '-') : isIntSpace c = false := by
  rcases h with h | rfl
  · simp only [Char.isDigit, Bool.and_eq_true, decide_eq_true_eq] at h
    have h48 : 48 ≤ c.toNat := h.1
    have h57 : c.toNat ≤ 57 := h.2
    simp only [isIntSpace, List.contains_cons, List.contains_nil, Bool.or_false, Bool.or_eq_false_iff,
      beq_eq_false_iff_ne, Bool.and_eq_false_iff, decide_eq_false_iff_not]
    omega
  · decide

lemma intDigits_digits {cs : List Char} {after : Bool} (h : ∀ c ∈ cs, c.isDigit = true)
    (hne : after = true ∨ cs ≠ []) : intDigits after cs = some (cs.map fun c => c.toNat - 48) := by
  induction cs generalizing after with
  | nil =>
    obtain rfl : after = true := by simpa using hne
    rfl
  | cons c cs ih =>
    rw [List.forall_mem_cons] at h
    have hc : c ≠ '_' := by
      rintro rfl
      simp at h
    unfold intDigits
    rw [if_neg hc, decimalValue_digit h.1, ih h.2 (Or.inl rfl)]
    rfl

/-- Nothing is stripped off a literal. -/
lemma strip_literal {cs : List Char} (h : ∀ c ∈ cs, isIntSpace c = false) :
    ((cs.dropWhile isIntSpace).reverse.dropWhile isIntSpace).reverse = cs := by
  have hdrop : ∀ l : List Char, (∀ c ∈ l, isIntSpace c = false) → l.dropWhile isIntSpace = l := by
    intro l hl
    cases l with
    | nil => rfl
    | cons c l => rw [List.dropWhile_cons, hl c List.mem_cons_self, if_neg (by simp)]
  rw [hdrop cs h, hdrop cs.reverse (by simpa using h), List.reverse_reverse]

/-- The characters of a literal. -/
lemma toList_toString (a : ℤ) :
    (toString a).toList = (if a < 0 then ['-'] else []) ++ Nat.toDigits 10 a.natAbs := by
  rw [Int.toString_eq_repr, Int.repr_eq_if]
  by_cases ha : 0 ≤ a
  · rw [if_pos ha, if_neg (by omega), Nat.toList_repr, List.nil_append, show a.toNat = a.natAbs by omega]
  · rw [if_neg ha, if_pos (by omega), String.toList_append, Nat.toList_repr, show (-a).toNat = a.natAbs by omega]
    rfl

lemma literal_digits (n : ℕ) : ∀ c ∈ Nat.toDigits 10 n, c.isDigit = true := fun _ =>
  Nat.isDigit_of_mem_toDigits (by decide) (by decide)

/-- The first number whose literal has more than 4300 digits. -/
def intBound : ℕ := 10 ^ 4300

lemma lt_pow_of_lt {n b k : ℕ} (h : n < b) (hk : k ≠ 0) : n < b ^ k := Nat.lt_of_lt_of_le h (Nat.le_self_pow hk b)

lemma lt_intBound {n : ℕ} (h : n < 10) : n < intBound := by
  unfold intBound
  apply lt_pow_of_lt h
  decide

/-- **`int` reads a literal**, as long as it has no more than 4300 digits. -/
theorem pyInt_toString (a : ℤ) : pyInt (toString a) = if a.natAbs < intBound then some a else none := by
  have hdigits := literal_digits a.natAbs
  have hread : intDigits false (Nat.toDigits 10 a.natAbs) =
      some ((Nat.toDigits 10 a.natAbs).map fun c => c.toNat - 48) :=
    intDigits_digits hdigits (Or.inr Nat.toDigits_ne_nil)
  have hlen : 4300 < ((Nat.toDigits 10 a.natAbs).map fun c => c.toNat - 48).length ↔ ¬a.natAbs < intBound := by
    rw [intBound, List.length_map, ← Nat.length_toDigits_le_iff (by decide) (by decide), Nat.not_le]
  have hvalue : ((Nat.toDigits 10 a.natAbs).map fun c => c.toNat - 48).foldl (fun a v => 10 * a + v) 0 = a.natAbs := by
    rw [List.foldl_map]
    exact Nat.ofDigitChars_ten_toDigits
  have hne : Nat.toDigits 10 a.natAbs ≠ [] := Nat.toDigits_ne_nil
  unfold pyInt
  dsimp only
  rw [toList_toString, strip_literal]
  · generalize Nat.toDigits 10 a.natAbs = ds at *
    by_cases ha : a < 0
    · rw [if_pos ha]
      simp only [List.singleton_append, hread, hvalue, if_true]
      rw [if_congr hlen rfl rfl, ite_not, show -(a.natAbs : ℤ) = a by omega]
    · rw [if_neg ha, List.nil_append]
      cases ds with
      | nil => exact (hne rfl).elim
      | cons c cs =>
        have hc := hdigits c List.mem_cons_self
        have hminus : c ≠ '-' := by rintro rfl; simp at hc
        have hplus : c ≠ '+' := by rintro rfl; simp at hc
        simp only [hminus, hplus, List.cons.injEq, false_and, false_imp_iff, implies_true, hread, hvalue,
          Bool.false_eq_true, if_false]
        rw [if_congr hlen rfl rfl, ite_not, show (a.natAbs : ℤ) = a by omega]
  · intro c hc
    rcases List.mem_append.mp hc with hc | hc
    · split at hc
      · exact not_isIntSpace (Or.inr (by simpa using hc))
      · simp at hc
    · exact not_isIntSpace (Or.inl (hdigits c hc))

lemma toString_injective {m n : ℕ} (h : toString m = toString n) : m = n := by
  have hdigits : Nat.toDigits 10 m = Nat.toDigits 10 n := by
    rw [← Nat.toList_repr, ← Nat.toList_repr]
    exact congrArg String.toList h
  rw [← Nat.ofDigitChars_ten_toDigits (n := m), hdigits, Nat.ofDigitChars_ten_toDigits]

end Kanta
