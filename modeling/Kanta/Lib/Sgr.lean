import Kanta.Lib.Ansi
import Kanta.Lib.Assoc
import Mathlib.Data.Nat.Notation

/-!
# What a terminal shows

A terminal keeps a rendition, for each aspect of parameters what was set last, and shows a character in the
rendition it holds when it reads it.  A sequence that ends with `m` changes the rendition by its
parameters, from the left: `0` clears everything, `38` and `48` take the arguments of an extended color,
and any other sets or clears its own aspect.
-/

namespace Kanta.Lib.Sgr

open Kanta.Lib.Ansi Kanta.Lib.Assoc

/-- What parameters replace one another. -/
inductive Aspect where
  | foreground
  | background
  | attr (code : ℕ)
  deriving DecidableEq

/-- What is set in an aspect. -/
inductive Setting where
  | on
  | basic (code : ℕ)
  | indexed (n : ℕ)
  | rgb (red green blue : ℕ)
  deriving DecidableEq

/-- How a character is shown. -/
def Rendition : Type := Aspect → Option Setting

namespace Rendition

/-- The default rendition. -/
def plain : Rendition := fun _ => none

def set (r : Rendition) (c : Aspect) (v : Option Setting) : Rendition := fun d => if d = c then v else r d

@[simp] lemma set_self (r : Rendition) (c : Aspect) (v : Option Setting) : r.set c v c = v := if_pos rfl

lemma set_of_ne {c d : Aspect} (h : d ≠ c) (r : Rendition) (v : Option Setting) : r.set c v d = r d :=
  if_neg h

/-- The attributes a code switches off. -/
def switchedOff : ℕ → List ℕ
  | 22 => [1, 2]
  | 23 => [3]
  | 24 => [4, 21]
  | 25 => [5, 6]
  | 27 => [7]
  | 28 => [8]
  | 29 => [9]
  | _ => []

/-- One parameter that is a number. -/
def code (n : ℕ) (r : Rendition) : Rendition :=
  if n = 0 then plain
  else if n ≤ 9 ∨ n = 21 then r.set (.attr n) (some .on)
  else if 30 ≤ n ∧ n ≤ 37 ∨ 90 ≤ n ∧ n ≤ 97 then r.set .foreground (some (.basic n))
  else if 40 ≤ n ∧ n ≤ 47 ∨ 100 ≤ n ∧ n ≤ 107 then r.set .background (some (.basic n))
  else if n = 39 then r.set .foreground none
  else if n = 49 then r.set .background none
  else (switchedOff n).foldl (fun r a => r.set (.attr a) none) r

/-- One parameter, with its colons. -/
def parameter (p : List ℕ) (r : Rendition) : Rendition :=
  match p with
  | [n] => r.code n
  | [38, 5, n] => r.set .foreground (some (.indexed n))
  | [48, 5, n] => r.set .background (some (.indexed n))
  | [38, 2, red, green, blue] => r.set .foreground (some (.rgb red green blue))
  | [48, 2, red, green, blue] => r.set .background (some (.rgb red green blue))
  | [38, 2, _, red, green, blue] => r.set .foreground (some (.rgb red green blue))
  | [48, 2, _, red, green, blue] => r.set .background (some (.rgb red green blue))
  | [4, style] => if style = 0 then r.code 24 else r.set (.attr 4) (some .on)
  | _ => r

end Rendition

/-- The aspect whose extended color a parameter announces. -/
def extended (p : List ℕ) : Option Aspect :=
  if p = [38] then some .foreground else if p = [48] then some .background else none

/-- The parameters of one sequence, from the left.  An extended color without all of its arguments ends
the reading. -/
def interpret : List (List ℕ) → Rendition → Rendition
  | [], r => r
  | p :: ps, r =>
    match extended p with
    | none => interpret ps (r.parameter p)
    | some c =>
      match ps with
      | [5] :: [n] :: ps => interpret ps (r.set c (some (.indexed n)))
      | [2] :: [red] :: [green] :: [blue] :: ps => interpret ps (r.set c (some (.rgb red green blue)))
      | _ => r

/-- The number digits stand for; no digit stands for zero. -/
def numeral (cs : List Char) : ℕ := Nat.ofDigitChars 10 cs 0

/-- The numbers of the parameters. -/
def parameters (params : List Char) : List (List ℕ) :=
  (params.splitOn ';').map fun p => (p.splitOn ':').map numeral

/-- What a sequence does to the rendition. -/
def perform (s : Sequence) (r : Rendition) : Rendition :=
  if s.final = 'm' then interpret (parameters s.params) r else r

/-- The characters a terminal shows. -/
def shown : Rendition → List Piece → List (Char × Rendition)
  | _, [] => []
  | r, .char c :: ps => (c, r) :: shown r ps
  | r, .seq s :: ps => shown (perform s r) ps

/-- The rendition a terminal is left with. -/
def leaves : Rendition → List Piece → Rendition
  | r, [] => r
  | r, .char _ :: ps => leaves r ps
  | r, .seq s :: ps => leaves (perform s r) ps

/-! ### Showing one text after another -/

variable {r : Rendition}

lemma shown_append (ps qs : List Piece) : shown r (ps ++ qs) = shown r ps ++ shown (leaves r ps) qs := by
  induction ps generalizing r with
  | nil => rfl
  | cons p ps ih =>
    cases p with
    | seq s => exact ih
    | char c => exact congrArg _ ih

lemma leaves_append (ps qs : List Piece) : leaves r (ps ++ qs) = leaves (leaves r ps) qs := by
  induction ps generalizing r with
  | nil => rfl
  | cons p ps ih => cases p <;> exact ih

lemma shown_chars (cs : List Char) : shown r (cs.map .char) = cs.map fun c => (c, r) := by
  induction cs with
  | nil => rfl
  | cons c cs ih => exact congrArg _ ih

lemma leaves_chars (cs : List Char) : leaves r (cs.map .char) = r := by
  induction cs with
  | nil => rfl
  | cons c cs ih => exact ih

/-! ### Reading parameters -/

/-- The digits of a number. -/
def digits (n : ℕ) : List Char := Nat.toDigits 10 n

lemma isDigit_digits {n : ℕ} {c : Char} (h : c ∈ digits n) : c.isDigit = true :=
  Nat.isDigit_of_mem_toDigits (by decide) (by decide) h

lemma notMem_digits {c : Char} (h : c.isDigit = false) (n : ℕ) : c ∉ digits n := by
  intro hc
  rw [isDigit_digits hc] at h
  cases h

@[simp] lemma numeral_digits (n : ℕ) : numeral (digits n) = n := Nat.ofDigitChars_ten_toDigits

lemma digits_injective {m n : ℕ} (h : digits m = digits n) : m = n := by
  rw [← numeral_digits m, h, numeral_digits]

/-- Numbers between semicolons are read one by one. -/
lemma parameters_intercalate {ns : List ℕ} (h : ns ≠ []) :
    parameters ([';'].intercalate (ns.map digits)) = ns.map fun n => [n] := by
  have hsemi : ∀ ds ∈ ns.map digits, ';' ∉ ds := by
    intro ds hds
    obtain ⟨n, -, rfl⟩ := List.mem_map.mp hds
    exact notMem_digits (by decide) n
  rw [parameters, List.splitOn_intercalate ';' hsemi (by simpa using h), List.map_map]
  refine List.map_congr_left fun n _ => ?_
  show ((digits n).splitOn ':').map numeral = [n]
  rw [List.splitOn_eq_singleton (notMem_digits (by decide) n), List.map_singleton, numeral_digits]

/-! ### Parameters that set -/

/-- The numbers that set `v` in aspect `c`. -/
def numbers : Aspect → Setting → List ℕ
  | .attr n, _ => [n]
  | _, .on => []
  | _, .basic n => [n]
  | .foreground, .indexed n => [38, 5, n]
  | .background, .indexed n => [48, 5, n]
  | .foreground, .rgb red green blue => [38, 2, red, green, blue]
  | .background, .rgb red green blue => [48, 2, red, green, blue]

/-- `v` is a value of aspect `c`. -/
def Settable : Aspect → Setting → Prop
  | .attr n, .on => 1 ≤ n ∧ n ≤ 9
  | .foreground, .basic n => 30 ≤ n ∧ n ≤ 37 ∨ 90 ≤ n ∧ n ≤ 97
  | .background, .basic n => 40 ≤ n ∧ n ≤ 47 ∨ 100 ≤ n ∧ n ≤ 107
  | .foreground, .indexed _ => True
  | .background, .indexed _ => True
  | .foreground, .rgb .. => True
  | .background, .rgb .. => True
  | _, _ => False

lemma numbers_ne_nil {c : Aspect} {v : Setting} (h : Settable c v) : numbers c v ≠ [] := by
  cases c <;> cases v <;> simp_all [numbers, Settable]

/-- One parameter for each number. -/
def singles (ns : List ℕ) : List (List ℕ) := ns.map fun n => [n]

lemma interpret_code {n : ℕ} (h38 : n ≠ 38) (h48 : n ≠ 48) (ps : List (List ℕ)) (r : Rendition) :
    interpret ([n] :: ps) r = interpret ps (r.code n) := by
  have he : extended [n] = none := by simp [extended, h38, h48]
  rw [interpret, he]
  rfl

/-- The numbers of a value set it. -/
lemma interpret_numbers {c : Aspect} {v : Setting} (h : Settable c v) (ps : List (List ℕ)) (r : Rendition) :
    interpret (singles (numbers c v) ++ ps) r = interpret ps (r.set c (some v)) := by
  cases c with
  | attr n =>
    cases v with
    | on =>
      obtain ⟨h1, h9⟩ := h
      show interpret ([n] :: ps) r = _
      rw [interpret_code (by omega) (by omega), Rendition.code, if_neg (by omega), if_pos (by omega)]
    | _ => exact h.elim
  | foreground =>
    cases v with
    | on => exact h.elim
    | basic n =>
      have h : 30 ≤ n ∧ n ≤ 37 ∨ 90 ≤ n ∧ n ≤ 97 := h
      show interpret ([n] :: ps) r = _
      rw [interpret_code (by omega) (by omega), Rendition.code, if_neg (by omega), if_neg (by omega),
        if_pos h]
    | indexed n => rfl
    | rgb red green blue => rfl
  | background =>
    cases v with
    | on => exact h.elim
    | basic n =>
      have h : 40 ≤ n ∧ n ≤ 47 ∨ 100 ≤ n ∧ n ≤ 107 := h
      show interpret ([n] :: ps) r = _
      rw [interpret_code (by omega) (by omega), Rendition.code, if_neg (by omega), if_neg (by omega),
        if_neg (by omega), if_pos h]
    | indexed n => rfl
    | rgb red green blue => rfl

/-- Values set one after the other. -/
def setAll (settings : List (Aspect × Setting)) (r : Rendition) : Rendition :=
  settings.foldl (fun r q => r.set q.1 (some q.2)) r

def allNumbers (settings : List (Aspect × Setting)) : List ℕ := settings.flatMap fun q => numbers q.1 q.2

lemma interpret_allNumbers {settings : List (Aspect × Setting)} (h : ∀ q ∈ settings, Settable q.1 q.2)
    (r : Rendition) : interpret (singles (allNumbers settings)) r = setAll settings r := by
  induction settings generalizing r with
  | nil => rfl
  | cons q settings ih =>
    rw [List.forall_mem_cons] at h
    rw [allNumbers, List.flatMap_cons, singles, List.map_append]
    show interpret (singles (numbers q.1 q.2) ++ singles (allNumbers settings)) r = _
    rw [interpret_numbers h.1, ih h.2]
    rfl

/-- What is set once is what a dict of it says. -/
lemma setAll_apply {settings : List (Aspect × Setting)} (h : (keys settings).Nodup) (r : Rendition) (c : Aspect) :
    setAll settings r c = if c ∈ keys settings then settings.lookup c else r c := by
  induction settings generalizing r with
  | nil => rfl
  | cons q settings ih =>
    obtain ⟨d, v⟩ := q
    obtain ⟨hd, h⟩ := List.nodup_cons.mp h
    have hmem : c ∈ keys ((d, v) :: settings) ↔ c = d ∨ c ∈ keys settings := List.mem_cons
    show setAll settings (r.set d (some v)) c = _
    rw [ih h, lookup_cons_if, if_congr hmem rfl rfl]
    by_cases hcd : c = d
    · subst hcd
      rw [if_neg hd, if_pos (Or.inl rfl), if_pos rfl, Rendition.set_self]
    · simp only [hcd, false_or, if_false, Rendition.set_of_ne hcd]

/-! ### What a text shows -/

/-- In rendition `r`, the text shows the characters `out` and leaves rendition `r'`, and the next text is
read by itself. -/
structure Displays (text : List Char) (r : Rendition) (out : List (Char × Rendition)) (r' : Rendition) : Prop where
  closed : Closed text
  shown_eq : shown r (pieces text) = out
  leaves_eq : leaves r (pieces text) = r'

lemma displays_nil (r : Rendition) : Displays [] r [] r := ⟨closed_nil, rfl, rfl⟩

lemma Displays.append {text text' : List Char} {r r' r'' : Rendition} {out out' : List (Char × Rendition)}
    (h : Displays text r out r') (h' : Displays text' r' out' r'') :
    Displays (text ++ text') r (out ++ out') r'' := by
  refine ⟨h.closed.append h'.closed, ?_, ?_⟩
  · rw [h.closed, shown_append, h.shown_eq, h.leaves_eq, h'.shown_eq]
  · rw [h.closed, leaves_append, h.leaves_eq, h'.leaves_eq]

/-- Text without an escape is shown as it is. -/
lemma displays_chars {cs : List Char} (h : esc ∉ cs) (r : Rendition) : Displays cs r (cs.map fun c => (c, r)) r := by
  have hp := pieces_of_notMem h []
  rw [List.append_nil] at hp
  have hp : pieces cs = cs.map .char := hp.trans (List.append_nil _)
  refine ⟨closed_of_notMem h, ?_, ?_⟩
  · rw [hp, shown_chars]
  · rw [hp, leaves_chars]

lemma isParam_intercalate {ns : List ℕ} : ∀ c ∈ [';'].intercalate (ns.map digits), isParam c = true := by
  have hdigits : ∀ n : ℕ, ∀ c ∈ digits n, isParam c = true := by
    intro n c hc
    simp [isParam, isDigit_digits hc]
  induction ns with
  | nil => simp
  | cons n ns ih =>
    cases ns with
    | nil => simpa using hdigits n
    | cons m ns =>
      intro c hc
      rw [List.map_cons, List.map_cons, List.intercalate_cons_cons, List.mem_append, List.mem_append] at hc
      rcases hc with (hc | hc) | hc
      · exact hdigits n c hc
      · rw [List.mem_singleton.mp hc]
        decide
      · exact ih c hc

/-- A sequence of numbers shows nothing and changes the rendition. -/
lemma displays_numbers {ns : List ℕ} (h : ns ≠ []) (r : Rendition) :
    Displays ([esc, '['] ++ [';'].intercalate (ns.map digits) ++ ['m']) r [] (interpret (singles ns) r) := by
  let s : Sequence := ⟨[';'].intercalate (ns.map digits), 'm', isParam_intercalate, by decide⟩
  have e : [esc, '['] ++ [';'].intercalate (ns.map digits) ++ ['m'] = s.text := by
    simp [Sequence.text, s]
  rw [e]
  refine ⟨closed_text s, ?_, ?_⟩
  · rw [pieces_text]
    rfl
  · rw [pieces_text]
    show perform s r = _
    rw [perform, if_pos rfl, parameters_intercalate h]
    rfl

end Kanta.Lib.Sgr
