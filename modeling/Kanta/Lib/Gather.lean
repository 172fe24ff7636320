import Mathlib.Data.List.Basic
import Mathlib.Data.Set.Basic

/-!
# Gathering facts

A step that adds facts to what has been gathered, the same ones whatever is there, can be done again or at another
time.  What a list of such steps gathers, each of which may fail, then depends on which steps they are, and not on
their order and number (`Collects.foldlM_congr`).
-/

namespace Kanta.Lib.Gather

variable {σ ι α : Type*} (has : σ → ι → Prop)

/-- The step adds these facts and no others. -/
def Adds (op : σ → σ) (facts : Set ι) : Prop := ∀ s n, has (op s) n ↔ has s n ∨ n ∈ facts

/-- The step adds some facts, whatever is there. -/
def Gathers (op : σ → σ) : Prop := ∃ facts, Adds has op facts

/-- A step for an element fails, or it gathers. -/
def Collects (f : σ → α → Option σ) : Prop :=
  ∀ a, (∀ s, f s a = none) ∨ ∃ op, Gathers has op ∧ ∀ s, f s a = some (op s)

variable {has} {op op' : σ → σ} {f : σ → α → Option σ} {l l' : List α}

lemma Gathers.id : Gathers has fun s => s := ⟨∅, fun s n => by simp⟩

lemma Gathers.comp (h : Gathers has op) (h' : Gathers has op') : Gathers has fun s => op' (op s) := by
  obtain ⟨facts, hop⟩ := h
  obtain ⟨facts', hop'⟩ := h'
  refine ⟨facts ∪ facts', fun s n => ?_⟩
  rw [hop', hop, or_assoc, Set.mem_union]

lemma Gathers.ite {p : Prop} [Decidable p] (h : Gathers has op) (h' : Gathers has op') :
    Gathers has fun s => if p then op s else op' s := by
  by_cases hp : p
  · simpa only [if_pos hp] using h
  · simpa only [if_neg hp] using h'

lemma Gathers.foldl {g : σ → α → σ} (h : ∀ a, Gathers has fun s => g s a) (l : List α) :
    Gathers has fun s => l.foldl g s := by
  induction l with
  | nil => exact .id
  | cons a l ih => exact (h a).comp ih

/-- One after the other: all succeed, and every one has added its facts. -/
lemma Collects.run (h : Collects has f) : ∃ (fails : α → Prop) (facts : α → Set ι), ∀ (l : List α) (s : σ),
    ((∃ a ∈ l, fails a) → l.foldlM f s = none) ∧
      ((∀ a ∈ l, ¬fails a) → ∃ s', l.foldlM f s = some s' ∧ ∀ n, has s' n ↔ has s n ∨ ∃ a ∈ l, n ∈ facts a) := by
  have hstep : ∀ a, ∃ (fails : Prop) (facts : Set ι), ∀ s, (fails → f s a = none) ∧
      (¬fails → ∃ s', f s a = some s' ∧ ∀ n, has s' n ↔ has s n ∨ n ∈ facts) := by
    intro a
    rcases h a with hfail | ⟨op, ⟨facts, hadds⟩, hop⟩
    · exact ⟨True, ∅, fun s => ⟨fun _ => hfail s, fun hno => absurd trivial hno⟩⟩
    · exact ⟨False, facts, fun s => ⟨False.elim, fun _ => ⟨op s, hop s, hadds s⟩⟩⟩
  choose fails facts hstep using hstep
  refine ⟨fails, facts, fun l => ?_⟩
  induction l with
  | nil => exact fun s => ⟨fun ⟨_, hm, _⟩ => (List.not_mem_nil hm).elim, fun _ => ⟨s, rfl, by simp⟩⟩
  | cons a l ih =>
    intro s
    rw [List.foldlM_cons]
    constructor
    · intro hfails
      by_cases hfirst : fails a
      · rw [(hstep a s).1 hfirst]
        rfl
      · obtain ⟨s', hs', -⟩ := (hstep a s).2 hfirst
        obtain ⟨b, hb, hfailb⟩ := hfails
        rcases List.mem_cons.mp hb with rfl | hb
        · exact absurd hfailb hfirst
        · rw [hs']
          exact (ih s').1 ⟨b, hb, hfailb⟩
    · intro hgood
      obtain ⟨hfirst, hrest⟩ := List.forall_mem_cons.mp hgood
      obtain ⟨s', hs', hhas⟩ := (hstep a s).2 hfirst
      obtain ⟨s'', hs'', hhas'⟩ := (ih s').2 hrest
      refine ⟨s'', by rw [hs']; exact hs'', fun n => ?_⟩
      rw [hhas', hhas, List.exists_mem_cons_iff, or_assoc]

/-- **Order and number do not matter**: with the same elements, both fail or both gather the same facts. -/
theorem Collects.foldlM_congr (h : Collects has f) (hsame : ∀ a, a ∈ l ↔ a ∈ l') (s : σ) :
    (l.foldlM f s = none ∧ l'.foldlM f s = none) ∨
      ∃ x y, l.foldlM f s = some x ∧ l'.foldlM f s = some y ∧ ∀ n, has x n ↔ has y n := by
  obtain ⟨fails, facts, hrun⟩ := h.run
  have hexists : ∀ p : α → Prop, (∃ a ∈ l, p a) ↔ ∃ a ∈ l', p a := fun p =>
    exists_congr fun a => and_congr_left' (hsame a)
  by_cases hfails : ∃ a ∈ l, fails a
  · exact Or.inl ⟨(hrun l s).1 hfails, (hrun l' s).1 ((hexists fails).mp hfails)⟩
  · have hgood : ∀ a ∈ l, ¬fails a := fun a hm hfail => hfails ⟨a, hm, hfail⟩
    obtain ⟨x, hx, hhas⟩ := (hrun l s).2 hgood
    obtain ⟨y, hy, hhas'⟩ := (hrun l' s).2 fun a hm => hgood a ((hsame a).mpr hm)
    refine Or.inr ⟨x, y, hx, hy, fun n => ?_⟩
    rw [hhas, hhas', hexists]

end Kanta.Lib.Gather
