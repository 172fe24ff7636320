import Mathlib.Logic.Basic

/-!
# What a computation can raise

`Raises P x` says that when `x` ends in an error, `P` holds of it.  It goes through `bind` and
through loops, and for a computation that raises nothing of a kind, to raise only that kind is to
succeed: `Raises.iff_ok`.
-/

namespace Kanta.Lib

variable {ε α β : Type*} {P Q : ε → Prop}

/-- Every error of the computation has the property. -/
def Raises (P : ε → Prop) (x : Except ε α) : Prop := ∀ e, x = .error e → P e

namespace Raises

lemma ok (a : α) : Raises P (.ok a : Except ε α) := by
  intro e h
  cases h

lemma error {e : ε} (h : P e) : Raises P (.error e : Except ε α) := by
  intro e' he
  obtain rfl := Except.error.inj he
  exact h

section Monad

variable {α β : Type} {x : Except ε α} {f : α → Except ε β}

lemma bind (hx : Raises P x) (hf : ∀ a, x = .ok a → Raises P (f a)) : Raises P (x >>= f) := by
  cases x with
  | error e => exact fun e' he => hx e' (by rw [← Except.error.inj he])
  | ok a => exact hf a rfl

lemma map {g : α → β} (hx : Raises P x) : Raises P (g <$> x) := by
  cases x with
  | error e => exact fun e' he => hx e' (by rw [← Except.error.inj he])
  | ok a => exact ok (g a)

/-- What no step of a loop raises, the loop does not raise. -/
lemma foldlM {g : α → β → Except ε α} {l : List β} (hg : ∀ a, ∀ b ∈ l, Raises P (g a b)) (a : α) :
    Raises P (l.foldlM g a) := by
  induction l generalizing a with
  | nil => exact ok a
  | cons b l ih =>
    rw [List.foldlM_cons]
    exact bind (hg a b (by simp)) fun a' _ => ih (fun a b hb => hg a b (by simp [hb])) a'

/-- What no element raises, the list does not raise. -/
lemma mapM {g : β → Except ε α} {l : List β} (hg : ∀ b ∈ l, Raises P (g b)) : Raises P (l.mapM g) := by
  induction l with
  | nil => exact ok []
  | cons b l ih =>
    rw [List.mapM_cons]
    exact bind (hg b (by simp)) fun a _ => bind (ih fun b hb => hg b (by simp [hb])) fun _ _ => ok _

end Monad

/-- A computation that raises nothing of a kind raises only that kind when it succeeds. -/
lemma iff_ok {x : Except ε α} (h : Raises P x) (hPQ : ∀ e, P e → ¬Q e) : Raises Q x ↔ ∃ a, x = .ok a := by
  constructor
  · intro hQ
    cases x with
    | ok a => exact ⟨a, rfl⟩
    | error e => exact (hPQ e (h e rfl) (hQ e rfl)).elim
  · rintro ⟨a, rfl⟩
    exact ok a

end Raises

end Kanta.Lib
