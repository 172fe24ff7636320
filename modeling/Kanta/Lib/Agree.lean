import Mathlib.Data.List.Forall2

/-!
# Computations that agree

Two computations agree when they raise the same error, or return results that are related.  What agrees step by step
agrees as a whole.
-/

namespace Kanta.Lib

variable {ε : Type*} {α β α' β' : Type} {R : α → β → Prop} {S : α' → β' → Prop}

/-- Both raise the same, or return what is related. -/
inductive Agree (R : α → β → Prop) : Except ε α → Except ε β → Prop
  | ok {a : α} {b : β} : R a b → Agree R (.ok a) (.ok b)
  | error (e : ε) : Agree R (.error e) (.error e)

/-- What a loop returns, element by element. -/
lemma forall₂_of_mapM {f : α → Except ε α'} {R : α → α' → Prop} {as : List α} {bs : List α'}
    (h : as.mapM f = .ok bs) (hf : ∀ a ∈ as, ∀ b, f a = .ok b → R a b) : List.Forall₂ R as bs := by
  induction as generalizing bs with
  | nil =>
    obtain rfl := Except.ok.inj h
    exact .nil
  | cons a as ih =>
    obtain ⟨ha, has⟩ := List.forall_mem_cons.mp hf
    rw [List.mapM_cons] at h
    cases hb : f a with
    | error e =>
      rw [hb] at h
      cases h
    | ok b =>
      cases hbs : as.mapM f with
      | error e =>
        rw [hb, hbs] at h
        cases h
      | ok bs' =>
        rw [hb, hbs] at h
        obtain rfl := Except.ok.inj h
        exact .cons (ha b hb) (ih hbs has)

namespace Agree

lemma bind {x : Except ε α} {y : Except ε β} {f : α → Except ε α'} {g : β → Except ε β'} (h : Agree R x y)
    (hfg : ∀ a b, R a b → Agree S (f a) (g b)) : Agree S (x >>= f) (y >>= g) := by
  cases h with
  | ok hr => exact hfg _ _ hr
  | error e => exact .error e

lemma map {x : Except ε α} {y : Except ε β} {f : α → α'} {g : β → β'} (h : Agree R x y)
    (hfg : ∀ a b, R a b → S (f a) (g b)) : Agree S (f <$> x) (g <$> y) := by
  cases h with
  | ok hr => exact .ok (hfg _ _ hr)
  | error e => exact .error e

/-- The same computation, when what it returns is related to itself. -/
lemma refl {R : α → α → Prop} {x : Except ε α} (h : ∀ a, x = .ok a → R a a) : Agree R x x := by
  cases x with
  | ok a => exact .ok (h a rfl)
  | error e => exact .error e

/-- One after the other. -/
lemma mapM {f : α → Except ε α'} {g : β → Except ε β'} {as : List α} {bs : List β} (h : List.Forall₂ R as bs)
    (hfg : ∀ a b, R a b → Agree S (f a) (g b)) : Agree (List.Forall₂ S) (as.mapM f) (bs.mapM g) := by
  induction h with
  | nil => exact .ok .nil
  | cons hr _ ih =>
    rw [List.mapM_cons, List.mapM_cons]
    exact (hfg _ _ hr).bind fun a b hab => ih.bind fun as bs habs => .ok (.cons hab habs)

/-- One after the other, of the same list. -/
lemma mapM_same {f : α → Except ε α'} {g : α → Except ε β'} {as : List α} (hfg : ∀ a ∈ as, Agree S (f a) (g a)) :
    Agree (List.Forall₂ S) (as.mapM f) (as.mapM g) := by
  have hsame : List.Forall₂ (fun a b => a = b ∧ a ∈ as) as as := List.forall₂_same.mpr fun _ hm => ⟨rfl, hm⟩
  refine mapM hsame fun a b hab => ?_
  obtain ⟨rfl, hm⟩ := hab
  exact hfg a hm

/-- A loop. -/
lemma foldlM {σ τ : Type} {Q : σ → τ → Prop} {f : σ → α → Except ε σ} {g : τ → β → Except ε τ} {as : List α}
    {bs : List β} (h : List.Forall₂ R as bs) (hfg : ∀ s t a b, Q s t → R a b → Agree Q (f s a) (g t b)) {s : σ}
    {t : τ} (hst : Q s t) : Agree Q (as.foldlM f s) (bs.foldlM g t) := by
  induction h generalizing s t with
  | nil => exact .ok hst
  | cons hr _ ih =>
    rw [List.foldlM_cons, List.foldlM_cons]
    exact (hfg _ _ _ _ hst hr).bind fun s t hst => ih hst

/-- When one returns, the other returns what is related. -/
lemma exists_ok {a : α} {y : Except ε β} (h : Agree R (.ok a) y) : ∃ b, y = .ok b ∧ R a b := by
  cases h with
  | ok hr => exact ⟨_, rfl, hr⟩

end Agree

end Kanta.Lib
