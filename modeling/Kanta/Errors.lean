import Kanta.Value

/-!
# Exceptions

The exceptions the program raises itself, with the data it puts into them, and the ones it can
meet from the interpreter, from msgspec and from user callbacks.
-/

namespace Kanta

/-- A raised exception.  `user n` is an `Exception` of user code, `base n` a `BaseException` that
is no `Exception` (`KeyboardInterrupt`, `SystemExit`, `CancelledError`). -/
inductive Exc where
  | replayError (message : String) (lineNumber bytePos : Option ℕ) (recordType : Option String)
  | databaseError (message : String) (causeType : Option String)
  | dataIntegrityError (message : String) (action : Option String) (diff : Option Dict)
  | decodeError
  | osError
  | indexError
  | valueError
  | typeError (message : String)
  | overflowError
  | attributeError (name : String)
  | runtimeError (message : String)
  | user (n : ℕ)
  | base (n : ℕ)

namespace Exc

/-- Whether `except Exception` catches it. -/
def isException : Exc → Bool
  | .base _ => false
  | _ => true

/-- Whether `except DatabaseError` catches it: `ReplayError` is a subclass. -/
def isDatabaseError : Exc → Bool
  | .databaseError .. => true
  | .replayError .. => true
  | _ => false

end Exc

/-! ### Reading a `do` block -/

section Except
variable {ε : Type*} {α β : Type}

lemma bind_eq_ok {x : Except ε α} {f : α → Except ε β} {b : β} :
    (x >>= f) = .ok b ↔ ∃ a, x = .ok a ∧ f a = .ok b := by
  cases x <;> simp [bind, Except.bind]

lemma map_eq_ok {x : Except ε α} {f : α → β} {b : β} :
    f <$> x = .ok b ↔ ∃ a, x = .ok a ∧ f a = b := by
  cases x <;> simp [Functor.map, Except.map]

lemma exists_map_ok {x : Except ε α} {f : α → β} {P : β → Prop} :
    (∃ b, f <$> x = .ok b ∧ P b) ↔ ∃ a, x = .ok a ∧ P (f a) := by
  cases x <;> simp [Functor.map, Except.map]

lemma eq_ok_of_toOption {x : Except ε α} {a : α} (h : x.toOption = some a) : x = .ok a := by
  cases x with
  | ok b => rw [Option.some.inj h]
  | error e => simp [Except.toOption] at h

/-- What every step of a loop keeps, the loop keeps. -/
lemma foldlM_keeps {P : α → Prop} {f : α → β → Except ε α} {l : List β}
    (step : ∀ a, ∀ b ∈ l, ∀ c, f a b = .ok c → P a → P c) {a c : α}
    (h : l.foldlM f a = .ok c) (ha : P a) : P c := by
  induction l generalizing a with
  | nil =>
    obtain rfl : a = c := by simpa [pure, Except.pure] using h
    exact ha
  | cons b l ih =>
    rw [List.foldlM_cons, bind_eq_ok] at h
    obtain ⟨a', ha', hl⟩ := h
    exact ih (fun a b hb => step a b (List.mem_cons_of_mem _ hb)) hl
      (step a b List.mem_cons_self a' ha' ha)

end Except

end Kanta
