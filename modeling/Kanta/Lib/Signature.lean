import Kanta.Lib.Assoc

/-!
# Binding the arguments of a call

A signature is a list of parameters with distinct names.  A call gives values by position and by keyword;
`bind` finds the value of each parameter, or fails as the call does.  A call by keywords binds when every
keyword is a parameter's name and every parameter without a default has one (`bindParams_keywords`), a call by
position when the parameters behind the values need none (`bindParams_positional`).
-/

namespace Kanta.Lib

/-- How a parameter takes its value. -/
inductive ParameterKind where
  | positionalOnly
  | positionalOrKeyword
  | varPositional
  | keywordOnly
  | varKeyword
deriving DecidableEq

/-- A parameter, with an annotation in `α`. -/
structure Parameter (α : Type*) where
  name : String
  kind : ParameterKind
  annotation : Option α
  hasDefault : Bool

/-- It takes any number of values. -/
def Parameter.isVar {α : Type*} (p : Parameter α) : Bool :=
  p.kind = .varPositional ∨ p.kind = .varKeyword

/-- It takes one value, which can be given by its name. -/
def Parameter.Keyworded {α : Type*} (p : Parameter α) : Prop :=
  p.kind = .positionalOrKeyword ∨ p.kind = .keywordOnly

/-- It takes one value, which can be given by its position. -/
def Parameter.Positional {α : Type*} (p : Parameter α) : Prop :=
  p.kind = .positionalOnly ∨ p.kind = .positionalOrKeyword

/-- The parameters of a function. -/
structure Signature (α : Type*) where
  params : List (Parameter α)
  nodup : (params.map Parameter.name).Nodup

namespace Signature

variable {α β : Type*}

/-- The value of each single parameter, `none` where it is the default. -/
def bindParams : List (Parameter α) → List β → List (String × β) → Option (List (String × Option β))
  | [], [], [] => some []
  | [], _, _ => none
  | p :: ps, args, kwargs =>
    match p.kind, args with
    | .varPositional, _ => bindParams ps [] kwargs
    | .varKeyword, _ => bindParams ps args []
    | .keywordOnly, _ :: _ => none
    | .positionalOnly, v :: args => ((p.name, some v) :: ·) <$> bindParams ps args kwargs
    | .positionalOrKeyword, v :: args =>
      -- two values for one parameter
      if (kwargs.lookup p.name).isSome then none else ((p.name, some v) :: ·) <$> bindParams ps args kwargs
    | .positionalOnly, [] => if p.hasDefault then ((p.name, none) :: ·) <$> bindParams ps [] kwargs else none
    | _, [] =>
      match kwargs.lookup p.name with
      | some v => ((p.name, some v) :: ·) <$> bindParams ps [] (Assoc.remove p.name kwargs)
      | none => if p.hasDefault then ((p.name, none) :: ·) <$> bindParams ps [] kwargs else none

def bind (sig : Signature α) (args : List β) (kwargs : List (String × β)) : Option (List (String × Option β)) :=
  bindParams sig.params args kwargs

/-! ### Calls by keywords -/

variable {ps : List (Parameter α)} {kwargs : List (String × β)}

/-- A parameter that is still without a value takes the keyword of its name, or its default. -/
lemma bindParams_cons {p : Parameter α} (hp : p.Keyworded) (ps : List (Parameter α))
    (kwargs : List (String × β)) (hreq : p.hasDefault = false → (kwargs.lookup p.name).isSome) :
    bindParams (p :: ps) [] kwargs =
      ((p.name, kwargs.lookup p.name) :: ·) <$> bindParams ps [] (Assoc.remove p.name kwargs) := by
  have hkeyword : bindParams (p :: ps) [] kwargs =
      match kwargs.lookup p.name with
      | some v => ((p.name, some v) :: ·) <$> bindParams ps [] (Assoc.remove p.name kwargs)
      | none => if p.hasDefault then ((p.name, none) :: ·) <$> bindParams ps [] kwargs else none := by
    obtain hkind | hkind := hp <;> rw [bindParams.eq_def] <;> simp only [hkind]
  rw [hkeyword]
  cases hv : kwargs.lookup p.name with
  | some v => rfl
  | none =>
    have hdefault : p.hasDefault = true := by
      rw [← Bool.not_eq_false]
      intro hd
      exact absurd (hreq hd) (by rw [hv]; exact Bool.false_ne_true)
    have hsame : Assoc.remove p.name kwargs = kwargs := List.filter_eq_self.mpr fun kv hm => by
      simp only [ne_eq, decide_not, Bool.not_eq_true', decide_eq_false_iff_not]
      exact fun hk => Assoc.lookup_eq_none_iff.mp hv (hk ▸ List.mem_map_of_mem hm)
    rw [hsame]
    exact if_pos hdefault

/-- **A call by keywords**: each parameter gets the keyword of its name, or its default. -/
theorem bindParams_keywords (hkinds : ∀ p ∈ ps, p.Keyworded) (hnodup : (ps.map Parameter.name).Nodup)
    (hkeys : ∀ kv ∈ kwargs, kv.1 ∈ ps.map Parameter.name)
    (hreq : ∀ p ∈ ps, p.hasDefault = false → (kwargs.lookup p.name).isSome) :
    bindParams ps [] kwargs = some (ps.map fun p => (p.name, kwargs.lookup p.name)) := by
  induction ps generalizing kwargs with
  | nil =>
    cases kwargs with
    | nil => rfl
    | cons kv kwargs => exact absurd (hkeys kv List.mem_cons_self) List.not_mem_nil
  | cons p ps ih =>
    obtain ⟨hp, hkinds⟩ := List.forall_mem_cons.mp hkinds
    obtain ⟨hnew, hnodup⟩ := List.nodup_cons.mp hnodup
    obtain ⟨hpreq, hreq⟩ := List.forall_mem_cons.mp hreq
    have hother : ∀ q ∈ ps, (Assoc.remove p.name kwargs).lookup q.name = kwargs.lookup q.name := by
      intro q hq
      rw [Assoc.lookup_remove, if_neg]
      exact fun hname => hnew (hname ▸ List.mem_map_of_mem hq)
    rw [bindParams_cons hp ps kwargs hpreq, ih hkinds hnodup ?_ fun q hq hd => by rw [hother q hq]; exact hreq q hq hd]
    · rw [Option.map_eq_map, Option.map_some, List.map_cons]
      exact congrArg (fun l => some (_ :: l)) (List.map_congr_left fun q hq => by rw [hother q hq])
    · intro kv hkv
      obtain ⟨hm, hne⟩ := List.mem_filter.mp hkv
      exact (List.mem_cons.mp (hkeys kv hm)).resolve_left (by simpa using hne)

/-- One value by position, and the others by keywords. -/
theorem bindParams_first {p : Parameter α} (hp : p.Positional) (v : β)
    (hkinds : ∀ p ∈ ps, p.Keyworded) (hnodup : ((p :: ps).map Parameter.name).Nodup)
    (hkeys : ∀ kv ∈ kwargs, kv.1 ∈ ps.map Parameter.name)
    (hreq : ∀ p ∈ ps, p.hasDefault = false → (kwargs.lookup p.name).isSome) :
    bindParams (p :: ps) [v] kwargs = some ((p.name, some v) :: ps.map fun p => (p.name, kwargs.lookup p.name)) := by
  obtain ⟨hnew, hnodup⟩ := List.nodup_cons.mp hnodup
  have hnone : kwargs.lookup p.name = none := Assoc.lookup_eq_none_iff.mpr fun hm => by
    obtain ⟨kv, hkv, hk⟩ := List.mem_map.mp hm
    exact hnew (hk ▸ hkeys kv hkv)
  have hrest := bindParams_keywords hkinds hnodup hkeys hreq
  obtain hkind | hkind := hp
  · rw [bindParams.eq_def]
    simp only [hkind, hrest]
    rfl
  · rw [bindParams.eq_def]
    simp only [hkind, hnone, hrest]
    rfl

/-! ### Calls by position -/

/-- What parameters get that are given nothing. -/
def defaults (ps : List (Parameter α)) : List (String × Option β) :=
  (ps.filter fun p => !p.isVar).map fun p => (p.name, none)

lemma bindParams_nil (h : ∀ p ∈ ps, p.isVar = true ∨ p.hasDefault = true) :
    bindParams ps ([] : List β) [] = some (defaults ps) := by
  induction ps with
  | nil => rfl
  | cons p ps ih =>
    obtain ⟨hp, hps⟩ := List.forall_mem_cons.mp h
    rw [defaults, List.filter_cons]
    rw [bindParams.eq_def]
    cases hkind : p.kind <;> simp_all [Parameter.isVar, defaults]

/-- **A call by position**: the parameters behind the values get their defaults. -/
theorem bindParams_positional {rest : List (Parameter α)} {args : List β} (hlen : ps.length = args.length)
    (hpositional : ∀ p ∈ ps, p.Positional) (hrest : ∀ p ∈ rest, p.isVar = true ∨ p.hasDefault = true) :
    bindParams (ps ++ rest) args [] =
      some (List.zipWith (fun p v => (p.name, some v)) ps args ++ defaults rest) := by
  induction ps generalizing args with
  | nil =>
    obtain rfl := List.length_eq_zero_iff.mp hlen.symm
    exact bindParams_nil hrest
  | cons p ps ih =>
    obtain ⟨v, args, rfl⟩ := List.exists_cons_of_length_eq_add_one hlen.symm
    obtain ⟨hp, hps⟩ := List.forall_mem_cons.mp hpositional
    have hbound := ih (Nat.succ.inj hlen) hps
    rw [List.cons_append, bindParams.eq_def]
    obtain hkind | hkind := hp <;> simp only [hkind, hbound] <;> rfl

end Signature

end Kanta.Lib
