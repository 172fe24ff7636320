import Mathlib.Data.List.Basic
import Mathlib.Logic.Relation

/-!
# Draining a queue into a log

Items are pushed to a queue; one drainer at a time copies the queue, appends the copy to a log and
then pops as many items as it copied.  Between these three steps more items may be pushed, the
drainer may be given up, before or after it has appended, and (`extra`) somebody else may append
to the log as well.

* `Kept`: no item is lost, whatever happens;
* `Covered`: without extra appends, the log is a sequence of overlapping segments of the items;
* `Exact`: when no drainer is given up after it has appended either, the log and the rest of the
  queue are all items, once and in order.
-/

namespace Kanta.Lib

variable {α : Type*}

/-- The items pushed so far, those still in the queue, the log, and the copy that is being drained,
with a mark once it has been appended. -/
structure Drain (α : Type*) where
  pushed : List α
  queue : List α
  log : List α
  batch : Option (List α × Bool)

namespace Drain

/-- The kinds of steps. -/
inductive Act where
  | push
  | copy
  | append
  | withdraw
  | pop
  | forget
  | extra
deriving DecidableEq

/-- The steps. -/
inductive Step : Act → Drain α → Drain α → Prop
  | push {d : Drain α} (x : α) :
      Step .push d { d with pushed := d.pushed ++ [x], queue := d.queue ++ [x] }
  | copy {d : Drain α} (h : d.batch = none) (hne : d.queue ≠ []) :
      Step .copy d { d with batch := some (d.queue, false) }
  | append {d : Drain α} (b : List α) (h : d.batch = some (b, false)) :
      Step .append d { d with log := d.log ++ b, batch := some (b, true) }
  | withdraw {d : Drain α} (b : List α) (h : d.batch = some (b, false)) :
      Step .withdraw d { d with batch := none }
  | pop {d : Drain α} (b : List α) (h : d.batch = some (b, true)) :
      Step .pop d { d with queue := d.queue.drop b.length, batch := none }
  | forget {d : Drain α} (b : List α) (h : d.batch = some (b, true)) :
      Step .forget d { d with batch := none }
  | extra {d : Drain α} (b : List α) : Step .extra d { d with log := d.log ++ b }

/-- Steps of the kinds in `A`, one after another. -/
def Moves (A : Act → Prop) : Drain α → Drain α → Prop :=
  Relation.ReflTransGen fun d d' => ∃ a, A a ∧ Step a d d'

namespace Moves

variable {A : Act → Prop} {d d' d'' : Drain α}

lemma refl (A : Act → Prop) (d : Drain α) : Moves A d d := Relation.ReflTransGen.refl

lemma of_eq (A : Act → Prop) (h : d' = d) : Moves A d d' := h ▸ refl A d

lemma one {a : Act} (h : Step a d d') (ha : A a) : Moves A d d' := Relation.ReflTransGen.single ⟨a, ha, h⟩

lemma trans (h : Moves A d d') (h' : Moves A d' d'') : Moves A d d'' := Relation.ReflTransGen.trans h h'

/-- What every step of a kind in `A` keeps is kept. -/
lemma keeps {I : Drain α → Prop} (hstep : ∀ a d d', A a → Step a d d' → I d → I d')
    (h : Moves A d d') (hI : I d) : I d' := by
  induction h with
  | refl => exact hI
  | tail _ hs ih =>
    obtain ⟨a, ha, hs⟩ := hs
    exact hstep a _ _ ha hs ih

end Moves

/-! ### The queue -/

/-- The queue is what is left of the items, and the copy is a front of the queue. -/
structure Queued (d : Drain α) : Prop where
  suffix : d.queue <:+ d.pushed
  front : ∀ b w, d.batch = some (b, w) → b <+: d.queue
  ne_nil : ∀ b w, d.batch = some (b, w) → b ≠ []

lemma Queued.step {a : Act} {d d' : Drain α} (h : Step a d d') (hd : d.Queued) : d'.Queued := by
  obtain ⟨hsuf, hfront, hne⟩ := hd
  cases h with
  | push x =>
    refine ⟨?_, fun b w hb => (hfront b w hb).trans (List.prefix_append _ _), hne⟩
    obtain ⟨l, hl⟩ := hsuf
    exact ⟨l, by simp [← hl]⟩
  | copy hb hq =>
    refine ⟨hsuf, fun b w hb => ?_, fun b w hb => ?_⟩
    all_goals obtain ⟨rfl, -⟩ := Prod.mk.inj (Option.some.inj hb)
    · exact List.prefix_rfl
    · exact hq
  | append b hb =>
    refine ⟨hsuf, fun b' w hb' => ?_, fun b' w hb' => ?_⟩
    all_goals obtain ⟨rfl, -⟩ := Prod.mk.inj (Option.some.inj hb')
    · exact hfront _ _ hb
    · exact hne _ _ hb
  | withdraw => exact ⟨hsuf, by simp, by simp⟩
  | pop => exact ⟨(List.drop_suffix _ _).trans hsuf, by simp, by simp⟩
  | forget => exact ⟨hsuf, by simp, by simp⟩
  | extra => exact ⟨hsuf, hfront, hne⟩

/-! ### Nothing is lost -/

/-- Every item is in the log or still in the queue. -/
structure Kept (d : Drain α) : Prop where
  queued : d.Queued
  kept : ∀ x ∈ d.pushed, x ∈ d.log ∨ x ∈ d.queue
  appended : ∀ b, d.batch = some (b, true) → ∀ x ∈ b, x ∈ d.log

/-- **Nothing is lost**: every step keeps the items in the log or in the queue. -/
theorem Kept.step {a : Act} {d d' : Drain α} (h : Step a d d') (hd : d.Kept) : d'.Kept := by
  refine ⟨hd.queued.step h, ?_, ?_⟩ <;> obtain ⟨hq, hkept, happ⟩ := hd
  · intro x hx
    cases h with
    | push y =>
      rcases List.mem_append.mp hx with hx | hx
      · exact (hkept x hx).imp_right (List.mem_append_left _)
      · exact Or.inr (List.mem_append_right _ hx)
    | append b => exact (hkept x hx).imp_left (List.mem_append_left _)
    | extra b => exact (hkept x hx).imp_left (List.mem_append_left _)
    | pop b hb =>
      refine (hkept x hx).elim Or.inl fun hx => ?_
      -- a popped item is in the copy, which has been appended
      obtain ⟨l, hl⟩ := hq.front _ _ hb
      rw [← hl] at hx ⊢
      rw [List.drop_left]
      exact (List.mem_append.mp hx).imp_left (happ _ hb x)
    | copy | withdraw | forget => exact hkept x hx
  · intro b hb x hx
    cases h with
    | push => exact happ b hb x hx
    | append b' =>
      obtain ⟨rfl, -⟩ := Prod.mk.inj (Option.some.inj hb)
      exact List.mem_append_right _ hx
    | extra => exact List.mem_append_left _ (happ b hb x hx)
    | copy | withdraw | pop | forget => simp at hb

/-! ### Overlapping segments -/

/-- The log consists of segments of `all`, each of which begins at or before the end of the one in
front of it and ends at or behind it; the first one follows the end `k`, and `k'` is the last end. -/
inductive Covers (all : List α) (k : ℕ) : List α → ℕ → Prop
  | nil : Covers all k [] k
  | append {log : List α} {k' : ℕ} (h : Covers all k log k') (i j : ℕ) (hik : i ≤ k') (hkj : k' ≤ j)
      (hj : j ≤ all.length) : Covers all k (log ++ (all.take j).drop i) j

namespace Covers

variable {all log : List α} {k k' : ℕ}

lemma push (h : Covers all k log k') (more : List α) : Covers (all ++ more) k log k' := by
  induction h with
  | nil => exact .nil
  | append h i j hik hkj hj ih =>
    have := Covers.append ih i j hik hkj (by simp; omega)
    rwa [List.take_append_of_le_length hj] at this

lemma map {β : Type*} (f : α → β) (h : Covers all k log k') : Covers (all.map f) k (log.map f) k' := by
  induction h with
  | nil => exact .nil
  | append h i j hik hkj hj ih =>
    have := Covers.append ih i j hik hkj (by simpa using hj)
    rwa [← List.map_take, ← List.map_drop, ← List.map_append] at this

end Covers

/-- The log reaches up to the item `k`: at least up to the queue, at most up to the end of the copy,
and up to the end of a copy that was appended. -/
structure UpTo (d : Drain α) (k : ℕ) : Prop where
  le : k ≤ d.pushed.length
  passed : d.pushed.length ≤ k + d.queue.length
  copied : ∀ b, d.batch = some (b, false) → k + d.queue.length ≤ d.pushed.length + b.length
  appended : ∀ b, d.batch = some (b, true) → k + d.queue.length = d.pushed.length + b.length

/-- Between two copies a log that holds everything reaches up to the last item. -/
lemma UpTo.all {d : Drain α} (h : d.batch = none) : d.UpTo d.pushed.length :=
  ⟨Nat.le_refl _, Nat.le_add_right _ _, by simp [h], by simp [h]⟩

/-- Behind `base`, which reaches up to `k`, the log is a sequence of overlapping segments. -/
structure Covered (base : List α) (k : ℕ) (d : Drain α) : Prop where
  queued : d.Queued
  covers : ∃ more k', d.log = base ++ more ∧ Covers d.pushed k more k' ∧ d.UpTo k'

/-- **The log is a sequence of overlapping segments**, as long as only the drainer appends. -/
theorem Covered.step {base : List α} {k : ℕ} {a : Act} {d d' : Drain α} (h : Step a d d')
    (ha : a ≠ .extra) (hd : d.Covered base k) : d'.Covered base k := by
  refine ⟨hd.queued.step h, ?_⟩
  obtain ⟨hq, more, k', hlog, hk, hle, hpass, hcopy, happ⟩ := hd
  cases h with
  | push x =>
    refine ⟨more, k', hlog, hk.push [x], by simp; omega, by simp; omega, fun b hb => ?_, fun b hb => ?_⟩
    · have := hcopy b hb
      simp
      omega
    · have := happ b hb
      simp
      omega
  | copy hb hne =>
    refine ⟨more, k', hlog, hk, hle, hpass, fun b hb => ?_, by simp⟩
    obtain ⟨rfl, -⟩ := Prod.mk.inj (Option.some.inj hb)
    exact Nat.add_le_add_right hle _
  | append b hb =>
    obtain ⟨l, hl⟩ := hq.suffix
    obtain ⟨r, hr⟩ := hq.front b _ hb
    have hlen : d.pushed.length = l.length + d.queue.length := by rw [← hl, List.length_append]
    have hcb := hcopy b hb
    have hseg : (d.pushed.take (l.length + b.length)).drop l.length = b := by
      rw [← hl, ← hr, ← List.append_assoc, List.take_left' (by simp), List.drop_left]
    have hqb : d.queue.length = b.length + r.length := by rw [← hr, List.length_append]
    have := hk.append l.length (l.length + b.length) (by omega) (by omega) (by omega)
    rw [hseg] at this
    refine ⟨more ++ b, _, by simp [hlog], this, ?_, ?_, by simp, fun b' hb' => ?_⟩
    · show l.length + b.length ≤ d.pushed.length
      omega
    · show d.pushed.length ≤ l.length + b.length + d.queue.length
      omega
    · obtain ⟨rfl, -⟩ := Prod.mk.inj (Option.some.inj hb')
      show l.length + b.length + d.queue.length = d.pushed.length + b.length
      omega
  | withdraw => exact ⟨more, k', hlog, hk, hle, hpass, by simp, by simp⟩
  | pop b hb =>
    have := happ b hb
    have := (hq.front b _ hb).length_le
    exact ⟨more, k', hlog, hk, hle, by simp; omega, by simp, by simp⟩
  | forget => exact ⟨more, k', hlog, hk, hle, hpass, by simp, by simp⟩
  | extra => exact absurd rfl ha

/-! ### Every item once -/

/-- The part of the queue that has not been appended. -/
def unwritten (d : Drain α) : List α :=
  match d.batch with
  | some (b, true) => d.queue.drop b.length
  | _ => d.queue

/-- Behind what the log held at first, the log and the rest of the queue are all items, in order. -/
structure Exact (base : List α) (d : Drain α) : Prop where
  queued : d.Queued
  exact : d.log ++ d.unwritten = base ++ d.pushed

/-- With an empty queue, all items are in the log. -/
lemma Exact.log_eq {base : List α} {d : Drain α} (hd : d.Exact base) (h : d.queue = []) :
    d.log = base ++ d.pushed := by
  have hun : d.unwritten = [] := by
    unfold unwritten
    split <;> simp [h]
  have := hd.exact
  rwa [hun, List.append_nil] at this

/-- **Every item is appended once and in order**, as long as only the drainer appends and it is
never given up between its append and its pop. -/
theorem Exact.step {base : List α} {a : Act} {d d' : Drain α} (h : Step a d d') (ha : a ≠ .extra)
    (hf : a ≠ .forget) (hd : d.Exact base) : d'.Exact base := by
  refine ⟨hd.queued.step h, ?_⟩
  obtain ⟨hq, hex⟩ := hd
  cases h with
  | push x =>
    rw [← List.append_assoc, ← hex, List.append_assoc]
    congr 1
    unfold unwritten
    dsimp only
    split
    · rename_i b hb
      exact List.drop_append_of_le_length (hq.front _ _ hb).length_le
    · rfl
  | copy hb => simpa [unwritten, hb] using hex
  | append b hb =>
    obtain ⟨r, hr⟩ := hq.front _ _ hb
    simp only [unwritten, hb] at hex ⊢
    rw [← hex, List.append_assoc, ← hr, List.drop_left]
  | withdraw b hb => simpa [unwritten, hb] using hex
  | pop b hb => simpa [unwritten, hb] using hex
  | forget => exact absurd rfl hf
  | extra => exact absurd rfl ha

end Drain

end Kanta.Lib
