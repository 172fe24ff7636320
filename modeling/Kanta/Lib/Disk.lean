import Mathlib.Data.List.Basic

/-!
# Files and crashes

A file is what is durable of it and the operations that have been made since its last sync.  A crash
may lose any of these, and any part of the bytes of a write.  `Durable f c` says that whatever a
crash loses, the file holds `c` afterwards.
-/

namespace Kanta.Lib.Disk

variable {α : Type*}

/-- An operation on an open file, or its creation. -/
inductive Op (α : Type*) where
  | create
  | truncate (length : ℕ)
  | write (pos : ℕ) (bytes : List α)

section

variable (zero : α)

/-- The content cut or filled up to a length. -/
def resize (length : ℕ) (content : List α) : List α :=
  content.take length ++ List.replicate (length - content.length) zero

/-- The content of a file after an operation; there is none while it does not exist. -/
def Op.apply : Option (List α) → Op α → Option (List α)
  | none, .create => some []
  | none, _ => none
  | some content, .create => some content
  | some content, .truncate length => some (resize zero length content)
  | some content, .write pos bytes =>
    some (resize zero pos content ++ bytes ++ content.drop (pos + bytes.length))

end

/-- A file: what is durable, and what has been done since. -/
structure File (α : Type*) where
  synced : Option (List α)
  pending : List (Op α)

/-- What a crash keeps of the operations. -/
inductive Kept : List (Op α) → List (Op α) → Prop
  | nil : Kept [] []
  | lost {op : Op α} {ops kept : List (Op α)} (h : Kept ops kept) : Kept (op :: ops) kept
  | whole {op : Op α} {ops kept : List (Op α)} (h : Kept ops kept) : Kept (op :: ops) (op :: kept)
  | part {pos : ℕ} {bytes : List α} {ops kept : List (Op α)} (skip count : ℕ) (h : Kept ops kept) :
    Kept (.write pos bytes :: ops) (.write (pos + skip) ((bytes.drop skip).take count) :: kept)

lemma Kept.none_kept (ops : List (Op α)) : Kept ops [] := by
  induction ops with
  | nil => exact .nil
  | cons op ops ih => exact .lost ih

namespace File

variable (zero : α) (f : File α)

/-- What a reader sees. -/
def visible : Option (List α) := f.pending.foldl (Op.apply zero) f.synced

/-- One operation more. -/
def push (op : Op α) : File α := { f with pending := f.pending ++ [op] }

/-- `fsync`. -/
def sync : File α := ⟨f.visible zero, []⟩

/-- What may be there after a crash. -/
def Survives (content : Option (List α)) : Prop :=
  ∃ kept, Kept f.pending kept ∧ content = kept.foldl (Op.apply zero) f.synced

/-- What is there after any crash. -/
def Durable (content : List α) : Prop := ∀ c, f.Survives zero c → c = some content

variable {zero f}

@[simp] lemma visible_push (op : Op α) : (f.push op).visible zero = Op.apply zero (f.visible zero) op := by
  rw [visible, push, List.foldl_append]
  rfl

@[simp] lemma synced_push (op : Op α) : (f.push op).synced = f.synced := rfl

@[simp] lemma pending_push (op : Op α) : (f.push op).pending = f.pending ++ [op] := rfl

/-- All that is pending may be lost. -/
lemma survives_synced : f.Survives zero f.synced := ⟨[], .none_kept _, rfl⟩

lemma Durable.synced_eq {content : List α} (h : f.Durable zero content) : f.synced = some content :=
  h _ survives_synced

/-- What has been synced, with nothing done since, is durable. -/
lemma durable_of_synced {content : List α} (h : f = ⟨some content, []⟩) : f.Durable zero content := by
  subst h
  rintro c ⟨kept, hkept, rfl⟩
  cases hkept
  rfl

/-- It is the only content that is. -/
lemma durable_synced_iff {content c : List α} : Durable zero ⟨some content, []⟩ c ↔ content = c := by
  constructor
  · intro h
    exact Option.some.inj h.synced_eq
  · rintro rfl
    exact durable_of_synced rfl

/-- The first operation may be the only one that is kept. -/
lemma survives_first {op : Op α} {ops : List (Op α)} (h : f.pending = op :: ops) :
    f.Survives zero (Op.apply zero f.synced op) :=
  ⟨[op], h ▸ .whole (.none_kept ops), rfl⟩

/-- A file with an operation pending that changes what is durable holds nothing durably. -/
lemma not_durable {op : Op α} {ops : List (Op α)} (h : f.pending = op :: ops)
    (hne : Op.apply zero f.synced op ≠ f.synced) (content : List α) : ¬f.Durable zero content := by
  intro hd
  exact hne ((hd _ (survives_first h)).trans hd.synced_eq.symm)

end File

/-- Writing at the end appends. -/
lemma apply_write_end (zero : α) (content bytes : List α) :
    Op.apply zero (some content) (.write content.length bytes) = some (content ++ bytes) := by
  rw [Op.apply, resize, Nat.sub_self, List.take_length, List.drop_eq_nil_of_le (by omega)]
  simp

end Kanta.Lib.Disk
