import Kanta.Lib.Disk
import Mathlib.Data.List.GetD
import Mathlib.Logic.Function.Basic

/-!
# Descriptors and advisory locks

One name in a directory, the files it has stood for, and processes that open, lock, read and write them.  A
process has at most one descriptor.  The lock of a file keeps nobody from writing: what it is good for
depends on who asks for it.

* `Files.Wf`: whoever holds a lock has the file open;
* `Files.Framed p`: what an operation of `p` leaves alone, for the other processes and the files that `p`
  does not hold;
* `Files.Owns p`: `p` has the lock of its file, and so alone decides what the file holds;
* `Files.Grows`: nothing that has been written is lost;
* `Files.Named`: every open file is the one that the name stands for;
* `Files.Plain p`: the operations of `p` under which all of this stays true;
* `Reading`: what a reader has, who reads chunk by chunk while the file may grow.
-/

namespace Kanta.Lib.Descriptors

open Kanta.Lib.Disk

variable {ι α : Type*}

/-- An open file, and where the next byte is read or written. -/
structure Descriptor where
  inode : ℕ
  pos : ℕ

/-- The contents of the files, the one that the name stands for, and who has which of them open or locked. -/
structure Files (ι α : Type*) where
  contents : List (List α)
  entry : Option ℕ
  fd : ι → Option Descriptor
  holder : ℕ → Option ι

namespace Files

/-- One file or none, and nobody has it open. -/
def initial (content : Option (List α)) : Files ι α :=
  ⟨content.toList, content.map fun _ => 0, fun _ => none, fun _ => none⟩

section

variable (fs : Files ι α)

def content (i : ℕ) : List α := fs.contents.getD i []

/-- The content of the file that `p` has open. -/
def seen (p : ι) : List α :=
  match fs.fd p with
  | none => []
  | some d => fs.content d.inode

/-- `unlink`: the file stays with those that have it open. -/
def unlink : Files ι α := { fs with entry := none }

/-- An operation on the content of a file. -/
def apply (zero : α) (i : ℕ) (op : Op α) : Files ι α :=
  { fs with contents := fs.contents.set i ((Op.apply zero (some (fs.content i)) op).getD []) }

variable [DecidableEq ι] (p : ι)

/-- `open`, with `O_CREAT` or without; it fails when there is no file. -/
def openFile (create : Bool) : Option (Files ι α) :=
  match fs.entry, create with
  | some i, _ => some { fs with fd := Function.update fs.fd p (some ⟨i, 0⟩) }
  | none, true =>
    some { fs with
      contents := fs.contents ++ [[]]
      entry := some fs.contents.length
      fd := Function.update fs.fd p (some ⟨fs.contents.length, 0⟩) }
  | none, false => none

/-- `flock` with `LOCK_EX` and `LOCK_NB`; it fails when another process holds the lock. -/
def lock : Option (Files ι α) :=
  match fs.fd p with
  | none => none
  | some d =>
    if fs.holder d.inode = none ∨ fs.holder d.inode = some p then
      some { fs with holder := Function.update fs.holder d.inode (some p) }
    else none

/-- `close`, which releases the lock. -/
def close : Files ι α :=
  { fs with
    fd := Function.update fs.fd p none
    holder := fun i => if fs.holder i = some p then none else fs.holder i }

/-- `lseek`. -/
def seek (pos : ℕ) : Files ι α :=
  { fs with fd := Function.update fs.fd p ((fs.fd p).map fun d => { d with pos }) }

/-- `lseek` to the end. -/
def seekEnd : Files ι α :=
  match fs.fd p with
  | none => fs
  | some d => fs.seek p (fs.content d.inode).length

/-- `read`. -/
def read (count : ℕ) : List α × Files ι α :=
  match fs.fd p with
  | none => ([], fs)
  | some d =>
    let chunk := ((fs.content d.inode).drop d.pos).take count
    (chunk, fs.seek p (d.pos + chunk.length))

/-- `write`, as far as it gets. -/
def write (zero : α) (bytes : List α) : Files ι α :=
  match fs.fd p with
  | none => fs
  | some d => (fs.apply zero d.inode (.write d.pos bytes)).seek p (d.pos + bytes.length)

/-- `ftruncate`. -/
def truncate (zero : α) (length : ℕ) : Files ι α :=
  match fs.fd p with
  | none => fs
  | some d => fs.apply zero d.inode (.truncate length)

end

/-! ### What an operation leaves alone -/

/-- The open files and the named one exist, and a lock is held by a process that has the file open. -/
structure Wf (fs : Files ι α) : Prop where
  named : ∀ i, fs.entry = some i → i < fs.contents.length
  opened : ∀ p d, fs.fd p = some d → d.inode < fs.contents.length
  held : ∀ i p, fs.holder i = some p → ∃ d, fs.fd p = some d ∧ d.inode = i

/-- What concerns the other processes is as before: their descriptors, the locks they hold, and the files
that `p` holds no lock of. -/
structure Framed (p : ι) (fs fs' : Files ι α) : Prop where
  fd : ∀ q, q ≠ p → fs'.fd q = fs.fd q
  holder : ∀ i q, q ≠ p → (fs'.holder i = some q ↔ fs.holder i = some q)
  content : ∀ i < fs.contents.length, fs.holder i ≠ some p → fs'.content i = fs.content i

variable {fs fs' fs'' : Files ι α} {p : ι}

lemma wf_initial (content : Option (List α)) : (initial content : Files ι α).Wf := by
  refine ⟨fun i hi => ?_, by simp [initial], by simp [initial]⟩
  obtain ⟨c, rfl, rfl⟩ := Option.map_eq_some_iff.mp hi
  exact Nat.zero_lt_one

lemma Framed.refl (p : ι) (fs : Files ι α) : Framed p fs fs :=
  ⟨fun _ _ => rfl, fun _ _ _ => Iff.rfl, fun _ _ _ => rfl⟩

/-- Where an operation holds on to what `p` has the lock of, another may follow. -/
lemma Framed.trans (h : Framed p fs fs') (h' : Framed p fs' fs'')
    (hle : fs.contents.length ≤ fs'.contents.length) (hsame : ∀ i, fs'.holder i = some p → fs.holder i = some p) :
    Framed p fs fs'' := by
  refine ⟨fun q hq => (h'.fd q hq).trans (h.fd q hq), fun i q hq => (h'.holder i q hq).trans (h.holder i q hq),
    fun i hi hne => ?_⟩
  exact (h'.content i (Nat.lt_of_lt_of_le hi hle) fun he => hne (hsame i he)).trans (h.content i hi hne)

lemma framed_unlink (fs : Files ι α) (p : ι) : Framed p fs fs.unlink :=
  ⟨fun _ _ => rfl, fun _ _ _ => Iff.rfl, fun _ _ _ => rfl⟩

lemma wf_unlink (hw : fs.Wf) : fs.unlink.Wf := ⟨fun _ hi => (Option.some_ne_none _ hi.symm).elim, hw.opened, hw.held⟩

lemma content_apply_self {zero : α} {i : ℕ} (hi : i < fs.contents.length) {op : Op α} {c : List α}
    (h : Op.apply zero (some (fs.content i)) op = some c) : (fs.apply zero i op).content i = c := by
  rw [content, apply, h, List.getD_eq_getElem?_getD, List.getElem?_set_self hi]
  rfl

lemma framed_apply {zero : α} {i : ℕ} (h : fs.holder i = some p) (op : Op α) :
    Framed p fs (fs.apply zero i op) := by
  refine ⟨fun _ _ => rfl, fun _ _ _ => Iff.rfl, fun j _ hne => ?_⟩
  have hij : i ≠ j := by
    rintro rfl
    exact hne h
  rw [content, content, apply, List.getD_eq_getElem?_getD, List.getElem?_set_ne hij, ← List.getD_eq_getElem?_getD]

lemma wf_apply (hw : fs.Wf) (zero : α) (i : ℕ) (op : Op α) : (fs.apply zero i op).Wf := by
  refine ⟨fun j hj => ?_, fun q d hq => ?_, hw.held⟩
  · show j < (fs.contents.set i _).length
    rw [List.length_set]
    exact hw.named j hj
  · show d.inode < (fs.contents.set i _).length
    rw [List.length_set]
    exact hw.opened q d hq

variable [DecidableEq ι]

lemma openFile_cases {create : Bool} (h : fs.openFile p create = some fs') :
    ∃ i, fs'.entry = some i ∧ fs'.fd = Function.update fs.fd p (some ⟨i, 0⟩) ∧ fs'.holder = fs.holder ∧
      ((fs.entry = some i ∧ fs'.contents = fs.contents) ∨
        (fs.entry = none ∧ i = fs.contents.length ∧ fs'.contents = fs.contents ++ [[]])) := by
  unfold openFile at h
  split at h
  · next i hentry =>
    obtain rfl := Option.some.inj h
    exact ⟨i, hentry, rfl, rfl, Or.inl ⟨hentry, rfl⟩⟩
  · next hentry =>
    obtain rfl := Option.some.inj h
    exact ⟨_, rfl, rfl, rfl, Or.inr ⟨hentry, rfl, rfl⟩⟩
  · cases h

lemma framed_openFile {create : Bool} (h : fs.openFile p create = some fs') : Framed p fs fs' := by
  obtain ⟨i, -, hfd, hholder, hcases⟩ := openFile_cases h
  refine ⟨fun q hq => by rw [hfd, Function.update_of_ne hq], fun j q _ => by rw [hholder], fun j hj _ => ?_⟩
  rcases hcases with ⟨-, hc⟩ | ⟨-, -, hc⟩
  · rw [content, content, hc]
  · rw [content, content, hc, List.getD_append _ _ _ _ hj]

lemma wf_openFile {create : Bool} (hw : fs.Wf) (hp : fs.fd p = none) (h : fs.openFile p create = some fs') : fs'.Wf := by
  obtain ⟨i, hentry, hfd, hholder, hcases⟩ := openFile_cases h
  have hi : i < fs'.contents.length := by
    rcases hcases with ⟨he, hc⟩ | ⟨-, rfl, hc⟩
    · rw [hc]
      exact hw.named i he
    · simp [hc]
  have hle : fs.contents.length ≤ fs'.contents.length := by
    rcases hcases with ⟨-, hc⟩ | ⟨-, -, hc⟩ <;> simp [hc]
  refine ⟨fun j hj => ?_, fun q d hq => ?_, fun j q hq => ?_⟩
  · obtain rfl : i = j := Option.some.inj (hentry.symm.trans hj)
    exact hi
  · rw [hfd, Function.update_apply] at hq
    split at hq
    · obtain rfl := Option.some.inj hq
      exact hi
    · exact Nat.lt_of_lt_of_le (hw.opened q d hq) hle
  · rw [hholder] at hq
    obtain ⟨d, hd, hj⟩ := hw.held j q hq
    have hne : q ≠ p := by
      rintro rfl
      rw [hp] at hd
      cases hd
    exact ⟨d, by rw [hfd, Function.update_of_ne hne, hd], hj⟩

lemma lock_cases (h : fs.lock p = some fs') : ∃ d, fs.fd p = some d ∧
    (fs.holder d.inode = none ∨ fs.holder d.inode = some p) ∧
    fs' = { fs with holder := Function.update fs.holder d.inode (some p) } := by
  unfold lock at h
  split at h
  · cases h
  · next d hd =>
    split at h
    · next hfree => exact ⟨d, hd, hfree, (Option.some.inj h).symm⟩
    · cases h

lemma framed_lock (h : fs.lock p = some fs') : Framed p fs fs' := by
  obtain ⟨d, -, hfree, rfl⟩ := lock_cases h
  refine ⟨fun _ _ => rfl, fun i q hq => ?_, fun _ _ _ => rfl⟩
  show Function.update fs.holder d.inode (some p) i = some q ↔ _
  rw [Function.update_apply]
  split
  · next hi =>
    subst hi
    rcases hfree with hfree | hfree <;> simp [hfree, Ne.symm hq]
  · exact Iff.rfl

lemma wf_lock (hw : fs.Wf) (h : fs.lock p = some fs') : fs'.Wf := by
  obtain ⟨d, hd, -, rfl⟩ := lock_cases h
  refine ⟨hw.named, hw.opened, fun i q hq => ?_⟩
  have hq : Function.update fs.holder d.inode (some p) i = some q := hq
  rw [Function.update_apply] at hq
  split at hq
  · next hi =>
    obtain rfl := Option.some.inj hq
    exact ⟨d, hd, hi.symm⟩
  · exact hw.held i q hq

lemma framed_close (fs : Files ι α) (p : ι) : Framed p fs (fs.close p) := by
  refine ⟨fun q hq => Function.update_of_ne hq _ _, fun i q hq => ?_, fun _ _ _ => rfl⟩
  show (if fs.holder i = some p then none else fs.holder i) = some q ↔ _
  split
  · next hi => simp [hi, Ne.symm hq]
  · exact Iff.rfl

lemma wf_close (hw : fs.Wf) : (fs.close p).Wf := by
  refine ⟨hw.named, fun q d hq => ?_, fun i q hq => ?_⟩
  · have hq : Function.update fs.fd p none q = some d := hq
    rw [Function.update_apply] at hq
    split at hq
    · cases hq
    · exact hw.opened q d hq
  · have hq : (if fs.holder i = some p then none else fs.holder i) = some q := hq
    split at hq
    · cases hq
    · next hne =>
      obtain ⟨d, hd, hi⟩ := hw.held i q hq
      have hqp : q ≠ p := by
        intro he
        exact hne (he ▸ hq)
      exact ⟨d, (Function.update_of_ne hqp _ _).trans hd, hi⟩

lemma framed_seek (fs : Files ι α) (p : ι) (pos : ℕ) : Framed p fs (fs.seek p pos) :=
  ⟨fun _ hq => Function.update_of_ne hq _ _, fun _ _ _ => Iff.rfl, fun _ _ _ => rfl⟩

lemma fd_seek {d : Descriptor} (hd : fs.fd p = some d) (pos : ℕ) : (fs.seek p pos).fd p = some ⟨d.inode, pos⟩ := by
  show Function.update fs.fd p _ p = _
  rw [Function.update_self, hd]
  rfl

lemma wf_seek (hw : fs.Wf) (pos : ℕ) : (fs.seek p pos).Wf := by
  have hfd : ∀ q d, fs.fd q = some d → ∃ d', (fs.seek p pos).fd q = some d' ∧ d'.inode = d.inode := by
    intro q d hd
    by_cases hq : q = p
    · subst hq
      exact ⟨_, fd_seek hd pos, rfl⟩
    · exact ⟨d, (Function.update_of_ne hq _ _).trans hd, rfl⟩
  refine ⟨hw.named, fun q d hq => ?_, fun i q hq => ?_⟩
  · have hq : Function.update fs.fd p ((fs.fd p).map fun d => { d with pos }) q = some d := hq
    rw [Function.update_apply] at hq
    split at hq
    · obtain ⟨d', hd', rfl⟩ := Option.map_eq_some_iff.mp hq
      exact hw.opened p d' hd'
    · exact hw.opened q d hq
  · obtain ⟨d, hd, hi⟩ := hw.held i q hq
    obtain ⟨d', hd', he⟩ := hfd q d hd
    exact ⟨d', hd', he.trans hi⟩

lemma framed_seekEnd (fs : Files ι α) (p : ι) : Framed p fs (fs.seekEnd p) := by
  unfold seekEnd
  split
  · exact Framed.refl p fs
  · exact framed_seek fs p _

lemma wf_seekEnd (hw : fs.Wf) : (fs.seekEnd p).Wf := by
  unfold seekEnd
  split
  · exact hw
  · exact wf_seek hw _

lemma framed_read (fs : Files ι α) (p : ι) (count : ℕ) : Framed p fs (fs.read p count).2 := by
  unfold read
  split
  · exact Framed.refl p fs
  · exact framed_seek fs p _

lemma wf_read (hw : fs.Wf) (count : ℕ) : (fs.read p count).2.Wf := by
  unfold read
  split
  · exact hw
  · exact wf_seek hw _

/-! ### The one that holds the lock -/

/-- `p` has the lock of the file that it has open; there it is at `pos`. -/
def Owns (fs : Files ι α) (p : ι) (content : List α) (pos : ℕ) : Prop :=
  ∃ i, fs.fd p = some ⟨i, pos⟩ ∧ fs.holder i = some p ∧ fs.content i = content

namespace Owns

variable {content : List α} {pos : ℕ}

omit [DecidableEq ι] in
/-- The others leave it alone. -/
lemma of_framed {q : ι} (hq : q ≠ p) (hw : fs.Wf) (hf : Framed p fs fs') (h : fs.Owns q content pos) :
    fs'.Owns q content pos := by
  obtain ⟨i, hd, hi, hc⟩ := h
  have hne : fs.holder i ≠ some p := by
    rw [hi]
    exact fun he => hq (Option.some.inj he)
  exact ⟨i, (hf.fd q hq).trans hd, (hf.holder i q hq).mpr hi,
    (hf.content i (hw.opened q _ hd) hne).trans hc⟩

lemma of_lock (h : fs.lock p = some fs') {i : ℕ} (hd : fs.fd p = some ⟨i, pos⟩) :
    fs'.Owns p (fs.content i) pos := by
  obtain ⟨d, hd', -, rfl⟩ := lock_cases h
  obtain rfl := Option.some.inj (hd.symm.trans hd')
  exact ⟨i, hd, Function.update_self _ _ _, rfl⟩

lemma seek (h : fs.Owns p content pos) (pos' : ℕ) : (fs.seek p pos').Owns p content pos' := by
  obtain ⟨i, hd, hi, hc⟩ := h
  exact ⟨i, fd_seek hd pos', hi, hc⟩

lemma seekEnd (h : fs.Owns p content pos) : (fs.seekEnd p).Owns p content content.length := by
  obtain ⟨i, hd, hi, hc⟩ := h
  rw [Files.seekEnd, hd]
  dsimp only
  rw [hc]
  exact seek ⟨i, hd, hi, hc⟩ _

lemma read (h : fs.Owns p content pos) (count : ℕ) : (fs.read p count).1 = (content.drop pos).take count ∧
    (fs.read p count).2.Owns p content (pos + (fs.read p count).1.length) := by
  obtain ⟨i, hd, hi, hc⟩ := h
  subst hc
  rw [Files.read, hd]
  exact ⟨rfl, seek ⟨i, hd, hi, rfl⟩ _⟩

/-- What is written at the end is appended. -/
lemma write (zero : α) (hw : fs.Wf) (h : fs.Owns p content content.length) (bytes : List α) :
    (fs.write p zero bytes).Owns p (content ++ bytes) (content ++ bytes).length := by
  obtain ⟨i, hd, hi, hc⟩ := h
  have happly : Op.apply zero (some (fs.content i)) (.write content.length bytes) = some (content ++ bytes) := by
    rw [hc]
    exact apply_write_end zero content bytes
  have howns : (fs.apply zero i (.write content.length bytes)).Owns p (content ++ bytes) content.length :=
    ⟨i, hd, hi, content_apply_self (hw.opened p _ hd) happly⟩
  rw [Files.write, hd, List.length_append]
  exact howns.seek _

omit [DecidableEq ι] in
/-- Nothing is left of a file that is truncated to nothing. -/
lemma truncate_zero (zero : α) (hw : fs.Wf) (h : fs.Owns p content pos) :
    (fs.truncate p zero 0).Owns p [] pos := by
  obtain ⟨i, hd, hi, hc⟩ := h
  rw [truncate, hd]
  exact ⟨i, hd, hi, content_apply_self (hw.opened p _ hd) (by simp [Op.apply, resize])⟩

lemma framed_write (zero : α) (h : fs.Owns p content pos) (bytes : List α) :
    Framed p fs (fs.write p zero bytes) := by
  obtain ⟨i, hd, hi, -⟩ := h
  have happly : Framed p fs (fs.apply zero i (.write pos bytes)) := framed_apply hi _
  have hseek := framed_seek (fs.apply zero i (.write pos bytes)) p (pos + bytes.length)
  rw [Files.write, hd]
  refine ⟨fun q hq => (hseek.fd q hq).trans (happly.fd q hq),
    fun j q hq => (hseek.holder j q hq).trans (happly.holder j q hq), fun j hj hne => ?_⟩
  exact happly.content j hj hne

omit [DecidableEq ι] in
lemma framed_truncate (zero : α) (h : fs.Owns p content pos) (length : ℕ) :
    Framed p fs (fs.truncate p zero length) := by
  obtain ⟨i, hd, hi, -⟩ := h
  rw [truncate, hd]
  exact framed_apply hi _

end Owns

lemma wf_write (zero : α) (hw : fs.Wf) (bytes : List α) : (fs.write p zero bytes).Wf := by
  unfold write
  split
  · exact hw
  · exact wf_seek (wf_apply hw zero _ _) _

omit [DecidableEq ι] in
lemma wf_truncate (zero : α) (hw : fs.Wf) (length : ℕ) : (fs.truncate p zero length).Wf := by
  unfold truncate
  split
  · exact hw
  · exact wf_apply hw zero _ _

/-! ### Growth -/

/-- Every file holds what it held, and perhaps more. -/
def Grows (fs fs' : Files ι α) : Prop := ∀ i < fs.contents.length, fs.content i <+: fs'.content i

omit [DecidableEq ι] in
lemma Grows.of_contents (h : fs'.contents = fs.contents) : Grows fs fs' := by
  intro i _
  simp only [content, h, List.prefix_refl]

lemma grows_openFile {create : Bool} (h : fs.openFile p create = some fs') : Grows fs fs' := by
  obtain ⟨_, -, -, -, ⟨-, hc⟩ | ⟨-, -, hc⟩⟩ := openFile_cases h
  · exact Grows.of_contents hc
  · intro i hi
    simp only [content, hc, List.getD_append _ _ _ _ hi, List.prefix_refl]

lemma grows_lock (h : fs.lock p = some fs') : Grows fs fs' := by
  obtain ⟨_, -, -, rfl⟩ := lock_cases h
  exact Grows.of_contents rfl

lemma grows_read (fs : Files ι α) (p : ι) (count : ℕ) : Grows fs (fs.read p count).2 := by
  unfold read
  split
  · exact Grows.of_contents rfl
  · exact Grows.of_contents rfl

lemma grows_seekEnd (fs : Files ι α) (p : ι) : Grows fs (fs.seekEnd p) := by
  unfold seekEnd
  split
  · exact Grows.of_contents rfl
  · exact Grows.of_contents rfl

/-- A file grows when the one that holds its lock writes at its end. -/
lemma grows_write {zero : α} {content bytes : List α} (hw : fs.Wf) (h : fs.Owns p content content.length) :
    Grows fs (fs.write p zero bytes) := by
  intro j hj
  by_cases hne : fs.holder j = some p
  · obtain ⟨i, hd, -, hc⟩ := h
    obtain ⟨_, hd', rfl⟩ := hw.held j p hne
    obtain rfl := Option.some.inj (hd.symm.trans hd')
    obtain ⟨i', hd'', -, hc'⟩ := Owns.write zero hw ⟨i, hd, hne, hc⟩ bytes
    have hi : i' = i := by
      rw [write, hd] at hd''
      exact (congrArg Descriptor.inode (Option.some.inj ((fd_seek hd _).symm.trans hd''))).symm
    subst hi
    rw [hc', hc]
    exact List.prefix_append _ _
  · simp only [(h.framed_write zero bytes).content j hj hne, List.prefix_refl]

/-! ### The name -/

/-- Every open file is the one that the name stands for. -/
def Named (fs : Files ι α) : Prop := ∀ p d, fs.fd p = some d → fs.entry = some d.inode

omit [DecidableEq ι] in
lemma named_initial (content : Option (List α)) : (initial content : Files ι α).Named := by simp [Named, initial]

omit [DecidableEq ι] in
/-- Without the name, only closed files are fine. -/
lemma named_unlink : fs.unlink.Named ↔ ∀ p, fs.fd p = none := by
  constructor
  · intro h p
    by_contra hne
    obtain ⟨d, hd⟩ := Option.ne_none_iff_exists'.mp hne
    exact absurd (h p d hd) (by simp [unlink])
  · intro h p d hd
    have hd : fs.fd p = some d := hd
    rw [h p] at hd
    cases hd

omit [DecidableEq ι] in
/-- Descriptors that stay on their files stay on the one with the name. -/
lemma Named.of_inodes (h : fs.Named) (hentry : fs'.entry = fs.entry)
    (hfd : ∀ q d', fs'.fd q = some d' → ∃ d, fs.fd q = some d ∧ d.inode = d'.inode) : fs'.Named := by
  intro q d' hd'
  obtain ⟨d, hd, hi⟩ := hfd q d' hd'
  rw [hentry, h q d hd, hi]

lemma Named.openFile {create : Bool} (hn : fs.Named) (h : fs.openFile p create = some fs') : fs'.Named := by
  obtain ⟨i, hentry, hfd, -, hcases⟩ := openFile_cases h
  intro q d hd
  rw [hfd, Function.update_apply] at hd
  split at hd
  · obtain rfl := Option.some.inj hd
    exact hentry
  · rcases hcases with ⟨he, -⟩ | ⟨he, -⟩
    · rw [hentry, ← he]
      exact hn q d hd
    · have := hn q d hd
      rw [he] at this
      cases this

lemma Named.close (hn : fs.Named) (p : ι) : (fs.close p).Named := by
  refine hn.of_inodes rfl fun q d' hd' => ?_
  have hd' : Function.update fs.fd p none q = some d' := hd'
  rw [Function.update_apply] at hd'
  split at hd'
  · cases hd'
  · exact ⟨d', hd', rfl⟩

lemma Named.seek (hn : fs.Named) (p : ι) (pos : ℕ) : (fs.seek p pos).Named := by
  refine hn.of_inodes rfl fun q d' hd' => ?_
  have hd' : Function.update fs.fd p ((fs.fd p).map fun d => { d with pos }) q = some d' := hd'
  rw [Function.update_apply] at hd'
  split at hd'
  · next hq =>
    obtain ⟨d, hd, rfl⟩ := Option.map_eq_some_iff.mp hd'
    exact ⟨d, hq ▸ hd, rfl⟩
  · exact ⟨d', hd', rfl⟩

/-! ### Operations that truncate and unlink nothing -/

/-- What `p` does to the files without truncating or unlinking any. -/
inductive Plain (zero : α) (p : ι) (fs : Files ι α) : Files ι α → Prop
  | none : Plain zero p fs fs
  | openFile {fs' : Files ι α} {create : Bool} (hp : fs.fd p = .none) (h : fs.openFile p create = some fs') :
      Plain zero p fs fs'
  | lock {fs' : Files ι α} (h : fs.lock p = some fs') : Plain zero p fs fs'
  | close : Plain zero p fs (fs.close p)
  | read (count : ℕ) : Plain zero p fs (fs.read p count).2
  | seekEnd : Plain zero p fs (fs.seekEnd p)
  | write {content : List α} (h : fs.Owns p content content.length) (bytes : List α) :
      Plain zero p fs (fs.write p zero bytes)

namespace Plain

variable {zero : α}

lemma wf (h : Plain zero p fs fs') (hw : fs.Wf) : fs'.Wf := by
  cases h with
  | none => exact hw
  | openFile hp h => exact wf_openFile hw hp h
  | lock h => exact wf_lock hw h
  | close => exact wf_close hw
  | read count => exact wf_read hw count
  | seekEnd => exact wf_seekEnd hw
  | write h bytes => exact wf_write zero hw bytes

lemma framed (h : Plain zero p fs fs') : Framed p fs fs' := by
  cases h with
  | none => exact Framed.refl p fs
  | openFile hp h => exact framed_openFile h
  | lock h => exact framed_lock h
  | close => exact framed_close fs p
  | read count => exact framed_read fs p count
  | seekEnd => exact framed_seekEnd fs p
  | write h bytes => exact h.framed_write zero bytes

lemma grows (h : Plain zero p fs fs') (hw : fs.Wf) : Grows fs fs' := by
  cases h with
  | none => exact Grows.of_contents rfl
  | openFile hp h => exact grows_openFile h
  | lock h => exact grows_lock h
  | close => exact Grows.of_contents rfl
  | read count => exact grows_read fs p count
  | seekEnd => exact grows_seekEnd fs p
  | write h bytes => exact grows_write hw h

lemma named (h : Plain zero p fs fs') (hn : fs.Named) : fs'.Named := by
  cases h with
  | none => exact hn
  | openFile hp h => exact hn.openFile h
  | lock h =>
    obtain ⟨_, -, -, rfl⟩ := lock_cases h
    exact hn
  | close => exact hn.close p
  | read count =>
    unfold Files.read
    split
    · exact hn
    · exact hn.seek p _
  | seekEnd =>
    unfold Files.seekEnd
    split
    · exact hn
    · exact hn.seek p _
  | write h bytes =>
    unfold Files.write
    split
    · exact hn
    · exact Named.seek (show (fs.apply zero _ _).Named from hn) p _

end Plain

end Files

/-! ### Reading while the file grows -/

/-- A reader has read the first `got.length` bytes of a file, which held `start` when the reading began. -/
structure Reading (start got content : List α) : Prop where
  start : start <+: content
  got : got <+: content

namespace Reading

variable {start got content content' : List α}

lemma begin (content : List α) : Reading content [] content := ⟨List.prefix_refl _, List.nil_prefix⟩

/-- The file grows. -/
lemma grow (h : Reading start got content) (hc : content <+: content') : Reading start got content' :=
  ⟨h.start.trans hc, h.got.trans hc⟩

/-- A chunk more. -/
lemma chunk (h : Reading start got content) (count : ℕ) :
    Reading start (got ++ (content.drop got.length).take count) content := by
  obtain ⟨rest, rfl⟩ := h.got
  refine ⟨h.start, ?_⟩
  rw [List.drop_left, List.prefix_append_right_inj]
  exact List.take_prefix _ _

/-- At the end of the file, the reader has at least what was there at first. -/
lemma whole (h : Reading start got content) {count : ℕ} (hcount : count ≠ 0)
    (hend : (content.drop got.length).take count = []) : got = content ∧ start <+: got := by
  obtain ⟨rest, rfl⟩ := h.got
  rw [List.drop_left, List.take_eq_nil_iff] at hend
  obtain rfl := hend.resolve_left hcount
  rw [List.append_nil] at h ⊢
  exact ⟨rfl, h.start⟩

end Reading

end Kanta.Lib.Descriptors
