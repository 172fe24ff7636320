import Kanta.Lib.Disk
import Kanta.Lib.Lts
import Kanta.Rotated

/-!
# Crashes during a rotation

`execute_rotation` copies the file, replaces its content and trims the copy.  `copy2` writes the copy
and does not sync it; only `replace_content` ends in a sync, of the file itself.  A crash may come
in front of any step.
-/

namespace Kanta

open Kanta.Lib.Disk Kanta.Lib.Lts

/-! ### The two files -/

/-- Where `execute_rotation` is. -/
inductive RotationPhase where
  /-- the name of the copy has been chosen -/
  | named
  /-- in `copy2`, with so many bytes copied -/
  | copying (done : ℕ)
  /-- behind `copy2` -/
  | copied
  /-- in `replace_content`, truncated and with so many bytes written -/
  | writing (done : ℕ)
  /-- behind `fdatasync` -/
  | replaced
  /-- behind `f.truncate(plan.cutoff_end)` -/
  | trimmed
deriving DecidableEq

/-- In front of the truncation. -/
def RotationPhase.Untouched : RotationPhase → Prop
  | .named | .copying _ | .copied => True
  | .writing _ | .replaced | .trimmed => False

/-- Behind the sync of the new content. -/
def RotationPhase.Rewritten : RotationPhase → Prop
  | .named | .copying _ | .copied | .writing _ => False
  | .replaced | .trimmed => True

/-- One step, with the number of bytes that a write takes. -/
inductive RotationStep where
  | create
  | copy (count : ℕ)
  | copyEnd
  | truncate
  | write (count : ℕ)
  | sync
  | trim

/-- The database file and the rotated one. -/
structure Rotating where
  main : File UInt8
  rotated : File UInt8
  phase : RotationPhase

namespace Rotating

/-- Before the copy: the file is durable, the rotated one does not exist. -/
def start (original : Bytes) : Rotating := ⟨⟨some original, []⟩, ⟨none, []⟩, .named⟩

variable (original : Bytes) (plan : RotationPlan)

/-- `execute_rotation`, with `copy2`, `_replace_content_unix` and the trimming step by step. -/
def step (s : Rotating) : RotationStep → Option Rotating
  | .create =>
    if s.phase = .named then some { s with rotated := s.rotated.push .create, phase := .copying 0 } else none
  | .copy count =>
    match s.phase with
    | .copying done =>
      if done + count ≤ original.length then
        some { s with
          rotated := s.rotated.push (.write done ((original.drop done).take count))
          phase := .copying (done + count) }
      else none
    | _ => none
  | .copyEnd => if s.phase = .copying original.length then some { s with phase := .copied } else none
  | .truncate =>
    if s.phase = .copied then some { s with main := s.main.push (.truncate 0), phase := .writing 0 } else none
  | .write count =>
    match s.phase with
    | .writing done =>
      if done + count ≤ plan.newContent.length then
        some { s with
          main := s.main.push (.write done ((plan.newContent.drop done).take count))
          phase := .writing (done + count) }
      else none
    | _ => none
  | .sync =>
    if s.phase = .writing plan.newContent.length then some { s with main := s.main.sync 0, phase := .replaced }
    else none
  | .trim =>
    if s.phase = .replaced then
      some { s with rotated := s.rotated.push (.truncate plan.cutoffEnd), phase := .trimmed }
    else none

/-- Whatever a crash loses, what is left is enough to go on: the original in one of the files, or the
new content in the one and the history in front of it in the other. -/
def Recoverable (s : Rotating) : Prop :=
  s.main.Durable 0 original ∨ s.rotated.Durable 0 original ∨
    (s.main.Durable 0 plan.newContent ∧ ∀ left, s.rotated.Survives 0 left →
      ∃ content, left = some content ∧ original.take plan.cutoffEnd <+: content)

/-! ### What holds at each step -/

/-- The rotated file is a copy that nothing has made durable. -/
def Copy (s : Rotating) (content : Bytes) : Prop :=
  s.rotated.synced = none ∧ s.rotated.visible 0 = some content

/-- Where the two files are. -/
def At (s : Rotating) : Prop :=
  match s.phase with
  | .named => s.main = ⟨some original, []⟩ ∧ s.rotated = ⟨none, []⟩
  | .copying done => s.main = ⟨some original, []⟩ ∧ done ≤ original.length ∧ s.Copy (original.take done)
  | .copied => s.main = ⟨some original, []⟩ ∧ s.Copy original
  | .writing done =>
    s.main.synced = some original ∧ (∃ ops, s.main.pending = .truncate 0 :: ops) ∧
      s.main.visible 0 = some (plan.newContent.take done) ∧ done ≤ plan.newContent.length ∧ s.Copy original
  | .replaced => s.main = ⟨some plan.newContent, []⟩ ∧ s.Copy original
  | .trimmed => s.main = ⟨some plan.newContent, []⟩ ∧ s.Copy (resize 0 plan.cutoffEnd original)

variable {original plan}

lemma at_start : (start original).At original plan := ⟨rfl, rfl⟩

/-- A chunk is written behind the ones before it. -/
lemma apply_chunk (content : Bytes) {done count : ℕ} (h : done + count ≤ content.length) :
    Op.apply 0 (some (content.take done)) (.write done ((content.drop done).take count)) =
      some (content.take (done + count)) := by
  have hlen : (content.take done).length = done := by
    rw [List.length_take]
    omega
  have happly := apply_write_end 0 (content.take done) ((content.drop done).take count)
  rw [hlen] at happly
  rw [happly, List.take_add]

/-- **One step** keeps the files where the phase says. -/
lemma At.step {s s' : Rotating} {e : RotationStep} (h : s.At original plan)
    (hstep : Rotating.step original plan s e = some s') : s'.At original plan := by
  obtain ⟨main, rotated, phase⟩ := s
  cases e with
  | create =>
    rw [Rotating.step] at hstep
    split at hstep
    · rename_i hphase
      obtain rfl : phase = .named := hphase
      obtain ⟨rfl, rfl⟩ : main = ⟨some original, []⟩ ∧ rotated = ⟨none, []⟩ := h
      rw [← Option.some.inj hstep]
      exact ⟨rfl, Nat.zero_le _, rfl, rfl⟩
    · simp at hstep
  | copy count =>
    rw [Rotating.step] at hstep
    cases phase with
    | copying done =>
      dsimp only at hstep
      split at hstep
      · rename_i hcount
        obtain ⟨hmain, -, hsynced, hvisible⟩ := h
        rw [← Option.some.inj hstep]
        refine ⟨hmain, hcount, hsynced, ?_⟩
        rw [File.visible_push, hvisible, apply_chunk original hcount]
      · simp at hstep
    | _ => simp at hstep
  | copyEnd =>
    rw [Rotating.step] at hstep
    split at hstep
    · rename_i hphase
      obtain rfl : phase = .copying original.length := hphase
      obtain ⟨hmain, -, hsynced, hvisible⟩ := h
      rw [← Option.some.inj hstep]
      rw [List.take_length] at hvisible
      exact ⟨hmain, hsynced, hvisible⟩
    · simp at hstep
  | truncate =>
    rw [Rotating.step] at hstep
    split at hstep
    · rename_i hphase
      obtain rfl : phase = .copied := hphase
      obtain ⟨rfl, hcopy⟩ : main = ⟨some original, []⟩ ∧ _ := h
      rw [← Option.some.inj hstep]
      refine ⟨rfl, ⟨[], rfl⟩, ?_, Nat.zero_le _, hcopy⟩
      simp [File.visible, File.push, Op.apply, resize]
    · simp at hstep
  | write count =>
    rw [Rotating.step] at hstep
    cases phase with
    | writing done =>
      dsimp only at hstep
      split at hstep
      · rename_i hcount
        obtain ⟨hsynced, ⟨ops, hops⟩, hvisible, -, hcopy⟩ := h
        rw [← Option.some.inj hstep]
        refine ⟨hsynced, ⟨ops ++ _, by rw [File.pending_push, hops]; rfl⟩, ?_, hcount, hcopy⟩
        rw [File.visible_push, hvisible, apply_chunk plan.newContent hcount]
      · simp at hstep
    | _ => simp at hstep
  | sync =>
    rw [Rotating.step] at hstep
    split at hstep
    · rename_i hphase
      obtain rfl : phase = .writing plan.newContent.length := hphase
      obtain ⟨-, -, hvisible, -, hcopy⟩ := h
      rw [← Option.some.inj hstep]
      rw [List.take_length] at hvisible
      exact ⟨by rw [File.sync, hvisible], hcopy⟩
    · simp at hstep
  | trim =>
    rw [Rotating.step] at hstep
    split at hstep
    · rename_i hphase
      obtain rfl : phase = .replaced := hphase
      obtain ⟨hmain, hsynced, hvisible⟩ := h
      rw [← Option.some.inj hstep]
      refine ⟨hmain, hsynced, ?_⟩
      rw [File.visible_push, hvisible]
      rfl
    · simp at hstep

lemma at_of_reach {s : Rotating}
    (h : Reach (Rotating.step original plan) (fun _ _ _ => True) (start original) s) : s.At original plan :=
  h.invariant at_start fun _ _ _ hs he _ => hs.step he

/-- A crash may leave no copy at all: nothing syncs it. -/
lemma At.copy_lost {s : Rotating} (h : s.At original plan) : s.rotated.Survives 0 none := by
  have hsynced : s.rotated.synced = none := by
    obtain ⟨main, rotated, phase⟩ := s
    cases phase with
    | named =>
      obtain ⟨-, rfl⟩ : main = ⟨some original, []⟩ ∧ rotated = ⟨none, []⟩ := h
      rfl
    | copying done => exact h.2.2.1
    | copied => exact h.2.1
    | writing done => exact h.2.2.2.2.1
    | replaced => exact h.2.1
    | trimmed => exact h.2.1
  rw [← hsynced]
  exact File.survives_synced

/-- While the file is written, its content may be lost as well. -/
lemma At.not_durable {s : Rotating} (h : s.At original plan) (hne : original ≠ []) {done : ℕ}
    (hphase : s.phase = .writing done) (c : Bytes) : ¬s.main.Durable 0 c := by
  obtain ⟨main, rotated, phase⟩ := s
  obtain rfl : phase = .writing done := hphase
  obtain ⟨hsynced, ⟨ops, hops⟩, -⟩ := h
  have hsynced : main.synced = some original := hsynced
  apply File.not_durable hops
  rw [hsynced]
  simp [Op.apply, resize, hne.symm]

/-- As the copy may be lost, only the original in the file itself is enough. -/
lemma At.recoverable_iff_durable {s : Rotating} (h : s.At original plan) :
    s.Recoverable original plan ↔ s.main.Durable 0 original := by
  constructor
  · rintro (hmain | hrotated | ⟨-, hprefix⟩)
    · exact hmain
    · cases hrotated none h.copy_lost
    · obtain ⟨left, hleft, -⟩ := hprefix none h.copy_lost
      cases hleft
  · exact Or.inl

/-- **When a rotation can be recovered after a crash**: until the file is truncated, or if the new
content is the original. -/
theorem recoverable_iff (hne : original ≠ []) {s : Rotating}
    (h : Reach (Rotating.step original plan) (fun _ _ _ => True) (start original) s) :
    s.Recoverable original plan ↔
      s.phase.Untouched ∨ (s.phase.Rewritten ∧ plan.newContent = original) := by
  have hat := at_of_reach h
  rw [hat.recoverable_iff_durable]
  obtain ⟨main, rotated, phase⟩ := s
  cases phase with
  | named => exact iff_of_true (File.durable_of_synced hat.1) (Or.inl trivial)
  | copying done => exact iff_of_true (File.durable_of_synced hat.1) (Or.inl trivial)
  | copied => exact iff_of_true (File.durable_of_synced hat.1) (Or.inl trivial)
  | writing done =>
    exact iff_of_false (hat.not_durable hne rfl original) (by simp [RotationPhase.Untouched, RotationPhase.Rewritten])
  | replaced =>
    obtain ⟨rfl, -⟩ : main = ⟨some plan.newContent, []⟩ ∧ _ := hat
    simp [RotationPhase.Untouched, RotationPhase.Rewritten, File.durable_synced_iff]
  | trimmed =>
    obtain ⟨rfl, -⟩ : main = ⟨some plan.newContent, []⟩ ∧ _ := hat
    simp [RotationPhase.Untouched, RotationPhase.Rewritten, File.durable_synced_iff]

/-! ### A crash behind the truncation -/

/-- The copy is made in one write. -/
lemma reach_copied (original : Bytes) (plan : RotationPlan) :
    ∃ s, Reach (Rotating.step original plan) (fun _ _ _ => True) (start original) s ∧ s.phase = .copied := by
  have hcreate : Rotating.step original plan (start original) .create =
      some ⟨⟨some original, []⟩, ⟨none, [.create]⟩, .copying 0⟩ := rfl
  have hcopy : Rotating.step original plan ⟨⟨some original, []⟩, ⟨none, [.create]⟩, .copying 0⟩
      (.copy original.length) =
      some ⟨⟨some original, []⟩, ⟨none, [.create, .write 0 original]⟩, .copying original.length⟩ := by
    simp [Rotating.step, File.push]
  have hend : Rotating.step original plan
      ⟨⟨some original, []⟩, ⟨none, [.create, .write 0 original]⟩, .copying original.length⟩ .copyEnd =
      some ⟨⟨some original, []⟩, ⟨none, [.create, .write 0 original]⟩, .copied⟩ := by
    simp [Rotating.step]
  exact ⟨_, ((Reach.start.next hcreate trivial).next hcopy trivial).next hend trivial, rfl⟩

lemma reach_truncated (original : Bytes) (plan : RotationPlan) :
    ∃ s, Reach (Rotating.step original plan) (fun _ _ _ => True) (start original) s ∧ s.phase = .writing 0 := by
  obtain ⟨s, hs, hphase⟩ := reach_copied original plan
  have htruncate : Rotating.step original plan s .truncate =
      some { s with main := s.main.push (.truncate 0), phase := .writing 0 } := by
    rw [Rotating.step, if_pos hphase]
  exact ⟨_, hs.next htruncate trivial, rfl⟩

end Rotating

/-- A crash behind the truncation may leave an empty file and no copy. -/
theorem rotation_torn : ∃ content plan s,
    frameRecords Sample.noHash Sample.dated .line 0
        [.change (Sample.change 1 0 1), .change (Sample.change 3 0 2)] = .ok content ∧
      planRotation Sample.noHash Sample.dated Sample.bare .line content (Sample.day 2) (Sample.day 3) 100 =
        .ok (some plan) ∧
      Reach (Rotating.step content plan) (fun _ _ _ => True) (Rotating.start content) s ∧
      s.main.Survives 0 (some []) ∧ s.rotated.Survives 0 none ∧ ¬s.Recoverable content plan := by
  obtain ⟨run, hrun, hobs⟩ := Sample.exists_run
    [.change (Sample.change 1 0 1), .change (Sample.change 3 0 2)] (Sample.day 2) 100
    (fun run => !run.content.isEmpty) (by decide +kernel)
  obtain ⟨hcontent, hplan, -⟩ := Sample.rotate_ok hrun
  have hne : run.content ≠ [] := by simpa using hobs
  obtain ⟨s, hs, hphase⟩ := Rotating.reach_truncated run.content run.plan
  have hat := Rotating.at_of_reach hs
  have hmain := hat.not_durable hne hphase
  refine ⟨run.content, run.plan, s, hcontent, hplan, hs, ?_, hat.copy_lost, ?_⟩
  · rw [Rotating.At, hphase] at hat
    obtain ⟨hsynced, ⟨ops, hops⟩, -⟩ := hat
    have hfirst : s.main.Survives 0 (Op.apply 0 s.main.synced (.truncate 0)) := File.survives_first hops
    rw [hsynced] at hfirst
    simpa [Op.apply, resize] using hfirst
  · rw [hat.recoverable_iff_durable]
    exact hmain _

/-- Behind the copy, in front of the truncation. -/
theorem recoverable_copied : ∃ s, Reach (Rotating.step [1] ⟨[2], 0, Sample.ts, 0⟩) (fun _ _ _ => True)
    (Rotating.start [1]) s ∧ s.phase = .copied ∧ s.Recoverable [1] ⟨[2], 0, Sample.ts, 0⟩ := by
  obtain ⟨s, hs, hphase⟩ := Rotating.reach_copied [1] ⟨[2], 0, Sample.ts, 0⟩
  have huntouched : s.phase.Untouched := by simp [hphase, RotationPhase.Untouched]
  exact ⟨s, hs, hphase, (Rotating.recoverable_iff (by simp) hs).mpr (Or.inl huntouched)⟩

end Kanta
