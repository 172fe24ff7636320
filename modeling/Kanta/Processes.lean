import Kanta.Lib.Descriptors
import Kanta.Lib.Lts
import Kanta.Structs

/-!
# Instances that share a path

Instances in any number of processes open the same path, each through its own `LockedFile`: `flock` for a
writer, nothing for a reader.  Between any two system calls of one instance, the others make theirs; the
calls of one instance come one after the other.  `start` in a station, and for a writer the content, only
record what the file held.

A writer that fails in its bootstrap closes the file, which releases the lock, and unlinks the path
afterwards.
-/

namespace Kanta

open Kanta.Lib.Descriptors Kanta.Lib.Lts

/-- Where an instance is between `KantaImpl.open` and `close`. -/
inductive Station where
  | closed
  /-- behind `filename.exists()` -/
  | probed (create readonly existed : Bool)
  /-- behind `os.open`, in front of `flock` -/
  | opened (create existed : Bool)
  /-- in `_read_unix`; the file held `start` when it began -/
  | reading (create readonly existed : Bool) (start got : Bytes)
  /-- behind the check for an empty file -/
  | loaded (readonly : Bool) (start content : Bytes)
  /-- in `_replace_content_unix`, behind `ftruncate` -/
  | rewriting (written rest : Bytes)
  /-- at work -/
  | live (readonly : Bool) (content : Bytes)
  /-- in `_write_unix`, behind `lseek` -/
  | writing (content data : Bytes)
  /-- after a bootstrap that failed, behind `file.close()` -/
  | unlinking
deriving DecidableEq

/-- What an instance does next. -/
inductive Syscall where
  | probe (create readonly : Bool)
  | openFile
  | flock
  | read (count : ℕ)
  | rotate (newContent : Bytes)
  | rewrite (count : ℕ)
  | sync
  | enter
  | bootstrapFails
  | unlink
  | seekEnd (data : Bytes)
  | write (count : ℕ)
  | close
  | crash
deriving DecidableEq

/-- The path and the instances. -/
structure Processes (ι : Type*) where
  files : Files ι UInt8
  station : ι → Station

/-- `1 << 20` in `_read_unix`. -/
def readSize : ℕ := 1048576

variable {ι : Type*}

/-- What the file holds, for an instance that has its lock. -/
def Station.session : Station → Option Bytes
  | .reading _ false _ start _ => some start
  | .loaded false _ content => some content
  | .rewriting written _ => some written
  | .live false content => some content
  | .writing content _ => some content
  | _ => none

namespace Processes

/-- Nobody has the path open. -/
def start (content : Option Bytes) : Processes ι := ⟨.initial content, fun _ => .closed⟩

section

variable [DecidableEq ι]

/-- One system call of `p`, with what the code does about its result. -/
def act (fs : Files ι UInt8) (p : ι) : Station → Syscall → Option (Files ι UInt8 × Station)
  | .closed, .probe create readonly => some (fs, .probed create readonly fs.entry.isSome)
  | .probed create readonly existed, .openFile =>
    match fs.openFile p (create && !readonly) with
    | none => some (fs, .closed)
    | some fs' =>
      some (fs', if readonly then .reading create true existed (fs'.seen p) [] else .opened create existed)
  | .opened create existed, .flock =>
    match fs.lock p with
    | none => some (fs.close p, .closed)
    | some fs' => some (fs', .reading create false existed (fs'.seen p) [])
  | .reading create readonly existed start got, .read count =>
    if 0 < count ∧ count ≤ readSize then
      if (fs.read p count).1 ≠ [] then
        some ((fs.read p count).2, .reading create readonly existed start (got ++ (fs.read p count).1))
      else if create = false ∧ (existed = false ∨ got = []) then some (fs.close p, .closed)
      else some ((fs.read p count).2, .loaded readonly start got)
    else none
  | .loaded false _ content, .rotate newContent =>
    if content = [] then none else some ((fs.seek p 0).truncate p 0 0, .rewriting [] newContent)
  | .rewriting written rest, .rewrite count =>
    if 0 < count ∧ count ≤ rest.length then
      some (fs.write p 0 (rest.take count), .rewriting (written ++ rest.take count) (rest.drop count))
    else none
  | .rewriting written [], .sync => some (fs, .live false written)
  | .loaded readonly _ content, .enter =>
    if readonly = true ∧ content = [] then some (fs.close p, .closed) else some (fs, .live readonly content)
  | .loaded false _ [], .bootstrapFails => some (fs.close p, .unlinking)
  | .unlinking, .unlink => some (fs.unlink, .closed)
  | .live false content, .seekEnd data => some (fs.seekEnd p, .writing content data)
  | .writing content data, .write count =>
    some (fs.write p 0 (data.take count), .live false (content ++ data.take count))
  | .loaded _ _ _, .close => some (fs.close p, .closed)
  | .rewriting _ _, .close => some (fs.close p, .closed)
  | .live _ _, .close => some (fs.close p, .closed)
  | _, .crash => some (fs.close p, .closed)
  | _, _ => none

/-- A system call of one of the instances. -/
def step (s : Processes ι) (e : ι × Syscall) : Option (Processes ι) :=
  (act s.files e.1 (s.station e.1) e.2).map fun next => ⟨next.1, Function.update s.station e.1 next.2⟩

end

/-! ### What holds at each station -/

/-- What an instance has of the path. -/
def At (fs : Files ι UInt8) (p : ι) : Station → Prop
  | .closed => fs.fd p = none
  | .probed _ _ _ => fs.fd p = none
  | .unlinking => fs.fd p = none
  | .opened _ _ => ∃ i, fs.fd p = some ⟨i, 0⟩
  | .reading _ true _ _ got => ∃ i, fs.fd p = some ⟨i, got.length⟩
  | .reading _ false _ start got => got <+: start ∧ fs.Owns p start got.length
  | .loaded true _ _ => ∃ d, fs.fd p = some d
  | .loaded false start content => start = content ∧ ∃ pos, fs.Owns p content pos
  | .rewriting written _ => fs.Owns p written written.length
  | .live true _ => ∃ d, fs.fd p = some d
  | .live false content => ∃ pos, fs.Owns p content pos
  | .writing content _ => fs.Owns p content content.length

/-- The operations of the others change nothing of it. -/
lemma At.of_framed {fs fs' : Files ι UInt8} {p q : ι} (hq : q ≠ p) (hw : fs.Wf) (hf : Files.Framed p fs fs')
    {station : Station} (h : At fs q station) : At fs' q station := by
  have howns {content : Bytes} {pos : ℕ} (ho : fs.Owns q content pos) : fs'.Owns q content pos :=
    ho.of_framed hq hw hf
  cases station with
  | closed => exact (hf.fd q hq).trans h
  | probed => exact (hf.fd q hq).trans h
  | unlinking => exact (hf.fd q hq).trans h
  | opened =>
    obtain ⟨i, hi⟩ := h
    exact ⟨i, (hf.fd q hq).trans hi⟩
  | reading create readonly existed start got =>
    cases readonly with
    | true =>
      obtain ⟨i, hi⟩ := h
      exact ⟨i, (hf.fd q hq).trans hi⟩
    | false => exact ⟨h.1, howns h.2⟩
  | loaded readonly start content =>
    cases readonly with
    | true =>
      obtain ⟨d, hd⟩ := h
      exact ⟨d, (hf.fd q hq).trans hd⟩
    | false =>
      obtain ⟨rfl, pos, ho⟩ := h
      exact ⟨rfl, pos, howns ho⟩
  | rewriting => exact howns h
  | live readonly content =>
    cases readonly with
    | true =>
      obtain ⟨d, hd⟩ := h
      exact ⟨d, (hf.fd q hq).trans hd⟩
    | false =>
      obtain ⟨pos, ho⟩ := h
      exact ⟨pos, howns ho⟩
  | writing => exact howns h

variable [DecidableEq ι]

/-- What a system call of `p` does to the files. -/
inductive Effect (p : ι) (fs : Files ι UInt8) : Syscall → Files ι UInt8 → Prop
  | plain {call : Syscall} {fs' : Files ι UInt8} (hcall : call ≠ .unlink) (h : Files.Plain 0 p fs fs') :
      Effect p fs call fs'
  | rotate {content : Bytes} {pos : ℕ} (h : fs.Owns p content pos) (newContent : Bytes) :
      Effect p fs (.rotate newContent) ((fs.seek p 0).truncate p 0 0)
  | unlink : Effect p fs .unlink fs.unlink

namespace Effect

variable {fs fs' : Files ι UInt8} {p : ι} {call : Syscall}

lemma wf (h : Effect p fs call fs') (hw : fs.Wf) : fs'.Wf := by
  cases h with
  | plain _ h => exact h.wf hw
  | rotate h newContent => exact Files.wf_truncate 0 (Files.wf_seek hw 0) 0
  | unlink => exact Files.wf_unlink hw

lemma framed (h : Effect p fs call fs') : Files.Framed p fs fs' := by
  cases h with
  | plain _ h => exact h.framed
  | rotate h newContent =>
    exact (Files.framed_seek fs p 0).trans ((h.seek 0).framed_truncate 0 0) le_rfl fun _ h => h
  | unlink => exact Files.framed_unlink fs p

end Effect

/-- A chunk more, for the one that holds the lock. -/
lemma owns_read {fs : Files ι UInt8} {p : ι} {start got : Bytes} (hgot : got <+: start)
    (h : fs.Owns p start got.length) (count : ℕ) : got ++ (fs.read p count).1 <+: start ∧
      (fs.read p count).2.Owns p start (got ++ (fs.read p count).1).length := by
  obtain ⟨hchunk, howns⟩ := h.read count
  have hreading : Reading start got start := ⟨List.prefix_refl _, hgot⟩
  rw [List.length_append]
  refine ⟨?_, howns⟩
  rw [hchunk]
  exact (hreading.chunk count).got

/-- At the end it has read all that the file holds. -/
lemma owns_read_end {fs : Files ι UInt8} {p : ι} {start got : Bytes} (hgot : got <+: start)
    (h : fs.Owns p start got.length) {count : ℕ} (hcount : 0 < count) (hend : (fs.read p count).1 = []) :
    start = got := by
  have hreading : Reading start got start := ⟨List.prefix_refl _, hgot⟩
  rw [(h.read count).1] at hend
  exact (hreading.whole (by omega) hend).1.symm

lemma fd_read {fs : Files ι UInt8} {p : ι} {i pos : ℕ} (h : fs.fd p = some ⟨i, pos⟩) (count : ℕ) :
    (fs.read p count).2.fd p = some ⟨i, pos + (fs.read p count).1.length⟩ := by
  rw [Files.read, h]
  exact Files.fd_seek h _

/-- **One system call** leaves its instance with what the next station says. -/
lemma act_spec {fs fs' : Files ι UInt8} {p : ι} {station station' : Station} {call : Syscall} (hw : fs.Wf)
    (hat : At fs p station) (h : act fs p station call = some (fs', station')) :
    Effect p fs call fs' ∧ At fs' p station' := by
  have hsame : ∀ next, some (fs, next) = some (fs', station') → call ≠ .unlink → At fs p next →
      Effect p fs call fs' ∧ At fs' p station' := by
    intro next he hcall ha
    obtain ⟨rfl, rfl⟩ := Prod.mk.inj (Option.some.inj he)
    exact ⟨.plain hcall .none, ha⟩
  have hclosed : ∀ next, some (fs.close p, next) = some (fs', station') → call ≠ .unlink →
      At (fs.close p) p next → Effect p fs call fs' ∧ At fs' p station' := by
    intro next he hcall ha
    obtain ⟨rfl, rfl⟩ := Prod.mk.inj (Option.some.inj he)
    exact ⟨.plain hcall .close, ha⟩
  have hfd : (fs.close p).fd p = none := Function.update_self _ _ _
  unfold act at h
  split at h
  case h_1 create readonly => exact hsame _ h nofun hat
  case h_2 create readonly existed =>
    split at h
    · exact hsame _ h nofun hat
    · next fs₁ hopen =>
      obtain ⟨rfl, rfl⟩ := Prod.mk.inj (Option.some.inj h)
      refine ⟨.plain nofun (.openFile hat hopen), ?_⟩
      obtain ⟨i, -, hd, -⟩ := Files.openFile_cases hopen
      have hp : fs₁.fd p = some ⟨i, 0⟩ := by rw [hd, Function.update_self]
      cases readonly with
      | true => exact ⟨i, hp⟩
      | false => exact ⟨i, hp⟩
  case h_3 create existed =>
    split at h
    · exact hclosed _ h nofun hfd
    · next fs₁ hlock =>
      obtain ⟨rfl, rfl⟩ := Prod.mk.inj (Option.some.inj h)
      obtain ⟨i, hi⟩ := hat
      obtain ⟨j, hj, hold, hc⟩ := Files.Owns.of_lock hlock hi
      have hseen : fs₁.seen p = fs.content i := by rw [Files.seen, hj, ← hc]
      refine ⟨.plain nofun (.lock hlock), List.nil_prefix, ?_⟩
      rw [hseen]
      exact ⟨j, hj, hold, hc⟩
  case h_4 create readonly existed start got count =>
    split at h
    · next hcount =>
      split at h
      · obtain ⟨rfl, rfl⟩ := Prod.mk.inj (Option.some.inj h)
        refine ⟨.plain nofun (.read count), ?_⟩
        cases readonly with
        | true =>
          obtain ⟨i, hi⟩ := hat
          exact ⟨i, by rw [List.length_append]; exact fd_read hi count⟩
        | false => exact owns_read hat.1 hat.2 count
      · next hend =>
        split at h
        · exact hclosed _ h nofun hfd
        · obtain ⟨rfl, rfl⟩ := Prod.mk.inj (Option.some.inj h)
          refine ⟨.plain nofun (.read count), ?_⟩
          cases readonly with
          | true =>
            obtain ⟨i, hi⟩ := hat
            exact ⟨_, fd_read hi count⟩
          | false =>
            obtain rfl := owns_read_end hat.1 hat.2 hcount.1 (not_not.mp hend)
            exact ⟨rfl, _, (hat.2.read count).2⟩
    · cases h
  case h_5 start content newContent =>
    split at h
    · cases h
    · obtain ⟨rfl, rfl⟩ := Prod.mk.inj (Option.some.inj h)
      obtain ⟨rfl, pos, howns⟩ := hat
      exact ⟨.rotate howns newContent, (howns.seek 0).truncate_zero 0 (Files.wf_seek hw 0)⟩
  case h_6 written rest count =>
    split at h
    · obtain ⟨rfl, rfl⟩ := Prod.mk.inj (Option.some.inj h)
      exact ⟨.plain nofun (.write hat _), Files.Owns.write 0 hw hat _⟩
    · cases h
  case h_7 written => exact hsame _ h nofun ⟨_, hat⟩
  case h_8 readonly start content =>
    split at h
    · exact hclosed _ h nofun hfd
    · refine hsame _ h nofun ?_
      cases readonly with
      | true => exact hat
      | false => exact hat.2
  case h_9 => exact hclosed _ h nofun hfd
  case h_10 =>
    obtain ⟨rfl, rfl⟩ := Prod.mk.inj (Option.some.inj h)
    exact ⟨.unlink, hat⟩
  case h_11 content data =>
    obtain ⟨rfl, rfl⟩ := Prod.mk.inj (Option.some.inj h)
    obtain ⟨pos, howns⟩ := hat
    exact ⟨.plain nofun .seekEnd, howns.seekEnd⟩
  case h_12 content data count =>
    obtain ⟨rfl, rfl⟩ := Prod.mk.inj (Option.some.inj h)
    exact ⟨.plain nofun (.write hat _), _, Files.Owns.write 0 hw hat _⟩
  case h_17 => cases h
  all_goals exact hclosed _ h nofun hfd

/-! ### Whole runs -/

/-- Every instance has what its station says. -/
structure Inv (s : Processes ι) : Prop where
  wf : s.files.Wf
  stations : ∀ p, At s.files p (s.station p)

lemma step_cases {s s' : Processes ι} {e : ι × Syscall} (h : step s e = some s') :
    ∃ station, act s.files e.1 (s.station e.1) e.2 = some (s'.files, station) ∧
      s'.station = Function.update s.station e.1 station := by
  obtain ⟨⟨files, station⟩, hact, rfl⟩ := Option.map_eq_some_iff.mp h
  exact ⟨station, hact, rfl⟩

lemma Inv.effect {s s' : Processes ι} {e : ι × Syscall} (hi : s.Inv) (h : step s e = some s') :
    Effect e.1 s.files e.2 s'.files := by
  obtain ⟨_, hact, -⟩ := step_cases h
  exact (act_spec hi.wf (hi.stations e.1) hact).1

lemma Inv.step {s s' : Processes ι} {e : ι × Syscall} (hi : s.Inv) (h : step s e = some s') : s'.Inv := by
  have heffect := hi.effect h
  obtain ⟨station, hact, hs'⟩ := step_cases h
  refine ⟨heffect.wf hi.wf, fun q => ?_⟩
  rw [hs']
  by_cases hq : q = e.1
  · subst hq
    rw [Function.update_self]
    exact (act_spec hi.wf (hi.stations e.1) hact).2
  · rw [Function.update_of_ne hq]
    exact (hi.stations q).of_framed hq hi.wf heffect.framed

omit [DecidableEq ι] in
lemma inv_start (content : Option Bytes) : (start content : Processes ι).Inv :=
  ⟨Files.wf_initial content, fun _ => rfl⟩

lemma inv_of_reach {G : Processes ι → ι × Syscall → Processes ι → Prop} {content : Option Bytes}
    {s : Processes ι} (h : Reach step G (start content) s) : s.Inv :=
  h.invariant (inv_start content) fun _ _ _ hi hs _ => hi.step hs

omit [DecidableEq ι] in
/-- A writer behind `flock` has the lock of its file. -/
lemma At.session {fs : Files ι UInt8} {p : ι} {station : Station} {content : Bytes} (h : At fs p station)
    (hs : station.session = some content) : ∃ pos, fs.Owns p content pos := by
  unfold Station.session at hs
  split at hs
  · obtain rfl := Option.some.inj hs
    exact ⟨_, h.2⟩
  · obtain rfl := Option.some.inj hs
    exact h.2
  · obtain rfl := Option.some.inj hs
    exact ⟨_, h⟩
  · obtain rfl := Option.some.inj hs
    exact h
  · obtain rfl := Option.some.inj hs
    exact ⟨_, h⟩
  · cases hs

/-- **A writer's file is its own**: whatever the other instances do, it holds what this one has read and
written, and no other has got past `flock` on it. -/
theorem sessions_exact {content₀ : Option Bytes} {s : Processes ι}
    (h : Reach step (fun _ _ _ => True) (start content₀) s) {p : ι} {content : Bytes}
    (hs : (s.station p).session = some content) : ∃ d, s.files.fd p = some d ∧
      s.files.content d.inode = content ∧
      ∀ q d', q ≠ p → s.files.fd q = some d' → d'.inode = d.inode → (s.station q).session = none := by
  have hi := inv_of_reach h
  obtain ⟨pos, i, hd, hlock, hc⟩ := (hi.stations p).session hs
  refine ⟨_, hd, hc, fun q d' hq hd' he => ?_⟩
  rw [Option.eq_none_iff_forall_ne_some]
  intro content' hs'
  obtain ⟨pos', i', hd'', hlock', -⟩ := (hi.stations q).session hs'
  obtain rfl := Option.some.inj (hd'.symm.trans hd'')
  obtain rfl : i' = i := he
  exact hq (Option.some.inj (hlock'.symm.trans hlock))

namespace Sample

/-- One instance creates the file and appends a byte, another reads it. -/
def calls : List (Bool × Syscall) :=
  [(true, .probe true false), (true, .openFile), (true, .flock), (true, .read 1), (true, .enter),
    (true, .seekEnd [10]), (true, .write 1), (false, .probe false true), (false, .openFile), (false, .read 1),
    (false, .read 1)]

lemma runs : ∃ s, run step (start none) calls = some s ∧ s.station true = .live false [10] ∧
    s.station false = .loaded true [10] [10] := ⟨_, rfl, rfl, rfl⟩

end Sample

theorem sessions_exact_sample : ∃ s : Processes Bool, ∃ d, s.files.fd true = some d ∧
    s.files.content d.inode = [10] ∧
    ∀ q d', q ≠ true → s.files.fd q = some d' → d'.inode = d.inode → (s.station q).session = none := by
  obtain ⟨s, hrun, hwriter, -⟩ := Sample.runs
  have hreach := reach_of_run (P := fun _ => True) (fun _ _ => trivial) hrun
  exact ⟨s, sessions_exact hreach (by rw [hwriter]; rfl)⟩

/-! ### The path -/

/-- A failed bootstrap unlinks the path only when nobody has it open. -/
def Undisturbed (s : Processes ι) (e : ι × Syscall) : Prop := e.2 = .unlink → ∀ q, s.files.fd q = none

lemma Effect.named {fs fs' : Files ι UInt8} {p : ι} {call : Syscall} (h : Effect p fs call fs') (hn : fs.Named) :
    fs'.Named ↔ (call = .unlink → ∀ q, fs.fd q = none) := by
  cases h with
  | plain hcall hplain => exact iff_of_true (hplain.named hn) fun he => absurd he hcall
  | rotate howns newContent =>
    refine iff_of_true ?_ nofun
    have hseek := hn.seek p 0
    unfold Files.truncate
    split
    · exact hseek
    · exact hseek
  | unlink => exact Files.named_unlink.trans ⟨fun h _ => h, fun h => h rfl⟩

lemma named_step {s s' : Processes ι} {e : ι × Syscall} (hi : s.Inv) (hn : s.files.Named)
    (h : step s e = some s') : s'.files.Named ↔ Undisturbed s e :=
  (hi.effect h).named hn

/-- **The path stands for the open files**, all along a run, just when no failed bootstrap unlinks it while
another instance has it open. -/
theorem named_iff {content₀ : Option Bytes} {s : Processes ι} {es : List (ι × Syscall)}
    (hrun : run step (start content₀) es = some s) :
    (∀ done rest t, es = done ++ rest → run step (start content₀) done = some t → t.files.Named) ↔
      Along step Undisturbed (start content₀) es := by
  have hstart : (start content₀ : Processes ι).Inv ∧ (start content₀ : Processes ι).files.Named :=
    ⟨inv_start content₀, Files.named_initial content₀⟩
  have hboth := along_iff (P := Undisturbed) (I := fun t : Processes ι => t.Inv ∧ t.files.Named)
    (fun t e t' ht hs => (and_iff_right (ht.1.step hs)).trans (named_step ht.1 ht.2 hs)) hstart hrun
  rw [← hboth]
  constructor
  · intro h done rest t he hdone
    exact ⟨inv_of_reach (reach_of_run (P := fun _ => True) (fun _ _ => trivial) hdone), h done rest t he hdone⟩
  · intro h done rest t he hdone
    exact (h done rest t he hdone).2

instance (s : Processes Bool) (e : Bool × Syscall) : Decidable (Undisturbed s e) :=
  decidable_of_iff (e.2 = .unlink → s.files.fd false = none ∧ s.files.fd true = none)
    (imp_congr_right fun _ => (@Bool.forall_bool fun q => s.files.fd q = none).symm)

namespace Sample

/-- A bootstrap fails. -/
def failing : List (Bool × Syscall) :=
  [(true, .probe true false), (true, .openFile), (true, .flock), (true, .read 1), (true, .bootstrapFails)]

/-- An instance creates the file, or opens it, and enters. -/
def entering : List (Bool × Syscall) :=
  [(false, .probe true false), (false, .openFile), (false, .flock), (false, .read 1), (false, .enter)]

end Sample

/-- The lock of a bootstrap that fails is gone before the path is.  Nothing is lost when the next instance opens the
file behind the unlink; one that opens it in between goes on writing what no path leads to. -/
theorem named_iff_sample :
    (∀ done rest (t : Processes Bool), Sample.failing ++ (true, .unlink) :: Sample.entering = done ++ rest →
      run step (start none) done = some t → t.files.Named) ∧
    ¬∀ done rest (t : Processes Bool), Sample.failing ++ Sample.entering ++ [(true, .unlink)] = done ++ rest →
      run step (start none) done = some t → t.files.Named := by
  have hruns : (∃ s : Processes Bool,
        run step (start none) (Sample.failing ++ (true, .unlink) :: Sample.entering) = some s) ∧
      ∃ s : Processes Bool, run step (start none) (Sample.failing ++ Sample.entering ++ [(true, .unlink)]) = some s :=
    ⟨⟨_, rfl⟩, ⟨_, rfl⟩⟩
  obtain ⟨⟨s, hrun⟩, ⟨s', hrun'⟩⟩ := hruns
  exact ⟨(named_iff hrun).mpr (by decide +kernel), fun h => absurd ((named_iff hrun').mp h) (by decide +kernel)⟩

example : ∃ s, run step (start none) (Sample.failing ++ Sample.entering ++ [(true, .unlink), (false, .seekEnd [10]),
      (false, .write 1), (true, .probe true false), (true, .openFile), (true, .flock), (true, .read 1),
      (true, .enter)]) = some s ∧
    (s.station false).session = some [10] ∧ (s.station true).session = some [] := ⟨_, rfl, rfl, rfl⟩

/-- **One writer at a time**, and the path stands for its file, in a run in which no failed bootstrap unlinks
what another instance has open. -/
theorem one_writer {content₀ : Option Bytes} {s : Processes ι} {es : List (ι × Syscall)}
    (hrun : run step (start content₀) es = some s) (hal : Along step Undisturbed (start content₀) es) {p : ι}
    {content : Bytes} (hs : (s.station p).session = some content) :
    (∃ i, s.files.entry = some i ∧ s.files.content i = content) ∧ ∀ q ≠ p, (s.station q).session = none := by
  have hi := inv_of_reach (reach_of_run (P := fun _ => True) (fun _ _ => trivial) hrun)
  have hnamed : s.files.Named := by
    have hstep : ∀ (t : Processes ι) e t' ok, t.Inv ∧ (ok → t.files.Named) → step t e = some t' →
        t'.Inv ∧ (ok ∧ Undisturbed t e → t'.files.Named) :=
      fun t e t' ok ht hs => ⟨ht.1.step hs, fun hok => (named_step ht.1 (ht.2 hok.1) hs).mpr hok.2⟩
    have hbegin : (start content₀ : Processes ι).Inv ∧ (True → (start content₀ : Processes ι).files.Named) :=
      ⟨inv_start content₀, fun _ => Files.named_initial content₀⟩
    have hall := run_along (I := fun (t : Processes ι) ok => t.Inv ∧ (ok → t.files.Named)) hstep hbegin hrun
    exact hall.2 ⟨trivial, hal⟩
  obtain ⟨pos, i, hd, hlock, hc⟩ := (hi.stations p).session hs
  refine ⟨⟨i, hnamed p _ hd, hc⟩, fun q hq => ?_⟩
  rw [Option.eq_none_iff_forall_ne_some]
  intro content' hs'
  obtain ⟨pos', i', hd', hlock', -⟩ := (hi.stations q).session hs'
  have hii : some i' = some i := (hnamed q _ hd').symm.trans (hnamed p _ hd)
  obtain rfl := Option.some.inj hii
  exact hq (Option.some.inj (hlock'.symm.trans hlock))

theorem one_writer_sample : ∃ s : Processes Bool, (∃ i, s.files.entry = some i ∧ s.files.content i = [10]) ∧
    ∀ q ≠ true, (s.station q).session = none := by
  obtain ⟨s, hrun, hwriter, -⟩ := Sample.runs
  have hcalls : ∀ e ∈ Sample.calls, ∀ t : Processes Bool, Undisturbed t e := by
    simp [Sample.calls, Undisturbed]
  exact ⟨s, one_writer hrun (along_of_forall hcalls _) (by rw [hwriter]; rfl)⟩

/-! ### Readers -/

/-- What a reader has read of the file. -/
def Seen (fs : Files ι UInt8) (p : ι) : Station → Prop
  | .reading _ true _ start got => ∃ i, fs.fd p = some ⟨i, got.length⟩ ∧ Reading start got (fs.content i)
  | .loaded true start content => ∃ d, fs.fd p = some d ∧ start <+: content ∧ content <+: fs.content d.inode
  | .live true content => ∃ d, fs.fd p = some d ∧ content <+: fs.content d.inode
  | _ => True

omit [DecidableEq ι] in
/-- The others may only add to it. -/
lemma Seen.of_grows {fs fs' : Files ι UInt8} {p q : ι} (hq : q ≠ p) (hw : fs.Wf) (hf : Files.Framed p fs fs')
    (hg : Files.Grows fs fs') {station : Station} (h : Seen fs q station) : Seen fs' q station := by
  unfold Seen at h ⊢
  split
  · obtain ⟨i, hd, hr⟩ := h
    exact ⟨i, (hf.fd q hq).trans hd, hr.grow (hg i (hw.opened q _ hd))⟩
  · obtain ⟨d, hd, hstart, hc⟩ := h
    exact ⟨d, (hf.fd q hq).trans hd, hstart, hc.trans (hg _ (hw.opened q _ hd))⟩
  · obtain ⟨d, hd, hc⟩ := h
    exact ⟨d, (hf.fd q hq).trans hd, hc.trans (hg _ (hw.opened q _ hd))⟩
  · trivial

/-- A reader's chunk is what comes next in the file. -/
lemma read_eq {fs : Files ι UInt8} {p : ι} {i pos : ℕ} (h : fs.fd p = some ⟨i, pos⟩) (count : ℕ) :
    (fs.read p count).1 = ((fs.content i).drop pos).take count := by
  rw [Files.read, h]

lemma content_read (fs : Files ι UInt8) (p : ι) (count i : ℕ) :
    (fs.read p count).2.content i = fs.content i := by
  unfold Files.read
  split
  · rfl
  · rfl

/-- **One system call of a reader** keeps what it has read in front of what the file holds. -/
lemma act_seen {fs fs' : Files ι UInt8} {p : ι} {station station' : Station} {call : Syscall}
    (hs : Seen fs p station) (h : act fs p station call = some (fs', station')) : Seen fs' p station' := by
  unfold act at h
  split at h
  case h_2 create readonly existed =>
    split at h
    · obtain ⟨rfl, rfl⟩ := Prod.mk.inj (Option.some.inj h)
      trivial
    · next fs₁ hopen =>
      obtain ⟨rfl, rfl⟩ := Prod.mk.inj (Option.some.inj h)
      cases readonly with
      | true =>
        obtain ⟨i, -, hd, -⟩ := Files.openFile_cases hopen
        have hp : fs₁.fd p = some ⟨i, 0⟩ := by rw [hd, Function.update_self]
        have hseen : fs₁.seen p = fs₁.content i := by rw [Files.seen, hp]
        refine ⟨i, hp, ?_⟩
        rw [hseen]
        exact Reading.begin _
      | false => trivial
  case h_3 =>
    split at h
    all_goals
      obtain ⟨rfl, rfl⟩ := Prod.mk.inj (Option.some.inj h)
      trivial
  case h_4 create readonly existed start got count =>
    split at h
    · next hcount =>
      split at h
      · obtain ⟨rfl, rfl⟩ := Prod.mk.inj (Option.some.inj h)
        cases readonly with
        | true =>
          obtain ⟨i, hd, hr⟩ := hs
          refine ⟨i, by rw [List.length_append]; exact fd_read hd count, ?_⟩
          rw [content_read, read_eq hd]
          exact hr.chunk count
        | false => trivial
      · next hend =>
        split at h
        · obtain ⟨rfl, rfl⟩ := Prod.mk.inj (Option.some.inj h)
          trivial
        · obtain ⟨rfl, rfl⟩ := Prod.mk.inj (Option.some.inj h)
          cases readonly with
          | true =>
            obtain ⟨i, hd, hr⟩ := hs
            have hnil := not_not.mp hend
            rw [read_eq hd] at hnil
            obtain ⟨hgot, hstart⟩ := hr.whole (by omega) hnil
            refine ⟨_, fd_read hd count, hstart, ?_⟩
            rw [content_read]
            exact hr.got
          | false => trivial
    · cases h
  case h_8 readonly start content =>
    split at h
    · obtain ⟨rfl, rfl⟩ := Prod.mk.inj (Option.some.inj h)
      trivial
    · obtain ⟨rfl, rfl⟩ := Prod.mk.inj (Option.some.inj h)
      cases readonly with
      | true =>
        obtain ⟨d, hd, -, hc⟩ := hs
        exact ⟨d, hd, hc⟩
      | false => trivial
  case h_5 =>
    split at h
    · cases h
    · obtain ⟨rfl, rfl⟩ := Prod.mk.inj (Option.some.inj h)
      trivial
  case h_6 =>
    split at h
    · obtain ⟨rfl, rfl⟩ := Prod.mk.inj (Option.some.inj h)
      trivial
    · cases h
  case h_17 => cases h
  all_goals
    obtain ⟨rfl, rfl⟩ := Prod.mk.inj (Option.some.inj h)
    trivial

lemma Effect.grows {fs fs' : Files ι UInt8} {p : ι} {call : Syscall} (h : Effect p fs call fs') (hw : fs.Wf)
    (hcall : ∀ newContent, call ≠ .rotate newContent) : Files.Grows fs fs' := by
  cases h with
  | plain _ h => exact h.grows hw
  | rotate _ newContent => exact absurd rfl (hcall newContent)
  | unlink => exact .of_contents rfl

lemma seen_step {s s' : Processes ι} {e : ι × Syscall} (hi : s.Inv) (hseen : ∀ q, Seen s.files q (s.station q))
    (h : step s e = some s') (hcall : ∀ newContent, e.2 ≠ .rotate newContent) (q : ι) :
    Seen s'.files q (s'.station q) := by
  have heffect := hi.effect h
  obtain ⟨station, hact, hs'⟩ := step_cases h
  rw [hs']
  by_cases hq : q = e.1
  · subst hq
    rw [Function.update_self]
    exact act_seen (hseen e.1) hact
  · rw [Function.update_of_ne hq]
    exact (hseen q).of_grows hq hi.wf heffect.framed (heffect.grows hi.wf hcall)

/-- **A reader needs no lock** while nobody rotates: what it has read, chunk by chunk, while writers come, append
and go, is all that the file held when it began, and the beginning of what the file holds now. -/
theorem reader_prefix {content₀ : Option Bytes} {s : Processes ι}
    (h : Reach step (fun _ e _ => ∀ newContent, e.2 ≠ .rotate newContent) (start content₀) s) {p : ι}
    {begun content : Bytes} (hs : s.station p = .loaded true begun content) :
    ∃ d, s.files.fd p = some d ∧ begun <+: content ∧ content <+: s.files.content d.inode := by
  have hall : s.Inv ∧ ∀ q, Seen s.files q (s.station q) := by
    clear hs
    induction h with
    | start => exact ⟨inv_start content₀, fun _ => trivial⟩
    | next _ hstep hcall ih => exact ⟨ih.1.step hstep, seen_step ih.1 ih.2 hstep hcall⟩
  have hp := hall.2 p
  rw [hs] at hp
  exact hp

/-- A byte is appended between two chunks of a reader. -/
theorem reader_prefix_sample : ∃ s : Processes Bool, s.station false = .loaded true [10, 11] [10, 11, 12] ∧
    ∃ d, s.files.fd false = some d ∧ ([10, 11] : Bytes) <+: [10, 11, 12] ∧
      [10, 11, 12] <+: s.files.content d.inode := by
  let calls : List (Bool × Syscall) :=
    [(true, .probe true false), (true, .openFile), (true, .flock), (true, .read 1), (true, .enter),
      (true, .seekEnd [10, 11]), (true, .write 2), (false, .probe false true), (false, .openFile), (false, .read 1),
      (true, .seekEnd [12]), (true, .write 1), (false, .read 2), (false, .read 1)]
  obtain ⟨s, hrun, hreader⟩ : ∃ s, run step (start none) calls = some s ∧
      s.station false = .loaded true [10, 11] [10, 11, 12] := ⟨_, rfl, rfl⟩
  refine ⟨s, hreader, reader_prefix (reach_of_run ?_ hrun) hreader⟩
  simp [calls]

end Processes

end Kanta
