import Kanta.Structs

/-!
# Migrations

The registry of an application's migrations: functions on the plain state, each with the version
it leads to.
-/

namespace Kanta

/-- The registered migrations, by ascending version. -/
structure Migrations where
  migrations : List (ℕ × (Dict → Except Exc Dict))
  sorted : (migrations.map Prod.fst).Pairwise (· < ·)

namespace Migrations

variable (reg : Migrations)

/-- `dbver`: the highest version. -/
def dbver : ℤ := ((reg.migrations.map Prod.fst).foldl max 0 : ℕ)

/-- `minver`: one less than the first version. -/
def minver : ℤ :=
  match reg.migrations with
  | [] => 0
  | (v, _) :: _ => v - 1

/-- The loop of `apply` over the sorted versions. -/
def applyFrom : List (ℕ × (Dict → Except Exc Dict)) → Dict → ℤ → Except Exc (Dict × ℤ)
  | [], data, version => .ok (data, version)
  | (v, fn) :: rest, data, version =>
    if (v : ℤ) ≤ version then applyFrom rest data version
    else do
      let data ← fn data
      applyFrom rest data v

/-- `apply`: the migrated state and its version. -/
def apply (data : Dict) (version : ℤ) : Except Exc (Dict × ℤ) :=
  if reg.dbver < version then
    .error (.databaseError ("Database version v" ++ toString version ++
      " is newer than the highest supported version v" ++ toString reg.dbver) none)
  else if version < reg.minver then
    .error (.databaseError ("Database version v" ++ toString version ++
      " is older than the minimum supported version v" ++ toString reg.minver) none)
  else applyFrom reg.migrations data version

/-! ### A database of the newest version -/

lemma le_foldl_max (l : List ℕ) (a : ℕ) : a ≤ l.foldl max a ∧ ∀ v ∈ l, v ≤ l.foldl max a := by
  induction l generalizing a with
  | nil => exact ⟨Nat.le_refl a, by simp⟩
  | cons w l ih =>
    obtain ⟨h1, h2⟩ := ih (max a w)
    rw [List.foldl_cons]
    exact ⟨by omega, List.forall_mem_cons.mpr ⟨by omega, h2⟩⟩

lemma le_dbver {m : ℕ × (Dict → Except Exc Dict)} (h : m ∈ reg.migrations) : (m.1 : ℤ) ≤ reg.dbver :=
  Int.ofNat_le.mpr ((le_foldl_max _ 0).2 m.1 (List.mem_map_of_mem h))

lemma minver_le_dbver : reg.minver ≤ reg.dbver := by
  have hle := fun m hm => reg.le_dbver (m := m) hm
  unfold minver
  split
  · exact Int.natCast_nonneg _
  · rename_i v fn rest hreg
    have := hle (v, fn) (by simp [hreg])
    dsimp only at this
    omega

lemma applyFrom_of_le {migrations : List (ℕ × (Dict → Except Exc Dict))} {data : Dict} {version : ℤ}
    (h : ∀ m ∈ migrations, (m.1 : ℤ) ≤ version) : applyFrom migrations data version = .ok (data, version) := by
  induction migrations with
  | nil => rfl
  | cons m rest ih =>
    rw [List.forall_mem_cons] at h
    rw [applyFrom, if_pos h.1, ih h.2]

/-- Nothing is left to apply. -/
theorem apply_dbver (data : Dict) : reg.apply data reg.dbver = .ok (data, reg.dbver) := by
  have hmin := reg.minver_le_dbver
  unfold apply
  rw [if_neg (by omega), if_neg (by omega), applyFrom_of_le fun _ hm => reg.le_dbver hm]

/-! ### The migrations that run -/

/-- The loop of `apply` with the list of the migrations that have run. -/
def reportFrom : List (ℕ × (Dict → Except Exc Dict)) → Dict → ℤ → List ℕ → Except Exc (Dict × ℤ × List ℕ)
  | [], data, version, applied => .ok (data, version, applied)
  | (v, fn) :: rest, data, version, applied =>
    if (v : ℤ) ≤ version then reportFrom rest data version applied
    else do
      let data ← fn data
      reportFrom rest data v (applied ++ [v])

/-- The migrations above a version. -/
def above (version : ℤ) : List (ℕ × (Dict → Except Exc Dict)) :=
  reg.migrations.filter fun m => version < m.1

/-- The report of `apply`: the versions of the migrations that have run, in order. -/
def report (data : Dict) (version : ℤ) : Except Exc (List ℕ) := do
  let _ ← reg.apply data version
  let (_, _, applied) ← reportFrom reg.migrations data version []
  .ok applied

/-- What comes behind a migration is above it. -/
lemma filter_rest {v : ℕ} {rest : List (ℕ × (Dict → Except Exc Dict))} {version : ℤ}
    (hs : ∀ w ∈ rest.map Prod.fst, v < w) (hv : ¬(v : ℤ) ≤ version) :
    (rest.filter fun m => (v : ℤ) < m.1) = rest.filter fun m => version < m.1 := by
  apply List.filter_congr
  intro m hm
  have := hs m.1 (List.mem_map_of_mem hm)
  simp only [decide_eq_decide]
  omega

/-- The loop runs what is above the version. -/
lemma reportFrom_eq {migrations : List (ℕ × (Dict → Except Exc Dict))}
    (hs : (migrations.map Prod.fst).Pairwise (· < ·)) (data : Dict) (version : ℤ) (applied : List ℕ) :
    reportFrom migrations data version applied =
      (fun p => (p.1, p.2, applied ++ (migrations.filter fun m => version < m.1).map Prod.fst)) <$>
        applyFrom migrations data version := by
  induction migrations generalizing data version applied with
  | nil => simp [reportFrom, applyFrom, Functor.map, Except.map]
  | cons m rest ih =>
    obtain ⟨v, fn⟩ := m
    rw [List.map_cons, List.pairwise_cons] at hs
    rw [reportFrom, applyFrom]
    by_cases hv : (v : ℤ) ≤ version
    · rw [if_pos hv, if_pos hv, ih hs.2, List.filter_cons_of_neg (by simpa using hv)]
    · rw [if_neg hv, if_neg hv, List.filter_cons_of_pos (by simpa using hv)]
      cases fn data with
      | error e => rfl
      | ok data =>
        show reportFrom rest data v (applied ++ [v]) = _
        rw [ih hs.2, filter_rest hs.1 hv]
        simp [bind, Except.bind]

/-- The loop is a fold over what is above the version. -/
lemma applyFrom_eq {migrations : List (ℕ × (Dict → Except Exc Dict))}
    (hs : (migrations.map Prod.fst).Pairwise (· < ·)) (data : Dict) (version : ℤ) :
    Prod.fst <$> applyFrom migrations data version =
      (migrations.filter fun m => version < m.1).foldlM (fun data m => m.2 data) data := by
  induction migrations generalizing data version with
  | nil => rfl
  | cons m rest ih =>
    obtain ⟨v, fn⟩ := m
    rw [List.map_cons, List.pairwise_cons] at hs
    rw [applyFrom]
    by_cases hv : (v : ℤ) ≤ version
    · rw [if_pos hv, ih hs.2, List.filter_cons_of_neg (by simpa using hv)]
    · rw [if_neg hv, List.filter_cons_of_pos (by simpa using hv), List.foldlM_cons]
      dsimp only
      cases fn data with
      | error e => rfl
      | ok data => exact filter_rest hs.1 hv ▸ ih hs.2 data v

/-- The loop ends at the highest version. -/
lemma applyFrom_version {migrations : List (ℕ × (Dict → Except Exc Dict))} {data data' : Dict}
    {version version' top : ℤ} (hle : ∀ m ∈ migrations, (m.1 : ℤ) ≤ top) (hv : version ≤ top)
    (htop : version = top ∨ ∃ m ∈ migrations, (m.1 : ℤ) = top)
    (h : applyFrom migrations data version = .ok (data', version')) : version' = top := by
  induction migrations generalizing data version with
  | nil =>
    obtain ⟨-, rfl⟩ := Prod.mk.inj (Except.ok.inj h)
    simpa using htop
  | cons m rest ih =>
    obtain ⟨v, fn⟩ := m
    rw [List.forall_mem_cons] at hle
    rw [applyFrom] at h
    split at h
    · rename_i hskip
      refine ih hle.2 hv ?_ h
      rcases htop with htop | ⟨m, hm, htop⟩
      · exact Or.inl htop
      · rcases List.mem_cons.mp hm with rfl | hm
        · exact Or.inl (by dsimp only at htop; omega)
        · exact Or.inr ⟨m, hm, htop⟩
    · rename_i hrun
      obtain ⟨next, -, h⟩ := bind_eq_ok.mp h
      have hvtop : (v : ℤ) ≤ top := hle.1
      refine ih hle.2 hvtop ?_ h
      rcases htop with htop | ⟨m, hm, htop⟩
      · omega
      · rcases List.mem_cons.mp hm with rfl | hm
        · exact Or.inl htop
        · exact Or.inr ⟨m, hm, htop⟩

lemma exists_dbver (h : reg.migrations ≠ []) : ∃ m ∈ reg.migrations, (m.1 : ℤ) = reg.dbver := by
  have hmax : ∀ (l : List ℕ) (a : ℕ), l.foldl max a = a ∨ l.foldl max a ∈ l := by
    intro l
    induction l with
    | nil => exact fun a => Or.inl rfl
    | cons w l ih =>
      intro a
      rw [List.foldl_cons]
      rcases ih (max a w) with h | h
      · rcases Nat.le_total a w with hle | hle
        · exact Or.inr (by rw [h, Nat.max_eq_right hle]; exact List.mem_cons_self)
        · exact Or.inl (by rw [h, Nat.max_eq_left hle])
      · exact Or.inr (List.mem_cons_of_mem _ h)
  rcases hmax (reg.migrations.map Prod.fst) 0 with hzero | hmem
  · obtain ⟨m, hm⟩ := List.exists_mem_of_ne_nil _ h
    have hle := reg.le_dbver hm
    rw [dbver, hzero] at hle
    exact ⟨m, hm, by rw [dbver, hzero]; omega⟩
  · obtain ⟨m, hm, heq⟩ := List.mem_map.mp hmem
    exact ⟨m, hm, by rw [dbver, heq]⟩

/-- **What `apply` does**: it runs every migration above the version, in ascending order, and ends at
the highest version. -/
theorem apply_ok {data data' : Dict} {version version' : ℤ} (h : reg.apply data version = .ok (data', version')) :
    version ≤ reg.dbver ∧ version' = reg.dbver ∧
      reg.report data version = .ok ((reg.above version).map Prod.fst) ∧
      (reg.above version).foldlM (fun data m => m.2 data) data = .ok data' := by
  have happly := h
  unfold apply at h
  split at h
  · simp at h
  · rename_i hnew
    split at h
    · simp at h
    · rename_i hold
      refine ⟨by omega, ?_, ?_, ?_⟩
      · refine applyFrom_version (fun m hm => reg.le_dbver hm) (by omega) ?_ h
        by_cases hnil : reg.migrations = []
        · refine Or.inl ?_
          have hmin : reg.minver = 0 := by simp [minver, hnil]
          have hmax : reg.dbver = 0 := by simp [dbver, hnil]
          omega
        · exact Or.inr (reg.exists_dbver hnil)
      · have hreport := reportFrom_eq reg.sorted data version []
        rw [h] at hreport
        simp only [Functor.map, Except.map, List.nil_append] at hreport
        rw [report, happly, hreport]
        rfl
      · have hfold := applyFrom_eq reg.sorted data version
        rw [h] at hfold
        exact hfold.symm

end Migrations

end Kanta
