import AuthSso.Storage.Planner

/-!
# Plans as sequences of versions

`sort.Slice` is not stable, so a plan is fixed by its contract only once the versions
it sorts are distinct. The uniqueness invariant gives that, and a plan is then the one
strictly ordered arrangement of a window of the provider's Up (or Down) migrations.
From this follow resumption after a failed step, the contiguous chain of versions, and
that a rollback retraces an upgrade.
-/
namespace AuthSso.Storage

/-- The migrations of one direction that apply to the provider. -/
def upMigrations (providerName : String) (ms : List SchemaMigration) : List SchemaMigration :=
  ms.filter fun m => m.up && applicable providerName m

def downMigrations (providerName : String) (ms : List SchemaMigration) : List SchemaMigration :=
  ms.filter fun m => !m.up && applicable providerName m

/-- The version the database is at once step `m` has run: an Up script brings it to
`m.version`, a Down script to the version below. -/
def versionAfter (up : Bool) (m : SchemaMigration) : Int :=
  if up then m.version else m.version - 1

section Window

variable (providerName : String) (ms : List SchemaMigration)

theorem filter_upStep (prior target : Int) :
    ms.filter (upStep providerName prior target) =
      (upMigrations providerName ms).filter fun m => prior < m.version ∧ m.version ≤ target := by
  rw [upMigrations, List.filter_filter]
  refine List.filter_congr fun m _ => ?_
  rw [Bool.eq_iff_iff]
  simp [upStep, and_assoc, and_comm, and_left_comm]

theorem filter_downStep (prior target : Int) :
    ms.filter (downStep providerName prior target) =
      (downMigrations providerName ms).filter fun m =>
        target < m.version ∧ m.version ≤ prior ∧ ¬(m.version = 1 ∧ target = -1) := by
  rw [downMigrations, List.filter_filter]
  refine List.filter_congr fun m _ => ?_
  rw [Bool.eq_iff_iff]
  simp [downStep, and_assoc, and_comm, and_left_comm]

/-- Re-planning an upgrade from a later version keeps the rest of the window. -/
theorem filter_upStep_of_lt {prior v : Int} (target : Int) (h : prior < v) :
    ms.filter (upStep providerName v target) =
      (ms.filter (upStep providerName prior target)).filter fun m => v < m.version := by
  rw [List.filter_filter]
  refine List.filter_congr fun m _ => ?_
  rw [Bool.eq_iff_iff]
  simp only [upStep, Bool.and_eq_true, decide_eq_true_eq]
  cases m.up <;> cases applicable providerName m <;> simp
  omega

/-- Re-planning a rollback from below version `w` keeps the rest of the window. -/
theorem filter_downStep_of_le {prior w : Int} (target : Int) (h : w ≤ prior) :
    ms.filter (downStep providerName (w - 1) target) =
      (ms.filter (downStep providerName prior target)).filter fun m => m.version < w := by
  rw [List.filter_filter]
  refine List.filter_congr fun m _ => ?_
  rw [Bool.eq_iff_iff]
  simp only [downStep, Bool.and_eq_true, Bool.not_eq_true', decide_eq_true_eq]
  cases m.up <;> cases applicable providerName m <;> simp
  omega

end Window

theorem UniquePerVersion.nodup_of_subset {providerName : String} {ms : List SchemaMigration}
    (hu : UniquePerVersion providerName ms) {f : SchemaMigration → Bool} (b : Bool)
    (hf : ∀ m, f m → m.up = b ∧ applicable providerName m) :
    ((ms.filter f).map (·.version)).Nodup := by
  have hsub : ms.filter f = (ms.filter (applicable providerName)).filter f := by
    rw [List.filter_filter]
    refine List.filter_congr fun m _ => ?_
    cases hm : f m
    · rfl
    · simp [(hf m hm).2]
  have hsl : (ms.filter f).Sublist (ms.filter (applicable providerName)) :=
    hsub ▸ List.filter_sublist _
  have hkey := hu.sublist (hsl.map fun m : SchemaMigration => (m.up, m.version))
  have hmap : (ms.filter f).map (fun m => (m.up, m.version)) =
      ((ms.filter f).map (·.version)).map (b, ·) := by
    rw [List.map_map]
    exact List.map_congr_left fun m hm => by simp [(hf m (List.mem_filter.1 hm).2).1]
  exact (hmap ▸ hkey).of_map _

theorem UniquePerVersion.nodup_up {providerName : String} {ms : List SchemaMigration}
    (hu : UniquePerVersion providerName ms) :
    ((upMigrations providerName ms).map (·.version)).Nodup :=
  hu.nodup_of_subset true fun m hm => by simpa using hm

theorem UniquePerVersion.nodup_down {providerName : String} {ms : List SchemaMigration}
    (hu : UniquePerVersion providerName ms) :
    ((downMigrations providerName ms).map (·.version)).Nodup :=
  hu.nodup_of_subset false fun m hm => by simpa using hm

section Sorted

variable {α : Type} {r : α → α → Prop}

/-- In a list sorted by an asymmetric relation, the elements above the one at position
`k` are those after it. -/
theorem filter_get_eq_drop [DecidableRel r] (hasymm : ∀ a b, r a b → ¬r b a) :
    ∀ {l : List α}, l.Sorted r → ∀ (k : ℕ) (hk : k < l.length),
      l.filter (fun x => r (l.get ⟨k, hk⟩) x) = l.drop (k + 1)
  | a :: l, hl, 0, _ => by
    rw [List.sorted_cons] at hl
    have hirr : ¬r a a := fun h => hasymm a a h h
    simpa [List.filter_cons, hirr] using hl.1
  | a :: l, hl, k + 1, hk => by
    rw [List.sorted_cons] at hl
    have hk' : k < l.length := by simpa using hk
    have hnot : ¬r l[k] a := hasymm _ _ (hl.1 _ (List.getElem_mem hk'))
    simpa [List.filter_cons, hnot] using filter_get_eq_drop hasymm hl.2 k hk'

theorem eq_of_perm_of_sorted_of_asymm (hasymm : ∀ a b, r a b → ¬r b a) {l₁ l₂ : List α}
    (hp : l₁.Perm l₂) (h₁ : l₁.Sorted r) (h₂ : l₂.Sorted r) : l₁ = l₂ :=
  haveI : IsAntisymm α r := ⟨fun a b hab hba => (hasymm a b hab hba).elim⟩
  List.eq_of_perm_of_sorted hp h₁ h₂

/-- Two lists strictly sorted the same way, with the same members, are equal. -/
theorem eq_of_sorted_of_mem_iff [IsIrrefl α r] [IsAntisymm α r] {l₁ l₂ : List α}
    (h₁ : l₁.Sorted r) (h₂ : l₂.Sorted r) (h : ∀ v, v ∈ l₁ ↔ v ∈ l₂) : l₁ = l₂ :=
  List.eq_of_perm_of_sorted ((List.perm_ext_iff_of_nodup h₁.nodup h₂.nodup).2 h) h₁ h₂

end Sorted

theorem sorted_lt_of_nodup {l : List SchemaMigration} (h : l.Sorted (·.version ≤ ·.version))
    (hn : (l.map (·.version)).Nodup) : l.Sorted (·.version < ·.version) :=
  (h.and (List.pairwise_map.1 hn)).imp fun hab => lt_of_le_of_ne hab.1 hab.2

theorem sorted_gt_of_nodup {l : List SchemaMigration} (h : l.Sorted (·.version ≥ ·.version))
    (hn : (l.map (·.version)).Nodup) : l.Sorted (·.version > ·.version) :=
  (h.and (List.pairwise_map.1 hn)).imp fun hab => lt_of_le_of_ne hab.1 hab.2.symm

section Plans

variable (s : SliceSorter) (providerName : String) {ms : List SchemaMigration}

theorem upPlan_sorted (hn : ((upMigrations providerName ms).map (·.version)).Nodup)
    (prior target : Int) :
    (s.slice (fun a b => a.version < b.version) (ms.filter (upStep providerName prior target))).Sorted
      (·.version < ·.version) := by
  refine sorted_lt_of_nodup (s.sorted_ascending _) ?_
  rw [((s.perm _ _).map _).nodup_iff, filter_upStep]
  exact hn.sublist ((List.filter_sublist _).map _)

theorem downPlan_sorted (hn : ((downMigrations providerName ms).map (·.version)).Nodup)
    (prior target : Int) :
    (s.slice (fun a b => a.version > b.version) (ms.filter (downStep providerName prior target))).Sorted
      (·.version > ·.version) := by
  refine sorted_gt_of_nodup (s.sorted_descending _) ?_
  rw [((s.perm _ _).map _).nodup_iff, filter_downStep]
  exact hn.sublist ((List.filter_sublist _).map _)

theorem mem_upPlan_versions (prior target v : Int) :
    v ∈ (s.slice (fun a b => a.version < b.version)
        (ms.filter (upStep providerName prior target))).map (·.version) ↔
      v ∈ (upMigrations providerName ms).map (·.version) ∧ prior < v ∧ v ≤ target := by
  rw [((s.perm _ _).map _).mem_iff, filter_upStep]
  simp only [List.mem_map, List.mem_filter, decide_eq_true_eq]
  constructor
  · rintro ⟨m, ⟨hm, h⟩, rfl⟩
    exact ⟨⟨m, hm, rfl⟩, h⟩
  · rintro ⟨⟨m, hm, rfl⟩, h⟩
    exact ⟨m, ⟨hm, h⟩, rfl⟩

theorem mem_downPlan_versions (prior target v : Int) :
    v ∈ (s.slice (fun a b => a.version > b.version)
        (ms.filter (downStep providerName prior target))).map (·.version) ↔
      v ∈ (downMigrations providerName ms).map (·.version) ∧ target < v ∧ v ≤ prior ∧
        ¬(v = 1 ∧ target = -1) := by
  rw [((s.perm _ _).map _).mem_iff, filter_downStep]
  simp only [List.mem_map, List.mem_filter, decide_eq_true_eq]
  constructor
  · rintro ⟨m, ⟨hm, h⟩, rfl⟩
    exact ⟨⟨m, hm, rfl⟩, h⟩
  · rintro ⟨⟨m, hm, rfl⟩, h⟩
    exact ⟨m, ⟨hm, h⟩, rfl⟩

theorem upPlan_versions_sorted (hn : ((upMigrations providerName ms).map (·.version)).Nodup)
    (prior target : Int) :
    ((s.slice (fun a b => a.version < b.version)
      (ms.filter (upStep providerName prior target))).map (·.version)).Sorted (· < ·) :=
  List.pairwise_map.2 (upPlan_sorted s providerName hn prior target)

theorem downPlan_versions_sorted (hn : ((downMigrations providerName ms).map (·.version)).Nodup)
    (prior target : Int) :
    ((s.slice (fun a b => a.version > b.version)
      (ms.filter (downStep providerName prior target))).map (·.version)).Sorted (· > ·) :=
  List.pairwise_map.2 (downPlan_sorted s providerName hn prior target)

end Plans

section Resume

variable (s : SliceSorter) {c : Catalog} {ms : List SchemaMigration}
  (hs : c.migrations = .ok ms) {providerName : String} (hu : UniquePerVersion providerName ms)
include hs hu

theorem loadMigrations_resume_up {prior target : Int} (hprior : -1 ≤ prior) (h : prior < target)
    (k : ℕ) (hk : k < (loadMigrations s c providerName prior target).1.length)
    (hr : ((loadMigrations s c providerName prior target).1.get ⟨k, hk⟩).version ≠ target) :
    loadMigrations s c providerName
        ((loadMigrations s c providerName prior target).1.get ⟨k, hk⟩).version target =
      ((loadMigrations s c providerName prior target).1.drop (k + 1), none) := by
  generalize hP : (loadMigrations s c providerName prior target).1 = P at hk hr ⊢
  rw [loadMigrations_up s hs providerName hprior h] at hP
  dsimp only at hP
  subst hP
  have hsorted := upPlan_sorted s providerName hu.nodup_up prior target
  have hm := List.mem_filter.1 ((s.perm _ _).subset (List.get_mem _ k hk))
  simp only [upStep, Bool.and_eq_true, decide_eq_true_eq] at hm
  obtain ⟨-, ⟨-, hlo⟩, hhi⟩ := hm
  rw [loadMigrations_up s hs providerName (by omega) (by omega)]
  congr 1
  refine eq_of_perm_of_sorted_of_asymm (fun a b h₁ h₂ => lt_asymm h₁ h₂) ?_
    (upPlan_sorted s providerName hu.nodup_up _ target) (hsorted.sublist (List.drop_sublist _ _))
  rw [← filter_get_eq_drop (fun a b h₁ h₂ => lt_asymm h₁ h₂) hsorted k hk,
    filter_upStep_of_lt providerName ms target hlo]
  exact (s.perm _ _).trans ((s.perm _ _).symm.filter _)

theorem loadMigrations_resume_down {prior target : Int} (h : target < prior)
    (k : ℕ) (hk : k < (loadMigrations s c providerName prior target).1.length)
    (hr : ((loadMigrations s c providerName prior target).1.get ⟨k, hk⟩).version - 1 ≠ target) :
    loadMigrations s c providerName
        (((loadMigrations s c providerName prior target).1.get ⟨k, hk⟩).version - 1) target =
      ((loadMigrations s c providerName prior target).1.drop (k + 1), none) := by
  generalize hP : (loadMigrations s c providerName prior target).1 = P at hk hr ⊢
  rw [loadMigrations_down s hs providerName h] at hP
  dsimp only at hP
  subst hP
  have hsorted := downPlan_sorted s providerName hu.nodup_down prior target
  have hm := List.mem_filter.1 ((s.perm _ _).subset (List.get_mem _ k hk))
  simp only [downStep, Bool.and_eq_true, decide_eq_true_eq] at hm
  obtain ⟨-, ⟨⟨-, hlo⟩, hhi⟩, -⟩ := hm
  rw [loadMigrations_down s hs providerName (by omega)]
  congr 1
  refine eq_of_perm_of_sorted_of_asymm (fun a b h₁ h₂ => lt_asymm h₁ h₂) ?_
    (downPlan_sorted s providerName hu.nodup_down _ target)
    (hsorted.sublist (List.drop_sublist _ _))
  rw [← filter_get_eq_drop (fun a b h₁ h₂ => lt_asymm h₁ h₂) hsorted k hk,
    filter_downStep_of_le providerName ms target hhi]
  exact (s.perm _ _).trans ((s.perm _ _).symm.filter _)

theorem loadMigrations_resume {prior target : Int} (hprior : -1 ≤ prior) (hne : prior ≠ target)
    (k : ℕ) (hk : 0 < k ∧ k ≤ (loadMigrations s c providerName prior target).1.length)
    (hr : versionAfter (decide (prior < target))
      ((loadMigrations s c providerName prior target).1.get ⟨k - 1, by omega⟩) ≠ target) :
    loadMigrations s c providerName (versionAfter (decide (prior < target))
        ((loadMigrations s c providerName prior target).1.get ⟨k - 1, by omega⟩)) target =
      ((loadMigrations s c providerName prior target).1.drop k, none) := by
  obtain ⟨j, rfl⟩ : ∃ j, k = j + 1 := ⟨k - 1, by omega⟩
  have hj : j < (loadMigrations s c providerName prior target).1.length := by omega
  rcases lt_or_gt_of_ne hne with h | h
  · simpa [versionAfter, h] using loadMigrations_resume_up s hs hu hprior h j hj
      (by simpa [versionAfter, h] using hr)
  · simpa [versionAfter, show ¬prior < target by omega] using
      loadMigrations_resume_down s hs hu h j hj
      (by simpa [versionAfter, show ¬prior < target by omega] using hr)

end Resume

theorem loadMigrations_resume_sample :
    sampleCatalog.migrations = .ok sampleMigrations ∧
      UniquePerVersion providerSQLite sampleMigrations ∧ (-1 : Int) ≤ 3 ∧ (3 : Int) ≠ 0 ∧
      (0 < 1 ∧ 1 ≤ (loadMigrations insertionSorter sampleCatalog providerSQLite 3 0).1.length) ∧
      versionAfter false
        ((loadMigrations insertionSorter sampleCatalog providerSQLite 3 0).1.get ⟨0, by decide⟩) ≠ 0 ∧
      loadMigrations insertionSorter sampleCatalog providerSQLite (versionAfter false
          ((loadMigrations insertionSorter sampleCatalog providerSQLite 3 0).1.get ⟨0, by decide⟩)) 0 =
        ((loadMigrations insertionSorter sampleCatalog providerSQLite 3 0).1.drop 1, none) :=
  ⟨sampleCatalog_migrations, by decide, by decide, by decide, by decide, by decide,
    loadMigrations_resume insertionSorter sampleCatalog_migrations
      (show UniquePerVersion providerSQLite sampleMigrations by decide)
      (show (-1 : Int) ≤ 3 by decide) (show (3 : Int) ≠ 0 by decide) 1 (by decide) (by decide)⟩

theorem loadMigrations_contiguous (s : SliceSorter) {c : Catalog} {ms : List SchemaMigration}
    (hs : c.migrations = .ok ms) {providerName : String} {L : ℕ}
    (hup : ((upMigrations providerName ms).map (·.version)).Perm
      ((List.range L).map fun i : ℕ => (i : Int) + 1))
    (hdown : ((downMigrations providerName ms).map (·.version)).Perm
      ((List.range L).map fun i : ℕ => (i : Int) + 1)) :
    (∀ prior target : Int, -1 ≤ prior → prior < target → target ≤ L →
      (loadMigrations s c providerName prior target).1.map (·.version) =
        (List.range (target - max prior 0).toNat).map fun i : ℕ => max prior 0 + 1 + i) ∧
    (∀ prior target : Int, -1 ≤ target → target < prior → prior ≤ L →
      (loadMigrations s c providerName prior target).1.map (·.version) =
        (List.range (prior + 1 - if target = -1 then 2 else max target 0 + 1).toNat).map
          fun i : ℕ => prior - i) := by
  have hrange : ((List.range L).map fun i : ℕ => (i : Int) + 1).Nodup :=
    (List.nodup_range L).map fun i j h => by omega
  constructor
  · intro prior target h1 h2 h3
    rw [loadMigrations_up s hs providerName h1 h2]
    refine eq_of_sorted_of_mem_iff
      (upPlan_versions_sorted s providerName (hup.nodup_iff.2 hrange) prior target)
      (List.pairwise_map.2 ((List.pairwise_lt_range _).imp fun h => by omega)) fun v => ?_
    rw [mem_upPlan_versions, hup.mem_iff]
    simp only [List.mem_map, List.mem_range]
    constructor
    · rintro ⟨⟨i, hi, rfl⟩, h4, h5⟩
      exact ⟨(i - max prior 0).toNat, by omega, by omega⟩
    · rintro ⟨i, hi, rfl⟩
      exact ⟨⟨(max prior 0 + i).toNat, by omega, by omega⟩, by omega, by omega⟩
  · intro prior target h1 h2 h3
    rw [loadMigrations_down s hs providerName h2]
    refine eq_of_sorted_of_mem_iff
      (downPlan_versions_sorted s providerName (hdown.nodup_iff.2 hrange) prior target)
      (List.pairwise_map.2 ((List.pairwise_lt_range _).imp fun h => by omega)) fun v => ?_
    rw [mem_downPlan_versions, hdown.mem_iff]
    simp only [List.mem_map, List.mem_range]
    split_ifs with ht
    all_goals
      constructor
      · rintro ⟨⟨i, hi, rfl⟩, h4, h5, h6⟩
        exact ⟨(prior - (i + 1)).toNat, by omega, by omega⟩
      · rintro ⟨i, hi, rfl⟩
        exact ⟨⟨(prior - i - 1).toNat, by omega, by omega⟩, by omega, by omega, by omega⟩

theorem loadMigrations_contiguous_sample :
    sampleCatalog.migrations = .ok sampleMigrations ∧
      ((upMigrations providerSQLite sampleMigrations).map (·.version)).Perm
        ((List.range 3).map fun i : ℕ => (i : Int) + 1) ∧
      ((downMigrations providerSQLite sampleMigrations).map (·.version)).Perm
        ((List.range 3).map fun i : ℕ => (i : Int) + 1) ∧
      ((-1 : Int) ≤ 0 ∧ (0 : Int) < 3 ∧ (3 : Int) ≤ (3 : ℕ) ∧
        (loadMigrations insertionSorter sampleCatalog providerSQLite 0 3).1.map (·.version) =
          (List.range ((3 : Int) - max 0 0).toNat).map fun i : ℕ => max (0 : Int) 0 + 1 + i) ∧
      ((-1 : Int) ≤ -1 ∧ (-1 : Int) < 3 ∧ (3 : Int) ≤ (3 : ℕ) ∧
        (loadMigrations insertionSorter sampleCatalog providerSQLite 3 (-1)).1.map (·.version) =
          (List.range (3 + 1 - if (-1 : Int) = -1 then 2 else max (-1) 0 + 1).toNat).map
            fun i : ℕ => (3 : Int) - i) := by
  have hup : ((upMigrations providerSQLite sampleMigrations).map (·.version)).Perm
      ((List.range 3).map fun i : ℕ => (i : Int) + 1) := by decide
  have hdown : ((downMigrations providerSQLite sampleMigrations).map (·.version)).Perm
      ((List.range 3).map fun i : ℕ => (i : Int) + 1) := by decide
  have h := loadMigrations_contiguous insertionSorter sampleCatalog_migrations hup hdown
  exact ⟨sampleCatalog_migrations, hup, hdown,
    ⟨by decide, by decide, by decide, h.1 0 3 (by decide) (by decide) (by decide)⟩,
    ⟨by decide, by decide, by decide, h.2 3 (-1) (by decide) (by decide) (by decide)⟩⟩

theorem loadMigrations_rollback (s : SliceSorter) {c : Catalog} {ms : List SchemaMigration}
    (hs : c.migrations = .ok ms) {providerName : String} (hu : UniquePerVersion providerName ms)
    (hdir : ∀ v, v ∈ (upMigrations providerName ms).map (·.version) ↔
      v ∈ (downMigrations providerName ms).map (·.version))
    {a b : Int} (ha : -1 ≤ a) (hab : a < b) :
    (loadMigrations s c providerName b a).1.map (·.version) =
      ((loadMigrations s c providerName a b).1.map (·.version)).reverse.filter
        fun v => a ≠ -1 ∨ v ≠ 1 := by
  rw [loadMigrations_down s hs providerName hab, loadMigrations_up s hs providerName ha hab]
  have hrev : (((s.slice (fun a b => a.version < b.version)
      (ms.filter (upStep providerName a b))).map (·.version)).reverse).Sorted (· > ·) :=
    List.pairwise_reverse.2 (upPlan_versions_sorted s providerName hu.nodup_up a b)
  refine eq_of_sorted_of_mem_iff (downPlan_versions_sorted s providerName hu.nodup_down b a)
    (hrev.filter _) fun v => ?_
  rw [mem_downPlan_versions, List.mem_filter, List.mem_reverse, mem_upPlan_versions, hdir]
  simp only [decide_eq_true_eq]
  constructor
  · rintro ⟨hv, h1, h2, h3⟩
    exact ⟨⟨hv, h1, h2⟩, by omega⟩
  · rintro ⟨⟨hv, h1, h2⟩, h3⟩
    exact ⟨hv, h1, h2, by omega⟩

theorem loadMigrations_rollback_sample :
    sampleCatalog.migrations = .ok sampleMigrations ∧
      UniquePerVersion providerSQLite sampleMigrations ∧
      (∀ v, v ∈ (upMigrations providerSQLite sampleMigrations).map (·.version) ↔
        v ∈ (downMigrations providerSQLite sampleMigrations).map (·.version)) ∧
      (-1 : Int) ≤ -1 ∧ (-1 : Int) < 3 ∧
      (loadMigrations insertionSorter sampleCatalog providerSQLite 3 (-1)).1.map (·.version) =
        ((loadMigrations insertionSorter sampleCatalog providerSQLite (-1) 3).1.map
          (·.version)).reverse.filter fun v => (-1 : Int) ≠ -1 ∨ v ≠ 1 := by
  have hdir : ∀ v, v ∈ (upMigrations providerSQLite sampleMigrations).map (·.version) ↔
      v ∈ (downMigrations providerSQLite sampleMigrations).map (·.version) := fun v => by
    rw [show (upMigrations providerSQLite sampleMigrations).map (·.version) =
      (downMigrations providerSQLite sampleMigrations).map (·.version) by decide]
  exact ⟨sampleCatalog_migrations, by decide, hdir, by decide, by decide,
    loadMigrations_rollback insertionSorter sampleCatalog_migrations (by decide) hdir
      (by decide) (by decide)⟩

theorem UniquePerVersion.nodup_plan {providerName : String} {ms : List SchemaMigration}
    (hu : UniquePerVersion providerName ms) (up : Bool) (target prior : Int) :
    ((ms.filter (!skipMigration providerName up target prior ·)).map (·.version)).Nodup :=
  hu.nodup_of_subset up fun m hm => by
    have h : skipMigration providerName up target prior m = false := by simpa using hm
    exact ⟨up_of_skipMigration_eq_false h, applicable_of_skipMigration_eq_false h⟩

/-- `sort.Slice` is not stable, but under the uniqueness invariant no two steps of a plan
share a version, so every implementation of its contract gives the same plan. -/
theorem loadMigrations_sorter_independent (s₁ s₂ : SliceSorter) {c : Catalog}
    {ms : List SchemaMigration} (hs : c.migrations = .ok ms) {providerName : String}
    (hu : UniquePerVersion providerName ms) (prior target : Int) :
    loadMigrations s₁ c providerName prior target =
      loadMigrations s₂ c providerName prior target := by
  by_cases hsame : prior = target ∧ (prior ≠ -1 ∨ target ≠ -1)
  · simp only [loadMigrations, if_pos hsame]
  · rw [loadMigrations_eq s₁ hs providerName hsame, loadMigrations_eq s₂ hs providerName hsame]
    have hn := hu.nodup_plan (decide (prior < target)) target prior
    have hp : ∀ less xs, (s₁.slice less xs).Perm (s₂.slice less xs) := fun less xs =>
      (s₁.perm less xs).trans (s₂.perm less xs).symm
    congr 1
    split_ifs
    · exact eq_of_perm_of_sorted_of_asymm (fun a b h₁ h₂ => lt_asymm h₁ h₂) (hp _ _)
        (sorted_lt_of_nodup (s₁.sorted_ascending _) (((s₁.perm _ _).map _).nodup_iff.2 hn))
        (sorted_lt_of_nodup (s₂.sorted_ascending _) (((s₂.perm _ _).map _).nodup_iff.2 hn))
    · exact eq_of_perm_of_sorted_of_asymm (fun a b h₁ h₂ => lt_asymm h₁ h₂) (hp _ _)
        (sorted_gt_of_nodup (s₁.sorted_descending _) (((s₁.perm _ _).map _).nodup_iff.2 hn))
        (sorted_gt_of_nodup (s₂.sorted_descending _) (((s₂.perm _ _).map _).nodup_iff.2 hn))

theorem loadMigrations_sorter_independent_sample :
    sampleCatalog.migrations = .ok sampleMigrations ∧
      UniquePerVersion providerSQLite sampleMigrations ∧
      loadMigrations insertionSorter sampleCatalog providerSQLite 3 (-1) =
        loadMigrations mergeSorter sampleCatalog providerSQLite 3 (-1) :=
  ⟨sampleCatalog_migrations, by decide, loadMigrations_sorter_independent insertionSorter
    mergeSorter sampleCatalog_migrations (show UniquePerVersion providerSQLite sampleMigrations
      by decide) 3 (-1)⟩

/-- Under the uniqueness invariant no plan runs two steps of one version, whatever the two
versions: the versions of an upgrade strictly increase and those of a rollback strictly
decrease. -/
theorem loadMigrations_versions_strict (s : SliceSorter) {c : Catalog}
    {ms : List SchemaMigration} (hs : c.migrations = .ok ms) {providerName : String}
    (hu : UniquePerVersion providerName ms) (prior target : Int) :
    (prior < target →
      ((loadMigrations s c providerName prior target).1.map (·.version)).Sorted (· < ·)) ∧
    (target ≤ prior →
      ((loadMigrations s c providerName prior target).1.map (·.version)).Sorted (· > ·)) := by
  by_cases hsame : prior = target ∧ (prior ≠ -1 ∨ target ≠ -1)
  · simp [loadMigrations, if_pos hsame]
  rw [loadMigrations_eq s hs providerName hsame]
  have hn := hu.nodup_plan (decide (prior < target)) target prior
  refine ⟨fun h => ?_, fun h => ?_⟩
  · rw [if_pos h]
    exact List.pairwise_map.2
      (sorted_lt_of_nodup (s.sorted_ascending _) (((s.perm _ _).map _).nodup_iff.2 hn))
  · rw [if_neg (not_lt.2 h)]
    exact List.pairwise_map.2
      (sorted_gt_of_nodup (s.sorted_descending _) (((s.perm _ _).map _).nodup_iff.2 hn))

theorem loadMigrations_versions_strict_sample :
    sampleCatalog.migrations = .ok sampleMigrations ∧
      UniquePerVersion providerSQLite sampleMigrations ∧
      ((-2 : Int) < 3 →
        ((loadMigrations insertionSorter sampleCatalog providerSQLite (-2) 3).1.map
          (·.version)).Sorted (· < ·)) ∧
      ((3 : Int) ≤ -2 →
        ((loadMigrations insertionSorter sampleCatalog providerSQLite (-2) 3).1.map
          (·.version)).Sorted (· > ·)) :=
  ⟨sampleCatalog_migrations, by decide, loadMigrations_versions_strict insertionSorter
    sampleCatalog_migrations (show UniquePerVersion providerSQLite sampleMigrations by decide)
    (-2) 3⟩

/-- A request from pre1 to pre1 is the one equal pair that is not refused; over a catalog
that parses, its plan is empty. -/
theorem loadMigrations_pre1_noop (s : SliceSorter) {c : Catalog} {ms : List SchemaMigration}
    (hs : c.migrations = .ok ms) (providerName : String) :
    loadMigrations s c providerName (-1) (-1) = ([], none) := by
  have hf : ms.filter (!skipMigration providerName false (-1) (-1) ·) = [] :=
    List.filter_eq_nil_iff.2 fun m _ => by
      rw [skipMigration_down]
      simp only [downStep, Bool.and_eq_true, decide_eq_true_eq]
      omega
  rw [loadMigrations_eq s hs providerName (by decide), if_neg (by decide),
    decide_eq_false (by decide), hf, (s.perm _ []).eq_nil]

theorem loadMigrations_pre1_noop_sample :
    sampleCatalog.migrations = .ok sampleMigrations ∧
      loadMigrations insertionSorter sampleCatalog providerSQLite (-1) (-1) = ([], none) :=
  ⟨sampleCatalog_migrations,
    loadMigrations_pre1_noop insertionSorter sampleCatalog_migrations providerSQLite⟩

end AuthSso.Storage
