import AuthSso.Storage.Sequence

/-!
# Runs of the planner

A migration moves the schema step by step, and each completed step leaves the schema at
the version `versionAfter` gives. Under the uniqueness invariant the plans fit together:
the plan to a far version is the plan to any version in between followed by the plan from
there, and a migration restarted after each step, from the version it reached, runs the
steps of the first plan in order and then finds nothing left. One exception to splitting
comes from the pre1 rule of `skipMigration`: a rollback to pre1 by way of version 0 runs
the version 1 Down script that a direct rollback to pre1 leaves out. The same rule makes
a full run of a rollback to pre1 stop at version 1, where every other run stops at its
target.

`skipMigration` checks the bounds of an upgrade only when its target is not -1, so an
upgrade toward pre1, possible only from below it (the unknown version -2, say), keeps
every Up migration of the provider, whatever its version.

`latestMigrationVersion` counts only the Up migrations scoped to the provider itself. An
upgrade from the version it reports can therefore still run steps, but only steps scoped
to all providers.

The runner applies the steps of a plan one after another and records each. The database
is then at the version after the last step. An upgrade ends at its target once the catalog
has the target's Up script. A rollback ends at its target once the catalog has the Down
script just above it.
-/
namespace AuthSso.Storage

/-- A migration to `target` that is interrupted after every step and started again from the
version the step left: each start at the target itself is refused, as a request to migrate
to the current version is, and otherwise plans from the current version and runs the first
step of that plan. -/
def replanRun (s : SliceSorter) (c : Catalog) (providerName : String) (target : Int) :
    ℕ → Int → List SchemaMigration
  | 0, _ => []
  | fuel + 1, current =>
    if current = target then []
    else match (loadMigrations s c providerName current target).1 with
      | [] => []
      | m :: _ => m :: replanRun s c providerName target fuel (versionAfter m.up m)

/-- Splitting a filtered list by a second test, written as two filters of the list. -/
theorem filter_perm_append {α : Type} (l : List α) {p p₁ p₂ : α → Bool} (q : α → Bool)
    (h₁ : ∀ a, (q a && p a) = p₁ a) (h₂ : ∀ a, (!q a && p a) = p₂ a) :
    (l.filter p).Perm (l.filter p₁ ++ l.filter p₂) := by
  have h := (List.filter_append_perm q (l.filter p)).symm
  rwa [List.filter_filter, List.filter_filter, List.filter_congr fun a _ => h₁ a,
    List.filter_congr fun a _ => h₂ a] at h

theorem mem_upPlan (s : SliceSorter) {providerName : String}
    {ms : List SchemaMigration} {prior target : Int} {m : SchemaMigration}
    (hm : m ∈ s.slice (fun a b => a.version < b.version)
      (ms.filter (upStep providerName prior target))) :
    m.up = true ∧ prior < m.version ∧ m.version ≤ target := by
  have h := List.mem_filter.1 ((s.perm _ _).subset hm)
  simp only [upStep, Bool.and_eq_true, decide_eq_true_eq] at h
  exact ⟨h.2.1.1.1, h.2.1.2, h.2.2⟩

theorem mem_downPlan (s : SliceSorter) {providerName : String}
    {ms : List SchemaMigration} {prior target : Int} {m : SchemaMigration}
    (hm : m ∈ s.slice (fun a b => a.version > b.version)
      (ms.filter (downStep providerName prior target))) :
    m.up = false ∧ target < m.version ∧ m.version ≤ prior := by
  have h := List.mem_filter.1 ((s.perm _ _).subset hm)
  simp only [downStep, Bool.and_eq_true, Bool.not_eq_true', decide_eq_true_eq] at h
  exact ⟨h.2.1.1.1.1, h.2.1.1.2, h.2.1.2⟩

/-- In a strictly increasing list, the first `k + 1` elements are those up to the one at
position `k`. -/
theorem mem_take_succ_iff {l : List Int} (hl : l.Sorted (· < ·)) (k : ℕ) (hk : k < l.length)
    (v : Int) : v ∈ l.take (k + 1) ↔ v ∈ l ∧ v ≤ l.get ⟨k, hk⟩ := by
  have hdrop := filter_get_eq_drop (fun a b h₁ h₂ => lt_asymm h₁ h₂) hl k hk
  have hnd : (l.take (k + 1) ++ l.drop (k + 1)).Nodup :=
    (List.take_append_drop _ l).symm ▸ hl.nodup
  constructor
  · intro hv
    refine ⟨List.mem_of_mem_take hv, le_of_not_lt fun hlt => ?_⟩
    have hd : v ∈ l.drop (k + 1) :=
      hdrop ▸ List.mem_filter.2 ⟨List.mem_of_mem_take hv, decide_eq_true hlt⟩
    exact List.disjoint_of_nodup_append hnd hv hd
  · rintro ⟨hv, hle⟩
    rw [← List.take_append_drop (k + 1) l, List.mem_append] at hv
    refine hv.resolve_right fun hd => ?_
    rw [← hdrop, List.mem_filter, decide_eq_true_eq] at hd
    omega

section Split

variable (s : SliceSorter) {c : Catalog} {ms : List SchemaMigration}
  (hs : c.migrations = .ok ms) {providerName : String} (hu : UniquePerVersion providerName ms)
include hs hu

/-- An upgrade in two requests, by way of any version in between, runs the steps of the
upgrade in one request, in the same order. -/
theorem loadMigrations_up_append {prior mid target : Int} (hprior : -1 ≤ prior)
    (h₁ : prior < mid) (h₂ : mid < target) :
    (loadMigrations s c providerName prior target).1 =
      (loadMigrations s c providerName prior mid).1 ++
        (loadMigrations s c providerName mid target).1 := by
  rw [loadMigrations_up s hs providerName hprior (h₁.trans h₂),
    loadMigrations_up s hs providerName hprior h₁,
    loadMigrations_up s hs providerName (by omega) h₂]
  have hsplit : (ms.filter (upStep providerName prior target)).Perm
      (ms.filter (upStep providerName prior mid) ++
        ms.filter (upStep providerName mid target)) := by
    simp only [filter_upStep, List.filter_filter]
    exact filter_perm_append _ (fun m => decide (m.version ≤ mid))
      (fun m => by simp only [← Bool.decide_and]; exact decide_eq_decide.2 (by omega))
      (fun m => by
        simp only [← decide_not, ← Bool.decide_and]
        exact decide_eq_decide.2 (by omega))
  refine eq_of_perm_of_sorted_of_asymm (fun a b h₁ h₂ => lt_asymm h₁ h₂)
    ((s.perm _ _).trans (hsplit.trans ((s.perm _ _).append (s.perm _ _)).symm))
    (upPlan_sorted s providerName hu.nodup_up prior target)
    (List.pairwise_append.2 ⟨upPlan_sorted s providerName hu.nodup_up prior mid,
      upPlan_sorted s providerName hu.nodup_up mid target, fun a ha b hb => ?_⟩)
  have := (mem_upPlan s ha).2
  have := (mem_upPlan s hb).2
  omega

omit hs hu in
theorem loadMigrations_up_append_sample :
    sampleCatalog.migrations = .ok sampleMigrations ∧
      UniquePerVersion providerSQLite sampleMigrations ∧
      (-1 : Int) ≤ 0 ∧ (0 : Int) < 1 ∧ (1 : Int) < 3 ∧
      (loadMigrations insertionSorter sampleCatalog providerSQLite 0 3).1 =
        (loadMigrations insertionSorter sampleCatalog providerSQLite 0 1).1 ++
          (loadMigrations insertionSorter sampleCatalog providerSQLite 1 3).1 :=
  ⟨sampleCatalog_migrations, by decide, by decide, by decide, by decide,
    loadMigrations_up_append insertionSorter sampleCatalog_migrations
      (show UniquePerVersion providerSQLite sampleMigrations by decide)
      (show (-1 : Int) ≤ 0 by decide) (show (0 : Int) < 1 by decide)
      (show (1 : Int) < 3 by decide)⟩

/-- A rollback in two requests runs the steps of the rollback in one request, in the same
order, once the version 1 step is dropped: only a rollback to pre1 by way of version 0
contains it. -/
theorem loadMigrations_down_append {prior mid target : Int} (htarget : -1 ≤ target)
    (h₁ : target < mid) (h₂ : mid < prior) :
    (loadMigrations s c providerName prior target).1 =
      ((loadMigrations s c providerName prior mid).1 ++
        (loadMigrations s c providerName mid target).1).filter
        fun m => target ≠ -1 ∨ m.version ≠ 1 := by
  rw [loadMigrations_down s hs providerName (h₁.trans h₂),
    loadMigrations_down s hs providerName h₂, loadMigrations_down s hs providerName h₁]
  have hsplit : (ms.filter (downStep providerName prior target)).Perm
      ((ms.filter (downStep providerName prior mid)).filter
          (fun m => target ≠ -1 ∨ m.version ≠ 1) ++
        (ms.filter (downStep providerName mid target)).filter
          (fun m => target ≠ -1 ∨ m.version ≠ 1)) := by
    simp only [filter_downStep, List.filter_filter]
    exact filter_perm_append _ (fun m => decide (mid < m.version))
      (fun m => by simp only [← Bool.decide_and]; exact decide_eq_decide.2 (by omega))
      (fun m => by
        simp only [← decide_not, ← Bool.decide_and]
        exact decide_eq_decide.2 (by omega))
  rw [List.filter_append]
  refine eq_of_perm_of_sorted_of_asymm (fun a b h₁ h₂ => lt_asymm h₁ h₂)
    ((s.perm _ _).trans (hsplit.trans
      (((s.perm _ _).filter _).append ((s.perm _ _).filter _)).symm))
    (downPlan_sorted s providerName hu.nodup_down prior target) ?_
  rw [← List.filter_append]
  refine (List.pairwise_append.2 ⟨downPlan_sorted s providerName hu.nodup_down prior mid,
    downPlan_sorted s providerName hu.nodup_down mid target, fun a ha b hb => ?_⟩).filter _
  have := (mem_downPlan s ha).2
  have := (mem_downPlan s hb).2
  omega

omit hs hu in
theorem loadMigrations_down_append_sample :
    sampleCatalog.migrations = .ok sampleMigrations ∧
      UniquePerVersion providerSQLite sampleMigrations ∧
      (-1 : Int) ≤ -1 ∧ (-1 : Int) < 0 ∧ (0 : Int) < 3 ∧
      (loadMigrations insertionSorter sampleCatalog providerSQLite 3 (-1)).1 =
        ((loadMigrations insertionSorter sampleCatalog providerSQLite 3 0).1 ++
          (loadMigrations insertionSorter sampleCatalog providerSQLite 0 (-1)).1).filter
          fun m => (-1 : Int) ≠ -1 ∨ m.version ≠ 1 :=
  ⟨sampleCatalog_migrations, by decide, by decide, by decide, by decide,
    loadMigrations_down_append insertionSorter sampleCatalog_migrations
      (show UniquePerVersion providerSQLite sampleMigrations by decide)
      (show (-1 : Int) ≤ -1 by decide) (show (-1 : Int) < 0 by decide)
      (show (0 : Int) < 3 by decide)⟩

/-- What the first step of a plan leaves: either the target, with nothing after it, or a
version from which the plan is the rest of the steps. -/
theorem loadMigrations_eq_cons {cur target : Int} (hcur : -1 ≤ cur ∨ target < cur)
    (hne : cur ≠ target) {m : SchemaMigration} {rest : List SchemaMigration}
    (h : (loadMigrations s c providerName cur target).1 = m :: rest) :
    (versionAfter m.up m = target ∧ rest = []) ∨
      (versionAfter m.up m ≠ target ∧
        (-1 ≤ versionAfter m.up m ∨ target < versionAfter m.up m) ∧
        (loadMigrations s c providerName (versionAfter m.up m) target).1 = rest) := by
  have hk : 0 < (loadMigrations s c providerName cur target).1.length := by simp [h]
  rcases lt_or_gt_of_ne hne with hlt | hgt
  · have hcur' : -1 ≤ cur := by omega
    have key := fun hr => loadMigrations_resume_up s hs hu hcur' hlt 0 hk hr
    have hplan := congrArg Prod.fst (loadMigrations_up s hs providerName hcur' hlt)
    have hsorted := upPlan_sorted s providerName hu.nodup_up cur target
    dsimp only at hplan
    generalize hP : (loadMigrations s c providerName cur target).1 = P at h hk key hplan
    subst h
    rw [← hplan, List.sorted_cons] at hsorted
    have hm := mem_upPlan s (hplan ▸ List.mem_cons_self m rest)
    rw [versionAfter, if_pos hm.1]
    by_cases hv : m.version = target
    · refine .inl ⟨hv, List.eq_nil_iff_forall_not_mem.2 fun x hx => ?_⟩
      have := hsorted.1 x hx
      have := (mem_upPlan s (hplan ▸ List.mem_cons_of_mem m hx)).2
      omega
    · exact .inr ⟨hv, .inl (by omega), congrArg Prod.fst (key hv)⟩
  · have key := fun hr => loadMigrations_resume_down s hs hu hgt 0 hk hr
    have hplan := congrArg Prod.fst (loadMigrations_down s hs providerName hgt)
    have hsorted := downPlan_sorted s providerName hu.nodup_down cur target
    dsimp only at hplan
    generalize hP : (loadMigrations s c providerName cur target).1 = P at h hk key hplan
    subst h
    rw [← hplan, List.sorted_cons] at hsorted
    have hm := mem_downPlan s (hplan ▸ List.mem_cons_self m rest)
    rw [versionAfter, if_neg (by simp [hm.1])]
    by_cases hv : m.version - 1 = target
    · refine .inl ⟨hv, List.eq_nil_iff_forall_not_mem.2 fun x hx => ?_⟩
      have := hsorted.1 x hx
      have := (mem_downPlan s (hplan ▸ List.mem_cons_of_mem m hx)).2
      omega
    · exact .inr ⟨hv, .inr (by omega), congrArg Prod.fst (key hv)⟩

/-- A migration restarted after every step, from the version that step left, runs the
steps of the plan made at the start, each once and in order, and then stops. -/
theorem replanRun_eq_loadMigrations {prior target : Int}
    (hprior : -1 ≤ prior ∨ target < prior)
    (hne : prior ≠ target) (fuel : ℕ)
    (hfuel : (loadMigrations s c providerName prior target).1.length ≤ fuel) :
    replanRun s c providerName target fuel prior =
      (loadMigrations s c providerName prior target).1 := by
  generalize hL : (loadMigrations s c providerName prior target).1 = L at hfuel
  induction L generalizing prior fuel with
  | nil =>
    cases fuel with
    | zero => rfl
    | succ fuel => simp only [replanRun, if_neg hne, hL]
  | cons m rest ih =>
    obtain ⟨fuel, rfl⟩ : ∃ f, fuel = f + 1 := ⟨fuel - 1, by simp at hfuel; omega⟩
    simp only [replanRun, if_neg hne, hL, List.cons.injEq, true_and]
    rcases loadMigrations_eq_cons s hs hu hprior hne hL with ⟨hv, rfl⟩ | ⟨hv, hcur, hrest⟩
    · cases fuel with
      | zero => rfl
      | succ fuel => simp only [replanRun, if_pos hv]
    · exact ih hcur hv fuel hrest (by simpa using hfuel)

omit hs hu in
theorem replanRun_eq_loadMigrations_sample :
    sampleCatalog.migrations = .ok sampleMigrations ∧
      UniquePerVersion providerSQLite sampleMigrations ∧
      ((-1 : Int) ≤ 3 ∨ (0 : Int) < 3) ∧ (3 : Int) ≠ 0 ∧
      (loadMigrations insertionSorter sampleCatalog providerSQLite 3 0).1.length ≤ 3 ∧
      replanRun insertionSorter sampleCatalog providerSQLite 0 3 3 =
        (loadMigrations insertionSorter sampleCatalog providerSQLite 3 0).1 :=
  ⟨sampleCatalog_migrations, by decide, by decide, by decide, by decide,
    replanRun_eq_loadMigrations insertionSorter sampleCatalog_migrations
      (show UniquePerVersion providerSQLite sampleMigrations by decide)
      (show (-1 : Int) ≤ 3 ∨ (0 : Int) < 3 by decide)
      (show (3 : Int) ≠ 0 by decide) 3 (by decide)⟩

/-- After the first `k` steps of an upgrade, as when the next step fails, the rollback to the
version the upgrade started from undoes exactly those steps, newest first; a rollback to
pre1 leaves version 1 in place. -/
theorem loadMigrations_rollback_partial
    (hdir : ∀ v, v ∈ (upMigrations providerName ms).map (·.version) ↔
      v ∈ (downMigrations providerName ms).map (·.version))
    {prior target : Int} (hprior : -1 ≤ prior) (h : prior < target) (k : ℕ)
    (hk : 0 < k ∧ k ≤ (loadMigrations s c providerName prior target).1.length) :
    (loadMigrations s c providerName
        ((loadMigrations s c providerName prior target).1.get ⟨k - 1, by omega⟩).version
        prior).1.map (·.version) =
      (((loadMigrations s c providerName prior target).1.take k).map (·.version)).reverse.filter
        fun v => prior ≠ -1 ∨ v ≠ 1 := by
  obtain ⟨j, rfl⟩ : ∃ j, k = j + 1 := ⟨k - 1, by omega⟩
  have hplan := congrArg Prod.fst (loadMigrations_up s hs providerName hprior h)
  dsimp only at hplan
  generalize hP : (loadMigrations s c providerName prior target).1 = P at hk hplan ⊢
  have hj : j < P.length := by omega
  show (loadMigrations s c providerName (P.get ⟨j, hj⟩).version prior).1.map (·.version) = _
  have hsorted : (P.map (·.version)).Sorted (· < ·) :=
    hplan ▸ upPlan_versions_sorted s providerName hu.nodup_up prior target
  have hw := mem_upPlan s (m := P.get ⟨j, hj⟩) (by rw [← hplan]; exact List.get_mem P j hj)
  rw [loadMigrations_down s hs providerName hw.2.1, List.map_take]
  refine eq_of_sorted_of_mem_iff (downPlan_versions_sorted s providerName hu.nodup_down _ prior)
    ((List.pairwise_reverse.2 (hsorted.sublist (List.take_sublist _ _))).filter _) fun v => ?_
  have hmemP : ∀ v, v ∈ P.map (·.version) ↔
      v ∈ (upMigrations providerName ms).map (·.version) ∧ prior < v ∧ v ≤ target := by
    rw [hplan]
    exact mem_upPlan_versions s providerName prior target
  rw [mem_downPlan_versions, List.mem_filter, List.mem_reverse,
    mem_take_succ_iff hsorted j (by simpa using hj), hmemP, ← hdir,
    decide_eq_true_eq]
  simp only [List.get_eq_getElem, List.getElem_map] at hw ⊢
  constructor
  · rintro ⟨hv, h₁, h₂, h₃⟩
    exact ⟨⟨⟨hv, h₁, by omega⟩, h₂⟩, by omega⟩
  · rintro ⟨⟨⟨hv, h₁, -⟩, h₂⟩, h₃⟩
    exact ⟨hv, h₁, h₂, by omega⟩

omit hs hu in
theorem loadMigrations_rollback_partial_sample :
    sampleCatalog.migrations = .ok sampleMigrations ∧
      UniquePerVersion providerSQLite sampleMigrations ∧
      (∀ v, v ∈ (upMigrations providerSQLite sampleMigrations).map (·.version) ↔
        v ∈ (downMigrations providerSQLite sampleMigrations).map (·.version)) ∧
      (-1 : Int) ≤ -1 ∧ (-1 : Int) < 3 ∧
      (0 < 2 ∧
        2 ≤ (loadMigrations insertionSorter sampleCatalog providerSQLite (-1) 3).1.length) ∧
      (loadMigrations insertionSorter sampleCatalog providerSQLite
          ((loadMigrations insertionSorter sampleCatalog providerSQLite (-1) 3).1.get
            ⟨2 - 1, by decide⟩).version (-1)).1.map (·.version) =
        (((loadMigrations insertionSorter sampleCatalog providerSQLite (-1) 3).1.take 2).map
          (·.version)).reverse.filter fun v => (-1 : Int) ≠ -1 ∨ v ≠ 1 := by
  have hdir : ∀ v, v ∈ (upMigrations providerSQLite sampleMigrations).map (·.version) ↔
      v ∈ (downMigrations providerSQLite sampleMigrations).map (·.version) := fun v => by
    rw [show (upMigrations providerSQLite sampleMigrations).map (·.version) =
      (downMigrations providerSQLite sampleMigrations).map (·.version) by decide]
  exact ⟨sampleCatalog_migrations, by decide, hdir, by decide, by decide, by decide,
    loadMigrations_rollback_partial insertionSorter sampleCatalog_migrations
      (show UniquePerVersion providerSQLite sampleMigrations by decide) hdir
      (show (-1 : Int) ≤ -1 by decide) (show (-1 : Int) < 3 by decide)
      2 (by decide)⟩

end Split

theorem loadMigrations_up_to_pre1 (s : SliceSorter) {c : Catalog} {ms : List SchemaMigration}
    (hs : c.migrations = .ok ms) (providerName : String) {prior : Int} (hprior : prior < -1) :
    ∃ plan, loadMigrations s c providerName prior (-1) = (plan, none) ∧
      plan.Perm (upMigrations providerName ms) ∧ plan.Sorted (·.version ≤ ·.version) := by
  have hf : ms.filter (!skipMigration providerName true (-1) prior ·) =
      upMigrations providerName ms :=
    List.filter_congr fun m _ => by
      rw [Bool.eq_iff_iff]
      simp only [skipMigration, applicable]
      cases m.up <;> by_cases ha : m.provider = providerAll <;>
        by_cases hb : m.provider = providerName <;> simp [ha, hb]
  rw [loadMigrations_eq s hs providerName (by omega), if_pos hprior, decide_eq_true hprior, hf]
  exact ⟨_, rfl, s.perm _ _, s.sorted_ascending _⟩

theorem loadMigrations_up_to_pre1_sample :
    sampleCatalog.migrations = .ok sampleMigrations ∧ (-2 : Int) < -1 ∧
      ∃ plan, loadMigrations insertionSorter sampleCatalog providerSQLite (-2) (-1) =
          (plan, none) ∧
        plan.Perm (upMigrations providerSQLite sampleMigrations) ∧
        plan.Sorted (·.version ≤ ·.version) :=
  ⟨sampleCatalog_migrations, by decide, loadMigrations_up_to_pre1 insertionSorter
    sampleCatalog_migrations providerSQLite (show (-2 : Int) < -1 by decide)⟩

theorem loadMigrations_after_latest (s : SliceSorter) {c : Catalog} {ms : List SchemaMigration}
    (hs : c.migrations = .ok ms) (providerName : String) {target : Int}
    (h : (latestMigrationVersion c providerName).1 < target) :
    ∀ m ∈ (loadMigrations s c providerName (latestMigrationVersion c providerName).1 target).1,
      m.provider = providerAll := by
  intro m hm
  rw [latestMigrationVersion_eq hs] at h hm
  obtain ⟨h0, hle, -⟩ := foldl_max_spec
    ((ms.filter fun m => m.provider = providerName ∧ m.up).map (·.version)) 0
  rw [loadMigrations_up s hs providerName (by omega) h] at hm
  have hf := List.mem_filter.1 ((s.perm _ _).subset hm)
  simp only [upStep, applicable, Bool.and_eq_true, Bool.or_eq_true, decide_eq_true_eq] at hf
  obtain ⟨hms, ⟨⟨hup, hprov⟩, hlo⟩, -⟩ := hf
  refine hprov.resolve_right fun hp => ?_
  have := hle m.version (List.mem_map.2 ⟨m, by simp [hms, hp, hup], rfl⟩)
  omega

theorem loadMigrations_after_latest_sample :
    sampleCatalog.migrations = .ok sampleMigrations ∧
      (latestMigrationVersion sampleCatalog providerMySQL).1 < 3 ∧
      ∀ m ∈ (loadMigrations insertionSorter sampleCatalog providerMySQL
          (latestMigrationVersion sampleCatalog providerMySQL).1 3).1,
        m.provider = providerAll :=
  ⟨sampleCatalog_migrations, by decide, loadMigrations_after_latest insertionSorter
    sampleCatalog_migrations providerMySQL (show (latestMigrationVersion sampleCatalog
      providerMySQL).1 < 3 by decide)⟩

/-- Modelled from the spec: the runner applies the steps of a plan in order, and the
database is then at the version after the last step; an empty plan leaves it where it
was. -/
def runPlan (current : Int) (plan : List SchemaMigration) : Int :=
  plan.foldl (fun _ m => versionAfter m.up m) current

theorem runPlan_eq_getLast (current : Int) {plan : List SchemaMigration} (h : plan ≠ []) :
    runPlan current plan = versionAfter (plan.getLast h).up (plan.getLast h) := by
  unfold runPlan
  conv_lhs => rw [← List.dropLast_append_getLast h]
  rw [List.foldl_append]
  rfl

/-- In a list sorted by a reflexive relation, every element is related to the last. -/
theorem rel_getLast {α : Type} {r : α → α → Prop} (hr : ∀ a, r a a) {l : List α}
    (hl : l.Pairwise r) (h : l ≠ []) : ∀ x ∈ l, r x (l.getLast h) := by
  intro x hx
  rw [← List.dropLast_append_getLast h] at hl hx
  rcases List.mem_append.1 hx with hx | hx
  · exact (List.pairwise_append.1 hl).2.2 x hx _ (List.mem_singleton_self _)
  · exact List.mem_singleton.1 hx ▸ hr x

section Run

variable (s : SliceSorter) {c : Catalog} {ms : List SchemaMigration}
  (hs : c.migrations = .ok ms) {providerName : String}
include hs

/-- An upgrade that has the Up script of its target leaves the database at the target. -/
theorem runPlan_up_of_mem {prior target : Int} (hprior : -1 ≤ prior) (h : prior < target)
    {m : SchemaMigration} (hm : m ∈ ms) (hup : m.up) (happ : applicable providerName m)
    (hv : m.version = target) :
    runPlan prior (loadMigrations s c providerName prior target).1 = target := by
  have hstep : upStep providerName prior target m := by
    simp only [upStep, Bool.and_eq_true, decide_eq_true_eq]
    exact ⟨⟨⟨hup, happ⟩, by omega⟩, by omega⟩
  rw [loadMigrations_up s hs providerName hprior h]
  have hmem := (s.perm (fun a b => a.version < b.version) _).mem_iff.2
    (List.mem_filter.2 ⟨hm, hstep⟩)
  have hne := List.ne_nil_of_mem hmem
  have hlast := mem_upPlan s (List.getLast_mem hne)
  rw [runPlan_eq_getLast _ hne, versionAfter, if_pos hlast.1]
  have := rel_getLast (r := fun a b : SchemaMigration => a.version ≤ b.version)
    (fun _ => le_refl _) (s.sorted_ascending _) hne m hmem
  omega

/-- An upgrade to a version that has an Up script leaves the database at that version. -/
theorem runPlan_up {prior target : Int} (hprior : -1 ≤ prior) (h : prior < target)
    (htarget : target ∈ (upMigrations providerName ms).map (·.version)) :
    runPlan prior (loadMigrations s c providerName prior target).1 = target := by
  obtain ⟨m, hm, hv⟩ := List.mem_map.1 htarget
  simp only [upMigrations, List.mem_filter, Bool.and_eq_true] at hm
  exact runPlan_up_of_mem s hs hprior h hm.1 hm.2.1 hm.2.2 hv

omit hs in
theorem runPlan_up_sample :
    sampleCatalog.migrations = .ok sampleMigrations ∧ (-1 : Int) ≤ 0 ∧ (0 : Int) < 2 ∧
      (2 : Int) ∈ (upMigrations providerSQLite sampleMigrations).map (·.version) ∧
      runPlan 0 (loadMigrations insertionSorter sampleCatalog providerSQLite 0 2).1 = 2 :=
  ⟨sampleCatalog_migrations, by decide, by decide, by decide,
    runPlan_up insertionSorter sampleCatalog_migrations (show (-1 : Int) ≤ 0 by decide)
      (show (0 : Int) < 2 by decide)
      (show (2 : Int) ∈ (upMigrations providerSQLite sampleMigrations).map (·.version)
        by decide)⟩

/-- An upgrade to the version `latestMigrationVersion` reports leaves the database at that
version, once it is above 0: it is then the version of an Up script of the provider. -/
theorem runPlan_to_latest (providerName : String) {prior : Int} (hprior : -1 ≤ prior)
    (h : prior < (latestMigrationVersion c providerName).1)
    (hpos : 0 < (latestMigrationVersion c providerName).1) :
    runPlan prior
        (loadMigrations s c providerName prior (latestMigrationVersion c providerName).1).1 =
      (latestMigrationVersion c providerName).1 := by
  rw [latestMigrationVersion_eq hs] at h hpos ⊢
  obtain ⟨-, -, hmem⟩ := foldl_max_spec
    ((ms.filter fun m => m.provider = providerName ∧ m.up).map (·.version)) 0
  rcases hmem with h0 | hmem
  · omega
  · obtain ⟨m, hm, hv⟩ := List.mem_map.1 hmem
    simp only [List.mem_filter, decide_eq_true_eq] at hm
    exact runPlan_up_of_mem s hs hprior h hm.1 hm.2.2 (by simp [applicable, hm.2.1]) hv

omit hs in
theorem runPlan_to_latest_sample :
    sampleCatalog.migrations = .ok sampleMigrations ∧ (-1 : Int) ≤ 0 ∧
      0 < (latestMigrationVersion sampleCatalog providerSQLite).1 ∧
      runPlan 0 (loadMigrations insertionSorter sampleCatalog providerSQLite 0
          (latestMigrationVersion sampleCatalog providerSQLite).1).1 =
        (latestMigrationVersion sampleCatalog providerSQLite).1 :=
  ⟨sampleCatalog_migrations, by decide, by decide,
    runPlan_to_latest insertionSorter sampleCatalog_migrations providerSQLite
      (show (-1 : Int) ≤ 0 by decide)
      (show 0 < (latestMigrationVersion sampleCatalog providerSQLite).1 by decide)
      (show 0 < (latestMigrationVersion sampleCatalog providerSQLite).1 by decide)⟩

/-- A rollback that runs the Down script of `stop + 1` and only scripts above `stop`
leaves the database at `stop`. -/
theorem runPlan_down_of_mem {prior target stop : Int} (h : target < prior)
    {m : SchemaMigration} (hm : m ∈ ms.filter (downStep providerName prior target))
    (hv : m.version = stop + 1)
    (hlo : ∀ m' ∈ ms.filter (downStep providerName prior target), stop < m'.version) :
    runPlan prior (loadMigrations s c providerName prior target).1 = stop := by
  rw [loadMigrations_down s hs providerName h]
  have hmem := (s.perm (fun a b => a.version > b.version) _).mem_iff.2 hm
  have hne := List.ne_nil_of_mem hmem
  have hlast := List.getLast_mem hne
  rw [runPlan_eq_getLast _ hne, versionAfter, if_neg (by simp [(mem_downPlan s hlast).1])]
  have h₁ := rel_getLast (r := fun a b : SchemaMigration => a.version ≥ b.version)
    (fun _ => le_refl _) (s.sorted_descending _) hne m hmem
  have h₂ := hlo _ ((s.perm _ _).mem_iff.1 hlast)
  simp only [ge_iff_le] at h₁
  omega

/-- A rollback to a version whose next version has a Down script leaves the database at
that version. -/
theorem runPlan_down {prior target : Int} (h : target < prior)
    (hnext : target + 1 ∈ (downMigrations providerName ms).map (·.version)) :
    runPlan prior (loadMigrations s c providerName prior target).1 = target := by
  obtain ⟨m₀, hm₀, hv₀⟩ := List.mem_map.1 hnext
  simp only [downMigrations, List.mem_filter, Bool.and_eq_true, Bool.not_eq_true'] at hm₀
  refine runPlan_down_of_mem s hs h (m := m₀) (List.mem_filter.2 ⟨hm₀.1, ?_⟩) hv₀
    fun m hm => ?_
  · simp only [downStep, Bool.and_eq_true, decide_eq_true_eq, Bool.not_eq_true',
      Bool.and_eq_false_imp, decide_eq_false_iff_not]
    exact ⟨⟨⟨hm₀.2, by omega⟩, by omega⟩, by omega⟩
  · simp only [List.mem_filter, downStep, Bool.and_eq_true, decide_eq_true_eq] at hm
    exact hm.2.1.1.2

omit hs in
theorem runPlan_down_sample :
    sampleCatalog.migrations = .ok sampleMigrations ∧ (1 : Int) < 3 ∧
      (1 : Int) + 1 ∈ (downMigrations providerSQLite sampleMigrations).map (·.version) ∧
      runPlan 3 (loadMigrations insertionSorter sampleCatalog providerSQLite 3 1).1 = 1 :=
  ⟨sampleCatalog_migrations, by decide, by decide,
    runPlan_down insertionSorter sampleCatalog_migrations (show (1 : Int) < 3 by decide)
      (show (1 : Int) + 1 ∈ (downMigrations providerSQLite sampleMigrations).map (·.version)
        by decide)⟩

/-- A rollback to pre1 leaves the database at version 1, not at pre1: it never runs the
version 1 Down script. This holds once the catalog has a version 2 Down script and its Down
versions are positive, as the numbering of its files makes them. -/
theorem runPlan_rollback_pre1 {prior : Int} (hprior : 2 ≤ prior)
    (hpos : ∀ v ∈ (downMigrations providerName ms).map (·.version), 0 < v)
    (htwo : 2 ∈ (downMigrations providerName ms).map (·.version)) :
    runPlan prior (loadMigrations s c providerName prior (-1)).1 = 1 := by
  obtain ⟨m₀, hm₀, hv₀⟩ := List.mem_map.1 htwo
  have hm₀' := hm₀
  simp only [downMigrations, List.mem_filter, Bool.and_eq_true, Bool.not_eq_true'] at hm₀'
  refine runPlan_down_of_mem s hs (by omega) (m := m₀) (List.mem_filter.2 ⟨hm₀'.1, ?_⟩)
    (by omega) fun m hm => ?_
  · simp only [downStep, Bool.and_eq_true, decide_eq_true_eq, Bool.not_eq_true',
      Bool.and_eq_false_imp, decide_eq_false_iff_not]
    exact ⟨⟨⟨hm₀'.2, by omega⟩, by omega⟩, by omega⟩
  · have hdown : m ∈ downMigrations providerName ms := by
      simp only [List.mem_filter, downStep, Bool.and_eq_true] at hm
      exact List.mem_filter.2 ⟨hm.1, by simp [hm.2.1.1.1.1, hm.2.1.1.1.2]⟩
    have h0 : 0 < m.version := hpos _ (List.mem_map_of_mem _ hdown)
    simp only [List.mem_filter, downStep, Bool.and_eq_true, decide_eq_true_eq,
      Bool.not_eq_true', Bool.and_eq_false_imp, decide_eq_false_iff_not] at hm
    have h1 : m.version ≠ 1 := fun h => hm.2.2 h trivial
    omega

omit hs in
theorem runPlan_rollback_pre1_sample :
    sampleCatalog.migrations = .ok sampleMigrations ∧ (2 : Int) ≤ 3 ∧
      (∀ v ∈ (downMigrations providerSQLite sampleMigrations).map (·.version), 0 < v) ∧
      (2 : Int) ∈ (downMigrations providerSQLite sampleMigrations).map (·.version) ∧
      runPlan 3 (loadMigrations insertionSorter sampleCatalog providerSQLite 3 (-1)).1 = 1 :=
  ⟨sampleCatalog_migrations, by decide, by decide, by decide,
    runPlan_rollback_pre1 insertionSorter sampleCatalog_migrations (show (2 : Int) ≤ 3 by decide)
      (show ∀ v ∈ (downMigrations providerSQLite sampleMigrations).map (·.version), 0 < v
        by decide)
      (show (2 : Int) ∈ (downMigrations providerSQLite sampleMigrations).map (·.version)
        by decide)⟩

end Run

end AuthSso.Storage
