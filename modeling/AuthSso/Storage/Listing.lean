import AuthSso.Storage.Sequence

/-!
# The listing

Each scan reads the files in the order `migrationsFS.ReadDir` lists them. The results
do not depend on that order. Over a catalog whose files all parse, any other order of
the same files parses to the same migrations, rearranged. Under the uniqueness
invariant, the plan and the lookup are then the same. The latest version is the same
in any case. Files added with newer versions change no plan between older ones.

A release ships new migration files beside the old ones. When every migration they add
is newer than both versions of a request, the request plans as before. The one exception
is an upgrade toward pre1 from below it, which checks no bounds. The latest version never
goes down.
-/
namespace AuthSso.Storage

/-- The migration a listed entry parses to: none for a directory, or for a file that does
not parse. -/
def Catalog.parseEntry (c : Catalog) (entry : DirEntry) : Option SchemaMigration :=
  if entry.isDir then none
  else match scanMigration c entry.name with
    | .ok m => some m
    | .error _ => none

theorem scanEntries_eq_filterMap {c : Catalog} {entries : List DirEntry}
    {ms : List SchemaMigration} (h : scanEntries c entries = .ok ms) :
    ms = entries.filterMap c.parseEntry := by
  induction entries generalizing ms with
  | nil => cases h; rfl
  | cons entry entries ih =>
    cases hd : entry.isDir
    · cases hm : scanMigration c entry.name with
      | error err => simp [scanEntries, hd, hm] at h
      | ok m =>
        cases hr : scanEntries c entries with
        | error err => simp [scanEntries, hd, hm, hr] at h
        | ok rest =>
          simp only [scanEntries, hd, hm, hr, Except.map_ok, Bool.false_eq_true, if_false,
            Except.ok.injEq] at h
          simp [← h, Catalog.parseEntry, hd, hm, ih hr]
    · simpa [scanEntries, Catalog.parseEntry, hd] using ih (by simpa [scanEntries, hd] using h)

/-- The same files, listed in another order. -/
theorem scanEntries_relist (c : Catalog) (entries l : List DirEntry) :
    scanEntries { c with entries } l = scanEntries c l := by
  induction l with
  | nil => rfl
  | cons entry l ih =>
    simp only [scanEntries, ih]
    rfl

/-- A listing parses exactly when none of its files fails to, and then to the migrations
its files parse to, in listing order. -/
theorem scanEntries_eq_ok_iff (c : Catalog) (entries : List DirEntry)
    (ms : List SchemaMigration) :
    scanEntries c entries = .ok ms ↔
      (¬∃ entry ∈ entries, entry.isDir = false ∧
          ∃ err, scanMigration c entry.name = .error err) ∧
        ms = entries.filterMap c.parseEntry := by
  rw [← scanEntries_error_iff]
  constructor
  · intro h
    exact ⟨fun ⟨err, he⟩ => (by rw [h] at he; cases he), scanEntries_eq_filterMap h⟩
  · rintro ⟨hgood, rfl⟩
    cases hr : scanEntries c entries with
    | error err => exact absurd ⟨err, hr⟩ hgood
    | ok ms' => rw [scanEntries_eq_filterMap hr]

/-- A listing in another order parses as well, to the same migrations in another order. -/
theorem migrations_relist {c : Catalog} {ms : List SchemaMigration}
    (hs : c.migrations = .ok ms) {entries : List DirEntry} (hp : entries.Perm c.entries) :
    ∃ ms', { c with entries }.migrations = .ok ms' ∧ ms'.Perm ms := by
  obtain ⟨hgood, rfl⟩ := (scanEntries_eq_ok_iff c c.entries ms).1 hs
  refine ⟨entries.filterMap c.parseEntry, ?_, hp.filterMap _⟩
  show scanEntries { c with entries } entries = _
  rw [scanEntries_relist, scanEntries_eq_ok_iff]
  exact ⟨fun ⟨e, he, hd, herr⟩ => hgood ⟨e, hp.subset he, hd, herr⟩, rfl⟩

/-- Sorting a rearrangement of steps with distinct versions gives the same plan, in
either direction. -/
theorem slice_eq_of_perm (s : SliceSorter) {l₁ l₂ : List SchemaMigration} (hp : l₁.Perm l₂)
    (hn : (l₁.map (·.version)).Nodup) :
    s.slice (fun a b => a.version < b.version) l₁ =
        s.slice (fun a b => a.version < b.version) l₂ ∧
      s.slice (fun a b => a.version > b.version) l₁ =
        s.slice (fun a b => a.version > b.version) l₂ := by
  have hn₂ : (l₂.map (·.version)).Nodup := (hp.map _).nodup_iff.1 hn
  have hpp : ∀ less, (s.slice less l₁).Perm (s.slice less l₂) := fun less =>
    ((s.perm less l₁).trans hp).trans (s.perm less l₂).symm
  exact ⟨eq_of_perm_of_sorted_of_asymm (fun a b h₁ h₂ => lt_asymm h₁ h₂) (hpp _)
      (sorted_lt_of_nodup (s.sorted_ascending _) (((s.perm _ _).map _).nodup_iff.2 hn))
      (sorted_lt_of_nodup (s.sorted_ascending _) (((s.perm _ _).map _).nodup_iff.2 hn₂)),
    eq_of_perm_of_sorted_of_asymm (fun a b h₁ h₂ => lt_asymm h₁ h₂) (hpp _)
      (sorted_gt_of_nodup (s.sorted_descending _) (((s.perm _ _).map _).nodup_iff.2 hn))
      (sorted_gt_of_nodup (s.sorted_descending _) (((s.perm _ _).map _).nodup_iff.2 hn₂))⟩

/-- The first match of a test that at most one member passes does not depend on the order
of the list. -/
theorem find?_eq_of_perm {α : Type} {p : α → Bool} {l₁ l₂ : List α} (hp : l₁.Perm l₂)
    (huniq : ∀ a ∈ l₁, ∀ b ∈ l₁, p a → p b → a = b) :
    l₁.find? p = l₂.find? p := by
  cases h₁ : l₁.find? p with
  | none =>
    exact (List.find?_eq_none.2 fun a ha => List.find?_eq_none.1 h₁ a (hp.mem_iff.2 ha)).symm
  | some a =>
    have ha := List.mem_of_find?_eq_some h₁
    cases h₂ : l₂.find? p with
    | none => exact absurd (List.find?_some h₁) (List.find?_eq_none.1 h₂ a (hp.mem_iff.1 ha))
    | some b =>
      exact congrArg some (huniq a ha b (hp.mem_iff.2 (List.mem_of_find?_eq_some h₂))
        (List.find?_some h₁) (List.find?_some h₂))

section Relist

variable (s : SliceSorter) {c : Catalog} {ms : List SchemaMigration}
  (hs : c.migrations = .ok ms) {entries : List DirEntry} (hp : entries.Perm c.entries)
include hs hp

/-- Under the uniqueness invariant, the plan and its error do not depend on the order in
which the directory lists its files. -/
theorem loadMigrations_relist {providerName : String} (hu : UniquePerVersion providerName ms)
    (prior target : Int) :
    loadMigrations s { c with entries } providerName prior target =
      loadMigrations s c providerName prior target := by
  by_cases hsame : prior = target ∧ (prior ≠ -1 ∨ target ≠ -1)
  · simp only [loadMigrations, if_pos hsame]
  obtain ⟨ms', hs', hperm⟩ := migrations_relist hs hp
  rw [loadMigrations_eq s hs' providerName hsame, loadMigrations_eq s hs providerName hsame]
  have h := slice_eq_of_perm s (hperm.filter _)
    (((hperm.filter _).map _).nodup_iff.2 (hu.nodup_plan (decide (prior < target)) target prior))
  split_ifs
  · rw [h.1]
  · rw [h.2]

omit hs hp in
theorem loadMigrations_relist_sample :
    sampleCatalog.migrations = .ok sampleMigrations ∧
      sampleCatalog.entries.reverse.Perm sampleCatalog.entries ∧
      UniquePerVersion providerSQLite sampleMigrations ∧
      loadMigrations insertionSorter { sampleCatalog with entries := sampleCatalog.entries.reverse }
          providerSQLite 3 (-1) =
        loadMigrations insertionSorter sampleCatalog providerSQLite 3 (-1) :=
  ⟨sampleCatalog_migrations, List.reverse_perm _, by decide,
    loadMigrations_relist insertionSorter sampleCatalog_migrations (List.reverse_perm _)
      (show UniquePerVersion providerSQLite sampleMigrations by decide) 3 (-1)⟩

/-- Under the uniqueness invariant, the lookup of one step does not depend on the order in
which the directory lists its files. -/
theorem loadMigration_relist {providerName : String} (hu : UniquePerVersion providerName ms)
    (version : Int) (up : Bool) :
    loadMigration { c with entries } providerName version up =
      loadMigration c providerName version up := by
  obtain ⟨ms', hs', hperm⟩ := migrations_relist hs hp
  rw [loadMigration_eq hs', loadMigration_eq hs,
    find?_eq_of_perm hperm.symm fun a ha b hb hpa hpb => ?_]
  simp only [decide_eq_true_eq] at hpa hpb
  exact hu.eq ha hb hpa.2.1 hpb.2.1 (hpa.1.trans hpb.1.symm) (hpa.2.2.trans hpb.2.2.symm)

omit hs hp in
theorem loadMigration_relist_sample :
    sampleCatalog.migrations = .ok sampleMigrations ∧
      sampleCatalog.entries.reverse.Perm sampleCatalog.entries ∧
      UniquePerVersion providerSQLite sampleMigrations ∧
      loadMigration { sampleCatalog with entries := sampleCatalog.entries.reverse }
          providerSQLite 2 true =
        loadMigration sampleCatalog providerSQLite 2 true :=
  ⟨sampleCatalog_migrations, List.reverse_perm _, by decide,
    loadMigration_relist sampleCatalog_migrations (List.reverse_perm _)
      (show UniquePerVersion providerSQLite sampleMigrations by decide) 2 true⟩

/-- The latest version does not depend on the order in which the directory lists its
files, even without the uniqueness invariant. -/
theorem latestMigrationVersion_relist (providerName : String) :
    latestMigrationVersion { c with entries } providerName =
      latestMigrationVersion c providerName := by
  obtain ⟨ms', hs', hperm⟩ := migrations_relist hs hp
  rw [latestMigrationVersion_eq hs', latestMigrationVersion_eq hs,
    ((hperm.filter _).map _).foldl_eq' fun x _ y _ z => by omega]

omit hs hp in
theorem latestMigrationVersion_relist_sample :
    sampleCatalog.migrations = .ok sampleMigrations ∧
      sampleCatalog.entries.reverse.Perm sampleCatalog.entries ∧
      latestMigrationVersion { sampleCatalog with entries := sampleCatalog.entries.reverse }
          providerSQLite =
        latestMigrationVersion sampleCatalog providerSQLite :=
  ⟨sampleCatalog_migrations, List.reverse_perm _,
    latestMigrationVersion_relist sampleCatalog_migrations (List.reverse_perm _) providerSQLite⟩

end Relist

theorem scanEntries_append {c : Catalog} {l₁ l₂ : List DirEntry}
    {ms₁ ms₂ : List SchemaMigration} (h₁ : scanEntries c l₁ = .ok ms₁)
    (h₂ : scanEntries c l₂ = .ok ms₂) :
    scanEntries c (l₁ ++ l₂) = .ok (ms₁ ++ ms₂) := by
  rw [scanEntries_eq_ok_iff] at h₁ h₂ ⊢
  refine ⟨fun ⟨e, he, hd, herr⟩ => ?_, by rw [List.filterMap_append, h₁.2, h₂.2]⟩
  rcases List.mem_append.1 he with he | he
  exacts [h₁.1 ⟨e, he, hd, herr⟩, h₂.1 ⟨e, he, hd, herr⟩]

theorem migrations_append {c : Catalog} {ms : List SchemaMigration}
    (hs : c.migrations = .ok ms) {more : List DirEntry} {msNew : List SchemaMigration}
    (hnew : scanEntries c more = .ok msNew) :
    { c with entries := c.entries ++ more }.migrations = .ok (ms ++ msNew) :=
  (scanEntries_relist c _ _).trans (scanEntries_append hs hnew)

theorem loadMigrations_append_newer (s : SliceSorter) {c : Catalog} {ms : List SchemaMigration}
    (hs : c.migrations = .ok ms) {more : List DirEntry} {msNew : List SchemaMigration}
    (hnew : scanEntries c more = .ok msNew) (providerName : String) {prior target : Int}
    (hwin : -1 ≤ prior ∨ target ≠ -1)
    (hv : ∀ m ∈ msNew, prior < m.version ∧ target < m.version) :
    loadMigrations s { c with entries := c.entries ++ more } providerName prior target =
      loadMigrations s c providerName prior target := by
  by_cases hsame : prior = target ∧ (prior ≠ -1 ∨ target ≠ -1)
  · simp only [loadMigrations, if_pos hsame]
  have hskip :
      msNew.filter (!skipMigration providerName (decide (prior < target)) target prior ·) =
        [] := by
    refine List.filter_eq_nil_iff.2 fun m hm => ?_
    have hmv := hv m hm
    by_cases h : prior < target
    · rw [decide_eq_true h, skipMigration_up (by omega) providerName prior m]
      simp only [upStep, Bool.and_eq_true, decide_eq_true_eq, not_and]
      omega
    · rw [decide_eq_false h, skipMigration_down]
      simp only [downStep, Bool.and_eq_true, decide_eq_true_eq, not_and]
      omega
  rw [loadMigrations_eq s (migrations_append hs hnew) providerName hsame,
    loadMigrations_eq s hs providerName hsame, List.filter_append, hskip, List.append_nil]

/-- The sample catalog, with the pattern answering also on the files of a fourth version
that a later release adds. -/
def sampleRelease : Catalog :=
  { sampleCatalog with reMigration := fun name => match name with
    | "V0004.Totp.sqlite.up.sql" =>
      some ["V0004.Totp.sqlite.up.sql", "0004", "Totp", "sqlite", "up"]
    | "V0004.Totp.sqlite.down.sql" =>
      some ["V0004.Totp.sqlite.down.sql", "0004", "Totp", "sqlite", "down"]
    | _ => sampleCatalog.reMigration name }

/-- The files of the fourth version. -/
def sampleNewer : List DirEntry :=
  [⟨"V0004.Totp.sqlite.up.sql", false⟩, ⟨"V0004.Totp.sqlite.down.sql", false⟩]

def sampleNewerMigrations : List SchemaMigration :=
  [⟨4, "Totp", "sqlite", true, ""⟩, ⟨4, "Totp", "sqlite", false, ""⟩]

theorem sampleRelease_migrations : sampleRelease.migrations = .ok sampleMigrations := rfl

theorem scanEntries_sampleNewer :
    scanEntries sampleRelease sampleNewer = .ok sampleNewerMigrations := rfl

theorem loadMigrations_append_newer_sample :
    sampleRelease.migrations = .ok sampleMigrations ∧
      scanEntries sampleRelease sampleNewer = .ok sampleNewerMigrations ∧
      ((-1 : Int) ≤ 0 ∨ (3 : Int) ≠ -1) ∧
      (∀ m ∈ sampleNewerMigrations, (0 : Int) < m.version ∧ (3 : Int) < m.version) ∧
      loadMigrations insertionSorter
          { sampleRelease with entries := sampleRelease.entries ++ sampleNewer }
          providerSQLite 0 3 =
        loadMigrations insertionSorter sampleRelease providerSQLite 0 3 :=
  ⟨sampleRelease_migrations, scanEntries_sampleNewer, by decide, by decide,
    loadMigrations_append_newer insertionSorter sampleRelease_migrations scanEntries_sampleNewer
      providerSQLite (show (-1 : Int) ≤ 0 ∨ (3 : Int) ≠ -1 by decide)
      (show ∀ m ∈ sampleNewerMigrations, (0 : Int) < m.version ∧ (3 : Int) < m.version
        by decide)⟩

/-- Files added to the listing never lower the latest version, whatever they hold, as long
as they parse. -/
theorem latestMigrationVersion_le_append {c : Catalog} {ms : List SchemaMigration}
    (hs : c.migrations = .ok ms) {more : List DirEntry} {msNew : List SchemaMigration}
    (hnew : scanEntries c more = .ok msNew) (providerName : String) :
    (latestMigrationVersion c providerName).1 ≤
      (latestMigrationVersion { c with entries := c.entries ++ more } providerName).1 := by
  rw [latestMigrationVersion_eq hs, latestMigrationVersion_eq (migrations_append hs hnew),
    List.filter_append, List.map_append, List.foldl_append]
  exact (foldl_max_spec _ _).1

theorem latestMigrationVersion_le_append_sample :
    sampleRelease.migrations = .ok sampleMigrations ∧
      scanEntries sampleRelease sampleNewer = .ok sampleNewerMigrations ∧
      (latestMigrationVersion sampleRelease providerSQLite).1 ≤
        (latestMigrationVersion
          { sampleRelease with entries := sampleRelease.entries ++ sampleNewer }
          providerSQLite).1 :=
  ⟨sampleRelease_migrations, scanEntries_sampleNewer, latestMigrationVersion_le_append
    sampleRelease_migrations scanEntries_sampleNewer providerSQLite⟩

end AuthSso.Storage
