import AuthSso.Storage.Migration

/-!
# What the planner computes

Each scan of the catalog is a loop with an early return. Over a catalog whose files all
parse, the loops are a filter, a maximum and a first match over one list, the parsed
migrations in listing order. `loadMigrations` is then `sort.Slice` applied to the
migrations that `skipMigration` keeps, and those are the steps an up or down plan is
meant to run.
-/
namespace AuthSso.Storage

/-- The migrations the listed files parse to, in listing order; the first file that does
not parse fails the scan. -/
def scanEntries (c : Catalog) : List DirEntry → Except MigrationError (List SchemaMigration)
  | [] => .ok []
  | entry :: entries =>
    if entry.isDir then scanEntries c entries
    else match scanMigration c entry.name with
      | .error err => .error err
      | .ok m => (scanEntries c entries).map (m :: ·)

@[simp] theorem Except.map_ok {ε α β : Type} (f : α → β) (a : α) :
    Except.map f (.ok a : Except ε α) = .ok (f a) := rfl

@[simp] theorem Except.map_error {ε α β : Type} (f : α → β) (e : ε) :
    Except.map f (.error e : Except ε α) = .error e := rfl

/-- The catalog's migrations. -/
def Catalog.migrations (c : Catalog) : Except MigrationError (List SchemaMigration) :=
  scanEntries c c.entries

@[simp] theorem scanEntries_entries (c : Catalog) : scanEntries c c.entries = c.migrations := rfl

/-- Some file of the listing does not parse. -/
def Catalog.Malformed (c : Catalog) : Prop :=
  ∃ entry ∈ c.entries, entry.isDir = false ∧ ∃ err, scanMigration c entry.name = .error err

theorem scanEntries_error_iff (c : Catalog) (entries : List DirEntry) :
    (∃ err, scanEntries c entries = .error err) ↔
      ∃ entry ∈ entries, entry.isDir = false ∧ ∃ err, scanMigration c entry.name = .error err := by
  induction entries with
  | nil => simp [scanEntries]
  | cons entry entries ih =>
    cases hd : entry.isDir
    · cases hm : scanMigration c entry.name with
      | error err => simp [scanEntries, hd, hm]
      | ok m =>
        cases hr : scanEntries c entries <;>
          simp_all [scanEntries]
    · simp [scanEntries, hd, ih]

theorem migrations_error_iff (c : Catalog) :
    (∃ err, c.migrations = .error err) ↔ c.Malformed :=
  scanEntries_error_iff c c.entries

theorem loadMigrationsLoop_eq (c : Catalog) (skip : SchemaMigration → Bool)
    (migrations : List SchemaMigration) (entries : List DirEntry) :
    loadMigrationsLoop c skip migrations entries =
      (scanEntries c entries).map (migrations ++ ·.filter (!skip ·)) := by
  induction entries generalizing migrations with
  | nil => simp [loadMigrationsLoop, scanEntries]
  | cons entry entries ih =>
    cases hd : entry.isDir
    · cases hm : scanMigration c entry.name with
      | error err => simp [loadMigrationsLoop, scanEntries, hd, hm]
      | ok m =>
        cases hs : skip m <;> cases hr : scanEntries c entries <;>
          simp_all [loadMigrationsLoop, scanEntries, List.filter_cons]
    · simp [loadMigrationsLoop, scanEntries, hd, ih]

theorem latestMigrationVersionLoop_eq (c : Catalog) (providerName : String)
    (version : Int) (entries : List DirEntry) :
    latestMigrationVersionLoop c providerName version entries =
      (scanEntries c entries).map fun ms =>
        ((ms.filter fun m => m.provider = providerName ∧ m.up).map (·.version)).foldl max
          version := by
  induction entries generalizing version with
  | nil => rfl
  | cons entry entries ih =>
    cases hd : entry.isDir
    · cases hm : scanMigration c entry.name with
      | error err => simp [latestMigrationVersionLoop, scanEntries, hd, hm]
      | ok m =>
        have hmax :
            (if m.version > version then m.version else version) = max version m.version := by
          split_ifs <;> omega
        simp only [latestMigrationVersionLoop, scanEntries, hd, hm, Bool.false_eq_true, if_false,
          ih, hmax]
        cases scanEntries c entries with
        | error err => split_ifs <;> rfl
        | ok ms => by_cases hp : m.provider = providerName <;> cases hu : m.up <;> simp [hp, hu]
    · simp [latestMigrationVersionLoop, scanEntries, hd, ih]

theorem loadMigrationLoop_eq {c : Catalog} {entries : List DirEntry}
    {ms : List SchemaMigration} (hs : scanEntries c entries = .ok ms)
    (providerName : String) (version : Int) (up : Bool) :
    loadMigrationLoop c providerName version up entries =
      .ok (ms.find? fun m => m.up = up ∧ (m.provider = providerAll ∨ m.provider = providerName) ∧
        m.version = version) := by
  induction entries generalizing ms with
  | nil => cases hs; rfl
  | cons entry entries ih =>
    cases hd : entry.isDir
    · cases hm : scanMigration c entry.name with
      | error err => simp [scanEntries, hd, hm] at hs
      | ok m =>
        cases hr : scanEntries c entries with
        | error err => simp [scanEntries, hd, hm, hr] at hs
        | ok rest =>
          simp only [scanEntries, hd, hm, hr, Except.map_ok, Bool.false_eq_true, if_false,
            Except.ok.injEq] at hs
          subst hs
          simp only [loadMigrationLoop, hd, hm, Bool.false_eq_true, if_false, ih hr]
          by_cases hp : m.up = up ∧ (m.provider = providerAll ∨ m.provider = providerName) ∧
              m.version = version
          · rw [List.find?_cons_of_pos rest (by simpa using hp), if_neg (not_not.2 hp.1.symm),
              if_neg fun h => h.2 (hp.2.1.resolve_left h.1), if_neg (not_not.2 hp.2.2.symm)]
          · rw [List.find?_cons_of_neg rest (by simpa using hp)]
            split_ifs with h1 h2 h3 <;> try rfl
            exact absurd ⟨(not_not.1 h1).symm, by tauto, (not_not.1 h3).symm⟩ hp
    · simp_all [loadMigrationLoop, scanEntries]

/-- A migration applies to a provider when it is scoped to it or to all providers. -/
def applicable (providerName : String) (m : SchemaMigration) : Bool :=
  m.provider = providerAll || m.provider = providerName

/-- The steps an up plan from `prior` to `target` runs. -/
def upStep (providerName : String) (prior target : Int) (m : SchemaMigration) : Bool :=
  m.up && applicable providerName m && prior < m.version && m.version ≤ target

/-- The steps a down plan from `prior` to `target` runs; the version 1 script is never
run on the way to pre1. -/
def downStep (providerName : String) (prior target : Int) (m : SchemaMigration) : Bool :=
  !m.up && applicable providerName m && target < m.version && m.version ≤ prior &&
    !(m.version = 1 && target = -1)

theorem skipMigration_up {target : Int} (h : target ≠ -1) (providerName : String)
    (prior : Int) (m : SchemaMigration) :
    (!skipMigration providerName true target prior m) = upStep providerName prior target m := by
  rw [Bool.eq_iff_iff]
  unfold skipMigration upStep applicable
  by_cases ha : m.provider = providerAll <;> by_cases hb : m.provider = providerName <;>
    cases m.up <;> simp [ha, hb, h] <;> omega

theorem skipMigration_down (providerName : String) (prior target : Int) (m : SchemaMigration) :
    (!skipMigration providerName false target prior m) = downStep providerName prior target m := by
  rw [Bool.eq_iff_iff]
  unfold skipMigration downStep applicable
  by_cases ha : m.provider = providerAll <;> by_cases hb : m.provider = providerName <;>
    cases m.up <;> simp [ha, hb] <;> omega

theorem versionLt_ordering :
    TransitiveOrdering fun a b : SchemaMigration => decide (a.version < b.version) :=
  ⟨fun _ _ h => by simp at *; omega, fun _ _ _ h1 h2 => by simp at *; omega⟩

theorem versionGt_ordering :
    TransitiveOrdering fun a b : SchemaMigration => decide (a.version > b.version) :=
  ⟨fun _ _ h => by simp at *; omega, fun _ _ _ h1 h2 => by simp at *; omega⟩

theorem SliceSorter.sorted_ascending (s : SliceSorter) (xs : List SchemaMigration) :
    (s.slice (fun a b => a.version < b.version) xs).Sorted (·.version ≤ ·.version) :=
  (s.sorted _ xs versionLt_ordering).imp fun h => by simpa using h

theorem SliceSorter.sorted_descending (s : SliceSorter) (xs : List SchemaMigration) :
    (s.slice (fun a b => a.version > b.version) xs).Sorted (·.version ≥ ·.version) :=
  (s.sorted _ xs versionGt_ordering).imp fun h => by simpa using h

/-- Three versions in the shipped naming convention, the second scoped to all providers,
and a subdirectory that every scan passes over. `reMigration` answers on the sample's file
names as the shipped pattern does. -/
def sampleCatalog : Catalog where
  entries := [⟨"V0001.Initial_Schema.sqlite.up.sql", false⟩,
    ⟨"V0001.Initial_Schema.sqlite.down.sql", false⟩, ⟨"V0002.Webauthn.all.up.sql", false⟩,
    ⟨"V0002.Webauthn.all.down.sql", false⟩, ⟨"archive", true⟩,
    ⟨"V0003.Duo.sqlite.up.sql", false⟩, ⟨"V0003.Duo.sqlite.down.sql", false⟩]
  readFile _ := .ok ""
  reMigration
    | "V0001.Initial_Schema.sqlite.up.sql" =>
      some ["V0001.Initial_Schema.sqlite.up.sql", "0001", "Initial_Schema", "sqlite", "up"]
    | "V0001.Initial_Schema.sqlite.down.sql" =>
      some ["V0001.Initial_Schema.sqlite.down.sql", "0001", "Initial_Schema", "sqlite", "down"]
    | "V0002.Webauthn.all.up.sql" =>
      some ["V0002.Webauthn.all.up.sql", "0002", "Webauthn", "all", "up"]
    | "V0002.Webauthn.all.down.sql" =>
      some ["V0002.Webauthn.all.down.sql", "0002", "Webauthn", "all", "down"]
    | "V0003.Duo.sqlite.up.sql" => some ["V0003.Duo.sqlite.up.sql", "0003", "Duo", "sqlite", "up"]
    | "V0003.Duo.sqlite.down.sql" =>
      some ["V0003.Duo.sqlite.down.sql", "0003", "Duo", "sqlite", "down"]
    | _ => none

def sampleMigrations : List SchemaMigration :=
  [⟨1, "Initial Schema", "sqlite", true, ""⟩, ⟨1, "Initial Schema", "sqlite", false, ""⟩,
    ⟨2, "Webauthn", "all", true, ""⟩, ⟨2, "Webauthn", "all", false, ""⟩,
    ⟨3, "Duo", "sqlite", true, ""⟩, ⟨3, "Duo", "sqlite", false, ""⟩]

theorem sampleCatalog_migrations : sampleCatalog.migrations = .ok sampleMigrations := rfl

section Plans

variable (s : SliceSorter) {c : Catalog} {ms : List SchemaMigration}
  (hs : c.migrations = .ok ms) (providerName : String) {prior target : Int}
include hs

theorem loadMigrations_eq (hsame : ¬(prior = target ∧ (prior ≠ -1 ∨ target ≠ -1))) :
    loadMigrations s c providerName prior target =
      ((if prior < target then s.slice (fun a b => a.version < b.version)
        else s.slice (fun a b => a.version > b.version))
        (ms.filter (!skipMigration providerName (decide (prior < target)) target prior ·)), none) := by
  simp only [loadMigrations, if_neg hsame, loadMigrationsLoop_eq, scanEntries_entries, hs,
    Except.map_ok, List.nil_append]
  by_cases h : prior < target <;> simp [h]

theorem loadMigrations_up (hprior : -1 ≤ prior) (h : prior < target) :
    loadMigrations s c providerName prior target =
      (s.slice (fun a b => a.version < b.version) (ms.filter (upStep providerName prior target)),
        none) := by
  have hf : ms.filter (!skipMigration providerName true target prior ·) =
      ms.filter (upStep providerName prior target) :=
    List.filter_congr fun m _ => skipMigration_up (by omega) providerName prior m
  rw [loadMigrations_eq s hs providerName (by omega), if_pos h, decide_eq_true h, hf]

theorem loadMigrations_down (h : target < prior) :
    loadMigrations s c providerName prior target =
      (s.slice (fun a b => a.version > b.version) (ms.filter (downStep providerName prior target)),
        none) := by
  have hf : ms.filter (!skipMigration providerName false target prior ·) =
      ms.filter (downStep providerName prior target) :=
    List.filter_congr fun m _ => skipMigration_down providerName prior target m
  have hn : ¬prior < target := by omega
  rw [loadMigrations_eq s hs providerName (by omega), if_neg hn, decide_eq_false hn, hf]

theorem loadMigrations_up_spec (hprior : -1 ≤ prior) (h : prior < target) :
    ∃ plan, loadMigrations s c providerName prior target = (plan, none) ∧
      plan.Perm (ms.filter (upStep providerName prior target)) ∧
      plan.Sorted (·.version ≤ ·.version) :=
  ⟨_, loadMigrations_up s hs providerName hprior h, s.perm _ _, s.sorted_ascending _⟩

omit hs in
theorem loadMigrations_up_spec_sample :
    sampleCatalog.migrations = .ok sampleMigrations ∧ (-1 : Int) ≤ 0 ∧ (0 : Int) < 3 ∧
      ∃ plan, loadMigrations insertionSorter sampleCatalog providerSQLite 0 3 = (plan, none) ∧
        plan.Perm (sampleMigrations.filter (upStep providerSQLite 0 3)) ∧
        plan.Sorted (·.version ≤ ·.version) :=
  ⟨sampleCatalog_migrations, by decide, by decide, loadMigrations_up_spec insertionSorter
    sampleCatalog_migrations providerSQLite (by decide) (by decide)⟩

theorem loadMigrations_down_spec (h : target < prior) :
    ∃ plan, loadMigrations s c providerName prior target = (plan, none) ∧
      plan.Perm (ms.filter (downStep providerName prior target)) ∧
      plan.Sorted (·.version ≥ ·.version) :=
  ⟨_, loadMigrations_down s hs providerName h, s.perm _ _, s.sorted_descending _⟩

omit hs in
theorem loadMigrations_down_spec_sample :
    sampleCatalog.migrations = .ok sampleMigrations ∧ (-1 : Int) < 3 ∧
      ∃ plan, loadMigrations insertionSorter sampleCatalog providerSQLite 3 (-1) = (plan, none) ∧
        plan.Perm (sampleMigrations.filter (downStep providerSQLite 3 (-1))) ∧
        plan.Sorted (·.version ≥ ·.version) :=
  ⟨sampleCatalog_migrations, by decide,
    loadMigrations_down_spec insertionSorter sampleCatalog_migrations providerSQLite (by decide)⟩

theorem mem_loadMigrations {prior target : Int} {m : SchemaMigration}
    (hm : m ∈ (loadMigrations s c providerName prior target).1) :
    m ∈ ms ∧ skipMigration providerName (decide (prior < target)) target prior m = false := by
  by_cases hsame : prior = target ∧ (prior ≠ -1 ∨ target ≠ -1)
  · simp [loadMigrations, if_pos hsame] at hm
  · rw [loadMigrations_eq s hs providerName hsame] at hm
    have hm' :
        m ∈ ms.filter (!skipMigration providerName (decide (prior < target)) target prior ·) := by
      split_ifs at hm
      exacts [(s.perm _ _).mem_iff.1 hm, (s.perm _ _).mem_iff.1 hm]
    simpa using hm'

end Plans

theorem applicable_of_skipMigration_eq_false {providerName : String} {up : Bool}
    {target prior : Int} {m : SchemaMigration}
    (h : skipMigration providerName up target prior m = false) : applicable providerName m := by
  unfold skipMigration at h
  simp only [applicable, Bool.or_eq_true, decide_eq_true_eq]
  by_contra hn
  rw [if_pos (not_or.1 hn)] at h
  exact Bool.noConfusion h

theorem up_of_skipMigration_eq_false {providerName : String} {up : Bool}
    {target prior : Int} {m : SchemaMigration}
    (h : skipMigration providerName up target prior m = false) : m.up = up := by
  unfold skipMigration at h
  cases up <;> cases hm : m.up <;> simp_all

/-- The uniqueness invariant: no two migrations that apply to the provider share a
direction and a version. -/
def UniquePerVersion (providerName : String) (ms : List SchemaMigration) : Prop :=
  ((ms.filter (applicable providerName)).map fun m => (m.up, m.version)).Nodup

instance (providerName : String) (ms : List SchemaMigration) :
    Decidable (UniquePerVersion providerName ms) :=
  inferInstanceAs (Decidable (List.Nodup _))

theorem UniquePerVersion.eq {providerName : String} {ms : List SchemaMigration}
    (hu : UniquePerVersion providerName ms) {a b : SchemaMigration} (ha : a ∈ ms) (hb : b ∈ ms)
    (haa : applicable providerName a) (hba : applicable providerName b) (hup : a.up = b.up)
    (hv : a.version = b.version) : a = b :=
  List.inj_on_of_nodup_map hu (List.mem_filter.2 ⟨ha, haa⟩) (List.mem_filter.2 ⟨hb, hba⟩)
    (by simp [hup, hv])

section Lookup

variable {c : Catalog} {ms : List SchemaMigration} (hs : c.migrations = .ok ms)
  {providerName : String}
include hs

theorem loadMigration_eq (version : Int) (up : Bool) :
    loadMigration c providerName version up =
      match ms.find? (fun m => m.up = up ∧ applicable providerName m ∧ m.version = version) with
      | some m => (some m, none)
      | none => (none, some .notFound) := by
  have hl := loadMigrationLoop_eq (show scanEntries c c.entries = .ok ms from hs) providerName
    version up
  simp only [applicable, Bool.or_eq_true, decide_eq_true_eq]
  unfold loadMigration
  rw [hl]
  cases List.find? _ ms <;> rfl

theorem loadMigration_eq_some_iff (hu : UniquePerVersion providerName ms) (version : Int)
    (up : Bool) (m : SchemaMigration) :
    loadMigration c providerName version up = (some m, none) ↔
      m ∈ ms ∧ m.up = up ∧ applicable providerName m ∧ m.version = version := by
  rw [loadMigration_eq hs]
  cases hf : ms.find? (fun m => m.up = up ∧ applicable providerName m ∧ m.version = version) with
  | none =>
    simp only [List.find?_eq_none, decide_eq_true_eq] at hf
    simpa using fun hm => hf m hm
  | some m' =>
    have hm' := List.mem_of_find?_eq_some hf
    have hp' := List.find?_some hf
    simp only [decide_eq_true_eq] at hp'
    simp only [Prod.mk.injEq, Option.some.injEq, and_true]
    constructor
    · rintro rfl
      exact ⟨hm', hp'⟩
    · rintro ⟨hm, hup, ha, hv⟩
      exact hu.eq hm' hm hp'.2.1 ha (hp'.1.trans hup.symm) (hp'.2.2.trans hv.symm)

theorem loadMigration_spec (hu : UniquePerVersion providerName ms) (version : Int) (up : Bool) :
    (∀ m, loadMigration c providerName version up = (some m, none) ↔
      m ∈ ms ∧ m.up = up ∧ applicable providerName m ∧ m.version = version) ∧
    (loadMigration c providerName version up = (none, some .notFound) ↔
      ∀ m ∈ ms, ¬(m.up = up ∧ applicable providerName m ∧ m.version = version)) ∧
    ∀ s prior target, ∀ m ∈ (loadMigrations s c providerName prior target).1,
      loadMigration c providerName m.version m.up = (some m, none) := by
  refine ⟨loadMigration_eq_some_iff hs hu version up, ?_, fun s prior target m hm => ?_⟩
  · rw [loadMigration_eq hs]
    cases hf : ms.find? (fun m => m.up = up ∧ applicable providerName m ∧ m.version = version)
    · simpa using List.find?_eq_none.1 hf
    · simpa using ⟨_, List.mem_of_find?_eq_some hf, by simpa using List.find?_some hf⟩
  · obtain ⟨hm, hskip⟩ := mem_loadMigrations s hs providerName hm
    exact (loadMigration_eq_some_iff hs hu _ _ m).2
      ⟨hm, rfl, applicable_of_skipMigration_eq_false hskip, rfl⟩

end Lookup

theorem loadMigration_spec_sample :
    sampleCatalog.migrations = .ok sampleMigrations ∧
      UniquePerVersion providerSQLite sampleMigrations ∧
      ((∀ m, loadMigration sampleCatalog providerSQLite 2 true = (some m, none) ↔
        m ∈ sampleMigrations ∧ m.up = true ∧ applicable providerSQLite m ∧ m.version = 2) ∧
      (loadMigration sampleCatalog providerSQLite 2 true = (none, some .notFound) ↔
        ∀ m ∈ sampleMigrations, ¬(m.up = true ∧ applicable providerSQLite m ∧ m.version = 2)) ∧
      ∀ s prior target, ∀ m ∈ (loadMigrations s sampleCatalog providerSQLite prior target).1,
        loadMigration sampleCatalog providerSQLite m.version m.up = (some m, none)) :=
  ⟨sampleCatalog_migrations, by decide,
    loadMigration_spec sampleCatalog_migrations (by decide) 2 true⟩

/-- The lookup over a listing in two parts reads the second part only when the first
neither fails nor finds the migration. -/
theorem loadMigrationLoop_append (c : Catalog) (providerName : String) (version : Int)
    (up : Bool) (pre post : List DirEntry) :
    loadMigrationLoop c providerName version up (pre ++ post) =
      match loadMigrationLoop c providerName version up pre with
      | .ok none => loadMigrationLoop c providerName version up post
      | r => r := by
  induction pre with
  | nil => rfl
  | cons entry pre ih =>
    simp only [List.cons_append, loadMigrationLoop]
    split
    · exact ih
    · split
      · rfl
      · split
        · exact ih
        · split
          · exact ih
          · split
            · exact ih
            · rfl

/-- `loadMigration` returns at the first match and never reads the files listed after it:
once the entries up to a matching migration parse, the files after them, parsable or not,
do not change the result. -/
theorem loadMigration_of_prefix {c : Catalog} {pre post : List DirEntry}
    (hentries : c.entries = pre ++ post) {msPre : List SchemaMigration}
    (hpre : scanEntries c pre = .ok msPre) {providerName : String} {version : Int} {up : Bool}
    {m : SchemaMigration}
    (hm : msPre.find? (fun m => m.up = up ∧ applicable providerName m ∧ m.version = version) =
      some m) :
    loadMigration c providerName version up = (some m, none) := by
  have hl := loadMigrationLoop_eq hpre providerName version up
  simp only [applicable, Bool.or_eq_true, decide_eq_true_eq] at hm
  rw [hm] at hl
  unfold loadMigration
  rw [hentries, loadMigrationLoop_append, hl]

theorem loadMigration_of_prefix_sample :
    sampleCatalog.entries = sampleCatalog.entries.take 3 ++ sampleCatalog.entries.drop 3 ∧
      scanEntries sampleCatalog (sampleCatalog.entries.take 3) = .ok (sampleMigrations.take 3) ∧
      (sampleMigrations.take 3).find? (fun m => m.up = true ∧ applicable providerSQLite m ∧
        m.version = 2) = some ⟨2, "Webauthn", "all", true, ""⟩ ∧
      loadMigration sampleCatalog providerSQLite 2 true =
        (some ⟨2, "Webauthn", "all", true, ""⟩, none) :=
  ⟨(List.take_append_drop _ _).symm, rfl, by decide,
    loadMigration_of_prefix (List.take_append_drop _ _).symm
      (show scanEntries sampleCatalog (sampleCatalog.entries.take 3) =
        .ok (sampleMigrations.take 3) from rfl) (by decide)⟩

theorem loadMigrations_error_iff (s : SliceSorter) (c : Catalog) (providerName : String)
    (prior target : Int) :
    ((loadMigrations s c providerName prior target).2.isSome ↔
      (prior = target ∧ (prior ≠ -1 ∨ target ≠ -1)) ∨ c.Malformed) ∧
    ((loadMigrations s c providerName prior target).2.isSome →
      (loadMigrations s c providerName prior target).1 = []) ∧
    ((latestMigrationVersion c providerName).2.isSome ↔ c.Malformed) ∧
    ((latestMigrationVersion c providerName).2.isSome →
      (latestMigrationVersion c providerName).1 = -1) := by
  have hmal := migrations_error_iff c
  cases hm : c.migrations with
  | error err =>
    have hbad : c.Malformed := hmal.1 ⟨err, hm⟩
    have hlatest : latestMigrationVersion c providerName = (-1, some err) := by
      simp [latestMigrationVersion, latestMigrationVersionLoop_eq, hm]
    by_cases hsame : prior = target ∧ (prior ≠ -1 ∨ target ≠ -1)
    · rw [loadMigrations, if_pos hsame]
      simp [hlatest, hbad]
    · simp [loadMigrations, if_neg hsame, loadMigrationsLoop_eq, hm, hlatest, hbad]
  | ok ms =>
    have hgood : ¬c.Malformed := fun h => by simpa [hm] using hmal.2 h
    have hlatest : (latestMigrationVersion c providerName).2 = none := by
      simp [latestMigrationVersion, latestMigrationVersionLoop_eq, hm]
    by_cases hsame : prior = target ∧ (prior ≠ -1 ∨ target ≠ -1)
    · rw [loadMigrations, if_pos hsame]
      simp [hgood, hlatest]
      omega
    · simp [loadMigrations_eq s hm providerName hsame, hsame, hgood, hlatest]

/-- `latestMigrationVersion` keeps the Up migrations scoped to the provider itself, where
`skipMigration` and `loadMigration` also accept those scoped to all providers. -/
theorem latestMigrationVersion_eq {c : Catalog} {ms : List SchemaMigration}
    (hs : c.migrations = .ok ms) (providerName : String) :
    latestMigrationVersion c providerName =
      (((ms.filter fun m => m.provider = providerName ∧ m.up).map (·.version)).foldl max 0,
        none) := by
  simp [latestMigrationVersion, latestMigrationVersionLoop_eq, hs]

theorem foldl_max_spec (l : List Int) (a : Int) :
    a ≤ l.foldl max a ∧ (∀ x ∈ l, x ≤ l.foldl max a) ∧
      (l.foldl max a = a ∨ l.foldl max a ∈ l) := by
  induction l generalizing a with
  | nil => simp
  | cons x xs ih =>
    obtain ⟨h1, h2, h3⟩ := ih (max a x)
    simp only [List.foldl_cons, List.mem_cons, forall_eq_or_imp]
    refine ⟨(le_max_left a x).trans h1, ⟨(le_max_right a x).trans h1, h2⟩, ?_⟩
    rcases h3 with h | h
    · rw [h]
      rcases le_total a x with hx | hx
      · exact .inr (.inl (max_eq_right hx))
      · exact .inl (max_eq_left hx)
    · exact .inr (.inr h)

/-- Over a catalog that parses, `latestMigrationVersion` does not fail and returns the
highest version of the Up migrations scoped to the provider itself, or 0 when there are
none. -/
theorem latestMigrationVersion_spec {c : Catalog} {ms : List SchemaMigration}
    (hs : c.migrations = .ok ms) (providerName : String) :
    (latestMigrationVersion c providerName).2 = none ∧
      0 ≤ (latestMigrationVersion c providerName).1 ∧
      (∀ m ∈ ms, m.provider = providerName → m.up →
        m.version ≤ (latestMigrationVersion c providerName).1) ∧
      ((latestMigrationVersion c providerName).1 = 0 ∨ ∃ m ∈ ms, m.provider = providerName ∧
        m.up ∧ m.version = (latestMigrationVersion c providerName).1) := by
  rw [latestMigrationVersion_eq hs]
  obtain ⟨h0, hle, hmem⟩ := foldl_max_spec
    ((ms.filter fun m => m.provider = providerName ∧ m.up).map (·.version)) 0
  refine ⟨rfl, h0, fun m hm hp hu =>
    hle _ (List.mem_map.2 ⟨m, by simp [hm, hp, hu], rfl⟩), ?_⟩
  rcases hmem with h | h
  · exact .inl h
  · obtain ⟨m, hm, hv⟩ := List.mem_map.1 h
    simp only [List.mem_filter, decide_eq_true_eq] at hm
    exact .inr ⟨m, hm.1, hm.2.1, hm.2.2, hv⟩

theorem latestMigrationVersion_spec_sample :
    sampleCatalog.migrations = .ok sampleMigrations ∧
      (latestMigrationVersion sampleCatalog providerSQLite).2 = none ∧
      0 ≤ (latestMigrationVersion sampleCatalog providerSQLite).1 ∧
      (∀ m ∈ sampleMigrations, m.provider = providerSQLite → m.up →
        m.version ≤ (latestMigrationVersion sampleCatalog providerSQLite).1) ∧
      ((latestMigrationVersion sampleCatalog providerSQLite).1 = 0 ∨
        ∃ m ∈ sampleMigrations, m.provider = providerSQLite ∧ m.up ∧
          m.version = (latestMigrationVersion sampleCatalog providerSQLite).1) :=
  ⟨sampleCatalog_migrations,
    latestMigrationVersion_spec sampleCatalog_migrations providerSQLite⟩

theorem latestMigrationVersion_skips_all_scope :
    latestMigrationVersion sampleCatalog providerMySQL = (0, none) ∧
      (loadMigrations insertionSorter sampleCatalog providerMySQL 0 2).1.map (·.version) = [2] := by
  decide

end AuthSso.Storage
