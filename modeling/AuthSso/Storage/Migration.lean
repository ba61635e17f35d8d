import Mathlib.Algebra.Group.Int
import Mathlib.Algebra.Group.Nat.Basic
import Mathlib.Data.List.Sort
import Mathlib.Tactic.Common

/-!
# The migration catalog and planner of `internal/storage/migrations.go`

The embedded `migrations` directory is a listing of entries, a file reader and the
`reMigration` pattern; none of the three is part of the package source, so a catalog
carries all three. `//go:embed migrations/*` guarantees the directory, so listing it
cannot fail. Each of the three scans walks the listing in order and returns at the
first file that does not parse. Go's `(value, error)` results are pairs; the scans'
early returns are `Except` errors that the caller turns into its own zero value.
-/
namespace AuthSso.Storage

/-- A parsed migration file, as `model.SchemaMigration` holds it. -/
structure SchemaMigration where
  version : Int
  name : String
  provider : String
  up : Bool
  query : String
  deriving Repr, DecidableEq

/-- The errors of the planner. The texts in the source are given beside each. -/
inductive MigrationError
  /-- `invalid migration: could not parse the format` -/
  | invalidFormat
  /-- An error of `migrationsFS.ReadFile`, passed through. -/
  | readFile (err : String)
  /-- `invalid migration: value in position 4 '%s' must be up or down` -/
  | invalidDirection (value : String)
  /-- `invalid migration: value in position 3 '%s' must be all, sqlite, postgres, or mysql` -/
  | invalidProvider (value : String)
  /-- `ErrMigrateCurrentVersionSameAsTarget` -/
  | currentVersionSameAsTarget
  /-- `migration not found` -/
  | notFound
  deriving Repr, DecidableEq

/-- Modelled from the spec: the scope token `all`. -/
def providerAll : String := "all"
/-- Modelled from the spec: the scope token `sqlite`. -/
def providerSQLite : String := "sqlite"
/-- Modelled from the spec: the scope token `mysql`. -/
def providerMySQL : String := "mysql"
/-- Modelled from the spec: the scope token `postgres`. -/
def providerPostgres : String := "postgres"

/-- One entry of `migrationsFS.ReadDir("migrations")`. -/
structure DirEntry where
  name : String
  isDir : Bool
  deriving Repr, DecidableEq

/-- The embedded migrations: the directory listing, `migrationsFS.ReadFile`, and
`reMigration.FindStringSubmatch`. -/
structure Catalog where
  entries : List DirEntry
  readFile : String → Except String String
  reMigration : String → Option (List String)

/-- `math.MaxUint64`, the bound `strconv.ParseUint(s, 10, 64)` checks against. -/
def maxUint64 : ℕ := 2 ^ 64 - 1

/-- The digit loop of `strconv.ParseUint(s, 10, 64)`, from the value `n` read so far:
`none` at the first character that is not a digit (a syntax error), and `maxUint64` at
the first digit whose value overflows (a range error), where the loop returns without
reading the rest. -/
def parseUintLoop (n : ℕ) : List Char → Option ℕ
  | [] => some n
  | ch :: rest =>
    if !ch.isDigit then none
    else if n ≥ maxUint64 / 10 + 1 then some maxUint64
    else if n * 10 + (ch.toNat - '0'.toNat) > maxUint64 then some maxUint64
    else parseUintLoop (n * 10 + (ch.toNat - '0'.toNat)) rest

/-- `strconv.ParseUint(s, 10, 64)`: the empty string is a syntax error. -/
def parseUint (s : List Char) : Option ℕ :=
  if s.isEmpty then none else parseUintLoop 0 s

/-- The value of `strconv.Atoi(s)` on a 64-bit platform; `scanMigration` drops its error.
Its fast path for short strings gives the value `strconv.ParseInt(s, 10, 0)` gives, which
is what is modelled: after an optional sign, a syntax error yields 0 and a range error the
nearest int64 bound. -/
def atoi (s : String) : Int :=
  let (neg, digits) : Bool × List Char := match s.data with
    | '+' :: ds => (false, ds)
    | '-' :: ds => (true, ds)
    | ds => (false, ds)
  match parseUint digits with
  | none => 0
  | some un =>
    if neg = false ∧ un ≥ 2 ^ 63 then 2 ^ 63 - 1
    else if neg = true ∧ un > 2 ^ 63 then -2 ^ 63
    else if neg then -(un : Int) else un

example : atoi "99999999999999999999x" = 9223372036854775807 := by decide

/-- `strings.ReplaceAll(s, "_", " ")`: every underscore becomes a space. -/
def replaceUnderscores (s : String) : String :=
  ⟨s.data.map fun ch => if ch = '_' then ' ' else ch⟩

/-- Parse one file name of the catalog and read its script. -/
def scanMigration (c : Catalog) (m : String) : Except MigrationError SchemaMigration :=
  match c.reMigration m with
  | some [_, version, name, provider, direction] => do
    let data ← (c.readFile ("migrations/" ++ m)).mapError .readFile
    let up ← match direction with
      | "up" => pure true
      | "down" => pure false
      | _ => throw (.invalidDirection direction)
    if provider ∈ [providerAll, providerSQLite, providerMySQL, providerPostgres] then
      pure { version := atoi version, name := replaceUnderscores name, provider, up, query := data }
    else throw (.invalidProvider provider)
  | _ => throw .invalidFormat

/-- What `sort.Slice` asks of `less`: never both ways, and transitive in its negation. -/
structure TransitiveOrdering {α : Type} (less : α → α → Bool) : Prop where
  asymm : ∀ a b, less a b = true → less b a = false
  negTrans : ∀ a b c, less a b = false → less b c = false → less a c = false

/-- `sort.Slice`, known only by its contract: a permutation in which no element is `less`
than one before it. The sort is not stable, so nothing more is fixed. -/
structure SliceSorter where
  slice : (SchemaMigration → SchemaMigration → Bool) → List SchemaMigration →
    List SchemaMigration
  perm : ∀ less xs, (slice less xs).Perm xs
  sorted : ∀ less xs, TransitiveOrdering less →
    List.Sorted (fun a b => less b a = false) (slice less xs)

/-- Insertion sort meets the contract, so the contract is consistent. -/
def insertionSorter : SliceSorter where
  slice less := List.insertionSort (fun a b => less b a = false)
  perm _ := List.perm_insertionSort _
  sorted less xs h := by
    have : IsTotal SchemaMigration (fun a b => less b a = false) :=
      ⟨fun a b => by cases hab : less b a <;> simp [h.asymm b a, hab]⟩
    have : IsTrans SchemaMigration (fun a b => less b a = false) :=
      ⟨fun a b c hab hbc => h.negTrans c b a hbc hab⟩
    exact List.sorted_insertionSort _ xs

/-- Merge sort meets it as well, by a different algorithm. -/
def mergeSorter : SliceSorter where
  slice less xs := xs.mergeSort (fun a b => !less b a)
  perm _ xs := List.mergeSort_perm xs _
  sorted less xs h := by
    simpa using @List.sorted_mergeSort _ (fun a b => !less b a)
      (fun a b c hab hbc => by
        simpa using h.negTrans c b a (by simpa using hbc) (by simpa using hab))
      (fun a b => by cases hab : less b a <;> simp [h.asymm b a, hab]) xs

/-- The loop of `latestMigrationVersion`, from the running maximum `version`. -/
def latestMigrationVersionLoop (c : Catalog) (providerName : String) (version : Int) :
    List DirEntry → Except MigrationError Int
  | [] => .ok version
  | entry :: entries =>
    if entry.isDir then latestMigrationVersionLoop c providerName version entries
    else match scanMigration c entry.name with
      | .error err => .error err
      | .ok m =>
        if m.provider ≠ providerName then latestMigrationVersionLoop c providerName version entries
        else if !m.up then latestMigrationVersionLoop c providerName version entries
        else latestMigrationVersionLoop c providerName
          (if m.version > version then m.version else version) entries

def latestMigrationVersion (c : Catalog) (providerName : String) :
    Int × Option MigrationError :=
  match latestMigrationVersionLoop c providerName 0 c.entries with
  | .error err => (-1, some err)
  | .ok version => (version, none)

/-- The loop of `loadMigration`: the first match, `none` when the listing runs out. -/
def loadMigrationLoop (c : Catalog) (providerName : String) (version : Int) (up : Bool) :
    List DirEntry → Except MigrationError (Option SchemaMigration)
  | [] => .ok none
  | entry :: entries =>
    if entry.isDir then loadMigrationLoop c providerName version up entries
    else match scanMigration c entry.name with
      | .error err => .error err
      | .ok migration =>
        if up ≠ migration.up then loadMigrationLoop c providerName version up entries
        else if migration.provider ≠ providerAll ∧ migration.provider ≠ providerName then
          loadMigrationLoop c providerName version up entries
        else if version ≠ migration.version then
          loadMigrationLoop c providerName version up entries
        else .ok (some migration)

def loadMigration (c : Catalog) (providerName : String) (version : Int) (up : Bool) :
    Option SchemaMigration × Option MigrationError :=
  match loadMigrationLoop c providerName version up c.entries with
  | .error err => (none, some err)
  | .ok (some migration) => (some migration, none)
  | .ok none => (none, some .notFound)

def skipMigration (providerName : String) (up : Bool) (target prior : Int)
    (migration : SchemaMigration) : Bool :=
  if migration.provider ≠ providerAll ∧ migration.provider ≠ providerName then true
  else if up then
    if !migration.up then true
    else if target ≠ -1 ∧ (migration.version > target ∨ migration.version ≤ prior) then true
    else false
  else
    if migration.up then true
    else if migration.version = 1 ∧ target = -1 then true
    else if migration.version ≤ target ∨ migration.version > prior then true
    else false

/-- The loop of `loadMigrations`, appending each migration that is not skipped. -/
def loadMigrationsLoop (c : Catalog) (skip : SchemaMigration → Bool)
    (migrations : List SchemaMigration) : List DirEntry → Except MigrationError (List SchemaMigration)
  | [] => .ok migrations
  | entry :: entries =>
    if entry.isDir then loadMigrationsLoop c skip migrations entries
    else match scanMigration c entry.name with
      | .error err => .error err
      | .ok migration =>
        if skip migration then loadMigrationsLoop c skip migrations entries
        else loadMigrationsLoop c skip (migrations ++ [migration]) entries

def loadMigrations (sort : SliceSorter) (c : Catalog) (providerName : String)
    (prior target : Int) : List SchemaMigration × Option MigrationError :=
  if prior = target ∧ (prior ≠ -1 ∨ target ≠ -1) then ([], some .currentVersionSameAsTarget)
  else
    let up := decide (prior < target)
    match loadMigrationsLoop c (skipMigration providerName up target prior) [] c.entries with
    | .error err => ([], some err)
    | .ok migrations =>
      if up then (sort.slice (fun a b => a.version < b.version) migrations, none)
      else (sort.slice (fun a b => a.version > b.version) migrations, none)

end AuthSso.Storage
