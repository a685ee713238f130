import NexusTier.Concurrent.Locked
import NexusTier.Ingest.Invariant
import NexusTier.Relational.Keyed

/-!
# Migrations

`Migrate` of `database/database.go`.  A version of the controller embeds a set of files, and when it
starts it executes those that the database has not seen, all in one transaction and behind an
advisory lock.  The ledger `schema_migrations` tells which those are, and the checksums in it whether
a file has been changed since.

What a file does to the schema is SQL, so it is a parameter here (`effect`), and so is whether a
statement fails (`fails`), which may depend on the rows that are there, or on the connection.

As long as the versions extend one another, the database is always what a fresh install of the newest
of them would be (`installed`).  A version that is older than another one that has migrated finds
nothing to do and says so; it does not mind that there is more than it knows of.

## What is here

* `migrate` — `Migrate`, and `migration`, the same statement by statement for several instances.
* `migrate_installed` — what a version makes of a database that another one has left.
* `migrations_converge` — what holds of any number of instances in any order.
* `older_leaves_newer` — a version that succeeds on a database that is not its own.

## What is left out

A statement that fails has had no effect.  Of `COMMIT` this need not be so: the connection may be
lost after the server has committed and before it has said so, and `Migrate` then returns an error
though the files have been applied.  The column `applied_at` is left out too.
-/

set_option autoImplicit false

namespace NexusTier

open Relational Concurrent

/-- An embedded file. -/
structure Migration where
  name : String
  contents : String
deriving DecidableEq

/-- `schema_migrations`: the checksum by `version`. -/
abbrev MigrationLedger := Table String String

/-- The database, as far as migrations are concerned. -/
structure Database (S : Type) where
  schema : S
  /-- The ledger, if there is one yet. -/
  ledger : Option MigrationLedger
  /-- The files that have been executed, in this order.  It is not stored. -/
  executed : List String

/-- What a transaction that migrates sees of it. -/
structure MigrationTx (S : Type) where
  schema : S
  ledger : MigrationLedger
  executed : List String

/-- The statements of `Migrate`. -/
inductive MigrationStatement where
  | begin
  | lock
  | createLedger
  | check (name : String)
  | apply (name : String)
  | record (name : String)
  | commit
deriving DecidableEq

inductive MigrateError where
  | failed (statement : MigrationStatement)
  | checksumChanged (name : String)
deriving DecidableEq

def MigrationStatement.text : MigrationStatement → String
  | begin => "begin migration transaction"
  | lock => "lock migrations"
  | createLedger => "create migration ledger"
  | check name => "check migration " ++ name
  | apply name => "apply migration " ++ name
  | record name => "record migration " ++ name
  | commit => "commit migrations"

/-- The text of the error, for a failed statement without the reason. -/
def MigrateError.text : MigrateError → String
  | failed statement => statement.text
  | checksumChanged name => "migration " ++ name ++ " checksum changed after it was applied"

section

variable {S : Type} (effect : String → S → S) (sha256 : String → HexDigest)
  (fails : MigrationStatement → Bool)

/-- A statement that succeeds, unless it fails. -/
def executes (statement : MigrationStatement) : Except MigrateError Unit :=
  check (fails statement = false) (.failed statement)

/-- One round of the loop. -/
def applyMigration (tx : MigrationTx S) (entry : Migration) :
    Except MigrateError (MigrationTx S) := do
  let checksum := (sha256 entry.contents).text
  executes fails (.check entry.name)
  let appliedChecksum := (tx.ledger[entry.name]?).getD ""
  if appliedChecksum ≠ "" then
    check (appliedChecksum = checksum) (.checksumChanged entry.name)
    return tx
  else
    executes fails (.apply entry.name)
    executes fails (.record entry.name)
    -- `version` is the primary key
    check (tx.ledger[entry.name]? = none) (.failed (.record entry.name))
    return {
      schema := effect entry.contents tx.schema
      ledger := tx.ledger.insert entry.name checksum
      executed := tx.executed ++ [entry.name] }

def beginMigrations (db : Database S) : Except MigrateError (MigrationTx S) := do
  executes fails .begin
  executes fails .lock
  executes fails .createLedger
  return ⟨db.schema, db.ledger.getD ∅, db.executed⟩

/-- `COMMIT`.  If it fails, nothing has been committed; that the answer of the server is lost is left
out. -/
def commitMigrations (tx : MigrationTx S) : Except MigrateError (Database S) := do
  executes fails .commit
  return ⟨tx.schema, some tx.ledger, tx.executed⟩

/-- The files in the order of their names. -/
def inNameOrder (entries : List Migration) : List Migration :=
  entries.insertionSort fun left right => left.name ≤ right.name

/-- `Migrate`: the database after the commit.  With an error there is no commit. -/
def migrate (entries : List Migration) (db : Database S) : Except MigrateError (Database S) := do
  let tx ← beginMigrations fails db
  let tx ← (inNameOrder entries).foldlM (applyMigration effect sha256 fails) tx
  commitMigrations fails tx

end

/-! ## Several instances -/

section

variable {ι S : Type} (effect : String → S → S) (sha256 : String → HexDigest)
  (entries : ι → List Migration) (fails : ι → MigrationStatement → Bool)

/-- `Migrate` of each instance, statement by statement: the files that are left, and the
transaction. -/
def migration : Transaction ι (Database S) (List Migration × MigrationTx S) MigrateError where
  start i db := (beginMigrations (fails i) db).map fun tx => (inNameOrder (entries i), tx)
  next
    | i, ([], tx) => (commitMigrations (fails i) tx).map .inr
    | i, (entry :: rest, tx) =>
      (applyMigration effect sha256 (fails i) tx entry).map fun tx => .inl (rest, tx)
  rest i work := do
    let tx ← work.1.foldlM (applyMigration effect sha256 (fails i)) work.2
    commitMigrations (fails i) tx
  rest_eq i work := by
    obtain ⟨entries, tx⟩ := work
    cases entries with
    | nil => cases h : commitMigrations (fails i) tx <;> simp [h, Except.map]
    | cons entry rest =>
      cases h : applyMigration effect sha256 (fails i) tx entry <;>
        simp [h, Except.map, bind, Except.bind]

theorem migration_whole (i : ι) (db : Database S) :
    (migration effect sha256 entries fails).whole i db =
      migrate effect sha256 (fails i) (entries i) db := by
  cases h : beginMigrations (fails i) db <;>
    simp [Transaction.whole, migration, migrate, h, Except.map, bind, Except.bind]

end

/-! ## What files leave behind -/

section

variable {S : Type} (effect : String → S → S) (sha256 : String → HexDigest) (s₀ : S)

/-- A database that no version has seen. -/
def fresh : Database S := ⟨s₀, none, []⟩

/-- The rows of the ledger for some files. -/
def ledgerRows (l : List Migration) : List (String × String) :=
  l.map fun entry => (entry.name, (sha256 entry.contents).text)

/-- After these files, in this order. -/
def installedTx (l : List Migration) : MigrationTx S where
  schema := l.foldl (fun schema entry => effect entry.contents schema) s₀
  ledger := (ledgerRows sha256 l).foldl (fun ledger row => ledger.insert row.1 row.2) ∅
  executed := l.map Migration.name

/-- After the files of a version. -/
def installed (entries : List Migration) : Database S :=
  let tx := installedTx effect sha256 s₀ (inNameOrder entries)
  ⟨tx.schema, some tx.ledger, tx.executed⟩

variable {effect sha256 s₀} {fails : MigrationStatement → Bool} {l : List Migration}
  {entry : Migration} {tx : MigrationTx S}

theorem HexDigest.text_ne (digest : HexDigest) : digest.text ≠ "" := by
  intro h
  have hlength := digest.shape.1
  rw [h] at hlength
  simp at hlength

theorem ledgerRows_keys : (ledgerRows sha256 l).map Prod.fst = l.map Migration.name := by
  simp [ledgerRows]

/-- A file that has been executed is found. -/
theorem installedTx_ledger (hnd : (l.map Migration.name).Nodup) (h : entry ∈ l) :
    (installedTx effect sha256 s₀ l).ledger[entry.name]? = some (sha256 entry.contents).text := by
  refine Table.getElem?_insertAll_of_mem (ledgerRows_keys ▸ hnd) ?_
  exact List.mem_map_of_mem h

theorem installedTx_ledger_none {name : String} (h : name ∉ l.map Migration.name) :
    (installedTx effect sha256 s₀ l).ledger[name]? = none := by
  rw [installedTx, Table.getElem?_insertAll_of_not_mem (ledgerRows_keys ▸ h)]
  rfl

theorem executes_eq_ok {statement : MigrationStatement} {u : Unit} :
    executes fails statement = .ok u ↔ fails statement = false := check_eq_ok

/-- A file that is in the ledger is passed over, if it is still the same. -/
theorem applyMigration_found {tx' : MigrationTx S} {checksum : String}
    (h : tx.ledger[entry.name]? = some checksum) (hne : checksum ≠ "") :
    applyMigration effect sha256 fails tx entry = .ok tx' ↔
      fails (.check entry.name) = false ∧ checksum = (sha256 entry.contents).text ∧ tx = tx' := by
  simp [applyMigration, h, hne, executes_eq_ok, -bind_pure_comp]

/-- A file that is not in it is executed and recorded. -/
theorem applyMigration_missing {tx' : MigrationTx S} (h : tx.ledger[entry.name]? = none) :
    applyMigration effect sha256 fails tx entry = .ok tx' ↔
      fails (.check entry.name) = false ∧ fails (.apply entry.name) = false ∧
        fails (.record entry.name) = false ∧
          ⟨effect entry.contents tx.schema,
            tx.ledger.insert entry.name (sha256 entry.contents).text,
            tx.executed ++ [entry.name]⟩ = tx' := by
  simp [applyMigration, h, executes_eq_ok, -bind_pure_comp]

theorem applyMigration_old (hnd : (l.map Migration.name).Nodup) (h : entry ∈ l) :
    applyMigration effect sha256 fails (installedTx effect sha256 s₀ l) entry = .ok tx ↔
      fails (.check entry.name) = false ∧ installedTx effect sha256 s₀ l = tx := by
  rw [applyMigration_found (installedTx_ledger hnd h) (HexDigest.text_ne _)]
  simp

theorem applyMigration_new (h : entry.name ∉ l.map Migration.name) :
    applyMigration effect sha256 fails (installedTx effect sha256 s₀ l) entry = .ok tx ↔
      fails (.check entry.name) = false ∧ fails (.apply entry.name) = false ∧
        fails (.record entry.name) = false ∧ installedTx effect sha256 s₀ (l ++ [entry]) = tx := by
  have hnext : installedTx effect sha256 s₀ (l ++ [entry]) =
      ⟨effect entry.contents (installedTx effect sha256 s₀ l).schema,
        (installedTx effect sha256 s₀ l).ledger.insert entry.name (sha256 entry.contents).text,
        (installedTx effect sha256 s₀ l).executed ++ [entry.name]⟩ := by
    simp [installedTx, ledgerRows]
  rw [applyMigration_missing (installedTx_ledger_none h), hnext]

/-! ### The loop -/

/-- Over files that have all been executed it does nothing. -/
theorem foldlM_old {entries : List Migration} (hnd : (l.map Migration.name).Nodup)
    (h : ∀ entry ∈ entries, entry ∈ l)
    (htx : entries.foldlM (applyMigration effect sha256 fails) (installedTx effect sha256 s₀ l) =
      .ok tx) : installedTx effect sha256 s₀ l = tx := by
  refine foldlM_inv (I := fun tx => installedTx effect sha256 s₀ l = tx) ?_ rfl htx
  rintro entry hentry _ tx' rfl happly
  exact ((applyMigration_old hnd (h entry hentry)).1 happly).2

/-- Over files of which none has been executed it executes all, if none fails. -/
theorem foldlM_new {entries : List Migration} (hnd : ((l ++ entries).map Migration.name).Nodup) :
    entries.foldlM (applyMigration effect sha256 fails) (installedTx effect sha256 s₀ l) = .ok tx ↔
      (∀ entry ∈ entries, fails (.check entry.name) = false ∧ fails (.apply entry.name) = false ∧
        fails (.record entry.name) = false) ∧ installedTx effect sha256 s₀ (l ++ entries) = tx := by
  induction entries generalizing l with
  | nil => simp
  | cons entry entries ih =>
    have hnew : entry.name ∉ l.map Migration.name := by
      rw [List.map_append, List.map_cons] at hnd
      exact fun hmem => (List.nodup_append.1 hnd).2.2 _ hmem _ List.mem_cons_self rfl
    have hassoc : l ++ entry :: entries = l ++ [entry] ++ entries := by simp
    rw [hassoc] at hnd ⊢
    rw [foldlM_cons_eq_ok, List.forall_mem_cons, and_assoc, ← ih hnd]
    constructor
    · rintro ⟨tx', happly, hrest⟩
      obtain ⟨hcheck, hexec, hrecord, rfl⟩ := (applyMigration_new hnew).1 happly
      exact ⟨⟨hcheck, hexec, hrecord⟩, hrest⟩
    · rintro ⟨⟨hcheck, hexec, hrecord⟩, hrest⟩
      exact ⟨_, (applyMigration_new hnew).2 ⟨hcheck, hexec, hrecord, rfl⟩, hrest⟩

/-! ### Files that failed, and files that were changed -/

theorem applyMigration_cases {tx' : MigrationTx S}
    (h : applyMigration effect sha256 fails tx entry = .ok tx') :
    tx.ledger[entry.name]? = some (sha256 entry.contents).text ∧ tx = tx' ∨
      tx.ledger[entry.name]? = none ∧ fails (.apply entry.name) = false ∧
        tx'.ledger = tx.ledger.insert entry.name (sha256 entry.contents).text := by
  cases hrow : tx.ledger[entry.name]? with
  | none =>
    obtain ⟨-, happly, -, rfl⟩ := (applyMigration_missing hrow).1 h
    exact .inr ⟨rfl, happly, rfl⟩
  | some checksum =>
    by_cases hne : checksum = ""
    · -- an empty checksum counts as none, and then the key is there twice
      simp [applyMigration, hrow, hne, check] at h
    · obtain ⟨-, rfl, rfl⟩ := (applyMigration_found hrow hne).1 h
      exact .inl ⟨rfl, rfl⟩

/-- **What a loop that comes to its end has met**: no file that was changed since it was recorded,
and no new file that fails. -/
theorem foldlM_met {entries : List Migration} {tx' : MigrationTx S}
    (h : entries.foldlM (applyMigration effect sha256 fails) tx = .ok tx') :
    ∀ entry ∈ entries,
      (∀ checksum ∈ tx.ledger[entry.name]?, checksum = (sha256 entry.contents).text) ∧
        (tx.ledger[entry.name]? = none → fails (.apply entry.name) = false) := by
  induction entries generalizing tx with
  | nil => simp
  | cons first entries ih =>
    obtain ⟨tx₁, hfirst, hrest⟩ := foldlM_cons_eq_ok.1 h
    intro entry hentry
    obtain ⟨hrow, rfl⟩ | ⟨hrow, happly, hledger⟩ := applyMigration_cases hfirst
    · rcases List.mem_cons.1 hentry with rfl | hentry
      · simp [hrow]
      · exact ih hrest entry hentry
    · rcases List.mem_cons.1 hentry with rfl | hentry
      · simp [hrow, happly]
      · have hmet := ih hrest entry hentry
        by_cases hname : first.name = entry.name
        · rw [← hname]
          simp [hrow, happly]
        · rwa [hledger, Table.getElem?_insert, if_neg hname] at hmet

end

/-! ## Versions -/

/-- Each version has the files of the one before, and perhaps more, whose names sort later. -/
structure Releases (versions : ℕ → List Migration) : Prop where
  nodup : ∀ n, ((versions n).map Migration.name).Nodup
  extended : ∀ n, ∃ added, (versions (n + 1)).Perm (versions n ++ added) ∧
    ∀ old ∈ versions n, ∀ new ∈ added, old.name < new.name

section

variable {versions : ℕ → List Migration}

theorem perm_inNameOrder (entries : List Migration) : (inNameOrder entries).Perm entries :=
  List.perm_insertionSort _ entries

theorem nodup_inNameOrder {entries : List Migration} (hnd : (entries.map Migration.name).Nodup) :
    ((inNameOrder entries).map Migration.name).Nodup :=
  ((perm_inNameOrder entries).map Migration.name).nodup_iff.2 hnd

theorem pairwise_inNameOrder {entries : List Migration} (hnd : (entries.map Migration.name).Nodup) :
    (inNameOrder entries).Pairwise fun a b => a.name < b.name :=
  insertionSort_ascending hnd

/-- The files of the next version come after those of this one. -/
theorem Releases.prefix_succ (hv : Releases versions) (n : ℕ) :
    inNameOrder (versions n) <+: inNameOrder (versions (n + 1)) := by
  obtain ⟨added, hperm, hlater⟩ := hv.extended n
  have hnd : ((versions n ++ added).map Migration.name).Nodup :=
    (hperm.map Migration.name).nodup_iff.1 (hv.nodup (n + 1))
  have hadded : (added.map Migration.name).Nodup := by
    rw [List.map_append] at hnd
    exact (List.nodup_append.1 hnd).2.1
  have hsorted : (inNameOrder (versions n) ++ inNameOrder added).Pairwise fun a b =>
      a.name < b.name := by
    refine List.pairwise_append.2
      ⟨pairwise_inNameOrder (hv.nodup n), pairwise_inNameOrder hadded, fun a ha b hb => ?_⟩
    exact hlater a ((perm_inNameOrder _).mem_iff.1 ha) b ((perm_inNameOrder _).mem_iff.1 hb)
  have hsame : (inNameOrder (versions n) ++ inNameOrder added).Perm
      (inNameOrder (versions (n + 1))) :=
    (((perm_inNameOrder _).append (perm_inNameOrder _)).trans hperm.symm).trans
      (perm_inNameOrder _).symm
  have heq := eq_of_perm_of_ascending hsame hsorted (pairwise_inNameOrder (hv.nodup (n + 1)))
  rw [← heq]
  exact List.prefix_append _ _

theorem Releases.prefix_of_le (hv : Releases versions) {n m : ℕ} (h : n ≤ m) :
    inNameOrder (versions n) <+: inNameOrder (versions m) := by
  induction m, h using Nat.le_induction with
  | base => exact List.prefix_refl _
  | succ m _ ih => exact ih.trans (hv.prefix_succ m)

variable {S : Type} {effect : String → S → S} {sha256 : String → HexDigest} {s₀ : S}
  {fails : MigrationStatement → Bool} {db : Database S}

theorem migrate_eq_ok {entries : List Migration} {db db' : Database S} :
    migrate effect sha256 fails entries db = .ok db' ↔
      (fails .begin = false ∧ fails .lock = false ∧ fails .createLedger = false) ∧
        ∃ tx, (inNameOrder entries).foldlM (applyMigration effect sha256 fails)
            ⟨db.schema, db.ledger.getD ∅, db.executed⟩ = .ok tx ∧
          fails .commit = false ∧ ⟨tx.schema, some tx.ledger, tx.executed⟩ = db' := by
  simp only [migrate, beginMigrations, commitMigrations, bind_eq_ok, pure_eq_ok, executes_eq_ok]
  constructor
  · rintro ⟨tx, ⟨-, hbegin, -, hlock, -, hledger, rfl⟩, tx', hloop, -, hcommit, rfl⟩
    exact ⟨⟨hbegin, hlock, hledger⟩, tx', hloop, hcommit, rfl⟩
  · rintro ⟨⟨hbegin, hlock, hledger⟩, tx', hloop, hcommit, rfl⟩
    exact ⟨_, ⟨(), hbegin, (), hlock, (), hledger, rfl⟩, tx', hloop, (), hcommit, rfl⟩

/-- **A version on a database that another one has left.** -/
theorem migrate_installed (hv : Releases versions) {n m : ℕ}
    (h : migrate effect sha256 fails (versions m) (installed effect sha256 s₀ (versions n)) =
      .ok db) : db = installed effect sha256 s₀ (versions (max n m)) := by
  obtain ⟨-, tx, hloop, -, rfl⟩ := migrate_eq_ok.1 h
  have htx : installedTx effect sha256 s₀ (inNameOrder (versions (max n m))) = tx := by
    rcases Nat.le_total m n with hle | hle
    · rw [Nat.max_eq_left hle]
      exact foldlM_old (nodup_inNameOrder (hv.nodup n))
        (fun entry hentry => (hv.prefix_of_le hle).subset hentry) hloop
    · rw [Nat.max_eq_right hle]
      obtain ⟨added, hadded⟩ := hv.prefix_of_le hle
      have hnd := nodup_inNameOrder (hv.nodup m)
      rw [← hadded] at hloop hnd ⊢
      rw [List.foldlM_append, bind_eq_ok] at hloop
      obtain ⟨tx', hold, hnew⟩ := hloop
      obtain rfl := foldlM_old (nodup_inNameOrder (hv.nodup n)) (fun _ hentry => hentry) hold
      exact ((foldlM_new hnd).1 hnew).2
  rw [← htx]
  rfl

theorem migrate_fresh (hv : Releases versions) {n : ℕ}
    (h : migrate effect sha256 fails (versions n) (fresh s₀) = .ok db) :
    db = installed effect sha256 s₀ (versions n) := by
  obtain ⟨-, tx, hloop, -, rfl⟩ := migrate_eq_ok.1 h
  have htx : installedTx effect sha256 s₀ ([] ++ inNameOrder (versions n)) = tx :=
    ((foldlM_new (nodup_inNameOrder (hv.nodup n))).1 hloop).2
  rw [← htx]
  rfl

theorem migrate_fresh_ok (hv : Releases versions) (n : ℕ) :
    migrate effect sha256 (fun _ => false) (versions n) (fresh s₀) =
      .ok (installed effect sha256 s₀ (versions n)) := by
  have hloop : (inNameOrder (versions n)).foldlM (applyMigration effect sha256 fun _ => false)
      (installedTx effect sha256 s₀ []) =
        .ok (installedTx effect sha256 s₀ ([] ++ inNameOrder (versions n))) :=
    (foldlM_new (nodup_inNameOrder (hv.nodup n))).2 ⟨fun _ _ => ⟨rfl, rfl, rfl⟩, rfl⟩
  exact migrate_eq_ok.2 ⟨⟨rfl, rfl, rfl⟩, _, hloop, rfl, rfl⟩

/-- **What makes a migration fail**: a file that was changed since it was recorded, and a new file
that fails. -/
theorem migrate_refuses {known : Set String} (hsha : Set.InjOn sha256 known)
    {entries : List Migration} {entry : Migration} (hentry : entry ∈ entries)
    (hknown : entry.contents ∈ known)
    (h : (∃ ledger ∈ db.ledger, ∃ contents ∈ known, contents ≠ entry.contents ∧
        ledger[entry.name]? = some (sha256 contents).text) ∨
      (∀ ledger ∈ db.ledger, ledger[entry.name]? = none) ∧ fails (.apply entry.name) = true) :
    ∃ e, migrate effect sha256 fails entries db = .error e := by
  cases hmigrate : migrate effect sha256 fails entries db with
  | error e => exact ⟨e, rfl⟩
  | ok db' =>
    obtain ⟨-, tx, hloop, -, -⟩ := migrate_eq_ok.1 hmigrate
    obtain ⟨hsame, hnew⟩ :=
      foldlM_met hloop entry ((perm_inNameOrder entries).mem_iff.2 hentry)
    obtain ⟨ledger, hledger, contents, hcontents, hne, hrow⟩ | ⟨hnone, happly⟩ := h
    · rw [Option.mem_def.1 hledger, Option.getD_some] at hsame
      have htext := hsame _ hrow
      exact absurd (hsha hcontents hknown (HexDigest.mk.injEq .. ▸ htext)) hne
    · have hmissing : (db.ledger.getD ∅)[entry.name]? = none := by
        cases hledger : db.ledger with
        | none => rfl
        | some ledger => exact hnone ledger hledger
      rw [hnew hmissing] at happly
      cases happly

/-! ### Runs -/

variable {ι : Type} {version : ι → ℕ}

/-- The database is fresh, or as the newest of the versions that have come through leaves it. -/
def UpToDate (effect : String → S → S) (sha256 : String → HexDigest)
    (versions : ℕ → List Migration) (version : ι → ℕ) (s₀ : S) (db : Database S)
    (done : ι → Prop) : Prop :=
  db = fresh s₀ ∧ (∀ i, ¬ done i) ∨
    ∃ j, done j ∧ (∀ k, done k → version k ≤ version j) ∧
      db = installed effect sha256 s₀ (versions (version j))

/-- A version that comes through leaves it so, and changes something only if it is newer. -/
theorem UpToDate.migrate (hv : Releases versions) {done : ι → Prop} {db' : Database S} {i : ι}
    (h : UpToDate effect sha256 versions version s₀ db done)
    (hmigrate : migrate effect sha256 fails (versions (version i)) db = .ok db') :
    UpToDate effect sha256 versions version s₀ db' (fun j => j = i ∨ done j) ∧
      (db' = db ∨ ∀ j, done j → version j < version i) := by
  obtain ⟨rfl, hnone⟩ | ⟨j, hj, hmax, rfl⟩ := h
  · refine ⟨.inr ⟨i, .inl rfl, ?_, migrate_fresh hv hmigrate⟩, .inr fun j hj => absurd hj (hnone j)⟩
    rintro k (rfl | hk)
    · exact le_refl _
    · exact absurd hk (hnone k)
  · have hdb' := migrate_installed hv hmigrate
    rcases Nat.le_total (version i) (version j) with hle | hle
    · rw [Nat.max_eq_left hle] at hdb'
      refine ⟨.inr ⟨j, .inr hj, ?_, hdb'⟩, .inl hdb'⟩
      rintro k (rfl | hk)
      · exact hle
      · exact hmax k hk
    · rw [Nat.max_eq_right hle] at hdb'
      refine ⟨.inr ⟨i, .inl rfl, ?_, hdb'⟩, ?_⟩
      · rintro k (rfl | hk)
        · exact le_refl _
        · exact (hmax k hk).trans hle
      · rcases hle.eq_or_lt with heq | hlt
        · exact .inl (heq ▸ hdb')
        · exact .inr fun k hk => (hmax k hk).trans_lt hlt

variable [DecidableEq ι] {fails : ι → MigrationStatement → Bool}

theorem upToDate_run (hv : Releases versions) (schedule : List ι) :
    UpToDate effect sha256 versions version s₀
      (Locked.run (migration effect sha256 (fun i => versions (version i)) fails) (fresh s₀)
        schedule).store
      (Locked.run (migration effect sha256 (fun i => versions (version i)) fails) (fresh s₀)
        schedule).Done := by
  refine Locked.run_keeps (.inl ⟨rfl, fun _ h => h⟩) (fun i store done store' h hwhole => ?_)
    schedule
  rw [migration_whole] at hwhole
  exact (h.migrate hv hwhole).1

/-- **Migrations converge.**  Versions that extend one another migrate one database, at the same time
or one after the other, and any statement may fail.

* The files take effect in the order of their names, each once.
* When somebody has come through, the database is that of a fresh install of the newest version that
  has.
* A step leaves the database alone, unless it is the commit of a version that is newer than all that
  have come through; so a version that runs again changes nothing, nor does one that fails.
* It fails where a file was changed after it was recorded, and where a new file fails.

No two texts of `known` have the same checksum. -/
theorem migrations_converge (effect : String → S → S) {known : Set String}
    (hsha : Set.InjOn sha256 known) (hv : Releases versions) (version : ι → ℕ)
    (fails : ι → MigrationStatement → Bool) (s₀ : S) (schedule : List ι) :
    let T := migration effect sha256 (fun i => versions (version i)) fails
    let s := Locked.run T (fresh s₀) schedule
    s.store.executed.Pairwise (· < ·) ∧
      (∀ i, s.Done i → ∃ j, s.Done j ∧ (∀ k, s.Done k → version k ≤ version j) ∧
        migrate effect sha256 (fun _ => false) (versions (version j)) (fresh s₀) = .ok s.store) ∧
      (∀ i, (s.step T i).store = s.store ∧ (s.step T i).Done = s.Done ∨
        migrate effect sha256 (fails i) (versions (version i)) s.store = .ok (s.step T i).store ∧
          ((s.step T i).store = s.store ∨ ∀ j, s.Done j → version j < version i)) ∧
      ∀ (entries : List Migration) (fails : MigrationStatement → Bool), ∀ entry ∈ entries,
        entry.contents ∈ known →
        ((∃ ledger ∈ s.store.ledger, ∃ contents ∈ known, contents ≠ entry.contents ∧
            ledger[entry.name]? = some (sha256 contents).text) ∨
          (∀ ledger ∈ s.store.ledger, ledger[entry.name]? = none) ∧
            fails (.apply entry.name) = true) →
          ∃ e, migrate effect sha256 fails entries s.store = .error e := by
  intro T s
  have hup : UpToDate effect sha256 versions version s₀ s.store s.Done := upToDate_run hv schedule
  refine ⟨?_, fun i hi => ?_, fun i => ?_, fun entries fails entry hentry hknown h =>
    migrate_refuses hsha hentry hknown h⟩
  · obtain ⟨hfresh, -⟩ | ⟨j, -, -, hinstalled⟩ := hup
    · rw [hfresh]
      exact List.Pairwise.nil
    · rw [hinstalled]
      exact List.pairwise_map.2 (pairwise_inNameOrder (hv.nodup _))
  · obtain ⟨-, hnone⟩ | ⟨j, hj, hmax, hinstalled⟩ := hup
    · exact absurd hi (hnone i)
    · exact ⟨j, hj, hmax, hinstalled ▸ migrate_fresh_ok hv (version j)⟩
  · obtain ⟨-, hquiet | ⟨hwhole, hdone⟩⟩ := Locked.step_cases (Locked.serial_run T (fresh s₀) schedule) i
    · exact .inl hquiet
    · rw [migration_whole] at hwhole
      exact .inr ⟨hwhole, (hup.migrate hv hwhole).2⟩

end

/-! ### A rolling upgrade -/

def telemetry : Migration := ⟨"001_telemetry.sql", "CREATE TABLE machines ();"⟩

def metricRetention : Migration :=
  ⟨"002_metric_retention.sql", "ALTER TABLE machines ADD b text;"⟩

/-- The first file, changed. -/
def telemetryChanged : Migration := ⟨"001_telemetry.sql", "CREATE TABLE machines (a text);"⟩

/-- Two versions, of which the second has one more file. -/
def twoReleases : ℕ → List Migration
  | 0 => [telemetry]
  | _ + 1 => [metricRetention, telemetry]

theorem releases_twoReleases : Releases twoReleases := by
  constructor
  · rintro (_ | n)
    · decide
    · show ([metricRetention, telemetry].map Migration.name).Nodup
      decide
  · rintro (_ | n)
    · exact ⟨[metricRetention], by decide, by decide⟩
    · exact ⟨[], by simp [twoReleases], by simp⟩

/-- A schema that is told by what has been executed. -/
def recordEffect (contents : String) (schema : List String) : List String := schema ++ [contents]

/-- SHA-256, on the three files. -/
def filesSha256 (contents : String) : HexDigest :=
  ([(telemetry.contents,
        .ofFin 0xa47740ca9b2266a4d4e26bf3fc5349f4ffec6ffcc3800466be249781a0a5dfd0),
      (metricRetention.contents,
        .ofFin 0x33261c2415eb4f9b69f9251c3235f947b927efb11cc3041db2ddad1b107e1c97),
      (telemetryChanged.contents,
        .ofFin 0xd7dcbe41b53003e1bc762cf68e669218328c88851f76168f4cd8f938f9b67bae)].lookup contents).getD emptyDigest

/-- Instance 1 is of the newer version and comes first. -/
def newerFirst : Locked (Fin 2) (Database (List String)) (List Migration × MigrationTx (List String))
    MigrateError :=
  Locked.run (migration recordEffect filesSha256 (fun i : Fin 2 => twoReleases i)
    fun _ _ => false) (fresh []) [1, 0, 1, 1, 1, 0, 0, 0]

/-- The texts of the three files. -/
def knownFiles : Set String :=
  {telemetry.contents, metricRetention.contents, telemetryChanged.contents}

theorem injOn_filesSha256 : Set.InjOn filesSha256 knownFiles := by
  rintro _ (rfl | rfl | rfl) _ (rfl | rfl | rfl) h
  all_goals first | rfl | exact absurd h (by decide +kernel)

theorem migrations_converge_newerFirst :
    newerFirst.Done 0 ∧ newerFirst.Done 1 ∧
      migrate recordEffect filesSha256 (fun _ => false) (twoReleases 1) (fresh []) =
        .ok newerFirst.store ∧
      ∃ e, migrate recordEffect filesSha256 (fun _ => false) [telemetryChanged] newerFirst.store =
        .error e := by
  obtain ⟨-, hlatest, -, hrefuse⟩ := migrations_converge recordEffect injOn_filesSha256
    releases_twoReleases (fun i : Fin 2 => (i : ℕ)) (fun _ _ => false) [] [1, 0, 1, 1, 1, 0, 0, 0]
  refine ⟨rfl, rfl, ?_, ?_⟩
  · obtain ⟨j, -, hmax, hfresh⟩ := hlatest 0 rfl
    have hj : (j : ℕ) = 1 := Nat.le_antisymm (Nat.le_of_lt_succ j.isLt) (hmax 1 rfl)
    rw [hj] at hfresh
    exact hfresh
  · have hrow : (newerFirst.store.ledger.bind fun ledger => ledger[telemetryChanged.name]?) =
        some (filesSha256 telemetry.contents).text := by decide +kernel
    obtain ⟨ledger, hledger, hrow⟩ := Option.bind_eq_some_iff.1 hrow
    exact hrefuse [telemetryChanged] (fun _ => false) telemetryChanged (List.mem_singleton_self _)
      (.inr (.inr rfl)) (.inl ⟨ledger, hledger, telemetry.contents, .inl rfl, by decide, hrow⟩)

/-- **An older version that comes through leaves the newer one's schema**, not its own. -/
theorem older_leaves_newer :
    newerFirst.Done 0 ∧ newerFirst.store.schema = [telemetry.contents, metricRetention.contents] ∧
      (migrate recordEffect filesSha256 (fun _ => false) (twoReleases 0) (fresh [])).map
        Database.schema = .ok [telemetry.contents] := by
  refine ⟨rfl, by decide +kernel, by decide +kernel⟩

end NexusTier
