import Mathlib.Data.List.Sort
import Mathlib.Data.List.Lex
import Mathlib.Data.Char
import Picoclaw.Go.Map
import Picoclaw.Go.Json
import Picoclaw.Go.Runtime
import Picoclaw.Go.Filepath
import Picoclaw.Go.Calendar
import Picoclaw.Go.Os

/-!
# The dashboard's config API (`pkg/dashboard`, `ConfigAPI`)

`PUT /api/config` reads the body, checks that it unmarshals into a `config.Config`, backs up the
current config file (`createBackup`: `MkdirAll` of `backups/` beside the config, then the
config's bytes written to `backups/config_<stamp>.json`, where `<stamp>` is
`time.Now().Format("20060102150405")`), and writes the body over the config file. A failed
backup is only logged; a failed write of the config answers 500. `POST /api/config/rollback`
reads `filepath.Join(filepath.Dir(configPath), "backups", filename)` for the requested
`filename` and writes it over the config file, and `GET /api/config` answers the file's bytes.
`GET /api/config/backups` lists the `.json` files of `backups/`, newest name first.

The files are a tree as `Go.Os` has it, and each of `MkdirAll`, `ReadFile`, `WriteFile` and
`ReadDir` fails as the tree's shape makes it fail. `json.Unmarshal` into `config.Config` and the
decoding of a rollback request are parameters, each giving the error text or what it decoded.
The clock is an input, and the `Local` zone is its offset from UTC at each instant.

**The law** (`config_versions_kept_of_distinct_stamps`): when the PUTs that save their body
carry pairwise distinct backup names, every config content that was current just before one of
them whose backup was written is still, after any later calls, the file under that PUT's
backup name. A call writes only the config file and its own backup (`handle_get?_of_ne`, derived with
the other frame lemmas from `handle_tree`, which says once what a call can do).

**Where it stops**: the stamp has a resolution of one second (`formatStamp_of_same_second`), and
`WriteFile` replaces a backup of the same name, so two saves in one second keep only the second
backup and lose the version before the first (`same_second_save_loses_version`). And a backup
can fail while the save goes on: with a file where `backups/` should be, `MkdirAll` fails on
every save (`createBackup_of_backups_file`), which still writes the config
(`handle_put_of_backups_file`), and no version is kept at all.

**The rollback path** (`rollback_reads_outside_backups`): nothing checks `filename`, and `Join`
cleans the path, so a name `"../" ++ g` reads `Join(Dir(configPath), g)`, beside `backups/`
rather than in it. With the config at `/etc/picoclaw/config.json`, the name
`../../../etc/passwd` copies `/etc/passwd` over the config (`rollback_restores_etc_passwd`).

**The rollback to a plain name** (`handleRollback_of_realElem`): a name that is one real element
of a path reads the node of that name in `backups/`, whatever the config path. So a rollback
naming a save's backup undoes the writes after that save (`rollback_undoes_save`), and on a disk
(`Disk`, a tree every call keeps consistent) every name the listing shows rolls back to its
backup, unless the config path cannot be written (`listed_backup_rolls_back`).

**The listing** (`handleBackups_eq_null_iff`, `listBackups_later_first`): it is written `null`
for a `backups/` without a `.json` file, `[]` for a missing one, and 500 when a file stands in
its way. A stamp is the wall-clock time's fields as fourteen digits (`formatStamp_decimal`),
which grow with that time, so of two backups saved a wall-clock second or more apart the later
one is listed first, for years of four digits.
-/

namespace Picoclaw.Dashboard

open Picoclaw.Go Picoclaw.Go.Os

/-! ## The stamp `time.Now().Format("20060102150405")` -/

/-- `t.Format("20060102150405")` in a zone `offset` seconds east of UTC: year, month, day, hour,
minute and second, each zero-padded. -/
def formatStamp (offset : Int) (t : Time) : String :=
  let c := civilTime offset (t.unixNano / 1000000000)
  appendInt c.year 4 ++ appendInt c.month 2 ++ appendInt c.day 2 ++ appendInt c.hour 2 ++
    appendInt c.minute 2 ++ appendInt c.second 2

example : formatStamp 0 ⟨1730000000000000001⟩ = "20241027033320" := by decide

/-- The stamp reads only the whole seconds of the reading. -/
theorem formatStamp_of_same_second (offset : Int) {t t' : Time}
    (h : t.unixNano / 1000000000 = t'.unixNano / 1000000000) :
    formatStamp offset t = formatStamp offset t' := by
  simp only [formatStamp, h]

/-- The reading `now` falls in the years `0000` to `9999`, which `Format` writes in four
digits. -/
def FourDigitYear (offset : Int) (now : Time) : Prop :=
  0 ≤ (civilTime offset (now.unixNano / 1000000000)).year ∧
    (civilTime offset (now.unixNano / 1000000000)).year ≤ 9999

instance (offset : Int) (now : Time) : Decidable (FourDigitYear offset now) :=
  inferInstanceAs (Decidable (_ ∧ _))

/-- **A stamp is the time's fields as fourteen digits**, `YYYYMMDDhhmmss`, for a year of four
digits. -/
theorem formatStamp_decimal {offset : Int} {t : Time} (hyear : FourDigitYear offset t) :
    IsDecimal (formatStamp offset t).data ∧ (formatStamp offset t).data.length = 14 ∧
      decimalValue (formatStamp offset t).data =
        (timeKey (civilTime offset (t.unixNano / 1000000000))).toNat := by
  obtain ⟨hm1, hm, hd1, hd, hh, hmi, hs⟩ := civilTime_ranges offset (t.unixNano / 1000000000)
  unfold formatStamp FourDigitYear at *
  generalize civilTime offset (t.unixNano / 1000000000) = c at *
  obtain ⟨y, hy⟩ : ∃ y : Nat, c.year = y := ⟨c.year.toNat, by omega⟩
  obtain ⟨dy, ly, vy⟩ := appendInt_decimal (show y < 10 ^ 4 by omega) (by decide)
  obtain ⟨dm, lm, vm⟩ := appendInt_decimal (show c.month < 10 ^ 2 by omega) (by decide)
  obtain ⟨dd, ld, vd⟩ := appendInt_decimal (show c.day < 10 ^ 2 by omega) (by decide)
  obtain ⟨dh, lh, vh⟩ := appendInt_decimal (show c.hour < 10 ^ 2 by omega) (by decide)
  obtain ⟨dmi, lmi, vmi⟩ := appendInt_decimal (show c.minute < 10 ^ 2 by omega) (by decide)
  obtain ⟨ds, ls, vs⟩ := appendInt_decimal (show c.second < 10 ^ 2 by omega) (by decide)
  simp only [hy, String.data_append, isDecimal_append, List.length_append, decimalValue_append,
    dy, dm, dd, dh, dmi, ds, ly, lm, ld, lh, lmi, ls, vy, vm, vd, vh, vmi, vs, timeKey, dateKey,
    and_self, true_and]
  omega

/-- `civilTime` reads only the wall clock: the seconds plus the offset. -/
theorem civilTime_wall (offset secs : Int) : civilTime offset secs = civilTime 0 (secs + offset) := by
  simp only [civilTime, add_zero]

/-- **A later wall-clock second has a greater stamp**, in the order of the characters, for years
of four digits, each reading in the offset of its own instant. -/
theorem formatStamp_lt {offset offset' : Int} {t t' : Time} (hyear : FourDigitYear offset t)
    (hyear' : FourDigitYear offset' t')
    (h : t.unixNano / 1000000000 + offset < t'.unixNano / 1000000000 + offset') :
    List.Lex (· < ·) (formatStamp offset t).data (formatStamp offset' t').data := by
  obtain ⟨hd, hl, hv⟩ := formatStamp_decimal hyear
  obtain ⟨hd', hl', hv'⟩ := formatStamp_decimal hyear'
  have hkey := timeKey_civilTime_lt 0 h
  rw [← civilTime_wall, ← civilTime_wall] at hkey
  have hnonneg : 0 ≤ timeKey (civilTime offset (t.unixNano / 1000000000)) := by
    have := hyear.1
    unfold timeKey dateKey
    omega
  exact lex_of_decimalValue_lt hd hd' (hl.trans hl'.symm) (by rw [hv, hv']; omega)

/-! ## The handlers -/

/-- `ConfigAPI`, with what its handlers depend on besides the files: the config path, the
offset from UTC in seconds of the `Local` zone at each instant, `json.Unmarshal` into a
`config.Config`, and the decoding of a rollback request into its `filename`. -/
structure ConfigAPI where
  configPath : String
  localOffset : Time → Int
  unmarshal : List UInt8 → Except String Unit
  decodeRollback : List UInt8 → Except String String

/-- What a handler writes: `http.Error(w, text, code)`; a 200 with the JSON object
`{"status": status}`; a 200 with the config file's bytes; or a 200 with the text `Encode`
writes. -/
inductive Response where
  | error (text : String) (code : Nat)
  | status (status : String)
  | file (data : List UInt8)
  | encoded (text : String)
  deriving DecidableEq, Repr

/-- A handler's answer after a `WriteFile`: the tree the write leaves, with `ok` when it
succeeded and `err` when it failed. -/
def afterWrite (w : FileTree × Except FsError Unit) (ok err : Response) : FileTree × Response :=
  match w with
  | (t, .error _) => (t, err)
  | (t, .ok ()) => (t, ok)

@[simp] theorem afterWrite_fst (w : FileTree × Except FsError Unit) (ok err : Response) :
    (afterWrite w ok err).1 = w.1 := by
  rcases w with ⟨t, _ | _⟩ <;> rfl

namespace ConfigAPI

/-- `config_<stamp>.json`, the name of the backup written at reading `now`, in the zone's offset
at `now`. -/
def backupName (api : ConfigAPI) (now : Time) : String :=
  "config_" ++ formatStamp (api.localOffset now) now ++ ".json"

/-- `filepath.Join(filepath.Dir(api.configPath), "backups")`, the directory `createBackup`
writes to and `listBackups` reads. -/
def backupsDir (api : ConfigAPI) : String := join [dir api.configPath, "backups"]

/-- `filepath.Join(backupDir, fmt.Sprintf("config_%s.json", timestamp))`. -/
def backupPath (api : ConfigAPI) (now : Time) : String := join [api.backupsDir, api.backupName now]

/-- `filepath.Join(filepath.Dir(api.configPath), "backups", filename)`, the file
`handleRollback` reads. -/
def rollbackPath (api : ConfigAPI) (filename : String) : String :=
  join [dir api.configPath, "backups", filename]

/-- `createBackup` at reading `now`: `MkdirAll` of `backups/`, the config file read, and its
bytes written to the backup's path. Each step can fail; what `MkdirAll` made stays. -/
def createBackup (api : ConfigAPI) (t : FileTree) (now : Time) : FileTree × Except FsError Unit :=
  match mkdirAll t api.backupsDir with
  | (t, .error e) => (t, .error e)
  | (t, .ok ()) =>
    match readFile t api.configPath with
    | .error e => (t, .error e)
    | .ok data => writeFile t (api.backupPath now) data

/-- `handleConfig` on a request with method `method` and the body `io.ReadAll` reads (`none`
when the read fails); `now` is the reading a backup takes. -/
def handleConfig (api : ConfigAPI) (t : FileTree) (method : String)
    (body : Option (List UInt8)) (now : Time) : FileTree × Response :=
  if method = "GET" then
    match readFile t api.configPath with
    | .error _ => (t, .error "Failed to read config" 500)
    | .ok data => (t, .file data)
  else if method = "PUT" then
    match body with
    | none => (t, .error "Failed to read body" 400)
    | some body =>
      match api.unmarshal body with
      | .error e => (t, .error ("Invalid JSON: " ++ e) 400)
      | .ok _ =>
        afterWrite (writeFile (api.createBackup t now).1 api.configPath body) (.status "saved")
          (.error "Failed to save config" 500)
  else (t, .error "Method not allowed" 405)

/-- `handleRollback`: the file `rollbackPath filename` for the name in the request, written
over the config file. -/
def handleRollback (api : ConfigAPI) (t : FileTree) (method : String) (body : List UInt8) :
    FileTree × Response :=
  if method ≠ "POST" then (t, .error "Method not allowed" 405)
  else
    match api.decodeRollback body with
    | .error _ => (t, .error "Invalid request" 400)
    | .ok filename =>
      match readFile t (api.rollbackPath filename) with
      | .error _ => (t, .error "Backup not found" 404)
      | .ok data =>
        afterWrite (writeFile t api.configPath data) (.status "rolled back")
          (.error "Failed to rollback" 500)

end ConfigAPI

/-- A request to `/api/config` or to `/api/config/rollback`, the routes that write files. -/
inductive ConfigCall where
  | config (method : String) (body : Option (List UInt8)) (now : Time)
  | rollback (method : String) (body : List UInt8)

namespace ConfigAPI

/-- The handler a request reaches. -/
def handle (api : ConfigAPI) (t : FileTree) : ConfigCall → FileTree × Response
  | .config method body now => api.handleConfig t method body now
  | .rollback method body => api.handleRollback t method body

/-- The files after requests served one after another. -/
def run (api : ConfigAPI) (t : FileTree) (calls : List ConfigCall) : FileTree :=
  calls.foldl (fun t c => (api.handle t c).1) t

@[simp] theorem run_nil (api : ConfigAPI) (t : FileTree) : api.run t [] = t := rfl

@[simp] theorem run_cons (api : ConfigAPI) (t : FileTree) (c : ConfigCall)
    (calls : List ConfigCall) : api.run t (c :: calls) = api.run (api.handle t c).1 calls :=
  rfl

theorem run_append (api : ConfigAPI) (t : FileTree) (calls calls' : List ConfigCall) :
    api.run t (calls ++ calls') = api.run (api.run t calls) calls' :=
  List.foldl_append _ _ _ _

/-- The backup name of a request that saves its body: a PUT whose body was read and
unmarshals. -/
def savedAt? (api : ConfigAPI) : ConfigCall → Option String
  | .config method (some body) now =>
    if method = "PUT" ∧ (api.unmarshal body).isOk then some (api.backupName now) else none
  | _ => none

/-! ## What a request writes -/

theorem dir_ne_empty (api : ConfigAPI) : dir api.configPath ≠ "" := clean_ne_empty _

theorem realElem_backups : RealElem "backups".data := ⟨by decide, by decide, by decide, by decide⟩

/-- The node of `backups/`: `"backups"` below the config's directory. -/
theorem pathKey_backupsDir (api : ConfigAPI) :
    pathKey api.backupsDir =
      ⟨(pathKey (dir api.configPath)).rooted, "backups".data :: (pathKey (dir api.configPath)).stack⟩ := by
  rw [backupsDir]
  exact pathKey_join_elem api.dir_ne_empty realElem_backups

/-- The node of a backup: `name` below `backups/`. -/
def backupKey (api : ConfigAPI) (name : String) : PathKey :=
  ⟨(pathKey api.backupsDir).rooted, name.data :: (pathKey api.backupsDir).stack⟩

theorem nodeAt_backupKey (api : ConfigAPI) (t : FileTree) (name : String) :
    nodeAt t (api.backupKey name) = t.get? (api.backupKey name) :=
  nodeAt_of_ne_nil (List.cons_ne_nil _ _)

theorem backupsDir_ne_empty (api : ConfigAPI) : api.backupsDir ≠ "" := by
  rw [backupsDir, join_pair api.dir_ne_empty]
  exact clean_ne_empty _

theorem pathKey_join_backupsDir (api : ConfigAPI) {name : String} (hname : RealElem name.data) :
    pathKey (join [api.backupsDir, name]) = api.backupKey name :=
  pathKey_join_elem api.backupsDir_ne_empty hname

/-- **A real name reads its node in `backups/`**: the rollback path of a real name is the
backup's. -/
theorem pathKey_rollbackPath (api : ConfigAPI) {name : String} (hname : RealElem name.data) :
    pathKey (api.rollbackPath name) = api.backupKey name := by
  rw [rollbackPath, pathKey_join_elems api.dir_ne_empty realElem_backups hname, backupKey,
    pathKey_backupsDir]

/-- A stamp holds only digits, and a `'-'` for a year before 1 BC. -/
theorem slash_not_mem_appendInt (x : Int) (width : Nat) : '/' ∉ (appendInt x width).data := by
  have hdigit : ('/').isDigit = false := by decide
  simp only [appendInt, String.data_append, List.mem_append, not_or]
  refine ⟨⟨by split_ifs <;> decide, fun h => absurd (List.mem_replicate.mp h).2 (by decide)⟩,
    fun h => by simp [isDigit_of_mem_repr h] at hdigit⟩

/-- **A backup name is one real element**: `"config_"`, the stamp and `".json"` hold no `'/'`,
and the name starts with `'c'`. -/
theorem realElem_backupName (api : ConfigAPI) (now : Time) : RealElem (api.backupName now).data := by
  have hhead : (api.backupName now).data.head? = some 'c' := rfl
  have hslash : '/' ∉ (api.backupName now).data := by
    simp only [backupName, formatStamp, String.data_append, List.mem_append,
      slash_not_mem_appendInt, or_false, false_or]
    decide
  exact ⟨fun h => by simp [h] at hhead, fun h => by simp [h] at hhead,
    fun h => by simp [h] at hhead, hslash⟩

theorem pathKey_backupPath (api : ConfigAPI) (now : Time) :
    pathKey (api.backupPath now) = api.backupKey (api.backupName now) :=
  api.pathKey_join_backupsDir (api.realElem_backupName now)

theorem backupKey_inj (api : ConfigAPI) {name name' : String}
    (h : api.backupKey name = api.backupKey name') : name = name' := by
  simp only [backupKey, PathKey.mk.injEq, List.cons.injEq, true_and] at h
  exact String.ext h.1

/-- **The config file is never a backup**: a backup's stack is two elements longer than the
stack of `Dir(configPath)`, the config's at most one. -/
theorem backupKey_ne_config (api : ConfigAPI) (name : String) :
    api.backupKey name ≠ pathKey api.configPath := by
  intro h
  have hlen := congrArg (fun k : PathKey => k.stack.length) h
  simp only [backupKey, pathKey_backupsDir, List.length_cons] at hlen
  have := length_cleanStack_le_dir api.configPath
  simp only [pathKey] at hlen
  omega

theorem realElem_of_savedAt? {api : ConfigAPI} {c : ConfigCall} {name : String}
    (h : api.savedAt? c = some name) : RealElem name.data := by
  unfold savedAt? at h
  split at h
  · split_ifs at h
    cases h
    exact realElem_backupName api _
  · cases h

/-- **What `createBackup` can do to the files**: what `MkdirAll` made, and perhaps one write
over it. -/
theorem createBackup_tree (api : ConfigAPI) (t : FileTree) (now : Time) :
    (api.createBackup t now).1 = (mkdirAll t api.backupsDir).1 ∨
      ∃ data, (api.createBackup t now).1 =
        (writeFile (mkdirAll t api.backupsDir).1 (api.backupPath now) data).1 := by
  unfold createBackup
  rcases mkdirAll t api.backupsDir with ⟨t', _ | _⟩
  · exact .inl rfl
  · dsimp only
    split
    · exact .inl rfl
    · exact .inr ⟨_, rfl⟩

/-- `createBackup` writes only its backup. -/
theorem get?_createBackup_of_ne (api : ConfigAPI) (t : FileTree) (now : Time) {k : PathKey}
    (hk : api.backupKey (api.backupName now) ≠ k) {n : Node} (h : t.get? k = some n) :
    (api.createBackup t now).1.get? k = some n := by
  have hmk := get?_mkdirAll_of_some h api.backupsDir
  rcases api.createBackup_tree t now with hc | ⟨data, hc⟩ <;> rw [hc]
  · exact hmk
  · rwa [get?_writeFile_of_ne _ (by rwa [pathKey_backupPath])]

/-- `createBackup` writes over files only. -/
theorem createBackup_file_stays (api : ConfigAPI) {t : FileTree} {k : PathKey} {d : List UInt8}
    (h : t.get? k = some (.file d)) (now : Time) :
    ∃ d', (api.createBackup t now).1.get? k = some (.file d') := by
  have hmk := get?_mkdirAll_of_some h api.backupsDir
  rcases api.createBackup_tree t now with hc | ⟨data, hc⟩ <;> rw [hc]
  · exact ⟨d, hmk⟩
  · exact writeFile_file_stays hmk _ _

theorem createBackup_consistent (api : ConfigAPI) {t : FileTree} (ht : Consistent t) (now : Time) :
    Consistent (api.createBackup t now).1 := by
  have hmk := consistent_mkdirAll ht api.backupsDir
  rcases api.createBackup_tree t now with hc | ⟨data, hc⟩ <;> rw [hc]
  · exact hmk
  · exact consistent_writeFile hmk _ _

/-- **When `createBackup` succeeds the backup holds the config read before it**: `MkdirAll` adds
only directories, so the config file it reads is the one that was there. -/
theorem get?_createBackup_of_ok {api : ConfigAPI} {t : FileTree} {now : Time} {data : List UInt8}
    (hok : (api.createBackup t now).2 = .ok ()) (hdata : readFile t api.configPath = .ok data) :
    (api.createBackup t now).1.get? (api.backupKey (api.backupName now)) = some (.file data) := by
  have hne := stack_ne_nil_of_nodeAt_file (readFile_eq_ok.mp hdata)
  have hmk := get?_mkdirAll_of_some (get?_of_readFile_eq_ok hdata) api.backupsDir
  unfold createBackup at hok ⊢
  rcases hm : mkdirAll t api.backupsDir with ⟨t', _ | _⟩ <;> rw [hm] at hok hmk
  · cases hok
  · have hconfig : readFile t' api.configPath = .ok data :=
      readFile_eq_ok.mpr ((nodeAt_of_ne_nil hne).trans hmk)
    simp only [hconfig] at hok ⊢
    rcases writeFile_cases t' (api.backupPath now) data with hw | ⟨e, hw⟩ <;> rw [hw] at hok ⊢
    · simp [pathKey_backupPath]
    · cases hok

/-- A file at the backups path makes `createBackup` fail at `MkdirAll`, writing nothing. -/
theorem createBackup_of_backups_file (api : ConfigAPI) (t : FileTree) (now : Time)
    {data : List UInt8} (h : t.get? (pathKey api.backupsDir) = some (.file data)) :
    api.createBackup t now = (t, .error .notDir) := by
  have hmk : mkdirAll t api.backupsDir = (t, .error .notDir) := by
    unfold mkdirAll
    rw [pathKey_backupsDir] at h ⊢
    simp only [mkdirAllStack, h]
  simp only [createBackup, hmk]

/-- **What a request can do to the files**: nothing; a write of the config file; or, for a PUT
that saves its body, a backup under its name and then a write of the config file. -/
theorem handle_tree (api : ConfigAPI) (t : FileTree) (c : ConfigCall) :
    (api.handle t c).1 = t ∨ (∃ data, (api.handle t c).1 = (writeFile t api.configPath data).1) ∨
      ∃ now body, api.savedAt? c = some (api.backupName now) ∧
        (api.handle t c).1 = (writeFile (api.createBackup t now).1 api.configPath body).1 := by
  cases c with
  | rollback method body =>
    simp only [handle, handleRollback]
    split_ifs
    · exact .inl rfl
    · split
      · exact .inl rfl
      · split
        · exact .inl rfl
        · exact .inr (.inl ⟨_, afterWrite_fst _ _ _⟩)
  | config method body now =>
    simp only [handle, handleConfig]
    split_ifs with hget hput
    · split <;> exact .inl rfl
    · rcases body with _ | body
      · exact .inl rfl
      · dsimp only
        cases hu : api.unmarshal body with
        | error e => exact .inl rfl
        | ok u =>
          refine .inr (.inr ⟨now, body, ?_, afterWrite_fst _ _ _⟩)
          simp [savedAt?, hput, hu, Except.isOk, Except.toBool]
    · exact .inl rfl

/-- **The files a request writes**: the config file, and for a PUT that saves its body the backup
under its name. Every other node stays as it is. -/
theorem handle_get?_of_ne (api : ConfigAPI) (t : FileTree) (c : ConfigCall) {k : PathKey}
    (hconfig : pathKey api.configPath ≠ k)
    (hbackup : ∀ name, api.savedAt? c = some name → api.backupKey name ≠ k) {n : Node}
    (h : t.get? k = some n) : (api.handle t c).1.get? k = some n := by
  rcases api.handle_tree t c with hc | ⟨data, hc⟩ | ⟨now, body, hs, hc⟩ <;> rw [hc]
  · exact h
  · rwa [get?_writeFile_of_ne _ hconfig]
  · rw [get?_writeFile_of_ne _ hconfig]
    exact api.get?_createBackup_of_ne t now (hbackup _ hs) h

/-- A file stays a file: the calls write files only, and over files only. -/
theorem handle_file_stays (api : ConfigAPI) (t : FileTree) (c : ConfigCall) {k : PathKey}
    {d : List UInt8} (h : t.get? k = some (.file d)) :
    ∃ d', (api.handle t c).1.get? k = some (.file d') := by
  rcases api.handle_tree t c with hc | ⟨data, hc⟩ | ⟨now, body, -, hc⟩ <;> rw [hc]
  · exact ⟨d, h⟩
  · exact writeFile_file_stays h _ _
  · obtain ⟨d', hd'⟩ := api.createBackup_file_stays h now
    exact writeFile_file_stays hd' _ _

/-- **Every request keeps a disk a disk.** -/
theorem handle_consistent (api : ConfigAPI) {t : FileTree} (ht : Consistent t) (c : ConfigCall) :
    Consistent (api.handle t c).1 := by
  rcases api.handle_tree t c with hc | ⟨data, hc⟩ | ⟨now, body, -, hc⟩ <;> rw [hc]
  · exact ht
  · exact consistent_writeFile ht _ _
  · exact consistent_writeFile (api.createBackup_consistent ht now) _ _

theorem run_file_stays (api : ConfigAPI) {k : PathKey} :
    ∀ (t : FileTree) (calls : List ConfigCall) {d : List UInt8}, t.get? k = some (.file d) →
      ∃ d', (api.run t calls).get? k = some (.file d')
  | _, [], d, h => ⟨d, h⟩
  | t, c :: calls, _, h => by
    obtain ⟨d', hd'⟩ := api.handle_file_stays t c h
    exact run_file_stays api _ calls hd'

/-! ## The law: a version is kept under its backup name -/

/-- A request that saves under no `name` leaves that backup alone. -/
theorem handle_get?_backup (api : ConfigAPI) (t : FileTree) {c : ConfigCall} {name : String}
    (h : api.savedAt? c ≠ some name) {n : Node} (hn : t.get? (api.backupKey name) = some n) :
    (api.handle t c).1.get? (api.backupKey name) = some n :=
  api.handle_get?_of_ne t c (api.backupKey_ne_config name).symm
    (fun name' hs heq => h (by rw [hs, api.backupKey_inj heq])) hn

/-- Requests none of which saves under `name` leave that backup alone. -/
theorem run_get?_backup (api : ConfigAPI) {name : String} {n : Node} :
    ∀ (t : FileTree) (calls : List ConfigCall), (∀ c ∈ calls, api.savedAt? c ≠ some name) →
      t.get? (api.backupKey name) = some n → (api.run t calls).get? (api.backupKey name) = some n
  | _, [], _, hn => hn
  | t, c :: calls, h, hn =>
    run_get?_backup api _ calls (fun c' hc' => h c' (List.mem_cons_of_mem _ hc'))
      (api.handle_get?_backup t (h c (List.mem_cons_self _ _)) hn)

theorem savedAt?_put (api : ConfigAPI) {body : List UInt8} (hvalid : (api.unmarshal body).isOk)
    (now : Time) : api.savedAt? (.config "PUT" (some body) now) = some (api.backupName now) := by
  simp [savedAt?, hvalid]

/-- A PUT that saves its body and whose backup is written leaves the config it replaces in the
backup. -/
theorem handle_put_backup (api : ConfigAPI) {t : FileTree} {body data : List UInt8} {now : Time}
    (hvalid : (api.unmarshal body).isOk) (hbackup : (api.createBackup t now).2 = .ok ())
    (hdata : readFile t api.configPath = .ok data) :
    (api.handle t (.config "PUT" (some body) now)).1.get? (api.backupKey (api.backupName now)) =
      some (.file data) := by
  obtain ⟨u, hu⟩ : ∃ u, api.unmarshal body = .ok u := by
    cases h : api.unmarshal body with
    | error e => rw [h] at hvalid; cases hvalid
    | ok u => exact ⟨u, rfl⟩
  simp only [handle, handleConfig, hu, if_true, if_false, afterWrite_fst, String.reduceEq]
  rw [get?_writeFile_of_ne _ (api.backupKey_ne_config _).symm]
  exact get?_createBackup_of_ok hbackup hdata

/-- **No config version is lost, when the saving PUTs' stamps differ and their backups are
written.** Whatever requests are served, if the PUTs that save their body have pairwise distinct
backup names, then the config content current just before any of them whose backup was written
is, at the end, the file at that PUT's backup path. -/
theorem config_versions_kept_of_distinct_stamps (api : ConfigAPI) (t : FileTree)
    (calls : List ConfigCall) (hstamps : (calls.filterMap api.savedAt?).Nodup) :
    ∀ pre body now post data, calls = pre ++ .config "PUT" (some body) now :: post →
      (api.unmarshal body).isOk → (api.createBackup (api.run t pre) now).2 = .ok () →
      readFile (api.run t pre) api.configPath = .ok data →
      readFile (api.run t calls) (api.backupPath now) = .ok data := by
  rintro pre body now post data rfl hvalid hbackup hdata
  have hlater : api.backupName now ∉ post.filterMap api.savedAt? := by
    rw [List.filterMap_append, List.filterMap_cons_some (api.savedAt?_put hvalid now)] at hstamps
    exact (List.nodup_cons.mp (List.nodup_append.mp hstamps).2.1).1
  rw [readFile_eq_ok, pathKey_backupPath, nodeAt_backupKey, run_append, run_cons]
  exact api.run_get?_backup _ post
    (fun c' hc' hs => hlater (List.mem_filterMap.mpr ⟨c', hc', hs⟩))
    (api.handle_put_backup hvalid hbackup hdata)

/-- A config API in UTC whose validator accepts every body. -/
def utcAPI : ConfigAPI := ⟨"config.json", fun _ => 0, fun _ => .ok (), fun _ => .error "EOF"⟩

/-- A config file `config.json` holding one byte, in the working directory. -/
def oneByteConfig : FileTree := GoMap.empty.set ⟨false, ["config.json".data]⟩ (.file [1])

/-- Saves one second apart keep the version each replaced. -/
theorem saves_one_second_apart_keep_version :
    readFile (utcAPI.run oneByteConfig
        [.config "PUT" (some [2]) ⟨0⟩, .config "PUT" (some [3]) ⟨1000000000⟩])
      (utcAPI.backupPath ⟨0⟩) = .ok [1] :=
  config_versions_kept_of_distinct_stamps utcAPI oneByteConfig _ (by decide) [] [2] ⟨0⟩ _ [1] rfl
    rfl (by decide) (by decide)

/-- Two saves in the same second both answer `saved`, but the second overwrites the first's
backup: `backups/` then holds one file, with the content of the first save, and the config that
was current before the first save is in no file. -/
theorem same_second_save_loses_version :
    (utcAPI.handle oneByteConfig (.config "PUT" (some [2]) ⟨0⟩)).2 = .status "saved" ∧
      (utcAPI.handle (utcAPI.handle oneByteConfig (.config "PUT" (some [2]) ⟨0⟩)).1
        (.config "PUT" (some [3]) ⟨1⟩)).2 = .status "saved" ∧
      readDir (utcAPI.run oneByteConfig [.config "PUT" (some [2]) ⟨0⟩, .config "PUT" (some [3]) ⟨1⟩])
        utcAPI.backupsDir = .ok [("config_19700101000000.json", .file [2])] := by
  decide

/-- **A file where `backups/` should be loses every version**: a PUT that saves its body answers
`saved` and writes the config file, and nothing else. -/
theorem handle_put_of_backups_file (api : ConfigAPI) {t : FileTree} {body old d : List UInt8}
    (hvalid : (api.unmarshal body).isOk) (hconfig : readFile t api.configPath = .ok old)
    (hfile : t.get? (pathKey api.backupsDir) = some (.file d)) (now : Time) :
    api.handle t (.config "PUT" (some body) now) =
      (t.set (pathKey api.configPath) (.file body), .status "saved") := by
  obtain ⟨u, hu⟩ : ∃ u, api.unmarshal body = .ok u := by
    cases h : api.unmarshal body with
    | error e => rw [h] at hvalid; cases hvalid
    | ok u => exact ⟨u, rfl⟩
  simp only [handle, handleConfig, hu, if_true, if_false, String.reduceEq,
    api.createBackup_of_backups_file t now hfile, writeFile_of_file (readFile_eq_ok.mp hconfig)]
  rfl

/-! ## The rollback path -/

/-- **A rollback reads beside `backups/`.** For every config path and every `g`, the name
`"../" ++ g` makes `handleRollback` read `Join(Dir(configPath), g)`, and a successful read is
written over the config file. -/
theorem rollback_reads_outside_backups (api : ConfigAPI) (t : FileTree) (body : List UInt8)
    (g : String) :
    api.rollbackPath ("../" ++ g) = join [dir api.configPath, g] ∧
    (api.decodeRollback body = .ok ("../" ++ g) →
      api.handleRollback t "POST" body =
        match readFile t (join [dir api.configPath, g]) with
        | .error _ => (t, .error "Backup not found" 404)
        | .ok data => afterWrite (writeFile t api.configPath data) (.status "rolled back")
            (.error "Failed to rollback" 500)) := by
  have hpath : api.rollbackPath ("../" ++ g) = join [dir api.configPath, g] :=
    join_dotdot api.dir_ne_empty ⟨by decide, by decide, by decide, by decide⟩ g
  refine ⟨hpath, fun h => ?_⟩
  simp only [handleRollback, ne_eq, not_true_eq_false, if_false, h, hpath]

/-- The config API of a config at `/etc/picoclaw/config.json`, asked to roll back to
`../../../etc/passwd`. -/
def passwdAPI : ConfigAPI :=
  ⟨"/etc/picoclaw/config.json", fun _ => 0, fun _ => .ok (), fun _ => .ok "../../../etc/passwd"⟩

/-- `/etc/picoclaw/config.json` holding one byte, and `/etc/passwd`. -/
def passwdFiles : FileTree :=
  ((((GoMap.empty.set ⟨true, ["etc".data]⟩ .dir).set ⟨true, ["picoclaw".data, "etc".data]⟩ .dir).set
    ⟨true, ["config.json".data, "picoclaw".data, "etc".data]⟩ (.file [1])).set
    ⟨true, ["passwd".data, "etc".data]⟩ (.file (bytes "root:x:0:0")))

/-- The rollback reads `/etc/passwd` and writes it over the config. -/
theorem rollback_restores_etc_passwd :
    passwdAPI.rollbackPath ("../" ++ "../../etc/passwd") = "/etc/passwd" ∧
      readFile (passwdAPI.handleRollback passwdFiles "POST" []).1 passwdAPI.configPath =
        .ok (bytes "root:x:0:0") ∧
      (passwdAPI.handleRollback passwdFiles "POST" []).2 = .status "rolled back" :=
  ⟨(rollback_reads_outside_backups passwdAPI passwdFiles [] "../../etc/passwd").1.trans (by decide),
    by decide, by decide⟩

/-! ## A rollback to a plain name -/

/-- **A rollback to a real name reads exactly that backup**: for every config path, a name that
is one real element (not empty, `"."` or `".."`, and without a `'/'`) reads the node of
`backups/` under that name, never the config file or a file elsewhere. -/
theorem handleRollback_of_realElem (api : ConfigAPI) (t : FileTree) {body : List UInt8}
    {name : String} (hbody : api.decodeRollback body = .ok name) (hname : RealElem name.data) :
    api.handleRollback t "POST" body =
      match t.get? (api.backupKey name) with
      | some (.file data) => afterWrite (writeFile t api.configPath data) (.status "rolled back")
          (.error "Failed to rollback" 500)
      | _ => (t, .error "Backup not found" 404) := by
  simp only [handleRollback, ne_eq, not_true_eq_false, if_false, hbody, readFile,
    api.pathKey_rollbackPath hname, nodeAt_backupKey]
  rcases t.get? (api.backupKey name) with _ | _ | _ <;> rfl

/-- **A rollback to a save's backup undoes the save.** In any run, a rollback naming the backup
of a PUT that saved its body and wrote its backup, when no later request saved under that name,
puts back the config that was current just before the PUT, and answers `rolled back`. -/
theorem rollback_undoes_save (api : ConfigAPI) (t : FileTree) (pre post : List ConfigCall)
    {body rbody data : List UInt8} {now : Time} (hvalid : (api.unmarshal body).isOk)
    (hbackup : (api.createBackup (api.run t pre) now).2 = .ok ())
    (hdata : readFile (api.run t pre) api.configPath = .ok data)
    (hpost : ∀ c ∈ post, api.savedAt? c ≠ some (api.backupName now))
    (hrb : api.decodeRollback rbody = .ok (api.backupName now)) :
    api.handleRollback (api.run t (pre ++ .config "PUT" (some body) now :: post)) "POST" rbody =
      ((api.run t (pre ++ .config "PUT" (some body) now :: post)).set (pathKey api.configPath)
        (.file data), .status "rolled back") := by
  have hget : (api.run t (pre ++ .config "PUT" (some body) now :: post)).get?
      (api.backupKey (api.backupName now)) = some (.file data) := by
    rw [run_append, run_cons]
    exact api.run_get?_backup _ post hpost (api.handle_put_backup hvalid hbackup hdata)
  obtain ⟨d', hd'⟩ := api.run_file_stays (api.run t pre) (.config "PUT" (some body) now :: post)
    (get?_of_readFile_eq_ok hdata)
  rw [← run_append] at hd'
  have hne := stack_ne_nil_of_nodeAt_file (readFile_eq_ok.mp hdata)
  rw [api.handleRollback_of_realElem _ hrb (api.realElem_backupName now), hget]
  dsimp only
  rw [writeFile_of_file ((nodeAt_of_ne_nil hne).trans hd')]
  rfl

/-- The config API of `utcAPI`, asked to roll back to the backup of a save at the epoch. -/
def undoAPI : ConfigAPI :=
  ⟨"config.json", fun _ => 0, fun _ => .ok (), fun _ => .ok "config_19700101000000.json"⟩

/-- A save at the epoch, rolled back: the config is again the one byte it held before. -/
theorem rollback_undoes_epoch_save :
    undoAPI.handleRollback (undoAPI.run oneByteConfig [.config "PUT" (some [2]) ⟨0⟩]) "POST" [] =
      ((undoAPI.run oneByteConfig [.config "PUT" (some [2]) ⟨0⟩]).set
        (pathKey undoAPI.configPath) (.file [1]), .status "rolled back") :=
  rollback_undoes_save undoAPI oneByteConfig [] [] rfl (by decide) (by decide) (by simp) (by decide)

/-! ## The listing -/

/-- The names `listBackups` keeps of `ReadDir`'s entries: those that are not directories and
whose extension is `.json`, sorted by `sort.Sort(sort.Reverse(sort.StringSlice(names)))`, the
greatest first in Go's byte order, which is the order of the characters' code points. The names
of a directory are distinct, so every sort gives this one list. -/
def backupNames (entries : List (String × Node)) : List String :=
  ((entries.filter fun e => e.2 ≠ .dir ∧ ext e.1 = ".json").map Prod.fst).insertionSort
    fun a b => b.data ≤ a.data

/-- `listBackups`: a missing `backups/` (the not-exist error) is the empty slice `[]string{}`,
any other error of `ReadDir` is returned, and otherwise the kept names, which stay the nil slice
(`none`) when no entry is kept. -/
def listBackups (api : ConfigAPI) (t : FileTree) : Except FsError (Option (List String)) :=
  match readDir t api.backupsDir with
  | .error e => if e = .notExist then .ok (some []) else .error e
  | .ok entries => .ok (if backupNames entries = [] then none else some (backupNames entries))

/-- `handleBackups`, for any method: a 500 when `listBackups` fails, and otherwise
`json.NewEncoder(w).Encode(backups)`, which writes the nil slice as `null`. -/
def handleBackups (api : ConfigAPI) (t : FileTree) : Response :=
  match api.listBackups t with
  | .error _ => .error "Failed to list backups" 500
  | .ok names =>
    let backups : Any :=
      match names with
      | none => .null
      | some names => .slice (names.map .string)
    .encoded (backups.toJson.render ++ "\n")

theorem mem_backupNames {entries : List (String × Node)} {name : String} :
    name ∈ backupNames entries ↔ ∃ n, (name, n) ∈ entries ∧ n ≠ .dir ∧ ext name = ".json" := by
  simp [backupNames, (List.perm_insertionSort _ _).mem_iff]

/-- Of entries with distinct names, the kept names stand greatest first, each once. -/
theorem backupNames_sorted {entries : List (String × Node)} (h : (entries.map Prod.fst).Nodup) :
    (backupNames entries).Sorted fun a b => b.data < a.data := by
  haveI : IsTotal String fun a b => b.data ≤ a.data := ⟨fun a b => le_total _ _⟩
  haveI : IsTrans String fun a b => b.data ≤ a.data := ⟨fun _ _ _ h h' => le_trans h' h⟩
  have hnodup : (backupNames entries).Nodup :=
    (List.perm_insertionSort _ _).nodup_iff.mpr (h.sublist ((List.filter_sublist _).map _))
  exact ((List.sorted_insertionSort _ _).and hnodup).imp fun ⟨hle, hne⟩ =>
    lt_of_le_of_ne hle fun h => hne (String.ext h.symm)

/-- **What a listing can be**: the empty slice, or the kept names of the entries of
`backups/`. -/
theorem listBackups_eq_some {api : ConfigAPI} {t : FileTree} {names : List String}
    (h : api.listBackups t = .ok (some names)) :
    names = [] ∨ ∃ entries, readDir t api.backupsDir = .ok entries ∧ names = backupNames entries := by
  unfold listBackups at h
  split at h
  · split_ifs at h
    cases h
    exact .inl rfl
  · rename_i entries hread
    split_ifs at h <;> cases h
    exact .inr ⟨entries, hread, rfl⟩

/-- A listed name is a node of `backups/` that is not a directory, with extension `.json`. -/
theorem mem_listBackups {api : ConfigAPI} {t : FileTree} {names : List String}
    (h : api.listBackups t = .ok (some names)) {name : String} (hname : name ∈ names) :
    ∃ n, t.get? (api.backupKey name) = some n ∧ n ≠ .dir ∧ ext name = ".json" := by
  rcases listBackups_eq_some h with rfl | ⟨entries, hread, rfl⟩
  · exact absurd hname (List.not_mem_nil _)
  · obtain ⟨n, hmem, hn⟩ := mem_backupNames.mp hname
    exact ⟨n, mem_children.mp ((readDir_perm hread).mem_iff.mp hmem), hn⟩

/-- The listing names every kept backup once, the greatest name first. -/
theorem listBackups_sorted {api : ConfigAPI} {t : FileTree} {names : List String}
    (h : api.listBackups t = .ok (some names)) : names.Sorted fun a b => b.data < a.data := by
  rcases listBackups_eq_some h with rfl | ⟨entries, hread, rfl⟩
  · exact List.sorted_nil
  · exact backupNames_sorted
      (((readDir_perm hread).map Prod.fst).nodup_iff.mpr (nodup_children_names _ _))

/-- **The listing is written `null` exactly for a `backups/` without a kept entry**; a missing
one is written `[]`, and a file where `backups/` should be is a 500. -/
theorem handleBackups_eq_null_iff (api : ConfigAPI) (t : FileTree) :
    api.handleBackups t = .encoded "null\n" ↔
      ∃ entries, readDir t api.backupsDir = .ok entries ∧ backupNames entries = [] := by
  have harray : ∀ xs, Response.encoded ((Json.array xs).render ++ "\n") ≠ .encoded "null\n" :=
    fun xs h => by
      have hhead := congrArg (fun s : String => s.data.head?) (Response.encoded.inj h)
      simp only [Json.render, String.data_append, List.append_assoc, List.head?_append,
        List.head?_cons, Option.or_some] at hhead
      exact absurd hhead (by decide)
  unfold handleBackups listBackups
  cases hread : readDir t api.backupsDir with
  | error e =>
    refine ⟨fun h => ?_, fun ⟨_, h, _⟩ => by cases h⟩
    dsimp only at h
    split_ifs at h
    exact absurd h (harray _)
  | ok entries =>
    by_cases hn : backupNames entries = []
    · simp only [hn, if_true]
      exact ⟨fun _ => ⟨entries, rfl, hn⟩, fun _ => rfl⟩
    · simp only [hn, if_false]
      exact ⟨fun h => absurd h (harray _), fun ⟨_, h, h'⟩ => by cases h; exact absurd h' hn⟩

/-! ## Files as a disk holds them -/

/-- Files as a disk holds them: every node sits in a directory, under a name `Clean` keeps
(`Os.Consistent`). -/
structure Disk where
  tree : FileTree
  consistent : Consistent tree

namespace Disk

/-- A request, on a disk. -/
def handle (api : ConfigAPI) (d : Disk) (c : ConfigCall) : Disk × Response :=
  (⟨(api.handle d.tree c).1, api.handle_consistent d.consistent c⟩, (api.handle d.tree c).2)

/-- Requests served one after another. -/
def run (api : ConfigAPI) (d : Disk) (calls : List ConfigCall) : Disk :=
  calls.foldl (fun d c => (d.handle api c).1) d

/-- **The disk's run is the config API's run.** -/
theorem run_tree (api : ConfigAPI) :
    ∀ (d : Disk) (calls : List ConfigCall), (d.run api calls).tree = api.run d.tree calls
  | _, [] => rfl
  | d, c :: calls => run_tree api (d.handle api c).1 calls

end Disk

/-- A `.json` name on a disk is one real element: `".."`, the one other name `Clean` keeps, has
another extension. -/
theorem realElem_of_normalStack {rooted : Bool} {name : String} {S : List (List Char)}
    (h : NormalStack rooted (name.data :: S)) (hext : ext name = ".json") : RealElem name.data := by
  generalize he : name.data = e at h
  cases h with
  | real _ hreal => exact hreal
  | dotdot =>
    obtain ⟨cs⟩ := name
    cases he
    exact absurd hext (by decide)

/-- **Every listed backup rolls back to its bytes.** On a disk, after any requests, each name
that `GET /api/config/backups` lists, posted to `/api/config/rollback`, reads exactly the file
of `backups/` under that name, whatever the config path, and writes it over the config file. -/
theorem listed_backup_rolls_back (api : ConfigAPI) (d : Disk) (calls : List ConfigCall)
    {names : List String} (hlist : api.listBackups (api.run d.tree calls) = .ok (some names))
    {name : String} (hname : name ∈ names) {body : List UInt8}
    (hbody : api.decodeRollback body = .ok name) :
    ∃ data, readFile (api.run d.tree calls) (join [api.backupsDir, name]) = .ok data ∧
      api.handleRollback (api.run d.tree calls) "POST" body =
        afterWrite (writeFile (api.run d.tree calls) api.configPath data) (.status "rolled back")
          (.error "Failed to rollback" 500) := by
  have hcons : Consistent (api.run d.tree calls) :=
    Disk.run_tree api d calls ▸ (d.run api calls).consistent
  obtain ⟨n, hget, hdir, hext⟩ := mem_listBackups hlist hname
  obtain ⟨data, rfl⟩ : ∃ data, n = .file data := by
    cases n with
    | file data => exact ⟨data, rfl⟩
    | dir => exact absurd rfl hdir
  have hreal := realElem_of_normalStack (hcons _ _ hget).1 hext
  refine ⟨data, ?_, ?_⟩
  · rw [readFile_eq_ok, api.pathKey_join_backupsDir hreal, nodeAt_backupKey]
    exact hget
  · rw [api.handleRollback_of_realElem _ hbody hreal, hget]

/-- `oneByteConfig` on a disk. -/
def oneByteDisk : Disk :=
  ⟨oneByteConfig, consistent_set (k := ⟨false, ["config.json".data]⟩) consistent_empty
    (.real .nil ⟨by decide, by decide, by decide, by decide⟩) (List.cons_ne_nil _ _) (by decide) rfl _⟩

/-- After a save at the epoch, the listed backup rolls back to the one-byte config. -/
theorem epoch_backup_rolls_back :
    ∃ data, readFile (undoAPI.run oneByteConfig [.config "PUT" (some [2]) ⟨0⟩])
        (join [undoAPI.backupsDir, "config_19700101000000.json"]) = .ok data ∧
      undoAPI.handleRollback (undoAPI.run oneByteConfig [.config "PUT" (some [2]) ⟨0⟩]) "POST" [] =
        afterWrite (writeFile (undoAPI.run oneByteConfig [.config "PUT" (some [2]) ⟨0⟩])
          undoAPI.configPath data) (.status "rolled back") (.error "Failed to rollback" 500) :=
  listed_backup_rolls_back undoAPI oneByteDisk [.config "PUT" (some [2]) ⟨0⟩]
    (show undoAPI.listBackups _ = .ok (some ["config_19700101000000.json"]) by decide)
    (List.mem_singleton_self _) rfl

/-! ## The newest backup first -/

/-- **A later save has a greater backup name**: the names share `"config_"` and `".json"`, and
their stamps have one length. -/
theorem backupName_lt (api : ConfigAPI) {now now' : Time}
    (hyear : FourDigitYear (api.localOffset now) now)
    (hyear' : FourDigitYear (api.localOffset now') now')
    (h : now.unixNano / 1000000000 + api.localOffset now <
      now'.unixNano / 1000000000 + api.localOffset now') :
    (api.backupName now).data < (api.backupName now').data := by
  have hlen := (formatStamp_decimal hyear).2.1.trans (formatStamp_decimal hyear').2.1.symm
  simp only [backupName, String.data_append, List.append_assoc]
  exact List.Lex.append_left _ (lex_append_of_length_eq (formatStamp_lt hyear hyear' h) hlen _ _) _

/-- In a list sorted by an asymmetric relation, two members related by it stand in its
order. -/
theorem sublist_pair_of_sorted {α : Type} {r : α → α → Prop} (hasymm : ∀ a b, r a b → ¬ r b a) :
    ∀ {l : List α} {a b : α}, l.Sorted r → a ∈ l → b ∈ l → r a b → List.Sublist [a, b] l
  | [], _, _, _, ha, _, _ => absurd ha (List.not_mem_nil _)
  | x :: l, a, b, hs, ha, hb, hab => by
    obtain ⟨hx, hl⟩ := List.sorted_cons.mp hs
    rcases List.mem_cons.mp ha with rfl | hal
    · rcases List.mem_cons.mp hb with rfl | hbl
      · exact absurd hab (hasymm _ _ hab)
      · exact (List.singleton_sublist.mpr hbl).cons₂ a
    · rcases List.mem_cons.mp hb with rfl | hbl
      · exact absurd (hx a hal) (hasymm _ _ hab)
      · exact (sublist_pair_of_sorted hasymm hl hal hbl hab).cons x

/-- **The listing shows the later of two backups first.** Of two backups saved at readings a
wall-clock second or more apart (each in the zone's offset at its reading), in years of four
digits, `GET /api/config/backups` lists the later one before the earlier. -/
theorem listBackups_later_first (api : ConfigAPI) (t : FileTree) {now now' : Time}
    (hyear : FourDigitYear (api.localOffset now) now)
    (hyear' : FourDigitYear (api.localOffset now') now')
    (hlater : now.unixNano / 1000000000 + api.localOffset now <
      now'.unixNano / 1000000000 + api.localOffset now')
    {names : List String} (hlist : api.listBackups t = .ok (some names))
    (hmem : api.backupName now ∈ names) (hmem' : api.backupName now' ∈ names) :
    List.Sublist [api.backupName now', api.backupName now] names :=
  sublist_pair_of_sorted (fun _ _ h h' => lt_asymm h h') (listBackups_sorted hlist) hmem' hmem
    (api.backupName_lt hyear hyear' hlater)

/-- Two saves one second apart. -/
def twoSaves : List ConfigCall :=
  [.config "PUT" (some [2]) ⟨0⟩, .config "PUT" (some [3]) ⟨1000000000⟩]

/-- After saves at the epoch and a second later, the later backup is listed first. -/
theorem later_epoch_backup_listed_first :
    List.Sublist [undoAPI.backupName ⟨1000000000⟩, undoAPI.backupName ⟨0⟩]
      ["config_19700101000001.json", "config_19700101000000.json"] :=
  listBackups_later_first undoAPI (undoAPI.run oneByteConfig twoSaves) (by decide) (by decide)
    (by decide) (by decide) (by decide) (by decide)

end ConfigAPI

end Picoclaw.Dashboard
