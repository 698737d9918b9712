import CppJam.Storage.RocksDb

/-!
# Sessions on one path

A session constructs `RocksDb`, takes a space, writes, and destroys the object. What
was written should be there in every later session. The constructor opens the database
only when the path did not exist before, so this holds for the session that creates
the directory and fails for every later one: its object has no database and no column
family.
-/

namespace CppJam.Storage

open Bytes Checks Stores

/-- One session: what fails in it, the space it takes and what it writes there. -/
structure Session where
  /-- The calls that fail. -/
  env : Environment
  /-- The space taken by `getSpace`. -/
  space : Space
  /-- The puts and removes on the space. -/
  writes : List Write

/-- The path between two sessions and the writes of all sessions so far. -/
structure History where
  /-- What the file system has at the path. -/
  path : PathState
  /-- The writes made, each with its space. -/
  written : List (Space × Write)

/-- One session on the path. When the constructor or `getSpace` throws, nothing is
written. -/
def Session.run (h : History) (session : Session) : History :=
  match construct session.env h.path with
  | (path, .error _) => ⟨path, h.written⟩
  | (path, .ok rocks) =>
      match rocks.getSpace session.space with
      | .error _ => ⟨rocks.destroy path, h.written⟩
      | .ok (column, rocks) =>
          match rocks.applyAll column session.writes with
          | .error _ => ⟨path, h.written⟩
          | .ok rocks =>
              ⟨rocks.destroy path, h.written ++ session.writes.map (Prod.mk session.space)⟩

/-- A sequence of sessions on a path. -/
def after (initial : PathState) (sessions : List Session) : History :=
  sessions.foldl Session.run ⟨initial, []⟩

/-- The value that a path stores under a key of a column family. -/
def PathState.entry : PathState → String → ByteVec → Option ByteVec
  | .directory (some db), column, key => db.entry column key
  | _, _, _ => none

/-- What the last write to a key of a space left, or else what the path had at first. -/
def lastValue (initial : PathState) (written : List (Space × Write)) (space : Space)
    (key : ByteVec) : Option ByteVec :=
  left (fun w => (w.1, w.2.key)) (fun w => w.2.value) written (space, key)
    (initial.entry (spaceName space) key)

/-- How `get` returns a value. -/
def getResult : Option ByteVec → Except StorageError ByteVec
  | some value => .ok value
  | none => .error .notFound

/-- If the constructor does not throw, the database is open with a handle for every required
space, and after any number of the session's writes `get` returns what the last write
in this or an earlier session left. -/
def Durable (initial : PathState) (h : History) (session : Session) : Prop :=
  ∀ path rocks, construct session.env h.path = (path, .ok rocks) →
    rocks.db.isSome ∧
    (∀ space ∈ requiredSpaces, spaceName space ∈ rocks.columnFamilyHandles) ∧
    ∀ front, front <+: session.writes → ∃ column opened rocks',
      rocks.getSpace session.space = .ok (column, opened) ∧
      opened.applyAll column front = .ok rocks' ∧
      ∀ key, rocks'.get column key = .ok (getResult (lastValue initial
        (h.written ++ front.map (Prod.mk session.space)) session.space key))

/-- Every session of a sequence is durable. -/
def SessionsDurable (initial : PathState) (sessions : List Session) : Prop :=
  ∀ front session back, sessions = front ++ session :: back →
    Durable initial (after initial front) session

/-- What the constructor needs to get as far as `if (no_db_presented)`: no call before it
fails, and the path is not a file. -/
structure ReachesOpen (env : Environment) (path : PathState) : Prop where
  /-- `getFdLimit` gives a limit. -/
  fdLimit : env.noFdLimit = false
  /-- `create_directories` reports no code of the system. -/
  createDirectories : env.createDirectories = none
  /-- What is at the path is not in the way of a directory. -/
  notFile : path ≠ .file
  /-- `create_directory` reports no code. -/
  createDirectory : env.createDirectory = none
  /-- `ListColumnFamilies` succeeds or does not find the path. -/
  listed : env.listColumnFamilies = none ∨ env.listColumnFamilies = some .pathNotFound

section Construct

variable {env : Environment} {path path' : PathState} {rocks : RocksDb}

/-- `create_directories` succeeds where the system reports no code and no file is in the way. -/
theorem createDirectories_eq_ok {found : Option Database} :
    createDirectories env path = .ok found ↔
      env.createDirectories = none ∧ (path = .absent ∧ found = none ∨ path = .directory found) := by
  unfold createDirectories
  cases env.createDirectories with
  | some code => simp
  | none => cases path <;> simp [eq_comm]

/-- `createDirectory` succeeds where the system reports no code. -/
theorem createDirectory_eq_ok {u : Unit} :
    createDirectory env = .ok u ↔ env.createDirectory = none := by
  unfold createDirectory
  cases env.createDirectory <;> simp

/-- The column families are found where `ListColumnFamilies` succeeds or does not find the
path. -/
theorem exists_existingFamilies_iff (found : Option Database) :
    (∃ existing, existingFamilies env found = .ok existing) ↔
      env.listColumnFamilies = none ∨ env.listColumnFamilies = some .pathNotFound := by
  unfold existingFamilies
  cases env.listColumnFamilies with
  | none => cases found <;> simp
  | some status => cases status <;> simp

/-- The constructor returns when it finds a limit of open files and a directory and then runs
to its end. -/
theorem construct_eq_ok :
    construct env path = (path', .ok rocks) ↔ env.noFdLimit = false ∧
      ∃ found, createDirectories env path = .ok found ∧ path' = .directory found ∧
        initialise env path.isAbsent found = .ok rocks := by
  unfold construct
  cases env.noFdLimit with
  | true => simp
  | false => cases createDirectories env path <;> simp [eq_comm]

/-- On a path that exists the constructor returns exactly when it gets as far as
`if (no_db_presented)`. -/
theorem exists_construct_iff (hexists : path.isAbsent = false) :
    (∃ path' rocks, construct env path = (path', .ok rocks)) ↔ ReachesOpen env path := by
  have hinitialise : ∀ found, (∃ rocks, initialise env false found = .ok rocks) ↔
      env.createDirectory = none ∧
        (env.listColumnFamilies = none ∨ env.listColumnFamilies = some .pathNotFound) := by
    intro found
    rw [← exists_existingFamilies_iff found]
    simp [initialise, bind_eq_ok, createDirectory_eq_ok]
  constructor
  · rintro ⟨path', rocks, hrun⟩
    obtain ⟨hlimit, found, hfound, _, hinit⟩ := construct_eq_ok.mp hrun
    obtain ⟨hcode, hpath⟩ := createDirectories_eq_ok.mp hfound
    obtain ⟨hdirectory, hlisted⟩ := (hinitialise found).mp ⟨rocks, hexists ▸ hinit⟩
    refine ⟨hlimit, hcode, ?_, hdirectory, hlisted⟩
    rintro rfl
    simp at hpath
  · intro h
    cases path with
    | absent => cases hexists
    | file => exact absurd rfl h.notFile
    | directory found =>
      obtain ⟨rocks, hinit⟩ := (hinitialise found).mpr ⟨h.createDirectory, h.listed⟩
      exact ⟨.directory found, rocks, construct_eq_ok.mpr
        ⟨h.fdLimit, found, createDirectories_eq_ok.mpr ⟨h.createDirectories, .inr rfl⟩, rfl,
          hinit⟩⟩

/-- On a path that exists the constructor opens nothing. -/
theorem construct_of_exists (hrun : construct env path = (path', .ok rocks))
    (hexists : path.isAbsent = false) : rocks = ⟨none, [], []⟩ := by
  obtain ⟨_, found, _, _, hinit⟩ := construct_eq_ok.mp hrun
  rw [hexists] at hinit
  simp only [initialise, bind_eq_ok, pure_eq_ok, Bool.false_eq_true, if_false] at hinit
  obtain ⟨_, _, _, _, rfl⟩ := hinit
  rfl

/-- The families that are opened include every required one. -/
theorem spaceName_mem_allFamilies (space : Space) (existing : List String) :
    spaceName space ∈ allFamilies existing :=
  List.mem_append_left _ (List.mem_map_of_mem (mem_requiredSpaces space))

/-- On a path that does not exist the constructor creates a database. -/
theorem construct_of_absent (hrun : construct env path = (path', .ok rocks))
    (habsent : path.isAbsent = true) :
    ∃ families, rocks = ⟨some (.fresh families), families, []⟩ ∧
      ∀ space, spaceName space ∈ families := by
  obtain ⟨_, found, hfound, _, hinit⟩ := construct_eq_ok.mp hrun
  cases path with
  | file => cases habsent
  | directory _ => cases habsent
  | absent =>
    obtain rfl : found = none := by simpa using (createDirectories_eq_ok.mp hfound).2
    simp only [initialise, bind_eq_ok, PathState.isAbsent, if_true] at hinit
    obtain ⟨_, _, existing, _, hopen⟩ := hinit
    refine ⟨allFamilies existing, ?_, fun space => spaceName_mem_allFamilies space existing⟩
    cases hstatus : env.openDatabase with
    | some status => simp [openDatabaseWithTTL, hstatus] at hopen
    | none => simpa [openDatabaseWithTTL, hstatus, Database.openWith] using hopen.symm

/-- The constructor never removes the path, and a path that it leaves absent was absent
and makes it throw. -/
theorem construct_leaves_absent (habsent : (construct env path).1.isAbsent = true) :
    path.isAbsent = true ∧ ∃ thrown, (construct env path).2 = .error thrown := by
  unfold construct at habsent ⊢
  split_ifs at habsent ⊢ with hlimit
  · exact ⟨habsent, _, rfl⟩
  · cases hfound : createDirectories env path with
    | error code =>
      rw [hfound] at habsent
      exact ⟨habsent, _, rfl⟩
    | ok found =>
      rw [hfound] at habsent
      cases habsent

end Construct

/-- Destroying the object does not remove the path. -/
theorem isAbsent_destroy (rocks : RocksDb) {path : PathState} (hexists : path.isAbsent = false) :
    (rocks.destroy path).isAbsent = false := by
  unfold RocksDb.destroy
  split
  · rfl
  · exact hexists

/-- A session that leaves the path absent found it absent and wrote nothing. -/
theorem Session.run_leaves_absent {h : History} {session : Session}
    (habsent : (session.run h).path.isAbsent = true) :
    h.path.isAbsent = true ∧ (session.run h).written = h.written := by
  have hleaves := @construct_leaves_absent session.env h.path
  unfold Session.run at habsent ⊢
  cases hrun : construct session.env h.path with
  | mk path result =>
    rw [hrun] at hleaves habsent
    cases result with
    | error thrown => exact ⟨(hleaves habsent).1, rfl⟩
    | ok rocks =>
      obtain ⟨_, found, _, rfl, _⟩ := construct_eq_ok.mp hrun
      have hdestroy := fun r : RocksDb => @isAbsent_destroy r (.directory found) rfl
      dsimp only at habsent
      split at habsent
      · rw [hdestroy] at habsent
        cases habsent
      · split at habsent
        · cases habsent
        · rw [hdestroy] at habsent
          cases habsent

/-- A path that is absent after some sessions was absent at first, and nothing was
written. -/
theorem after_absent {initial : PathState} {sessions : List Session}
    (habsent : (after initial sessions).path.isAbsent = true) :
    initial.isAbsent = true ∧ (after initial sessions).written = [] := by
  induction sessions using List.reverseRecOn with
  | nil => exact ⟨habsent, rfl⟩
  | append_singleton sessions session ih =>
    have hstep : after initial (sessions ++ [session]) = session.run (after initial sessions) := by
      simp [after]
    rw [hstep] at habsent ⊢
    obtain ⟨hbefore, hwritten⟩ := Session.run_leaves_absent habsent
    obtain ⟨hinitial, hnone⟩ := ih hbefore
    exact ⟨hinitial, hwritten.trans hnone⟩

/-- The writes of a session change the open database. -/
theorem applyAll_eq_ok (db : Database) (handles : List String) (spaces : List (Space × String))
    (column : String) (writes : List Write) :
    (RocksDb.mk (some db) handles spaces).applyAll column writes =
      .ok ⟨some (writes.foldl (fun db w => db.write column w) db), handles, spaces⟩ := by
  induction writes generalizing db with
  | nil => rfl
  | cons w writes ih =>
    have hw : RocksDb.apply column (RocksDb.mk (some db) handles spaces) w =
        .ok ⟨some (db.write column w), handles, spaces⟩ := by
      cases w with
      | put key value => rfl
      | remove key => rfl
    rw [RocksDb.applyAll, List.foldlM_cons, hw]
    exact ih _

/-- After some writes to a column family each key has what the last write left. -/
theorem entry_foldl_write (db : Database) (column : String) (writes : List Write)
    (key : ByteVec) :
    (writes.foldl (fun db w => db.write column w) db).entry column key =
      left Write.key Write.value writes key (db.entry column key) := by
  have hstep : ∀ (db : Database) (w : Write) (key : ByteVec), (db.write column w).entry column key =
      if w.key = key then w.value else db.entry column key := by
    intro db w key
    change Function.update db.entry column _ column key = _
    rw [Function.update_self, Function.update_apply]
    simp only [eq_comm]
  exact read_foldl (fun db key => Database.entry db column key) hstep db writes key

/-- The writes of one space seen among all spaces. -/
theorem left_map_space (space : Space) (writes : List Write) (key : ByteVec)
    (before : Option ByteVec) :
    left (fun w : Space × Write => (w.1, w.2.key)) (fun w => w.2.value)
        (writes.map (Prod.mk space)) (space, key) before =
      left Write.key Write.value writes key before := by
  unfold left
  rw [lastAt_map, lastAt_comp (Prod.mk_right_injective space), Option.map_map]
  rfl

/-- The space of a column family that was opened is handed out. -/
theorem getSpace_eq_ok (db : Option Database) {handles : List String} {space : Space}
    (hspace : spaceName space ∈ handles) :
    (RocksDb.mk db handles []).getSpace space =
      .ok (spaceName space, ⟨db, handles, [(space, spaceName space)]⟩) := by
  have hfind : handles.find? (fun handle => handle = spaceName space) =
      some (spaceName space) := by
    induction handles with
    | nil => cases hspace
    | cons handle handles ih =>
      by_cases hhandle : handle = spaceName space
      · rw [List.find?_cons_of_pos (by simpa using hhandle), hhandle]
      · rw [List.find?_cons_of_neg (by simpa using hhandle)]
        exact ih (List.mem_of_ne_of_mem (Ne.symm hhandle) hspace)
  unfold RocksDb.getSpace
  simp only [List.lookup_nil, hfind]

/-- `get` on an open database returns the entry. -/
theorem get_eq_ok (db : Database) (handles : List String) (spaces : List (Space × String))
    (column : String) (key : ByteVec) :
    (RocksDb.mk (some db) handles spaces).get column key =
      .ok (getResult (db.entry column key)) := by
  unfold RocksDb.get
  cases hentry : db.entry column key with
  | none =>
    simp only [hentry]
    rfl
  | some value =>
    simp only [hentry]
    rfl

/-- A path that does not exist has no entries. -/
theorem entry_of_isAbsent {path : PathState} (habsent : path.isAbsent = true) (column : String)
    (key : ByteVec) : path.entry column key = none := by
  cases path with
  | absent => rfl
  | file => rfl
  | directory found => cases habsent

/-- A session is durable exactly when its constructor finds no path or does not get as far as
`if (no_db_presented)`. -/
theorem durable_iff {initial : PathState} {h : History}
    (hstart : h.path.isAbsent = true → initial.isAbsent = true ∧ h.written = [])
    (session : Session) :
    Durable initial h session ↔
      (ReachesOpen session.env h.path → h.path.isAbsent = true) := by
  constructor
  · intro hdurable hreaches
    by_contra hpath
    have hexists : h.path.isAbsent = false := Bool.eq_false_iff.mpr hpath
    obtain ⟨path, rocks, hrun⟩ := (exists_construct_iff hexists).mpr hreaches
    obtain ⟨hopen, _⟩ := hdurable path rocks hrun
    rw [construct_of_exists hrun hexists] at hopen
    cases hopen
  · intro habsent path rocks hrun
    have hpath : h.path.isAbsent = true := by
      by_contra hexists
      exact hexists (habsent ((exists_construct_iff (Bool.eq_false_iff.mpr hexists)).mp
        ⟨path, rocks, hrun⟩))
    obtain ⟨hinitial, hwritten⟩ := hstart hpath
    obtain ⟨families, rfl, hfamilies⟩ := construct_of_absent hrun hpath
    refine ⟨rfl, fun space _ => hfamilies space, fun front _ => ?_⟩
    refine ⟨_, _, _, getSpace_eq_ok _ (hfamilies session.space), applyAll_eq_ok _ _ _ _ _, ?_⟩
    intro key
    rw [hwritten, List.nil_append, lastValue, left_map_space, entry_of_isAbsent hinitial,
      get_eq_ok, entry_foldl_write]
    rfl

namespace Scenario

/-- A session in which no call fails puts one value. -/
def session : Session := ⟨⟨false, none, none, none, none⟩, .default, [.put [1] [2]]⟩

end Scenario

/-- **When sessions are durable.** For every path and every sequence of sessions, all of
them are durable exactly when each session starts on a path that does not exist, those apart
in which a call before the opening of the database fails or a file is at the path. -/
theorem sessionsDurable_iff (initial : PathState) (sessions : List Session) :
    SessionsDurable initial sessions ↔
      ∀ front session back, sessions = front ++ session :: back →
        ReachesOpen session.env (after initial front).path →
        (after initial front).path.isAbsent = true := by
  unfold SessionsDurable
  refine forall_congr' fun front => forall_congr' fun session => forall_congr' fun back =>
    imp_congr_right fun _ => ?_
  exact durable_iff after_absent session

/-- The session that creates the directory is durable. -/
theorem sessionsDurable_first_session : SessionsDurable .absent [Scenario.session] := by
  refine (sessionsDurable_iff .absent [Scenario.session]).mpr ?_
  intro front session back hsplit _
  cases front with
  | nil => rfl
  | cons first front => simp at hsplit

/-- The constructor of the second session returns, but its object has no database, and
`getSpace` throws. -/
theorem not_sessionsDurable_second_session :
    (∃ path rocks,
      construct Scenario.session.env (after .absent [Scenario.session]).path =
        (path, .ok rocks) ∧
      rocks.db = none ∧ rocks.getSpace .default = .error .invalidArgument) ∧
    ¬SessionsDurable .absent [Scenario.session, Scenario.session] := by
  have hrun : ∃ path, construct Scenario.session.env (after .absent [Scenario.session]).path =
      (path, .ok ⟨none, [], []⟩) := ⟨_, rfl⟩
  obtain ⟨path, hrun⟩ := hrun
  refine ⟨⟨path, _, hrun, rfl, rfl⟩, fun hdurable => ?_⟩
  obtain ⟨hopen, _⟩ := hdurable [Scenario.session] Scenario.session [] rfl path _ hrun
  cases hopen

end CppJam.Storage
