import AddMessenger.FileTrees

/-!
# Restoring a backup

The handlers `add-restore` and `add-delete-backup` of `desktop-ui/electron/main.js`. The
archive is read by a package: all that is used of it is that a backup holds files, written into
the directory one after another. Any operation can fail, and the program can be cut off.
-/

namespace BackupRestore

open FileTrees

variable {Content : Type*}

def addDir (home : Path) : Path := ".add" :: home

def backupDir (home : Path) : Path := ".add-backup" :: home

/-- The replies; `caught` has the message of what was thrown. -/
inductive Reply where
  | success (message : String)
  | failure (error : String)
  | caught
  deriving DecidableEq

/-- How far a restore gets that does not get through. -/
inductive Point where
  | removing (gone : List Path)
  | creating
  | extracting (written : ℕ)

/-- It is cut off, or something is thrown. -/
structure Stop where
  point : Point
  cutOff : Bool

def Stop.reply (stop : Stop) : Option Reply := if stop.cutOff then none else some .caught

/-- What a request leaves: the files, the one whose content is read, and the reply. -/
structure Outcome (Content : Type*) where
  tree : FileTree Content
  readFile : Option Path
  reply : Option Reply

def existsSync (t : FileTree Content) (target : Target) : Bool :=
  t.isDir target.path || ((t.fileAt target.path).isSome && !target.slash)

def namedFile (t : FileTree Content) (target : Target) : Option Content :=
  if target.slash then none else t.fileAt target.path

/-- `fs.rmSync(addDir, { recursive: true, force: true })`, if there is something. -/
def cleared (t : FileTree Content) (home : Path) : FileTree Content :=
  if existsSync t ⟨addDir home, false⟩ then t.remove [addDir home] else t

/-- `fs.mkdirSync`, and the pipeline from the backup into the directory. -/
def extraction (unzip : Content → List (Entry Content)) (t : FileTree Content) (home : Path)
    (backupPath : Target) : FileTree Content × Option Path × Bool :=
  match t.makeDirs (addDir home) with
  | none => (t, none, false)
  | some fresh =>
    match namedFile fresh backupPath with
    | none => (fresh, none, false)
    | some content =>
      let written := fresh.writeAll ((unzip content).map (·.below (addDir home)))
      (written.1, some backupPath.path, written.2)

def addRestore (unzip : Content → List (Entry Content)) (t : FileTree Content) (home : Path)
    (backupName : String) (stop : Option Stop) : Outcome Content :=
  let backupPath := join (backupDir home) backupName
  if existsSync t backupPath = false then ⟨t, none, some (.failure "Backup file not found")⟩
  else
    match stop with
    | some ⟨.removing gone, cutOff⟩ =>
      ⟨t.remove (gone.map (· ++ addDir home)), none, Stop.reply ⟨.removing gone, cutOff⟩⟩
    | some ⟨.creating, cutOff⟩ => ⟨cleared t home, none, Stop.reply ⟨.creating, cutOff⟩⟩
    | some ⟨.extracting written, cutOff⟩ =>
      let r := extraction (fun content => (unzip content).take written) (cleared t home) home
        backupPath
      ⟨r.1, r.2.1, Stop.reply ⟨.extracting written, cutOff⟩⟩
    | none =>
      let r := extraction unzip (cleared t home) home backupPath
      ⟨r.1, r.2.1, some (if r.2.2 then .success s!"Restored from {backupName}" else .caught)⟩

/-- `refused` is whether `fs.unlinkSync` throws although there is a file. -/
def addDeleteBackup (t : FileTree Content) (home : Path) (backupName : String) (refused : Bool) :
    Outcome Content :=
  let backupPath := join (backupDir home) backupName
  if existsSync t backupPath = false then ⟨t, none, some (.failure "Backup file not found")⟩
  else if refused || t.isDir backupPath.path then ⟨t, none, some .caught⟩
  else ⟨t.unlink backupPath.path, none, some (.success s!"Deleted {backupName}")⟩

inductive Request where
  | restore (backupName : String) (stop : Option Stop)
  | delete (backupName : String) (refused : Bool)

def Direct (home p : Path) : Prop := ∃ name, p = name :: backupDir home

def AllOrNothing (unzip : Content → List (Entry Content)) (t : FileTree Content) (home : Path)
    (backupPath : Target) (out : Outcome Content) : Prop :=
  match out.reply with
  | some (.success _) => ∃ content, namedFile t backupPath = some content ∧
      (out.tree.view (addDir home)).fileAt = overwritten (fun _ => none) (unzip content)
  | _ => (out.tree.view (addDir home)).fileAt = (t.view (addDir home)).fileAt

/-- Only backups are read, and apart from what is restored only they change. -/
def Confined (t : FileTree Content) (home : Path) (restored : Path → Prop) (out : Outcome Content) :
    Prop :=
  (∀ p ∈ out.readFile, Direct home p) ∧
    ∀ p, out.tree.fileAt p ≠ t.fileAt p → restored p ∨ Direct home p

def Sound (unzip : Content → List (Entry Content)) (t : FileTree Content) (home : Path) :
    Request → Prop
  | .restore backupName stop =>
    let out := addRestore unzip t home backupName stop
    AllOrNothing unzip t home (join (backupDir home) backupName) out ∧
      Confined t home (addDir home <:+ ·) out
  | .delete backupName refused =>
    Confined t home (fun _ => False) (addDeleteBackup t home backupName refused)

def NoFiles (t : FileTree Content) : Prop := ∀ p, t.fileAt p = none

/-- A file is where the home directory should be. -/
def Homeless (t : FileTree Content) (home : Path) : Prop := ∃ q, q <:+ home ∧ (t.fileAt q).isSome

/-- What can still be read of the backup once the directory is cleared. -/
def source (t : FileTree Content) (home : Path) (backupPath : Target) : Option Content :=
  if (addDir home).isSuffixOf backupPath.path then none else namedFile t backupPath

def RestoreSpares (unzip : Content → List (Entry Content)) (t : FileTree Content) (home : Path)
    (backupPath : Target) : Option Stop → Prop
  | some ⟨.removing gone, _⟩ =>
    ∀ p ∈ gone, ∀ q, p <:+ q → (t.view (addDir home)).fileAt q = none
  | some ⟨.creating, _⟩ => NoFiles (t.view (addDir home))
  | some ⟨.extracting written, _⟩ =>
    match source t home backupPath with
    | none => NoFiles (t.view (addDir home))
    | some content => Direct home backupPath.path ∧
        (t.view (addDir home)).fileAt =
          (FileTree.layout ((unzip content).take written)).1.fileAt
  | none =>
    match source t home backupPath with
    | none => NoFiles (t.view (addDir home))
    | some content => Direct home backupPath.path ∧
        ((FileTree.layout (unzip content)).2 = true ∨
          (t.view (addDir home)).fileAt = (FileTree.layout (unzip content)).1.fileAt)

def Spares (unzip : Content → List (Entry Content)) (t : FileTree Content) (home : Path) :
    Request → Prop
  | .restore backupName stop =>
    let backupPath := join (backupDir home) backupName
    existsSync t backupPath = false ∨ Homeless t home ∨ RestoreSpares unzip t home backupPath stop
  | .delete backupName refused =>
    let backupPath := join (backupDir home) backupName
    namedFile t backupPath = none ∨ refused = true ∨ Direct home backupPath.path

variable {unzip : Content → List (Entry Content)} {t : FileTree Content} {home : Path}

theorem existsSync_eq_false (p : Path) : existsSync t ⟨p, false⟩ = false ↔ t.node p = none := by
  rw [existsSync]
  cases found : t.node p with
  | none => simp [FileTree.isDir, FileTree.fileAt, found]
  | some node =>
    cases node with
    | file content => simp [FileTree.isDir, FileTree.fileAt, found]
    | dir => simp [FileTree.isDir, found]

theorem namedFile_of_absent {target : Target} (absent : existsSync t target = false) :
    namedFile t target = none := by
  obtain ⟨-, noFile⟩ := Bool.or_eq_false_iff.mp absent
  rw [namedFile]
  cases slash : target.slash with
  | true => rfl
  | false =>
    rw [slash, Bool.not_false, Bool.and_true] at noFile
    exact Option.isSome_eq_false_iff.mp noFile |> Option.isNone_iff_eq_none.mp

theorem namedFile_of_dir {target : Target} (dir : t.isDir target.path = true) :
    namedFile t target = none := by
  rw [namedFile, FileTree.fileAt_eq_none.mpr (.inr (FileTree.isDir_iff.mp dir)), ite_self]

theorem file_of_exists {target : Target} (there : existsSync t target = true)
    (notDir : t.isDir target.path = false) :
    ∃ content, t.fileAt target.path = some content ∧ namedFile t target = some content := by
  rw [existsSync, notDir, Bool.false_or, Bool.and_eq_true] at there
  obtain ⟨content, file⟩ := Option.isSome_iff_exists.mp there.1
  refine ⟨content, file, ?_⟩
  rw [namedFile, if_neg (by simpa using there.2), file]

theorem cleared_eq (t : FileTree Content) (home : Path) :
    cleared t home = t.remove [addDir home] := by
  rw [cleared]
  split
  · rfl
  · next absent =>
    rw [Bool.not_eq_true, existsSync_eq_false] at absent
    ext1 q
    by_cases on : addDir home <:+ q
    · rw [FileTree.none_of_suffix on absent, FileTree.node_remove_of_gone List.mem_cons_self on]
    · rw [FileTree.node_remove_of_kept (List.forall_mem_singleton.mpr on)]

theorem fileAt_cleared {p : Path} (outside : ¬ addDir home <:+ p) :
    (cleared t home).fileAt p = t.fileAt p := by
  rw [cleared_eq]
  exact FileTree.fileAt_congr (FileTree.node_remove_of_kept (List.forall_mem_singleton.mpr outside))

theorem node_cleared {p : Path} (on : addDir home <:+ p) : (cleared t home).node p = none := by
  rw [cleared_eq]
  exact FileTree.node_remove_of_gone List.mem_cons_self on

theorem noFiles_cleared (t : FileTree Content) (home : Path) :
    NoFiles ((cleared t home).view (addDir home)) := fun p =>
  FileTree.fileAt_eq_none.mpr (.inl (node_cleared (List.suffix_append p _)))

theorem noFiles_iff (a b : FileTree Content) (none : NoFiles a) :
    a.fileAt = b.fileAt ↔ NoFiles b :=
  ⟨fun same p => same ▸ none p, fun none' => funext fun p => (none p).trans (none' p).symm⟩

theorem not_suffix_home : ¬ addDir home <:+ home := fun on =>
  absurd on.length_le (Nat.not_succ_le_self _)

/-- Where there is no home directory, there is nothing in it. -/
theorem noFiles_of_homeless (homeless : Homeless t home) : NoFiles (t.view (addDir home)) := by
  obtain ⟨q, on, file⟩ := homeless
  intro p
  have above : q <:+ p ++ addDir home :=
    (on.trans (List.suffix_cons _ _)).trans (List.suffix_append p _)
  have nothing : t.node (p ++ addDir home) = none := by
    refine FileTree.none_of_fileAt above ?_ file
    rintro rfl
    exact not_suffix_home ((List.suffix_append p _).trans on)
  exact FileTree.fileAt_eq_none.mpr (.inl nothing)

theorem fileAt_cleared_above {q : Path} (on : q <:+ home) :
    (cleared t home).fileAt q = t.fileAt q :=
  fileAt_cleared fun below => not_suffix_home (below.trans on)

theorem clear_iff : (∀ q, q <:+ addDir home → (cleared t home).fileAt q = none) ↔
    ¬ Homeless t home := by
  constructor
  · rintro clear ⟨q, on, file⟩
    rw [← fileAt_cleared_above on, clear q (on.trans (List.suffix_cons _ _))] at file
    cases file
  · intro hasHome q on
    rcases List.suffix_cons_iff.mp on with rfl | on
    · exact FileTree.fileAt_eq_none.mpr (.inl (node_cleared (List.suffix_refl _)))
    · rw [fileAt_cleared_above on, ← Option.not_isSome_iff_eq_none]
      exact fun file => hasHome ⟨q, on, file⟩

/-- The directory as it is made anew. -/
def fresh (t : FileTree Content) (home : Path) : FileTree Content :=
  (cleared t home).withDirs (addDir home)

theorem view_fresh (t : FileTree Content) (home : Path) :
    (fresh t home).view (addDir home) = FileTree.empty :=
  FileTree.view_withDirs_of_absent (node_cleared (List.suffix_refl _))

theorem isDir_fresh (t : FileTree Content) (home : Path) :
    (fresh t home).isDir (addDir home) = true := by
  rw [FileTree.isDir_iff, fresh, FileTree.node_withDirs, if_pos (List.suffix_refl _)]

theorem namedFile_fresh (hasHome : ¬ Homeless t home) (backupPath : Target) :
    namedFile (fresh t home) backupPath = source t home backupPath := by
  rw [source, namedFile, namedFile, fresh, FileTree.fileAt_withDirs (clear_iff.mpr hasHome)]
  by_cases on : addDir home <:+ backupPath.path
  · rw [if_pos (List.isSuffixOf_iff_suffix.mpr on),
      FileTree.fileAt_eq_none.mpr (.inl (node_cleared on)), ite_self]
  · rw [if_neg (fun h => on (List.isSuffixOf_iff_suffix.mp h)), fileAt_cleared on]

theorem noFiles_empty : NoFiles (FileTree.empty : FileTree Content) := by
  intro p
  rw [FileTree.fileAt_eq_none]
  by_cases root : p = []
  · exact .inr (if_pos root)
  · exact .inl (if_neg root)

theorem view_written (t : FileTree Content) (home : Path) (entries : List (Entry Content)) :
    (((fresh t home).writeAll (entries.map (·.below (addDir home)))).1.view (addDir home),
      ((fresh t home).writeAll (entries.map (·.below (addDir home)))).2) =
        FileTree.layout entries := by
  rw [FileTree.view_writeAll (isDir_fresh t home), view_fresh, FileTree.layout]

/-- No directory can be made; or the backup cannot be read; or its files are written. -/
theorem extraction_cases (unzip : Content → List (Entry Content)) (t : FileTree Content)
    (home : Path) (backupPath : Target) :
    (Homeless t home ∧ extraction unzip (cleared t home) home backupPath =
        (cleared t home, none, false)) ∨
      (¬ Homeless t home ∧ source t home backupPath = none ∧
        extraction unzip (cleared t home) home backupPath = (fresh t home, none, false)) ∨
      ∃ content, ¬ Homeless t home ∧ source t home backupPath = some content ∧
        extraction unzip (cleared t home) home backupPath =
          (((fresh t home).writeAll ((unzip content).map (·.below (addDir home)))).1,
            some backupPath.path, (FileTree.layout (unzip content)).2) := by
  by_cases homeless : Homeless t home
  · refine .inl ⟨homeless, ?_⟩
    have blocked : (cleared t home).makeDirs (addDir home) = none := by
      cases made : (cleared t home).makeDirs (addDir home) with
      | none => rfl
      | some t' => exact absurd homeless (clear_iff.mp (FileTree.makeDirs_eq_some.mp made).1)
    rw [extraction, blocked]
  · have made : (cleared t home).makeDirs (addDir home) = some (fresh t home) :=
      FileTree.makeDirs_eq_some.mpr ⟨clear_iff.mpr homeless, rfl⟩
    refine .inr ?_
    cases found : source t home backupPath with
    | none =>
      refine .inl ⟨homeless, rfl, ?_⟩
      rw [extraction, made]
      simp only [namedFile_fresh homeless, found]
    | some content =>
      refine .inr ⟨content, homeless, rfl, ?_⟩
      rw [extraction, made]
      simp only [namedFile_fresh homeless, found]
      rw [← view_written t home]

theorem fileAt_fresh (hasHome : ¬ Homeless t home) {p : Path} (outside : ¬ addDir home <:+ p) :
    (fresh t home).fileAt p = t.fileAt p := by
  rw [fresh, FileTree.fileAt_withDirs (clear_iff.mpr hasHome), fileAt_cleared outside]

/-- What is written lies in the directory. -/
theorem extraction_outside (unzip : Content → List (Entry Content)) (t : FileTree Content)
    (home : Path) (backupPath : Target) {p : Path} (outside : ¬ addDir home <:+ p) :
    (extraction unzip (cleared t home) home backupPath).1.fileAt p = t.fileAt p := by
  rcases extraction_cases unzip t home backupPath with
    ⟨-, ends⟩ | ⟨hasHome, -, ends⟩ | ⟨content, hasHome, -, ends⟩
  · rw [ends]
    exact fileAt_cleared outside
  · rw [ends]
    exact fileAt_fresh hasHome outside
  · rw [ends, FileTree.fileAt_writeAll_of_outside _ outside]
    exact fileAt_fresh hasHome outside

theorem stopped_sound_iff (stop : Stop) (backupPath : Target) {tree : FileTree Content}
    {readFile : Option Path} (outside : ∀ p, ¬ addDir home <:+ p → tree.fileAt p = t.fileAt p) :
    AllOrNothing unzip t home backupPath ⟨tree, readFile, stop.reply⟩ ∧
        Confined t home (addDir home <:+ ·) ⟨tree, readFile, stop.reply⟩ ↔
      (tree.view (addDir home)).fileAt = (t.view (addDir home)).fileAt ∧
        ∀ p ∈ readFile, Direct home p := by
  have stopped : AllOrNothing unzip t home backupPath ⟨tree, readFile, stop.reply⟩ ↔
      (tree.view (addDir home)).fileAt = (t.view (addDir home)).fileAt := by
    rw [AllOrNothing, Stop.reply]
    cases stop.cutOff with
    | true => rfl
    | false => rfl
  rw [stopped]
  refine and_congr_right fun _ => ⟨fun confined => confined.1, fun reads => ⟨reads, ?_⟩⟩
  exact fun p changed => .inl (by_contra fun off => changed (outside p off))

theorem removing_sound_iff (gone : List Path) (stop : Stop) (backupPath : Target) :
    AllOrNothing unzip t home backupPath
          ⟨t.remove (gone.map (· ++ addDir home)), none, stop.reply⟩ ∧
        Confined t home (addDir home <:+ ·)
          ⟨t.remove (gone.map (· ++ addDir home)), none, stop.reply⟩ ↔
      ∀ p ∈ gone, ∀ q, p <:+ q → (t.view (addDir home)).fileAt q = none := by
  have outside : ∀ p, ¬ addDir home <:+ p →
      (t.remove (gone.map (· ++ addDir home))).fileAt p = t.fileAt p := by
    intro p off
    refine FileTree.fileAt_congr (FileTree.node_remove_of_kept ?_)
    refine List.forall_mem_map.mpr fun r _ on => ?_
    exact off ((List.suffix_append r _).trans on)
  rw [stopped_sound_iff stop backupPath outside, FileTree.view_remove, FileTree.fileAt_remove_iff]
  exact and_iff_left nofun

theorem creating_sound_iff (stop : Stop) (backupPath : Target) :
    AllOrNothing unzip t home backupPath ⟨cleared t home, none, stop.reply⟩ ∧
        Confined t home (addDir home <:+ ·) ⟨cleared t home, none, stop.reply⟩ ↔
      NoFiles (t.view (addDir home)) := by
  rw [stopped_sound_iff stop backupPath fun p => fileAt_cleared,
    noFiles_iff _ _ (noFiles_cleared t home)]
  exact and_iff_left nofun

/-- The extraction stops, or the backup cannot be read. -/
theorem extracting_sound_iff (whole : Content → List (Entry Content)) (stop : Stop)
    (backupPath : Target) (hasHome : ¬ Homeless t home) :
    (let r := extraction unzip (cleared t home) home backupPath
     AllOrNothing whole t home backupPath ⟨r.1, r.2.1, stop.reply⟩ ∧
       Confined t home (addDir home <:+ ·) ⟨r.1, r.2.1, stop.reply⟩) ↔
      match source t home backupPath with
      | none => NoFiles (t.view (addDir home))
      | some content => Direct home backupPath.path ∧
          (t.view (addDir home)).fileAt = (FileTree.layout (unzip content)).1.fileAt := by
  simp only [stopped_sound_iff stop backupPath fun p =>
    extraction_outside unzip t home backupPath]
  rcases extraction_cases unzip t home backupPath with
    ⟨homeless, -⟩ | ⟨-, unreadable, ends⟩ | ⟨content, -, found, ends⟩
  · exact absurd homeless hasHome
  · rw [ends, unreadable]
    simp only [view_fresh]
    rw [noFiles_iff _ _ noFiles_empty]
    exact and_iff_left nofun
  · have written := congrArg Prod.fst (view_written t home (unzip content))
    rw [ends, found]
    simp only [Option.mem_some_iff, forall_eq']
    rw [show FileTree.view _ _ = _ from written, and_comm, @eq_comm _ (t.view (addDir home)).fileAt]

/-- Nothing stops the restore; what remains is whether the archive can be laid out. -/
theorem restored_sound_iff (message : String) (backupPath : Target)
    (hasHome : ¬ Homeless t home) :
    (let r := extraction unzip (cleared t home) home backupPath
     let reply := some (if r.2.2 then Reply.success message else .caught)
     AllOrNothing unzip t home backupPath ⟨r.1, r.2.1, reply⟩ ∧
       Confined t home (addDir home <:+ ·) ⟨r.1, r.2.1, reply⟩) ↔
      match source t home backupPath with
      | none => NoFiles (t.view (addDir home))
      | some content => Direct home backupPath.path ∧
          ((FileTree.layout (unzip content)).2 = true ∨
            (t.view (addDir home)).fileAt = (FileTree.layout (unzip content)).1.fileAt) := by
  have failing := @extracting_sound_iff _ unzip _ _ unzip ⟨.creating, false⟩ backupPath hasHome
  cases complete : (extraction unzip (cleared t home) home backupPath).2.2 with
  | false =>
    simp only [complete, Bool.false_eq_true, if_false]
    refine Iff.trans failing ?_
    rcases extraction_cases unzip t home backupPath with
      ⟨homeless, -⟩ | ⟨-, unreadable, -⟩ | ⟨content, -, found, ends⟩
    · exact absurd homeless hasHome
    · rw [unreadable]
    · have broken : (FileTree.layout (unzip content)).2 = false := by
        rw [ends] at complete
        exact complete
      simp only [found, broken, Bool.false_eq_true, false_or]
  | true =>
    rcases extraction_cases unzip t home backupPath with
      ⟨homeless, -⟩ | ⟨-, -, ends⟩ | ⟨content, -, found, ends⟩
    · exact absurd homeless hasHome
    · rw [ends] at complete
      cases complete
    · have whole : (FileTree.layout (unzip content)).2 = true := by
        rw [ends] at complete
        exact complete
      have restored : AllOrNothing unzip t home backupPath
          ⟨(extraction unzip (cleared t home) home backupPath).1, some backupPath.path,
            some (.success message)⟩ := by
        refine ⟨content, (Option.ite_none_left_eq_some.mp found).2, ?_⟩
        have written := congrArg Prod.fst (view_written t home (unzip content))
        rw [ends, show FileTree.view _ _ = _ from written, FileTree.layout,
          FileTree.fileAt_writeAll _ whole,
          show FileTree.empty.fileAt = _ from funext noFiles_empty]
      have outside : ∀ p, (extraction unzip (cleared t home) home backupPath).1.fileAt p ≠
          t.fileAt p → addDir home <:+ p ∨ Direct home p := fun p changed =>
        .inl (by_contra fun off => changed (extraction_outside unzip t home backupPath off))
      have read : (extraction unzip (cleared t home) home backupPath).2.1 =
          some backupPath.path := by rw [ends]
      simp only [complete, read, if_true, found, whole, true_or, and_true]
      refine ⟨fun sound => sound.2.1 _ rfl, fun direct => ⟨restored, ?_, outside⟩⟩
      rintro p ⟨⟩
      exact direct

/-- Without a home directory a restore has nothing to lose and can write nothing. -/
theorem sound_of_homeless (whole : Content → List (Entry Content)) (homeless : Homeless t home)
    (stop : Stop) (backupPath : Target) :
    let r := extraction unzip (cleared t home) home backupPath
    AllOrNothing whole t home backupPath ⟨r.1, r.2.1, stop.reply⟩ ∧
      Confined t home (addDir home <:+ ·) ⟨r.1, r.2.1, stop.reply⟩ := by
  rcases extraction_cases unzip t home backupPath with
    ⟨-, ends⟩ | ⟨hasHome, -, -⟩ | ⟨_, hasHome, -, -⟩
  · simp only [ends]
    exact (creating_sound_iff stop backupPath).mpr (noFiles_of_homeless homeless)
  · exact absurd homeless hasHome
  · exact absurd homeless hasHome

theorem not_complete_of_homeless (homeless : Homeless t home) (backupPath : Target) :
    (extraction unzip (cleared t home) home backupPath).2.2 = false := by
  rcases extraction_cases unzip t home backupPath with
    ⟨-, ends⟩ | ⟨hasHome, -, -⟩ | ⟨_, hasHome, -, -⟩
  · rw [ends]
  · exact absurd homeless hasHome
  · exact absurd homeless hasHome

/-- A restore is all or nothing and confined exactly if there is no such backup or no home
directory, or what stops it stops it while the files are still, or again, those from before, or
nothing does; and it reads a file only in the backup directory. -/
theorem restore_sound_iff (backupName : String) (stop : Option Stop) :
    Sound unzip t home (.restore backupName stop) ↔
      Spares unzip t home (.restore backupName stop) := by
  simp only [Sound, Spares, addRestore]
  cases there : existsSync t (join (backupDir home) backupName) with
  | false =>
    refine iff_of_true ?_ (.inl rfl)
    rw [if_pos rfl]
    exact ⟨rfl, nofun, fun p changed => absurd rfl changed⟩
  | true =>
    rw [if_neg Bool.true_eq_false.mp, or_iff_right Bool.true_eq_false.mp]
    match stop with
    | some ⟨.removing gone, cutOff⟩ =>
      refine (removing_sound_iff gone ⟨.removing gone, cutOff⟩ _).trans ?_
      exact (or_iff_right_of_imp fun homeless p _ q _ => noFiles_of_homeless homeless q).symm
    | some ⟨.creating, cutOff⟩ =>
      refine (creating_sound_iff ⟨.creating, cutOff⟩ _).trans ?_
      exact (or_iff_right_of_imp noFiles_of_homeless).symm
    | some ⟨.extracting written, cutOff⟩ =>
      by_cases homeless : Homeless t home
      · refine iff_of_true ?_ (.inl homeless)
        exact sound_of_homeless unzip homeless ⟨.extracting written, cutOff⟩ _
      · rw [or_iff_right homeless]
        exact extracting_sound_iff unzip ⟨.extracting written, cutOff⟩ _ homeless
    | none =>
      by_cases homeless : Homeless t home
      · refine iff_of_true ?_ (.inl homeless)
        rw [not_complete_of_homeless homeless]
        exact sound_of_homeless unzip homeless ⟨.creating, false⟩ _
      · rw [or_iff_right homeless]
        exact restored_sound_iff _ _ homeless

/-- A deletion is confined exactly if it deletes nothing, or a file in the backup directory. -/
theorem delete_sound_iff (backupName : String) (refused : Bool) :
    Sound unzip t home (.delete backupName refused) ↔
      Spares unzip t home (.delete backupName refused) := by
  have idle : ∀ reply, Confined t home (fun _ => False) ⟨t, none, reply⟩ := fun reply =>
    ⟨nofun, fun p changed => absurd rfl changed⟩
  simp only [Sound, Spares, addDeleteBackup]
  split
  · next absent => exact iff_of_true (idle _) (.inl (namedFile_of_absent absent))
  · next there =>
    split
    · next stays =>
      refine iff_of_true (idle _) ?_
      rcases Bool.or_eq_true_iff.mp stays with refused | dir
      · exact .inr (.inl refused)
      · exact .inl (namedFile_of_dir dir)
    · next unlinks =>
      obtain ⟨allowed, notDir⟩ := Bool.or_eq_false_iff.mp (Bool.eq_false_iff.mpr unlinks)
      obtain ⟨content, file, named⟩ := file_of_exists (eq_true_of_ne_false there) notDir
      rw [named, allowed]
      simp only [Confined, FileTree.fileAt_unlink, false_or, reduceCtorEq]
      constructor
      · rintro ⟨-, direct⟩
        refine direct _ ?_
        rw [Function.update_self, file]
        nofun
      · refine fun direct => ⟨nofun, fun p changed => ?_⟩
        by_contra other
        refine changed (Function.update_of_ne ?_ _ _)
        rintro rfl
        exact other direct

/-- Every request, whatever is there and however it is stopped. -/
theorem requests_sound_iff (unzip : Content → List (Entry Content)) (t : FileTree Content)
    (home : Path) (request : Request) :
    Sound unzip t home request ↔ Spares unzip t home request := by
  cases request with
  | restore backupName stop => exact restore_sound_iff backupName stop
  | delete backupName refused => exact delete_sound_iff backupName refused

/-- A backup under a name that `add-list-backups` gives lies in the directory. -/
theorem direct_of_listed (home : Path) {name : String} (noSlash : '/' ∉ name.toList)
    (ofApp : "add-backup-".toList <+: name.toList) :
    Direct home (join (backupDir home) name).path := by
  have long : 11 ≤ name.toList.length := ofApp.length_le
  have other : ∀ short : String, short.toList.length < 11 → name ≠ short := by
    rintro short less rfl
    omega
  rw [join_of_plain _ noSlash (other "" (by decide)) (other "." (by decide))
    (other ".." (by decide))]
  exact ⟨name, rfl⟩

def atHome : Path := ["user", "home"]

/-- An identity, a backup of it, and another file. -/
def machine : FileTree String :=
  (FileTree.layout [⟨"identity.key", addDir atHome, "key"⟩,
    ⟨"add-backup-1.zip", backupDir atHome, "zip"⟩, ⟨"notes.txt", atHome, "notes"⟩]).1

def unpacked (_ : String) : List (Entry String) := [⟨"identity.key", [], "key"⟩]

/-- The identity is lost if the first file cannot be written, and if the backup is named by the
directory or by a path to the identity; another file is deleted by a path to it. -/
theorem restore_destroys :
    ¬ Sound unpacked machine atHome
        (.restore "add-backup-1.zip" (some ⟨.extracting 0, false⟩)) ∧
      ¬ Sound unpacked machine atHome (.restore "" none) ∧
      ¬ Sound unpacked machine atHome (.restore "../.add/identity.key" none) ∧
      ¬ Sound unpacked machine atHome (.delete "../notes.txt" false) := by
  refine ⟨fun sound => ?_, fun sound => ?_, fun sound => ?_, fun sound => ?_⟩
  · have same := congrFun sound.1 ["identity.key"]
    exact absurd same (by decide +kernel)
  · have same := congrFun sound.1 ["identity.key"]
    exact absurd same (by decide +kernel)
  · have same := congrFun sound.1 ["identity.key"]
    exact absurd same (by decide +kernel)
  · have only := sound.2 ("notes.txt" :: atHome) (by decide +kernel)
    obtain ⟨name, there⟩ := only.resolve_left nofun
    have above : atHome = backupDir atHome := congrArg List.tail there
    exact absurd above (by decide)

end BackupRestore
