import Mathlib.Data.List.Infix
import Mathlib.Logic.Function.Basic

/-!
# Trees of files

Directories and files by path, the operations of a file system on them, the tree below a
directory, and paths that are joined and normalised as text. A path lists its names from the
innermost out, so that a directory lies on the way to what is in it as a suffix of its path.
-/

namespace FileTrees

abbrev Path := List String

inductive Node (Content : Type*) where
  | file (content : Content)
  | dir
  deriving DecidableEq

/-- What lies where. Only a directory has something in it. -/
structure FileTree (Content : Type*) where
  node : Path → Option (Node Content)
  inside : ∀ name dir, node (name :: dir) ≠ none → node dir = some .dir

variable {Content : Type*}

namespace FileTree

variable {t t' : FileTree Content} {p q base : Path}

@[ext] theorem ext (same : ∀ p, t.node p = t'.node p) : t = t' := by
  cases t
  cases t'
  congr
  exact funext same

def fileAt (t : FileTree Content) (p : Path) : Option Content :=
  match t.node p with
  | some (.file content) => some content
  | _ => none

theorem fileAt_eq_some {content : Content} :
    t.fileAt p = some content ↔ t.node p = some (.file content) := by
  rw [fileAt]
  split
  · next found => simp [found]
  · next other =>
    refine iff_of_false nofun fun found => ?_
    exact other content found

theorem fileAt_eq_none : t.fileAt p = none ↔ t.node p = none ∨ t.node p = some .dir := by
  rw [fileAt]
  split
  · next found => simp [found]
  · next other =>
    refine iff_of_true rfl ?_
    cases found : t.node p with
    | none => exact .inl rfl
    | some node =>
      cases node with
      | file content => exact absurd found (other content)
      | dir => exact .inr rfl

theorem fileAt_congr (same : t.node p = t'.node q) : t.fileAt p = t'.fileAt q := by
  rw [fileAt, fileAt, same]

/-- On the way to something there are directories. -/
theorem dir_of_suffix (on : q <:+ p) (proper : q ≠ p) (there : t.node p ≠ none) :
    t.node q = some .dir := by
  induction p with
  | nil => exact absurd (List.suffix_nil.mp on) proper
  | cons name dir ih =>
    have parent := t.inside name dir there
    rcases List.suffix_cons_iff.mp on with same | on
    · exact absurd same proper
    · by_cases here : q = dir
      · exact here ▸ parent
      · exact ih on here (by rw [parent]; nofun)

/-- Below a file there is nothing. -/
theorem none_of_fileAt (on : q <:+ p) (proper : q ≠ p) (file : (t.fileAt q).isSome) :
    t.node p = none := by
  by_contra there
  obtain ⟨content, found⟩ := Option.isSome_iff_exists.mp file
  rw [fileAt_eq_some, dir_of_suffix on proper there] at found
  cases found

theorem none_of_suffix (on : q <:+ p) (absent : t.node q = none) : t.node p = none := by
  by_contra there
  by_cases same : q = p
  · exact there (same ▸ absent)
  · rw [dir_of_suffix on same there] at absent
    cases absent

def view (t : FileTree Content) (base : Path) : FileTree Content where
  node p := t.node (p ++ base)
  inside name dir := t.inside name (dir ++ base)

/-- Without some paths and all that is below them. -/
def remove (t : FileTree Content) (gone : List Path) : FileTree Content where
  node q := if gone.any fun p => p.isSuffixOf q then none else t.node q
  inside name dir there := by
    have kept : gone.any (fun p => p.isSuffixOf (name :: dir)) = false := by
      cases found : gone.any fun p => p.isSuffixOf (name :: dir) with
      | false => rfl
      | true => rw [found, if_pos rfl] at there; exact absurd rfl there
    have above : gone.any (fun p => p.isSuffixOf dir) = false := by
      rw [List.any_eq_false] at kept ⊢
      intro p isGone on
      rw [List.isSuffixOf_iff_suffix] at on
      exact kept p isGone (List.isSuffixOf_iff_suffix.mpr (on.trans (List.suffix_cons name dir)))
    rw [kept, if_neg Bool.false_ne_true] at there
    rw [above, if_neg Bool.false_ne_true]
    exact t.inside name dir there

theorem node_remove_of_gone {gone : List Path} (isGone : p ∈ gone) (on : p <:+ q) :
    (t.remove gone).node q = none := by
  refine if_pos (List.any_eq_true.mpr ⟨p, isGone, ?_⟩)
  exact List.isSuffixOf_iff_suffix.mpr on

theorem node_remove_of_kept {gone : List Path} (kept : ∀ p ∈ gone, ¬ p <:+ q) :
    (t.remove gone).node q = t.node q := by
  refine if_neg fun found => ?_
  obtain ⟨p, isGone, on⟩ := List.any_eq_true.mp found
  exact kept p isGone (List.isSuffixOf_iff_suffix.mp on)

/-- Removing below a directory is removing in the tree below it. -/
theorem view_remove (t : FileTree Content) (base : Path) (gone : List Path) :
    (t.remove (gone.map (· ++ base))).view base = (t.view base).remove gone := by
  ext1 q
  by_cases lost : ∃ p ∈ gone, p <:+ q
  · obtain ⟨p, isGone, on⟩ := lost
    rw [node_remove_of_gone isGone on]
    exact node_remove_of_gone (List.mem_map_of_mem isGone) (List.suffix_append_self_iff.mpr on)
  · have kept : ∀ p ∈ gone, ¬ p <:+ q := fun p isGone on => lost ⟨p, isGone, on⟩
    rw [node_remove_of_kept kept]
    refine node_remove_of_kept (List.forall_mem_map.mpr fun p isGone on => ?_)
    exact kept p isGone (List.suffix_append_self_iff.mp on)

/-- The files stay the same exactly if no file is removed. -/
theorem fileAt_remove_iff (t : FileTree Content) (gone : List Path) :
    (t.remove gone).fileAt = t.fileAt ↔ ∀ p ∈ gone, ∀ q, p <:+ q → t.fileAt q = none := by
  constructor
  · intro same p isGone q on
    rw [← same, fileAt_eq_none]
    exact .inl (node_remove_of_gone isGone on)
  · intro spare
    funext q
    by_cases lost : ∃ p ∈ gone, p <:+ q
    · obtain ⟨p, isGone, on⟩ := lost
      rw [spare p isGone q on, fileAt_eq_none]
      exact .inl (node_remove_of_gone isGone on)
    · exact fileAt_congr (node_remove_of_kept fun p isGone on => lost ⟨p, isGone, on⟩)

/-- Without one file. -/
def unlink (t : FileTree Content) (p : Path) : FileTree Content where
  node q := if q = p ∧ (t.fileAt p).isSome then none else t.node q
  inside name dir there := by
    have kept : t.node (name :: dir) ≠ none := fun none => there (by rw [none, ite_self])
    have parent := t.inside name dir kept
    rw [if_neg, parent]
    rintro ⟨rfl, file⟩
    rw [fileAt, parent] at file
    cases file

theorem fileAt_unlink (t : FileTree Content) (p : Path) :
    (t.unlink p).fileAt = Function.update t.fileAt p none := by
  funext q
  by_cases here : q = p
  · subst here
    rw [Function.update_self]
    by_cases file : (t.fileAt q).isSome
    · rw [fileAt_eq_none]
      exact .inl (if_pos ⟨rfl, file⟩)
    · rw [← Option.not_isSome_iff_eq_none.mp file]
      exact fileAt_congr (if_neg fun both => file both.2)
  · rw [Function.update_of_ne here]
    exact fileAt_congr (if_neg fun both => here both.1)

def isDir (t : FileTree Content) (p : Path) : Bool :=
  match t.node p with
  | some .dir => true
  | _ => false

theorem isDir_iff : t.isDir p = true ↔ t.node p = some .dir := by
  rw [isDir]
  split
  · next found => simp [found]
  · next other => exact iff_of_false nofun other

def withDirs (t : FileTree Content) (p : Path) : FileTree Content where
  node q := if q.isSuffixOf p then some .dir else t.node q
  inside name dir there := by
    by_cases on : dir <:+ p
    · exact if_pos (List.isSuffixOf_iff_suffix.mpr on)
    · have off : ¬ name :: dir <:+ p := fun h => on ((List.suffix_cons name dir).trans h)
      rw [if_neg (by rwa [List.isSuffixOf_iff_suffix])] at there
      rw [if_neg (by rwa [List.isSuffixOf_iff_suffix])]
      exact t.inside name dir there

theorem node_withDirs (t : FileTree Content) (p q : Path) :
    (t.withDirs p).node q = if q <:+ p then some .dir else t.node q := by
  simp only [withDirs, List.isSuffixOf_iff_suffix]

/-- All directories on the way, unless a file is in the way. -/
def makeDirs (t : FileTree Content) (p : Path) : Option (FileTree Content) :=
  if p.tails.all fun q => (t.fileAt q).isNone then some (t.withDirs p) else none

theorem clear_iff : (p.tails.all fun q => (t.fileAt q).isNone) = true ↔
    ∀ q, q <:+ p → t.fileAt q = none := by
  simp only [List.all_eq_true, List.mem_tails, Option.isNone_iff_eq_none]

theorem makeDirs_eq_some : t.makeDirs p = some t' ↔
    (∀ q, q <:+ p → t.fileAt q = none) ∧ t' = t.withDirs p := by
  rw [makeDirs, Option.ite_none_right_eq_some, clear_iff, Option.some.injEq, eq_comm (a := t')]

theorem fileAt_withDirs (clear : ∀ q, q <:+ p → t.fileAt q = none) :
    (t.withDirs p).fileAt = t.fileAt := by
  funext q
  by_cases on : q <:+ p
  · rw [clear q on, fileAt_eq_none, node_withDirs, if_pos on]
    exact .inr rfl
  · exact fileAt_congr (by rw [node_withDirs, if_neg on])

theorem view_withDirs (t : FileTree Content) (p base : Path) :
    (t.withDirs (p ++ base)).view base = (t.view base).withDirs p := by
  ext1 q
  rw [node_withDirs, view, node_withDirs]
  simp only [List.suffix_append_self_iff]
  rfl

/-- Above a directory no file is in the way. -/
theorem clear_append_iff (there : t.isDir base = true) :
    (∀ q, q <:+ p ++ base → t.fileAt q = none) ↔
      ∀ q, q <:+ p → (t.view base).fileAt q = none := by
  constructor
  · exact fun clear q on => clear (q ++ base) (List.suffix_append_self_iff.mpr on)
  · intro clear q on
    rcases List.suffix_or_suffix_of_suffix on (List.suffix_append p base) with above | ⟨r, rfl⟩
    · rw [fileAt_eq_none]
      by_cases same : q = base
      · exact .inr (same ▸ isDir_iff.mp there)
      · exact .inr (dir_of_suffix above same (by rw [isDir_iff.mp there]; nofun))
    · exact clear r (List.suffix_append_self_iff.mp on)

theorem view_makeDirs (there : t.isDir base = true) (p : Path) :
    (t.makeDirs (p ++ base)).map (·.view base) = (t.view base).makeDirs p := by
  rw [makeDirs, makeDirs]
  by_cases clear : ∀ q, q <:+ p → (t.view base).fileAt q = none
  · rw [if_pos (clear_iff.mpr clear), if_pos (clear_iff.mpr ((clear_append_iff there).mpr clear)),
      Option.map_some, view_withDirs]
  · rw [if_neg (fun h => clear (clear_iff.mp h)),
      if_neg (fun h => clear ((clear_append_iff there).mp (clear_iff.mp h))), Option.map_none]

/-- A file in a directory that is there. -/
def writeFile (t : FileTree Content) (name : String) (dir : Path) (content : Content) :
    Option (FileTree Content) :=
  if free : t.isDir dir = true ∧ t.isDir (name :: dir) = false then
    some {
      node := fun q => if q = name :: dir then some (.file content) else t.node q
      inside := by
        intro name' dir' there
        by_cases written : name' :: dir' = name :: dir
        · obtain ⟨-, rfl⟩ := List.cons.inj written
          rw [if_neg (List.cons_ne_self name dir').symm]
          exact isDir_iff.mp free.1
        · rw [if_neg written] at there
          have parent := t.inside name' dir' there
          have other : dir' ≠ name :: dir := by
            rintro rfl
            rw [isDir_iff.mpr parent] at free
            exact absurd free.2 nofun
          rw [if_neg other]
          exact parent }
  else none

theorem node_writeFile {name : String} {dir : Path} {content : Content}
    (written : t.writeFile name dir content = some t') (q : Path) :
    t'.node q = if q = name :: dir then some (.file content) else t.node q := by
  rw [writeFile] at written
  split at written
  · cases written
    rfl
  · cases written

theorem isDir_writeFile {name : String} {dir : Path} {content : Content}
    (written : t.writeFile name dir content = some t') (there : t.isDir p = true) :
    t'.isDir p = true := by
  rw [isDir_iff] at there ⊢
  rw [node_writeFile written, if_neg, there]
  rintro rfl
  rw [writeFile, dif_neg] at written
  · cases written
  · rw [isDir_iff.mpr there]
    exact fun free => absurd free.2 nofun

theorem view_writeFile (name : String) (dir base : Path) (content : Content) :
    (t.writeFile name (dir ++ base) content).map (·.view base) =
      (t.view base).writeFile name dir content := by
  rw [writeFile, writeFile]
  by_cases free : t.isDir (dir ++ base) = true ∧ t.isDir (name :: (dir ++ base)) = false
  · rw [dif_pos free, dif_pos (by exact free), Option.map_some]
    congr 1
    ext1 q
    have same : q ++ base = name :: (dir ++ base) ↔ q = name :: dir :=
      @List.append_left_inj _ q (name :: dir) base
    simp only [view, same]
  · rw [dif_neg free, dif_neg (by exact free), Option.map_none]

end FileTree

/-- A file to be written. -/
structure Entry (Content : Type*) where
  name : String
  dir : Path
  content : Content

namespace Entry

def path (e : Entry Content) : Path := e.name :: e.dir

def below (base : Path) (e : Entry Content) : Entry Content := { e with dir := e.dir ++ base }

end Entry

/-- The files after some are written, one after another. -/
def overwritten (files : Path → Option Content) : List (Entry Content) → Path → Option Content
  | [] => files
  | e :: rest => overwritten (Function.update files e.path (some e.content)) rest

namespace FileTree

variable {t t' : FileTree Content} {base : Path}

/-- A file with the directories on its way. -/
def write (t : FileTree Content) (e : Entry Content) : Option (FileTree Content) :=
  (t.makeDirs e.dir).bind fun t => t.writeFile e.name e.dir e.content

/-- As many as can be written, and whether they all can. -/
def writeAll (t : FileTree Content) : List (Entry Content) → FileTree Content × Bool
  | [] => (t, true)
  | e :: rest =>
    match t.write e with
    | none => (t, false)
    | some t => t.writeAll rest

def empty : FileTree Content where
  node p := if p = [] then some .dir else none
  inside name dir there := absurd (if_neg (List.cons_ne_nil name dir)) there

/-- What the files make of an empty directory. -/
def layout (entries : List (Entry Content)) : FileTree Content × Bool := empty.writeAll entries

theorem fileAt_write {e : Entry Content} (written : t.write e = some t') :
    t'.fileAt = Function.update t.fileAt e.path (some e.content) := by
  obtain ⟨made, isMade, written⟩ := Option.bind_eq_some_iff.mp written
  obtain ⟨clear, rfl⟩ := makeDirs_eq_some.mp isMade
  rw [← fileAt_withDirs clear]
  funext q
  by_cases here : q = e.path
  · rw [here, Function.update_self, fileAt_eq_some, node_writeFile written]
    exact if_pos rfl
  · rw [Function.update_of_ne here]
    refine fileAt_congr ?_
    rw [node_writeFile written]
    exact if_neg here

theorem fileAt_writeAll (entries : List (Entry Content))
    (complete : (t.writeAll entries).2 = true) :
    (t.writeAll entries).1.fileAt = overwritten t.fileAt entries := by
  induction entries generalizing t with
  | nil => rfl
  | cons e rest ih =>
    rw [writeAll] at complete ⊢
    cases written : t.write e with
    | none =>
      rw [written] at complete
      cases complete
    | some t' =>
      rw [written] at complete
      rw [overwritten, ← fileAt_write written]
      exact ih complete

theorem isDir_write {e : Entry Content} (written : t.write e = some t')
    (there : t.isDir base = true) : t'.isDir base = true := by
  obtain ⟨made, isMade, written⟩ := Option.bind_eq_some_iff.mp written
  obtain ⟨-, rfl⟩ := makeDirs_eq_some.mp isMade
  refine isDir_writeFile written ?_
  rw [isDir_iff] at there ⊢
  rw [node_withDirs, there, ite_self]

theorem view_write (there : t.isDir base = true) (e : Entry Content) :
    (t.write (e.below base)).map (·.view base) = (t.view base).write e := by
  rw [write, write, ← view_makeDirs there]
  rw [Option.map_bind, Option.bind_map]
  refine Option.bind_congr fun made _ => ?_
  exact view_writeFile e.name e.dir base e.content

/-- Files that are written below a directory are written in the tree below it. -/
theorem view_writeAll (there : t.isDir base = true) (entries : List (Entry Content)) :
    ((t.writeAll (entries.map (·.below base))).1.view base,
      (t.writeAll (entries.map (·.below base))).2) = (t.view base).writeAll entries := by
  induction entries generalizing t with
  | nil => rfl
  | cons e rest ih =>
    rw [List.map_cons, writeAll, writeAll, ← view_write there]
    cases written : t.write (e.below base) with
    | none => rfl
    | some t' => exact ih (isDir_write written there)

/-- Outside the directory nothing is written. -/
theorem fileAt_writeAll_of_outside (entries : List (Entry Content)) {q : Path}
    (outside : ¬ base <:+ q) :
    (t.writeAll (entries.map (·.below base))).1.fileAt q = t.fileAt q := by
  induction entries generalizing t with
  | nil => rfl
  | cons e rest ih =>
    rw [List.map_cons, writeAll]
    cases written : t.write (e.below base) with
    | none => rfl
    | some t' =>
      have other : q ≠ (e.below base).path := by
        rintro rfl
        exact outside (List.suffix_append e.path base)
      rw [ih, fileAt_write written, Function.update_of_ne other]

/-- A new directory is empty. -/
theorem view_withDirs_of_absent (absent : t.node base = none) :
    (t.withDirs base).view base = empty := by
  ext1 q
  have self : q ++ base <:+ base ↔ q = [] := by
    constructor
    · intro on
      have short := on.length_le
      rw [List.length_append] at short
      exact List.length_eq_zero_iff.mp (by omega)
    · rintro rfl
      exact List.suffix_refl base
  rw [view, node_withDirs]
  simp only [self, empty]
  rw [none_of_suffix (List.suffix_append q base) absent]

end FileTree

def segments (name : String) : List String := (name.toList.splitOn '/').map String.ofList

def enter (dir : Path) (segment : String) : Path :=
  if segment = "" ∨ segment = "." then dir
  else if segment = ".." then dir.tail
  else segment :: dir

/-- A normalised path; a slash at its end asks for a directory. -/
structure Target where
  path : Path
  slash : Bool
  deriving DecidableEq

/-- A directory and a name, joined and normalised. -/
def join (dir : Path) (name : String) : Target :=
  ⟨(segments name).foldl enter dir, name.toList.getLast? = some '/'⟩

/-- A name that is only a name stays in the directory. -/
theorem join_of_plain (dir : Path) {name : String} (noSlash : '/' ∉ name.toList)
    (some : name ≠ "") (notDot : name ≠ ".") (notDots : name ≠ "..") :
    join dir name = ⟨name :: dir, false⟩ := by
  have whole : segments name = [name] := by
    rw [segments, List.splitOn_eq_singleton noSlash]
    simp
  have noEnd : name.toList.getLast? ≠ Option.some '/' := fun last =>
    noSlash (List.mem_of_getLast? last)
  rw [join, whole, decide_eq_false noEnd, List.foldl_cons, List.foldl_nil, enter,
    if_neg (not_or.mpr ⟨some, notDot⟩), if_neg notDots]

end FileTrees
