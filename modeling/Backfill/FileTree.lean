import Backfill.Text.Utf8

/-!
# Files

What the program needs of a file system: plain files in directories, found by paths.  A path
that starts with a slash is absolute, any other is relative to the working directory; an empty
part and a part `.` stand for the same place and `..` for the place above.  Only a directory
can be left by a further part, whatever that part is, so a slash behind the name of a file
leads nowhere.

## Main definitions

* `FileTree` — directories and files, and the working directory.
* `FileTree.locate?` — the place that a path leads to.
* `FileTree.read?`, `FileTree.write?`, `FileTree.makeDirs` — what can be done with it.
* `FileTree.leadsOn`, `FileTree.stages` — which directories are made for a path.
* `FileTree.nearest?` — a file of some name in the working directory or above it.

## Main results

* `FileTree.find?_put_self`, `FileTree.find?_put_of_ne` — writing one place leaves the others
  alone.
* `FileTree.write?_eq_some_iff`, `FileTree.read?_of_write?` — what was written is read.
* `FileTree.makeDirs_of_not_isUsable` — along a path that is too long nothing is made.
-/

namespace Backfill

/-- What there is at a place. -/
inductive Entry
  | directory
  | file (content : List Glyph)
deriving DecidableEq, Repr

/-- A place, as the names on the way to it. -/
abbrev Place := List String

/-- Directories and files. -/
structure FileTree where
  /-- The working directory. -/
  here : Place
  entries : List (Place × Entry)
deriving DecidableEq, Repr

namespace FileTree

/-- What there is at a place.  The top is a directory, and so is everything on the way to the
working directory. -/
def find? (tree : FileTree) (place : Place) : Option Entry :=
  if place.isPrefixOf tree.here then some .directory else tree.entries.lookup place

/-! ### Paths -/

/-- Whether a path can be looked up: with the zero that ends it, it has at most 4096 bytes, and
it holds no other zero. -/
def isUsable (path : String) : Bool :=
  decide (path.utf8ByteSize < 4096) && !path.toList.contains '\x00'

/-- Whether something can have this name: it has at most 255 bytes. -/
def isName (name : String) : Bool := decide (name.utf8ByteSize ≤ 255)

/-- Where a part of a path leads from a place, which has to be a directory. -/
def step? (tree : FileTree) (place : Place) (part : String) : Option Place :=
  if tree.find? place ≠ some .directory then none
  else if part = "" ∨ part = "." then some place
  else if part = ".." then some place.dropLast
  else if isName part then some (place ++ [part])
  else none

/-- Where a path starts. -/
def start (tree : FileTree) (path : String) : Place :=
  if path.startsWith "/" then [] else tree.here

/-- The place that a path leads to.  There need be nothing at that place, but it lies in a
directory. -/
def locate? (tree : FileTree) (path : String) : Option Place :=
  if isUsable path then (path.splitOn "/").foldlM tree.step? (tree.start path) else none

/-! ### Reading and writing -/

/-- Puts something at a place. -/
def put (tree : FileTree) (place : Place) (entry : Entry) : FileTree :=
  { tree with entries := (place, entry) :: tree.entries.filter (·.1 != place) }

/-- The contents of a file. -/
def read? (tree : FileTree) (path : String) : Option (List Glyph) :=
  match (tree.locate? path).bind tree.find? with
  | some (.file content) => some content
  | _ => none

/-- Writes a file, in a directory that exists; a directory is in the way. -/
def write? (tree : FileTree) (path : String) (content : List Glyph) : Option FileTree := do
  let place ← tree.locate? path
  if tree.find? place = some .directory then none else some (tree.put place (.file content))

/-! ### Making directories -/

/-- Whether a part of a path leads to another place. -/
def isStep (part : String) : Bool := part != "" && part != "."

/-- Whether a directory that a path leads through is made if it is missing, given the parts
behind it: it is made when the path ends or takes another step, but what a path enters by a
part `.` only has to be there before. -/
def leadsOn (rest : List String) : Bool := rest.all (·.isEmpty) || rest.any isStep

/-- Makes every directory on the way from a place, as far as it works, and tells whether it
did; a file is in the way. -/
def makeAlong (tree : FileTree) (place : Place) : List String → FileTree × Bool
  | [] => (tree, true)
  | part :: rest =>
    match tree.step? place part with
    | none => (tree, false)
    | some next =>
      match tree.find? next with
      | some .directory => makeAlong tree next rest
      | some (.file _) => (tree, false)
      | none =>
        if leadsOn rest then makeAlong (tree.put next .directory) next rest else (tree, false)

/-- Makes every directory on a path, as far as it works, and tells whether it did. -/
def makeDirs (tree : FileTree) (path : String) : FileTree × Bool :=
  if isUsable path then tree.makeAlong (tree.start path) (path.splitOn "/") else (tree, false)

/-- The directories that are made behind the parts in `seen`, if they are missing. -/
def stagesFrom (seen : List String) : List String → List String
  | [] => []
  | part :: rest =>
    let seen := seen ++ [part]
    if isStep part && leadsOn rest then "/".intercalate seen :: stagesFrom seen rest
    else stagesFrom seen rest

/-- The directories that are made for a path, if they are missing, from the top. -/
def stages (path : String) : List String :=
  if isUsable path then stagesFrom [] (path.splitOn "/") else []

/-- The tree with a file at a path, and with the directories on the way to it. -/
def withFile (tree : FileTree) (path : String) (content : List Glyph) : FileTree :=
  let parts := (path.splitOn "/").filter (· != ".")
  let dir := "/".intercalate parts.dropLast
  ((tree.makeDirs dir).1.write? path content).getD tree

/-! ### Looking for files -/

/-- The contents of the file of this name in the working directory, or else in the nearest
directory above it that has one. -/
def nearest? (tree : FileTree) (name : String) : Option (List Glyph) :=
  (List.range (tree.here.length + 1)).reverse.findSome? fun length =>
    match tree.find? (tree.here.take length ++ [name]) with
    | some (.file content) => some content
    | _ => none

/-- The path to what a second path leads to from a directory. -/
def join (dir path : String) : String :=
  if path.startsWith "/" then path
  else if dir = "" ∨ dir.endsWith "/" then dir ++ path
  else dir ++ "/" ++ path

/-- Told when a file or directory cannot be read or made. -/
def fault : String := "no access"

/-! ### Laws -/

/-- What was put at a place is there, unless the place lies on the way to the working
directory. -/
theorem find?_put_self {tree : FileTree} {place : Place} (h : place.isPrefixOf tree.here = false)
    (entry : Entry) : (tree.put place entry).find? place = some entry := by
  simp [find?, put, h]

theorem lookup_filter_of_ne {place other : Place} (h : other ≠ place)
    (entries : List (Place × Entry)) :
    (entries.filter (·.1 != place)).lookup other = entries.lookup other := by
  induction entries with
  | nil => rfl
  | cons head rest ih =>
    obtain ⟨p, entry⟩ := head
    by_cases hp : p = place
    · have hother : (other == p) = false := by rw [hp]; simpa using h
      simp [hp, List.lookup_cons, ih, hp ▸ hother]
    · simp [hp, List.lookup_cons, ih]

/-- Putting something at one place leaves the others alone. -/
theorem find?_put_of_ne {place other : Place} (h : other ≠ place) (tree : FileTree)
    (entry : Entry) : (tree.put place entry).find? other = tree.find? other := by
  have hne : (other == place) = false := by simpa using h
  by_cases hh : other.isPrefixOf tree.here = true
  · simp [find?, put, hh]
  · simp [find?, put, hh, List.lookup_cons, hne, lookup_filter_of_ne h]

theorem isPrefixOf_here_of_ne {tree : FileTree} {place : Place}
    (h : tree.find? place ≠ some .directory) : place.isPrefixOf tree.here = false := by
  cases hpre : place.isPrefixOf tree.here with
  | false => rfl
  | true => exact absurd (by simp [find?, hpre]) h

/-- A way leads to the same place after something has been put at a place that is no
directory, neither before nor then. -/
theorem foldlM_step?_put {tree : FileTree} {place : Place} (content : List Glyph)
    (h : tree.find? place ≠ some .directory) (parts : List String) (start : Place) :
    parts.foldlM (tree.put place (.file content)).step? start = parts.foldlM tree.step? start := by
  have hstep (p : Place) (part : String) :
      (tree.put place (.file content)).step? p part = tree.step? p part := by
    by_cases hp : p = place
    · subst hp
      simp [step?, h, find?_put_self (isPrefixOf_here_of_ne h)]
    · simp [step?, find?_put_of_ne hp]
  induction parts generalizing start with
  | nil => rfl
  | cons part rest ih =>
    rw [List.foldlM_cons, List.foldlM_cons, hstep]
    cases tree.step? start part with
    | none => rfl
    | some next => exact ih next

/-- A path leads to the same place after something has been put at a place that is no
directory. -/
theorem locate?_put {tree : FileTree} {place : Place} (content : List Glyph)
    (h : tree.find? place ≠ some .directory) (path : String) :
    (tree.put place (.file content)).locate? path = tree.locate? path := by
  simp only [locate?, foldlM_step?_put content h]
  rfl

/-- A file is written by putting it at the place that its path leads to, unless there is a
directory. -/
theorem write?_eq_some_iff {tree written : FileTree} {path : String} {content : List Glyph} :
    tree.write? path content = some written ↔ ∃ place, tree.locate? path = some place ∧
      tree.find? place ≠ some .directory ∧ tree.put place (.file content) = written := by
  unfold write?
  cases hplace : tree.locate? path with
  | none => simp
  | some place => by_cases hdir : tree.find? place = some .directory <;> simp [hdir]

/-- What was written is read. -/
theorem read?_of_write? {tree written : FileTree} {path : String} {content : List Glyph}
    (h : tree.write? path content = some written) : written.read? path = some content := by
  obtain ⟨place, hplace, hdir, rfl⟩ := write?_eq_some_iff.mp h
  rw [read?, locate?_put content hdir, hplace, Option.bind_some,
    find?_put_self (isPrefixOf_here_of_ne hdir)]

/-- Along a path that is too long nothing is made. -/
theorem makeDirs_of_not_isUsable {path : String} (h : isUsable path = false) (tree : FileTree) :
    tree.makeDirs path = (tree, false) := by
  simp [makeDirs, h]

end FileTree

end Backfill
