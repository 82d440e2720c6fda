import QueryBook.Path

/-!
# File trees

Files and directories, and what reading, writing and making directories does to them. A location is
the names on the way from the root; a path is followed from a working directory.
-/

namespace QueryBook

/-- Why a file cannot be used. -/
inductive FileError where
  | notFound
  | alreadyExists
  | notADirectory
  | isADirectory
  deriving DecidableEq

/-- The wording of a file error. -/
def FileError.text : FileError → String
  | notFound => "No such file or directory (os error 2)"
  | alreadyExists => "File exists (os error 17)"
  | notADirectory => "Not a directory (os error 20)"
  | isADirectory => "Is a directory (os error 21)"

/-- The names on the way from the root. -/
abbrev Location := List String

/-- What is at a location. -/
inductive FileEntry where
  | file (text : String)
  | directory
  deriving DecidableEq

/-- Files and directories by location, and the working directory. -/
structure FileTree where
  entries : List (Location × FileEntry)
  workingDirectory : Location
  deriving DecidableEq

namespace FileTree

/-! ## Locations -/

/-- What is at a location. The root is always there. -/
def find? (t : FileTree) (location : Location) : Option FileEntry :=
  if location.isEmpty then some .directory else t.entries.lookup location

/-- The tree with an entry at a location. -/
def put (t : FileTree) (location : Location) (entry : FileEntry) : FileTree :=
  { t with entries := (location, entry) :: t.entries.filter fun e => e.1 ≠ location }

@[simp] theorem find?_put_self (t : FileTree) {location : Location} (entry : FileEntry)
    (h : location ≠ []) : (t.put location entry).find? location = some entry := by
  simp [find?, put, h]

/-- Entries of other locations are found whether or not those of one are left out. -/
theorem lookup_filter_of_ne {location other : Location} (h : other ≠ location)
    (entries : List (Location × FileEntry)) :
    (entries.filter fun e => e.1 ≠ location).lookup other = entries.lookup other := by
  induction entries with
  | nil => rfl
  | cons e rest ih =>
    rw [List.filter_cons]
    split
    · rw [List.lookup_cons, List.lookup_cons, ih]
    · next he =>
      have ne : (other == e.1) = false := by simp_all
      rw [List.lookup_cons, ne, ih]

/-- Nothing changes at other locations. -/
theorem find?_put_of_ne (t : FileTree) {location other : Location} (entry : FileEntry)
    (h : other ≠ location) : (t.put location entry).find? other = t.find? other := by
  have ne : (other == location) = false := by simp [h]
  unfold find? put
  rw [List.lookup_cons, ne, lookup_filter_of_ne h]

/-- Follows the pieces of a path from a location. Every piece needs a directory to start from; the
last may name something that is not there. -/
def follow (t : FileTree) (location : Location) : List String → Except FileError Location
  | [] => .ok location
  | piece :: rest =>
    match t.find? location with
    | none => .error .notFound
    | some (.file _) => .error .notADirectory
    | some .directory =>
      if piece = "" || piece = "." then t.follow location rest
      else if piece = ".." then t.follow location.dropLast rest
      else t.follow (location ++ [piece]) rest

/-- The location of a path. -/
def locate (t : FileTree) (path : Path) : Except FileError Location :=
  if path = "" then .error .notFound
  else t.follow (if path.isAbsolute then [] else t.workingDirectory) path.pieces

/-! ## Queries -/

/-- What is at a path. -/
def entry (t : FileTree) (path : Path) : Except FileError FileEntry := do
  match t.find? (← t.locate path) with
  | some e => .ok e
  | none => .error .notFound

/-- Whether there is something at a path. -/
def existsAt (t : FileTree) (path : Path) : Bool := (t.entry path).toOption.isSome

/-- Whether there is a directory at a path. -/
def isDirectory (t : FileTree) (path : Path) : Bool :=
  match t.entry path with
  | .ok .directory => true
  | _ => false

/-- The text of a file. -/
def read (t : FileTree) (path : Path) : Except FileError String := do
  match ← t.entry path with
  | .file text => .ok text
  | .directory => .error .isADirectory

/-- The names of the files directly inside the directory at a path. -/
def fileNames (t : FileTree) (path : Path) : List String :=
  match t.locate path with
  | .error _ => []
  | .ok location =>
    t.entries.filterMap fun (place, e) =>
      match e, place.getLast? with
      | .file _, some name => if place.dropLast = location then some name else none
      | _, _ => none

/-! ## Changes -/

/-- Whether a path ends with a slash. -/
def endsWithSlash (path : Path) : Bool := path.toList.getLast? = some '/'

/-- A path without the slashes at its end, of which one stays if there is nothing else. -/
def bare (path : Path) : Path :=
  match Text.dropEndWhile (· = '/') path.toList with
  | [] => path
  | text => String.ofList text

/-- The tree after writing a file. A slash at the end asks for a directory, which cannot be
written. -/
def write (t : FileTree) (path : Path) (text : String) : Except FileError FileTree := do
  let location ← t.locate (bare path)
  if endsWithSlash path || t.find? location = some .directory then .error .isADirectory
  else .ok (t.put location (.file text))

/-- The tree after making a directory. -/
def makeDirectory (t : FileTree) (path : Path) : Except FileError FileTree := do
  let location ← t.locate (bare path)
  match t.find? location with
  | some _ => .error .alreadyExists
  | none => .ok (t.put location .directory)

/-- The tree after making a directory and those it lies in; fuel counts them. A directory that is
there is no error. -/
def makeDirectories : Nat → FileTree → Path → Except FileError FileTree
  | 0, _, _ => .error .notFound
  | fuel + 1, t, path =>
    if path = "" then .ok t
    else
      match t.makeDirectory path with
      | .ok t' => .ok t'
      | .error .notFound =>
        match path.parent? with
        | none => .error .notFound
        | some parent => do
          let t' ← makeDirectories fuel t parent
          match t'.makeDirectory path with
          | .ok t'' => .ok t''
          | .error e => if t'.isDirectory path then .ok t' else .error e
      | .error e => if t.isDirectory path then .ok t else .error e

end FileTree

end QueryBook
