set_option autoImplicit false

namespace IslandLayer

inductive DiskError where
  | notFound
  | notDirectory
  | isDirectory
  /-- The bytes are no text in UTF-8. -/
  | notText
  | other (text : String)
  deriving Repr, DecidableEq

namespace DiskError

def message : DiskError → String
  | notFound => "No such file or directory (os error 2)"
  | notDirectory => "Not a directory (os error 20)"
  | isDirectory => "Is a directory (os error 21)"
  | notText => "stream did not contain valid UTF-8"
  | other text => text

end DiskError

/-- Files that can be read and replaced as a whole. -/
structure Disk (m : Type → Type) where
  read : String → m (Except DiskError ByteArray)
  write : String → ByteArray → m (Except DiskError Unit)

namespace Disk

/-- The text of bytes in UTF-8. -/
def textOf (bytes : ByteArray) : Except DiskError String :=
  match String.fromUTF8? bytes with
  | some text => .ok text
  | none => .error .notText

end Disk

inductive Entry where
  | file (bytes : ByteArray)
  | directory

/-- The names that lead to an entry from the top, which is its own parent. -/
abbrev Place := List String

/-- Every entry once, with its place, except the top and the current directory. -/
structure Files where
  entries : List (Place × Entry) := []

namespace Files

/-- The current directory. Since `.` in a path stands for no step, none leads here from the top. -/
def current : Place := ["."]

/-- The directories that are always there. -/
def IsFixed (place : Place) : Prop := place = [] ∨ place = current

instance (place : Place) : Decidable (IsFixed place) := inferInstanceAs (Decidable (_ ∨ _))

def find? (files : Files) (place : Place) : Option Entry :=
  if IsFixed place then some .directory else files.entries.lookup place

/-- Puts an entry at a place, instead of any that is there. -/
def put (files : Files) (place : Place) (entry : Entry) : Files :=
  ⟨(place, entry) :: files.entries.filter (·.1 ≠ place)⟩

/-- The names of a path. Repeated slashes count as one. -/
def names (path : String) : List String :=
  ((path.toList.splitOn '/').filter (· ≠ [])).map String.ofList

/-- The path ends with a slash, so it can only lead to a directory. -/
def namesDirectory (path : String) : Bool := path.toList.getLast? = some '/'

/-- One name further from a directory. -/
def follow (place : Place) (name : String) : Place :=
  if name = "." then place
  else if name = ".." then place.dropLast
  else place ++ [name]

/-- One name further from a place that must be a directory. -/
def step (files : Files) (place : Place) (name : String) : Except DiskError Place :=
  match files.find? place with
  | none => .error .notFound
  | some (.file _) => .error .notDirectory
  | some .directory => .ok (follow place name)

/-- Where a path starts: at the top if a slash comes first. -/
def start (path : String) : Place := if path.toList.head? = some '/' then [] else current

/-- Where a path leads, whether or not there is an entry. The empty path leads nowhere. -/
def locate (files : Files) (path : String) : Except DiskError Place :=
  if path = "" then .error .notFound else (names path).foldlM files.step (start path)

def read (files : Files) (path : String) : Except DiskError ByteArray :=
  match files.locate path with
  | .error e => .error e
  | .ok place =>
    match files.find? place with
    | none => .error .notFound
    | some .directory => .error .isDirectory
    | some (.file bytes) => if namesDirectory path then .error .notDirectory else .ok bytes

def write (files : Files) (path : String) (bytes : ByteArray) : Except DiskError Files :=
  match files.locate path with
  | .error e => .error e
  | .ok place =>
    if namesDirectory path then .error .isDirectory
    else match files.find? place with
      | some .directory => .error .isDirectory
      | _ => .ok (files.put place (.file bytes))

/-- A directory at a place where there is nothing yet. -/
def makeDirectory (files : Files) (place : Place) : Files :=
  if (files.find? place).isSome then files else files.put place .directory

/-- Puts an entry where names lead to from a place, and makes the directories on the way. -/
def putAlong (files : Files) (place : Place) (entry : Entry) : List String → Files
  | [] => files.put place entry
  | name :: rest => (files.makeDirectory place).putAlong (follow place name) entry rest

def putWithParents (files : Files) (path : String) (entry : Entry) : Files :=
  files.putAlong (start path) entry (names path)

/-- Files in memory as a disk. A write that fails leaves them as they are. -/
def disk : Disk (StateM Files) where
  read path := fun files => (files.read path, files)
  write path bytes := fun files =>
    match files.write path bytes with
    | .ok files => (.ok (), files)
    | .error e => (.error e, files)

theorem lookup_filter_ne (entries : List (Place × Entry)) {place other : Place}
    (apart : other ≠ place) :
    (entries.filter (·.1 ≠ place)).lookup other = entries.lookup other := by
  induction entries with
  | nil => rfl
  | cons first rest ih =>
    obtain ⟨name, entry⟩ := first
    by_cases here : name = place
    · have skip : (other == name) = false := by simp [here, apart]
      rw [List.filter_cons_of_neg (by simp [here]), ih, List.lookup_cons, skip]
    · rw [List.filter_cons_of_pos (by simpa using here), List.lookup_cons, List.lookup_cons, ih]

/-- A put entry is the one at its place, and all others stay. -/
theorem find?_put (files : Files) {place : Place} (entry : Entry) (other : Place)
    (free : ¬ IsFixed place) :
    (files.put place entry).find? other = if other = place then some entry
      else files.find? other := by
  by_cases here : other = place
  · subst here
    simp [find?, put, free]
  · by_cases top : IsFixed other
    · simp [find?, top, here]
    · have skip : (other == place) = false := by simp [here]
      simp only [find?, top, put, List.lookup_cons, skip, here, if_false]
      exact lookup_filter_ne files.entries here

theorem find?_of_read {files : Files} {path : String} {bytes : ByteArray}
    (given : files.read path = .ok bytes) :
    ∃ place, files.locate path = .ok place ∧ files.find? place = some (.file bytes) := by
  unfold read at given
  split at given
  · contradiction
  · next place leads =>
    refine ⟨place, leads, ?_⟩
    split at given
    · contradiction
    · contradiction
    · next stored =>
      split at given
      · contradiction
      · cases given
        exact stored

/-- A write that succeeds is an entry put at the place that the path leads to. -/
theorem eq_put_of_write {files after : Files} {path : String} {bytes : ByteArray}
    (written : files.write path bytes = .ok after) :
    ∃ place, files.locate path = .ok place ∧ ¬ IsFixed place ∧
      after = files.put place (.file bytes) := by
  unfold write at written
  split at written
  · contradiction
  · next place leads =>
    split at written
    · contradiction
    · split at written
      · contradiction
      · next absent =>
        cases written
        exact ⟨place, leads, fun fixed => absent (by simp [find?, fixed]), rfl⟩

end Files

end IslandLayer
