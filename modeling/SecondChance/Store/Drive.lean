import SecondChance.Error
import SecondChance.Table

/-!
The files of the operating system, as far as page files on disk need them: byte strings in
directories, found by path.

Paths are resolved by names from left to right. Every name but the last has to be that of a
directory; a path that ends in a slash, in `.` or in `..` means a directory, which cannot be opened
for writing. Directories are neither made nor removed.
-/

namespace SecondChance

/-- The files of the operating system. -/
structure Drive where
  /-- The contents of every file, by the place where it is. -/
  files : Table String Bytes
  /-- The places of the directories below the current one, each with a slash at its end. -/
  directories : List String

namespace Drive

def empty : Drive := ⟨.empty, []⟩

def longestName : Nat := 255

def longestPath : Nat := 4095

def contents? (d : Drive) (place : String) : Option Bytes := d.files.find? place

def contents (d : Drive) (place : String) : Bytes := (d.contents? place).getD #[]

def put (d : Drive) (place : String) (bytes : Bytes) : Drive :=
  { d with files := d.files.insert place bytes }

@[simp] theorem contents_put (d : Drive) (place : String) (bytes : Bytes) (x : String) :
    (d.put place bytes).contents x = if place = x then bytes else d.contents x := by
  unfold contents contents? put
  rw [Table.find?_insert]
  split <;> rfl

/-- Goes through the names of a path from the directory `here` to the place of its last name. A
`slash` behind the last name asks for a directory. -/
def walk (d : Drive) (slash : Bool) : (here : String) → List String → Except IoCause String
  | _, [] => .error .isDirectory
  | here, [last] =>
    if slash ∨ last = "." ∨ last = ".." ∨ here ++ last ++ "/" ∈ d.directories then
      .error .isDirectory
    else if last.utf8ByteSize > longestName then .error .nameTooLong
    else .ok (here ++ last)
  | here, name :: next =>
    if name = "." then walk d slash here next
    else if name = ".." then walk d slash (here ++ "../") next
    else if name.utf8ByteSize > longestName then .error .nameTooLong
    else if here ++ name ++ "/" ∈ d.directories then walk d slash (here ++ name ++ "/") next
    else if (d.contents? (here ++ name)).isSome then .error .notDirectory
    else .error .noEntry

/-- The names in a path, which slashes divide. Slashes that follow one another count as one. -/
def namesIn (path : List Char) : List String :=
  let (first, later) := path.foldr
    (fun c (name, names) => if c = '/' then ([], name :: names) else (c :: name, names)) ([], [])
  ((first :: later).filter (· ≠ [])).map String.ofList

/-- The directory from which a path leads on: the root if it begins with a slash, and otherwise the
current one, whose place is empty. -/
def base (path : List Char) : String := if path.head? = some '/' then "/" else ""

/-- The place that a path leads to, whether or not there is a file yet. -/
def resolve (d : Drive) (path : String) : Except IoCause String :=
  let chars := path.toList
  if '\x00' ∈ chars then .error .zeroInName
  else if chars.isEmpty then .error .noEntry
  else if path.utf8ByteSize > longestPath then .error .nameTooLong
  else d.walk (chars.getLast? = some '/') (base chars) (namesIn chars)

def openOrCreate (d : Drive) (path : String) : Drive × Except IoCause String :=
  match d.resolve path with
  | .error e => (d, .error e)
  | .ok place => if (d.contents? place).isSome then (d, .ok place) else (d.put place #[], .ok place)

end Drive

end SecondChance
