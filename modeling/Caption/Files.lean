/-! Reading text files: what can go wrong, and a directory of texts held in memory. -/
namespace Caption

/-- Why a file could not be read as text. -/
inductive FileError where
  | notFound
  | isDirectory
  | notADirectory
  | denied
  | nameTooLong
  | notText
deriving DecidableEq, Repr

namespace FileError

/-- The wording of an error, with the number that the operating system gives it. -/
def message : FileError → String
  | .notFound => "No such file or directory (os error 2)"
  | .isDirectory => "Is a directory (os error 21)"
  | .notADirectory => "Not a directory (os error 20)"
  | .denied => "Permission denied (os error 13)"
  | .nameTooLong => "File name too long (os error 36)"
  | .notText => "stream did not contain valid UTF-8"

end FileError

/-- Bytes read as a text file. -/
def textOfBytes (bytes : List Nat) : Except FileError String :=
  match String.fromUTF8? (ByteArray.mk (bytes.map UInt8.ofNat).toArray) with
  | some text => .ok text
  | none => .error .notText

/-- Files that can be read by their paths. -/
abbrev Files := String → Except FileError String

namespace Files

/-- Paths with what reading them gave; at no other path there is a file. -/
def ofReadings (readings : List (String × Except FileError String)) : Files := fun path =>
  ((readings.find? fun reading => reading.1 == path).map Prod.snd).getD (.error .notFound)

/-- The names of a path in their order; one that ends in a slash goes on to the directory itself. -/
def names (path : String) : List String :=
  let given := (path.splitOn "/").filter fun name => name != ""
  if path.endsWith "/" then given ++ ["."] else given

def plainNames (path : String) : List String := (names path).filter fun name => name != "."

/-- The longest name, in bytes. -/
def nameLimit : Nat := 255

/-- The shortest path that is too long, in bytes. -/
def pathLimit : Nat := 4096

/-- A directory where a path leads: one below the working directory, or one outside. -/
inductive Place where
  | inside (names : List String)
  | outside

namespace Place

def above : Place → Place
  | .inside [] => .outside
  | .inside names => .inside names.dropLast
  | .outside => .outside

end Place

/-- Follow names from a directory among texts; all names but the last must lead to directories. -/
def follow (texts : List (List String × String)) (place : Place) :
    List String → Except FileError String
  | [] => .error .isDirectory
  | name :: rest =>
    if name = "." then follow texts place rest
    else if name = ".." then follow texts place.above rest
    else if nameLimit < name.utf8ByteSize then .error .nameTooLong
    else
      match place with
      | .outside => .error .notFound
      | .inside parents =>
        let here := parents ++ [name]
        match texts.find? fun file => file.1 == here with
        | some (_, text) => if rest = [] then .ok text else .error .notADirectory
        | none =>
          if texts.any fun file => file.1.take here.length == here then
            follow texts (.inside here) rest
          else .error .notFound

/-- A working directory that holds texts under their paths and nothing else. Of what lies outside
only the directories above are known. -/
def ofList (texts : List (String × String)) : Files := fun path =>
  if path = "" then .error .notFound
  else if pathLimit ≤ path.utf8ByteSize then .error .nameTooLong
  else
    follow (texts.map fun file => (plainNames file.1, file.2))
      (if path.startsWith "/" then .outside else .inside []) (names path)

end Files

end Caption
