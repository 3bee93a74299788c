/-!
# Files

What a program can do with files by their names, and why it may fail. `Files` says which operations there are; a tree of files
held as a value has them, and so has the machine that a program runs on.
-/

namespace MarginRouter

/-- Why an operation on files fails. -/
inductive FileFault where
  | missing
  | alreadyExists
  | notDirectory
  | isDirectory
  | nameTooLong
  /-- A name with a null character in it. -/
  | badName
  /-- A file that holds no text. -/
  | notText
  | other (message : String)
  deriving DecidableEq, Repr

def FileFault.message : FileFault → String
  | missing => "No such file or directory (os error 2)"
  | alreadyExists => "File exists (os error 17)"
  | notDirectory => "Not a directory (os error 20)"
  | isDirectory => "Is a directory (os error 21)"
  | nameTooLong => "File name too long (os error 36)"
  | badName => "file name contained an unexpected NUL byte"
  | notText => "stream did not contain valid UTF-8"
  | other message => message

/-- Operations on files by their names. A name that does not begin with a slash is taken from the working directory. -/
class Files (m : Type → Type) where
  /-- The name of the working directory. -/
  here : m String
  /-- There is a file or a directory of this name. -/
  isThere (name : String) : m Bool
  /-- The text of a file. -/
  read (name : String) : m String
  /-- Gives a file this text, and makes the file if there is none. -/
  write (name text : String) : m Unit
  /-- Makes a directory and those above it, as far as they are missing. -/
  makeDirectories (name : String) : m Unit

/-- The name of something in a directory. -/
def Files.inside (directory name : String) : String :=
  if directory.endsWith "/" then directory ++ name else directory ++ "/" ++ name

end MarginRouter
