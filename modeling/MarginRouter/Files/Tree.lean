import MarginRouter.Files.Basic
import MarginRouter.Step
import MarginRouter.Text.Parts

/-!
# Trees of files

Directories and files as a value. A name is read part by part: an empty part and a dot stay where they are, two dots lead up, and
any other part leads down. Each part is read in a directory that is there, so a name that leads through a file or through nothing
fails where it does.
-/

namespace MarginRouter

/-- Where something is: its own name and those of the directories around it, from the inside out. -/
abbrev Place := List String

/-- What is at a place. -/
inductive FileEntry where
  | directory
  | file (text : String)
  deriving DecidableEq, Repr

/-- Files and directories, and the working directory. The top directory is always there. -/
structure FileTree where
  here : Place
  entries : List (Place × FileEntry)

namespace FileTree

/-- What is at a place, if anything is. -/
def entryAt (t : FileTree) (p : Place) : Option FileEntry :=
  if p = [] then some .directory else t.entries.lookup p

/-- Puts an entry at a place, instead of what was there. -/
def put (p : Place) (e : FileEntry) (t : FileTree) : FileTree :=
  { t with entries := (p, e) :: t.entries.filter (·.1 ≠ p) }

theorem lookup_filter_ne (p q : Place) (hq : q ≠ p) (es : List (Place × FileEntry)) :
    (es.filter (·.1 ≠ p)).lookup q = es.lookup q := by
  induction es with
  | nil => rfl
  | cons x xs ih =>
    obtain ⟨r, e⟩ := x
    by_cases hr : r = p
    · have hqr : (q == r) = false := by simpa [hr] using hq
      simpa [hr, List.lookup_cons, hr ▸ hqr] using ih
    · cases hqr : q == r <;> simp_all [List.lookup_cons]

/-- A place holds what was put there, and all others hold what they held. -/
theorem entryAt_put (t : FileTree) (p q : Place) (e : FileEntry) (hp : p ≠ []) :
    (t.put p e).entryAt q = if q = p then some e else t.entryAt q := by
  by_cases hq : q = p
  · subst q
    simp [entryAt, put, hp]
  · have hqp : (q == p) = false := by simpa using hq
    simp only [entryAt, put, List.lookup_cons, hqp, lookup_filter_ne p q hq, hq, if_false]

/-- Operations on a tree. What has been written before a failure stays written. -/
abbrev Change (α : Type) := Step FileFault FileTree α

/-- The parts of a name, and the place where they begin. -/
def reading (name : String) : Change (Place × List String) := do
  if '\x00' ∈ name.toList then throw .badName
  if 4096 ≤ name.utf8ByteSize then throw .nameTooLong
  let parts := (Text.split '/' name.toList).map String.ofList
  match parts with
  | "" :: _ :: _ => return ([], parts)
  | _ => return ((← get).here, parts)

/-- The place that a part leads to from a directory; nothing need be there. -/
def enter (p : Place) (part : String) : Change Place := do
  match (← get).entryAt p with
  | none => throw .missing
  | some (.file _) => throw .notDirectory
  | some .directory =>
    if part = "" ∨ part = "." then return p
    else if part = ".." then return p.tail
    else if 255 < part.utf8ByteSize then throw .nameTooLong
    else return part :: p

/-- The place of a name. -/
def place (name : String) : Change Place := do
  let (start, parts) ← reading name
  parts.foldlM enter start

/-- What a name leads to. -/
def found (name : String) : Change FileEntry := do
  let p ← place name
  match (← get).entryAt p with
  | none => throw .missing
  | some e => return e

def isThere (name : String) : Change Bool :=
  (do let _ ← found name; return true) <|> return false

def read (name : String) : Change String := do
  match ← found name with
  | .directory => throw .isDirectory
  | .file text => return text

def write (name text : String) : Change Unit := do
  let p ← place name
  match (← get).entryAt p with
  | some .directory => throw .isDirectory
  | _ => modify (put p (.file text))

/-- Goes down the parts of a name and makes the directories that are missing. Dots at the end are read in a directory that is
there, so the one in front of them is not made. A file on the way is in the way of a directory where one was made before, and no
directory to go on from where none was. -/
def descend (made : Bool) (p : Place) : List String → Change Unit
  | [] => return
  | part :: parts => do
    let q ← enter p part
    let dotted := parts ≠ [] ∧ parts.all (· = ".")
    match (← get).entryAt q with
    | some .directory => descend made q parts
    | some (.file _) =>
      if dotted ∨ (parts ≠ [] ∧ ¬made) then throw .notDirectory else throw .alreadyExists
    | none =>
      if dotted then throw .missing
      modify (put q .directory)
      descend true q parts

def makeDirectories (name : String) : Change Unit := do
  let (start, parts) ← reading name
  descend false start (parts.filter (· ≠ ""))

/-- The name of a place, from the top. -/
def nameOf (p : Place) : String :=
  "/" ++ String.intercalate "/" p.reverse

instance : Files (Step FileFault FileTree) where
  here := return nameOf (← get).here
  isThere := isThere
  read := read
  write := write
  makeDirectories := makeDirectories

/-- The files below the working directory, by their names from there. -/
def files (t : FileTree) : List (String × String) :=
  t.entries.filterMap fun (p, e) =>
    match e with
    | .directory => none
    | .file text =>
      if t.here.isSuffixOf p then some (String.intercalate "/" (p.take (p.length - t.here.length)).reverse, text) else none

end FileTree

end MarginRouter
