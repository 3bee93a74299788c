import MarginRouter.Config.Toml.Quoted
import MarginRouter.Config.Toml.Scalar
import MarginRouter.Config.Toml.Table

/-!
# Reading a document

The grammar of a document: lines with headers of tables, headers of rows, and keys with their values. Lists and inline tables
may run over several lines, hold comments, and end in a comma. Only the names of one key stay on one line there, with the dots
between them.

Reading goes from left to right, and each function returns what follows the part that it reads. Those that read parts within
parts carry a number of steps, which `read` takes from the length of the text: two for each character are enough, because of
two steps in a row at least one passes a character.
-/

namespace MarginRouter.Config.Toml

/-- Lists and inline tables stand within each other up to this depth, and a key has at most so many names. -/
def deepest : Nat := 80

def skipBlanks (cs : List Char) : List Char :=
  cs.dropWhile fun c => c == ' ' || c == '\t'

/-- What follows blanks, line ends and comments. `comment` tells whether reading stands in a comment. -/
def skipLines (comment : Bool) : List Char → Option (List Char)
  | [] => some []
  | '\x0d' :: '\n' :: cs => skipLines false cs
  | c :: cs =>
    if c = '\n' then skipLines false cs
    else if comment then if isPlain c then skipLines true cs else none
    else if c = '#' then skipLines true cs
    else if c = ' ' ∨ c = '\t' then skipLines false cs
    else some (c :: cs)

/-- Nothing but a comment stands on the rest of the line. -/
def endsLine (cs : List Char) : Bool :=
  match skipBlanks cs with
  | [] | '#' :: _ | '\n' :: _ | '\x0d' :: '\n' :: _ => true
  | _ => false

def isBare (c : Char) : Bool :=
  c.isAlphanum || c == '_' || c == '-'

/-- Reads one name of a key, quoted or bare. -/
def readName? (cs : List Char) : Option (String × List Char) :=
  match readOneLine? cs with
  | some (text, rest) => some (String.ofList text, rest)
  | none =>
    let (name, rest) := cs.span isBare
    if name.isEmpty then none else some (String.ofList name, rest)

/-- Reads the names of a key and the blanks around them. -/
def readNames? : Nat → List Char → Option (Key × List Char)
  | 0, _ => none
  | steps + 1, cs => do
    let (name, rest) ← readName? (skipBlanks cs)
    match skipBlanks rest with
    | '.' :: rest =>
      let (key, rest) ← readNames? steps rest
      return (⟨name :: key.path, key.name⟩, rest)
    | rest => return (⟨[], name⟩, rest)

/-- Reads a key and the blanks around it. -/
def readKey? (steps : Nat) (cs : List Char) : Option (Key × List Char) := do
  let (key, rest) ← readNames? steps cs
  if key.path.length < deepest then return (key, rest) else none

/-- All but blanks, line ends, quotes and the signs of lists, tables, keys and comments. -/
def isScalarChar (c : Char) : Bool :=
  !(" \t\n\x0d=,[]\x7b\x7d#\"'".toList.contains c)

/-- Divides a text behind a bare value. A blank between a date and a time belongs to the value. -/
def spanScalar (cs : List Char) : List Char × List Char :=
  let (text, rest) := cs.span isScalarChar
  match rest with
  | ' ' :: c :: more =>
    if isDate text ∧ c.isDigit then
      let (time, rest) := (c :: more).span isScalarChar
      (text ++ ' ' :: time, rest)
    else (text, rest)
  | rest => (text, rest)

mutual

/-- Reads a value. `room` tells how many lists and inline tables may still be opened within each other. -/
def readValue? : Nat → Nat → List Char → Option (Value × List Char)
  | 0, _, _ => none
  | steps + 1, room, '[' :: cs => do
    let room + 1 := room | none
    let (items, rest) ← readItems? steps room cs
    return (.list items, rest)
  | steps + 1, room, '{' :: cs => do
    let room + 1 := room | none
    let (table, rest) ← readFields? steps room [] cs
    return (.record (toFields table), rest)
  | _ + 1, _, cs =>
    match readText? cs with
    | some (text, rest) => some (.text (String.ofList text), rest)
    | none =>
      let (text, rest) := spanScalar cs
      (scalar? text).map (·, rest)

/-- Reads the items of a list from behind its bracket, or from behind a comma. -/
def readItems? : Nat → Nat → List Char → Option (List Value × List Char)
  | 0, _, _ => none
  | steps + 1, room, cs => do
    match ← skipLines false cs with
    | ']' :: rest => return ([], rest)
    | cs =>
      let (item, rest) ← readValue? steps room cs
      match ← skipLines false rest with
      | ']' :: rest => return ([item], rest)
      | ',' :: rest =>
        let (items, rest) ← readItems? steps room rest
        return (item :: items, rest)
      | _ => none

/-- Reads the fields of an inline table from behind its brace, or from behind a comma, to those read so far. -/
def readFields? : Nat → Nat → Table → List Char → Option (Table × List Char)
  | 0, _, _, _ => none
  | steps + 1, room, table, cs => do
    match ← skipLines false cs with
    | '}' :: rest => return (table, rest)
    | cs =>
      let (key, rest) ← readKey? steps cs
      let '=' :: rest ← skipLines false rest | none
      let (v, rest) ← readValue? steps room (← skipLines false rest)
      let table ← table.assign key.path key.name v
      match ← skipLines false rest with
      | '}' :: rest => return (table, rest)
      | ',' :: rest => readFields? steps room table rest
      | _ => none

end

/-- Reads a line that says something. -/
def readLine? (steps : Nat) : List Char → Option (Line × List Char)
  | '[' :: '[' :: cs => do
    let (key, rest) ← readKey? steps cs
    let ']' :: ']' :: rest := rest | none
    return (.rowHeader key, rest)
  | '[' :: cs => do
    let (key, rest) ← readKey? steps cs
    let ']' :: rest := rest | none
    return (.header key, rest)
  | cs => do
    let (key, rest) ← readKey? steps cs
    let '=' :: rest := rest | none
    let (v, rest) ← readValue? steps deepest (skipBlanks rest)
    return (.assign key v, rest)

/-- Reads all lines, and adds them to a draft. -/
def readLines? : Nat → Draft → List Char → Option Draft
  | 0, _, _ => none
  | steps + 1, draft, cs => do
    match ← skipLines false cs with
    | [] => return draft
    | cs =>
      let (line, rest) ← readLine? steps cs
      if endsLine rest then readLines? steps (← draft.add line) rest else none

/-- Reads a document. A byte order mark in front does not count. -/
def read? (text : String) : Option Value := do
  let cs := text.toList
  let cs := if cs.head? = some '\ufeff' then cs.tail else cs
  let draft ← readLines? (2 * cs.length + 2) .empty cs
  return .record (toFields draft.table)

end MarginRouter.Config.Toml
