import MarginRouter.Command.Run

/-!
# The command line

Runs with the arguments that the program is given, on the files of the machine. A run that is misused ends with the code 2, and
one that fails with the code 1.
-/

namespace MarginRouter

/-- The fault that the machine reports. -/
def FileFault.ofError : IO.Error → FileFault
  | .noFileOrDirectory .. => .missing
  | .alreadyExists .. => .alreadyExists
  | .inappropriateType _ 20 _ => .notDirectory
  | .inappropriateType _ 21 _ => .isDirectory
  | .invalidArgument _ 36 _ => .nameTooLong
  | e => .other (toString e)

/-- An operation of the machine, whose error is a fault of files. -/
def onMachine {α : Type} (operation : IO α) : EIO FileFault α := do
  match ← operation.toBaseIO with
  | .ok a => return a
  | .error e => throw (.ofError e)

instance : Files (EIO FileFault) where
  here := return toString (← onMachine IO.currentDir)
  isThere name := do
    match ← (onMachine (IO.FS.Handle.mk name .read)).toBaseIO with
    | .ok _ => return true
    | .error _ => return false
  read name := do
    match String.fromUTF8? (← onMachine (IO.FS.readBinFile name)) with
    | some text => return text
    | none => throw .notText
  write name text := onMachine (IO.FS.writeFile name text)
  makeDirectories name := onMachine (IO.FS.createDirAll name)

namespace Command

/-- Says what is wrong with the arguments. -/
def UsageFault.message : UsageFault → String
  | missingArgument => "a required argument is missing"
  | unknownArgument => "an argument is not known"
  | badValue => "an option has no value, or none of its values"
  | refusedValue message => message
  | givenTwice => "an option is given twice"
  | needlessValue => "an option takes no value"
  | unknownCommand => "the command is not known"
  | missingCommand => "a command is missing"
  | overview | helpAsked | versionAsked => "usage: [-c FILE] (path | fee | operations | simulate | init)"

/-- Shows how a run ended; answers the code to leave with. -/
def Outcome.conclude : Outcome → IO UInt32
  | misused fault => do
    IO.eprintln fault.message
    return if fault = .helpAsked ∨ fault = .versionAsked then 0 else 2
  | unsettled fault => do
    IO.eprintln ("Error: " ++ fault.message)
    return 1
  | reported ⟨output, failure⟩ => do
    IO.print output
    match failure with
    | none => return 0
    | some message =>
      IO.eprintln ("Error: " ++ message)
      return 1

end Command

end MarginRouter

open MarginRouter in
def main (arguments : List String) : IO UInt32 := do
  match ← (Command.run arguments : EIO FileFault Command.Outcome).toBaseIO with
  | .ok outcome => outcome.conclude
  | .error fault =>
    IO.eprintln ("Error: " ++ fault.message)
    return 1
