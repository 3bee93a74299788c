/-!
# Forms

What a command takes on the command line, and how arguments fill it in. A form has options, positions and subcommands. An
argument that begins with a hyphen names an option, unless all options have been declared over by two hyphens alone; any other
argument is the value that the option before it waits for, or the name of a subcommand, or fills the next position.

A value is taken when the next option or position begins, or at the end. So an option that does not exist is found before a bad
value right in front of it, and a bad value is found before the options behind it.
-/

namespace MarginRouter.Command

/-- Why arguments are no command. -/
inductive UsageFault where
  /-- Something that must be given is not. -/
  | missingArgument
  /-- An option that does not exist, or more positions than there are. -/
  | unknownArgument
  /-- An option without its value, or a value that is none of its choices. -/
  | badValue
  /-- A value that its option refuses, and why. -/
  | refusedValue (message : String)
  /-- An option given twice. -/
  | givenTwice
  /-- A value for an option that takes none. -/
  | needlessValue
  | unknownCommand
  | missingCommand
  /-- Nothing is given where a subcommand is due, which asks for an overview. -/
  | overview
  | helpAsked
  | versionAsked
  deriving DecidableEq, Repr

variable {δ α : Type}

/-- What an option does to the draft that arguments fill in. -/
inductive Slot (δ : Type) where
  | flag (mark : δ → Except UsageFault δ)
  | value (take : String → δ → Except UsageFault δ)
  /-- Ends the reading of arguments. -/
  | stop (fault : UsageFault)

namespace Slot

/-- An option without a value that may be given once. -/
def once (isGiven : δ → Bool) (mark : δ → δ) : Slot δ :=
  .flag fun d => if isGiven d then .error .givenTwice else .ok (mark d)

/-- An option with a value that may be given once. -/
def single (get : δ → Option α) (put : α → δ → δ) (read : String → Except UsageFault α) : Slot δ :=
  .value fun text d => if (get d).isSome then .error .givenTwice else (read text).map (put · d)

end Slot

/-- What a command takes. -/
structure Form (δ : Type) where
  long : List (String × Slot δ)
  short : List (Char × Slot δ)
  positions : List (String → δ → Except UsageFault δ)
  subcommands : List String

/-- A value on its way into the draft: how it is taken, and the value once it is there. -/
structure Pending (δ : Type) where
  take : String → δ → Except UsageFault δ
  text : Option String

/-- Arguments read so far. -/
structure Reading (δ : Type) where
  draft : δ
  pending : Option (Pending δ)
  /-- How many positions have been filled. -/
  filled : Nat
  /-- Two hyphens have declared the options over. -/
  optionsOver : Bool

namespace Reading

/-- Nothing read yet. -/
def start (draft : δ) : Reading δ := ⟨draft, none, 0, false⟩

/-- Takes the value that is on its way. -/
def settle (r : Reading δ) : Except UsageFault (Reading δ) :=
  match r.pending with
  | none => .ok r
  | some ⟨_, none⟩ => .error .badValue
  | some ⟨take, some text⟩ => do return { r with draft := ← take text r.draft, pending := none }

/-- An option waits for its value. -/
def isWaiting (r : Reading δ) : Bool :=
  r.pending.any (·.text.isNone)

/-- The draft at the end of the arguments. -/
def finish (r : Reading δ) : Except UsageFault δ := do
  return (← r.settle).draft

/-- An option that is not given a value here. -/
def option (r : Reading δ) : Slot δ → Except UsageFault (Reading δ)
  | .flag mark => do
    let r ← r.settle
    return { r with draft := ← mark r.draft }
  | .value take => do return { ← r.settle with pending := some ⟨take, none⟩ }
  | .stop fault => do
    let _ ← r.settle
    throw fault

/-- An option that is given a value in the same argument. -/
def optionWith (r : Reading δ) (text : String) : Slot δ → Except UsageFault (Reading δ)
  | .value take => do
    let r ← r.settle
    return { r with draft := ← take text r.draft }
  | _ => .error .needlessValue

end Reading

namespace Form

/-- An argument that fills a position. -/
def position (f : Form δ) (r : Reading δ) (text : String) : Except UsageFault (Reading δ) :=
  match f.positions[r.filled]? with
  | some take => do return { ← r.settle with pending := some ⟨take, some text⟩, filled := r.filled + 1 }
  | none =>
    if f.subcommands.isEmpty ∨ (r.optionsOver ∧ text ∈ f.subcommands) then .error .unknownArgument
    else .error .unknownCommand

/-- An option by its name, with or without a value behind an equals sign. -/
def named (f : Form δ) (r : Reading δ) (cs : List Char) : Except UsageFault (Reading δ) :=
  let (name, rest) := cs.span (· ≠ '=')
  match f.long.lookup (String.ofList name), rest with
  | none, _ => .error .unknownArgument
  | some slot, [] => r.option slot
  | some slot, _ :: text => r.optionWith (String.ofList text) slot

/-- Options by their letters. An option with a value takes the rest of the argument, without an equals sign in front. -/
def lettered (f : Form δ) (r : Reading δ) : List Char → Except UsageFault (Reading δ)
  | [] => .ok r
  | c :: cs =>
    match f.short.lookup c, cs with
    | none, _ => .error .unknownArgument
    | some (.value take), [] => r.option (.value take)
    | some (.value take), '=' :: text => r.optionWith (String.ofList text) (.value take)
    | some (.value take), text => r.optionWith (String.ofList text) (.value take)
    | some slot, _ => do f.lettered (← r.option slot) cs

/-- One argument that is no subcommand. -/
def argument (f : Form δ) (r : Reading δ) (text : String) : Except UsageFault (Reading δ) :=
  if r.optionsOver then f.position r text
  else match text.toList with
    | ['-', '-'] => .ok { r with optionsOver := true }
    | '-' :: '-' :: name => f.named r name
    | '-' :: c :: letters => f.lettered r (c :: letters)
    | _ =>
      match r.pending with
      | some ⟨take, none⟩ => .ok { r with pending := some ⟨take, some text⟩ }
      | _ => f.position r text

/-- Reads arguments up to the name of a subcommand; also returns that name and the arguments behind it. -/
def read (f : Form δ) (r : Reading δ) : List String → Except UsageFault (Reading δ × Option (String × List String))
  | [] => .ok (r, none)
  | text :: texts =>
    if !r.optionsOver ∧ !r.isWaiting ∧ text ∈ f.subcommands then .ok (r, some (text, texts))
    else do f.read (← f.argument r text) texts

/-- The draft that the arguments of a form without subcommands fill in. -/
def fill (f : Form δ) (draft : δ) (texts : List String) : Except UsageFault δ := do
  let (r, _) ← f.read (.start draft) texts
  r.finish

end Form

end MarginRouter.Command
