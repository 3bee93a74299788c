import MarginRouter.Address
import MarginRouter.Command.Form
import MarginRouter.FeeRate
import MarginRouter.Text.Number
import MarginRouter.Text.Parts

/-!
# Commands

What can be asked for on the command line, and the arguments that ask for it. Each command has a draft, which its arguments
fill in, and what the draft lacks at the end is a fault of usage. Addresses and amounts may have blanks around them, and amounts
underscores anywhere; a text that is neither is named in the message that refuses it.
-/

namespace MarginRouter

namespace Text

/-- Reads an address. -/
def readAddress (text : String) : Except String Address :=
  (Address.ofText (trim text.toList)).mapError fun fault => "地址 " ++ text ++ " 非法: " ++ fault.message

/-- Reads an amount. -/
def readAmount (text : String) : Except String Amount :=
  match readNumber (1 <<< 256) ((trim text.toList).filter (· ≠ '_')) with
  | .error fault => .error ("数值 " ++ text ++ " 非法: " ++ fault.message)
  | .ok n => .ok (.wrap n)

end Text

namespace Command

/-- What to do with a path. -/
inductive PathQuestion where
  /-- Write the path that takes these hops, with a mode byte if `max` or a lender is given. -/
  | encode (start : Address) (hops : List String) (max : Bool) (lender : Option UInt8)
  | describe (hex : String)
  | reverse (hex : String)

/-- What an amount says about a loan. -/
inductive Sizing where
  /-- The size of the loan. -/
  | gross
  /-- What it hands over at least. -/
  | input
  /-- What it may cost to pay back. -/
  | budget
  deriving DecidableEq, Repr

/-- The terms of which loan; what is missing is taken from the settings. -/
structure FeeQuestion where
  amount : Amount
  fee : Option UInt64
  denominator : Option UInt64
  mode : Option FeeMode
  sizing : Sizing

/-- A trade to try out; what is missing is the limit that any trade keeps. -/
structure Trial where
  entry : String
  caller : Address
  amount : Amount
  limit : Option Amount
  hex : String

/-- What the settings can answer. -/
inductive Question where
  | path (question : PathQuestion)
  | fee (question : FeeQuestion)
  | operations
  | simulate (trial : Trial)

/-- What a run is asked to do. -/
inductive Job where
  | ask (question : Question)
  /-- Write the template into a directory, over a file that is there only if `force` is given. -/
  | init (directory : Option String) (force : Bool)

/-- A job, and the file that holds the settings for it. -/
structure Invocation where
  settings : Option String
  job : Job

/-! ## Values of options -/

def addressValue (text : String) : Except UsageFault Address :=
  (Text.readAddress text).mapError .refusedValue

def amountValue (text : String) : Except UsageFault Amount :=
  (Text.readAmount text).mapError .refusedValue

def wordValue (text : String) : Except UsageFault UInt64 :=
  match Text.readWord (UInt64.size - 1) text.toList with
  | .ok n => .ok (.ofNat n)
  | .error fault => .error (.refusedValue fault.message)

/-- A byte is read as a number that may be much larger, so that the message can name its range. -/
def byteValue (text : String) : Except UsageFault UInt8 :=
  match Text.readInteger text.toList with
  | .error fault => .error (.refusedValue fault.message)
  | .ok n =>
    if 0 ≤ n ∧ n ≤ 255 then .ok (.ofNat n.toNat) else .error (.refusedValue (toString n ++ " is not in 0..=255"))

def choiceValue {α : Type} (choices : List (String × α)) (text : String) : Except UsageFault α :=
  match choices.lookup text with
  | some a => .ok a
  | none => .error .badValue

/-- The name of a file or directory. -/
def fileValue (text : String) : Except UsageFault String :=
  if text.isEmpty then .error .badValue else .ok text

/-- What a draft must hold at the end. -/
def needed {α : Type} : Option α → Except UsageFault α
  | some a => .ok a
  | none => .error .missingArgument

/-! ## The forms of the commands -/

/-- A form that also answers a call for help. -/
def helped {δ : Type} (long : List (String × Slot δ)) : Form δ :=
  ⟨("help", .stop .helpAsked) :: long, [('h', .stop .helpAsked)], [], []⟩

structure EncodeDraft where
  start : Option Address
  hops : List String
  max : Bool
  lender : Option UInt8

def EncodeDraft.form : Form EncodeDraft :=
  helped [
    ("start", .single start (fun a d => { d with start := some a }) addressValue),
    ("hop", .value fun text d => .ok { d with hops := d.hops ++ [text] }),
    ("max", .once max fun d => { d with max := true }),
    ("lender", .single lender (fun n d => { d with lender := some n }) byteValue)]

def EncodeDraft.read (texts : List String) : Except UsageFault PathQuestion := do
  let d ← form.fill ⟨none, [], false, none⟩ texts
  let start ← needed d.start
  if d.hops.isEmpty then throw .missingArgument
  return .encode start d.hops d.max d.lender

/-- The form of a command on one text. -/
def textForm : Form (Option String) :=
  { helped [] with positions := [fun text _ => .ok (some text)] }

def textOf (texts : List String) : Except UsageFault String := do
  needed (← textForm.fill none texts)

structure FeeDraft where
  amount : Option Amount
  fee : Option UInt64
  denominator : Option UInt64
  mode : Option FeeMode
  sizing : Option Sizing

def FeeDraft.form : Form FeeDraft :=
  helped [
    ("amount", .single amount (fun a d => { d with amount := some a }) amountValue),
    ("fee", .single fee (fun n d => { d with fee := some n }) wordValue),
    ("denom", .single denominator (fun n d => { d with denominator := some n }) wordValue),
    ("mode", .single mode (fun m d => { d with mode := some m })
      (choiceValue [("surcharge", .surcharge), ("deducted", .deducted)])),
    ("solve", .single sizing (fun s d => { d with sizing := some s })
      (choiceValue [("gross", .gross), ("input", .input), ("budget", .budget)]))]

def FeeDraft.read (texts : List String) : Except UsageFault FeeQuestion := do
  let d ← form.fill ⟨none, none, none, none, none⟩ texts
  return ⟨← needed d.amount, d.fee, d.denominator, d.mode, d.sizing.getD .gross⟩

structure TrialDraft where
  entry : Option String
  caller : Option Address
  amount : Option Amount
  limit : Option Amount
  hex : Option String

def TrialDraft.form : Form TrialDraft :=
  helped [
    ("entry", .single entry (fun s d => { d with entry := some s }) .ok),
    ("caller", .single caller (fun a d => { d with caller := some a }) addressValue),
    ("amount", .single amount (fun a d => { d with amount := some a }) amountValue),
    ("limit", .single limit (fun a d => { d with limit := some a }) amountValue),
    ("path", .single hex (fun s d => { d with hex := some s }) .ok)]

def TrialDraft.read (texts : List String) : Except UsageFault Trial := do
  let d ← form.fill ⟨none, none, none, none, none⟩ texts
  return ⟨← needed d.entry, ← needed d.caller, ← needed d.amount, d.limit, ← needed d.hex⟩

structure InitDraft where
  directory : Option String
  force : Bool

def InitDraft.form : Form InitDraft :=
  helped [
    ("output", .single directory (fun s d => { d with directory := some s }) fileValue),
    ("force", .once force fun d => { d with force := true })]

def InitDraft.read (texts : List String) : Except UsageFault Job := do
  let d ← form.fill ⟨none, false⟩ texts
  return .init d.directory d.force

/-! ## Subcommands -/

/-- A subcommand: its name, what its arguments mean, and the names of the subcommands below it. -/
structure Item (α : Type) where
  name : String
  read : List String → Except UsageFault α
  below : List String

/-- Subcommands that stand side by side. -/
abbrev Menu (α : Type) := List (Item α)

namespace Menu

variable {δ α : Type}

def names (menu : Menu α) : List String :=
  "help" :: menu.map Item.name

/-- Help, on the command that these names lead to, if they lead to one. -/
def help (menu : Menu α) : List String → UsageFault
  | [] => .helpAsked
  | [name] => if name ∈ menu.names then .helpAsked else .unknownCommand
  | [name, sub] => if menu.any fun item => item.name = name ∧ sub ∈ item.below then .helpAsked else .unknownCommand
  | _ => .unknownCommand

/-- Reads the options of a form and the subcommand behind them. The last option is taken after the subcommand has been
read. -/
def read (menu : Menu α) (f : Form δ) (draft : δ) (isGiven : δ → Bool) (texts : List String) :
    Except UsageFault (δ × α) := do
  match ← { f with subcommands := menu.names }.read (.start draft) texts with
  | (r, some (name, texts)) =>
    match menu.find? (·.name = name) with
    | none => throw (menu.help texts)
    | some item =>
      let a ← item.read texts
      return (← r.finish, a)
  | (r, none) =>
    let d ← r.finish
    throw (if isGiven d then .missingCommand else .overview)

end Menu

def PathQuestion.menu : Menu PathQuestion :=
  [⟨"encode", EncodeDraft.read, []⟩, ⟨"decode", fun texts => (textOf texts).map describe, []⟩,
    ⟨"reverse", fun texts => (textOf texts).map reverse, []⟩]

def PathQuestion.read (texts : List String) : Except UsageFault PathQuestion :=
  (menu.read (helped []) () (fun _ => false) texts).map Prod.snd

def operationsForm : Form Unit := helped []

def Job.menu : Menu Job :=
  [⟨"path", fun texts => (PathQuestion.read texts).map fun q => .ask (.path q), PathQuestion.menu.names⟩,
    ⟨"fee", fun texts => (FeeDraft.read texts).map fun q => .ask (.fee q), []⟩,
    ⟨"operations", fun texts => (operationsForm.fill () texts).map fun _ => .ask .operations, []⟩,
    ⟨"simulate", fun texts => (TrialDraft.read texts).map fun t => .ask (.simulate t), []⟩,
    ⟨"init", InitDraft.read, []⟩]

/-- The option that names the settings. -/
def settingsOption : Slot (Option String) :=
  .single id (fun s _ => some s) fileValue

/-- The form that all commands stand in. -/
def topForm : Form (Option String) where
  long := [("config", settingsOption), ("help", .stop .helpAsked), ("version", .stop .versionAsked)]
  short := [('c', settingsOption), ('h', .stop .helpAsked), ('V', .stop .versionAsked)]
  positions := []
  subcommands := []

/-- Reads all arguments. -/
def Invocation.ofArguments (texts : List String) : Except UsageFault Invocation := do
  let (settings, job) ← Job.menu.read topForm none Option.isSome texts
  return ⟨settings, job⟩

end Command

end MarginRouter
