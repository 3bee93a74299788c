import MarginRouter.Command.Arguments
import MarginRouter.Config.Launch
import MarginRouter.Path.Reverse
import MarginRouter.Path.Text
import MarginRouter.Text.Parts

/-!
# Reports

What a run prints, and the message with which it fails if it does. Every question is answered from the settings alone: the
router that they launch is not kept.
-/

namespace MarginRouter.Command

/-- What a run prints, and why it fails if it does. -/
structure Report where
  output : String
  failure : Option String

namespace Report

def lines (texts : List String) : String :=
  String.join (texts.map (· ++ "\n"))

/-- A run that prints lines. -/
def printed (texts : List String) : Report :=
  ⟨lines texts, none⟩

/-- A run that fails and prints nothing. -/
def failed (message : String) : Report :=
  ⟨"", some message⟩

def ofExcept : Except String (List String) → Report
  | .ok texts => printed texts
  | .error message => failed message

end Report

/-! ## Paths -/

/-- Reads the action of a hop, by its number or its name. -/
def readAction (text : String) : Except String UInt8 :=
  match Text.readWord 255 text.toList, Action.all.find? (·.name = text) with
  | .ok n, _ => .ok (.ofNat n)
  | .error _, some action => .ok action.code
  | .error _, none => .error ("未知的 action: " ++ text)

/-- Reads a hop: the fee, the provider, the action and the token that it leads to, with colons between them. -/
def readHop (text : String) : Except String Path.Step :=
  match (Text.split ':' text.toList).map Text.trim with
  | [fee, provider, action, token] => do
    let fee ← (Text.readWord (UInt32.size - 1) fee).mapError fun _ => "hop " ++ text ++ " 的 fee 非法"
    let provider ← (Text.readWord 255 provider).mapError fun _ => "hop " ++ text ++ " 的 provider 非法"
    let code ← readAction (String.ofList action)
    return ⟨fee, .ofNat provider, code, ← Text.readAddress (String.ofList token)⟩
  | _ => .error ("hop 参数 " ++ text ++ " 应为 FEE:PROVIDER:ACTION:TOKEN")

/-- The mode byte of a path that asks for all of the caller's position, or names a lender. -/
def modeByteOf (max : Bool) (lender : Option UInt8) : Except PathError (Option UInt8) := do
  if max ∨ lender.isSome then
    let mode ← Mode.of (if max then .max else .exact) (lender.getD 0)
    return some mode.toByte
  else return none

/-- The text of a path from the texts of its hops. -/
def encodePath (start : Address) (hops : List String) (max : Bool) (lender : Option UInt8) : Except String String := do
  let steps ← hops.mapM readHop
  let modeByte ← (modeByteOf max lender).mapError PathError.message
  let p ← (Path.ofSteps start steps modeByte).mapError PathError.message
  return p.toHex

def legLine (l : Leg) : String :=
  "  hop " ++ toString l.index ++ ": " ++ toString l.head ++ " -> " ++ toString l.tail ++ " fee=" ++ toString l.hop.fee ++
    " provider=" ++ toString l.hop.provider ++ " " ++ Path.actionText l.hop.code

def modeLine (p : Path) : Except PathError String :=
  match p.modeByte with
  | none => .ok "  mode: 无"
  | some _ => do
    let mode ← p.mode
    let amount := match mode.amount with
      | .exact => "Exact"
      | .max => "Max"
    return "  mode: amount=" ++ amount ++ " lender=" ++ toString mode.lender

/-- A path for people: in one line, then hop by hop, then its mode. -/
def describePath (p : Path) : Except PathError (List String) := do
  let mode ← modeLine p
  return p.display :: p.legs.map legLine ++ [mode]

/-- The text of the path that leads back. -/
def reversePath (hex : String) : Except PathError String := do
  return (← Path.ofHex hex.toList).reversed.toHex

def PathQuestion.answer : PathQuestion → Except String (List String)
  | encode start hops max lender => (encodePath start hops max lender).map ([·])
  | describe hex => (Path.ofHex hex.toList >>= describePath).mapError PathError.message
  | reverse hex => ((reversePath hex).map ([·])).mapError PathError.message

/-! ## Loans -/

/-- The rate, the mode and the terms of the loan in question. -/
def FeeQuestion.solve (q : FeeQuestion) (defaults : Config.LenderTerms) : Except FeeError (FeeRate × FeeMode × LoanTerms) := do
  let rate ← FeeRate.of (q.fee.getD defaults.fee) (q.denominator.getD defaults.denominator)
  let mode := q.mode.getD defaults.mode
  let terms ← match q.sizing with
    | .gross => rate.terms q.amount mode
    | .input => rate.sizeForInput q.amount mode
    | .budget => rate.sizeForBudget q.amount mode
  return (rate, mode, terms)

def FeeQuestion.answer (q : FeeQuestion) (defaults : Config.LenderTerms) : Except FeeError (List String) := do
  let (rate, mode, terms) ← q.solve defaults
  return ["rate=" ++ toString rate.fee ++ "/" ++ toString rate.denominator ++ " mode=" ++ mode.name ++
    " gross=" ++ toString terms.gross ++ " fee=" ++ toString terms.fee ++ " delivered=" ++ toString terms.delivered ++
    " owed=" ++ toString terms.owed]

/-! ## Routers -/

/-- The signature behind an identifier, if it is one of the router's own. -/
def signatureText (operation : OperationId) : String :=
  match TradeEntry.ofOperation? operation, Query.ofOperation? operation with
  | some entry, _ => entry.signature
  | none, some query => query.signature
  | none, none => "?"

/-- The modules of a registry with their operations, by address and by identifier. -/
def operationLines (r : Registry) : List String :=
  let record (address : Address) (m : ModuleRecord) : List String :=
    let operations := m.operations.toList
    (m.module.name ++ " @ " ++ toString address ++ " (" ++ toString operations.length ++ " 个操作)") ::
      operations.map fun operation => "  " ++ toString operation ++ " " ++ signatureText operation
  ("admin " ++ toString r.admin) :: r.records.toList.flatMap fun (address, m) => record address m

/-- The limit that any trade keeps. -/
def loosestLimit : Direction → Amount
  | .exactIn => 0
  | .exactOut => .max

/-- How a trade changed the caller's balances, for each token of the path in turn. -/
def balanceLines (caller : Address) (before after : Ledger) (tokens : List Address) : List String :=
  tokens.filterMap fun token =>
    let b := before.balance token caller
    let a := after.balance token caller
    if a = b then none else some ("  " ++ toString token ++ ": " ++ toString b ++ " -> " ++ toString a)

/-- Tries a trade out on a router. -/
def Trial.report (t : Trial) (r : Router) : Report :=
  match TradeEntry.ofName? t.entry with
  | none => .failed ("未知的交易入口: " ++ t.entry)
  | some entry =>
    match Path.ofHex t.hex.toList with
    | .error e => .failed e.message
    | .ok path =>
      let args : TradeArgs := ⟨t.amount, t.limit.getD (loosestLimit entry.direction), path⟩
      match (Router.call t.caller (args.encode entry.operation)).outcome r with
      | (.ok output, r') =>
        let settled := (Amount.ofWord? output).getD 0
        .printed ((entry.name ++ " settled=" ++ toString settled) :: balanceLines t.caller r.ledger r'.ledger path.tokens)
      | (.error e, _) =>
        ⟨Report.lines [entry.name ++ " reverted [" ++ e.category.name ++ "]: " ++ e.message], some e.message⟩

/-- Answers a question on the router that the settings launch. -/
def launched (s : Config.Settings) (answer : Router → Report) : Report :=
  match s.launch with
  | .error e => .failed e.message
  | .ok r => answer r

/-- Answers a question. -/
def Question.report (s : Config.Settings) : Question → Report
  | path q => .ofExcept q.answer
  | fee q => .ofExcept ((q.answer s.flash).mapError FeeError.message)
  | operations => launched s fun r => .printed (operationLines r.registry)
  | simulate t => launched s t.report

end MarginRouter.Command
