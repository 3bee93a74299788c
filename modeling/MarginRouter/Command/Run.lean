import MarginRouter.Command.Report
import MarginRouter.Config.ListenAddress
import MarginRouter.Config.Template
import MarginRouter.Config.Text
import MarginRouter.Files.Basic

/-!
# Runs

A run reads its arguments, then the settings, and then does what the command says. A fault of usage is found before the settings
are read, and a fault in the settings before the command begins.
-/

namespace MarginRouter.Command

/-- Why there are no settings to run with. -/
inductive SettingsFault where
  | unreadable (file : String) (fault : FileFault)
  | unparsable (file : String)

def SettingsFault.message : SettingsFault → String
  | unreadable file fault => "读取配置 " ++ file ++ " 失败: " ++ fault.message
  | unparsable file => "解析配置 " ++ file ++ " 失败"

/-- How a run ends. -/
inductive Outcome where
  | misused (fault : UsageFault)
  | unsettled (fault : SettingsFault)
  | reported (report : Report)

/-- The name of the file that holds settings. -/
def settingsFile : String := "composer.toml"

/-- Where settings are looked for: in the file that is named, or else in the usual ones, of which the first that is there
counts. -/
def settingsFiles : Option String → List String
  | some file => [file]
  | none => [settingsFile, Files.inside "config" settingsFile]

variable {m : Type → Type} [Monad m] [MonadExcept FileFault m] [Files m]

/-- Carries out operations on files, and catches their fault. -/
def attempt {α : Type} (operations : m α) : m (Except FileFault α) :=
  tryCatch (return .ok (← operations)) fun fault => return .error fault

/-- Reads the settings in a file. -/
def settingsIn (file : String) : m (Except SettingsFault Config.Settings) := do
  match ← attempt (Files.read file) with
  | .error fault => return .error (.unreadable file fault)
  | .ok text =>
    match Config.Settings.ofText? text with
    | none => return .error (.unparsable file)
    | some s => return .ok s

/-- Reads the settings in the first of these files that is there; without any, the usual settings hold. -/
def settingsOf : List String → m (Except SettingsFault Config.Settings)
  | [] => return .ok .default
  | file :: files => do
    if ← Files.isThere file then settingsIn file else settingsOf files

/-- Writes the template of the settings into a directory. -/
def writeTemplate (directory : Option String) (force : Bool) : m (List String) := do
  let directory ← match directory with
    | some name => pure name
    | none => Files.here
  Files.makeDirectories directory
  let file := Files.inside directory settingsFile
  if !force && (← Files.isThere file) then return ["跳过 " ++ file ++ "（文件已存在，如需覆盖请加 --force）"]
  Files.write file Config.template
  return ["已写入 " ++ file]

/-- Does what is asked. -/
def Job.report (s : Config.Settings) : Job → m Report
  | ask question => return question.report s
  | init directory force => do
    match ← attempt (writeTemplate directory force) with
    | .ok lines => return .printed lines
    | .error fault => return .failed fault.message

/-- Counters are published at an address, which must be one if they are published at all. -/
def listenFault? (s : Config.Settings) : Option String :=
  if s.metrics.enable ∧ !Config.ListenAddress.isValid s.metrics.listen then
    some ("invalid prometheus listen address: " ++ s.metrics.listen)
  else none

/-- Runs with these arguments. -/
def run (arguments : List String) : m Outcome := do
  match Invocation.ofArguments arguments with
  | .error fault => return .misused fault
  | .ok invocation =>
    match ← settingsOf (settingsFiles invocation.settings) with
    | .error fault => return .unsettled fault
    | .ok s =>
      match listenFault? s with
      | some message => return .reported (.failed message)
      | none => return .reported (← invocation.job.report s)

end MarginRouter.Command
