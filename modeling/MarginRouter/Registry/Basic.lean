import Std.Data.ExtTreeSet
import MarginRouter.Engine.Execute
import MarginRouter.Registry.Error

/-!
# The registry of modules

A module carries out operations. The registry says which module owns which operation, and is changed in batches of cuts, all
of them or none. It is kept twice: by operation and by module.
-/

namespace MarginRouter

/-- A call on its way to a module: the arguments are what follows the identifier. -/
structure Call where
  caller : Address
  operation : OperationId
  args : List UInt8

/-- A module: its address, by which modules are told apart, the operations it is made for, and what a call does. -/
structure Module where
  address : Address
  name : String
  operations : List OperationId
  invoke : Engine → Call → Step CallError World (List UInt8)

/-- A registered module and the operations it owns. -/
structure ModuleRecord where
  module : Module
  operations : Std.ExtTreeSet OperationId

/-- What a cut does to the operations it lists. -/
inductive CutAction where
  | add
  | replace
  | remove
  deriving DecidableEq, Repr

/-- One change: new owners for operations, or none. -/
structure Cut where
  action : CutAction
  module : Option Module
  operations : List OperationId

/-- The cut that adds all operations of a module. -/
def Module.addAll (m : Module) : Cut :=
  ⟨.add, some m, m.operations⟩

/-- The owner of each operation, and the module and operations of each owner. -/
structure Registry where
  admin : Address
  owners : Std.ExtTreeMap OperationId Address
  records : Std.ExtTreeMap Address ModuleRecord

namespace Registry

/-- A registry without modules. -/
def new (admin : Address) : Registry := ⟨admin, ∅, ∅⟩

/-- The address of the module that owns an operation. -/
def moduleOf (r : Registry) (operation : OperationId) : Option Address :=
  r.owners[operation]?

/-- The module that owns an operation. -/
def resolve (r : Registry) (operation : OperationId) : Option Module :=
  match r.owners[operation]? with
  | none => none
  | some owner => r.records[owner]?.map ModuleRecord.module

/-- The operations a module owns, in order. -/
def operationsOf (r : Registry) (address : Address) : List OperationId :=
  match r.records[address]? with
  | none => []
  | some record => record.operations.toList

/-- The addresses of the modules that own an operation, in order. -/
def modules (r : Registry) : List Address :=
  r.records.keys

/-- Gives an operation to a module. A module that is registered already under this address stays the one that is called. -/
def assign (r : Registry) (operation : OperationId) (m : Module) : Registry :=
  let record := r.records[m.address]?.getD ⟨m, ∅⟩
  { r with
    owners := r.owners.insert operation m.address
    records := r.records.insert m.address { record with operations := record.operations.insert operation } }

/-- Takes an operation from its owner; a module without operations is forgotten. -/
def release (r : Registry) (operation : OperationId) : Registry :=
  match r.owners[operation]? with
  | none => r
  | some owner =>
    let owners := r.owners.erase operation
    match r.records[owner]? with
    | none => { r with owners }
    | some record =>
      let operations := record.operations.erase operation
      if operations.isEmpty then { r with owners, records := r.records.erase owner }
      else { r with owners, records := r.records.insert owner { record with operations } }

/-- Gives a module an operation that nobody owns. -/
def addOne (m : Module) (r : Registry) (operation : OperationId) : Except RegistryError Registry :=
  match r.owners[operation]? with
  | some owner => .error (.alreadyOwned operation owner)
  | none => .ok (r.assign operation m)

/-- Gives a module an operation that another module owns. -/
def replaceOne (m : Module) (r : Registry) (operation : OperationId) : Except RegistryError Registry :=
  match r.owners[operation]? with
  | none => .error (.replaceUnowned operation)
  | some owner =>
    if owner = m.address then .error (.replaceSame operation owner)
    else .ok ((r.release operation).assign operation m)

/-- Makes one change. -/
def apply (r : Registry) (c : Cut) : Except RegistryError Registry :=
  if c.operations = [] then .error .emptyCut
  else match c.action, c.module with
    | .add, some m => c.operations.foldlM (addOne m) r
    | .replace, some m => c.operations.foldlM (replaceOne m) r
    | .remove, none => .ok (c.operations.foldl release r)
    | .remove, some m => .error (.removeWithImplementation m.address)
    | _, none => .error .missingImplementation

/-- Only the administrator may change the registry. -/
def checkAdmin (r : Registry) (caller : Address) : Except RegistryError Unit :=
  if caller = r.admin then .ok () else .error (.notAdministrator caller)

/-- Makes all changes of a batch, or none. -/
def configure (r : Registry) (caller : Address) (cuts : List Cut) : Except RegistryError Registry := do
  r.checkAdmin caller
  cuts.foldlM apply r

/-- Makes another account the administrator. -/
def transferAdmin (r : Registry) (caller admin : Address) : Except RegistryError Registry := do
  r.checkAdmin caller
  return { r with admin }

end Registry

end MarginRouter
