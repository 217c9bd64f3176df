/-
# Command.Execution -- doing what the options ask for

The catalog is loaded, then the profile, then the program is generated; nothing is
made before all of that has succeeded.  Then the output directory and the files are
made in order, up to the first failure.
-/
import Rv32Stimulus.Command.Options
import Rv32Stimulus.Command.Outputs
import Rv32Stimulus.Isa.Base
import Rv32Stimulus.Isa.CatalogText
import Rv32Stimulus.Program.Generation

namespace Rv32Stimulus.Command

set_option autoImplicit false

/-- Why a command came to nothing; paths are as the options give them. -/
inductive RunError where
  | unreadableCatalog (path : String)
  | invalidCatalog (path : String) (cause : CatalogTextError)
  | unreadableProfile (path : String)
  | invalidProfile (path : String) (cause : ProfileTextError)
  | undrawable (cause : Random.DrawError)
  | ungenerated (cause : GenerateError)
  | noDirectory (path : String)
  | notCreated (path : String)
  | notWritten (path : String)
  deriving DecidableEq

def RunError.message : RunError → String
  | unreadableCatalog path => "Failed to read catalog " ++ path
  | invalidCatalog path _ => "Invalid catalog " ++ path
  | unreadableProfile path => "Failed to read configuration " ++ path
  | invalidProfile path _ => "Invalid configuration " ++ path
  | undrawable _ => "Weights add up to infinity"
  | ungenerated _ => "Failed to generate instruction sequence"
  | noDirectory path => "Failed to create output directory " ++ path
  | notCreated path => "Failed to create " ++ path
  | notWritten path => "Failed to write " ++ path

/-- What lies behind the failure, where the command knows more than its kind. -/
def RunError.detail? : RunError → Option String
  | invalidCatalog _ cause => some (cause.message?.getD "The catalog is not a JSON document")
  | invalidProfile _ cause => some (cause.message?.getD "The configuration is not a JSON document")
  | ungenerated cause => some (cause.message ++ ": " ++ cause.reason.message)
  | _ => none

variable {m : Type → Type} [Monad m]

/-- The catalog at the path, or the built-in one. -/
def loadCatalog (around : Surroundings m) : Option String → ExceptT RunError m Catalog
  | none => pure .rv32i
  | some path => do
      match ← around.readText path with
      | none => throw (.unreadableCatalog path)
      | some content =>
          match Catalog.ofText content with
          | .ok catalog => pure catalog
          | .error cause => throw (.invalidCatalog path cause)

/-- The profile at the path, or the stock one. -/
def loadProfile (around : Surroundings m) : Option String → ExceptT RunError m Profile
  | none => pure .standard
  | some path => do
      match ← around.readText path with
      | none => throw (.unreadableProfile path)
      | some content =>
          match Profile.ofText content with
          | .ok profile => pure profile
          | .error cause => throw (.invalidProfile path cause)

/-- The program of a fresh generator. -/
def generate (catalog : Catalog) (profile : Profile) (seed : UInt64) (length : Nat) :
    Except RunError Program :=
  match (Generator.ofSeed catalog profile seed).generate length with
  | .ok (.ok program, _) => .ok program
  | .ok (.error cause, _) => .error (.ungenerated cause)
  | .error cause => .error (.undrawable cause)

/-- The program that the options ask for. -/
def prepare (around : Surroundings m) (options : Options) : ExceptT RunError m Program := do
  let catalog ← loadCatalog around options.catalogPath
  let profile ← loadProfile around options.profilePath
  let seed ← match options.seed with
    | some seed => pure seed
    | none => around.freshSeed
  match generate catalog profile seed options.length with
  | .ok program => pure program
  | .error cause => throw cause

def write (around : Surroundings m) (output : Output) : ExceptT RunError m Unit := do
  match ← around.writeText output.path output.content with
  | .written => pure ()
  | .notCreated =>
      throw (if output.tellsCreation then .notCreated output.path else .notWritten output.path)
  | .notWritten => throw (.notWritten output.path)

/-- Write the files of a program into the output directory. -/
def writeAll (around : Surroundings m) (program : Program) (options : Options) :
    ExceptT RunError m Unit := do
  if ← around.makeDirectories options.directory then
    for output in outputs program options.directory options.stem do
      write around output
  else throw (.noDirectory options.directory)

/-- Do what the options ask for; what is given back is the program as it was written. -/
def execute (around : Surroundings m) (options : Options) : ExceptT RunError m Program := do
  let program ← prepare around options
  let program := program.withTimestamp (← around.now)
  writeAll around program options
  return program

end Rv32Stimulus.Command
