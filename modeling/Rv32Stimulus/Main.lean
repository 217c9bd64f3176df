/-
# Main -- the command line

Reads the arguments and the environment, does what they ask for on the files of the
machine, and reports.  A wrong command line ends with status 2, a command that came to
nothing with status 1.
-/
import Rv32Stimulus.Command.Execution
import Std.Time.Format

namespace Rv32Stimulus

set_option autoImplicit false

open Command

/-- The variable that may hold the seed. -/
def seedVariable : String := "RISCV_FUZZ_SEED"

def usageText : String :=
  "Usage: rv32-stimulus [OPTIONS]\n\n" ++
  "Options:\n" ++
  "  -n, --num-instructions <N>  Number of instructions to generate [default: 100]\n" ++
  "  -o, --output <NAME>         Prefix of the output files [default: test]\n" ++
  "      --out-dir <DIR>         Directory the output files are written to [default: tests]\n" ++
  "      --seed <SEED>           Seed for reproducible output [env: RISCV_FUZZ_SEED]\n" ++
  "      --metadata <PATH>       Instruction catalog; built-in RV32I when omitted\n" ++
  "      --config <PATH>         Generation configuration; built-in defaults when omitted\n" ++
  "  -h, --help                  Print help\n" ++
  "  -V, --version               Print version"

/-- What a wrong command line is told. -/
def complaint : UsageError → String
  | .unknownArgument => "error: unexpected argument found"
  | .repeatedOption => "error: an option cannot be used multiple times"
  | .missingValue => "error: a value is required for an option but none was supplied"
  | .unwantedValue => "error: unexpected value for an option that takes none"
  | .invalidNumber => "error: invalid value for an option: not a number in its range"
  | .help | .version => ""

/-- Whether `action` came to its end. -/
def succeeds (action : IO Unit) : IO Bool := do
  try
    action
    return true
  catch _ => return false

def writeOnDisk (path content : String) : IO WriteOutcome := do
  let opened ← try
      some <$> IO.FS.Handle.mk path .write
    catch _ => pure none
  match opened with
  | none => return .notCreated
  | some handle =>
      if ← succeeds (do handle.putStr content; handle.flush) then return .written
      else return .notWritten

/-- Eight random bytes as a number. -/
def seedFromSystem : IO UInt64 := do
  let bytes ← IO.getRandomBytes 8
  return bytes.toList.foldl (fun seed byte => seed * 256 + byte.toUInt64) 0

def machine : Surroundings IO where
  readText path := do
    try
      some <$> IO.FS.readFile path
    catch _ => pure none
  makeDirectories path := succeeds (IO.FS.createDirAll path)
  writeText := writeOnDisk
  now := do return (← Std.Time.PlainDateTime.now).format "uuuu-MM-dd HH:mm:ss"
  freshSeed := seedFromSystem

end Rv32Stimulus

open Rv32Stimulus Command in
def main (arguments : List String) : IO UInt32 := do
  match Options.ofArguments arguments (← IO.getEnv seedVariable) with
  | .error .help => IO.println usageText; return 0
  | .error .version => IO.println ("rv32-stimulus " ++ Manifest.generatorVersion); return 0
  | .error fault =>
      IO.eprintln (complaint fault)
      return 2
  | .ok options =>
      match ← (execute machine options).run with
      | .ok _ => return 0
      | .error fault =>
          IO.eprintln ("Error: " ++ fault.message)
          for detail in fault.detail? do
            IO.eprintln ("\nCaused by:\n    " ++ detail)
          return 1
