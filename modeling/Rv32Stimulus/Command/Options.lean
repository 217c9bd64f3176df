/-
# Command.Options -- the arguments of the command line

An option takes one value, either attached (`--seed=17`, `-n25`, `-n=25`) or as the next
argument; the next argument is a value only if it does not look like an option.  No
option may come twice, and nothing else may stand on the line.

An option waits for its value and is settled when the next option starts or the line
ends.  So an argument that is not known shows before a bad value that waits, and a
second occurrence before the value it has.  The seed may come from the environment,
which is looked at only if the line names none.
-/
import Rv32Stimulus.Text.Digits

namespace Rv32Stimulus.Command

set_option autoImplicit false

/-- What the command line asks for. -/
structure Options where
  /-- How many instructions. -/
  length : Nat := 100
  /-- How the names of the output files begin. -/
  stem : String := "test"
  directory : String := "tests"
  seed : Option UInt64 := none
  catalogPath : Option String := none
  profilePath : Option String := none
  deriving DecidableEq, Repr

/-- Why the arguments ask for nothing that can be done. -/
inductive UsageError where
  | help
  | version
  | unknownArgument
  | repeatedOption
  | missingValue
  | unwantedValue
  | invalidNumber
  deriving DecidableEq, Repr

/-- The options that take a value. -/
inductive Key where
  | length
  | stem
  | directory
  | seed
  | catalog
  | profile
  deriving DecidableEq, Repr

/-- What an option name stands for. -/
inductive Meaning where
  | key (key : Key)
  | help
  | version
  deriving DecidableEq, Repr

def Meaning.ofName? : String → Option Meaning
  | "num-instructions" => some (.key .length)
  | "output" => some (.key .stem)
  | "out-dir" => some (.key .directory)
  | "seed" => some (.key .seed)
  | "metadata" => some (.key .catalog)
  | "config" => some (.key .profile)
  | "help" => some .help
  | "version" => some .version
  | _ => none

def Meaning.ofLetter? : Char → Option Meaning
  | 'n' => some (.key .length)
  | 'o' => some (.key .stem)
  | 'h' => some .help
  | 'V' => some .version
  | _ => none

/-! ## Values -/

/-- A number below `2 ^ 64`, perhaps with a plus sign. -/
def number? (content : String) : Option Nat :=
  let digits := match content.toList with
    | '+' :: digits => digits
    | digits => digits
  match Text.value? 10 digits with
  | some value => if value ≤ 0xffffffffffffffff then some value else none
  | none => none

def readNumber (content : String) : Except UsageError Nat :=
  match number? content with
  | some value => .ok value
  | none => .error .invalidNumber

def readSeed (content : String) : Except UsageError UInt64 := UInt64.ofNat <$> readNumber content

/-- A path is not empty. -/
def readPath (content : String) : Except UsageError String :=
  if content.isEmpty then .error .missingValue else .ok content

/-- The values settled so far. -/
structure Given where
  length : Option Nat := none
  stem : Option String := none
  directory : Option String := none
  seed : Option UInt64 := none
  catalogPath : Option String := none
  profilePath : Option String := none
  deriving DecidableEq, Repr

namespace Given

/-- A value for an option that has none yet. -/
def once {α : Type} (old : Option α) (value : Except UsageError α) : Except UsageError (Option α) :=
  if old.isSome then .error .repeatedOption else some <$> value

def set (given : Given) (key : Key) (value : String) : Except UsageError Given :=
  match key with
  | .length => do return { given with length := ← once given.length (readNumber value) }
  | .stem => do return { given with stem := ← once given.stem (.ok value) }
  | .directory => do return { given with directory := ← once given.directory (readPath value) }
  | .seed => do return { given with seed := ← once given.seed (readSeed value) }
  | .catalog => do return { given with catalogPath := ← once given.catalogPath (readPath value) }
  | .profile => do return { given with profilePath := ← once given.profilePath (readPath value) }

def toOptions (given : Given) : Options :=
  let defaults : Options := {}
  { length := given.length.getD defaults.length
    stem := given.stem.getD defaults.stem
    directory := given.directory.getD defaults.directory
    seed := given.seed
    catalogPath := given.catalogPath
    profilePath := given.profilePath }

end Given

/-! ## Arguments in order -/

/-- An option that is not settled yet. -/
inductive Waiting where
  | nothing
  /-- No value yet. -/
  | bare (key : Key)
  | valued (key : Key) (value : String)
  deriving DecidableEq, Repr

structure Line where
  given : Given := {}
  waiting : Waiting := .nothing
  deriving DecidableEq, Repr

namespace Line

/-- The values once the waiting option is settled. -/
def settled (line : Line) : Except UsageError Given :=
  match line.waiting with
  | .nothing => .ok line.given
  | .bare _ => .error .missingValue
  | .valued key value => line.given.set key value

/-- An option starts; `attached` is the value in the same argument. -/
def start (line : Line) (key : Key) (attached : Option String) : Except UsageError Line := do
  let given ← line.settled
  match attached with
  | some value => return { given := ← given.set key value }
  | none => return { given, waiting := .bare key }

/-- An argument that is no option. -/
def word (line : Line) (argument : String) : Except UsageError Line :=
  match line.waiting with
  | .bare key => .ok { line with waiting := .valued key argument }
  | _ => .error .unknownArgument

/-- A request that ends the line. -/
def stop (line : Line) (request : UsageError) : Except UsageError Line := do
  let _ ← line.settled
  .error request

/-- An argument after two hyphens: a name, and what follows the first equals sign. -/
def long (line : Line) (argument : List Char) : Except UsageError Line :=
  let name := String.ofList (argument.takeWhile (· != '='))
  let attached := match argument.dropWhile (· != '=') with
    | [] => none
    | _ :: value => some (String.ofList value)
  match Meaning.ofName? name with
  | none => .error .unknownArgument
  | some (.key key) => line.start key attached
  | some .help => if attached.isSome then .error .unwantedValue else line.stop .help
  | some .version => if attached.isSome then .error .unwantedValue else line.stop .version

/-- What follows an option letter: nothing, or a value after perhaps an equals sign. -/
def attachedValue : List Char → Option String
  | [] => none
  | '=' :: value => some (String.ofList value)
  | value => some (String.ofList value)

/-- An argument after one hyphen. -/
def short (line : Line) (letter : Char) (rest : List Char) : Except UsageError Line :=
  match Meaning.ofLetter? letter with
  | none => .error .unknownArgument
  | some (.key key) => line.start key (attachedValue rest)
  | some .help => line.stop .help
  | some .version => line.stop .version

def argument (line : Line) (content : String) : Except UsageError Line :=
  match content.toList with
  | '-' :: '-' :: name => line.long name
  | '-' :: letter :: rest => line.short letter rest
  | _ => line.word content

/-- Go through the arguments; nothing may follow a lone `--`. -/
def arguments (line : Line) : List String → Except UsageError Line
  | [] => .ok line
  | ["--"] => .ok line
  | "--" :: _ => .error .unknownArgument
  | content :: rest => do arguments (← line.argument content) rest

end Line

/-- The options that arguments and the environment ask for. -/
def Options.ofArguments (arguments : List String) (environmentSeed : Option String) :
    Except UsageError Options := do
  let line ← Line.arguments {} arguments
  let given ← line.settled
  match given.seed, environmentSeed with
  | none, some content => return { given with seed := some (← readSeed content) }.toOptions
  | _, _ => return given.toOptions

example : Options.ofArguments ["-n25", "--seed", "+7"] (some "x") =
    .ok { length := 25, seed := some 7 } := by rfl
example : Options.ofArguments ["-n", "x", "--bogus"] none = .error .unknownArgument := by
  rfl
example : Options.ofArguments ["-n"] none = .error .missingValue := by rfl

end Rv32Stimulus.Command
