/-
# Proofs.Command.Execution -- all or nothing, and then four files that agree

Until a program is there, the command only reads (`run_prepare`): a bad catalog, a bad profile or a
failed generation leaves the store as it was, and the first of them in this order is what is
reported.  After that it only writes.  If every write succeeds, the four files of the program are
in the output directory and nothing else has changed but for the directories on the way there
(`Store.Delivered`), and the files agree (`Program.TextsAgree`).
-/
import Rv32Stimulus.Command.Execution
import Rv32Stimulus.Proofs.Command.Delivery
import Rv32Stimulus.Proofs.Command.Outputs

namespace Rv32Stimulus.Command

set_option autoImplicit false

/-! ## What the options name -/

namespace Surroundings

variable (around : Surroundings (StateM Store))

/-- What comes of a document that the options may name; without a name it is the stock one. -/
def document {α ε : Type} (stock : α) (parse : String → Except ε α) (unreadable : String → RunError)
    (invalid : String → ε → RunError) (store : Store) : Option String → Except RunError α
  | none => .ok stock
  | some path =>
      match ((around.readText path).run store).1 with
      | none => .error (unreadable path)
      | some content =>
          match parse content with
          | .ok value => .ok value
          | .error cause => .error (invalid path cause)

def catalog (store : Store) (path? : Option String) : Except RunError Catalog :=
  around.document .rv32i Catalog.ofText .unreadableCatalog .invalidCatalog store path?

def profile (store : Store) (path? : Option String) : Except RunError Profile :=
  around.document .standard Profile.ofText .unreadableProfile .invalidProfile store path?

/-- The seed that the options name, or a fresh one. -/
def seed (store : Store) (options : Options) : UInt64 :=
  options.seed.getD (around.freshSeed.run store).1

def time (store : Store) : String := (around.now.run store).1

end Surroundings

/-- What the command comes to in a store, and the store after it. -/
def outcome (around : Surroundings (StateM Store)) (options : Options) (store : Store) :
    Except RunError Program × Store :=
  (execute around options).run.run store

/-! ## One command after the other -/

section Sequence

variable {α β : Type} {first : ExceptT RunError (StateM Store) α}
  {next : α → ExceptT RunError (StateM Store) β} {store after : Store}

theorem run_bind_ok {value : α} (came : first.run.run store = (.ok value, after)) :
    (first >>= next).run.run store = (next value).run.run after := by
  change (match first.run.run store with
    | (result, after) => (ExceptT.bindCont next result).run after) = _
  rw [came]
  rfl

theorem run_bind_error {fault : RunError} (came : first.run.run store = (.error fault, after)) :
    (first >>= next).run.run store = (.error fault, after) := by
  change (match first.run.run store with
    | (result, after) => (ExceptT.bindCont next result).run after) = _
  rw [came]
  rfl

theorem run_lift (effect : StateM Store α) (store : Store) :
    (liftM effect : ExceptT RunError (StateM Store) α).run.run store =
      (.ok (effect.run store).1, (effect.run store).2) := rfl

end Sequence

/-! ## Reading -/

variable {around : Surroundings (StateM Store)}

theorem run_read {α : Type} (honest : around.Honest) (path : String)
    (next : Option String → ExceptT RunError (StateM Store) α) (store : Store) :
    (liftM (around.readText path) >>= next).run.run store =
      (next ((around.readText path).run store).1).run.run store := by
  rw [run_bind_ok (run_lift _ store), honest.reads]

theorem run_loadCatalog (honest : around.Honest) (store : Store) (path? : Option String) :
    (loadCatalog around path?).run.run store = (around.catalog store path?, store) := by
  unfold loadCatalog Surroundings.catalog Surroundings.document
  cases path? with
  | none => rfl
  | some path =>
      dsimp only
      rw [run_read honest]
      cases ((around.readText path).run store).1 with
      | none => rfl
      | some content =>
          dsimp only
          cases Catalog.ofText content <;> rfl

theorem run_loadProfile (honest : around.Honest) (store : Store) (path? : Option String) :
    (loadProfile around path?).run.run store = (around.profile store path?, store) := by
  unfold loadProfile Surroundings.profile Surroundings.document
  cases path? with
  | none => rfl
  | some path =>
      dsimp only
      rw [run_read honest]
      cases ((around.readText path).run store).1 with
      | none => rfl
      | some content =>
          dsimp only
          cases Profile.ofText content <;> rfl

theorem run_generate (catalog : Catalog) (profile : Profile) (seed : UInt64) (length : Nat)
    (store : Store) :
    (match generate catalog profile seed length with
      | .ok program => pure program
      | .error cause => throw cause : ExceptT RunError (StateM Store) Program).run.run store =
      (generate catalog profile seed length, store) := by
  cases generate catalog profile seed length <;> rfl

/-- The program that the options ask for, as far as the store has what they name. -/
def prepared (around : Surroundings (StateM Store)) (options : Options) (store : Store) :
    Except RunError Program := do
  let catalog ← around.catalog store options.catalogPath
  let profile ← around.profile store options.profilePath
  generate catalog profile (around.seed store options) options.length

theorem run_prepare (honest : around.Honest) (options : Options) (store : Store) :
    (prepare around options).run.run store = (prepared around options store, store) := by
  unfold prepare prepared
  have catalogRun := run_loadCatalog honest store options.catalogPath
  have profileRun := run_loadProfile honest store options.profilePath
  cases catalogCame : around.catalog store options.catalogPath with
  | error fault =>
      rw [catalogCame] at catalogRun
      exact run_bind_error catalogRun
  | ok catalog =>
      rw [catalogCame] at catalogRun
      rw [run_bind_ok catalogRun]
      cases profileCame : around.profile store options.profilePath with
      | error fault =>
          rw [profileCame] at profileRun
          exact run_bind_error profileRun
      | ok profile =>
          rw [profileCame] at profileRun
          rw [run_bind_ok profileRun]
          unfold Surroundings.seed
          cases options.seed with
          | some seed => exact run_generate catalog profile seed options.length store
          | none =>
              dsimp only
              rw [run_bind_ok (run_lift _ store), honest.draws]
              exact run_generate catalog profile _ options.length store

/-! ## Writing -/

theorem run_write (honest : around.Honest) {output : Output} {store : Store}
    (written : ((around.writeText output.path output.content).run store).1 = .written) :
    (write around output).run.run store =
      (.ok (), (store.writeText output.path output.content).2) := by
  have effect := honest.writes _ _ _ written
  rw [effect] at written
  unfold write
  rw [run_bind_ok (run_lift _ store), effect, written]
  rfl

theorem run_forIn_write (honest : around.Honest) {all : List Output} {store : Store}
    (writes : around.Writes all store) :
    (forIn all PUnit.unit fun output _ => do
      write around output
      pure (ForInStep.yield PUnit.unit) : ExceptT RunError (StateM Store) PUnit).run.run store =
      (.ok PUnit.unit, store.writeOutputs all) := by
  induction all generalizing store with
  | nil => rfl
  | cons output rest ih =>
      obtain ⟨first, later⟩ := writes
      rw [honest.writes _ _ _ first] at later
      have once : ((do
          write around output
          pure (ForInStep.yield PUnit.unit)) :
            ExceptT RunError (StateM Store) (ForInStep PUnit)).run.run store =
          (.ok (.yield PUnit.unit), (store.writeText output.path output.content).2) := by
        rw [run_bind_ok (run_write honest first)]
        rfl
      rw [List.forIn_cons, run_bind_ok once]
      exact ih later

theorem run_writeAll (honest : around.Honest) {options : Options} {program : Program}
    {store : Store} (writes : around.WritesAll options program store) :
    (writeAll around program options).run.run store =
      (.ok (), (store.makeDirectories options.directory).2.writeOutputs
        (outputs program options.directory options.stem)) := by
  obtain ⟨made, written⟩ := writes
  have effect := honest.makes _ _ made
  rw [effect] at made written
  unfold writeAll
  rw [run_bind_ok (run_lift _ store), effect, made, if_pos rfl,
    run_bind_ok (run_forIn_write honest written)]
  rfl

/-! ## The command -/

theorem run_execute (honest : around.Honest) (options : Options) (store : Store) :
    outcome around options store = match prepared around options store with
      | .error fault => (.error fault, store)
      | .ok program =>
          let program := program.withTimestamp (around.time store)
          match (writeAll around program options).run.run store with
          | (.ok _, after) => (.ok program, after)
          | (.error fault, after) => (.error fault, after) := by
  have ran := run_prepare honest options store
  unfold outcome execute
  cases came : prepared around options store with
  | error fault =>
      rw [came] at ran
      exact run_bind_error ran
  | ok program =>
      rw [came] at ran
      rw [run_bind_ok ran, run_bind_ok (run_lift _ store), honest.tells]
      dsimp only [Surroundings.time]
      generalize program.withTimestamp (around.now.run store).1 = program
      cases wrote : (writeAll around program options).run.run store with
      | mk result after =>
          cases result with
          | ok _ => exact run_bind_ok wrote
          | error fault => exact run_bind_error wrote

theorem generate_eq_ok {catalog : Catalog} {profile : Profile} {seed : UInt64} {length : Nat}
    {program : Program} (came : generate catalog profile seed length = .ok program) :
    ∃ after, (Generator.ofSeed catalog profile seed).generate length = .ok (.ok program, after) := by
  unfold generate at came
  split at came
  · rename_i given
    obtain rfl := Except.ok.inj came
    exact ⟨_, given⟩
  · cases came
  · cases came

/-- A catalog or a profile that cannot be had, the catalog first, and a generation that fails, are
reported and change nothing.  A program that is there and can be written is in the output directory
afterwards, in four files that agree, and all else is as it was. -/
theorem all_or_nothing_up_to_writing (honest : around.Honest) (options : Options) (store : Store) :
    (∀ fault, around.catalog store options.catalogPath = .error fault →
      outcome around options store = (.error fault, store)) ∧
    (∀ catalog fault, around.catalog store options.catalogPath = .ok catalog →
      around.profile store options.profilePath = .error fault →
      outcome around options store = (.error fault, store)) ∧
    (∀ catalog profile fault, around.catalog store options.catalogPath = .ok catalog →
      around.profile store options.profilePath = .ok profile →
      generate catalog profile (around.seed store options) options.length = .error fault →
      outcome around options store = (.error fault, store)) ∧
    (∀ catalog profile bare program, around.catalog store options.catalogPath = .ok catalog →
      around.profile store options.profilePath = .ok profile →
      generate catalog profile (around.seed store options) options.length = .ok bare →
      program = bare.withTimestamp (around.time store) →
      Plain options.stem → catalog.OneLine → around.WritesAll options program store →
      ∃ after source hex binary manifest,
        outcome around options store = (.ok program, after) ∧
        store.Delivered options.directory options.stem source hex binary manifest after ∧
        program.instructions.length = options.length ∧
        program.manifest.seed = around.seed store options ∧
        program.TextsAgree source hex binary manifest) := by
  rw [run_execute honest]
  unfold prepared
  refine ⟨?_, ?_, ?_, ?_⟩
  · intro fault bad
    rw [bad]
    rfl
  · intro catalog fault good bad
    rw [good, bad]
    rfl
  · intro catalog profile fault good fine failed
    rw [good, fine]
    simp only [bind, Except.bind, failed]
  · intro catalog profile bare program good fine came stamped plain mnemonics writes
    rw [good, fine]
    simp only [bind, Except.bind, came, ← stamped, run_writeAll honest writes]
    obtain ⟨_, given⟩ := generate_eq_ok came
    have recorded : program.Recorded (around.seed store options) options.length := by
      rw [stamped]
      exact (Generator.recorded given mnemonics).withTimestamp _
    have timed : program.manifest.timestamp = some (around.time store) := by
      rw [stamped]
      rfl
    exact ⟨_, _, _, _, _, rfl, Store.delivered honest plain writes, recorded.size, recorded.seed,
      recorded.textsAgree timed (honest.clock store)⟩

/-- An empty working directory. -/
def emptyStore : Store := ⟨["home"], [["home"]], []⟩

/-- Two instructions of the seed 7, into a directory that is not there yet. -/
def pairOptions : Options := { length := 2, stem := "pair", directory := "out/", seed := some 7 }

theorem all_or_nothing_up_to_writing_pair :
    ∃ program after source hex binary manifest,
      outcome (Store.surroundings "2024-01-01 00:00:00" 0) pairOptions emptyStore =
        (.ok program, after) ∧
      emptyStore.Delivered "out/" "pair" source hex binary manifest after ∧
      program.instructions.length = 2 ∧ program.manifest.seed = 7 ∧
      program.TextsAgree source hex binary manifest ∧
      outcome (Store.surroundings "2024-01-01 00:00:00" 0)
          { pairOptions with catalogPath := some "none.json", profilePath := some "none.json" }
          emptyStore = (.error (.unreadableCatalog "none.json"), emptyStore) := by
  have honest : (Store.surroundings "2024-01-01 00:00:00" 0).Honest :=
    Store.honest_surroundings (by decide) 0
  have observed : (Generator.ofSeed .rv32i .standard 7).observe 2 (fun _ => ()) = some () := by
    decide +kernel
  obtain ⟨bare, after, given, -⟩ := Generator.exists_of_observe observed
  have came : generate .rv32i .standard 7 2 = .ok bare := by
    rw [generate, given]
  have mnemonics : Catalog.rv32i.OneLine := by
    unfold Catalog.OneLine
    decide +kernel
  have writes : (Store.surroundings "2024-01-01 00:00:00" 0).WritesAll pairOptions
      (bare.withTimestamp "2024-01-01 00:00:00") emptyStore :=
    Store.writesAll_surroundings (by decide) (by decide +kernel) (by decide +kernel) _ 0 _
  obtain ⟨-, -, -, delivers⟩ := all_or_nothing_up_to_writing honest pairOptions emptyStore
  obtain ⟨missing, -⟩ := all_or_nothing_up_to_writing honest
    { pairOptions with catalogPath := some "none.json", profilePath := some "none.json" } emptyStore
  obtain ⟨after, source, hex, binary, manifest, came, delivered, size, seed, agree⟩ :=
    delivers _ _ bare _ rfl rfl came rfl (by decide) mnemonics writes
  exact ⟨_, after, source, hex, binary, manifest, came, delivered, size, seed, agree,
    missing _ (by decide +kernel)⟩

end Rv32Stimulus.Command
