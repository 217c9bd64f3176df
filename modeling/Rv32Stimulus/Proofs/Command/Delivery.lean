/-
# Proofs.Command.Delivery -- four files in a directory, and nothing else

Surroundings are honest if they do to a store what they report (`Surroundings.Honest`); what they
cannot read, make or write is up to them.  In honest surroundings, if the output directory is
made and all outputs of a program are written one after the other (`Surroundings.WritesAll`), the
four files stand in the directory, and nothing else has changed but for the directories on the way
there (`Store.delivered`).

Files in memory are honest surroundings, and refuse only what a directory is in the way of
(`Store.writesAll_surroundings`).
-/
import Rv32Stimulus.Command.Outputs
import Rv32Stimulus.Command.Options
import Rv32Stimulus.Proofs.Command.Files
import Rv32Stimulus.Proofs.Text.Lines
import Mathlib.Data.List.Forall2

namespace Rv32Stimulus.Command

set_option autoImplicit false

open Text (OneLine)

/-! ## Surroundings -/

namespace Surroundings

/-- Reading changes nothing, and what is reported as made or written is made or written; a
refusal may leave anything behind. -/
structure Honest (around : Surroundings (StateM Store)) : Prop where
  reads : ∀ path store, ((around.readText path).run store).2 = store
  tells : ∀ store, (around.now.run store).2 = store
  draws : ∀ store, (around.freshSeed.run store).2 = store
  makes : ∀ path store, ((around.makeDirectories path).run store).1 = true →
    (around.makeDirectories path).run store = store.makeDirectories path
  writes : ∀ path content store, ((around.writeText path content).run store).1 = .written →
    (around.writeText path content).run store = store.writeText path content
  clock : ∀ store, OneLine (around.now.run store).1

variable (around : Surroundings (StateM Store))

/-- Every output is written, one after the other. -/
def Writes : List Output → Store → Prop
  | [], _ => True
  | output :: rest, store =>
      ((around.writeText output.path output.content).run store).1 = .written ∧
        Writes rest ((around.writeText output.path output.content).run store).2

/-- The output directory is made, and all files of the program are written. -/
def WritesAll (options : Options) (program : Program) (store : Store) : Prop :=
  ((around.makeDirectories options.directory).run store).1 = true ∧
    around.Writes (outputs program options.directory options.stem)
      ((around.makeDirectories options.directory).run store).2

end Surroundings

variable {around : Surroundings (StateM Store)}

/-! ## Outputs in their places -/

namespace Store

/-- The store after some outputs were written into it. -/
def writeOutputs (store : Store) (written : List Output) : Store :=
  written.foldl (fun store output => (store.writeText output.path output.content).2) store

def putAll (store : Store) (files : List (Place × String)) : Store :=
  files.foldl (fun store file => store.put file.1 file.2) store

/-- The four files of a program in a directory. -/
def filesAt (directory : Place) (stem : String) (source hex binary manifest : String) :
    List (Place × String) :=
  [ (directory ++ [stem ++ ".S"], source), (directory ++ [stem ++ ".hex"], hex),
    (directory ++ [stem ++ ".bin"], binary), (directory ++ [stem ++ "_manifest.json"], manifest) ]

/-- An output that stands at a place of the store. -/
def Stands (store : Store) (output : Output) (file : Place × String) : Prop :=
  store.filePlace? output.path = some file.1 ∧ output.content = file.2

theorem writeOutputs_eq_putAll (honest : around.Honest) {all : List Output}
    {files : List (Place × String)} {store : Store} (writes : around.Writes all store)
    (stands : List.Forall₂ store.Stands all files) :
    store.writeOutputs all = store.putAll files := by
  induction all generalizing store files with
  | nil =>
      cases stands
      rfl
  | cons output rest ih =>
      obtain _ | ⟨⟨here, same⟩, others⟩ := stands
      obtain ⟨first, later⟩ := writes
      have effect := honest.writes _ _ _ first
      rw [effect] at first later
      have put := writeText_of_written here first
      rw [put, same] at later
      rw [writeOutputs, List.foldl_cons, put, same]
      -- Putting a file moves no other.
      exact ih later others

/-- The outputs of a program with a plain stem stand inside the directory. -/
theorem stands_outputs {store : Store} {directory stem : String} (plain : Plain stem)
    (there : ∀ place ∈ store.way directory, store.isDirectory place = true) (program : Program) :
    List.Forall₂ store.Stands (outputs program directory stem)
      (filesAt (store.destination directory) stem (linesText program.sourceLines)
        (linesText program.hex) (linesText program.binary) program.manifest.text) := by
  have stands {suffix : String} (clear : Plain suffix) {last : Char}
      (ends : suffix.toList.getLast? = some last) (noDot : last ≠ '.') (content : String)
      (tells : Bool) : store.Stands ⟨joinPath directory (stem ++ suffix), content, tells⟩
        (store.destination directory ++ [stem ++ suffix], content) := by
    have final : (stem ++ suffix).toList.getLast? = some last := by
      rw [String.toList_append, List.getLast?_append, ends]
      rfl
    exact ⟨filePlace?_joinPath (plain.append clear) (ordinary_of_getLast? final noDot) there, rfl⟩
  exact .cons (stands (by decide) rfl (by decide) _ _) <|
    .cons (stands (by decide) rfl (by decide) _ _) <|
    .cons (stands (by decide) rfl (by decide) _ _) <|
    .cons (stands (by decide) rfl (by decide) _ _) .nil

/-! ## What was written -/

/-- The store after the four files of a program were written into a directory, and nothing else:
what is made besides are the directories on the way to it. -/
structure Delivered (store : Store) (directory stem : String)
    (source hex binary manifest : String) (after : Store) : Prop where
  source : after.text? (store.destination directory ++ [stem ++ ".S"]) = some source
  hex : after.text? (store.destination directory ++ [stem ++ ".hex"]) = some hex
  binary : after.text? (store.destination directory ++ [stem ++ ".bin"]) = some binary
  manifest : after.text? (store.destination directory ++ [stem ++ "_manifest.json"]) = some manifest
  others : ∀ place, (∀ suffix ∈ [".S", ".hex", ".bin", "_manifest.json"],
    place ≠ store.destination directory ++ [stem ++ suffix]) → after.text? place = store.text? place
  directories : ∀ place, after.isDirectory place = true ↔
    store.isDirectory place = true ∨ place ∈ store.way directory
  working : after.working = store.working

theorem delivered (honest : around.Honest) {options : Options} {program : Program} {store : Store}
    (plain : Plain options.stem) (writes : around.WritesAll options program store) :
    store.Delivered options.directory options.stem (linesText program.sourceLines)
      (linesText program.hex) (linesText program.binary) program.manifest.text
      ((store.makeDirectories options.directory).2.writeOutputs
        (outputs program options.directory options.stem)) := by
  obtain ⟨reported, written⟩ := writes
  have effect := honest.makes _ _ reported
  rw [effect] at reported written
  have made := made_of_makeDirectories reported
  have stands := stands_outputs plain made.there program
  rw [made.destination] at stands
  generalize (store.makeDirectories options.directory).2 = ready at made written stands ⊢
  rw [writeOutputs_eq_putAll honest written stands]
  constructor
  case directories => exact made.directories
  case working => exact made.working
  case others =>
    intro place elsewhere
    simp only [List.forall_mem_cons] at elsewhere
    simp [putAll, filesAt, text?_put, elsewhere, made.text?]
  all_goals simp [putAll, filesAt, text?_put]

/-! ## Files in memory -/

theorem honest_surroundings {time : String} (one : OneLine time) (seed : UInt64) :
    (surroundings time seed).Honest where
  reads _ _ := rfl
  tells _ := rfl
  draws _ := rfl
  makes _ _ _ := rfl
  writes _ _ _ _ := rfl
  clock _ := one

theorem writes_surroundings {all : List Output} {files : List (Place × String)} {store : Store}
    (stands : List.Forall₂ store.Stands all files)
    (free : ∀ file ∈ files, store.isDirectory file.1 = false) (time : String) (seed : UInt64) :
    (surroundings time seed).Writes all store := by
  induction all generalizing store files with
  | nil => trivial
  | cons output rest ih =>
      obtain _ | ⟨⟨here, same⟩, others⟩ := stands
      obtain ⟨first, later⟩ := List.forall_mem_cons.1 free
      have effect := writeText_eq_put here first output.content
      refine ⟨congrArg Prod.fst effect, ?_⟩
      change (surroundings time seed).Writes rest (store.writeText output.path output.content).2
      rw [effect]
      exact ih others later

/-- In memory every write succeeds if the directories can be made and none of the files is one. -/
theorem writesAll_surroundings {store : Store} {options : Options} (plain : Plain options.stem)
    (made : (store.makeDirectories options.directory).1 = true)
    (free : ∀ suffix ∈ [".S", ".hex", ".bin", "_manifest.json"],
      (store.makeDirectories options.directory).2.isDirectory
        (store.destination options.directory ++ [options.stem ++ suffix]) = false)
    (time : String) (seed : UInt64) (program : Program) :
    (surroundings time seed).WritesAll options program store := by
  have ready := made_of_makeDirectories made
  have stands := stands_outputs plain ready.there program
  rw [ready.destination] at stands
  refine ⟨made, writes_surroundings stands ?_ time seed⟩
  simp only [List.forall_mem_cons] at free
  simpa [filesAt] using free

end Store

end Rv32Stimulus.Command
