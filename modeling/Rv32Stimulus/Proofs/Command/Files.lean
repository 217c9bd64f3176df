/-
# Proofs.Command.Files -- where a directory leads, and what writing into it changes

The steps of a path lead somewhere whether or not anything is there (`Store.destination`), and pass
places on the way (`Store.way`).  Making the directories of a path makes those places and nothing
else (`Store.Made`); then a plain name inside the directory stands at the destination
(`Store.filePlace?_joinPath`), however the path of the directory is spelled.  Writing there puts one
file and leaves the others (`Store.text?_put`).
-/
import Rv32Stimulus.Command.Files

namespace Rv32Stimulus.Command

set_option autoImplicit false

/-! ## Steps of a path -/

theorem splitSlashes_ne_nil (chars : List Char) : splitSlashes chars ≠ [] := by
  unfold splitSlashes
  split
  · exact List.cons_ne_nil _ _
  · exact List.cons_ne_nil _ _
  · split <;> exact List.cons_ne_nil _ _

theorem splitSlashes_cons {char : Char} (ordinary : char ≠ '/') (rest : List Char) :
    ∃ part parts, splitSlashes rest = part :: parts ∧
      splitSlashes (char :: rest) = (char :: part) :: parts := by
  cases found : splitSlashes rest with
  | nil => exact absurd found (splitSlashes_ne_nil rest)
  | cons part parts =>
      rw [splitSlashes.eq_3 _ _ ordinary, found]
      exact ⟨part, parts, rfl, rfl⟩

theorem splitSlashes_append (left right : List Char) :
    splitSlashes (left ++ '/' :: right) = splitSlashes left ++ splitSlashes right := by
  induction left with
  | nil => rfl
  | cons char left ih =>
      by_cases slash : char = '/'
      · subst slash
        rw [List.cons_append, splitSlashes, splitSlashes, ih]
        rfl
      · obtain ⟨part, parts, rest, whole⟩ := splitSlashes_cons slash left
        rw [List.cons_append, splitSlashes.eq_3 _ _ slash, ih, rest, whole]
        rfl

/-- A name without slashes is one step. -/
theorem splitSlashes_of_plain {name : List Char} (plain : '/' ∉ name) : splitSlashes name = [name] := by
  induction name with
  | nil => rfl
  | cons char name ih =>
      have ordinary : char ≠ '/' := fun same => plain (same ▸ List.mem_cons_self)
      rw [splitSlashes.eq_3 _ _ ordinary, ih (mt (List.mem_cons_of_mem _) plain)]

/-- The name of a file, with nothing in front of it. -/
def Plain (name : String) : Prop := '/' ∉ name.toList

instance (name : String) : Decidable (Plain name) := inferInstanceAs (Decidable (¬_))

theorem Plain.append {left right : String} (first : Plain left) (second : Plain right) :
    Plain (left ++ right) := by
  rw [Plain, String.toList_append, List.mem_append]
  exact not_or.2 ⟨first, second⟩

/-- A name that does not end in a dot stands for a file. -/
theorem ordinary_of_getLast? {name : String} {last : Char} (ends : name.toList.getLast? = some last)
    (noDot : last ≠ '.') : name ≠ "" ∧ name ≠ "." ∧ name ≠ ".." := by
  refine ⟨?_, ?_, ?_⟩
  · rintro rfl
    cases ends
  · rintro rfl
    exact noDot (Option.some.inj ends).symm
  · rintro rfl
    exact noDot (Option.some.inj ends).symm

namespace Store

variable {store : Store}

/-! ## Where the steps lead -/

/-- Where the steps lead if all of them can be gone. -/
def follow (place : Place) (steps : List String) : Place := steps.foldl stepFrom place

/-- The places after each of the steps. -/
def passed (place : Place) : List String → List Place
  | [] => []
  | step :: steps => stepFrom place step :: passed (stepFrom place step) steps

/-- The place that the path of a directory names. -/
def destination (store : Store) (path : String) : Place :=
  follow (store.route path).1 (store.route path).2

/-- The places on the way to a directory, and the directory itself. -/
def way (store : Store) (path : String) : List Place :=
  passed (store.route path).1 (store.route path).2

theorem follow_append (place : Place) (before after : List String) :
    follow place (before ++ after) = follow (follow place before) after :=
  List.foldl_append

theorem passed_append (place : Place) (before after : List String) :
    passed place (before ++ after) = passed place before ++ passed (follow place before) after := by
  induction before generalizing place with
  | nil => rfl
  | cons step before ih =>
      rw [List.cons_append, passed, passed, ih]
      rfl

/-- Steps can be gone if all places that they pass are directories. -/
theorem walk?_eq_follow {place : Place} {steps : List String}
    (there : ∀ next ∈ passed place steps, store.isDirectory next = true) :
    store.walk? place steps = some (follow place steps) := by
  induction steps generalizing place with
  | nil => rfl
  | cons step steps ih =>
      obtain ⟨first, later⟩ := List.forall_mem_cons.1 there
      have goes : store.walk? place (step :: steps) = store.walk? (stepFrom place step) steps := by
        simp [walk?, first]
      rw [goes, ih later]
      rfl

/-! ## Making directories -/

/-- One store has the files of another, and as directories also the given places. -/
structure Made (store : Store) (places : List Place) (after : Store) : Prop where
  working : after.working = store.working
  files : after.files = store.files
  directories : ∀ place, after.isDirectory place = true ↔
    store.isDirectory place = true ∨ place ∈ places

theorem enter_eq_some {place reached : Place} {step : String} {after : Store}
    (entered : enter (place, store) step = some (reached, after)) :
    reached = stepFrom place step ∧ store.Made [reached] after := by
  unfold enter at entered
  dsimp only at entered
  split at entered
  · rename_i there
    obtain ⟨rfl, rfl⟩ := Prod.mk.inj (Option.some.inj entered)
    refine ⟨rfl, rfl, rfl, ?_⟩
    intro other
    constructor
    · exact .inl
    · rintro (there' | isNext)
      · exact there'
      · rwa [List.mem_singleton.1 isNext]
  · split at entered
    · cases entered
    · obtain ⟨rfl, rfl⟩ := Prod.mk.inj (Option.some.inj entered)
      refine ⟨rfl, rfl, rfl, ?_⟩
      intro other
      simp [isDirectory, or_assoc]

theorem Made.trans {middle after : Store} {first second : List Place}
    (made : store.Made first middle) (more : middle.Made second after) :
    store.Made (first ++ second) after where
  working := more.working.trans made.working
  files := more.files.trans made.files
  directories place := by
    rw [more.directories, made.directories, List.mem_append, or_assoc]

theorem made_of_foldlM_enter {place last : Place} {after : Store} {steps : List String}
    (entered : steps.foldlM enter (place, store) = some (last, after)) :
    store.Made (passed place steps) after := by
  induction steps generalizing place store with
  | nil =>
      obtain ⟨rfl, rfl⟩ := Prod.mk.inj (Option.some.inj entered)
      exact ⟨rfl, rfl, by simp [passed]⟩
  | cons step steps ih =>
      rw [List.foldlM_cons] at entered
      obtain ⟨⟨next, middle⟩, goes, rest⟩ := Option.bind_eq_some_iff.1 entered
      obtain ⟨rfl, made⟩ := enter_eq_some goes
      exact made.trans (ih rest)

theorem made_of_makeDirectories {path : String} (succeeds : (store.makeDirectories path).1 = true) :
    store.Made (store.way path) (store.makeDirectories path).2 := by
  unfold makeDirectories at succeeds ⊢
  dsimp only at succeeds ⊢
  split at succeeds
  · rename_i last after entered
    exact made_of_foldlM_enter entered
  · cases succeeds

/-! ## Names inside a directory -/

theorem startsWith_slash_append {directory : String} (given : directory ≠ "") (rest : String) :
    (directory ++ rest).startsWith "/" = directory.startsWith "/" := by
  have slash : "/".toList = ['/'] := rfl
  have present : directory.toList ≠ [] := by simpa using given
  obtain ⟨char, chars, characters⟩ := List.exists_cons_of_ne_nil present
  rw [Bool.eq_iff_iff, String.startsWith_string_iff, String.startsWith_string_iff,
    String.toList_append, characters, slash]
  simp [List.cons_prefix_cons]

theorem exists_eq_of_endsWith_slash {directory : String} (ends : directory.endsWith "/" = true) :
    ∃ before, directory.toList = before ++ ['/'] := by
  rw [← String.endsWith_toSlice, String.Slice.endsWith_string_iff] at ends
  obtain ⟨before, same⟩ := ends
  exact ⟨before, by simpa using same.symm⟩

theorem route_eq (store : Store) (path : String) : store.route path =
    (if path.startsWith "/" then [] else store.working,
      (splitSlashes path.toList).map String.ofList) := by
  unfold route
  dsimp only
  split <;> rfl

/-- A name inside a directory is one more step after those of the directory, but for an empty step at
their end. -/
theorem route_joinPath (store : Store) (directory : String) {name : String} (plain : Plain name) :
    ∃ before, store.route (joinPath directory name) = ((store.route directory).1, before ++ [name]) ∧
      ((store.route directory).2 = before ∨ (store.route directory).2 = before ++ [""]) := by
  have relative : name.startsWith "/" = false := by
    rw [String.startsWith_string_eq_false_iff]
    intro isPrefix
    exact plain (isPrefix.subset List.mem_cons_self)
  have last : (splitSlashes name.toList).map String.ofList = [name] := by
    rw [splitSlashes_of_plain plain]
    simp
  unfold joinPath
  rw [relative, Bool.false_or]
  by_cases empty : directory = ""
  · subst empty
    refine ⟨[], ?_, .inr ?_⟩
    · rw [if_pos (by decide), route_eq, route_eq, relative, last]
      rfl
    · rw [route_eq]
      rfl
  · rw [if_neg (by simpa using empty)]
    by_cases ends : directory.endsWith "/" = true
    · obtain ⟨before, characters⟩ := exists_eq_of_endsWith_slash ends
      refine ⟨(splitSlashes before).map String.ofList, ?_, .inr ?_⟩
      · have inside : (directory ++ name).toList = before ++ '/' :: name.toList := by
          rw [String.toList_append, characters]
          simp
        rw [if_pos ends, route_eq, route_eq, startsWith_slash_append empty, inside,
          splitSlashes_append, List.map_append, last]
      · rw [route_eq, characters, splitSlashes_append]
        simp [splitSlashes]
    · refine ⟨(splitSlashes directory.toList).map String.ofList, ?_, .inl ?_⟩
      · have inside : (directory ++ "/" ++ name).toList = directory.toList ++ '/' :: name.toList := by
          rw [String.toList_append, String.toList_append]
          simp
        rw [if_neg ends, route_eq, route_eq, String.append_assoc, startsWith_slash_append empty,
          ← String.append_assoc, inside, splitSlashes_append, List.map_append, last]
      · rw [route_eq]

/-- Wherever a directory leads, a plain name inside it stands there. -/
theorem filePlace?_joinPath {directory name : String} (plain : Plain name)
    (ordinary : name ≠ "" ∧ name ≠ "." ∧ name ≠ "..")
    (there : ∀ place ∈ store.way directory, store.isDirectory place = true) :
    store.filePlace? (joinPath directory name) = some (store.destination directory ++ [name]) := by
  obtain ⟨before, route, steps⟩ := store.route_joinPath directory plain
  have leads : store.walk? (store.route directory).1 before = some (store.destination directory) := by
    rw [way] at there
    rw [destination]
    rcases steps with same | same
    · rw [same] at there ⊢
      exact walk?_eq_follow there
    · -- The empty step after the last slash leads nowhere else.
      rw [same, passed_append] at there
      rw [same, follow_append]
      exact walk?_eq_follow fun place member => there place (List.mem_append_left _ member)
  unfold filePlace?
  rw [route]
  simp [ordinary, leads]

/-! ## In the new directories -/

theorem Made.route {store after : Store} {places : List Place} (made : store.Made places after)
    (path : String) : after.route path = store.route path := by
  rw [route_eq, route_eq, made.working]

theorem Made.text? {store after : Store} {places : List Place} (made : store.Made places after)
    (place : Place) : after.text? place = store.text? place := by
  unfold Store.text?
  rw [made.files]

theorem Made.there {store ready : Store} {directory : String}
    (made : store.Made (store.way directory) ready) :
    ∀ place ∈ ready.way directory, ready.isDirectory place = true := by
  intro place passed
  rw [way, made.route] at passed
  exact (made.directories place).2 (.inr passed)

theorem Made.destination {store ready : Store} {places : List Place}
    (made : store.Made places ready) (path : String) :
    ready.destination path = store.destination path := by
  rw [Store.destination, Store.destination, made.route]

/-! ## Writing -/

theorem lookup_filter_ne (files : List (Place × String)) (place other : Place) :
    (files.filter (·.1 != place)).lookup other = if other = place then none else files.lookup other := by
  induction files with
  | nil => simp
  | cons file files ih =>
      obtain ⟨stands, content⟩ := file
      by_cases replaced : stands = place
      · subst replaced
        rw [List.filter_cons_of_neg (by simp), ih]
        split
        · rfl
        · rename_i different
          rw [List.lookup_cons, beq_false_of_ne different]
      · rw [List.filter_cons_of_pos (by simpa using replaced), List.lookup_cons, List.lookup_cons, ih]
        by_cases same : other = stands
        · subst same
          simp [replaced]
        · rw [beq_false_of_ne same]

/-- Putting a file replaces what stood at its place, and nothing else. -/
theorem text?_put (store : Store) (place other : Place) (content : String) :
    (store.put place content).text? other =
      if other = place then some content else store.text? other := by
  unfold put text?
  rw [List.lookup_append, lookup_filter_ne]
  by_cases same : other = place
  · rw [if_pos same, if_pos same, same]
    simp
  · rw [if_neg same, if_neg same, List.lookup_cons, beq_false_of_ne same]
    simp

theorem writeText_eq_put {path : String} {place : Place} (found : store.filePlace? path = some place)
    (free : store.isDirectory place = false) (content : String) :
    store.writeText path content = (.written, store.put place content) := by
  unfold writeText
  rw [found]
  simp [free]

theorem writeText_of_written {path content : String} {place : Place}
    (found : store.filePlace? path = some place)
    (written : (store.writeText path content).1 = .written) :
    (store.writeText path content).2 = store.put place content := by
  have free : store.isDirectory place = false := by
    unfold writeText at written
    rw [found] at written
    dsimp only at written
    split at written
    · cases written
    · rename_i free
      exact Bool.eq_false_iff.2 free
  rw [writeText_eq_put found free]

end Store

end Rv32Stimulus.Command
