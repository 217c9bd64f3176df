/-
# Proofs.Control.Selection -- targets chosen one after the other

`Profile.selections` makes any calls in order, each from the count of backward targets and the source that
the call before left.  A call is `Lawful` if its target is a position within reach, is the
position itself for a reason, and is counted if and only if it lies behind, where that is
allowed.

The source matters to the law: why a branch stays where it is depends on the bucket that this very
call drew.  So a call is opened at its source (`chooseTarget_eq_ok`) before the cases of
`Profile.Moves` decide.  One call is lawful from any count (`lawful_of_chooseTarget`); along a
run the count goes up with every backward target and stays at or below the cap, so it
never wraps around (`selections_lawful`).
-/
import Rv32Stimulus.Proofs.Control.Target

namespace Rv32Stimulus

set_option autoImplicit false

open Rv32Stimulus.Random

/-- One call: what was asked, what state the call met, and what it gave and left. -/
structure Selection where
  index : Nat
  length : Nat
  /-- Backward targets before. -/
  before : UInt32
  source : Source
  choice : TargetChoice
  rest : Source

namespace Selection

/-- Whether the target lies before the position. -/
def goesBack (call : Selection) : Bool := call.choice.target < call.index

/-- The calls of a run leave this count of backward targets, where `start` came before. -/
def finalCount (start : UInt32) : List Selection → UInt32
  | [] => start
  | call :: later => finalCount call.choice.backward later

/-- What every call keeps to. -/
structure Lawful (profile : Profile) (call : Selection) : Prop where
  inside : call.choice.target < call.length
  near : ((call.choice.target : Int) - call.index).natAbs ≤
    max (max profile.branches.nearMaxBytes.toNat profile.branches.midMaxBytes.toNat)
      profile.branches.farMaxBytes.toNat / 4
  /-- The call stays at the last position, and where its bucket caps below one word. -/
  stays : call.choice.target = call.index ↔
    call.index + 1 = call.length ∨
      ∃ bucket middle, profile.branches.bucket call.source = .ok (bucket, middle) ∧
        (profile.branches.cap bucket).toNat < 4
  undrawn : call.index + 1 = call.length → call.rest = call.source
  charged : call.choice.target < call.index →
    profile.branches.allowBackward = true ∧ call.before < profile.maxBackward ∧
      call.choice.backward.toNat = call.before.toNat + 1
  uncharged : ¬call.choice.target < call.index → call.choice.backward = call.before

variable {profile : Profile} {call : Selection}

theorem Lawful.count_eq (lawful : call.Lawful profile) :
    call.choice.backward.toNat = call.before.toNat + if call.goesBack then 1 else 0 := by
  by_cases back : call.choice.target < call.index
  · simp [goesBack, back, (lawful.charged back).2.2]
  · simp [goesBack, back, lawful.uncharged back]

theorem Lawful.count_le (lawful : call.Lawful profile) (below : call.before ≤ profile.maxBackward) :
    call.choice.backward ≤ profile.maxBackward := by
  by_cases back : call.choice.target < call.index
  · obtain ⟨-, less, charged⟩ := lawful.charged back
    rw [UInt32.le_iff_toNat_le, charged]
    exact UInt32.lt_iff_toNat_lt.1 less
  · rw [lawful.uncharged back]
    exact below

end Selection

namespace Profile

/-- The calls in order, from a count of backward targets and a source. -/
def selections (profile : Profile) :
    UInt32 → Source → List (Nat × Nat) → Except DrawError (List Selection)
  | _, _, [] => .ok []
  | before, source, (index, length) :: later => do
      let (choice, rest) ← profile.chooseTarget before index length source
      let others ← profile.selections choice.backward rest later
      return ⟨index, length, before, source, choice, rest⟩ :: others

variable {profile : Profile} {before : UInt32} {index length : Nat} {source rest : Source}
  {choice : TargetChoice}

/-! ## One call -/

/-- What a call does from a given source: nothing at the last position; anywhere else it moves under
the cap of the bucket it draws. -/
theorem chooseTarget_eq_ok
    (given : profile.chooseTarget before index length source = .ok (choice, rest)) :
    (length ≤ index + 1 ∧ choice = ⟨index, before⟩ ∧ rest = source) ∨
      (index + 1 < length ∧ ∃ bucket middle,
        profile.branches.bucket source = .ok (bucket, middle) ∧
          profile.Moves before index length (profile.branches.capDistance bucket) choice) := by
  rcases Nat.lt_or_ge (index + 1) length with inner | isLast
  · rw [profile.chooseTarget_of_inner before inner] at given
    obtain ⟨bucket, middle, drawn, moved⟩ := Draw.bind_eq_ok.1 given
    have small := profile.branches.capDistance_lt bucket
    exact .inr ⟨inner, bucket, middle, drawn, profile.ensures_chooseUnder before inner small moved⟩
  · rw [profile.chooseTarget_of_last before isLast] at given
    obtain ⟨rfl, rfl⟩ := Draw.pure_eq_ok.1 given
    exact .inl ⟨isLast, rfl, rfl⟩

theorem lawful_of_chooseTarget (inside : index < length)
    (given : profile.chooseTarget before index length source = .ok (choice, rest)) :
    Selection.Lawful profile ⟨index, length, before, source, choice, rest⟩ := by
  rcases chooseTarget_eq_ok given with ⟨isLast, rfl, rfl⟩ | ⟨inner, bucket, middle, drawn, moves⟩
  · have last : index + 1 = length := by omega
    constructor
    case stays => exact ⟨fun _ => .inl last, fun _ => rfl⟩
    all_goals simp [inside]
  · have notLast : index + 1 ≠ length := by omega
    have capped : profile.branches.capDistance bucket ≤ profile.branches.greatestDistance :=
      profile.branches.capDistance_le_greatestDistance bucket
    -- The bucket of the call is the one drawn, so the law speaks of its cap.
    have reason : (index + 1 = length ∨ ∃ bucket middle,
        profile.branches.bucket source = .ok (bucket, middle) ∧
          (profile.branches.cap bucket).toNat < 4) ↔ profile.branches.capDistance bucket = 0 := by
      unfold BranchProfile.capDistance wordBytes
      rw [drawn]
      simp [notLast, Nat.div_eq_zero_iff]
    unfold BranchProfile.greatestDistance wordBytes at capped
    constructor
    case stays =>
      refine Iff.trans ?_ reason.symm
      cases moves with
      | back distance allowed positive room => dsimp only; omega
      | stay noRoom => exact ⟨fun _ => noRoom, fun _ => rfl⟩
      | ahead distance positive room => dsimp only; omega
    case undrawn => exact fun last => absurd last notLast
    case charged =>
      cases moves with
      | back distance allowed positive room => exact fun _ => charge_of_mayGoBackward allowed
      | stay | ahead => dsimp only; omega
    case uncharged =>
      cases moves with
      | back distance allowed positive room => dsimp only; omega
      | stay | ahead => exact fun _ => rfl
    all_goals cases moves <;> dsimp only <;> omega

/-- Only an infinite sum of the bucket weights makes a call fail, and the last position draws nothing. -/
theorem overflows_of_chooseTarget {fault : DrawError}
    (failed : profile.chooseTarget before index length source = .error fault) :
    overflows profile.branches.weights = true ∧ index + 1 < length := by
  rcases Nat.lt_or_ge (index + 1) length with inner | isLast
  · refine ⟨?_, inner⟩
    cases infinite : overflows profile.branches.weights with
    | true => rfl
    | false =>
        obtain ⟨choice, rest, given⟩ := succeeds_chooseTarget infinite before index length source
        rw [given] at failed
        cases failed
  · rw [profile.chooseTarget_of_last before isLast] at failed
    cases failed

/-! ## Runs -/

/-- A run of calls that all gave a target. -/
structure Selected (profile : Profile) (before : UInt32) (calls : List (Nat × Nat))
    (run : List Selection) : Prop where
  asked : run.map (fun call => (call.index, call.length)) = calls
  lawful : ∀ call ∈ run, call.Lawful profile
  counted : (Selection.finalCount before run).toNat =
    before.toNat + run.countP Selection.goesBack
  capped : before ≤ profile.maxBackward → Selection.finalCount before run ≤ profile.maxBackward

theorem Selected.cons {call : Selection} {calls : List (Nat × Nat)} {later : List Selection}
    (lawful : call.Lawful profile) (selected : profile.Selected call.choice.backward calls later) :
    profile.Selected call.before ((call.index, call.length) :: calls) (call :: later) := by
  obtain ⟨asked, allLawful, counted, capped⟩ := selected
  refine ⟨by rw [List.map_cons, asked], List.forall_mem_cons.2 ⟨lawful, allLawful⟩, ?_, ?_⟩
  · rw [Selection.finalCount, counted, lawful.count_eq, List.countP_cons]
    omega
  · exact fun below => capped (lawful.count_le below)

theorem selected_selections {calls : List (Nat × Nat)} {run : List Selection}
    (inside : ∀ call ∈ calls, call.1 < call.2)
    (ran : profile.selections before source calls = .ok run) :
    profile.Selected before calls run := by
  induction calls generalizing before source run with
  | nil =>
      obtain rfl := Except.ok.inj ran
      exact ⟨rfl, nofun, rfl, id⟩
  | cons call calls ih =>
      obtain ⟨first, later⟩ := List.forall_mem_cons.1 inside
      obtain ⟨index, length⟩ := call
      rw [selections] at ran
      cases given : profile.chooseTarget before index length source with
      | error fault => rw [given] at ran; cases ran
      | ok result =>
          obtain ⟨choice, rest⟩ := result
          rw [given] at ran
          cases continued : profile.selections choice.backward rest calls with
          | error fault =>
              simp [bind, Except.bind, continued] at ran
          | ok others =>
              have whole : ⟨index, length, before, source, choice, rest⟩ :: others = run := by
                simpa [bind, Except.bind, continued, pure, Except.pure] using ran
              rw [← whole]
              exact .cons (lawful_of_chooseTarget first given) (ih later continued)

theorem overflows_of_selections {calls : List (Nat × Nat)} {fault : DrawError}
    (failed : profile.selections before source calls = .error fault) :
    overflows profile.branches.weights = true ∧ ∃ call ∈ calls, call.1 + 1 < call.2 := by
  induction calls generalizing before source with
  | nil => cases failed
  | cons call calls ih =>
      obtain ⟨index, length⟩ := call
      rw [selections] at failed
      cases given : profile.chooseTarget before index length source with
      | error cause =>
          obtain ⟨infinite, inner⟩ := overflows_of_chooseTarget given
          exact ⟨infinite, (index, length), List.mem_cons_self, inner⟩
      | ok result =>
          obtain ⟨choice, rest⟩ := result
          rw [given] at failed
          cases continued : profile.selections choice.backward rest calls with
          | error cause =>
              obtain ⟨infinite, call, member, inner⟩ := ih continued
              exact ⟨infinite, call, List.mem_cons_of_mem _ member, inner⟩
          | ok others => simp [bind, Except.bind, continued, pure, Except.pure] at failed

/-- Any calls on a fresh selector are lawful one by one, and together count the backward targets that they
gave, never more than the cap.  They fail only at a call that draws from bucket weights with an
infinite sum. -/
theorem selections_lawful (profile : Profile) (source : Source) {calls : List (Nat × Nat)}
    (inside : ∀ call ∈ calls, call.1 < call.2) :
    match profile.selections 0 source calls with
    | .ok run =>
        run.map (fun call => (call.index, call.length)) = calls ∧
          (∀ call ∈ run, call.Lawful profile) ∧
          (Selection.finalCount 0 run).toNat = run.countP Selection.goesBack ∧
          Selection.finalCount 0 run ≤ profile.maxBackward
    | .error _ =>
        overflows profile.branches.weights = true ∧ ∃ call ∈ calls, call.1 + 1 < call.2 := by
  cases ran : profile.selections 0 source calls with
  | ok run =>
      obtain ⟨asked, lawful, counted, capped⟩ := selected_selections inside ran
      refine ⟨asked, lawful, ?_, capped (UInt32.le_iff_toNat_le.2 (Nat.zero_le _))⟩
      rw [counted]
      exact Nat.zero_add _
  | error fault => exact overflows_of_selections ran

/-- A target behind, the last position, and a target ahead. -/
theorem selections_lawful_standard :
    ∃ run, standard.selections 0 (.ofSeed 2) [(3, 6), (5, 6), (0, 6)] = .ok run ∧
      run.map (·.choice.target) = [1, 5, 1] ∧ (∀ call ∈ run, call.Lawful standard) ∧
      (Selection.finalCount 0 run).toNat = run.countP Selection.goesBack := by
  have observed : (standard.selections 0 (.ofSeed 2) [(3, 6), (5, 6), (0, 6)]).toOption.map
      (fun run => run.map (·.choice.target)) = some [1, 5, 1] := by decide +kernel
  have law := selections_lawful standard (.ofSeed 2)
    (show ∀ call ∈ [(3, 6), (5, 6), (0, 6)], call.1 < call.2 by decide)
  cases ran : standard.selections 0 (.ofSeed 2) [(3, 6), (5, 6), (0, 6)] with
  | error fault => rw [ran] at observed; cases observed
  | ok run =>
      rw [ran] at law observed
      obtain ⟨-, lawful, counted, -⟩ := law
      exact ⟨run, rfl, Option.some.inj observed, lawful, counted⟩

end Profile

end Rv32Stimulus
