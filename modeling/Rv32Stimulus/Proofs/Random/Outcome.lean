/-
# Proofs.Random.Outcome -- what a draw can give, and whether it gives anything

Three readings of a draw, each over all sources:

* `Ensures draw post`: whatever the draw gives satisfies `post`;
* `Succeeds draw`: the draw gives something from every source;
* `Fails draw`: the draw gives nothing from any source.

Each has one rule for every way draws are put together, so that a statement about a long
draw follows its text.  `Ensures.foldlM` carries an invariant through a loop: the invariant
speaks about the items already taken, in order.
-/
import Rv32Stimulus.Random.Draw

namespace Rv32Stimulus.Random.Draw

set_option autoImplicit false

variable {α β σ : Type}

/-! ## Running one draw after another -/

theorem bind_eq_ok {draw : Draw α} {next : α → Draw β} {source rest : Source} {result : β} :
    (draw >>= next) source = .ok (result, rest) ↔
      ∃ value middle, draw source = .ok (value, middle) ∧ next value middle = .ok (result, rest) := by
  change (draw source >>= fun out => next out.1 out.2) = _ ↔ _
  constructor
  · intro given
    cases drawn : draw source with
    | error fault => rw [drawn] at given; cases given
    | ok out => rw [drawn] at given; exact ⟨out.1, out.2, rfl, given⟩
  · rintro ⟨value, middle, drawn, continued⟩
    rw [drawn]
    exact continued

theorem pure_eq_ok {value result : α} {source rest : Source} :
    (pure value : Draw α) source = .ok (result, rest) ↔ value = result ∧ source = rest := by
  change Except.ok (value, source) = Except.ok (result, rest) ↔ _
  simp

/-- What `view` makes of the value that is drawn, if any. -/
def observe (draw : Draw α) (source : Source) (view : α → β) : Option β :=
  (draw source).toOption.map fun out => view out.1

theorem exists_of_observe {draw : Draw α} {source : Source} {view : α → β} {seen : β}
    (observed : draw.observe source view = some seen) :
    ∃ value rest, draw source = .ok (value, rest) ∧ view value = seen := by
  unfold observe at observed
  cases given : draw source with
  | error fault => rw [given] at observed; cases observed
  | ok out =>
      rw [given] at observed
      exact ⟨out.1, out.2, rfl, Option.some.inj observed⟩

/-! ## What a draw can give -/

/-- Whatever `draw` gives satisfies `post`. -/
def Ensures (draw : Draw α) (post : α → Prop) : Prop :=
  ∀ ⦃source value rest⦄, draw source = .ok (value, rest) → post value

namespace Ensures

theorem pure {value : α} {post : α → Prop} (holds : post value) :
    Ensures (Pure.pure value) post := by
  intro source result rest given
  obtain ⟨rfl, -⟩ := pure_eq_ok.1 given
  exact holds

theorem bind {draw : Draw α} {next : α → Draw β} {middle : α → Prop} {post : β → Prop}
    (first : Ensures draw middle) (then_ : ∀ value, middle value → Ensures (next value) post) :
    Ensures (draw >>= next) post := by
  intro source result rest given
  obtain ⟨value, between, drawn, continued⟩ := bind_eq_ok.1 given
  exact then_ value (first drawn) continued

theorem mono {draw : Draw α} {post weaker : α → Prop} (ensured : Ensures draw post)
    (implied : ∀ value, post value → weaker value) : Ensures draw weaker :=
  fun _ value _ given => implied value (ensured given)

theorem trivial (draw : Draw α) : Ensures draw fun _ => True := fun _ _ _ _ => True.intro

theorem and {draw : Draw α} {one other : α → Prop} (first : Ensures draw one)
    (second : Ensures draw other) : Ensures draw fun value => one value ∧ other value :=
  fun _ _ _ given => ⟨first given, second given⟩

theorem ite {choice : Prop} [Decidable choice] {one other : Draw α} {post : α → Prop}
    (yes : choice → Ensures one post) (no : ¬choice → Ensures other post) :
    Ensures (if choice then one else other) post := by
  split
  · exact yes ‹_›
  · exact no ‹_›

theorem of_ok {next : Source → α × Source} {post : α → Prop}
    (holds : ∀ source, post (next source).1) : Ensures (fun source => .ok (next source)) post := by
  intro source value rest given
  have same : (next source).1 = value := congrArg Prod.fst (Except.ok.inj given)
  exact same ▸ holds source

/-- An invariant over the items already taken, kept by every step of the loop. -/
theorem foldlM {step : σ → α → Draw σ} (inv : List α → σ → Prop) {items : List α} {start : σ}
    (holds : inv [] start)
    (kept : ∀ taken item later state, taken ++ item :: later = items → inv taken state →
      Ensures (step state item) (inv (taken ++ [item]))) :
    Ensures (items.foldlM step start) (inv items) := by
  suffices run : ∀ later taken state, taken ++ later = items → inv taken state →
      Ensures (later.foldlM step state) (inv items) from run items [] start rfl holds
  intro later
  induction later with
  | nil =>
      intro taken state all reached
      rw [List.append_nil] at all
      exact .pure (all ▸ reached)
  | cons item later ih =>
      intro taken state all reached
      rw [List.foldlM_cons]
      refine (kept taken item later state all reached).bind fun next nextReached => ?_
      exact ih (taken ++ [item]) next (by simpa using all) nextReached

end Ensures

/-! ## Whether a draw gives anything -/

/-- `draw` gives something from every source. -/
def Succeeds (draw : Draw α) : Prop := ∀ source, ∃ value rest, draw source = .ok (value, rest)

/-- `draw` gives nothing from any source. -/
def Fails (draw : Draw α) : Prop := ∀ source, draw source = .error .infiniteTotal

namespace Succeeds

theorem pure (value : α) : Succeeds (Pure.pure value) := fun source => ⟨value, source, rfl⟩

theorem bind {draw : Draw α} {next : α → Draw β} (first : Succeeds draw)
    (then_ : ∀ value, Succeeds (next value)) : Succeeds (draw >>= next) := by
  intro source
  obtain ⟨value, middle, drawn⟩ := first source
  obtain ⟨result, rest, continued⟩ := then_ value middle
  exact ⟨result, rest, bind_eq_ok.2 ⟨value, middle, drawn, continued⟩⟩

theorem ite {choice : Prop} [Decidable choice] {one other : Draw α} (yes : Succeeds one)
    (no : Succeeds other) : Succeeds (if choice then one else other) := by
  split
  · exact yes
  · exact no

theorem foldlM {step : σ → α → Draw σ} (each : ∀ state item, Succeeds (step state item))
    (items : List α) (start : σ) : Succeeds (items.foldlM step start) := by
  induction items generalizing start with
  | nil => exact .pure start
  | cons item later ih => exact (each start item).bind ih

/-- A draw that only moves the source along. -/
theorem of_ok (next : Source → α × Source) : Succeeds fun source => .ok (next source) :=
  fun source => ⟨(next source).1, (next source).2, rfl⟩

theorem gives {draw : Draw α} {post : α → Prop} (succeeds : Succeeds draw)
    (ensured : Ensures draw post) (source : Source) :
    ∃ value rest, draw source = .ok (value, rest) ∧ post value := by
  obtain ⟨value, rest, given⟩ := succeeds source
  exact ⟨value, rest, given, ensured given⟩

end Succeeds

namespace Fails

theorem bind {draw : Draw α} (fails : Fails draw) (next : α → Draw β) :
    Fails (draw >>= next) := by
  intro source
  change (draw source >>= fun out => next out.1 out.2) = _
  rw [fails source]
  rfl

theorem bind_of_next {draw : Draw α} {next : α → Draw β} {middle : α → Prop}
    (ensured : Ensures draw middle) (fails : ∀ value, middle value → Fails (next value)) :
    Fails (draw >>= next) := by
  intro source
  change (draw source >>= fun out => next out.1 out.2) = _
  cases given : draw source with
  | error fault => cases fault with | infiniteTotal => rfl
  | ok out => exact fails out.1 (ensured given) out.2

/-- A loop fails if it gets to an item that fails whatever came before. -/
theorem foldlM {step : σ → α → Draw σ} {item : α} {items : List α}
    (fails : ∀ state, Fails (step state item)) (member : item ∈ items) (start : σ) :
    Fails (items.foldlM step start) := by
  induction items generalizing start with
  | nil => cases member
  | cons head rest ih =>
      rw [List.foldlM_cons]
      rcases List.mem_cons.1 member with rfl | later
      · exact (fails start).bind _
      · exact bind_of_next (.trivial _) fun state _ => ih later state

end Fails

end Rv32Stimulus.Random.Draw
