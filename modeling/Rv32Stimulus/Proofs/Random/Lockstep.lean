/-
# Proofs.Random.Lockstep -- two draws that take the same words

`Lockstep left right rel`: from every source the two draws either fail alike, or both give
something and leave the same source; what they give is related by `rel`.  They may make
different things of a word, but neither takes a word that the other leaves.

There is one rule for every way draws are put together, as for `Ensures`.  A draw keeps
pace with itself, whatever it is known to ensure (`Lockstep.of_ensures`), and draws that keep
pace with equal values are the same draw (`Lockstep.eq`).
-/
import Rv32Stimulus.Proofs.Random.Outcome

namespace Rv32Stimulus.Random.Draw

set_option autoImplicit false

variable {α β γ δ σ τ : Type}

/-- The same failure, or related values and the same rest of the source. -/
inductive Alike (rel : α → β → Prop) :
    Except DrawError (α × Source) → Except DrawError (β × Source) → Prop
  | fails (fault : DrawError) : Alike rel (.error fault) (.error fault)
  | gives {left : α} {right : β} (rest : Source) (related : rel left right) :
      Alike rel (.ok (left, rest)) (.ok (right, rest))

namespace Alike

variable {one : Except DrawError (α × Source)} {other : Except DrawError (β × Source)}
  {rel weaker : α → β → Prop}

theorem mono (alike : Alike rel one other)
    (implied : ∀ value twin, rel value twin → weaker value twin) : Alike weaker one other := by
  cases alike with
  | fails fault => exact .fails fault
  | gives rest related => exact .gives rest (implied _ _ related)

theorem bind {next : α → Draw γ} {second : β → Draw δ} {after : γ → δ → Prop}
    (alike : Alike rel one other)
    (then_ : ∀ value twin, rel value twin → ∀ rest, Alike after (next value rest) (second twin rest)) :
    Alike after (one >>= fun out => next out.1 out.2) (other >>= fun out => second out.1 out.2) := by
  cases alike with
  | fails fault => exact .fails fault
  | gives rest related => exact then_ _ _ related rest

end Alike

/-- From every source the two draws end alike. -/
def Lockstep (left : Draw α) (right : Draw β) (rel : α → β → Prop) : Prop :=
  ∀ source, Alike rel (left source) (right source)

namespace Lockstep

theorem pure {left : α} {right : β} {rel : α → β → Prop} (related : rel left right) :
    Lockstep (Pure.pure left) (Pure.pure right) rel :=
  fun source => .gives source related

theorem bind {left : Draw α} {right : Draw β} {next : α → Draw γ} {other : β → Draw δ}
    {middle : α → β → Prop} {rel : γ → δ → Prop} (first : Lockstep left right middle)
    (then_ : ∀ value twin, middle value twin → Lockstep (next value) (other twin) rel) :
    Lockstep (left >>= next) (right >>= other) rel :=
  fun source => (first source).bind then_

theorem mono {left : Draw α} {right : Draw β} {rel weaker : α → β → Prop}
    (lockstep : Lockstep left right rel)
    (implied : ∀ value twin, rel value twin → weaker value twin) : Lockstep left right weaker :=
  fun source => (lockstep source).mono implied

/-- Two draws that keep pace if they decide alike. -/
theorem ite {choice twin : Prop} [Decidable choice] [Decidable twin] {one other : Draw α}
    {first second : Draw β} {rel : α → β → Prop} (same : choice ↔ twin)
    (yes : choice → Lockstep one first rel) (no : ¬choice → Lockstep other second rel) :
    Lockstep (if choice then one else other) (if twin then first else second) rel := by
  by_cases holds : choice
  · rw [if_pos holds, if_pos (same.1 holds)]
    exact yes holds
  · rw [if_neg holds, if_neg (mt same.2 holds)]
    exact no holds

theorem of_ensures {draw : Draw α} {post : α → Prop} (ensured : Ensures draw post) :
    Lockstep draw draw fun value twin => value = twin ∧ post value := by
  intro source
  cases given : draw source with
  | error fault => exact .fails fault
  | ok out => exact .gives out.2 ⟨rfl, ensured given⟩

theorem refl (draw : Draw α) : Lockstep draw draw Eq :=
  (of_ensures (.trivial draw)).mono fun _ _ related => related.1

theorem eq {left right : Draw α} (lockstep : Lockstep left right Eq) : left = right := by
  funext source
  generalize left source = one, right source = other, lockstep source = alike
  cases alike with
  | fails fault => rfl
  | gives rest related => rw [related]

/-- A relation that every step of the loop keeps, item by item. -/
theorem foldlM {step : σ → α → Draw σ} {twin : τ → α → Draw τ} {rel : σ → τ → Prop}
    (items : List α) {start : σ} {other : τ} (related : rel start other)
    (kept : ∀ item ∈ items, ∀ state mirror, rel state mirror →
      Lockstep (step state item) (twin mirror item) rel) :
    Lockstep (items.foldlM step start) (items.foldlM twin other) rel := by
  induction items generalizing start other with
  | nil => exact .pure related
  | cons item later ih =>
      rw [List.foldlM_cons, List.foldlM_cons]
      refine (kept item List.mem_cons_self start other related).bind ?_
      intro state mirror reached
      exact ih reached fun item member => kept item (List.mem_cons_of_mem _ member)

/-- Two draws that move the source alike. -/
theorem of_ok {left : Source → α × Source} {right : Source → β × Source} {rel : α → β → Prop}
    (rests : ∀ source, (left source).2 = (right source).2)
    (related : ∀ source, rel (left source).1 (right source).1) :
    Lockstep (fun source => .ok (left source)) (fun source => .ok (right source)) rel := by
  intro source
  change Alike rel (.ok (left source)) (.ok (right source))
  have rest := rests source
  have values := related source
  generalize left source = one, right source = other at rest values ⊢
  obtain ⟨value, left⟩ := one
  obtain ⟨twin, right⟩ := other
  obtain rfl : left = right := rest
  exact .gives left values

end Lockstep

/-! ## Draws -/

/-- A coin takes the same words whatever it is weighed by. -/
theorem lockstep_chance (probability other : Float) :
    Lockstep (chance probability) (chance other) fun _ _ => True :=
  .of_ok (fun _ => rfl) fun _ => trivial

/-- Picks from two lists that look the same through `view` look the same. -/
theorem lockstep_pick {view : α → γ} {items others : List α}
    (same : items.map view = others.map view) :
    Lockstep (pick items) (pick others) fun item other => item.map view = other.map view := by
  have lengths : items.length = others.length := by simpa using congrArg List.length same
  have empties : items.isEmpty = others.isEmpty := by
    simpa only [List.isEmpty_map] using congrArg List.isEmpty same
  refine .of_ok ?_ ?_ <;> intro source <;> unfold Source.pick <;> rw [empties, lengths] <;> split
  · rfl
  · rfl
  · rfl
  · simp only [← List.getElem?_map, same]

end Rv32Stimulus.Random.Draw
