import Mathlib.Data.List.Basic

/-!
# Histories

A history lists what has happened, the latest first.

* `History` is one of a system with a partial step: each action is listed with the state in which it
  happened. `History.trans` and `History.split` put two of them together and take one apart, and
  `History.run` goes on from one by a list of actions.
* `Since` is about any list of events. What has happened stands until something undoes it, and
  `Since.cons_iff` is how it is kept from one event to the next.
-/

namespace Switchboard

/-! ## What has happened -/

/-- All that has happened since a system was in the state `s₀`, the latest first: each action with
the state in which it happened. -/
inductive History {σ α : Type} (next : σ → α → Option σ) (s₀ : σ) : List (σ × α) → σ → Prop
  | started : History next s₀ [] s₀
  | step {l : List (σ × α)} {s s' : σ} {a : α} (h : History next s₀ l s)
      (hs : next s a = some s') : History next s₀ ((s, a) :: l) s'

namespace History

variable {σ α : Type} {next : σ → α → Option σ} {s₀ s s' : σ} {a : α} {l since : List (σ × α)}

/-- What happens later comes on top of what happens first. -/
lemma cons (hs : next s₀ a = some s) (h : History next s l s') :
    History next s₀ (l ++ [(s₀, a)]) s' := by
  induction h with
  | started => exact .step .started hs
  | step _ hs' ih => exact .step ih hs'

/-- Histories are put one after the other. -/
lemma trans (h : History next s₀ l s) (h' : History next s since s') :
    History next s₀ (since ++ l) s' := by
  induction h' with
  | started => exact h
  | step _ hs ih => exact .step ih hs

/-- What has happened since an action has happened to what came of it. -/
theorem split {m : σ} {before : List (σ × α)} (h : History next s₀ (since ++ (m, a) :: before) s) :
    ∃ m', History next s₀ before m ∧ next m a = some m' ∧ History next m' since s := by
  induction since generalizing s with
  | nil =>
    cases h with
    | step h hs => exact ⟨_, h, hs, .started⟩
  | cons p since ih =>
    cases h with
    | step h hs =>
      obtain ⟨m', hbefore, hm, hsince⟩ := ih h
      exact ⟨m', hbefore, hm, hsince.step hs⟩

/-- What happens by actions one after the other, those left out that are not possible. -/
def trail (next : σ → α → Option σ) (s : σ) : List α → List (σ × α)
  | [] => []
  | a :: rest =>
    match next s a with
    | some s' => trail next s' rest ++ [(s, a)]
    | none => trail next s rest

lemma trail_of_some (h : next s a = some s') (rest : List α) :
    trail next s (a :: rest) = trail next s' rest ++ [(s, a)] := by
  rw [trail, h]

lemma trail_of_none (h : next s a = none) (rest : List α) :
    trail next s (a :: rest) = trail next s rest := by
  rw [trail, h]

/-- A history goes on by the actions of a list. -/
theorem run (h : History next s₀ l s) (actions : List α) :
    History next s₀ (trail next s actions ++ l)
      (actions.foldl (fun s a => (next s a).getD s) s) := by
  induction actions generalizing l s with
  | nil => exact h
  | cons a rest ih =>
    rw [List.foldl_cons]
    cases hs : next s a with
    | none =>
      rw [trail_of_none hs]
      exact ih h
    | some s' =>
      have hrest := ih (h.step hs)
      rwa [List.append_cons, ← trail_of_some hs] at hrest

/-- What happens to a state by the actions of a list. -/
lemma of_run (next : σ → α → Option σ) (s : σ) (actions : List α) :
    History next s (trail next s actions) (actions.foldl (fun s a => (next s a).getD s) s) :=
  List.append_nil (trail next s actions) ▸ History.started.run actions

end History

/-! ## What stands -/

/-- Something of a kind has happened, and nothing that undoes it has happened since. -/
def Since {α : Type} (happens undoes : α → Prop) (history : List α) : Prop :=
  ∃ later a earlier, history = later ++ a :: earlier ∧ happens a ∧ ∀ b ∈ later, ¬undoes b

namespace Since

variable {α : Type} {happens undoes : α → Prop} {a : α} {l : List α}

lemma not_nil : ¬Since happens undoes [] := by
  rintro ⟨later, a, earlier, h, -⟩
  exact absurd h (by simp)

/-- What stands has just happened, or stood before and has not just been undone. -/
theorem cons_iff :
    Since happens undoes (a :: l) ↔ happens a ∨ (¬undoes a ∧ Since happens undoes l) := by
  constructor
  · rintro ⟨later, b, earlier, hl, hb, hlater⟩
    cases later with
    | nil =>
      obtain ⟨rfl, -⟩ := List.cons.inj hl
      exact .inl hb
    | cons x later =>
      obtain ⟨rfl, rfl⟩ := List.cons.inj hl
      rw [List.forall_mem_cons] at hlater
      exact .inr ⟨hlater.1, later, b, earlier, rfl, hb, hlater.2⟩
  · rintro (ha | ⟨ha, later, b, earlier, rfl, hb, hlater⟩)
    · exact ⟨[], a, l, rfl, ha, by simp⟩
    · exact ⟨a :: later, b, earlier, rfl, hb, List.forall_mem_cons.2 ⟨ha, hlater⟩⟩

end Since
end Switchboard
