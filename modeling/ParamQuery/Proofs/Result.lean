import Mathlib.Data.List.Forall2

/-!
# Results in sequence

When computations that may fail succeed one after the other, and what their results are then.
-/

namespace ParamQuery

variable {ε α β : Type}

theorem bind_eq_ok_iff {x : Except ε α} {f : α → Except ε β} {b : β} :
    (x >>= f) = .ok b ↔ ∃ a, x = .ok a ∧ f a = .ok b := by
  cases x with
  | error e => simp [bind, Except.bind]
  | ok a => simp [bind, Except.bind]

theorem bind_eq_error_iff {x : Except ε α} {f : α → Except ε β} {e : ε} :
    (x >>= f) = .error e ↔ x = .error e ∨ ∃ a, x = .ok a ∧ f a = .error e := by
  cases x with
  | error e => simp [bind, Except.bind]
  | ok a => simp [bind, Except.bind]

theorem pure_eq_ok_iff {a b : α} : (pure a : Except ε α) = .ok b ↔ a = b :=
  ⟨fun h => Except.ok.inj h, fun h => h ▸ rfl⟩

theorem pure_ne_error {a : α} {e : ε} : ¬ (pure a : Except ε α) = .error e := nofun

/-- A change of the results of the second computation is one of the results of both. -/
theorem bind_eq_map_bind {x : Except ε α} {f g : α → Except ε β} {change : β → β}
    (h : ∀ a, g a = (f a).map change) : (x >>= g) = (x >>= f).map change := by
  cases x with
  | error e => rfl
  | ok a => exact h a

theorem mapM_eq_ok_iff {f : α → Except ε β} {xs : List α} {ys : List β} :
    xs.mapM f = .ok ys ↔ List.Forall₂ (fun x y => f x = .ok y) xs ys := by
  induction xs generalizing ys with
  | nil => cases ys <;> simp [pure, Except.pure]
  | cons x xs ih =>
    simp only [List.mapM_cons, bind_eq_ok_iff, pure_eq_ok_iff, ih]
    constructor
    · rintro ⟨y, hy, ys', hys, rfl⟩
      exact .cons hy hys
    · rintro (_ | ⟨hy, hys⟩)
      exact ⟨_, hy, _, hys, rfl⟩

theorem isEmpty_of_mapM_eq_ok {f : α → Except ε β} {xs : List α} {ys : List β}
    (h : xs.mapM f = .ok ys) : ys.isEmpty = xs.isEmpty := by
  cases mapM_eq_ok_iff.1 h <;> rfl

/-- Computations in a row fail at one of them. -/
theorem exists_of_mapM_eq_error {f : α → Except ε β} {xs : List α} {e : ε}
    (h : xs.mapM f = .error e) : ∃ x ∈ xs, f x = .error e := by
  induction xs with
  | nil => cases h
  | cons x xs ih =>
    simp only [List.mapM_cons, bind_eq_error_iff, pure_ne_error, and_false, exists_false,
      or_false] at h
    rcases h with h | ⟨_, _, h⟩
    · exact ⟨x, List.mem_cons_self, h⟩
    · obtain ⟨y, hy, h⟩ := ih h
      exact ⟨y, List.mem_cons_of_mem x hy, h⟩

/-- Computations in a row succeed if each of them does. -/
theorem exists_mapM_eq_ok {f : α → Except ε β} {xs : List α} (h : ∀ x ∈ xs, ∃ y, f x = .ok y) :
    ∃ ys, xs.mapM f = .ok ys := by
  cases hrun : xs.mapM f with
  | ok ys => exact ⟨ys, rfl⟩
  | error e =>
    obtain ⟨x, hx, hfails⟩ := exists_of_mapM_eq_error hrun
    obtain ⟨y, hy⟩ := h x hx
    cases hy.symm.trans hfails

/-- What every step preserves holds at the end of a run that succeeds. -/
theorem foldlM_preserves {step : β → α → Except ε β} {P : β → Prop} {xs : List α} {b b' : β}
    (hstep : ∀ x ∈ xs, ∀ b b', P b → step b x = .ok b' → P b') (hb : P b)
    (h : xs.foldlM step b = .ok b') : P b' := by
  induction xs generalizing b with
  | nil => exact pure_eq_ok_iff.1 h ▸ hb
  | cons x xs ih =>
    rw [List.foldlM_cons, bind_eq_ok_iff] at h
    obtain ⟨c, hc, h⟩ := h
    exact ih (fun y hy => hstep y (List.mem_cons_of_mem x hy))
      (hstep x List.mem_cons_self b c hb hc) h

/-- What one step brings about and all others keep holds at the end of a run that takes that
step. -/
theorem foldlM_reaches {step : β → α → Except ε β} {P : β → Prop} {xs : List α} {x : α} {b b' : β}
    (hx : x ∈ xs) (hreach : ∀ b b', step b x = .ok b' → P b')
    (hkeep : ∀ y ∈ xs, ∀ b b', P b → step b y = .ok b' → P b')
    (h : xs.foldlM step b = .ok b') : P b' := by
  induction xs generalizing b with
  | nil => cases hx
  | cons y xs ih =>
    rw [List.foldlM_cons, bind_eq_ok_iff] at h
    obtain ⟨c, hc, h⟩ := h
    have hrest : ∀ z ∈ xs, ∀ b b', P b → step b z = .ok b' → P b' :=
      fun z hz => hkeep z (List.mem_cons_of_mem y hz)
    rcases List.mem_cons.1 hx with rfl | hx
    · exact foldlM_preserves hrest (hreach b c hc) h
    · exact ih hx hrest h

/-- If what decides whether a step succeeds is the same in all states that a run goes through, the
run succeeds if all its steps would. -/
theorem exists_foldlM_iff {step : β → α → Except ε β} {P : β → Prop} {Q : α → Prop} {xs : List α}
    {b : β} (hstep : ∀ x ∈ xs, ∀ b, P b → ((∃ b', step b x = .ok b') ↔ Q x))
    (hkeep : ∀ x ∈ xs, ∀ b b', P b → step b x = .ok b' → P b') (hb : P b) :
    (∃ b', xs.foldlM step b = .ok b') ↔ ∀ x ∈ xs, Q x := by
  induction xs generalizing b with
  | nil => simp [pure, Except.pure]
  | cons x xs ih =>
    have hrest {c : β} (hc : P c) := ih (fun y hy => hstep y (List.mem_cons_of_mem x hy))
      (fun y hy => hkeep y (List.mem_cons_of_mem x hy)) hc
    have hfirst := hstep x List.mem_cons_self b hb
    simp only [List.foldlM_cons, bind_eq_ok_iff, List.forall_mem_cons]
    constructor
    · rintro ⟨b', c, hc, h⟩
      exact ⟨hfirst.1 ⟨c, hc⟩, (hrest (hkeep x List.mem_cons_self b c hb hc)).1 ⟨b', h⟩⟩
    · rintro ⟨hx, hxs⟩
      obtain ⟨c, hc⟩ := hfirst.2 hx
      obtain ⟨b', h⟩ := (hrest (hkeep x List.mem_cons_self b c hb hc)).2 hxs
      exact ⟨b', c, hc, h⟩

/-- A change of the state that no step notices may as well be made after the run. -/
theorem foldlM_map {step : β → α → Except ε β} {change : β → β} {xs : List α} {b : β}
    (hstep : ∀ x ∈ xs, ∀ b, step (change b) x = (step b x).map change) :
    xs.foldlM step (change b) = (xs.foldlM step b).map change := by
  induction xs generalizing b with
  | nil => rfl
  | cons x xs ih =>
    rw [List.foldlM_cons, List.foldlM_cons, hstep x List.mem_cons_self]
    cases step b x with
    | error e => rfl
    | ok c => exact ih fun y hy => hstep y (List.mem_cons_of_mem x hy)

/-- A run that fails stops at one of its steps, in a state that the steps before it preserve. -/
theorem exists_of_foldlM_eq_error {step : β → α → Except ε β} {P : β → Prop} {xs : List α} {b : β}
    {e : ε} (hkeep : ∀ x ∈ xs, ∀ b b', P b → step b x = .ok b' → P b') (hb : P b)
    (h : xs.foldlM step b = .error e) : ∃ x ∈ xs, ∃ b', P b' ∧ step b' x = .error e := by
  induction xs generalizing b with
  | nil => cases h
  | cons x xs ih =>
    rw [List.foldlM_cons, bind_eq_error_iff] at h
    rcases h with h | ⟨c, hc, h⟩
    · exact ⟨x, List.mem_cons_self, b, hb, h⟩
    · obtain ⟨y, hy, hstep⟩ := ih (fun y hy => hkeep y (List.mem_cons_of_mem x hy))
        (hkeep x List.mem_cons_self b c hb hc) h
      exact ⟨y, List.mem_cons_of_mem x hy, hstep⟩

/-- What holds of two lists, item by item, pairs every item of the first one. -/
theorem exists_mem_right_of_forall₂ {R : α → β → Prop} {xs : List α} {ys : List β}
    (h : List.Forall₂ R xs ys) {x : α} (hx : x ∈ xs) : ∃ y ∈ ys, R x y := by
  induction h with
  | nil => cases hx
  | cons hxy _ ih =>
    rcases List.mem_cons.1 hx with rfl | hx
    · exact ⟨_, List.mem_cons_self, hxy⟩
    · obtain ⟨y, hy, hxy⟩ := ih hx
      exact ⟨y, List.mem_cons_of_mem _ hy, hxy⟩

/-- What holds of two lists, item by item, pairs every item of the second one. -/
theorem exists_mem_left_of_forall₂ {R : α → β → Prop} {xs : List α} {ys : List β}
    (h : List.Forall₂ R xs ys) {y : β} (hy : y ∈ ys) : ∃ x ∈ xs, R x y :=
  exists_mem_right_of_forall₂ h.flip hy

/-- Two lists that are made from one list, item by item. -/
theorem forall₂_of_common {γ : Type} {R : α → β → Prop} {S : α → γ → Prop} {xs : List α}
    {ys : List β} {zs : List γ} (h : List.Forall₂ R xs ys) (h' : List.Forall₂ S xs zs) :
    List.Forall₂ (fun y z => ∃ x, R x y ∧ S x z) ys zs := by
  induction h generalizing zs with
  | nil =>
    cases h'
    exact .nil
  | cons hxy _ ih =>
    cases h' with
    | cons hxz hrest => exact .cons ⟨_, hxy, hxz⟩ (ih hrest)

end ParamQuery
