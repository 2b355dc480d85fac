/-
  Outcomes that may be a fault.

  A computation in steps succeeds exactly if every step does, so a success can be taken apart into
  the results of its steps, and a pass over a list into the results of its elements.  It fails with
  the fault of its first step that fails; a pass that checks each element fails at the first that
  does not pass (`mapM_checked`).  Outcomes can be compared if results and faults can.  Two outcomes
  are alike if both are related results or both the same fault (`Alike`).
-/
import Mathlib.Data.List.Forall2

namespace GanttChart.Outcome

variable {ε α β : Type}

instance decidableEq [DecidableEq ε] [DecidableEq α] : DecidableEq (Except ε α)
  | .ok a, .ok b => decidable_of_iff (a = b) (by rw [Except.ok.injEq])
  | .error a, .error b => decidable_of_iff (a = b) (by rw [Except.error.injEq])
  | .ok _, .error _ => isFalse (by intro h; cases h)
  | .error _, .ok _ => isFalse (by intro h; cases h)

/-- A step after another one: both succeed. -/
theorem bind_eq_ok_iff {x : Except ε α} {f : α → Except ε β} {b : β} :
    (x >>= f) = .ok b ↔ ∃ a, x = .ok a ∧ f a = .ok b := by
  cases x with
  | error fault =>
    constructor
    · intro h
      cases h
    · rintro ⟨a, ha, _⟩
      cases ha
  | ok a =>
    constructor
    · intro h
      exact ⟨a, rfl, h⟩
    · rintro ⟨a', ha, h⟩
      cases ha
      exact h

/-- A step after another one: a fault is that of the first step, or of the second after it. -/
theorem bind_eq_error_iff {x : Except ε α} {f : α → Except ε β} {fault : ε} :
    (x >>= f) = .error fault ↔ x = .error fault ∨ ∃ a, x = .ok a ∧ f a = .error fault := by
  cases x with
  | error first =>
    constructor
    · intro h
      cases h
      exact .inl rfl
    · rintro (h | ⟨a, ha, _⟩)
      · cases h
        rfl
      · cases ha
  | ok a =>
    constructor
    · intro h
      exact .inr ⟨a, rfl, h⟩
    · rintro (h | ⟨a', ha, h⟩)
      · cases h
      · cases ha
        exact h

/-- A result that is put to use: the result was there. -/
theorem map_eq_ok_iff {x : Except ε α} {f : α → β} {b : β} :
    x.map f = .ok b ↔ ∃ a, x = .ok a ∧ f a = b := by
  cases x with
  | error fault => simp [Except.map]
  | ok a => simp [Except.map]

/-- Naming the place of a fault leaves results alone. -/
theorem mapError_eq_ok_iff {place : ε → β} {x : Except ε α} {a : α} :
    x.mapError place = .ok a ↔ x = .ok a := by
  cases x with
  | error fault => simp [Except.mapError]
  | ok a => simp [Except.mapError]

/-- A pass over a list: it succeeds at each element, and the results stand in the same order. -/
theorem mapM_eq_ok_iff {f : α → Except ε β} {xs : List α} {ys : List β} :
    xs.mapM f = .ok ys ↔ List.Forall₂ (fun x y => f x = .ok y) xs ys := by
  induction xs generalizing ys with
  | nil =>
    show Except.ok [] = Except.ok ys ↔ _
    rw [Except.ok.injEq, List.forall₂_nil_left_iff]
    exact eq_comm
  | cons x xs ih =>
    rw [List.mapM_cons, bind_eq_ok_iff, List.forall₂_cons_left_iff]
    constructor
    · rintro ⟨y, hy, hrest⟩
      obtain ⟨zs, hzs, hout⟩ := bind_eq_ok_iff.1 hrest
      exact ⟨y, zs, hy, ih.1 hzs, (Except.ok.inj hout).symm⟩
    · rintro ⟨y, zs, hy, hzs, rfl⟩
      exact ⟨y, hy, bind_eq_ok_iff.2 ⟨zs, ih.2 hzs, rfl⟩⟩

/-- **A pass that checks each element** fails at the first one that does not pass, and otherwise
    every element has its value. -/
theorem mapM_checked {f : α → Except ε β} {bad : α → Bool} {fault : α → ε} {value : α → β}
    {xs : List α} (h : ∀ x ∈ xs, f x = if bad x then .error (fault x) else .ok (value x)) :
    xs.mapM f = (xs.find? bad).elim (.ok (xs.map value)) fun x => .error (fault x) := by
  induction xs with
  | nil => rfl
  | cons x xs ih =>
    have hx := h x List.mem_cons_self
    have hrest := ih fun y hy => h y (List.mem_cons_of_mem x hy)
    rw [List.mapM_cons, hx, hrest, List.find?_cons]
    cases bad x with
    | true => rfl
    | false =>
      cases xs.find? bad with
      | some y => rfl
      | none => rfl

/-- Passes inside a pass are one pass over all pairs. -/
theorem mapM_mapM {γ : Type} (f : α → γ → Except ε β) (g : α → List γ) (xs : List α) :
    (do return (← xs.mapM fun x => (g x).mapM (f x)).flatten) =
      (xs.flatMap fun x => (g x).map (x, ·)).mapM fun pair => f pair.1 pair.2 := by
  induction xs with
  | nil => rfl
  | cons x xs ih =>
    rw [List.flatMap_cons, List.mapM_append, ← ih, List.mapM_cons, List.mapM_map]
    simp only [bind_assoc, pure_bind, List.flatten_cons]
    rfl

/-- A pass whose results are put to use one by one. -/
theorem mapM_map_eq {γ : Type} (f : α → Except ε β) (use : β → γ) (xs : List α) :
    (xs.mapM fun x => (f x).map use) = (xs.mapM f).map (List.map use) := by
  induction xs with
  | nil => rfl
  | cons x xs ih =>
    rw [List.mapM_cons, List.mapM_cons, ih]
    cases f x with
    | error fault => rfl
    | ok y =>
      cases xs.mapM f with
      | error fault => rfl
      | ok ys => rfl

/-! ## Two outcomes -/

/-- Both outcomes are results that are related, or both are the same fault. -/
inductive Alike (R : α → β → Prop) : Except ε α → Except ε β → Prop
  | ok {a : α} {b : β} (h : R a b) : Alike R (.ok a) (.ok b)
  | error (fault : ε) : Alike R (.error fault) (.error fault)

/-- One outcome is put to use in two ways. -/
theorem Alike.of_map {γ : Type} {R : α → β → Prop} {x : Except ε γ} {use : γ → α} {use' : γ → β}
    (h : ∀ c, x = .ok c → R (use c) (use' c)) : Alike R (x.map use) (x.map use') := by
  cases x with
  | error fault => exact .error fault
  | ok c => exact .ok (h c rfl)

/-! ## Results that may be missing -/

/-- A pass misses its result exactly if an element does. -/
theorem mapM_eq_none_iff {f : α → Option β} {xs : List α} :
    xs.mapM f = none ↔ ∃ x ∈ xs, f x = none := by
  induction xs with
  | nil => simp
  | cons x xs ih =>
    rw [List.mapM_cons]
    cases hx : f x with
    | none => simp [hx]
    | some y =>
      cases hrest : xs.mapM f with
      | none => simpa [hx, hrest] using ih.1 hrest
      | some ys => simpa [hx, hrest] using ih

/-- A pass over a list has its result if every element has one, and they stand in the same order. -/
theorem mapM_eq_some_iff {f : α → Option β} {xs : List α} {ys : List β} :
    xs.mapM f = some ys ↔ List.Forall₂ (fun x y => f x = some y) xs ys := by
  induction xs generalizing ys with
  | nil =>
    show some [] = some ys ↔ _
    rw [Option.some.injEq, List.forall₂_nil_left_iff]
    exact eq_comm
  | cons x xs ih =>
    rw [List.mapM_cons, List.forall₂_cons_left_iff]
    constructor
    · intro h
      obtain ⟨y, hy, hrest⟩ := Option.bind_eq_some_iff.1 h
      obtain ⟨zs, hzs, hout⟩ := Option.bind_eq_some_iff.1 hrest
      exact ⟨y, zs, hy, ih.1 hzs, (Option.some.inj hout).symm⟩
    · rintro ⟨y, zs, hy, hzs, rfl⟩
      exact Option.bind_eq_some_iff.2 ⟨y, hy, Option.bind_eq_some_iff.2 ⟨zs, ih.2 hzs, rfl⟩⟩

/-- The results of a pass are those of the elements. -/
theorem mem_mapM_iff {f : α → Option β} {xs : List α} {ys : List β} (h : xs.mapM f = some ys)
    {y : β} : y ∈ ys ↔ ∃ x ∈ xs, f x = some y := by
  induction xs generalizing ys with
  | nil =>
    cases h
    simp
  | cons x xs ih =>
    rw [List.mapM_cons] at h
    cases hx : f x with
    | none => simp [hx] at h
    | some z =>
      cases hrest : xs.mapM f with
      | none => simp [hx, hrest] at h
      | some zs =>
        simp only [hx, hrest] at h
        cases h
        simp [hx, ih hrest, eq_comm]

end GanttChart.Outcome
