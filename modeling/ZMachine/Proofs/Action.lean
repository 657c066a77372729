import Mathlib.Order.Defs.Unbundled
import ZMachine.Fault

/-!
# Reasoning about computations

What a computation does to the state it runs on, in two ways of saying it:

* `bind_eq_ok`, `bind_eq_error` : a sequence that came to an end, taken apart into its steps.
* `Action.Meets`                : a relation between start, answer and end if it succeeds, and one
  between start and end if it fails.
* `Action.Keeps`                : one relation between start and end, whatever the outcome. Where it
  is a preorder, a sequence keeps what each of its steps keeps.
* `Action.Ensures`              : from a start with one property to an end with another.
-/

namespace ZMachine.Action

variable {σ α β : Type}

/-! ## 1. Sequences taken apart -/

theorem bind_run (x : Action σ α) (f : α → Action σ β) (s : σ) :
    (x >>= f) s = match x s with
      | .ok a t => f a t
      | .error e t => .error e t := by
  show EStateM.bind x f s = _
  unfold EStateM.bind
  cases x s <;> rfl

/-- A sequence succeeds exactly if its first step does, and the rest does from there on. -/
theorem bind_eq_ok {x : Action σ α} {f : α → Action σ β} {s u : σ} {b : β} :
    (x >>= f) s = .ok b u ↔ ∃ a t, x s = .ok a t ∧ f a t = .ok b u := by
  rw [bind_run]
  constructor
  · intro h
    cases hx : x s with
    | ok a t => rw [hx] at h; exact ⟨a, t, rfl, h⟩
    | error e t => rw [hx] at h; cases h
  · intro h
    obtain ⟨a, t, hx, h⟩ := h
    rw [hx]
    exact h

/-- A sequence fails exactly if its first step does, or the rest does after it. -/
theorem bind_eq_error {x : Action σ α} {f : α → Action σ β} {s u : σ} {e : Fault} :
    (x >>= f) s = .error e u ↔
      x s = .error e u ∨ ∃ a t, x s = .ok a t ∧ f a t = .error e u := by
  rw [bind_run]
  constructor
  · intro h
    cases hx : x s with
    | ok a t => rw [hx] at h; exact .inr ⟨a, t, rfl, h⟩
    | error e' t => rw [hx] at h; cases h; exact .inl rfl
  · intro h
    rcases h with hx | ⟨a, t, hx, h⟩
    · rw [hx]
    · rw [hx]
      exact h

theorem bind_of_ok {x : Action σ α} {f : α → Action σ β} {s t : σ} {a : α}
    (h : x s = .ok a t) : (x >>= f) s = f a t := by
  rw [bind_run, h]

/-- The same for a sequence without a state. -/
theorem except_bind_eq_ok {x : Except Fault α} {f : α → Except Fault β} {b : β} :
    (x >>= f) = .ok b ↔ ∃ a, x = .ok a ∧ f a = .ok b := by
  cases x with
  | ok a =>
      constructor
      · intro h
        exact ⟨a, rfl, h⟩
      · intro h
        obtain ⟨a', ha, h⟩ := h
        cases ha
        exact h
  | error e =>
      constructor
      · intro h
        cases h
      · intro h
        obtain ⟨a', ha, -⟩ := h
        cases ha

theorem except_bind_eq_error {x : Except Fault α} {f : α → Except Fault β} {e : Fault} :
    (x >>= f) = .error e ↔ x = .error e ∨ ∃ a, x = .ok a ∧ f a = .error e := by
  cases x with
  | ok a =>
      constructor
      · intro h
        exact .inr ⟨a, rfl, h⟩
      · intro h
        rcases h with h | ⟨a', ha, h⟩
        · cases h
        · cases ha
          exact h
  | error e' =>
      constructor
      · intro h
        cases h
        exact .inl rfl
      · intro h
        rcases h with h | ⟨a', ha, -⟩
        · cases h
          rfl
        · cases ha

/-- Two sequences without a state that start alike agree if they go on alike from there. -/
theorem except_bind_congr {x : Except Fault α} {f g : α → Except Fault β}
    (h : ∀ a, x = .ok a → f a = g a) : (x >>= f) = (x >>= g) := by
  cases x with
  | ok a => exact h a rfl
  | error e => rfl

theorem eq_ok_of_toOption {x : Except Fault α} {a : α} (h : x.toOption = some a) : x = .ok a := by
  cases x with
  | ok b => cases h; rfl
  | error e => cases h

/-! ## 2. Single steps -/

/-- A computation without a state answers what it answers and leaves the state alone. -/
@[simp] theorem lift_run (x : Except Fault α) (s : σ) :
    (liftM x : Action σ α) s = match x with
      | .ok a => .ok a s
      | .error e => .error e s := by
  cases x <;> rfl

@[simp] theorem get_bind (f : σ → Action σ β) (s : σ) : (get >>= f) s = f s s := rfl

@[simp] theorem set_bind (f : PUnit → Action σ β) (s t : σ) : (set t >>= f) s = f ⟨⟩ t := rfl

@[simp] theorem modify_bind (g : σ → σ) (f : PUnit → Action σ β) (s : σ) :
    (modify g >>= f) s = f ⟨⟩ (g s) := rfl

@[simp] theorem lift_eq_ok {x : Except Fault α} {a : α} {s t : σ} :
    (liftM x : Action σ α) s = .ok a t ↔ x = .ok a ∧ s = t := by
  cases x with
  | ok b => simp
  | error e => simp

@[simp] theorem lift_eq_error {x : Except Fault α} {e : Fault} {s t : σ} :
    (liftM x : Action σ α) s = .error e t ↔ x = .error e ∧ s = t := by
  cases x with
  | ok b => rw [lift_run]; simp
  | error e => rw [lift_run]; simp

theorem lift_bind_eq_ok {x : Except Fault α} {f : α → Action σ β} {s u : σ} {b : β} :
    ((liftM x : Action σ α) >>= f) s = .ok b u ↔ ∃ a, x = .ok a ∧ f a s = .ok b u := by
  rw [bind_eq_ok]
  constructor
  · intro h
    obtain ⟨a, t, hx, h⟩ := h
    obtain ⟨ha, rfl⟩ := lift_eq_ok.mp hx
    exact ⟨a, ha, h⟩
  · intro h
    obtain ⟨a, hx, h⟩ := h
    exact ⟨a, s, lift_eq_ok.mpr ⟨hx, rfl⟩, h⟩

theorem lift_bind_eq_error {x : Except Fault α} {f : α → Action σ β} {s u : σ} {e : Fault} :
    ((liftM x : Action σ α) >>= f) s = .error e u ↔
      (x = .error e ∧ s = u) ∨ ∃ a, x = .ok a ∧ f a s = .error e u := by
  rw [bind_eq_error, lift_eq_error]
  refine or_congr Iff.rfl ⟨?_, ?_⟩
  · intro h
    obtain ⟨a, t, hx, h⟩ := h
    obtain ⟨ha, rfl⟩ := lift_eq_ok.mp hx
    exact ⟨a, ha, h⟩
  · intro h
    obtain ⟨a, hx, h⟩ := h
    exact ⟨a, s, lift_eq_ok.mpr ⟨hx, rfl⟩, h⟩

/-! ## 3. What a computation keeps -/

/-- If the computation succeeds, `Q` relates start, answer and end; if it fails, `E` relates start
and end. -/
structure Meets (x : Action σ α) (Q : σ → α → σ → Prop) (E : σ → σ → Prop) : Prop where
  ok : ∀ {s a t}, x s = .ok a t → Q s a t
  error : ∀ {s e t}, x s = .error e t → E s t

/-- Whatever the outcome, `R` relates start and end. -/
abbrev Keeps (R : σ → σ → Prop) (x : Action σ α) : Prop :=
  Meets x (fun s _ t => R s t) R

/-- A sequence: what the first step keeps is passed on to what the rest meets. -/
theorem Meets.bind {x : Action σ α} {f : α → Action σ β} {R E : σ → σ → Prop}
    {Q Q' : σ → β → σ → Prop} (hx : Keeps R x) (hf : ∀ a, Meets (f a) Q' E)
    (hQ : ∀ {s t b u}, R s t → Q' t b u → Q s b u) (hE : ∀ {s t u}, R s t → E t u → E s u)
    (hR : ∀ {s t}, R s t → E s t) : Meets (x >>= f) Q E where
  ok h := by
    obtain ⟨a, t, h₁, h₂⟩ := bind_eq_ok.mp h
    exact hQ (hx.ok h₁) ((hf a).ok h₂)
  error h := by
    rcases bind_eq_error.mp h with h₁ | ⟨a, t, h₁, h₂⟩
    · exact hR (hx.error h₁)
    · exact hE (hx.ok h₁) ((hf a).error h₂)

theorem Meets.ite {x y : Action σ α} {Q : σ → α → σ → Prop} {E : σ → σ → Prop} {c : Prop}
    [Decidable c] (hx : Meets x Q E) (hy : Meets y Q E) : Meets (if c then x else y) Q E := by
  by_cases h : c
  · rw [if_pos h]; exact hx
  · rw [if_neg h]; exact hy

theorem Keeps.mono {x : Action σ α} {R R' : σ → σ → Prop} (h : Keeps R x)
    (hR : ∀ {s t}, R s t → R' s t) : Keeps R' x :=
  ⟨fun hx => hR (h.ok hx), fun hx => hR (h.error hx)⟩

section Keeps

variable {R : σ → σ → Prop} [IsPreorder σ R]

theorem keeps_pure (a : α) : Keeps R (pure a : Action σ α) where
  ok h := by cases h; exact refl_of R _
  error h := by cases h

theorem keeps_throw (e : Fault) : Keeps R (throw e : Action σ α) where
  ok h := by cases h
  error h := by cases h; exact refl_of R _

theorem keeps_get : Keeps R (get : Action σ σ) where
  ok h := by cases h; exact refl_of R _
  error h := by cases h

theorem keeps_lift (x : Except Fault α) : Keeps R (liftM x : Action σ α) where
  ok h := by
    obtain ⟨-, rfl⟩ := lift_eq_ok.mp h
    exact refl_of R _
  error h := by
    obtain ⟨-, rfl⟩ := lift_eq_error.mp h
    exact refl_of R _

omit [IsPreorder σ R] in
theorem keeps_modify {f : σ → σ} (h : ∀ s, R s (f s)) : Keeps R (modify f : Action σ PUnit) where
  ok h' := by cases h'; exact h _
  error h' := by cases h'

/-- **A sequence keeps what each of its steps keeps.** -/
theorem Keeps.bind {x : Action σ α} {f : α → Action σ β} (hx : Keeps R x)
    (hf : ∀ a, Keeps R (f a)) : Keeps R (x >>= f) :=
  Meets.bind hx hf (trans_of R) (trans_of R) id

end Keeps

/-! ## 4. What a computation ensures -/

/-- From a start with `P`, success leads to an answer and an end with `Q`, and failure to an end
with `E`. -/
abbrev Ensures (P : σ → Prop) (x : Action σ α) (Q : α → σ → Prop) (E : σ → Prop) : Prop :=
  Meets x (fun s a t => P s → Q a t) (fun s t => P s → E t)

/-- **A sequence ensures what its rest ensures from where its first step leads.** -/
theorem Ensures.bind {P E : σ → Prop} {Q : α → σ → Prop} {R : β → σ → Prop} {x : Action σ α}
    {f : α → Action σ β} (hx : Ensures P x Q E) (hf : ∀ a, Ensures (Q a) (f a) R E) :
    Ensures P (x >>= f) R E where
  ok h hP := by
    obtain ⟨a, t, h₁, h₂⟩ := bind_eq_ok.mp h
    exact (hf a).ok h₂ (hx.ok h₁ hP)
  error h hP := by
    rcases bind_eq_error.mp h with h₁ | ⟨a, t, h₁, h₂⟩
    · exact hx.error h₁ hP
    · exact (hf a).error h₂ (hx.ok h₁ hP)

theorem Ensures.of_imp {P P' E : σ → Prop} {Q : α → σ → Prop} {x : Action σ α}
    (hP : ∀ {s}, P' s → P s) (hx : Ensures P x Q E) : Ensures P' x Q E :=
  ⟨fun h hs => hx.ok h (hP hs), fun h hs => hx.error h (hP hs)⟩

/-- A computation that from every start is like one which ensures something ensures it too. -/
theorem Ensures.of_eq {P E : σ → Prop} {Q : α → σ → Prop} {x : Action σ α}
    (h : ∀ s, P s → ∃ y, x s = y s ∧ Ensures P y Q E) : Ensures P x Q E where
  ok {s a t} hx hP := by
    obtain ⟨y, hy, he⟩ := h s hP
    exact he.ok (hy ▸ hx) hP
  error {s e t} hx hP := by
    obtain ⟨y, hy, he⟩ := h s hP
    exact he.error (hy ▸ hx) hP

theorem Keeps.ensures {R : σ → σ → Prop} {P E : σ → Prop} {x : Action σ α} (hx : Keeps R x)
    (hR : ∀ {s t}, R s t → P s → P t) (hE : ∀ {s}, P s → E s) : Ensures P x (fun _ => P) E :=
  ⟨fun h hP => hR (hx.ok h) hP, fun h hP => hE (hR (hx.error h) hP)⟩

end ZMachine.Action
