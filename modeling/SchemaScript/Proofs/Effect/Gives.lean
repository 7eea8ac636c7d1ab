import SchemaScript.Log

/-!
# Computations that refuse nothing but their input

A computation either gives a value with some property or stops because of what a caller handed over. One
that stops for another reason derails.
-/

namespace SchemaScript

variable {α β : Type} {P : α → Prop} {Q : β → Prop}

theorem eq_ok_of_toOption {ε : Type} {r : Except ε α} {a : α} (h : r.toOption = some a) : r = .ok a := by
  cases r with
  | ok b => exact congrArg _ (Option.some.inj h)
  | error fault => contradiction

/-- Both steps of a computation that succeeds do. -/
theorem exists_of_bind_eq_ok {ε : Type} {x : Except ε α} {f : α → Except ε β} {b : β}
    (h : (x >>= f) = .ok b) : ∃ a, x = .ok a ∧ f a = .ok b := by
  cases x with
  | error stop => cases h
  | ok a => exact ⟨a, rfl, h⟩

/-- What each step keeps, the whole run keeps. -/
theorem keeps_foldlM {ε : Type} {f : β → α → Except ε β} {items : List α} {first last : β}
    (hstep : ∀ a ∈ items, ∀ b b', Q b → f b a = .ok b' → Q b') (hfirst : Q first)
    (h : items.foldlM f first = .ok last) : Q last := by
  induction items generalizing first with
  | nil =>
    obtain rfl := Except.ok.inj h
    exact hfirst
  | cons a items ih =>
    rw [List.foldlM_cons] at h
    obtain ⟨next, hnext, hrest⟩ := exists_of_bind_eq_ok h
    rw [List.forall_mem_cons] at hstep
    exact ih hstep.2 (hstep.1 first next hfirst hnext) hrest

/-- Where each step goes along with `g`, the whole run does. -/
theorem foldlM_map_of_step {ε : Type} {g : β → β} {step step' : β → α → Except ε β} {items : List α} {first : β}
    (hkeep : ∀ a ∈ items, ∀ b b', Q b → step b a = .ok b' → Q b')
    (hstep : ∀ a ∈ items, ∀ b, Q b → step' (g b) a = (step b a).map g) (hfirst : Q first) :
    items.foldlM step' (g first) = (items.foldlM step first).map g := by
  induction items generalizing first with
  | nil => rfl
  | cons a items ih =>
    rw [List.forall_mem_cons] at hkeep hstep
    rw [List.foldlM_cons, List.foldlM_cons, hstep.1 first hfirst]
    cases hnext : step first a with
    | error stop => rfl
    | ok next => exact ih hkeep.2 hstep.2 (hkeep.1 first next hfirst hnext)

theorem foldlM_map {ε : Type} {g : β → β} {step step' : β → α → Except ε β} {items : List α}
    (hstep : ∀ a ∈ items, ∀ b, step' (g b) a = (step b a).map g) (first : β) :
    items.foldlM step' (g first) = (items.foldlM step first).map g :=
  foldlM_map_of_step (Q := fun _ => True) (fun _ _ _ _ _ _ => trivial) (fun a ha b _ => hstep a ha b) trivial

/-- The outcome is a value with the property, or a fault of the input. -/
def Gives (P : α → Prop) : Except Fault α → Prop
  | .ok a => P a
  | .error fault => fault.isInput

theorem Gives.mono {P' : α → Prop} {r : Except Fault α} (h : Gives P r) (himp : ∀ a, P a → P' a) :
    Gives P' r := by
  cases r with
  | ok a => exact himp a h
  | error fault => exact h

theorem Gives.bind {r : Except Fault α} {f : α → Except Fault β} (h : Gives P r)
    (hf : ∀ a, P a → Gives Q (f a)) : Gives Q (r >>= f) := by
  cases r with
  | ok a => exact hf a h
  | error fault => exact h

theorem gives_foldlM {f : β → α → Except Fault β} {items : List α} {start : β}
    (h : ∀ b, Q b → ∀ a ∈ items, Gives Q (f b a)) (hstart : Q start) :
    Gives Q (items.foldlM f start) := by
  induction items generalizing start with
  | nil => exact hstart
  | cons a items ih =>
    rw [List.foldlM_cons]
    exact (h start hstart a (by simp)).bind fun b hb =>
      ih (fun b hb c hc => h b hb c (List.mem_cons_of_mem a hc)) hb

namespace Logged

theorem result_bind (x : Logged α) (f : α → Logged β) :
    (x >>= f).result = x.result >>= fun a => (f a).result := by
  rcases hx : x.result with fault | a
  · rw [bind_of_error hx]
    rfl
  · rw [bind_of_ok hx]
    rfl

theorem result_foldlM (f : β → α → Logged β) (items : List α) (start : β) :
    (items.foldlM f start).result = items.foldlM (fun b a => (f b a).result) start := by
  induction items generalizing start with
  | nil => rfl
  | cons a items ih =>
    rw [List.foldlM_cons, List.foldlM_cons, result_bind]
    exact congrArg _ (funext ih)

theorem keeps_foldlM {f : β → α → Logged β} {items : List α} {first last : β}
    (hstep : ∀ a ∈ items, ∀ b b', Q b → (f b a).result = .ok b' → Q b') (hfirst : Q first)
    (h : (items.foldlM f first).result = .ok last) : Q last := by
  rw [result_foldlM] at h
  exact SchemaScript.keeps_foldlM hstep hfirst h

theorem foldlM_map_of_step {g : β → β} {step step' : β → α → Logged β} {items : List α} {first : β}
    (hkeep : ∀ a ∈ items, ∀ b b', Q b → (step b a).result = .ok b' → Q b')
    (hstep : ∀ a ∈ items, ∀ b, Q b → (step' (g b) a).result = (step b a).result.map g) (hfirst : Q first) :
    (items.foldlM step' (g first)).result = (items.foldlM step first).result.map g := by
  rw [result_foldlM, result_foldlM]
  exact SchemaScript.foldlM_map_of_step hkeep hstep hfirst

theorem foldlM_map {g : β → β} {step step' : β → α → Logged β} {items : List α}
    (hstep : ∀ a ∈ items, ∀ b, (step' (g b) a).result = (step b a).result.map g) (first : β) :
    (items.foldlM step' (g first)).result = (items.foldlM step first).result.map g := by
  rw [result_foldlM, result_foldlM]
  exact SchemaScript.foldlM_map hstep first

/-- Where both steps go along with a map, what follows one from the other does. -/
theorem result_bind_map {γ δ : Type} {x : Logged α} {y : Logged β} {g : α → β} {k : γ → δ} {f : α → Logged γ}
    {f' : β → Logged δ} (h : y.result = x.result.map g)
    (hf : ∀ a, x.result = .ok a → (f' (g a)).result = (f a).result.map k) :
    (y >>= f').result = (x >>= f).result.map k := by
  rw [result_bind, result_bind, h]
  cases hx : x.result with
  | error fault => rfl
  | ok a => exact hf a hx

variable {x : Logged α} {f : α → Logged β}

/-- The computation stops, and not because of what a caller handed over. -/
def Derails (x : Logged α) : Prop :=
  ∃ fault, x.result = .error fault ∧ fault.isInput = false

theorem derails_bind_iff :
    (x >>= f).Derails ↔ x.Derails ∨ ∃ a, x.result = .ok a ∧ (f a).Derails := by
  unfold Derails
  rw [result_bind]
  rcases x.result with fault | a
  · have hbind : (Except.error fault >>= fun a => (f a).result) = .error fault := rfl
    simp [hbind]
  · have hbind : (Except.ok a >>= fun a => (f a).result) = (f a).result := rfl
    simp [hbind]

theorem not_derails_of_gives (h : Gives P x.result) : ¬ x.Derails := by
  rintro ⟨fault, hfault, hinput⟩
  rw [hfault] at h
  simp [show fault.isInput = true from h] at hinput

end Logged
end SchemaScript
