import SchemaScript.Fault

/-!
# Results with a log

A computation leaves log entries behind and either ends with a value or stops with a fault. The
entries written before a fault stay.
-/

namespace SchemaScript

inductive Level
  | debug
  | info
  | warning
  deriving DecidableEq, Repr

def Level.name : Level → String
  | debug => "DEBUG"
  | info => "INFO"
  | warning => "WARNING"

def Level.rank : Level → Nat
  | debug => 0
  | info => 1
  | warning => 2

structure LogEntry where
  level : Level
  text : String
  deriving DecidableEq, Repr

structure Logged (α : Type) where
  log : List LogEntry
  result : Except Fault α

namespace Logged

def ofResult {α : Type} (result : Except Fault α) : Logged α :=
  ⟨[], result⟩

def bind {α β : Type} (x : Logged α) (f : α → Logged β) : Logged β :=
  match x.result with
  | .error fault => ⟨x.log, .error fault⟩
  | .ok a =>
    let y := f a
    ⟨x.log ++ y.log, y.result⟩

instance : Monad Logged where
  pure a := ⟨[], .ok a⟩
  bind := Logged.bind

def fail {α : Type} (fault : Fault) : Logged α :=
  ⟨[], .error fault⟩

def write (level : Level) (text : String) : Logged Unit :=
  ⟨[⟨level, text⟩], .ok ()⟩

def debug (text : String) : Logged Unit :=
  write .debug text

def info (text : String) : Logged Unit :=
  write .info text

def warning (text : String) : Logged Unit :=
  write .warning text

@[simp] theorem log_pure {α : Type} (a : α) : (pure a : Logged α).log = [] := rfl

@[simp] theorem result_pure {α : Type} (a : α) : (pure a : Logged α).result = .ok a := rfl

@[simp] theorem result_ofResult {α : Type} (r : Except Fault α) : (ofResult r).result = r := rfl

@[simp] theorem result_debug (text : String) : (debug text).result = .ok () := rfl

@[simp] theorem result_fail {α : Type} (fault : Fault) :
    (fail fault : Logged α).result = .error fault := rfl

theorem bind_of_ok {α β : Type} {x : Logged α} {a : α} (h : x.result = .ok a) (f : α → Logged β) :
    x >>= f = ⟨x.log ++ (f a).log, (f a).result⟩ := by
  show Logged.bind x f = _
  simp [Logged.bind, h]

theorem bind_of_error {α β : Type} {x : Logged α} {fault : Fault} (h : x.result = .error fault)
    (f : α → Logged β) : x >>= f = ⟨x.log, .error fault⟩ := by
  show Logged.bind x f = _
  simp [Logged.bind, h]

theorem bind_bind {α β γ : Type} (x : Logged α) (f : α → Logged β) (g : β → Logged γ) :
    (x.bind f).bind g = x.bind fun a => (f a).bind g := by
  rcases x with ⟨log, fault | a⟩
  · rfl
  · rcases hf : f a with ⟨next, fault | b⟩ <;> simp [Logged.bind, hf]

instance : LawfulMonad Logged :=
  LawfulMonad.mk' Logged
    (fun x => by
      show Logged.bind x _ = x
      rcases x with ⟨log, fault | a⟩ <;> simp [Logged.bind])
    (fun _ _ => rfl)
    bind_bind

/-- What follows a computation only matters for the values it can end with. -/
theorem bind_congr_of_ok {α β : Type} {x : Logged α} {f g : α → Logged β}
    (h : ∀ a, x.result = .ok a → f a = g a) : x >>= f = x >>= g := by
  rcases hx : x.result with fault | a
  · rw [bind_of_error hx, bind_of_error hx]
  · rw [bind_of_ok hx, bind_of_ok hx, h a hx]

/-- A computation ends with a value if both of its steps do. -/
theorem result_bind_eq_ok {α β : Type} {x : Logged α} {f : α → Logged β} {b : β} :
    (x >>= f).result = .ok b ↔ ∃ a, x.result = .ok a ∧ (f a).result = .ok b := by
  rcases hx : x.result with fault | a
  · simp [bind_of_error hx]
  · simp [bind_of_ok hx]

/-- Computations end alike if both of their steps do, whatever they log. -/
theorem result_bind_congr {α β : Type} {x y : Logged α} {f g : α → Logged β}
    (h : x.result = y.result) (hfg : ∀ a, (f a).result = (g a).result) :
    (x >>= f).result = (y >>= g).result := by
  rcases hy : y.result with fault | a
  · rw [bind_of_error hy, bind_of_error (h.trans hy)]
  · rw [bind_of_ok hy, bind_of_ok (h.trans hy)]
    exact hfg a

/-- Writing to the log never stops a computation. -/
@[simp] theorem result_debug_bind {α : Type} (text : String) (f : Unit → Logged α) :
    (debug text >>= f).result = (f ()).result := rfl

theorem result_check_bind_eq_ok {α : Type} {checked : Except Fault Unit} {f : Unit → Logged α}
    {a : α} :
    (ofResult checked >>= f).result = .ok a ↔ checked = .ok () ∧ (f ()).result = .ok a := by
  rw [result_bind_eq_ok]
  exact ⟨fun ⟨(), h⟩ => h, fun h => ⟨(), h⟩⟩

end Logged
end SchemaScript
