/-! Tasks of one thread around a lock that is not reentrant. A task that takes the lock while its thread
    holds it waits for ever; an exception gives the lock back. -/

namespace Empyralis

/-- How a task ends, if it does. -/
inductive Ended (ε α : Type) where
  | returns (value : α)
  | raises (error : ε)
  | hangs
  deriving DecidableEq

structure Holding (σ : Type) where
  held : Bool
  state : σ

abbrev Task (ε σ α : Type) := Holding σ → Ended ε α × Holding σ

namespace Task

variable {ε σ α β : Type}

def ret (value : α) : Task ε σ α := fun s => (.returns value, s)

def fail (error : ε) : Task ε σ α := fun s => (.raises error, s)

/-- A part that does not touch the lock. -/
def lift (body : σ → Except ε α × σ) : Task ε σ α := fun s =>
  match body s.state with
  | (.ok value, t) => (.returns value, ⟨s.held, t⟩)
  | (.error error, t) => (.raises error, ⟨s.held, t⟩)

def bind (m : Task ε σ α) (next : α → Task ε σ β) : Task ε σ β := fun s =>
  match m s with
  | (.returns value, t) => next value t
  | (.raises error, t) => (.raises error, t)
  | (.hangs, t) => (.hangs, t)

/-- `with lock:` -/
def withLock (body : Task ε σ α) : Task ε σ α := fun s =>
  if s.held then (.hangs, s)
  else
    match body ⟨true, s.state⟩ with
    | (.returns value, t) => (.returns value, ⟨false, t.state⟩)
    | (.raises error, t) => (.raises error, ⟨false, t.state⟩)
    | (.hangs, t) => (.hangs, t)

theorem lift_ok {body : σ → Except ε α × σ} {s : Holding σ} {value : α} {t : σ}
    (h : body s.state = (.ok value, t)) : lift body s = (.returns value, ⟨s.held, t⟩) := by
  rw [lift, h]

theorem lift_error {body : σ → Except ε α × σ} {s : Holding σ} {error : ε} {t : σ}
    (h : body s.state = (.error error, t)) : lift body s = (.raises error, ⟨s.held, t⟩) := by
  rw [lift, h]

theorem bind_returns {m : Task ε σ α} {next : α → Task ε σ β} {s t : Holding σ} {value : α}
    (h : m s = (.returns value, t)) : bind m next s = next value t := by
  rw [bind, h]

theorem bind_raises {m : Task ε σ α} {next : α → Task ε σ β} {s t : Holding σ} {error : ε}
    (h : m s = (.raises error, t)) : bind m next s = (.raises error, t) := by
  rw [bind, h]

theorem bind_hangs {m : Task ε σ α} {next : α → Task ε σ β} {s t : Holding σ}
    (h : m s = (.hangs, t)) : bind m next s = (.hangs, t) := by
  rw [bind, h]

/-- The lock that the thread itself holds. -/
theorem withLock_held {body : Task ε σ α} {s : Holding σ} (h : s.held = true) :
    withLock body s = (.hangs, s) := if_pos h

theorem withLock_returns {body : Task ε σ α} {s : Holding σ} {value : α} {t : Holding σ}
    (hs : s.held = false) (h : body ⟨true, s.state⟩ = (.returns value, t)) :
    withLock body s = (.returns value, ⟨false, t.state⟩) := by
  simp only [withLock, hs, h, Bool.false_eq_true, if_false]

theorem withLock_raises {body : Task ε σ α} {s : Holding σ} {error : ε} {t : Holding σ}
    (hs : s.held = false) (h : body ⟨true, s.state⟩ = (.raises error, t)) :
    withLock body s = (.raises error, ⟨false, t.state⟩) := by
  simp only [withLock, hs, h, Bool.false_eq_true, if_false]

theorem withLock_hangs {body : Task ε σ α} {s : Holding σ} {t : Holding σ}
    (hs : s.held = false) (h : body ⟨true, s.state⟩ = (.hangs, t)) :
    withLock body s = (.hangs, t) := by
  simp only [withLock, hs, h, Bool.false_eq_true, if_false]

end Task

end Empyralis
