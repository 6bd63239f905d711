/-! Computations that may fail and that record events on their way, the ones before a failure too. -/

namespace Empyralis.Lib

structure Traced (E ε α : Type) where
  events : List E
  result : Except ε α

namespace Traced

variable {E ε α β : Type} {p : E → Prop}

def bind (m : Traced E ε α) (f : α → Traced E ε β) : Traced E ε β :=
  match m.result with
  | .error e => ⟨m.events, .error e⟩
  | .ok a => ⟨m.events ++ (f a).events, (f a).result⟩

instance : Monad (Traced E ε) where
  pure a := ⟨[], .ok a⟩
  bind := Traced.bind

/-- A result without an event. -/
def silent (result : Except ε α) : Traced E ε α := ⟨[], result⟩

def raise (e : ε) : Traced E ε α := silent (.error e)

/-- One event, then the result. -/
def emit (event : E) (result : Except ε α) : Traced E ε α := ⟨[event], result⟩

/-- Each event of the computation has `p`. -/
def Only (p : E → Prop) (m : Traced E ε α) : Prop := ∀ event ∈ m.events, p event

theorem only_silent (result : Except ε α) : Only p (silent result : Traced E ε α) := by
  rintro event ⟨⟩

theorem only_pure (a : α) : Only p (pure a : Traced E ε α) := only_silent (.ok a)

theorem only_raise (e : ε) : Only p (raise e : Traced E ε α) := only_silent (.error e)

theorem only_emit {event : E} {result : Except ε α} : Only p (emit event result) ↔ p event := List.forall_mem_singleton

/-- What follows counts with the results that it is reached with. -/
theorem only_bind {m : Traced E ε α} {f : α → Traced E ε β} :
    Only p (m >>= f) ↔ Only p m ∧ ∀ a, m.result = .ok a → Only p (f a) := by
  obtain ⟨events, result⟩ := m
  cases result with
  | error e =>
    refine ⟨fun h => ⟨h, ?_⟩, fun h => h.1⟩
    rintro a ⟨⟩
  | ok a =>
    constructor
    · intro h
      refine ⟨fun event hevent => h event (List.mem_append_left _ hevent), ?_⟩
      rintro _ ⟨⟩ event hevent
      exact h event (List.mem_append_right _ hevent)
    · rintro ⟨hm, hf⟩ event hevent
      rcases List.mem_append.mp hevent with h | h
      · exact hm event h
      · exact hf a rfl event h

theorem Only.bind {m : Traced E ε α} {f : α → Traced E ε β} (hm : Only p m) (hf : ∀ a, Only p (f a)) :
    Only p (m >>= f) := only_bind.mpr ⟨hm, fun a _ => hf a⟩

theorem Only.ite {c : Prop} [Decidable c] {m n : Traced E ε α} (hm : Only p m) (hn : Only p n) :
    Only p (if c then m else n) := by
  split
  · exact hm
  · exact hn

end Traced

end Empyralis.Lib
