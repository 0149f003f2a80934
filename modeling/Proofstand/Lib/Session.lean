/-
Sessions on a store: a block of statements that works on what it sees,
and what is there after it.

A session publishes its block's writes when the block ends and the
commit returns, and nothing otherwise. `session_cases` is the one fact
about it; a caller's own steps between sessions are `afterwards`.

# What a caller relies on

A block is a state transformer that may fail; `block_bind_eq_ok` takes one
that returned apart at its first statement, with the store between the two.
The commit is a parameter that may fail too: the failure reaches the
caller and the store is as it was, so a refused commit and a failed
statement look alike from outside. What a session never does is leave a
part of its block behind, and that is how `session_cases` is used: either
nothing happened to the store, or everything did.

A caller that goes on after a failure, or that opens a second session once
the first has returned, has the store each of them left (`afterwards`).
-/
import Proofstand.Lib.Fallible

namespace Proofstand.Session

open Fallible

variable {ε σ α β : Type}

-- ================================================================ blocks

/-- Statements on the store a session sees: a value and the store as they
leave it, or a failure. -/
abbrev Block (ε σ α : Type) := StateT σ (Except ε) α

/-- A block has committed exactly when both its parts have, one after the
other. -/
theorem block_bind_eq_ok {x : Block ε σ α} {f : α → Block ε σ β} {s s' : σ}
    {b : β} :
    (x >>= f) s = .ok (b, s') ↔ ∃ a t, x s = .ok (a, t) ∧ f a t = .ok (b, s') := by
  show (x s >>= fun p => f p.1 p.2) = _ ↔ _
  rw [bind_eq_ok]
  constructor
  · intro h
    obtain ⟨⟨a, t⟩, hx, hf⟩ := h
    exact ⟨a, t, hx, hf⟩
  · intro h
    obtain ⟨a, t, hx, hf⟩ := h
    exact ⟨(a, t), hx, hf⟩

-- ============================================================== sessions

/-- What a caller gets, and what the store then holds. -/
abbrev Outcome (ε σ α : Type) := Except ε α × σ

/-- A block in a session of its own, committed at its end. -/
def session (commit : Except ε Unit) (block : Block ε σ α) (s : σ) :
    Outcome ε σ α :=
  match block s with
  | .error e => (.error e, s)
  | .ok (a, s') =>
      match commit with
      | .error e => (.error e, s)
      | .ok () => (.ok a, s')

/-- What follows an outcome that has a value. -/
def afterwards (o : Outcome ε σ α) (f : α → σ → Outcome ε σ β) :
    Outcome ε σ β :=
  match o.1 with
  | .error e => (.error e, o.2)
  | .ok a => f a o.2

/-- A session fails and leaves the store, or its block ended and all its
writes are there. -/
theorem session_cases (commit : Except ε Unit) (block : Block ε σ α)
    (s : σ) :
    (∃ e, session commit block s = (.error e, s))
      ∨ ∃ a s', block s = .ok (a, s') ∧ commit = .ok ()
        ∧ session commit block s = (.ok a, s') := by
  unfold session
  cases hblock : block s with
  | error e => exact Or.inl ⟨e, rfl⟩
  | ok p =>
      obtain ⟨a, s'⟩ := p
      cases commit with
      | error e => exact Or.inl ⟨e, rfl⟩
      | ok u => exact Or.inr ⟨a, s', rfl, rfl, rfl⟩

theorem afterwards_error {o : Outcome ε σ α} {e : ε}
    (h : o.1 = .error e) (f : α → σ → Outcome ε σ β) :
    afterwards o f = (.error e, o.2) := by
  unfold afterwards
  rw [h]

theorem afterwards_ok {o : Outcome ε σ α} {a : α} (h : o.1 = .ok a)
    (f : α → σ → Outcome ε σ β) : afterwards o f = f a o.2 := by
  unfold afterwards
  rw [h]

end Proofstand.Session
