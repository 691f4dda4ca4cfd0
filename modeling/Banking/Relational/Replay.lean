import Mathlib.Data.List.Basic

/-!
# Replaying a log

Library `Relational`. A state that is changed by events, each of which is allowed in some states
only, is determined by its log. A log is legal if each event is allowed where the earlier ones have
led. What every allowed event keeps, a legal log keeps.
-/

namespace Relational

/-- How events change a state, and where they are allowed. -/
structure Reducer (S E : Type) where
  allowed : S → E → Prop
  apply : S → E → S

namespace Reducer

variable {S E : Type} (r : Reducer S E)

/-- The state after a log. -/
def replay (s : S) (log : List E) : S := log.foldl r.apply s

/-- Every event of the log is allowed where it happens. -/
def Legal : S → List E → Prop
  | _, [] => True
  | s, e :: log => r.allowed s e ∧ Legal (r.apply s e) log

variable {r} {s : S}

/-- A log can be replayed in two parts. -/
theorem replay_append (s : S) (log later : List E) :
    r.replay s (log ++ later) = r.replay (r.replay s log) later := List.foldl_append

/-- The last event of a log is applied last. -/
theorem replay_concat (s : S) (log : List E) (e : E) :
    r.replay s (log ++ [e]) = r.apply (r.replay s log) e := r.replay_append s log [e]

/-- A log is legal if its first part is, and the rest after it. -/
theorem legal_append {log later : List E} :
    r.Legal s (log ++ later) ↔ r.Legal s log ∧ r.Legal (r.replay s log) later := by
  induction log generalizing s with
  | nil => exact ⟨fun h ↦ ⟨trivial, h⟩, fun h ↦ h.2⟩
  | cons e log ih =>
    constructor
    · rintro ⟨hallowed, hrest⟩
      exact ⟨⟨hallowed, (ih.mp hrest).1⟩, (ih.mp hrest).2⟩
    · rintro ⟨⟨hallowed, hlog⟩, hlater⟩
      exact ⟨hallowed, ih.mpr ⟨hlog, hlater⟩⟩

/-- One more event keeps a log legal if it is allowed. -/
theorem Legal.concat {log : List E} {e : E} (h : r.Legal s log)
    (he : r.allowed (r.replay s log) e) : r.Legal s (log ++ [e]) :=
  legal_append.mpr ⟨h, he, trivial⟩

/-- What every allowed event keeps, a legal log keeps. -/
theorem Legal.invariant {P : S → Prop} (hstep : ∀ s e, r.allowed s e → P s → P (r.apply s e))
    {log : List E} (h : r.Legal s log) (hs : P s) : P (r.replay s log) := by
  induction log generalizing s with
  | nil => exact hs
  | cons e log ih => exact ih h.2 (hstep s e h.1 hs)

end Reducer

end Relational
