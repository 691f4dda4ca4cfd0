import Mathlib.Data.List.Nodup

/-!
# Event emitters

Library `Js`. The listeners of Node's `EventEmitter` in the order of their registration, and whom
a call of `emit`, `on` or `off` calls, with what. `on` first emits `newListener`, `off` afterwards
emits `removeListener`, and `emit` of `error` throws when nobody listens.
-/

namespace Js

/-- Listeners with their event names, oldest first. -/
structure EventEmitter (L : Type) where
  registered : List (String × L)

namespace EventEmitter

variable {L E : Type}

/-- An emitter without listeners. -/
def empty : EventEmitter L := ⟨[]⟩

/-- The listeners of an event, in the order in which `emit` calls them. -/
def listeners (events : EventEmitter L) (name : String) : List L :=
  (events.registered.filter (fun entry ↦ entry.1 = name)).map Prod.snd

/-- The calls of the listeners of an event, each with the same argument. -/
def calls (events : EventEmitter L) (name : String) (argument : E) : List (L × E) :=
  (events.listeners name).map fun listener ↦ (listener, argument)

/-- The calls that `emit` makes; `none` is an exception. -/
def emit (events : EventEmitter L) (name : String) (argument : E) : Option (List (L × E)) :=
  if name = "error" ∧ events.listeners name = [] then none else some (events.calls name argument)

/-- `on`, after it has emitted `newListener`. -/
def on (events : EventEmitter L) (name : String) (listener : L) : EventEmitter L :=
  ⟨events.registered ++ [(name, listener)]⟩

/-- `off`, before it emits `removeListener`: the latest registration of the listener goes. -/
def off [DecidableEq L] (events : EventEmitter L) (name : String) (listener : L) :
    EventEmitter L :=
  ⟨(events.registered.reverse.erase (name, listener)).reverse⟩

/-- Whoever is called is a listener of the event, and is called with the argument. -/
theorem mem_calls {events : EventEmitter L} {name : String} {argument : E} {call : L × E} :
    call ∈ events.calls name argument ↔ call.1 ∈ events.listeners name ∧ call.2 = argument := by
  rw [calls, List.mem_map]
  constructor
  · rintro ⟨listener, hlistener, rfl⟩
    exact ⟨hlistener, rfl⟩
  · rintro ⟨hlistener, rfl⟩
    exact ⟨call.1, hlistener, rfl⟩

/-- An event that somebody listens to, or other than `error`, calls its listeners. -/
theorem calls_of_emit {events : EventEmitter L} {name : String} {argument : E}
    {called : List (L × E)} (h : events.emit name argument = some called) :
    called = events.calls name argument := by
  unfold emit at h
  split at h
  · cases h
  · exact (Option.some.inj h).symm

/-- `emit` throws only when there is nobody to call. -/
theorem listeners_of_emit_eq_none {events : EventEmitter L} {name : String} {argument : E}
    (h : events.emit name argument = none) : events.listeners name = [] := by
  unfold emit at h
  split at h
  · next hnone => exact hnone.2
  · cases h

/-! ### What is registered -/

/-- A registration is the last one. -/
theorem mem_on {events : EventEmitter L} {name : String} {listener : L} {entry : String × L} :
    entry ∈ (events.on name listener).registered ↔
      entry ∈ events.registered ∨ entry = (name, listener) := by
  rw [on, List.mem_append, List.mem_singleton]

/-- A registration of a new listener repeats none. -/
theorem nodup_on {events : EventEmitter L} {name : String} {listener : L}
    (h : events.registered.Nodup) (hnew : (name, listener) ∉ events.registered) :
    (events.on name listener).registered.Nodup := by
  refine List.nodup_append.mpr ⟨h, List.nodup_singleton _, ?_⟩
  intro entry hentry other hother heq
  rw [List.mem_singleton.mp hother] at heq
  exact hnew (heq ▸ hentry)

variable [DecidableEq L]

/-- Without repetitions `off` removes one registration. -/
theorem mem_off {events : EventEmitter L} {name : String} {listener : L} {entry : String × L}
    (h : events.registered.Nodup) :
    entry ∈ (events.off name listener).registered ↔
      entry ≠ (name, listener) ∧ entry ∈ events.registered := by
  rw [off, List.mem_reverse, (List.nodup_reverse.mpr h).mem_erase_iff, List.mem_reverse]

/-- Without repetitions `off` keeps the other registrations in their order. -/
theorem off_eq_filter {events : EventEmitter L} {name : String} {listener : L}
    (h : events.registered.Nodup) :
    (events.off name listener).registered =
      events.registered.filter (fun entry ↦ entry ≠ (name, listener)) := by
  rw [off, (List.nodup_reverse.mpr h).erase_eq_filter, List.filter_reverse, List.reverse_reverse]
  refine List.filter_congr fun entry _ ↦ Bool.eq_iff_iff.mpr ?_
  simp

/-- `off` repeats no registration. -/
theorem nodup_off {events : EventEmitter L} {name : String} {listener : L}
    (h : events.registered.Nodup) : (events.off name listener).registered.Nodup :=
  List.nodup_reverse.mpr ((List.nodup_reverse.mpr h).erase _)

end EventEmitter

end Js
