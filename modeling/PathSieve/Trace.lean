import PathSieve.Scope
import PathSieve.Verdict

/-!
# Traces

Compiling rules and asking them leaves a trace: an event for every mask made, one
for every list of exclusions added, and one for every answer given. A computation
that leaves a trace is a `Traced` value, its result together with its events in the
order in which they happened. Computations in sequence join their events.
-/

namespace PathSieve

/-- What can be observed of rules at work. -/
inductive Event where
  /-- A phrase gave a mask, for letting through or for holding back. -/
  | maskCompiled (phrase mask : Text) (scope : Scope) (included : Bool)
  /-- A list of exclusions was added; the counts are those of all exclusion masks then. -/
  | exclusionAdded (text : Text) (entryCount folderCount : Nat)
  /-- Rules answered for a file. -/
  | fileJudged (path : Text) (passed : Bool)
  /-- Rules answered for a folder, with the hint where one was asked for. -/
  | folderJudged (path : Text) (passed : Bool) (hint? : Option Hint)
deriving DecidableEq, Repr

/-- A result and the events on the way to it. -/
structure Traced (α : Type) where
  value : α
  events : List Event

namespace Traced

variable {α β : Type}

instance : Monad Traced where
  pure value := ⟨value, []⟩
  bind step next :=
    let after := next step.value
    ⟨after.value, step.events ++ after.events⟩

/-- Nothing happens on the way to a value that is there. -/
@[simp] theorem value_pure (value : α) : (pure value : Traced α).value = value := rfl

@[simp] theorem events_pure (value : α) : (pure value : Traced α).events = [] := rfl

/-- In a sequence the second step starts from the first one's result. -/
@[simp] theorem value_bind (step : Traced α) (next : α → Traced β) :
    (step >>= next).value = (next step.value).value := rfl

/-- In a sequence the second step's events follow the first one's. -/
@[simp] theorem events_bind (step : Traced α) (next : α → Traced β) :
    (step >>= next).events = step.events ++ (next step.value).events := rfl

/-- Changing the result leaves the events alone. -/
@[simp] theorem value_map (change : α → β) (step : Traced α) :
    (change <$> step).value = change step.value := rfl

@[simp] theorem events_map (change : α → β) (step : Traced α) :
    (change <$> step).events = step.events := List.append_nil _

end Traced

end PathSieve
