import StreamConsumer.Fault

/-!
# Outcomes with their records

Some operations leave debug records behind. `Outcome` is what such an operation comes to: its
records in order, and a result or the fault for which there is none. Records that were written before
a fault stay.
-/

namespace StreamConsumer

/-- The parts of the library that write records. -/
inductive LogSource where
  /-- Configurations and their documents. -/
  | configuration
  /-- Create requests and their answers. -/
  | requests
  deriving DecidableEq, Repr

/-- A debug record. -/
structure LogRecord where
  /-- Who wrote it. -/
  source : LogSource
  /-- What it says. -/
  text : Text
  deriving DecidableEq, Repr

namespace LogRecord

/-- The name under which a part of the library writes. -/
def logger (r : LogRecord) : Text :=
  match r.source with
  | .configuration => "jsconsumer.config"
  | .requests => "jsconsumer.manager"

/-- The level of a record; all records are for debugging. -/
def level (_ : LogRecord) : Text := "DEBUG"

end LogRecord

/-- What an operation comes to. -/
structure Outcome (α : Type) where
  /-- The records written, in order. -/
  records : List LogRecord
  /-- The result, or why there is none. -/
  result : Except Fault α

namespace Outcome

/-- A result or fault without records. -/
def ofExcept {α : Type} (r : Except Fault α) : Outcome α := ⟨[], r⟩

/-- A record alone. -/
def record (r : LogRecord) : Outcome Unit := ⟨[r], .ok ()⟩

/-- One operation after another; a fault ends the work. -/
def andThen {α β : Type} (a : Outcome α) (f : α → Outcome β) : Outcome β :=
  match a.result with
  | .ok x =>
    let b := f x
    ⟨a.records ++ b.records, b.result⟩
  | .error e => ⟨a.records, .error e⟩

/-- Operations can follow one another. -/
instance : Monad Outcome where
  pure x := ⟨[], .ok x⟩
  bind := andThen

/-- A fault can be raised, and what follows it keeps the records before it. -/
instance : MonadExceptOf Fault Outcome where
  throw e := ⟨[], .error e⟩
  tryCatch a f :=
    match a.result with
    | .ok x => ⟨a.records, .ok x⟩
    | .error e =>
      let b := f e
      ⟨a.records ++ b.records, b.result⟩

/-- A step without records is an operation. -/
instance : MonadLift (Except Fault) Outcome := ⟨ofExcept⟩

/-- The result of one operation after another is that of the two results. -/
theorem result_bind {α β : Type} (a : Outcome α) (f : α → Outcome β) :
    (a >>= f).result = a.result >>= fun x => (f x).result := by
  rcases a with ⟨records, _ | x⟩ <;> rfl

end Outcome

end StreamConsumer
