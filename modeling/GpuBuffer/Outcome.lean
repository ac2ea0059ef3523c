import GpuBuffer.Event

namespace GpuBuffer

/-- A result together with the events reported on the way to it, in order. -/
structure Outcome (α : Type) where
  events : List Event
  result : Except BufferError α

/-- Reports what a success has to say. A failure is silent. -/
def Outcome.ofResult {α : Type} (events : α → List Event) : Except BufferError α → Outcome α
  | .ok value => ⟨events value, .ok value⟩
  | .error error => ⟨[], .error error⟩

/-- A schema that resolves to a layout. -/
class Resolvable (σ : Type) (δ : outParam Type) where
  resolve : σ → Outcome δ

/-- A refused call, by its position among the calls. -/
structure RefusedCall where
  position : Nat
  error : BufferError
  deriving DecidableEq

/-- Applies calls in order, up to the first that is refused. -/
def applyCalls {σ κ : Type} (apply : σ → κ → Except BufferError σ) :
    Nat → σ → List κ → Except RefusedCall σ
  | _, schema, [] => .ok schema
  | position, schema, call :: rest =>
    match apply schema call with
    | .ok next => applyCalls apply (position + 1) next rest
    | .error error => .error ⟨position, error⟩

/-- The first name in the list that occurs earlier in it, or among those `seen` before. -/
def repeatedName? (seen : List String) : List String → Option String
  | [] => none
  | name :: rest => if name ∈ seen then some name else repeatedName? (name :: seen) rest

end GpuBuffer
