import GpuBuffer.Outcome

namespace GpuBuffer

/-- A layout that several holders share. Two are the same instance if their numbers agree. -/
structure Shared (δ : Type) where
  id : Nat
  layout : δ
  deriving DecidableEq

/-- Layouts resolved so far, each under the schema it came from, and the number of instances made. -/
structure Cache (σ δ : Type) where
  entries : List (σ × Shared δ) := []
  issued : Nat := 0

namespace Cache

variable {σ δ : Type}

def empty : Cache σ δ := {}

def size (cache : Cache σ δ) : Nat :=
  cache.entries.length

def isEmpty (cache : Cache σ δ) : Bool :=
  cache.size == 0

/-- Forgets the entries. Instances handed out before keep their numbers. -/
def clear (cache : Cache σ δ) : Cache σ δ :=
  { cache with entries := [] }

def insert (cache : Cache σ δ) (schema : σ) (layout : δ) : Cache σ δ :=
  ⟨(schema, ⟨cache.issued, layout⟩) :: cache.entries, cache.issued + 1⟩

variable [DecidableEq σ]

def find? (cache : Cache σ δ) (schema : σ) : Option (Shared δ) :=
  (cache.entries.find? (·.1 = schema)).map (·.2)

/-- The layout of a schema, resolved on the first request. A schema that does not resolve is not
remembered. -/
def get [Resolvable σ δ] (cache : Cache σ δ) (schema : σ) : Cache σ δ × Outcome (Shared δ) :=
  match cache.find? schema with
  | some shared => (cache, ⟨[.cacheHit], .ok shared⟩)
  | none =>
    let resolved := Resolvable.resolve schema
    let events := Event.cacheMiss :: resolved.events
    match resolved.result with
    | .ok layout => (cache.insert schema layout, ⟨events, .ok ⟨cache.issued, layout⟩⟩)
    | .error e => (cache, ⟨events, .error e⟩)

end Cache

/-- What a client asks of a cache. -/
inductive CacheCall (σ : Type)
  | get (schema : σ)
  | size
  | clear

/-- The answer to one call: what was reported, the cache's size afterwards, and the layout asked for. -/
structure CacheReply (δ : Type) where
  events : List Event
  size : Nat
  shared : Option (Except BufferError (Shared δ))

namespace Cache

variable {σ δ : Type} [DecidableEq σ] [Resolvable σ δ]

def call (cache : Cache σ δ) : CacheCall σ → Cache σ δ × CacheReply δ
  | .get schema =>
    let (next, outcome) := cache.get schema
    (next, ⟨outcome.events, next.size, some outcome.result⟩)
  | .size => (cache, ⟨[], cache.size, none⟩)
  | .clear => (cache.clear, ⟨[], cache.clear.size, none⟩)

/-- Answers calls in order. -/
def run (cache : Cache σ δ) : List (CacheCall σ) → Cache σ δ × List (CacheReply δ)
  | [] => (cache, [])
  | c :: rest =>
    let (next, reply) := cache.call c
    let (last, replies) := next.run rest
    (last, reply :: replies)

end Cache

namespace Shared

variable {δ : Type}

/-- Adds an instance to those held, unless it is among them. -/
def hold (held : List (Shared δ)) (shared : Shared δ) : List (Shared δ) :=
  if held.any (·.id = shared.id) then held else held ++ [shared]

/-- The numbers of the held instances whose layout equals `layout`. -/
def equalTo [DecidableEq δ] (held : List (Shared δ)) (layout : δ) : List Nat :=
  (held.filter (·.layout = layout)).map (·.id)

end Shared

end GpuBuffer
