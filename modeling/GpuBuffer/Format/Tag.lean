import GpuBuffer.Error

namespace GpuBuffer

/-- A closed set of formats, each spelled by a tag. -/
class Tagged (α : Type) where
  all : List α
  tag : α → String

/-- Reads a tag. Nothing but the exact spelling of a format is accepted. -/
def Tagged.ofTag {α : Type} [Tagged α] (tag : String) : Except BufferError α :=
  match (all (α := α)).find? fun format => Tagged.tag format == tag with
  | some format => .ok format
  | none => .error (.unsupportedType tag)

/-- The name of a format in diagnostics: its tag with a capital initial. -/
def Tagged.name {α : Type} [Tagged α] (format : α) : String :=
  (tag format).capitalize

end GpuBuffer
