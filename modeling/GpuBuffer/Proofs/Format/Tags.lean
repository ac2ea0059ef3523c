import GpuBuffer.Format.Measure
import GpuBuffer.Proofs.Declaration.Calls
import GpuBuffer.Proofs.Placement
import GpuBuffer.Text.Column

namespace GpuBuffer

/-- A column that cuts nothing leaves a text alone that fills it. -/
theorem Column.render_of_full {column : Column} {text : String} (uncut : column.limit = none)
    (full : column.width ≤ text.length) : column.render text = text := by
  have gap : column.width - text.toList.length = 0 := Nat.sub_eq_zero_of_le full
  simp only [render, uncut, gap, Nat.zero_sub, List.replicate_zero, List.append_nil]
  cases column.justification <;> exact String.ofList_toList

namespace Tagged

/-- A format as it is displayed where no column is asked for. -/
def display {α : Type} [Tagged α] (format : α) : String :=
  ({ width := 0 } : Column).render (tag format)

theorem display_eq_tag {α : Type} [Tagged α] (format : α) : display format = tag format :=
  Column.render_of_full rfl (Nat.zero_le _)

/-- Every format is listed, under a tag that no other has. -/
class Lawful (α : Type) [Tagged α] : Prop where
  mem_all : ∀ format : α, format ∈ all
  distinct : ((all (α := α)).map tag).Nodup

instance : Lawful VertexFormat := ⟨VertexFormat.mem_all, by decide⟩
instance : Lawful MemberType := ⟨MemberType.mem_all, by decide⟩
instance : Lawful IndexFormat := ⟨IndexFormat.mem_all, by decide⟩

section
variable {α β : Type} [Tagged α] [Tagged β] [Lawful α] [Lawful β] {text : String}

theorem ofTag_tag (format : α) : ofTag (tag format) = .ok format := by
  have found := find?_of_nodup Lawful.distinct (Lawful.mem_all format)
  simp only [ofTag, found]

/-- A text is the tag of a format and read as that, or the tag of none and refused. -/
theorem ofTag_cases (α : Type) [Tagged α] [Lawful α] (text : String) :
    (∃ format : α, text = tag format ∧ ofTag text = .ok format) ∨
      (∀ format : α, text ≠ tag format) ∧ (ofTag text : Except BufferError α) = .error (.unsupportedType text) := by
  by_cases known : text ∈ (all (α := α)).map tag
  · obtain ⟨format, _, rfl⟩ := List.mem_map.mp known
    exact Or.inl ⟨format, rfl, ofTag_tag format⟩
  · refine Or.inr ⟨?_, ofTag_of_unknown known⟩
    rintro format rfl
    exact known (List.mem_map_of_mem (Lawful.mem_all format))

theorem ofTag_eq_ok_iff {format : α} : ofTag text = .ok format ↔ text = tag format := by
  constructor
  · intro read
    rcases ofTag_cases α text with ⟨other, spelled, same⟩ | ⟨_, refused⟩
    · cases same.symm.trans read
      exact spelled
    · cases refused.symm.trans read
  · rintro rfl
    exact ofTag_tag format

theorem ofTag_eq_error_iff {error : BufferError} :
    (ofTag text : Except BufferError α) = .error error ↔
      (∀ format : α, text ≠ tag format) ∧ error = .unsupportedType text := by
  rcases ofTag_cases α text with ⟨format, spelled, read⟩ | ⟨unknown, refused⟩
  · rw [read]
    exact iff_of_false nofun fun both => both.1 format spelled
  · rw [refused, Except.error.injEq, eq_comm]
    exact (and_iff_right unknown).symm

theorem tag_injective : Function.Injective (tag : α → String) := by
  intro format other same
  have read : ofTag (tag format) = .ok other := ofTag_eq_ok_iff.mpr same
  exact Except.ok.inj ((ofTag_tag format).symm.trans read)

/-- Kinds of formats that agree on the sizes of their common tags agree on a text that both read. -/
theorem size_eq_of_read {size : α → Nat} {otherSize : β → Nat}
    (agree : ∀ f ∈ all (α := α), ∀ g ∈ all (α := β), tag f = tag g → size f = otherSize g) {f : α} {g : β}
    (read : ofTag text = .ok f) (otherRead : ofTag text = .ok g) : size f = otherSize g := by
  have same : tag f = tag g := (ofTag_eq_ok_iff.mp read).symm.trans (ofTag_eq_ok_iff.mp otherRead)
  exact agree f (Lawful.mem_all f) g (Lawful.mem_all g) same

/-- Reading undoes displaying and accepts nothing else. What it refuses it reports unchanged. -/
structure ReadsDisplayed (α : Type) [Tagged α] : Prop where
  read_iff : ∀ (text : String) (format : α), ofTag text = .ok format ↔ text = display format
  refused_iff : ∀ (text : String) (error : BufferError),
    (ofTag text : Except BufferError α) = .error error ↔
      (∀ format : α, text ≠ display format) ∧ error = .unsupportedType text
  read_display : ∀ format : α, ofTag (display format) = .ok format
  distinct : Function.Injective (display : α → String)

theorem readsDisplayed : ReadsDisplayed α := by
  have displayed : (display : α → String) = tag := funext display_eq_tag
  refine ⟨?_, ?_, ?_, displayed ▸ tag_injective⟩
  · intro text format
    rw [displayed, ofTag_eq_ok_iff]
  · intro text error
    rw [displayed, ofTag_eq_error_iff]
  · intro format
    rw [displayed, ofTag_tag]

end

end Tagged

/-- A format of any kind. -/
inductive AnyFormat
  | vertex (format : VertexFormat)
  | member (type : MemberType)
  | index (format : IndexFormat)

namespace AnyFormat

def size : AnyFormat → Nat
  | .vertex format => format.size
  | .member type => type.size
  | .index format => format.size

/-- Among the formats of its kind it is the one that a text reads as. -/
def ReadFrom (text : String) : AnyFormat → Prop
  | .vertex format => Tagged.ofTag text = .ok format
  | .member type => Tagged.ofTag text = .ok type
  | .index format => Tagged.ofTag text = .ok format

end AnyFormat

theorem vertex_member_sizes :
    ∀ format ∈ VertexFormat.all, ∀ type ∈ MemberType.all, format.tag = type.tag → format.size = type.size := by
  decide

theorem vertex_index_sizes :
    ∀ format ∈ VertexFormat.all, ∀ other ∈ IndexFormat.all, format.tag = other.tag → format.size = other.size := by
  decide

theorem member_index_sizes :
    ∀ type ∈ MemberType.all, ∀ format ∈ IndexFormat.all, type.tag = format.tag → type.size = format.size := by
  decide

section
variable {text : String}

/-- The search for a size ends at the first kind that reads the text, and any other that does has the size, too. -/
theorem sizeOfTag_of_readFrom {format : AnyFormat} (read : format.ReadFrom text) :
    sizeOfTag text = .ok format.size := by
  cases first : (Tagged.ofTag text : Except BufferError VertexFormat) with
  | ok found =>
    have sized : sizeOfTag text = .ok found.size := by simp only [sizeOfTag, first]
    rw [sized]
    cases format with
    | vertex same =>
      cases first.symm.trans read
      rfl
    | member type => exact congrArg Except.ok (Tagged.size_eq_of_read vertex_member_sizes first read)
    | index other => exact congrArg Except.ok (Tagged.size_eq_of_read vertex_index_sizes first read)
  | error _ =>
    cases second : (Tagged.ofTag text : Except BufferError MemberType) with
    | ok found =>
      have sized : sizeOfTag text = .ok found.size := by simp only [sizeOfTag, first, second]
      rw [sized]
      cases format with
      | vertex missing => cases first.symm.trans read
      | member same =>
        cases second.symm.trans read
        rfl
      | index other => exact congrArg Except.ok (Tagged.size_eq_of_read member_index_sizes second read)
    | error _ =>
      cases format with
      | vertex missing => cases first.symm.trans read
      | member missing => cases second.symm.trans read
      | index last =>
        have third : Tagged.ofTag text = .ok last := read
        simp only [sizeOfTag, first, second, third]
        rfl

theorem sizeOfTag_of_unread (unread : ∀ format : AnyFormat, ¬ format.ReadFrom text) :
    sizeOfTag text = .error (.unsupportedType text) := by
  rcases Tagged.ofTag_cases VertexFormat text with ⟨format, _, read⟩ | ⟨_, first⟩
  · exact absurd read (unread (.vertex format))
  rcases Tagged.ofTag_cases MemberType text with ⟨type, _, read⟩ | ⟨_, second⟩
  · exact absurd read (unread (.member type))
  rcases Tagged.ofTag_cases IndexFormat text with ⟨format, _, read⟩ | ⟨_, third⟩
  · exact absurd read (unread (.index format))
  simp only [sizeOfTag, first, second, third]
  rfl

end

/-- Each kind of format reads exactly what it displays. A text has a size if and only if some kind reads it,
and that size in every kind that does; it has an alignment if and only if it is the type of a struct member,
and that type's alignment. -/
theorem tags_read_as_displayed :
    Tagged.ReadsDisplayed VertexFormat ∧ Tagged.ReadsDisplayed MemberType ∧ Tagged.ReadsDisplayed IndexFormat ∧
      ∀ text : String,
        ((∃ size, sizeOfTag text = .ok size) ↔ ∃ format : AnyFormat, format.ReadFrom text) ∧
          (∀ (size : Nat) (format : AnyFormat),
            sizeOfTag text = .ok size → format.ReadFrom text → size = format.size) ∧
          (∀ error, sizeOfTag text = .error error → error = .unsupportedType text) ∧
          (∀ alignment, alignmentOfTag text = .ok alignment ↔
            ∃ type : MemberType, Tagged.ofTag text = .ok type ∧ type.alignment = alignment) ∧
          ∀ error, alignmentOfTag text = .error error → error = .unsupportedType text := by
  refine ⟨Tagged.readsDisplayed, Tagged.readsDisplayed, Tagged.readsDisplayed, fun text => ?_⟩
  refine ⟨⟨?_, ?_⟩, ?_, ?_, fun _ => map_eq_ok_iff, ?_⟩
  · rintro ⟨size, sized⟩
    by_contra unread
    cases (sizeOfTag_of_unread (not_exists.mp unread)).symm.trans sized
  · rintro ⟨format, read⟩
    exact ⟨format.size, sizeOfTag_of_readFrom read⟩
  · intro size format sized read
    exact Except.ok.inj (sized.symm.trans (sizeOfTag_of_readFrom read))
  · intro error refused
    by_cases read : ∃ format : AnyFormat, format.ReadFrom text
    · obtain ⟨format, read⟩ := read
      cases refused.symm.trans (sizeOfTag_of_readFrom read)
    · exact Except.error.inj (refused.symm.trans (sizeOfTag_of_unread (not_exists.mp read)))
  · intro error refused
    exact (Tagged.ofTag_eq_error_iff.mp (map_eq_error_iff.mp refused)).2

/-- A tag of two kinds, a tag of none of them in this spelling, and a vector that is aligned above its size. -/
example : sizeOfTag "uint32" = .ok 4 := by decide
example : sizeOfTag "Uint32" = .error (.unsupportedType "Uint32") := by decide
example : sizeOfTag "vec3f" = .ok 12 ∧ alignmentOfTag "vec3f" = .ok 16 := by decide

end GpuBuffer
