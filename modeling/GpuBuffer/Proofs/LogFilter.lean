import GpuBuffer.LogFilter
import Mathlib.Data.List.TakeWhile

namespace GpuBuffer

/-- A text is blank exactly if it has nothing but white space. -/
theorem isBlank_iff {text : String} : isBlank text = true ↔ ∀ c ∈ text.toList, isWhiteSpace c = true := by
  rw [isBlank, beq_iff_eq, trim, String.ofList_eq_empty_iff, List.reverse_eq_nil_iff, List.dropWhile_eq_nil_iff]
  simp only [List.mem_reverse]
  constructor
  · intro rest c member
    rw [← List.takeWhile_append_dropWhile (p := isWhiteSpace) (l := text.toList)] at member
    rcases List.mem_append.mp member with before | after
    · exact List.mem_takeWhile_imp before
    · exact rest c after
  · intro all c member
    exact all c (List.dropWhile_subset _ member)

example : isBlank " \t\u2003" = true := by decide

namespace LogSettings

theorem isBlank_baseFilter (settings : LogSettings) : isBlank settings.baseFilter = false := by
  have default : isBlank defaultFilter = false := by decide
  unfold baseFilter
  split
  · split
    · exact default
    · rename_i filled
      exact Bool.eq_false_iff.mpr filled
  · exact default

/-- What the log is filtered by is never blank, wherever it comes from. -/
theorem isBlank_resolve (settings : LogSettings) : isBlank settings.resolve = false := by
  unfold resolve
  split
  · rw [Bool.eq_false_iff, Ne, isBlank_iff]
    intro all
    have comma : isWhiteSpace ',' = false := by decide
    have white := all ',' (by simp)
    rw [comma] at white
    cases white
  · exact settings.isBlank_baseFilter

end LogSettings

end GpuBuffer
