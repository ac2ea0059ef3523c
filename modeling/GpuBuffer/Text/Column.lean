namespace GpuBuffer

inductive Justification
  | left
  | center
  | right
  deriving DecidableEq

/-- A column of a table: a text is cut to `limit` characters, then filled up to `width`. -/
structure Column where
  width : Nat
  limit : Option Nat := none
  justification : Justification := .left
  fill : Char := ' '
  deriving DecidableEq

/-- Of an odd number of fill characters around a centered text, the extra one goes to its right. -/
def Column.render (column : Column) (text : String) : String :=
  let kept := match column.limit with
    | some limit => text.toList.take limit
    | none => text.toList
  let gap := column.width - kept.length
  let before := match column.justification with
    | .left => 0
    | .center => gap / 2
    | .right => gap
  String.ofList (List.replicate before column.fill ++ kept ++ List.replicate (gap - before) column.fill)

end GpuBuffer
