import GpuBuffer.Text.Blank

namespace GpuBuffer

/-- Where the log filter comes from. -/
structure LogSettings where
  filter : Option String := none
  environment : Option String := none
  traceLayouts : Bool := false
  deriving DecidableEq

namespace LogSettings

def defaultFilter : String := "info,wgpu_core=warn,wgpu_hal=warn"

def layoutDirective : String := "stratum_layout=trace"

/-- The explicit filter, else the environment's. A blank one gives way to the default, also where
it hides a filter in the environment. -/
def baseFilter (settings : LogSettings) : String :=
  match settings.filter.or settings.environment with
  | some filter => if isBlank filter then defaultFilter else filter
  | none => defaultFilter

def resolve (settings : LogSettings) : String :=
  if settings.traceLayouts then settings.baseFilter ++ "," ++ layoutDirective else settings.baseFilter

end LogSettings

end GpuBuffer
