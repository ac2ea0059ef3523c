import GpuBuffer.Scene.Report

open GpuBuffer

/-- Prints the layouts of the scene with its usual settings. -/
def main : IO UInt32 := do
  match (Scene.build {} Cache.empty).2 with
  | .ok scene =>
    scene.report.forM fun line => IO.println line
    return 0
  | .error e =>
    IO.eprintln e.message
    return 1
