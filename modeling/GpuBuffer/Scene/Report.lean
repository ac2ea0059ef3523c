import GpuBuffer.Device.Pipeline
import GpuBuffer.Scene.Basic
import GpuBuffer.Text.Column

namespace GpuBuffer

def StructLayout.report (layout : StructLayout) : List String :=
  s!"struct `{layout.label}`: {layout.size} bytes, align {layout.alignment}" ::
    layout.members.map fun m =>
      let name := Column.render { width := 12 } m.name
      let type := Column.render { width := 8 } m.type.tag
      let offset := Column.render { width := 4 } (toString m.offset)
      s!"  {name} {type} +{offset} (word {m.word})"

/-- A stream is reported as the pipeline sees it. -/
def VertexLayout.report (layout : VertexLayout) : List String :=
  let pipeline := layout.binding.pipelineLayout
  s!"stream `{layout.label}`: stride {layout.stride}, {pipeline.stepMode.name}, {layout.elements} element(s)" ::
    pipeline.attributes.map fun a => s!"  @location({a.location}) {a.format.name} +{a.offset}"

/-- The layouts of a scene, line by line. -/
def Scene.report (scene : Scene) : List String :=
  scene.projection.layout.layout.report ++ scene.grid.layout.layout.report ++
    scene.vertices.layout.report ++ scene.instances.layout.report

end GpuBuffer
