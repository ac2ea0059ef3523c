import GpuBuffer.Device.Buffer
import GpuBuffer.Format.Measure
import GpuBuffer.LogFilter
import GpuBuffer.Main
import GpuBuffer.Proofs.Placement
import GpuBuffer.Proofs.Resolution.Report
import GpuBuffer.Proofs.Component
import GpuBuffer.Proofs.Encoding
import GpuBuffer.Proofs.Image.Patch
import GpuBuffer.Proofs.Image.Write
import GpuBuffer.Proofs.Image.Frame
import GpuBuffer.Proofs.Image.Bounds
import GpuBuffer.Proofs.Record
import GpuBuffer.Proofs.Layout
import GpuBuffer.Proofs.Capacity
import GpuBuffer.Proofs.Vertex.Image
import GpuBuffer.Proofs.Vertex.Pipeline
import GpuBuffer.Proofs.Vertex.Sequential
import GpuBuffer.Proofs.Vertex.Parity
import GpuBuffer.Proofs.Vertex.Addressing
import GpuBuffer.Proofs.Index.Image
import GpuBuffer.Proofs.Index.Pieces
import GpuBuffer.Proofs.Struct.Image
import GpuBuffer.Proofs.Struct.Tight
import GpuBuffer.Proofs.Struct.HostShareable
import GpuBuffer.Proofs.Struct.Instances
import GpuBuffer.Proofs.Cache.Invariant
import GpuBuffer.Proofs.Cache.History
import GpuBuffer.Proofs.Cache.Run
import GpuBuffer.Proofs.Cache.Transparent
import GpuBuffer.Proofs.Encoding.Integer
import GpuBuffer.Proofs.Identity
import GpuBuffer.Proofs.Number.Nearest
import GpuBuffer.Proofs.Number.Magnitude
import GpuBuffer.Proofs.Number.NearestEven
import GpuBuffer.Proofs.Encoding.Unorm
import GpuBuffer.Proofs.Encoding.Float
import GpuBuffer.Proofs.Format.Tags
import GpuBuffer.Proofs.Image.Answer
import GpuBuffer.Proofs.Checked.Encoding
import GpuBuffer.Proofs.Checked.Write
import GpuBuffer.Proofs.Declaration.NormalForm
import GpuBuffer.Proofs.Checked.Layout
import GpuBuffer.Proofs.Checked.Rounding
import GpuBuffer.Proofs.Device.Upload
import GpuBuffer.Proofs.Scene.Build
import GpuBuffer.Proofs.Scene.Settings
import GpuBuffer.Proofs.Scene.Hash
import GpuBuffer.Proofs.Number.Text
import GpuBuffer.Proofs.LogFilter
