import VoxelStore.Bits.Width
import VoxelStore.Column.Layers
import VoxelStore.Directory
import VoxelStore.Json.Items
import VoxelStore.Main
import VoxelStore.Palette.Json
import VoxelStore.Proofs.Run
import VoxelStore.Proofs.Run.Alike
import VoxelStore.Proofs.SectionArray.Reads
import VoxelStore.Proofs.SectionArray.Writes
import VoxelStore.Proofs.SectionArray.Attempts
import VoxelStore.Proofs.SectionArray.Widths
import VoxelStore.Proofs.SectionArray.OneWidth
import VoxelStore.Proofs.Column.Effects
import VoxelStore.Proofs.Column.Registry
import VoxelStore.Proofs.Column.BlockMap
import VoxelStore.Proofs.Packed.Fields
import VoxelStore.Proofs.Packed.Layout
import VoxelStore.Proofs.Packed.Padding
import VoxelStore.Proofs.Packed.Canonical
import VoxelStore.Proofs.Palette.Reading
import VoxelStore.Proofs.Palette.Stored
import VoxelStore.Proofs.Palette.Encoding
import VoxelStore.Proofs.Palette.Encoded
import VoxelStore.Proofs.Palette.Ready
import VoxelStore.Proofs.Edit.Channels
import VoxelStore.Proofs.Edit.History
import VoxelStore.Proofs.Edit.SideData
import VoxelStore.Proofs.Edit.Frame
import VoxelStore.Proofs.Edit.LastWrite
import VoxelStore.Proofs.Requests
import VoxelStore.Proofs.Column.Changes
import VoxelStore.Proofs.Column.Alike
import VoxelStore.Proofs.Palette.Alike
import VoxelStore.Proofs.Palette.Reuse
import VoxelStore.Proofs.Palette.Returns
import VoxelStore.Proofs.Palette.Shape
import VoxelStore.Proofs.Palette.Merging
import VoxelStore.Proofs.Palette.GlobalIds
import VoxelStore.Proofs.Palette.RoundTrip
import VoxelStore.Proofs.Palette.Ids
import VoxelStore.Proofs.Edit.Alike
import VoxelStore.Proofs.Edit.Recycling
import VoxelStore.Proofs.Edit.Emptiness
import VoxelStore.Proofs.Bench.Commands
import VoxelStore.Proofs.Bench.Widths
import VoxelStore.Proofs.Workspace
import VoxelStore.Proofs.Palette.FromJson
import VoxelStore.Proofs.Column.Spares
import VoxelStore.Proofs.Edit.Biomes
import VoxelStore.Proofs.Edit.LightRange
import VoxelStore.Proofs.Lending
import VoxelStore.Proofs.Packed.Writes
import VoxelStore.Proofs.Column.Growth
import VoxelStore.Proofs.Palette.LayerScan
import VoxelStore.Proofs.Palette.Faults
import VoxelStore.Proofs.Palette.EntryBits
import VoxelStore.Proofs.Column.Locks
import VoxelStore.Proofs.Keyring
import VoxelStore.Proofs.Geometry
import VoxelStore.Proofs.Edit.Addresses
import VoxelStore.Proofs.Json.Shape
import VoxelStore.Proofs.Settings.Fields
import VoxelStore.Proofs.Settings.Files
import VoxelStore.Proofs.Settings.Layers
import VoxelStore.Proofs.Json.Lexing
import VoxelStore.Proofs.Json.Reading
import VoxelStore.Proofs.Palette.ToJson
import VoxelStore.Proofs.Json.RoundTrip
import VoxelStore.Proofs.Palette.LocalBits
