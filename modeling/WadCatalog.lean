import WadCatalog.Bytes
import WadCatalog.Bytes.LittleEndian
import WadCatalog.Delimited
import WadCatalog.Text.Ascii
import WadCatalog.Text.Utf8
import WadCatalog.Text.Quoted
import WadCatalog.Text.Columns
import WadCatalog.Lump.Name
import WadCatalog.FilePath
import WadCatalog.Lump.FileNames
import WadCatalog.ResourcePath
import WadCatalog.Namespace
import WadCatalog.Lump.Directory
import WadCatalog.Archive.Rejection
import WadCatalog.Archive.Header
import WadCatalog.Archive.Record
import WadCatalog.Archive.Table
import WadCatalog.Archive.Builder
import WadCatalog.Marker
import WadCatalog.Marker.Table
import WadCatalog.Placement
import WadCatalog.Catalog
import WadCatalog.Catalog.IdMap
import WadCatalog.Json.Lexer
import WadCatalog.Json.Value
import WadCatalog.Config
import WadCatalog.Disk.Content
import WadCatalog.Disk
import WadCatalog.Disk.Walk
import WadCatalog.ByteSource
import WadCatalog.ByteSource.Stream
import WadCatalog.ByteSource.Custom
import WadCatalog.ByteSource.Any
import WadCatalog.Container.Context
import WadCatalog.Container.Wad
import WadCatalog.Container.MapWad
import WadCatalog.Container.LooseFile
import WadCatalog.Container.Tree
import WadCatalog.Container
import WadCatalog.Digest.Md5
import WadCatalog.Command.Arguments
import WadCatalog.Command.Listing
import WadCatalog.Command.Run
import WadCatalog.Session
import WadCatalog.Main
import WadCatalog.Proofs.Archive.Format
import WadCatalog.Proofs.ByteSource.Delivery
import WadCatalog.Proofs.ByteSource.Complete
import WadCatalog.Proofs.Archive.Streamed
import WadCatalog.Proofs.Archive.RoundTrip
import WadCatalog.Proofs.Placement.MapGroups
import WadCatalog.Proofs.Catalog.IdMap
import WadCatalog.Proofs.Catalog.Entries
import WadCatalog.Proofs.Text.Leading
import WadCatalog.Proofs.Text.Lossy
import WadCatalog.Proofs.Text.Encoding
import WadCatalog.Proofs.ResourcePath.Text
import WadCatalog.Proofs.Container.Filing
import WadCatalog.Proofs.Container.Registration
import WadCatalog.Proofs.Container.Reads
import WadCatalog.Proofs.Container.Ownership
import WadCatalog.Proofs.Container.Addresses
import WadCatalog.Proofs.Disk.Resolution
import WadCatalog.Proofs.Disk.Soundness
import WadCatalog.Proofs.Disk.Walk
import WadCatalog.Proofs.Container.Classification
import WadCatalog.Proofs.Container.Lifetime
import WadCatalog.Proofs.Container.LoadOrder
import WadCatalog.Proofs.Container.ReadContract
import WadCatalog.Proofs.Container.MapAccess
import WadCatalog.Proofs.Command.Extraction
import WadCatalog.Proofs.Marker.Scan
import WadCatalog.Proofs.Marker.Ranges
import WadCatalog.Proofs.Placement.Grouping
import WadCatalog.Proofs.Catalog.Sharing
import WadCatalog.Proofs.Disk.Listing
import WadCatalog.Proofs.Container.TreeListing
import WadCatalog.Proofs.Marker.LastRanges
import WadCatalog.Proofs.Archive.Damage
import WadCatalog.Proofs.ByteSource.Retries
import WadCatalog.Proofs.Container.NameLookup
import WadCatalog.Proofs.ResourcePath.Case
import WadCatalog.Proofs.Command.AnyCase
import WadCatalog.Proofs.Archive.WrittenNumbers
import WadCatalog.Proofs.Disk.Writing
import WadCatalog.Proofs.Container.TreeReads
import WadCatalog.Proofs.Command.FileExtraction
import WadCatalog.Proofs.ResourcePath.Nesting
import WadCatalog.Proofs.Text.Cuts
import WadCatalog.Proofs.Lump.Decisions
import WadCatalog.Proofs.Lump.NormalForm
import WadCatalog.Proofs.Catalog.History
import WadCatalog.Proofs.ResourcePath.Spelling
import WadCatalog.Proofs.ByteSource.Mirror
import WadCatalog.Proofs.Archive.Mirrored
