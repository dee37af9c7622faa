import FormatStick.Splice
import FormatStick.Fields
import FormatStick.Crc
import FormatStick.Prog
import FormatStick.WriteBack
import FormatStick.Driver
import FormatStick.BulkOnly
import FormatStick.Stick
import FormatStick.CachedIo
import FormatStick.Operations
import FormatStick.Tables
import FormatStick.Writers
import FormatStick.TableWriters
import FormatStick.Gpt
import FormatStick.Fat
import FormatStick.Requests
import FormatStick.FatWriter
import FormatStick.Session
import FormatStick.Stages
import FormatStick.FatSession
import FormatStick.Success
import FormatStick.Extent
import FormatStick.Preserve
import FormatStick.Window
import FormatStick.RootCluster
import FormatStick.Acceptance
import FormatStick.Blocks
import FormatStick.WriteOrder
import FormatStick.Runs
import FormatStick.MainActivity
import FormatStick.FormatButton
import FormatStick.Keeps
import FormatStick.Stable
import FormatStick.OwnGeometry
import FormatStick.Coupled
import FormatStick.Twins
import FormatStick.TwinSession
import FormatStick.History
import FormatStick.SectorSize
import FormatStick.DeviceOps
import FormatStick.VolumeSize
import FormatStick.F2fsIo
import FormatStick.F2fsStore
import FormatStick.TableSizing
import FormatStick.FatGeometry
import FormatStick.FormatterCall
import FormatStick.FatClass
import FormatStick.FatContainment
import FormatStick.Progress
import FormatStick.FatArithmetic
import FormatStick.FatTables
import FormatStick.DirectCalls
import FormatStick.Buffers
import FormatStick.Independence
import FormatStick.Exfat
import FormatStick.ExfatRuns
import FormatStick.ExfatClusters
import FormatStick.CStrings
import FormatStick.Subopts
import FormatStick.BootSectors
import FormatStick.SessionEnds
import FormatStick.BootSession
import FormatStick.FlatFile
import FormatStick.Adapters
import FormatStick.AdapterRuns
import FormatStick.ExfatLayout
import FormatStick.ExfatImage
import FormatStick.ExfatUtf
import FormatStick.ExfatMount
import FormatStick.ExfatFiles
import FormatStick.ExfatRoundTrip
import FormatStick.ExfatMounted
import FormatStick.ExfatAccepted
import FormatStick.ExtBridge
import FormatStick.ExtVolume
import FormatStick.Intervals
import FormatStick.ExtBitmap
import FormatStick.ExtBitmapSet
import FormatStick.ExtBitmapBytes
