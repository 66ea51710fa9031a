import VolumeCrypt.Aes
import VolumeCrypt.Base64
import VolumeCrypt.Base64Decode
import VolumeCrypt.BinaryField
import VolumeCrypt.BlockCipher
import VolumeCrypt.BootChain
import VolumeCrypt.BootCycles
import VolumeCrypt.ByteMemory
import VolumeCrypt.ByteString
import VolumeCrypt.ByteTransfer
import VolumeCrypt.CipherTraits
import VolumeCrypt.ClusterScanner
import VolumeCrypt.ControlDevice
import VolumeCrypt.CrashCycles
import VolumeCrypt.CreationRecord
import VolumeCrypt.DataPath
import VolumeCrypt.Digests
import VolumeCrypt.Dispatch
import VolumeCrypt.DriverRuns
import VolumeCrypt.DriverService
import VolumeCrypt.DriverState
import VolumeCrypt.FailClosed
import VolumeCrypt.FilterIo
import VolumeCrypt.HandlerRuns
import VolumeCrypt.Handover
import VolumeCrypt.HealthyRuns
import VolumeCrypt.Hkdf
import VolumeCrypt.HookTable
import VolumeCrypt.InPlace
import VolumeCrypt.IntervalTiling
import VolumeCrypt.JvckLayout
import VolumeCrypt.JvckMetadata
import VolumeCrypt.JvckRecovery
import VolumeCrypt.JvckReplicas
import VolumeCrypt.JvckRuns
import VolumeCrypt.JvckStore
import VolumeCrypt.LayoutTiling
import VolumeCrypt.LoaderHook
import VolumeCrypt.MessageMap
import VolumeCrypt.OpenConsistency
import VolumeCrypt.OpenIndependence
import VolumeCrypt.OpenedStore
import VolumeCrypt.OsVolume
import VolumeCrypt.Ownership
import VolumeCrypt.PdoMap
import VolumeCrypt.PrepareLayout
import VolumeCrypt.ProgressWatch
import VolumeCrypt.RawDisk
import VolumeCrypt.RemoteCalls
import VolumeCrypt.RoutedMetadata
import VolumeCrypt.SdkEnsure
import VolumeCrypt.SdkMetadata
import VolumeCrypt.SdkXts
import VolumeCrypt.SectorIo
import VolumeCrypt.SelectorInfluence
import VolumeCrypt.Shutdown
import VolumeCrypt.SlotTable
import VolumeCrypt.StartRequest
import VolumeCrypt.StepRun
import VolumeCrypt.SweepEngine
import VolumeCrypt.SweepSchedule
import VolumeCrypt.TailRelocation
import VolumeCrypt.Transparency
import VolumeCrypt.Utf8Text
import VolumeCrypt.VckJson
import VolumeCrypt.VckTypes
import VolumeCrypt.VendorData
import VolumeCrypt.VolumeService
import VolumeCrypt.VolumeShrink
import VolumeCrypt.VolumeSweep
import VolumeCrypt.VolumeThread
import VolumeCrypt.XtsCipher
