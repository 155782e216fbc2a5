import GardenLinux.Go.Utf8
import GardenLinux.Go.Strconv
import GardenLinux.Go.Net
import GardenLinux.Go.Json
import GardenLinux.Go.Path
import GardenLinux.Go.Filepath
import GardenLinux.Go.Fmt
import GardenLinux.Fences.Network
import GardenLinux.Fences.Erect
import GardenLinux.LinuxBackend.Container
import GardenLinux.LinuxBackend.Transitions
import GardenLinux.LinuxBackend.View
import GardenLinux.LinuxBackend.SnapshotRestore
import GardenLinux.LinuxBackend.MemoryCgroup
import GardenLinux.LinuxBackend.Env
import GardenLinux.LinuxBackend.Run
import GardenLinux.Fences.Process
import GardenLinux.LinuxBackend.Stats
import GardenLinux.LinuxBackend.Interleaving
import GardenLinux.LinuxBackend.Stream
import GardenLinux.LinuxBackend.Readers
import GardenLinux.Main
