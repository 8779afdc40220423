import Irstessi.Lib.Interact
import Irstessi.Lib.Reach
import Irstessi.Lib.Blocks
import Irstessi.Lib.Occurrence
import Irstessi.Utf8
import Irstessi.Str
import Irstessi.Mdadm
import Irstessi.Text
import Irstessi.Array
import Irstessi.MapLookup
import Irstessi.Volume
import Irstessi.Migration
import Irstessi.FreshVolume
import Irstessi.DiskUsage
import Irstessi.ContainerVolumes
import Irstessi.Lib.Trail
import Irstessi.Attach
import Irstessi.AllOrNothing
import Irstessi.Lib.KeyMap
import Irstessi.HandleManager
import Irstessi.Registry
import Irstessi.Sessions
import Irstessi.Handles
import Irstessi.ArrayCreate
import Irstessi.CallSession
import Irstessi.CreateFromDisks
import Irstessi.CreatedHandle
import Irstessi.Lib.Follow
import Irstessi.Interface
import Irstessi.FreeDisks
import Irstessi.Plans
import Irstessi.ConfigFiles
import Irstessi.Rename
import Irstessi.StateGuard
import Irstessi.Lib.Turns
import Irstessi.Storage
import Irstessi.IssuedCommands
import Irstessi.Technologies
import Irstessi.FultondaleX8
import Irstessi.SpareRollback
import Irstessi.Lib.Shell
import Irstessi.NameQuoting
import Irstessi.Topology
import Irstessi.Discovery
import Irstessi.EventMonitor
import Irstessi.Lib.History
import Irstessi.Events
import Irstessi.Lib.Memory
import Irstessi.StringObject
import Irstessi.StringAppend
import Irstessi.HandleList
import Irstessi.FreeSpace
import Irstessi.Lib.Words
import Irstessi.Lib.Lines
import Irstessi.Mdstat
import Irstessi.MemberChanges
import Irstessi.VolumeSettings
import Irstessi.CreatePaths
import Irstessi.Expansion
import Irstessi.ComponentSize
import Irstessi.Removal
import Irstessi.HandleExhaustion
import Irstessi.Lib.Teardown
import Irstessi.Shutdown
import Irstessi.RaidInfoLinks
import Irstessi.UniqueIds
import Irstessi.LastError
import Irstessi.VolumeNames
import Irstessi.Growth
import Irstessi.Rebuild
import Irstessi.UnchangedRequest
import Irstessi.NonDisks
import Irstessi.Enclosures
import Irstessi.VmdDomains
import Irstessi.SystemDevice
import Irstessi.Guid
import Irstessi.Orom
import Irstessi.SectorSize
import Irstessi.FileWrite
import Irstessi.Encoding
import Irstessi.Search
import Irstessi.Occurrences
import Irstessi.Lib.While
import Irstessi.Lib.Places
import Irstessi.Ascii
import Irstessi.ErrorLines
import Irstessi.SlotInfo
import Irstessi.PciAddress
import Irstessi.Capture
import Irstessi.Scans
import Irstessi.FileRead
import Irstessi.ReadBlocks
import Irstessi.Positions
import Irstessi.FreeName
import Irstessi.Characters
import Irstessi.Cutting
import Irstessi.Lib.Ends
import Irstessi.Trimming
import Irstessi.Comparison
import Irstessi.NumberTexts
import Irstessi.Lib.Pool
import Irstessi.Semaphores
import Irstessi.Notification
import Irstessi.MonitorNotification
import Irstessi.Lib.Address
import Irstessi.SafeMemory
import Irstessi.SafeStrings
import Irstessi.SsimsgPath
import Irstessi.MdStates
import Irstessi.DiskRemoval
import Irstessi.VolumeVerify
import Irstessi.InotifyBuffer
import Irstessi.Lib.Forest
import Irstessi.PortLinks
import Irstessi.LinkInvariant
import Irstessi.LinkDiscovery
import Irstessi.LinkSession
import Irstessi.LinkDevices
