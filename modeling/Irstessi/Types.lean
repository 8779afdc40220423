import Irstessi.Str

/-!
# Public and internal enumerations

The parts of `ssi.h` and `exception.h` that the modelled functions return or compare. Enumerations
that the source only compares are inductive types; `SSI_RaidLevel` and `SSI_StripSize` are combined
with `|` and tested with `&` and are 32-bit words with named constants.

Exceptions of the source and faults are told apart. An `Exception` may be caught by a handler of the
source; the other faults (an `out_of_range`, a null pointer, rounds that are used up) end a run. Only
values that some modelled function returns or compares are listed.
-/

namespace Irstessi

/-- Source: `ssi.h` `SSI_Status`; the codes that the modelled functions return. -/
inductive SSI_Status
  | ok
  | insufficientResources
  | invalidParameter
  | invalidHandle
  | invalidStripSize
  | invalidString
  | invalidSize
  | invalidRaidLevel
  | invalidSession
  | notInitialized
  | bufferTooSmall
  | notSupported
  | failed
  | internalError
  | invalidScope
  | invalidState
  | bufferTooLarge
  deriving DecidableEq, Repr

/-- Source: `exception.h` `Exception`; the codes that the modelled functions throw. -/
inductive Exception
  | notFound
  | nullPointer
  | invalidOffset
  | invalidObject
  | invalidHandle
  | notAvailable
  | invalidUsage
  | arrayCreateFailed
  | volumeCreateFailed
  | systemDevice
  | invalidStripSize
  | invalidName
  | invalidRaidLevel
  | bufferTooSmall
  | bufferTooLarge
  | notSupported
  deriving DecidableEq, Repr

/-- What ends a function other than by a return: an `Exception`, a `std::out_of_range`, a null
pointer dereferenced, or a loop that has not ended within the rounds it was given. -/
inductive Fault
  | exception (e : Exception)
  | outOfRange
  | nullDereference
  | outOfRounds
  deriving DecidableEq, Repr

/-- Source: `ssi.h` `SSI_RaidLevel`, a set of flags. -/
abbrev SSI_RaidLevel : Type := UInt32

def SSI_RaidInvalid : SSI_RaidLevel := 0x00
def SSI_Raid0 : SSI_RaidLevel := 0x01
def SSI_Raid1 : SSI_RaidLevel := 0x02
def SSI_Raid10 : SSI_RaidLevel := 0x04
def SSI_Raid5 : SSI_RaidLevel := 0x08
def SSI_Raid6 : SSI_RaidLevel := 0x10

/-- Source: `ssi.h` `SSI_StripSize`, a set of flags. -/
abbrev SSI_StripSize : Type := UInt32

def SSI_StripSizeUnknown : SSI_StripSize := 0x0000
def SSI_StripSize2kB : SSI_StripSize := 0x0001
def SSI_StripSize4kB : SSI_StripSize := 0x0002
def SSI_StripSize8kB : SSI_StripSize := 0x0004
def SSI_StripSize16kB : SSI_StripSize := 0x0008
def SSI_StripSize32kB : SSI_StripSize := 0x0010
def SSI_StripSize64kB : SSI_StripSize := 0x0020
def SSI_StripSize128kB : SSI_StripSize := 0x0040
def SSI_StripSize256kB : SSI_StripSize := 0x0080
def SSI_StripSize512kB : SSI_StripSize := 0x0100
def SSI_StripSize1MB : SSI_StripSize := 0x0200
def SSI_StripSize2MB : SSI_StripSize := 0x0400
def SSI_StripSize4MB : SSI_StripSize := 0x0800
def SSI_StripSize8MB : SSI_StripSize := 0x1000
def SSI_StripSize16MB : SSI_StripSize := 0x2000
def SSI_StripSize32MB : SSI_StripSize := 0x4000
def SSI_StripSize64MB : SSI_StripSize := 0x8000

/-- Source: `ssi.h` `SSI_RwhPolicy` -/
inductive SSI_RwhPolicy
  | off
  | distributed
  | journalingDrive
  | invalid
  deriving DecidableEq, Repr

/-- Source: `ssi.h` `SSI_HardwareKeyType`; 0 is no key. -/
inductive SSI_HardwareKeyType
  | none
  | key3story
  | vrocStandard
  | vrocPremium
  | vrocIntelSSDonly
  deriving DecidableEq, Repr

/-- Source: `ssi.h` `SSI_ControllerType` -/
inductive SSI_ControllerType
  | unknown
  | ahci
  | scu
  | nvme
  | vmd
  deriving DecidableEq, Repr

/-- Source: `ssi.h` `SSI_DiskType` -/
inductive SSI_DiskType
  | unknown
  | sata
  | sas
  | nvme
  | vmd
  deriving DecidableEq, Repr

/-- Source: `ssi.h` `SSI_DiskState` -/
inductive SSI_DiskState
  | unknown
  | offline
  | missing
  | failed
  | smartEventTriggered
  | configIsUprev
  | normal
  | locked
  | manualOffline
  | incompatible
  | unsupported
  deriving DecidableEq, Repr

/-- Source: `ssi.h` `SSI_DiskUsage` -/
inductive SSI_DiskUsage
  | unknown
  | arrayMember
  | passThru
  | offlineArray
  | spare
  | arrayMemberReadOnlyMount
  | passThruReadOnlyMount
  | journaling
  deriving DecidableEq, Repr

/-- Source: `ssi.h` `SSI_VolumeState` -/
inductive SSI_VolumeState
  | unknown
  | normal
  | degraded
  | failed
  | initializing
  | rebuilding
  | verifying
  | verifyingAndFix
  | generalMigration
  | locked
  | nonRedundantVolumeFailedDisk
  deriving DecidableEq, Repr

end Irstessi
