import Irstessi.Types

/-!
# RAID capabilities of a controller

* `RaidInfo`, `SSI_RaidLevelInfo`: the limits of a controller, and what is said about a level.
* `RaidInfo.getRaidLevelInfo`: what a level supports, and which levels it can be migrated to.

The limits come from the option ROM or the EFI variable of a controller and are taken as they are; which
levels a volume of level 0 can be migrated to depends on the type of the controller and on its hardware
key. The function is translated whole, since the checks of creations and of migrations read its results.
It is given a record that it writes over: the strip sizes are set before the level is looked at, so that
they are changed for a level that it does not know as well, while the other fields stay.
-/

namespace Irstessi

/-- The fields of the option ROM table that the level information is made from.
Source: `orom.h` `struct orom_info` -/
structure OromInfo where
  rlc0 : Bool
  rlc1 : Bool
  rlc10 : Bool
  rlc5 : Bool
  rlc6 : Bool
  /-- The supported strip sizes, bit by bit those of `SSI_StripSize`. -/
  chk : UInt16
  /-- The number of disks supported. -/
  tds : UInt16
  deriving DecidableEq, Repr

/-- A controller as its RAID information and its disks read it.
Source: `controller.h` `Controller` -/
structure Controller where
  controllerType : SSI_ControllerType
  hardwareMode : SSI_HardwareKeyType
  /-- The levels of the volumes attached to the controller. -/
  volumeLevels : List SSI_RaidLevel
  deriving DecidableEq, Repr

/-- Source: `raid_info.h` `RaidInfo`; `m_Controller` is the locked weak pointer. -/
structure RaidInfo where
  m_pInfo : OromInfo
  m_Controller : Option Controller
  deriving DecidableEq, Repr

/-- Source: `ssi.h` `SSI_RaidLevelInfo` -/
structure SSI_RaidLevelInfo where
  supported : Bool
  minDisks : Nat
  maxDisks : Nat
  defaultStripSize : SSI_StripSize
  migrSupport : SSI_RaidLevel
  migrDiskAdd : SSI_RaidLevel
  evenDiskCount : Bool
  oddDiskCount : Bool
  stripSizesSupported : SSI_StripSize
  created : Bool
  deriving DecidableEq, Repr

namespace RaidInfo

/-- The levels that a level 0 volume can be migrated to, and those of them that need disks added.
Source: `raid_info.cpp` `RaidInfo::getRaidLevelInfo`, case `SSI_Raid0` -/
def raid0Migration (controller : Option Controller) : SSI_RaidLevel × SSI_RaidLevel :=
  match controller with
  | some controller =>
      if controller.controllerType = .vmd then
        match controller.hardwareMode with
        | .vrocPremium => (SSI_Raid0 ||| SSI_Raid10 ||| SSI_Raid5, SSI_Raid10 ||| SSI_Raid5)
        | .vrocStandard => (SSI_Raid0 ||| SSI_Raid10, SSI_Raid10)
        | _ => (SSI_Raid0, SSI_RaidInvalid)
      else (SSI_Raid0 ||| SSI_Raid10 ||| SSI_Raid5, SSI_Raid10 ||| SSI_Raid5)
  | none => (SSI_RaidInvalid, SSI_RaidInvalid)

/-- The information of a level is written over `info`; for a level it does not know the function
returns with all but the strip sizes left as they were.
Source: `raid_info.cpp` `RaidInfo::getRaidLevelInfo` -/
def getRaidLevelInfo (r : RaidInfo) (raidLevel : SSI_RaidLevel) (info : SSI_RaidLevelInfo) :
    SSI_Status × SSI_RaidLevelInfo :=
  let tds := r.m_pInfo.tds.toNat
  let info := { info with stripSizesSupported := r.m_pInfo.chk.toUInt32 }
  let created := match r.m_Controller with
    | some controller => controller.volumeLevels.any (· == raidLevel)
    | none => false
  if raidLevel = SSI_Raid0 then
    let (migrSupport, migrDiskAdd) := raid0Migration r.m_Controller
    (.ok, { info with
      defaultStripSize := SSI_StripSize128kB, supported := r.m_pInfo.rlc0
      minDisks := min 1 tds, maxDisks := tds, migrSupport := migrSupport
      migrDiskAdd := migrDiskAdd, evenDiskCount := false, oddDiskCount := false
      created := created })
  else if raidLevel = SSI_Raid1 then
    (.ok, { info with
      defaultStripSize := SSI_StripSize64kB, supported := r.m_pInfo.rlc1
      minDisks := min 2 tds, maxDisks := min 2 tds, migrSupport := SSI_Raid0
      migrDiskAdd := SSI_RaidInvalid, evenDiskCount := true, oddDiskCount := false
      created := created })
  else if raidLevel = SSI_Raid10 then
    (.ok, { info with
      defaultStripSize := SSI_StripSize64kB, supported := r.m_pInfo.rlc10
      minDisks := min 4 tds, maxDisks := min 4 tds, migrSupport := SSI_Raid0
      migrDiskAdd := SSI_RaidInvalid, evenDiskCount := true, oddDiskCount := false
      created := created })
  else if raidLevel = SSI_Raid5 then
    (.ok, { info with
      defaultStripSize := SSI_StripSize64kB, supported := r.m_pInfo.rlc5
      minDisks := min 3 tds, maxDisks := tds, migrSupport := SSI_Raid5
      migrDiskAdd := SSI_RaidInvalid, evenDiskCount := false, oddDiskCount := false
      created := created })
  else if raidLevel = SSI_Raid6 then
    (.ok, { info with
      defaultStripSize := SSI_StripSize64kB, supported := r.m_pInfo.rlc6
      minDisks := min 4 tds, maxDisks := tds, migrSupport := SSI_RaidInvalid
      migrDiskAdd := SSI_RaidInvalid, evenDiskCount := false, oddDiskCount := false
      created := created })
  else (.invalidRaidLevel, info)

end RaidInfo

end Irstessi
