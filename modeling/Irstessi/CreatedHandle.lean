import Irstessi.CreateFromDisks
import Irstessi.Handles

/-!
# The handle of a new volume

`SsiVolumeCreateFromDisks` registers the new volume and then its container with the session of the
call, and returns the handle that the volume has got there. The next session discovers the container
first.

* `createdObjects`, `createdHandle`: the session of the call and the handle.
* `Reappears`: the next session finds what there was, and behind it the container and its volume.
* **`createdHandle_iff`**: the handle designates the volume there iff no key was left for it and for
  any volume behind.

The session of a call is the one that `Sessions` describes: it inserts its objects in the order of their
discovery, and the call inserts two more. `handleAt` counts the handles from the greatest key that is in
use, and gives the null handle when none is left. The keys of a call's session are removed at its end,
so that the next session counts from the same key; its objects are those of before with the container
and the volume behind them. The handle that was returned is then the one at the position of the
container. Only where the count has come to its end do both get the null handle, and the search under it
finds the first volume without a key.
-/

namespace Irstessi

open Process

/-- The objects of the session of a call that creates a volume in a new container.
Source: `src/volume.cpp` `SsiVolumeCreateFromDisks`, `addVolume` and `addArray` -/
def createdObjects (objects : List SessionObject) (c v : MdDir) : List SessionObject :=
  objects ++ [.volume v, .array c]

/-- The handle that the volume gets in the session of the call. -/
def createdHandle (w : Process) (objects : List SessionObject) (c v : MdDir) : Nat :=
  (w.openSession (createdObjects objects c v)).handle w.next objects.length

/-- Objects of the same kinds in the same order are discovered again, and behind them the container
and the volume in it. -/
def Reappears (before after : List SessionObject) (c v : MdDir) : Prop :=
  ∃ rest, after = rest ++ [.array c, .volume v] ∧ rest.map (·.kind) = before.map (·.kind) ∧
    .volume v ∉ rest

/-- No key is left for the object behind `objects`, and no volume among these is without one. -/
def KeysExhausted (w : Process) (objects : List SessionObject) : Prop :=
  handleMax ≤ w.greatest + objects.length ∧
    ∀ o ∈ objects.drop (handleMax - w.greatest), o.kind ≠ .volume

/-- The volume is registered behind the objects of the session, so that its key is the next one behind
theirs. -/
theorem createdHandle_eq {w : Process} (hw : w.Invariant) (objects : List SessionObject)
    (c v : MdDir) :
    createdHandle w objects c v = HandleManager.handleAt w.greatest objects.length := by
  apply handle_register hw _
  rw [createdObjects, List.length_append]
  exact Nat.lt_add_of_pos_right (Nat.succ_pos _)

/-- Kinds decide whether there is a volume. -/
theorem exists_volume_drop {before rest : List SessionObject}
    (hkinds : rest.map (·.kind) = before.map (·.kind)) (n : Nat) :
    (∃ o ∈ rest.drop n, o.kind = .volume) ↔ ∃ o ∈ before.drop n, o.kind = .volume := by
  have hdrop : (rest.drop n).map (·.kind) = (before.drop n).map (·.kind) := by
    rw [List.map_drop, List.map_drop, hkinds]
  have hmem : ∀ l : List SessionObject,
      (∃ o ∈ l, o.kind = .volume) ↔ ObjectKind.volume ∈ l.map (·.kind) := by
    intro l
    rw [List.mem_map]
  rw [hmem, hmem, hdrop]

/-- What the next session finds under the place that the volume had in the session of the call. -/
theorem resolve_created {w : Process} (hw : w.Invariant) {objects after : List SessionObject}
    {c v : MdDir} (hafter : Reappears objects after c v) :
    w.resolve after .volume (HandleManager.handleAt w.greatest objects.length) = some (.volume v) ↔
      KeysExhausted w objects := by
  obtain ⟨rest, rfl, hkinds, hnew⟩ := hafter
  have hlength : rest.length = objects.length := by
    have h := congrArg List.length hkinds
    rwa [List.length_map, List.length_map] at h
  by_cases h0 : HandleManager.handleAt w.greatest objects.length = 0
  · -- the null handle: the first volume without a key
    have hroom := handleAt_eq_zero_iff.mp h0
    have hle : handleMax - w.greatest ≤ rest.length := by omega
    rw [h0, resolve_zero hw, List.drop_append_of_le_length hle, List.find?_append]
    unfold KeysExhausted
    constructor
    · intro hfind
      refine ⟨hroom, fun o ho hkind => ?_⟩
      obtain ⟨o', ho', hkind'⟩ := (exists_volume_drop hkinds _).mpr ⟨o, ho, hkind⟩
      have hsome : ((rest.drop (handleMax - w.greatest)).find? fun o => o.kind = .volume).isSome :=
        List.find?_isSome.mpr ⟨o', ho', decide_eq_true hkind'⟩
      obtain ⟨u, hu⟩ := Option.isSome_iff_exists.mp hsome
      rw [hu, Option.some_or] at hfind
      obtain rfl := Option.some.inj hfind
      exact hnew (List.mem_of_mem_drop (List.mem_of_find?_eq_some hu))
    · rintro ⟨-, hnone⟩
      have hrest : ((rest.drop (handleMax - w.greatest)).find? fun o => o.kind = .volume) = none := by
        refine List.find?_eq_none.mpr fun o ho hkind => ?_
        obtain ⟨o', ho', hkind'⟩ :=
          (exists_volume_drop hkinds _).mp ⟨o, ho, of_decide_eq_true hkind⟩
        exact hnone o' ho' hkind'
      rw [hrest]
      rfl
  · -- a key: at its place now stands the container
    rw [resolve_eq_some_iff hw h0]
    constructor
    · rintro ⟨q, hq, -, hhandle⟩
      have hplace : objects.length = q := handleAt_inj h0 hhandle.symm
      rw [← hplace, ← hlength, List.getElem?_append_right (Nat.le_refl _), Nat.sub_self] at hq
      simp at hq
    · rintro ⟨hroom, -⟩
      exact absurd (handleAt_eq_zero_iff.mpr hroom) h0

/-- **The handle of a new volume designates it iff the keys have run out.** The volume is registered
before its container, and discovered behind it: what the handle designates in the next session is at
best the container. -/
theorem createdHandle_iff (events : List SessionEvent) (tree tree' : DeviceTree)
    (dirs dirs' : List MdDir) (c v : MdDir) (s : CallSession) (info : SSI_RaidLevelInfo)
    (rounds : Nat) (params : CreateFromDisksParams) (hasHandle : Bool) (env : SysEnv) (i h : Nat)
    (hopened : s.nextHandle = createdHandle (run events) (discoverSession tree dirs) c v)
    (hok : ((SsiVolumeCreateFromDisks s info rounds params hasHandle).run env i).result =
      .ok (.ok, some h))
    (hafter : Reappears (discoverSession tree dirs) (discoverSession tree' dirs') c v) :
    (run (events ++ [.call (createdObjects (discoverSession tree dirs) c v)])).resolve
        (discoverSession tree' dirs') .volume h = some (.volume v) ↔
      KeysExhausted (run events) (discoverSession tree dirs) := by
  have hw := invariant_run events
  have hcall : (run (events ++ [.call (createdObjects (discoverSession tree dirs) c v)])).greatest =
      (run events).greatest := by
    rw [run_append_singleton]
    exact greatest_call hw _
  have hhandle : h = HandleManager.handleAt (run events).greatest (discoverSession tree dirs).length := by
    have hdone := (ensures_cleansUp s info rounds params hasHandle env i).done _ hok
    rw [Option.some.inj hdone.1, hopened, createdHandle_eq hw]
  have hresolve := resolve_created (invariant_run _) hafter
    (w := run (events ++ [.call (createdObjects (discoverSession tree dirs) c v)]))
  rw [hcall] at hresolve
  rw [hhandle, hresolve]
  unfold KeysExhausted
  rw [hcall]

section sample

/-- Two free disks. -/
def sampleTree : DeviceTree := ahciTree 2 [foundDisk "sda" "A", foundDisk "sdb" "B"]

/-- The container that is created from them. -/
def createdContainer : MdDir :=
  ⟨lit "md127", some (lit "external:imsm"), [.ofLit "sda", .ofLit "sdb"], .ofLit "aa:1", none⟩

/-- The volume that is created in it. -/
def createdVolume : MdDir :=
  ⟨lit "md126", some (lit "external:/md127/0"), [.ofLit "sda", .ofLit "sdb"], .ofLit "bb:2",
    some ⟨1, .normal, 0, 1000, 512⟩⟩

/-- The sample session has eleven objects, so that the volume gets the handle 12. -/
theorem createdHandle_sample :
    createdHandle (run []) (discoverSession sampleTree []) createdContainer createdVolume = 12 := by
  rw [createdHandle_eq (invariant_run [])]
  decide +kernel

/-- The creation in the sample session succeeds and returns this handle. -/
theorem createFromDisks_sample :
    ((SsiVolumeCreateFromDisks sampleCallSession sampleInfo 1 sampleCreation true).run newerMdadm
      0).result = .ok (.ok, some 12) := by
  decide +kernel

/-- The next session discovers the same objects and behind them the container and its volume. -/
theorem reappears_sample :
    Reappears (discoverSession sampleTree [])
      (discoverSession sampleTree [createdContainer, createdVolume]) createdContainer
      createdVolume :=
  ⟨discoverSession sampleTree [], by decide +kernel, rfl, by decide +kernel⟩

/-- The creation at the start of a process. -/
theorem createdHandle_first :
    (run ([] ++ [.call (createdObjects (discoverSession sampleTree []) createdContainer
          createdVolume)])).resolve
        (discoverSession sampleTree [createdContainer, createdVolume]) .volume 12 =
          some (.volume createdVolume) ↔
      KeysExhausted (run []) (discoverSession sampleTree []) :=
  createdHandle_iff [] sampleTree sampleTree [] [createdContainer, createdVolume] createdContainer
    createdVolume sampleCallSession sampleInfo 1 sampleCreation true newerMdadm 0 12
    createdHandle_sample.symm createFromDisks_sample reappears_sample

/-- A volume of level 1 is created on two disks; its handle 12 is that of the container in the next
session. -/
theorem not_createdHandle_first :
    ∃ h, ((SsiVolumeCreateFromDisks sampleCallSession sampleInfo 1 sampleCreation true).run newerMdadm
        0).result = .ok (.ok, some h) ∧
      sampleCallSession.nextHandle =
        createdHandle (run []) (discoverSession sampleTree []) createdContainer createdVolume ∧
      Reappears (discoverSession sampleTree [])
        (discoverSession sampleTree [createdContainer, createdVolume]) createdContainer
        createdVolume ∧
      (run [.call (createdObjects (discoverSession sampleTree []) createdContainer
          createdVolume)]).resolve
        (discoverSession sampleTree [createdContainer, createdVolume]) .volume h ≠
          some (.volume createdVolume) := by
  refine ⟨12, createFromDisks_sample, createdHandle_sample.symm, reappears_sample, ?_⟩
  have hgreatest : (run [.call (createdObjects (discoverSession sampleTree []) createdContainer
      createdVolume)]).greatest = 0 :=
    greatest_call invariant_start _
  have hplace : HandleManager.handleAt 0 (discoverSession sampleTree []).length = 12 := by
    decide +kernel
  intro hresolve
  rw [← hplace, ← hgreatest, resolve_created (invariant_run _) reappears_sample] at hresolve
  have hroom := hresolve.1
  rw [hgreatest] at hroom
  exact absurd hroom (by decide +kernel)

end sample

end Irstessi
