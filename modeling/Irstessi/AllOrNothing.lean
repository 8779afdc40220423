import Irstessi.Attach

/-!
# Containers of a session: completely attached, or not at all

`Array::addToSession` attaches a container to one component after the other, and an exception ends
the attachment without taking anything back.

* `Complete`, `NoTrace`, `AllOrNothing`: what a session should have of each container.
* `Reaches`, `AllFound`: which components are attached before the first that is missing.
* **`allOrNothing_iff`**: a session has all or nothing of each container iff of every container the
  first component is missing, or no component of it and of its volumes is, and no later container
  gets to one of its components.

The proof goes through the updates that attaching leaves behind (`Attach`): an exception takes none of
them back, so that what a session has of a container can be read off the list of all updates. Each
relation of the session (the members of a container, the volumes of a disk, what a controller refers to,
what is listed) is followed through one update and then, by the general lemmas on lists of updates,
through all of them. (⇐) If nothing of a container is reached there is no update about it; if all is
found every update has been made, and no later container takes one of its disks away. (⇒) A component
that is reached while another one is missing leaves an update without the listing.
-/

namespace Irstessi

open Trail

variable (devices : List SessionDevice)

/-! ## Properties -/

/-- The container `a`, the `i`-th one, is completely attached. -/
structure Complete (s : Session) (i : Nat) (a : MdArray) : Prop where
  listed : .array i ∈ s.listed
  attached : ∀ devName ∈ a.dir.components, ∃ k, findComponent devices devName = some k ∧
    (s.endDevice k).m_pArray = some i ∧ k ∈ (s.array i).m_BlockDevices
  volumes : ∀ j v, a.volumes[j]? = some v → .volume ⟨i, j⟩ ∈ s.listed ∧
    ∀ devName ∈ v.dir.components, ∃ k, findComponent devices devName = some k ∧
      ⟨i, j⟩ ∈ (s.endDevice k).m_Volumes ∧ k ∈ s.members ⟨i, j⟩
  busy : (s.array i).m_Busy = s.busy devices i a
  totalSize : (s.array i).m_TotalSize =
    determineTotalSize (devicesAt devices (s.array i).m_BlockDevices)
  freeSize : (s.array i).m_FreeSize =
    determineFreeSize (devicesAt devices (s.array i).m_BlockDevices) a.volumes
  blocksFree : ∀ k d, k ∈ (s.array i).m_BlockDevices → devices[k]? = some d →
    (s.endDevice k).m_BlocksFree = d.found.determineBlocksFree (s.volumesOf devices i a)

/-- Nothing refers to the `i`-th container or to one of its volumes. -/
structure NoTrace (s : Session) (i : Nat) : Prop where
  listed : ∀ r ∈ s.listed, r.container ≠ i
  array : ∀ k, (s.endDevice k).m_pArray ≠ some i
  volumes : ∀ k, ∀ v ∈ (s.endDevice k).m_Volumes, v.array ≠ i
  controllerArrays : ∀ n, i ∉ (s.controller n).m_Arrays
  controllerVolumes : ∀ n, ∀ v ∈ (s.controller n).m_Volumes, v.array ≠ i

/-- Every container is completely attached or leaves no trace, and no end device has a container or
a volume that the session does not list. -/
def AllOrNothing (dirs : List MdDir) : Prop :=
  (∀ i container, (imsmArrays dirs)[i]? = some container →
    (∃ a, container = some a ∧ Complete devices (.initialized devices dirs) i a) ∨
      NoTrace (.initialized devices dirs) i) ∧
  ∀ k < devices.length,
    (∀ i, ((Session.initialized devices dirs).endDevice k).m_pArray = some i →
      .array i ∈ (Session.initialized devices dirs).listed) ∧
    ∀ v ∈ ((Session.initialized devices dirs).endDevice k).m_Volumes,
      .volume v ∈ (Session.initialized devices dirs).listed

/-- All components are among the end devices. -/
def AllFound (components : List Str) : Prop :=
  ∀ devName ∈ components, (findComponent devices devName).isSome

/-- The end device at position `k` is a component, and those in front of it are not missing. -/
def Reaches (components : List Str) (k : Nat) : Prop :=
  ∃ pre devName post, components = pre ++ devName :: post ∧ AllFound devices pre ∧
    findComponent devices devName = some k

/-- The first component is missing. -/
def FirstMissing (components : List Str) : Prop :=
  ∃ devName ∈ components.head?, findComponent devices devName = none

/-- The first component of the container is missing, or none of its components and its volumes'
components is, and no later container gets to one of its components. -/
def Settled (dirs : List MdDir) (i : Nat) (a : MdArray) : Prop :=
  FirstMissing devices a.dir.components ∨
    (AllFound devices a.dir.components ∧ (∀ v ∈ a.volumes, AllFound devices v.dir.components) ∧
      ∀ j b, i < j → (imsmArrays dirs)[j]? = some (some b) →
        ∀ k, Reaches devices a.dir.components k → ¬ Reaches devices b.dir.components k)

variable {devices}

/-! ## Components -/

/-- A component that is found is at a position of the session. -/
theorem lt_of_findComponent {devName : Str} {k : Nat} (h : findComponent devices devName = some k) :
    k < devices.length := (List.findIdx?_eq_some_iff_getElem.mp h).1

section components

variable {components : List Str} {k : Nat}

/-- What the loop reaches is at a position of the session. -/
theorem lt_of_reaches (h : Reaches devices components k) : k < devices.length := by
  obtain ⟨pre, devName, post, -, -, hk⟩ := h
  exact lt_of_findComponent hk

/-- Where no component is missing, all are reached. -/
theorem reaches_of_mem (h : AllFound devices components) {devName : Str}
    (hmem : devName ∈ components) (hk : findComponent devices devName = some k) :
    Reaches devices components k := by
  obtain ⟨pre, post, rfl⟩ := List.append_of_mem hmem
  exact ⟨pre, devName, post, rfl, fun b hb => h b (List.mem_append_left _ hb), hk⟩

/-- What the loop reaches is found under one of the components. -/
theorem mem_of_reaches (h : Reaches devices components k) :
    ∃ devName ∈ components, findComponent devices devName = some k := by
  obtain ⟨pre, devName, post, rfl, -, hk⟩ := h
  exact ⟨devName, List.mem_append_right _ List.mem_cons_self, hk⟩

/-- Nothing is reached iff there is no component, or the first one is missing. -/
theorem firstMissing_or (devices : List SessionDevice) (components : List Str) :
    components = [] ∨ FirstMissing devices components ∨ ∃ k, Reaches devices components k := by
  rcases components with _ | ⟨devName, components⟩
  · exact .inl rfl
  · rcases hk : findComponent devices devName with _ | k
    · exact .inr (.inl ⟨devName, rfl, hk⟩)
    · exact .inr (.inr ⟨k, [], devName, components, rfl, (fun _ h => absurd h List.not_mem_nil), hk⟩)

/-- Where already the first component is missing nothing is reached. -/
theorem not_reaches_of_firstMissing (h : FirstMissing devices components) :
    ¬ Reaches devices components k := by
  rintro ⟨pre, devName, post, rfl, hpre, hk⟩
  obtain ⟨first, hfirst, hnone⟩ := h
  rcases pre with _ | ⟨b, pre⟩
  · obtain rfl : devName = first := Option.some.inj hfirst
    rw [hk] at hnone
    simp at hnone
  · obtain rfl : b = first := Option.some.inj hfirst
    have hsome := hpre b List.mem_cons_self
    rw [hnone] at hsome
    simp at hsome

/-- Where the first component is missing not all are found. -/
theorem not_allFound_of_firstMissing (h : FirstMissing devices components) :
    ¬ AllFound devices components := by
  intro hall
  obtain ⟨first, hfirst, hnone⟩ := h
  have hsome := hall first (List.mem_of_mem_head? hfirst)
  rw [hnone] at hsome
  simp at hsome

end components

/-! ## The updates of a container -/

section trails

variable {r : MdRef} {components : List Str} {e : Update} {a : MdArray} {v : MdVolume} {i : Nat}

/-- The loop ends normally iff all components are found. -/
theorem done_componentsTrail_iff :
    (componentsTrail devices r components).done ↔ AllFound devices components := by
  unfold componentsTrail
  rw [done_forEach_iff]
  apply forall₂_congr
  intro devName _
  rcases findComponent devices devName with _ | k <;> simp

/-- The updates of the loop are the attachments of what it reaches. -/
theorem mem_componentsTrail_iff : e ∈ (componentsTrail devices r components).updates ↔
    ∃ k, e = .attach r k ∧ Reaches devices components k := by
  unfold componentsTrail
  rw [mem_forEach_iff]
  constructor
  · rintro ⟨pre, devName, post, rfl, hpre, he⟩
    rcases hk : findComponent devices devName with _ | k
    · simp [hk] at he
    · refine ⟨k, by simpa [hk] using he, pre, devName, post, rfl, ?_, hk⟩
      exact done_componentsTrail_iff (r := r).mp ((done_forEach_iff _).mpr hpre)
  · rintro ⟨k, rfl, pre, devName, post, rfl, hpre, hk⟩
    refine ⟨pre, devName, post, rfl, ?_, by simp [hk]⟩
    exact (done_forEach_iff _).mp (done_componentsTrail_iff (r := r).mpr hpre)

/-- A volume is attached completely iff all its components are found. -/
theorem done_volumeTrail_iff {id : VolumeId} :
    (volumeTrail devices v id).done ↔ AllFound devices v.dir.components := by
  simp [volumeTrail, done_componentsTrail_iff]

/-- The updates of a volume are the attachments of what is reached and, where all are found, its
listing. -/
theorem mem_volumeTrail_iff {id : VolumeId} : e ∈ (volumeTrail devices v id).updates ↔
    (∃ k, e = .attach (.volume id) k ∧ Reaches devices v.dir.components k) ∨
      AllFound devices v.dir.components ∧ e = .list (.volume id) := by
  rw [volumeTrail, mem_seq_iff, mem_componentsTrail_iff, done_componentsTrail_iff, mem_one_iff]

/-- The volumes of an array are all attached iff the components of all are found. -/
theorem done_volumesTrail_iff :
    (volumesTrail devices a i).done ↔ ∀ v ∈ a.volumes, AllFound devices v.dir.components := by
  rw [volumesTrail, done_forEach_iff]
  constructor
  · intro h v hv
    obtain ⟨j, hj⟩ := List.mem_iff_getElem?.mp hv
    exact done_volumeTrail_iff.mp (h (v, j) (List.mk_mem_zipIdx_iff_getElem?.mpr hj))
  · intro h x hx
    exact done_volumeTrail_iff.mpr (h x.1 (List.fst_mem_of_mem_zipIdx hx))

/-- What attaching the volumes leaves is for one of them. -/
theorem exists_of_mem_volumesTrail (h : e ∈ (volumesTrail devices a i).updates) :
    ∃ j v, a.volumes[j]? = some v ∧ e ∈ (volumeTrail devices v ⟨i, j⟩).updates := by
  obtain ⟨pre, x, post, heq, -, he⟩ := (mem_forEach_iff _).mp h
  have hx : (x.1, x.2) ∈ a.volumes.zipIdx := by
    rw [heq]
    exact List.mem_append_right _ List.mem_cons_self
  exact ⟨x.2, x.1, List.mk_mem_zipIdx_iff_getElem?.mp hx, he⟩

/-- Where all are found the updates of each volume are there. -/
theorem mem_volumesTrail (hall : ∀ v ∈ a.volumes, AllFound devices v.dir.components) {j : Nat}
    (hj : a.volumes[j]? = some v) (h : e ∈ (volumeTrail devices v ⟨i, j⟩).updates) :
    e ∈ (volumesTrail devices a i).updates :=
  (mem_forEach_of_done _ (done_volumesTrail_iff.mpr hall)).mpr
    ⟨(v, j), List.mk_mem_zipIdx_iff_getElem?.mpr hj, h⟩

/-- The updates of a container. -/
theorem mem_arrayTrail_iff : e ∈ (arrayTrail devices a i).updates ↔
    (∃ k, e = .attach (.array i) k ∧ Reaches devices a.dir.components k) ∨
      AllFound devices a.dir.components ∧ (e = .list (.array i) ∨
        e ∈ (volumesTrail devices a i).updates ∨
          (∀ v ∈ a.volumes, AllFound devices v.dir.components) ∧ e = .finish i a) := by
  simp only [arrayTrail, mem_seq_iff, mem_componentsTrail_iff, done_componentsTrail_iff,
    mem_one_iff, done_one, true_and, done_volumesTrail_iff]

/-- The updates of a container are for it. -/
theorem container_of_mem (h : e ∈ (arrayTrail devices a i).updates) : e.container = i := by
  rcases mem_arrayTrail_iff.mp h with ⟨k, rfl, -⟩ | ⟨-, rfl | h | ⟨-, rfl⟩⟩
  · rfl
  · rfl
  · obtain ⟨j, v, -, hv⟩ := exists_of_mem_volumesTrail h
    rcases mem_volumeTrail_iff.mp hv with ⟨k, rfl, -⟩ | ⟨-, rfl⟩ <;> rfl
  · rfl

/-- A container without a component in front of a missing one has no updates. -/
theorem not_mem_of_firstMissing (h : FirstMissing devices a.dir.components) :
    e ∉ (arrayTrail devices a i).updates := by
  intro he
  rcases mem_arrayTrail_iff.mp he with ⟨k, -, hk⟩ | ⟨hall, -⟩
  · exact not_reaches_of_firstMissing h hk
  · exact not_allFound_of_firstMissing h hall

/-- Where nothing is missing, the flag and the sizes come last. -/
theorem arrayTrail_eq (ha : AllFound devices a.dir.components)
    (hvolumes : ∀ v ∈ a.volumes, AllFound devices v.dir.components) :
    ∃ us, (arrayTrail devices a i).updates = us ++ [.finish i a] ∧ ∀ b, .finish i b ∉ us := by
  refine ⟨(componentsTrail devices (.array i) a.dir.components).updates ++
    ([.list (.array i)] ++ (volumesTrail devices a i).updates), ?_, ?_⟩
  · unfold arrayTrail
    rw [seq_of_done (done_componentsTrail_iff.mpr ha), seq_of_done (done_one _),
      seq_of_done (done_volumesTrail_iff.mpr hvolumes)]
    simp [one]
  · intro b hb
    simp only [List.mem_append, List.mem_singleton, reduceCtorEq, false_or] at hb
    rcases hb with hb | hb
    · obtain ⟨k, heq, -⟩ := mem_componentsTrail_iff.mp hb
      simp at heq
    · obtain ⟨j, v, -, hv⟩ := exists_of_mem_volumesTrail hb
      rcases mem_volumeTrail_iff.mp hv with ⟨k, heq, -⟩ | ⟨-, heq⟩ <;> cases heq

end trails

/-! ## What an update changes -/

section apply

variable {s : Session} {e : Update} {k : Nat}

/-- One attachment touches the device, its controller and no list. -/
theorem attachEndDevice_eq {r : MdRef} {d : SessionDevice} (h : devices[k]? = some d) :
    (s.attachEndDevice devices r k).endDevice =
        Function.update s.endDevice k ((s.endDevice k).attach d.found r) ∧
      (s.attachEndDevice devices r k).controller =
        Function.update s.controller d.controller ((s.controller d.controller).attach r) ∧
      (s.attachEndDevice devices r k).listed = s.listed := by
  unfold Session.attachEndDevice
  rw [h]
  cases r <;> exact ⟨rfl, rfl, rfl⟩

/-- Without a device at the position nothing is attached. -/
theorem attachEndDevice_of_none {r : MdRef} (h : devices[k]? = none) :
    s.attachEndDevice devices r k = s := by
  unfold Session.attachEndDevice
  rw [h]

/-- An update lists an object, or leaves the list. -/
theorem mem_listed_apply (r : MdRef) :
    r ∈ (s.apply devices e).listed ↔ r ∈ s.listed ∨ e = .list r := by
  cases e with
  | attach r' k =>
      have hlisted : (s.attachEndDevice devices r' k).listed = s.listed := by
        rcases h : devices[k]? with _ | d
        · rw [attachEndDevice_of_none h]
        · exact (attachEndDevice_eq h).2.2
      simp [Session.apply, hlisted]
  | list r' => simp [Session.apply, Session.list, eq_comm]
  | finish i a => simp [Session.apply, Session.finish]

/-- An end device that is not there is attached to nothing. -/
theorem iff_or_attach_of_none {P : Prop} {r r' : MdRef} {k' : Nat} (h : devices[k']? = none) :
    P ↔ P ∨ (Update.attach r' k' = .attach r k ∧ k < devices.length) := by
  have hlen := List.getElem?_eq_none_iff.mp h
  constructor
  · exact .inl
  · rintro (hp | ⟨heq, hk⟩)
    · exact hp
    · simp at heq
      omega

/-- Attached end devices come to the end of a list. -/
theorem mem_append_iff_attach {ks : List Nat} {r : MdRef} {k' : Nat} (h : k' < devices.length) :
    k ∈ ks ++ [k'] ↔ k ∈ ks ∨ (Update.attach r k' = .attach r k ∧ k < devices.length) := by
  rw [List.mem_append, List.mem_singleton]
  constructor
  · rintro (hk | rfl)
    · exact .inl hk
    · exact .inr ⟨rfl, h⟩
  · rintro (hk | ⟨heq, -⟩)
    · exact .inl hk
    · cases heq
      exact .inr rfl

/-- An update adds a volume to the one device that it attaches, or to none. -/
theorem mem_volumes_apply (v : VolumeId) :
    v ∈ ((s.apply devices e).endDevice k).m_Volumes ↔ v ∈ (s.endDevice k).m_Volumes ∨
      (e = .attach (.volume v) k ∧ k < devices.length) := by
  cases e with
  | attach r k' =>
      rcases h : devices[k']? with _ | d
      · rw [Session.apply, attachEndDevice_of_none h]
        exact iff_or_attach_of_none h
      · have hlen := (List.getElem?_eq_some_iff.mp h).1
        rw [Session.apply, (attachEndDevice_eq h).1]
        by_cases hk : k = k'
        · subst hk
          cases r <;> simp [DeviceRefs.attach, hlen, eq_comm]
        · rw [Function.update_of_ne hk]
          simp [Ne.symm hk]
  | list r => simp [Session.apply, Session.list]
  | finish i a =>
      simp only [Session.apply, Session.finish]
      split <;> simp [DeviceRefs.setBlocksFree]

/-- A controller lists the container or the volume. -/
def ControllerRefs.RefersTo (c : ControllerRefs) : MdRef → Prop
  | .array i => i ∈ c.m_Arrays
  | .volume v => v ∈ c.m_Volumes

/-- An update lets the controller of the attached device refer to the object, or leaves the
controllers. -/
theorem refersTo_apply (n : Nat) (r : MdRef) :
    ((s.apply devices e).controller n).RefersTo r ↔ (s.controller n).RefersTo r ∨
      ∃ k d, e = .attach r k ∧ devices[k]? = some d ∧ d.controller = n := by
  cases e with
  | attach r' k =>
      rcases h : devices[k]? with _ | d
      · rw [Session.apply, attachEndDevice_of_none h]
        constructor
        · exact .inl
        · rintro (hr | ⟨k', d, heq, hd, -⟩)
          · exact hr
          · cases heq
            rw [h] at hd
            simp at hd
      · rw [Session.apply, (attachEndDevice_eq h).2.1]
        by_cases hn : n = d.controller
        · subst hn
          cases r <;> cases r' <;>
            simp [ControllerRefs.attach, ControllerRefs.RefersTo, h, eq_comm]
        · rw [Function.update_of_ne hn]
          simp [h, Ne.symm hn]
  | list r' => simp [Session.apply, Session.list]
  | finish i a => simp [Session.apply, Session.finish]

/-- An update adds the device to the members of the array, or leaves them. -/
theorem mem_blockDevices_apply (i : Nat) :
    k ∈ ((s.apply devices e).array i).m_BlockDevices ↔ k ∈ (s.array i).m_BlockDevices ∨
      (e = .attach (.array i) k ∧ k < devices.length) := by
  cases e with
  | attach r k' =>
      rcases h : devices[k']? with _ | d
      · rw [Session.apply, attachEndDevice_of_none h]
        exact iff_or_attach_of_none h
      · have hlen := (List.getElem?_eq_some_iff.mp h).1
        cases r with
        | array i' =>
            simp only [Session.apply, Session.attachEndDevice, h, Function.update_apply]
            by_cases hi : i = i'
            · subst hi
              rw [if_pos rfl]
              exact mem_append_iff_attach hlen
            · simp [hi, Ne.symm hi]
        | volume v => simp [Session.apply, Session.attachEndDevice, h]
  | list r => simp [Session.apply, Session.list]
  | finish i' a =>
      simp only [Session.apply, Session.finish, Function.update_apply]
      split
      next hi => subst hi; simp
      next => simp

/-- An update adds the device to the members of the volume, or leaves them. -/
theorem mem_members_apply (v : VolumeId) :
    k ∈ (s.apply devices e).members v ↔ k ∈ s.members v ∨
      (e = .attach (.volume v) k ∧ k < devices.length) := by
  cases e with
  | attach r k' =>
      rcases h : devices[k']? with _ | d
      · rw [Session.apply, attachEndDevice_of_none h]
        exact iff_or_attach_of_none h
      · have hlen := (List.getElem?_eq_some_iff.mp h).1
        cases r with
        | array i => simp [Session.apply, Session.attachEndDevice, h]
        | volume v' =>
            simp only [Session.apply, Session.attachEndDevice, h, Function.update_apply]
            by_cases hv : v = v'
            · subst hv
              rw [if_pos rfl]
              exact mem_append_iff_attach hlen
            · simp [hv, Ne.symm hv]
  | list r => simp [Session.apply, Session.list]
  | finish i a => simp [Session.apply, Session.finish]

/-- The container of an end device changes only where another is attached. -/
theorem m_pArray_apply_of_ne (h : ∀ i, e ≠ .attach (.array i) k) :
    ((s.apply devices e).endDevice k).m_pArray = (s.endDevice k).m_pArray := by
  cases e with
  | attach r k' =>
      rcases hk' : devices[k']? with _ | d
      · rw [Session.apply, attachEndDevice_of_none hk']
      · rw [Session.apply, (attachEndDevice_eq hk').1]
        by_cases hk : k = k'
        · subst hk
          cases r with
          | array i => exact absurd rfl (h i)
          | volume v => simp [DeviceRefs.attach]
        · rw [Function.update_of_ne hk]
  | list r => rfl
  | finish i a =>
      simp only [Session.apply, Session.finish]
      split <;> rfl

/-- The last array that a device is attached to is the one that it refers to. -/
theorem m_pArray_apply_attach {i : Nat} (hk : k < devices.length) :
    ((s.apply devices (.attach (.array i) k)).endDevice k).m_pArray = some i := by
  rw [Session.apply, (attachEndDevice_eq (List.getElem?_eq_getElem hk)).1, Function.update_self]
  rfl

/-- An update leaves the other containers alone. -/
theorem array_apply_of_ne {i : Nat} (h : e.container ≠ i) :
    (s.apply devices e).array i = s.array i := by
  cases e with
  | attach r k =>
      rcases hd : devices[k]? with _ | d
      · rw [Session.apply, attachEndDevice_of_none hd]
      · cases r with
        | array i' =>
            simp only [Session.apply, Session.attachEndDevice, hd]
            exact Function.update_of_ne (Ne.symm h) _ _
        | volume v => simp only [Session.apply, Session.attachEndDevice, hd]
  | list r => rfl
  | finish i' a => exact Function.update_of_ne (Ne.symm h) _ _

/-- An update leaves the other containers' volumes alone. -/
theorem members_apply_of_ne {v : VolumeId} (h : e.container ≠ v.array) :
    (s.apply devices e).members v = s.members v := by
  cases e with
  | attach r k =>
      rcases hd : devices[k]? with _ | d
      · rw [Session.apply, attachEndDevice_of_none hd]
      · cases r with
        | array i' => simp only [Session.apply, Session.attachEndDevice, hd]
        | volume v' =>
            have hne : v ≠ v' := by
              rintro rfl
              exact h rfl
            simp only [Session.apply, Session.attachEndDevice, hd]
            exact Function.update_of_ne hne _ _
  | list r => rfl
  | finish i' a => rfl

/-- The flag of a container changes only with its sizes. -/
theorem m_Busy_apply {i : Nat} (h : ∀ a, e ≠ .finish i a) :
    ((s.apply devices e).array i).m_Busy = (s.array i).m_Busy := by
  by_cases hi : e.container = i
  · cases e with
    | attach r k =>
        rcases hd : devices[k]? with _ | d
        · rw [Session.apply, attachEndDevice_of_none hd]
        · cases r with
          | array i' =>
              obtain rfl : i' = i := hi
              simp [Session.apply, Session.attachEndDevice, hd]
          | volume v => simp only [Session.apply, Session.attachEndDevice, hd]
    | list r => rfl
    | finish i' a =>
        obtain rfl : i' = i := hi
        exact absurd rfl (h a)
  · rw [array_apply_of_ne hi]

/-- The free blocks of an end device change only with the sizes of its containers. -/
theorem m_BlocksFree_apply (h : ∀ i a, e = .finish i a → k ∉ (s.array i).m_BlockDevices) :
    ((s.apply devices e).endDevice k).m_BlocksFree = (s.endDevice k).m_BlocksFree := by
  cases e with
  | attach r k' =>
      rcases hk' : devices[k']? with _ | d
      · rw [Session.apply, attachEndDevice_of_none hk']
      · rw [Session.apply, (attachEndDevice_eq hk').1]
        by_cases hk : k = k'
        · subst hk
          cases r <;> simp [DeviceRefs.attach]
        · rw [Function.update_of_ne hk]
  | list r => rfl
  | finish i a =>
      simp only [Session.apply, Session.finish, if_neg (h i a rfl)]

end apply

/-! ## The updates of a session -/

section session

variable {dirs : List MdDir} {e : Update} {i k : Nat}

/-- The updates of a container are about itself and its volumes. -/
theorem container_of_mem_updatesOf {container : Option MdArray}
    (h : e ∈ updatesOf devices (container, i)) : e.container = i := by
  rcases container with _ | a
  · cases h
  · exact container_of_mem h

/-- The updates made before those for a container, and after them. -/
theorem exists_updates_eq (devices : List SessionDevice) {container : Option MdArray}
    (hi : (imsmArrays dirs)[i]? = some container) :
    ∃ pre post, updates devices dirs = pre ++ (updatesOf devices (container, i) ++ post) ∧
      (∀ e ∈ pre, e.container < i) ∧ ∀ e ∈ post, i < e.container := by
  obtain ⟨hlt, hget⟩ := List.getElem?_eq_some_iff.mp hi
  have hsplit : imsmArrays dirs =
      (imsmArrays dirs).take i ++ container :: (imsmArrays dirs).drop (i + 1) := by
    rw [← hget, List.cons_getElem_drop_succ, List.take_append_drop]
  have hlen : ((imsmArrays dirs).take i).length = i := by
    rw [List.length_take]
    omega
  refine ⟨((imsmArrays dirs).take i).zipIdx.flatMap (updatesOf devices),
    (((imsmArrays dirs).drop (i + 1)).zipIdx (i + 1)).flatMap (updatesOf devices), ?_, ?_, ?_⟩
  · unfold updates
    conv_lhs => rw [hsplit]
    rw [List.zipIdx_append, List.flatMap_append, hlen, Nat.zero_add, List.zipIdx_cons,
      List.flatMap_cons]
  · intro e he
    obtain ⟨⟨c, j⟩, hx, he⟩ := List.mem_flatMap.mp he
    have hj := (List.mem_zipIdx hx).2.1
    rw [container_of_mem_updatesOf he]
    omega
  · intro e he
    obtain ⟨⟨c, j⟩, hx, he⟩ := List.mem_flatMap.mp he
    have hj := (List.mem_zipIdx hx).1
    rw [container_of_mem_updatesOf he]
    omega

/-- All updates of the session, container by container. -/
theorem mem_updates_iff : e ∈ updates devices dirs ↔
    ∃ a, (imsmArrays dirs)[e.container]? = some (some a) ∧
      e ∈ (arrayTrail devices a e.container).updates := by
  unfold updates
  rw [List.mem_flatMap]
  constructor
  · rintro ⟨⟨container, i⟩, hx, he⟩
    rw [container_of_mem_updatesOf he]
    rcases container with _ | a
    · cases he
    · exact ⟨a, List.mk_mem_zipIdx_iff_getElem?.mp hx, he⟩
  · rintro ⟨a, ha, he⟩
    exact ⟨(some a, e.container), List.mk_mem_zipIdx_iff_getElem?.mpr ha, he⟩

/-- The end devices that the containers get to. -/
theorem mem_updates_array_iff : .attach (.array i) k ∈ updates devices dirs ↔
    ∃ a, (imsmArrays dirs)[i]? = some (some a) ∧ Reaches devices a.dir.components k := by
  rw [mem_updates_iff]
  refine exists_congr fun a => and_congr_right fun _ => ?_
  rw [mem_arrayTrail_iff]
  constructor
  · rintro (⟨k', heq, hk⟩ | ⟨-, heq | he | ⟨-, heq⟩⟩)
    · cases heq
      exact hk
    · simp at heq
    · obtain ⟨j, v, -, hv⟩ := exists_of_mem_volumesTrail he
      rcases mem_volumeTrail_iff.mp hv with ⟨k', heq, -⟩ | ⟨-, heq⟩ <;> cases heq
    · simp at heq
  · exact fun hk => .inl ⟨k, rfl, hk⟩

/-- Volumes are attached to end devices of the session. -/
theorem lt_of_mem_updates {r : MdRef} (h : .attach r k ∈ updates devices dirs) :
    k < devices.length := by
  obtain ⟨a, -, he⟩ := mem_updates_iff.mp h
  rcases mem_arrayTrail_iff.mp he with ⟨k', heq, hk⟩ | ⟨-, heq | he | ⟨-, heq⟩⟩
  · obtain ⟨-, rfl⟩ := Update.attach.inj heq
    exact lt_of_reaches hk
  · simp at heq
  · obtain ⟨j, v, -, hv⟩ := exists_of_mem_volumesTrail he
    rcases mem_volumeTrail_iff.mp hv with ⟨k', heq, hk⟩ | ⟨-, heq⟩
    · obtain ⟨-, rfl⟩ := Update.attach.inj heq
      exact lt_of_reaches hk
    · simp at heq
  · simp at heq

/-! ## What a session refers to -/

/-- Before the arrays are attached no device refers to any. -/
theorem discovered_endDevice (k : Nat) : ((Session.discovered devices).endDevice k).m_pArray = none ∧
    ((Session.discovered devices).endDevice k).m_Volumes = [] := by
  rcases h : devices[k]? with _ | d
  · simp [Session.discovered, h]
  · simp [Session.discovered, h]

section refs

variable (hne : devices ≠ [])

include hne

/-- A fact about a session that some updates bring about. -/
theorem initialized_iff {Q : Session → Prop} {R : Update → Prop}
    (hinit : ¬ Q (.discovered devices)) (h : ∀ s e, Q (s.apply devices e) ↔ Q s ∨ R e) :
    Q (.initialized devices dirs) ↔ ∃ e ∈ updates devices dirs, R e := by
  rw [Session.initialized_eq devices dirs hne, foldl_iff h]
  exact or_iff_right hinit

/-- What is listed in the end is what an update has listed. -/
theorem mem_listed_iff (r : MdRef) :
    r ∈ (Session.initialized devices dirs).listed ↔ .list r ∈ updates devices dirs := by
  have hinit : r ∉ (Session.discovered devices).listed := List.not_mem_nil
  rw [initialized_iff hne (Q := fun s => r ∈ s.listed) hinit fun s e => mem_listed_apply r]
  exact exists_eq_right

/-- The volumes of a device in the end are those that it has been attached to. -/
theorem mem_volumes_iff (v : VolumeId) :
    v ∈ ((Session.initialized devices dirs).endDevice k).m_Volumes ↔
      .attach (.volume v) k ∈ updates devices dirs := by
  have hinit : v ∉ ((Session.discovered devices).endDevice k).m_Volumes := by
    rw [(discovered_endDevice k).2]
    exact List.not_mem_nil
  rw [initialized_iff hne (Q := fun s => v ∈ (s.endDevice k).m_Volumes) hinit
    fun s e => mem_volumes_apply v]
  constructor
  · rintro ⟨e, he, rfl, -⟩
    exact he
  · intro h
    exact ⟨_, h, rfl, lt_of_mem_updates h⟩

/-- What a controller refers to in the end is what one of its devices has been attached to. -/
theorem refersTo_iff (n : Nat) (r : MdRef) :
    ((Session.initialized devices dirs).controller n).RefersTo r ↔
      ∃ k d, .attach r k ∈ updates devices dirs ∧ devices[k]? = some d ∧ d.controller = n := by
  have hinit : ¬ ((Session.discovered devices).controller n).RefersTo r := by
    cases r <;> exact List.not_mem_nil
  rw [initialized_iff hne (Q := fun s => (s.controller n).RefersTo r) hinit
    fun s e => refersTo_apply n r]
  constructor
  · rintro ⟨e, he, k, d, rfl, hd, hn⟩
    exact ⟨k, d, he, hd, hn⟩
  · rintro ⟨k, d, he, hd, hn⟩
    exact ⟨_, he, k, d, rfl, hd, hn⟩

/-- The members of an array in the end are those that have been attached. -/
theorem mem_blockDevices_iff : k ∈ ((Session.initialized devices dirs).array i).m_BlockDevices ↔
    .attach (.array i) k ∈ updates devices dirs := by
  rw [initialized_iff hne (Q := fun s => k ∈ (s.array i).m_BlockDevices) List.not_mem_nil
    fun s e => mem_blockDevices_apply i]
  constructor
  · rintro ⟨e, he, rfl, -⟩
    exact he
  · intro h
    exact ⟨_, h, rfl, lt_of_mem_updates h⟩

/-- The members of a volume in the end are those that have been attached. -/
theorem mem_members_iff (v : VolumeId) : k ∈ (Session.initialized devices dirs).members v ↔
    .attach (.volume v) k ∈ updates devices dirs := by
  rw [initialized_iff hne (Q := fun s => k ∈ s.members v) List.not_mem_nil
    fun s e => mem_members_apply v]
  constructor
  · rintro ⟨e, he, rfl, -⟩
    exact he
  · intro h
    exact ⟨_, h, rfl, lt_of_mem_updates h⟩

end refs

/-- The container of an end device is its own or the last that was attached. -/
theorem m_pArray_foldl {us : List Update} {s : Session} {P : Option Nat → Prop}
    (hs : P (s.endDevice k).m_pArray)
    (h : ∀ i, .attach (.array i) k ∈ us → k < devices.length ∧ P (some i)) :
    P ((us.foldl (Session.apply devices) s).endDevice k).m_pArray := by
  refine foldl_keeps (Q := fun s : Session => P (s.endDevice k).m_pArray) hs fun s e he hs => ?_
  by_cases hattach : ∃ i, e = .attach (.array i) k
  · obtain ⟨i, rfl⟩ := hattach
    obtain ⟨hk, hP⟩ := h i he
    rwa [m_pArray_apply_attach hk]
  · rwa [m_pArray_apply_of_ne fun i heq => hattach ⟨i, heq⟩]

/-- Among the containers that have been attached since some container, the end device has one. -/
theorem exists_m_pArray {us u w : List Update} {s : Session} {P : Nat → Prop}
    (hus : us = u ++ .attach (.array i) k :: w) (hk : k < devices.length) (hi : P i)
    (hw : ∀ j, .attach (.array j) k ∈ w → P j) :
    ∃ j, ((us.foldl (Session.apply devices) s).endDevice k).m_pArray = some j ∧ P j := by
  subst hus
  rw [List.foldl_append, List.foldl_cons]
  refine m_pArray_foldl (P := fun x => ∃ j, x = some j ∧ P j) ?_ ?_
  · exact ⟨i, m_pArray_apply_attach hk, hi⟩
  · exact fun j hj => ⟨hk, j, rfl, hw j hj⟩

/-! ## No trace -/

/-- Before the arrays are attached there is no trace of any. -/
theorem noTrace_discovered (i : Nat) : NoTrace (.discovered devices) i where
  listed _ h := absurd h List.not_mem_nil
  array k := by
    rw [(discovered_endDevice k).1]
    exact (Option.some_ne_none i).symm
  volumes k v hv := by
    rw [(discovered_endDevice k).2] at hv
    exact absurd hv List.not_mem_nil
  controllerArrays _ := List.not_mem_nil
  controllerVolumes _ _ h := absurd h List.not_mem_nil

/-- A container without updates leaves no trace. -/
theorem noTrace_of_forall (hne : devices ≠ []) (h : ∀ e ∈ updates devices dirs, e.container ≠ i) :
    NoTrace (.initialized devices dirs) i where
  listed r hr := h _ ((mem_listed_iff hne r).mp hr)
  array k := by
    rw [Session.initialized_eq devices dirs hne]
    refine m_pArray_foldl (P := fun x => x ≠ some i) ?_ ?_
    · rw [(discovered_endDevice k).1]
      exact (Option.some_ne_none i).symm
    · intro j hj
      exact ⟨lt_of_mem_updates hj, fun heq => h _ hj (Option.some.inj heq)⟩
  volumes k v hv := h _ ((mem_volumes_iff hne v).mp hv)
  controllerArrays n hmem := by
    obtain ⟨k, d, he, -, -⟩ := (refersTo_iff hne n (.array i)).mp hmem
    exact h _ he rfl
  controllerVolumes n v hv := by
    obtain ⟨k, d, he, -, -⟩ := (refersTo_iff hne n (.volume v)).mp hv
    exact h _ he

/-- A container leaves no trace iff its first component is missing. -/
theorem noTrace_iff (hne : devices ≠ []) {a : MdArray} (hi : (imsmArrays dirs)[i]? = some (some a)) :
    NoTrace (.initialized devices dirs) i ↔ FirstMissing devices a.dir.components := by
  constructor
  · intro htrace
    rcases firstMissing_or devices a.dir.components with hnil | hmissing | ⟨k, hk⟩
    · -- nothing to attach: the container is listed
      have hall : AllFound devices a.dir.components := by
        rw [hnil]
        exact fun _ h => absurd h List.not_mem_nil
      have hlist : .list (.array i) ∈ updates devices dirs :=
        mem_updates_iff.mpr ⟨a, hi, mem_arrayTrail_iff.mpr (.inr ⟨hall, .inl rfl⟩)⟩
      exact absurd rfl (htrace.listed _ ((mem_listed_iff hne _).mpr hlist))
    · exact hmissing
    · -- the controller of the first component keeps the container
      have hattach := mem_updates_array_iff.mpr ⟨a, hi, hk⟩
      have hd := List.getElem?_eq_getElem (lt_of_reaches hk)
      have hrefers := (refersTo_iff hne _ (.array i)).mpr ⟨k, _, hattach, hd, rfl⟩
      exact absurd hrefers (htrace.controllerArrays _)
  · intro hmissing
    apply noTrace_of_forall hne
    intro e he hcontainer
    obtain ⟨b, hb, he⟩ := mem_updates_iff.mp he
    rw [hcontainer, hi] at hb
    obtain rfl := Option.some.inj (Option.some.inj hb)
    exact not_mem_of_firstMissing hmissing he

/-! ## Complete attachment -/

/-- No container after `i` gets to the end device at position `k`. -/
def LastReached (devices : List SessionDevice) (dirs : List MdDir) (i k : Nat) : Prop :=
  ∀ j b, i < j → (imsmArrays dirs)[j]? = some (some b) → ¬ Reaches devices b.dir.components k

/-- The containers that are attached to an end device from the `i`-th one on. -/
theorem exists_attach_eq (hattach : .attach (.array i) k ∈ updates devices dirs) :
    ∃ u w, updates devices dirs = u ++ .attach (.array i) k :: w ∧
      ∀ j, .attach (.array j) k ∈ w → j = i ∨ i < j := by
  obtain ⟨a, hi, hreaches⟩ := mem_updates_array_iff.mp hattach
  obtain ⟨pre, post, hsplit, -, hpost⟩ := exists_updates_eq devices hi
  have hmem : .attach (.array i) k ∈ updatesOf devices (some a, i) :=
    mem_arrayTrail_iff.mpr (.inl ⟨k, rfl, hreaches⟩)
  obtain ⟨u, w, huw⟩ := List.append_of_mem hmem
  refine ⟨pre ++ u, w ++ post, ?_, ?_⟩
  · rw [hsplit, huw]
    simp
  · intro j hj
    rcases List.mem_append.mp hj with hw | hp
    · have hown : .attach (.array j) k ∈ updatesOf devices (some a, i) := by
        rw [huw]
        exact List.mem_append_right _ (List.mem_cons_of_mem _ hw)
      exact .inl (container_of_mem_updatesOf hown)
    · exact .inr (hpost _ hp)

/-- An end device belongs to the last container that gets to it. -/
theorem m_pArray_iff (hne : devices ≠ []) (hattach : .attach (.array i) k ∈ updates devices dirs) :
    ((Session.initialized devices dirs).endDevice k).m_pArray = some i ↔
      LastReached devices dirs i k := by
  have hk := lt_of_mem_updates hattach
  rw [Session.initialized_eq devices dirs hne]
  constructor
  · intro heq j b hij hj hreaches
    obtain ⟨u, w, hus, hw⟩ := exists_attach_eq (mem_updates_array_iff.mpr ⟨b, hj, hreaches⟩)
    obtain ⟨j', hj', hle⟩ := exists_m_pArray (s := .discovered devices) (P := fun j' => j ≤ j') hus hk
      (le_refl j) fun j' hmem => (hw j' hmem).elim Eq.ge le_of_lt
    rw [heq] at hj'
    have := Option.some.inj hj'
    omega
  · intro hlast
    obtain ⟨u, w, hus, hw⟩ := exists_attach_eq hattach
    obtain ⟨j', hj', rfl⟩ := exists_m_pArray (s := .discovered devices) (P := fun j' => j' = i) hus hk
      rfl fun j' hmem => by
        rcases hw j' hmem with heq | hlt
        · exact heq
        · have hin : .attach (.array j') k ∈ updates devices dirs := by
            rw [hus]
            exact List.mem_append_right _ (List.mem_cons_of_mem _ hmem)
          obtain ⟨b, hb, hreaches⟩ := mem_updates_array_iff.mp hin
          exact absurd hreaches (hlast j' b hlt hb)
    exact hj'

/-- What the later containers leave as it is. -/
theorem volumesOf_foldl {us : List Update} {s : Session} {a : MdArray}
    (h : ∀ e ∈ us, i < e.container) :
    (us.foldl (Session.apply devices) s).volumesOf devices i a = s.volumesOf devices i a := by
  have hmembers : ∀ j, (us.foldl (Session.apply devices) s).members ⟨i, j⟩ = s.members ⟨i, j⟩ :=
    fun j => foldl_frame (fun s : Session => s.members ⟨i, j⟩)
      fun s e he => members_apply_of_ne (ne_of_gt (h e he))
  simp only [Session.volumesOf, hmembers]

section finish

variable {a : MdArray} (hne : devices ≠ []) (hi : (imsmArrays dirs)[i]? = some (some a))
  (hfound : AllFound devices a.dir.components)
  (hvolumes : ∀ v ∈ a.volumes, AllFound devices v.dir.components)

include hne hi hfound hvolumes

/-- The session when the flag and the sizes of a container are determined, and the updates after. -/
theorem exists_finish : ∃ (s : Session) (post : List Update),
    Session.initialized devices dirs = post.foldl (Session.apply devices) (s.finish devices i a) ∧
      (s.array i).m_Busy = false ∧ (∀ j, i < j → (s.array j).m_BlockDevices = []) ∧
      (∀ e ∈ post, i < e.container) ∧ ∀ e ∈ post, e ∈ updates devices dirs := by
  obtain ⟨pre, post, hsplit, hpre, hpost⟩ := exists_updates_eq devices hi
  obtain ⟨us, hus, hnofinish⟩ := arrayTrail_eq (i := i) hfound hvolumes
  have hown : updatesOf devices (some a, i) = us ++ [.finish i a] := hus
  have hcontainer : ∀ e ∈ us, e.container = i := by
    intro e he
    have hmem : e ∈ updatesOf devices (some a, i) := by
      rw [hown]
      exact List.mem_append_left _ he
    exact container_of_mem_updatesOf hmem
  rw [hown] at hsplit
  refine ⟨(pre ++ us).foldl (Session.apply devices) (.discovered devices), post, ?_, ?_, ?_, hpost,
    ?_⟩
  · rw [Session.initialized_eq devices dirs hne, hsplit]
    simp only [List.foldl_append, List.foldl_cons, List.foldl_nil]
    rfl
  · refine foldl_frame (fun s : Session => (s.array i).m_Busy) fun s e he => ?_
    apply m_Busy_apply
    intro b heq
    subst heq
    rcases List.mem_append.mp he with he | he
    · exact absurd (hpre _ he) (lt_irrefl i)
    · exact hnofinish b he
  · intro j hij
    refine foldl_frame (fun s : Session => (s.array j).m_BlockDevices) fun s e he => ?_
    rw [array_apply_of_ne]
    rcases List.mem_append.mp he with he | he
    · have := hpre e he
      omega
    · rw [hcontainer e he]
      omega
  · intro e he
    rw [hsplit]
    exact List.mem_append_right _ (List.mem_append_right _ he)

/-- The flag and the sizes are those of the members and volumes of the container. -/
theorem sizes_initialized :
    let s := Session.initialized devices dirs
    let found := devicesAt devices (s.array i).m_BlockDevices
    (s.array i).m_Busy = s.busy devices i a ∧ (s.array i).m_TotalSize = determineTotalSize found ∧
      (s.array i).m_FreeSize = determineFreeSize found a.volumes := by
  obtain ⟨s, post, heq, hbusy, -, hpost, -⟩ := exists_finish hne hi hfound hvolumes
  have harray : (Session.initialized devices dirs).array i = (s.finish devices i a).array i := by
    rw [heq]
    exact foldl_frame (fun s : Session => s.array i)
      fun s e he => array_apply_of_ne (ne_of_gt (hpost e he))
  have hvolumesOf : (Session.initialized devices dirs).volumesOf devices i a =
      s.volumesOf devices i a := by
    rw [heq, volumesOf_foldl hpost]
    rfl
  simp only [harray, Session.busy, hvolumesOf]
  simp [Session.finish, Session.busy, hbusy]

/-- The free blocks of a component that no later container gets to. -/
theorem blocksFree_initialized {d : SessionDevice}
    (hk : k ∈ ((Session.initialized devices dirs).array i).m_BlockDevices) (hd : devices[k]? = some d)
    (hlast : LastReached devices dirs i k) :
    ((Session.initialized devices dirs).endDevice k).m_BlocksFree =
      d.found.determineBlocksFree ((Session.initialized devices dirs).volumesOf devices i a) := by
  obtain ⟨s, post, heq, -, hempty, hpost, hmem⟩ := exists_finish hne hi hfound hvolumes
  have hmember : k ∈ (s.array i).m_BlockDevices := by
    rw [heq, foldl_frame (fun s : Session => (s.array i).m_BlockDevices)
      fun s e he => by rw [array_apply_of_ne (ne_of_gt (hpost e he))]] at hk
    simpa [Session.finish] using hk
  -- later containers do not have the device and do not determine its free blocks
  have hkeeps : ((post.foldl (Session.apply devices) (s.finish devices i a)).endDevice k).m_BlocksFree =
        d.found.determineBlocksFree (s.volumesOf devices i a) ∧ ∀ j, i < j →
          k ∉ ((post.foldl (Session.apply devices) (s.finish devices i a)).array j).m_BlockDevices := by
    refine foldl_keeps (Q := fun s' : Session =>
      (s'.endDevice k).m_BlocksFree = d.found.determineBlocksFree (s.volumesOf devices i a) ∧
        ∀ j, i < j → k ∉ (s'.array j).m_BlockDevices) ?_ ?_
    · refine ⟨?_, ?_⟩
      · simp [Session.finish, hmember, hd, DeviceRefs.setBlocksFree]
      · intro j hij
        have harray : (s.finish devices i a).array j = s.array j :=
          array_apply_of_ne (e := .finish i a) (ne_of_lt hij)
        rw [harray, hempty j hij]
        exact List.not_mem_nil
    · rintro s' e he ⟨hfree, hnot⟩
      refine ⟨?_, ?_⟩
      · rw [m_BlocksFree_apply, hfree]
        rintro j b rfl
        exact hnot j (hpost _ he)
      · intro j hij hmember
        rcases (mem_blockDevices_apply j).mp hmember with h | ⟨rfl, -⟩
        · exact hnot j hij h
        · obtain ⟨b, hb, hreaches⟩ := mem_updates_array_iff.mp (hmem _ he)
          exact hlast j b hij hb hreaches
  rw [heq, hkeeps.1, volumesOf_foldl hpost]
  rfl

/-- A container whose components, and whose volumes' components, are not missing is completely
attached where no later one gets to its components. -/
theorem complete_of_allFound
    (hlast : ∀ k, Reaches devices a.dir.components k → LastReached devices dirs i k) :
    Complete devices (.initialized devices dirs) i a := by
  have hmem : ∀ e ∈ (arrayTrail devices a i).updates, e ∈ updates devices dirs := by
    intro e he
    refine mem_updates_iff.mpr ⟨a, ?_, ?_⟩
    · rwa [container_of_mem he]
    · rwa [container_of_mem he]
  have hreaches : ∀ k, k ∈ ((Session.initialized devices dirs).array i).m_BlockDevices →
      Reaches devices a.dir.components k := by
    intro k hk
    obtain ⟨b, hb, hreaches⟩ := mem_updates_array_iff.mp ((mem_blockDevices_iff hne).mp hk)
    rw [hi] at hb
    obtain rfl := Option.some.inj (Option.some.inj hb)
    exact hreaches
  obtain ⟨hbusy, htotal, hfree⟩ := sizes_initialized hne hi hfound hvolumes
  refine ⟨?_, ?_, ?_, hbusy, htotal, hfree, ?_⟩
  · exact (mem_listed_iff hne _).mpr (hmem _ (mem_arrayTrail_iff.mpr (.inr ⟨hfound, .inl rfl⟩)))
  · intro devName hdevName
    obtain ⟨k, hk⟩ := Option.isSome_iff_exists.mp (hfound devName hdevName)
    have hreach := reaches_of_mem hfound hdevName hk
    have hattach := mem_updates_array_iff.mpr ⟨a, hi, hreach⟩
    exact ⟨k, hk, (m_pArray_iff hne hattach).mpr (hlast k hreach),
      (mem_blockDevices_iff hne).mpr hattach⟩
  · intro j v hj
    have hv := hvolumes v (List.mem_of_getElem? hj)
    have hvolume : ∀ e ∈ (volumeTrail devices v ⟨i, j⟩).updates, e ∈ updates devices dirs :=
      fun e he => hmem e (mem_arrayTrail_iff.mpr
        (.inr ⟨hfound, .inr (.inl (mem_volumesTrail hvolumes hj he))⟩))
    refine ⟨(mem_listed_iff hne _).mpr (hvolume _ (mem_volumeTrail_iff.mpr (.inr ⟨hv, rfl⟩))), ?_⟩
    intro devName hdevName
    obtain ⟨k, hk⟩ := Option.isSome_iff_exists.mp (hv devName hdevName)
    have hattach := hvolume _ (mem_volumeTrail_iff.mpr
      (.inl ⟨k, rfl, reaches_of_mem hv hdevName hk⟩))
    exact ⟨k, hk, (mem_volumes_iff hne _).mpr hattach, (mem_members_iff hne _).mpr hattach⟩
  · intro k d hk hd
    exact blocksFree_initialized hne hi hfound hvolumes hk hd (hlast k (hreaches k hk))

end finish

/-- A completely attached container misses no component, and no later one gets to its components. -/
theorem allFound_of_complete (hne : devices ≠ []) {a : MdArray}
    (hi : (imsmArrays dirs)[i]? = some (some a))
    (h : Complete devices (.initialized devices dirs) i a) :
    AllFound devices a.dir.components ∧ (∀ v ∈ a.volumes, AllFound devices v.dir.components) ∧
      ∀ k, Reaches devices a.dir.components k → LastReached devices dirs i k := by
  refine ⟨?_, ?_, ?_⟩
  · intro devName hdevName
    obtain ⟨k, hk, -⟩ := h.attached devName hdevName
    exact Option.isSome_of_mem hk
  · intro v hv devName hdevName
    obtain ⟨j, hj⟩ := List.mem_iff_getElem?.mp hv
    obtain ⟨k, hk, -⟩ := (h.volumes j v hj).2 devName hdevName
    exact Option.isSome_of_mem hk
  · intro k hreaches
    have hattach := mem_updates_array_iff.mpr ⟨a, hi, hreaches⟩
    obtain ⟨devName, hdevName, hk⟩ := mem_of_reaches hreaches
    obtain ⟨k', hk', hown, -⟩ := h.attached devName hdevName
    obtain rfl := Option.some.inj (hk.symm.trans hk')
    exact (m_pArray_iff hne hattach).mp hown

/-! ## Main result -/

/-- A container is settled iff nothing of it is reached, or all of it is found and each of its devices
is attached to it last. -/
theorem settled_iff {a : MdArray} : Settled devices dirs i a ↔
    FirstMissing devices a.dir.components ∨
      (AllFound devices a.dir.components ∧ (∀ v ∈ a.volumes, AllFound devices v.dir.components) ∧
        ∀ k, Reaches devices a.dir.components k → LastReached devices dirs i k) := by
  refine or_congr_right (and_congr_right fun _ => and_congr_right fun _ => ?_)
  constructor
  · exact fun h k hk j b hij hj => h j b hij hj k hk
  · exact fun h j b hij hj k hk => h k hk j b hij hj

/-- Of a settled container that has updates, the session lists what they attach. -/
theorem listed_of_settled (hne : devices ≠ []) {r : MdRef} (hattach : .attach r k ∈ updates devices dirs)
    (h : ∀ i a, (imsmArrays dirs)[i]? = some (some a) → Settled devices dirs i a) :
    r ∈ (Session.initialized devices dirs).listed := by
  obtain ⟨a, hi, he⟩ := mem_updates_iff.mp hattach
  generalize hcontainer : (Update.attach r k).container = i at hi he
  rcases h i a hi with hmissing | ⟨hfound, hvolumes, -⟩
  · exact absurd he (not_mem_of_firstMissing hmissing)
  · have hlist : .list r ∈ (arrayTrail devices a i).updates := by
      rcases mem_arrayTrail_iff.mp he with ⟨k', heq, -⟩ | ⟨-, heq | he | ⟨-, heq⟩⟩
      · obtain ⟨rfl, -⟩ := Update.attach.inj heq
        exact mem_arrayTrail_iff.mpr (.inr ⟨hfound, .inl rfl⟩)
      · simp at heq
      · obtain ⟨j, v, hj, hv⟩ := exists_of_mem_volumesTrail he
        rcases mem_volumeTrail_iff.mp hv with ⟨k', heq, -⟩ | ⟨-, heq⟩
        · obtain ⟨rfl, -⟩ := Update.attach.inj heq
          have hall := hvolumes v (List.mem_of_getElem? hj)
          have hmem := mem_volumesTrail (i := i) hvolumes hj (mem_volumeTrail_iff.mpr (.inr ⟨hall, rfl⟩))
          exact mem_arrayTrail_iff.mpr (.inr ⟨hfound, .inr (.inl hmem)⟩)
        · simp at heq
      · simp at heq
    have hr : (Update.list r).container = i := hcontainer
    exact (mem_listed_iff hne r).mpr (mem_updates_iff.mpr ⟨a, by rwa [hr], by rwa [hr]⟩)

end session

/-- **When a session has all or nothing of each container.** For all end devices and md devices, every
container is completely attached or leaves no trace iff there is no end device, or of every container
whose discovery returns the first component is missing, or none of its components and its volumes'
components is and no later container gets to one of its components. -/
theorem allOrNothing_iff (devices : List SessionDevice) (dirs : List MdDir) :
    AllOrNothing devices dirs ↔
      devices = [] ∨ ∀ i a, (imsmArrays dirs)[i]? = some (some a) → Settled devices dirs i a := by
  rcases eq_or_ne devices [] with rfl | hne
  · have hinit : Session.initialized [] dirs = .discovered [] := if_neg (Nat.lt_irrefl 0)
    refine iff_of_true ⟨?_, ?_⟩ (.inl rfl)
    · intro i _ _
      rw [hinit]
      exact .inr (noTrace_discovered i)
    · exact fun k hk => absurd hk (Nat.not_lt_zero k)
  · constructor
    · rintro ⟨hall, -⟩
      refine .inr fun i a hi => settled_iff.mpr ?_
      rcases hall i _ hi with ⟨b, heq, hcomplete⟩ | htrace
      · obtain rfl := Option.some.inj heq
        exact .inr (allFound_of_complete hne hi hcomplete)
      · exact .inl ((noTrace_iff hne hi).mp htrace)
    · rintro (hnil | hsettled)
      · exact absurd hnil hne
      · refine ⟨?_, ?_⟩
        · intro i container hi
          rcases container with _ | a
          · refine .inr (noTrace_of_forall hne fun e he hcontainer => ?_)
            obtain ⟨b, hb, -⟩ := mem_updates_iff.mp he
            rw [hcontainer, hi] at hb
            simp at hb
          · rcases settled_iff.mp (hsettled i a hi) with hmissing | ⟨hfound, hvolumes, hlast⟩
            · exact .inr ((noTrace_iff hne hi).mpr hmissing)
            · exact .inl ⟨a, rfl, complete_of_allFound hne hi hfound hvolumes hlast⟩
        · intro k _
          refine ⟨?_, ?_⟩
          · intro i hown
            have hattach : ∀ j, ((Session.initialized devices dirs).endDevice k).m_pArray = some j →
                .attach (.array j) k ∈ updates devices dirs := by
              rw [Session.initialized_eq devices dirs hne]
              refine m_pArray_foldl (P := fun x => ∀ j, x = some j →
                .attach (.array j) k ∈ updates devices dirs) ?_ ?_
              · rw [(discovered_endDevice k).1]
                exact fun j h => absurd h (Option.some_ne_none j).symm
              · rintro i hi
                exact ⟨lt_of_mem_updates hi, fun j heq => Option.some.inj heq ▸ hi⟩
            exact listed_of_settled hne (hattach i hown) hsettled
          · intro v hv
            exact listed_of_settled hne ((mem_volumes_iff hne v).mp hv) hsettled

section example_session

/-- A disk of a SATA controller. -/
def sampleFound (name : List UInt8) : FoundDevice where
  cls := .ahciDisk
  m_DevName := .ofBytes name
  m_SerialNum := .ofBytes name
  m_TotalSize := 1073741824
  m_BlocksTotal := 2097152
  m_DiskUsage := .offlineArray
  m_DiskState := .normal
  examined := (0, lit "ARRAY metadata=imsm")

/-- A container with the components `sda` and `sdb`. -/
def sampleContainer : MdDir :=
  ⟨lit "md127", some (lit "external:imsm"), [.ofLit "sda", .ofLit "sdb"], .ofLit "aa:1", none⟩

/-- `sda` has a container that its session does not list, `sdb` being missing. -/
theorem not_allOrNothing_missing :
    ¬ ∀ (devices : List SessionDevice) (dirs : List MdDir), AllOrNothing devices dirs := by
  intro h
  have hlisted := ((h [⟨sampleFound (lit "sda"), 0⟩] [sampleContainer]).2 0 (by decide)).1 0
    (by decide +kernel)
  exact absurd hlisted (by decide +kernel)

end example_session

end Irstessi
