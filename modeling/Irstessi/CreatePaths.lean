import Irstessi.FreeDisks
import Irstessi.VolumeSettings

/-!
# The two ways to create a volume

`SsiVolumeCreateFromDisks` creates a container and a volume in it, `SsiVolumeCreate` a volume in a
container that is there. The checks of the volume are written down twice.

* `outcome`: the first volume creation of a call, or what the call ends with; `CallOutcome.Agrees`.
* `stage`: what the two calls do to a new volume; `runOutcome_stage`: what comes of it.
* `outcome_SsiVolumeCreate`, `outcome_SsiVolumeCreateFromDisks`: a call comes to what its stage comes
  to.
* `agrees_of_twins`: two volumes that are alike but for the order of their disks;
  `agrees_checkedOutcome_iff`: the checks of the two calls.
* **`createsAlike_iff`**: both calls come to the same unless no disk is given, the limits depend on
  the order of the disks, a RAID 1 volume has an invalid strip size, or discovery throws what only
  one of them catches.

Two programs are compared by what comes of them in the same environment: the first command that creates
a volume, or the status that they end with. Both go through one stage, the discovery of a new object,
the settings and the creation; the setters are the same but are called in another order and with other
handlers, so that the proof compares the first setter that refuses (`firstRefusal` against
`laterRefusal`). The disks of a container are listed in the order of its components and those of a
request in the order of its handles: two volumes are `Twins` if they are alike but for this order, and
twins are created alike as long as no limit depends on it.
-/

namespace Irstessi

open Interact

/-! ## Outcomes -/

/-- The first command of a trace that creates a volume. -/
def firstCreation (tr : List SysEvent) : Option Command :=
  ((exits tr).map Prod.fst).find? fun cmd => decide (Volume.IsVolumeCreation cmd)

/-- The first creation of a trace is that of its first part, if it has one. -/
theorem firstCreation_append (tr tr' : List SysEvent) :
    firstCreation (tr ++ tr') = (firstCreation tr).or (firstCreation tr') := by
  rw [firstCreation, exits_append, List.map_append, List.find?_append]
  rfl

/-- A program that issues no creation has none in its trace. -/
theorem firstCreation_of_calls {α : Type} {p : SysProg α} {P : Command → Prop}
    (hp : p.Calls (OnShell P)) (h : ∀ cmd, P cmd → ¬ Volume.IsVolumeCreation cmd) (env : SysEnv)
    (i : Nat) : firstCreation (p.run env i).trace = none := by
  refine List.find?_eq_none.mpr fun cmd hcmd => ?_
  obtain ⟨x, hx, rfl⟩ := List.mem_map.mp hcmd
  have hnot := h x.1 (of_mem_exits hp hx)
  simpa using hnot

/-- A creation at the head of a trace is its first one. -/
theorem firstCreation_cons {cmd : Command} (h : Volume.IsVolumeCreation cmd) (reply : ShellReply)
    (tr : List SysEvent) : firstCreation (⟨.shell cmd, reply⟩ :: tr) = some cmd := by
  rw [firstCreation, exits_cons_shell, List.map_cons, List.find?_cons]
  simp [h]

/-- What a call comes to: a volume creation, a status, or the end of the program otherwise. -/
inductive CallOutcome
  | creates (cmd : Command)
  | returns (status : SSI_Status)
  | fails (fault : Fault)
  deriving DecidableEq

/-- What a run comes to. -/
def outcome (tr : List SysEvent) (result : Except Fault SSI_Status) : CallOutcome :=
  match firstCreation tr, result with
  | some cmd, _ => .creates cmd
  | none, .ok status => .returns status
  | none, .error fault => .fails fault

/-- The same creation but for the order of the disks. -/
def Command.SameUpToOrder : Command → Command → Prop
  | .createVolume name level size chunk rwh n disks,
    .createVolume name' level' size' chunk' rwh' n' disks' =>
      name = name' ∧ level = level' ∧ size = size' ∧ chunk = chunk' ∧ rwh = rwh' ∧ n = n' ∧
        disks.Perm disks'
  | _, _ => False

/-- Both create the same volume, both reject it with the same status, or both are still looking for a
name when the rounds are used up. -/
def CallOutcome.Agrees : CallOutcome → CallOutcome → Prop
  | .creates cmd, .creates cmd' => cmd.SameUpToOrder cmd'
  | .returns status, .returns status' => status = status' ∧ status ≠ .ok
  | .fails .outOfRounds, .fails .outOfRounds => True
  | _, _ => False

/-- Being the same up to the order of the devices is symmetric. -/
theorem Command.SameUpToOrder.symm {cmd cmd' : Command} (h : cmd.SameUpToOrder cmd') :
    cmd'.SameUpToOrder cmd := by
  cases cmd <;> cases cmd' <;> try exact h.elim
  obtain ⟨hname, hlevel, hsize, hchunk, hrwh, hn, hdisks⟩ := h
  exact ⟨hname.symm, hlevel.symm, hsize.symm, hchunk.symm, hrwh.symm, hn.symm, hdisks.symm⟩

/-- Agreement of two outcomes is symmetric. -/
theorem CallOutcome.Agrees.symm {x y : CallOutcome} (h : x.Agrees y) : y.Agrees x := by
  cases x with
  | creates cmd =>
      cases y <;> try exact h.elim
      exact Command.SameUpToOrder.symm h
  | returns status =>
      cases y <;> try exact h.elim
      obtain ⟨rfl, hne⟩ := h
      exact ⟨rfl, hne⟩
  | fails fault =>
      cases y <;> cases fault <;> try exact h.elim
      next fault' => cases fault' <;> first | exact trivial | exact h.elim

/-! ## The common part -/

/-- What the handlers of the caller make of the end of the `try` block.
Source: `src/volume.cpp` `SsiVolumeCreateFromDisks`, `SsiVolumeCreate`, the handlers -/
def handled {α : Type} (caller : Volume.Caller) : Except Fault α → Except Fault SSI_Status
  | .ok _ => .ok .ok
  | .error (.exception e) => .ok (volumeStatus e)
  | .error .outOfRange =>
      match caller with
      | .SsiVolumeCreateFromDisks => .error .outOfRange
      | .SsiVolumeCreate => .ok .insufficientResources
  | .error fault => .error fault

/-- From the new volume to its creation. -/
def stage (caller : Volume.Caller) (info : SSI_RaidLevelInfo) (rounds : Nat) (pArray : RaidArray)
    (container : List EndDevice) (params : VolumeParams) : SysProg Volume := do
  let v ← Volume.prepare caller info pArray container params
  v.create rounds

section stage

variable (caller : Volume.Caller) (info : SSI_RaidLevelInfo) (rounds : Nat) (pArray : RaidArray)
  {container : List EndDevice} (params : VolumeParams) (env : SysEnv) (i : Nat)

/-- What comes of a run of the common part. -/
def runOutcome (r : Run SysCall SysReply Str Fault Volume) : CallOutcome :=
  outcome r.trace (handled caller r.result)

/-- What comes of a `std::out_of_range`. -/
def discoveryThrown : CallOutcome :=
  match caller with
  | .SsiVolumeCreateFromDisks => .fails .outOfRange
  | .SsiVolumeCreate => .returns .insufficientResources

/-- What creation comes to for a volume that has passed. -/
def creationOutcome (v : Volume) : CallOutcome :=
  match ((Volume.chooseName v.m_Name rounds).run env i).result with
  | .error fault => .fails fault
  | .ok name =>
      if v.FultondaleRefused then .returns .invalidRaidLevel
      else .creates
        (({ v with m_Name := name } : Volume).createCommand (Volume.firstPolicy v.m_RwhPolicy))

/-- Looking for a free name issues no command, and fails only where the rounds run out. -/
theorem findName_ensures (namePrefix : Str) (id : Nat) :
    (Volume.findName namePrefix rounds id).Calls (OnShell fun _ => False) ∧
      Ensures (Volume.findName namePrefix rounds id) fun _ res =>
        ∀ fault, res = .error fault → fault = .outOfRounds := by
  induction rounds generalizing id with
  | zero => exact ⟨trivial, ensures_throw fun fault h => (Except.error.inj h).symm⟩
  | succ rounds ih =>
      unfold Volume.findName
      rw [statEnoent_bind]
      refine ⟨⟨trivial, fun enoent => ?_⟩, ensures_call fun enoent => ?_⟩
      · dsimp only
        split
        next => exact trivial
        next => exact (ih _).1
      · split
        next => exact ensures_pure fun fault h => absurd h (by simp)
        next => exact (ih _).2

/-- Choosing the name issues no command, and fails only where the rounds run out. -/
theorem chooseName_ensures (name : Str) :
    (Volume.chooseName name rounds).Calls (OnShell fun _ => False) ∧
      Ensures (Volume.chooseName name rounds) fun _ res =>
        ∀ fault, res = .error fault → fault = .outOfRounds := by
  unfold Volume.chooseName
  split
  next => exact findName_ensures rounds _ _
  next => exact ⟨trivial, ensures_pure fun fault h => nomatch h⟩

/-- A volume without a source disk that is created. -/
theorem runOutcome_create {v : Volume} (hsource : v.m_pSourceDisk = none) :
    runOutcome caller ((v.create rounds).run env i) = creationOutcome rounds env i v := by
  obtain ⟨hcalls, hfault⟩ := chooseName_ensures rounds v.m_Name
  have hnone := firstCreation_of_calls hcalls (fun _ h => h.elim) env i
  have hrounds := hfault env i
  unfold creationOutcome runOutcome
  rw [Volume.create_eq]
  rcases hres : ((Volume.chooseName v.m_Name rounds).run env i).result with fault | name
  · obtain rfl := hrounds fault hres
    rw [Prog.run_bind_error env i hres]
    dsimp only
    unfold outcome
    rw [hnone]
    rfl
  · rw [Prog.run_bind_ok env i hres]
    dsimp only
    unfold outcome
    rw [firstCreation_append, hnone, Option.none_or]
    by_cases hrefused : v.FultondaleRefused
    · have hnamed : ({ v with m_Name := name } : Volume).FultondaleRefused := hrefused
      rw [Volume.createNamed_of_refused hnamed, if_pos hrefused]
      rfl
    · have hnamed : ¬ ({ v with m_Name := name } : Volume).FultondaleRefused := hrefused
      obtain ⟨k, hk⟩ := Volume.createNamed_of_passed hnamed hsource
      have hcreation : Volume.IsVolumeCreation
          (({ v with m_Name := name } : Volume).createCommand (Volume.firstPolicy v.m_RwhPolicy)) :=
        trivial
      rw [hk, if_neg hrefused, Prog.run_call]
      dsimp only
      rw [firstCreation_cons hcreation]

/-- **The outcome of the common part**, over disks that are usable: what discovery throws, the first
check that fails, or the creation of the volume that passes. -/
theorem runOutcome_stage (husable : ∀ d ∈ container, Volume.Usable d) :
    runOutcome caller ((stage caller info rounds pArray container params).run env i) =
      match (Volume.new.discover.run env i).result with
      | .error _ => discoveryThrown caller
      | .ok v =>
          match Volume.firstRefusal caller container params with
          | some e => .returns (volumeStatus e)
          | none => creationOutcome rounds env (i + (Volume.new.discover.run env i).trace.length)
              (Volume.settled caller pArray container params v) := by
  have hnone := firstCreation_of_calls Volume.new.calls_discover
    (fun cmd h h' => by cases cmd <;> first | exact h | exact h') env i
  have hstage : stage caller info rounds pArray container params =
      Volume.new.discover >>= fun v =>
        orRaise (Volume.applySettings caller info pArray container params v) >>= fun v =>
          v.create rounds := by
    unfold stage Volume.prepare
    rw [Prog.bind_assoc]
    refine congrArg (Volume.new.discover >>= ·) (funext fun v => ?_)
    rw [Volume.settings_eq]
  unfold runOutcome
  rw [hstage]
  rcases hres : (Volume.new.discover.run env i).result with fault | v
  · obtain rfl := Volume.throwsOutOfRange_discover Volume.new env i fault hres
    rw [Prog.run_bind_error env i hres]
    dsimp only
    unfold outcome
    rw [hnone]
    cases caller <;> rfl
  · have hsource : v.m_pSourceDisk = none :=
      Volume.returns_discover_sourceDisk Volume.new env i v hres
    rw [Prog.run_bind_ok env i hres]
    dsimp only
    rw [Volume.applySettings_of_usable _ _ _ _ _ husable]
    rcases Volume.firstRefusal caller container params with _ | e
    · have hsettled : (Volume.settled caller pArray container params v).m_pSourceDisk = none := by
        cases caller
        · rfl
        · exact hsource
      have hcreate := runOutcome_create caller rounds env
        (i + (Volume.new.discover.run env i).trace.length) hsettled
      unfold runOutcome at hcreate
      rw [← hcreate]
      unfold outcome
      rw [firstCreation_append, hnone, Option.none_or]
      rfl
    · unfold outcome
      rw [firstCreation_append, hnone, Option.none_or]
      rfl

end stage

/-! ## The calls -/

section calls

variable (s : CallSession) (info : SSI_RaidLevelInfo) (rounds : Nat) (env : SysEnv) (i : Nat)

/-- What a call comes to. -/
def ApiCall.outcome (call : ApiCall) : CallOutcome :=
  Irstessi.outcome ((call.prog s info rounds).run env i).trace
    ((call.prog s info rounds).run env i).result

/-- A program of the common part that returns has created a volume. -/
theorem firstCreation_of_creates {α : Type} {p : SysProg α} (hp : Creates p) {a : α}
    (h : (p.run env i).result = .ok a) : ∃ cmd, firstCreation (p.run env i).trace = some cmd := by
  obtain ⟨cmd, hcreation, hmem⟩ := hp env i a h
  refine Option.isSome_iff_exists.mp (List.find?_isSome.mpr ⟨cmd, ?_, ?_⟩)
  · exact List.mem_map.mpr ⟨(cmd, 0), hmem, rfl⟩
  · exact decide_eq_true hcreation

/-- The stage that both entry points share creates a volume where it returns. -/
theorem creates_stage (caller : Volume.Caller) (pArray : RaidArray) (container : List EndDevice)
    (params : VolumeParams) : Creates (stage caller info rounds pArray container params) :=
  creates_bind fun v => creates_create v rounds

/-- Once a volume creation is on the trace nothing changes the outcome. -/
theorem outcome_of_creation {tr : List SysEvent} {cmd : Command} (h : firstCreation tr = some cmd)
    (result : Except Fault SSI_Status) : outcome tr result = .creates cmd := by
  unfold outcome
  rw [h]

/-- The creation in an array is the shared stage and an update of the container. -/
theorem createInArray_eq (pArray : RaidArray) (params : VolumeParams) :
    createInArray info rounds pArray params =
      stage .SsiVolumeCreate info rounds pArray (CallSession.disksForVolume pArray) params >>= fun v =>
        v.toRaidDevice.update >>= fun _ => pure () := by
  unfold createInArray stage
  rw [Prog.bind_assoc]

/-- `SsiVolumeCreate` in a container of its session: the common part over the container's disks. -/
theorem outcome_SsiVolumeCreate {params : CreateFromArrayParams} {pArray : ListedArray}
    (h : s.getArray params.arrayHandle = some pArray) :
    (ApiCall.SsiVolumeCreate params).outcome s info rounds env i =
      runOutcome .SsiVolumeCreate
        ((stage .SsiVolumeCreate info rounds pArray.toRaidArray
          (CallSession.disksForVolume pArray.toRaidArray) params.toVolumeParams).run env i) := by
  have hprog : (ApiCall.SsiVolumeCreate params).prog s info rounds =
      SsiVolumeCreate s info rounds params := rfl
  unfold ApiCall.outcome runOutcome
  rw [hprog]
  unfold SsiVolumeCreate
  rw [h]
  dsimp only
  rw [createInArray_eq, Prog.bind_assoc, Prog.run_catchAll]
  have hcreates := creates_stage info rounds .SsiVolumeCreate pArray.toRaidArray
    (CallSession.disksForVolume pArray.toRaidArray) params.toVolumeParams
  generalize stage .SsiVolumeCreate info rounds pArray.toRaidArray
    (CallSession.disksForVolume pArray.toRaidArray) params.toVolumeParams = p at hcreates ⊢
  rcases hres : (p.run env i).result with fault | v
  · rw [Prog.run_bind_error env i hres]
    dsimp only
    cases fault <;> simp [handled]
  · obtain ⟨cmd, hcmd⟩ := firstCreation_of_creates env i hcreates hres
    rw [Prog.run_bind_ok env i hres, outcome_of_creation hcmd]
    dsimp only
    split
    · refine outcome_of_creation ?_ _
      rw [firstCreation_append, hcmd, Option.some_or]
    · refine outcome_of_creation ?_ _
      rw [firstCreation_append, firstCreation_append, hcmd, Option.some_or, Option.some_or]

/-- No volume is created with the container. -/
theorem firstCreation_containerFromDisks (container : List EndDevice) :
    firstCreation ((containerFromDisks rounds container).run env i).trace = none := by
  have hcalls : (containerFromDisks rounds container).Calls
      (OnShell fun cmd => ¬ Volume.IsVolumeCreation cmd) := by
    unfold containerFromDisks
    apply Prog.calls_bind (Volume.calls_orRaise _ _)
    intro a _
    refine (a.calls_create rounds).mono (onShell_mono fun cmd hcmd => ?_)
    rcases hcmd with hwait | ⟨name, rfl⟩
    · cases cmd <;> first | exact id | exact hwait.elim
    · exact id
  exact firstCreation_of_calls hcalls (fun _ h => h) env i

/-- The cleaning-up creates nothing. -/
theorem firstCreation_remove (a : RaidArray) : firstCreation (a.remove.run env i).trace = none := by
  refine firstCreation_of_calls a.calls_remove (fun cmd h => ?_) env i
  rcases h with rfl | rfl <;> exact id

/-- `SsiVolumeCreateFromDisks` once the container is there. -/
theorem outcome_createFromEndDevices {container : List EndDevice} {params : VolumeParams}
    {a : RaidArray} (hmade : ((containerFromDisks rounds container).run env i).result = .ok a) :
    outcome ((createFromEndDevices s info rounds container params).run env i).trace
        (((createFromEndDevices s info rounds container params).run env i).result.map Prod.fst) =
      runOutcome .SsiVolumeCreateFromDisks
        ((stage .SsiVolumeCreateFromDisks info rounds a container params).run env
          (i + ((containerFromDisks rounds container).run env i).trace.length)) := by
  have hnone := firstCreation_containerFromDisks rounds env i container
  have hcreates := creates_stage info rounds .SsiVolumeCreateFromDisks a container params
  obtain ⟨htrace, hcaught⟩ := run_attempt (containerFromDisks rounds container) env i
  rw [hmade] at hcaught
  unfold createFromEndDevices runOutcome
  rw [Prog.run_bind_ok env i hcaught, htrace]
  dsimp only
  rw [Prog.tell_bind, Prog.run_note]
  generalize i + ((containerFromDisks rounds container).run env i).trace.length = k
  have hstage : volumeInContainer info rounds a container params =
      stage .SsiVolumeCreateFromDisks info rounds a container params := rfl
  rw [hstage]
  generalize stage .SsiVolumeCreateFromDisks info rounds a container params = p at hcreates ⊢
  obtain ⟨htrace', hcaught'⟩ := run_attempt p env k
  rcases hres : (p.run env k).result with fault | v
  · have herror : ∀ e, fault = .exception e →
        ((attempt p).run env k).result = .ok (.error e) := by
      rintro e rfl
      rw [hcaught', hres]
      rfl
    cases fault with
    | exception e =>
        obtain ⟨status, hstatus, -⟩ := a.yields_remove env (k + (p.run env k).trace.length)
        rw [Prog.run_bind_ok env k (herror e rfl), htrace']
        dsimp only
        rw [Prog.run_bind_ok env _ hstatus, Prog.run_pure]
        dsimp only
        unfold outcome
        rw [List.append_nil, firstCreation_append, firstCreation_append, hnone,
          firstCreation_remove, Option.none_or, Option.or_none]
        rfl
    | _ =>
        rw [hres] at hcaught'
        rw [Prog.run_bind_error env k hcaught', htrace']
        unfold outcome
        dsimp only
        rw [firstCreation_append, hnone]
        rfl
  · obtain ⟨cmd, hcmd⟩ := firstCreation_of_creates env k hcreates hres
    rw [outcome_of_creation hcmd]
    rw [hres] at hcaught'
    refine outcome_of_creation ?_ _
    rw [Prog.run_bind_ok env k hcaught', htrace']
    dsimp only
    rw [firstCreation_append, firstCreation_append, hnone, hcmd]
    rfl

/-- `SsiVolumeCreateFromDisks` of disks that its own checks let through. -/
theorem outcome_SsiVolumeCreateFromDisks {params : CreateFromDisksParams}
    {devices : List ListedDevice} {a : RaidArray} (hdisks : params.disks ≠ [])
    (hdevices : s.getEndDevices params.disks = some devices)
    (hsector : ∀ d ∈ devices, ∀ d' ∈ devices, d.m_LogicalSectorSize = d'.m_LogicalSectorSize)
    (hsource : s.getEndDevice params.sourceDisk = none)
    (hmade : ((containerFromDisks rounds (devices.map (·.toEndDevice))).run env i).result = .ok a) :
    (ApiCall.SsiVolumeCreateFromDisks params true).outcome s info rounds env i =
      runOutcome .SsiVolumeCreateFromDisks
        ((stage .SsiVolumeCreateFromDisks info rounds a (devices.map (·.toEndDevice))
          params.toVolumeParams).run env
          (i + ((containerFromDisks rounds (devices.map (·.toEndDevice))).run env i).trace.length)) := by
  have hsize : (devices.any fun d =>
      d.m_LogicalSectorSize ≠ (devices.head?.map (·.m_LogicalSectorSize)).getD 0) = false := by
    apply List.any_eq_false.mpr
    intro d hd
    cases devices with
    | nil => simp at hd
    | cons front rest =>
        have heq := hsector d hd front List.mem_cons_self
        simp [heq]
  have hprog : (ApiCall.SsiVolumeCreateFromDisks params true).prog s info rounds =
      createFromEndDevices s info rounds (devices.map (·.toEndDevice)) params.toVolumeParams >>=
        fun result => pure result.1 := by
    show SsiVolumeCreateFromDisks s info rounds params true >>= _ = _
    unfold SsiVolumeCreateFromDisks
    rw [if_neg (by simp), if_neg (by simpa using hdisks), hdevices]
    dsimp only
    rw [hsize, hsource]
    rfl
  rw [← outcome_createFromEndDevices s info rounds env i hmade, ApiCall.outcome, hprog]
  generalize createFromEndDevices s info rounds (devices.map (·.toEndDevice)) params.toVolumeParams = p
  rw [Prog.run_bind]
  rcases (p.run env i).result with fault | result
  · rfl
  · simp [outcome, Except.map]

end calls

/-! ## Two volumes that are alike -/

/-- What a disk is apart from its use. -/
def EndDevice.unused (d : EndDevice) : EndDevice := { d with diskUsage := .passThru, array := none }

/-- Volumes that are the same but for their strip sizes at level 1 and for the order and the use of
their disks. -/
structure Volume.Twins (v v' : Volume) : Prop where
  name : v.m_Name = v'.m_Name
  level : v.m_RaidLevel = v'.m_RaidLevel
  size : v.m_ComponentSize = v'.m_ComponentSize
  policy : v.m_RwhPolicy = v'.m_RwhPolicy
  strip : v.m_RaidLevel ≠ 1 → v.m_StripSize = v'.m_StripSize
  disks : (v.m_BlockDevices.map EndDevice.unused).Perm (v'.m_BlockDevices.map EndDevice.unused)

section twins

variable {container container' : List EndDevice}

/-- What is read of the disks without their use is the same up to the order. -/
theorem perm_map_of_unused {α : Type} (f : EndDevice → α) (hf : ∀ d, f d.unused = f d)
    (h : (container.map EndDevice.unused).Perm (container'.map EndDevice.unused)) :
    (container.map f).Perm (container'.map f) := by
  have hmap := h.map f
  simpa only [List.map_map, Function.comp_def, hf] using hmap

/-- A test of the disks without their use comes out the same. -/
theorem any_of_unused (f : EndDevice → Bool) (hf : ∀ d, f d.unused = f d)
    (h : (container.map EndDevice.unused).Perm (container'.map EndDevice.unused)) :
    container.any f = container'.any f := by
  have hmap := (perm_map_of_unused f hf h).any_eq (f := id)
  simpa only [List.any_map, Function.id_comp] using hmap

namespace Volume

variable {v v' : Volume}

/-- Twins are refused by the board's rule alike, which looks at level and disks only. -/
theorem Twins.fultondaleRefused_iff (h : v.Twins v') :
    v.FultondaleRefused ↔ v'.FultondaleRefused := by
  unfold FultondaleRefused
  rw [h.level, any_of_unused EndDevice.fultondalex8 (fun _ => rfl) h.disks]

/-- Under one name twins give the same command up to the order of the devices. -/
theorem Twins.sameUpToOrder (h : v.Twins v') (name rwhPolicy : Str) :
    (({ v with m_Name := name } : Volume).createCommand rwhPolicy).SameUpToOrder
      (({ v' with m_Name := name } : Volume).createCommand rwhPolicy) := by
  have hdisks := perm_map_of_unused (·.m_DevName) (fun _ => rfl) h.disks
  unfold createCommand
  dsimp only
  refine ⟨rfl, congrArg UInt32.toNat h.level, ?_, ?_, rfl, ?_, hdisks⟩
  · rw [h.size]
  · rw [← h.level]
    by_cases hone : v.m_RaidLevel ≠ 1
    · rw [if_pos hone, if_pos hone, h.strip hone]
    · rw [if_neg hone, if_neg hone]
  · simpa using hdisks.length_eq

end Volume

/-- **Twins come to the same.** -/
theorem agrees_of_twins {v v' : Volume} (h : v.Twins v') (rounds : Nat) (env : SysEnv) (i : Nat) :
    (creationOutcome rounds env i v).Agrees (creationOutcome rounds env i v') := by
  unfold creationOutcome
  rw [← h.name, ← h.policy]
  have hrounds := (chooseName_ensures rounds v.m_Name).2 env i
  rcases hres : ((Volume.chooseName v.m_Name rounds).run env i).result with fault | name
  · obtain rfl := hrounds fault hres
    exact trivial
  · dsimp only
    by_cases hrefused : v.FultondaleRefused
    · rw [if_pos hrefused, if_pos (h.fultondaleRefused_iff.mp hrefused)]
      exact ⟨rfl, by decide⟩
    · rw [if_neg hrefused, if_neg (mt h.fultondaleRefused_iff.mpr hrefused)]
      exact h.sameUpToOrder name _

end twins

/-! ## The level -/

namespace Volume

/-- Whether the level is known and can be created does not depend on the disks. -/
theorem getRaidLevelInfo_status (r r' : RaidInfo) (level : SSI_RaidLevel) (info : SSI_RaidLevelInfo) :
    (r.getRaidLevelInfo level info).1 = (r'.getRaidLevelInfo level info).1 := by
  unfold RaidInfo.getRaidLevelInfo
  dsimp only
  split_ifs <;> rfl

/-- The exceptions of `setComponentSize`. -/
theorem levelCheck_eq_some {r : Option RaidInfo} {diskCount : UInt64} {level : SSI_RaidLevel}
    {e : Exception} (h : levelCheck r diskCount level = some e) :
    e = .invalidHandle ∨ e = .invalidRaidLevel ∨ e = .bufferTooSmall ∨ e = .bufferTooLarge := by
  unfold levelCheck at h
  rcases r with _ | r
  · exact .inl (Option.some.inj h).symm
  · dsimp only at h
    split_ifs at h <;> obtain rfl := Option.some.inj h <;> simp

/-- Other limits on a level that passes refuse nothing but the number of disks. -/
theorem levelCheck_of_none {r r' : Option RaidInfo} {diskCount : UInt64} {level : SSI_RaidLevel}
    {e : Exception} (hsome : r.isSome = r'.isSome) (h : levelCheck r diskCount level = none)
    (h' : levelCheck r' diskCount level = some e) : e = .bufferTooSmall ∨ e = .bufferTooLarge := by
  rcases r with _ | r
  · cases h
  rcases r' with _ | r'
  · simp at hsome
  unfold levelCheck at h h'
  dsimp only at h h'
  rw [getRaidLevelInfo_status r r'] at h
  split_ifs at h h' <;> obtain rfl := Option.some.inj h' <;> simp

/-- The statuses for the exceptions of `setComponentSize` are different. -/
theorem volumeStatus_inj_of_levelCheck {r r' : Option RaidInfo} {diskCount : UInt64}
    {level : SSI_RaidLevel} {e e' : Exception} (h : levelCheck r diskCount level = some e)
    (h' : levelCheck r' diskCount level = some e') (heq : volumeStatus e = volumeStatus e') :
    e = e' := by
  rcases levelCheck_eq_some h with rfl | rfl | rfl | rfl <;>
    rcases levelCheck_eq_some h' with rfl | rfl | rfl | rfl <;> first | rfl | cases heq

end Volume

/-! ## The checks -/

section checks

variable {caller : Volume.Caller} {pArray pArray' : RaidArray} {container container' : List EndDevice}
  {params : VolumeParams} {rounds : Nat} {env : SysEnv} {i : Nat} {v : Volume}

/-- What a call comes to from the checks on. -/
def checkedOutcome (caller : Volume.Caller) (pArray : RaidArray) (container : List EndDevice)
    (params : VolumeParams) (rounds : Nat) (env : SysEnv) (i : Nat) (v : Volume) : CallOutcome :=
  match Volume.firstRefusal caller container params with
  | some e => .returns (volumeStatus e)
  | none => creationOutcome rounds env i (Volume.settled caller pArray container params v)

/-- Creation returns no status but that of a level that the disks do not have. -/
theorem not_agrees_creationOutcome {status : SSI_Status} (h : status ≠ .invalidRaidLevel) :
    ¬ (creationOutcome rounds env i v).Agrees (.returns status) := by
  unfold creationOutcome
  split
  next fault _ => cases fault <;> exact id
  next =>
    split
    next => exact fun hagrees => h hagrees.1.symm
    next => exact id

/-- The statuses for the exceptions of the other setters. -/
theorem laterRefusal_status {e : Exception} (h : Volume.laterRefusal caller params = some e) :
    volumeStatus e = .invalidString ∨ volumeStatus e = .invalidStripSize ∨
      volumeStatus e = .notSupported ∨ volumeStatus e = .invalidParameter := by
  unfold Volume.laterRefusal Volume.policyCheck at h
  split_ifs at h <;> cases h <;> simp [volumeStatus]

/-- A number of disks that only one of the calls refuses. -/
theorem not_agrees_of_level {e : Exception} (he : e = .bufferTooSmall ∨ e = .bufferTooLarge)
    (hlevel : levelCheck (container.findSome? EndDevice.raidInfo)
      (UInt64.ofNat container.length) params.raidLevel = none) :
    ¬ (checkedOutcome caller pArray container params rounds env i v).Agrees
      (.returns (volumeStatus e)) := by
  unfold checkedOutcome Volume.firstRefusal
  rw [hlevel, Option.none_or]
  rcases hlater : Volume.laterRefusal caller params with _ | e'
  · apply not_agrees_creationOutcome
    rcases he with rfl | rfl <;> simp [volumeStatus]
  · intro hagrees
    have heq : volumeStatus e' = volumeStatus e := hagrees.1
    rcases laterRefusal_status hlater with h | h | h | h <;> rw [h] at heq <;>
      rcases he with rfl | rfl <;> cases heq

/-- The volumes that pass both calls' checks are twins. -/
theorem twins_settled
    (hdisks : (container.map EndDevice.unused).Perm (container'.map EndDevice.unused)) :
    (Volume.settled .SsiVolumeCreateFromDisks pArray container params v).Twins
      (Volume.settled .SsiVolumeCreate pArray' container' params v) where
  name := rfl
  level := rfl
  size := by
    have hlength : container.length = container'.length := by simpa using hdisks.length_eq
    unfold Volume.settled
    rw [hlength]
  policy := rfl
  strip := by
    intro hlevel
    have hone : params.raidLevel ≠ SSI_Raid1 := by
      rintro hone
      exact hlevel (by simp only [Volume.settled, hone]; rfl)
    unfold Volume.settled
    simp [hone]
  disks := hdisks

/-- Where the level is accepted a refusal is one of the later checks. -/
theorem firstRefusal_of_level
    (hlevel : levelCheck (container.findSome? EndDevice.raidInfo) (UInt64.ofNat container.length)
      params.raidLevel = none) :
    Volume.firstRefusal caller container params = Volume.laterRefusal caller params := by
  unfold Volume.firstRefusal
  rw [hlevel, Option.none_or]

/-- Where the level is refused the outcome is this refusal's status, whatever the caller. -/
theorem checkedOutcome_of_level {e : Exception}
    (hlevel : levelCheck (container.findSome? EndDevice.raidInfo) (UInt64.ofNat container.length)
      params.raidLevel = some e) :
    checkedOutcome caller pArray container params rounds env i v = .returns (volumeStatus e) := by
  unfold checkedOutcome Volume.firstRefusal
  rw [hlevel, Option.some_or]

/-- Where both orders of the disks have the level, only the strip size of a RAID 1 volume is treated
differently. -/
theorem agrees_of_level
    (hdisks : (container.map EndDevice.unused).Perm (container'.map EndDevice.unused))
    (hlevel : levelCheck (container.findSome? EndDevice.raidInfo) (UInt64.ofNat container.length)
      params.raidLevel = none)
    (hlevel' : levelCheck (container'.findSome? EndDevice.raidInfo) (UInt64.ofNat container'.length)
      params.raidLevel = none) :
    (checkedOutcome .SsiVolumeCreateFromDisks pArray container params rounds env i v).Agrees
        (checkedOutcome .SsiVolumeCreate pArray' container' params rounds env i v) ↔
      (params.raidLevel = SSI_Raid1 → stripsize2ui params.stripSize = none →
        NameRefused (.ofBytes params.volumeName)) := by
  unfold checkedOutcome
  rw [firstRefusal_of_level hlevel, firstRefusal_of_level hlevel']
  unfold Volume.laterRefusal
  by_cases hname : NameRefused (.ofBytes params.volumeName)
  · rw [if_pos hname, Option.some_or, Option.some_or]
    exact iff_of_true ⟨rfl, volumeStatus_ne_ok _⟩ fun _ _ => hname
  rw [if_neg hname, Option.none_or, Option.none_or]
  rcases hstrip : stripsize2ui params.stripSize with _ | bytes
  · have hrefused' : Volume.StripRefused .SsiVolumeCreate params := ⟨.inl rfl, hstrip⟩
    rw [if_pos hrefused', Option.some_or]
    by_cases hone : params.raidLevel = SSI_Raid1
    · -- only `SsiVolumeCreate` converts the strip size
      have hpassed : ¬ Volume.StripRefused .SsiVolumeCreateFromDisks params := by
        simp [Volume.StripRefused, hone]
      rw [if_neg hpassed, Option.none_or]
      refine iff_of_false (fun h => ?_) fun h => hname (h hone rfl)
      rcases hpolicy : Volume.policyCheck params.rwhPolicy with _ | e
      · rw [hpolicy] at h
        exact not_agrees_creationOutcome (by simp [volumeStatus]) h
      · rw [hpolicy] at h
        unfold Volume.policyCheck at hpolicy
        split_ifs at hpolicy <;> cases hpolicy <;> cases h.1
    · have hrefused : Volume.StripRefused .SsiVolumeCreateFromDisks params := ⟨.inr hone, hstrip⟩
      rw [if_pos hrefused, Option.some_or]
      exact iff_of_true ⟨rfl, volumeStatus_ne_ok _⟩ fun h => absurd h hone
  · have hpassed : ∀ caller, ¬ Volume.StripRefused caller params := by
      intro caller h
      rw [h.2] at hstrip
      simp at hstrip
    rw [if_neg (hpassed _), if_neg (hpassed _), Option.none_or]
    refine iff_of_true ?_ fun _ h => absurd h (by simp)
    rcases Volume.policyCheck params.rwhPolicy with _ | e
    · exact agrees_of_twins (twins_settled hdisks) rounds env i
    · exact ⟨rfl, volumeStatus_ne_ok e⟩

/-- **The checks of the two calls**, over the same disks in two orders. -/
theorem agrees_checkedOutcome_iff
    (hdisks : (container.map EndDevice.unused).Perm (container'.map EndDevice.unused)) :
    (checkedOutcome .SsiVolumeCreateFromDisks pArray container params rounds env i v).Agrees
        (checkedOutcome .SsiVolumeCreate pArray' container' params rounds env i v) ↔
      levelCheck (container.findSome? EndDevice.raidInfo) (UInt64.ofNat container.length)
          params.raidLevel =
        levelCheck (container'.findSome? EndDevice.raidInfo) (UInt64.ofNat container'.length)
          params.raidLevel ∧
      (params.raidLevel = SSI_Raid1 → stripsize2ui params.stripSize = none →
        levelCheck (container.findSome? EndDevice.raidInfo) (UInt64.ofNat container.length)
          params.raidLevel ≠ none ∨ NameRefused (.ofBytes params.volumeName)) := by
  have hlength : container.length = container'.length := by simpa using hdisks.length_eq
  have hsome : (container.findSome? EndDevice.raidInfo).isSome =
      (container'.findSome? EndDevice.raidInfo).isSome := by
    rw [List.isSome_findSome?, List.isSome_findSome?]
    exact any_of_unused (fun d => d.raidInfo.isSome) (fun _ => rfl) hdisks
  rcases hlevel : levelCheck (container.findSome? EndDevice.raidInfo)
      (UInt64.ofNat container.length) params.raidLevel with _ | e <;>
    rcases hlevel' : levelCheck (container'.findSome? EndDevice.raidInfo)
      (UInt64.ofNat container'.length) params.raidLevel with _ | e'
  · rw [agrees_of_level hdisks hlevel hlevel']
    simp
  · rw [checkedOutcome_of_level hlevel']
    rw [← hlength] at hlevel'
    have he := Volume.levelCheck_of_none hsome hlevel hlevel'
    exact iff_of_false (not_agrees_of_level he hlevel) fun h => nomatch h.1
  · rw [checkedOutcome_of_level hlevel]
    rw [hlength] at hlevel
    have he := Volume.levelCheck_of_none hsome.symm hlevel' hlevel
    exact iff_of_false (fun h => not_agrees_of_level he hlevel' h.symm) fun h => nomatch h.1
  · rw [checkedOutcome_of_level hlevel, checkedOutcome_of_level hlevel']
    rw [← hlength] at hlevel'
    constructor
    · intro h
      obtain rfl := Volume.volumeStatus_inj_of_levelCheck hlevel hlevel' h.1
      exact ⟨rfl, fun _ _ => .inl (by simp)⟩
    · rintro ⟨heq, -⟩
      obtain rfl := Option.some.inj heq
      exact ⟨rfl, volumeStatus_ne_ok e⟩

end checks

/-! ## Both calls -/

/-- The disks of the one call are the members of the container of the other, but for their use and
their order. -/
structure SameDisks (s s' : CallSession) (fromDisks : CreateFromDisksParams)
    (fromArray : CreateFromArrayParams) (devices : List ListedDevice) (pArray : ListedArray) :
    Prop where
  params : fromDisks.toVolumeParams = fromArray.toVolumeParams
  listed : s.getEndDevices fromDisks.disks = some devices
  free : ∀ d ∈ devices, d.toEndDevice.IsFree
  sector : ∀ d ∈ devices, ∀ d' ∈ devices, d.m_LogicalSectorSize = d'.m_LogicalSectorSize
  noSource : s.getEndDevice fromDisks.sourceDisk = none
  array : s'.getArray fromArray.arrayHandle = some pArray
  members : ((devices.map (·.toEndDevice)).map EndDevice.unused).Perm
    (pArray.m_BlockDevices.map EndDevice.unused)
  noVolume : pArray.m_Volumes = [] ∧ ∀ d ∈ pArray.m_BlockDevices, d.diskUsage ≠ .arrayMember

section both

variable (s s' : CallSession) (info info' : SSI_RaidLevelInfo) (rounds : Nat) (env : SysEnv)
  (fromDisks : CreateFromDisksParams) (fromArray : CreateFromArrayParams)
  (devices : List ListedDevice) (pArray : ListedArray)

/-- The creation of the container. -/
def containerRun : Run SysCall SysReply Str Fault RaidArray :=
  (containerFromDisks rounds (devices.map (·.toEndDevice))).run env 0

/-- What the system answers once the container is there. -/
def afterContainer : SysEnv := fun j => env ((containerRun rounds env devices).trace.length + j)

/-- Both calls come to the same. The system answers `SsiVolumeCreate` what it answers the other call
once the container is there. -/
def CreatesAlike : Prop :=
  ((ApiCall.SsiVolumeCreateFromDisks fromDisks true).outcome s info rounds env 0).Agrees
    ((ApiCall.SsiVolumeCreate fromArray).outcome s' info' rounds
      (afterContainer rounds env devices) 0)

/-- When they do. -/
structure TreatedAlike : Prop where
  /-- There is a disk. -/
  nonempty : devices ≠ []
  /-- The discovery of a new volume does not throw what only one of the calls catches. -/
  discovers : (Volume.new.discover.run (afterContainer rounds env devices) 0).result ≠
    .error .outOfRange
  /-- The limits for the level do not depend on which of the disks comes first. -/
  limits : levelCheck ((devices.map (·.toEndDevice)).findSome? EndDevice.raidInfo)
      (UInt64.ofNat devices.length) fromDisks.raidLevel =
    levelCheck (pArray.m_BlockDevices.findSome? EndDevice.raidInfo)
      (UInt64.ofNat pArray.m_BlockDevices.length) fromDisks.raidLevel
  /-- The strip size of a RAID 1 volume can be converted, or an earlier check fails. -/
  strip : fromDisks.raidLevel = SSI_Raid1 → stripsize2ui fromDisks.stripSize = none →
    levelCheck ((devices.map (·.toEndDevice)).findSome? EndDevice.raidInfo)
        (UInt64.ofNat devices.length) fromDisks.raidLevel ≠ none ∨
      NameRefused (.ofBytes fromDisks.volumeName)

variable {s s' info info' rounds env fromDisks fromArray devices pArray}

/-- The two requests name no disks together. -/
theorem SameDisks.disks_eq_nil_iff (h : SameDisks s s' fromDisks fromArray devices pArray) :
    fromDisks.disks = [] ↔ devices = [] := s.eq_nil_iff_of_getEndDevices h.listed

/-- `SsiVolumeCreate` takes all members. -/
theorem SameDisks.disksForVolume (h : SameDisks s s' fromDisks fromArray devices pArray) :
    CallSession.disksForVolume pArray.toRaidArray = pArray.m_BlockDevices := by
  have hnone : pArray.getEndDevices = [] := by
    apply List.filter_eq_nil_iff.mpr
    intro d hd
    simpa using h.noVolume.2 d hd
  unfold CallSession.disksForVolume
  rw [hnone]
  rfl

/-- The disks of both requests can be used. -/
theorem SameDisks.usable (h : SameDisks s s' fromDisks fromArray devices pArray) :
    (∀ d ∈ devices.map (·.toEndDevice), Volume.Usable d) ∧
      ∀ d ∈ pArray.m_BlockDevices, Volume.Usable d := by
  have hfirst : ∀ d ∈ devices.map (·.toEndDevice), Volume.Usable d := by
    intro d hd
    obtain ⟨d', hd', rfl⟩ := List.mem_map.mp hd
    obtain ⟨hblock, hsystem, -, hstate⟩ := h.free d' hd'
    exact ⟨hblock, hsystem, hstate⟩
  refine ⟨hfirst, fun d hd => ?_⟩
  obtain ⟨d', hd', heq⟩ := List.mem_map.mp (h.members.mem_iff.mpr (List.mem_map_of_mem hd))
  have husable : Volume.Usable d'.unused := hfirst d' hd'
  rw [heq] at husable
  exact husable

/-- `SsiVolumeCreate` as its checks decide. -/
theorem SameDisks.outcome_array (h : SameDisks s s' fromDisks fromArray devices pArray) :
    (ApiCall.SsiVolumeCreate fromArray).outcome s' info' rounds (afterContainer rounds env devices) 0 =
      match (Volume.new.discover.run (afterContainer rounds env devices) 0).result with
      | .error _ => discoveryThrown .SsiVolumeCreate
      | .ok v => checkedOutcome .SsiVolumeCreate pArray.toRaidArray pArray.m_BlockDevices
          fromDisks.toVolumeParams rounds (afterContainer rounds env devices)
          (0 + (Volume.new.discover.run (afterContainer rounds env devices) 0).trace.length) v := by
  rw [outcome_SsiVolumeCreate s' info' rounds _ 0 h.array, h.disksForVolume, ← h.params,
    runOutcome_stage _ _ _ _ _ _ _ h.usable.2]
  rfl

/-- `SsiVolumeCreateFromDisks` as its checks decide, once the container is there. -/
theorem SameDisks.outcome_disks (h : SameDisks s s' fromDisks fromArray devices pArray)
    (hne : devices ≠ []) {a : RaidArray} (hmade : (containerRun rounds env devices).result = .ok a) :
    (ApiCall.SsiVolumeCreateFromDisks fromDisks true).outcome s info rounds env 0 =
      match (Volume.new.discover.run (afterContainer rounds env devices) 0).result with
      | .error _ => discoveryThrown .SsiVolumeCreateFromDisks
      | .ok v => checkedOutcome .SsiVolumeCreateFromDisks a (devices.map (·.toEndDevice))
          fromDisks.toVolumeParams rounds (afterContainer rounds env devices)
          (0 + (Volume.new.discover.run (afterContainer rounds env devices) 0).trace.length) v := by
  have hshift := Prog.run_shift env 0
    (stage .SsiVolumeCreateFromDisks info rounds a (devices.map (·.toEndDevice))
      fromDisks.toVolumeParams) (containerRun rounds env devices).trace.length
  have hdisks : fromDisks.disks ≠ [] := mt h.disks_eq_nil_iff.mp hne
  rw [outcome_SsiVolumeCreateFromDisks s info rounds env 0 hdisks h.listed h.sector h.noSource hmade,
    Nat.zero_add]
  show runOutcome _ (Prog.run env ((containerRun rounds env devices).trace.length + 0) _) = _
  rw [← hshift]
  show runOutcome _ (Prog.run (afterContainer rounds env devices) 0 _) = _
  rw [runOutcome_stage _ _ _ _ _ _ _ h.usable.1]
  rfl

/-- Without a disk only one of the calls looks at the list. -/
theorem SameDisks.not_agrees_nil (h : SameDisks s s' fromDisks fromArray [] pArray) :
    ¬ CreatesAlike s s' info info' rounds env fromDisks fromArray [] := by
  have hdisks : fromDisks.disks = [] := h.disks_eq_nil_iff.mpr rfl
  have hfirst : (ApiCall.SsiVolumeCreateFromDisks fromDisks true).outcome s info rounds env 0 =
      .returns .invalidParameter := by
    have hprog : (ApiCall.SsiVolumeCreateFromDisks fromDisks true).prog s info rounds =
        setLastErrorMessage (.ofLit "Not enough disks to create volume") >>= fun _ =>
          pure .invalidParameter := by
      show SsiVolumeCreateFromDisks s info rounds fromDisks true >>= _ = _
      unfold SsiVolumeCreateFromDisks
      rw [if_neg (by simp), if_pos (by rw [hdisks]; rfl)]
      rfl
    unfold ApiCall.outcome
    rw [hprog]
    rfl
  have hnone : pArray.m_BlockDevices = [] := by
    simpa using h.members.symm.length_eq
  unfold CreatesAlike
  rw [hfirst, h.outcome_array]
  rcases (Volume.new.discover.run (afterContainer rounds env []) 0).result with fault | v
  · exact fun hagrees => nomatch hagrees.1
  · dsimp only
    rw [checkedOutcome_of_level (e := .invalidHandle) (by rw [hnone]; rfl)]
    exact fun hagrees => nomatch hagrees.1

/-- **The two ways to create a volume come to the same** exactly where there is a disk, discovery does
not throw, the first disk's limits are those of every order, and the strip size of a RAID 1 volume is
one that can be converted or is not reached. -/
theorem createsAlike_iff (h : SameDisks s s' fromDisks fromArray devices pArray)
    (hmade : devices ≠ [] → ∃ a, (containerRun rounds env devices).result = .ok a) :
    CreatesAlike s s' info info' rounds env fromDisks fromArray devices ↔
      TreatedAlike rounds env fromDisks devices pArray := by
  by_cases hne : devices = []
  · subst hne
    exact iff_of_false h.not_agrees_nil fun halike => halike.nonempty rfl
  obtain ⟨a, ha⟩ := hmade hne
  unfold CreatesAlike
  rw [h.outcome_disks hne ha, h.outcome_array]
  rcases hdiscover : (Volume.new.discover.run (afterContainer rounds env devices) 0).result
    with fault | v
  · obtain rfl := Volume.throwsOutOfRange_discover Volume.new _ _ fault hdiscover
    exact iff_of_false id fun halike => halike.discovers hdiscover
  · dsimp only
    rw [agrees_checkedOutcome_iff h.members]
    simp only [List.length_map]
    constructor
    · rintro ⟨hlimits, hstrip⟩
      exact ⟨hne, by rw [hdiscover]; exact nofun, hlimits, hstrip⟩
    · exact fun halike => ⟨halike.limits, halike.strip⟩

end both

section sample

/-- A disk of the container, before there is a volume. -/
def sampleSpare (devName : String) : ListedDevice :=
  ⟨sampleDisk (.ofLit devName) .spare, 1000000, 512, false, []⟩

/-- The two disks of `sampleCallSession`. -/
def sampleFreeDisks : List ListedDevice := sampleCallSession.endDevices.map Prod.snd

/-- The container `md127` of the two disks, in the other order. -/
def sampleSparesArray : ListedArray :=
  ⟨⟨⟨.empty, .ofLit "md127", .ofLit "Imsm_0", .ofLit "aa:1",
      [sampleSpare "sdb", sampleSpare "sda"].map (·.toEndDevice)⟩, 1, false⟩,
    [], [sampleSpare "sdb", sampleSpare "sda"], rfl⟩

/-- A session with the container. -/
def sampleSparesSession : CallSession := ⟨[], [(6, sampleSparesArray)], [], 9⟩

/-- A RAID 1 volume on the two disks. -/
def sampleMirror (stripSize : SSI_StripSize) : VolumeParams :=
  ⟨lit "data", 0, SSI_Raid1, stripSize, .off⟩

/-- The sample requests name the same disks, once by handle and once as an array's spares. -/
theorem sameDisks_sample (params : VolumeParams) :
    SameDisks sampleCallSession sampleSparesSession ⟨params, [2, 5], 0⟩ ⟨params, 6⟩ sampleFreeDisks
      sampleSparesArray where
  params := rfl
  listed := rfl
  free := by
    intro d hd
    simp only [sampleFreeDisks, sampleCallSession, List.map_cons, List.map_nil, List.mem_cons,
      List.not_mem_nil, or_false] at hd
    rcases hd with rfl | rfl <;> exact ⟨rfl, rfl, rfl, rfl⟩
  sector := by
    intro d hd d' hd'
    simp only [sampleFreeDisks, sampleCallSession, List.map_cons, List.map_nil, List.mem_cons,
      List.not_mem_nil, or_false] at hd hd'
    rcases hd with rfl | rfl <;> rcases hd' with rfl | rfl <;> rfl
  noSource := rfl
  array := rfl
  members := List.Perm.swap _ _ _
  noVolume := by
    refine ⟨rfl, fun d hd => ?_⟩
    simp only [sampleSparesArray, List.map_cons, List.map_nil, List.mem_cons, List.not_mem_nil,
      or_false] at hd
    rcases hd with rfl | rfl <;> exact nofun

/-- In the sample run the container is made. -/
theorem containerMade_sample :
    ∃ a, (containerRun 1 newerMdadm sampleFreeDisks).result = .ok a := by
  have hok : (containerRun 1 newerMdadm sampleFreeDisks).result.isOk = true := by decide +kernel
  rcases hres : (containerRun 1 newerMdadm sampleFreeDisks).result with e | a
  · rw [hres] at hok
    cases hok
  · exact ⟨a, rfl⟩

/-- With a strip size both calls create the volume. -/
theorem createsAlike_mirror :
    SameDisks sampleCallSession sampleSparesSession ⟨sampleMirror SSI_StripSize64kB, [2, 5], 0⟩
        ⟨sampleMirror SSI_StripSize64kB, 6⟩ sampleFreeDisks sampleSparesArray ∧
      (CreatesAlike sampleCallSession sampleSparesSession sampleInfo sampleInfo 1 newerMdadm
          ⟨sampleMirror SSI_StripSize64kB, [2, 5], 0⟩ ⟨sampleMirror SSI_StripSize64kB, 6⟩
          sampleFreeDisks ↔
        TreatedAlike 1 newerMdadm ⟨sampleMirror SSI_StripSize64kB, [2, 5], 0⟩ sampleFreeDisks
          sampleSparesArray) :=
  ⟨sameDisks_sample _, createsAlike_iff (sameDisks_sample _) fun _ => containerMade_sample⟩

/-- Without one, for RAID 1, `SsiVolumeCreate` returns `SSI_StatusInvalidStripSize` and
`SsiVolumeCreateFromDisks` does not. -/
theorem not_createsAlike_mirror :
    ¬ ∀ (s s' : CallSession) (info info' : SSI_RaidLevelInfo) (rounds : Nat) (env : SysEnv)
      (fromDisks : CreateFromDisksParams) (fromArray : CreateFromArrayParams)
      (devices : List ListedDevice) (pArray : ListedArray),
      SameDisks s s' fromDisks fromArray devices pArray →
      (devices ≠ [] → ∃ a, (containerRun rounds env devices).result = .ok a) →
        CreatesAlike s s' info info' rounds env fromDisks fromArray devices := by
  intro h
  have halike := h sampleCallSession sampleSparesSession sampleInfo sampleInfo 1 newerMdadm
    ⟨sampleMirror SSI_StripSizeUnknown, [2, 5], 0⟩ ⟨sampleMirror SSI_StripSizeUnknown, 6⟩
    sampleFreeDisks sampleSparesArray (sameDisks_sample _) fun _ => containerMade_sample
  have harray : (ApiCall.SsiVolumeCreate ⟨sampleMirror SSI_StripSizeUnknown, 6⟩).outcome
      sampleSparesSession sampleInfo 1 (afterContainer 1 newerMdadm sampleFreeDisks) 0 =
        .returns .invalidStripSize := by decide +kernel
  have hdisks : (ApiCall.SsiVolumeCreateFromDisks ⟨sampleMirror SSI_StripSizeUnknown, [2, 5], 0⟩
      true).outcome sampleCallSession sampleInfo 1 newerMdadm 0 ≠ .returns .invalidStripSize := by
    decide +kernel
  unfold CreatesAlike at halike
  rw [harray] at halike
  generalize (ApiCall.SsiVolumeCreateFromDisks ⟨sampleMirror SSI_StripSizeUnknown, [2, 5], 0⟩
    true).outcome sampleCallSession sampleInfo 1 newerMdadm 0 = x at halike hdisks
  cases x with
  | creates cmd => exact halike
  | returns status => exact hdisks (congrArg CallOutcome.returns halike.1)
  | fails fault => cases fault <;> exact halike

end sample

end Irstessi
