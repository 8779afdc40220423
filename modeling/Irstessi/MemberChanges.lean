import Irstessi.Mdstat
import Mathlib.Data.List.Find

/-!
# Changes of the membership

* `compareContainerList_tableOf`: what the comparison of two tables finds.
* `readAll`: the texts read one after the other; `Holds`: the tables are those of containers.
* `Covers`, `membership_eq_iff`: when two texts have the same membership.
* `Legible`, `TellsApart`: the texts over a set of names, and what the names have to be.
* **`detects_iff`**: changes are detected exactly in all legible texts iff the numbers tell the names
  apart and there are no more containers than slots.

The comparison goes through the slots of one table and looks up each in the other by its number, so that
containers are told apart by numbers and not by names. For two tables whose numbers are distinct it
finds a change iff one of them has a container that the other has not, or with other members. That the
tables hold what was read is an invariant of the reading (`exists_holds`). The converse needs a pair of
texts for each way in which it can go wrong: a name without a number, two names with one number, and
more containers than slots.
-/

namespace Irstessi

namespace Mdstat

/-! ## The comparison -/

section compare

variable {first second : List ContainerDev} {c d : ContainerDev}

/-- One list of members is compared for being contained in the other. -/
theorem compareMemberLists_eq_zero_iff {cm om : List (List UInt8)} :
    compareMemberLists cm om = 0 ↔ ∀ name ∈ cm, name ∈ om := by
  unfold compareMemberLists
  split
  next h =>
    obtain ⟨name, hname, hnot⟩ := List.any_eq_true.mp h
    apply iff_of_false (by decide)
    intro hall
    simp [hall name hname] at hnot
  next h =>
    apply iff_of_true rfl
    intro name hname
    by_contra hnot
    exact h (List.any_eq_true.mpr ⟨name, hname, by simpa using hnot⟩)

/-- Two containers have the same members iff they are contained in one another. -/
theorem compareMembers_eq_zero_iff :
    compareMembers c d = 0 ↔ ∀ name, name ∈ c.devs ↔ name ∈ d.devs := by
  unfold compareMembers
  split
  next h =>
    rw [ne_eq, compareMemberLists_eq_zero_iff] at h
    exact iff_of_false (by decide) fun hall => h fun name hname => (hall name).mp hname
  next h =>
    have hfirst := compareMemberLists_eq_zero_iff.mp (not_not.mp h)
    rw [compareMemberLists_eq_zero_iff]
    exact ⟨fun hsecond name => ⟨hfirst name, hsecond name⟩, fun hall name => (hall name).mpr⟩

/-- The comparison of two lists goes over the used entries of the first one and looks for their number
in the second. -/
theorem compareContainerList_eq_zero_iff :
    compareContainerList second first = 0 ↔ ∀ c ∈ first, 0 ≤ c.devnum →
      ∃ d, second.find? (fun d => d.devnum = c.devnum) = some d ∧ compareMembers c d = 0 := by
  induction first with
  | nil => simp [compareContainerList]
  | cons c first ih =>
      rw [List.forall_mem_cons, ← ih, compareContainerList]
      by_cases hfree : c.devnum < 0
      · rw [if_pos hfree]
        simp [not_le.mpr hfree]
      · rw [if_neg hfree]
        have hused : 0 ≤ c.devnum := not_lt.mp hfree
        rcases hfind : second.find? (fun d => d.devnum = c.devnum) with _ | d
        · simp [hfind, hused]
        · by_cases hsame : compareMembers c d = 0
          · simp [hfind, hsame]
          · simp [hfind, hsame, hused]

/-- The two readings are compared in both directions. -/
theorem membersChanged_eq_zero_iff {s : ContainerSets (List ContainerDev)} :
    membersChanged s = 0 ↔
      compareContainerList s.getOtherContainer s.getCurrentContainer = 0 ∧
        compareContainerList s.getCurrentContainer s.getOtherContainer = 0 := by
  unfold membersChanged
  split
  next h => exact iff_of_false (by decide) fun hall => h hall.1
  next h => exact ⟨fun hsecond => ⟨not_not.mp h, hsecond⟩, fun hall => hall.2⟩

end compare

/-- Each device has one of the same name and with the same members in the other list. -/
def Covers (devices devices' : List Device) : Prop :=
  ∀ d ∈ devices, ∃ d', devices'.find? (fun d' => d'.name = d.name) = some d' ∧
    ∀ name, name ∈ d.memberNames ↔ name ∈ d'.memberNames

/-- The numbers of the devices of the two lists are not negative and tell the names apart. -/
structure Distinct (devices devices' : List Device) : Prop where
  left : ∀ d ∈ devices, 0 ≤ d.number
  right : ∀ d ∈ devices', 0 ≤ d.number
  names : ∀ d ∈ devices, ∀ d' ∈ devices', d'.number = d.number ↔ d'.name = d.name

/-- A number is looked up among the slots in use. -/
theorem find?_tableOf {devices : List Device} {n : Int} (hn : 0 ≤ n) :
    (tableOf devices).find? (fun c => c.devnum = n) =
      ((devices.take MAX_CONTAINERS).find? fun d => d.number = n).map Device.slot := by
  have hfree : (List.replicate (MAX_CONTAINERS - devices.length) ContainerDev.free).find?
      (fun c => c.devnum = n) = none := by
    refine List.find?_eq_none.mpr fun c hc => ?_
    rw [List.eq_of_mem_replicate hc]
    rw [decide_eq_true_eq]
    show ¬ (-1 : Int) = n
    omega
  unfold tableOf
  rw [List.find?_append, hfree, Option.or_none, List.find?_map]
  rfl

/-- The comparison of the tables of two lists of containers. -/
theorem compareContainerList_tableOf {devices devices' : List Device}
    (h : Distinct devices devices') :
    compareContainerList (tableOf devices') (tableOf devices) = 0 ↔
      Covers (devices.take MAX_CONTAINERS) (devices'.take MAX_CONTAINERS) := by
  have hfind : ∀ d ∈ devices.take MAX_CONTAINERS,
      (tableOf devices').find? (fun c => c.devnum = d.number) =
        ((devices'.take MAX_CONTAINERS).find? fun d' => d'.name = d.name).map Device.slot := by
    intro d hd
    have hmem := List.mem_of_mem_take hd
    rw [find?_tableOf (h.left d hmem)]
    refine congrArg _ (List.find?_congr fun d' hd' => ?_)
    exact decide_eq_decide.mpr (h.names d hmem d' (List.mem_of_mem_take hd'))
  have hsame : ∀ d d' : Device, compareMembers d.slot d'.slot = 0 ↔
      ∀ name, name ∈ d.memberNames ↔ name ∈ d'.memberNames := by
    intro d d'
    rw [compareMembers_eq_zero_iff]
    simp [Device.slot]
  rw [compareContainerList_eq_zero_iff]
  constructor
  · intro hall d hd
    have hslot : d.slot ∈ tableOf devices := List.mem_append_left _ (List.mem_map_of_mem hd)
    obtain ⟨c, hc, hzero⟩ := hall d.slot hslot (h.left d (List.mem_of_mem_take hd))
    rw [show d.slot.devnum = d.number from rfl, hfind d hd] at hc
    obtain ⟨d', hd', rfl⟩ := Option.map_eq_some_iff.mp hc
    exact ⟨d', hd', (hsame d d').mp hzero⟩
  · intro hcovers c hc hused
    rcases List.mem_append.mp hc with hc | hc
    · obtain ⟨d, hd, rfl⟩ := List.mem_map.mp hc
      obtain ⟨d', hd', hmembers⟩ := hcovers d hd
      refine ⟨d'.slot, ?_, (hsame d d').mpr hmembers⟩
      rw [show d.slot.devnum = d.number from rfl, hfind d hd, hd']
      rfl
    · rw [List.eq_of_mem_replicate hc] at hused
      exact absurd hused (by decide)

/-! ## Memberships -/

namespace MdstatText

variable {t t' : MdstatText}

/-- A container is the first one of its name. -/
theorem find?_containers {d : Device} (hd : d ∈ t.containers) :
    (t.containers.find? fun d' => d'.name = d.name) = some d := by
  have hnodup : (t.containers.map Device.name).Nodup :=
    t.names.sublist (List.filter_sublist.map Device.name)
  generalize t.containers = l at hd hnodup
  induction l with
  | nil => simp at hd
  | cons d' l ih =>
      rw [List.map_cons, List.nodup_cons] at hnodup
      rcases List.mem_cons.mp hd with rfl | hd
      · exact List.find?_cons_of_pos (by simp)
      · have hne : ¬ d'.name = d.name := fun heq =>
          hnodup.1 (heq ▸ List.mem_map_of_mem hd)
        rw [List.find?_cons_of_neg (by simpa using hne)]
        exact ih hd hnodup.2

/-- Two texts have the same membership iff the containers of each are among those of the other. -/
theorem membership_eq_iff : t.membership = t'.membership ↔
    Covers t.containers t'.containers ∧ Covers t'.containers t.containers := by
  have hcovers : ∀ {t t' : MdstatText}, t.membership = t'.membership →
      Covers t.containers t'.containers := by
    intro t t' h d hd
    have hname := congrFun h d.name
    unfold membership at hname
    rw [find?_containers hd] at hname
    obtain ⟨d', hd', heq⟩ := Option.map_eq_some_iff.mp hname.symm
    refine ⟨d', hd', fun name => ?_⟩
    rw [← List.mem_toFinset, ← List.mem_toFinset, heq]
  refine ⟨fun h => ⟨hcovers h, hcovers h.symm⟩, fun ⟨hleft, hright⟩ => ?_⟩
  funext name
  unfold membership
  rcases hfind : t.containers.find? fun d => d.name = name with _ | d
  · rcases hfind' : t'.containers.find? fun d => d.name = name with _ | d'
    · rw [hfind, hfind']
    · -- a container of the name would be in the first text as well
      obtain ⟨d, hd, -⟩ := hright d' (List.mem_of_find?_eq_some hfind')
      have hname : d'.name = name := by simpa using List.find?_some hfind'
      rw [hname, hfind] at hd
      simp at hd
  · obtain ⟨d', hd', hmembers⟩ := hleft d (List.mem_of_find?_eq_some hfind)
    have hname : d.name = name := by simpa using List.find?_some hfind
    rw [hname] at hd'
    rw [hfind, hd', Option.map_some, Option.map_some]
    refine congrArg some (Finset.ext fun member => ?_)
    rw [List.mem_toFinset, List.mem_toFinset]
    exact hmembers member

end MdstatText

/-! ## Readings -/

/-- The texts are read one after the other. -/
def readAll (s : ContainerSets (List ContainerDev)) (texts : List MdstatText) :
    ContainerSets (List ContainerDev) :=
  texts.foldl (fun s t => (readMdstat s (some t.content)).1) s

/-- Whether `_members_changed` is right about the last two of the texts that have been read since the
start. -/
def Detects (history : List MdstatText) (t t' : MdstatText) : Prop :=
  membersChanged (readAll initContainers (history ++ [t, t'])) ≠ 0 ↔ t.membership ≠ t'.membership

/-- A text over the names `N` with at most `K` containers, whose lines fit into the buffers and where
`inactive` stands only for the state. -/
structure Legible (N : List UInt8 → Prop) (K : Nat) (t : MdstatText) : Prop where
  fits : t.Fits
  active : ∀ d ∈ t.devices, d.LooksActive
  names : ∀ d ∈ t.containers, N d.name ∧ ¬ lit "inactive" <:+: d.name
  count : t.containers.length ≤ K

/-- A name that a container of such a text can have. -/
structure Usable (name : List UInt8) : Prop where
  md : lit "md" <+: name
  plain : ∀ b ∈ name, Plain b
  keyword : ¬ lit "inactive" <:+: name
  fits : name.length + 11 < lineRoom

/-- The number of a name.
Source: `ssieventmonitor.cpp` `_get_devnum` -/
def numberOf (name : List UInt8) : Int := Str.atoi (name.drop 2)

/-- The numbers of the names are not negative and tell them apart. -/
def TellsApart (N : List UInt8 → Prop) : Prop :=
  ∀ name, N name → Usable name → 0 ≤ numberOf name ∧
    ∀ name', N name' → Usable name' → numberOf name' = numberOf name → name' = name

/-- The tables are those of containers. -/
def Holds (s : ContainerSets (List ContainerDev)) (devices devices' : List Device) : Prop :=
  s.getCurrentContainer = tableOf devices ∧ s.getOtherContainer = tableOf devices' ∧
    (∀ d ∈ devices, 0 ≤ d.number) ∧ ∀ d ∈ devices', 0 ≤ d.number

/-- The initial array of the source holds no containers. -/
theorem holds_initContainers : Holds initContainers [] [] :=
  ⟨rfl, rfl, fun _ h => absurd h List.not_mem_nil, fun _ h => absurd h List.not_mem_nil⟩

section legible

variable {N : List UInt8 → Prop} {K : Nat} {t t' : MdstatText}

/-- A container of the text is a device of it. -/
theorem Device.isContainer_of_mem {d : Device} (hd : d ∈ t.containers) :
    d ∈ t.devices ∧ d.IsContainer := by
  obtain ⟨hmem, hcontainer⟩ := List.mem_filter.mp hd
  exact ⟨hmem, of_decide_eq_true hcontainer⟩

/-- The name of a container in a legible text is usable. -/
theorem Legible.usable (h : Legible N K t) {d : Device} (hd : d ∈ t.containers) : Usable d.name where
  md := d.name_md
  plain := d.name_plain
  keyword := (h.names d hd).2
  fits := by
    obtain ⟨hmem, hcontainer⟩ := Device.isContainer_of_mem hd
    have hline : d.header ∈ t.lines :=
      List.mem_append_right _ (List.mem_flatMap.mpr ⟨d, hmem, List.mem_cons_self⟩)
    have hlength := h.fits _ hline
    obtain ⟨hstate, -⟩ := hcontainer
    have hword : (lit " : ").length = 3 ∧ (lit "inactive").length = 8 := by decide
    unfold Device.header Device.renderedState at hlength
    unfold Device.isInactive at hstate
    split at hstate
    next => simp at hstate
    next members hmembers =>
      rw [hmembers] at hlength
      simp only [List.length_append, hword.1, hword.2] at hlength
      omega

/-- Where names can be told apart the containers of a legible text are all read. -/
theorem Legible.readable (h : Legible N K t) (hN : TellsApart N) :
    ∀ d ∈ t.containers, d.Readable := fun d hd =>
  ⟨(Device.isContainer_of_mem hd).2, (h.names d hd).2, (hN d.name (h.names d hd).1 (h.usable hd)).1⟩

/-- One reading: the table of the text becomes the current one, the last one the other. -/
theorem Holds.read {s : ContainerSets (List ContainerDev)} {devices devices' : List Device}
    (hs : Holds s devices devices') (h : Legible N K t)
    (hreadable : ∀ d ∈ t.containers, d.Readable) :
    Holds (readMdstat s (some t.content)).1 t.containers devices := by
  obtain ⟨hcurrent, hother, hdevices, hdevices'⟩ := hs
  refine ⟨?_, ?_, fun d hd => (hreadable d hd).2.2, hdevices⟩
  · unfold readMdstat
    rw [ContainerSets.getCurrentContainer_readMdstat, hother, clearContainer_tableOf hdevices',
      t.readLines_content h.fits h.active]
    exact collectAll_replicate hreadable
  · unfold readMdstat
    rw [ContainerSets.getOtherContainer_readMdstat, hcurrent]

/-- All readings of a history. -/
theorem exists_holds {history : List MdstatText} (h : ∀ t ∈ history, Legible N K t)
    (hN : TellsApart N) :
    ∃ devices devices', Holds (readAll initContainers history) devices devices' := by
  have hrun : ∀ {texts : List MdstatText} {s : ContainerSets (List ContainerDev)},
      (∀ t ∈ texts, Legible N K t) → (∃ devices devices', Holds s devices devices') →
        ∃ devices devices', Holds (readAll s texts) devices devices' := by
    intro texts
    induction texts with
    | nil => exact fun _ hs => hs
    | cons t texts ih =>
        intro s hlegible hs
        obtain ⟨devices, devices', hs⟩ := hs
        refine ih (fun t ht => hlegible t (List.mem_cons_of_mem _ ht)) ?_
        have ht := hlegible t List.mem_cons_self
        exact ⟨_, _, hs.read ht (ht.readable hN)⟩
  exact hrun h ⟨[], [], holds_initContainers⟩

/-- After two readings the tables are those of the two texts. -/
theorem holds_of_legible {history : List MdstatText}
    (h : ∀ x ∈ history ++ [t, t'], Legible N K x) (hN : TellsApart N) :
    Holds (readAll initContainers (history ++ [t, t'])) t'.containers t.containers := by
  obtain ⟨devices, devices', hs⟩ :=
    exists_holds (fun x hx => h x (List.mem_append_left _ hx)) hN
  have ht := h t (List.mem_append_right _ List.mem_cons_self)
  have ht' := h t' (List.mem_append_right _ (List.mem_cons_of_mem _ List.mem_cons_self))
  unfold readAll
  rw [List.foldl_append]
  exact (hs.read ht (ht.readable hN)).read ht' (ht'.readable hN)

/-- In two legible texts the containers are told apart by their numbers. -/
theorem distinct_of_legible (h : Legible N K t) (h' : Legible N K t') (hN : TellsApart N) :
    Distinct t.containers t'.containers where
  left := fun d hd => (h.readable hN d hd).2.2
  right := fun d hd => (h'.readable hN d hd).2.2
  names := by
    intro d hd d' hd'
    refine ⟨fun heq => ?_, fun heq => ?_⟩
    · exact (hN d.name (h.names d hd).1 (h.usable hd)).2 d'.name (h'.names d' hd').1
        (h'.usable hd') heq
    · unfold Device.number
      rw [heq]

/-- The comparison after two readings. -/
theorem membersChanged_eq_zero_of_legible {history : List MdstatText}
    (h : ∀ x ∈ history ++ [t, t'], Legible N K x) (hN : TellsApart N) :
    membersChanged (readAll initContainers (history ++ [t, t'])) = 0 ↔
      Covers (t'.containers.take MAX_CONTAINERS) (t.containers.take MAX_CONTAINERS) ∧
        Covers (t.containers.take MAX_CONTAINERS) (t'.containers.take MAX_CONTAINERS) := by
  have ht := h t (List.mem_append_right _ List.mem_cons_self)
  have ht' := h t' (List.mem_append_right _ (List.mem_cons_of_mem _ List.mem_cons_self))
  obtain ⟨hcurrent, hother, -, -⟩ := holds_of_legible h hN
  rw [membersChanged_eq_zero_iff, hcurrent, hother,
    compareContainerList_tableOf (distinct_of_legible ht' ht hN),
    compareContainerList_tableOf (distinct_of_legible ht ht' hN)]

/-- Changes are detected as long as there are slots for all containers. -/
theorem detects_of_legible {history : List MdstatText}
    (h : ∀ x ∈ history ++ [t, t'], Legible N K x) (hN : TellsApart N)
    (hcount : t.containers.length ≤ MAX_CONTAINERS)
    (hcount' : t'.containers.length ≤ MAX_CONTAINERS) : Detects history t t' := by
  unfold Detects
  rw [not_iff_not, membersChanged_eq_zero_of_legible h hN, List.take_of_length_le hcount,
    List.take_of_length_le hcount', MdstatText.membership_eq_iff, and_comm]

end legible

/-! ## Texts of bare containers -/

/-- The line of a container. -/
def bareInfo : InfoLine := ⟨⟨lit "      6306 blocks super external:imsm", by decide⟩, by decide⟩

/-- A container without members. -/
def bareDevice (name : { name // Usable name }) : Device :=
  ⟨name.1, .inactive [], bareInfo, [], name.2.md, name.2.plain⟩

/-- Containers without members. -/
def bareText (names : List { name // Usable name }) (h : (names.map Subtype.val).Nodup) :
    MdstatText :=
  ⟨[], names.map bareDevice, by rw [List.map_map]; exact h⟩

section bare

variable {N : List UInt8 → Prop} {K : Nat} {names : List { name // Usable name }}
  (h : (names.map Subtype.val).Nodup)

/-- The sample device is a container. -/
theorem isContainer_bareDevice (name : { name // Usable name }) : (bareDevice name).IsContainer :=
  ⟨rfl, show lit "external:imsm" <:+: lit "      6306 blocks super external:imsm" by decide⟩

/-- All devices of the sample text are containers. -/
theorem containers_bareText : (bareText names h).containers = names.map bareDevice := by
  refine List.filter_eq_self.mpr fun d hd => decide_eq_true ?_
  obtain ⟨name, -, rfl⟩ := List.mem_map.mp hd
  exact isContainer_bareDevice name

/-- The sample text is legible as long as it has not too many containers. -/
theorem legible_bareText (hN : ∀ name ∈ names, N name.1) (hcount : names.length ≤ K) :
    Legible N K (bareText names h) where
  fits := by
    intro line hline
    have hword : (lit " : ").length = 3 ∧ (lit "inactive").length = 8 := by decide
    rcases List.mem_append.mp hline with hline | hline
    · cases hline
    · obtain ⟨d, hd, hline⟩ := List.mem_flatMap.mp hline
      obtain ⟨name, -, rfl⟩ := List.mem_map.mp hd
      simp only [Device.lines, bareDevice, List.map_nil, List.mem_cons, List.not_mem_nil,
        or_false] at hline
      rcases hline with rfl | rfl
      · have hfits := name.2.fits
        simp only [Device.header, Device.renderedState, List.flatMap_nil, List.append_nil,
          List.length_append, hword.1, hword.2]
        omega
      · decide
  active := by
    intro d hd hstate
    obtain ⟨name, -, rfl⟩ := List.mem_map.mp hd
    cases hstate
  names := by
    intro d hd
    rw [containers_bareText] at hd
    obtain ⟨name, hname, rfl⟩ := List.mem_map.mp hd
    exact ⟨hN name hname, name.2.keyword⟩
  count := by
    rw [containers_bareText, List.length_map]
    exact hcount

/-- The names of the membership. -/
theorem membership_bareText (name : List UInt8) :
    ((bareText names h).membership name).isSome ↔ name ∈ names.map Subtype.val := by
  unfold MdstatText.membership
  rw [Option.isSome_map, List.find?_isSome, containers_bareText]
  simp [bareDevice]

end bare

section converse

variable {N : List UInt8 → Prop} {K : Nat}

/-- No container. -/
def emptyText : MdstatText := bareText [] List.nodup_nil

/-- One container. -/
def oneText (name : { name // Usable name }) : MdstatText := bareText [name] (List.nodup_singleton _)

/-- The empty text is legible. -/
theorem legible_emptyText : Legible N K emptyText := by
  unfold emptyText
  exact legible_bareText _ (fun _ h => absurd h List.not_mem_nil) (Nat.zero_le K)

/-- A text with one container is legible. -/
theorem legible_oneText {name : { name // Usable name }} (hN : N name.1) (hK : 0 < K) :
    Legible N K (oneText name) := by
  refine legible_bareText _ (fun name' hname' => ?_) hK
  obtain rfl := List.mem_singleton.mp hname'
  exact hN

/-- It has this container only. -/
theorem containers_oneText (name : { name // Usable name }) :
    (oneText name).containers = [bareDevice name] :=
  containers_bareText _

/-- The membership of such a text is that of the one name. -/
theorem membership_oneText (name : { name // Usable name }) (name' : List UInt8) :
    ((oneText name).membership name').isSome ↔ name' = name.1 :=
  (membership_bareText _ name').trans List.mem_singleton

/-- Two readings one after the other, from the initial state on. -/
theorem readAll_pair (t t' : MdstatText) :
    readAll initContainers ([] ++ [t, t']) =
      (readMdstat (readMdstat initContainers (some t.content)).1 (some t'.content)).1 := rfl

/-- A container with a negative number leaves its slot free. -/
theorem not_detects_of_negative (name : { name // Usable name }) (hnumber : numberOf name.1 < 0) :
    ¬ Detects [] emptyText (oneText name) := by
  have hempty : Legible (fun _ => True) 1 emptyText := legible_emptyText
  have hname : Legible (fun _ => True) 1 (oneText name) := legible_oneText trivial Nat.one_pos
  obtain ⟨hcurrent, hother, -, hfree⟩ :=
    holds_initContainers.read hempty fun d hd => absurd hd List.not_mem_nil
  have hcollect := collectDevices_replicate (isContainer_bareDevice name) name.2.keyword 9
  have hzero : membersChanged (readAll initContainers ([] ++ [emptyText, oneText name])) = 0 := by
    rw [readAll_pair, membersChanged_eq_zero_iff, readMdstat,
      ContainerSets.getCurrentContainer_readMdstat, ContainerSets.getOtherContainer_readMdstat,
      hother, hcurrent, clearContainer_tableOf hfree,
      MdstatText.readLines_content _ hname.fits hname.active, containers_oneText]
    have htable : collectAll (List.replicate MAX_CONTAINERS .free) [bareDevice name] =
        (bareDevice name).slot :: List.replicate 9 .free := hcollect
    rw [htable, compareContainerList_eq_zero_iff, compareContainerList_eq_zero_iff]
    -- no slot of the two tables is in use
    refine ⟨fun c hc hused => ?_, fun c hc hused => ?_⟩
    · rcases List.mem_cons.mp hc with rfl | hc
      · exact absurd hnumber (not_lt.mpr hused)
      · rw [List.eq_of_mem_replicate hc] at hused
        exact absurd hused (by decide)
    · have hc : c ∈ List.replicate 10 ContainerDev.free := hc
      rw [List.eq_of_mem_replicate hc] at hused
      exact absurd hused (by decide)
  intro h
  refine h.mpr (fun heq => ?_) hzero
  have hsome := (membership_oneText name name.1).mpr rfl
  rw [← heq] at hsome
  exact absurd ((membership_bareText _ name.1).mp hsome) List.not_mem_nil

/-- Containers with the same number are taken for one. -/
theorem not_detects_of_same_number (name name' : { name // Usable name }) (hne : name'.1 ≠ name.1)
    (hnumber : 0 ≤ numberOf name.1) (heq : numberOf name'.1 = numberOf name.1) :
    ¬ Detects [] (oneText name) (oneText name') := by
  have hlegible : ∀ name : { name // Usable name }, Legible (fun _ => True) 1 (oneText name) :=
    fun name => legible_oneText trivial Nat.one_pos
  have hreadable : ∀ name : { name // Usable name }, 0 ≤ numberOf name.1 →
      ∀ d ∈ (oneText name).containers, d.Readable := by
    intro name hnumber d hd
    rw [containers_oneText] at hd
    obtain rfl := List.mem_singleton.mp hd
    exact ⟨isContainer_bareDevice name, name.2.keyword, hnumber⟩
  obtain ⟨hcurrent, hother, -, -⟩ :=
    (holds_initContainers.read (hlegible name) (hreadable name hnumber)).read (hlegible name')
      (hreadable name' (heq ▸ hnumber))
  have htable : tableOf [bareDevice name'] = tableOf [bareDevice name] := by
    have hslot : (bareDevice name').slot = (bareDevice name).slot := by
      show ContainerDev.mk _ (numberOf name'.1) = ContainerDev.mk _ (numberOf name.1)
      rw [heq]
      rfl
    have hone : ∀ d : Device, tableOf [d] = d.slot :: List.replicate 9 .free := fun _ => rfl
    rw [hone, hone, hslot]
  have hdistinct : Distinct [bareDevice name] [bareDevice name] := by
    have hnumbers : ∀ d ∈ [bareDevice name], 0 ≤ d.number := by
      intro d hd
      obtain rfl := List.mem_singleton.mp hd
      exact hnumber
    refine ⟨hnumbers, hnumbers, fun d hd d' hd' => ?_⟩
    obtain rfl := List.mem_singleton.mp hd
    obtain rfl := List.mem_singleton.mp hd'
    exact iff_of_true rfl rfl
  have hcovers : Covers [bareDevice name] [bareDevice name] := by
    have hall := (@MdstatText.membership_eq_iff (oneText name) (oneText name)).mp rfl
    rw [containers_oneText] at hall
    exact hall.1
  have hzero : membersChanged (readAll initContainers ([] ++ [oneText name, oneText name'])) = 0 := by
    rw [readAll_pair, membersChanged_eq_zero_iff, hcurrent, hother, containers_oneText,
      containers_oneText, htable]
    have hsame := (compareContainerList_tableOf hdistinct).mpr hcovers
    exact ⟨hsame, hsame⟩
  intro h
  refine h.mpr (fun hmembership => ?_) hzero
  have hsome := (membership_oneText name name.1).mpr rfl
  rw [hmembership] at hsome
  exact hne ((membership_oneText name' name.1).mp hsome).symm

/-- With more containers than slots those that are left out are not seen. -/
theorem not_detects_of_count {names : List { name // Usable name }}
    (hnodup : (names.map Subtype.val).Nodup) (hN : ∀ name ∈ names, N name.1)
    (hcount : names.length ≤ K) (hslots : MAX_CONTAINERS < names.length) (hapart : TellsApart N) :
    ∃ t t', Legible N K t ∧ Legible N K t' ∧ ¬ Detects [] t t' := by
  have hnodup' : ((names.take MAX_CONTAINERS).map Subtype.val).Nodup :=
    hnodup.sublist ((List.take_sublist _ _).map _)
  have ht : Legible N K (bareText names hnodup) := legible_bareText hnodup hN hcount
  have ht' : Legible N K (bareText (names.take MAX_CONTAINERS) hnodup') := by
    refine legible_bareText hnodup' (fun name hname => hN name (List.mem_of_mem_take hname)) ?_
    exact (List.length_take_le' _ _).trans hcount
  refine ⟨_, _, ht, ht', fun h => h.mpr (fun heq => ?_) ?_⟩
  · -- the first name that is left out
    have hlast := (membership_bareText hnodup (names[MAX_CONTAINERS]).1).mpr
      (List.mem_map_of_mem (List.getElem_mem hslots))
    rw [heq, membership_bareText, List.map_take] at hlast
    have hdrop : (names[MAX_CONTAINERS]).1 ∈ (names.map Subtype.val).drop MAX_CONTAINERS := by
      rw [← List.map_drop, List.drop_eq_getElem_cons hslots]
      exact List.mem_map_of_mem List.mem_cons_self
    exact List.disjoint_take_drop hnodup (le_refl _) hlast hdrop
  · have hlegible : ∀ x ∈ [] ++ [bareText names hnodup,
        bareText (names.take MAX_CONTAINERS) hnodup'], Legible N K x := by
      intro x hx
      rcases List.mem_cons.mp hx with rfl | hx
      · exact ht
      · obtain rfl := List.mem_singleton.mp hx
        exact ht'
    have htake : (bareText names hnodup).containers.take MAX_CONTAINERS =
        (bareText (names.take MAX_CONTAINERS) hnodup').containers := by
      rw [containers_bareText, containers_bareText, List.map_take]
    have hcovers := (@MdstatText.membership_eq_iff
      (bareText (names.take MAX_CONTAINERS) hnodup') (bareText _ hnodup')).mp rfl
    rw [membersChanged_eq_zero_of_legible hlegible hapart, htake, List.take_of_length_le]
    · exact hcovers
    · rw [containers_bareText, List.length_map]
      exact List.length_take_le _ _

end converse

/-- Names that can be used, each with the reason. -/
theorem exists_usable {names : List (List UInt8)} (h : ∀ name ∈ names, Usable name) :
    ∃ l : List { name // Usable name }, l.map Subtype.val = names :=
  ⟨names.attachWith Usable h, List.attachWith_map_subtype_val h⟩

/-- There is a slot for every container that a text over the names can have. -/
def HasSlots (N : List UInt8 → Prop) (K : Nat) : Prop :=
  ∀ names : List (List UInt8), names.Nodup → (∀ name ∈ names, N name ∧ Usable name) →
    names.length ≤ K → names.length ≤ MAX_CONTAINERS

/-- Two legible texts, with nothing read before. -/
theorem legible_pair {N : List UInt8 → Prop} {K : Nat} {t t' : MdstatText} (ht : Legible N K t)
    (ht' : Legible N K t') : ∀ x ∈ [] ++ [t, t'], Legible N K x := by
  intro x hx
  rcases List.mem_cons.mp hx with rfl | hx
  · exact ht
  · obtain rfl := List.mem_singleton.mp hx
    exact ht'

/-- **Change detection is exact** for the texts over the names `N` with at most `K` containers, after
any history of such texts, iff the numbers tell the names apart and there is a slot for every container
that such a text can have. -/
theorem detects_iff (N : List UInt8 → Prop) (K : Nat) :
    (∀ (history : List MdstatText) (t t' : MdstatText),
      (∀ x ∈ history ++ [t, t'], Legible N K x) → Detects history t t') ↔
      (0 < K → TellsApart N) ∧ HasSlots N K := by
  constructor
  · intro h
    have hapart : 0 < K → TellsApart N := by
      intro hK name hname husable
      have hone : Legible N K (oneText ⟨name, husable⟩) := legible_oneText hname hK
      have hnumber : 0 ≤ numberOf name := by
        by_contra hnegative
        exact not_detects_of_negative ⟨name, husable⟩ (not_le.mp hnegative)
          (h [] _ _ (legible_pair legible_emptyText hone))
      refine ⟨hnumber, fun name' hname' husable' heq => ?_⟩
      have hone' : Legible N K (oneText ⟨name', husable'⟩) := legible_oneText hname' hK
      by_contra hne
      exact not_detects_of_same_number ⟨name, husable⟩ ⟨name', husable'⟩ hne hnumber heq
        (h [] _ _ (legible_pair hone hone'))
    refine ⟨hapart, fun names hnodup hnames hcount => ?_⟩
    by_contra hslots
    obtain ⟨l, rfl⟩ := exists_usable fun name hname => (hnames name hname).2
    rw [List.length_map] at hcount hslots
    obtain ⟨t, t', ht, ht', hnot⟩ := not_detects_of_count hnodup
      (fun name hname => (hnames name.1 (List.mem_map_of_mem hname)).1) hcount (not_le.mp hslots)
      (hapart (by omega))
    exact hnot (h [] t t' (legible_pair ht ht'))
  · rintro ⟨hapart, hslots⟩ history t t' hlegible
    have hcount : ∀ {x}, x ∈ history ++ [t, t'] → x.containers.length ≤ MAX_CONTAINERS := by
      intro x hx
      have hx := hlegible x hx
      have hnames : (x.containers.map Device.name).Nodup :=
        x.names.sublist (List.filter_sublist.map Device.name)
      have hlength := hslots _ hnames (fun name hname => by
        obtain ⟨d, hd, rfl⟩ := List.mem_map.mp hname
        exact ⟨(hx.names d hd).1, hx.usable hd⟩) (by rw [List.length_map]; exact hx.count)
      rwa [List.length_map] at hlength
    have ht := hcount (List.mem_append_right history (List.mem_cons_self : t ∈ [t, t']))
    have ht' := hcount
      (List.mem_append_right history (List.mem_cons_of_mem t (List.mem_singleton_self t')))
    rcases Nat.eq_zero_or_pos K with rfl | hK
    · -- no text has a container
      have hnone : ∀ x ∈ history ++ [t, t'], Legible (fun _ => False) 0 x := by
        intro x hx
        have hx := hlegible x hx
        refine ⟨hx.fits, hx.active, fun d hd => ?_, hx.count⟩
        rw [List.eq_nil_of_length_eq_zero (Nat.le_zero.mp hx.count)] at hd
        simp at hd
      exact detects_of_legible hnone (fun name hname => hname.elim) ht ht'
    · exact detects_of_legible hlegible (hapart hK) ht ht'

section sample

/-- A disk with its role and the flag of a spare. -/
def sampleMember : Member := ⟨lit "sda", lit "0](S)", by decide +kernel, by decide +kernel⟩

/-- A container with the disk. -/
def sampleNamed (name : List UInt8) (hmd : lit "md" <+: name) (hplain : ∀ b ∈ name, Plain b) :
    MdstatText :=
  ⟨[], [⟨name, .inactive [sampleMember], bareInfo, [], hmd, hplain⟩], List.nodup_singleton _⟩

/-- A container `md_a`, and a container `md_b` with the same disk. -/
theorem not_detects_named : ¬ ∀ t t' : MdstatText, Detects [] t t' := by
  intro h
  have hdetects := h (sampleNamed (lit "md_a") (by decide) (by decide +kernel))
    (sampleNamed (lit "md_b") (by decide +kernel) (by decide +kernel))
  refine hdetects.mpr (fun heq => ?_) (by decide +kernel)
  have hname := congrFun heq (lit "md_a")
  exact absurd hname (by decide +kernel)

end sample

end Mdstat

end Irstessi
