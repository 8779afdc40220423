import Irstessi.Text

/-!
# The disks of a VMD domain

`VMD::discover` takes an NVMe device for one of its own where the value of a comparison of the two
paths is the difference of their lengths.

* `SysPath`, `NvmeEntry`, `discover`: the loop over the NVMe devices.
* `Below`, `AdoptsOwn`: the devices below the path of a domain, and what the claim on them is.
* `eq_or_below_of_below`: two domains with a device in common are nested.
* **`adoptsOwn_iff`**: the domains adopt their own devices exactly where no device is misjudged.

The comparison gives a number: 0 or the difference of the sizes where one text begins the other, and
what `strncmp` gives otherwise, of which only the sign is known. The number is compared with the
difference of the lengths in characters, as 32-bit words. So a device is taken iff one path begins the
other and the rest has as many characters as bytes, or iff `strncmp` happens to give the difference.
`Misjudged` lists the ways in which this differs from being below the domain; each is about one domain
and one device, and for paths of single-byte characters fewer of them remain.
-/

namespace Irstessi

/-! ## The loop -/

/-- The text of a path. -/
structure SysPath where
  text : Str
  wellFormed : WellFormed text.m_buffer

/-- Two sysfs paths are the same iff their texts are, so that the code's comparisons of texts decide
equality of paths. -/
theorem SysPath.eq_iff {p q : SysPath} : p.text = q.text ↔ p = q := by
  cases p
  cases q
  simp

instance : DecidableEq SysPath := fun _ _ => decidable_of_iff _ SysPath.eq_iff

/-- An entry of the directory of the NVMe driver: the canonical path of its `driver` link and its own.
Source: `vmd.cpp` `VMD::discover`, `nvmeDriverPath` and `nvmePath` -/
structure NvmeEntry where
  nvmeDriverPath : SysPath
  nvmePath : SysPath
  deriving DecidableEq

/-- Source: `string.cpp` `String::__compare`; the argument is copied through a `const char *`. -/
def Strncmp.compare (strncmp : Strncmp) (s t : Str) : Int :=
  let t := Str.ofBytes t.m_buffer
  let rv := strncmp.cmp s.m_buffer t.m_buffer (min t.size s.size)
  if rv ≠ 0 then rv else (s.size : Int) - t.size

/-- Two `unsigned int` values are equal. -/
abbrev SameUnsigned (x y : Int) : Prop := x % 2 ^ 32 = y % 2 ^ 32

namespace VMD

/-- `/sys/bus/pci/drivers/nvme`. -/
def dir : Str := .ofLit "/sys/bus/pci/drivers/nvme"

/-- The test of the loop.
Source: `vmd.cpp` `VMD::discover` -/
def Takes (strncmp : Strncmp) (vmdPath nvmePath : SysPath) : Prop :=
  SameUnsigned (strncmp.compare nvmePath.text vmdPath.text)
    ((nvmePath.text.m_length : Int) - vmdPath.text.m_length)

instance (strncmp : Strncmp) (vmdPath nvmePath : SysPath) : Decidable (Takes strncmp vmdPath nvmePath) :=
  inferInstanceAs (Decidable (_ = _))

/-- The entries for which a phy is attached.
Source: `vmd.cpp` `VMD::discover` -/
def discover (strncmp : Strncmp) (vmdPath : SysPath) : List NvmeEntry → List NvmeEntry
  | [] => []
  | i :: rest =>
      if i.nvmeDriverPath.text.equal dir then
        if Takes strncmp vmdPath i.nvmePath then i :: discover strncmp vmdPath rest
        else discover strncmp vmdPath rest
      else discover strncmp vmdPath rest

/-! ## What a domain should adopt -/

/-- The path has the other one as an ancestor directory. -/
def Below (vmdPath nvmePath : SysPath) : Prop :=
  vmdPath.text.m_buffer ++ lit "/" <+: nvmePath.text.m_buffer

instance (vmdPath nvmePath : SysPath) : Decidable (Below vmdPath nvmePath) :=
  inferInstanceAs (Decidable (_ <+: _))

/-- The devices of the NVMe driver below the domain. -/
def ownDevices (vmdPath : SysPath) (entries : List NvmeEntry) : List NvmeEntry :=
  entries.filter fun i => i.nvmeDriverPath.text.equal dir ∧ Below vmdPath i.nvmePath

/-- No domain is another one or nested in it. -/
def Apart (domains : List SysPath) : Prop :=
  domains.Pairwise fun v w => v.text.m_buffer ≠ w.text.m_buffer ∧ ¬ Below v w ∧ ¬ Below w v

/-- Every domain adopts its own devices, and domains that are not nested have none in common. -/
structure AdoptsOwn (strncmp : Strncmp) (domains : List SysPath) (entries : List NvmeEntry) : Prop where
  exact : ∀ v ∈ domains, discover strncmp v entries = ownDevices v entries
  once : Apart domains → ∀ i ∈ entries,
    (domains.filter fun v => i ∈ discover strncmp v entries).length ≤ 1

/-- The rest of the path consists of as many characters as bytes. -/
def SameUnits (vmdPath nvmePath : SysPath) : Prop :=
  SameUnsigned ((nvmePath.text.size : Int) - vmdPath.text.size)
    ((nvmePath.text.m_length : Int) - vmdPath.text.m_length)

/-- The devices that the test is wrong about: one of its own whose path goes on with characters of
several bytes; another whose path is that of the domain, or is above it, or goes on without a
separator; or another with the difference of the lengths as the value of `strncmp`. -/
def Misjudged (strncmp : Strncmp) (vmdPath nvmePath : SysPath) : Prop :=
  (Below vmdPath nvmePath ∧ ¬ SameUnits vmdPath nvmePath) ∨
  (¬ Below vmdPath nvmePath ∧ SameUnits vmdPath nvmePath ∧
    (vmdPath.text.m_buffer <+: nvmePath.text.m_buffer ∨
      nvmePath.text.m_buffer <+: vmdPath.text.m_buffer)) ∨
  (¬ vmdPath.text.m_buffer <+: nvmePath.text.m_buffer ∧
    ¬ nvmePath.text.m_buffer <+: vmdPath.text.m_buffer ∧
    SameUnsigned (strncmp.cmp nvmePath.text.m_buffer vmdPath.text.m_buffer
        (min vmdPath.text.size nvmePath.text.size))
      ((nvmePath.text.m_length : Int) - vmdPath.text.m_length))

/-- The beginnings of two texts are equal where one is a prefix of the other. -/
theorem take_min_eq_iff {α : Type} {a b : List α} :
    a.take (min b.length a.length) = b.take (min b.length a.length) ↔ b <+: a ∨ a <+: b := by
  rcases Nat.le_total b.length a.length with h | h
  · rw [Nat.min_eq_left h, List.take_length, List.prefix_iff_eq_take, eq_comm]
    refine ⟨.inl, ?_⟩
    rintro (heq | hstarts)
    · exact heq
    · rw [hstarts.eq_of_length (Nat.le_antisymm hstarts.length_le h), List.take_length]
  · have htake : a <+: b ↔ a = b.take a.length := List.prefix_iff_eq_take
    rw [Nat.min_eq_right h, List.take_length, htake]
    refine ⟨.inr, ?_⟩
    rintro (hstarts | heq)
    · rw [hstarts.eq_of_length (Nat.le_antisymm hstarts.length_le h), List.take_length]
    · exact heq

section

variable {strncmp : Strncmp} {v p : SysPath}

/-- What `String::compare` with a length gives: a difference of lengths where one text is a prefix of
the other, and otherwise the order of the first different bytes. -/
theorem compare_eq (strncmp : Strncmp) (v p : SysPath) :
    strncmp.compare p.text v.text =
      if v.text.m_buffer <+: p.text.m_buffer ∨ p.text.m_buffer <+: v.text.m_buffer then
        (p.text.size : Int) - v.text.size
      else strncmp.cmp p.text.m_buffer v.text.m_buffer (min v.text.size p.text.size) := by
  have hbuffer : (Str.ofBytes v.text.m_buffer).m_buffer = v.text.m_buffer :=
    Str.ofBytes_buffer v.wellFormed
  have hzero := strncmp.zero_iff (a := p.text.m_buffer) (b := v.text.m_buffer)
    (n := min v.text.size p.text.size) (Nat.min_le_right _ _) (Nat.min_le_left _ _)
  have htake : p.text.m_buffer.take (min v.text.size p.text.size) =
      v.text.m_buffer.take (min v.text.size p.text.size) ↔ _ := take_min_eq_iff
  rw [htake] at hzero
  simp only [Strncmp.compare, Str.size, hbuffer] at hzero ⊢
  by_cases hstarts : v.text.m_buffer <+: p.text.m_buffer ∨ p.text.m_buffer <+: v.text.m_buffer
  · rw [if_pos hstarts, if_neg (not_not.mpr (hzero.mpr hstarts))]
  · rw [if_neg hstarts, if_pos fun h => hstarts (hzero.mp h)]

/-- The test is right about the devices that are not misjudged. -/
theorem takes_iff_below_iff : (Takes strncmp v p ↔ Below v p) ↔ ¬ Misjudged strncmp v p := by
  have hbelow : Below v p → v.text.m_buffer <+: p.text.m_buffer :=
    fun h => (List.prefix_append _ _).trans h
  unfold Takes Misjudged
  rw [compare_eq]
  by_cases hstarts : v.text.m_buffer <+: p.text.m_buffer ∨ p.text.m_buffer <+: v.text.m_buffer
  · have hdiffer : ¬ (¬ v.text.m_buffer <+: p.text.m_buffer ∧
        ¬ p.text.m_buffer <+: v.text.m_buffer ∧
        SameUnsigned (strncmp.cmp p.text.m_buffer v.text.m_buffer (min v.text.size p.text.size))
          ((p.text.m_length : Int) - v.text.m_length)) := by
      rintro ⟨hv, hp, -⟩
      exact hstarts.elim hv hp
    rw [if_pos hstarts, or_iff_left hdiffer]
    show (SameUnits v p ↔ Below v p) ↔ _
    simp only [hstarts, and_true]
    tauto
  · have hnot : ¬ Below v p := fun h => hstarts (.inl (hbelow h))
    rw [if_neg hstarts]
    rw [not_or] at hstarts
    simp [hstarts, hnot]

end

/-- The walk over the driver directory as a filter on its entries: those of the nvme driver whose path
the controller takes. -/
theorem discover_eq_filter (strncmp : Strncmp) (v : SysPath) (entries : List NvmeEntry) :
    discover strncmp v entries =
      entries.filter fun i => i.nvmeDriverPath.text.equal dir ∧ Takes strncmp v i.nvmePath := by
  induction entries with
  | nil => rfl
  | cons i rest ih =>
      rw [discover, List.filter_cons]
      by_cases hdriver : i.nvmeDriverPath.text.equal dir
      · by_cases htakes : Takes strncmp v i.nvmePath
        · simp [hdriver, htakes, ih]
        · simp [hdriver, htakes, ih]
      · simp [hdriver, ih]

/-- A domain adopts its own devices where none is misjudged. -/
theorem discover_eq_ownDevices_iff (strncmp : Strncmp) (v : SysPath) (entries : List NvmeEntry) :
    discover strncmp v entries = ownDevices v entries ↔
      ∀ i ∈ entries, i.nvmeDriverPath.text.equal dir → ¬ Misjudged strncmp v i.nvmePath := by
  rw [discover_eq_filter, ownDevices]
  constructor
  · intro h i hi hdriver
    rw [← takes_iff_below_iff]
    have hmem : (i ∈ entries.filter fun i => i.nvmeDriverPath.text.equal dir ∧
        Takes strncmp v i.nvmePath) ↔ i ∈ entries.filter fun i => i.nvmeDriverPath.text.equal dir ∧
          Below v i.nvmePath := by rw [h]
    simpa [hi, hdriver] using hmem
  · intro h
    apply List.filter_congr
    intro i hi
    rw [decide_eq_decide]
    exact and_congr_right fun hdriver => takes_iff_below_iff.mpr (h i hi hdriver)

/-- Two domains above the same path are nested. -/
theorem eq_or_below_of_below {v w p : SysPath} (hv : Below v p) (hw : Below w p) :
    v.text.m_buffer = w.text.m_buffer ∨ Below v w ∨ Below w v := by
  have hnested : ∀ {a b c : List UInt8}, a ++ lit "/" <+: c → b ++ lit "/" <+: c →
      a.length ≤ b.length → a = b ∨ a ++ lit "/" <+: b := by
    intro a b c ha hb hle
    have hstarts : a ++ lit "/" <+: b ++ lit "/" :=
      List.prefix_of_prefix_length_le ha hb (by simpa using hle)
    rcases Nat.lt_or_ge a.length b.length with hlt | hge
    · refine .inr (List.prefix_of_prefix_length_le hstarts (List.prefix_append _ _) ?_)
      have hone : (lit "/").length = 1 := rfl
      rw [List.length_append, hone]
      exact hlt
    · have heq := hstarts.eq_of_length (by simp; omega)
      exact .inl (List.append_cancel_right heq)
  rcases Nat.le_total v.text.m_buffer.length w.text.m_buffer.length with hle | hle
  · exact (hnested hv hw hle).imp_right .inl
  · exact (hnested hw hv hle).imp Eq.symm .inr

/-- A filter that no two entries pass together leaves at most one. -/
theorem length_filter_le_one {α : Type} {l : List α} {f : α → Bool}
    (h : l.Pairwise fun x y => ¬ (f x ∧ f y)) : (l.filter f).length ≤ 1 := by
  have hfilter := h.filter f
  rcases hlist : l.filter f with _ | ⟨x, _ | ⟨y, rest⟩⟩
  · simp
  · simp
  · rw [hlist] at hfilter
    have hx : x ∈ l.filter f := by simp [hlist]
    have hy : y ∈ l.filter f := by simp [hlist]
    exact absurd ⟨(List.mem_filter.mp hx).2, (List.mem_filter.mp hy).2⟩
      (List.rel_of_pairwise_cons hfilter List.mem_cons_self)

end VMD

open VMD

/-- **The VMD domains adopt exactly their own devices** where the test is right about every device and
every domain. Nothing is known of `strncmp` but the sign of its value, and the paths are any well-formed
texts, of domains that may be nested. Each misjudged pair gives a domain that takes a device which is
not its own, or leaves one of its own out. -/
theorem adoptsOwn_iff (strncmp : Strncmp) (domains : List SysPath) (entries : List NvmeEntry) :
    AdoptsOwn strncmp domains entries ↔
      ∀ v ∈ domains, ∀ i ∈ entries, i.nvmeDriverPath.text.equal dir →
        ¬ Misjudged strncmp v i.nvmePath := by
  constructor
  · intro h v hv
    exact (discover_eq_ownDevices_iff strncmp v entries).mp (h.exact v hv)
  · intro h
    have hexact : ∀ v ∈ domains, discover strncmp v entries = ownDevices v entries :=
      fun v hv => (discover_eq_ownDevices_iff strncmp v entries).mpr (h v hv)
    refine ⟨hexact, fun hapart i hi => length_filter_le_one ?_⟩
    refine hapart.imp_of_mem fun {v w} hv hw hvw => ?_
    rintro ⟨htakes, htakes'⟩
    rw [decide_eq_true_iff, hexact v hv, ownDevices, List.mem_filter, decide_eq_true_iff] at htakes
    rw [decide_eq_true_iff, hexact w hw, ownDevices, List.mem_filter, decide_eq_true_iff] at htakes'
    rcases eq_or_below_of_below htakes.2.2 htakes'.2.2 with heq | hbelow | hbelow
    · exact hvw.1 heq
    · exact hvw.2.1 hbelow
    · exact hvw.2.2 hbelow

/-! ## Paths of single-byte characters -/

namespace VMD

/-- Texts whose characters are counted as their bytes are compared in the same unit, which is what the
comparison of paths relies on. -/
theorem sameUnits_of_counted {v p : SysPath} (hv : v.text.Counted) (hp : p.text.Counted) :
    SameUnits v p := by
  unfold SameUnits Str.size
  rw [hv.2, hp.2]

/-- For paths of single-byte characters, as those in sysfs are, a device is misjudged whose path is
that of the domain or above it, or goes on without a separator, or that `strncmp` tells apart by the
difference of the lengths. -/
theorem misjudged_iff_of_counted {strncmp : Strncmp} {v p : SysPath} (hv : v.text.Counted)
    (hp : p.text.Counted) :
    Misjudged strncmp v p ↔
      (¬ Below v p ∧
        (v.text.m_buffer <+: p.text.m_buffer ∨ p.text.m_buffer <+: v.text.m_buffer)) ∨
      (¬ v.text.m_buffer <+: p.text.m_buffer ∧ ¬ p.text.m_buffer <+: v.text.m_buffer ∧
        SameUnsigned (strncmp.cmp p.text.m_buffer v.text.m_buffer (min v.text.size p.text.size))
          ((p.text.size : Int) - v.text.size)) := by
  have hunits := sameUnits_of_counted hv hp
  unfold Misjudged Str.size
  rw [hv.2, hp.2]
  simp [hunits]

/-- A disk of the domain `0000:ae:05.5` is also taken by `0000:97:05.5`: the first bytes that differ
are 40 apart, and so are the lengths of the paths. -/
theorem not_adoptsOwn_difference :
    ¬ ∀ (strncmp : Strncmp) (domains : List SysPath) (entries : List NvmeEntry),
      AdoptsOwn strncmp domains entries := by
  intro hadopts
  let path (s : String) : SysPath := ⟨.ofLit s, Str.wellFormed_ofBytes _⟩
  let v := path "/sys/devices/pci0000:97/0000:97:05.5"
  let w := path "/sys/devices/pci0000:ae/0000:ae:05.5"
  let p := path "/sys/devices/pci0000:ae/0000:ae:05.5/pci10001:00/10001:00:02.0/10001:01:00.0"
  let i : NvmeEntry := ⟨path "/sys/bus/pci/drivers/nvme", p⟩
  have hexact := (hadopts .byteDifference [v, w] [i]).exact v List.mem_cons_self
  have hdriver : i.nvmeDriverPath.text.equal dir := (Str.equal_iff (Str.wellFormed_ofBytes _)).mpr rfl
  have hjudged := (discover_eq_ownDevices_iff _ v [i]).mp hexact i List.mem_cons_self hdriver
  exact hjudged (.inr (.inr ⟨by decide +kernel, by decide +kernel, by decide +kernel⟩))

end VMD

end Irstessi
