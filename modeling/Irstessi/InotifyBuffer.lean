import Irstessi.EventMonitor
import Irstessi.SafeMemory

/-!
# The buffer of inotify events

`_handle_inotify` reads events into a buffer and walks over them by their lengths.

* `wordAt`: a field of an event in memory.
* `getEventCount`, `readEventsFrom`, `handleRead`: the two walks, and what the handler does behind
  `read`.
* `InotifyEvent`, `InotifyEvent.bytes`, `Holds`: an event, its bytes, and a buffer that holds events.
* `headers`: where the walk looks for events.
* **`handleRead_events`**: for any events, both walks find them all, each where it is, look nowhere
  else, and the handler does what it does for the list of their numbers.

Memory is a function from addresses to bytes, and a header four words in it, the lowest byte first.
`Holds` says that a list of bytes lies at an address; a list of events lies there as the kernel writes
them, each name padded to the length that its header tells. The first walk counts headers, the second
calls the handler for each. Both are recursions with the rest of the buffer as their measure; the step
over an event is its length, since the length field is what the name was padded to. The second walk
steps over the header only where the watch number is 0, hence the hypothesis that such events have no
name.
-/

namespace Irstessi

open Interact Address

/-! ## The walks -/

/-- The four bytes at an address as a number, the lowest first. -/
def wordAt (mem : Nat → UInt8) (a : Nat) : Nat :=
  (mem a).toNat + 256 * ((mem (a + 1)).toNat + 256 * ((mem (a + 2)).toNat + 256 * (mem (a + 3)).toNat))

/-- The size of the fields `wd`, `mask`, `cookie` and `len`, in front of the name.
Source: `sizeof(inotify_event)` -/
def inotifyHeader : Nat := 16

/-- The walk gets on by at least a header, which is the measure of its recursion. -/
theorem sub_header_lt {i n : Nat} (h : i < n) (k : Nat) : n - (i + (k + inotifyHeader)) < n - i := by
  unfold inotifyHeader
  omega

section walks

variable (mem : Nat → UInt8) (buf read_count : Nat)

/-- `event->wd`, which is signed. -/
def wdAt (i : Nat) : Int :=
  if wordAt mem (buf + i) < 2147483648 then wordAt mem (buf + i)
  else (wordAt mem (buf + i) : Int) - 4294967296

/-- `event->len`. -/
def lenAt (i : Nat) : Nat := wordAt mem (buf + i + 12)

/-- Source: `ssieventmonitor.cpp` `_get_event_count` -/
def getEventCount (i : Nat) : Nat :=
  if i < read_count then getEventCount (i + (lenAt mem buf i + inotifyHeader)) + 1 else 0
termination_by read_count - i
decreasing_by exact sub_header_lt ‹_› _

/-- Of an event with number 0 the name is not passed over.
Source: `ssieventmonitor.cpp` `_handle_inotify`, `while(i < read_count)` -/
def readEventsFrom {M : Type} (watchFd : Int) (i : Nat) (s : ContainerSets M) :
    MonitorProg M (ContainerSets M) :=
  if i < read_count then
    if wdAt mem buf i = 0 then readEventsFrom watchFd (i + (0 + inotifyHeader)) s
    else if wdAt mem buf i = watchFd then do
      let _ ← execSsimsg
      let s ← readMembership s
      readEventsFrom watchFd (i + (lenAt mem buf i + inotifyHeader)) s
    else readEventsFrom watchFd (i + (lenAt mem buf i + inotifyHeader)) s
  else return s
termination_by read_count - i
decreasing_by all_goals exact sub_header_lt ‹_› _

/-- Where the walk looks for events. -/
def headers (i : Nat) : List Nat :=
  if i < read_count then
    if wdAt mem buf i = 0 then i :: headers (i + (0 + inotifyHeader))
    else i :: headers (i + (lenAt mem buf i + inotifyHeader))
  else []
termination_by read_count - i
decreasing_by all_goals exact sub_header_lt ‹_› _

end walks

/-- What is done behind `read`, by what it returns.
Source: `ssieventmonitor.cpp` `_handle_inotify` -/
def handleRead {M : Type} (mem : Nat → UInt8) (buf : Nat) (read_count : Int) (watchFd : Int)
    (s : ContainerSets M) : MonitorProg M (ContainerSets M × Int) :=
  if read_count < 0 then return (s, 1)
  else if read_count = 0 then return (s, 0)
  else if getEventCount mem buf read_count.toNat 0 < 1 then return (s, 1)
  else do
    let s ← readEventsFrom mem buf read_count.toNat watchFd 0 s
    return (s, 0)

/-! ## Events -/

/-- An event with the bytes of its name, which are filled up with NULs.
Source: `struct inotify_event` -/
structure InotifyEvent where
  wd : Int
  mask : UInt32
  cookie : UInt32
  name : List UInt8
  signed : -2 ^ 31 ≤ wd ∧ wd < 2 ^ 31
  short : name.length < 2 ^ 32

namespace InotifyEvent

/-- The word that a signed number is stored as. -/
def word (wd : Int) : UInt32 := UInt32.ofNat (wd % 2 ^ 32).toNat

/-- The bytes of an event. -/
def bytes (e : InotifyEvent) : List UInt8 :=
  wordBytes (word e.wd) ++ wordBytes e.mask ++ wordBytes e.cookie ++
    wordBytes (UInt32.ofNat e.name.length) ++ e.name

/-- An event takes up its header and its padded name. -/
theorem length_bytes (e : InotifyEvent) : e.bytes.length = e.name.length + inotifyHeader := by
  simp [bytes, wordBytes, inotifyHeader]

end InotifyEvent

/-- There are these bytes from the address on. -/
def Holds (mem : Nat → UInt8) (a : Nat) (bytes : List UInt8) : Prop :=
  block mem a bytes.length = bytes

section holds

variable {mem : Nat → UInt8} {a : Nat} {u v : List UInt8}

/-- A byte of a text that memory holds is found at its place. -/
theorem Holds.get (h : Holds mem a u) {i : Nat} (hi : i < u.length) : mem (a + i) = u[i] := by
  have hi' : i < (block mem a u.length).length := by rwa [length_block]
  rw [← getElem_block hi']
  exact List.getElem_of_eq h hi'

/-- Two texts one behind the other are held side by side. -/
theorem holds_append_iff : Holds mem a (u ++ v) ↔ Holds mem a u ∧ Holds mem (a + u.length) v := by
  have hsplit : block mem a (u ++ v).length = block mem a u.length ++ block mem (a + u.length) v.length := by
    refine List.ext_getElem (by simp) fun i hi hi' => ?_
    rw [getElem_block]
    by_cases hu : i < u.length
    · rw [List.getElem_append_left (by rwa [length_block]), getElem_block]
    · rw [List.getElem_append_right (by rw [length_block]; omega), getElem_block, length_block]
      congr 1
      omega
  unfold Holds
  rw [hsplit]
  constructor
  · intro h
    exact List.append_inj h (by rw [length_block])
  · rintro ⟨hu, hv⟩
    rw [hu, hv]

/-- The number that four bytes were stored for. -/
theorem wordAt_of_holds {w : UInt32} (h : Holds mem a (wordBytes w)) : wordAt mem a = w.toNat := by
  have hlength : (wordBytes w).length = 4 := rfl
  have h₀ : mem (a + 0) = w.toUInt8 := h.get (by omega)
  have h₁ : mem (a + 1) = (w >>> 8).toUInt8 := h.get (by omega)
  have h₂ : mem (a + 2) = (w >>> 16).toUInt8 := h.get (by omega)
  have h₃ : mem (a + 3) = (w >>> 24).toUInt8 := h.get (by omega)
  have hlt := w.toNat_lt
  have hbyte : ∀ k : UInt32, k.toNat < 32 → (w >>> k).toUInt8.toNat = w.toNat / 2 ^ k.toNat % 256 := by
    intro k hk
    rw [UInt32.toNat_toUInt8, UInt32.toNat_shiftRight, Nat.mod_eq_of_lt hk, Nat.shiftRight_eq_div_pow]
  rw [Nat.add_zero] at h₀
  unfold wordAt
  rw [h₀, h₁, h₂, h₃, UInt32.toNat_toUInt8, hbyte 8 (by decide), hbyte 16 (by decide),
    hbyte 24 (by decide)]
  have h8 : (8 : UInt32).toNat = 8 := rfl
  have h16 : (16 : UInt32).toNat = 16 := rfl
  have h24 : (24 : UInt32).toNat = 24 := rfl
  rw [h8, h16, h24]
  omega

end holds

section events

variable {mem : Nat → UInt8} {buf i : Nat} {e : InotifyEvent} {events : List InotifyEvent}

/-- The words of an event in front of its name. -/
theorem words_of_holds (h : Holds mem (buf + i) e.bytes) :
    wordAt mem (buf + i) = (e.wd % 2 ^ 32).toNat ∧ wordAt mem (buf + i + 12) = e.name.length := by
  obtain ⟨hlow, hhigh⟩ := e.signed
  have hshort := e.short
  unfold InotifyEvent.bytes at h
  simp only [holds_append_iff] at h
  obtain ⟨⟨⟨⟨hwd, -⟩, -⟩, hlen⟩, -⟩ := h
  constructor
  · rw [wordAt_of_holds hwd, InotifyEvent.word, UInt32.toNat_ofNat', Nat.mod_eq_of_lt (by omega)]
  · have hwords : (wordBytes (InotifyEvent.word e.wd) ++ wordBytes e.mask ++ wordBytes e.cookie).length =
        12 := rfl
    rw [hwords] at hlen
    rw [wordAt_of_holds hlen, UInt32.toNat_ofNat', Nat.mod_eq_of_lt hshort]

/-- Where an event lies, the four bytes of the watch number are read as its number. -/
theorem wdAt_of_holds (h : Holds mem (buf + i) e.bytes) : wdAt mem buf i = e.wd := by
  obtain ⟨hlow, hhigh⟩ := e.signed
  unfold wdAt
  rw [(words_of_holds h).1]
  split <;> omega

/-- Where an event lies, the length field is read as the length of its padded name. -/
theorem lenAt_of_holds (h : Holds mem (buf + i) e.bytes) : lenAt mem buf i = e.name.length :=
  (words_of_holds h).2

/-- The bytes of events one behind the other. -/
def eventBytes (events : List InotifyEvent) : List UInt8 := events.flatMap InotifyEvent.bytes

/-- The first event lies in front of the others. -/
theorem eventBytes_cons : eventBytes (e :: events) = e.bytes ++ eventBytes events := rfl

/-- The events end where those behind the first one do, and not where they begin. -/
theorem end_cons (i : Nat) (e : InotifyEvent) (events : List InotifyEvent) :
    i + (eventBytes (e :: events)).length = i + e.bytes.length + (eventBytes events).length ∧
      i < i + (eventBytes (e :: events)).length := by
  rw [eventBytes_cons, List.length_append, e.length_bytes, inotifyHeader]
  omega

/-- Where the events begin. -/
def starts (i : Nat) : List InotifyEvent → List Nat
  | [] => []
  | e :: events => i :: starts (i + e.bytes.length) events

/-- The first event, and the others behind it. -/
theorem holds_cons (h : Holds mem (buf + i) (eventBytes (e :: events))) :
    Holds mem (buf + i) e.bytes ∧ Holds mem (buf + (i + e.bytes.length)) (eventBytes events) := by
  rw [eventBytes_cons, holds_append_iff, Nat.add_assoc] at h
  exact h

/-- The first walk counts each event once; the induction is on the events, from any place in the
buffer. -/
theorem getEventCount_events (h : Holds mem (buf + i) (eventBytes events)) :
    getEventCount mem buf (i + (eventBytes events).length) i = events.length := by
  induction events generalizing i with
  | nil => rw [getEventCount, if_neg (by simp [eventBytes]), List.length_nil]
  | cons e events ih =>
      obtain ⟨hfirst, hrest⟩ := holds_cons h
      obtain ⟨hend, hlt⟩ := end_cons i e events
      rw [getEventCount, if_pos hlt, lenAt_of_holds hfirst, ← e.length_bytes, hend, ih hrest,
        List.length_cons]

/-- An event whose number is 0 has no name. -/
def NumberedNames (events : List InotifyEvent) : Prop := ∀ e ∈ events, e.wd = 0 → e.name = []

/-- Both ways on from an event lead to the next one. -/
theorem length_of_wd_zero (hnumbered : NumberedNames (e :: events)) (hwd : e.wd = 0) :
    0 + inotifyHeader = e.bytes.length := by
  rw [e.length_bytes, hnumbered e List.mem_cons_self hwd, List.length_nil]

/-- The second walk looks for headers where the events begin. It steps over a header only at watch
number 0, which is the same step where such events have no name. -/
theorem headers_events (hnumbered : NumberedNames events) (h : Holds mem (buf + i) (eventBytes events)) :
    headers mem buf (i + (eventBytes events).length) i = starts i events := by
  induction events generalizing i with
  | nil => rw [headers, if_neg (by simp [eventBytes]), starts]
  | cons e events ih =>
      obtain ⟨hfirst, hrest⟩ := holds_cons h
      have hlater := ih (fun e he => hnumbered e (List.mem_cons_of_mem _ he)) hrest
      obtain ⟨hend, hlt⟩ := end_cons i e events
      rw [headers, if_pos hlt, wdAt_of_holds hfirst, lenAt_of_holds hfirst, ← e.length_bytes,
        starts]
      split
      next hwd => rw [length_of_wd_zero hnumbered hwd, hend, hlater]
      next => rw [hend, hlater]

/-- The handler does on the bytes what it does on the list of watch numbers, event by event. -/
theorem readEventsFrom_events {M : Type} (watchFd : Int) (s : ContainerSets M)
    (hnumbered : NumberedNames events) (h : Holds mem (buf + i) (eventBytes events)) :
    readEventsFrom mem buf (i + (eventBytes events).length) watchFd i s =
      doReadEvents watchFd s (events.map InotifyEvent.wd) := by
  induction events generalizing i s with
  | nil => rw [readEventsFrom, if_neg (by simp [eventBytes]), List.map_nil, doReadEvents]
  | cons e events ih =>
      obtain ⟨hfirst, hrest⟩ := holds_cons h
      have hlater := fun s : ContainerSets M =>
        ih s (fun e he => hnumbered e (List.mem_cons_of_mem _ he)) hrest
      obtain ⟨hend, hlt⟩ := end_cons i e events
      rw [readEventsFrom, if_pos hlt, wdAt_of_holds hfirst, lenAt_of_holds hfirst,
        ← e.length_bytes, List.map_cons, doReadEvents]
      split
      next hwd => rw [length_of_wd_zero hnumbered hwd, hend, hlater]
      split
      next =>
        simp only [hend, hlater]
      next => rw [hend, hlater]

/-- **The walks find the events.** In a buffer with the bytes of any events the handler counts them, looks
for them where they begin, and does what it does for the list of their numbers. -/
theorem handleRead_events {M : Type} (watchFd : Int) (s : ContainerSets M)
    (hnumbered : NumberedNames events) (h : Holds mem buf (eventBytes events)) :
    getEventCount mem buf (eventBytes events).length 0 = events.length ∧
      headers mem buf (eventBytes events).length 0 = starts 0 events ∧
      handleRead mem buf (eventBytes events).length watchFd s =
        (do let s ← doReadEvents watchFd s (events.map InotifyEvent.wd); return (s, 0)) := by
  have hcount := getEventCount_events (i := 0) h
  have hheaders := headers_events (i := 0) hnumbered h
  have hread := readEventsFrom_events (i := 0) watchFd s hnumbered h
  rw [Nat.zero_add] at hcount hheaders hread
  refine ⟨hcount, hheaders, ?_⟩
  unfold handleRead
  rw [Int.toNat_natCast, hcount, hread, if_neg (by omega)]
  rcases events with _ | ⟨e, events⟩
  · have hnone : ((eventBytes []).length : Int) = 0 := rfl
    rw [if_pos hnone]
    rfl
  · have hpos := (end_cons 0 e events).2
    rw [if_neg (by omega), List.length_cons, if_neg (by omega)]

/-- A disk's link that is created, and an overflow of the queue. -/
def linkEvents : List InotifyEvent :=
  [⟨1, 0x100, 0, lit "pci-0" ++ List.replicate 11 0, by decide, by decide⟩,
    ⟨-1, 0x4000, 0, [], by decide, by decide⟩]

/-- Both are found in a buffer at the address 64. -/
theorem handleRead_events_links :
    getEventCount (fun a => (eventBytes linkEvents).getD (a - 64) 0) 64 48 0 = 2 ∧
      headers (fun a => (eventBytes linkEvents).getD (a - 64) 0) 64 48 0 = [0, 32] ∧
      handleRead (fun a => (eventBytes linkEvents).getD (a - 64) 0) 64 48 1
          (⟨fun _ => 0, true⟩ : ContainerSets Nat) =
        (do
          let s ← doReadEvents 1 (⟨fun _ => 0, true⟩ : ContainerSets Nat) [1, -1]
          return (s, 0)) := by
  have hnumbered : NumberedNames linkEvents := by
    unfold NumberedNames linkEvents
    simp
  have hholds : Holds (fun a => (eventBytes linkEvents).getD (a - 64) 0) 64 (eventBytes linkEvents) := by
    unfold Holds
    decide +kernel
  exact handleRead_events 1 ⟨fun _ => 0, true⟩ hnumbered hholds

/-- The handler is the one that is told the numbers of the events. -/
theorem handleInotify_eq {M : Type} (watchFd : Int) (s : ContainerSets M)
    (hnumbered : NumberedNames events) (h : Holds mem buf (eventBytes events))
    {env : Env MonitorCall (MonitorCall.Reply M)} {k : Nat}
    (hreply : env k .inotify = some (events.map InotifyEvent.wd)) :
    ((handleInotify watchFd s).run env k).trace =
        ⟨.inotify, some (events.map InotifyEvent.wd)⟩ ::
          ((handleRead mem buf (eventBytes events).length watchFd s).run env (k + 1)).trace ∧
      ((handleInotify watchFd s).run env k).result =
        ((handleRead mem buf (eventBytes events).length watchFd s).run env (k + 1)).result := by
  obtain ⟨-, -, hread⟩ := handleRead_events watchFd s hnumbered h
  rw [hread]
  unfold handleInotify
  rw [Prog.request_bind, Prog.run_call, hreply]
  exact ⟨rfl, rfl⟩

end events

end Irstessi
