import Mathlib.Logic.Function.Basic
import Mathlib.Tactic.Common

/-!
# Channels

A `Channel` ties a file descriptor to an interest set.  Event masks are the 32-bit
`int` values of `poll(2)`.  The member functions that change the interest set all end
in `update()`, which the owner of the channel forwards to its poller; the embedding
here stops at the new mask.
-/

namespace Chaonet

/-- The `int` event masks of `poll(2)` and `epoll(7)`. -/
abbrev EventMask := BitVec 32

def POLLIN : EventMask := 0x001
def POLLPRI : EventMask := 0x002
def POLLOUT : EventMask := 0x004
def POLLERR : EventMask := 0x008
def POLLHUP : EventMask := 0x010
def POLLNVAL : EventMask := 0x020
def POLLRDHUP : EventMask := 0x2000

def kNoneEvent : EventMask := 0
def kReadEvent : EventMask := POLLIN ||| POLLPRI
def kWriteEvent : EventMask := POLLOUT

/-- The address of a `Channel` object. -/
abbrev ChannelPtr := Nat

structure Channel where
  /-- The address of this object. -/
  ptr : ChannelPtr
  fd : Int
  events : EventMask
  revents : EventMask
  index : Int
deriving DecidableEq, Repr

/-- The callbacks `handleEvent` can run. -/
inductive ChannelCallback
  | closeCallback
  | errorCallback
  | readCallback
  | writeCallback
deriving DecidableEq, Repr

namespace Channel

/-- `Channel(loop, fd)` at address `ptr`. -/
def create (ptr : ChannelPtr) (fd : Int) : Channel :=
  { ptr, fd, events := 0, revents := 0, index := -1 }

def isNoneEvent (c : Channel) : Prop := c.events = kNoneEvent

def isWriting (c : Channel) : Prop := c.events &&& kWriteEvent ≠ 0

def isReading (c : Channel) : Prop := c.events &&& kReadEvent ≠ 0

instance (c : Channel) : Decidable c.isNoneEvent := inferInstanceAs (Decidable (_ = _))
instance (c : Channel) : Decidable c.isWriting := inferInstanceAs (Decidable (_ ≠ _))
instance (c : Channel) : Decidable c.isReading := inferInstanceAs (Decidable (_ ≠ _))

/-- The new interest set of each of the five members that change it. -/
def enableReading (c : Channel) : Channel := { c with events := c.events ||| kReadEvent }

def disableReading (c : Channel) : Channel := { c with events := c.events &&& ~~~kReadEvent }

def enableWriting (c : Channel) : Channel := { c with events := c.events ||| kWriteEvent }

def disableWriting (c : Channel) : Channel := { c with events := c.events &&& ~~~kWriteEvent }

def disableAll (c : Channel) : Channel := { c with events := kNoneEvent }

/-- The callbacks `handleEvent` runs for the mask `revents_`, in order; no callback
changes `revents_`, so the tests can be made in advance. -/
def handleEvent (c : Channel) : List ChannelCallback :=
  (if c.revents &&& POLLHUP ≠ 0 ∧ c.revents &&& POLLIN = 0 then [.closeCallback] else []) ++
  (if c.revents &&& (POLLERR ||| POLLNVAL) ≠ 0 then [.errorCallback] else []) ++
  (if c.revents &&& (POLLIN ||| POLLPRI ||| POLLRDHUP) ≠ 0 then [.readCallback] else []) ++
  (if c.revents &&& POLLOUT ≠ 0 then [.writeCallback] else [])

/-! ## The handlers of one event -/

theorem closeCallback_mem_handleEvent {c : Channel} :
    .closeCallback ∈ c.handleEvent ↔ c.revents &&& POLLHUP ≠ 0 ∧ c.revents &&& POLLIN = 0 := by
  unfold handleEvent
  split_ifs <;> simp_all

theorem readCallback_mem_handleEvent {c : Channel} :
    .readCallback ∈ c.handleEvent ↔ c.revents &&& (POLLIN ||| POLLPRI ||| POLLRDHUP) ≠ 0 := by
  unfold handleEvent
  split_ifs <;> simp_all

/-- No handler runs twice for one event. -/
theorem nodup_handleEvent (c : Channel) : c.handleEvent.Nodup := by
  unfold handleEvent
  split_ifs <;> decide

/-- The write handler is the last one. -/
theorem writeCallback_not_mem_dropLast (c : Channel) : .writeCallback ∉ c.handleEvent.dropLast := by
  unfold handleEvent
  split_ifs <;> decide

/-! ## Channels in memory -/

/-- Every address holds the channel of that address, with its descriptor. -/
structure Placed (fd : ChannelPtr → Int) (memory : ChannelPtr → Channel) : Prop where
  ptr : ∀ q, (memory q).ptr = q
  fd : ∀ q, (memory q).fd = fd q

theorem Placed.create (fd : ChannelPtr → Int) :
    Placed fd (fun ptr => Channel.create ptr (fd ptr)) :=
  ⟨fun _ => rfl, fun _ => rfl⟩

theorem Placed.update {fd : ChannelPtr → Int} {memory : ChannelPtr → Channel}
    (h : Placed fd memory) {ptr : ChannelPtr} {c : Channel} (hptr : c.ptr = ptr)
    (hfd : c.fd = fd ptr) : Placed fd (Function.update memory ptr c) := by
  constructor
  case ptr =>
    intro q
    by_cases hq : q = ptr
    · subst hq
      simpa using hptr
    · simpa [hq] using h.ptr q
  case fd =>
    intro q
    by_cases hq : q = ptr
    · subst hq
      simpa using hfd
    · simpa [hq] using h.fd q

/-! ## The interest set as two independent switches -/

section Masks

variable {w : Nat} {x m n : BitVec w}

theorem or_and_cancel : (x ||| m) &&& m = m := by
  ext i
  simp only [BitVec.getElem_and, BitVec.getElem_or]
  cases x[i] <;> cases m[i] <;> rfl

theorem and_not_and_cancel : (x &&& ~~~m) &&& m = 0 := by
  ext i
  simp only [BitVec.getElem_and, BitVec.getElem_not]
  cases x[i] <;> cases m[i] <;> simp

/-- Setting bits outside `n` does not show through `n`. -/
theorem or_and_of_disjoint (h : m &&& n = 0) : (x ||| m) &&& n = x &&& n := by
  ext i hi
  have hbit : (m[i] && n[i]) = false := by
    rw [← BitVec.getElem_and, h]
    simp
  simp only [BitVec.getElem_and, BitVec.getElem_or]
  revert hbit
  cases x[i] <;> cases m[i] <;> cases n[i] <;> simp

/-- Clearing bits outside `n` does not show through `n`. -/
theorem and_not_and_of_disjoint (h : m &&& n = 0) : (x &&& ~~~m) &&& n = x &&& n := by
  ext i hi
  have hbit : (m[i] && n[i]) = false := by
    rw [← BitVec.getElem_and, h]
    simp
  simp only [BitVec.getElem_and, BitVec.getElem_not]
  revert hbit
  cases x[i] <;> cases m[i] <;> cases n[i] <;> simp

/-- What is within `m` does not show through `n`. -/
theorem and_eq_zero_of_within (h : x &&& ~~~m = 0) (hmn : m &&& n = 0) : x &&& n = 0 := by
  ext i hi
  have hbit : (x[i] && !m[i]) = false := by
    rw [← BitVec.getElem_not, ← BitVec.getElem_and, h]
    simp
  have hbit' : (m[i] && n[i]) = false := by
    rw [← BitVec.getElem_and, hmn]
    simp
  simp only [BitVec.getElem_and]
  revert hbit hbit'
  cases x[i] <;> cases m[i] <;> cases n[i] <;> simp

end Masks

@[simp] theorem isWriting_enableWriting (c : Channel) : c.enableWriting.isWriting := by
  rw [isWriting, enableWriting, or_and_cancel]
  decide

@[simp] theorem isWriting_disableWriting (c : Channel) : ¬c.disableWriting.isWriting := by
  simp [isWriting, disableWriting, and_not_and_cancel]

@[simp] theorem isWriting_enableReading (c : Channel) :
    c.enableReading.isWriting ↔ c.isWriting := by
  rw [isWriting, enableReading, or_and_of_disjoint (by decide), isWriting]

@[simp] theorem isWriting_disableReading (c : Channel) :
    c.disableReading.isWriting ↔ c.isWriting := by
  rw [isWriting, disableReading, and_not_and_of_disjoint (by decide), isWriting]

@[simp] theorem isReading_enableReading (c : Channel) : c.enableReading.isReading := by
  rw [isReading, enableReading, or_and_cancel]
  decide

@[simp] theorem isReading_enableWriting (c : Channel) :
    c.enableWriting.isReading ↔ c.isReading := by
  rw [isReading, enableWriting, or_and_of_disjoint (by decide), isReading]

@[simp] theorem isReading_disableWriting (c : Channel) :
    c.disableWriting.isReading ↔ c.isReading := by
  rw [isReading, disableWriting, and_not_and_of_disjoint (by decide), isReading]

@[simp] theorem isNoneEvent_disableAll (c : Channel) : c.disableAll.isNoneEvent := rfl

/-- No interest means neither switch is on. -/
theorem not_isWriting_of_isNoneEvent {c : Channel} (h : c.isNoneEvent) : ¬c.isWriting := by
  have hevents : c.events = 0 := h
  simp [isWriting, hevents]

theorem not_isNoneEvent_of_isReading {c : Channel} (h : c.isReading) : c.events ≠ kNoneEvent := by
  intro hnone
  simp [isReading, hnone, kNoneEvent] at h

theorem isNoneEvent_disableReading {c : Channel} (h : c.isNoneEvent) :
    c.disableReading.isNoneEvent := by
  have hevents : c.events = 0 := h
  simp [isNoneEvent, disableReading, hevents, kNoneEvent]

/-! ## The masks a channel can have -/

/-- The interest sets that the five members can build. -/
inductive Mask : EventMask → Prop
  | none : Mask kNoneEvent
  | read : Mask kReadEvent
  | write : Mask kWriteEvent
  | both : Mask (kReadEvent ||| kWriteEvent)

variable {c : Channel}

theorem Mask.enableReading (h : Mask c.events) : Mask c.enableReading.events := by
  generalize hevents : c.events = events at h
  rw [Channel.enableReading, hevents]
  cases h with
  | none => exact .read
  | read => exact .read
  | write => exact .both
  | both => exact .both

theorem Mask.disableReading (h : Mask c.events) : Mask c.disableReading.events := by
  generalize hevents : c.events = events at h
  rw [Channel.disableReading, hevents]
  cases h with
  | none => exact .none
  | read => exact .none
  | write => exact .write
  | both => exact .write

theorem Mask.enableWriting (h : Mask c.events) : Mask c.enableWriting.events := by
  generalize hevents : c.events = events at h
  rw [Channel.enableWriting, hevents]
  cases h with
  | none => exact .write
  | read => exact .both
  | write => exact .write
  | both => exact .both

theorem Mask.disableWriting (h : Mask c.events) : Mask c.disableWriting.events := by
  generalize hevents : c.events = events at h
  rw [Channel.disableWriting, hevents]
  cases h with
  | none => exact .none
  | read => exact .read
  | write => exact .none
  | both => exact .read

end Channel
end Chaonet
