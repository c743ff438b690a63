import Chaonet.Foundation.SwapRemove
import Chaonet.Foundation.Traced
import Chaonet.Reactor.Channel
import Mathlib.Data.Set.Function

/-!
# The `poll(2)` poller

`Poller` embeds the bookkeeping of the class: the vector `pollfds_`, in which the index of
a channel is its position, and the map `channels_`.  An entry whose channel has no interest
keeps its place with the negative descriptor `-fd - 1`, which `poll(2)` ignores.
-/

namespace Chaonet

open Foundation

/-- `struct pollfd`. -/
structure PollFd where
  fd : Int
  events : BitVec 16
  revents : BitVec 16
deriving DecidableEq, Repr, Inhabited

/-- `events` as an `int`. -/
def PollFd.mask (pfd : PollFd) : EventMask := pfd.events.signExtend 32

structure Poller where
  pollfds : List PollFd
  channels : Int → Option ChannelPtr

namespace Poller

/-- The assertions of `updateChannel` and `removeChannel`, in source order. -/
inductive Assertion
  | updateNewIsAbsent
  | updateIsPresent
  | updateIsChannel
  | updateIndex
  | updateEntry
  | removeIsPresent
  | removeIsChannel
  | removeIsNoneEvent
  | removeIndex
  | removeEntry
  | removeErasedOne
deriving DecidableEq, Repr

inductive Event
  | failed (a : Assertion)
  /-- `channels_[channelAtEnd]` is null. -/
  | nullChannel
deriving DecidableEq, Repr

/-- `Poller(loop)`. -/
def create : Poller := ⟨[], fun _ => none⟩

/-- The descriptor of an ignored entry. -/
def ignored (fd : Int) : Int := -fd - 1

def updateChannel (p : Poller) (c : Channel) : Traced Event (Poller × Channel) :=
  if c.index < 0 then do
    Traced.check (.failed .updateNewIsAbsent) (p.channels c.fd = none)
    let pfd : PollFd := { fd := c.fd, events := c.events.setWidth 16, revents := 0 }
    let pollfds := p.pollfds ++ [pfd]
    let idx : Int := pollfds.length - 1
    let channels := Function.update p.channels c.fd (some c.ptr)
    pure ({ pollfds, channels }, { c with index := idx })
  else do
    Traced.check (.failed .updateIsPresent) (p.channels c.fd ≠ none)
    Traced.check (.failed .updateIsChannel) (p.channels c.fd = some c.ptr)
    let idx := c.index.toNat
    Traced.check (.failed .updateIndex) (idx < p.pollfds.length)
    let pfd := p.pollfds.getD idx default
    Traced.check (.failed .updateEntry) (pfd.fd = c.fd ∨ pfd.fd = ignored c.fd)
    let pfd := { pfd with events := c.events.setWidth 16, revents := 0 }
    -- An entry that was ignored stays ignored when the interest comes back.
    let pfd := if c.isNoneEvent then { pfd with fd := ignored c.fd } else pfd
    pure ({ p with pollfds := p.pollfds.set idx pfd }, c)

/-- `channels_[fd]->set_index(idx)`. -/
def setIndex (channels : Int → Option ChannelPtr) (memory : ChannelPtr → Channel) (fd : Int)
    (idx : Nat) : Traced Event (ChannelPtr → Channel) :=
  match channels fd with
  | some q => pure (Function.update memory q { memory q with index := idx })
  | none => do
      Traced.emit .nullChannel
      pure memory

/-- `removeChannel(channel)` for the channel at `ptr`; `memory` holds the `Channel` objects. -/
def removeChannel (p : Poller) (memory : ChannelPtr → Channel) (ptr : ChannelPtr) :
    Traced Event (Poller × (ChannelPtr → Channel)) := do
  let c := memory ptr
  Traced.check (.failed .removeIsPresent) (p.channels c.fd ≠ none)
  Traced.check (.failed .removeIsChannel) (p.channels c.fd = some c.ptr)
  Traced.check (.failed .removeIsNoneEvent) c.isNoneEvent
  let idx := c.index.toNat
  Traced.check (.failed .removeIndex) (0 ≤ c.index ∧ idx < p.pollfds.length)
  let pfd := p.pollfds.getD idx default
  Traced.check (.failed .removeEntry) (pfd.fd = ignored c.fd ∧ pfd.mask = c.events)
  let n := if p.channels c.fd = none then 0 else 1
  let channels := Function.update p.channels c.fd none
  Traced.check (.failed .removeErasedOne) (n = 1)
  if idx + 1 = p.pollfds.length then
    pure ({ pollfds := p.pollfds.dropLast, channels }, memory)
  else
    let back := p.pollfds.getLastD default
    let channelAtEnd := if back.fd < 0 then ignored back.fd else back.fd
    let swapped := (p.pollfds.set idx back).set (p.pollfds.length - 1) pfd
    let memory ← setIndex channels memory channelAtEnd idx
    pure ({ pollfds := swapped.dropLast, channels }, memory)

/-- The poller changes nothing of a channel but its index. -/
@[simp] theorem updateChannel_events (p : Poller) (c : Channel) :
    (p.updateChannel c).val.2.events = c.events := by
  unfold updateChannel
  split_ifs <;> rfl

@[simp] theorem ignored_ignored (fd : Int) : ignored (ignored fd) = fd := by
  simp only [ignored]
  omega

/-- Both ways of removing an entry leave the same vector and map. -/
theorem removeChannel_poller (p : Poller) (memory : ChannelPtr → Channel) (ptr : ChannelPtr) :
    (p.removeChannel memory ptr).val.1 =
      { pollfds := swapRemove p.pollfds (memory ptr).index.toNat
        channels := Function.update p.channels (memory ptr).fd none } := by
  by_cases hend : (memory ptr).index.toNat + 1 = p.pollfds.length
  · simp [removeChannel, hend, swapRemove_end]
  · cases hlast : p.pollfds.getLast? with
    | none =>
        obtain hnil : p.pollfds = [] := by simpa using hlast
        simp [removeChannel, hnil, swapRemove]
    | some back =>
        simp [removeChannel, hend, List.getLastD_eq_getLast?, hlast, dropLast_swap]

/-! ## The table of the registered channels -/

/-- The entry of a channel shows its interest set, and is ignored if that is empty. -/
structure Entry (c : Channel) (pfd : PollFd) : Prop where
  fd : pfd.fd = if c.isNoneEvent then ignored c.fd else c.fd
  events : pfd.events = c.events.setWidth 16

/-- What an entry shows of its channel even if the interest has come back: it may still be
ignored then. -/
structure Loose (c : Channel) (pfd : PollFd) : Prop where
  fd : pfd.fd = c.fd ∨ pfd.fd = ignored c.fd
  isNoneEvent : c.isNoneEvent → pfd.fd = ignored c.fd
  events : pfd.events = c.events.setWidth 16

/-- The channels of `C` with `registered` are in the map and have their entries, to which they are
related by `E`, and there are no other entries. -/
structure Table (E : Channel → PollFd → Prop) (p : Poller) (memory : ChannelPtr → Channel)
    (fd : ChannelPtr → Int) (C : Set ChannelPtr) (registered : ChannelPtr → Bool) : Prop where
  placed : Channel.Placed fd memory
  channels : ∀ q ∈ C, p.channels (fd q) = if registered q then some q else none
  entry : ∀ q ∈ C, registered q = true →
    ∃ (i : Nat) (pfd : PollFd), (memory q).index = i ∧ p.pollfds[i]? = some pfd ∧
      E (memory q) pfd
  owner : ∀ (i : Nat) (pfd : PollFd), p.pollfds[i]? = some pfd →
    ∃ q ∈ C, registered q = true ∧ (memory q).index = i

/-- The table whose entries are ignored exactly if there is no interest. -/
abbrev Files (p : Poller) (memory : ChannelPtr → Channel) (fd : ChannelPtr → Int)
    (C : Set ChannelPtr) (registered : ChannelPtr → Bool) : Prop :=
  p.Table Entry memory fd C registered

/-- The relation shows what the assertions test, and nothing of the index. -/
structure Fits (E : Channel → PollFd → Prop) : Prop where
  loose : ∀ {c pfd}, E c pfd → Loose c pfd
  index : ∀ {c pfd} index, E c pfd → E { c with index } pfd

variable {p : Poller} {memory : ChannelPtr → Channel} {fd : ChannelPtr → Int}
  {C : Set ChannelPtr} {registered : ChannelPtr → Bool} {c : Channel} {pfd : PollFd}
  {E : Channel → PollFd → Prop}

theorem fits_loose : Fits Loose :=
  ⟨id, fun _ h => ⟨h.fd, h.isNoneEvent, h.events⟩⟩

theorem Entry.loose (h : Entry c pfd) : Loose c pfd := by
  constructor
  case fd =>
    rw [h.fd]
    split_ifs
    · exact Or.inr rfl
    · exact Or.inl rfl
  case isNoneEvent => exact fun hnone => by rw [h.fd, if_pos hnone]
  case events => exact h.events

theorem fits_entry : Fits Entry :=
  ⟨Entry.loose, fun _ h => ⟨h.fd, h.events⟩⟩

/-- The descriptor of the channel can be read off its entry. -/
theorem Loose.descriptor (h : Loose c pfd) (hpos : 0 ≤ c.fd) :
    (if pfd.fd < 0 then ignored pfd.fd else pfd.fd) = c.fd := by
  rcases h.fd with hfd | hfd
  · rw [hfd, if_neg (by omega)]
  · have hneg : ignored c.fd < 0 := by
      unfold ignored
      omega
    rw [hfd, if_pos hneg, ignored_ignored]

/-- Two registered channels have different positions. -/
theorem Table.injective (h : p.Table E memory fd C registered) (hfits : Fits E)
    (hinj : Set.InjOn fd C) (hpos : ∀ q ∈ C, 0 ≤ fd q) {q r : ChannelPtr} (hq : q ∈ C) (hr : r ∈ C)
    (hregq : registered q = true) (hregr : registered r = true)
    (hindex : (memory q).index = (memory r).index) : q = r := by
  obtain ⟨i, pfd, hi, hpfd, hentry⟩ := h.entry q hq hregq
  obtain ⟨j, pfd', hj, hpfd', hentry'⟩ := h.entry r hr hregr
  obtain rfl : i = j := by
    rw [hi, hj] at hindex
    exact Int.ofNat_inj.mp hindex
  obtain rfl := Option.some.inj (hpfd.symm.trans hpfd')
  apply hinj hq hr
  have hdescriptor := (hfits.loose hentry).descriptor (by rw [h.placed.fd]; exact hpos q hq)
  rw [(hfits.loose hentry').descriptor (by rw [h.placed.fd]; exact hpos r hr)] at hdescriptor
  rw [← h.placed.fd q, ← h.placed.fd r, hdescriptor]

/-- Replacing one registered channel and its entry. -/
theorem Table.replace (h : p.Table E memory fd C registered) (hfits : Fits E)
    (hinj : Set.InjOn fd C) (hpos : ∀ q ∈ C, 0 ≤ fd q) {ptr : ChannelPtr} (hmem : ptr ∈ C)
    (hreg : registered ptr = true)
    {i : Nat} (hindex : (memory ptr).index = i) (hlt : i < p.pollfds.length) {events : EventMask}
    (hentry : E { memory ptr with events } pfd) :
    Table E { p with pollfds := p.pollfds.set i pfd }
      (Function.update memory ptr { memory ptr with events }) fd C registered := by
  constructor
  case placed => exact h.placed.update (h.placed.ptr ptr) (h.placed.fd ptr)
  case channels => exact h.channels
  case entry =>
    intro q hqC hregq
    by_cases hq : q = ptr
    · subst hq
      exact ⟨i, pfd, by simpa using hindex, List.getElem?_set_self hlt, by simpa using hentry⟩
    · obtain ⟨j, pfd', hj, hpfd', hentry'⟩ := h.entry q hqC hregq
      have hne : i ≠ j := by
        rintro rfl
        exact hq (h.injective hfits hinj hpos hqC hmem hregq hreg (hj.trans hindex.symm))
      refine ⟨j, pfd', by simpa [hq] using hj, ?_, by simpa [hq] using hentry'⟩
      rw [List.getElem?_set_ne hne]
      exact hpfd'
  case owner =>
    intro j pfd' hpfd'
    by_cases hj : i = j
    · subst hj
      exact ⟨ptr, hmem, hreg, by simpa using hindex⟩
    · rw [List.getElem?_set_ne hj] at hpfd'
      obtain ⟨q, hq, hregq, hqj⟩ := h.owner j pfd' hpfd'
      have hne : q ≠ ptr := by
        rintro rfl
        exact hj (Int.ofNat_inj.mp (hindex.symm.trans hqj))
      exact ⟨q, hq, hregq, by simpa [hne] using hqj⟩

/-- The first update of a channel adds its entry. -/
theorem Table.add (h : p.Table E memory fd C registered) (hinj : Set.InjOn fd C) {ptr : ChannelPtr}
    (hmem : ptr ∈ C) (hreg : registered ptr = false) (hnew : (memory ptr).index < 0)
    {events : EventMask} (hentry : E { memory ptr with events, index := (p.pollfds.length : Int) }
      { fd := fd ptr, events := events.setWidth 16, revents := 0 }) :
    let r := p.updateChannel { memory ptr with events }
    r.val.1.Table E (Function.update memory ptr r.val.2) fd C
      (Function.update registered ptr true) ∧ r.trace = [] := by
  have habsent : p.channels (fd ptr) = none := by
    rw [h.channels ptr hmem, hreg]
    rfl
  have hupdate : p.updateChannel { memory ptr with events } =
      pure ({ pollfds := p.pollfds ++ [{ fd := fd ptr, events := events.setWidth 16, revents := 0 }]
              channels := Function.update p.channels (fd ptr) (some ptr) },
        { memory ptr with events, index := (p.pollfds.length : Int) }) := by
    simp [updateChannel, hnew, Traced.check_of habsent, h.placed.fd, h.placed.ptr]
  simp only [hupdate, Traced.pure_val, Traced.pure_trace, and_true]
  constructor
  case placed => exact h.placed.update (h.placed.ptr ptr) (h.placed.fd ptr)
  case channels =>
    intro q hq
    by_cases heq : q = ptr
    · subst heq
      simp
    · have hne : fd q ≠ fd ptr := fun hfd => heq (hinj hq hmem hfd)
      simpa [heq, hne] using h.channels q hq
  case entry =>
    intro q hq hregq
    by_cases heq : q = ptr
    · subst heq
      exact ⟨p.pollfds.length, _, by simp, List.getElem?_concat_length .., by simpa using hentry⟩
    · obtain ⟨i, pfd, hi, hpfd, hentry⟩ := h.entry q hq (by simpa [heq] using hregq)
      have hlt := (List.getElem?_eq_some_iff.mp hpfd).1
      refine ⟨i, pfd, by simpa [heq] using hi, ?_, by simpa [heq] using hentry⟩
      rw [List.getElem?_append_left hlt]
      exact hpfd
  case owner =>
    intro i pfd hpfd
    by_cases hlt : i < p.pollfds.length
    · rw [List.getElem?_append_left hlt] at hpfd
      obtain ⟨q, hq, hregq, hi⟩ := h.owner i pfd hpfd
      have hne : q ≠ ptr := by
        rintro rfl
        simp [hreg] at hregq
      exact ⟨q, hq, by simpa [hne] using hregq, by simpa [hne] using hi⟩
    · have hle := (List.getElem?_eq_some_iff.mp hpfd).1
      obtain rfl : i = p.pollfds.length := by
        rw [List.length_append, List.length_singleton] at hle
        omega
      exact ⟨ptr, hmem, by simp, by simp⟩

/-- The entry after an update: it becomes ignored when the interest goes, and keeps its
descriptor otherwise. -/
def PollFd.update (pfd : PollFd) (fd : Int) (events : EventMask) : PollFd :=
  { fd := if events = kNoneEvent then ignored fd else pfd.fd
    events := events.setWidth 16
    revents := 0 }

/-- Updating a registered channel fails no assertion. -/
theorem Table.updateChannel (h : p.Table E memory fd C registered) {ptr : ChannelPtr}
    (hmem : ptr ∈ C) (hreg : registered ptr = true) (events : EventMask) {i : Nat}
    (hi : (memory ptr).index = i) (hpfd : p.pollfds[i]? = some pfd)
    (hentry : Loose (memory ptr) pfd) :
    p.updateChannel { memory ptr with events } =
      pure ({ p with pollfds := p.pollfds.set i (PollFd.update pfd (fd ptr) events) },
        { memory ptr with events }) := by
  obtain ⟨hlt, hget⟩ := List.getElem?_eq_some_iff.mp hpfd
  have hpresent : p.channels (fd ptr) = some ptr := by
    rw [h.channels ptr hmem, if_pos hreg]
  have hfd : pfd.fd = fd ptr ∨ pfd.fd = ignored (fd ptr) := by
    rw [← h.placed.fd ptr]
    exact hentry.fd
  have hnew : ¬(memory ptr).index < 0 := by omega
  have hidx : (memory ptr).index.toNat = i := by omega
  by_cases hnone : events = kNoneEvent
  · simp [Poller.updateChannel, hnew, hidx, h.placed.fd, h.placed.ptr, hpresent, hget, hlt, hfd,
      Channel.isNoneEvent, Traced.check_of, PollFd.update, hnone]
  · simp [Poller.updateChannel, hnew, hidx, h.placed.fd, h.placed.ptr, hpresent, hget, hlt, hfd,
      Channel.isNoneEvent, Traced.check_of, PollFd.update, hnone]

/-- What an updated entry shows of its channel. -/
theorem Loose.update (h : Loose c pfd) (events : EventMask) :
    Loose { c with events } (PollFd.update pfd c.fd events) := by
  constructor
  case fd =>
    simp only [PollFd.update]
    split_ifs
    · exact Or.inr rfl
    · exact h.fd
  case isNoneEvent => exact fun hnone => if_pos hnone
  case events => rfl

/-- An update of a registered channel replaces its entry. -/
theorem Table.change (h : p.Table E memory fd C registered) (hfits : Fits E)
    (hinj : Set.InjOn fd C) (hpos : ∀ q ∈ C, 0 ≤ fd q) {ptr : ChannelPtr} (hmem : ptr ∈ C)
    (hreg : registered ptr = true) {events : EventMask}
    (hentry : ∀ pfd, E (memory ptr) pfd →
      E { memory ptr with events } (PollFd.update pfd (fd ptr) events)) :
    let r := p.updateChannel { memory ptr with events }
    r.val.1.Table E (Function.update memory ptr r.val.2) fd C registered ∧ r.trace = [] := by
  obtain ⟨i, pfd, hi, hpfd, hold⟩ := h.entry ptr hmem hreg
  have hlt := (List.getElem?_eq_some_iff.mp hpfd).1
  simp only [h.updateChannel hmem hreg events hi hpfd (hfits.loose hold), Traced.pure_val,
    Traced.pure_trace]
  exact ⟨h.replace hfits hinj hpos hmem hreg hi hlt (hentry pfd hold), trivial⟩

/-- The channels after the entry at `i` was removed: that of the last entry has moved there. -/
structure Moved (p : Poller) (memory memory' : ChannelPtr → Channel) (C : Set ChannelPtr)
    (registered : ChannelPtr → Bool) (i : Nat) : Prop where
  index_only : ∀ q, ∃ index, memory' q = { memory q with index }
  unregistered : ∀ q, registered q = false → memory' q = memory q
  last : ∀ q ∈ C, registered q = true → (memory q).index + 1 = p.pollfds.length →
    (memory' q).index = i
  other : ∀ q ∈ C, registered q = true → (memory q).index + 1 ≠ p.pollfds.length →
    (memory' q).index = (memory q).index

/-- Removing a registered channel without interest fails no assertion. -/
theorem Table.removeChannel (h : p.Table E memory fd C registered) (hfits : Fits E)
    (hinj : Set.InjOn fd C) (hpos : ∀ q ∈ C, 0 ≤ fd q) {ptr : ChannelPtr} (hmem : ptr ∈ C)
    (hreg : registered ptr = true) {i : Nat} (hi : (memory ptr).index = i)
    (hnone : (memory ptr).isNoneEvent) :
    (p.removeChannel memory ptr).trace = [] ∧
      p.Moved memory (p.removeChannel memory ptr).val.2 C registered i := by
  obtain ⟨j, pfd, hj, hpfd, hentry⟩ := h.entry ptr hmem hreg
  obtain rfl : i = j := Int.ofNat_inj.mp (hi.symm.trans hj)
  obtain ⟨hlt, hget⟩ := List.getElem?_eq_some_iff.mp hpfd
  have hpresent : p.channels (fd ptr) = some ptr := by
    rw [h.channels ptr hmem, if_pos hreg]
  have hfd : pfd.fd = ignored (fd ptr) := by
    rw [(hfits.loose hentry).isNoneEvent hnone, h.placed.fd]
  have hmask : pfd.mask = (memory ptr).events := by
    have hevents : (memory ptr).events = 0 := hnone
    rw [PollFd.mask, (hfits.loose hentry).events, hevents]
    decide
  by_cases hend : i + 1 = p.pollfds.length
  · -- The entry is the last one, and no other channel moves.
    have hremove : (p.removeChannel memory ptr).trace = [] ∧
        (p.removeChannel memory ptr).val.2 = memory := by
      simp [Poller.removeChannel, h.placed.fd, h.placed.ptr, hpresent, hnone, hi, hget, hlt, hfd,
        hmask, hend, Traced.check_of]
    rw [hremove.2]
    refine ⟨hremove.1, fun q => ⟨(memory q).index, rfl⟩, fun _ _ => rfl,
      fun q hq hregq hlast => ?_, fun _ _ _ _ => rfl⟩
    omega
  · -- The last entry belongs to another channel, which is told its new position.
    obtain ⟨back, hback⟩ : ∃ back, p.pollfds[p.pollfds.length - 1]? = some back :=
      ⟨_, List.getElem?_eq_getElem (by omega)⟩
    obtain ⟨r, hr, hregr, hindex⟩ := h.owner _ back hback
    obtain ⟨k, back', hk, hback', hentry'⟩ := h.entry r hr hregr
    obtain rfl : p.pollfds.length - 1 = k := Int.ofNat_inj.mp (hindex.symm.trans hk)
    obtain rfl := Option.some.inj (hback.symm.trans hback')
    have hne : r ≠ ptr := by
      rintro rfl
      omega
    have hfdne : fd r ≠ fd ptr := fun heq => hne (hinj hr hmem heq)
    have hchannelAtEnd : (if back.fd < 0 then ignored back.fd else back.fd) = fd r := by
      rw [(hfits.loose hentry').descriptor (by rw [h.placed.fd]; exact hpos r hr), h.placed.fd]
    have hfound : p.channels (fd r) = some r := by
      rw [h.channels r hr, if_pos hregr]
    have hgetLast : p.pollfds.getLast? = some back := by
      rw [List.getLast?_eq_getElem?, hback]
    have hremove : (p.removeChannel memory ptr).trace = [] ∧
        (p.removeChannel memory ptr).val.2 =
          Function.update memory r { memory r with index := i } := by
      simp [Poller.removeChannel, setIndex, h.placed.fd, h.placed.ptr, hpresent, hnone, hi, hget,
        hlt, hfd, hmask, hend, Traced.check_of, hgetLast, hchannelAtEnd, hfdne, hfound]
    rw [hremove.2]
    refine ⟨hremove.1, ?_, ?_, ?_, ?_⟩
    · intro q
      by_cases hq : q = r
      · subst hq
        exact ⟨i, by simp⟩
      · exact ⟨(memory q).index, by simp [hq]⟩
    · intro q hnot
      have hqr : q ≠ r := by
        rintro rfl
        simp [hregr] at hnot
      simp [hqr]
    · intro q hq hregq hlast
      obtain rfl : q = r := h.injective hfits hinj hpos hq hr hregq hregr (by omega)
      simp
    · intro q hq hregq hother
      have hqr : q ≠ r := by
        rintro rfl
        omega
      simp [hqr]

/-- The removal of a channel without interest keeps the table of the others. -/
theorem Table.remove (h : p.Table E memory fd C registered) (hfits : Fits E)
    (hinj : Set.InjOn fd C) (hpos : ∀ q ∈ C, 0 ≤ fd q) {ptr : ChannelPtr} (hmem : ptr ∈ C)
    (hreg : registered ptr = true) (hnone : (memory ptr).isNoneEvent) :
    let r := p.removeChannel memory ptr
    r.val.1.Table E r.val.2 fd C (Function.update registered ptr false) ∧ r.trace = [] ∧
      (∀ q, ∃ index, r.val.2 q = { memory q with index }) ∧
      ∀ q, registered q = false → r.val.2 q = memory q := by
  obtain ⟨i, pfd, hi, hpfd, -⟩ := h.entry ptr hmem hreg
  have hlt := (List.getElem?_eq_some_iff.mp hpfd).1
  obtain ⟨htrace, hmoved⟩ := h.removeChannel hfits hinj hpos hmem hreg hi hnone
  refine ⟨?_, htrace, hmoved.index_only, hmoved.unregistered⟩
  have hidx : (memory ptr).index.toNat = i := by omega
  rw [removeChannel_poller, hidx, h.placed.fd]
  generalize (p.removeChannel memory ptr).val.2 = memory' at hmoved
  -- Another channel does not have the position of the removed one.
  have hapart (q : ChannelPtr) (hq : q ∈ C) (hregq : registered q = true) (hne : q ≠ ptr) :
      (memory q).index ≠ i := fun hqi =>
    hne (h.injective hfits hinj hpos hq hmem hregq hreg (hqi.trans hi.symm))
  constructor
  case placed =>
    constructor
    · intro q
      obtain ⟨index, hq⟩ := hmoved.index_only q
      rw [hq]
      exact h.placed.ptr q
    · intro q
      obtain ⟨index, hq⟩ := hmoved.index_only q
      rw [hq]
      exact h.placed.fd q
  case channels =>
    intro q hq
    by_cases heq : q = ptr
    · subst heq
      simp
    · have hne : fd q ≠ fd ptr := fun hfd => heq (hinj hq hmem hfd)
      simpa [heq, hne] using h.channels q hq
  case entry =>
    intro q hq hregq
    have hne : q ≠ ptr := by
      rintro rfl
      simp at hregq
    have hregq : registered q = true := by simpa [hne] using hregq
    obtain ⟨j, pfd', hj, hpfd', hentry'⟩ := h.entry q hq hregq
    have hji : (j : Int) ≠ i := hj ▸ hapart q hq hregq hne
    have hjlt := (List.getElem?_eq_some_iff.mp hpfd').1
    have hentry : E (memory' q) pfd' := by
      obtain ⟨index, heq⟩ := hmoved.index_only q
      rw [heq]
      exact hfits.index index hentry'
    by_cases hlast : j + 1 = p.pollfds.length
    · refine ⟨i, pfd', hmoved.last q hq hregq (by omega), ?_, hentry⟩
      rw [getElem?_swapRemove hlt, if_pos (by omega), if_pos rfl, ← hpfd']
      congr 1
      omega
    · refine ⟨j, pfd', (hmoved.other q hq hregq (by omega)).trans hj, ?_, hentry⟩
      rw [getElem?_swapRemove hlt, if_pos (by omega), if_neg (by omega)]
      exact hpfd'
  case owner =>
    intro j pfd' hpfd'
    rw [getElem?_swapRemove hlt] at hpfd'
    split_ifs at hpfd' with hj hji
    · subst hji
      obtain ⟨q, hq, hregq, hindex⟩ := h.owner _ pfd' hpfd'
      have hne : q ≠ ptr := by
        rintro rfl
        omega
      exact ⟨q, hq, by simpa [hne] using hregq, hmoved.last q hq hregq (by omega)⟩
    · obtain ⟨q, hq, hregq, hindex⟩ := h.owner j pfd' hpfd'
      have hne : q ≠ ptr := by
        rintro rfl
        omega
      exact ⟨q, hq, by simpa [hne] using hregq,
        (hmoved.other q hq hregq (by omega)).trans hindex⟩

/-! ## Entries that are ignored exactly when there is no interest -/

/-- The first update of a channel, with an interest, files it. -/
theorem Files.add (h : p.Files memory fd C registered) (hinj : Set.InjOn fd C) {ptr : ChannelPtr}
    (hmem : ptr ∈ C) (hreg : registered ptr = false) (hnew : (memory ptr).index < 0)
    {events : EventMask} (hsome : events ≠ kNoneEvent) :
    let r := p.updateChannel { memory ptr with events }
    r.val.1.Files (Function.update memory ptr r.val.2) fd C (Function.update registered ptr true) ∧
      r.trace = [] := by
  refine Table.add h hinj hmem hreg hnew ⟨?_, rfl⟩
  simp [Channel.isNoneEvent, hsome, h.placed.fd]

/-- An update that does not bring an interest back keeps the table. -/
theorem Files.change (h : p.Files memory fd C registered) (hinj : Set.InjOn fd C)
    (hpos : ∀ q ∈ C, 0 ≤ fd q) {ptr : ChannelPtr} (hmem : ptr ∈ C) (hreg : registered ptr = true)
    {events : EventMask} (hkeep : (memory ptr).isNoneEvent → events = kNoneEvent) :
    let r := p.updateChannel { memory ptr with events }
    r.val.1.Files (Function.update memory ptr r.val.2) fd C registered ∧ r.trace = [] := by
  refine Table.change h fits_entry hinj hpos hmem hreg fun pfd hentry => ⟨?_, rfl⟩
  by_cases hnone : events = kNoneEvent
  · simp [PollFd.update, Channel.isNoneEvent, hnone, h.placed.fd]
  · have hold : ¬(memory ptr).events = kNoneEvent := fun hold => hnone (hkeep hold)
    simp [PollFd.update, Channel.isNoneEvent, hnone, hentry.fd, hold]

/-- An update that brings an interest back leaves no entry that is watched for the channel. -/
theorem Files.stays_ignored (h : p.Files memory fd C registered) (hinj : Set.InjOn fd C)
    (hpos : ∀ q ∈ C, 0 ≤ fd q) {ptr : ChannelPtr} (hmem : ptr ∈ C) (hreg : registered ptr = true)
    (hnone : (memory ptr).isNoneEvent) (events : EventMask) :
    ∀ pfd ∈ (p.updateChannel { memory ptr with events }).val.1.pollfds, pfd.fd ≠ fd ptr := by
  obtain ⟨i, pfd, hi, hpfd, hentry⟩ := h.entry ptr hmem hreg
  have hlt := (List.getElem?_eq_some_iff.mp hpfd).1
  have hignored : (PollFd.update pfd (fd ptr) events).fd = ignored (fd ptr) := by
    simp [PollFd.update, hentry.fd, hnone, h.placed.fd]
  rw [Table.updateChannel h hmem hreg events hi hpfd hentry.loose]
  intro pfd' hpfd' heq
  have hvisible := hpos ptr hmem
  obtain ⟨j, hj⟩ := List.mem_iff_getElem?.mp hpfd'
  simp only [Traced.pure_val] at hj
  by_cases hji : i = j
  · subst hji
    rw [List.getElem?_set_self hlt] at hj
    obtain rfl := Option.some.inj hj
    rw [hignored, ignored] at heq
    omega
  · rw [List.getElem?_set_ne hji] at hj
    obtain ⟨q, hq, hregq, hqj⟩ := h.owner j pfd' hj
    obtain ⟨k, pfd'', hk, hpfd'', hentry'⟩ := h.entry q hq hregq
    obtain rfl : j = k := Int.ofNat_inj.mp (hqj.symm.trans hk)
    obtain rfl := Option.some.inj (hj.symm.trans hpfd'')
    have hfd := hentry'.loose.descriptor (by rw [h.placed.fd]; exact hpos q hq)
    rw [heq, if_neg (by omega), h.placed.fd] at hfd
    obtain rfl := hinj hmem hq hfd
    exact hji (Int.ofNat_inj.mp (hi.symm.trans hqj))

/-- The removal of a channel without interest keeps the files of the others. -/
theorem Files.remove (h : p.Files memory fd C registered) (hinj : Set.InjOn fd C)
    (hpos : ∀ q ∈ C, 0 ≤ fd q) {ptr : ChannelPtr} (hmem : ptr ∈ C) (hreg : registered ptr = true)
    (hnone : (memory ptr).isNoneEvent) :
    let r := p.removeChannel memory ptr
    r.val.1.Files r.val.2 fd C (Function.update registered ptr false) ∧ r.trace = [] ∧
      (∀ q, ∃ index, r.val.2 q = { memory q with index }) ∧
      ∀ q, registered q = false → r.val.2 q = memory q := by
  exact Table.remove h fits_entry hinj hpos hmem hreg hnone

end Poller
end Chaonet
