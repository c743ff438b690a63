import Chaonet.Foundation.Traced
import Chaonet.Reactor.Channel
import Mathlib.Logic.Function.Basic

/-!
# The epoll poller

`EPoller` embeds the bookkeeping of the class: the map `channels_` from file
descriptors to channels, and next to it the kernel's epoll set behind `epollfd_`.
`epoll_ctl` fails on an `ADD` of a present descriptor and on a `MOD` or `DEL` of an
absent one; the class logs that and continues.

`Tracks` relates a channel's `index_` to both maps.  `updateChannel` and
`removeChannel` keep it without failing an assertion or an `epoll_ctl`.
-/

namespace Chaonet

open Foundation

def kNew : Int := -1
def kAdded : Int := 1
def kDeleted : Int := 2

/-- What the kernel stores for a registered descriptor. -/
structure EpollEvent where
  events : EventMask
  data : ChannelPtr
deriving DecidableEq, Repr

inductive EpollOp
  | add
  | mod
  | del
deriving DecidableEq, Repr

structure EPoller where
  channels : Int → Option ChannelPtr
  /-- The epoll set of `epollfd_`. -/
  epollSet : Int → Option EpollEvent

namespace EPoller

/-- The assertions of `updateChannel`, `removeChannel` and `fillActiveChannels`. -/
inductive Assertion
  | updateNewIsAbsent
  | updateDeletedIsPresent
  | updateDeletedIsChannel
  | updateAddedIsPresent
  | updateAddedIsChannel
  | updateIndexIsAdded
  | removeIsPresent
  | removeIsChannel
  | removeIsNoneEvent
  | removeIndex
  | removeErasedOne
  | fillFits
  | fillIsPresent
  | fillIsChannel
deriving DecidableEq, Repr

inductive Event
  | failed (a : Assertion)
  /-- The error message of `update` after a failing `epoll_ctl`. -/
  | epollCtlFailed (op : EpollOp) (fd : Int)
deriving DecidableEq, Repr

/-- `EPoller(loop)`. -/
def create : EPoller := ⟨fun _ => none, fun _ => none⟩

/-- `update(operation, channel)`: one `epoll_ctl` call. -/
def update (p : EPoller) (op : EpollOp) (c : Channel) : Traced Event EPoller :=
  let event : EpollEvent := ⟨c.events, c.ptr⟩
  match op, p.epollSet c.fd with
  | .add, none => pure { p with epollSet := Function.update p.epollSet c.fd (some event) }
  | .mod, some _ => pure { p with epollSet := Function.update p.epollSet c.fd (some event) }
  | .del, some _ => pure { p with epollSet := Function.update p.epollSet c.fd none }
  | op, _ => do
      Traced.emit (.epollCtlFailed op c.fd)
      pure p

def updateChannel (p : EPoller) (c : Channel) : Traced Event (EPoller × Channel) :=
  if c.index = kNew ∨ c.index = kDeleted then do
    let p ←
      if c.index = kNew then do
        Traced.check (.failed .updateNewIsAbsent) (p.channels c.fd = none)
        pure { p with channels := Function.update p.channels c.fd (some c.ptr) }
      else do
        Traced.check (.failed .updateDeletedIsPresent) (p.channels c.fd ≠ none)
        Traced.check (.failed .updateDeletedIsChannel) (p.channels c.fd = some c.ptr)
        pure p
    let c := { c with index := kAdded }
    let p ← p.update .add c
    pure (p, c)
  else do
    Traced.check (.failed .updateAddedIsPresent) (p.channels c.fd ≠ none)
    Traced.check (.failed .updateAddedIsChannel) (p.channels c.fd = some c.ptr)
    Traced.check (.failed .updateIndexIsAdded) (c.index = kAdded)
    if c.isNoneEvent then do
      let p ← p.update .del c
      pure (p, { c with index := kDeleted })
    else do
      let p ← p.update .mod c
      pure (p, c)

def removeChannel (p : EPoller) (c : Channel) : Traced Event (EPoller × Channel) := do
  Traced.check (.failed .removeIsPresent) (p.channels c.fd ≠ none)
  Traced.check (.failed .removeIsChannel) (p.channels c.fd = some c.ptr)
  Traced.check (.failed .removeIsNoneEvent) c.isNoneEvent
  let index := c.index
  Traced.check (.failed .removeIndex) (index = kAdded ∨ index = kDeleted)
  let n := if p.channels c.fd = none then 0 else 1
  let p := { p with channels := Function.update p.channels c.fd none }
  Traced.check (.failed .removeErasedOne) (n = 1)
  let p ← if index = kAdded then p.update .del c else pure p
  pure (p, { c with index := kNew })

/-- The loop of `fillActiveChannels` over the kernel's events. -/
def fillEach (p : EPoller) (memory : ChannelPtr → Channel) :
    List EpollEvent → Traced Event ((ChannelPtr → Channel) × List ChannelPtr)
  | [] => pure (memory, [])
  | event :: events => do
      let channel := memory event.data
      Traced.check (.failed .fillIsPresent) (p.channels channel.fd ≠ none)
      Traced.check (.failed .fillIsChannel) (p.channels channel.fd = some event.data)
      let memory := Function.update memory event.data { channel with revents := event.events }
      let r ← p.fillEach memory events
      pure (r.1, event.data :: r.2)

/-- `fillActiveChannels`: the channels that the first events of `events_` point to, with
their `revents_` set.  `size` is `events_.size()`, and `memory` holds the `Channel` objects. -/
def fillActiveChannels (p : EPoller) (size : Nat) (memory : ChannelPtr → Channel)
    (events : List EpollEvent) : Traced Event ((ChannelPtr → Channel) × List ChannelPtr) := do
  Traced.check (.failed .fillFits) (events.length ≤ size)
  p.fillEach memory events

/-- The poller changes nothing of a channel but its index. -/
theorem updateChannel_snd (p : EPoller) (c : Channel) :
    (p.updateChannel c).val.2 = { c with index := (p.updateChannel c).val.2.index } := by
  unfold updateChannel
  split_ifs <;> rfl

@[simp] theorem updateChannel_events (p : EPoller) (c : Channel) :
    (p.updateChannel c).val.2.events = c.events := by
  rw [updateChannel_snd]

theorem removeChannel_snd (p : EPoller) (c : Channel) :
    (p.removeChannel c).val.2 = { c with index := kNew } := by
  simp only [removeChannel, Traced.bind_val]
  split_ifs <;> rfl

/-! ## The bookkeeping of one channel -/

/-- The index of the channel says where its descriptor is registered. -/
inductive Tracks (p : EPoller) (c : Channel) : Prop
  | new (index : c.index = kNew) (channels : p.channels c.fd = none)
      (epollSet : p.epollSet c.fd = none)
  | added (index : c.index = kAdded) (channels : p.channels c.fd = some c.ptr)
      (epollSet : p.epollSet c.fd = some ⟨c.events, c.ptr⟩)
  | deleted (index : c.index = kDeleted) (channels : p.channels c.fd = some c.ptr)
      (epollSet : p.epollSet c.fd = none)

theorem tracks_create (ptr : ChannelPtr) (fd : Int) : create.Tracks (Channel.create ptr fd) :=
  .new rfl rfl rfl

/-- Updating a channel after a change of its interest set keeps the books, and leaves
the channel registered. -/
theorem updateChannel_tracks {p : EPoller} {c : Channel} (h : p.Tracks c) (events : EventMask) :
    let r := p.updateChannel { c with events }
    r.trace = [] ∧ r.val.1.Tracks r.val.2 ∧ r.val.2 = { c with events, index := r.val.2.index } ∧
      r.val.2.index ≠ kNew := by
  cases h with
  | new hindex hchannels hset =>
      simp only [updateChannel, hindex, true_or, if_true, hchannels]
      refine ⟨?_, .added rfl ?_ ?_, rfl, ?_⟩ <;> simp [update, hset, kAdded, kNew]
  | added hindex hchannels hset =>
      have hne : ¬(c.index = kNew ∨ c.index = kDeleted) := by
        rw [hindex]
        decide
      simp only [updateChannel, if_neg hne]
      split_ifs with hnone
      · refine ⟨?_, .deleted rfl ?_ ?_, rfl, ?_⟩ <;>
          simp [update, hset, hchannels, hindex, kDeleted, kNew]
      · refine ⟨?_, .added ?_ ?_ ?_, ?_, ?_⟩ <;>
          simp [update, hset, hchannels, hindex, kAdded, kNew]
  | deleted hindex hchannels hset =>
      have hne : c.index ≠ kNew := by
        rw [hindex]
        decide
      simp only [updateChannel, hindex, or_true, if_true]
      rw [← hindex, if_neg hne]
      refine ⟨?_, .added rfl ?_ ?_, rfl, ?_⟩ <;> simp [update, hset, hchannels, kAdded, kNew]

/-- A channel leaves the epoll set when it is watched and loses its interest. -/
theorem updateChannel_index {p : EPoller} {c : Channel} (h : p.Tracks c) (events : EventMask) :
    (p.updateChannel { c with events }).val.2.index =
      if c.index = kAdded ∧ events = kNoneEvent then kDeleted else kAdded := by
  cases h with
  | new hindex _ _ => simp [updateChannel, hindex, kNew, kAdded]
  | added hindex _ _ =>
      have hne : ¬(kAdded = kNew ∨ kAdded = kDeleted) := by decide
      by_cases hnone : events = kNoneEvent
      · simp [updateChannel, hindex, hne, Channel.isNoneEvent, hnone]
      · simp [updateChannel, hindex, hne, Channel.isNoneEvent, hnone]
  | deleted hindex _ _ =>
      have hne : ¬(kDeleted = kAdded ∧ events = kNoneEvent) := fun h => absurd h.1 (by decide)
      simp only [updateChannel, hindex, or_true, if_true]
      rw [if_neg hne]
      rfl

/-- A channel that is updated with an interest is in the epoll set with it. -/
theorem updateChannel_epollSet {p : EPoller} {c : Channel} (h : p.Tracks c) (events : EventMask)
    (hsome : events ≠ kNoneEvent) :
    (p.updateChannel { c with events }).val.1.epollSet c.fd = some ⟨events, c.ptr⟩ := by
  obtain ⟨-, htracks, hchannel, -⟩ := updateChannel_tracks h events
  have hindex := updateChannel_index h events
  rw [if_neg (fun hlost => hsome hlost.2)] at hindex
  cases htracks with
  | new hnew _ _ => simp [hindex, kAdded, kNew] at hnew
  | added _ _ hset =>
      rw [hchannel] at hset
      exact hset
  | deleted hdeleted _ _ => simp [hindex, kAdded, kDeleted] at hdeleted

/-- Removing a channel unregisters it. -/
theorem removeChannel_tracks {p : EPoller} {c : Channel} (h : p.Tracks c) :
    let r := p.removeChannel c
    r.val.1.Tracks r.val.2 ∧ r.val.2 = { c with index := kNew } := by
  cases h with
  | new hnew hchannels hset =>
      have hne : kNew ≠ kAdded := by decide
      refine ⟨.new ?_ ?_ ?_, ?_⟩ <;> simp [removeChannel, hnew, hchannels, hset, hne]
  | added hadded hchannels hset =>
      refine ⟨.new ?_ ?_ ?_, ?_⟩ <;> simp [removeChannel, update, hadded, hchannels, hset]
  | deleted hdeleted hchannels hset =>
      have hne : kDeleted ≠ kAdded := by decide
      refine ⟨.new ?_ ?_ ?_, ?_⟩ <;> simp [removeChannel, hdeleted, hchannels, hset, hne]

/-- Nothing fails when the channel is registered and has no interest left. -/
theorem removeChannel_trace {p : EPoller} {c : Channel} (h : p.Tracks c)
    (hindex : c.index ≠ kNew) (hnone : c.isNoneEvent) : (p.removeChannel c).trace = [] := by
  cases h with
  | new hnew _ _ => exact absurd hnew hindex
  | added hadded hchannels hset =>
      simp [removeChannel, update, hadded, hchannels, hset, hnone]
  | deleted hdeleted hchannels hset =>
      have hne : kDeleted ≠ kAdded := by decide
      simp [removeChannel, hdeleted, hchannels, hnone, hne]

/-! ## Other descriptors -/

section Frame

variable {p : EPoller} {c : Channel} {fd : Int}

theorem update_frame (op : EpollOp) (hne : fd ≠ c.fd) :
    (p.update op c).val.channels = p.channels ∧
      (p.update op c).val.epollSet fd = p.epollSet fd := by
  unfold update
  split
  · exact ⟨rfl, Function.update_of_ne hne _ _⟩
  · exact ⟨rfl, Function.update_of_ne hne _ _⟩
  · exact ⟨rfl, Function.update_of_ne hne _ _⟩
  · exact ⟨rfl, rfl⟩

/-- Updating a channel concerns its own descriptor only. -/
theorem updateChannel_frame (hne : fd ≠ c.fd) :
    (p.updateChannel c).val.1.channels fd = p.channels fd ∧
      (p.updateChannel c).val.1.epollSet fd = p.epollSet fd := by
  unfold updateChannel
  split_ifs with hadd hnew hnone
  · obtain ⟨hchannels, hset⟩ := update_frame
      (p := { p with channels := Function.update p.channels c.fd (some c.ptr) })
      (c := { c with index := kAdded }) .add hne
    refine ⟨?_, hset⟩
    exact (congrFun hchannels fd).trans (Function.update_of_ne hne _ _)
  · obtain ⟨hchannels, hset⟩ := update_frame (p := p) (c := { c with index := kAdded }) .add hne
    exact ⟨congrFun hchannels fd, hset⟩
  · obtain ⟨hchannels, hset⟩ := update_frame (p := p) .del hne
    exact ⟨congrFun hchannels fd, hset⟩
  · obtain ⟨hchannels, hset⟩ := update_frame (p := p) .mod hne
    exact ⟨congrFun hchannels fd, hset⟩

theorem removeChannel_frame (hne : fd ≠ c.fd) :
    (p.removeChannel c).val.1.channels fd = p.channels fd ∧
      (p.removeChannel c).val.1.epollSet fd = p.epollSet fd := by
  have hchannels : Function.update p.channels c.fd none fd = p.channels fd :=
    Function.update_of_ne hne _ _
  simp only [removeChannel, Traced.bind_val]
  split_ifs with hadded
  · obtain ⟨hsame, hset⟩ := update_frame
      (p := { p with channels := Function.update p.channels c.fd none }) (c := c) .del hne
    exact ⟨(congrFun hsame fd).trans hchannels, hset⟩
  · exact ⟨hchannels, rfl⟩

/-- What a poller knows of a channel depends on the entries at its descriptor only. -/
theorem Tracks.frame {q : EPoller} (h : p.Tracks c) (hchannels : q.channels c.fd = p.channels c.fd)
    (hset : q.epollSet c.fd = p.epollSet c.fd) : q.Tracks c := by
  cases h with
  | new hindex hnone hnone' => exact .new hindex (hchannels.trans hnone) (hset.trans hnone')
  | added hindex hsome hsome' => exact .added hindex (hchannels.trans hsome) (hset.trans hsome')
  | deleted hindex hsome hnone => exact .deleted hindex (hchannels.trans hsome) (hset.trans hnone)

/-- The mask of the last event does not matter. -/
theorem Tracks.revents (h : p.Tracks c) (revents : EventMask) : p.Tracks { c with revents } := by
  cases h with
  | new hindex hchannels hset => exact .new hindex hchannels hset
  | added hindex hchannels hset => exact .added hindex hchannels hset
  | deleted hindex hchannels hset => exact .deleted hindex hchannels hset

end Frame

/-! ## Where `isNoneEvent()` is asserted -/

@[simp] theorem failed_not_mem_update (p : EPoller) (op : EpollOp) (c : Channel) (a : Assertion) :
    .failed a ∉ (p.update op c).trace := by
  unfold update
  split <;> simp

/-- `removeChannel` asserts `isNoneEvent()` and nothing else that says so. -/
theorem removeIsNoneEvent_mem_removeChannel {p : EPoller} {c : Channel} :
    .failed .removeIsNoneEvent ∈ (p.removeChannel c).trace ↔ ¬c.isNoneEvent := by
  simp only [removeChannel, Traced.bind_trace, List.mem_append, Traced.mem_check_trace]
  by_cases hindex : c.index = kAdded <;> simp [hindex]

@[simp] theorem removeIsNoneEvent_not_mem_updateChannel (p : EPoller) (c : Channel) :
    .failed .removeIsNoneEvent ∉ (p.updateChannel c).trace := by
  unfold updateChannel
  split_ifs <;> simp [Traced.mem_check_trace]

end EPoller
end Chaonet
