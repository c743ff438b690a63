import Chaonet.Foundation.Run
import Chaonet.Reactor.EPoller
import Mathlib.Data.Set.Function

/-!
# The channels of a loop and the kernel's epoll set

`PolledChannels` is an `EPoller` together with the `Channel` objects in memory.  The
channels of a set `C`, which have distinct descriptors, change their interest and are
removed in any order, and polling reports events of registered descriptors.  `Booked` says
that the three representations agree for all of them: the index of the channel, the map
`channels_`, and the epoll set of the kernel (`books_match_kernel`).
-/

namespace Chaonet

open Foundation

/-- The member functions of a channel that end in `update()`. -/
inductive ChannelCall
  | enableReading
  | disableReading
  | enableWriting
  | disableWriting
  | disableAll
deriving DecidableEq, Repr

/-- The channel with its new interest set, before `update()`. -/
def ChannelCall.apply : ChannelCall → Channel → Channel
  | enableReading => Channel.enableReading
  | disableReading => Channel.disableReading
  | enableWriting => Channel.enableWriting
  | disableWriting => Channel.disableWriting
  | disableAll => Channel.disableAll

/-- A call changes the interest set and nothing else. -/
theorem ChannelCall.apply_eq (call : ChannelCall) (c : Channel) :
    call.apply c = { c with events := (call.apply c).events } := by
  cases call <;> rfl

/-- The new interest set depends on the old one only. -/
theorem ChannelCall.apply_events (call : ChannelCall) {c c' : Channel} (h : c.events = c'.events) :
    (call.apply c).events = (call.apply c').events := by
  cases call <;>
    simp [apply, Channel.enableReading, Channel.disableReading, Channel.enableWriting,
      Channel.disableWriting, Channel.disableAll, h]

structure PolledChannels where
  poller : EPoller
  memory : ChannelPtr → Channel
  /-- `events_.size()`. -/
  eventListSize : Nat
  /-- Which channels have been updated since their last removal. -/
  updated : ChannelPtr → Bool

namespace PolledChannels

open EPoller (Event)

inductive Label
  | update (ptr : ChannelPtr) (call : ChannelCall)
  | removeChannel (ptr : ChannelPtr)
  /-- `epoll_wait` reports these descriptors with these masks. -/
  | poll (ready : List (Int × EventMask))
deriving DecidableEq, Repr

/-- The channel a label is about. -/
def Label.channel : Label → Option ChannelPtr
  | update ptr _ => some ptr
  | removeChannel ptr => some ptr
  | poll _ => none

def update (s : PolledChannels) (ptr : ChannelPtr) (call : ChannelCall) :
    Traced Event PolledChannels := do
  let r ← s.poller.updateChannel (call.apply (s.memory ptr))
  pure { s with
    poller := r.1
    memory := Function.update s.memory ptr r.2
    updated := Function.update s.updated ptr true }

def removeChannel (s : PolledChannels) (ptr : ChannelPtr) : Traced Event PolledChannels := do
  let r ← s.poller.removeChannel (s.memory ptr)
  pure { s with
    poller := r.1
    memory := Function.update s.memory ptr r.2
    updated := Function.update s.updated ptr false }

/-- The events the kernel makes of what is ready, each with the data of its registration. -/
def reported (s : PolledChannels) (ready : List (Int × EventMask)) : List EpollEvent :=
  ready.filterMap fun r => (s.poller.epollSet r.1).map fun e => ⟨r.2, e.data⟩

/-- `EPoller::poll`, which makes room for more events when `events_` was full. -/
def poll (s : PolledChannels) (ready : List (Int × EventMask)) :
    Traced Event PolledChannels := do
  let r ← s.poller.fillActiveChannels s.eventListSize s.memory (s.reported ready)
  let size := s.eventListSize
  pure { s with
    memory := r.1
    eventListSize := if (s.reported ready).length = size then size * 2 else size }

/-- The enabled steps: a channel is removed only if it was updated since its last removal
and has no interest, and `epoll_wait` reports no more events than there is room for. -/
def step (s : PolledChannels) : Label → Option (Traced Event PolledChannels)
  | .update ptr call => some (s.update ptr call)
  | .removeChannel ptr =>
      if s.updated ptr = true ∧ (s.memory ptr).isNoneEvent then some (s.removeChannel ptr)
      else none
  | .poll ready =>
      if (s.reported ready).length ≤ s.eventListSize then some (s.poll ready) else none

def Step : PolledChannels → Label → List Event → PolledChannels → Prop := stepOf step

def kInitEventListSize : Nat := 16

/-- New channels with the descriptors `fd`. -/
def start (fd : ChannelPtr → Int) : PolledChannels :=
  { poller := .create
    memory := fun ptr => Channel.create ptr (fd ptr)
    eventListSize := kInitEventListSize
    updated := fun _ => false }

/-- All labels are about channels of `C`. -/
def Within (C : Set ChannelPtr) (_ : PolledChannels) (l : Label) : Prop :=
  ∀ ptr ∈ l.channel, ptr ∈ C

instance (C : Set ChannelPtr) [∀ ptr, Decidable (ptr ∈ C)] (s : PolledChannels) (l : Label) :
    Decidable (Within C s l) :=
  decidable_of_iff (l.channel.all (· ∈ C) = true) (by simp [Within, Option.all_eq_true])

/-! ## The books -/

/-- The poller knows each channel of `C`, and nothing else is registered. -/
structure Booked (fd : ChannelPtr → Int) (C : Set ChannelPtr) (s : PolledChannels) : Prop where
  placed : Channel.Placed fd s.memory
  tracks : ∀ p ∈ C, s.poller.Tracks (s.memory p)
  updated : ∀ p ∈ C, s.updated p = true ↔ (s.memory p).index ≠ kNew
  registered : ∀ i, s.poller.epollSet i ≠ none → ∃ p ∈ C, fd p = i

variable {fd : ChannelPtr → Int} {C : Set ChannelPtr} {s t : PolledChannels} {es : List Event}

theorem Booked.start (fd : ChannelPtr → Int) (C : Set ChannelPtr) : Booked fd C (start fd) :=
  ⟨.create fd, fun p _ => EPoller.tracks_create p (fd p),
    fun p _ => by simp [PolledChannels.start, Channel.create, kNew],
    fun i hi => absurd rfl hi⟩

/-- Replacing one channel and the books at its descriptor. -/
theorem Booked.replace (h : Booked fd C s) (hinj : Set.InjOn fd C) {ptr : ChannelPtr}
    (hmem : ptr ∈ C) {poller : EPoller} {c : Channel} {updated : Bool} (hptr : c.ptr = ptr)
    (hfd : c.fd = fd ptr) (htracks : poller.Tracks c) (hupdated : updated = true ↔ c.index ≠ kNew)
    (hframe : ∀ i, i ≠ fd ptr → poller.channels i = s.poller.channels i ∧
      poller.epollSet i = s.poller.epollSet i) :
    Booked fd C
      { s with
        poller
        memory := Function.update s.memory ptr c
        updated := Function.update s.updated ptr updated } := by
  constructor
  case placed => exact h.placed.update hptr hfd
  case tracks =>
    intro p hpC
    by_cases hp : p = ptr
    · subst hp
      simpa using htracks
    · have hne : fd p ≠ fd ptr := fun heq => hp (hinj hpC hmem heq)
      obtain ⟨hchannels, hset⟩ := hframe (fd p) hne
      have hold := (h.tracks p hpC).frame (q := poller) (by rw [h.placed.fd]; exact hchannels)
        (by rw [h.placed.fd]; exact hset)
      simpa [hp] using hold
  case updated =>
    intro p hpC
    by_cases hp : p = ptr
    · subst hp
      simpa using hupdated
    · simpa [hp] using h.updated p hpC
  case registered =>
    intro i hi
    by_cases heq : i = fd ptr
    · exact ⟨ptr, hmem, heq.symm⟩
    · exact h.registered i (by rwa [← (hframe i heq).2])

theorem Booked.update (h : Booked fd C s) (hinj : Set.InjOn fd C) {ptr : ChannelPtr}
    (hmem : ptr ∈ C) (call : ChannelCall) :
    Booked fd C (s.update ptr call).val ∧ (s.update ptr call).trace = [] := by
  obtain ⟨htrace, htracks, hchannel, hindex⟩ :=
    EPoller.updateChannel_tracks (h.tracks ptr hmem) (call.apply (s.memory ptr)).events
  rw [← call.apply_eq] at htrace htracks hchannel hindex
  constructor
  · have hptr : (s.poller.updateChannel (call.apply (s.memory ptr))).val.2.ptr = ptr := by
      rw [hchannel]
      exact h.placed.ptr ptr
    have hfd : (s.poller.updateChannel (call.apply (s.memory ptr))).val.2.fd = fd ptr := by
      rw [hchannel]
      exact h.placed.fd ptr
    refine h.replace hinj hmem hptr hfd htracks (by simp [hindex]) fun i hi => ?_
    apply EPoller.updateChannel_frame
    rw [call.apply_eq]
    rwa [h.placed.fd]
  · simpa [PolledChannels.update] using htrace

theorem Booked.removeChannel (h : Booked fd C s) (hinj : Set.InjOn fd C) {ptr : ChannelPtr}
    (hmem : ptr ∈ C) (hupdated : s.updated ptr = true) (hnone : (s.memory ptr).isNoneEvent) :
    Booked fd C (s.removeChannel ptr).val ∧ (s.removeChannel ptr).trace = [] := by
  have hindex : (s.memory ptr).index ≠ kNew := (h.updated ptr hmem).mp hupdated
  obtain ⟨htracks, hchannel⟩ := EPoller.removeChannel_tracks (h.tracks ptr hmem)
  have htrace := EPoller.removeChannel_trace (h.tracks ptr hmem) hindex hnone
  constructor
  · have hptr : (s.poller.removeChannel (s.memory ptr)).val.2.ptr = ptr := by
      rw [hchannel]
      exact h.placed.ptr ptr
    have hfd : (s.poller.removeChannel (s.memory ptr)).val.2.fd = fd ptr := by
      rw [hchannel]
      exact h.placed.fd ptr
    refine h.replace hinj hmem hptr hfd htracks (by simp [hchannel]) fun i hi => ?_
    apply EPoller.removeChannel_frame
    rwa [h.placed.fd]
  · simpa [PolledChannels.removeChannel] using htrace

/-- What the kernel reports points to a channel of `C` that is in `channels_`. -/
theorem Booked.reported (h : Booked fd C s) {ready : List (Int × EventMask)} {event : EpollEvent}
    (hevent : event ∈ s.reported ready) :
    event.data ∈ C ∧ s.poller.channels (fd event.data) = some event.data := by
  obtain ⟨⟨i, mask⟩, -, heq⟩ := List.mem_filterMap.mp hevent
  obtain ⟨e, he, rfl⟩ := Option.map_eq_some_iff.mp heq
  have he : s.poller.epollSet i = some e := he
  obtain ⟨p, hp, rfl⟩ := h.registered i (by simp [he])
  cases h.tracks p hp with
  | new _ _ hnone =>
      rw [h.placed.fd] at hnone
      simp [hnone] at he
  | added _ hchannels hset =>
      rw [h.placed.fd, h.placed.ptr] at hchannels hset
      obtain rfl := Option.some.inj (hset.symm.trans he)
      exact ⟨hp, hchannels⟩
  | deleted _ _ hnone =>
      rw [h.placed.fd] at hnone
      simp [hnone] at he

/-- Filling in the active channels fails no assertion and changes `revents_` only. -/
theorem fillEach_spec {p : EPoller} (events : List EpollEvent)
    (memory : ChannelPtr → Channel) (hfd : ∀ q, (memory q).fd = fd q)
    (hevents : ∀ e ∈ events, p.channels (fd e.data) = some e.data) :
    (p.fillEach memory events).trace = [] ∧
      ∀ q, ∃ revents, (p.fillEach memory events).val.1 q = { memory q with revents } := by
  induction events generalizing memory with
  | nil => exact ⟨rfl, fun q => ⟨(memory q).revents, rfl⟩⟩
  | cons event events ih =>
      have hfound := hevents event List.mem_cons_self
      rw [← hfd] at hfound
      obtain ⟨htrace, hmemory⟩ := ih
        (Function.update memory event.data { memory event.data with revents := event.events })
        (fun q => by
          by_cases hq : q = event.data
          · subst hq
            simp [hfd]
          · simp [hq, hfd])
        (fun e he => hevents e (List.mem_cons_of_mem _ he))
      constructor
      · simp [EPoller.fillEach, hfound, htrace]
      · intro q
        obtain ⟨revents, hq⟩ := hmemory q
        by_cases heq : q = event.data
        · subst heq
          exact ⟨revents, by simpa [EPoller.fillEach] using hq⟩
        · exact ⟨revents, by simpa [EPoller.fillEach, heq] using hq⟩

theorem Booked.poll (h : Booked fd C s) {ready : List (Int × EventMask)}
    (hroom : (s.reported ready).length ≤ s.eventListSize) :
    Booked fd C (s.poll ready).val ∧ (s.poll ready).trace = [] := by
  obtain ⟨htrace, hmemory⟩ := fillEach_spec (p := s.poller) (s.reported ready) s.memory
    h.placed.fd (fun e he => (h.reported he).2)
  have hval : ∀ q, ∃ revents, (s.poll ready).val.memory q = { s.memory q with revents } := hmemory
  constructor
  · constructor
    case placed =>
      constructor
      · intro p
        obtain ⟨revents, hp⟩ := hval p
        rw [hp]
        exact h.placed.ptr p
      · intro p
        obtain ⟨revents, hp⟩ := hval p
        rw [hp]
        exact h.placed.fd p
    case tracks =>
      intro p hp
      obtain ⟨revents, heq⟩ := hval p
      rw [heq]
      exact (h.tracks p hp).revents revents
    case updated =>
      intro p hp
      obtain ⟨revents, heq⟩ := hval p
      rw [heq]
      exact h.updated p hp
    case registered => exact h.registered
  · simpa [PolledChannels.poll, EPoller.fillActiveChannels, hroom] using htrace

theorem Booked.step (h : Booked fd C s) (hinj : Set.InjOn fd C) {l : Label}
    (hwithin : Within C s l) (hstep : Step s l es t) : Booked fd C t ∧ es = [] := by
  cases l with
  | update ptr call =>
      obtain ⟨rfl, rfl⟩ := Traced.mk.inj (Option.some.inj hstep)
      exact h.update hinj (hwithin ptr rfl) call
  | removeChannel ptr =>
      simp only [Step, stepOf, PolledChannels.step] at hstep
      split_ifs at hstep with hguard
      obtain ⟨rfl, rfl⟩ := Traced.mk.inj (Option.some.inj hstep)
      exact h.removeChannel hinj (hwithin ptr rfl) hguard.1 hguard.2
  | poll ready =>
      simp only [Step, stepOf, PolledChannels.step] at hstep
      split_ifs at hstep with hroom
      obtain ⟨rfl, rfl⟩ := Traced.mk.inj (Option.some.inj hstep)
      exact h.poll hroom

theorem booked_of_run (hinj : Set.InjOn fd C) {ls : List Label}
    (h : Run (restrict (Within C) Step) (start fd) ls es s) : Booked fd C s ∧ es = [] :=
  h.history (I := fun es s => Booked fd C s ∧ es = []) [] ⟨Booked.start fd C, rfl⟩
    (fun _ _ _ _ _ ⟨hbooked, hpast⟩ ⟨hwithin, hstep⟩ => by
      obtain ⟨hnext, hes⟩ := hbooked.step hinj hwithin hstep
      exact ⟨hnext, by rw [hpast, hes, List.append_nil]⟩)

/-- **The poller's books match the kernel**: after every run of the channels of `C`, whose
descriptors are distinct, each of them is in `channels_` exactly if its index is `kAdded` or
`kDeleted`, and in the epoll set, with its own mask and address, exactly if its index is
`kAdded`.  No assertion and no `epoll_ctl` has failed. -/
theorem books_match_kernel (hinj : Set.InjOn fd C) {ls : List Label}
    (h : Run (restrict (Within C) Step) (start fd) ls es s) :
    (∀ p ∈ C,
      (s.poller.channels (fd p) = some p ↔
        (s.memory p).index = kAdded ∨ (s.memory p).index = kDeleted) ∧
      (s.poller.epollSet (fd p) ≠ none ↔ (s.memory p).index = kAdded) ∧
      ∀ e, s.poller.epollSet (fd p) = some e → e = ⟨(s.memory p).events, p⟩) ∧
    es = [] := by
  obtain ⟨hbooked, hes⟩ := booked_of_run hinj h
  refine ⟨fun p hp => ?_, hes⟩
  cases hbooked.tracks p hp with
  | new hindex hchannels hset =>
      rw [hbooked.placed.fd] at hchannels hset
      rw [hchannels, hset, hindex]
      refine ⟨by simp [kNew, kAdded, kDeleted], by simp [kNew, kAdded], by simp⟩
  | added hindex hchannels hset =>
      rw [hbooked.placed.fd, hbooked.placed.ptr] at hchannels hset
      rw [hchannels, hset, hindex]
      refine ⟨by simp, by simp, fun e he => (Option.some.inj he).symm⟩
  | deleted hindex hchannels hset =>
      rw [hbooked.placed.fd] at hchannels hset
      rw [hbooked.placed.ptr] at hchannels
      rw [hchannels, hset, hindex]
      refine ⟨by simp, by simp [kAdded, kDeleted], by simp⟩

theorem injOn_add_ten (C : Set ChannelPtr) :
    Set.InjOn (fun p : ChannelPtr => (p : Int) + 10) C := by
  intro p _ q _ heq
  have heq : (p : Int) + 10 = (q : Int) + 10 := heq
  exact Int.ofNat_inj.mp ((Int.add_left_inj 10).mp heq)

/-- Two channels; one of them loses its interest, is removed, and comes back. -/
def comeBack : List Label :=
  [.update 1 .enableReading, .update 2 .enableWriting, .update 1 .disableAll, .removeChannel 1,
    .update 1 .enableWriting, .poll [(11, POLLOUT), (12, POLLOUT)]]

instance (p : ChannelPtr) : Decidable (p ∈ ({1, 2} : Set ChannelPtr)) :=
  inferInstanceAs (Decidable (p = 1 ∨ p = 2))

theorem books_match_kernel_comeBack :
    ∃ es s, Run (restrict (Within {1, 2}) Step) (start fun p => p + 10) comeBack es s ∧
      (s.memory 1).index = kAdded ∧
      (∀ p ∈ ({1, 2} : Set ChannelPtr),
        (s.poller.channels (p + 10) = some p ↔
          (s.memory p).index = kAdded ∨ (s.memory p).index = kDeleted) ∧
        (s.poller.epollSet (p + 10) ≠ none ↔ (s.memory p).index = kAdded) ∧
        ∀ e, s.poller.epollSet (p + 10) = some e → e = ⟨(s.memory p).events, p⟩) ∧
      es = [] := by
  obtain ⟨es, s, hrun, hindex⟩ : ∃ es s,
      Run (restrict (Within {1, 2}) Step) (start fun p => p + 10) comeBack es s ∧
        (s.memory 1).index = kAdded := Run.exists_of_exec_guarded _ (by decide +kernel)
  exact ⟨es, s, hrun, hindex, books_match_kernel (injOn_add_ten _) hrun⟩

end PolledChannels
end Chaonet
