import Chaonet.Reactor.PolledChannels

/-!
# Channels without interest

`EPoller::updateChannel` takes a channel that has lost its interest out of the epoll set, but
only if its index is `kAdded`.  A channel that is new or was taken out before is added, with
whatever mask it has.  So the set holds exactly the channels with an interest until a call
leaves a channel without interest that had none before (`watches_interested_iff`).
-/

namespace Chaonet

open Foundation

namespace PolledChannels

open EPoller (Event)

/-- The channel is in the epoll set. -/
def Watched (s : PolledChannels) (p : ChannelPtr) : Prop :=
  ∃ e, s.poller.epollSet (s.memory p).fd = some e ∧ e.data = p

/-- Of the channels of `C`, exactly those with an interest are in the epoll set. -/
def WatchesInterested (C : Set ChannelPtr) (s : PolledChannels) : Prop :=
  ∀ p ∈ C, s.Watched p ↔ ¬(s.memory p).isNoneEvent

/-- A call that leaves a channel without interest is made only while it has one. -/
def LosesOnce (s : PolledChannels) : Label → Prop
  | .update ptr call => (call.apply (s.memory ptr)).isNoneEvent → ¬(s.memory ptr).isNoneEvent
  | _ => True

instance (s : PolledChannels) : ∀ l, Decidable (s.LosesOnce l)
  | .update _ _ => inferInstanceAs (Decidable (_ → _))
  | .removeChannel _ | .poll _ => .isTrue trivial

/-- Such calls on channels of `C`. -/
def Loses (C : Set ChannelPtr) (s : PolledChannels) (l : Label) : Prop :=
  Within C s l ∧ s.LosesOnce l

instance (C : Set ChannelPtr) [∀ ptr, Decidable (ptr ∈ C)] (s : PolledChannels) (l : Label) :
    Decidable (Loses C s l) :=
  inferInstanceAs (Decidable (_ ∧ _))

variable {fd : ChannelPtr → Int} {C : Set ChannelPtr} {s t : PolledChannels} {es : List Event}
  {l : Label}

/-- A channel is in the epoll set exactly if its index says so. -/
theorem Booked.watched_iff (h : Booked fd C s) {p : ChannelPtr} (hp : p ∈ C) :
    s.Watched p ↔ (s.memory p).index = kAdded := by
  unfold Watched
  cases h.tracks p hp with
  | new hindex _ hset =>
      rw [hset, hindex]
      simp [kNew, kAdded]
  | added hindex _ hset =>
      rw [hset, hindex, h.placed.ptr]
      simp
  | deleted hindex _ hset =>
      rw [hset, hindex]
      simp [kDeleted, kAdded]

/-- An updated channel is in the epoll set unless it was there before and has lost its
interest. -/
theorem Booked.index_update (h : Booked fd C s) {ptr : ChannelPtr} (hmem : ptr ∈ C)
    (call : ChannelCall) :
    ((s.update ptr call).val.memory ptr).index = kAdded ↔
      ¬((s.memory ptr).index = kAdded ∧ (call.apply (s.memory ptr)).isNoneEvent) := by
  have hindex := EPoller.updateChannel_index (h.tracks ptr hmem) (call.apply (s.memory ptr)).events
  rw [← call.apply_eq] at hindex
  have hmemory : ((s.update ptr call).val.memory ptr).index =
      (s.poller.updateChannel (call.apply (s.memory ptr))).val.2.index := by
    simp [PolledChannels.update]
  rw [hmemory, hindex, Channel.isNoneEvent]
  split_ifs with hlost
  · exact iff_of_false (by decide) (not_not.mpr hlost)
  · exact iff_of_true rfl hlost

theorem isNoneEvent_update (s : PolledChannels) (ptr : ChannelPtr) (call : ChannelCall) :
    ((s.update ptr call).val.memory ptr).isNoneEvent ↔
      (call.apply (s.memory ptr)).isNoneEvent := by
  simp [PolledChannels.update, Channel.isNoneEvent]

/-- The update of one channel keeps the set exactly if the channel loses its interest once. -/
theorem WatchesInterested.update_iff (hwatches : s.WatchesInterested C) (h : Booked fd C s)
    (hinj : Set.InjOn fd C) {ptr : ChannelPtr} (hmem : ptr ∈ C) (call : ChannelCall) :
    (s.update ptr call).val.WatchesInterested C ↔ s.LosesOnce (.update ptr call) := by
  obtain ⟨hafter, -⟩ := h.update hinj hmem call
  have hother (q : ChannelPtr) (hq : q ∈ C) (hne : q ≠ ptr) :
      (s.update ptr call).val.Watched q ↔ ¬((s.update ptr call).val.memory q).isNoneEvent := by
    have hsame : (s.update ptr call).val.memory q = s.memory q := by
      simp [PolledChannels.update, hne]
    rw [hafter.watched_iff hq, hsame, ← h.watched_iff hq]
    exact hwatches q hq
  have hptr : (s.update ptr call).val.Watched ptr ↔
      ¬((call.apply (s.memory ptr)).isNoneEvent ∧ ¬(s.memory ptr).isNoneEvent) := by
    have hbefore := hwatches ptr hmem
    rw [h.watched_iff hmem] at hbefore
    rw [hafter.watched_iff hmem, h.index_update hmem call, hbefore, and_comm]
  constructor
  · intro hwatches' hnone hbefore
    have hinset := hptr.mpr fun hlost => hlost.2 hbefore
    have hinterest := (hwatches' ptr hmem).mp hinset
    rw [isNoneEvent_update] at hinterest
    exact hinterest hnone
  · intro hloses q hq
    by_cases heq : q = ptr
    · subst heq
      rw [hptr, isNoneEvent_update]
      constructor
      · intro hnot hnone
        exact hnot ⟨hnone, hloses hnone⟩
      · intro hsome hlost
        exact hsome hlost.1
    · exact hother q hq heq

theorem WatchesInterested.removeChannel (hwatches : s.WatchesInterested C) (h : Booked fd C s)
    (hinj : Set.InjOn fd C) {ptr : ChannelPtr} (hmem : ptr ∈ C) (hupdated : s.updated ptr = true)
    (hnone : (s.memory ptr).isNoneEvent) : (s.removeChannel ptr).val.WatchesInterested C := by
  obtain ⟨hafter, -⟩ := h.removeChannel hinj hmem hupdated hnone
  intro q hq
  by_cases heq : q = ptr
  · -- A removed channel is in neither map, and has no interest.
    subst heq
    obtain ⟨-, hchannel⟩ := EPoller.removeChannel_tracks (h.tracks q hq)
    have hremoved : (s.removeChannel q).val.memory q = { s.memory q with index := kNew } := by
      simp [PolledChannels.removeChannel, hchannel]
    have hnone : (s.memory q).events = kNoneEvent := hnone
    rw [hafter.watched_iff hq, hremoved]
    simp [Channel.isNoneEvent, hnone, kNew, kAdded]
  · have hsame : (s.removeChannel ptr).val.memory q = s.memory q := by
      simp [PolledChannels.removeChannel, heq]
    rw [hafter.watched_iff hq, hsame, ← h.watched_iff hq]
    exact hwatches q hq

/-- What is reported does not change which channels are watched. -/
theorem WatchesInterested.poll (hwatches : s.WatchesInterested C) (h : Booked fd C s)
    {ready : List (Int × EventMask)} (hroom : (s.reported ready).length ≤ s.eventListSize) :
    (s.poll ready).val.WatchesInterested C := by
  obtain ⟨hafter, -⟩ := h.poll hroom
  obtain ⟨-, hmemory⟩ := fillEach_spec (p := s.poller) (s.reported ready) s.memory
    h.placed.fd (fun e he => (h.reported he).2)
  intro q hq
  obtain ⟨revents, heq⟩ := hmemory q
  have hsame : (s.poll ready).val.memory q = { s.memory q with revents } := heq
  rw [hafter.watched_iff hq, hsame]
  exact (h.watched_iff hq).symm.trans (hwatches q hq)

/-- One step keeps the set exactly if no interest is lost twice. -/
theorem WatchesInterested.step_iff (hwatches : s.WatchesInterested C) (h : Booked fd C s)
    (hinj : Set.InjOn fd C) (hwithin : Within C s l) (hstep : Step s l es t) :
    t.WatchesInterested C ↔ s.LosesOnce l := by
  cases l with
  | update ptr call =>
      obtain ⟨rfl, rfl⟩ := Traced.mk.inj (Option.some.inj hstep)
      exact hwatches.update_iff h hinj (hwithin ptr rfl) call
  | removeChannel ptr =>
      simp only [Step, stepOf, PolledChannels.step] at hstep
      split_ifs at hstep with hguard
      obtain ⟨rfl, rfl⟩ := Traced.mk.inj (Option.some.inj hstep)
      exact iff_of_true (hwatches.removeChannel h hinj (hwithin ptr rfl) hguard.1 hguard.2) trivial
  | poll ready =>
      simp only [Step, stepOf, PolledChannels.step] at hstep
      split_ifs at hstep with hroom
      obtain ⟨rfl, rfl⟩ := Traced.mk.inj (Option.some.inj hstep)
      exact iff_of_true (hwatches.poll h hroom) trivial

theorem WatchesInterested.start (fd : ChannelPtr → Int) (C : Set ChannelPtr) :
    (start fd).WatchesInterested C := by
  intro p hp
  rw [(Booked.start fd C).watched_iff hp]
  simp [PolledChannels.start, Channel.create, Channel.isNoneEvent, kNoneEvent, kAdded]

/-- **When the epoll set holds exactly the channels with an interest**: after every run in
which no interest is lost twice; and after one more step exactly if it is not lost twice
there either. -/
theorem watches_interested_iff (hinj : Set.InjOn fd C) {ls : List Label} {es' : List Event}
    (h : Run (restrict (Loses C) Step) (start fd) ls es s) (hwithin : Within C s l)
    (hstep : Step s l es' t) :
    s.WatchesInterested C ∧ (t.WatchesInterested C ↔ s.LosesOnce l) := by
  obtain ⟨hbooked, hwatches⟩ : Booked fd C s ∧ s.WatchesInterested C :=
    h.invariant (I := fun s => Booked fd C s ∧ s.WatchesInterested C)
      ⟨Booked.start fd C, .start fd C⟩ fun _ _ _ _ ⟨hbooked, hwatches⟩ ⟨⟨hin, honce⟩, hnext⟩ =>
        ⟨(hbooked.step hinj hin hnext).1, (hwatches.step_iff hbooked hinj hin hnext).mpr honce⟩
  exact ⟨hwatches, hwatches.step_iff hbooked hinj hwithin hstep⟩

/-- Two channels lose their interest; one of them is removed, the other one gets it back. -/
def lostOnce : List Label :=
  [.update 1 .enableReading, .update 2 .enableWriting, .update 1 .disableAll, .removeChannel 1,
    .update 2 .disableWriting, .update 2 .enableReading]

theorem watches_interested_iff_lostOnce :
    ∃ es s t, Run (restrict (Loses {1, 2}) Step) (start fun p => p + 10) lostOnce es s ∧
      Step s (.update 2 .disableAll) [] t ∧ t.WatchesInterested {1, 2} := by
  obtain ⟨es, s, hrun, htrace, honce⟩ : ∃ es s,
      Run (restrict (Loses {1, 2}) Step) (start fun p => p + 10) lostOnce es s ∧
        (s.update 2 .disableAll).trace = [] ∧ s.LosesOnce (.update 2 .disableAll) :=
    Run.exists_of_exec_guarded _ (by decide +kernel)
  have hstep : Step s (.update 2 .disableAll) [] (s.update 2 .disableAll).val := by
    rw [← htrace]
    rfl
  have hwithin : Within {1, 2} s (.update 2 .disableAll) := by
    simp [Within, Label.channel]
  exact ⟨es, s, _, hrun, hstep,
    (watches_interested_iff (injOn_add_ten _) hrun hwithin hstep).2.mpr honce⟩

/-- A channel whose interest is lost twice is in the epoll set, with an empty mask. -/
theorem not_watchesInterested_disabledTwice :
    ∃ es s, Run (restrict (Within {1, 2}) Step) (start fun p => p + 10)
        [.update 1 .enableReading, .update 1 .disableReading, .update 1 .disableAll] es s ∧
      s.poller.epollSet 11 = some ⟨kNoneEvent, 1⟩ ∧ ¬s.WatchesInterested {1, 2} := by
  obtain ⟨es, s, hrun, hset, hfd, hnone⟩ : ∃ es s, Run (restrict (Within {1, 2}) Step)
        (start fun p => p + 10)
        [.update 1 .enableReading, .update 1 .disableReading, .update 1 .disableAll] es s ∧
      s.poller.epollSet 11 = some ⟨kNoneEvent, 1⟩ ∧ (s.memory 1).fd = 11 ∧
      (s.memory 1).isNoneEvent := Run.exists_of_exec_guarded _ (by decide +kernel)
  refine ⟨es, s, hrun, hset, fun hwatches => ?_⟩
  exact (hwatches 1 (by simp)).mp ⟨_, by rw [hfd]; exact hset, rfl⟩ hnone

end PolledChannels
end Chaonet
