import Chaonet.Reactor.PolledChannels
import Chaonet.Reactor.Poller

/-!
# Two pollers for one loop

The same channels, once on a loop with a `Poller` and once on a loop with an `EPoller`, go
through the same changes of interest and removals.  A channel is first updated with an
interest, is not updated without one when it has none, and is not used after its removal.

`Poller::updateChannel` ignores an entry when its interest goes, but never restores the
descriptor of an ignored entry.  The two pollers watch the same descriptors for the same
events until a channel that has lost its interest gets one again (`interchangeable_iff`).
-/

namespace Chaonet

open Foundation

/-- The pairs that are passed to `poll(2)` and not ignored there. -/
def Poller.watched (p : Poller) : Set (Int × EventMask) :=
  { x | ∃ pfd ∈ p.pollfds, 0 ≤ pfd.fd ∧ x = (pfd.fd, pfd.mask) }

/-- The pairs that are registered with epoll. -/
def EPoller.watched (p : EPoller) : Set (Int × EventMask) :=
  { x | ∃ e, p.epollSet x.1 = some e ∧ x.2 = e.events }

namespace Interchange

inductive Label
  | update (ptr : ChannelPtr) (call : ChannelCall)
  | removeChannel (ptr : ChannelPtr)
deriving DecidableEq, Repr

inductive Event
  | poll (e : Poller.Event)
  | epoll (e : EPoller.Event)
deriving DecidableEq, Repr

end Interchange

structure Interchange where
  poll : Poller
  /-- The channels of the loop with the `Poller`. -/
  memory : ChannelPtr → Channel
  /-- The loop with the `EPoller`. -/
  epoll : PolledChannels
  removed : ChannelPtr → Bool

namespace Interchange

def update (s : Interchange) (ptr : ChannelPtr) (call : ChannelCall) :
    Traced Event Interchange := do
  let r ← (s.poll.updateChannel (call.apply (s.memory ptr))).lift Event.poll
  let epoll ← (s.epoll.update ptr call).lift Event.epoll
  pure { s with poll := r.1, memory := Function.update s.memory ptr r.2, epoll }

def removeChannel (s : Interchange) (ptr : ChannelPtr) : Traced Event Interchange := do
  let r ← (s.poll.removeChannel s.memory ptr).lift Event.poll
  let epoll ← (s.epoll.removeChannel ptr).lift Event.epoll
  pure { poll := r.1, memory := r.2, epoll, removed := Function.update s.removed ptr true }

def step (s : Interchange) : Label → Option (Traced Event Interchange)
  | .update ptr call => some (s.update ptr call)
  | .removeChannel ptr => some (s.removeChannel ptr)

def Step : Interchange → Label → List Event → Interchange → Prop := stepOf step

/-- New channels with the descriptors `fd` on both loops. -/
def start (fd : ChannelPtr → Int) : Interchange :=
  { poll := .create
    memory := fun ptr => Channel.create ptr (fd ptr)
    epoll := .start fd
    removed := fun _ => false }

/-- The uses of the channels of `C` that both pollers are made for. -/
def Legal (C : Set ChannelPtr) (s : Interchange) : Label → Prop
  | .update ptr call => ptr ∈ C ∧ s.removed ptr = false ∧
      ¬((s.memory ptr).isNoneEvent ∧ (call.apply (s.memory ptr)).isNoneEvent)
  | .removeChannel ptr => ptr ∈ C ∧ s.epoll.updated ptr = true ∧ (s.memory ptr).isNoneEvent

/-- A registered channel without interest gets one. -/
def Returns (s : Interchange) : Label → Prop
  | .update ptr call => s.epoll.updated ptr = true ∧ (s.memory ptr).isNoneEvent ∧
      ¬(call.apply (s.memory ptr)).isNoneEvent
  | .removeChannel _ => False

/-- Legal uses that bring no interest back. -/
def Keeps (C : Set ChannelPtr) (s : Interchange) (l : Label) : Prop :=
  s.Legal C l ∧ ¬s.Returns l

instance (C : Set ChannelPtr) [∀ ptr, Decidable (ptr ∈ C)] (s : Interchange) :
    ∀ l, Decidable (s.Legal C l)
  | .update _ _ => inferInstanceAs (Decidable (_ ∧ _ ∧ _))
  | .removeChannel _ => inferInstanceAs (Decidable (_ ∧ _ ∧ _))

instance (s : Interchange) : ∀ l, Decidable (s.Returns l)
  | .update _ _ => inferInstanceAs (Decidable (_ ∧ _ ∧ _))
  | .removeChannel _ => .isFalse id

instance (C : Set ChannelPtr) [∀ ptr, Decidable (ptr ∈ C)] (s : Interchange) (l : Label) :
    Decidable (s.Keeps C l) :=
  inferInstanceAs (Decidable (_ ∧ _))

/-! ## The masks of the five calls -/

open Channel (Mask)

theorem mask_apply {c : Channel} (h : Mask c.events) (call : ChannelCall) :
    Mask (call.apply c).events := by
  cases call with
  | enableReading => exact h.enableReading
  | disableReading => exact h.disableReading
  | enableWriting => exact h.enableWriting
  | disableWriting => exact h.disableWriting
  | disableAll => exact .none

/-- A `short` holds each of them. -/
theorem mask_short {events : EventMask} (h : Mask events) :
    (events.setWidth 16).signExtend 32 = events := by
  cases h <;> decide

/-! ## The two sets -/

/-- Both loops have the same channels registered, with the same interest sets, and know
where they are. -/
structure Agree (fd : ChannelPtr → Int) (C : Set ChannelPtr) (s : Interchange) : Prop where
  files : s.poll.Files s.memory fd C s.epoll.updated
  booked : s.epoll.Booked fd C
  events : ∀ q ∈ C, (s.epoll.memory q).events = (s.memory q).events
  masks : ∀ q ∈ C, Mask (s.memory q).events
  /-- A channel that was not used yet. -/
  fresh : ∀ q ∈ C, s.epoll.updated q = false → s.removed q = false →
    (s.memory q).index < 0 ∧ (s.memory q).isNoneEvent
  removed : ∀ q ∈ C, s.removed q = true → s.epoll.updated q = false
  watching : ∀ q ∈ C, s.epoll.updated q = true →
    ((s.epoll.memory q).index = kAdded ↔ ¬(s.memory q).isNoneEvent)

variable {fd : ChannelPtr → Int} {C : Set ChannelPtr} {s t : Interchange} {es : List Event}
  {l : Label}

/-- The channels that a poller should watch. -/
def interested (s : Interchange) (fd : ChannelPtr → Int) (C : Set ChannelPtr) :
    Set (Int × EventMask) :=
  { x | ∃ q ∈ C, s.epoll.updated q = true ∧ ¬(s.memory q).isNoneEvent ∧
    x = (fd q, (s.memory q).events) }

theorem Agree.watched_poll (h : Agree fd C s) (hpos : ∀ q ∈ C, 0 ≤ fd q) :
    s.poll.watched = s.interested fd C := by
  ext x
  constructor
  · rintro ⟨pfd, hpfd, hvisible, rfl⟩
    obtain ⟨i, hi⟩ := List.mem_iff_getElem?.mp hpfd
    obtain ⟨q, hq, hregq, hindex⟩ := h.files.owner i pfd hi
    obtain ⟨j, pfd', hj, hpfd', hentry⟩ := h.files.entry q hq hregq
    obtain rfl : i = j := Int.ofNat_inj.mp (hindex.symm.trans hj)
    obtain rfl := Option.some.inj (hi.symm.trans hpfd')
    have hsome : ¬(s.memory q).isNoneEvent := by
      intro hnone
      rw [hentry.fd, if_pos hnone, h.files.placed.fd] at hvisible
      have := hpos q hq
      simp only [Poller.ignored] at hvisible
      omega
    refine ⟨q, hq, hregq, hsome, ?_⟩
    rw [PollFd.mask, hentry.events, mask_short (h.masks q hq), hentry.fd, if_neg hsome,
      h.files.placed.fd]
  · rintro ⟨q, hq, hregq, hsome, rfl⟩
    obtain ⟨i, pfd, -, hpfd, hentry⟩ := h.files.entry q hq hregq
    have hfd : pfd.fd = fd q := by
      rw [hentry.fd, if_neg hsome, h.files.placed.fd]
    refine ⟨pfd, List.mem_of_getElem? hpfd, by rw [hfd]; exact hpos q hq, ?_⟩
    rw [hfd, PollFd.mask, hentry.events, mask_short (h.masks q hq)]

theorem Agree.watched_epoll (h : Agree fd C s) :
    s.epoll.poller.watched = s.interested fd C := by
  ext ⟨i, mask⟩
  constructor
  · rintro ⟨e, he, hmask⟩
    have he : s.epoll.poller.epollSet i = some e := he
    obtain rfl : mask = e.events := hmask
    obtain ⟨q, hq, rfl⟩ := h.booked.registered i (by simp [he])
    have htracks := h.booked.tracks q hq
    rw [← h.booked.placed.fd q] at he
    cases htracks with
    | new _ _ hnone => simp [hnone] at he
    | added hindex _ hset =>
        obtain rfl := Option.some.inj (hset.symm.trans he)
        have hupdated := (h.booked.updated q hq).mpr (by rw [hindex]; decide)
        refine ⟨q, hq, hupdated, (h.watching q hq hupdated).mp hindex, ?_⟩
        rw [← h.events q hq]
    | deleted _ _ hnone => simp [hnone] at he
  · rintro ⟨q, hq, hregq, hsome, heq⟩
    obtain ⟨rfl, rfl⟩ := Prod.mk.inj heq
    have hindex := (h.watching q hq hregq).mpr hsome
    have htracks := h.booked.tracks q hq
    cases htracks with
    | new hnew _ _ => simp [hindex, kAdded, kNew] at hnew
    | added _ _ hset =>
        rw [h.booked.placed.fd] at hset
        exact ⟨_, hset, (h.events q hq).symm⟩
    | deleted hdeleted _ _ => simp [hindex, kAdded, kDeleted] at hdeleted

theorem Agree.start (fd : ChannelPtr → Int) (C : Set ChannelPtr) : Agree fd C (start fd) := by
  constructor
  case files =>
    exact ⟨.create fd, fun q _ => rfl, fun q _ hreg => by simp [Interchange.start,
      PolledChannels.start] at hreg, fun i pfd hpfd => by simp [Interchange.start,
      Poller.create] at hpfd⟩
  case booked => exact .start fd C
  case events => exact fun _ _ => rfl
  case masks => exact fun _ _ => .none
  case fresh => exact fun _ _ _ _ => ⟨by simp [Interchange.start, Channel.create], rfl⟩
  case removed => exact fun _ _ _ => rfl
  case watching =>
    intro q _ hupdated
    simp [Interchange.start, PolledChannels.start] at hupdated

/-- A legal update that brings no interest back files the channel with both pollers. -/
theorem Agree.files_update (h : Agree fd C s) (hinj : Set.InjOn fd C) (hpos : ∀ q ∈ C, 0 ≤ fd q)
    {ptr : ChannelPtr} {call : ChannelCall} (hkeeps : s.Keeps C (.update ptr call)) :
    let r := s.poll.updateChannel (call.apply (s.memory ptr))
    r.val.1.Files (Function.update s.memory ptr r.val.2) fd C
      (Function.update s.epoll.updated ptr true) ∧ r.trace = [] := by
  obtain ⟨⟨hmem, hremoved, hlegal⟩, hkeep⟩ := hkeeps
  rw [call.apply_eq]
  cases hupdated : s.epoll.updated ptr with
  | false =>
      obtain ⟨hindex, hnone⟩ := h.fresh ptr hmem hupdated hremoved
      exact h.files.add hinj hmem hupdated hindex (fun hnew => hlegal ⟨hnone, hnew⟩)
  | true =>
      have hsame : Function.update s.epoll.updated ptr true = s.epoll.updated := by
        rw [← hupdated, Function.update_eq_self]
      rw [hsame]
      refine h.files.change hinj hpos hmem hupdated fun hnone => ?_
      by_contra hnew
      exact hkeep ⟨hupdated, hnone, hnew⟩

theorem Agree.update (h : Agree fd C s) (hinj : Set.InjOn fd C) (hpos : ∀ q ∈ C, 0 ≤ fd q)
    {ptr : ChannelPtr} {call : ChannelCall} (hkeeps : s.Keeps C (.update ptr call)) :
    Agree fd C (s.update ptr call).val ∧ (s.update ptr call).trace = [] := by
  obtain ⟨hfiles, htrace⟩ := h.files_update hinj hpos hkeeps
  obtain ⟨⟨hmem, hremoved, hlegal⟩, -⟩ := hkeeps
  obtain ⟨hbooked, htrace'⟩ := h.booked.update hinj hmem call
  have hevents := call.apply_events (h.events ptr hmem)
  refine ⟨?_, by simp [Interchange.update, htrace, htrace']⟩
  constructor
  case files => exact hfiles
  case booked => exact hbooked
  case events =>
    intro q hq
    by_cases heq : q = ptr
    · subst heq
      simpa [Interchange.update, PolledChannels.update] using hevents
    · simpa [Interchange.update, PolledChannels.update, heq] using h.events q hq
  case masks =>
    intro q hq
    by_cases heq : q = ptr
    · subst heq
      simpa [Interchange.update] using mask_apply (h.masks q hq) call
    · simpa [Interchange.update, heq] using h.masks q hq
  case fresh =>
    intro q hq hupdated hnot
    have heq : q ≠ ptr := by
      rintro rfl
      simp [Interchange.update, PolledChannels.update] at hupdated
    have hfresh := h.fresh q hq
      (by simpa [Interchange.update, PolledChannels.update, heq] using hupdated) hnot
    simpa [Interchange.update, heq] using hfresh
  case removed =>
    intro q hq hgone
    have hgone : s.removed q = true := hgone
    have heq : q ≠ ptr := by
      rintro rfl
      exact Bool.noConfusion (hgone.symm.trans hremoved)
    simpa [Interchange.update, PolledChannels.update, heq] using h.removed q hq hgone
  case watching =>
    intro q hq hupdated
    by_cases heq : q = ptr
    · subst heq
      have hindex := EPoller.updateChannel_index (h.booked.tracks q hq)
        (call.apply (s.epoll.memory q)).events
      rw [← call.apply_eq, hevents] at hindex
      have hgoal : (if (s.epoll.memory q).index = kAdded ∧
          (call.apply (s.memory q)).events = kNoneEvent then kDeleted else kAdded) = kAdded ↔
          ¬(call.apply (s.memory q)).isNoneEvent := by
        by_cases hnone : (call.apply (s.memory q)).isNoneEvent
        · -- The channel had an interest, so that it was registered and watched.
          have hold : ¬(s.memory q).isNoneEvent := fun hold => hlegal ⟨hold, hnone⟩
          have hupdated : s.epoll.updated q = true := by
            by_contra hnot
            exact hold (h.fresh q hq (by simpa using hnot) hremoved).2
          have hadded := (h.watching q hq hupdated).mpr hold
          have hnone' : (call.apply (s.memory q)).events = kNoneEvent := hnone
          simp [hadded, hnone', hnone, kDeleted, kAdded]
        · have hnone' : (call.apply (s.memory q)).events ≠ kNoneEvent := hnone
          simp [hnone', hnone]
      simpa [Interchange.update, PolledChannels.update, hindex, Channel.isNoneEvent] using hgoal
    · simpa [Interchange.update, PolledChannels.update, heq] using h.watching q hq
        (by simpa [Interchange.update, PolledChannels.update, heq] using hupdated)

theorem Agree.removeChannel (h : Agree fd C s) (hinj : Set.InjOn fd C) (hpos : ∀ q ∈ C, 0 ≤ fd q)
    {ptr : ChannelPtr} (hlegal : s.Legal C (.removeChannel ptr)) :
    Agree fd C (s.removeChannel ptr).val ∧ (s.removeChannel ptr).trace = [] := by
  obtain ⟨hmem, hupdated, hnone⟩ := hlegal
  have hnone' : (s.epoll.memory ptr).isNoneEvent := (h.events ptr hmem).trans hnone
  obtain ⟨hfiles, htrace, hmemory, hother⟩ := h.files.remove hinj hpos hmem hupdated hnone
  obtain ⟨hbooked, htrace'⟩ := h.booked.removeChannel hinj hmem hupdated hnone'
  have hevents (q : ChannelPtr) :
      ((s.poll.removeChannel s.memory ptr).val.2 q).events = (s.memory q).events := by
    obtain ⟨index, heq⟩ := hmemory q
    rw [heq]
  have hindex (q : ChannelPtr) (heq : q ≠ ptr) :
      (s.removeChannel ptr).val.epoll.updated q = s.epoll.updated q ∧
        (s.removeChannel ptr).val.epoll.memory q = s.epoll.memory q ∧
        (s.removeChannel ptr).val.removed q = s.removed q := by
    simp [Interchange.removeChannel, PolledChannels.removeChannel, heq]
  refine ⟨?_, by simp [Interchange.removeChannel, htrace, htrace']⟩
  constructor
  case files => exact hfiles
  case booked => exact hbooked
  case events =>
    intro q hq
    show ((s.removeChannel ptr).val.epoll.memory q).events = _
    by_cases heq : q = ptr
    · subst heq
      have hsame : ((s.removeChannel q).val.epoll.memory q).events = (s.epoll.memory q).events := by
        obtain ⟨-, hchannel⟩ := EPoller.removeChannel_tracks (h.booked.tracks q hq)
        simp [Interchange.removeChannel, PolledChannels.removeChannel, hchannel]
      exact hsame.trans ((h.events q hq).trans (hevents q).symm)
    · rw [(hindex q heq).2.1]
      exact (h.events q hq).trans (hevents q).symm
  case masks =>
    intro q hq
    show Mask ((s.poll.removeChannel s.memory ptr).val.2 q).events
    rw [hevents]
    exact h.masks q hq
  case fresh =>
    intro q hq hnot hkept
    have heq : q ≠ ptr := by
      rintro rfl
      simp [Interchange.removeChannel] at hkept
    rw [(hindex q heq).1] at hnot
    rw [(hindex q heq).2.2] at hkept
    show ((s.poll.removeChannel s.memory ptr).val.2 q).index < 0 ∧
      ((s.poll.removeChannel s.memory ptr).val.2 q).isNoneEvent
    rw [hother q hnot]
    exact h.fresh q hq hnot hkept
  case removed =>
    intro q hq hgone
    by_cases heq : q = ptr
    · subst heq
      simp [Interchange.removeChannel, PolledChannels.removeChannel]
    · rw [(hindex q heq).2.2] at hgone
      rw [(hindex q heq).1]
      exact h.removed q hq hgone
  case watching =>
    intro q hq hregq
    have heq : q ≠ ptr := by
      rintro rfl
      simp [Interchange.removeChannel, PolledChannels.removeChannel] at hregq
    rw [(hindex q heq).1] at hregq
    rw [(hindex q heq).2.1]
    show _ ↔ ¬((s.poll.removeChannel s.memory ptr).val.2 q).events = kNoneEvent
    rw [hevents]
    exact h.watching q hq hregq

theorem Agree.step (h : Agree fd C s) (hinj : Set.InjOn fd C) (hpos : ∀ q ∈ C, 0 ≤ fd q)
    (hkeeps : s.Keeps C l) (hstep : Step s l es t) : Agree fd C t ∧ es = [] := by
  cases l with
  | update ptr call =>
      obtain ⟨rfl, rfl⟩ := Traced.mk.inj (Option.some.inj hstep)
      exact h.update hinj hpos hkeeps
  | removeChannel ptr =>
      obtain ⟨rfl, rfl⟩ := Traced.mk.inj (Option.some.inj hstep)
      exact h.removeChannel hinj hpos hkeeps.1

/-- As long as no interest comes back, the loops agree and no assertion fails. -/
theorem agree_of_run (hinj : Set.InjOn fd C) (hpos : ∀ q ∈ C, 0 ≤ fd q) {ls : List Label}
    (h : Run (restrict (Keeps C) Step) (start fd) ls es s) : Agree fd C s ∧ es = [] :=
  h.history (I := fun es s => Agree fd C s ∧ es = []) [] ⟨Agree.start fd C, rfl⟩
    (fun _ _ _ _ _ ⟨hagree, hpast⟩ ⟨hkeeps, hstep⟩ => by
      obtain ⟨hnext, hes⟩ := hagree.step hinj hpos hkeeps hstep
      exact ⟨hnext, by rw [hpast, hes, List.append_nil]⟩)

/-- When an interest comes back, epoll watches the descriptor again and `poll(2)` does not. -/
theorem Agree.returns (h : Agree fd C s) (hinj : Set.InjOn fd C) (hpos : ∀ q ∈ C, 0 ≤ fd q)
    (hlegal : s.Legal C l) (hreturns : s.Returns l) (hstep : Step s l es t) :
    t.poll.watched ≠ t.epoll.poller.watched := by
  cases l with
  | removeChannel ptr => exact hreturns.elim
  | update ptr call =>
      obtain ⟨hmem, -, -⟩ := hlegal
      obtain ⟨hupdated, hnone, hsome⟩ := hreturns
      have ht : t = (s.update ptr call).val :=
        (congrArg Traced.val (Option.some.inj hstep)).symm
      have hevents := call.apply_events (h.events ptr hmem)
      have hset := EPoller.updateChannel_epollSet (h.booked.tracks ptr hmem)
        (call.apply (s.epoll.memory ptr)).events (by rw [hevents]; exact hsome)
      rw [← call.apply_eq, h.booked.placed.fd, hevents] at hset
      have hwatched : (fd ptr, (call.apply (s.memory ptr)).events) ∈ t.epoll.poller.watched := by
        rw [ht]
        exact ⟨_, hset, rfl⟩
      intro hsame
      rw [← hsame] at hwatched
      obtain ⟨pfd, hpfd, -, heq⟩ := hwatched
      rw [ht] at hpfd
      have hignored := h.files.stays_ignored hinj hpos hmem hupdated hnone
        (call.apply (s.memory ptr)).events
      rw [← call.apply_eq] at hignored
      exact hignored pfd hpfd (Prod.mk.inj heq).1.symm

/-- **When the pollers are interchangeable**: after every run of legal uses that bring no
interest back, `poll(2)` and epoll watch the same pairs; and they do after one more legal
use exactly if it does not bring an interest back either. -/
theorem interchangeable_iff (hinj : Set.InjOn fd C) (hpos : ∀ q ∈ C, 0 ≤ fd q) {ls : List Label}
    {es' : List Event} (h : Run (restrict (Keeps C) Step) (start fd) ls es s)
    (hlegal : s.Legal C l) (hstep : Step s l es' t) :
    s.poll.watched = s.epoll.poller.watched ∧
      (t.poll.watched = t.epoll.poller.watched ↔ ¬s.Returns l) := by
  obtain ⟨hagree, -⟩ := agree_of_run hinj hpos h
  refine ⟨by rw [hagree.watched_poll hpos, hagree.watched_epoll], ?_, ?_⟩
  · intro hsame hreturns
    exact hagree.returns hinj hpos hlegal hreturns hstep hsame
  · intro hkeeps
    obtain ⟨hnext, -⟩ := hagree.step hinj hpos ⟨hlegal, hkeeps⟩ hstep
    rw [hnext.watched_poll hpos, hnext.watched_epoll]

/-- Three channels; one is removed from the middle of the table, another loses its interest. -/
def removedMiddle : List Label :=
  [.update 1 .enableReading, .update 2 .enableWriting, .update 3 .enableReading,
    .update 2 .disableAll, .removeChannel 2, .update 3 .enableWriting, .update 1 .disableReading]

instance (p : ChannelPtr) : Decidable (p ∈ ({1, 2, 3} : Set ChannelPtr)) :=
  inferInstanceAs (Decidable (p = 1 ∨ p = 2 ∨ p = 3))

theorem interchangeable_iff_removedMiddle :
    ∃ es s t, Run (restrict (Keeps {1, 2, 3}) Step) (start fun p => p + 10) removedMiddle es s ∧
      Step s (.removeChannel 1) [] t ∧ s.poll.watched = s.epoll.poller.watched ∧
      (t.poll.watched = t.epoll.poller.watched ↔ ¬s.Returns (.removeChannel 1)) := by
  obtain ⟨es, s, hrun, hlegal, htrace⟩ : ∃ es s,
      Run (restrict (Keeps {1, 2, 3}) Step) (start fun p => p + 10) removedMiddle es s ∧
        s.Legal {1, 2, 3} (.removeChannel 1) ∧ (s.removeChannel 1).trace = [] :=
    Run.exists_of_exec_guarded _ (by decide +kernel)
  have hstep : Step s (.removeChannel 1) [] (s.removeChannel 1).val := by
    rw [← htrace]
    rfl
  have hpos : ∀ q ∈ ({1, 2, 3} : Set ChannelPtr), 0 ≤ (q : Int) + 10 := by
    intro q _
    omega
  exact ⟨es, s, _, hrun, hstep,
    interchangeable_iff (PolledChannels.injOn_add_ten _) hpos hrun hlegal hstep⟩

/-- A channel stops reading and starts again. -/
def readAgain : List Label :=
  [.update 1 .enableReading, .update 1 .disableReading, .update 1 .enableReading]

/-- Epoll watches it then, and `poll(2)` is passed the descriptor -12. -/
theorem watched_ne_readAgain :
    ∃ es s, Run (restrict (Legal {1, 2, 3}) Step) (start fun p => p + 10) readAgain es s ∧
      s.poll.pollfds = [⟨-12, 3, 0⟩] ∧ s.poll.watched ≠ s.epoll.poller.watched := by
  obtain ⟨es, s, hrun, hpollfds, hset⟩ : ∃ es s,
      Run (restrict (Legal {1, 2, 3}) Step) (start fun p => p + 10) readAgain es s ∧
        s.poll.pollfds = [⟨-12, 3, 0⟩] ∧ s.epoll.poller.epollSet 11 = some ⟨kReadEvent, 1⟩ :=
    Run.exists_of_exec_guarded _ (by decide +kernel)
  refine ⟨es, s, hrun, hpollfds, fun hsame => ?_⟩
  have hwatched : ((11 : Int), kReadEvent) ∈ s.epoll.poller.watched := ⟨_, hset, rfl⟩
  rw [← hsame] at hwatched
  obtain ⟨pfd, hpfd, hvisible, -⟩ := hwatched
  rw [hpollfds, List.mem_singleton] at hpfd
  subst hpfd
  simp at hvisible

end Interchange
end Chaonet
