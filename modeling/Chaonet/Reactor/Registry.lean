import Chaonet.Reactor.EPoller

/-!
# What a poller has registered

`EPoller.Holds registered` says that a poller knows exactly the channels that `registered`
gives for their descriptors.  An update or a removal changes the entry at the descriptor of
the channel and no other, so that objects which share a loop can keep their own channels
each.
-/

namespace Chaonet
namespace EPoller

open Foundation

/-- The channels in the map, by their descriptors, and nothing else. -/
structure Holds (p : EPoller) (registered : Int → Option Channel) : Prop where
  known : ∀ i c, registered i = some c → c.fd = i ∧ c.index ≠ kNew ∧ p.Tracks c
  absent : ∀ i, registered i = none → p.channels i = none ∧ p.epollSet i = none

variable {p : EPoller} {registered : Int → Option Channel} {c : Channel}

theorem Holds.create : create.Holds (fun _ => none) :=
  ⟨fun _ _ h => by simp at h, fun _ _ => ⟨rfl, rfl⟩⟩

/-- Replacing the entry at one descriptor. -/
theorem Holds.replace (h : p.Holds registered) {q : EPoller} {fd : Int} {entry : Option Channel}
    (hframe : ∀ i, i ≠ fd → q.channels i = p.channels i ∧ q.epollSet i = p.epollSet i)
    (hknown : ∀ c, entry = some c → c.fd = fd ∧ c.index ≠ kNew ∧ q.Tracks c)
    (habsent : entry = none → q.channels fd = none ∧ q.epollSet fd = none) :
    q.Holds (Function.update registered fd entry) := by
  constructor
  · intro i c hc
    by_cases hi : i = fd
    · subst hi
      rw [Function.update_self] at hc
      exact hknown c hc
    · rw [Function.update_of_ne hi] at hc
      obtain ⟨rfl, hindex, htracks⟩ := h.known i c hc
      obtain ⟨hchannels, hset⟩ := hframe _ hi
      exact ⟨rfl, hindex, htracks.frame hchannels hset⟩
  · intro i hnone
    by_cases hi : i = fd
    · subst hi
      rw [Function.update_self] at hnone
      exact habsent hnone
    · rw [Function.update_of_ne hi] at hnone
      obtain ⟨hchannels, hset⟩ := hframe i hi
      rw [hchannels, hset]
      exact h.absent i hnone

/-- The poller tracks a channel that is registered, or new with a free descriptor. -/
theorem Holds.tracks (h : p.Holds registered)
    (hc : registered c.fd = some c ∨ registered c.fd = none ∧ c.index = kNew) : p.Tracks c := by
  rcases hc with hc | ⟨hfree, hnew⟩
  · exact (h.known _ c hc).2.2
  · obtain ⟨hchannels, hset⟩ := h.absent _ hfree
    exact .new hnew hchannels hset

/-- An update registers the channel with its new interest set. -/
theorem Holds.updateChannel (h : p.Holds registered) (events : EventMask)
    (hc : registered c.fd = some c ∨ registered c.fd = none ∧ c.index = kNew) :
    let r := p.updateChannel { c with events }
    r.val.1.Holds (Function.update registered c.fd (some r.val.2)) ∧ r.trace = [] ∧
      r.val.2 = { c with
        events
        index := if c.index = kAdded ∧ events = kNoneEvent then kDeleted else kAdded } := by
  obtain ⟨htrace, htracks, hchannel, hindex⟩ := updateChannel_tracks (h.tracks hc) events
  refine ⟨h.replace (fun i hi => updateChannel_frame hi) ?_ (by simp), htrace, ?_⟩
  · rintro c' ⟨⟩
    exact ⟨by rw [hchannel], hindex, htracks⟩
  · rw [hchannel, updateChannel_index (h.tracks hc) events]

/-- The removal of a registered channel without interest. -/
theorem Holds.removeChannel (h : p.Holds registered) (hc : registered c.fd = some c)
    (hnone : c.isNoneEvent) :
    let r := p.removeChannel c
    r.val.1.Holds (Function.update registered c.fd none) ∧ r.trace = [] ∧
      r.val.2 = { c with index := kNew } := by
  obtain ⟨-, hindex, htracks⟩ := h.known _ c hc
  obtain ⟨hnew, hchannel⟩ := removeChannel_tracks htracks
  refine ⟨h.replace (fun i hi => removeChannel_frame hi) (by simp) ?_,
    removeChannel_trace htracks hindex hnone, hchannel⟩
  intro _
  rw [hchannel] at hnew
  cases hnew with
  | new _ hchannels hset => exact ⟨hchannels, hset⟩
  | added hadded _ _ => simp [kNew, kAdded] at hadded
  | deleted hdeleted _ _ => simp [kNew, kDeleted] at hdeleted

/-- The mask of the last event does not matter. -/
theorem Holds.revents (h : p.Holds registered) (hc : registered c.fd = some c)
    (revents : EventMask) :
    p.Holds (Function.update registered c.fd (some { c with revents })) := by
  obtain ⟨-, hindex, htracks⟩ := h.known _ c hc
  refine h.replace (fun _ _ => ⟨rfl, rfl⟩) ?_ (by simp)
  rintro c' ⟨⟩
  exact ⟨rfl, hindex, htracks.revents revents⟩

/-- The kernel reports only what is registered with an interest. -/
theorem Holds.delivered (h : p.Holds registered) {fd : Int} (hset : p.epollSet fd ≠ none) :
    ∃ c, registered fd = some c ∧ c.index = kAdded := by
  cases hfd : registered fd with
  | none => exact absurd (h.absent fd hfd).2 hset
  | some c =>
      obtain ⟨rfl, -, htracks⟩ := h.known fd c hfd
      cases htracks with
      | new _ _ hnone => exact absurd hnone hset
      | added hindex _ _ => exact ⟨c, rfl, hindex⟩
      | deleted _ _ hnone => exact absurd hnone hset

/-- The map holds the addresses of the registered channels only. -/
theorem Holds.channels (h : p.Holds registered) {fd : Int} {ptr : ChannelPtr}
    (hptr : p.channels fd = some ptr) : ∃ c, registered fd = some c ∧ c.ptr = ptr := by
  cases hfd : registered fd with
  | none => simp [(h.absent fd hfd).1] at hptr
  | some c =>
      obtain ⟨rfl, hindex, htracks⟩ := h.known fd c hfd
      cases htracks with
      | new hnew _ _ => exact absurd hnew hindex
      | added _ hchannels _ => exact ⟨c, rfl, Option.some.inj (hchannels.symm.trans hptr)⟩
      | deleted _ hchannels _ => exact ⟨c, rfl, Option.some.inj (hchannels.symm.trans hptr)⟩

end EPoller
end Chaonet
