import Chaonet.Reactor.Interchange

/-!
# The index of a channel in a poller

On a loop with a `Poller`, the index of a channel is the position of its entry in `pollfds_`.
Removing a channel moves the last entry to its position, finds the channel of that entry by
the descriptor, which may be negated, and gives it the new index.

`Indexed` is the invariant of the uses that the class is made for: a channel is first updated
with an interest, is removed without one, and is not used after that.  An interest may come
back, so that an entry may be ignored although its channel has one.
-/

namespace Chaonet

open Foundation

structure IndexTable where
  poller : Poller
  memory : ChannelPtr → Channel
  /-- Which channels have been updated and not removed. -/
  updated : ChannelPtr → Bool
  removed : ChannelPtr → Bool

namespace IndexTable

open Poller (Event Loose ignored)
open Channel (Mask)

inductive Label
  | update (ptr : ChannelPtr) (call : ChannelCall)
  | removeChannel (ptr : ChannelPtr)
deriving DecidableEq, Repr

def update (s : IndexTable) (ptr : ChannelPtr) (call : ChannelCall) : Traced Event IndexTable := do
  let r ← s.poller.updateChannel (call.apply (s.memory ptr))
  pure { s with
    poller := r.1
    memory := Function.update s.memory ptr r.2
    updated := Function.update s.updated ptr true }

def removeChannel (s : IndexTable) (ptr : ChannelPtr) : Traced Event IndexTable := do
  let r ← s.poller.removeChannel s.memory ptr
  pure {
    poller := r.1
    memory := r.2
    updated := Function.update s.updated ptr false
    removed := Function.update s.removed ptr true }

def step (s : IndexTable) : Label → Option (Traced Event IndexTable)
  | .update ptr call => some (s.update ptr call)
  | .removeChannel ptr => some (s.removeChannel ptr)

def Step : IndexTable → Label → List Event → IndexTable → Prop := stepOf step

/-- New channels with the descriptors `fd`. -/
def start (fd : ChannelPtr → Int) : IndexTable :=
  { poller := .create
    memory := fun ptr => Channel.create ptr (fd ptr)
    updated := fun _ => false
    removed := fun _ => false }

/-- The uses of the channels of `C` that the class is made for. -/
def Legal (C : Set ChannelPtr) (s : IndexTable) : Label → Prop
  | .update ptr call => ptr ∈ C ∧ s.removed ptr = false ∧
      (s.updated ptr = false → ¬(call.apply (s.memory ptr)).isNoneEvent)
  | .removeChannel ptr => ptr ∈ C ∧ s.updated ptr = true ∧ (s.memory ptr).isNoneEvent

instance (C : Set ChannelPtr) [∀ ptr, Decidable (ptr ∈ C)] (s : IndexTable) :
    ∀ l, Decidable (s.Legal C l)
  | .update _ _ => inferInstanceAs (Decidable (_ ∧ _ ∧ _))
  | .removeChannel _ => inferInstanceAs (Decidable (_ ∧ _ ∧ _))

/-- The channels in `channels_`. -/
def registered (s : IndexTable) : Set ChannelPtr := { q | ∃ i, s.poller.channels i = some q }

/-- The positions of `pollfds_`. -/
def positions (s : IndexTable) : Set Int := { i | 0 ≤ i ∧ i < s.poller.pollfds.length }

/-- The entry at the index of the channel is its own. -/
def Entered (s : IndexTable) (q : ChannelPtr) : Prop :=
  ∃ (i : Nat) (pfd : PollFd), (s.memory q).index = i ∧ s.poller.pollfds[i]? = some pfd ∧
    (pfd.fd = (s.memory q).fd ∨ pfd.fd = -(s.memory q).fd - 1) ∧ pfd.mask = (s.memory q).events

/-! ## The invariant -/

structure Indexed (fd : ChannelPtr → Int) (C : Set ChannelPtr) (s : IndexTable) : Prop where
  table : s.poller.Table Loose s.memory fd C s.updated
  mapped : ∀ i q, s.poller.channels i = some q → q ∈ C ∧ fd q = i
  masks : ∀ q ∈ C, Mask (s.memory q).events
  /-- A channel that was not used yet. -/
  fresh : ∀ q ∈ C, s.updated q = false → s.removed q = false → (s.memory q).index < 0

variable {fd : ChannelPtr → Int} {C : Set ChannelPtr} {s t : IndexTable} {es : List Event}
  {l : Label}

theorem Indexed.start (fd : ChannelPtr → Int) (C : Set ChannelPtr) : Indexed fd C (start fd) := by
  constructor
  case table =>
    exact ⟨.create fd, fun _ _ => rfl, fun q _ hreg => by simp [IndexTable.start] at hreg,
      fun i pfd hpfd => by simp [IndexTable.start, Poller.create] at hpfd⟩
  case mapped => exact fun i q hq => by simp [IndexTable.start, Poller.create] at hq
  case masks => exact fun _ _ => .none
  case fresh => exact fun _ _ _ _ => by simp [IndexTable.start, Channel.create]

/-- The channels that are in the map. -/
theorem Indexed.mem_registered (h : Indexed fd C s) {q : ChannelPtr} :
    q ∈ s.registered ↔ q ∈ C ∧ s.updated q = true := by
  constructor
  · rintro ⟨i, hi⟩
    obtain ⟨hq, rfl⟩ := h.mapped i q hi
    rw [h.table.channels q hq] at hi
    split_ifs at hi with hupdated
    exact ⟨hq, hupdated⟩
  · rintro ⟨hq, hupdated⟩
    exact ⟨fd q, by rw [h.table.channels q hq, if_pos hupdated]⟩

/-- An update writes the map at the descriptor of the channel only. -/
theorem channels_update {q : ChannelPtr} {i : Int} {ptr : ChannelPtr} {call : ChannelCall}
    (h : (s.update ptr call).val.poller.channels i = some q) :
    s.poller.channels i = some q ∨
      q = (call.apply (s.memory ptr)).ptr ∧ i = (call.apply (s.memory ptr)).fd := by
  simp only [update, Poller.updateChannel, Traced.bind_val, Traced.pure_val] at h
  split_ifs at h with hnew hnone
  · by_cases hi : i = (call.apply (s.memory ptr)).fd
    · subst hi
      exact Or.inr ⟨by simpa [eq_comm] using h, rfl⟩
    · exact Or.inl (by simpa [hi] using h)
  · exact Or.inl h
  · exact Or.inl h

theorem Indexed.update (h : Indexed fd C s) (hinj : Set.InjOn fd C) (hpos : ∀ q ∈ C, 0 ≤ fd q)
    {ptr : ChannelPtr} {call : ChannelCall} (hlegal : s.Legal C (.update ptr call)) :
    Indexed fd C (s.update ptr call).val ∧ (s.update ptr call).trace = [] := by
  obtain ⟨hmem, hremoved, hfirst⟩ := hlegal
  have htable : (s.poller.updateChannel (call.apply (s.memory ptr))).val.1.Table Loose
      (Function.update s.memory ptr (s.poller.updateChannel (call.apply (s.memory ptr))).val.2)
      fd C (Function.update s.updated ptr true) ∧
      (s.poller.updateChannel (call.apply (s.memory ptr))).trace = [] := by
    rw [call.apply_eq]
    cases hupdated : s.updated ptr with
    | false =>
        refine h.table.add hinj hmem hupdated (h.fresh ptr hmem hupdated hremoved) ?_
        exact ⟨Or.inl (h.table.placed.fd ptr).symm,
          fun hnone => absurd hnone (hfirst hupdated), rfl⟩
    | true =>
        have hsame : Function.update s.updated ptr true = s.updated := by
          rw [← hupdated, Function.update_eq_self]
        rw [hsame]
        refine h.table.change Poller.fits_loose hinj hpos hmem hupdated fun pfd hentry => ?_
        rw [← h.table.placed.fd ptr]
        exact hentry.update _
  refine ⟨?_, by simp [IndexTable.update, htable.2]⟩
  constructor
  case table => exact htable.1
  case mapped =>
    intro i q hq
    rcases channels_update hq with hq | ⟨rfl, rfl⟩
    · exact h.mapped i q hq
    · rw [call.apply_eq]
      show (s.memory ptr).ptr ∈ C ∧ fd (s.memory ptr).ptr = (s.memory ptr).fd
      rw [h.table.placed.ptr, h.table.placed.fd]
      exact ⟨hmem, rfl⟩
  case masks =>
    intro q hq
    by_cases heq : q = ptr
    · subst heq
      simpa [IndexTable.update] using Interchange.mask_apply (h.masks q hq) call
    · simpa [IndexTable.update, heq] using h.masks q hq
  case fresh =>
    intro q hq hupdated hnot
    have heq : q ≠ ptr := by
      rintro rfl
      simp [IndexTable.update] at hupdated
    have hfresh := h.fresh q hq (by simpa [IndexTable.update, heq] using hupdated) hnot
    simpa [IndexTable.update, heq] using hfresh

theorem Indexed.removeChannel (h : Indexed fd C s) (hinj : Set.InjOn fd C)
    (hpos : ∀ q ∈ C, 0 ≤ fd q) {ptr : ChannelPtr} (hlegal : s.Legal C (.removeChannel ptr)) :
    Indexed fd C (s.removeChannel ptr).val ∧ (s.removeChannel ptr).trace = [] := by
  obtain ⟨hmem, hupdated, hnone⟩ := hlegal
  obtain ⟨htable, htrace, hmemory, hother⟩ :=
    h.table.remove Poller.fits_loose hinj hpos hmem hupdated hnone
  refine ⟨?_, by simp [IndexTable.removeChannel, htrace]⟩
  constructor
  case table => exact htable
  case mapped =>
    intro i q hq
    have hq : (s.poller.removeChannel s.memory ptr).val.1.channels i = some q := hq
    rw [Poller.removeChannel_poller] at hq
    by_cases hi : i = (s.memory ptr).fd
    · subst hi
      simp at hq
    · exact h.mapped i q (by simpa [hi] using hq)
  case masks =>
    intro q hq
    obtain ⟨index, heq⟩ := hmemory q
    show Mask ((s.poller.removeChannel s.memory ptr).val.2 q).events
    rw [heq]
    exact h.masks q hq
  case fresh =>
    intro q hq hnot hkept
    have heq : q ≠ ptr := by
      rintro rfl
      simp [IndexTable.removeChannel] at hkept
    have hnot : s.updated q = false := by
      simpa [IndexTable.removeChannel, heq] using hnot
    show ((s.poller.removeChannel s.memory ptr).val.2 q).index < 0
    rw [hother q hnot]
    exact h.fresh q hq hnot (by simpa [IndexTable.removeChannel, heq] using hkept)

theorem Indexed.step (h : Indexed fd C s) (hinj : Set.InjOn fd C) (hpos : ∀ q ∈ C, 0 ≤ fd q)
    (hlegal : s.Legal C l) (hstep : Step s l es t) : Indexed fd C t ∧ es = [] := by
  cases l with
  | update ptr call =>
      obtain ⟨rfl, rfl⟩ := Traced.mk.inj (Option.some.inj hstep)
      exact h.update hinj hpos hlegal
  | removeChannel ptr =>
      obtain ⟨rfl, rfl⟩ := Traced.mk.inj (Option.some.inj hstep)
      exact h.removeChannel hinj hpos hlegal

theorem indexed_of_run (hinj : Set.InjOn fd C) (hpos : ∀ q ∈ C, 0 ≤ fd q) {ls : List Label}
    (h : Run (restrict (Legal C) Step) (start fd) ls es s) : Indexed fd C s ∧ es = [] :=
  h.history (I := fun es s => Indexed fd C s ∧ es = []) [] ⟨Indexed.start fd C, rfl⟩
    (fun _ _ _ _ _ ⟨hindexed, hpast⟩ ⟨hlegal, hstep⟩ => by
      obtain ⟨hnext, hes⟩ := hindexed.step hinj hpos hlegal hstep
      exact ⟨hnext, by rw [hpast, hes, List.append_nil]⟩)

/-! ## What the invariant says -/

theorem Indexed.bijOn (h : Indexed fd C s) (hinj : Set.InjOn fd C) (hpos : ∀ q ∈ C, 0 ≤ fd q) :
    Set.BijOn (fun q => (s.memory q).index) s.registered s.positions := by
  refine ⟨?_, ?_, ?_⟩
  · intro q hq
    obtain ⟨hmem, hupdated⟩ := h.mem_registered.mp hq
    obtain ⟨i, pfd, hi, hpfd, -⟩ := h.table.entry q hmem hupdated
    have hlt := (List.getElem?_eq_some_iff.mp hpfd).1
    show 0 ≤ (s.memory q).index ∧ (s.memory q).index < s.poller.pollfds.length
    omega
  · intro q hq r hr heq
    obtain ⟨hmem, hupdated⟩ := h.mem_registered.mp hq
    obtain ⟨hmem', hupdated'⟩ := h.mem_registered.mp hr
    exact h.table.injective Poller.fits_loose hinj hpos hmem hmem' hupdated hupdated' heq
  · rintro i ⟨hnonneg, hlt⟩
    obtain ⟨n, rfl⟩ := Int.eq_ofNat_of_zero_le hnonneg
    obtain ⟨q, hq, hupdated, hindex⟩ :=
      h.table.owner n _ (List.getElem?_eq_getElem (Int.ofNat_lt.mp hlt))
    exact ⟨q, h.mem_registered.mpr ⟨hq, hupdated⟩, hindex⟩

theorem Indexed.entered (h : Indexed fd C s) {q : ChannelPtr} (hq : q ∈ s.registered) :
    s.Entered q := by
  obtain ⟨hmem, hupdated⟩ := h.mem_registered.mp hq
  obtain ⟨i, pfd, hi, hpfd, hentry⟩ := h.table.entry q hmem hupdated
  refine ⟨i, pfd, hi, hpfd, hentry.fd, ?_⟩
  rw [PollFd.mask, hentry.events, Interchange.mask_short (h.masks q hmem)]

/-- **The index table is a bijection**: in every run of the uses that the class is made for,
the indices of the channels in `channels_` are the positions of `pollfds_`, one each, the entry
at the index of a channel is its own, and no assertion fails. -/
theorem index_bijection (hinj : Set.InjOn fd C) (hpos : ∀ q ∈ C, 0 ≤ fd q) {ls : List Label}
    (h : Run (restrict (Legal C) Step) (start fd) ls es s) :
    Set.BijOn (fun q => (s.memory q).index) s.registered s.positions ∧
      (∀ q ∈ s.registered, s.Entered q) ∧ es = [] := by
  obtain ⟨hindexed, hes⟩ := indexed_of_run hinj hpos h
  exact ⟨hindexed.bijOn hinj hpos, fun q hq => hindexed.entered hq, hes⟩

/-- The channel at the front is removed while that of the last entry has no interest. -/
def removedFirst : List Label :=
  [.update 1 .enableReading, .update 2 .enableWriting, .update 3 .enableReading,
    .update 3 .disableReading, .update 1 .disableAll, .removeChannel 1, .update 3 .enableWriting]

theorem index_bijection_removedFirst :
    ∃ es s, Run (restrict (Legal {1, 2, 3}) Step) (start fun p => p + 10) removedFirst es s ∧
      s.poller.pollfds = [⟨-14, 4, 0⟩, ⟨12, 4, 0⟩] ∧ (s.memory 3).index = 0 ∧
      Set.BijOn (fun q => (s.memory q).index) s.registered s.positions := by
  obtain ⟨es, s, hrun, hpollfds, hindex⟩ : ∃ es s,
      Run (restrict (Legal {1, 2, 3}) Step) (start fun p => p + 10) removedFirst es s ∧
        s.poller.pollfds = [⟨-14, 4, 0⟩, ⟨12, 4, 0⟩] ∧ (s.memory 3).index = 0 :=
    Run.exists_of_exec_guarded _ (by decide +kernel)
  have hpos : ∀ q ∈ ({1, 2, 3} : Set ChannelPtr), 0 ≤ (q : Int) + 10 := by
    intro q _
    omega
  exact ⟨es, s, hrun, hpollfds, hindex,
    (index_bijection (PolledChannels.injOn_add_ten _) hpos hrun).1⟩

end IndexTable
end Chaonet
