import Chaonet.Timer.TimerLoop
import Mathlib.Data.Set.Basic

/-!
# The two timer indexes agree

Both indexes of a timer queue stand for one set of timers: `Represents` says that each
holds exactly these timers, under the keys that their objects have now.  Every member
function has a simple effect on that set, and as long as the indexes represent a set, the
assertions about them hold.

Two assertions of the class are about iterators instead of the indexes and can fail
(`getExpiredSentry` and `cancelItErase`); nothing here says anything about them.
-/

namespace Chaonet

open Foundation

namespace TimerQueue

/-- Both indexes hold exactly the timers of a set, under their current keys. -/
structure Represents (q : TimerQueue) (timers : Set TimerPtr) : Prop where
  keys : ∀ e, e ∈ q.timers ↔ e.timer ∈ timers ∧ e.expiration = (q.heap e.timer).expiration
  actives : ∀ a, a ∈ q.activeTimers ↔ a.timer ∈ timers ∧ a.sequence = (q.heap a.timer).sequence

/-- The indexes of a snapshot hold the same timers, each once, and every key of `timers_`
is the current expiration of its timer. -/
structure Snapshot.Agrees (s : Snapshot) : Prop where
  same : (s.timers.map Prod.snd).Perm (s.activeTimers.map Prod.fst)
  once : (s.timers.map Prod.snd).Nodup
  keys : s.timers.map Prod.fst = s.expirations

/-- What must hold of an event: where the sizes are compared the indexes agree, no other
assertion about the indexes fails, and the descriptor is set to a legal time. -/
def Event.Orderly : Event → Prop
  | .failed a => a = .cancelItErase ∨ a = .getExpiredSentry
  | .sizesAsserted s => s.Agrees
  | .settime value => value.Legal
  | _ => True

def Orderly (es : List Event) : Prop := ∀ e ∈ es, e.Orderly

@[simp] theorem orderly_nil : Orderly [] := by simp [Orderly]

@[simp] theorem orderly_append {es es' : List Event} :
    Orderly (es ++ es') ↔ Orderly es ∧ Orderly es' := List.forall_mem_append

@[simp] theorem orderly_singleton {e : Event} : Orderly [e] ↔ e.Orderly :=
  List.forall_mem_singleton

theorem orderly_check {a : Assertion} {p : Prop} [Decidable p]
    (h : p ∨ a = .cancelItErase ∨ a = .getExpiredSentry) :
    Orderly (Traced.check (Event.failed a) p).trace := by
  intro e he
  obtain ⟨hp, rfl⟩ := Traced.mem_check_trace.mp he
  exact h.resolve_left hp

theorem resetTimerfd_orderly (q : TimerQueue) (expiration : Int) :
    Orderly (q.resetTimerfd expiration).trace := by
  simpa [resetTimerfd, Event.Orderly] using howMuchTimeFromNow_legal expiration q.clock

variable {q : TimerQueue} {P : Set TimerPtr}

/-! ## Agreement -/

theorem Represents.mem_timers (h : q.Represents P) {p : TimerPtr} :
    Entry.mk (q.heap p).expiration p ∈ q.timers ↔ p ∈ P := by
  simp [h.keys]

theorem Represents.mem_activeTimers (h : q.Represents P) {p : TimerPtr} :
    q.active p ∈ q.activeTimers ↔ p ∈ P := by
  simp [h.actives, active]

theorem Represents.agrees (h : q.Represents P) : q.snapshot.Agrees := by
  have hentries : (q.timers.toList.map Entry.timer).Nodup := by
    refine q.timers.nodup.map_on fun e he e' he' htimer => ?_
    have hkey := ((h.keys e).mp he).2
    have hkey' := ((h.keys e').mp he').2
    exact Entry.ext_iff.mpr ⟨by rw [hkey, hkey', htimer], htimer⟩
  have hactives : (q.activeTimers.toList.map ActiveTimer.timer).Nodup := by
    refine q.activeTimers.nodup.map_on fun a ha a' ha' htimer => ?_
    have hkey := ((h.actives a).mp ha).2
    have hkey' := ((h.actives a').mp ha').2
    exact ActiveTimer.ext_iff.mpr ⟨htimer, by rw [hkey, hkey', htimer]⟩
  have hmem (p : TimerPtr) : p ∈ q.timers.toList.map Entry.timer ↔
      p ∈ q.activeTimers.toList.map ActiveTimer.timer := by
    rw [List.mem_map, List.mem_map]
    constructor
    · rintro ⟨e, he, rfl⟩
      exact ⟨q.active e.timer, h.mem_activeTimers.mpr ((h.keys e).mp he).1, rfl⟩
    · rintro ⟨a, ha, rfl⟩
      exact ⟨_, h.mem_timers.mpr ((h.actives a).mp ha).1, rfl⟩
  have hsame := (List.perm_ext_iff_of_nodup hentries hactives).mpr hmem
  refine ⟨?_, ?_, ?_⟩
  · simp only [snapshot, List.map_map]
    exact hsame
  · simp only [snapshot, List.map_map]
    exact hentries
  · simp only [snapshot, List.map_map]
    exact List.map_congr_left fun e he => ((h.keys e).mp he).2

/-- The indexes are then of one size. -/
theorem Represents.assertSizes (h : q.Represents P) : Orderly q.assertSizes.trace := by
  have hsize : q.timers.size = q.activeTimers.size := by
    simpa [snapshot, OrderedSet.size] using h.agrees.same.length_eq
  simpa [TimerQueue.assertSizes, hsize, Event.Orderly] using h.agrees

/-- Only the objects of the represented timers matter. -/
theorem Represents.heap (h : q.Represents P) {heap : TimerPtr → Timer}
    (hheap : ∀ p ∈ P, heap p = q.heap p) : ({ q with heap } : TimerQueue).Represents P := by
  constructor
  · intro e
    rw [h.keys]
    exact and_congr_right fun he => by rw [← hheap _ he]
  · intro a
    rw [h.actives]
    exact and_congr_right fun ha => by rw [← hheap _ ha]

/-! ## The member functions -/

theorem insert_val (q : TimerQueue) (p : TimerPtr) :
    (q.insert p).val.1 = { q with
      timers := q.timers.insert (Entry.mk (q.heap p).expiration p)
      activeTimers := q.activeTimers.insert (q.active p) } := rfl

/-- Inserting adds a timer that is not in the indexes yet. -/
theorem Represents.insert (h : q.Represents P) {p : TimerPtr} (hp : p ∉ P) :
    (q.insert p).val.1.Represents (P ∪ {p}) ∧ Orderly (q.insert p).trace := by
  have hnew : (q.insert p).val.1.Represents (P ∪ {p}) := by
    rw [insert_val]
    constructor
    · intro e
      simp only [OrderedSet.mem_insert, h.keys, Entry.ext_iff, Entry.expiration_mk, Entry.timer_mk,
        Set.mem_union, Set.mem_singleton_iff]
      constructor
      · rintro (⟨hkey, htimer⟩ | ⟨hmem, hkey⟩)
        · exact ⟨Or.inr htimer, by rw [hkey, htimer]⟩
        · exact ⟨Or.inl hmem, hkey⟩
      · rintro ⟨hmem | htimer, hkey⟩
        · exact Or.inr ⟨hmem, hkey⟩
        · exact Or.inl ⟨by rw [hkey, htimer], htimer⟩
    · intro a
      simp only [OrderedSet.mem_insert, h.actives, ActiveTimer.ext_iff, active,
        ActiveTimer.timer_mk, ActiveTimer.sequence_mk, Set.mem_union, Set.mem_singleton_iff]
      constructor
      · rintro (⟨htimer, hkey⟩ | ⟨hmem, hkey⟩)
        · exact ⟨Or.inr htimer, by rw [hkey, htimer]⟩
        · exact ⟨Or.inl hmem, hkey⟩
      · rintro ⟨hmem | htimer, hkey⟩
        · exact Or.inr ⟨hmem, hkey⟩
        · exact Or.inl ⟨htimer, by rw [hkey, htimer]⟩
  refine ⟨hnew, ?_⟩
  have htimers : Entry.mk (q.heap p).expiration p ∉ q.timers :=
    fun hmem => hp (h.mem_timers.mp hmem)
  have hactive : q.active p ∉ q.activeTimers := fun hmem => hp (h.mem_activeTimers.mp hmem)
  simp only [TimerQueue.insert, Traced.bind_trace, Traced.pure_trace, orderly_append, orderly_nil,
    and_true]
  exact ⟨h.assertSizes, orderly_check (Or.inl htimers), orderly_check (Or.inl hactive),
    hnew.assertSizes⟩

theorem Represents.addTimerInLoop (h : q.Represents P) {p : TimerPtr} (hp : p ∉ P) :
    (q.addTimerInLoop p).val.Represents (P ∪ {p}) ∧ Orderly (q.addTimerInLoop p).trace := by
  obtain ⟨hnew, horderly⟩ := h.insert hp
  simp only [TimerQueue.addTimerInLoop, Traced.bind_val, Traced.bind_trace, orderly_append]
  split_ifs with hearliest
  · exact ⟨⟨hnew.keys, hnew.actives⟩, horderly, resetTimerfd_orderly _ _⟩
  · exact ⟨hnew, horderly, orderly_nil⟩

theorem addTimerInLoop_frame (q : TimerQueue) (p : TimerPtr) :
    (q.addTimerInLoop p).val.heap = q.heap ∧
      (q.addTimerInLoop p).val.cancelingTimers = q.cancelingTimers := by
  simp only [TimerQueue.addTimerInLoop, Traced.bind_val]
  split_ifs <;> exact ⟨rfl, rfl⟩

/-- Cancelling changes nothing but the indexes and the cancelled timers. -/
theorem cancelInLoop_frame (q : TimerQueue) (p : TimerPtr) (n : Int) :
    let r := (q.cancelInLoop p n).val
    r.timerfd = q.timerfd ∧ r.clock = q.clock ∧ r.heap = q.heap ∧
      (∀ e ∈ r.timers, e ∈ q.timers) ∧ ∀ a ∈ q.cancelingTimers, a ∈ r.cancelingTimers := by
  simp only [TimerQueue.cancelInLoop]
  split_ifs with hactive hcalling
  · exact ⟨rfl, rfl, rfl, fun e he => (OrderedSet.mem_erase.mp he).1, fun a ha => ha⟩
  · exact ⟨rfl, rfl, rfl, fun e he => he, fun a ha => OrderedSet.mem_insert.mpr (Or.inr ha)⟩
  · exact ⟨rfl, rfl, rfl, fun e he => he, fun a ha => ha⟩

/-- Cancelling removes the timer with that address and sequence. -/
theorem Represents.cancelInLoop (h : q.Represents P) (p : TimerPtr) (n : Int) :
    (q.cancelInLoop p n).val.Represents {p' ∈ P | q.active p' ≠ ActiveTimer.mk p n} ∧
      Orderly (q.cancelInLoop p n).trace := by
  by_cases hmem : ActiveTimer.mk p n ∈ q.activeTimers
  · obtain ⟨hp, hn⟩ := (h.actives _).mp hmem
    have hn : n = (q.heap p).sequence := hn
    have hsame (p' : TimerPtr) : q.active p' ≠ ActiveTimer.mk p n ↔ p' ≠ p := by
      simp only [active, ne_eq, ActiveTimer.ext_iff, ActiveTimer.timer_mk, ActiveTimer.sequence_mk]
      constructor
      · rintro hne rfl
        exact hne ⟨rfl, hn.symm⟩
      · exact fun hne heq => hne heq.1
    have hval : (q.cancelInLoop p n).val = { q with
        timers := q.timers.erase (Entry.mk (q.heap p).expiration p)
        activeTimers := q.activeTimers.erase (ActiveTimer.mk p n) } := by
      simp [TimerQueue.cancelInLoop, hmem]
    have hnew :
        (q.cancelInLoop p n).val.Represents {p' ∈ P | q.active p' ≠ ActiveTimer.mk p n} := by
      rw [hval]
      constructor
      · intro e
        simp only [OrderedSet.mem_erase, h.keys, Set.mem_sep_iff, hsame, ne_eq, Entry.ext_iff,
          Entry.expiration_mk, Entry.timer_mk]
        constructor
        · rintro ⟨⟨hmem, hkey⟩, hne⟩
          exact ⟨⟨hmem, fun htimer => hne ⟨by rw [hkey, htimer], htimer⟩⟩, hkey⟩
        · rintro ⟨⟨hmem, hne⟩, hkey⟩
          exact ⟨⟨hmem, hkey⟩, fun heq => hne heq.2⟩
      · intro a
        simp only [OrderedSet.mem_erase, h.actives, Set.mem_sep_iff, hsame, ne_eq,
          ActiveTimer.ext_iff, ActiveTimer.timer_mk, ActiveTimer.sequence_mk]
        constructor
        · rintro ⟨⟨hmem, hkey⟩, hne⟩
          exact ⟨⟨hmem, fun htimer => hne ⟨htimer, by rw [hkey, htimer, hn]⟩⟩, hkey⟩
        · rintro ⟨⟨hmem, hne⟩, hkey⟩
          exact ⟨⟨hmem, hkey⟩, fun heq => hne heq.1⟩
    refine ⟨hnew, ?_⟩
    have hafter := hnew.assertSizes
    rw [hval] at hafter
    have hcount : q.timers.count (Entry.mk (q.heap p).expiration p) = 1 :=
      OrderedSet.count_eq_one.mpr (h.mem_timers.mpr hp)
    simp only [TimerQueue.cancelInLoop, if_pos hmem, Traced.bind_trace, Traced.pure_val,
      Traced.pure_trace, orderly_append, orderly_nil, and_true, true_and]
    exact ⟨h.assertSizes, orderly_check (Or.inl hcount), orderly_check (Or.inr (Or.inl rfl)),
      hafter⟩
  · have hall : {p' ∈ P | q.active p' ≠ ActiveTimer.mk p n} = P := by
      refine Set.sep_eq_self_iff_mem_true.mpr fun p' hp' heq => hmem ?_
      exact heq ▸ h.mem_activeTimers.mpr hp'
    rw [hall]
    by_cases hcalling : q.callingExpiredTimers = true
    · have hnew : ({ q with cancelingTimers := q.cancelingTimers.insert (ActiveTimer.mk p n) } :
          TimerQueue).Represents P := ⟨h.keys, h.actives⟩
      simp only [TimerQueue.cancelInLoop, if_neg hmem, if_pos hcalling, Traced.bind_val,
        Traced.bind_trace, Traced.pure_val, Traced.pure_trace, orderly_append, orderly_nil,
        and_true, true_and]
      exact ⟨hnew, h.assertSizes, hnew.assertSizes⟩
    · simp only [TimerQueue.cancelInLoop, if_neg hmem, if_neg hcalling, Traced.bind_val,
        Traced.bind_trace, Traced.pure_val, Traced.pure_trace, orderly_append, orderly_nil,
        and_true, true_and]
      exact ⟨h, h.assertSizes, h.assertSizes⟩

/-- Taking expired timers out of `activeTimers_` changes nothing else, and each of them is
found there once. -/
theorem eraseActive_spec {expired : List Entry} (hnodup : (expired.map Entry.timer).Nodup)
    (hmem : ∀ e ∈ expired, q.active e.timer ∈ q.activeTimers) :
    (∃ activeTimers, (q.eraseActive expired).val = { q with activeTimers } ∧
      ∀ a, a ∈ activeTimers ↔ a ∈ q.activeTimers ∧ ∀ e ∈ expired, a ≠ q.active e.timer) ∧
      Orderly (q.eraseActive expired).trace := by
  induction expired generalizing q with
  | nil => exact ⟨⟨q.activeTimers, rfl, by simp⟩, orderly_nil⟩
  | cons entry expired ih =>
      rw [List.map_cons, List.nodup_cons] at hnodup
      have hne : ∀ e ∈ expired, q.active e.timer ≠ q.active entry.timer := by
        intro e he heq
        have htimer : e.timer = entry.timer := (ActiveTimer.ext_iff.mp heq).1
        exact hnodup.1 (htimer ▸ List.mem_map_of_mem he)
      obtain ⟨⟨activeTimers, hval, hactive⟩, horderly⟩ := ih
        (q := { q with activeTimers := q.activeTimers.erase (q.active entry.timer) }) hnodup.2
        (fun e he => OrderedSet.mem_erase.mpr ⟨hmem e (List.mem_cons_of_mem _ he), hne e he⟩)
      refine ⟨⟨activeTimers, hval, fun a => ?_⟩, ?_⟩
      · rw [hactive, OrderedSet.mem_erase, List.forall_mem_cons, and_assoc]
        rfl
      · have hcount : q.activeTimers.count (q.active entry.timer) = 1 :=
          OrderedSet.count_eq_one.mpr (hmem entry (List.mem_cons_self ..))
        simp only [eraseActive, Traced.bind_trace, orderly_append]
        exact ⟨orderly_check (Or.inl hcount), horderly⟩

theorem eraseActive_frame (q : TimerQueue) (expired : List Entry) :
    ∃ activeTimers, (q.eraseActive expired).val = { q with activeTimers } := by
  induction expired generalizing q with
  | nil => exact ⟨q.activeTimers, rfl⟩
  | cons entry expired ih =>
      obtain ⟨activeTimers, hval⟩ := ih
        { q with activeTimers := q.activeTimers.erase (q.active entry.timer) }
      exact ⟨activeTimers, hval⟩

/-- Collecting the expired timers changes nothing but the indexes. -/
theorem getExpired_frame (q : TimerQueue) (now : Int) :
    ∃ activeTimers, (q.getExpired now).val =
      ({ q with timers := q.timers.notBelow (Entry.mk now 0), activeTimers },
        (q.timers.below (Entry.mk now 0)).toList) := by
  obtain ⟨activeTimers, hval⟩ := eraseActive_frame
    { q with timers := q.timers.notBelow (Entry.mk now 0) }
    (q.timers.below (Entry.mk now 0)).toList
  refine ⟨activeTimers, ?_⟩
  simp only [TimerQueue.getExpired, Traced.bind_val, Traced.pure_val, hval]

/-- `getExpired` takes out the timers whose time has come and returns their entries. -/
theorem Represents.getExpired (h : q.Represents P) (now : Int) :
    (q.getExpired now).val.1.Represents {p ∈ P | now ≤ (q.heap p).expiration} ∧
      (∀ e, e ∈ (q.getExpired now).val.2 ↔ e ∈ q.timers ∧ e.expiration < now) ∧
      ((q.getExpired now).val.2.map Entry.timer).Nodup ∧
      Orderly (q.getExpired now).trace := by
  have hmem (e : Entry) : e ∈ (q.timers.below (Entry.mk now 0)).toList ↔
      e ∈ q.timers ∧ e.expiration < now := by
    rw [← Entry.lt_sentry]
    exact OrderedSet.mem_below
  have hnodup : ((q.timers.below (Entry.mk now 0)).toList.map Entry.timer).Nodup := by
    refine (OrderedSet.nodup _).map_on fun e he e' he' htimer => ?_
    have hkey := ((h.keys e).mp ((hmem e).mp he).1).2
    have hkey' := ((h.keys e').mp ((hmem e').mp he').1).2
    exact Entry.ext_iff.mpr ⟨by rw [hkey, hkey', htimer], htimer⟩
  obtain ⟨⟨activeTimers, hval, hactive⟩, herase⟩ := eraseActive_spec
    (q := { q with timers := q.timers.notBelow (Entry.mk now 0) }) hnodup
    (fun e he => h.mem_activeTimers.mpr ((h.keys e).mp ((hmem e).mp he).1).1)
  have hresult : (q.getExpired now).val =
      ({ q with timers := q.timers.notBelow (Entry.mk now 0), activeTimers },
        (q.timers.below (Entry.mk now 0)).toList) := by
    simp only [TimerQueue.getExpired, Traced.bind_val, Traced.pure_val, hval]
  have hnew : (q.getExpired now).val.1.Represents {p ∈ P | now ≤ (q.heap p).expiration} := by
    rw [hresult]
    constructor
    · intro e
      rw [OrderedSet.mem_notBelow, ← not_lt, Entry.lt_sentry, h.keys, Set.mem_sep_iff]
      constructor
      · rintro ⟨⟨hP, hkey⟩, hlt⟩
        exact ⟨⟨hP, by rw [← hkey]; omega⟩, hkey⟩
      · rintro ⟨⟨hP, hle⟩, hkey⟩
        have hkey' : e.expiration = (q.heap e.timer).expiration := hkey
        exact ⟨⟨hP, hkey⟩, by omega⟩
    · intro a
      rw [hactive, h.actives, Set.mem_sep_iff]
      constructor
      · rintro ⟨⟨hP, hkey⟩, hne⟩
        refine ⟨⟨hP, ?_⟩, hkey⟩
        by_contra hlt
        refine hne (Entry.mk (q.heap a.timer).expiration a.timer) ((hmem _).mpr ⟨?_, ?_⟩) ?_
        · exact h.mem_timers.mpr hP
        · show (q.heap a.timer).expiration < now
          omega
        · exact ActiveTimer.ext_iff.mpr ⟨rfl, hkey⟩
      · rintro ⟨⟨hP, hle⟩, hkey⟩
        refine ⟨⟨hP, hkey⟩, fun e he heq => ?_⟩
        obtain ⟨hin, hlt⟩ := (hmem e).mp he
        have htimer : a.timer = e.timer := (ActiveTimer.ext_iff.mp heq).1
        rw [((h.keys e).mp hin).2, ← htimer] at hlt
        omega
  refine ⟨hnew, ?_, ?_, ?_⟩
  · rw [hresult]
    exact hmem
  · rw [hresult]
    exact hnodup
  · have hafter := hnew.assertSizes
    rw [hresult] at hafter
    simp only [TimerQueue.getExpired, Traced.bind_trace, Traced.pure_trace, orderly_append,
      orderly_nil, and_true, hval]
    exact ⟨h.assertSizes, orderly_check (Or.inr (Or.inr rfl)), herase, hafter⟩

section Restart

/-- The queue with the timer at `p` restarted. -/
def restarted (q : TimerQueue) (now : Int) (p : TimerPtr) : TimerQueue :=
  { q with heap := Function.update q.heap p ((q.heap p).restart now) }

/-- Whether `reset` restarts the timer at `p`. -/
def Restarts (q : TimerQueue) (p : TimerPtr) : Prop :=
  (q.heap p).repeat = true ∧ q.active p ∉ q.cancelingTimers

instance (q : TimerQueue) (p : TimerPtr) : Decidable (q.Restarts p) :=
  inferInstanceAs (Decidable (_ ∧ _))

theorem restartExpired_cons (q : TimerQueue) (now : Int) (it : Entry) (expired : List Entry) :
    q.restartExpired now (it :: expired) =
      if q.Restarts it.timer then do
        let (q, _) ← (q.restarted now it.timer).insert it.timer
        q.restartExpired now expired
      else q.restartExpired now expired := rfl

theorem active_restarted (q : TimerQueue) (now : Int) (p p' : TimerPtr) :
    (q.restarted now p).active p' = q.active p' := by
  by_cases hp : p' = p
  · subst hp
    simp [active, restarted]
  · simp [active, restarted, hp]

theorem restarts_restarted (q : TimerQueue) (now : Int) (p p' : TimerPtr) :
    ((q.restarted now p).insert p).val.1.Restarts p' ↔ q.Restarts p' := by
  have hactive := active_restarted q now p p'
  have hrepeat : ((q.restarted now p).heap p').repeat = (q.heap p').repeat := by
    by_cases hp : p' = p
    · subst hp
      simp [restarted]
    · simp [restarted, hp]
  show ((q.restarted now p).heap p').repeat = true ∧
    (q.restarted now p).active p' ∉ q.cancelingTimers ↔ _
  rw [hactive, hrepeat, Restarts]

/-- Restarting changes nothing but the indexes and the restarted objects. -/
theorem restartExpired_frame (q : TimerQueue) (now : Int) (expired : List Entry) :
    let r := (q.restartExpired now expired).val
    r.cancelingTimers = q.cancelingTimers ∧ r.timerfd = q.timerfd ∧ r.clock = q.clock ∧
      ∀ p, r.heap p = if q.Restarts p ∧ p ∈ expired.map Entry.timer
        then (q.heap p).restart now else q.heap p := by
  induction expired generalizing q with
  | nil => exact ⟨rfl, rfl, rfl, fun p => (if_neg (by simp)).symm⟩
  | cons it expired ih =>
      rw [restartExpired_cons]
      split_ifs with hrestarts
      · obtain ⟨hcanceling, htimerfd, hclock, hheap⟩ :=
          ih ((q.restarted now it.timer).insert it.timer).val.1
        refine ⟨hcanceling, htimerfd, hclock, fun p => ?_⟩
        have hnext : ((q.restarted now it.timer).insert it.timer).val.1.heap p =
            Function.update q.heap it.timer ((q.heap it.timer).restart now) p := rfl
        have hp := hheap p
        simp only [restarts_restarted, hnext] at hp
        by_cases hit : p = it.timer
        · -- Should the timer come up again, it would be set to the same time.
          subst hit
          rw [Function.update_self, Timer.restart_restart, ite_self] at hp
          simpa [hrestarts] using hp
        · rw [Function.update_of_ne hit] at hp
          simp only [List.map_cons, List.mem_cons, hit, false_or]
          exact hp
      · obtain ⟨hcanceling, htimerfd, hclock, hheap⟩ := ih q
        refine ⟨hcanceling, htimerfd, hclock, fun p => ?_⟩
        by_cases hit : p = it.timer
        · subst hit
          simpa [hrestarts] using hheap it.timer
        · simpa only [List.map_cons, List.mem_cons, hit, false_or] using hheap p

/-- Restarting a batch inserts its repeating timers that were not cancelled meanwhile.
While a timer is out of the indexes its expiration may change. -/
theorem Represents.restartExpired (h : q.Represents P) (now : Int) {expired : List Entry}
    (hnodup : (expired.map Entry.timer).Nodup) (hout : ∀ e ∈ expired, e.timer ∉ P) :
    (q.restartExpired now expired).val.Represents
        (P ∪ {p | q.Restarts p ∧ p ∈ expired.map Entry.timer}) ∧
      Orderly (q.restartExpired now expired).trace := by
  induction expired generalizing q P with
  | nil => simpa [TimerQueue.restartExpired] using h
  | cons it expired ih =>
      obtain ⟨hit, hnodup⟩ := List.nodup_cons.mp hnodup
      have hitP := hout it (List.mem_cons_self ..)
      have hout' : ∀ e ∈ expired, e.timer ∉ P := fun e he => hout e (List.mem_cons_of_mem _ he)
      rw [restartExpired_cons]
      split_ifs with hrestarts
      · -- The timer is in neither index, so that its expiration may change.
        have hrestarted : (q.restarted now it.timer).Represents P := h.heap fun p hp => by
          rw [Function.update_of_ne]
          rintro rfl
          exact hitP hp
        obtain ⟨hinserted, horderly⟩ := hrestarted.insert hitP
        obtain ⟨hrest, horderly'⟩ := ih hinserted hnodup (fun e he => by
          rintro (hP | heq)
          · exact hout' e he hP
          · exact hit (heq ▸ List.mem_map_of_mem he))
        refine ⟨?_, ?_⟩
        · -- Restarting one timer does not change which others restart.
          have hset : P ∪ {p | q.Restarts p ∧ p ∈ (it :: expired).map Entry.timer} =
              P ∪ {it.timer} ∪ {p | ((q.restarted now it.timer).insert it.timer).val.1.Restarts p ∧
                p ∈ expired.map Entry.timer} := by
            ext p
            simp only [List.map_cons, List.mem_cons, Set.mem_union, Set.mem_ofPred_eq,
              Set.mem_singleton_iff, restarts_restarted]
            constructor
            · rintro (hP | ⟨hp, rfl | hp'⟩)
              · exact Or.inl (Or.inl hP)
              · exact Or.inl (Or.inr rfl)
              · exact Or.inr ⟨hp, hp'⟩
            · rintro ((hP | rfl) | ⟨hp, hp'⟩)
              · exact Or.inl hP
              · exact Or.inr ⟨hrestarts, Or.inl rfl⟩
              · exact Or.inr ⟨hp, Or.inr hp'⟩
          rw [hset]
          exact hrest
        · simp only [Traced.bind_trace, orderly_append]
          exact ⟨horderly, horderly'⟩
      · have hset : {p | q.Restarts p ∧ p ∈ (it :: expired).map Entry.timer} =
            {p | q.Restarts p ∧ p ∈ expired.map Entry.timer} := by
          ext p
          simp only [List.map_cons, List.mem_cons, Set.mem_ofPred_eq]
          constructor
          · rintro ⟨hp, rfl | hp'⟩
            · exact absurd hp hrestarts
            · exact ⟨hp, hp'⟩
          · exact fun ⟨hp, hp'⟩ => ⟨hp, Or.inr hp'⟩
        rw [hset]
        exact ih h hnodup hout'

/-- After restarting the batch, `reset` may only set the descriptor. -/
theorem reset_frame (q : TimerQueue) (expired : List Entry) (now : Int) :
    ∃ timerfd, (q.reset expired now).val = { (q.restartExpired now expired).val with timerfd } := by
  simp only [TimerQueue.reset, Traced.bind_val]
  split_ifs
  · exact ⟨_, rfl⟩
  · exact ⟨_, rfl⟩

theorem Represents.reset (h : q.Represents P) (now : Int) {expired : List Entry}
    (hnodup : (expired.map Entry.timer).Nodup) (hout : ∀ e ∈ expired, e.timer ∉ P) :
    (q.reset expired now).val.Represents
        (P ∪ {p | q.Restarts p ∧ p ∈ expired.map Entry.timer}) ∧
      Orderly (q.reset expired now).trace := by
  obtain ⟨hnew, horderly⟩ := h.restartExpired now hnodup hout
  obtain ⟨timerfd, hval⟩ := reset_frame q expired now
  refine ⟨hval ▸ ⟨hnew.keys, hnew.actives⟩, ?_⟩
  simp only [TimerQueue.reset, Traced.bind_trace, orderly_append]
  split_ifs with hvalid
  · exact ⟨horderly, resetTimerfd_orderly _ _⟩
  · exact ⟨horderly, orderly_nil⟩

end Restart

end TimerQueue

namespace TimerLoop

open TimerQueue

/-! ## The indexes in every state -/

/-- The indexes represent `P`; the timers waiting to be added and those of the batch being
run are outside of it. -/
structure Books (P : Set TimerPtr) (s : TimerLoop) : Prop where
  index : s.queue.Represents P
  null : 0 ∉ P
  bound : ∀ p ∈ s.bound, p ≠ 0 ∧ p ∉ P ∧ p ∉ s.phase.expired.map Entry.timer
  boundNodup : s.bound.Nodup
  batch : ∀ p ∈ s.phase.expired.map Entry.timer, p ≠ 0 ∧ p ∉ P
  batchNodup : (s.phase.expired.map Entry.timer).Nodup
  remaining : s.phase.remaining <:+ s.phase.expired
  calling : s.queue.callingExpiredTimers = true ∨ s.phase.expired = []

variable {P : Set TimerPtr} {s t : TimerLoop} {es : List Event}

/-- Timers of the index, bound timers and timers of the batch live. -/
theorem Books.mem_owners (h : Books P s) {p : TimerPtr}
    (hp : p ∈ P ∨ p ∈ s.bound ∨ p ∈ s.phase.expired.map Entry.timer) : p ∈ s.owners := by
  simp only [owners, List.mem_append]
  rcases hp with hp | hp | hp
  · have hentry : p ∈ s.queue.timers.toList.map Entry.timer :=
      List.mem_map.mpr ⟨_, h.index.mem_timers.mpr hp, rfl⟩
    exact Or.inl (Or.inl (Or.inl (Or.inr hentry)))
  · exact Or.inl (Or.inl (Or.inl (Or.inl hp)))
  · exact Or.inr hp

theorem Books.start (heap : TimerPtr → Timer) (clock : Nat) (numCreated : Int) :
    Books ∅ (start heap clock numCreated) := by
  refine ⟨⟨?_, ?_⟩, by simp, by simp [TimerLoop.start], List.nodup_nil, by
    simp [TimerLoop.start, Phase.expired], List.nodup_nil, List.suffix_refl _, Or.inr rfl⟩
  · simp [TimerLoop.start, create]
  · simp [TimerLoop.start, create]

/-- A new timer is none of the indexed ones. -/
theorem Books.addTimer (h : Books P s) {timer : TimerPtr} (hnull : timer ≠ 0)
    (hfresh : timer ∉ s.owners) (when_ : Int) (interval : Interval) :
    Books P (s.addTimer timer when_ interval).val := by
  have hP : timer ∉ P := fun hp => hfresh (h.mem_owners (Or.inl hp))
  have hbound : timer ∉ s.bound := fun hp => hfresh (h.mem_owners (Or.inr (Or.inl hp)))
  have hbatch : timer ∉ s.phase.expired.map Entry.timer :=
    fun hp => hfresh (h.mem_owners (Or.inr (Or.inr hp)))
  constructor
  case index =>
    refine h.index.heap fun p hp => ?_
    rw [Function.update_of_ne]
    rintro rfl
    exact hP hp
  case null => exact h.null
  case bound =>
    intro p hp
    rcases List.mem_append.mp hp with hp | hp
    · exact h.bound p hp
    · obtain rfl := List.mem_singleton.mp hp
      exact ⟨hnull, hP, hbatch⟩
  case boundNodup =>
    refine List.nodup_append.mpr ⟨h.boundNodup, List.nodup_singleton _, ?_⟩
    rintro p hp p' hp' rfl
    exact hbound (List.mem_singleton.mp hp' ▸ hp)
  case batch => exact h.batch
  case batchNodup => exact h.batchNodup
  case remaining => exact h.remaining
  case calling => exact h.calling

theorem Books.addTimerInLoop (h : Books P s) {timer : TimerPtr} (hmem : timer ∈ s.bound) :
    Books (P ∪ {timer}) (s.addTimerInLoop timer).val ∧
      Orderly (s.addTimerInLoop timer).trace := by
  obtain ⟨hnull, hP, hbatch⟩ := h.bound timer hmem
  obtain ⟨hindex, horderly⟩ := h.index.addTimerInLoop hP
  have hcalling : (s.queue.addTimerInLoop timer).val.callingExpiredTimers =
      s.queue.callingExpiredTimers := by
    simp only [TimerQueue.addTimerInLoop, Traced.bind_val]
    split_ifs <;> rfl
  constructor
  · constructor
    case index => exact hindex
    case null =>
      rintro (hzero | hzero)
      · exact h.null hzero
      · exact hnull hzero.symm
    case bound =>
      intro p hp
      obtain ⟨hne, hp⟩ := (h.boundNodup.mem_erase_iff).mp hp
      obtain ⟨hpnull, hpP, hpbatch⟩ := h.bound p hp
      refine ⟨hpnull, ?_, hpbatch⟩
      rintro (hp' | rfl)
      · exact hpP hp'
      · exact hne rfl
    case boundNodup => exact h.boundNodup.erase _
    case batch =>
      intro p hp
      obtain ⟨hpnull, hpP⟩ := h.batch p hp
      refine ⟨hpnull, ?_⟩
      rintro (hp' | rfl)
      · exact hpP hp'
      · exact hbatch hp
    case batchNodup => exact h.batchNodup
    case remaining => exact h.remaining
    case calling =>
      rcases h.calling with hc | hc
      · exact Or.inl (hcalling.trans hc)
      · exact Or.inr hc
  · simp only [TimerLoop.addTimerInLoop, Traced.bind_trace, Traced.pure_trace, orderly_append]
    exact ⟨horderly, by simp [Event.Orderly]⟩

theorem Books.cancelInLoop (h : Books P s) (id : TimerId) :
    Books {p ∈ P | s.queue.active p ≠ ActiveTimer.mk (s.lock id) id.sequence}
        (s.cancelInLoop id).val ∧ Orderly (s.cancelInLoop id).trace := by
  obtain ⟨hindex, horderly⟩ := h.index.cancelInLoop (s.lock id) id.sequence
  have hcalling : (s.queue.cancelInLoop (s.lock id) id.sequence).val.callingExpiredTimers =
      s.queue.callingExpiredTimers := by
    simp only [TimerQueue.cancelInLoop]
    split_ifs <;> rfl
  constructor
  · constructor
    case index => exact hindex
    case null => exact fun hzero => h.null hzero.1
    case bound =>
      intro p hp
      obtain ⟨hpnull, hpP, hpbatch⟩ := h.bound p hp
      exact ⟨hpnull, fun hp' => hpP hp'.1, hpbatch⟩
    case boundNodup => exact h.boundNodup
    case batch =>
      intro p hp
      exact ⟨(h.batch p hp).1, fun hp' => (h.batch p hp).2 hp'.1⟩
    case batchNodup => exact h.batchNodup
    case remaining => exact h.remaining
    case calling =>
      rcases h.calling with hc | hc
      · exact Or.inl (hcalling.trans hc)
      · exact Or.inr hc
  · simp only [TimerLoop.cancelInLoop, Traced.bind_trace, Traced.pure_trace, orderly_append]
    exact ⟨horderly, by simp [Event.Orderly]⟩

theorem readTimerfd_represents {q : TimerQueue} (h : q.Represents P) :
    q.readTimerfd.Represents P := by
  unfold readTimerfd
  split
  · exact ⟨h.keys, h.actives⟩
  · exact h

theorem readTimerfd_heap (q : TimerQueue) : q.readTimerfd.heap = q.heap := by
  unfold readTimerfd
  split <;> rfl

theorem readTimerfd_timers (q : TimerQueue) : q.readTimerfd.timers = q.timers := by
  unfold readTimerfd
  split <;> rfl

/-- The batch is taken out of the indexes. -/
theorem Books.getExpired (h : Books P s) (now : Int) :
    Books {p ∈ P | now ≤ (s.queue.heap p).expiration} (s.getExpired now).val ∧
      Orderly (s.getExpired now).trace := by
  obtain ⟨hindex, hmem, hnodup, horderly⟩ := (readTimerfd_represents h.index).getExpired now
  have hbatch : ∀ p ∈ (s.queue.readTimerfd.getExpired now).val.2.map Entry.timer,
      p ∈ P ∧ (s.queue.heap p).expiration < now := by
    intro p hp
    obtain ⟨e, he, rfl⟩ := List.mem_map.mp hp
    obtain ⟨hentry, hlt⟩ := (hmem e).mp he
    rw [readTimerfd_timers] at hentry
    obtain ⟨hP, hkey⟩ := (h.index.keys e).mp hentry
    exact ⟨hP, by rwa [← hkey]⟩
  rw [readTimerfd_heap] at hindex
  constructor
  · constructor
    case index => exact ⟨hindex.keys, hindex.actives⟩
    case null => exact fun hzero => h.null hzero.1
    case bound =>
      intro p hp
      obtain ⟨hpnull, hpP, -⟩ := h.bound p hp
      exact ⟨hpnull, fun hp' => hpP hp'.1, fun hp' => hpP (hbatch p hp').1⟩
    case boundNodup => exact h.boundNodup
    case batch =>
      intro p hp
      obtain ⟨hpP, hlt⟩ := hbatch p hp
      refine ⟨?_, fun hp' => ?_⟩
      · rintro rfl
        exact h.null hpP
      · have hle : now ≤ (s.queue.heap p).expiration := hp'.2
        omega
    case batchNodup => exact hnodup
    case remaining => exact List.suffix_refl _
    case calling => exact Or.inl rfl
  · simpa [TimerLoop.getExpired] using horderly

/-- The descriptor and the clock do not matter. -/
theorem Books.retime (h : Books P s) (timerfd : Timerfd) (clock : Nat) :
    Books P { s with queue := { s.queue with timerfd, clock } } :=
  ⟨⟨h.index.keys, h.index.actives⟩, h.null, h.bound, h.boundNodup, h.batch, h.batchNodup,
    h.remaining, h.calling⟩

theorem Books.handleRead (h : Books P s) (hphase : s.phase = .idle) (now : Int) :
    Books P { s with phase := .entered now } := by
  have hbound := h.bound
  rw [hphase] at hbound
  exact ⟨h.index, h.null, hbound, h.boundNodup, fun p hp => absurd hp List.not_mem_nil,
    List.nodup_nil, List.suffix_refl _, Or.inr rfl⟩

theorem Books.run (h : Books P s) {now : Int} {expired rest : List Entry} {it : Entry}
    (hphase : s.phase = .running now expired (it :: rest)) :
    Books P (s.run now expired it rest).val := by
  have hbound := h.bound
  have hbatch := h.batch
  have hnodup := h.batchNodup
  have hremaining := h.remaining
  have hcalling := h.calling
  rw [hphase] at hbound hbatch hnodup hremaining hcalling
  exact ⟨h.index, h.null, hbound, h.boundNodup, hbatch, hnodup,
    (List.suffix_cons it rest).trans hremaining, hcalling⟩

theorem Books.reset (h : Books P s) {now : Int} {expired : List Entry}
    (hphase : s.phase = .running now expired []) :
    Books (P ∪ {p | s.queue.Restarts p ∧ p ∈ expired.map Entry.timer}) (s.reset now expired).val ∧
      Orderly (s.reset now expired).trace := by
  have hbound := h.bound
  have hbatch := h.batch
  have hnodup := h.batchNodup
  rw [hphase] at hbound hbatch hnodup
  have hindex : ({ s.queue with callingExpiredTimers := false } : TimerQueue).Represents P :=
    ⟨h.index.keys, h.index.actives⟩
  obtain ⟨hnew, horderly⟩ := hindex.reset now hnodup
    (fun e he => (hbatch e.timer (List.mem_map_of_mem he)).2)
  simp only [Phase.expired] at hnew horderly
  constructor
  · constructor
    case index => exact hnew
    case null =>
      rintro (hzero | hzero)
      · exact h.null hzero
      · exact (hbatch 0 hzero.2).1 rfl
    case bound =>
      intro p hp
      refine ⟨(hbound p hp).1, ?_, List.not_mem_nil⟩
      rintro (hp' | hp')
      · exact (hbound p hp).2.1 hp'
      · exact (hbound p hp).2.2 hp'.2
    case boundNodup => exact h.boundNodup
    case batch => exact fun p hp => absurd hp List.not_mem_nil
    case batchNodup => exact List.nodup_nil
    case remaining => exact List.suffix_refl _
    case calling => exact Or.inr rfl
  · simpa [TimerLoop.reset] using horderly

/-- Every step keeps the books, and what it shows of the indexes is in order. -/
theorem Books.step (h : Books P s) {l : Label} (hstep : Step s l es t) :
    (∃ P', Books P' t) ∧ Orderly es := by
  have hcases := step_cases hstep
  cases l with
  | addTimer timer when_ interval =>
      obtain ⟨hnull, hfresh, heq⟩ := hcases
      obtain ⟨rfl, rfl⟩ := Traced.mk.inj heq
      exact ⟨⟨P, h.addTimer hnull hfresh when_ interval⟩, by simp [Event.Orderly]⟩
  | addTimerInLoop timer =>
      obtain ⟨hmem, -, heq⟩ := hcases
      obtain ⟨rfl, rfl⟩ := Traced.mk.inj heq
      obtain ⟨hbooks, horderly⟩ := h.addTimerInLoop hmem
      exact ⟨⟨_, hbooks⟩, horderly⟩
  | cancelInLoop id =>
      obtain ⟨-, heq⟩ := hcases
      obtain ⟨rfl, rfl⟩ := Traced.mk.inj heq
      obtain ⟨hbooks, horderly⟩ := h.cancelInLoop id
      exact ⟨⟨_, hbooks⟩, horderly⟩
  | tick micros =>
      obtain ⟨rfl, rfl⟩ := hcases
      exact ⟨⟨P, h.retime _ _⟩, orderly_nil⟩
  | expire =>
      obtain ⟨-, rfl, rfl⟩ := hcases
      exact ⟨⟨P, h.retime _ _⟩, orderly_nil⟩
  | handleRead =>
      obtain ⟨hphase, rfl, rfl⟩ := hcases
      exact ⟨⟨P, h.handleRead hphase _⟩, orderly_nil⟩
  | getExpired =>
      obtain ⟨now, hphase, heq⟩ := hcases
      obtain ⟨rfl, rfl⟩ := Traced.mk.inj heq
      obtain ⟨hbooks, horderly⟩ := h.getExpired now
      exact ⟨⟨_, hbooks⟩, horderly⟩
  | run =>
      obtain ⟨now, expired, it, rest, hphase, heq⟩ := hcases
      obtain ⟨rfl, rfl⟩ := Traced.mk.inj heq
      exact ⟨⟨P, h.run hphase⟩, by simp [Event.Orderly]⟩
  | reset =>
      obtain ⟨now, expired, hphase, heq⟩ := hcases
      obtain ⟨rfl, rfl⟩ := Traced.mk.inj heq
      obtain ⟨hbooks, horderly⟩ := h.reset hphase
      exact ⟨⟨_, hbooks⟩, horderly⟩

/-- Every run keeps the books. -/
theorem books_of_run {heap : TimerPtr → Timer} {clock : Nat} {numCreated : Int}
    {ls : List Label} (h : Run Step (start heap clock numCreated) ls es t) :
    (∃ P, Books P t) ∧ Orderly es :=
  h.history (I := fun es s => (∃ P, Books P s) ∧ Orderly es) []
    ⟨⟨∅, Books.start heap clock numCreated⟩, orderly_nil⟩
    (fun past s l es t ⟨⟨P, hbooks⟩, horderly⟩ hstep => by
      obtain ⟨hnext, horderly'⟩ := hbooks.step hstep
      exact ⟨hnext, orderly_append.mpr ⟨horderly, horderly'⟩⟩)

/-- **The two timer indexes always agree**: in every run, wherever the code compares their
sizes both hold the same timers, each once, under their current expirations, and no
assertion fails but the two about iterators. -/
theorem indexes_agree {heap : TimerPtr → Timer} {clock : Nat} {numCreated : Int}
    {ls : List Label} (h : Run Step (start heap clock numCreated) ls es t) :
    (∀ snapshot, .sizesAsserted snapshot ∈ es → snapshot.Agrees) ∧
      ∀ a, .failed a ∈ es → a = .cancelItErase ∨ a = .getExpiredSentry := by
  obtain ⟨-, horderly⟩ := books_of_run h
  exact ⟨fun snapshot hmem => horderly _ hmem, fun a hmem => horderly _ hmem⟩

/-- Three timers, one of which repeats: the first two run in one batch, where the first
cancels the third and the second adds a new one at the address that became free. -/
def busy : List Label :=
  [.addTimer 8 10 .zero, .addTimerInLoop 8, .addTimer 4 10 ⟨true, 5, fun _ => by decide⟩,
    .addTimerInLoop 4, .addTimer 6 900 .zero, .addTimerInLoop 6, .tick 200, .expire, .handleRead,
    .getExpired, .run, .cancelInLoop ⟨6, 2⟩, .run, .addTimer 6 900 .zero, .addTimerInLoop 6, .reset]

theorem indexes_agree_busy :
    ∃ es t, Run Step (start (fun _ => ⟨0, .zero, 0⟩) 0 0) busy es t ∧ .started ⟨4, 1⟩ ∈ es ∧
      (∀ snapshot, .sizesAsserted snapshot ∈ es → snapshot.Agrees) ∧
      ∀ a, .failed a ∈ es → a = .cancelItErase ∨ a = .getExpiredSentry := by
  obtain ⟨es, t, hrun, hstarted⟩ : ∃ es t, Run Step (start (fun _ => ⟨0, .zero, 0⟩) 0 0) busy es t ∧
      .started ⟨4, 1⟩ ∈ es := Run.exists_of_exec _ (by decide +kernel)
  exact ⟨es, t, hrun, hstarted, indexes_agree hrun⟩

end TimerLoop
end Chaonet
