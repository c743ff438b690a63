import Chaonet.Connection.Session

/-!
# A closed connection and its poller

After `handleClose` the channel has no interest left, so that `connectionDestroyed` can
remove it from the poller, where it should stay out.  Three in-loop functions do not
look at the state of the connection.  Run late, `sendInLoop` turns write interest on for
what it cannot write at once, `startReadInLoop` turns read interest on, and
`stopReadInLoop` updates the channel even after its removal, which registers it again.

`StaysOut` is the promise, `not_staysOut_late` a run that breaks it, and
`staysOut_of_calm` shows that nothing but these three late functors does.
-/

namespace Chaonet

open Foundation

namespace TcpConnection

/-- Whether a write with result `r` leaves nothing of the message to be buffered. -/
def TakesWhole (c : TcpConnection) (message : Bytes) : WriteResult → Prop
  | .count n => message = [] ∨ c.outputBuffer.readableBytes = 0 ∧ message.length ≤ n
  | .error _ => message = []

instance (c : TcpConnection) (message : Bytes) : ∀ r, Decidable (c.TakesWhole message r)
  | .count _ => inferInstanceAs (Decidable (_ ∨ _))
  | .error _ => inferInstanceAs (Decidable (_ = _))

variable {c c' : TcpConnection}

/-- A registered channel stays registered, whatever interest it gets. -/
theorem Interest.tracks (h : c.Interest c') (hbooks : c.poller.Tracks c.channel)
    (hindex : c.channel.index ≠ kNew) :
    c'.poller.Tracks c'.channel ∧ c'.channel.index ≠ kNew := by
  cases h with
  | same hchannel hpoller =>
      rw [hchannel, hpoller]
      exact ⟨hbooks, hindex⟩
  | updated events h =>
      obtain ⟨-, htracks, -, hne⟩ := EPoller.updateChannel_tracks hbooks events
      rw [← h] at htracks hne
      exact ⟨htracks, hne⟩

/-- A late message that is written at once leaves the channel alone. -/
theorem sendInLoop_closed (hnone : c.channel.isNoneEvent) {message : Bytes} {r : WriteResult}
    (hwhole : c.TakesWhole message r) :
    (c.sendInLoop message r).val.channel = c.channel ∧
      (c.sendInLoop message r).val.poller = c.poller := by
  have hidle := Channel.not_isWriting_of_isNoneEvent hnone
  have hdone : ¬(c.sendDirectly message r).val.toNat < message.length := by
    cases r with
    | count n =>
        rcases hwhole with rfl | ⟨hempty, hle⟩
        · simp
        · simp [sendDirectly, hidle, hempty, write, hle]
    | error wouldBlock =>
        obtain rfl : message = [] := hwhole
        simp
  simp [sendInLoop, hdone]

theorem stopReadInLoop_closed (hnone : c.channel.isNoneEvent) :
    (c.stopReadInLoop).val.channel.isNoneEvent ∧
      (c.reading = false → c.stopReadInLoop = pure c) := by
  have hreading : ¬c.channel.isReading := by
    have hevents : c.channel.events = 0 := hnone
    simp [Channel.isReading, hevents]
  constructor
  · unfold stopReadInLoop
    split_ifs
    · simpa using Channel.isNoneEvent_disableReading hnone
    · exact hnone
  · intro hoff
    simp [stopReadInLoop, hoff, hreading]

theorem handleRead_closed (hnone : c.state = .kDisconnected → c.channel.isNoneEvent)
    (r : Option Bytes) (consumed : Nat)
    (hstate : (c.handleRead r consumed).val.state = .kDisconnected) :
    (c.handleRead r consumed).val.channel.isNoneEvent := by
  by_cases hpos : 0 < (c.inputBuffer.readFd r).val.1
  · simp only [handleRead, Traced.bind_val, Traced.lift_val, hpos, if_true,
      Traced.pure_val] at hstate ⊢
    exact hnone hstate
  · by_cases hzero : (c.inputBuffer.readFd r).val.1 = 0
    · simp [handleRead, hzero, handleClose]
    · simp only [handleRead, Traced.bind_val, Traced.lift_val, hpos, hzero, if_false,
        Traced.pure_val] at hstate ⊢
      exact hnone hstate

theorem handleWrite_closed (hnone : c.state = .kDisconnected → c.channel.isNoneEvent)
    (r : WriteResult) (hstate : (c.handleWrite r).val.state = .kDisconnected) :
    (c.handleWrite r).val.channel.isNoneEvent := by
  rw [handleWrite_state] at hstate
  have hidle := Channel.not_isWriting_of_isNoneEvent (hnone hstate)
  obtain ⟨outputBuffer, front, -, heq | ⟨hwriting, -⟩⟩ := handleWrite_cases c r
  · rw [heq]
    exact hnone hstate
  · exact absurd hwriting hidle

end TcpConnection

namespace Session

/-! ## The promise -/

/-- **A closed connection stays out of the poller**, after the events `es`. -/
structure StaysOut (es : List Event) (s : Session) : Prop where
  noEvent : s.conn.state = .kDisconnected → s.conn.channel.isNoneEvent
  asserted : .conn (.poller (.failed .removeIsNoneEvent)) ∉ es
  removed : .removed ∈ es → s.conn.poller.channels s.conn.channel.fd = none ∧
    s.conn.poller.epollSet s.conn.channel.fd = none

/-- What a functor may do when it runs late; `r` is the result of its `::write`. -/
def Functor.Calm (c : TcpConnection) (r : WriteResult) : Functor → Prop
  | .sendInLoop _ message => c.TakesWhole message r
  | .startReadInLoop => False
  | .stopReadInLoop => c.channel.index = kNew → c.reading = false
  | _ => True

instance (c : TcpConnection) (r : WriteResult) : ∀ f : Functor, Decidable (f.Calm c r)
  | .sendInLoop _ message => inferInstanceAs (Decidable (c.TakesWhole message r))
  | .startReadInLoop => .isFalse id
  | .stopReadInLoop => inferInstanceAs (Decidable (_ → _))
  | .shutdownInLoop | .connectionDestroyed | .user _ => .isTrue trivial

/-- The functor a step executes, with the result of its `::write`. -/
def executed (s : Session) : Label → Option (Functor × WriteResult)
  | .call .loop .startRead r => some (.startReadInLoop, r)
  | .call .loop .stopRead r => some (.stopReadInLoop, r)
  | .runFunctor r => (s.queue.batch.getD []).head?.map fun f => (f, r)
  | _ => none

/-- On a closed connection, the step executes nothing that brings the channel back. -/
def Calm (s : Session) (l : Label) : Prop :=
  s.conn.state = .kDisconnected → ∀ x ∈ s.executed l, x.1.Calm s.conn x.2

instance (s : Session) (l : Label) : Decidable (s.Calm l) := inferInstanceAs (Decidable (_ → _))

/-! ## The invariant -/

structure Settled (es : List Event) (s : Session) : Prop where
  /-- Handling events and running functors take turns. -/
  turn : s.handling = [] ∨ s.queue.batch = none
  books : s.conn.poller.Tracks s.conn.channel
  opened : s.conn.state ≠ .kDisconnected →
    s.conn.channel.index ≠ kNew ∧ s.closing = 0 ∧ .connectionDestroyed ∉ s.queue.queued
  closed : s.conn.state = .kDisconnected → s.conn.channel.isNoneEvent
  removed : .removed ∈ es → s.conn.channel.index = kNew
  unhandled : s.conn.channel.index = kNew → s.handling = []
  asserted : .conn (.poller (.failed .removeIsNoneEvent)) ∉ es

variable {es : List Event} {s : Session}

theorem Settled.staysOut (h : Settled es s) : StaysOut es s := by
  constructor
  case noEvent => exact h.closed
  case asserted => exact h.asserted
  case removed =>
    intro hremoved
    have hnew := h.removed hremoved
    cases h.books with
    | new _ hchannels hset => exact ⟨hchannels, hset⟩
    | added hindex _ _ => simp [hindex, kNew, kAdded] at hnew
    | deleted hindex _ _ => simp [hindex, kNew, kDeleted] at hnew

theorem Settled.state_of_new (h : Settled es s) (hnew : s.conn.channel.index = kNew) :
    s.conn.state = .kDisconnected := by
  by_contra hopen
  exact (h.opened hopen).1 hnew

/-- Events that say nothing about the poller. -/
theorem Settled.event (h : Settled es s) {e : Event} (hremoved : e ≠ .removed)
    (hassert : e ≠ .conn (.poller (.failed .removeIsNoneEvent))) : Settled (es ++ [e]) s := by
  constructor
  case turn => exact h.turn
  case books => exact h.books
  case opened => exact h.opened
  case closed => exact h.closed
  case removed =>
    intro hmem
    apply h.removed
    simpa [hremoved.symm] using hmem
  case unhandled => exact h.unhandled
  case asserted => simpa [hassert.symm] using h.asserted

/-- Queue a functor other than `connectionDestroyed`. -/
theorem Settled.push (h : Settled es s) (fs : List Functor) (hfs : .connectionDestroyed ∉ fs) :
    Settled es { s with queue := s.queue.push fs } :=
  ⟨h.turn, h.books, fun hopen => ⟨(h.opened hopen).1, (h.opened hopen).2.1, by
    simp [(h.opened hopen).2.2, hfs]⟩, h.closed, h.removed, h.unhandled, h.asserted⟩

/-- A member function that respects `Effect` and leaves a closed channel without interest
and a removed one alone keeps the invariant. -/
theorem Settled.perform (h : Settled es s) {x : Traced TcpConnection.Event TcpConnection}
    (heffect : s.conn.Effect x)
    (hnone : x.val.state = .kDisconnected → x.val.channel.isNoneEvent)
    (hnew : s.conn.channel.index = kNew →
      x.val.channel = s.conn.channel ∧ x.val.poller = s.conn.poller) :
    Settled (es ++ (s.perform x).trace) (s.perform x).val := by
  have hold : .removed ∈ es ++ (s.perform x).trace → .removed ∈ es := by
    simp [Session.perform]
  have hassert : .conn (.poller (.failed .removeIsNoneEvent)) ∉ es ++ (s.perform x).trace := by
    simpa [Session.perform, h.asserted] using heffect.asserts
  by_cases hindex : s.conn.channel.index = kNew
  · -- The channel was removed before, and is left alone.
    obtain ⟨hchannel, hpoller⟩ := hnew hindex
    have hdisc : x.val.state = .kDisconnected := by
      rcases heffect.state with hstate | hstate
      · rw [hstate, h.state_of_new hindex]
      · exact hstate
    constructor
    case turn => exact h.turn
    case books => simpa [hchannel, hpoller] using h.books
    case opened => exact fun hopen => absurd hdisc hopen
    case closed => exact hnone
    case removed =>
      intro _
      simpa [hchannel] using hindex
    case unhandled =>
      intro _
      exact h.unhandled hindex
    case asserted => exact hassert
  · -- The channel is registered, and stays so whatever its interest becomes.
    obtain ⟨hbooks, hne⟩ := heffect.interest.tracks h.books hindex
    refine ⟨h.turn, hbooks, fun hopen => ⟨hne, ?_, ?_⟩, hnone,
      fun hmem => absurd (h.removed (hold hmem)) hindex, fun hnew => absurd hnew hne, hassert⟩
    all_goals
      have hstate : s.conn.state ≠ .kDisconnected := by
        rcases heffect.state with hstate | hstate
        · exact hstate ▸ hopen
        · exact absurd hstate hopen
    · have hquiet : .closeCallback ∉ x.trace := fun hclose => hopen (heffect.closes hclose)
      simp [Session.perform, (h.opened hstate).2.1, List.count_eq_zero_of_not_mem hquiet]
    · simp only [Session.perform, BatchQueue.queued_push, List.mem_append, not_or]
      refine ⟨(h.opened hstate).2.2, fun hmem => ?_⟩
      obtain ⟨u, hu⟩ := user_of_mem_queuedBy hmem
      simp at hu

/-- Execute a functor that is calm if the connection is closed. -/
theorem Settled.invoke (h : Settled es s) {f : Functor} {r : WriteResult}
    (hcalm : s.conn.state = .kDisconnected → f.Calm s.conn r)
    (hdestroyed : f = .connectionDestroyed → s.conn.state = .kDisconnected ∧ s.handling = []) :
    Settled (es ++ (s.invoke f r).trace) (s.invoke f r).val := by
  cases f with
  | sendInLoop call message =>
      have hsame (hdisc : s.conn.state = .kDisconnected) :=
        TcpConnection.sendInLoop_closed (h.closed hdisc) (hcalm hdisc)
      have hstart := h.event (e := .sending call message) (by simp) (by simp)
      have hrun := hstart.perform (TcpConnection.sendInLoop_effect s.conn message r)
        (fun hdisc => by
          rw [TcpConnection.sendInLoop_state] at hdisc
          rw [(hsame hdisc).1]
          exact h.closed hdisc)
        (fun hnew => hsame (h.state_of_new hnew))
      simpa [Session.invoke] using hrun
  | startReadInLoop =>
      refine h.perform (TcpConnection.startReadInLoop_effect s.conn) (fun hdisc => ?_)
        (fun hnew => (hcalm (h.state_of_new hnew)).elim)
      rw [TcpConnection.startReadInLoop_state] at hdisc
      exact (hcalm hdisc).elim
  | stopReadInLoop =>
      refine h.perform (TcpConnection.stopReadInLoop_effect s.conn) (fun hdisc => ?_)
        (fun hnew => ?_)
      · rw [TcpConnection.stopReadInLoop_state] at hdisc
        exact (TcpConnection.stopReadInLoop_closed (h.closed hdisc)).1
      · have hdisc := h.state_of_new hnew
        rw [(TcpConnection.stopReadInLoop_closed (h.closed hdisc)).2 (hcalm hdisc hnew)]
        exact ⟨rfl, rfl⟩
  | shutdownInLoop =>
      refine h.perform ⟨Or.inl rfl, .same rfl rfl, ?_, ?_⟩ h.closed (fun _ => ⟨rfl, rfl⟩)
      · simp [TcpConnection.shutdownInLoop]
      · simp [TcpConnection.shutdownInLoop]
  | connectionDestroyed =>
      -- The state has changed already, so that nothing but `removeChannel` is done.
      obtain ⟨hdisc, hhandling⟩ := hdestroyed rfl
      have hnone := h.closed hdisc
      have hremove : s.conn.connectionDestroyed = s.conn.removeChannel := by
        simp [TcpConnection.connectionDestroyed, hdisc]
      obtain ⟨hbooks, hchannel⟩ := EPoller.removeChannel_tracks h.books
      have hval : (s.invoke .connectionDestroyed r).val.conn = (s.conn.removeChannel).val := by
        simp [Session.invoke, hremove]
      have hchannel : (s.conn.removeChannel).val.channel = { s.conn.channel with index := kNew } :=
        hchannel
      constructor
      case turn => exact Or.inl hhandling
      case books =>
        rw [hval]
        exact hbooks
      case opened =>
        intro hopen
        apply absurd _ hopen
        rw [hval]
        exact hdisc
      case closed =>
        intro _
        rw [hval, hchannel]
        exact hnone
      case removed =>
        intro _
        rw [hval, hchannel]
      case unhandled => exact fun _ => hhandling
      case asserted =>
        have hassert :
            .failed .removeIsNoneEvent ∉ (s.conn.poller.removeChannel s.conn.channel).trace :=
          fun hmem => EPoller.removeIsNoneEvent_mem_removeChannel.mp hmem hnone
        simpa [Session.invoke, Session.perform, hremove, TcpConnection.removeChannel, h.asserted]
          using hassert
  | user f => simpa [Session.invoke] using h

/-- Run a channel callback; the channel is registered then. -/
theorem Settled.handle (h : Settled es s) (hindex : s.conn.channel.index ≠ kNew)
    (cb : ChannelCallback) (read : Option Bytes) (consumed : Nat) (r : WriteResult) :
    Settled (es ++ (s.handle cb read consumed r).trace) (s.handle cb read consumed r).val := by
  cases cb with
  | closeCallback =>
      exact h.perform (TcpConnection.handleClose_effect s.conn)
        (fun _ => by simp [TcpConnection.handleClose]) (fun hnew => absurd hnew hindex)
  | errorCallback => simpa [Session.handle] using h
  | readCallback =>
      exact h.perform (TcpConnection.handleRead_effect s.conn read consumed)
        (TcpConnection.handleRead_closed h.closed read consumed) (fun hnew => absurd hnew hindex)
  | writeCallback =>
      exact h.perform (TcpConnection.handleWrite_effect s.conn r)
        (TcpConnection.handleWrite_closed h.closed r) (fun hnew => absurd hnew hindex)

theorem Settled.runInLoop (h : Settled es s) (t : Thread) {f : Functor} {r : WriteResult}
    (hcalm : t = .loop → s.conn.state = .kDisconnected → f.Calm s.conn r)
    (hf : f ≠ .connectionDestroyed) :
    Settled (es ++ (s.runInLoop t f r).trace) (s.runInLoop t f r).val := by
  cases t with
  | loop => exact h.invoke (hcalm rfl) (fun hdestroyed => absurd hdestroyed hf)
  | other n => simpa [Session.runInLoop] using h.push [f] (by simpa using hf.symm)

/-- A call of a public member. -/
theorem Settled.call (h : Settled es s) (t : Thread) (c : PublicCall) (r : WriteResult)
    (hcalm : s.Calm (.call t c r)) :
    Settled (es ++ (s.call t c r).trace) (s.call t c r).val := by
  cases c with
  | send message =>
      by_cases hstate : s.conn.state = .kConnected
      · have hopen : s.conn.state ≠ .kDisconnected := by simp [hstate]
        have haccept := h.event (e := .accepted s.calls t message) (by simp) (by simp)
        have hcount : Settled (es ++ [.accepted s.calls t message])
            { s with calls := s.calls + 1 } :=
          ⟨haccept.turn, haccept.books, haccept.opened, haccept.closed, haccept.removed,
            haccept.unhandled, haccept.asserted⟩
        have hrun := hcount.runInLoop t (f := .sendInLoop s.calls message) (r := r)
          (fun _ hdisc => absurd hdisc hopen) (by simp)
        simpa [Session.call, hstate] using hrun
      · simpa [Session.call, hstate] using h
  | shutdown =>
      have hcalled := h.event (e := .shutdownCalled t) (by simp) (by simp)
      by_cases hstate : s.conn.state = .kConnected
      · have hopen : s.conn.state ≠ .kDisconnected := by simp [hstate]
        have hdisc : Settled (es ++ [.shutdownCalled t])
            { s with conn := { s.conn with state := .kDisconnecting } } :=
          ⟨hcalled.turn, hcalled.books, fun _ => hcalled.opened hopen,
            fun hdisc => by simp at hdisc, hcalled.removed, hcalled.unhandled, hcalled.asserted⟩
        have hrun := hdisc.runInLoop t (f := .shutdownInLoop) (r := r)
          (fun _ hdisc => by simp at hdisc) (by simp)
        simpa [Session.call, hstate] using hrun
      · simpa [Session.call, hstate] using hcalled
  | startRead =>
      refine h.runInLoop t (fun ht hdisc => ?_) (by simp)
      subst ht
      exact hcalm hdisc _ rfl
  | stopRead =>
      refine h.runInLoop t (fun ht hdisc => ?_) (by simp)
      subst ht
      exact hcalm hdisc _ rfl

/-- Run the functor that was taken from the queue. -/
theorem Settled.runFunctor (h : Settled es s) {f : Functor} {rest : List Functor}
    (hbatch : s.queue.batch = some (f :: rest)) (r : WriteResult)
    (hcalm : s.Calm (.runFunctor r)) :
    Settled (es ++ ({ s with queue := s.queue.proceed rest }.invoke f r).trace)
      ({ s with queue := s.queue.proceed rest }.invoke f r).val := by
  have hqueued := BatchQueue.queued_proceed hbatch
  have hhandling : s.handling = [] := by simpa [hbatch] using h.turn
  have hopened := h.opened
  rw [hqueued] at hopened
  have hpop : Settled es { s with queue := s.queue.proceed rest } :=
    ⟨Or.inl hhandling, h.books, fun hopen => ⟨(hopened hopen).1, (hopened hopen).2.1,
      fun hmem => (hopened hopen).2.2 (List.mem_cons_of_mem _ hmem)⟩, h.closed, h.removed,
      h.unhandled, h.asserted⟩
  refine hpop.invoke (fun hdisc => ?_) (fun hdestroyed => ⟨?_, hhandling⟩)
  · exact hcalm hdisc (f, r) (by simp [executed, hbatch])
  · by_contra hopen
    exact (hopened hopen).2.2 (by simp [hdestroyed])

/-- Every calm step keeps the invariant. -/
theorem Settled.step (h : Settled es s) {l : Label} {es' : List Event} {t : Session}
    (hcalm : s.Calm l) (hstep : Step s l es' t) : Settled (es ++ es') t := by
  have hcases := step_cases hstep
  cases l with
  | call th c r =>
      obtain ⟨rfl, rfl⟩ := Traced.mk.inj hcases
      exact h.call th c r hcalm
  | poll revents =>
      obtain ⟨-, hbatch, hset, rfl, rfl⟩ := hcases
      rw [List.append_nil]
      -- Only a registered channel is in the epoll set.
      have hindex : s.conn.channel.index ≠ kNew := by
        intro hnew
        cases h.books with
        | new _ _ hnone => exact hset hnone
        | added hadded _ _ => simp [hadded, kNew, kAdded] at hnew
        | deleted hdeleted _ _ => simp [hdeleted, kNew, kDeleted] at hnew
      have hbooks : s.conn.poller.Tracks { s.conn.channel with revents } := by
        cases h.books with
        | new hindex hchannels hset => exact .new hindex hchannels hset
        | added hindex hchannels hset => exact .added hindex hchannels hset
        | deleted hindex hchannels hset => exact .deleted hindex hchannels hset
      exact ⟨Or.inr hbatch, hbooks, h.opened, h.closed, h.removed,
        fun hnew => absurd hnew hindex, h.asserted⟩
  | callback read consumed r =>
      obtain ⟨cb, rest, hhandling, heq⟩ := hcases
      obtain ⟨rfl, rfl⟩ := Traced.mk.inj heq
      have hindex : s.conn.channel.index ≠ kNew := fun hnew => by
        simp [h.unhandled hnew] at hhandling
      have hbatch : s.queue.batch = none := by simpa [hhandling] using h.turn
      have hrest : Settled es { s with handling := rest } :=
        ⟨Or.inr hbatch, h.books, h.opened, h.closed, h.removed, fun hnew => absurd hnew hindex,
          h.asserted⟩
      exact hrest.handle hindex cb read consumed r
  | swap =>
      obtain ⟨hhandling, hbatch, rfl, rfl⟩ := hcases
      have hqueued := BatchQueue.queued_swap hbatch
      rw [List.append_nil]
      exact ⟨Or.inl hhandling, h.books, hqueued ▸ h.opened, h.closed, h.removed, h.unhandled,
        h.asserted⟩
  | runFunctor r =>
      obtain ⟨f, rest, hbatch, heq⟩ := hcases
      obtain ⟨rfl, rfl⟩ := Traced.mk.inj heq
      exact h.runFunctor hbatch r hcalm
  | finish =>
      obtain ⟨hbatch, rfl, rfl⟩ := hcases
      have hqueued := BatchQueue.queued_finish hbatch
      rw [List.append_nil]
      exact ⟨Or.inr rfl, h.books, hqueued ▸ h.opened, h.closed, h.removed, h.unhandled, h.asserted⟩
  | queueDestroyed =>
      obtain ⟨hclosing, rfl, rfl⟩ := hcases
      rw [List.append_nil]
      have hdisc : s.conn.state = .kDisconnected := by
        by_contra hopen
        exact absurd (h.opened hopen).2.1 (Nat.ne_of_gt hclosing)
      exact ⟨h.turn, h.books, fun hopen => absurd hdisc hopen, h.closed, h.removed, h.unhandled,
        h.asserted⟩

/-! ## Whole runs -/

theorem Settled.start (k : Config) : Settled [] (start k) := by
  obtain ⟨-, hbooks, -, hne⟩ := EPoller.updateChannel_tracks
    (EPoller.tracks_create k.ptr k.fd) (0 ||| kReadEvent)
  exact ⟨Or.inl rfl, hbooks, fun _ => ⟨hne, rfl, by simp [Session.start]⟩,
    fun hdisc => by simp [Session.start, TcpConnection.connectionEstablished] at hdisc,
    by simp, fun _ => rfl, by simp⟩

/-- Runs that take only calm steps keep the promise in every state they reach. -/
theorem staysOut_of_calm {k : Config} {ls : List Label} {es : List Event} {s : Session}
    (h : Run (restrict Calm Step) (start k) ls es s) : StaysOut es s := by
  have hsettled := h.history (I := Settled) [] (Settled.start k)
    (fun _ _ _ _ _ hsettled ⟨hcalm, hstep⟩ => hsettled.step hcalm hstep)
  exact Settled.staysOut hsettled

/-! ## Two runs -/

/-- A message is written at once after the close, and the connection is removed. -/
def writtenLate : List Label :=
  [.call (.other 1) (.send [1]) (.count 0), .poll POLLIN, .callback (some []) 0 (.count 0),
    .queueDestroyed, .swap, .runFunctor (.count 1), .runFunctor (.count 0)]

theorem staysOut_of_calm_writtenLate :
    ∃ es s, Run (restrict Calm Step) (start plain) writtenLate es s ∧ .removed ∈ es ∧
      StaysOut es s := by
  obtain ⟨es, s, hrun, hremoved⟩ : ∃ es s, Run (restrict Calm Step) (start plain) writtenLate es s ∧
      .removed ∈ es := Run.exists_of_exec_guarded _ (by decide +kernel)
  exact ⟨es, s, hrun, hremoved, staysOut_of_calm hrun⟩

/-- The message would block; after the removal the loop thread stops reading. -/
def late : List Label :=
  [.call (.other 1) (.send [1]) (.count 0), .poll POLLIN, .callback (some []) 0 (.count 0),
    .queueDestroyed, .swap, .runFunctor (.error true), .runFunctor (.count 0), .finish,
    .call .loop .stopRead (.count 0)]

/-- All three parts of the promise are broken. -/
theorem not_staysOut_late :
    ∃ es s, Run Step (start plain) late es s ∧
      (s.conn.state = .kDisconnected ∧ ¬s.conn.channel.isNoneEvent) ∧
      .conn (.poller (.failed .removeIsNoneEvent)) ∈ es ∧
      (.removed ∈ es ∧ s.conn.poller.epollSet s.conn.channel.fd ≠ none) ∧ ¬StaysOut es s := by
  obtain ⟨es, s, hrun, hevents, hassert, hset⟩ : ∃ es s, Run Step (start plain) late es s ∧
      (s.conn.state = .kDisconnected ∧ ¬s.conn.channel.isNoneEvent) ∧
      .conn (.poller (.failed .removeIsNoneEvent)) ∈ es ∧
      (.removed ∈ es ∧ s.conn.poller.epollSet s.conn.channel.fd ≠ none) :=
    Run.exists_of_exec _ (by decide +kernel)
  exact ⟨es, s, hrun, hevents, hassert, hset, fun hstays => hevents.2 (hstays.noEvent hevents.1)⟩

end Session
end Chaonet
