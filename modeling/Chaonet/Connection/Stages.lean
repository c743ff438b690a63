import Chaonet.Connection.Lifecycle
import Chaonet.Reactor.Registry

/-!
# A connection among others on its loop

A connection goes through four stages: it is `Unborn` before `connectionEstablished`, then
`Up`, `Down` after `handleClose`, and `Gone` after `connectionDestroyed`.  `registered` is
what the poller of its loop holds, for this connection and for others.  As long as the users
only send and shut down, every member keeps a connection in its stage or moves it to the next
one, and changes nothing of what others have registered.

`Hosting` says this of all the connections on a loop.
-/

namespace Chaonet

open Foundation

namespace TcpConnection

/-! ## Members on the loop thread -/

/-- `send(message)`. -/
def send (c : TcpConnection) (message : Bytes) (r : WriteResult) : Traced Event TcpConnection :=
  if c.state = .kConnected then c.sendInLoop message r else pure c

/-- `shutdown()`. -/
def shutdown (c : TcpConnection) : Traced Event TcpConnection :=
  if c.state = .kConnected then do
    let c := { c with state := .kDisconnecting }
    c.shutdownInLoop
    pure c
  else
    pure c

/-- What the system calls of one callback return, and how much a message callback takes. -/
structure Input where
  read : Option Bytes
  consumed : Nat
  write : WriteResult
deriving DecidableEq, Repr

/-- A callback of the channel. -/
def handle (c : TcpConnection) (input : Input) : ChannelCallback → Traced Event TcpConnection
  | .closeCallback => c.handleClose
  | .errorCallback => pure c
  | .readCallback => c.handleRead input.read input.consumed
  | .writeCallback => c.handleWrite input.write

/-! ## The stages -/

/-- Before `connectionEstablished`. -/
structure Unborn (c : TcpConnection) : Prop where
  state : c.state = .kConnecting
  index : c.channel.index = kNew

/-- Until `handleClose`. -/
structure Up (c : TcpConnection) : Prop where
  state : c.state = .kConnected ∨ c.state = .kDisconnecting
  index : c.channel.index = kAdded
  reading : c.channel.isReading

/-- Until `connectionDestroyed`. -/
structure Down (c : TcpConnection) : Prop where
  state : c.state = .kDisconnected
  index : c.channel.index = kDeleted
  idle : c.channel.isNoneEvent

structure Gone (c : TcpConnection) : Prop where
  state : c.state = .kDisconnected
  index : c.channel.index = kNew

/-- The poller of the loop holds what is registered, and the channel of the connection is. -/
structure OnLoop (c : TcpConnection) (registered : Int → Option Channel) : Prop where
  holds : c.poller.Holds registered
  known : registered c.channel.fd = some c.channel

structure Serving (c : TcpConnection) (registered : Int → Option Channel) : Prop extends
  OnLoop c registered, Up c

structure Closed (c : TcpConnection) (registered : Int → Option Channel) : Prop extends
  OnLoop c registered, Down c

/-- The members concern the channel of the connection only. -/
def entry (registered : Int → Option Channel) (c c' : TcpConnection) : Int → Option Channel :=
  Function.update registered c.channel.fd (some c'.channel)

variable {c c' : TcpConnection} {registered : Int → Option Channel}

/-- The effect of a member on what is registered. -/
theorem Interest.holds (h : c.Interest c') (hholds : c.poller.Holds registered)
    (hknown : registered c.channel.fd = some c.channel) :
    c'.poller.Holds (entry registered c c') ∧
      (c'.channel.fd = c.channel.fd ∧ c'.channel.revents = c.channel.revents) ∧
      (c'.channel = c.channel ∨ c'.channel.index =
        if c.channel.index = kAdded ∧ c'.channel.events = kNoneEvent then kDeleted
        else kAdded) := by
  cases h with
  | same hchannel hpoller =>
      refine ⟨?_, ⟨by rw [hchannel], by rw [hchannel]⟩, Or.inl hchannel⟩
      rw [hpoller, entry, hchannel, ← hknown, Function.update_eq_self]
      exact hholds
  | updated events hupdated =>
      obtain ⟨hafter, -, hchannel⟩ := hholds.updateChannel events (Or.inl hknown)
      obtain ⟨hpoller, hchannel'⟩ := Prod.mk.inj hupdated
      rw [← hpoller, ← hchannel'] at hafter
      rw [← hchannel'] at hchannel
      refine ⟨hafter, ⟨by rw [hchannel], by rw [hchannel]⟩, Or.inr ?_⟩
      rw [hchannel]

/-- A member that leaves the state and the reading alone keeps a connection serving. -/
theorem Interest.serving (h : c.Interest c') (hserving : c.Serving registered)
    (hstate : c'.state = .kConnected ∨ c'.state = .kDisconnecting)
    (hreading : c'.channel.isReading) : c'.Serving (entry registered c c') := by
  obtain ⟨hholds, ⟨hfd, -⟩, hindex⟩ := h.holds hserving.holds hserving.known
  refine ⟨⟨hholds, ?_⟩, hstate, ?_, hreading⟩
  · rw [hfd, entry, Function.update_self]
  · rcases hindex with hsame | hindex
    · rw [hsame]
      exact hserving.index
    · rw [hindex, if_neg]
      exact fun hlost => Channel.not_isNoneEvent_of_isReading hreading hlost.2

theorem Serving.tracks (h : c.Serving registered) : c.poller.Tracks c.channel :=
  (h.holds.known _ _ h.known).2.2

/-! ## What a serving connection does -/

theorem sendInLoop_reading (message : Bytes) (r : WriteResult) :
    (c.sendInLoop message r).val.channel.isReading ↔ c.channel.isReading := by
  by_cases hrest : (c.sendDirectly message r).val.toNat < message.length
  · by_cases hwriting : c.channel.isWriting
    · simp [sendInLoop, sendLater, hrest, hwriting]
    · have hevents : (c.sendInLoop message r).val.channel.events =
          c.channel.enableWriting.events := by
        simp [sendInLoop, sendLater, hrest, hwriting, updateChannel]
      rw [Channel.isReading, hevents]
      exact Channel.isReading_enableWriting c.channel
  · simp [sendInLoop, hrest]

theorem handleWrite_reading (r : WriteResult) :
    (c.handleWrite r).val.channel.isReading ↔ c.channel.isReading := by
  obtain ⟨outputBuffer, front, -, heq | ⟨-, -, -, -, heq⟩⟩ := handleWrite_cases c r
  · rw [heq]
  · have hevents : (c.handleWrite r).val.channel.events = c.channel.disableWriting.events := by
      rw [heq]
      simp [handleDrained, updateChannel]
    rw [Channel.isReading, hevents]
    exact Channel.isReading_disableWriting c.channel

/-- Nothing but messages and what is silent: no callback of the life cycle, no failure. -/
def Calm (es : List Event) : Prop := ∀ e ∈ es, Inert e ∨ e = .messageCallback

theorem Silent.calm {es : List Event} (h : Silent es) : Calm es := fun e he => Or.inl (h e he)

/-- The connection stays in its stage, and no callback of its life cycle is called. -/
structure Keeps (c : TcpConnection) (registered : Int → Option Channel)
    (x : Traced Event TcpConnection) : Prop where
  serving : x.val.Serving (entry registered c x.val)
  fd : x.val.channel.fd = c.channel.fd
  revents : x.val.channel.revents = c.channel.revents
  calm : Calm x.trace

/-- The connection is closed, which its callbacks are told last. -/
structure Closes (c : TcpConnection) (registered : Int → Option Channel)
    (x : Traced Event TcpConnection) : Prop where
  closed : x.val.Closed (entry registered c x.val)
  fd : x.val.channel.fd = c.channel.fd
  told : ∃ front, Silent front ∧ x.trace = front ++ [.connectionCallback false, .closeCallback]

theorem keeps_of_same (h : c.Serving registered) {es : List Event}
    (hchannel : c'.channel = c.channel) (hpoller : c'.poller = c.poller)
    (hstate : c'.state = .kConnected ∨ c'.state = .kDisconnecting) (hcalm : Calm es) :
    Keeps c registered ⟨c', es⟩ := by
  refine ⟨(Interest.same hchannel hpoller).serving h hstate ?_, by rw [hchannel], by rw [hchannel],
    hcalm⟩
  rw [hchannel]
  exact h.reading

theorem keeps_sendInLoop (h : c.Serving registered) (message : Bytes) (r : WriteResult) :
    Keeps c registered (c.sendInLoop message r) := by
  have hinterest := (sendInLoop_effect c message r).interest
  obtain ⟨-, ⟨hfd, hrevents⟩, -⟩ := hinterest.holds h.holds h.known
  refine ⟨hinterest.serving h ?_ ((sendInLoop_reading message r).mpr h.reading), hfd, hrevents,
    (sendInLoop_silent h.tracks message r).calm⟩
  simpa using h.state

theorem keeps_handleWrite (h : c.Serving registered) (r : WriteResult) :
    Keeps c registered (c.handleWrite r) := by
  have hinterest := (handleWrite_effect c r).interest
  obtain ⟨-, ⟨hfd, hrevents⟩, -⟩ := hinterest.holds h.holds h.known
  refine ⟨hinterest.serving h ?_ ((handleWrite_reading r).mpr h.reading), hfd, hrevents,
    (handleWrite_silent h.tracks r).calm⟩
  simpa using h.state

theorem keeps_send (h : c.Serving registered) (message : Bytes) (r : WriteResult) :
    Keeps c registered (c.send message r) := by
  unfold send
  split_ifs with hconnected
  · exact keeps_sendInLoop h message r
  · exact keeps_of_same h rfl rfl h.state silent_nil.calm

theorem keeps_shutdown (h : c.Serving registered) : Keeps c registered c.shutdown := by
  unfold shutdown
  split_ifs with hconnected
  · refine keeps_of_same h rfl rfl (Or.inr rfl) ?_
    simpa using (shutdownInLoop_silent { c with state := .kDisconnecting }).calm
  · exact keeps_of_same h rfl rfl h.state silent_nil.calm

theorem closes_handleClose (h : c.Serving registered) : Closes c registered c.handleClose := by
  obtain ⟨hholds, ⟨hfd, -⟩, hindex⟩ := (handleClose_effect c).interest.holds h.holds h.known
  have hidle : c.handleClose.val.channel.isNoneEvent := by
    simp [handleClose, updateChannel, Channel.isNoneEvent, Channel.disableAll]
  refine ⟨⟨⟨hholds, ?_⟩, rfl, ?_, hidle⟩, hfd, [], silent_nil, handleClose_trace h.tracks h.state⟩
  · rw [hfd, entry, Function.update_self]
  · rcases hindex with hsame | hindex
    · rw [hsame] at hidle
      exact absurd hidle (Channel.not_isNoneEvent_of_isReading h.reading)
    · rw [hindex, if_pos ⟨h.index, hidle⟩]

/-- A callback of the channel keeps the connection serving or closes it. -/
theorem serving_handle (h : c.Serving registered) (input : Input) (cb : ChannelCallback) :
    Keeps c registered (c.handle input cb) ∨ Closes c registered (c.handle input cb) := by
  cases cb with
  | closeCallback => exact Or.inr (closes_handleClose h)
  | errorCallback => exact Or.inl (keeps_of_same h rfl rfl h.state silent_nil.calm)
  | writeCallback => exact Or.inl (keeps_handleWrite h input.write)
  | readCallback =>
      rcases handleRead_cases c input.read input.consumed with
        ⟨inputBuffer, front, back, hfront, hback, heq⟩ | ⟨inputBuffer, front, hfront, heq⟩ |
          ⟨inputBuffer, front, hfront, heq⟩
      · rw [handle, heq]
        refine Or.inl (keeps_of_same h rfl rfl h.state fun e he => ?_)
        rcases List.mem_append.mp he with he | he
        · exact Or.inl (hfront e he)
        · rcases List.mem_cons.mp he with rfl | he
          · exact Or.inr rfl
          · exact Or.inl (hback e he)
      · rw [handle, heq]
        have hserving : ({ c with inputBuffer } : TcpConnection).Serving registered :=
          ⟨⟨h.holds, h.known⟩, h.state, h.index, h.reading⟩
        obtain ⟨hclosed, hfd, front', hsilent, htrace⟩ := closes_handleClose hserving
        refine Or.inr ⟨hclosed, hfd, front ++ front', silent_append.mpr ⟨hfront, hsilent⟩, ?_⟩
        rw [htrace, List.append_assoc]
      · rw [handle, heq]
        exact Or.inl (keeps_of_same h rfl rfl h.state hfront.calm)

/-! ## The first and the last step -/

/-- `connectionEstablished` makes a connection serve. -/
theorem connectionEstablished_spec (h : c.Unborn) (hholds : c.poller.Holds registered)
    (hfree : registered c.channel.fd = none) :
    c.connectionEstablished.val.Serving (entry registered c c.connectionEstablished.val) ∧
      c.connectionEstablished.val.channel.fd = c.channel.fd ∧
      c.connectionEstablished.trace = [.connectionCallback true] := by
  obtain ⟨hafter, htrace, hchannel⟩ := hholds.updateChannel c.channel.enableReading.events
    (Or.inr ⟨hfree, h.index⟩)
  -- Only the poller touches the channel after `connectionEstablished` has set its mask.
  have hval : c.connectionEstablished.val.channel =
      (c.poller.updateChannel { c.channel with events := c.channel.enableReading.events }).val.2 :=
    rfl
  have hfd : c.connectionEstablished.val.channel.fd = c.channel.fd := by rw [hval, hchannel]
  have hindex : c.connectionEstablished.val.channel.index = kAdded := by
    rw [hval, hchannel]
    simp [h.index, kNew, kAdded]
  have hreading : c.connectionEstablished.val.channel.isReading := by
    have hevents : c.connectionEstablished.val.channel.events = c.channel.enableReading.events := by
      rw [hval, hchannel]
    rw [Channel.isReading, hevents]
    exact Channel.isReading_enableReading c.channel
  refine ⟨⟨⟨hafter, ?_⟩, Or.inl rfl, hindex, hreading⟩, hfd, ?_⟩
  · rw [hfd, entry, Function.update_self]
  · have htrace' : (c.poller.updateChannel c.channel.enableReading).trace = [] := htrace
    simp [connectionEstablished, Traced.check_of h.state, updateChannel, htrace', connected]

/-- `connectionDestroyed` takes a closed connection out of the poller. -/
theorem connectionDestroyed_spec (h : c.Closed registered) :
    c.connectionDestroyed.val.poller.Holds
        (Function.update registered c.channel.fd none) ∧
      c.connectionDestroyed.val.Gone ∧
      c.connectionDestroyed.val.channel.fd = c.channel.fd ∧ c.connectionDestroyed.trace = [] := by
  obtain ⟨hafter, htrace, hchannel⟩ := h.holds.removeChannel h.known h.idle
  have hstate : ¬c.state = .kConnected := by simp [h.state]
  refine ⟨?_, ⟨?_, ?_⟩, ?_, ?_⟩
  · simpa [connectionDestroyed, removeChannel, hstate] using hafter
  · simp [connectionDestroyed, removeChannel, h.state]
  · simp [connectionDestroyed, removeChannel, hstate, hchannel]
  · simp [connectionDestroyed, removeChannel, hstate, hchannel]
  · simp [connectionDestroyed, removeChannel, hstate, htrace]

/-! ## Connections that do nothing any more -/

theorem send_disconnected (h : c.state = .kDisconnected) (message : Bytes) (r : WriteResult) :
    c.send message r = pure c := by simp [send, h]

theorem shutdown_disconnected (h : c.state = .kDisconnected) : c.shutdown = pure c := by
  simp [shutdown, h]

/-- What is left of the event that has closed the connection. -/
theorem down_handle (h : c.Down) (input : Input) {cb : ChannelCallback}
    (hcb : cb ≠ .closeCallback ∧ cb ≠ .readCallback) : c.handle input cb = pure c := by
  cases cb with
  | closeCallback => exact absurd rfl hcb.1
  | readCallback => exact absurd rfl hcb.2
  | errorCallback => rfl
  | writeCallback =>
      simp [handle, handleWrite, Channel.not_isWriting_of_isNoneEvent h.idle]

/-! ## The connections on a loop -/

section Hosting

variable {ι : Type*} {poller : EPoller} {conns : ι → Option TcpConnection}
  {i : ι}

/-- The poller holds the channels of the connections that are registered, and those of
others. -/
structure Hosting (poller : EPoller) (conns : ι → Option TcpConnection)
    (registered : Int → Option Channel) : Prop where
  holds : poller.Holds registered
  known : ∀ i c, conns i = some c → c.channel.index ≠ kNew →
    registered c.channel.fd = some c.channel
  apart : ∀ i j c d, conns i = some c → conns j = some d → c.channel.index ≠ kNew →
    d.channel.index ≠ kNew → c.channel.fd = d.channel.fd → i = j

/-- The connection as it is when a member is called. -/
def on (c : TcpConnection) (poller : EPoller) : TcpConnection := { c with poller }

theorem Up.index_ne {c : TcpConnection} (h : c.Up) : c.channel.index ≠ kNew := by
  rw [h.index]
  decide

theorem Down.index_ne {c : TcpConnection} (h : c.Down) : c.channel.index ≠ kNew := by
  rw [h.index]
  decide

theorem Hosting.serving (h : Hosting poller conns registered) (hi : conns i = some c)
    (hup : c.Up) : (c.on poller).Serving registered :=
  ⟨⟨h.holds, h.known i c hi hup.index_ne⟩, hup.state, hup.index, hup.reading⟩

theorem Hosting.closed (h : Hosting poller conns registered) (hi : conns i = some c)
    (hdown : c.Down) : (c.on poller).Closed registered :=
  ⟨⟨h.holds, h.known i c hi hdown.index_ne⟩, hdown.state, hdown.index, hdown.idle⟩

/-- Another object changes what is registered. -/
theorem Hosting.other (h : Hosting poller conns registered) {poller' : EPoller} {fd : Int}
    {entry : Option Channel} (hholds : poller'.Holds (Function.update registered fd entry))
    (hfree : ∀ j d, conns j = some d → d.channel.index ≠ kNew → d.channel.fd ≠ fd) :
    Hosting poller' conns (Function.update registered fd entry) := by
  refine ⟨hholds, fun j d hj hd => ?_, h.apart⟩
  rw [Function.update_of_ne (hfree j d hj hd)]
  exact h.known j d hj hd

variable [DecidableEq ι]

/-- A registered connection changes its channel. -/
theorem Hosting.member (h : Hosting poller conns registered) (hi : conns i = some c)
    (hindex : c.channel.index ≠ kNew) (hholds : c'.poller.Holds (entry registered c c'))
    (hfd : c'.channel.fd = c.channel.fd) :
    Hosting c'.poller (Function.update conns i (some c')) (entry registered c c') := by
  refine ⟨hholds, fun j d hj hd => ?_, fun j k d e hj hk hd he hde => ?_⟩
  · by_cases hji : j = i
    · subst hji
      obtain rfl : c' = d := by simpa using hj
      rw [hfd, entry, Function.update_self]
    · rw [Function.update_of_ne hji] at hj
      have hother : d.channel.fd ≠ c.channel.fd :=
        fun heq => hji (h.apart j i d c hj hi hd hindex heq)
      rw [entry, Function.update_of_ne hother]
      exact h.known j d hj hd
  · by_cases hji : j = i
    · by_cases hki : k = i
      · rw [hji, hki]
      · subst hji
        obtain rfl : c' = d := by simpa using hj
        rw [Function.update_of_ne hki] at hk
        exact absurd (h.apart k j e c hk hi he hindex (by rw [← hde, hfd])) hki
    · rw [Function.update_of_ne hji] at hj
      by_cases hki : k = i
      · subst hki
        obtain rfl : c' = e := by simpa using hk
        exact h.apart j k d c hj hi hd hindex (by rw [hde, hfd])
      · rw [Function.update_of_ne hki] at hk
        exact h.apart j k d e hj hk hd he hde

/-- A connection changes without its channel. -/
theorem Hosting.still (h : Hosting poller conns registered) (hi : conns i = some c)
    (hchannel : c'.channel = c.channel) :
    Hosting poller (Function.update conns i (some c')) registered := by
  have hbefore (j : ι) (d : TcpConnection) (hj : Function.update conns i (some c') j = some d) :
      ∃ d', conns j = some d' ∧ d.channel = d'.channel := by
    by_cases hji : j = i
    · subst hji
      obtain rfl : c' = d := by simpa using hj
      exact ⟨c, hi, hchannel⟩
    · rw [Function.update_of_ne hji] at hj
      exact ⟨d, hj, rfl⟩
  refine ⟨h.holds, fun j d hj hd => ?_, fun j k d e hj hk hd he hde => ?_⟩
  · obtain ⟨d', hj', hsame⟩ := hbefore j d hj
    rw [hsame] at hd ⊢
    exact h.known j d' hj' hd
  · obtain ⟨d', hj', hsame⟩ := hbefore j d hj
    obtain ⟨e', hk', hsame'⟩ := hbefore k e hk
    rw [hsame] at hd hde
    rw [hsame'] at he hde
    exact h.apart j k d' e' hj' hk' hd he hde

/-- A connection is destroyed. -/
theorem Hosting.destroyed (h : Hosting poller conns registered) (hi : conns i = some c)
    (hindex : c.channel.index ≠ kNew) (hgone : c'.channel.index = kNew)
    (hholds : c'.poller.Holds (Function.update registered c.channel.fd none)) :
    Hosting c'.poller (Function.update conns i (some c'))
      (Function.update registered c.channel.fd none) := by
  have hother (j : ι) (d : TcpConnection) (hj : Function.update conns i (some c') j = some d)
      (hd : d.channel.index ≠ kNew) : j ≠ i ∧ conns j = some d := by
    by_cases hji : j = i
    · subst hji
      obtain rfl : c' = d := by simpa using hj
      exact absurd hgone hd
    · rw [Function.update_of_ne hji] at hj
      exact ⟨hji, hj⟩
  refine ⟨hholds, fun j d hj hd => ?_, fun j k d e hj hk hd he hde => ?_⟩
  · obtain ⟨hji, hj⟩ := hother j d hj hd
    have hfd : d.channel.fd ≠ c.channel.fd :=
      fun heq => hji (h.apart j i d c hj hi hd hindex heq)
    rw [Function.update_of_ne hfd]
    exact h.known j d hj hd
  · exact h.apart j k d e (hother j d hj hd).2 (hother k e hk he).2 hd he hde

/-- A connection that is not registered yet comes up. -/
theorem Hosting.established (h : Hosting poller conns registered)
    (hfree : ∀ j d, conns j = some d → d.channel.index ≠ kNew → d.channel.fd ≠ c'.channel.fd)
    (hholds : c'.poller.Holds
      (Function.update registered c'.channel.fd (some c'.channel))) :
    Hosting c'.poller (Function.update conns i (some c'))
      (Function.update registered c'.channel.fd (some c'.channel)) := by
  refine ⟨hholds, fun j d hj hd => ?_, fun j k d e hj hk hd he hde => ?_⟩
  · by_cases hji : j = i
    · subst hji
      obtain rfl : c' = d := by simpa using hj
      rw [Function.update_self]
    · rw [Function.update_of_ne hji] at hj
      rw [Function.update_of_ne (hfree j d hj hd)]
      exact h.known j d hj hd
  · by_cases hji : j = i
    · by_cases hki : k = i
      · rw [hji, hki]
      · subst hji
        obtain rfl : c' = d := by simpa using hj
        rw [Function.update_of_ne hki] at hk
        exact absurd hde.symm (hfree k e hk he)
    · rw [Function.update_of_ne hji] at hj
      by_cases hki : k = i
      · subst hki
        obtain rfl : c' = e := by simpa using hk
        exact absurd hde (hfree j d hj hd)
      · rw [Function.update_of_ne hki] at hk
        exact h.apart j k d e hj hk hd he hde

end Hosting

end TcpConnection
end Chaonet
