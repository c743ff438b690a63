import Chaonet.Connection.Stages
import Chaonet.Reactor.Iteration

/-!
# Loops that host connections

`IoLoop` is a loop of a server: its iterations, its poller and what is left of the event of a
connection.  Any of the loops hosts connections, and the base loop has the acceptor as well.

`Hosts` is what holds of a loop between the steps of its thread, as long as one event closes a
connection once at most.  It speaks of one loop and the connections on it, so that steps of
other threads do not touch it.
-/

namespace Chaonet

open Foundation

/-- The channels of a loop that belong to a server. -/
inductive ServerChannel
  | acceptor
  | connection (i : Nat)
deriving DecidableEq, Repr

/-- The functors that are queued for a server. -/
inductive ServerFunctor
  | connectionEstablished (i : Nat)
  | removeConnectionInLoop (i : Nat)
  | connectionDestroyed (i : Nat)
  | user (i : Nat) (f : UserFunctor)
deriving DecidableEq, Repr

structure IoLoop where
  iteration : Iteration ServerChannel ServerFunctor
  poller : EPoller
  /-- The callbacks that are left of the event of a connection. -/
  handling : List (Nat × ChannelCallback)
  /-- The connection that is about to call `closeCallback_`. -/
  closing : Option Nat

namespace IoLoop

def create : IoLoop := ⟨.create 0, .create, [], none⟩

/-- No callback of a connection is left to run. -/
def Idle (l : IoLoop) : Prop := l.handling = [] ∧ l.closing = none

instance (l : IoLoop) : Decidable l.Idle := inferInstanceAs (Decidable (_ ∧ _))

/-- `queueInLoop`, from any thread. -/
def queueInLoop (l : IoLoop) (functors : List ServerFunctor) : IoLoop :=
  { l with iteration := l.iteration.push functors }

/-! ## The invariant -/

/-- One event closes a connection once at most. -/
structure ClosesOnce (cbs : List ChannelCallback) : Prop where
  nodup : cbs.Nodup
  either : ¬(.closeCallback ∈ cbs ∧ .readCallback ∈ cbs)

/-- The callbacks of one event of a connection: it is up as long as it can be closed. -/
inductive Handling (l : IoLoop) (hosted : Nat → Option TcpConnection) : Prop
  | idle (handling : l.handling = [])
  | event (i : Nat) (c : TcpConnection) (cbs : List ChannelCallback)
      (handling : l.handling = cbs.map fun cb => (i, cb)) (hosted : hosted i = some c)
      (inactive : .connection i ∉ l.iteration.active) (once : ClosesOnce cbs)
      (stage : c.Up ∨ c.Down ∧ .closeCallback ∉ cbs ∧ .readCallback ∉ cbs)

/-- A loop with its connections, and the channel of the acceptor if that is registered. -/
structure Hosts (l : IoLoop) (hosted : Nat → Option TcpConnection) (acceptor : Option Channel)
    (registered : Int → Option Channel) : Prop where
  turn : l.iteration.InTurn
  hosting : TcpConnection.Hosting l.poller hosted registered
  accepting : ∀ ch, acceptor = some ch → registered ch.fd = some ch ∧
    ∀ i c, hosted i = some c → c.channel.index ≠ kNew → c.channel.fd ≠ ch.fd
  owned : ∀ fd ch, registered fd = some ch → acceptor = some ch ∨
    ∃ i c, hosted i = some c ∧ c.channel.index ≠ kNew ∧ c.channel.fd = fd
  handling : Handling l hosted
  active : ∀ i, .connection i ∈ l.iteration.active →
    ∃ c, hosted i = some c ∧ c.Up ∧ ClosesOnce c.channel.handleEvent
  settled : l.iteration.phase ≠ .handling → l.Idle

theorem hosts_create : create.Hosts (fun _ => none) none (fun _ => none) := by
  refine ⟨.create 0, ⟨.create, ?_, ?_⟩, ?_, ?_, .idle rfl, ?_, fun _ => ⟨rfl, rfl⟩⟩ <;>
    simp [create, Iteration.create]

variable {l l' : IoLoop} {hosted : Nat → Option TcpConnection} {acceptor : Option Channel}
  {registered : Int → Option Channel} {i : Nat} {c c' : TcpConnection}

/-! ## Steps of the loop -/

/-- What is left of an event, when the iteration goes on. -/
theorem Handling.transfer (h : Handling l hosted) (hhandling : l'.handling = l.handling)
    (hactive : ∀ o ∈ l'.iteration.active, o ∈ l.iteration.active) : Handling l' hosted := by
  cases h with
  | idle hnil => exact .idle (hhandling.trans hnil)
  | event i c cbs hcbs hi hinactive honce hstage =>
      exact .event i c cbs (hhandling.trans hcbs) hi (fun hmem => hinactive (hactive _ hmem)) honce
        hstage

/-- The iteration goes on. -/
theorem Hosts.moved (h : l.Hosts hosted acceptor registered)
    {iteration : Iteration ServerChannel ServerFunctor} (hturn : iteration.InTurn)
    (hactive : ∀ i, .connection i ∈ iteration.active → .connection i ∈ l.iteration.active)
    (hsettled : iteration.phase ≠ .handling → l.Idle) :
    { l with iteration }.Hosts hosted acceptor registered := by
  refine ⟨hturn, h.hosting, h.accepting, h.owned, ?_, fun i hmem => h.active i (hactive i hmem),
    hsettled⟩
  cases h.handling with
  | idle hnil => exact .idle hnil
  | event i c cbs hcbs hi hinactive honce hstage =>
      exact .event i c cbs hcbs hi (fun hmem => hinactive (hactive i hmem)) honce hstage

theorem Hosts.queueInLoop (h : l.Hosts hosted acceptor registered)
    (functors : List ServerFunctor) : (l.queueInLoop functors).Hosts hosted acceptor registered :=
  h.moved (h.turn.push functors) (fun _ hmem => hmem) h.settled

/-- `closeCallback_` is called. -/
theorem Hosts.told (h : l.Hosts hosted acceptor registered) :
    { l with closing := none }.Hosts hosted acceptor registered :=
  ⟨h.turn, h.hosting, h.accepting, h.owned, h.handling.transfer rfl fun _ hmem => hmem, h.active,
    fun hphase => ⟨(h.settled hphase).1, rfl⟩⟩

/-- The next active channel. -/
theorem Hosts.next (h : l.Hosts hosted acceptor registered) {o : ServerChannel}
    {iteration : Iteration ServerChannel ServerFunctor}
    (hnext : l.iteration.next = some (o, iteration)) :
    { l with iteration }.Hosts hosted acceptor registered ∧ iteration.phase = .handling ∧
      o ∈ l.iteration.active ∧ o ∉ iteration.active ∧ iteration.queue = l.iteration.queue := by
  obtain ⟨hturn, hqueue⟩ := h.turn.next hnext
  obtain ⟨hphase, hactive, heq⟩ := Iteration.next_eq_some.mp hnext
  have hphase' : iteration.phase = .handling := by rw [heq, hphase]
  refine ⟨h.moved hturn (fun i hmem => ?_) fun hnot => absurd hphase' hnot, hphase', ?_,
    h.turn.next_fresh hnext, hqueue⟩
  · rw [hactive]
    exact List.mem_cons_of_mem _ hmem
  · rw [hactive]
    exact List.mem_cons_self

/-- Steps that only move on in the iteration. -/
theorem Hosts.proceeds (h : l.Hosts hosted acceptor registered) (hidle : l.Idle)
    {iteration : Iteration ServerChannel ServerFunctor}
    (hmoved : l.iteration.wake 0 = some iteration ∨ l.iteration.swap = some iteration ∨
      l.iteration.finish = some iteration) :
    { l with iteration }.Hosts hosted acceptor registered ∧
      iteration.queue.queued = l.iteration.queue.queued := by
  rcases hmoved with hstep | hstep | hstep
  · obtain ⟨hturn, hqueue⟩ := h.turn.wake hstep
    obtain ⟨-, rfl⟩ := Iteration.wake_eq_some.mp hstep
    exact ⟨h.moved hturn (fun _ hmem => hmem) fun _ => hidle, rfl⟩
  · obtain ⟨hturn, hqueued⟩ := h.turn.swap hstep
    obtain ⟨-, -, rfl⟩ := Iteration.swap_eq_some.mp hstep
    exact ⟨h.moved hturn (fun _ hmem => hmem) fun _ => hidle, hqueued⟩
  · obtain ⟨hturn, hqueued⟩ := h.turn.finish hstep
    obtain ⟨-, -, rfl⟩ := Iteration.finish_eq_some.mp hstep
    exact ⟨h.moved hturn (fun _ hmem => hmem) fun _ => hidle, hqueued⟩

/-- The next functor of the batch: nothing of an event is left. -/
theorem Hosts.nextFunctor (h : l.Hosts hosted acceptor registered) {f : ServerFunctor}
    {iteration : Iteration ServerChannel ServerFunctor}
    (hnext : l.iteration.nextFunctor = some (f, iteration)) :
    { l with iteration }.Hosts hosted acceptor registered ∧ l.Idle ∧ iteration.active = [] ∧
      l.iteration.queue.queued = f :: iteration.queue.queued := by
  obtain ⟨hturn, hqueued⟩ := h.turn.nextFunctor hnext
  obtain ⟨hphase, rest, -, rfl⟩ := Iteration.nextFunctor_eq_some.mp hnext
  exact ⟨h.moved hturn (fun _ hmem => hmem) h.settled, h.settled (by simp [hphase]),
    h.turn.active hphase, hqueued⟩

/-- Poll has found the acceptor. -/
theorem Hosts.activateAcceptor {channel : Channel} (h : l.Hosts hosted (some channel) registered)
    (revents : EventMask) {iteration : Iteration ServerChannel ServerFunctor}
    (hstep : l.iteration.activate .acceptor = some iteration) :
    { l with iteration }.Hosts hosted (some { channel with revents })
        (Function.update registered channel.fd (some { channel with revents })) ∧
      iteration.queue = l.iteration.queue := by
  obtain ⟨hturn, hqueue⟩ := h.turn.activate hstep
  obtain ⟨hphase, -, rfl⟩ := Iteration.activate_eq_some.mp hstep
  obtain ⟨hknown, hapart⟩ := h.accepting channel rfl
  have hholds := h.hosting.holds.revents hknown revents
  have hidle : l.Idle := h.settled (by simp [hphase])
  refine ⟨⟨hturn, h.hosting.other hholds hapart, ?_, fun fd ch hch => ?_, .idle hidle.1,
    fun i hmem => h.active i (by simpa using hmem), fun _ => hidle⟩, hqueue⟩
  · rintro ch ⟨⟩
    exact ⟨Function.update_self .., hapart⟩
  · by_cases hsame : fd = channel.fd
    · rw [hsame, Function.update_self] at hch
      exact Or.inl hch
    · rw [Function.update_of_ne hsame] at hch
      refine (h.owned fd ch hch).imp_left fun heq => absurd ?_ hsame
      obtain rfl := Option.some.inj heq
      exact ((h.hosting.holds.known fd _ hch).1).symm

/-- The callbacks of an event. -/
theorem Hosts.handles (h : l.Hosts hosted acceptor registered)
    {handling : List (Nat × ChannelCallback)}
    (hphase : l.iteration.phase = .handling) (hhandling : Handling { l with handling } hosted) :
    { l with handling }.Hosts hosted acceptor registered :=
  ⟨h.turn, h.hosting, h.accepting, h.owned, hhandling, h.active, fun hnot => absurd hphase hnot⟩

/-! ## Steps of a connection -/

/-- A connection changes its channel, and with it the entry of its descriptor. -/
theorem Hosts.member (h : l.Hosts hosted acceptor registered) {entry : Option Channel}
    (hi : hosted i = some c) (hfd : c'.channel.fd = c.channel.fd)
    (hhosting : TcpConnection.Hosting l'.poller (Function.update hosted i (some c'))
      (Function.update registered c.channel.fd entry))
    (hentry : ∀ ch, entry = some ch → c'.channel.index ≠ kNew)
    (hapart : ∀ ch, acceptor = some ch → c.channel.fd ≠ ch.fd) (hturn : l'.iteration.InTurn)
    (hhandling : Handling l' (Function.update hosted i (some c')))
    (hactive : ∀ j, .connection j ∈ l'.iteration.active → j ≠ i →
      .connection j ∈ l.iteration.active)
    (hself : .connection i ∈ l'.iteration.active → c'.Up ∧ ClosesOnce c'.channel.handleEvent)
    (hsettled : l'.iteration.phase ≠ .handling → l'.Idle) :
    l'.Hosts (Function.update hosted i (some c')) acceptor
      (Function.update registered c.channel.fd entry) := by
  refine ⟨hturn, hhosting, fun ch hch => ⟨?_, fun j d hj hd => ?_⟩, fun fd ch hch => ?_, hhandling,
    fun j hj => ?_, hsettled⟩
  · rw [Function.update_of_ne (hapart ch hch).symm]
    exact (h.accepting ch hch).1
  · by_cases hji : j = i
    · subst hji
      rw [Function.update_self] at hj
      obtain rfl := Option.some.inj hj
      rw [hfd]
      exact hapart ch hch
    · rw [Function.update_of_ne hji] at hj
      exact (h.accepting ch hch).2 j d hj hd
  · by_cases hsame : fd = c.channel.fd
    · subst hsame
      rw [Function.update_self] at hch
      exact Or.inr ⟨i, c', Function.update_self .., hentry ch hch, hfd⟩
    · rw [Function.update_of_ne hsame] at hch
      refine (h.owned fd ch hch).imp_right ?_
      rintro ⟨j, d, hj, hd, hdfd⟩
      refine ⟨j, d, ?_, hd, hdfd⟩
      rw [Function.update_of_ne, hj]
      rintro rfl
      rw [hi] at hj
      obtain rfl := Option.some.inj hj
      exact hsame hdfd.symm
  · by_cases hji : j = i
    · subst hji
      exact ⟨c', Function.update_self .., hself hj⟩
    · rw [Function.update_of_ne hji]
      exact h.active j (hactive j hj hji)

/-- What is left of an event, when a connection stays in its stage. -/
theorem Handling.member (h : Handling l hosted) (hi : hosted i = some c)
    (hhandling : l'.handling = l.handling) (hactive : l'.iteration.active = l.iteration.active)
    (hup : c.Up → c'.Up) (hdown : c.Down → c'.Down) :
    Handling l' (Function.update hosted i (some c')) := by
  cases h with
  | idle hnil => exact .idle (hhandling.trans hnil)
  | event j d cbs hcbs hj hinactive honce hstage =>
      by_cases hji : j = i
      · subst hji
        obtain rfl := Option.some.inj (hi.symm.trans hj)
        exact .event j c' cbs (hhandling.trans hcbs) (Function.update_self ..) (hactive ▸ hinactive)
          honce (hstage.imp hup (And.imp_left hdown))
      · exact .event j d cbs (hhandling.trans hcbs) (by rw [Function.update_of_ne hji, hj])
          (hactive ▸ hinactive) honce hstage

/-- A connection that is up is kept up. -/
theorem Hosts.keeps (h : l.Hosts hosted acceptor registered) (hi : hosted i = some c) (hup : c.Up)
    {x : Traced TcpConnection.Event TcpConnection}
    (hx : TcpConnection.Keeps (c.on l.poller) registered x) (functors : List ServerFunctor) :
    ({ l with poller := x.val.poller }.queueInLoop functors).Hosts
      (Function.update hosted i (some x.val)) acceptor
        (TcpConnection.entry registered c x.val) := by
  have hup' : x.val.Up := hx.serving.toUp
  refine h.member hi hx.fd (h.hosting.member hi hup.index_ne hx.serving.holds hx.fd)
    (fun _ _ => hup'.index_ne) (fun ch hch => (h.accepting ch hch).2 i c hi hup.index_ne)
    (h.turn.push functors) ?_ (fun _ hmem _ => hmem) (fun hmem => ⟨hup', ?_⟩) h.settled
  · exact h.handling.member hi rfl rfl (fun _ => hup')
      fun hdown => absurd hdown.index (by rw [hup.index]; decide)
  · obtain ⟨d, hd, -, honce⟩ := h.active i hmem
    obtain rfl := Option.some.inj (hi.symm.trans hd)
    have hrevents : x.val.channel.revents = c.channel.revents := hx.revents
    rwa [Channel.handleEvent, hrevents, ← Channel.handleEvent]

/-- A member that does nothing. -/
theorem Hosts.still (h : l.Hosts hosted acceptor registered) (hi : hosted i = some c) :
    l.Hosts (Function.update hosted i (some (c.on l.poller))) acceptor registered := by
  have hhosting := h.hosting.still hi (show (c.on l.poller).channel = c.channel from rfl)
  refine ⟨h.turn, hhosting, fun ch hch => ⟨(h.accepting ch hch).1, fun j d hj hd => ?_⟩,
    fun fd ch hch => ?_, ?_, fun j hj => ?_, h.settled⟩
  · by_cases hji : j = i
    · subst hji
      rw [Function.update_self] at hj
      obtain rfl := Option.some.inj hj
      exact (h.accepting ch hch).2 j c hi hd
    · rw [Function.update_of_ne hji] at hj
      exact (h.accepting ch hch).2 j d hj hd
  · refine (h.owned fd ch hch).imp_right ?_
    rintro ⟨j, d, hj, hd, hdfd⟩
    by_cases hji : j = i
    · subst hji
      obtain rfl := Option.some.inj (hi.symm.trans hj)
      exact ⟨j, c.on l.poller, Function.update_self .., hd, hdfd⟩
    · exact ⟨j, d, by rw [Function.update_of_ne hji, hj], hd, hdfd⟩
  · exact h.handling.member hi rfl rfl (fun hup => ⟨hup.state, hup.index, hup.reading⟩)
      fun hdown => ⟨hdown.state, hdown.index, hdown.idle⟩
  · obtain ⟨d, hd, hup, honce⟩ := h.active j hj
    by_cases hji : j = i
    · subst hji
      obtain rfl := Option.some.inj (hi.symm.trans hd)
      exact ⟨_, Function.update_self .., ⟨hup.state, hup.index, hup.reading⟩, honce⟩
    · exact ⟨d, by rw [Function.update_of_ne hji, hd], hup, honce⟩

/-- A connection is closed by a callback of its event. -/
theorem Hosts.closes (h : l.Hosts hosted acceptor registered) (hi : hosted i = some c)
    (hup : c.Up) {x : Traced TcpConnection.Event TcpConnection}
    (hx : TcpConnection.Closes (c.on l.poller) registered x)
    (hphase : l.iteration.phase = .handling) (hinactive : .connection i ∉ l.iteration.active)
    {cbs : List ChannelCallback} (hhandling : l.handling = cbs.map fun cb => (i, cb))
    (honce : ClosesOnce cbs) (hover : .closeCallback ∉ cbs ∧ .readCallback ∉ cbs)
    (functors : List ServerFunctor) :
    ({ l with poller := x.val.poller, closing := some i }.queueInLoop functors).Hosts
      (Function.update hosted i (some x.val)) acceptor
        (TcpConnection.entry registered c x.val) := by
  have hdown : x.val.Down := hx.closed.toDown
  refine h.member hi hx.fd (h.hosting.member hi hup.index_ne hx.closed.holds hx.fd)
    (fun _ _ => hdown.index_ne) (fun ch hch => (h.accepting ch hch).2 i c hi hup.index_ne)
    (h.turn.push functors) ?_ (fun _ hmem _ => hmem) (fun hmem => absurd hmem hinactive)
    fun hnot => absurd hphase hnot
  exact .event i x.val cbs hhandling (Function.update_self ..) hinactive honce
    (Or.inr ⟨hdown, hover⟩)

/-- A connection that is not registered is not active. -/
theorem Hosts.inactive (h : l.Hosts hosted acceptor registered) (hi : hosted i = some c)
    (hup : ¬c.Up) : .connection i ∉ l.iteration.active := by
  intro hmem
  obtain ⟨d, hd, hdup, -⟩ := h.active i hmem
  obtain rfl := Option.some.inj (hi.symm.trans hd)
  exact hup hdup

/-- A connection comes up. -/
theorem Hosts.established (h : l.Hosts hosted acceptor registered) (hi : hosted i = some c)
    (hunborn : c.Unborn) (hnil : l.handling = [])
    (hapart : ∀ ch, acceptor = some ch → c.channel.fd ≠ ch.fd)
    (hfree : ∀ j d, hosted j = some d → d.channel.index ≠ kNew → d.channel.fd ≠ c.channel.fd)
    (functors : List ServerFunctor) :
    let x := (c.on l.poller).connectionEstablished
    ({ l with poller := x.val.poller }.queueInLoop functors).Hosts
        (Function.update hosted i (some x.val)) acceptor
        (TcpConnection.entry registered c x.val) ∧
      x.val.Up ∧ x.val.channel.fd = c.channel.fd ∧ x.trace = [.connectionCallback true] := by
  intro x
  have hnone : registered c.channel.fd = none := by
    cases hfd : registered c.channel.fd with
    | none => rfl
    | some ch =>
        rcases h.owned _ ch hfd with hch | ⟨j, d, hj, hd, hdfd⟩
        · have hsame := (h.hosting.holds.known _ ch hfd).1
          exact absurd hsame.symm (hapart ch hch)
        · exact absurd hdfd (hfree j d hj hd)
  obtain ⟨hserving, hfd, htrace⟩ := TcpConnection.connectionEstablished_spec (c := c.on l.poller)
    ⟨hunborn.state, hunborn.index⟩ h.hosting.holds hnone
  have hfd' : x.val.channel.fd = c.channel.fd := hfd
  have hinactive : .connection i ∉ l.iteration.active :=
    h.inactive hi fun hup => hup.index_ne hunborn.index
  have hhosting : TcpConnection.Hosting x.val.poller (Function.update hosted i (some x.val))
      (Function.update registered x.val.channel.fd (some x.val.channel)) :=
    h.hosting.established (by rw [hfd']; exact hfree) (by rw [hfd']; exact hserving.holds)
  rw [hfd'] at hhosting
  exact ⟨h.member hi hfd' hhosting (fun _ _ => hserving.toUp.index_ne) hapart
    (h.turn.push functors) (.idle hnil) (fun _ hmem _ => hmem) (fun hmem => absurd hmem hinactive)
    h.settled, hserving.toUp, hfd', htrace⟩

/-- A connection that is down is destroyed. -/
theorem Hosts.destroyed (h : l.Hosts hosted acceptor registered) (hi : hosted i = some c)
    (hdown : c.Down) (hnil : l.handling = []) (functors : List ServerFunctor) :
    let x := (c.on l.poller).connectionDestroyed
    ({ l with poller := x.val.poller }.queueInLoop functors).Hosts
        (Function.update hosted i (some x.val)) acceptor
        (Function.update registered c.channel.fd none) ∧
      x.val.Gone ∧ x.val.channel.fd = c.channel.fd ∧ x.trace = [] := by
  intro x
  obtain ⟨hholds, hgone, hfd, htrace⟩ :=
    TcpConnection.connectionDestroyed_spec (h.hosting.closed hi hdown)
  have hinactive : .connection i ∉ l.iteration.active :=
    h.inactive hi fun hup => absurd hup.index (by rw [hdown.index]; decide)
  refine ⟨h.member hi hfd (h.hosting.destroyed hi hdown.index_ne hgone.index hholds)
    (fun _ hnone => by simp at hnone)
    (fun ch hch => (h.accepting ch hch).2 i c hi hdown.index_ne) (h.turn.push functors)
    (.idle hnil) (fun _ hmem _ => hmem) (fun hmem => absurd hmem hinactive) h.settled, hgone, hfd,
    htrace⟩

/-- Poll has found a connection. -/
theorem Hosts.activateConnection (h : l.Hosts hosted acceptor registered) (hi : hosted i = some c)
    (hup : c.Up) {revents : EventMask}
    (honce : ClosesOnce { c.channel with revents }.handleEvent)
    {iteration : Iteration ServerChannel ServerFunctor}
    (hstep : l.iteration.activate (.connection i) = some iteration) :
    { l with iteration }.Hosts
        (Function.update hosted i (some { c with channel := { c.channel with revents } })) acceptor
        (Function.update registered c.channel.fd (some { c.channel with revents })) ∧
      iteration.queue = l.iteration.queue := by
  obtain ⟨hturn, hqueue⟩ := h.turn.activate hstep
  obtain ⟨hphase, -, rfl⟩ := Iteration.activate_eq_some.mp hstep
  refine ⟨?_, hqueue⟩
  set c' : TcpConnection := { c with channel := { c.channel with revents } } with hc'
  have hup' : c'.Up := ⟨hup.state, hup.index, hup.reading⟩
  have hholds : (c'.on l.poller).poller.Holds (TcpConnection.entry registered c (c'.on l.poller)) :=
    h.hosting.holds.revents (h.hosting.known i c hi hup.index_ne) revents
  have hhosting := (h.hosting.member hi hup.index_ne hholds rfl).still (i := i)
    (Function.update_self ..) (show c'.channel = c'.channel from rfl)
  rw [Function.update_idem] at hhosting
  have hidle : l.Idle := h.settled (by simp [hphase])
  refine h.member hi rfl hhosting (fun _ _ => hup'.index_ne)
    (fun ch hch => (h.accepting ch hch).2 i c hi hup.index_ne) hturn (.idle hidle.1)
    (fun j hmem hji => by simpa [hji] using hmem) (fun _ => ⟨hup', honce⟩) fun _ => hidle

/-- A connection that is not registered comes to the loop. -/
theorem Hosts.admits (h : l.Hosts hosted acceptor registered) (hi : hosted i = none)
    (hnew : c.channel.index = kNew) :
    l.Hosts (Function.update hosted i (some c)) acceptor registered := by
  have hbefore (j : Nat) (d : TcpConnection)
      (hj : Function.update hosted i (some c) j = some d) (hd : d.channel.index ≠ kNew) :
      hosted j = some d := by
    by_cases hji : j = i
    · subst hji
      rw [Function.update_self] at hj
      obtain rfl := Option.some.inj hj
      exact absurd hnew hd
    · rwa [Function.update_of_ne hji] at hj
  have hafter (j : Nat) (d : TcpConnection) (hj : hosted j = some d) :
      Function.update hosted i (some c) j = some d := by
    rw [Function.update_of_ne, hj]
    rintro rfl
    rw [hi] at hj
    simp at hj
  refine ⟨h.turn, ⟨h.hosting.holds, fun j d hj hd => h.hosting.known j d (hbefore j d hj hd) hd,
      fun j k d e hj hk hd he => h.hosting.apart j k d e (hbefore j d hj hd) (hbefore k e hk he) hd
        he⟩, fun ch hch => ⟨(h.accepting ch hch).1, fun j d hj hd =>
      (h.accepting ch hch).2 j d (hbefore j d hj hd) hd⟩, fun fd ch hch => ?_, ?_, fun j hj => ?_,
    h.settled⟩
  · refine (h.owned fd ch hch).imp_right ?_
    rintro ⟨j, d, hj, hd, hdfd⟩
    exact ⟨j, d, hafter j d hj, hd, hdfd⟩
  · cases h.handling with
    | idle hnil => exact .idle hnil
    | event j d cbs hcbs hj hinactive honce hstage =>
        exact .event j d cbs hcbs (hafter j d hj) hinactive honce hstage
  · obtain ⟨d, hd, hup, honce⟩ := h.active j hj
    exact ⟨d, hafter j d hd, hup, honce⟩

/-- The acceptor begins to listen. -/
theorem Hosts.listens (h : l.Hosts hosted none registered) {channel : Channel}
    (hnew : channel.index = kNew)
    (hapart : ∀ i c, hosted i = some c → c.channel.index ≠ kNew → c.channel.fd ≠ channel.fd) :
    let r := l.poller.updateChannel channel.enableReading
    { l with poller := r.val.1 }.Hosts hosted (some r.val.2)
        (Function.update registered channel.fd (some r.val.2)) ∧
      r.val.2.fd = channel.fd ∧ r.val.2.ptr = channel.ptr ∧ r.val.2.index = kAdded ∧
      r.trace = [] := by
  intro r
  have hnone : registered channel.fd = none := by
    cases hfd : registered channel.fd with
    | none => rfl
    | some ch =>
        rcases h.owned _ ch hfd with hch | ⟨j, d, hj, hd, hdfd⟩
        · simp at hch
        · exact absurd hdfd (hapart j d hj hd)
  obtain ⟨hholds, htrace, hchannel⟩ := h.hosting.holds.updateChannel (c := channel)
    channel.enableReading.events (Or.inr ⟨hnone, hnew⟩)
  have hval : r.val.2 = { channel with
      events := channel.enableReading.events
      index := kAdded } := by
    refine hchannel.trans ?_
    simp [hnew, kNew, kAdded]
  have hfd : r.val.2.fd = channel.fd := by rw [hval]
  refine ⟨⟨h.turn, h.hosting.other hholds hapart, ?_, ?_,
    h.handling.transfer rfl fun _ hmem => hmem, h.active, h.settled⟩, hfd, by rw [hval],
    by rw [hval], htrace⟩
  · rintro ch ⟨⟩
    refine ⟨?_, fun i c hi hc => ?_⟩
    · rw [hfd, Function.update_self]
    · rw [hfd]
      exact hapart i c hi hc
  · intro fd ch hch
    by_cases hsame : fd = channel.fd
    · subst hsame
      rw [Function.update_self] at hch
      exact Or.inl hch
    · rw [Function.update_of_ne hsame] at hch
      exact (h.owned fd ch hch).imp_left fun hno => by simp at hno

end IoLoop
end Chaonet
