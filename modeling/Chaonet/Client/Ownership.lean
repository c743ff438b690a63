import Chaonet.Client.TcpClient

/-!
# What a client has registered

Every channel that is registered in the loop of a client belongs to the attempt that is being
made, or to a connection that has not been destroyed: one that is up, or down and waiting for
`closeCallback_` or `connectionDestroyed` (`Owns`).  The lemmas say how the members of the
connector and of the connections keep this, and the steps of the loop.
-/

namespace Chaonet

open Foundation

namespace ClientLoop

/-- The kernel returns no descriptor that a connection has. -/
def Fresh (s : ClientLoop) (a : Attempt) : Prop :=
  ∀ c ∈ s.conns, c.channel.index ≠ kNew → c.channel.fd ≠ a.sockfd

instance (s : ClientLoop) (a : Attempt) : Decidable (s.Fresh a) :=
  inferInstanceAs (Decidable (∀ _ ∈ _, _))

/-- The connections of the client, by number. -/
def numbered (s : ClientLoop) : Nat → Option TcpConnection := fun i => s.conns[i]?

/-- How often a functor is queued. -/
def queuedCount (s : ClientLoop) (f : ClientFunctor) : Nat := s.iteration.queue.queued.count f

/-! ## The invariant -/

/-- What stage a connection is in, and where the client knows it from. -/
inductive Stage (s : ClientLoop) (i : Nat) (c : TcpConnection) : Prop
  | up (stage : c.Up) (connection : s.client.connection = some i) (closing : s.closing = none)
      (queued : s.queuedCount (.connectionDestroyed i) = 0)
  | closing (stage : c.Down) (connection : s.client.connection = some i)
      (closing : s.closing = some i) (queued : s.queuedCount (.connectionDestroyed i) = 0)
  | removed (stage : c.Down) (connection : s.client.connection ≠ some i)
      (queued : s.queuedCount (.connectionDestroyed i) = 1)
  | gone (stage : c.Gone) (connection : s.client.connection ≠ some i)
      (queued : s.queuedCount (.connectionDestroyed i) = 0)

/-- The callbacks of one event of a connection: it is up as long as it can be closed. -/
inductive Handling (s : ClientLoop) : List (Nat × ChannelCallback) → Prop
  | idle : Handling s []
  | event (i : Nat) (c : TcpConnection) (cbs : List ChannelCallback)
      (conn : s.numbered i = some c) (inactive : .connection i ∉ s.iteration.active)
      (nodup : cbs.Nodup) (noClose : .closeCallback ∉ cbs)
      (stage : c.Up ∨ c.Down ∧ .readCallback ∉ cbs) :
      Handling s (cbs.map fun cb => (i, cb))

/-- An attempt is being made, or none is; the channel of one that is over waits for its
`resetChannel`. -/
inductive Attempting (s : ClientLoop) (registered : Int → Option Channel) : Prop
  | trying (channel : Channel) (attempt : s.connector.Connecting registered channel)
      (apart : ∀ i c, s.numbered i = some c → c.channel.index ≠ kNew →
        c.channel.fd ≠ channel.fd)
      (connection : s.client.connection = none)
      (resets : s.queuedCount .resetChannel = 0)
  | resting (state : s.connector.state ≠ .kConnecting)
      (inactive : .connector ∉ s.iteration.active)
      (resets : s.queuedCount .resetChannel = if s.connector.channel = none then 0 else 1)
      (polled : s.connector.channel ≠ none → s.iteration.phase ≠ .polling)

structure Owns (s : ClientLoop) (registered : Int → Option Channel) : Prop where
  turn : s.iteration.InTurn
  hosting : TcpConnection.Hosting s.poller s.numbered registered
  owned : ∀ fd ch, registered fd = some ch → s.connector.connectingSocket = some fd ∨
    ∃ i c, s.numbered i = some c ∧ c.channel.index ≠ kNew ∧ c.channel.fd = fd
  attempting : Attempting s registered
  stages : ∀ i c, s.numbered i = some c → Stage s i c
  /-- The client has a connection only when the connector is done. -/
  connection : ∀ i, s.client.connection = some i →
    s.numbered i ≠ none ∧ s.connector.state = .kConnected
  closing : ∀ i, s.closing = some i → s.client.connection = some i
  handling : Handling s s.handling
  active : ∀ i, .connection i ∈ s.iteration.active → ∃ c, s.numbered i = some c ∧ c.Up ∧
    .closeCallback ∉ c.channel.handleEvent
  batch : s.iteration.phase = .functors → .resetChannel ∉ s.iteration.queue.pending
  settled : s.iteration.phase ≠ .handling → s.handling = [] ∧ s.closing = none
  unborn : ∀ i, s.numbered i = none → s.queuedCount (.connectionDestroyed i) = 0

theorem owns_start (clock numCreated : Nat) (writeComplete : Bool) :
    Owns (start clock numCreated writeComplete) fun _ => none := by
  refine ⟨.create clock, ⟨.create, ?_, ?_⟩, ?_, .resting ?_ ?_ rfl ?_, ?_, ?_, ?_, .idle, ?_, ?_,
    ?_, ?_⟩ <;>
  simp [start, numbered, TcpClient.create, Connector.create, connector, Iteration.create,
    queuedCount]

variable {s t : ClientLoop} {registered : Int → Option Channel} {i : Nat} {c : TcpConnection}

/-! ## What steps leave alone -/

/-- The stage of a connection depends on what the client and the queue have of it. -/
theorem Stage.transfer (h : Stage s i c) (hconnection : t.client.connection = s.client.connection)
    (hclosing : t.closing = s.closing)
    (hqueued : t.queuedCount (.connectionDestroyed i) = s.queuedCount (.connectionDestroyed i)) :
    Stage t i c := by
  cases h with
  | up hstage hc hcl hq =>
      exact .up hstage (hconnection.trans hc) (hclosing.trans hcl) (hqueued.trans hq)
  | closing hstage hc hcl hq =>
      exact .closing hstage (hconnection.trans hc) (hclosing.trans hcl) (hqueued.trans hq)
  | removed hstage hc hq => exact .removed hstage (hconnection ▸ hc) (hqueued.trans hq)
  | gone hstage hc hq => exact .gone hstage (hconnection ▸ hc) (hqueued.trans hq)

theorem Stage.index_of_up (h : Stage s i c) (hup : c.Up) :
    s.client.connection = some i ∧ s.closing = none ∧
      s.queuedCount (.connectionDestroyed i) = 0 := by
  cases h with
  | up _ hc hcl hq => exact ⟨hc, hcl, hq⟩
  | closing hdown _ _ _ => exact absurd hup.index (by rw [hdown.index]; decide)
  | removed hdown _ _ => exact absurd hup.index (by rw [hdown.index]; decide)
  | gone hgone _ _ => exact absurd hup.index (by rw [hgone.index]; decide)

/-- The callbacks that are left depend on the connections and on what is active. -/
theorem Handling.transfer {handling : List (Nat × ChannelCallback)} (h : Handling s handling)
    (hconns : t.numbered = s.numbered)
    (hactive : ∀ i, .connection i ∈ t.iteration.active → .connection i ∈ s.iteration.active) :
    Handling t handling := by
  cases h with
  | idle => exact .idle
  | event i c cbs hi hinactive hnodup hclose hstage =>
      exact .event i c cbs (by rw [hconns, hi]) (fun hmem => hinactive (hactive i hmem)) hnodup
        hclose hstage

/-- While a connection is up the connector has nothing to do. -/
theorem Owns.resting_of_up (h : Owns s registered) (hi : s.numbered i = some c) (hup : c.Up) :
    s.connector.state ≠ .kConnecting := by
  obtain ⟨hconnection, -, -⟩ := (h.stages i c hi).index_of_up hup
  rw [(h.connection i hconnection).2]
  decide

/-- While an attempt is being made the client has no connection. -/
theorem Owns.unconnected (h : Owns s registered) {channel : Channel}
    (attempt : s.connector.Connecting registered channel) : s.client.connection = none := by
  cases hc : s.client.connection with
  | none => rfl
  | some i => exact absurd (attempt.state.symm.trans (h.connection i hc).2) (by decide)

/-- What is not registered for the attempt belongs to a connection. -/
theorem Owns.owned_other (h : Owns s registered) {channel ch : Channel} {fd : Int}
    (attempt : s.connector.Connecting registered channel) (hother : fd ≠ channel.fd)
    (hch : registered fd = some ch) :
    ∃ i c, s.numbered i = some c ∧ c.channel.index ≠ kNew ∧ c.channel.fd = fd := by
  refine (h.owned fd ch hch).resolve_left ?_
  simp only [Connector.connectingSocket, attempt.state, attempt.current, if_true, Option.map_some,
    Option.some.injEq]
  exact fun heq => hother heq.symm

/-- While the client has no connection no event of one is about to be handled. -/
theorem Owns.inactive (h : Owns s registered) (hconnection : s.client.connection = none) (i : Nat) :
    .connection i ∉ s.iteration.active := by
  intro hmem
  obtain ⟨c, hi, hup, -⟩ := h.active i hmem
  obtain ⟨hsome, -, -⟩ := (h.stages i c hi).index_of_up hup
  simp [hconnection] at hsome

/-- Only a connection that is up is in the epoll set. -/
theorem Stage.up_of_index (h : Stage s i c) (hindex : c.channel.index = kAdded) : c.Up := by
  cases h with
  | up hup _ _ _ => exact hup
  | closing hdown _ _ _ => exact absurd hindex (by rw [hdown.index]; decide)
  | removed hdown _ _ => exact absurd hindex (by rw [hdown.index]; decide)
  | gone hgone _ _ => exact absurd hindex (by rw [hgone.index]; decide)

/-- A connection that is not destroyed and not up waits for a call that ends it. -/
theorem Stage.waits (h : Stage s i c) (hindex : c.channel.index ≠ kNew) (hdown : ¬c.Up) :
    s.closing = some i ∨ s.queuedCount (.connectionDestroyed i) = 1 := by
  cases h with
  | up hup _ _ _ => exact absurd hup hdown
  | closing _ _ hcl _ => exact .inl hcl
  | removed _ _ hq => exact .inr hq
  | gone hgone _ _ => exact absurd hgone.index hindex

/-- The iteration goes on. -/
theorem Owns.moved (h : Owns s registered) {iteration : Iteration ClientChannel ClientFunctor}
    (hturn : iteration.InTurn)
    (hresets : iteration.queue.queued.count .resetChannel = s.queuedCount .resetChannel)
    (hdestroyed : ∀ i, iteration.queue.queued.count (.connectionDestroyed i) =
      s.queuedCount (.connectionDestroyed i))
    (hactive : ∀ o ∈ iteration.active, o ∈ s.iteration.active)
    (hpolled : iteration.phase = .polling → s.iteration.phase ≠ .polling →
      s.connector.channel = none ∨ s.connector.state = .kConnecting)
    (hbatch : iteration.phase = .functors → .resetChannel ∉ iteration.queue.pending)
    (hsettled : iteration.phase ≠ .handling → s.handling = [] ∧ s.closing = none) :
    Owns { s with iteration } registered := by
  refine { h with
    turn := hturn
    attempting := ?_
    stages := ?_
    handling := ?_
    active := ?_
    batch := hbatch
    settled := hsettled
    unborn := fun i hi => (hdestroyed i).trans (h.unborn i hi) }
  · cases h.attempting with
    | trying channel attempt apart hconnection hnone =>
        exact .trying channel attempt apart hconnection (hresets.trans hnone)
    | resting hstate hinactive hone hpending =>
        refine .resting hstate (fun hmem => hinactive (hactive _ hmem)) (hresets.trans hone) ?_
        intro hchannel hpolling
        rcases hpolled hpolling (hpending hchannel) with hnone | hconnecting
        · exact hchannel hnone
        · exact hstate hconnecting
  · exact fun j d hj => (h.stages j d hj).transfer rfl rfl (hdestroyed j)
  · exact h.handling.transfer rfl fun _ hmem => hactive _ hmem
  · exact fun j hj => h.active j (hactive _ hj)

/-! ## Members of a connection -/

theorem numbered_performConn (hi : s.numbered i = some c)
    (x : Traced TcpConnection.Event TcpConnection) :
    (s.performConn i x).val.numbered = Function.update s.numbered i (some x.val) := by
  funext j
  have hlt : i < s.conns.length := (List.getElem?_eq_some_iff.mp hi).1
  by_cases hj : j = i
  · subst hj
    simp [numbered, performConn, hlt, setConnector]
  · rw [Function.update_of_ne hj]
    exact List.getElem?_set_ne (Ne.symm hj)

theorem unnumbered_performConn (hi : s.numbered i = some c)
    {x : Traced TcpConnection.Event TcpConnection} {j : Nat}
    (hj : (s.performConn i x).val.numbered j = none) : s.numbered j = none := by
  rw [numbered_performConn hi] at hj
  by_cases hji : j = i
  · simp [hji] at hj
  · rwa [Function.update_of_ne hji] at hj

/-- The functors of users are none of the others. -/
theorem queuedCount_performConn (s : ClientLoop) (i : Nat)
    (x : Traced TcpConnection.Event TcpConnection) {f : ClientFunctor}
    (hf : ∀ j u, f ≠ .user j u) :
    (s.performConn i x).val.queuedCount f = s.queuedCount f := by
  have hnone : f ∉ queuedByConn i x.trace := by
    intro hmem
    obtain ⟨e, -, he⟩ := List.mem_filterMap.mp hmem
    cases e with
    | queued u => exact hf i u (Option.some.inj he).symm
    | _ => simp at he
  simp only [queuedCount, performConn, Iteration.queued_push, List.count_append,
    List.count_eq_zero_of_not_mem hnone, Nat.add_zero]

theorem pending_performConn {x : Traced TcpConnection.Event TcpConnection}
    (h : .resetChannel ∈ (s.performConn i x).val.iteration.queue.pending) :
    .resetChannel ∈ s.iteration.queue.pending := by
  simp only [performConn, Iteration.push, BatchQueue.push, List.mem_append] at h
  refine h.resolve_right fun hmem => ?_
  obtain ⟨e, -, he⟩ := List.mem_filterMap.mp hmem
  cases e <;> simp at he

theorem callConn_of_numbered (hi : s.numbered i = some c)
    (member : TcpConnection → Traced TcpConnection.Event TcpConnection) :
    s.callConn i member = s.performConn i (member (c.on s.poller)) := by
  have hc : s.conn? i = some (c.on s.poller) := by
    simp [conn?, show s.conns[i]? = some c from hi]
  simp [callConn, hc]

/-- Who owns what is registered, when connection `i` has changed its channel. -/
theorem Owns.owned_update (h : Owns s registered) (hi : s.numbered i = some c)
    {c' : TcpConnection} (hindex : c'.channel.index ≠ kNew) (hfd : c'.channel.fd = c.channel.fd) :
    ∀ fd ch, TcpConnection.entry registered c c' fd = some ch →
      s.connector.connectingSocket = some fd ∨
      ∃ j d, Function.update s.numbered i (some c') j = some d ∧ d.channel.index ≠ kNew ∧
        d.channel.fd = fd := by
  intro fd ch hch
  by_cases hsame : fd = c.channel.fd
  · exact Or.inr ⟨i, c', Function.update_self .., hindex, by rw [hfd, hsame]⟩
  · rw [TcpConnection.entry, Function.update_of_ne hsame] at hch
    rcases h.owned fd ch hch with hsocket | ⟨j, d, hj, hd, hdfd⟩
    · exact Or.inl hsocket
    · refine Or.inr ⟨j, d, ?_, hd, hdfd⟩
      rw [Function.update_of_ne, hj]
      rintro rfl
      rw [hi] at hj
      obtain rfl := Option.some.inj hj
      exact hsame hdfd.symm

/-- The other connections of the client stay what they are. -/
theorem Owns.connection_update (h : Owns s registered) (c' : TcpConnection) :
    ∀ j, s.client.connection = some j →
      Function.update s.numbered i (some c') j ≠ none ∧ s.connector.state = .kConnected := by
  intro j hj
  obtain ⟨hsome, hconnected⟩ := h.connection j hj
  refine ⟨?_, hconnected⟩
  by_cases hji : j = i
  · simp [hji]
  · rwa [Function.update_of_ne hji]

/-- No attempt is made while members of a connection run. -/
theorem Owns.attempting_performConn (h : Owns s registered)
    (hstate : s.connector.state ≠ .kConnecting) {registered' : Int → Option Channel}
    (x : Traced TcpConnection.Event TcpConnection) :
    Attempting (s.performConn i x).val registered' := by
  cases h.attempting with
  | trying channel attempt _ _ _ => exact absurd attempt.state hstate
  | resting _ hinactive hresets hpolled =>
      exact .resting hstate hinactive ((queuedCount_performConn s i x (by simp)).trans hresets)
        hpolled

/-- A connection that is up is kept up. -/
theorem Owns.keeps (h : Owns s registered) (hi : s.numbered i = some c) (hup : c.Up)
    {x : Traced TcpConnection.Event TcpConnection}
    (hx : TcpConnection.Keeps (c.on s.poller) registered x) :
    Owns (s.performConn i x).val (TcpConnection.entry registered c x.val) ∧
      (s.performConn i x).val.closing = s.closing := by
  have hstate := h.resting_of_up hi hup
  have hup' : x.val.Up := hx.serving.toUp
  have hfd : x.val.channel.fd = c.channel.fd := hx.fd
  have hclosing : (s.performConn i x).val.closing = s.closing := by
    have hno : .closeCallback ∉ x.trace := by
      intro hmem
      rcases hx.calm _ hmem with hinert | heq
      · exact hinert
      · simp at heq
    simp [performConn, hno]
  obtain ⟨hconnection, hnot, hqueued⟩ := (h.stages i c hi).index_of_up hup
  have hnumbered := numbered_performConn hi x
  refine ⟨{ h with
    turn := h.turn.push _
    hosting := ?_
    owned := ?_
    attempting := h.attempting_performConn hstate x
    stages := ?_
    connection := ?_
    closing := fun j hj => h.closing j (hclosing ▸ hj)
    handling := ?_
    active := ?_
    batch := fun hphase hmem => h.batch hphase (pending_performConn hmem)
    settled := fun hphase => ⟨(h.settled hphase).1, hclosing.trans (h.settled hphase).2⟩
    unborn := fun j hj => (queuedCount_performConn s i x (by simp)).trans
      (h.unborn j (unnumbered_performConn hi hj)) }, hclosing⟩
  · rw [hnumbered]
    exact h.hosting.member hi hup.index_ne hx.serving.holds hfd
  · rw [hnumbered]
    exact h.owned_update hi hup'.index_ne hfd
  · intro j d hd
    rw [hnumbered] at hd
    by_cases hj : j = i
    · subst hj
      rw [Function.update_self] at hd
      obtain rfl := Option.some.inj hd
      exact .up hup' hconnection (hclosing.trans hnot)
        ((queuedCount_performConn s _ x (by simp)).trans hqueued)
    · rw [Function.update_of_ne hj] at hd
      exact (h.stages j d hd).transfer rfl hclosing (queuedCount_performConn s _ x (by simp))
  · rw [hnumbered]
    exact h.connection_update x.val
  · show Handling (s.performConn i x).val s.handling
    generalize hhandling : s.handling = handling
    have hbefore := h.handling
    rw [hhandling] at hbefore
    cases hbefore with
    | idle => exact .idle
    | event j d cbs hj hinactive hnodup hclose hstage =>
        by_cases hji : j = i
        · subst hji
          exact .event j x.val cbs (by rw [hnumbered, Function.update_self]) hinactive hnodup hclose
            (Or.inl hup')
        · exact .event j d cbs (by rw [hnumbered, Function.update_of_ne hji, hj]) hinactive hnodup
            hclose hstage
  · intro j hj
    obtain ⟨d, hd, hdup, hclose⟩ := h.active j hj
    by_cases hji : j = i
    · subst hji
      obtain rfl := Option.some.inj (hi.symm.trans hd)
      refine ⟨x.val, by rw [hnumbered, Function.update_self], hup', ?_⟩
      have hrevents : x.val.channel.revents = c.channel.revents := hx.revents
      rw [Channel.closeCallback_mem_handleEvent] at hclose ⊢
      rwa [hrevents]
    · exact ⟨d, by rw [hnumbered, Function.update_of_ne hji, hd], hdup, hclose⟩

/-- A connection that the client does not have is no longer up. -/
theorem Stage.parted (h : Stage s i c) (hs : s.client.connection ≠ some i)
    (ht : t.client.connection ≠ some i)
    (hqueued : t.queuedCount (.connectionDestroyed i) = s.queuedCount (.connectionDestroyed i)) :
    Stage t i c := by
  cases h with
  | up _ hc _ _ => exact absurd hc hs
  | closing _ hc _ _ => exact absurd hc hs
  | removed hstage _ hq => exact .removed hstage ht (hqueued.trans hq)
  | gone hstage _ hq => exact .gone hstage ht (hqueued.trans hq)

/-- A connection is closed by the last callback of its event that can do so. -/
theorem Owns.closes (h : Owns s registered) (hi : s.numbered i = some c) (hup : c.Up)
    {x : Traced TcpConnection.Event TcpConnection}
    (hx : TcpConnection.Closes (c.on s.poller) registered x)
    (hphase : s.iteration.phase = .handling) (hinactive : .connection i ∉ s.iteration.active)
    {cbs : List ChannelCallback} (hhandling : s.handling = cbs.map fun cb => (i, cb))
    (hnodup : cbs.Nodup) (hclose : .closeCallback ∉ cbs) (hread : .readCallback ∉ cbs) :
    Owns (s.performConn i x).val (TcpConnection.entry registered c x.val) := by
  have hstate := h.resting_of_up hi hup
  have hdown : x.val.Down := hx.closed.toDown
  have hfd : x.val.channel.fd = c.channel.fd := hx.fd
  have hclosing : (s.performConn i x).val.closing = some i := by
    obtain ⟨front, -, htrace⟩ := hx.told
    simp [performConn, htrace]
  obtain ⟨hconnection, -, hqueued⟩ := (h.stages i c hi).index_of_up hup
  have hnumbered := numbered_performConn hi x
  refine { h with
    turn := h.turn.push _
    hosting := ?_
    owned := ?_
    attempting := h.attempting_performConn hstate x
    stages := ?_
    connection := ?_
    closing := ?_
    handling := ?_
    active := ?_
    batch := fun hphase hmem => h.batch hphase (pending_performConn hmem)
    settled := fun hnot => absurd hphase hnot
    unborn := fun j hj => (queuedCount_performConn s i x (by simp)).trans
      (h.unborn j (unnumbered_performConn hi hj)) }
  · rw [hnumbered]
    exact h.hosting.member hi hup.index_ne hx.closed.holds hfd
  · rw [hnumbered]
    exact h.owned_update hi hdown.index_ne hfd
  · intro j d hd
    rw [hnumbered] at hd
    by_cases hj : j = i
    · subst hj
      rw [Function.update_self] at hd
      obtain rfl := Option.some.inj hd
      exact .closing hdown hconnection hclosing
        ((queuedCount_performConn s _ x (by simp)).trans hqueued)
    · rw [Function.update_of_ne hj] at hd
      have hnot : s.client.connection ≠ some j := by
        rw [hconnection]
        exact fun heq => hj (Option.some.inj heq).symm
      exact (h.stages j d hd).parted hnot hnot (queuedCount_performConn s _ x (by simp))
  · rw [hnumbered]
    exact h.connection_update x.val
  · intro j hj
    rw [hclosing] at hj
    obtain rfl := Option.some.inj hj
    exact hconnection
  · show Handling (s.performConn i x).val s.handling
    rw [hhandling]
    exact .event i x.val cbs (by rw [hnumbered, Function.update_self]) hinactive hnodup hclose
      (Or.inr ⟨hdown, hread⟩)
  · intro j hj
    obtain ⟨d, hd, hdup, hclose⟩ := h.active j hj
    have hji : j ≠ i := by
      rintro rfl
      exact hinactive hj
    exact ⟨d, by rw [hnumbered, Function.update_of_ne hji, hd], hdup, hclose⟩

/-- Another functor of the batch is run. -/
theorem Owns.nextFunctor (h : Owns s registered) {f : ClientFunctor}
    {iteration : Iteration ClientChannel ClientFunctor}
    (hnext : s.iteration.nextFunctor = some (f, iteration))
    (hf : f ≠ .resetChannel ∧ ∀ i, f ≠ .connectionDestroyed i) :
    Owns { s with iteration } registered := by
  obtain ⟨hturn, hqueued⟩ := h.turn.nextFunctor hnext
  obtain ⟨hphase, rest, hbatch, rfl⟩ := Iteration.nextFunctor_eq_some.mp hnext
  have hcount (g : ClientFunctor) (hg : f ≠ g) :
      (s.iteration.queue.proceed rest).queued.count g = s.queuedCount g := by
    rw [queuedCount, hqueued, List.count_cons_of_ne hg]
  exact h.moved hturn (hcount _ hf.1) (fun j => hcount _ (hf.2 j)) (fun o ho => ho)
    (fun hpolling hnot => absurd hpolling hnot) h.batch h.settled

/-- A connection that is down is destroyed. -/
theorem Owns.destroyed (h : Owns s registered)
    {iteration : Iteration ClientChannel ClientFunctor}
    (hnext : s.iteration.nextFunctor = some (.connectionDestroyed i, iteration))
    (hi : s.numbered i = some c) :
    let x := (c.on s.poller).connectionDestroyed
    Owns ({ s with iteration }.performConn i x).val
      (Function.update registered c.channel.fd none) ∧ x.val.channel.fd = c.channel.fd ∧
      ({ s with iteration }.performConn i x).val.closing = s.closing := by
  intro x
  obtain ⟨hturn, hqueued⟩ := h.turn.nextFunctor hnext
  obtain ⟨hphase, rest, hbatch, rfl⟩ := Iteration.nextFunctor_eq_some.mp hnext
  obtain ⟨hhandling, hclosing⟩ := h.settled (by simp [hphase])
  have hcount : s.queuedCount (.connectionDestroyed i) =
      (s.iteration.queue.proceed rest).queued.count (.connectionDestroyed i) + 1 := by
    rw [queuedCount, hqueued, List.count_cons_self]
  have hcount' (g : ClientFunctor) (hg : .connectionDestroyed i ≠ g) :
      (s.iteration.queue.proceed rest).queued.count g = s.queuedCount g := by
    rw [queuedCount, hqueued, List.count_cons_of_ne hg]
  -- Only a connection that the client has removed is queued for this.
  obtain ⟨hdown, hconnection, hone⟩ : c.Down ∧ s.client.connection ≠ some i ∧
      s.queuedCount (.connectionDestroyed i) = 1 := by
    cases h.stages i c hi with
    | up _ _ _ hq => omega
    | closing _ _ _ hq => omega
    | removed hstage hc hq => exact ⟨hstage, hc, hq⟩
    | gone _ _ hq => omega
  obtain ⟨hholds, hgone, hfd, htrace⟩ :=
    TcpConnection.connectionDestroyed_spec (h.hosting.closed hi hdown)
  set s₀ : ClientLoop :=
    { s with iteration := { s.iteration with queue := s.iteration.queue.proceed rest } } with hs₀
  have hnumbered : (s₀.performConn i x).val.numbered = Function.update s.numbered i (some x.val) :=
    numbered_performConn (s := s₀) hi x
  have hclosing' : (s₀.performConn i x).val.closing = s.closing := by
    simp [performConn, x, htrace, hs₀]
  have hother (j : Nat) (d : TcpConnection)
      (hj : (s₀.performConn i x).val.numbered j = some d) (hd : d.channel.index ≠ kNew) :
      s.numbered j = some d := by
    rw [hnumbered] at hj
    by_cases hji : j = i
    · subst hji
      rw [Function.update_self] at hj
      obtain rfl := Option.some.inj hj
      exact absurd hgone.index hd
    · rwa [Function.update_of_ne hji] at hj
  refine ⟨{ h with
    turn := hturn.push _
    hosting := ?_
    owned := ?_
    attempting := ?_
    stages := ?_
    connection := ?_
    closing := fun j hj => h.closing j (hclosing' ▸ hj)
    handling := ?_
    active := ?_
    batch := fun hphase hmem => h.batch hphase (pending_performConn (s := s₀) hmem)
    settled := fun _ => ⟨hhandling, hclosing'.trans hclosing⟩
    unborn := ?_ }, hfd, hclosing'⟩
  · rw [hnumbered]
    exact h.hosting.destroyed hi hdown.index_ne hgone.index hholds
  · intro fd ch hch
    by_cases hsame : fd = c.channel.fd
    · simp [hsame] at hch
    · rw [Function.update_of_ne hsame] at hch
      rcases h.owned fd ch hch with hsocket | ⟨j, d, hj, hd, hdfd⟩
      · exact Or.inl hsocket
      · refine Or.inr ⟨j, d, ?_, hd, hdfd⟩
        rw [hnumbered, Function.update_of_ne, hj]
        rintro rfl
        rw [hi] at hj
        obtain rfl := Option.some.inj hj
        exact hsame hdfd.symm
  · have hresets : (s₀.performConn i x).val.queuedCount .resetChannel =
        s.queuedCount .resetChannel :=
      (queuedCount_performConn s₀ i x (by simp)).trans (hcount' _ (by simp))
    cases h.attempting with
    | trying channel attempt apart hnone hzero =>
        have hknown : Function.update registered c.channel.fd none channel.fd = some channel := by
          rw [Function.update_of_ne (apart i c hi hdown.index_ne).symm]
          exact attempt.known
        exact .trying channel ⟨hholds, attempt.state, attempt.current, hknown⟩
          (fun j d hj hd => apart j d (hother j d hj hd) hd) hnone (hresets.trans hzero)
    | resting hstate hidle hone' hpolled =>
        exact .resting hstate hidle (hresets.trans hone') hpolled
  · intro j d hj
    rw [hnumbered] at hj
    by_cases hji : j = i
    · subst hji
      rw [Function.update_self] at hj
      obtain rfl := Option.some.inj hj
      refine .gone hgone hconnection ?_
      exact (queuedCount_performConn s₀ _ x (by simp)).trans (by
        show (s.iteration.queue.proceed rest).queued.count _ = 0
        omega)
    · rw [Function.update_of_ne hji] at hj
      exact (h.stages j d hj).transfer rfl hclosing'
        ((queuedCount_performConn s₀ i x (by simp)).trans (hcount' _ (by simpa using Ne.symm hji)))
  · rw [hnumbered]
    exact h.connection_update x.val
  · show Handling (s₀.performConn i x).val s.handling
    rw [hhandling]
    exact .idle
  · intro j hj
    have hactive : s.iteration.active = [] := h.turn.active hphase
    have hj' : ClientChannel.connection j ∈ s.iteration.active := hj
    simp [hactive] at hj'
  · intro j hj
    have hj' : s.numbered j = none := unnumbered_performConn (s := s₀) hi hj
    have hne : i ≠ j := by
      rintro rfl
      simp [hi] at hj'
    exact (queuedCount_performConn s₀ i x (by simp)).trans
      ((hcount' _ (by simpa using hne)).trans (h.unborn j hj'))

/-- A member that does nothing. -/
theorem Owns.still (h : Owns s registered) (hi : s.numbered i = some c) :
    Owns (s.performConn i (pure (c.on s.poller))).val registered := by
  have hnumbered := numbered_performConn hi (pure (c.on s.poller))
  have hval : (s.performConn i (pure (c.on s.poller))).val =
      { s with conns := s.conns.set i (c.on s.poller) } := by
    simp [performConn, queuedByConn, ClientLoop.setConnector, connector, TcpConnection.on, poller]
  rw [hval] at hnumbered ⊢
  rw [Traced.pure_val] at hnumbered
  have hback (j : Nat) (d : TcpConnection)
      (hd : ({ s with conns := s.conns.set i (c.on s.poller) } : ClientLoop).numbered j = some d) :
      ∃ d', s.numbered j = some d' ∧ d = d'.on d.poller := by
    rw [hnumbered] at hd
    by_cases hj : j = i
    · subst hj
      rw [Function.update_self] at hd
      obtain rfl : c.on s.poller = d := Option.some.inj hd
      exact ⟨c, hi, rfl⟩
    · rw [Function.update_of_ne hj] at hd
      exact ⟨d, hd, rfl⟩
  have hforth (j : Nat) (d : TcpConnection) (hd : s.numbered j = some d) : ∃ poller,
      ({ s with conns := s.conns.set i (c.on s.poller) } : ClientLoop).numbered j =
        some (d.on poller) := by
    rw [hnumbered]
    by_cases hj : j = i
    · subst hj
      obtain rfl := Option.some.inj (hi.symm.trans hd)
      exact ⟨s.poller, Function.update_self ..⟩
    · rw [Function.update_of_ne hj]
      exact ⟨d.poller, hd⟩
  have hhosting : TcpConnection.Hosting s.poller
      (Function.update s.numbered i (some (c.on s.poller))) registered := h.hosting.still hi rfl
  rw [← hnumbered] at hhosting
  refine { h with
    hosting := hhosting
    owned := ?_
    attempting := ?_
    stages := ?_
    connection := ?_
    handling := ?_
    active := ?_
    unborn := ?_ }
  · intro fd ch hch
    rcases h.owned fd ch hch with hsocket | ⟨j, d, hj, hd, hdfd⟩
    · exact Or.inl hsocket
    · obtain ⟨poller, hj'⟩ := hforth j d hj
      exact Or.inr ⟨j, _, hj', hd, hdfd⟩
  · cases h.attempting with
    | trying channel attempt hapart hconnection hresets =>
        refine .trying channel attempt (fun j d hj hd => ?_) hconnection hresets
        obtain ⟨d', hj', heq⟩ := hback j d hj
        rw [heq] at hd ⊢
        exact hapart j d' hj' hd
    | resting hstate hinactive hresets hpolled =>
        exact .resting hstate hinactive hresets hpolled
  · intro j d hd
    obtain ⟨d', hj', heq⟩ := hback j d hd
    rw [heq]
    cases h.stages j d' hj' with
    | up hup hc hcl hq => exact .up ⟨hup.state, hup.index, hup.reading⟩ hc hcl hq
    | closing hdown hc hcl hq => exact .closing ⟨hdown.state, hdown.index, hdown.idle⟩ hc hcl hq
    | removed hdown hc hq => exact .removed ⟨hdown.state, hdown.index, hdown.idle⟩ hc hq
    | gone hgone hc hq => exact .gone ⟨hgone.state, hgone.index⟩ hc hq
  · rw [hnumbered]
    exact h.connection_update _
  · show Handling _ s.handling
    generalize hhandling : s.handling = handling
    have hbefore := h.handling
    rw [hhandling] at hbefore
    cases hbefore with
    | idle => exact .idle
    | event j d cbs hj hinactive hnodup hclose hstage =>
        obtain ⟨poller, hj'⟩ := hforth j d hj
        refine .event j _ cbs hj' hinactive hnodup hclose ?_
        exact hstage.imp (fun hup => ⟨hup.state, hup.index, hup.reading⟩)
          fun hdown => ⟨⟨hdown.1.state, hdown.1.index, hdown.1.idle⟩, hdown.2⟩
  · intro j hj
    obtain ⟨d, hd, hup, hclose⟩ := h.active j hj
    obtain ⟨poller, hj'⟩ := hforth j d hd
    exact ⟨_, hj', ⟨hup.state, hup.index, hup.reading⟩, hclose⟩
  · intro j hj
    refine h.unborn j ?_
    by_contra hsome
    obtain ⟨d, hd⟩ := Option.ne_none_iff_exists'.mp hsome
    obtain ⟨poller, hj'⟩ := hforth j d hd
    rw [hj'] at hj
    simp at hj

/-- The callbacks that are left are others. -/
theorem Owns.handles (h : Owns s registered) {handling : List (Nat × ChannelCallback)}
    (hphase : s.iteration.phase = .handling) (hhandling : Handling s handling) :
    Owns { s with handling } registered := by
  refine { h with
    attempting := ?_
    stages := fun i c hi => (h.stages i c hi).transfer rfl rfl rfl
    handling := hhandling.transfer rfl fun _ hmem => hmem
    settled := fun hnot => absurd hphase hnot }
  cases h.attempting with
  | trying channel attempt hapart hconnection hresets =>
      exact .trying channel attempt hapart hconnection hresets
  | resting hstate hinactive hresets hpolled => exact .resting hstate hinactive hresets hpolled

/-- Poll has found a connection. -/
theorem Owns.activatedConn (h : Owns s registered) (hi : s.numbered i = some c)
    (hindex : c.channel.index = kAdded) {revents : EventMask}
    (hdeliverable : CallbackSession.Deliverable c.channel revents)
    {iteration : Iteration ClientChannel ClientFunctor}
    (hstep : s.iteration.activate (.connection i) = some iteration) :
    ∃ registered', Owns { s with
      conns := s.conns.set i { c with channel := { c.channel with revents } }
      iteration } registered' := by
  obtain ⟨hturn, -⟩ := h.turn.activate hstep
  obtain ⟨hphase, -, rfl⟩ := Iteration.activate_eq_some.mp hstep
  have hup : c.Up := (h.stages i c hi).up_of_index hindex
  set c' : TcpConnection := { c with channel := { c.channel with revents } } with hc'
  have hup' : c'.Up := ⟨hup.state, hup.index, hup.reading⟩
  -- As the connection is reading, a hang-up comes with something to read.
  have hclose : .closeCallback ∉ c'.channel.handleEvent := by
    rw [Channel.closeCallback_mem_handleEvent]
    exact fun hhangup => hdeliverable.2 hhangup.1 hup.reading hhangup.2
  have hnumbered : (fun j => (s.conns.set i c')[j]?) = Function.update s.numbered i (some c') := by
    funext j
    have hlt : i < s.conns.length := (List.getElem?_eq_some_iff.mp hi).1
    by_cases hj : j = i
    · subst hj
      simp [hlt]
    · rw [Function.update_of_ne hj]
      exact List.getElem?_set_ne (Ne.symm hj)
  have hholds : { c' with poller := s.poller }.poller.Holds
      (TcpConnection.entry registered c { c' with poller := s.poller }) :=
    h.hosting.holds.revents (h.hosting.known i c hi hup.index_ne) revents
  have hhosting := (h.hosting.member hi hup.index_ne hholds rfl).still (i := i)
    (Function.update_self ..) (show c'.channel = c'.channel from rfl)
  rw [Function.update_idem, ← hnumbered] at hhosting
  refine ⟨_, { h with
    turn := hturn
    hosting := hhosting
    owned := ?_
    attempting := ?_
    stages := ?_
    connection := ?_
    handling := ?_
    active := ?_
    batch := fun hfunctors => absurd (hphase.symm.trans hfunctors) (by decide)
    unborn := ?_ }⟩
  · have howned := h.owned_update hi (show c'.channel.index ≠ kNew from hup'.index_ne) rfl
    rw [← hnumbered] at howned
    exact howned
  · cases h.attempting with
    | trying channel attempt _ _ _ => exact absurd attempt.state (h.resting_of_up hi hup)
    | resting hstate hinactive hresets hpolled =>
        exact .resting hstate (by simpa using hinactive) hresets hpolled
  · intro j d hd
    have hd' := (congrFun hnumbered j).symm.trans hd
    by_cases hj : j = i
    · subst hj
      rw [Function.update_self] at hd'
      obtain rfl := Option.some.inj hd'
      obtain ⟨hconnection, hclosing, hqueued⟩ := (h.stages j c hi).index_of_up hup
      exact .up hup' hconnection hclosing hqueued
    · rw [Function.update_of_ne hj] at hd'
      exact (h.stages j d hd').transfer rfl rfl rfl
  · have hconnection := h.connection_update (i := i) c'
    rw [← hnumbered] at hconnection
    exact hconnection
  · have hhandling : s.handling = [] := (h.settled (by simp [hphase])).1
    show Handling _ s.handling
    rw [hhandling]
    exact .idle
  · intro j hj
    by_cases hji : j = i
    · subst hji
      exact ⟨c', (congrFun hnumbered j).trans (Function.update_self ..), hup', hclose⟩
    · obtain ⟨d, hd, hdup, hdclose⟩ := h.active j (by simpa [hji] using hj)
      refine ⟨d, (congrFun hnumbered j).trans ?_, hdup, hdclose⟩
      rwa [Function.update_of_ne hji]
  · intro j hj
    refine h.unborn j ?_
    have hj' := (congrFun hnumbered j).symm.trans hj
    by_cases hji : j = i
    · simp [hji] at hj'
    · rwa [Function.update_of_ne hji] at hj'

/-! ## Members of the connector -/

theorem performConnector_of_nil {x : Traced Connector.Event Connector}
    (hqueued : queuedByConnector x.trace = []) :
    (s.performConnector x).val = s.setConnector x.val := by
  simp [performConnector, hqueued, setConnector]

/-- A member that ends an attempt queues one `resetChannel`. -/
theorem performConnector_of_reset {x : Traced Connector.Event Connector}
    (hqueued : queuedByConnector x.trace = [.resetChannel]) :
    (s.performConnector x).val =
      { s.setConnector x.val with iteration := s.iteration.push [.resetChannel] } := by
  simp [performConnector, hqueued]

/-- The connector changes while the client has no connection. -/
theorem Owns.setConnector (h : Owns s registered) {registered' : Int → Option Channel}
    {c' : Connector} (hconnection : s.client.connection = none)
    (hhosting : TcpConnection.Hosting c'.poller s.numbered registered')
    (howned : ∀ fd ch, registered' fd = some ch → c'.connectingSocket = some fd ∨
      ∃ i c, s.numbered i = some c ∧ c.channel.index ≠ kNew ∧ c.channel.fd = fd)
    (hattempting : Attempting (s.setConnector c') registered') :
    Owns (s.setConnector c') registered' := by
  refine { h with
    hosting := hhosting
    owned := howned
    attempting := hattempting
    stages := ?_
    connection := ?_
    handling := ?_ }
  · exact fun j d hd => (h.stages j d hd).transfer rfl rfl rfl
  · intro j hj
    rw [show s.client.connection = some j from hj] at hconnection
    simp at hconnection
  · exact h.handling.transfer rfl fun _ hmem => hmem

theorem fresh_numbered {a : Attempt} (hfresh : s.Fresh a) :
    ∀ i c, s.numbered i = some c → c.channel.index ≠ kNew → c.channel.fd ≠ a.sockfd :=
  fun _ c hc => hfresh c (List.mem_of_getElem? hc)

/-- No attempt and no connection of the client: the descriptor of a new attempt is free. -/
theorem Owns.free (h : Owns s registered) (hstate : s.connector.state = .kDisconnected)
    {a : Attempt} (hfresh : s.Fresh a) :
    s.client.connection = none ∧ s.connector.connectingSocket = none ∧
      registered a.sockfd = none := by
  have hne : s.connector.state ≠ .kConnecting := by simp [hstate]
  have hsocket : s.connector.connectingSocket = none := if_neg hne
  refine ⟨?_, hsocket, ?_⟩
  · cases hc : s.client.connection with
    | none => rfl
    | some i => exact absurd (h.connection i hc).2 (by simp [hstate])
  · cases hfd : registered a.sockfd with
    | none => rfl
    | some ch =>
        rcases h.owned _ ch hfd with hconnecting | ⟨i, c, hi, hindex, hsame⟩
        · simp [hsocket] at hconnecting
        · exact absurd hsame (fresh_numbered hfresh i c hi hindex)

/-- An attempt, when no other is being made and none that is over keeps its channel. -/
theorem Owns.connect (h : Owns s registered) {a : Attempt}
    (hstate : s.connector.state = .kDisconnected) (hfresh : s.Fresh a)
    (hchannel : a.savedErrno.progress = .connecting → s.connector.channel = none) :
    ∃ registered', Owns (s.performConnector (s.connector.connect a)).val registered' := by
  obtain ⟨hconnection, hsocket, hfree⟩ := h.free hstate hfresh
  have hne : s.connector.state ≠ .kConnecting := by simp [hstate]
  cases h.attempting with
  | trying channel attempt _ _ _ => exact absurd attempt.state hne
  | resting _ hidle hresets hpolled =>
      have htried := Connector.connect_spec (c := s.connector) h.hosting.holds
        (a := a) (fun hprogress => ⟨hchannel hprogress, hfree⟩)
      generalize s.connector.connect a = x at htried
      have hrest : ∀ fd ch, registered fd = some ch →
          ∃ i c, s.numbered i = some c ∧ c.channel.index ≠ kNew ∧ c.channel.fd = fd :=
        fun fd ch hch => (h.owned fd ch hch).resolve_left (by simp [hsocket])
      -- What `connect(2)` reports begins an attempt, schedules a retry, or closes the socket.
      cases htried with
      | connecting poller channel hprogress hfd hindex hafter =>
          have hapart := fresh_numbered hfresh
          have hzero : s.queuedCount .resetChannel = 0 := by
            simpa [hchannel hprogress] using hresets
          rw [performConnector_of_nil rfl]
          have hattempt : Connector.Connecting { s.connector with
              state := .kConnecting, poller, channel := some channel }
              (Function.update registered a.sockfd (some channel)) channel :=
            ⟨hafter, rfl, rfl, by rw [hfd, Function.update_self]⟩
          refine ⟨_, h.setConnector hconnection (h.hosting.other hafter hapart) ?_ ?_⟩
          · intro fd ch hch
            by_cases hsame : fd = a.sockfd
            · refine Or.inl ?_
              simp [Connector.connectingSocket, hfd, hsame]
            · rw [Function.update_of_ne hsame] at hch
              exact Or.inr (hrest fd ch hch)
          · exact .trying channel hattempt (fun i c hi hc => by rw [hfd]; exact hapart i c hi hc)
              hconnection hzero
      | retried hprogress =>
          rw [performConnector_of_nil rfl]
          have hafter : (s.connector.retry a.sockfd).val.state = .kDisconnected := by simp
          refine ⟨registered, h.setConnector hconnection ?_ ?_ ?_⟩
          · rw [Connector.retry_poller]
            exact h.hosting
          · exact fun fd ch hch => Or.inr (hrest fd ch hch)
          · have hsame := Connector.retry_channel s.connector a.sockfd
            refine .resting (hafter.trans_ne (by decide)) hidle (hresets.trans ?_) fun hne => ?_
            · rw [← hsame]
              rfl
            · exact hpolled fun hnone => hne (hsame.trans hnone)
      | closed hprogress =>
          rw [performConnector_of_nil rfl]
          exact ⟨registered, h.setConnector hconnection h.hosting h.owned
            (.resting hne hidle hresets hpolled)⟩

/-- An attempt is over: its channel waits for `resetChannel`. -/
theorem Owns.over (h : Owns s registered) {channel : Channel}
    (attempt : s.connector.Connecting registered channel) (hidle : s.Idle)
    (hphase : s.iteration.phase = .handling) (hinactive : .connector ∉ s.iteration.active)
    {c' : Connector} (hholds : c'.poller.Holds (Function.update registered channel.fd none))
    (hchannel : c'.channel ≠ none) (hstate : c'.state ≠ .kConnecting) :
    Owns { s.setConnector c' with iteration := s.iteration.push [.resetChannel] }
      (Function.update registered channel.fd none) := by
  obtain ⟨hhandling, hclosing, -⟩ := hidle
  cases h.attempting with
  | resting hnot _ _ _ => exact absurd attempt.state hnot
  | trying channel' attempt' hapart hconnection hzero =>
      obtain rfl : channel = channel' :=
        Option.some.inj (attempt.current.symm.trans attempt'.current)
      have hcount (f : ClientFunctor) :
          (s.iteration.push [.resetChannel]).queue.queued.count f =
            s.queuedCount f + [ClientFunctor.resetChannel].count f := by
        rw [Iteration.queued_push, List.count_append, queuedCount]
      have hcount' (i : Nat) : (s.iteration.push [.resetChannel]).queue.queued.count
          (.connectionDestroyed i) = s.queuedCount (.connectionDestroyed i) := by
        rw [hcount]
        simp
      refine { h with
        turn := h.turn.push _
        hosting := h.hosting.other hholds hapart
        owned := ?_
        attempting := ?_
        stages := fun j d hd => (h.stages j d hd).transfer rfl rfl (hcount' j)
        connection := ?_
        handling := ?_
        batch := fun hfunctors => absurd (hphase.symm.trans hfunctors) (by decide)
        settled := fun hnot => absurd hphase hnot
        unborn := fun i hi => (hcount' i).trans (h.unborn i hi) }
      · intro fd ch hch
        by_cases hsame : fd = channel.fd
        · simp [hsame] at hch
        · rw [Function.update_of_ne hsame] at hch
          exact Or.inr (h.owned_other attempt hsame hch)
      · refine .resting hstate hinactive (((hcount _).trans ?_).trans (if_neg hchannel).symm) ?_
        · rw [hzero]
          rfl
        · intro _ hpolling
          exact absurd (hphase.symm.trans hpolling) (by decide)
      · intro j hj
        rw [show s.client.connection = some j from hj] at hconnection
        simp at hconnection
      · show Handling _ s.handling
        rw [hhandling]
        exact .idle

/-- A socket is handed over: a connection comes up. -/
theorem Owns.newConnection (h : Owns s registered) (hconnection : s.client.connection = none)
    (hconnected : s.connector.state = .kConnected) (hhandling : s.handling = [])
    (hclosing : s.closing = none) {sockfd : Int} (hfree : registered sockfd = none)
    (hapart : ∀ i c, s.numbered i = some c → c.channel.index ≠ kNew → c.channel.fd ≠ sockfd)
    (ptr : ChannelPtr) :
    ∃ x : Traced TcpConnection.Event TcpConnection, x.val.channel.fd = sockfd ∧
      s.newConnection sockfd ptr = ⟨{ s with
        client := { s.client with
          connector := { s.connector with poller := x.val.poller }
          connection := some s.conns.length }
        conns := s.conns ++ [x.val] }, [.conn s.conns.length (.connectionCallback true)]⟩ ∧
      ∃ registered', Owns (s.newConnection sockfd ptr).val registered' := by
  set c := TcpConnection.create (Channel.create ptr sockfd) s.poller
    s.client.writeCompleteCallback false with hc
  obtain ⟨hserving, hfd, htrace⟩ := TcpConnection.connectionEstablished_spec (c := c) ⟨rfl, rfl⟩
    h.hosting.holds hfree
  generalize hx : c.connectionEstablished = x at hserving hfd htrace
  have hval : s.newConnection sockfd ptr = ⟨{ s with
      client := { s.client with
        connector := { s.connector with poller := x.val.poller }
        connection := some s.conns.length }
      conns := s.conns ++ [x.val] }, [.conn s.conns.length (.connectionCallback true)]⟩ := by
    simp only [ClientLoop.newConnection, ← hc, performConn, hx, htrace]
    simp [ClientLoop.setConnector, queuedByConn, connector]
  refine ⟨x, hfd, hval, Function.update registered sockfd (some x.val.channel), ?_⟩
  rw [hval]
  have hnumbered : (fun i => (s.conns ++ [x.val])[i]?) =
      Function.update s.numbered s.conns.length (some x.val) := by
    funext j
    by_cases hj : j = s.conns.length
    · simp [hj]
    · rw [Function.update_of_ne hj]
      rcases Nat.lt_or_gt_of_ne hj with hlt | hgt
      · exact List.getElem?_append_left hlt
      · rw [numbered, List.getElem?_eq_none (by simp; omega), List.getElem?_eq_none (by omega)]
  have hfd' : x.val.channel.fd = sockfd := hfd
  have hnew : s.numbered s.conns.length = none := List.getElem?_eq_none (Nat.le_refl _)
  have hold (j : Nat) (d : TcpConnection) (hj : j ≠ s.conns.length)
      (hd : (s.conns ++ [x.val])[j]? = some d) : s.numbered j = some d := by
    have hd' := (congrFun hnumbered j).symm.trans hd
    rwa [Function.update_of_ne hj] at hd'
  refine { h with
    hosting := ?_
    owned := ?_
    attempting := ?_
    stages := ?_
    connection := ?_
    closing := ?_
    handling := ?_
    active := fun i hi => absurd hi (h.inactive hconnection i)
    unborn := ?_ }
  · show TcpConnection.Hosting x.val.poller (fun i => (s.conns ++ [x.val])[i]?) _
    rw [hnumbered]
    have hhosting : TcpConnection.Hosting x.val.poller
        (Function.update s.numbered s.conns.length (some x.val))
        (Function.update registered x.val.channel.fd (some x.val.channel)) :=
      h.hosting.established (by rw [hfd']; exact hapart) (by rw [hfd']; exact hserving.holds)
    rwa [hfd'] at hhosting
  · intro fd ch hch
    by_cases hsame : fd = sockfd
    · refine Or.inr ⟨s.conns.length, x.val, ?_, hserving.toUp.index_ne, by rw [hfd', hsame]⟩
      exact (congrFun hnumbered _).trans (Function.update_self ..)
    · rw [Function.update_of_ne hsame] at hch
      rcases h.owned fd ch hch with hsocket | ⟨j, d, hj, hd, hdfd⟩
      · exact Or.inl hsocket
      · refine Or.inr ⟨j, d, ?_, hd, hdfd⟩
        refine (congrFun hnumbered j).trans ?_
        rw [Function.update_of_ne, hj]
        rintro rfl
        rw [hnew] at hj
        simp at hj
  · cases h.attempting with
    | trying channel attempt _ _ _ =>
        have hstate := attempt.state
        rw [hconnected] at hstate
        simp at hstate
    | resting hstate hidle hresets hpolled => exact .resting hstate hidle hresets hpolled
  · intro j d hd
    by_cases hj : j = s.conns.length
    · subst hj
      have hd' := (congrFun hnumbered _).symm.trans hd
      rw [Function.update_self] at hd'
      obtain rfl := Option.some.inj hd'
      exact .up hserving.toUp rfl hclosing (h.unborn _ hnew)
    · refine (h.stages j d (hold j d hj hd)).parted (by simp [hconnection]) ?_ rfl
      simpa using Ne.symm hj
  · intro j hj
    obtain rfl : s.conns.length = j := Option.some.inj hj
    refine ⟨?_, hconnected⟩
    rw [numbered, congrFun hnumbered]
    simp
  · intro j hj
    exact absurd (hclosing.symm.trans hj) (by simp)
  · show Handling _ s.handling
    rw [hhandling]
    exact .idle
  · intro j hj
    refine h.unborn j ?_
    have hj' := (congrFun hnumbered j).symm.trans hj
    by_cases hji : j = s.conns.length
    · simp [hji] at hj'
    · rwa [Function.update_of_ne hji] at hj'

/-! ## Flags, timers and masks -/

/-- Flags and timers change. -/
theorem Owns.switched (h : Owns s registered) (retry_ connect_ restarts called : Bool)
    (timers : OneShots ClientTimer) :
    Owns { s with
      client := { s.client with
        retry_
        connect_
        connector := { s.connector with connect_ := restarts, timers } }
      called } registered := by
  refine { h with
    attempting := ?_
    stages := fun i c hi => (h.stages i c hi).transfer rfl rfl rfl
    handling := h.handling.transfer rfl fun _ hmem => hmem }
  cases h.attempting with
  | trying channel attempt hapart hconnection hresets =>
      exact .trying channel ⟨attempt.holds, attempt.state, attempt.current, attempt.known⟩ hapart
        hconnection hresets
  | resting hstate hinactive hresets hpolled => exact .resting hstate hinactive hresets hpolled

/-- The program is ended. -/
theorem Owns.ended (h : Owns s registered) : Owns { s with aborted := true } registered := by
  refine { h with
    attempting := ?_
    stages := fun i c hi => (h.stages i c hi).transfer rfl rfl rfl
    handling := h.handling.transfer rfl fun _ hmem => hmem }
  cases h.attempting with
  | trying channel attempt hapart hconnection hresets =>
      exact .trying channel attempt hapart hconnection hresets
  | resting hstate hinactive hresets hpolled => exact .resting hstate hinactive hresets hpolled

/-- The mask that is set for the channel of an attempt. -/
theorem Owns.activated (h : Owns s registered) {channel : Channel} (revents : EventMask)
    {iteration : Iteration ClientChannel ClientFunctor}
    (hchannel : s.connector.channel = some channel)
    (hstep : s.iteration.activate .connector = some iteration) :
    s.connector.state = .kConnecting ∧ ∃ registered',
      Owns { s.setConnector { s.connector with channel := some { channel with revents } } with
        iteration } registered' := by
  obtain ⟨hturn, -⟩ := h.turn.activate hstep
  obtain ⟨hphase, -, rfl⟩ := Iteration.activate_eq_some.mp hstep
  cases h.attempting with
  | resting _ _ _ hpolled => exact absurd hphase (hpolled (by simp [hchannel]))
  | trying channel' attempt hapart hconnection hresets =>
      obtain rfl : channel = channel' := Option.some.inj (hchannel.symm.trans attempt.current)
      have hholds := h.hosting.holds.revents attempt.known revents
      refine ⟨attempt.state,
        Function.update registered channel.fd (some { channel with revents }), { h with
          turn := hturn
          hosting := h.hosting.other hholds hapart
          owned := ?_
          attempting := ?_
          stages := fun i c hi => (h.stages i c hi).transfer rfl rfl rfl
          handling := ?_
          active := ?_
          batch := fun hfunctors => absurd (hphase.symm.trans hfunctors) (by decide) }⟩
      · intro fd ch hch
        by_cases hsame : fd = channel.fd
        · refine Or.inl ?_
          show Connector.connectingSocket { s.connector with
            channel := some { channel with revents } } = some fd
          simp [Connector.connectingSocket, attempt.state, hsame]
        · rw [Function.update_of_ne hsame] at hch
          exact Or.inr (h.owned_other attempt hsame hch)
      · exact .trying { channel with revents }
          ⟨hholds, attempt.state, rfl, Function.update_self ..⟩ hapart hconnection hresets
      · exact h.handling.transfer rfl fun i hmem => by simpa using hmem
      · exact fun j hj => h.active j (by simpa using hj)

/-! ## Connections that are dropped, and channels that are reset -/

/-- The connection that has told that it is down is dropped. -/
theorem Owns.removed (h : Owns s registered) (hclosing : s.closing = some i) :
    Owns { s with
      closing := none
      client := { s.client with connection := none }
      iteration := s.iteration.push [.connectionDestroyed i] } registered ∧
    s.connector.state = .kConnected := by
  have hconnection := h.closing i hclosing
  obtain ⟨hsome, hconnected⟩ := h.connection i hconnection
  obtain ⟨c, hi⟩ := Option.ne_none_iff_exists'.mp hsome
  obtain ⟨hdown, hqueued⟩ : c.Down ∧ s.queuedCount (.connectionDestroyed i) = 0 := by
    cases h.stages i c hi with
    | up _ _ hcl _ => simp [hclosing] at hcl
    | closing hdown _ _ hq => exact ⟨hdown, hq⟩
    | removed _ hc _ => exact absurd hconnection hc
    | gone _ hc _ => exact absurd hconnection hc
  have hcount (f : ClientFunctor) :
      (s.iteration.push [.connectionDestroyed i]).queue.queued.count f =
        s.queuedCount f + [ClientFunctor.connectionDestroyed i].count f := by
    rw [Iteration.queued_push, List.count_append, queuedCount]
  refine ⟨{ h with
    turn := h.turn.push _
    attempting := ?_
    stages := ?_
    connection := fun j hj => by simp at hj
    closing := fun j hj => by simp at hj
    handling := h.handling.transfer rfl fun _ hmem => hmem
    batch := ?_
    settled := fun hnot => ⟨(h.settled hnot).1, rfl⟩
    unborn := ?_ }, hconnected⟩
  · cases h.attempting with
    | trying channel attempt _ _ _ =>
        exact absurd (hconnected.symm.trans attempt.state) (by decide)
    | resting hstate hinactive hresets hpolled =>
        exact .resting hstate hinactive ((hcount _).trans hresets) hpolled
  · intro j d hj
    by_cases hji : j = i
    · subst hji
      obtain rfl := Option.some.inj (hi.symm.trans hj)
      refine .removed hdown (by simp) ((hcount _).trans ?_)
      rw [hqueued, List.count_singleton_self]
    · have hnot : s.client.connection ≠ some j := by
        rw [hconnection]
        exact fun heq => hji (Option.some.inj heq).symm
      refine (h.stages j d hj).parted hnot (by simp) ((hcount _).trans ?_)
      simp [Ne.symm hji]
  · intro hfunctors
    -- `closeCallback_` is called while events are handled, not from the batch.
    have hnone := (h.settled (by simp [show s.iteration.phase = .functors from hfunctors])).2
    simp [hclosing] at hnone
  · intro j hj
    refine ((hcount _).trans ?_).trans (h.unborn j hj)
    have hne : i ≠ j := by
      rintro rfl
      exact hsome hj
    simp [hne]

/-- `restart()` has reset the connector. -/
theorem Owns.restarted (h : Owns s registered) (hconnection : s.client.connection = none)
    (hstate : s.connector.state = .kConnected) :
    Owns (s.setConnector { s.connector with
      state := .kDisconnected
      retryDelayMs := Connector.kInitRetryDelayMs
      connect_ := true }) registered := by
  refine h.setConnector hconnection h.hosting (fun fd ch hch => ?_) ?_
  · refine (h.owned fd ch hch).imp_left fun hsocket => ?_
    rw [Connector.connectingSocket, if_neg (by simp [hstate])] at hsocket
    simp at hsocket
  · cases h.attempting with
    | trying channel attempt _ _ _ => exact absurd attempt.state (by simp [hstate])
    | resting _ hinactive hresets hpolled =>
        exact .resting (fun hc => by simp [ClientLoop.setConnector, connector] at hc) hinactive
          hresets hpolled

/-- The channel of an attempt that is over is destroyed. -/
theorem Owns.resetChannel (h : Owns s registered)
    {iteration : Iteration ClientChannel ClientFunctor}
    (hnext : s.iteration.nextFunctor = some (.resetChannel, iteration)) :
    Owns ({ s with iteration }.setConnector s.connector.resetChannel) registered ∧
      s.connector.state ≠ .kConnecting := by
  obtain ⟨hturn, hqueued⟩ := h.turn.nextFunctor hnext
  obtain ⟨hphase, rest, hbatch, rfl⟩ := Iteration.nextFunctor_eq_some.mp hnext
  have hcount : s.queuedCount .resetChannel =
      (s.iteration.queue.proceed rest).queued.count .resetChannel + 1 := by
    rw [queuedCount, hqueued, List.count_cons_self]
  have hcount' (i : Nat) :
      (s.iteration.queue.proceed rest).queued.count (.connectionDestroyed i) =
        s.queuedCount (.connectionDestroyed i) := by
    rw [queuedCount, hqueued, List.count_cons_of_ne (by simp)]
  cases h.attempting with
  | trying _ _ _ _ hresets => omega
  | resting hstate hinactive hresets hpolled =>
      refine ⟨{ h with
        turn := hturn
        owned := ?_
        attempting := ?_
        stages := fun i c hi => (h.stages i c hi).transfer rfl rfl (hcount' i)
        handling := h.handling.transfer rfl fun _ hmem => hmem
        unborn := fun i hi => (hcount' i).trans (h.unborn i hi) }, hstate⟩
      · intro fd ch hch
        refine (h.owned fd ch hch).imp_left fun hsocket => ?_
        rw [Connector.connectingSocket, if_neg hstate] at hsocket
        simp at hsocket
      · refine .resting hstate hinactive ?_ fun hne => absurd rfl hne
        -- At most one is queued, and that one is run.
        have hone : s.queuedCount .resetChannel ≤ 1 := by
          rw [hresets]
          split_ifs <;> omega
        refine Eq.trans (b := 0) ?_ (if_pos rfl).symm
        show (s.iteration.queue.proceed rest).queued.count .resetChannel = 0
        omega

/-! ## Moving on in the iteration -/

/-- The next channel handles its event. -/
theorem Owns.next (h : Owns s registered) {o : ClientChannel}
    {iteration : Iteration ClientChannel ClientFunctor}
    (hnext : s.iteration.next = some (o, iteration)) :
    Owns { s with iteration } registered ∧ iteration.phase = .handling ∧ o ∈ s.iteration.active ∧
      o ∉ iteration.active := by
  obtain ⟨hturn, hqueue⟩ := h.turn.next hnext
  obtain ⟨hphase, hactive, heq⟩ := Iteration.next_eq_some.mp hnext
  have hphase' : iteration.phase = .handling := by rw [heq, hphase]
  have hsub : ∀ o' ∈ iteration.active, o' ∈ s.iteration.active := by
    intro o' ho'
    rw [hactive]
    exact List.mem_cons_of_mem _ ho'
  refine ⟨h.moved hturn (by rw [hqueue]; rfl) (fun i => by rw [hqueue]; rfl) hsub ?_ ?_ ?_,
    hphase', by rw [hactive]; exact List.mem_cons_self, h.turn.next_fresh hnext⟩
  · exact fun hpolling => absurd (hphase'.symm.trans hpolling) (by decide)
  · exact fun hfunctors => absurd (hphase'.symm.trans hfunctors) (by decide)
  · exact fun hnot => absurd hphase' hnot

/-- A step that only moves on in the iteration. -/
theorem Owns.proceeds (h : Owns s registered) (hidle : s.Idle) (clock : Nat)
    {iteration : Iteration ClientChannel ClientFunctor}
    (hmoved : s.iteration.wake clock = some iteration ∨
      s.iteration.swap = some iteration ∨ s.iteration.finish = some iteration) :
    Owns { s with iteration } registered := by
  obtain ⟨hhandling, hclosing, -⟩ := hidle
  rcases hmoved with hstep | hstep | hstep
  · obtain ⟨hturn, hqueue⟩ := h.turn.wake hstep
    obtain ⟨hphase, rfl⟩ := Iteration.wake_eq_some.mp hstep
    refine h.moved hturn rfl (fun _ => rfl) (fun _ hmem => hmem) ?_ ?_ ?_
    · exact fun hpolling => by simp at hpolling
    · exact fun hfunctors => by simp at hfunctors
    · exact fun hnot => absurd rfl hnot
  · obtain ⟨hturn, hqueued⟩ := h.turn.swap hstep
    obtain ⟨hphase, -, rfl⟩ := Iteration.swap_eq_some.mp hstep
    refine h.moved hturn (by rw [hqueued]; rfl) (fun _ => by rw [hqueued]; rfl)
      (fun _ hmem => hmem) ?_ ?_ ?_
    · exact fun hpolling => by simp at hpolling
    · exact fun _ hmem => by simp [BatchQueue.swap] at hmem
    · exact fun _ => ⟨hhandling, hclosing⟩
  · obtain ⟨hturn, hqueued⟩ := h.turn.finish hstep
    obtain ⟨hphase, hbatch, rfl⟩ := Iteration.finish_eq_some.mp hstep
    refine h.moved hturn (by rw [hqueued]; rfl) (fun _ => by rw [hqueued]; rfl)
      (fun _ hmem => hmem) (fun _ _ => ?_) ?_ ?_
    · -- The batch has run the `resetChannel` that was queued before it.
      have hnone : s.queuedCount .resetChannel = 0 := by
        rw [queuedCount, BatchQueue.queued, hbatch, Option.getD_some, List.nil_append]
        exact List.count_eq_zero_of_not_mem (h.batch hphase)
      cases h.attempting with
      | trying channel attempt _ _ _ => exact .inr attempt.state
      | resting _ _ hresets _ =>
          left
          by_contra hne
          rw [hnone, if_neg hne] at hresets
          simp at hresets
    · exact fun hfunctors => by simp at hfunctors
    · exact fun _ => ⟨hhandling, hclosing⟩

end ClientLoop
end Chaonet
