import Chaonet.Server.TcpServer

/-!
# Destroying a server

`~TcpServer` schedules nothing.  With its members the threads of the pool end, and with them their
loops; what is left is the base loop, and the connections that are held elsewhere
(`ServerRemains`).  The acceptor has no destructor that would remove its channel, and no connection
is closed.  So a channel outlives its owner as soon as the server listens (`clean_destroy_iff`).
-/

namespace Chaonet

open Foundation

namespace TcpConnection

/-! ## What members of a connection touch -/

/-- The poller is touched at the descriptor of the connection only. -/
structure TouchesOwn (c c' : TcpConnection) : Prop where
  fd : c'.channel.fd = c.channel.fd
  channels : ∀ fd, fd ≠ c.channel.fd → c'.poller.channels fd = c.poller.channels fd

variable {c c' : TcpConnection}

theorem TouchesOwn.refl (c : TcpConnection) : c.TouchesOwn c := ⟨rfl, fun _ _ => rfl⟩

theorem TouchesOwn.trans {c'' : TcpConnection} (h : c.TouchesOwn c') (h' : c'.TouchesOwn c'') :
    c.TouchesOwn c'' :=
  ⟨h'.fd.trans h.fd, fun fd hfd => (h'.channels fd (by rw [h.fd]; exact hfd)).trans
    (h.channels fd hfd)⟩

theorem Interest.touchesOwn (h : c.Interest c') : c.TouchesOwn c' := by
  cases h with
  | same hchannel hpoller => exact ⟨by rw [hchannel], fun _ _ => by rw [hpoller]⟩
  | updated events hupdated =>
      obtain ⟨hpoller, hchannel⟩ := Prod.mk.inj hupdated
      constructor
      · rw [hchannel, EPoller.updateChannel_snd]
      · intro fd hfd
        have hother : fd ≠ ({ c.channel with events } : Channel).fd := hfd
        rw [hpoller]
        exact (EPoller.updateChannel_frame hother).1

theorem touchesOwn_send (c : TcpConnection) (message : Bytes) (r : WriteResult) :
    c.TouchesOwn (c.send message r).val := by
  unfold send
  split_ifs
  · exact (sendInLoop_effect c message r).interest.touchesOwn
  · exact .refl c

theorem touchesOwn_shutdown (c : TcpConnection) : c.TouchesOwn c.shutdown.val := by
  unfold shutdown
  split_ifs <;> exact ⟨rfl, fun _ _ => rfl⟩

theorem touchesOwn_handle (c : TcpConnection) (input : Input) (cb : ChannelCallback) :
    c.TouchesOwn (c.handle input cb).val := by
  cases cb with
  | closeCallback => exact (handleClose_effect c).interest.touchesOwn
  | errorCallback => exact .refl c
  | readCallback => exact (handleRead_effect c input.read input.consumed).interest.touchesOwn
  | writeCallback => exact (handleWrite_effect c input.write).interest.touchesOwn

theorem touchesOwn_connectionEstablished (c : TcpConnection) :
    c.TouchesOwn c.connectionEstablished.val :=
  (Interest.updated (c.channel.events ||| kReadEvent) rfl).touchesOwn

theorem touchesOwn_connectionDestroyed (c : TcpConnection) :
    c.TouchesOwn c.connectionDestroyed.val := by
  have hremove (d : TcpConnection) : d.TouchesOwn d.removeChannel.val := by
    have hchannel : d.removeChannel.val.channel = { d.channel with index := kNew } :=
      d.poller.removeChannel_snd d.channel
    exact ⟨by rw [hchannel], fun _ hfd => (EPoller.removeChannel_frame hfd).1⟩
  by_cases hconnected : c.state = .kConnected
  · have hdisable : c.TouchesOwn
        (({ c with state := .kDisconnected } : TcpConnection).updateChannel
          c.channel.disableAll).val := (Interest.updated kNoneEvent rfl).touchesOwn
    have hboth : c.connectionDestroyed.val =
        (({ c with state := .kDisconnected } : TcpConnection).updateChannel
          c.channel.disableAll).val.removeChannel.val := by
      simp [connectionDestroyed, hconnected]
    rw [hboth]
    exact hdisable.trans (hremove _)
  · have honly : c.connectionDestroyed = c.removeChannel := by
      simp [connectionDestroyed, hconnected]
    rw [honly]
    exact hremove c

end TcpConnection

/-- The connection that a functor holds. -/
def ServerFunctor.conn : ServerFunctor → Option Nat
  | .connectionEstablished i | .removeConnectionInLoop i | .connectionDestroyed i | .user i _ =>
      some i

/-- The base loop of a server that has been destroyed, and the connections there were. -/
structure ServerRemains where
  base : IoLoop
  conns : List Hosted

namespace ServerRemains

/-- Whether a connection is held, by the running `handleClose` or by functors. -/
def Held (s : ServerRemains) (i : Nat) : Prop :=
  s.base.closing = some i ∨ ∃ f ∈ s.base.iteration.queue.queued, f.conn = some i

/-- Every channel in the map of the poller is that of a connection that is held. -/
def Clean (s : ServerRemains) : Prop :=
  ∀ fd ptr, s.base.poller.channels fd = some ptr → ∃ i h, s.Held i ∧ s.conns[i]? = some h ∧
    h.conn.channel.fd = fd ∧ h.conn.channel.ptr = ptr

end ServerRemains

namespace ServerLoops

/-- `~TcpServer` on the base thread: the connections, the pool with its loops and the acceptor are
destroyed. -/
def destroy (s : ServerLoops) : ServerRemains := ⟨s.loops 0, s.conns⟩

/-- `accept` does not return the descriptor that it is called for. -/
def Granted (s : ServerLoops) : Label → Prop
  | .handleEvent _ connfd _ => connfd ≠ s.server.acceptor.channel.fd
  | _ => True

instance (s : ServerLoops) : ∀ l, Decidable (s.Granted l)
  | .handleEvent _ _ _ => inferInstanceAs (Decidable (_ ≠ _))
  | .start | .send _ _ _ | .shutdown _ | .activate _ _ _ | .wake _ | .callback _ _
  | .closeCallback _ | .swap _ | .runFunctor _ | .finish _ => .isTrue trivial

/-! ## The invariant -/

/-- The channel of the acceptor is registered as soon as the server listens, and until then there
is no connection. -/
structure Accepts (s : ServerLoops) : Prop where
  apart : ∀ (i : Nat) (h : Hosted), s.conns[i]? = some h →
    h.conn.channel.fd ≠ s.server.acceptor.channel.fd
  listening : s.server.acceptor.listening = true →
    (s.loops 0).poller.channels s.server.acceptor.channel.fd = some s.server.acceptor.channel.ptr
  unlistened : s.server.acceptor.listening = false → s.conns = [] ∧
    s.server.acceptor.channel.index = kNew ∧ (s.loops 0).poller = .create
  active : ∀ n, .acceptor ∈ (s.loops n).iteration.active → s.server.acceptor.listening = true

theorem accepts_create (name : String) (fd : Int) (ptr : ChannelPtr) (numThreads : Nat)
    (writeComplete : Bool) : Accepts (create name fd ptr numThreads writeComplete) := by
  refine ⟨?_, ?_, fun _ => ⟨rfl, rfl, rfl⟩, ?_⟩ <;>
  simp [create, TcpServer.create, IoLoop.create, Iteration.create]

variable {s t : ServerLoops} {n m i : Nat}

/-- A step that leaves the acceptor alone, and everything as long as that does not listen. -/
theorem Accepts.keeps (h : Accepts s) (hacceptor : t.server.acceptor = s.server.acceptor)
    (hconns : ∀ (i : Nat) (k : Hosted), t.conns[i]? = some k →
      k.conn.channel.fd ≠ s.server.acceptor.channel.fd)
    (hchannels : (t.loops 0).poller.channels s.server.acceptor.channel.fd =
      (s.loops 0).poller.channels s.server.acceptor.channel.fd)
    (hsame : s.server.acceptor.listening = false → t.conns = [] ∧ (t.loops 0).poller = .create)
    (hactive : ∀ n, .acceptor ∈ (t.loops n).iteration.active →
      s.server.acceptor.listening = true) : Accepts t := by
  refine ⟨?_, ?_, ?_, ?_⟩
  · rw [hacceptor]
    exact hconns
  · rw [hacceptor, hchannels]
    exact h.listening
  · rw [hacceptor]
    intro hl
    obtain ⟨-, hindex, -⟩ := h.unlistened hl
    obtain ⟨hnil, hpoller⟩ := hsame hl
    exact ⟨hnil, hindex, hpoller⟩
  · rw [hacceptor]
    exact hactive

/-- A loop moves on. -/
theorem Accepts.setLoop (h : Accepts s) {l : IoLoop} (hpoller : l.poller = (s.loops n).poller)
    (hactive : .acceptor ∈ l.iteration.active → .acceptor ∈ (s.loops n).iteration.active) :
    Accepts (s.setLoop n l) := by
  have hpollers (m : Nat) : ((s.setLoop n l).loops m).poller = (s.loops m).poller := by
    by_cases hmn : m = n
    · subst hmn
      simp [ServerLoops.setLoop, hpoller]
    · simp [ServerLoops.setLoop, Function.update_of_ne hmn]
  refine h.keeps rfl h.apart (by rw [hpollers]) (fun hl => ?_) fun m hm => ?_
  · obtain ⟨hnil, -, hcreate⟩ := h.unlistened hl
    exact ⟨hnil, (hpollers 0).trans hcreate⟩
  · by_cases hmn : m = n
    · subst hmn
      exact h.active m (hactive (by simpa [ServerLoops.setLoop] using hm))
    · exact h.active m (by simpa [ServerLoops.setLoop, Function.update_of_ne hmn] using hm)

/-- There is a connection only once the server listens. -/
theorem Accepts.listening_of_conn (h : Accepts s) {k : Hosted} (hi : s.conns[i]? = some k) :
    s.server.acceptor.listening = true := by
  by_contra hl
  have hnil := (h.unlistened (Bool.eq_false_iff.mpr hl)).1
  simp [hnil] at hi

/-- The connections keep their descriptors. -/
theorem Accepts.set (h : Accepts s) {k : Hosted} (hi : s.conns[i]? = some k) {c : TcpConnection}
    (hfd : c.channel.fd = k.conn.channel.fd) (j : Nat) (k' : Hosted)
    (hj : (s.conns.set i { k with conn := c })[j]? = some k') :
    k'.conn.channel.fd ≠ s.server.acceptor.channel.fd := by
  rw [List.getElem?_set] at hj
  split_ifs at hj with hij
  · obtain rfl := Option.some.inj hj
    rw [hfd]
    exact h.apart i k hi
  · exact h.apart j k' hj

/-- A member of a connection. -/
theorem Accepts.callConn (h : Accepts s) (n i : Nat)
    {member : TcpConnection → Traced TcpConnection.Event TcpConnection}
    (hmember : ∀ c : TcpConnection, c.TouchesOwn (member c).val) :
    Accepts (s.callConn n i member).val := by
  unfold ServerLoops.callConn
  split
  · exact h
  · rename_i k hi
    have hlistening := h.listening_of_conn hi
    obtain ⟨hfd, hchannels⟩ := hmember (k.conn.on (s.loops k.loop).poller)
    generalize member (k.conn.on (s.loops k.loop).poller) = x at hfd hchannels
    refine h.keeps rfl (h.set hi hfd) ?_ (fun hl => absurd hlistening (Bool.eq_false_iff.mp hl))
      fun _ _ => hlistening
    by_cases hloop : 0 = k.loop
    · -- On the base loop the member touches the entry of its own descriptor only.
      have hother := hchannels _ (h.apart i k hi).symm
      rw [← hloop] at hother
      simpa [performConn, ← hloop, IoLoop.queueInLoop, TcpConnection.on] using hother
    · simp [performConn, Function.update_of_ne hloop]

/-- A functor is run. -/
theorem Accepts.invoke (h : Accepts s) (n : Nat) (f : ServerFunctor) :
    Accepts (s.invoke n f).val := by
  have hrecord (i : Nat) (step : LifeStep) : Accepts (s.record n i step) :=
    ⟨h.apart, h.listening, h.unlistened, h.active⟩
  cases f with
  | connectionEstablished i =>
      exact (hrecord i _).callConn n i TcpConnection.touchesOwn_connectionEstablished
  | removeConnectionInLoop i =>
      show Accepts (s.removeConnectionInLoop n i).val
      unfold removeConnectionInLoop
      split
      · exact h
      · have hserver (connections : List (String × Nat)) :
            Accepts { s.record n i .removeConnectionInLoop with
              server := { s.server with connections } } :=
          ⟨h.apart, h.listening, h.unlistened, h.active⟩
        exact (hserver _).setLoop rfl id
  | connectionDestroyed i =>
      exact (hrecord i _).callConn n i TcpConnection.touchesOwn_connectionDestroyed
  | user i u => exact h

theorem Accepts.runInLoop (h : Accepts s) (n loop : Nat) (f : ServerFunctor) :
    Accepts (s.runInLoop n loop f).val := by
  unfold ServerLoops.runInLoop
  split_ifs
  · exact h.invoke n f
  · exact h.setLoop rfl id

/-- A connection is accepted. -/
theorem Accepts.handleRead (h : Accepts s) (hlistening : s.server.acceptor.listening = true)
    (n : Nat) {connfd : Int} (ptr : ChannelPtr)
    (hfresh : connfd ≠ s.server.acceptor.channel.fd) :
    Accepts (s.handleRead n connfd ptr).val := by
  unfold ServerLoops.handleRead
  split_ifs
  · have hadd : Accepts (s.addConnection (TcpConnection.create (Channel.create ptr connfd) .create
        s.server.writeCompleteCallback false)) := by
      refine h.keeps rfl (fun i k hi => ?_) rfl
        (fun hl => absurd hlistening (Bool.eq_false_iff.mp hl)) fun _ _ => hlistening
      have hi' : (s.conns ++ [_])[i]? = some k := hi
      rcases List.mem_append.mp (List.mem_of_getElem? hi') with hmem | hmem
      · obtain ⟨j, hj⟩ := List.getElem?_of_mem hmem
        exact h.apart j k hj
      · rw [List.mem_singleton.mp hmem]
        exact hfresh
    exact hadd.runInLoop n _ _
  · exact h

/-- The acceptor begins to listen. -/
theorem Accepts.listen (h : Accepts s) (hl : s.server.acceptor.listening = false) :
    Accepts s.listen.val := by
  obtain ⟨hnil, hindex, hcreate⟩ := h.unlistened hl
  -- The channel is new to the poller, which therefore puts it into its map.
  have htracks : (s.loops 0).poller.Tracks s.server.acceptor.channel := by
    rw [hcreate]
    exact .new hindex rfl rfl
  obtain ⟨-, htracks', -, hnew⟩ := EPoller.updateChannel_tracks htracks
    s.server.acceptor.channel.enableReading.events
  refine ⟨fun i k hi => ?_, fun _ => ?_, fun hno => ?_, fun _ _ => rfl⟩
  · have hi' : s.conns[i]? = some k := hi
    simp [hnil] at hi'
  · have hpoller : (s.listen.val.loops 0).poller =
        ((s.loops 0).poller.updateChannel s.server.acceptor.channel.enableReading).val.1 := by
      simp [ServerLoops.listen, ServerLoops.setLoop]
    rw [hpoller]
    cases htracks' with
    | new hindex' _ _ => exact absurd hindex' hnew
    | added _ hchannels _ => exact hchannels
    | deleted _ hchannels _ => exact hchannels
  · have hyes : s.listen.val.server.acceptor.listening = true := rfl
    simp [hyes] at hno

theorem Accepts.start (h : Accepts s) : Accepts s.start.val := by
  have hpool : ∃ u, Accepts u ∧ s.start.val =
      (if u.server.acceptor.listening = false then u.listen else pure u).val := by
    by_cases hstarted : s.server.started = false
    · refine ⟨{ s with server := { s.server with
          started := true, threadPool := s.server.threadPool.start } },
        ⟨h.apart, h.listening, h.unlistened, h.active⟩, ?_⟩
      simp [ServerLoops.start, hstarted]
    · exact ⟨s, h, by simp [ServerLoops.start, hstarted]⟩
  obtain ⟨u, hu, heq⟩ := hpool
  rw [heq]
  split_ifs with hl
  · exact hu.listen hl
  · exact hu

/-- What one step preserves. -/
theorem Accepts.step {l : Label} {es : List Event} (h : Accepts s)
    (hstep : restrict Granted Step s l es t) : Accepts t := by
  obtain ⟨hgranted, hstep⟩ := hstep
  have hcases := advance_cases hstep
  cases l with
  | start =>
      rw [show t = s.start.val from congrArg Traced.val hcases]
      exact h.start
  | send i message r =>
      obtain ⟨k, -, heq⟩ := hcases
      rw [show t = _ from congrArg Traced.val heq]
      exact h.callConn _ i fun c => c.touchesOwn_send message r
  | shutdown i =>
      obtain ⟨k, -, heq⟩ := hcases
      rw [show t = _ from congrArg Traced.val heq]
      exact h.callConn _ i TcpConnection.touchesOwn_shutdown
  | activate n o revents =>
      cases o with
      | acceptor =>
          obtain ⟨rfl, hset, iteration, -, heq⟩ := hcases
          rw [show t = _ from congrArg Traced.val heq]
          have hlistening : s.server.acceptor.listening = true := by
            by_contra hl
            -- Before `listen` the epoll set is empty, so that poll cannot find the acceptor.
            obtain ⟨-, -, hcreate⟩ := h.unlistened (Bool.eq_false_iff.mpr hl)
            exact hset (by rw [hcreate]; rfl)
          refine ⟨h.apart, fun hl => ?_, fun hl => ?_, fun _ _ => hlistening⟩
          · simpa [ServerLoops.setLoop] using h.listening hl
          · exact absurd hlistening (Bool.eq_false_iff.mp hl)
      | connection i =>
          obtain ⟨k, hi, -, -, -, iteration, hiteration, heq⟩ := hcases
          rw [show t = _ from congrArg Traced.val heq]
          obtain ⟨-, -, rfl⟩ := Iteration.activate_eq_some.mp hiteration
          have hlistening := h.listening_of_conn hi
          have hmoved : Accepts (s.setLoop n { s.loops n with iteration :=
              { (s.loops n).iteration with
                active := (s.loops n).iteration.active ++ [.connection i] } }) :=
            h.setLoop rfl fun hmem => by simpa using hmem
          exact hmoved.keeps rfl (hmoved.set hi rfl) rfl
            (fun hl => absurd hlistening (Bool.eq_false_iff.mp hl)) fun _ _ => hlistening
  | wake n =>
      obtain ⟨-, iteration, hmoved, heq⟩ := hcases
      rw [show t = _ from congrArg Traced.val heq]
      obtain ⟨-, rfl⟩ := Iteration.wake_eq_some.mp hmoved
      exact h.setLoop rfl id
  | handleEvent n connfd ptr =>
      obtain ⟨-, hacceptor | ⟨i, k, iteration, hnext, hi, heq⟩⟩ := hcases
      · obtain ⟨iteration, hnext, heq⟩ := hacceptor
        obtain ⟨-, hactive, hiteration⟩ := Iteration.next_eq_some.mp hnext
        have hmoved : Accepts (s.setLoop n { s.loops n with iteration }) :=
          h.setLoop rfl fun hmem => by
            rw [hactive]
            exact List.mem_cons_of_mem _ hmem
        rcases heq with heq | heq
        · rw [show t = _ from congrArg Traced.val heq]
          exact hmoved.handleRead (h.active n (by rw [hactive]; exact List.mem_cons_self)) n ptr
            hgranted
        · rw [show t = _ from congrArg Traced.val heq]
          exact hmoved
      · obtain ⟨-, hactive, -⟩ := Iteration.next_eq_some.mp hnext
        rw [show t = _ from congrArg Traced.val heq]
        exact h.setLoop rfl fun hmem => by
          rw [hactive]
          exact List.mem_cons_of_mem _ hmem
  | callback n input =>
      obtain ⟨i, cb, handling, -, -, heq⟩ := hcases
      rw [show t = _ from congrArg Traced.val heq]
      have hmoved : Accepts (s.setLoop n { s.loops n with handling }) := h.setLoop rfl id
      exact hmoved.callConn n i fun c => c.touchesOwn_handle input cb
  | closeCallback n =>
      obtain ⟨i, -, heq⟩ := hcases
      rw [show t = _ from congrArg Traced.val heq]
      have hmoved : Accepts (s.setLoop n { s.loops n with closing := none }) := h.setLoop rfl id
      exact hmoved.runInLoop n 0 _
  | swap n =>
      obtain ⟨-, iteration, hmoved, heq⟩ := hcases
      rw [show t = _ from congrArg Traced.val heq]
      obtain ⟨-, -, rfl⟩ := Iteration.swap_eq_some.mp hmoved
      exact h.setLoop rfl id
  | runFunctor n =>
      obtain ⟨f, iteration, hnext, heq⟩ := hcases
      rw [show t = _ from congrArg Traced.val heq]
      obtain ⟨-, rest, -, rfl⟩ := Iteration.nextFunctor_eq_some.mp hnext
      have hmoved : Accepts (s.setLoop n { s.loops n with
          iteration := { (s.loops n).iteration with
            queue := (s.loops n).iteration.queue.proceed rest } }) := h.setLoop rfl id
      exact hmoved.invoke n f
  | finish n =>
      obtain ⟨-, iteration, hmoved, heq⟩ := hcases
      rw [show t = _ from congrArg Traced.val heq]
      obtain ⟨-, -, rfl⟩ := Iteration.finish_eq_some.mp hmoved
      exact h.setLoop rfl id

theorem accepts_of_run {name : String} {fd : Int} {ptr : ChannelPtr} {numThreads : Nat}
    {writeComplete : Bool} {ls : List Label} {es : List Event}
    (hrun : Run (restrict Granted Step) (create name fd ptr numThreads writeComplete) ls es s) :
    Accepts s :=
  hrun.invariant (accepts_create name fd ptr numThreads writeComplete) fun _ _ _ _ => Accepts.step

/-- A server that is destroyed leaves nothing behind exactly as long as it does not listen. -/
theorem clean_destroy_iff {name : String} {fd : Int} {ptr : ChannelPtr} {numThreads : Nat}
    {writeComplete : Bool} {ls : List Label} {es : List Event}
    (hrun : Run (restrict Granted Step) (create name fd ptr numThreads writeComplete) ls es s) :
    s.destroy.Clean ↔ s.server.acceptor.listening = false := by
  have h := accepts_of_run hrun
  constructor
  · intro hclean
    by_contra hl
    obtain ⟨i, k, -, hi, hfd, -⟩ := hclean _ _ (h.listening (Bool.not_eq_false _ ▸ hl))
    exact h.apart i k hi hfd
  · intro hl fd' ptr' hchannel
    obtain ⟨-, -, hcreate⟩ := h.unlistened hl
    have hnone : (s.loops 0).poller.channels fd' = none := by
      rw [hcreate]
      rfl
    have hsome : (s.loops 0).poller.channels fd' = some ptr' := hchannel
    simp [hnone] at hsome

end ServerLoops
end Chaonet
