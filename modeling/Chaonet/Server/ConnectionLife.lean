import Chaonet.Server.Handoff

/-!
# The life of the connections of a server

Whatever the threads of a server do, and in whatever order, each connection is established,
closed, removed and destroyed once at most and in this order, on its own loop but for the
removal on the base loop.  Until it is destroyed, `connections_`, a functor or the running
`handleClose` refers to it.  No name is used twice, and no assertion about any of this fails
(`handed_over`).
-/

namespace Chaonet

open Foundation

namespace ServerLoops

variable {s t : ServerLoops} {n m i j : Nat} {h k : Hosted} {stage : Stage} {f : ServerFunctor}

/-! ## Functors -/

/-- `closeCallback_` of a connection. -/
theorem Orderly.closeCallback (ho : Orderly s none) (hclosing : (s.loops n).closing = some i) :
    Fine ((s.setLoop n { s.loops n with closing := none }).removeConnection n i) := by
  have hsome : s.conns[i]? ≠ none := fun hnone => (ho.unseen i hnone).closing n hclosing
  obtain ⟨k, hi⟩ := Option.ne_none_iff_exists'.mp hsome
  obtain ⟨stage, hlives⟩ := ho.lives i k (by simp) hi
  obtain ⟨registered, hhosts⟩ := ho.loops n
  obtain ⟨-, hheld⟩ := hlives.told (l := { s.loops n with closing := none }) hclosing rfl rfl
  have ho' : Orderly (s.setLoop n { s.loops n with closing := none }) (some i) := by
    refine (ho.release i).setLoop ?_ ⟨registered, hhosts.told⟩ (fun _ _ _ _ => rfl)
      (fun j hj => ?_) id
    · rintro j ⟨⟩
      exact hsome
    · rw [hclosing]
      exact ⟨fun heq => by simp at heq, fun heq => absurd heq.symm (by simpa using hj)⟩
  exact ho'.runInLoop hi hheld rfl rfl fun _ => ho'.remove hi hheld

/-- The next functor of a batch. -/
theorem Orderly.runFunctor (ho : Orderly s none)
    {iteration : Iteration ServerChannel ServerFunctor}
    (hnext : (s.loops n).iteration.nextFunctor = some (f, iteration)) :
    Fine ((s.setLoop n { s.loops n with iteration }).invoke n f) := by
  obtain ⟨registered, hhosts⟩ := ho.loops n
  obtain ⟨hafter, hidle, hactive, hqueued⟩ := hhosts.nextFunctor hnext
  set l : IoLoop := { s.loops n with iteration } with hl
  have hcount (g : ServerFunctor) (hg : f ≠ g) :
      l.iteration.queue.queued.count g = s.queuedCount n g := by
    rw [queuedCount, hqueued, List.count_cons_of_ne hg]
  have haccepts : .acceptor ∈ l.iteration.active → .acceptor ∈ (s.loops n).iteration.active := by
    intro hmem
    rw [show l.iteration.active = [] from hactive] at hmem
    simp at hmem
  cases hlife : f.lifeOf with
  | none =>
      cases f with
      | user i u =>
          refine fine_pure (ho.setLoop (by simp) ⟨registered, hafter⟩ (fun j g _ hg => ?_)
            (fun _ _ => Iff.rfl) haccepts)
          refine hcount g ?_
          rintro rfl
          simp [ServerFunctor.lifeOf] at hg
      | connectionEstablished i => simp [ServerFunctor.lifeOf] at hlife
      | removeConnectionInLoop i => simp [ServerFunctor.lifeOf] at hlife
      | connectionDestroyed i => simp [ServerFunctor.lifeOf] at hlife
  | some i =>
      have hmem : f ∈ (s.loops n).iteration.queue.queued := by
        rw [hqueued]
        exact List.mem_cons_self
      have hsome : s.conns[i]? ≠ none := fun hnone =>
        absurd hmem (List.count_eq_zero.mp ((ho.unseen i hnone).queued n f hlife))
      obtain ⟨k, hi⟩ := Option.ne_none_iff_exists'.mp hsome
      obtain ⟨stage, hlives⟩ := ho.lives i k (by simp) hi
      have htoken := hlives.token_of_mem hlife hmem
      have hheld : Holding (s.setLoop n l) i k stage := hlives.pop hlife hqueued rfl
      have ho' : Orderly (s.setLoop n l) (some i) := by
        refine (ho.release i).setLoop ?_ ⟨registered, hafter⟩ (fun j g hj hg => ?_)
          (fun _ _ => Iff.rfl) haccepts
        · rintro j ⟨⟩
          exact hsome
        · refine hcount g ?_
          rintro rfl
          rw [hlife] at hg
          exact hj hg.symm
      have hnil : ((s.setLoop n l).loops n).handling = [] := by
        rw [show (s.setLoop n l).loops n = l from Function.update_self ..]
        exact hidle.1
      cases stage with
      | establishing =>
          obtain ⟨rfl, rfl⟩ := Prod.mk.inj (Option.some.inj htoken)
          exact ho'.establish hi hheld hnil
      | removing =>
          obtain ⟨rfl, rfl⟩ := Prod.mk.inj (Option.some.inj htoken)
          exact ho'.remove hi hheld
      | destroying =>
          obtain ⟨rfl, rfl⟩ := Prod.mk.inj (Option.some.inj htoken)
          exact ho'.destroy hi hheld hnil
      | up => simp [Stage.token] at htoken
      | closing => simp [Stage.token] at htoken
      | destroyed => simp [Stage.token] at htoken

/-! ## Accepting -/

/-- The next name is new. -/
theorem Accounts.name_ne {server : TcpServer} {conns : List Hosted} (ha : Accounts server conns)
    (hroom : conns.length + 1 < 2 ^ 31) (hi : conns[i]? = some h) : h.name ≠ server.connName := by
  have hlt : i < conns.length := (List.getElem?_eq_some_iff.mp hi).1
  intro hname
  rw [ha.named i h hi, TcpServer.connName, ha.nextConnId] at hname
  have hsame := connName_injective (Nat.lt_of_le_of_lt hlt ha.bound) hroom hname
  omega

theorem Accounts.connName_not_mem {server : TcpServer} {conns : List Hosted}
    (ha : Accounts server conns) (hroom : conns.length + 1 < 2 ^ 31) :
    server.connName ∉ server.connections.map Prod.fst := by
  intro hmem
  obtain ⟨entry, hentry, hname⟩ := List.mem_map.mp hmem
  obtain ⟨h, hh, hsame⟩ := ha.entries entry hentry
  exact ha.name_ne hroom hh (hsame.trans hname)

/-- Nothing is dropped from `connections_` when a connection is added. -/
theorem connections_addConnection (ha : Accounts s.server s.conns)
    (hroom : s.conns.length + 1 < 2 ^ 31) (conn : TcpConnection) :
    (s.addConnection conn).server.connections =
      s.server.connections ++ [(s.server.connName, s.conns.length)] := by
  refine congrArg (· ++ _) (List.filter_eq_self.mpr fun entry hentry => ?_)
  have hne : entry.1 ≠ s.server.connName := by
    rintro heq
    exact ha.connName_not_mem hroom (List.mem_map.mpr ⟨entry, hentry, heq⟩)
  simpa using hne

theorem Accounts.add (ha : Accounts s.server s.conns) (hroom : s.conns.length + 1 < 2 ^ 31)
    (hlistening : s.server.acceptor.listening = true) {conn : TcpConnection}
    (hseparate : conn.channel.fd ≠ s.server.acceptor.channel.fd)
    (hfree : ∀ (i : Nat) (h : Hosted), s.conns[i]? = some h → ¬h.conn.Gone →
      h.conn.channel.fd ≠ conn.channel.fd) :
    Accounts (s.addConnection conn).server (s.addConnection conn).conns := by
  have hcases (i : Nat) (h : Hosted) (hi : (s.addConnection conn).conns[i]? = some h) :
      s.conns[i]? = some h ∨ i = s.conns.length ∧ h.conn = conn ∧ h.name = s.server.connName := by
    have hi' : (s.conns ++ [⟨conn, s.server.connName, s.server.threadPool.getNextLoop.1⟩])[i]? =
        some h := hi
    rcases Nat.lt_trichotomy i s.conns.length with hlt | rfl | hgt
    · rw [List.getElem?_append_left hlt] at hi'
      exact Or.inl hi'
    · rw [List.getElem?_concat_length] at hi'
      obtain rfl := Option.some.inj hi'
      exact Or.inr ⟨rfl, rfl, rfl⟩
    · rw [List.getElem?_eq_none (by simp; omega)] at hi'
      simp at hi'
  have hconnections := connections_addConnection ha hroom conn
  refine ⟨fun i h hi => ?_, ?_, ?_, fun entry hentry => ?_, ?_,
    fun a b h k hh hk hnh hnk hsame => ?_, fun i h hi hnot => ?_, fun hno => ?_, fun hno => ?_⟩
  · rcases hcases i h hi with hi' | ⟨rfl, -, hname⟩
    · exact ha.named i h hi'
    · rw [hname, TcpServer.connName, ha.nextConnId]
      rfl
  · show s.server.nextConnId + 1 = _
    rw [ha.nextConnId, show (s.addConnection conn).conns.length = s.conns.length + 1 from
      List.length_append, Int32.ofNat_add (s.conns.length + 1) 1]
    rfl
  · rw [show (s.addConnection conn).conns.length = s.conns.length + 1 from List.length_append]
    exact hroom
  · rw [hconnections] at hentry
    rcases List.mem_append.mp hentry with hentry | hentry
    · obtain ⟨h, hh, hname⟩ := ha.entries entry hentry
      refine ⟨h, ?_, hname⟩
      exact (List.getElem?_append_left (List.getElem?_eq_some_iff.mp hh).1).trans hh
    · rw [List.mem_singleton.mp hentry]
      exact ⟨_, List.getElem?_concat_length, rfl⟩
  · rw [hconnections, List.map_append, List.map_singleton, List.nodup_append]
    refine ⟨ha.keys, List.nodup_singleton _, fun name hname other hother => ?_⟩
    rw [List.mem_singleton.mp hother]
    rintro rfl
    exact ha.connName_not_mem hroom hname
  · rcases hcases a h hh with hh' | ⟨ha', hconn, -⟩
    · rcases hcases b k hk with hk' | ⟨rfl, hconn', -⟩
      · exact ha.apart a b h k hh' hk' hnh hnk hsame
      · rw [hconn'] at hsame
        exact absurd hsame (hfree a h hh' hnh)
    · rcases hcases b k hk with hk' | ⟨hb', -, -⟩
      · rw [hconn] at hsame
        exact absurd hsame.symm (hfree b k hk' hnk)
      · rw [ha', hb']
  · rcases hcases i h hi with hi' | ⟨-, hconn, -⟩
    · exact ha.separate i h hi' hnot
    · rw [hconn]
      exact hseparate
  · rw [show (s.addConnection conn).server.acceptor.listening = s.server.acceptor.listening
      from rfl, hlistening] at hno
    simp at hno
  · exact (EventLoopThreadPool.getNextLoop_started _).trans (ha.unstarted hno)

/-- A connection is added, and waits to be established. -/
theorem Orderly.addConnection (ho : Orderly s none) (hroom : s.conns.length + 1 < 2 ^ 31)
    (hlistening : s.server.acceptor.listening = true) {conn : TcpConnection} (hunborn : conn.Unborn)
    (hseparate : conn.channel.fd ≠ s.server.acceptor.channel.fd)
    (hfree : ∀ (i : Nat) (h : Hosted), s.conns[i]? = some h → ¬h.conn.Gone →
      h.conn.channel.fd ≠ conn.channel.fd) :
    let k : Hosted := ⟨conn, s.server.connName, s.server.threadPool.getNextLoop.1⟩
    Orderly (s.addConnection conn) (some s.conns.length) ∧
      (s.addConnection conn).conns[s.conns.length]? = some k ∧
      Holding (s.addConnection conn) s.conns.length k .establishing := by
  intro k
  have hnone : s.conns[s.conns.length]? = none := List.getElem?_eq_none (Nat.le_refl _)
  have hk : (s.addConnection conn).conns[s.conns.length]? = some k := List.getElem?_concat_length
  have hother (j : Nat) (hj : j ≠ s.conns.length) :
      (s.addConnection conn).conns[j]? = s.conns[j]? := by
    show (s.conns ++ [k])[j]? = _
    rcases Nat.lt_or_gt_of_ne hj with hlt | hgt
    · exact List.getElem?_append_left hlt
    · rw [List.getElem?_eq_none (by simp; omega), List.getElem?_eq_none (by omega)]
  have hconnections := connections_addConnection ho.accounts hroom conn
  have hsame (j : Nat) : SameFor s (s.addConnection conn) j :=
    ⟨fun _ _ _ => rfl, fun _ => Iff.rfl, rfl⟩
  refine ⟨⟨ho.accounts.add hroom hlistening hseparate hfree, fun j h hj hh => ?_, fun j hj => ?_,
    fun n => ?_, ho.accepts⟩, hk, ⟨hunborn, ?_, ?_, ?_, ?_⟩⟩
  · have hj' : j ≠ s.conns.length := by simpa using hj
    rw [hother j hj'] at hh
    obtain ⟨stage, hlives⟩ := ho.lives j h (by simp) hh
    refine ⟨stage, hlives.transfer (hsame j) ?_⟩
    rw [hconnections]
    simp [hj']
  · have hj' : j ≠ s.conns.length := by
      rintro rfl
      rw [hk] at hj
      simp at hj
    rw [hother j hj'] at hj
    exact (ho.unseen j hj).transfer (hsame j)
  · obtain ⟨registered, hhosts⟩ := ho.loops n
    refine ⟨registered, ?_⟩
    show (s.loops n).Hosts _ (accepting s.server n) registered
    have hhosted : s.hosted n s.conns.length = none := by rw [hosted, hnone, Option.bind_none]
    by_cases hn : n = k.loop
    · have hafter : (s.addConnection conn).hosted n =
          Function.update (s.hosted n) s.conns.length (some conn) := by
        funext j
        by_cases hj : j = s.conns.length
        · rw [hj, Function.update_self, hosted, hk]
          simp [hn, k]
        · rw [Function.update_of_ne hj, hosted, hosted, hother j hj]
      rw [hafter]
      exact hhosts.admits hhosted hunborn.index
    · have hafter : (s.addConnection conn).hosted n = s.hosted n := by
        funext j
        by_cases hj : j = s.conns.length
        · rw [hj, hhosted, hosted, hk]
          simp [Ne.symm hn]
        · rw [hosted, hosted, hother j hj]
      rw [hafter]
      exact hhosts
  · rw [hconnections]
    simp [k, Stage.mapped]
  · exact (ho.unseen _ hnone).queued
  · exact (ho.unseen _ hnone).closing
  · exact (ho.unseen _ hnone).life

/-- A connection that exists has a descriptor that is not free. -/
theorem Orderly.fresh (ho : Orderly s none) {connfd : Int} (hfresh : s.Fresh connfd) :
    ∀ (i : Nat) (h : Hosted), s.conns[i]? = some h → ¬h.conn.Gone →
      h.conn.channel.fd ≠ connfd := by
  intro i h hi hnot
  obtain ⟨stage, hlives⟩ := ho.lives i h (by simp) hi
  have hstage : stage ≠ .destroyed := by
    rintro rfl
    exact hnot hlives.conn
  exact hfresh.2 (h, i) (List.mem_zipIdx_iff_getElem?.mpr hi) (hlives.referenced hstage)

/-- A descriptor that is free stays so while nothing is queued. -/
theorem Fresh.setLoop {connfd : Int} (hfresh : s.Fresh connfd) {l : IoLoop}
    (hqueued : l.iteration.queue.queued = (s.loops n).iteration.queue.queued)
    (hclosing : l.closing = (s.loops n).closing) : (s.setLoop n l).Fresh connfd := by
  have hloop (m : Nat) : ((s.setLoop n l).loops m).iteration.queue.queued =
      (s.loops m).iteration.queue.queued ∧
      ((s.setLoop n l).loops m).closing = (s.loops m).closing := by
    by_cases hm : m = n
    · subst hm
      simp [ServerLoops.setLoop, hqueued, hclosing]
    · simp [ServerLoops.setLoop, hm]
  refine ⟨hfresh.1, fun entry hentry hreferenced => hfresh.2 entry hentry ?_⟩
  have hconnections : (s.setLoop n l).server.connections = s.server.connections := rfl
  simpa only [Referenced, hloop, hconnections] using hreferenced

/-- `newConnection` on the thread of the acceptor. -/
theorem Orderly.newConnection (ho : Orderly s none) (hroom : s.conns.length + 1 < 2 ^ 31)
    (hlistening : s.server.acceptor.listening = true) {sockfd : Int} (hfresh : s.Fresh sockfd)
    (hnil : (s.loops n).handling = []) (ptr : ChannelPtr) :
    Fine (s.newConnection n sockfd ptr) := by
  set conn := TcpConnection.create (Channel.create ptr sockfd) .create
    s.server.writeCompleteCallback false with hconn
  obtain ⟨hadded, hk, hheld⟩ := ho.addConnection hroom hlistening
    (show conn.Unborn from ⟨rfl, rfl⟩)
    hfresh.1 (ho.fresh hfresh)
  have hvalue : s.newConnection n sockfd ptr = (s.addConnection conn).runInLoop n
      s.server.threadPool.getNextLoop.1 (.connectionEstablished s.conns.length) := by
    have hcheck : Traced.check (Event.overwritten s.conns.length)
        (s.server.connName ∉ s.server.connections.map Prod.fst) = pure () :=
      Traced.check_of (ho.accounts.connName_not_mem hroom)
    simp only [ServerLoops.newConnection, hcheck]
    rfl
  rw [hvalue]
  refine hadded.runInLoop hk hheld rfl rfl fun hn => ?_
  refine hadded.establish hk hheld ?_
  rw [← hn]
  exact hnil

/-! ## The acceptor -/

/-- The acceptor begins to listen. -/
theorem Orderly.listen (ho : Orderly s none) (hlistening : s.server.acceptor.listening = false) :
    Fine s.listen := by
  obtain ⟨hnew, hnil⟩ := ho.accounts.unlistened hlistening
  obtain ⟨registered, hhosts⟩ := ho.loops 0
  have hnone (n : Nat) : accepting s.server n = none := by simp [accepting, hlistening]
  rw [hnone] at hhosts
  obtain ⟨hlistens, hfd, -, hindex, htrace⟩ := hhosts.listens hnew fun i c hi _ => by
    simp [hosted, hnil] at hi
  generalize hr : (s.loops 0).poller.updateChannel s.server.acceptor.channel.enableReading = r
    at hlistens hfd hindex htrace
  have hvalue : s.listen = pure { s.setLoop 0 { s.loops 0 with poller := r.val.1 } with
      server := { s.server with acceptor := ⟨r.val.2, true⟩ } } := by
    simp only [ServerLoops.listen, hr, Traced.lift, htrace]
    rfl
  rw [hvalue]
  refine fine_pure ⟨⟨ho.accounts.named, ho.accounts.nextConnId, ho.accounts.bound,
    ho.accounts.entries, ho.accounts.keys, ho.accounts.apart, ?_, fun hno => by simp at hno,
    ho.accounts.unstarted⟩, ?_, ?_, fun n => ?_, fun n hmem => ?_⟩
  · intro i h hi
    simp [ServerLoops.setLoop, hnil] at hi
  · intro i h _ hi
    simp [ServerLoops.setLoop, hnil] at hi
  · intro i hi
    refine (ho.unseen i hi).transfer ⟨fun n f _ => ?_, fun n => ?_, rfl⟩
    · by_cases hn : n = 0
      · subst hn
        simp [queuedCount, ServerLoops.setLoop]
      · simp [queuedCount, ServerLoops.setLoop, hn]
    · by_cases hn : n = 0
      · subst hn
        simp [ServerLoops.setLoop]
      · simp [ServerLoops.setLoop, hn]
  · show ∃ registered, (Function.update s.loops 0 { s.loops 0 with poller := r.val.1 } n).Hosts
      (s.hosted n) (accepting { s.server with acceptor := ⟨r.val.2, true⟩ } n) registered
    by_cases hn : n = 0
    · subst hn
      rw [Function.update_self, accepting, if_pos ⟨rfl, rfl⟩]
      exact ⟨_, hlistens⟩
    · obtain ⟨registered', hother⟩ := ho.loops n
      rw [hnone] at hother
      rw [Function.update_of_ne hn, accepting, if_neg fun hboth => hn hboth.1]
      exact ⟨registered', hother⟩
  · refine ⟨(ho.accepts n ?_).1, rfl⟩
    by_cases hn : n = 0
    · subst hn
      simpa [ServerLoops.setLoop] using hmem
    · simpa [ServerLoops.setLoop, hn] using hmem

/-- `start()`, also when it is called again. -/
theorem Orderly.start (ho : Orderly s none) : Fine s.start := by
  have hlisten {s : ServerLoops} (ho : Orderly s none) :
      Fine (if s.server.acceptor.listening = false then s.listen else pure s) := by
    split_ifs with hlistening
    · exact ho.listen hlistening
    · exact fine_pure ho
  unfold ServerLoops.start
  by_cases hstarted : s.server.started = false
  · have hcheck : Traced.check Event.startedTwice (s.server.threadPool.started = false) = pure () :=
      Traced.check_of (ho.accounts.unstarted hstarted)
    have ho' : Orderly { s with server := { s.server with
        started := true
        threadPool := s.server.threadPool.start } } none := by
      refine ⟨⟨ho.accounts.named, ho.accounts.nextConnId, ho.accounts.bound, ho.accounts.entries,
        ho.accounts.keys, ho.accounts.apart, ho.accounts.separate, ho.accounts.unlistened,
        fun hno => by simp at hno⟩, fun i h hi hh => ?_, fun i hi => ?_, ho.loops, ho.accepts⟩
      · obtain ⟨stage, hlives⟩ := ho.lives i h hi hh
        exact ⟨stage, hlives.transfer ⟨fun _ _ _ => rfl, fun _ => Iff.rfl, rfl⟩ Iff.rfl⟩
      · exact (ho.unseen i hi).transfer ⟨fun _ _ _ => rfl, fun _ => Iff.rfl, rfl⟩
    have hfine := hlisten ho'
    simpa [hstarted, hcheck] using hfine
  · simpa [hstarted] using hlisten ho

/-- Only a descriptor that is registered is polled. -/
theorem Orderly.listening_of_polled (ho : Orderly s none)
    (hset : (s.loops 0).poller.epollSet s.server.acceptor.channel.fd ≠ none) :
    s.server.acceptor.listening = true := by
  by_contra hno
  obtain ⟨-, hnil⟩ := ho.accounts.unlistened (by simpa using hno)
  obtain ⟨registered, hhosts⟩ := ho.loops 0
  obtain ⟨ch, hch, -⟩ := hhosts.hosting.holds.delivered hset
  rcases hhosts.owned _ ch hch with hacceptor | ⟨i, c, hi, -⟩
  · simp [accepting, hno] at hacceptor
  · simp [hosted, hnil] at hi

/-- Poll has found the acceptor. -/
theorem Orderly.activateAcceptor (ho : Orderly s none)
    (hset : (s.loops 0).poller.epollSet s.server.acceptor.channel.fd ≠ none) (revents : EventMask)
    {iteration : Iteration ServerChannel ServerFunctor}
    (hstep : (s.loops 0).iteration.activate .acceptor = some iteration) :
    Orderly { s.setLoop 0 { s.loops 0 with iteration } with
      server := { s.server with
        acceptor := { s.server.acceptor with
          channel := { s.server.acceptor.channel with revents } } } } none := by
  have hlistening := ho.listening_of_polled hset
  obtain ⟨registered, hhosts⟩ := ho.loops 0
  rw [accepting, if_pos ⟨rfl, hlistening⟩] at hhosts
  obtain ⟨hafter, hqueue⟩ := hhosts.activateAcceptor revents hstep
  have hsame (j : Nat) : SameFor s { s.setLoop 0 { s.loops 0 with iteration } with
      server := { s.server with
        acceptor := { s.server.acceptor with
          channel := { s.server.acceptor.channel with revents } } } } j := by
    refine ⟨fun n f _ => ?_, fun n => ?_, rfl⟩
    · show (s.setLoop 0 { s.loops 0 with iteration }).queuedCount n f = _
      rw [queuedCount_setLoop]
      split_ifs with hn
      · rw [hn, queuedCount, hqueue]
      · rfl
    · show (Function.update s.loops 0 _ n).closing = some j ↔ _
      by_cases hn : n = 0
      · subst hn
        rw [Function.update_self]
      · rw [Function.update_of_ne hn]
  refine ⟨⟨ho.accounts.named, ho.accounts.nextConnId, ho.accounts.bound, ho.accounts.entries,
    ho.accounts.keys, ho.accounts.apart, ho.accounts.separate, fun hno => ?_,
    ho.accounts.unstarted⟩, fun i h hi hh => ?_, fun i hi => (ho.unseen i hi).transfer (hsame i),
    fun n => ?_, fun n hmem => ?_⟩
  · exact absurd hlistening (by simp [show s.server.acceptor.listening = false from hno])
  · obtain ⟨stage, hlives⟩ := ho.lives i h hi hh
    exact ⟨stage, hlives.transfer (hsame i) Iff.rfl⟩
  · show ∃ registered, (Function.update s.loops 0 { s.loops 0 with iteration } n).Hosts
      (s.hosted n) (accepting { s.server with
        acceptor := { s.server.acceptor with
          channel := { s.server.acceptor.channel with revents } } } n) registered
    by_cases hn : n = 0
    · subst hn
      rw [Function.update_self, accepting, if_pos ⟨rfl, hlistening⟩]
      exact ⟨_, hafter⟩
    · obtain ⟨registered', hother⟩ := ho.loops n
      rw [accepting, if_neg fun hboth => hn hboth.1] at hother
      rw [Function.update_of_ne hn, accepting, if_neg fun hboth => hn hboth.1]
      exact ⟨registered', hother⟩
  · refine ⟨?_, hlistening⟩
    by_contra hn
    refine hn (ho.accepts n ?_).1
    have hmem' : ServerChannel.acceptor ∈
        (Function.update s.loops 0 { s.loops 0 with iteration } n).iteration.active := hmem
    rwa [Function.update_of_ne hn] at hmem'

/-! ## Events -/

/-- Poll has found a connection. -/
theorem Orderly.activateConnection (ho : Orderly s none) (hi : s.conns[i]? = some k)
    (hindex : k.conn.channel.index = kAdded) {revents : EventMask} (honce : s.ClosesOnce i revents)
    {iteration : Iteration ServerChannel ServerFunctor}
    (hstep : (s.loops k.loop).iteration.activate (.connection i) = some iteration) :
    Orderly { s.setLoop k.loop { s.loops k.loop with iteration } with
      conns := s.conns.set i { k with
        conn := { k.conn with channel := { k.conn.channel with revents } } } } none := by
  obtain ⟨stage, hlives⟩ := ho.lives i k (by simp) hi
  obtain rfl := hlives.conn.eq_up hindex
  have hup : k.conn.Up := hlives.conn
  obtain ⟨registered, hhosts⟩ := ho.loops k.loop
  obtain ⟨hafter, hqueue⟩ := hhosts.activateConnection (hosted_self hi) hup
    (show IoLoop.ClosesOnce { k.conn.channel with revents }.handleEvent from
      ⟨Channel.nodup_handleEvent _, honce k hi⟩) hstep
  obtain ⟨-, -, hiteration⟩ := Iteration.activate_eq_some.mp hstep
  set c : TcpConnection := { k.conn with channel := { k.conn.channel with revents } } with hc
  set t : ServerLoops := { s.setLoop k.loop { s.loops k.loop with iteration } with
    conns := s.conns.set i { k with conn := c } } with ht
  have hsame (j : Nat) : SameFor s t j := by
    refine ⟨fun n f _ => ?_, fun n => ?_, rfl⟩
    · show (s.setLoop k.loop { s.loops k.loop with iteration }).queuedCount n f = _
      rw [queuedCount_setLoop]
      split_ifs with hn
      · rw [hn, queuedCount, hqueue]
      · rfl
    · show (Function.update s.loops k.loop _ n).closing = some j ↔ _
      by_cases hn : n = k.loop
      · subst hn
        rw [Function.update_self]
      · rw [Function.update_of_ne hn]
  have hmember : Orderly t (some i) := by
    refine (ho.release i).member hi (c := c) rfl
      (fun hgone => absurd hup.index (by rw [hgone.index]; decide)) rfl rfl rfl
      (fun j _ => hsame j) (fun hmem => ?_) ⟨_, hafter⟩
    have hmem' : ServerChannel.acceptor ∈ iteration.active := hmem
    rw [hiteration] at hmem'
    simpa using hmem'
  have hset : t.conns[i]? = some { k with conn := c } :=
    List.getElem?_set_self (List.getElem?_eq_some_iff.mp hi).1
  refine hmember.settle hset .up ⟨⟨hup.state, hup.index, hup.reading⟩, hlives.mapped,
    fun n f hf => ((hsame i).queued n f hf).trans (hlives.queued n f hf),
    fun n => ((hsame i).closing n).trans (hlives.closing n), (hsame i).life.trans hlives.life⟩

/-- The next channel of a loop is that of a connection. -/
theorem Orderly.nextConnection (ho : Orderly s none) (hi : s.conns[i]? = some k)
    {iteration : Iteration ServerChannel ServerFunctor}
    (hnext : (s.loops n).iteration.next = some (.connection i, iteration)) :
    Orderly (s.setLoop n { s.loops n with
      iteration
      handling := k.conn.channel.handleEvent.map fun cb => (i, cb) }) none := by
  obtain ⟨registered, hhosts⟩ := ho.loops n
  obtain ⟨hafter, hphase, hmem, hinactive, hqueue⟩ := hhosts.next hnext
  obtain ⟨c, hc, hup, honce⟩ := hhosts.active i hmem
  obtain ⟨h, hi', -, rfl⟩ := hosted_eq_some.mp hc
  obtain rfl := Option.some.inj (hi.symm.trans hi')
  have hhandles := hafter.handles hphase (.event i k.conn _ rfl hc hinactive honce (Or.inl hup))
  refine ho.turns ⟨registered, hhandles⟩ (by rw [hqueue]) rfl fun hacceptor => ?_
  obtain ⟨-, hactive, -⟩ := Iteration.next_eq_some.mp hnext
  rw [hactive]
  exact List.mem_cons_of_mem _ hacceptor

/-- The next channel of a loop is that of the acceptor. -/
theorem Orderly.nextAcceptor (ho : Orderly s none)
    {iteration : Iteration ServerChannel ServerFunctor}
    (hnext : (s.loops n).iteration.next = some (.acceptor, iteration)) :
    Orderly (s.setLoop n { s.loops n with iteration }) none ∧
      s.server.acceptor.listening = true ∧
      (s.loops n).iteration.active.head? = some .acceptor ∧
      iteration.queue.queued = (s.loops n).iteration.queue.queued := by
  obtain ⟨registered, hhosts⟩ := ho.loops n
  obtain ⟨hafter, -, hmem, hinactive, hqueue⟩ := hhosts.next hnext
  obtain ⟨-, hactive, -⟩ := Iteration.next_eq_some.mp hnext
  refine ⟨ho.turns ⟨registered, hafter⟩ (by rw [hqueue]) rfl fun hacceptor =>
    absurd hacceptor hinactive, (ho.accepts n hmem).2, ?_, by rw [hqueue]⟩
  rw [hactive, List.head?_cons]

/-- A thread moves on in its iteration. -/
theorem Orderly.proceeds (ho : Orderly s none) (hidle : (s.loops n).Idle)
    {iteration : Iteration ServerChannel ServerFunctor}
    (hmoved : (s.loops n).iteration.wake 0 = some iteration ∨
      (s.loops n).iteration.swap = some iteration ∨
      (s.loops n).iteration.finish = some iteration)
    (hactive : iteration.active = (s.loops n).iteration.active) :
    Orderly (s.setLoop n { s.loops n with iteration }) none := by
  obtain ⟨registered, hhosts⟩ := ho.loops n
  obtain ⟨hafter, hqueued⟩ := hhosts.proceeds hidle hmoved
  refine ho.turns ⟨registered, hafter⟩ hqueued rfl fun hmem => ?_
  rw [← hactive]
  exact hmem

/-! ## Runs -/

/-- The step lemma. -/
theorem fine_advance (ho : Orderly s none) {l : Label} {x : Traced Event ServerLoops}
    (hl : s.Permitted l) (hx : s.advance l = some x) : Fine x := by
  have hcases := advance_cases hx
  cases l with
  | start =>
      rw [show x = s.start from hcases]
      exact ho.start
  | send i message r =>
      obtain ⟨k, hi, rfl⟩ := hcases
      exact ho.userCall hi k.loop (fun hserving => TcpConnection.keeps_send hserving message r)
        fun hstate => if_neg hstate
  | shutdown i =>
      obtain ⟨k, hi, rfl⟩ := hcases
      exact ho.userCall hi k.loop (fun hserving => TcpConnection.keeps_shutdown hserving)
        fun hstate => if_neg hstate
  | activate n o revents =>
      cases o with
      | acceptor =>
          obtain ⟨rfl, hset, iteration, hstep, rfl⟩ := hcases
          exact fine_pure (ho.activateAcceptor hset revents hstep)
      | connection i =>
          obtain ⟨k, hi, rfl, hindex, -, iteration, hstep, rfl⟩ := hcases
          exact fine_pure (ho.activateConnection hi hindex hl hstep)
  | wake n =>
      obtain ⟨hidle, iteration, hstep, rfl⟩ := hcases
      obtain ⟨-, heq⟩ := Iteration.wake_eq_some.mp hstep
      exact fine_pure (ho.proceeds hidle (Or.inl hstep) (by rw [heq]))
  | handleEvent n connfd ptr =>
      obtain ⟨hidle, ⟨iteration, hnext, hresult⟩ | ⟨i, k, iteration, hnext, hi, rfl⟩⟩ := hcases
      · obtain ⟨ho', hlistening, hhead, hqueue⟩ := ho.nextAcceptor hnext
        rcases hresult with rfl | rfl
        · unfold handleRead
          split_ifs with hconnfd
          · obtain ⟨hfresh, hroom⟩ := hl hhead hconnfd
            refine ho'.newConnection hroom hlistening (hfresh.setLoop hqueue rfl) ?_ ptr
            rw [show (s.setLoop n { s.loops n with iteration }).loops n = _ from
              Function.update_self ..]
            exact hidle.1
          · exact fine_pure ho'
        · exact fine_pure ho'
      · exact fine_pure (ho.nextConnection hi hnext)
  | callback n input =>
      obtain ⟨i, cb, handling, hhandling, hnone, rfl⟩ := hcases
      exact ho.callback hhandling hnone input
  | closeCallback n =>
      obtain ⟨i, hclosing, rfl⟩ := hcases
      exact ho.closeCallback hclosing
  | swap n =>
      obtain ⟨hidle, iteration, hstep, rfl⟩ := hcases
      obtain ⟨-, -, heq⟩ := Iteration.swap_eq_some.mp hstep
      exact fine_pure (ho.proceeds hidle (Or.inr (Or.inl hstep)) (by rw [heq]))
  | runFunctor n =>
      obtain ⟨f, iteration, hnext, rfl⟩ := hcases
      exact ho.runFunctor hnext
  | finish n =>
      obtain ⟨hidle, iteration, hstep, rfl⟩ := hcases
      obtain ⟨-, -, heq⟩ := Iteration.finish_eq_some.mp hstep
      exact fine_pure (ho.proceeds hidle (Or.inr (Or.inr hstep)) (by rw [heq]))

/-- The names of the connections are different. -/
theorem Accounts.names_nodup {server : TcpServer} {conns : List Hosted}
    (ha : Accounts server conns) : (conns.map Hosted.name).Nodup := by
  refine List.pairwise_iff_getElem.mpr fun i j hi hj hlt hsame => ?_
  rw [List.length_map] at hi hj
  have heq := ha.name_injective (List.getElem?_eq_getElem hi) (List.getElem?_eq_getElem hj)
    (by simpa using hsame)
  omega

/-- In every run in which fewer than 2^31 connections are accepted, the kernel returns no
descriptor that is open, and one event closes a connection once at most: the names of the
connections are different, and no entry of `connections_` is overwritten; each connection has
done a prefix of the four steps of its life, on the right threads; until the last of them, it
is referred to; and no assertion on `state_`, on `n == 1` or in a poller fails. -/
theorem handed_over {name : String} {fd : Int} {ptr : ChannelPtr} {numThreads : Nat}
    {writeComplete : Bool} {ls : List Label} {es : List Event}
    (hrun : Run (restrict Permitted Step) (create name fd ptr numThreads writeComplete) ls es t) :
    (t.conns.map Hosted.name).Nodup ∧ (t.server.connections.map Prod.fst).Nodup ∧
      (∀ i h, t.conns[i]? = some h → t.life i <+: fullLife h.loop) ∧
      (∀ i h, t.conns[i]? = some h → t.life i ≠ fullLife h.loop → t.Referenced i h) ∧
      ∀ e ∈ es, e.isFailure = false := by
  have hfinal := hrun.history
    (I := fun past u => Orderly u none ∧ ∀ e ∈ past, e.isFailure = false) []
    ⟨orderly_create name fd ptr numThreads writeComplete, by simp⟩
    fun past u l es' v hpast hstep => by
      have hfine := fine_advance hpast.1 hstep.1 hstep.2
      refine ⟨hfine.orderly, fun e he => ?_⟩
      rcases List.mem_append.mp he with he | he
      · exact hpast.2 e he
      · exact hfine.sound e he
  rw [List.nil_append] at hfinal
  obtain ⟨ho, hsound⟩ := hfinal
  refine ⟨ho.accounts.names_nodup, ho.accounts.keys, fun i h hi => ?_, fun i h hi hlife => ?_,
    hsound⟩
  · obtain ⟨stage, hlives⟩ := ho.lives i h (by simp) hi
    rw [hlives.life]
    exact stage.past_prefix h.loop
  · obtain ⟨stage, hlives⟩ := ho.lives i h (by simp) hi
    refine hlives.referenced ?_
    rintro rfl
    exact hlife hlives.life

/-- A connection is accepted on the base loop, read from and closed by its peer on loop 1. -/
def acceptedAndClosed : List Label :=
  [.start, .activate 0 .acceptor POLLIN, .wake 0, .handleEvent 0 9 2, .swap 0, .finish 0,
    .wake 1, .swap 1, .runFunctor 1, .finish 1, .activate 1 (.connection 0) POLLIN, .wake 1,
    .handleEvent 1 0 0, .callback 1 ⟨some [], 0, .error false⟩, .closeCallback 1,
    .wake 0, .swap 0, .runFunctor 0, .finish 0, .swap 1, .runFunctor 1, .finish 1]

/-- The steps of the life of this connection are in order, and no assertion fails. -/
theorem handed_over_one_thread :
    ∃ es t, Run (restrict Permitted Step) (create "s" 3 1 1 false) acceptedAndClosed es t ∧
      t.life 0 = fullLife 1 ∧ t.server.connections = [] ∧ ∀ e ∈ es, e.isFailure = false := by
  obtain ⟨es, t, hrun, hlife, hconnections⟩ : ∃ es t,
      Run (restrict Permitted Step) (create "s" 3 1 1 false) acceptedAndClosed es t ∧
        t.life 0 = fullLife 1 ∧ t.server.connections = [] :=
    Run.exists_of_exec_guarded _ (by decide +kernel)
  exact ⟨es, t, hrun, hlife, hconnections, (handed_over hrun).2.2.2.2⟩

end ServerLoops
end Chaonet
