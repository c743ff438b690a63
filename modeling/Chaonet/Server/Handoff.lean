import Chaonet.Server.TcpServer

/-!
# Handing connections from loop to loop

In the life of a connection exactly one place says what is next: a functor in the queue of
some loop, an event of its channel, or the call of `closeCallback_`.  `Stage` is where that
is, and `Lives` what the server, the queues and the record of the steps have of a connection
in a stage.  A step takes what is next out of its place, moves the connection on and puts the
next functor into a queue; between the two the connection is `Holding`, and everything else is
`Orderly`.

Two things from outside are relied on.  The kernel returns no descriptor that is open, and one
event closes a connection once at most.
-/

namespace Chaonet

open Foundation

/-- The connection whose next step a functor is. -/
def ServerFunctor.lifeOf : ServerFunctor → Option Nat
  | .connectionEstablished i | .removeConnectionInLoop i | .connectionDestroyed i => some i
  | .user _ _ => none

namespace ServerLoops

/-- The steps in the life of a connection on loop `loop`, with their threads. -/
def fullLife (loop : Nat) : List (LifeStep × Nat) :=
  [(.connectionEstablished, loop), (.handleClose, loop), (.removeConnectionInLoop, 0),
    (.connectionDestroyed, loop)]

/-- Where a connection is referred to: in `connections_`, by a functor that is queued in the
base loop or its own, or by the running `handleClose`. -/
def Referenced (s : ServerLoops) (i : Nat) (h : Hosted) : Prop :=
  (h.name, i) ∈ s.server.connections ∨
    (∃ n ∈ [0, h.loop], ∃ f ∈ (s.loops n).iteration.queue.queued, f.lifeOf = some i) ∨
    (s.loops h.loop).closing = some i

instance (s : ServerLoops) (i : Nat) (h : Hosted) : Decidable (s.Referenced i h) :=
  inferInstanceAs (Decidable (_ ∨ _ ∨ _))

/-- The kernel returns no descriptor of the acceptor or of a connection that still exists. -/
def Fresh (s : ServerLoops) (connfd : Int) : Prop :=
  connfd ≠ s.server.acceptor.channel.fd ∧
    ∀ entry ∈ s.conns.zipIdx, s.Referenced entry.2 entry.1 → entry.1.conn.channel.fd ≠ connfd

instance (s : ServerLoops) (connfd : Int) : Decidable (s.Fresh connfd) :=
  inferInstanceAs (Decidable (_ ∧ _))

/-- The event of a connection with these `revents` closes it once at most. -/
def ClosesOnce (s : ServerLoops) (i : Nat) (revents : EventMask) : Prop :=
  ∀ h ∈ s.conns[i]?, ¬(.closeCallback ∈ { h.conn.channel with revents }.handleEvent ∧
    .readCallback ∈ { h.conn.channel with revents }.handleEvent)

instance (s : ServerLoops) (i : Nat) (revents : EventMask) : Decidable (s.ClosesOnce i revents) :=
  inferInstanceAs (Decidable (∀ _ ∈ _, _))

/-- Fewer than 2^31 connections are accepted, and what the kernel promises. -/
def Permitted (s : ServerLoops) : Label → Prop
  | .activate _ (.connection i) revents => s.ClosesOnce i revents
  | .handleEvent n connfd _ => (s.loops n).iteration.active.head? = some .acceptor →
      0 ≤ connfd → s.Fresh connfd ∧ s.conns.length + 1 < 2 ^ 31
  | _ => True

instance (s : ServerLoops) : ∀ l, Decidable (s.Permitted l)
  | .activate _ (.connection i) revents => inferInstanceAs (Decidable (s.ClosesOnce i revents))
  | .handleEvent _ _ _ => inferInstanceAs (Decidable (_ → _ → _))
  | .start | .send _ _ _ | .shutdown _ | .activate _ .acceptor _ | .wake _ | .callback _ _
  | .closeCallback _ | .swap _ | .runFunctor _ | .finish _ => .isTrue trivial

/-- The connections on loop `n`, by number. -/
def hosted (s : ServerLoops) (n : Nat) : Nat → Option TcpConnection :=
  fun i => s.conns[i]?.bind fun h => if h.loop = n then some h.conn else none

/-- The channel of the acceptor, on its loop, once that listens. -/
def accepting (server : TcpServer) (n : Nat) : Option Channel :=
  if n = 0 ∧ server.acceptor.listening = true then some server.acceptor.channel else none

/-- How often a functor is queued in loop `n`. -/
def queuedCount (s : ServerLoops) (n : Nat) (f : ServerFunctor) : Nat :=
  (s.loops n).iteration.queue.queued.count f

/-! ## Stages -/

/-- What is next for a connection: `connectionEstablished`, an event, `closeCallback_`,
`removeConnectionInLoop`, `connectionDestroyed`, or nothing. -/
inductive Stage
  | establishing
  | up
  | closing
  | removing
  | destroying
  | destroyed
deriving DecidableEq, Repr

namespace Stage

def Of : Stage → TcpConnection → Prop
  | establishing => TcpConnection.Unborn
  | up => TcpConnection.Up
  | closing | removing | destroying => TcpConnection.Down
  | destroyed => TcpConnection.Gone

/-- Whether `connections_` has the connection. -/
def mapped : Stage → Prop
  | destroying | destroyed => False
  | _ => True

/-- The functor for the next step, and the loop it is queued in. -/
def token (loop i : Nat) : Stage → Option (Nat × ServerFunctor)
  | establishing => some (loop, .connectionEstablished i)
  | removing => some (0, .removeConnectionInLoop i)
  | destroying => some (loop, .connectionDestroyed i)
  | up | closing | destroyed => none

/-- The steps that are done. -/
def past (loop : Nat) : Stage → List (LifeStep × Nat)
  | establishing => []
  | up => (fullLife loop).take 1
  | closing | removing => (fullLife loop).take 2
  | destroying => (fullLife loop).take 3
  | destroyed => fullLife loop

theorem past_prefix (stage : Stage) (loop : Nat) : stage.past loop <+: fullLife loop := by
  cases stage <;> simp [past, List.take_prefix]

end Stage

/-- What is there of connection `i` in a stage. -/
structure Lives (s : ServerLoops) (i : Nat) (h : Hosted) (stage : Stage) : Prop where
  conn : stage.Of h.conn
  mapped : (h.name, i) ∈ s.server.connections ↔ stage.mapped
  queued : ∀ n f, f.lifeOf = some i →
    s.queuedCount n f = if stage.token h.loop i = some (n, f) then 1 else 0
  closing : ∀ n, (s.loops n).closing = some i ↔ stage = .closing ∧ n = h.loop
  life : s.life i = stage.past h.loop

/-- There is nothing of a connection that has not been made. -/
structure Unseen (s : ServerLoops) (i : Nat) : Prop where
  queued : ∀ n f, f.lifeOf = some i → s.queuedCount n f = 0
  closing : ∀ n, (s.loops n).closing ≠ some i
  life : s.life i = []

/-! ## The invariant -/

/-- The connections and the server's books on them. -/
structure Accounts (server : TcpServer) (conns : List Hosted) : Prop where
  named : ∀ (i : Nat) (h : Hosted), conns[i]? = some h →
    h.name = server.name ++ ("#" ++ toString (Int32.ofNat (i + 1)))
  nextConnId : server.nextConnId = Int32.ofNat (conns.length + 1)
  bound : conns.length < 2 ^ 31
  entries : ∀ entry ∈ server.connections, ∃ h, conns[entry.2]? = some h ∧ h.name = entry.1
  keys : (server.connections.map Prod.fst).Nodup
  /-- The descriptors of connections that exist are different. -/
  apart : ∀ (i j : Nat) (h k : Hosted), conns[i]? = some h → conns[j]? = some k →
    ¬h.conn.Gone → ¬k.conn.Gone →
    h.conn.channel.fd = k.conn.channel.fd → i = j
  separate : ∀ (i : Nat) (h : Hosted), conns[i]? = some h → ¬h.conn.Gone →
    h.conn.channel.fd ≠ server.acceptor.channel.fd
  unlistened : server.acceptor.listening = false →
    server.acceptor.channel.index = kNew ∧ conns = []
  unstarted : server.started = false → server.threadPool.started = false

/-- All is in order, but for the connection that a step is about. -/
structure Orderly (s : ServerLoops) (busy : Option Nat) : Prop where
  accounts : Accounts s.server s.conns
  lives : ∀ i h, some i ≠ busy → s.conns[i]? = some h → ∃ stage, Lives s i h stage
  unseen : ∀ i, s.conns[i]? = none → Unseen s i
  loops : ∀ n, ∃ registered, (s.loops n).Hosts (s.hosted n) (accepting s.server n) registered
  accepts : ∀ n, .acceptor ∈ (s.loops n).iteration.active →
    n = 0 ∧ s.server.acceptor.listening = true

theorem orderly_create (name : String) (fd : Int) (ptr : ChannelPtr) (numThreads : Nat)
    (writeComplete : Bool) : Orderly (create name fd ptr numThreads writeComplete) none := by
  refine ⟨⟨?_, rfl, Nat.two_pow_pos 31, ?_, List.nodup_nil, ?_, ?_, fun _ => ⟨rfl, rfl⟩,
    fun _ => rfl⟩, ?_, fun i _ => ⟨fun _ _ _ => rfl, fun _ => by simp [create, IoLoop.create], rfl⟩,
    fun n => ⟨fun _ => none, ?_⟩, ?_⟩
  · simp [create]
  · simp [create, TcpServer.create]
  · simp [create]
  · simp [create]
  · simp [create]
  · have hhosted : (create name fd ptr numThreads writeComplete).hosted n = fun _ => none := by
      funext i
      simp [hosted, create]
    have haccepting : accepting (create name fd ptr numThreads writeComplete).server n = none := by
      simp [accepting, create, TcpServer.create]
    rw [hhosted, haccepting]
    exact IoLoop.hosts_create
  · simp [create, IoLoop.create, Iteration.create]

variable {s t : ServerLoops} {n m i j : Nat} {h k : Hosted} {stage : Stage} {f : ServerFunctor}
  {busy : Option Nat}

/-! ## Connections that a step leaves alone -/

/-- The queues, the running calls and the record have the same of a connection. -/
structure SameFor (s t : ServerLoops) (i : Nat) : Prop where
  queued : ∀ n f, f.lifeOf = some i → t.queuedCount n f = s.queuedCount n f
  closing : ∀ n, (t.loops n).closing = some i ↔ (s.loops n).closing = some i
  life : t.life i = s.life i

theorem Lives.transfer (hlives : Lives s i k stage) (hsame : SameFor s t i)
    (hmapped : (k.name, i) ∈ t.server.connections ↔ (k.name, i) ∈ s.server.connections) :
    Lives t i k stage :=
  ⟨hlives.conn, hmapped.trans hlives.mapped,
    fun n f hf => (hsame.queued n f hf).trans (hlives.queued n f hf),
    fun n => (hsame.closing n).trans (hlives.closing n), hsame.life.trans hlives.life⟩

theorem Unseen.transfer (hunseen : Unseen s i) (hsame : SameFor s t i) : Unseen t i :=
  ⟨fun n f hf => (hsame.queued n f hf).trans (hunseen.queued n f hf),
    fun n hclosing => hunseen.closing n ((hsame.closing n).mp hclosing),
    hsame.life.trans hunseen.life⟩

/-- A step begins with a connection. -/
theorem Orderly.release (ho : Orderly s none) (i : Nat) : Orderly s (some i) :=
  ⟨ho.accounts, fun j h _ hj => ho.lives j h (by simp) hj, ho.unseen, ho.loops, ho.accepts⟩

/-- A step is done with its connection. -/
theorem Orderly.settle (ho : Orderly s (some i)) (hi : s.conns[i]? = some h)
    (stage : Stage) (hlives : Lives s i h stage) : Orderly s none := by
  refine ⟨ho.accounts, fun j k _ hj => ?_, ho.unseen, ho.loops, ho.accepts⟩
  by_cases hji : j = i
  · subst hji
    obtain rfl := Option.some.inj (hi.symm.trans hj)
    exact ⟨stage, hlives⟩
  · exact ho.lives j k (by simpa using hji) hj

/-- A step that changes the loops and the record only. -/
theorem Orderly.transfer (ho : Orderly s busy) (hconns : t.conns = s.conns)
    (hserver : t.server = s.server) (hsame : ∀ i, some i ≠ busy → SameFor s t i)
    (hbusy : ∀ i, some i = busy → s.conns[i]? ≠ none)
    (hloops : ∀ n, ∃ registered, (t.loops n).Hosts (s.hosted n) (accepting s.server n) registered)
    (haccepts : ∀ n, .acceptor ∈ (t.loops n).iteration.active →
      .acceptor ∈ (s.loops n).iteration.active) : Orderly t busy := by
  have hhosted (n : Nat) : t.hosted n = s.hosted n := by
    funext i
    rw [hosted, hconns, hosted]
  refine ⟨by rw [hserver, hconns]; exact ho.accounts, fun i h hi hh => ?_, fun i hi => ?_,
    fun n => ?_, fun n hmem => ?_⟩
  · rw [hconns] at hh
    obtain ⟨stage, hlives⟩ := ho.lives i h hi hh
    exact ⟨stage, hlives.transfer (hsame i hi) (by rw [hserver])⟩
  · rw [hconns] at hi
    exact (ho.unseen i hi).transfer (hsame i fun hb => hbusy i hb hi)
  · rw [hhosted, hserver]
    exact hloops n
  · rw [hserver]
    exact ho.accepts n (haccepts n hmem)

/-- One loop changes. -/
theorem Orderly.setLoop (ho : Orderly s busy) {l : IoLoop}
    (hbusy : ∀ i, some i = busy → s.conns[i]? ≠ none)
    (hhosts : ∃ registered, l.Hosts (s.hosted n) (accepting s.server n) registered)
    (hqueued : ∀ i f, some i ≠ busy → f.lifeOf = some i →
      l.iteration.queue.queued.count f = s.queuedCount n f)
    (hclosing : ∀ i, some i ≠ busy → (l.closing = some i ↔ (s.loops n).closing = some i))
    (haccepts : .acceptor ∈ l.iteration.active → .acceptor ∈ (s.loops n).iteration.active) :
    Orderly (s.setLoop n l) busy := by
  refine ho.transfer rfl rfl (fun i hi => ⟨fun m f hf => ?_, fun m => ?_, rfl⟩) hbusy (fun m => ?_)
    fun m => ?_
  · by_cases hmn : m = n
    · subst hmn
      simpa [queuedCount, ServerLoops.setLoop] using hqueued i f hi hf
    · simp [queuedCount, ServerLoops.setLoop, Function.update_of_ne hmn]
  · by_cases hmn : m = n
    · subst hmn
      simpa [ServerLoops.setLoop] using hclosing i hi
    · simp [ServerLoops.setLoop, Function.update_of_ne hmn]
  · by_cases hmn : m = n
    · subst hmn
      simpa [ServerLoops.setLoop] using hhosts
    · simpa [ServerLoops.setLoop, Function.update_of_ne hmn] using ho.loops m
  · by_cases hmn : m = n
    · subst hmn
      simpa [ServerLoops.setLoop] using haccepts
    · simp [ServerLoops.setLoop, Function.update_of_ne hmn]

/-- The record of the connection that a step is about. -/
theorem Orderly.record (ho : Orderly s (some i)) (hi : s.conns[i]? = some h) (n : Nat)
    (step : LifeStep) : Orderly (s.record n i step) (some i) := by
  refine ho.transfer rfl rfl (fun j hj => ⟨fun _ _ _ => rfl, fun _ => Iff.rfl, ?_⟩) ?_ ho.loops
    fun _ hmem => hmem
  · exact Function.update_of_ne (by simpa using hj) ..
  · rintro j ⟨⟩
    simp [hi]

/-- A functor of the connection that a step is about is queued. -/
theorem Orderly.queueInLoop (ho : Orderly s (some i)) (hi : s.conns[i]? = some h)
    (hf : f.lifeOf = some i) (n : Nat) : Orderly (s.queueInLoop n [f]) (some i) := by
  obtain ⟨registered, hhosts⟩ := ho.loops n
  refine ho.setLoop ?_ ⟨registered, hhosts.queueInLoop [f]⟩ (fun j g hj hg => ?_)
    (fun _ _ => Iff.rfl) id
  · rintro j ⟨⟩
    simp [hi]
  · have hne : f ≠ g := by
      rintro rfl
      rw [hf] at hg
      exact hj hg.symm
    simp [IoLoop.queueInLoop, queuedCount, hne]

/-! ## Members of the connection that a step is about -/

theorem hosted_eq_some {c : TcpConnection} :
    s.hosted n i = some c ↔ ∃ h, s.conns[i]? = some h ∧ h.loop = n ∧ h.conn = c := by
  simp only [hosted, Option.bind_eq_some_iff]
  constructor
  · rintro ⟨h, hi, hc⟩
    split_ifs at hc with hloop
    exact ⟨h, hi, hloop, Option.some.inj hc⟩
  · rintro ⟨h, hi, hloop, hc⟩
    exact ⟨h, hi, by rw [if_pos hloop, hc]⟩

theorem hosted_self (hi : s.conns[i]? = some k) : s.hosted k.loop i = some k.conn :=
  hosted_eq_some.mpr ⟨k, hi, rfl, rfl⟩

/-- A connection changes on its loop. -/
theorem hosted_set (hi : s.conns[i]? = some k) {c : TcpConnection}
    (hconns : t.conns = s.conns.set i { k with conn := c }) (n : Nat) :
    t.hosted n = if n = k.loop then Function.update (s.hosted n) i (some c) else s.hosted n := by
  have hlt : i < s.conns.length := (List.getElem?_eq_some_iff.mp hi).1
  funext j
  by_cases hji : j = i
  · subst hji
    by_cases hn : n = k.loop
    · simp [hosted, hconns, hlt, hn]
    · rw [if_neg hn, hosted, hosted, hconns, List.getElem?_set_self hlt, hi]
      simp [Ne.symm hn]
  · have hother : t.hosted n j = s.hosted n j := by
      rw [hosted, hosted, hconns, List.getElem?_set_ne (Ne.symm hji)]
    split_ifs with hn
    · rw [Function.update_of_ne hji, hother]
    · exact hother

/-- A connection that changes keeps its name, its loop and its descriptor. -/
theorem Accounts.member {server : TcpServer} {conns : List Hosted} (ha : Accounts server conns)
    (hi : conns[i]? = some k) {c : TcpConnection} (hfd : c.channel.fd = k.conn.channel.fd)
    (hgone : k.conn.Gone → c.Gone) : Accounts server (conns.set i { k with conn := c }) := by
  have hlt : i < conns.length := (List.getElem?_eq_some_iff.mp hi).1
  have hbefore (j : Nat) (h : Hosted)
      (hj : (conns.set i { k with conn := c })[j]? = some h) : ∃ h', conns[j]? = some h' ∧
        h.name = h'.name ∧ h.conn.channel.fd = h'.conn.channel.fd ∧
        (¬h.conn.Gone → ¬h'.conn.Gone) := by
    by_cases hji : j = i
    · subst hji
      rw [List.getElem?_set_self hlt] at hj
      obtain rfl := Option.some.inj hj
      exact ⟨k, hi, rfl, hfd, mt hgone⟩
    · rw [List.getElem?_set_ne (Ne.symm hji)] at hj
      exact ⟨h, hj, rfl, rfl, id⟩
  refine ⟨fun j h hj => ?_, ?_, ?_, fun entry hentry => ?_, ha.keys,
    fun a b h g hh hg hnh hng hsame => ?_, fun j h hj hnot => ?_, fun hno => ?_, ha.unstarted⟩
  · obtain ⟨h', hj', hname, -, -⟩ := hbefore j h hj
    rw [hname]
    exact ha.named j h' hj'
  · rw [List.length_set]
    exact ha.nextConnId
  · rw [List.length_set]
    exact ha.bound
  · obtain ⟨h, hh, hname⟩ := ha.entries entry hentry
    by_cases hji : entry.2 = i
    · rw [hji] at hh ⊢
      obtain rfl := Option.some.inj (hi.symm.trans hh)
      exact ⟨_, List.getElem?_set_self hlt, hname⟩
    · exact ⟨h, by rw [List.getElem?_set_ne (Ne.symm hji), hh], hname⟩
  · obtain ⟨h', hh', -, hfdh, hlive⟩ := hbefore a h hh
    obtain ⟨g', hg', -, hfdg, hlive'⟩ := hbefore b g hg
    exact ha.apart a b h' g' hh' hg' (hlive hnh) (hlive' hng) (by rw [← hfdh, ← hfdg, hsame])
  · obtain ⟨h', hj', -, hfd', hlive⟩ := hbefore j h hj
    rw [hfd']
    exact ha.separate j h' hj' (hlive hnot)
  · obtain ⟨hindex, hnil⟩ := ha.unlistened hno
    simp [hnil] at hi

/-- The functors of users are no steps in the life of a connection. -/
theorem count_queuedByConn (hf : f.lifeOf = some j) (i : Nat) (es : List TcpConnection.Event) :
    (queuedByConn i es).count f = 0 := by
  refine List.count_eq_zero_of_not_mem fun hmem => ?_
  obtain ⟨e, -, he⟩ := List.mem_filterMap.mp hmem
  cases e with
  | queued u =>
      obtain rfl : ServerFunctor.user i u = f := Option.some.inj he
      simp [ServerFunctor.lifeOf] at hf
  | _ => simp at he

@[simp] theorem queuedCount_performConn (s : ServerLoops) (n i : Nat) (k : Hosted)
    (x : Traced TcpConnection.Event TcpConnection) (hf : f.lifeOf = some j) :
    (s.performConn n i k x).val.queuedCount m f = s.queuedCount m f := by
  by_cases hm : m = k.loop
  · subst hm
    simp [queuedCount, performConn, IoLoop.queueInLoop, count_queuedByConn hf]
  · simp [queuedCount, performConn, Function.update_of_ne hm]

/-- A member is felt by its own connection only, and by that only if it closes it. -/
theorem sameFor_performConn (n : Nat) {x : Traced TcpConnection.Event TcpConnection}
    (hclose : TcpConnection.Event.closeCallback ∈ x.trace →
      j ≠ i ∧ (s.loops k.loop).closing = none) : SameFor s (s.performConn n i k x).val j := by
  refine ⟨fun m f hf => queuedCount_performConn s n i k x hf, fun m => ?_, ?_⟩
  · by_cases hm : m = k.loop
    · subst hm
      show (Function.update s.loops k.loop _ k.loop).closing = some j ↔ _
      rw [Function.update_self]
      show (if TcpConnection.Event.closeCallback ∈ x.trace then some i
        else (s.loops k.loop).closing) = some j ↔ _
      split_ifs with hmem
      · obtain ⟨hji, hnone⟩ := hclose hmem
        rw [hnone]
        exact ⟨fun heq => absurd (Option.some.inj heq).symm hji, fun heq => by simp at heq⟩
      · exact Iff.rfl
    · show (Function.update s.loops k.loop _ m).closing = some j ↔ _
      rw [Function.update_of_ne hm]
  · show (if TcpConnection.Event.closeCallback ∈ x.trace then (s.record n i .handleClose).life
      else s.life) j = _
    split_ifs with hmem
    · exact Function.update_of_ne (hclose hmem).1 ..
    · rfl

/-- The connection that a step is about changes, and its loop. -/
theorem Orderly.member (ho : Orderly s (some i)) (hi : s.conns[i]? = some k) {c : TcpConnection}
    (hfd : c.channel.fd = k.conn.channel.fd) (hgone : k.conn.Gone → c.Gone) {l : IoLoop}
    (hconns : t.conns = s.conns.set i { k with conn := c }) (hserver : t.server = s.server)
    (hloops : t.loops = Function.update s.loops k.loop l) (hsame : ∀ j, j ≠ i → SameFor s t j)
    (haccepts : .acceptor ∈ l.iteration.active →
      .acceptor ∈ (s.loops k.loop).iteration.active)
    (hhosts : ∃ registered, l.Hosts (Function.update (s.hosted k.loop) i (some c))
      (accepting s.server k.loop) registered) : Orderly t (some i) := by
  have hhosted := hosted_set hi hconns
  refine ⟨?_, fun j g hj hg => ?_, fun j hj => ?_, fun m => ?_, fun m hmem => ?_⟩
  · rw [hserver, hconns]
    exact ho.accounts.member hi hfd hgone
  · have hji : j ≠ i := by simpa using hj
    rw [hconns, List.getElem?_set_ne (Ne.symm hji)] at hg
    obtain ⟨stage, hlives⟩ := ho.lives j g hj hg
    exact ⟨stage, hlives.transfer (hsame j hji) (by rw [hserver])⟩
  · have hj' : s.conns[j]? = none := by
      have hle : (s.conns.set i { k with conn := c }).length ≤ j := by
        rw [hconns] at hj
        exact List.getElem?_eq_none_iff.mp hj
      rw [List.length_set] at hle
      exact List.getElem?_eq_none hle
    refine (ho.unseen j hj').transfer (hsame j ?_)
    rintro rfl
    simp [hi] at hj'
  · rw [hhosted m, hserver, hloops]
    by_cases hm : m = k.loop
    · subst hm
      rw [if_pos rfl, Function.update_self]
      exact hhosts
    · rw [if_neg hm, Function.update_of_ne hm]
      exact ho.loops m
  · rw [hserver]
    refine ho.accepts m ?_
    rw [hloops] at hmem
    by_cases hm : m = k.loop
    · subst hm
      rw [Function.update_self] at hmem
      exact haccepts hmem
    · rwa [Function.update_of_ne hm] at hmem

/-- A member of the connection that a step is about takes effect. -/
theorem Orderly.performConn (ho : Orderly s (some i)) (hi : s.conns[i]? = some k) (n : Nat)
    {x : Traced TcpConnection.Event TcpConnection}
    (hfd : x.val.channel.fd = k.conn.channel.fd) (hgone : k.conn.Gone → x.val.Gone)
    (hnone : TcpConnection.Event.closeCallback ∈ x.trace → (s.loops k.loop).closing = none)
    (hhosts : ∃ registered, ({ s.loops k.loop with
        poller := x.val.poller
        closing := if TcpConnection.Event.closeCallback ∈ x.trace then some i
          else (s.loops k.loop).closing
      }.queueInLoop (queuedByConn i x.trace)).Hosts
        (Function.update (s.hosted k.loop) i (some x.val)) (accepting s.server k.loop) registered) :
    Orderly (s.performConn n i k x).val (some i) :=
  ho.member hi hfd hgone rfl rfl rfl
    (fun _ hji => sameFor_performConn n fun hmem => ⟨hji, hnone hmem⟩) id hhosts

/-! ## What a connection holds on to -/

/-- The connection is in a stage, but for the place that says what is next. -/
structure Holding (s : ServerLoops) (i : Nat) (h : Hosted) (stage : Stage) : Prop where
  conn : stage.Of h.conn
  mapped : (h.name, i) ∈ s.server.connections ↔ stage.mapped
  queued : ∀ n f, f.lifeOf = some i → s.queuedCount n f = 0
  closing : ∀ n, (s.loops n).closing ≠ some i
  life : s.life i = stage.past h.loop

@[simp] theorem queuedCount_setLoop (s : ServerLoops) (n m : Nat) (l : IoLoop)
    (f : ServerFunctor) : (s.setLoop n l).queuedCount m f =
      if m = n then l.iteration.queue.queued.count f else s.queuedCount m f := by
  by_cases hm : m = n
  · subst hm
    simp [queuedCount, ServerLoops.setLoop]
  · simp [queuedCount, ServerLoops.setLoop, hm]

theorem queuedCount_queueInLoop (s : ServerLoops) (n m : Nat) (f g : ServerFunctor) :
    (s.queueInLoop n [g]).queuedCount m f =
      s.queuedCount m f + if (n, g) = (m, f) then 1 else 0 := by
  rw [ServerLoops.queueInLoop, queuedCount_setLoop]
  by_cases hm : m = n
  · subst hm
    simp [queuedCount, IoLoop.queueInLoop, List.count_singleton]
  · simp [hm, Ne.symm hm]

theorem closing_queueInLoop (s : ServerLoops) (n m : Nat) (functors : List ServerFunctor) :
    ((s.queueInLoop n functors).loops m).closing = (s.loops m).closing := by
  by_cases hm : m = n
  · subst hm
    simp [ServerLoops.queueInLoop, ServerLoops.setLoop, IoLoop.queueInLoop]
  · simp [ServerLoops.queueInLoop, ServerLoops.setLoop, Function.update_of_ne hm]

/-- The functor for the next step is queued. -/
theorem Holding.push (hh : Holding s i k stage) (htoken : stage.token k.loop i = some (n, f)) :
    Lives (s.queueInLoop n [f]) i k stage := by
  refine ⟨hh.conn, hh.mapped, fun m g hg => ?_, fun m => ?_, hh.life⟩
  · rw [queuedCount_queueInLoop, hh.queued m g hg, htoken, Nat.zero_add]
    simp
  · rw [closing_queueInLoop]
    refine ⟨fun hclosing => absurd hclosing (hh.closing m), ?_⟩
    rintro ⟨rfl, -⟩
    simp [Stage.token] at htoken

/-- A connection waits for an event, or for nothing. -/
theorem Holding.waits (hh : Holding s i k stage) (hstage : stage = .up ∨ stage = .destroyed) :
    Lives s i k stage := by
  refine ⟨hh.conn, hh.mapped, fun m g hg => ?_, fun m => ?_, hh.life⟩
  · rw [hh.queued m g hg]
    rcases hstage with rfl | rfl <;> simp [Stage.token]
  · refine ⟨fun hclosing => absurd hclosing (hh.closing m), ?_⟩
    rintro ⟨rfl, -⟩
    simp at hstage

/-- A functor that is queued is the one for the next step. -/
theorem Lives.token_of_mem (hlives : Lives s i k stage) (hf : f.lifeOf = some i)
    (hmem : f ∈ (s.loops n).iteration.queue.queued) : stage.token k.loop i = some (n, f) := by
  by_contra hne
  have hzero := hlives.queued n f hf
  rw [if_neg hne] at hzero
  exact absurd hmem (List.count_eq_zero.mp hzero)

/-- The functor for the next step is taken out of the queue. -/
theorem Lives.pop (hlives : Lives s i k stage) (hf : f.lifeOf = some i) {l : IoLoop}
    (hqueued : (s.loops n).iteration.queue.queued = f :: l.iteration.queue.queued)
    (hclosing : l.closing = (s.loops n).closing) : Holding (s.setLoop n l) i k stage := by
  have htoken : stage.token k.loop i = some (n, f) :=
    hlives.token_of_mem hf (by rw [hqueued]; exact List.mem_cons_self)
  refine ⟨hlives.conn, hlives.mapped, fun m g hg => ?_, fun m hm => ?_, hlives.life⟩
  · have hbefore := hlives.queued m g hg
    rw [htoken] at hbefore
    rw [queuedCount_setLoop]
    split_ifs with hmn
    · subst hmn
      rw [queuedCount, hqueued, List.count_cons] at hbefore
      by_cases hfg : f = g
      · subst hfg
        simpa using hbefore
      · simpa [hfg] using hbefore
    · rw [hbefore, if_neg]
      intro heq
      exact hmn (Prod.mk.inj (Option.some.inj heq)).1.symm
  · -- A connection whose functor is queued is not about to call `closeCallback_`.
    have hbefore : (s.loops m).closing = some i := by
      by_cases hmn : m = n
      · subst hmn
        rw [← hclosing]
        simpa [ServerLoops.setLoop] using hm
      · simpa [ServerLoops.setLoop, Function.update_of_ne hmn] using hm
    obtain ⟨rfl, -⟩ := (hlives.closing m).mp hbefore
    simp [Stage.token] at htoken

/-- `closeCallback_` has been called. -/
theorem Lives.told (hlives : Lives s i k stage) {l : IoLoop}
    (hclosing : (s.loops n).closing = some i) (hqueue : l.iteration = (s.loops n).iteration)
    (hnone : l.closing = none) : n = k.loop ∧ Holding (s.setLoop n l) i k .removing := by
  obtain ⟨rfl, hn⟩ := (hlives.closing n).mp hclosing
  refine ⟨hn, hlives.conn, hlives.mapped, fun m g hg => ?_, fun m hm => ?_, hlives.life⟩
  · have hbefore := hlives.queued m g hg
    rw [queuedCount_setLoop]
    split_ifs with hmn
    · subst hmn
      rw [hqueue]
      simpa [queuedCount, Stage.token] using hbefore
    · simpa [Stage.token] using hbefore
  · by_cases hmn : m = n
    · subst hmn
      simp [ServerLoops.setLoop, hnone] at hm
    · have hbefore : (s.loops m).closing = some i := by
        simpa [ServerLoops.setLoop, Function.update_of_ne hmn] using hm
      exact hmn (((hlives.closing m).mp hbefore).2.trans hn.symm)

/-- A connection that exists is referred to. -/
theorem Lives.referenced (hlives : Lives s i k stage) (hstage : stage ≠ .destroyed) :
    s.Referenced i k := by
  cases stage with
  | establishing => exact Or.inl (hlives.mapped.mpr trivial)
  | up => exact Or.inl (hlives.mapped.mpr trivial)
  | closing => exact Or.inl (hlives.mapped.mpr trivial)
  | removing => exact Or.inl (hlives.mapped.mpr trivial)
  | destroying =>
      have hone := hlives.queued k.loop (.connectionDestroyed i) rfl
      rw [if_pos (show Stage.destroying.token k.loop i = some (k.loop, .connectionDestroyed i)
        from rfl)] at hone
      refine Or.inr (Or.inl ⟨k.loop, by simp, .connectionDestroyed i, ?_, rfl⟩)
      exact List.count_pos_iff.mp (by rw [queuedCount] at hone; omega)
  | destroyed => exact absurd rfl hstage

/-! ## The steps of a connection -/

/-- All is in order after a step, and no assertion has failed. -/
structure Fine (x : Traced Event ServerLoops) : Prop where
  orderly : Orderly x.val none
  sound : ∀ e ∈ x.trace, e.isFailure = false

theorem fine_pure (ho : Orderly s none) : Fine (pure s) := ⟨ho, by simp⟩

/-- Members that neither close a connection nor call back are sound. -/
theorem isFailure_of_calm {es : List TcpConnection.Event} (hcalm : TcpConnection.Calm es) :
    ∀ e ∈ es.map (Event.conn i), e.isFailure = false := by
  intro e he
  obtain ⟨e', he', rfl⟩ := List.mem_map.mp he
  rcases hcalm e' he' with hinert | rfl
  · cases e' with
    | failed a =>
        cases a with
        | sendInLoopNwrote => rfl
        | connectionEstablishedConnecting => exact hinert.elim
        | handleCloseState => exact hinert.elim
    | poller e => simp [TcpConnection.Inert] at hinert
    | _ => rfl
  · rfl

theorem closeCallback_not_mem_of_calm {es : List TcpConnection.Event}
    (hcalm : TcpConnection.Calm es) : TcpConnection.Event.closeCallback ∉ es := by
  intro hmem
  rcases hcalm _ hmem with hinert | heq
  · exact hinert
  · simp at heq

theorem callConn_of (hi : s.conns[i]? = some k)
    (member : TcpConnection → Traced TcpConnection.Event TcpConnection) :
    s.callConn n i member =
      s.performConn n i k (member (k.conn.on (s.loops k.loop).poller)) := by
  simp [callConn, hi]

/-- A step that is recorded, and takes effect, moves the connection to its next stage. -/
theorem Holding.performConn (hh : Holding s i k stage) (stage' : Stage) (n : Nat)
    (step : LifeStep) {x : Traced TcpConnection.Event TcpConnection}
    (hno : TcpConnection.Event.closeCallback ∉ x.trace) (hconn : stage'.Of x.val)
    (hmapped : stage'.mapped ↔ stage.mapped)
    (hpast : stage'.past k.loop = stage.past k.loop ++ [(step, n)]) :
    Holding ((s.record n i step).performConn n i k x).val i { k with conn := x.val } stage' := by
  have hsame : SameFor (s.record n i step) ((s.record n i step).performConn n i k x).val i :=
    sameFor_performConn n fun hmem => absurd hmem hno
  refine ⟨hconn, hh.mapped.trans hmapped.symm,
    fun m f hf => (hsame.queued m f hf).trans (hh.queued m f hf),
    fun m hm => hh.closing m ((hsame.closing m).mp hm), hsame.life.trans ?_⟩
  show Function.update s.life i (s.life i ++ [(step, n)]) i = _
  rw [Function.update_self, hh.life, hpast]

theorem getElem?_performConn (hi : s.conns[i]? = some k) (n : Nat)
    (x : Traced TcpConnection.Event TcpConnection) :
    (s.performConn n i k x).val.conns[i]? = some { k with conn := x.val } :=
  List.getElem?_set_self (List.getElem?_eq_some_iff.mp hi).1

/-- `connectionEstablished` runs on the loop of the connection. -/
theorem Orderly.establish (ho : Orderly s (some i)) (hi : s.conns[i]? = some k)
    (hh : Holding s i k .establishing) (hidle : (s.loops k.loop).handling = []) :
    Fine (s.invoke k.loop (.connectionEstablished i)) := by
  have hunborn : k.conn.Unborn := hh.conn
  have hnot : ¬k.conn.Gone := fun hgone => by
    have hstate := hgone.state
    rw [hunborn.state] at hstate
    simp at hstate
  obtain ⟨registered, hhosts⟩ := ho.loops k.loop
  -- Neither the acceptor nor another connection on the loop has its descriptor.
  obtain ⟨hafter, hup, hfd, htrace⟩ := hhosts.established (hosted_self hi) hunborn hidle
    (fun ch hch => by
      rw [accepting] at hch
      split_ifs at hch
      obtain rfl := Option.some.inj hch
      exact ho.accounts.separate i k hi hnot)
    (fun j d hj hd hsame => by
      obtain ⟨h, hh', -, rfl⟩ := hosted_eq_some.mp hj
      have hji := ho.accounts.apart j i h k hh' hi (fun hgone => hd hgone.index) hnot hsame
      subst hji
      obtain rfl := Option.some.inj (hi.symm.trans hh')
      exact hd hunborn.index)
    (queuedByConn i (k.conn.on (s.loops k.loop).poller).connectionEstablished.trace)
  generalize hx : (k.conn.on (s.loops k.loop).poller).connectionEstablished = x
    at hafter hup hfd htrace
  have hno : TcpConnection.Event.closeCallback ∉ x.trace := by simp [htrace]
  have hvalue : s.invoke k.loop (.connectionEstablished i) =
      (s.record k.loop i .connectionEstablished).performConn k.loop i k x := by
    rw [← hx]
    exact callConn_of (s := s.record k.loop i .connectionEstablished) hi _
  have hrecorded := ho.record hi k.loop .connectionEstablished
  have hheld := hh.performConn .up k.loop .connectionEstablished hno hup Iff.rfl rfl
  have hperformed := hrecorded.performConn hi k.loop hfd (fun hgone => absurd hgone hnot)
    (fun hmem => absurd hmem hno) ⟨TcpConnection.entry registered k.conn x.val, by
      rw [if_neg hno]
      exact hafter⟩
  rw [hvalue]
  refine ⟨hperformed.settle (getElem?_performConn hi k.loop x) .up (hheld.waits (Or.inl rfl)), ?_⟩
  intro e he
  obtain ⟨e', he', rfl⟩ := List.mem_map.mp he
  rw [htrace, List.mem_singleton] at he'
  rw [he']
  rfl

/-- `connectionDestroyed` runs on the loop of the connection. -/
theorem Orderly.destroy (ho : Orderly s (some i)) (hi : s.conns[i]? = some k)
    (hh : Holding s i k .destroying) (hidle : (s.loops k.loop).handling = []) :
    Fine (s.invoke k.loop (.connectionDestroyed i)) := by
  have hdown : k.conn.Down := hh.conn
  obtain ⟨registered, hhosts⟩ := ho.loops k.loop
  obtain ⟨hafter, hgone, hfd, htrace⟩ := hhosts.destroyed (hosted_self hi) hdown hidle
    (queuedByConn i (k.conn.on (s.loops k.loop).poller).connectionDestroyed.trace)
  generalize hx : (k.conn.on (s.loops k.loop).poller).connectionDestroyed = x
    at hafter hgone hfd htrace
  have hno : TcpConnection.Event.closeCallback ∉ x.trace := by simp [htrace]
  have hvalue : s.invoke k.loop (.connectionDestroyed i) =
      (s.record k.loop i .connectionDestroyed).performConn k.loop i k x := by
    rw [← hx]
    exact callConn_of (s := s.record k.loop i .connectionDestroyed) hi _
  have hrecorded := ho.record hi k.loop .connectionDestroyed
  have hheld := hh.performConn .destroyed k.loop .connectionDestroyed hno hgone Iff.rfl rfl
  have hperformed := hrecorded.performConn hi k.loop hfd (fun _ => hgone)
    (fun hmem => absurd hmem hno) ⟨Function.update registered k.conn.channel.fd none, by
      rw [if_neg hno]
      exact hafter⟩
  rw [hvalue]
  refine ⟨hperformed.settle (getElem?_performConn hi k.loop x) .destroyed
    (hheld.waits (Or.inr rfl)), ?_⟩
  intro e he
  obtain ⟨e', he', rfl⟩ := List.mem_map.mp he
  simp [htrace] at he'

/-! ## Names -/

theorem toString_injective {a b : Nat} (h : toString (a : Int) = toString (b : Int)) : a = b := by
  have hlist : a.repr.toList = b.repr.toList := congrArg String.toList h
  rw [Nat.toList_repr, Nat.toList_repr] at hlist
  rw [← Nat.ofDigitChars_ten_toDigits (n := a), hlist, Nat.ofDigitChars_ten_toDigits]

/-- The names of fewer than 2^31 connections are different. -/
theorem connName_injective {name : String} (hi : i + 1 < 2 ^ 31) (hj : j + 1 < 2 ^ 31)
    (h : name ++ ("#" ++ toString (Int32.ofNat (i + 1))) =
      name ++ ("#" ++ toString (Int32.ofNat (j + 1)))) : i = j := by
  have hid := (String.append_right_inj _).mp ((String.append_right_inj _).mp h)
  have hval : toString ((Int32.ofNat (i + 1)).toInt) = toString ((Int32.ofNat (j + 1)).toInt) := hid
  rw [Int32.toInt_ofNat_of_lt hi, Int32.toInt_ofNat_of_lt hj] at hval
  have hsucc := toString_injective hval
  omega

theorem Accounts.name_injective {server : TcpServer} {conns : List Hosted}
    (ha : Accounts server conns) (hi : conns[i]? = some h) (hj : conns[j]? = some k)
    (hname : h.name = k.name) : i = j := by
  have hroom (a : Nat) (g : Hosted) (hg : conns[a]? = some g) : a + 1 < 2 ^ 31 :=
    Nat.lt_of_le_of_lt (List.getElem?_eq_some_iff.mp hg).1 ha.bound
  rw [ha.named i h hi, ha.named j k hj] at hname
  exact connName_injective (hroom i h hi) (hroom j k hj) hname

/-- The entry of a connection is erased, and it was there once. -/
theorem countP_entry {server : TcpServer} {conns : List Hosted} (ha : Accounts server conns)
    (hmem : (k.name, i) ∈ server.connections) :
    server.connections.countP (fun entry => entry.1 = k.name) = 1 := by
  have hcount : (server.connections.map Prod.fst).count k.name = 1 :=
    List.count_eq_one_of_mem ha.keys (List.mem_map.mpr ⟨_, hmem, rfl⟩)
  rw [List.count, List.countP_map] at hcount
  rw [← hcount]
  exact List.countP_congr fun entry _ => by simp

/-- `removeConnectionInLoop` runs on the base loop. -/
theorem Orderly.remove (ho : Orderly s (some i)) (hi : s.conns[i]? = some k)
    (hh : Holding s i k .removing) : Fine (s.invoke 0 (.removeConnectionInLoop i)) := by
  have hmem : (k.name, i) ∈ s.server.connections := hh.mapped.mpr trivial
  set s₀ := s.record 0 i .removeConnectionInLoop with hs₀
  -- Names are different, so that no other connection loses its entry.
  set s₁ : ServerLoops := { s₀ with server := { s₀.server with
    connections := s.server.connections.filter fun entry => entry.1 ≠ k.name } } with hs₁
  have hvalue : s.invoke 0 (.removeConnectionInLoop i) =
      pure (s₁.queueInLoop k.loop [.connectionDestroyed i]) := by
    have hone := countP_entry ho.accounts hmem
    simp only [invoke, removeConnectionInLoop, hi]
    rw [Traced.check_of (p := (s.record 0 i .removeConnectionInLoop).server.connections.countP
      (fun entry => entry.1 = k.name) = 1) hone]
    rfl
  have hentry (entry : String × Nat) : entry ∈ s₁.server.connections ↔
      entry ∈ s.server.connections ∧ entry.1 ≠ k.name := by
    show entry ∈ s.server.connections.filter _ ↔ _
    simp
  have ho₁ : Orderly s₁ (some i) := by
    have ho₀ := ho.record hi 0 .removeConnectionInLoop
    refine ⟨⟨ho.accounts.named, ho.accounts.nextConnId, ho.accounts.bound,
      fun entry hmem' => ho.accounts.entries entry ((hentry entry).mp hmem').1, ?_,
      ho.accounts.apart, ho.accounts.separate, ho.accounts.unlistened, ho.accounts.unstarted⟩,
      fun j h hj hh' => ?_, fun j hj => ?_, ho₀.loops, ho.accepts⟩
    · exact ho.accounts.keys.sublist (List.filter_sublist.map _)
    · obtain ⟨stage, hlives⟩ := ho₀.lives j h hj hh'
      refine ⟨stage, hlives.transfer ⟨fun _ _ _ => rfl, fun _ => Iff.rfl, rfl⟩ ?_⟩
      rw [hentry]
      refine and_iff_left_of_imp fun _ hname => hj ?_
      rw [ho.accounts.name_injective hh' hi hname]
    · exact (ho₀.unseen j hj).transfer ⟨fun _ _ _ => rfl, fun _ => Iff.rfl, rfl⟩
  have hheld : Holding s₁ i k .destroying := by
    refine ⟨hh.conn, ?_, hh.queued, hh.closing, ?_⟩
    · rw [hentry]
      exact iff_of_false (fun hboth => hboth.2 rfl) id
    · show Function.update s.life i (s.life i ++ _) i = _
      rw [Function.update_self, hh.life]
      rfl
  rw [hvalue]
  refine fine_pure ((ho₁.queueInLoop hi rfl k.loop).settle (h := k) hi .destroying (hheld.push rfl))

/-- The next step is queued, or taken at once by the thread that passes it on. -/
theorem Orderly.runInLoop (ho : Orderly s (some i)) (hi : s.conns[i]? = some k)
    (hh : Holding s i k stage) (htoken : stage.token k.loop i = some (m, f))
    (hf : f.lifeOf = some i) (hrun : n = m → Fine (s.invoke m f)) : Fine (s.runInLoop n m f) := by
  unfold ServerLoops.runInLoop
  -- The thread of loop `m` runs the functor at once, and any other one queues it.
  split_ifs with hnm
  · rw [hnm]
    exact hrun hnm
  · exact fine_pure ((ho.queueInLoop hi hf m).settle (h := k) hi stage (hh.push htoken))

/-! ## Steps of a thread -/

theorem Stage.Of.on {c : TcpConnection} (hc : stage.Of c) (poller : EPoller) :
    stage.Of (c.on poller) := by
  cases stage with
  | establishing => exact ⟨hc.state, hc.index⟩
  | up => exact ⟨hc.state, hc.index, hc.reading⟩
  | closing => exact ⟨hc.state, hc.index, hc.idle⟩
  | removing => exact ⟨hc.state, hc.index, hc.idle⟩
  | destroying => exact ⟨hc.state, hc.index, hc.idle⟩
  | destroyed => exact ⟨hc.state, hc.index⟩

theorem Stage.Of.eq_up {c : TcpConnection} (hc : stage.Of c) (hindex : c.channel.index = kAdded) :
    stage = .up := by
  cases stage with
  | up => rfl
  | establishing => exact absurd hindex (by rw [hc.index]; decide)
  | closing => exact absurd hindex (by rw [hc.index]; decide)
  | removing => exact absurd hindex (by rw [hc.index]; decide)
  | destroying => exact absurd hindex (by rw [hc.index]; decide)
  | destroyed => exact absurd hindex (by rw [hc.index]; decide)

theorem Stage.Of.up_of_connected {c : TcpConnection} (hc : stage.Of c)
    (hconnected : c.state = .kConnected) : c.Up := by
  cases stage with
  | up => exact hc
  | establishing => exact absurd hconnected (by rw [hc.state]; decide)
  | closing => exact absurd hconnected (by rw [hc.state]; decide)
  | removing => exact absurd hconnected (by rw [hc.state]; decide)
  | destroying => exact absurd hconnected (by rw [hc.state]; decide)
  | destroyed => exact absurd hconnected (by rw [hc.state]; decide)

/-- A member that keeps the connection in its stage. -/
theorem Orderly.keep (ho : Orderly s none) (hi : s.conns[i]? = some k) (hlives : Lives s i k stage)
    (n : Nat) {x : Traced TcpConnection.Event TcpConnection} (hcalm : TcpConnection.Calm x.trace)
    (hconn : stage.Of x.val) (hfd : x.val.channel.fd = k.conn.channel.fd)
    (hgone : k.conn.Gone → x.val.Gone)
    (hhosts : ∃ registered, ({ s.loops k.loop with poller := x.val.poller }.queueInLoop
        (queuedByConn i x.trace)).Hosts (Function.update (s.hosted k.loop) i (some x.val))
          (accepting s.server k.loop) registered) : Fine (s.performConn n i k x) := by
  have hno := closeCallback_not_mem_of_calm hcalm
  have hsame : SameFor s (s.performConn n i k x).val i :=
    sameFor_performConn n fun hmem => absurd hmem hno
  have hperformed := (ho.release i).performConn hi n hfd hgone (fun hmem => absurd hmem hno) (by
    rw [if_neg hno]
    exact hhosts)
  refine ⟨hperformed.settle (getElem?_performConn hi n x) stage ?_,
    isFailure_of_calm hcalm⟩
  exact ⟨hconn, hlives.mapped, fun m f hf => (hsame.queued m f hf).trans (hlives.queued m f hf),
    fun m => (hsame.closing m).trans (hlives.closing m), hsame.life.trans hlives.life⟩

/-- A member that does nothing. -/
theorem Orderly.still (ho : Orderly s none) (hi : s.conns[i]? = some k) (n : Nat) :
    Fine (s.performConn n i k (pure (k.conn.on (s.loops k.loop).poller))) := by
  obtain ⟨stage, hlives⟩ := ho.lives i k (by simp) hi
  obtain ⟨registered, hhosts⟩ := ho.loops k.loop
  refine ho.keep hi hlives n TcpConnection.silent_nil.calm (hlives.conn.on _) rfl
    (fun hgone => ⟨hgone.state, hgone.index⟩) ⟨registered, ?_⟩
  exact (hhosts.still (hosted_self hi)).queueInLoop []

/-- A member that keeps connections up. -/
theorem Orderly.keeps (ho : Orderly s none) (hi : s.conns[i]? = some k) (hup : k.conn.Up)
    (n : Nat) {registered : Int → Option Channel}
    (hhosts : (s.loops k.loop).Hosts (s.hosted k.loop) (accepting s.server k.loop) registered)
    {x : Traced TcpConnection.Event TcpConnection}
    (hkeeps : TcpConnection.Keeps (k.conn.on (s.loops k.loop).poller) registered x) :
    Fine (s.performConn n i k x) := by
  obtain ⟨stage, hlives⟩ := ho.lives i k (by simp) hi
  obtain rfl := hlives.conn.eq_up hup.index
  refine ho.keep hi hlives n hkeeps.calm hkeeps.serving.toUp hkeeps.fd
    (fun hgone => absurd hup.index (by rw [hgone.index]; decide))
    ⟨TcpConnection.entry registered k.conn x.val, ?_⟩
  exact hhosts.keeps (hosted_self hi) hup hkeeps _

/-- A call of a user. -/
theorem Orderly.userCall (ho : Orderly s none) (hi : s.conns[i]? = some k) (n : Nat)
    {member : TcpConnection → Traced TcpConnection.Event TcpConnection}
    (hkeeps : ∀ {c registered}, c.Serving registered →
      TcpConnection.Keeps c registered (member c))
    (hstill : ∀ {c : TcpConnection}, c.state ≠ .kConnected → member c = pure c) :
    Fine (s.callConn n i member) := by
  rw [callConn_of hi]
  -- `send` and `shutdown` do nothing in any other state than `kConnected`.
  by_cases hconnected : k.conn.state = .kConnected
  · obtain ⟨stage, hlives⟩ := ho.lives i k (by simp) hi
    have hup := hlives.conn.up_of_connected hconnected
    obtain ⟨registered, hhosts⟩ := ho.loops k.loop
    exact ho.keeps hi hup n hhosts (hkeeps (hhosts.hosting.serving (hosted_self hi) hup))
  · rw [hstill (c := k.conn.on (s.loops k.loop).poller) hconnected]
    exact ho.still hi n

/-- A connection is closed by a callback of its event. -/
theorem Orderly.closes (ho : Orderly s none) (hi : s.conns[i]? = some k) (hup : k.conn.Up)
    {registered : Int → Option Channel}
    (hhosts : (s.loops k.loop).Hosts (s.hosted k.loop) (accepting s.server k.loop) registered)
    {x : Traced TcpConnection.Event TcpConnection}
    (hcloses : TcpConnection.Closes (k.conn.on (s.loops k.loop).poller) registered x)
    (hphase : (s.loops k.loop).iteration.phase = .handling)
    (hinactive : .connection i ∉ (s.loops k.loop).iteration.active) {cbs : List ChannelCallback}
    (hhandling : (s.loops k.loop).handling = cbs.map fun cb => (i, cb))
    (honce : IoLoop.ClosesOnce cbs) (hover : .closeCallback ∉ cbs ∧ .readCallback ∉ cbs)
    (hnone : (s.loops k.loop).closing = none) : Fine (s.performConn k.loop i k x) := by
  obtain ⟨stage, hlives⟩ := ho.lives i k (by simp) hi
  obtain rfl := hlives.conn.eq_up hup.index
  obtain ⟨front, hfront, htrace⟩ := hcloses.told
  have hmem : TcpConnection.Event.closeCallback ∈ x.trace := by simp [htrace]
  have hfd : x.val.channel.fd = k.conn.channel.fd := hcloses.fd
  have hperformed := (ho.release i).performConn hi k.loop hfd
    (fun hgone => absurd hup.index (by rw [hgone.index]; decide)) (fun _ => hnone)
    ⟨TcpConnection.entry registered k.conn x.val, by
      rw [if_pos hmem]
      exact hhosts.closes (hosted_self hi) hup hcloses hphase hinactive hhandling honce hover _⟩
  refine ⟨hperformed.settle (getElem?_performConn hi k.loop x) .closing ?_, ?_⟩
  · refine ⟨hcloses.closed.toDown, hlives.mapped, fun m f hf => ?_, fun m => ?_, ?_⟩
    · exact (queuedCount_performConn s k.loop i k x hf).trans (hlives.queued m f hf)
    · show (Function.update s.loops k.loop _ m).closing = some i ↔ _
      by_cases hm : m = k.loop
      · subst hm
        rw [Function.update_self]
        show (if TcpConnection.Event.closeCallback ∈ x.trace then some i
          else (s.loops k.loop).closing) = some i ↔ _
        simp [hmem]
      · rw [Function.update_of_ne hm]
        have hbefore := hlives.closing m
        simpa [hm] using hbefore
    · show (if TcpConnection.Event.closeCallback ∈ x.trace then
        (s.record k.loop i .handleClose).life else s.life) i = _
      rw [if_pos hmem]
      show Function.update s.life i (s.life i ++ _) i = _
      rw [Function.update_self, hlives.life]
      rfl
  · intro e he
    obtain ⟨e', he', rfl⟩ := List.mem_map.mp he
    rw [htrace] at he'
    rcases List.mem_append.mp he' with he' | he'
    · exact isFailure_of_calm hfront.calm _ (List.mem_map.mpr ⟨e', he', rfl⟩)
    · simp only [List.mem_cons, List.not_mem_nil, or_false] at he'
      rcases he' with rfl | rfl <;> rfl

/-- The loop of a thread changes, but nothing of a connection. -/
theorem Orderly.turns (ho : Orderly s none) {l : IoLoop}
    (hhosts : ∃ registered, l.Hosts (s.hosted n) (accepting s.server n) registered)
    (hqueued : l.iteration.queue.queued = (s.loops n).iteration.queue.queued)
    (hclosing : l.closing = (s.loops n).closing)
    (haccepts : .acceptor ∈ l.iteration.active → .acceptor ∈ (s.loops n).iteration.active) :
    Orderly (s.setLoop n l) none :=
  ho.setLoop (by simp) hhosts (fun _ _ _ _ => by rw [hqueued, queuedCount])
    (fun _ _ => by rw [hclosing]) haccepts

/-- The next callback of a connection. -/
theorem Orderly.callback (ho : Orderly s none) {cb : ChannelCallback}
    {handling : List (Nat × ChannelCallback)}
    (hhandling : (s.loops n).handling = (i, cb) :: handling)
    (hnone : (s.loops n).closing = none) (input : TcpConnection.Input) :
    Fine ((s.setLoop n { s.loops n with handling }).callConn n i fun c => c.handle input cb) := by
  obtain ⟨registered, hhosts⟩ := ho.loops n
  have hphase : (s.loops n).iteration.phase = .handling := by
    by_contra hnot
    have hnil := (hhosts.settled hnot).1
    simp [hhandling] at hnil
  cases hhosts.handling with
  | idle hnil => simp [hhandling] at hnil
  | event j c cbs hcbs hj hinactive honce hstage =>
      cases cbs with
      | nil => simp [hhandling] at hcbs
      | cons cb' rest =>
          have hcons := hhandling.symm.trans hcbs
          simp only [List.map_cons, List.cons.injEq, Prod.mk.injEq] at hcons
          obtain ⟨⟨rfl, rfl⟩, rfl⟩ := hcons
          obtain ⟨k, hi, rfl, rfl⟩ := hosted_eq_some.mp hj
          obtain ⟨hfirst, hnodup⟩ := List.nodup_cons.mp honce.nodup
          have honce' : IoLoop.ClosesOnce rest :=
            ⟨hnodup, fun hboth => honce.either ⟨List.mem_cons_of_mem _ hboth.1,
              List.mem_cons_of_mem _ hboth.2⟩⟩
          set l' : IoLoop := { s.loops k.loop with handling := rest.map fun cb => (i, cb) } with hl'
          have hrest : IoLoop.Handling l' (s.hosted k.loop) :=
            .event i k.conn rest rfl hj hinactive honce' (hstage.imp_right fun hdown =>
              ⟨hdown.1, fun hmem => hdown.2.1 (List.mem_cons_of_mem _ hmem),
                fun hmem => hdown.2.2 (List.mem_cons_of_mem _ hmem)⟩)
          have hhosts' := hhosts.handles hphase hrest
          have ho' : Orderly (s.setLoop k.loop l') none := ho.turns ⟨registered, hhosts'⟩ rfl rfl id
          have hi' : (s.setLoop k.loop l').conns[i]? = some k := hi
          have hloop : (s.setLoop k.loop l').loops k.loop = l' := Function.update_self ..
          rw [callConn_of hi', hloop]
          rcases hstage with hup | ⟨hdown, hnoClose, hnoRead⟩
          · have hserving := hhosts'.hosting.serving hj hup
            have hkeeps {x : Traced TcpConnection.Event TcpConnection}
                (hx : TcpConnection.Keeps (k.conn.on l'.poller) registered x) :
                Fine ((s.setLoop k.loop l').performConn k.loop i k x) :=
              ho'.keeps hi' hup k.loop (by rw [hloop]; exact hhosts') (by rw [hloop]; exact hx)
            -- Once it is closed, nothing may be left of the event that would close it again.
            have hcloses {x : Traced TcpConnection.Event TcpConnection}
                (hover : .closeCallback ∉ rest ∧ .readCallback ∉ rest)
                (hx : TcpConnection.Closes (k.conn.on l'.poller) registered x) :
                Fine ((s.setLoop k.loop l').performConn k.loop i k x) :=
              ho'.closes hi' hup (by rw [hloop]; exact hhosts') (by rw [hloop]; exact hx)
                (by rw [hloop]; exact hphase) (by rw [hloop]; exact hinactive) (by rw [hloop])
                honce' hover (by rw [hloop]; exact hnone)
            cases cb with
            | errorCallback =>
                exact hkeeps (TcpConnection.keeps_of_same hserving rfl rfl hserving.state
                  TcpConnection.silent_nil.calm)
            | writeCallback => exact hkeeps (TcpConnection.keeps_handleWrite hserving input.write)
            | closeCallback =>
                refine hcloses ⟨hfirst, fun hmem => ?_⟩ (TcpConnection.closes_handleClose hserving)
                exact honce.either ⟨List.mem_cons_self, List.mem_cons_of_mem _ hmem⟩
            | readCallback =>
                rcases TcpConnection.serving_handle hserving input .readCallback with hx | hx
                · exact hkeeps hx
                · refine hcloses ⟨fun hmem => ?_, hfirst⟩ hx
                  exact honce.either ⟨List.mem_cons_of_mem _ hmem, List.mem_cons_self⟩
          · -- An earlier callback of the event has closed the connection.
            have hnothing : (k.conn.on l'.poller).handle input cb = pure (k.conn.on l'.poller) :=
              TcpConnection.down_handle (c := k.conn.on l'.poller)
                ⟨hdown.state, hdown.index, hdown.idle⟩ input
                ⟨fun heq => hnoClose (heq ▸ List.mem_cons_self),
                  fun heq => hnoRead (heq ▸ List.mem_cons_self)⟩
            have hstill := ho'.still hi' k.loop
            rw [hloop] at hstill
            rw [hnothing]
            exact hstill

end ServerLoops
end Chaonet
