import Chaonet.Server.TcpServer
import Mathlib.Data.Int.CardIntervalMod

/-!
# The loops take turns

`getNextLoop` deals the connections of a server to the loops of its pool, one after the other.  The
pool is started before anything is accepted (`Dormant`), so that connection `i` is on the loop whose
turn it is (`turn`), whatever happens to the connections in between.  So no loop has ever got two
connections more than another one (`connections_balanced`).
-/

namespace Chaonet

open Foundation

namespace ServerLoops

/-- The number of the loop of connection `i`. -/
def turn (numThreads i : Nat) : Nat := if numThreads = 0 then 0 else i % numThreads + 1

/-- How many connections have been made for loop `n`. -/
def made (s : ServerLoops) (n : Nat) : Nat := (s.conns.map Hosted.loop).count n

/-- Nothing is polled, so that nothing can be accepted. -/
structure Dormant (s : ServerLoops) : Prop where
  conns : s.conns = []
  polled : ∀ n fd, (s.loops n).poller.epollSet fd = none
  inactive : ∀ n, .acceptor ∉ (s.loops n).iteration.active

/-- The connections have been dealt out in turn. -/
structure Dealt (numThreads : Nat) (s : ServerLoops) : Prop where
  loops : s.conns.map Hosted.loop = (List.range s.conns.length).map (turn numThreads)
  threads : s.server.threadPool.numThreads = numThreads
  dormant : s.server.started = false →
    s.Dormant ∧ s.server.threadPool.loops = [] ∧ s.server.threadPool.next = 0
  pool : s.server.started = true → s.server.threadPool.loops = List.range' 1 numThreads ∧
    (numThreads ≠ 0 → s.server.threadPool.next = s.conns.length % numThreads)

/-- No connection is made, and the pool stays as it is. -/
structure Same (s t : ServerLoops) : Prop where
  loops : t.conns.map Hosted.loop = s.conns.map Hosted.loop
  pool : t.server.threadPool = s.server.threadPool
  started : t.server.started = s.server.started
  dormant : s.Dormant → t.Dormant

variable {s t u : ServerLoops} {n i numThreads : Nat} {k : Hosted}

theorem Same.refl (s : ServerLoops) : Same s s := ⟨rfl, rfl, rfl, id⟩

theorem Same.trans (h : Same s t) (h' : Same t u) : Same s u :=
  ⟨h'.loops.trans h.loops, h'.pool.trans h.pool, h'.started.trans h.started,
    fun hdormant => h'.dormant (h.dormant hdormant)⟩

theorem Dealt.same (h : Dealt numThreads s) (hsame : Same s t) : Dealt numThreads t := by
  have hlength : t.conns.length = s.conns.length := by
    have hboth := congrArg List.length hsame.loops
    simpa using hboth
  constructor
  case loops =>
    rw [hsame.loops, hlength]
    exact h.loops
  case threads =>
    rw [hsame.pool]
    exact h.threads
  case dormant =>
    intro hnot
    rw [hsame.started] at hnot
    obtain ⟨hdormant, hpool⟩ := h.dormant hnot
    rw [hsame.pool]
    exact ⟨hsame.dormant hdormant, hpool⟩
  case pool =>
    intro hstarted
    rw [hsame.started] at hstarted
    rw [hsame.pool, hlength]
    exact h.pool hstarted

/-! ## Turns -/

/-- The loop of thread `r + 1` has got one connection of every `numThreads`. -/
theorem count_turn {r : Nat} (hr : r < numThreads) (count : Nat) :
    ((List.range count).map (turn numThreads)).count (r + 1) =
      count.count (· ≡ r [MOD numThreads]) := by
  have hturn (i : Nat) : turn numThreads i = r + 1 ↔ i ≡ r [MOD numThreads] := by
    rw [turn, if_neg (Nat.ne_zero_of_lt hr), Nat.add_right_cancel_iff, Nat.ModEq,
      Nat.mod_eq_of_lt hr]
  induction count with
  | zero => rfl
  | succ count ih =>
      rw [List.range_succ, List.map_append, List.count_append, ih, Nat.count_succ,
        List.map_singleton, List.count_singleton]
      simp only [beq_iff_eq, hturn]

/-! ## Steps that make no connection -/

theorem same_setLoop {l : IoLoop} (hpoller : l.poller = (s.loops n).poller)
    (hactive : .acceptor ∈ l.iteration.active → .acceptor ∈ (s.loops n).iteration.active) :
    Same s (s.setLoop n l) := by
  refine ⟨rfl, rfl, rfl, fun hdormant => ⟨hdormant.conns, fun m fd => ?_, fun m => ?_⟩⟩
  · by_cases hm : m = n
    · subst hm
      simpa [setLoop, hpoller] using hdormant.polled m fd
    · simpa [setLoop, Function.update_of_ne hm] using hdormant.polled m fd
  · by_cases hm : m = n
    · subst hm
      simpa [setLoop] using fun hmem => hdormant.inactive m (hactive hmem)
    · simpa [setLoop, Function.update_of_ne hm] using hdormant.inactive m

theorem same_queueInLoop (s : ServerLoops) (n : Nat) (functors : List ServerFunctor) :
    Same s (s.queueInLoop n functors) := same_setLoop rfl id

/-- The names in `connections_` and the lives may change. -/
theorem same_of_loops (hconns : t.conns = s.conns) (hloops : t.loops = s.loops)
    (hpool : t.server.threadPool = s.server.threadPool)
    (hstarted : t.server.started = s.server.started) : Same s t := by
  refine ⟨by rw [hconns], hpool, hstarted, fun hdormant => ⟨?_, ?_, ?_⟩⟩
  · rw [hconns]
    exact hdormant.conns
  · rw [hloops]
    exact hdormant.polled
  · rw [hloops]
    exact hdormant.inactive

theorem same_record (s : ServerLoops) (n i : Nat) (step : LifeStep) : Same s (s.record n i step) :=
  same_of_loops rfl rfl rfl rfl

/-- A connection stays on its loop. -/
theorem map_loop_set (hi : s.conns[i]? = some k) (conn : TcpConnection) :
    (s.conns.set i { k with conn }).map Hosted.loop = s.conns.map Hosted.loop := by
  obtain ⟨hlt, rfl⟩ := List.getElem?_eq_some_iff.mp hi
  rw [List.map_set, ← List.getElem_map Hosted.loop (h := by simpa using hlt),
    List.set_getElem_self]

theorem same_of_conn (hi : s.conns[i]? = some k)
    (hloops : t.conns.map Hosted.loop = s.conns.map Hosted.loop) (hserver : t.server = s.server) :
    Same s t := by
  refine ⟨hloops, by rw [hserver], by rw [hserver], fun hdormant => ?_⟩
  rw [hdormant.conns] at hi
  simp at hi

theorem same_callConn (s : ServerLoops) (n i : Nat)
    (member : TcpConnection → Traced TcpConnection.Event TcpConnection) :
    Same s (s.callConn n i member).val := by
  unfold callConn
  cases hi : s.conns[i]? with
  | none => exact Same.refl s
  | some h => exact same_of_conn hi (map_loop_set hi _) rfl

theorem same_removeConnectionInLoop (s : ServerLoops) (n i : Nat) :
    Same s (s.removeConnectionInLoop n i).val := by
  unfold removeConnectionInLoop
  cases hi : s.conns[i]? with
  | none => exact Same.refl s
  | some h =>
      refine ((same_record s n i .removeConnectionInLoop).trans ?_).trans (same_queueInLoop _ _ _)
      exact same_of_loops rfl rfl rfl rfl

theorem same_invoke (s : ServerLoops) (n : Nat) (f : ServerFunctor) :
    Same s (s.invoke n f).val := by
  cases f with
  | connectionEstablished i => exact (same_record s n i _).trans (same_callConn _ n i _)
  | removeConnectionInLoop i => exact same_removeConnectionInLoop s n i
  | connectionDestroyed i => exact (same_record s n i _).trans (same_callConn _ n i _)
  | user i f => exact Same.refl s

theorem same_runInLoop (s : ServerLoops) (n loop : Nat) (f : ServerFunctor) :
    Same s (s.runInLoop n loop f).val := by
  unfold runInLoop
  split_ifs
  · exact same_invoke s n f
  · exact same_queueInLoop s loop [f]

/-! ## Starting, and a new connection -/

theorem Dealt.listen (h : Dealt numThreads s) (hstarted : s.server.started = true) :
    Dealt numThreads s.listen.val := by
  have hnot : s.listen.val.server.started ≠ false := by
    rw [show s.listen.val.server.started = s.server.started from rfl, hstarted]
    decide
  exact ⟨h.loops, h.threads, fun hno => absurd hno hnot, fun _ => h.pool hstarted⟩

theorem Dealt.start (h : Dealt numThreads s) : Dealt numThreads s.start.val := by
  -- What the first branch leaves, and then the second one.
  have hlistens {u : ServerLoops} (hu : Dealt numThreads u) (hstarted : u.server.started = true) :
      Dealt numThreads
        (if u.server.acceptor.listening = false then u.listen else pure u : Traced _ _).val := by
    split_ifs
    · exact hu.listen hstarted
    · exact hu
  unfold ServerLoops.start
  by_cases hstarted : s.server.started = false
  · obtain ⟨hdormant, hloops, hnext⟩ := h.dormant hstarted
    rw [if_pos hstarted]
    refine hlistens ⟨h.loops, h.threads, fun hno => ?_, fun _ => ⟨?_, fun _ => ?_⟩⟩ rfl
    · exact absurd (show true = false from hno) (by decide)
    · show s.server.threadPool.loops ++ List.range' 1 s.server.threadPool.numThreads = _
      rw [hloops, h.threads, List.nil_append]
    · show s.server.threadPool.next = s.conns.length % numThreads
      rw [hnext, hdormant.conns]
      exact (Nat.zero_mod numThreads).symm
  · rw [if_neg hstarted]
    exact hlistens h (by simpa using hstarted)

/-- What `getNextLoop` returns, and what it leaves. -/
theorem getNextLoop_turn {p : EventLoopThreadPool} {made : Nat}
    (hloops : p.loops = List.range' 1 numThreads)
    (hnext : numThreads ≠ 0 → p.next = made % numThreads) :
    p.getNextLoop.1 = turn numThreads made ∧ p.getNextLoop.2.loops = p.loops ∧
      p.getNextLoop.2.numThreads = p.numThreads ∧
      (numThreads ≠ 0 → p.getNextLoop.2.next = (made + 1) % numThreads) := by
  unfold EventLoopThreadPool.getNextLoop turn
  by_cases hnone : numThreads = 0
  · have hnil : p.loops = [] := by rw [hloops, hnone, List.range'_zero]
    rw [dif_pos hnil, if_pos hnone]
    exact ⟨rfl, rfl, rfl, fun hsome => absurd hnone hsome⟩
  · have hlength : p.loops.length = numThreads := by rw [hloops, List.length_range']
    have hsome : p.loops ≠ [] := by
      rintro hnil
      rw [hnil, List.length_nil] at hlength
      exact hnone hlength.symm
    have hlt : made % numThreads < numThreads := Nat.mod_lt _ (Nat.pos_of_ne_zero hnone)
    have hget : p.loops[p.next]? = some (made % numThreads + 1) := by
      rw [hloops, hnext hnone, List.getElem?_range' hlt, Nat.one_mul, Nat.add_comm]
    rw [dif_neg hsome, if_neg hnone]
    refine ⟨(List.getElem?_eq_some_iff.mp hget).2, rfl, rfl, fun _ => ?_⟩
    show (if p.loops.length ≤ p.next + 1 then 0 else p.next + 1) = _
    rw [hlength, hnext hnone, ← Nat.mod_add_mod]
    split_ifs with hlast
    · have heq : made % numThreads + 1 = numThreads := Nat.le_antisymm hlt hlast
      rw [heq, Nat.mod_self]
    · exact (Nat.mod_eq_of_lt (Nat.lt_of_not_le hlast)).symm

theorem Dealt.addConnection (h : Dealt numThreads s) (hstarted : s.server.started = true)
    (conn : TcpConnection) : Dealt numThreads (s.addConnection conn) := by
  obtain ⟨hloops, hnext⟩ := h.pool hstarted
  obtain ⟨hloop, hsame, hthreads, hnext'⟩ := getNextLoop_turn hloops hnext
  refine ⟨?_, hthreads.trans h.threads, fun hno => ?_,
    fun _ => ⟨hsame.trans hloops, fun hsome => ?_⟩⟩
  · show (s.conns ++ [_]).map Hosted.loop = (List.range (s.conns ++ [_]).length).map _
    rw [List.map_append, h.loops, List.length_append, List.length_singleton, List.range_succ,
      List.map_append, List.map_singleton, List.map_singleton, hloop]
  · exact absurd (hstarted.symm.trans hno) (by decide)
  · show _ = (s.conns ++ [_]).length % numThreads
    rw [List.length_append, List.length_singleton]
    exact hnext' hsome

theorem Dealt.newConnection (h : Dealt numThreads s) (hstarted : s.server.started = true)
    (n : Nat) (sockfd : Int) (ptr : ChannelPtr) :
    Dealt numThreads (s.newConnection n sockfd ptr).val :=
  (h.addConnection hstarted _).same (same_runInLoop _ _ _ _)

/-! ## Runs -/

/-- The loop goes on, and its active channels are those it has had. -/
theorem same_iteration {iteration : Iteration ServerChannel ServerFunctor}
    (hactive : .acceptor ∈ iteration.active → .acceptor ∈ (s.loops n).iteration.active) :
    Same s (s.setLoop n { s.loops n with iteration }) := same_setLoop rfl hactive

theorem Dealt.step {l : Label} {es : List Event} (h : Dealt numThreads s) (hstep : Step s l es t) :
    Dealt numThreads t := by
  have hcases := advance_cases (show s.advance l = some ⟨t, es⟩ from hstep)
  cases l with
  | start =>
      have ht : t = s.start.val := congrArg Traced.val hcases
      rw [ht]
      exact h.start
  | send i message r =>
      obtain ⟨k, -, heq⟩ := hcases
      obtain rfl : t = _ := congrArg Traced.val heq
      exact h.same (same_callConn s _ i _)
  | shutdown i =>
      obtain ⟨k, -, heq⟩ := hcases
      obtain rfl : t = _ := congrArg Traced.val heq
      exact h.same (same_callConn s _ i _)
  | activate n o revents =>
      cases o with
      | acceptor =>
          obtain ⟨rfl, hpolled, iteration, hiteration, heq⟩ := hcases
          obtain rfl : t = _ := congrArg Traced.val heq
          refine h.same ⟨rfl, rfl, rfl, fun hdormant => ?_⟩
          exact absurd (hdormant.polled 0 _) hpolled
      | connection i =>
          obtain ⟨k, hi, -, -, -, iteration, -, heq⟩ := hcases
          obtain rfl : t = _ := congrArg Traced.val heq
          exact h.same (same_of_conn hi (map_loop_set hi _) rfl)
  | wake n =>
      obtain ⟨-, iteration, hiteration, heq⟩ := hcases
      obtain rfl : t = _ := congrArg Traced.val heq
      obtain ⟨-, rfl⟩ := Iteration.wake_eq_some.mp hiteration
      exact h.same (same_iteration id)
  | handleEvent n connfd ptr =>
      obtain ⟨-, ⟨iteration, hnext, heq⟩ | ⟨i, k, iteration, hnext, -, heq⟩⟩ := hcases
      · obtain ⟨-, hactive, -⟩ := Iteration.next_eq_some.mp hnext
        have hstarted : s.server.started = true := by
          by_contra hnot
          obtain ⟨hdormant, -⟩ := h.dormant (by simpa using hnot)
          exact hdormant.inactive n (hactive ▸ List.mem_cons_self)
        have hsame : Dealt numThreads (s.setLoop n { s.loops n with iteration }) :=
          h.same (same_iteration fun hmem => hactive ▸ List.mem_cons_of_mem _ hmem)
        rcases heq with heq | heq
        · obtain rfl : t = _ := congrArg Traced.val heq
          unfold handleRead
          split_ifs
          · exact hsame.newConnection hstarted n connfd ptr
          · exact hsame
        · obtain rfl : t = _ := congrArg Traced.val heq
          exact hsame
      · obtain rfl : t = _ := congrArg Traced.val heq
        obtain ⟨-, hactive, -⟩ := Iteration.next_eq_some.mp hnext
        exact h.same (same_setLoop rfl fun hmem => hactive ▸ List.mem_cons_of_mem _ hmem)
  | callback n input =>
      obtain ⟨i, cb, handling, -, -, heq⟩ := hcases
      obtain rfl : t = _ := congrArg Traced.val heq
      refine Dealt.same ?_ (same_callConn _ n i _)
      exact h.same (same_setLoop rfl id)
  | closeCallback n =>
      obtain ⟨i, -, heq⟩ := hcases
      obtain rfl : t = _ := congrArg Traced.val heq
      refine Dealt.same ?_ (same_runInLoop _ n 0 _)
      exact h.same (same_setLoop rfl id)
  | swap n =>
      obtain ⟨-, iteration, hiteration, heq⟩ := hcases
      obtain rfl : t = _ := congrArg Traced.val heq
      obtain ⟨-, -, rfl⟩ := Iteration.swap_eq_some.mp hiteration
      exact h.same (same_iteration id)
  | runFunctor n =>
      obtain ⟨f, iteration, hiteration, heq⟩ := hcases
      obtain rfl : t = _ := congrArg Traced.val heq
      obtain ⟨-, rest, -, rfl⟩ := Iteration.nextFunctor_eq_some.mp hiteration
      refine Dealt.same ?_ (same_invoke _ n f)
      exact h.same (same_iteration id)
  | finish n =>
      obtain ⟨-, iteration, hiteration, heq⟩ := hcases
      obtain rfl : t = _ := congrArg Traced.val heq
      obtain ⟨-, -, rfl⟩ := Iteration.finish_eq_some.mp hiteration
      exact h.same (same_iteration id)

theorem dealt_create (name : String) (fd : Int) (ptr : ChannelPtr) (numThreads : Nat)
    (writeComplete : Bool) : Dealt numThreads (create name fd ptr numThreads writeComplete) :=
  ⟨rfl, rfl, fun _ => ⟨⟨rfl, fun _ _ => rfl, fun _ => List.not_mem_nil⟩, rfl, rfl⟩,
    fun hyes => absurd (show false = true from hyes) (by decide)⟩

/-- **The connections are dealt out in turn.**  In every run of a server connection `i` is on the
loop whose turn it is, and stays there; if there are threads, then no loop has ever been given two
connections more than another one, and without threads all are on the base loop. -/
theorem connections_balanced {name : String} {fd : Int} {ptr : ChannelPtr} {writeComplete : Bool}
    {ls : List Label} {es : List Event}
    (hrun : Run Step (create name fd ptr numThreads writeComplete) ls es s) :
    (∀ i h, s.conns[i]? = some h → h.loop = turn numThreads i) ∧
      ∀ n < numThreads, ∀ m < numThreads, s.made (n + 1) ≤ s.made (m + 1) + 1 := by
  have h : Dealt numThreads s :=
    hrun.invariant (dealt_create name fd ptr numThreads writeComplete)
      fun _ _ _ _ hs hstep => hs.step hstep
  refine ⟨fun i k hi => ?_, fun n hn m hm => ?_⟩
  · have hloop : (s.conns.map Hosted.loop)[i]? = some k.loop := by
      rw [List.getElem?_map, hi, Option.map_some]
    rw [h.loops, List.getElem?_map, List.getElem?_range (List.getElem?_eq_some_iff.mp hi).1,
      Option.map_some] at hloop
    exact (Option.some.inj hloop).symm
  · have hpos : 0 < numThreads := Nat.zero_lt_of_lt hn
    rw [made, made, h.loops, count_turn hn, count_turn hm, Nat.count_modEq_card _ hpos,
      Nat.count_modEq_card _ hpos]
    split_ifs <;> omega

/-- Two connections are accepted in two iterations of the base loop. -/
def acceptedTwice : List Label :=
  [.start, .activate 0 .acceptor POLLIN, .wake 0, .handleEvent 0 9 2, .swap 0, .finish 0,
    .activate 0 .acceptor POLLIN, .wake 0, .handleEvent 0 10 3]

/-- Of two connections and two threads each gets one. -/
theorem connections_balanced_twoThreads :
    ∃ es t, Run Step (create "s" 3 1 2 false) acceptedTwice es t ∧ t.conns.length = 2 ∧
      (∀ i h, t.conns[i]? = some h → h.loop = turn 2 i) ∧ t.made 1 ≤ t.made 2 + 1 := by
  obtain ⟨es, t, hrun, hlength⟩ : ∃ es t,
      Run Step (create "s" 3 1 2 false) acceptedTwice es t ∧ t.conns.length = 2 :=
    Run.exists_of_exec _ (by decide +kernel)
  obtain ⟨hturn, hbalanced⟩ := connections_balanced hrun
  exact ⟨es, t, hrun, hlength, hturn, hbalanced 0 (by decide) 1 (by decide)⟩

end ServerLoops
end Chaonet
