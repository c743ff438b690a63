import Chaonet.Buffer.Lines
import Chaonet.Connection.Service

/-!
# Servers that answer requests

The message callback takes requests out of the input buffer and answers them, and some reply is the
last one: the connection is shut down after it.  An `Exchange` says what the requests of a stream
are and what they are answered with.  `Replies` is what holds of such a server at any time: the
requests are those of the stream that has been read, however it has been cut into pieces; each of
them has been answered once, in their order and up to the last reply; and the `FIN` follows the
whole of the last reply.

Of a server it has to be shown that each request is answered by one member call (`Responds`).
-/

namespace Chaonet

open Foundation

open Service (handed connEvents Ended)
open TcpConnection (Buffered Passes)

/-- How requests come in a stream, and what they are answered with. -/
structure Exchange (β ρ : Type) where
  /-- The first requests of a stream, and what is left behind them. -/
  Takes : Bytes → List β → Bytes → Prop
  append {s rest : Bytes} {taken : List β} :
    Takes s taken rest → ∀ more, Takes (s ++ more) taken (rest ++ more)
  Answer : β → ρ → Prop
  bytes : ρ → Bytes
  /-- The reply is the last one. -/
  Closes : β → ρ → Prop

namespace Exchange

variable {β ρ ε : Type}

/-- Lines that are answered with bytes. -/
def ofLines (answer : Bytes → Bytes → Prop) (closes : Bytes → Prop) : Exchange Bytes Bytes where
  Takes := Buffer.lines.Takes
  append h more := h.append more
  Answer := answer
  bytes := id
  Closes line _ := closes line

/-- The requests with their replies. -/
structure Replies (exchange : Exchange β ρ) (past : List (Service.Event ε)) (stream : Bytes)
    (c : TcpConnection) (taken : List β) (replies : List (β × ρ)) : Prop where
  buffered : Buffered c
  takes : exchange.Takes stream taken c.inputBuffer.content
  answered : replies.map Prod.fst <+: taken
  right : ∀ p ∈ replies, exchange.Answer p.1 p.2
  handed : handed past c = replies.flatMap fun p => exchange.bytes p.2
  stillOpen : ∀ p ∈ replies.dropLast, ¬exchange.Closes p.1 p.2
  up : c.state = .kConnected →
    replies.map Prod.fst = taken ∧ ∀ p ∈ replies, ¬exchange.Closes p.1 p.2
  closing : c.state = .kDisconnecting ∨ Ended past →
    ∃ p ∈ replies.getLast?, exchange.Closes p.1 p.2
  fin : Ended past → c.state ≠ .kConnected ∧ c.outputBuffer.content = []

/-- A member that takes a request out of the input buffer, which leaves `rest`, and answers it. -/
structure Responds (c : TcpConnection) (rest bytes : Bytes) (closes : Prop)
    (x : Traced TcpConnection.Event TcpConnection) : Prop where
  buffered : Buffered x.val
  input : x.val.inputBuffer.content = rest
  sent : c.state = .kConnected →
    TcpConnection.bytesWritten x.trace ++ x.val.outputBuffer.content =
      c.outputBuffer.content ++ bytes
  closed : c.state = .kConnected → closes → x.val.state = .kDisconnecting
  kept : c.state = .kConnected → ¬closes → x.val.state = .kConnected
  fin : .shutdownWrite ∈ x.trace → x.val.state = .kDisconnecting ∧ x.val.outputBuffer.content = []
  dropped : c.state ≠ .kConnected →
    x.trace = [] ∧ x.val.state = c.state ∧ x.val.outputBuffer = c.outputBuffer

variable {exchange : Exchange β ρ} {past : List (Service.Event ε)} {stream : Bytes}
  {c : TcpConnection} {taken : List β} {replies : List (β × ρ)}

/-- A member that may read or close, and sends nothing. -/
theorem Replies.quiet (h : exchange.Replies past stream c taken replies) {read : Bytes}
    {x : Traced TcpConnection.Event TcpConnection} (hx : Passes c read [] x)
    (hstate : x.val.state = c.state ∨ x.val.state = .kDisconnected)
    (hfin : .shutdownWrite ∈ x.trace → c.state = .kDisconnecting ∧
      x.val.state = .kDisconnecting ∧ x.val.outputBuffer.content = []) :
    exchange.Replies (past ++ x.trace.map .conn) (stream ++ read) x.val taken replies := by
  have hended := Service.ended_member past x.trace
  constructor
  case buffered => exact hx.buffered
  case takes =>
    rw [hx.input]
    exact exchange.append h.takes read
  case answered => exact h.answered
  case right => exact h.right
  case handed =>
    rw [Service.handed_member past hx, List.append_nil]
    exact h.handed
  case stillOpen => exact h.stillOpen
  case up =>
    intro hup
    exact h.up (TcpConnection.up_of_or hstate hup)
  case closing =>
    intro hdown
    rw [hended] at hdown
    rcases hdown with hdown | hbefore | hnow
    · refine h.closing (.inl ?_)
      rcases hstate with hsame | hclosed
      · exact hsame.symm.trans hdown
      · exact absurd (hclosed.symm.trans hdown) (by decide)
    · exact h.closing (.inr hbefore)
    · exact h.closing (.inl (hfin hnow).1)
  case fin =>
    intro hdown
    rcases hended.mp hdown with hbefore | hnow
    · obtain ⟨hup, hempty⟩ := h.fin hbefore
      refine ⟨fun hagain => hup (TcpConnection.up_of_or hstate hagain), ?_⟩
      have houtput := hx.output
      rw [hempty, List.append_nil] at houtput
      exact (List.append_eq_nil_iff.mp houtput).2
    · obtain ⟨-, hdisconnecting, hempty⟩ := hfin hnow
      exact ⟨by rw [hdisconnecting]; decide, hempty⟩

/-- What the user shows. -/
theorem Replies.shown (h : exchange.Replies past stream c taken replies)
    (es : List (Service.Event ε)) (hes : connEvents es = []) :
    exchange.Replies (past ++ es) stream c taken replies := by
  have hhanded : Service.handed (past ++ es) c = Service.handed past c := by
    simp [Service.handed, Service.written, hes]
  have hended : Ended (past ++ es) ↔ Ended past := by
    simp [Ended, hes]
  exact ⟨h.buffered, h.takes, h.answered, h.right, hhanded.trans h.handed, h.stillOpen, h.up,
    fun hdown => h.closing (hdown.imp_right hended.mp), fun hdown => h.fin (hended.mp hdown)⟩

/-- The connection is not up, and nothing is answered any more. -/
theorem Replies.ignored (h : exchange.Replies past stream c taken replies)
    (hdown : c.state ≠ .kConnected) {c' : TcpConnection} (hbuffered : Buffered c')
    (hstate : c'.state = c.state) (houtput : c'.outputBuffer = c.outputBuffer) {taken' : List β}
    (htakes : exchange.Takes stream taken' c'.inputBuffer.content) (hmore : taken <+: taken') :
    exchange.Replies past stream c' taken' replies := by
  refine ⟨hbuffered, htakes, h.answered.trans hmore, h.right, ?_, h.stillOpen,
    fun hup => absurd (hstate ▸ hup) hdown, ?_, ?_⟩
  · rw [Service.handed, houtput]
    exact h.handed
  · rw [hstate]
    exact h.closing
  · rw [hstate, houtput]
    exact h.fin

/-- A request is taken, and answered if the connection is up. -/
theorem Replies.respond (h : exchange.Replies past stream c taken replies) {q : β} {reply : ρ}
    (hright : exchange.Answer q reply) {rest : Bytes} {x : Traced TcpConnection.Event TcpConnection}
    (hx : Responds c rest (exchange.bytes reply) (exchange.Closes q reply) x)
    (htakes : exchange.Takes stream (taken ++ [q]) rest) :
    ∃ replies', exchange.Replies (past ++ x.trace.map .conn) stream x.val (taken ++ [q])
      replies' := by
  rw [← hx.input] at htakes
  have hended := Service.ended_member past x.trace
  by_cases hup : c.state = .kConnected
  · obtain ⟨hall, hopen⟩ := h.up hup
    have hnot : ¬Ended past := fun hdown => (h.fin hdown).1 hup
    have hall' : (replies ++ [(q, reply)]).map Prod.fst = taken ++ [q] := by
      rw [List.map_append, hall, List.map_singleton]
    refine ⟨replies ++ [(q, reply)], ?_⟩
    constructor
    case buffered => exact hx.buffered
    case takes => exact htakes
    case answered => rw [hall']
    case right =>
      intro p hp
      rcases List.mem_append.mp hp with hp | hp
      · exact h.right p hp
      · obtain rfl := List.mem_singleton.mp hp
        exact hright
    case handed =>
      have hbefore := h.handed
      simp only [Service.handed, Service.written, Service.connEvents_append,
        Service.connEvents_map_conn, TcpConnection.bytesWritten_append] at hbefore ⊢
      rw [List.append_assoc, hx.sent hup, ← List.append_assoc, hbefore]
      simp
    case stillOpen =>
      rw [List.dropLast_concat]
      exact hopen
    case up =>
      intro hstill
      refine ⟨hall', fun p hp => ?_⟩
      rcases List.mem_append.mp hp with hp | hp
      · exact hopen p hp
      · obtain rfl := List.mem_singleton.mp hp
        exact fun hcloses => absurd ((hx.closed hup hcloses).symm.trans hstill) (by decide)
    case closing =>
      intro hdown
      refine ⟨(q, reply), by simp, ?_⟩
      by_contra hopen'
      have hstill := hx.kept hup hopen'
      rw [hended] at hdown
      rcases hdown with hdown | hbefore | hnow
      · exact absurd (hstill.symm.trans hdown) (by decide)
      · exact hnot hbefore
      · exact absurd (hstill.symm.trans (hx.fin hnow).1) (by decide)
    case fin =>
      intro hdown
      have hnow := (hended.mp hdown).resolve_left hnot
      obtain ⟨hdisconnecting, hempty⟩ := hx.fin hnow
      exact ⟨by rw [hdisconnecting]; decide, hempty⟩
  · obtain ⟨htrace, hstate, houtput⟩ := hx.dropped hup
    have hpast : past ++ x.trace.map .conn = past := by
      rw [htrace, List.map_nil, List.append_nil]
    rw [hpast]
    exact ⟨replies, h.ignored hup hx.buffered hstate houtput htakes (List.prefix_append _ _)⟩

/-! ## Answers -/

/-- A request is taken, and nothing has been sent for it yet. -/
theorem responds_nothing (h : Buffered c) {inputBuffer : Buffer} (hvalid : inputBuffer.Valid) :
    Responds c inputBuffer.content [] False (pure { c with inputBuffer }) := by
  constructor
  case buffered => exact ⟨hvalid, h.output, h.interest, h.idle⟩
  case input => rfl
  case sent => exact fun _ => (List.append_nil _).symm
  case closed => exact fun _ hcloses => hcloses.elim
  case kept => exact fun hup _ => hup
  case fin => exact fun hfin => absurd hfin List.not_mem_nil
  case dropped => exact fun _ => ⟨rfl, rfl, rfl⟩

/-- An answer that is not the last one does not send the `FIN`. -/
theorem Responds.unended {rest bytes : Bytes} {x : Traced TcpConnection.Event TcpConnection}
    (hx : Responds c rest bytes False x) : .shutdownWrite ∉ x.trace := by
  intro hfin
  obtain ⟨hdisconnecting, -⟩ := hx.fin hfin
  by_cases hup : c.state = .kConnected
  · exact absurd ((hx.kept hup not_false).symm.trans hdisconnecting) (by decide)
  · rw [(hx.dropped hup).1] at hfin
    exact absurd hfin List.not_mem_nil

/-- More bytes of an answer. -/
theorem Responds.send {rest bytes : Bytes} {x : Traced TcpConnection.Event TcpConnection}
    (hx : Responds c rest bytes False x) (more : Bytes) (r : WriteResult) :
    Responds c rest (bytes ++ more) False (x >>= fun c => c.send more r) := by
  have hsend := TcpConnection.passes_send hx.buffered more r
  constructor
  case buffered => exact hsend.buffered
  case input =>
    rw [Traced.bind_val, hsend.input, List.append_nil]
    exact hx.input
  case sent =>
    intro hup
    have hbefore := hx.sent hup
    rw [Traced.bind_trace, Traced.bind_val, TcpConnection.bytesWritten_append, List.append_assoc,
      hsend.output, if_pos (hx.kept hup not_false), ← List.append_assoc, hbefore,
      List.append_assoc]
  case closed => exact fun _ hcloses => hcloses.elim
  case kept =>
    intro hup hopen
    exact (TcpConnection.send_state _ _ _).trans (hx.kept hup hopen)
  case fin =>
    intro hfin
    rw [Traced.bind_trace, List.mem_append] at hfin
    rcases hfin with hfin | hfin
    · exact absurd hfin hx.unended
    · exact absurd hfin (TcpConnection.shutdownWrite_not_mem_send _ _ _)
  case dropped =>
    intro hnot
    obtain ⟨htrace, hstate, houtput⟩ := hx.dropped hnot
    have hnothing : x.val.send more r = pure x.val := if_neg (hstate ▸ hnot)
    rw [Traced.bind_trace, Traced.bind_val, hnothing, htrace]
    exact ⟨rfl, hstate, houtput⟩

/-- An answer that is not the last one. -/
theorem Responds.stays {rest bytes : Bytes} {x : Traced TcpConnection.Event TcpConnection}
    (hx : Responds c rest bytes False x) {closes : Prop} (hopen : ¬closes) :
    Responds c rest bytes closes x :=
  ⟨hx.buffered, hx.input, hx.sent, fun _ hcloses => absurd hcloses hopen,
    fun hup _ => hx.kept hup not_false, hx.fin, hx.dropped⟩

/-- A request is answered, and the connection stays as it is. -/
theorem responds_send (h : Buffered c) {inputBuffer : Buffer} (hvalid : inputBuffer.Valid)
    (bytes : Bytes) (r : WriteResult) {closes : Prop} (hopen : ¬closes) :
    Responds c inputBuffer.content bytes closes ({ c with inputBuffer }.send bytes r) :=
  ((responds_nothing h hvalid).send bytes r).stays hopen

/-- The last answer. -/
theorem Responds.shutdown {rest bytes : Bytes} {x : Traced TcpConnection.Event TcpConnection}
    (hx : Responds c rest bytes False x) {closes : Prop} (hcloses : closes) :
    Responds c rest bytes closes (x >>= TcpConnection.shutdown) := by
  have hshut := TcpConnection.passes_shutdown hx.buffered
  have hdown (hup : x.val.state = .kConnected) :
      x.val.shutdown.val.state = .kDisconnecting := by
    unfold TcpConnection.shutdown
    rw [if_pos hup]
    rfl
  constructor
  case buffered => exact hshut.buffered
  case input =>
    rw [Traced.bind_val, hshut.input, List.append_nil]
    exact hx.input
  case sent =>
    intro hup
    rw [Traced.bind_trace, Traced.bind_val, TcpConnection.bytesWritten_append, List.append_assoc,
      hshut.output, List.append_nil]
    exact hx.sent hup
  case closed => exact fun hup _ => hdown (hx.kept hup not_false)
  case kept => exact fun _ hopen => absurd hcloses hopen
  case fin =>
    intro hfin
    rw [Traced.bind_trace, List.mem_append] at hfin
    rcases hfin with hfin | hfin
    · exact absurd hfin hx.unended
    · obtain ⟨hup, hempty⟩ := TcpConnection.shutdown_fin hx.buffered hfin
      have hsame : x.val.shutdown.val.outputBuffer = x.val.outputBuffer := by
        unfold TcpConnection.shutdown
        rw [if_pos hup]
        rfl
      refine ⟨hdown hup, ?_⟩
      rw [Traced.bind_val, hsame]
      exact hempty
  case dropped =>
    intro hnot
    obtain ⟨htrace, hstate, houtput⟩ := hx.dropped hnot
    have hnothing : x.val.shutdown = pure x.val := if_neg (hstate ▸ hnot)
    rw [Traced.bind_trace, Traced.bind_val, hnothing, htrace]
    exact ⟨rfl, hstate, houtput⟩

/-! ## Runs -/

/-- The requests have been answered.  `user` holds of the user and of the requests that have been
taken, and `rest` of what a message callback has left. -/
def Answers {υ : Type} (exchange : Exchange β ρ) (user : υ → List β → Prop)
    (rest : υ → List β → Bytes → Prop) (past : List (Service.Event ε)) (stream : Bytes) (u : υ)
    (c : TcpConnection) : Prop :=
  ∃ taken replies, exchange.Replies past stream c taken replies ∧ user u taken ∧
    rest u taken c.inputBuffer.content

variable {υ ω : Type} {service : Service υ ω ε} {user : υ → List β → Prop}
  {rest : υ → List β → Bytes → Prop}

/-- A server whose message callback answers requests, and that does nothing otherwise. -/
theorem kept_answers
    (hmessage : ∀ past stream u (c : TcpConnection) w taken replies,
      exchange.Replies past stream c taken replies → user u taken →
        exchange.Answers user rest (past ++ (service.onMessage u c w).trace) stream
          (service.onMessage u c w).val.1 (service.onMessage u c w).val.2)
    (hcomplete : ∀ u c w, service.onWriteComplete u c w = pure (u, c)) :
    Served.Kept service fun past stream u c _ =>
      exchange.Answers user rest past stream u c := by
  constructor
  case revents =>
    rintro past stream u c fs revents ⟨taken, replies, h, huser, hrest⟩
    exact ⟨taken, replies, ⟨h.buffered.revents revents, h.takes, h.answered, h.right, h.handed,
      h.stillOpen, h.up, h.closing, h.fin⟩, huser, hrest⟩
  case event =>
    rintro past stream u c fs cb read write w ⟨taken, replies, h, huser, hrest⟩
    have hx := TcpConnection.passes_handle h.buffered read write cb
    have hstate := TcpConnection.handle_state c read write cb
    have hfin (hmem : .shutdownWrite ∈ (c.handle ⟨read, 0, write⟩ cb).trace) :=
      TcpConnection.handle_fin h.buffered hmem
    have hquiet (hnot : .messageCallback ∉ (c.handle ⟨read, 0, write⟩ cb).trace) :=
      TcpConnection.received_of_handle_quiet h.buffered hnot
    have hhandled := h.quiet hx hstate hfin
    dsimp only
    unfold Service.onEvent
    generalize c.handle ⟨read, 0, write⟩ cb = x at hx hstate hfin hquiet hhandled
    by_cases hmess : .messageCallback ∈ x.trace
    · simpa [hmess] using hmessage _ _ u x.val w _ _ hhandled huser
    · rw [hquiet hmess] at hx hhandled ⊢
      refine ⟨taken, replies, by simpa [hmess] using hhandled, by simpa [hmess] using huser, ?_⟩
      have hsame : x.val.inputBuffer.content = c.inputBuffer.content := by
        rw [hx.input, List.append_nil]
      simpa [hmess, hsame] using hrest
  case functor =>
    rintro past stream u c f fs w ⟨taken, replies, h, huser, hrest⟩
    cases f with
    | connectionDestroyed =>
        have hx := TcpConnection.passes_connectionDestroyed h.buffered
        have hdestroyed := h.quiet hx (TcpConnection.connectionDestroyed_state c) fun hfin =>
          absurd hfin (TcpConnection.shutdownWrite_not_mem_connectionDestroyed c)
        have hsame : c.connectionDestroyed.val.inputBuffer.content = c.inputBuffer.content := by
          rw [hx.input, List.append_nil]
        rw [List.append_nil] at hdestroyed
        refine ⟨taken, replies, by simpa [Service.onFunctor] using hdestroyed, huser, ?_⟩
        simpa [Service.onFunctor, hsame] using hrest
    | user f =>
        cases f with
        | writeCompleteCallback =>
            simpa [Service.onFunctor, hcomplete] using ⟨taken, replies, h, huser, hrest⟩
        | highWaterMarkCallback len =>
            simpa [Service.onFunctor] using ⟨taken, replies, h, huser, hrest⟩

theorem replies_established (exchange : Exchange β ρ) (hnil : exchange.Takes [] [] [])
    (ptr : ChannelPtr) (sockfd : Int) (poller : EPoller) :
    exchange.Replies ([] : List (Service.Event ε)) [] (.established ptr sockfd poller false)
      [] [] := by
  constructor
  case buffered => exact TcpConnection.buffered_established ptr sockfd poller false
  case takes => exact hnil
  case answered => exact List.prefix_refl _
  case right => exact nofun
  case handed => rfl
  case stillOpen => exact nofun
  case up => exact fun _ => ⟨rfl, nofun⟩
  case closing =>
    rintro (hdown | hended)
    · exact nomatch hdown
    · exact nomatch hended
  case fin => exact nofun

end Exchange
end Chaonet
