import Chaonet.Relay.Socks4a
import Chaonet.Relay.Streams

/-!
# The SOCKS proxy

`Proxy` is a connection of the proxy from its beginning: its request is awaited and answered, and
when the client of its tunnel has connected, the tunnel relays.  Until then the tunnel does nothing
to the connection.

Whoever the request leads to gets what follows the request, and the client of the proxy gets the
reply and what comes back, whatever pieces all this comes in (`relays_behind_request`).
-/

namespace Chaonet

open Foundation

open Socks4a (SockAddr Stage Reaches connects replyGranted replyRejected)

/-- A connection of the proxy, before and after the client of its tunnel has connected. -/
inductive Proxy
  | asking (s : Served Socks4a.Session)
  | relaying (t : Tunnel)

namespace Proxy

inductive Event
  | asking (e : Service.Event Socks4a.Event)
  | relaying (e : Tunnel.Event)

inductive Label
  | ask (l : Served.Label Socks4a.Input)
  | relay (l : Tunnel.Label)

def functorOf : Service.Functor → TunnelFunctor
  | .connectionDestroyed => .connectionDestroyed .kServer
  | .user f => .flow .kServer f

/-- The tunnel that waits for its client.  `onServerConnection` has removed it from `g_tunnels` if
the connection is down. -/
def waiting (s : Served Socks4a.Session) : Tunnel :=
  let queue := s.iteration.queue
  let iteration : Iteration ServerClient TunnelFunctor :=
    { phase := s.iteration.phase
      active := s.iteration.active.map fun _ => .kServer
      queue := ⟨queue.pending.map functorOf, queue.batch.map fun fs => fs.map functorOf⟩
      began := s.iteration.began }
  { Tunnel.create s.conn iteration (s.handling.map fun cb => (.kServer, cb)) with
    mapped := decide (s.conn.state ≠ .kDisconnected) }

/-- `onServerMessage` finds the tunnel.  Where it is not in `g_tunnels` any more, a connection that
is read once more would be taken for one that has not asked yet; there is no step for that. -/
def Found (t : Tunnel) : Tunnel.Label → Prop
  | .callback _ _ => t.mapped = true ∨ t.handling.head? ≠ some (.kServer, .readCallback)
  | _ => True

instance (t : Tunnel) (l : Tunnel.Label) : Decidable (Found t l) := by
  cases l <;> unfold Found <;> infer_instance

def step : Proxy → Label → Option (Traced Event Proxy)
  | .asking s, .ask l =>
      (Served.step Socks4a.service s l).map fun x => ⟨.asking x.val, x.trace.map .asking⟩
  | .asking s, .relay (.newConnection sockfd ptr write) =>
      if s.user.tunnel.isSome then
        ((waiting s).step (.newConnection sockfd ptr write)).map fun x =>
          ⟨.relaying x.val, x.trace.map .relaying⟩
      else none
  | .relaying t, .relay l =>
      if Found t l then (t.step l).map fun x => ⟨.relaying x.val, x.trace.map .relaying⟩ else none
  | _, _ => none

def Step : Proxy → Label → List Event → Proxy → Prop := stepOf step

/-- What a step reads from the sockets. -/
def reads : Proxy → Label → ServerClient → Bytes
  | .asking s, .ask l => Tunnel.only .kServer (s.reads l)
  | .relaying t, .relay l => t.reads l
  | _, _ => fun _ => []

/-- The bytes that each socket has delivered so far. -/
def noteReads (s : Proxy) (l : Label) (read : ServerClient → Bytes) : ServerClient → Bytes :=
  fun which => read which ++ s.reads l which

/-- What `onServerMessage` shows of the connection in the context. -/
def clientEvents (es : List (Service.Event Socks4a.Event)) : List Tunnel.Event :=
  (Service.userEvents es).filterMap fun
    | .client e => some (.conn .kClient e)
    | _ => none

/-- The server that has a tunnel for the connection passes on what the tunnel passes on. -/
theorem onServerMessage_relays {t : Tunnel} (h : t.Sound) (addr : SockAddr) (w : Socks4a.Input) :
    let context := if t.context = true then t.conn? .kClient else none
    let x := Socks4a.onServerMessage ⟨some addr, context⟩ (t.serverConn.on t.poller) w
    x.val.2.inputBuffer = (t.onMessage w.write .kServer).val.serverConn.inputBuffer ∧
      clientEvents x.trace = (t.onMessage w.write .kServer).trace := by
  have hserver : t.conn? .kServer = some (t.serverConn.on t.poller) := rfl
  by_cases hcontext : t.context = true
  · have hsend : t.onMessage w.write .kServer = t.sendBuffer .kServer .kClient w.write := by
      simp [Tunnel.onMessage, hcontext]
    rw [hsend]
    simp only [hcontext, if_true]
    cases hclient : t.conn? .kClient with
    | none =>
        rw [Tunnel.sendBuffer, hserver, hclient]
        exact ⟨rfl, rfl⟩
    | some d =>
        by_cases hup : d.state = .kConnected
        · have hmessage := Buffer.retrieveAsString_fst (h .kServer _ hserver).input
          have hsame : d.on (t.serverConn.on t.poller).poller = d := by
            obtain ⟨c, -, rfl⟩ := Option.map_eq_some_iff.mp hclient
            rfl
          have hpassed := Tunnel.sendBuffer_eq h hserver hclient hup w.write
          rw [hsame, ← hmessage] at hpassed
          rw [show t.sendBuffer .kServer .kClient w.write = _ from hpassed]
          refine ⟨?_, ?_⟩
          · simp [Socks4a.onServerMessage, Socks4a.relay, hup]
            rfl
          · simp [Socks4a.onServerMessage, Socks4a.relay, hup, clientEvents, Service.userEvents,
              List.filterMap_map]
            rfl
        · rw [Tunnel.sendBuffer, hserver, hclient]
          simp [Socks4a.onServerMessage, Socks4a.relay, hup, clientEvents]
          rfl
  · have hnothing : t.onMessage w.write .kServer = pure t := by
      simp [Tunnel.onMessage, hcontext]
    rw [hnothing]
    simp only [hcontext]
    exact ⟨rfl, rfl⟩

/-! ## What is shown -/

def askEvents (es : List Event) : List (Service.Event Socks4a.Event) :=
  es.filterMap fun
    | .asking e => some e
    | .relaying _ => none

def tunnelEvents (es : List Event) : List Tunnel.Event :=
  es.filterMap fun
    | .asking _ => none
    | .relaying e => some e

/-- What is accepted on the sockets. -/
def written (es : List Event) : ServerClient → Bytes
  | .kServer => Service.written (askEvents es) ++ Tunnel.written .kServer (tunnelEvents es)
  | .kClient => Tunnel.written .kClient (tunnelEvents es)

@[simp] theorem askEvents_append (es es' : List Event) :
    askEvents (es ++ es') = askEvents es ++ askEvents es' := List.filterMap_append

@[simp] theorem tunnelEvents_append (es es' : List Event) :
    tunnelEvents (es ++ es') = tunnelEvents es ++ tunnelEvents es' := List.filterMap_append

@[simp] theorem askEvents_asking (es : List (Service.Event Socks4a.Event)) :
    askEvents (es.map .asking) = es := by
  simp [askEvents, List.filterMap_map]

@[simp] theorem askEvents_relaying (es : List Tunnel.Event) :
    askEvents (es.map .relaying) = [] := by
  simp [askEvents, List.filterMap_map]

@[simp] theorem tunnelEvents_asking (es : List (Service.Event Socks4a.Event)) :
    tunnelEvents (es.map .asking) = [] := by
  simp [tunnelEvents, List.filterMap_map]

@[simp] theorem tunnelEvents_relaying (es : List Tunnel.Event) :
    tunnelEvents (es.map .relaying) = es := by
  simp [tunnelEvents, List.filterMap_map]

/-! ## What a connection of the proxy keeps -/

/-- The request has led to a tunnel, and what comes behind it goes through. -/
structure Through (past : List Event) (read : ServerClient → Bytes) (t : Tunnel)
    (q : Socks4a.Request) (rest : Bytes) (addr : SockAddr) (reply : Bytes) : Prop where
  complete : read .kServer = q.bytes ++ rest
  reaches : Reaches (askEvents past) q addr
  once : connects (askEvents past) = [addr]
  outward : written past .kClient ++ t.pending .kServer = rest
  back : written past .kServer ++ t.pending .kClient = reply ++ read .kClient
  told : reply = replyGranted addr ∨
    t.serverConn.state ≠ .kConnected ∧ (reply = [] ∨ reply = replyRejected)

/-- What holds at any time. -/
inductive Keeps (past : List Event) (read : ServerClient → Bytes) : Proxy → Prop
  | asking (s : Served Socks4a.Session) (turn : s.iteration.InTurn)
      (stage : Stage (askEvents past) (read .kServer) s.conn s.user)
      (prompt : Socks4a.Prompt (read .kServer) s.conn s.user) (silent : tunnelEvents past = [])
      (unread : read .kClient = []) : Keeps past read (.asking s)
  | relaying (t : Tunnel) (sound : t.Sound) (prompt : ∀ which, t.Prompt which) (q : Socks4a.Request)
      (rest : Bytes) (addr : SockAddr) (reply : Bytes)
      (through : Through past read t q rest addr reply) : Keeps past read (.relaying t)

variable {past es : List Event} {read : ServerClient → Bytes}

/-- A step of the tunnel. -/
theorem through_step {t t' : Tunnel} {q : Socks4a.Request} {rest : Bytes} {addr : SockAddr}
    {reply : Bytes} (h : Through past read t q rest addr reply) {more : ServerClient → Bytes}
    {es : List Tunnel.Event} (hx : t.Conveys more ⟨t', es⟩) :
    Through (past ++ es.map .relaying) (fun which => read which ++ more which) t' q
      (rest ++ more .kServer) addr reply := by
  have hout : Tunnel.written .kClient es ++ t'.pending .kServer =
      t.pending .kServer ++ more .kServer := hx.conserved .kServer
  have hback : Tunnel.written .kServer es ++ t'.pending .kClient =
      t.pending .kClient ++ more .kClient := hx.conserved .kClient
  constructor
  case complete => rw [h.complete, List.append_assoc]
  case reaches => simpa using h.reaches
  case once => simpa using h.once
  case outward =>
    have hbefore := h.outward
    simp only [written, tunnelEvents_append, tunnelEvents_relaying, Tunnel.written_append,
      List.append_assoc] at hbefore ⊢
    rw [hout, ← List.append_assoc, hbefore]
  case back =>
    have hbefore := h.back
    simp only [written, askEvents_append, askEvents_relaying, List.append_nil, tunnelEvents_append,
      tunnelEvents_relaying, Tunnel.written_append, List.append_assoc] at hbefore ⊢
    rw [hback, ← List.append_assoc (Tunnel.written _ _), ← List.append_assoc, hbefore,
      List.append_assoc]
  case told => exact h.told.imp_right fun hdown => ⟨fun hup => hdown.1 (hx.up hup), hdown.2⟩

theorem waiting_sound {s : Served Socks4a.Session} (h : TcpConnection.Buffered s.conn) :
    (waiting s).Sound := by
  intro which c hc
  cases which with
  | kServer =>
      obtain rfl := Option.some.inj hc
      exact ⟨h.input, h.output, h.interest, h.idle⟩
  | kClient => simp [Tunnel.conn?, waiting, Tunnel.create] at hc

theorem waiting_prompt (s : Served Socks4a.Session) (which : ServerClient) :
    (waiting s).Prompt which := by
  cases which with
  | kServer => exact fun hopen => nomatch hopen.2.choose_spec.1
  | kClient => exact fun _ => rfl

/-- What follows the request waits in the input buffer, and the reply in the output buffer. -/
theorem through_waiting {s : Served Socks4a.Session} {addr : SockAddr}
    (stage : Stage (askEvents past) (read .kServer) s.conn s.user) (haddr : s.user.tunnel = some addr)
    (silent : tunnelEvents past = []) (unread : read .kClient = []) :
    ∃ q rest reply, Through past read (waiting s) q rest addr reply := by
  generalize s.user = u at stage haddr
  cases stage with
  | waiting | rejected => exact nomatch haddr
  | granted q rest addr' reply complete holds told reaches once =>
      obtain rfl : addr' = addr := Option.some.inj haddr
      refine ⟨q, rest, reply, complete, reaches, once, ?_, ?_, told⟩
      · have hinput : (waiting s).pending .kServer = s.conn.inputBuffer.content := rfl
        rw [hinput, holds.input, written, silent, Tunnel.written_nil, List.nil_append]
      · have houtput : (waiting s).pending .kClient = s.conn.outputBuffer.content :=
          List.append_nil _
        have hreply : Service.written (askEvents past) ++ s.conn.outputBuffer.content = reply :=
          holds.reply
        rw [houtput, written, silent, Tunnel.written_nil, List.append_nil, hreply, unread,
          List.append_nil]

/-- A step of a tunnel that relays. -/
theorem keeps_relay {t t' : Tunnel} {l : Tunnel.Label} {es : List Tunnel.Event} (sound : t.Sound)
    (prompt : ∀ which, t.Prompt which) {q : Socks4a.Request} {rest : Bytes} {addr : SockAddr}
    {reply : Bytes} (through : Through past read t q rest addr reply)
    (hstep : Tunnel.Step t l es t') :
    Keeps (past ++ es.map .relaying) (fun which => read which ++ t.reads l which)
      (.relaying t') := by
  have hx := Tunnel.conveys_step sound hstep
  exact .relaying t' hx.sound (fun which => hx.prompt which (prompt which)) q _ addr reply
    (through_step through hx)

/-- Every step keeps it. -/
theorem keeps_step {s t : Proxy} {l : Label} (h : Keeps past read s) (hstep : Step s l es t) :
    Keeps (past ++ es) (s.noteReads l read) t := by
  have hstep' : step s l = some ⟨t, es⟩ := hstep
  cases h with
  | asking s turn stage prompt silent unread =>
      cases l with
      | ask l =>
          obtain ⟨x, hx, heq⟩ := Option.map_eq_some_iff.mp hstep'
          obtain ⟨rfl, rfl⟩ := Traced.mk.inj heq
          obtain ⟨hturn, hstage, hprompt⟩ := Socks4a.kept.step (askEvents past) turn
            ⟨stage, prompt⟩ (show Served.Step Socks4a.service s l x.trace x.val from hx)
          refine .asking x.val hturn ?_ ?_ ?_ ?_
          · simpa [noteReads, reads, Tunnel.only] using hstage
          · simpa [noteReads, reads, Tunnel.only] using hprompt
          · simp [silent]
          · simp [noteReads, reads, Tunnel.only, unread]
      | relay l =>
          cases l with
          | newConnection sockfd ptr write =>
              simp only [step] at hstep'
              split_ifs at hstep' with htunnel
              obtain ⟨x, hx, heq⟩ := Option.map_eq_some_iff.mp hstep'
              obtain ⟨rfl, rfl⟩ := Traced.mk.inj heq
              obtain ⟨addr, haddr⟩ := Option.isSome_iff_exists.mp htunnel
              obtain ⟨q, rest, reply, through⟩ := through_waiting stage haddr silent unread
              exact keeps_relay (waiting_sound stage.buffered) (waiting_prompt s) through hx
          | activate | wake | handleEvent | callback | swap | runFunctor | finish =>
              simp [step] at hstep'
  | relaying t sound prompt q rest addr reply through =>
      cases l with
      | ask l => simp [step] at hstep'
      | relay l =>
          simp only [step] at hstep'
          split_ifs at hstep'
          obtain ⟨x, hx, heq⟩ := Option.map_eq_some_iff.mp hstep'
          obtain ⟨rfl, rfl⟩ := Traced.mk.inj heq
          exact keeps_relay sound prompt through hx

/-- The connection has been established. -/
def start (ptr : ChannelPtr) (sockfd : Int) (poller : EPoller) : Proxy :=
  .asking (.start .fresh (.established ptr sockfd poller false))

/-- **Whoever is asked for gets what follows the request, and only that.**  In every run of a
connection of the proxy, once the tunnel relays: the first bytes that have been read are a request,
and the only connection that has been made is the one it asks for; what comes behind the request has
been written to that connection or waits in between, in its order; and the client has got the reply
and what comes back, or they wait in between.  If the connection is still up, the reply is that the
request has been granted. -/
theorem relays_behind_request {ptr : ChannelPtr} {sockfd : Int} {poller : EPoller}
    {ls : List Label} {t : Tunnel}
    (hrun : Run (remember noteReads Step) (start ptr sockfd poller, fun _ => []) ls es
      (.relaying t, read)) :
    (∃ q rest addr reply, Through es read t q rest addr reply) ∧ ∀ which, t.Prompt which := by
  have hkeeps : Keeps es read (.relaying t) := by
    refine Run.history (I := fun past (s : Proxy × (ServerClient → Bytes)) => Keeps past s.2 s.1)
      hrun [] ?_ ?_
    · exact .asking _ (Served.start_inTurn _ _) (Socks4a.stage_established ptr sockfd poller)
        (Socks4a.prompt_nil _ _) rfl rfl
    · rintro past ⟨s, before⟩ l es ⟨t, after⟩ h ⟨hstep, rfl⟩
      exact keeps_step h hstep
  cases hkeeps with
  | relaying _ sound prompt q rest addr reply through =>
      exact ⟨⟨q, rest, addr, reply, through⟩, prompt⟩

def relays : Proxy → Bool
  | .asking _ => false
  | .relaying _ => true

/-- A request and what follows it come at once; the answer comes in two pieces. -/
def fetched : List Label :=
  let w : Socks4a.Input := ⟨fun _ => none, .count 8⟩
  [.ask .swap, .ask .finish, .ask (.activate POLLIN), .ask .wake, .ask .handleEvent,
    .ask (.callback (some ([4, 1, 0, 80, 10, 0, 0, 7, 0] ++ ascii "GET")) (.error true) w),
    .relay (.newConnection 8 2 (.count 2)), .relay .swap, .relay .finish,
    .relay (.activate .kClient (POLLIN ||| POLLOUT)), .relay .wake, .relay .handleEvent,
    .relay (.callback (some (ascii "200")) (.count 3)), .relay (.callback none (.count 1))]

theorem relays_behind_request_fetched :
    ∃ (es : List Event) (t : Tunnel) (read : ServerClient → Bytes),
      ((∃ q rest addr reply, Through es read t q rest addr reply) ∧ ∀ which, t.Prompt which) ∧
        written es .kClient = ascii "GET" ∧
        written es .kServer = [0, 0x5a, 0, 80, 10, 0, 0, 7] ++ ascii "200" := by
  obtain ⟨es, s, hrun, hrelays, hall⟩ : ∃ (es : List Event) (s : Proxy),
      Run Step (start 1 7 .create) fetched es s ∧ s.relays = true ∧
        written es .kClient = ascii "GET" ∧
        written es .kServer = [0, 0x5a, 0, 80, 10, 0, 0, 7] ++ ascii "200" :=
    Run.exists_of_exec _ (by decide +kernel)
  cases s with
  | asking s => exact absurd hrelays Bool.false_ne_true
  | relaying t =>
      obtain ⟨read, hremember⟩ := hrun.remember noteReads fun _ => []
      exact ⟨es, t, read, relays_behind_request hremember, hall⟩

end Proxy
end Chaonet
