import Chaonet.Foundation.Cycle
import Chaonet.PingPong.Endpoints

/-!
# The ping-pong benchmark

A session of the client and its connection on the server, each on its own loop and with its own end
of the byte stream.  What an end writes travels to the other one, which reads it in pieces of any
size.  As long as both connections are up, no byte of the message is lost and none is doubled: it
goes round in a circle.
-/

namespace Chaonet

open Foundation

open Service (handed written)

namespace PingPong

structure Circle where
  client : Served Session
  server : Served Unit
  /-- The bytes on their way to the server. -/
  toServer : Bytes
  /-- The bytes on their way to the client. -/
  toClient : Bytes

namespace Circle

inductive Event
  | client (e : Service.Event Empty)
  | server (e : Service.Event Empty)
deriving DecidableEq, Repr

inductive Label
  | client (l : Served.Label WriteResult)
  | server (l : Served.Label WriteResult)
deriving DecidableEq, Repr

/-- An end can read what has arrived. -/
def step (s : Circle) : Label → Option (Traced Event Circle)
  | .client l =>
      if s.client.reads l <+: s.toClient then
        (s.client.step PingPong.client l).map fun x =>
          ⟨{ s with
              client := x.val
              toServer := s.toServer ++ written x.trace
              toClient := s.toClient.drop (s.client.reads l).length }, x.trace.map .client⟩
      else none
  | .server l =>
      if s.server.reads l <+: s.toServer then
        (s.server.step PingPong.server l).map fun x =>
          ⟨{ s with
              server := x.val
              toServer := s.toServer.drop (s.server.reads l).length
              toClient := s.toClient ++ written x.trace }, x.trace.map .server⟩
      else none

def Step : Circle → Label → List Event → Circle → Prop := stepOf step

/-- What the client and the server have read. -/
def noteReads (s : Circle) (l : Label) (r : Bytes × Bytes) : Bytes × Bytes :=
  match l with
  | .client l => (r.1 ++ s.client.reads l, r.2)
  | .server l => (r.1, r.2 ++ s.server.reads l)

/-- The session is connected, and sends its message. -/
def connect (c : TcpConnection) (message : Bytes) (write : WriteResult) :
    Traced (Service.Event Empty) (Served Session) :=
  let u : Session := ⟨0, 0, 0⟩
  (Served.start u c).take do
    let c ← Service.member (Session.onConnection c message write)
    pure (u, c)

def start (c d : TcpConnection) (message : Bytes) (write : WriteResult) : Circle :=
  let x := connect c message write
  { client := x.val
    server := .start () d
    toServer := written x.trace
    toClient := [] }

/-- What goes round, from the next byte that the client reads. -/
def inFlight (s : Circle) : Bytes :=
  s.toClient ++ s.server.conn.outputBuffer.content ++
    (s.toServer ++ s.client.conn.outputBuffer.content)

/-! ## What goes round -/

/-- Both ends pass on what they read, and the stream between them delivers what has been written. -/
structure Goes (message : Bytes) (past past' : List (Service.Event Empty)) (read read' : Bytes)
    (s : Circle) : Prop where
  clientTurn : s.client.iteration.InTurn
  serverTurn : s.server.iteration.InTurn
  client : Echoes message past read s.client.conn
  server : Echoes [] past' read' s.server.conn
  counts : Counts read s.client.user s.client.conn
  toServer : written past = read' ++ s.toServer
  toClient : written past' = read ++ s.toClient

variable {message read read' : Bytes} {past past' : List (Service.Event Empty)} {s t : Circle}
  {l : Label} {es : List Event}

theorem written_append (es es' : List (Service.Event Empty)) :
    written (es ++ es') = written es ++ written es' := by
  simp [written]

/-- What is read is taken off the front of what is on its way. -/
theorem read_append {data way : Bytes} (h : data <+: way) (read : Bytes) :
    read ++ data ++ way.drop data.length = read ++ way := by
  obtain ⟨rest, rfl⟩ := h
  rw [List.drop_left, List.append_assoc]

theorem Goes.step (h : Goes message past past' read read' s) (hstep : Step s l es t) :
    ∃ past past', Goes message past past' (noteReads s l (read, read')).1
      (noteReads s l (read, read')).2 t := by
  have hstep : s.step l = some ⟨t, es⟩ := hstep
  cases l with
  | client l =>
      simp only [Circle.step] at hstep
      split_ifs at hstep with harrived
      obtain ⟨⟨client, shown⟩, hclient, heq⟩ := Option.map_eq_some_iff.mp hstep
      obtain ⟨rfl, -⟩ := Traced.mk.inj heq
      obtain ⟨hturn, hechoes⟩ := (kept_echoes sendsBack_client message).step past h.clientTurn
        h.client hclient
      obtain ⟨-, hcounts⟩ := kept_counts.step past h.clientTurn h.counts hclient
      refine ⟨past ++ shown, past', hturn, h.serverTurn, hechoes, h.server, hcounts, ?_, ?_⟩
      · rw [written_append, h.toServer]
        exact List.append_assoc _ _ _
      · exact h.toClient.trans (read_append harrived read).symm
  | server l =>
      simp only [Circle.step] at hstep
      split_ifs at hstep with harrived
      obtain ⟨⟨server, shown⟩, hserver, heq⟩ := Option.map_eq_some_iff.mp hstep
      obtain ⟨rfl, -⟩ := Traced.mk.inj heq
      obtain ⟨hturn, hechoes⟩ := (kept_echoes sendsBack_server []).step past' h.serverTurn h.server
        hserver
      refine ⟨past, past' ++ shown, h.clientTurn, hturn, h.client, hechoes, h.counts, ?_, ?_⟩
      · exact h.toServer.trans (read_append harrived read').symm
      · rw [written_append, h.toClient]
        exact List.append_assoc _ _ _

/-- The client has read no more than the server has passed on. -/
theorem Goes.read_prefix (h : Goes message past past' read read' s) : read <+: read' := by
  have hwritten : read <+: written past' := h.toClient ▸ List.prefix_append _ _
  exact (hwritten.trans (List.prefix_append _ _)).trans h.server.handed_prefix

/-- The server has read no more than the message and what the client has passed on. -/
theorem Goes.prefix_message (h : Goes message past past' read read' s) :
    read' <+: message ++ read := by
  have hwritten : read' <+: written past := h.toServer ▸ List.prefix_append _ _
  exact (hwritten.trans (List.prefix_append _ _)).trans h.client.handed_prefix

theorem Goes.inFlight (h : Goes message past past' read read' s)
    (hclient : s.client.conn.state = .kConnected) (hserver : s.server.conn.state = .kConnected) :
    read ++ s.inFlight = message ++ read := by
  have hsent : handed past s.client.conn = message ++ read := (h.client.up hclient).1
  have hreturned : handed past' s.server.conn = read' := (h.server.up hserver).1
  rw [handed, h.toServer] at hsent
  rw [handed, h.toClient] at hreturned
  calc read ++ s.inFlight
      = read ++ s.toClient ++ s.server.conn.outputBuffer.content ++
          (s.toServer ++ s.client.conn.outputBuffer.content) := by
        simp only [Circle.inFlight, List.append_assoc]
    _ = read' ++ (s.toServer ++ s.client.conn.outputBuffer.content) := by rw [hreturned]
    _ = message ++ read := by rw [← hsent, List.append_assoc]

variable {ptr ptr' : ChannelPtr} {sockfd sockfd' : Int} {poller poller' : EPoller}
  {write : WriteResult} {ls : List Label}

/-- A connection that is up, with empty buffers. -/
structure Fresh (c : TcpConnection) : Prop where
  buffered : TcpConnection.Buffered c
  state : c.state = .kConnected
  input : c.inputBuffer.content = []
  output : c.outputBuffer.content = []

theorem fresh_established (ptr : ChannelPtr) (sockfd : Int) (poller : EPoller) :
    Fresh (.established ptr sockfd poller false) :=
  ⟨TcpConnection.buffered_established ptr sockfd poller false, rfl, rfl, rfl⟩

@[simp] theorem connect_trace (c : TcpConnection) (message : Bytes) (write : WriteResult) :
    (connect c message write).trace = (c.send message write).trace.map .conn := by
  simp [connect, Session.onConnection, Served.take]

@[simp] theorem connect_conn (c : TcpConnection) (message : Bytes) (write : WriteResult) :
    (connect c message write).val.conn = (c.send message write).val := rfl

/-- The message has been sent, and nothing has been read. -/
theorem goes_start {c d : TcpConnection} (hc : Fresh c) (hd : Fresh d) (message : Bytes)
    (write : WriteResult) :
    Goes message (connect c message write).trace [] [] [] (start c d message write) := by
  have hsend := TcpConnection.passes_send hc.buffered message write
  rw [if_pos hc.state] at hsend
  have hinput : (c.send message write).val.inputBuffer.content = [] := by
    rw [hsend.input, hc.input, List.append_nil]
  have hhanded : handed (connect c message write).trace (c.send message write).val = message := by
    have hbefore : handed ([] : List (Service.Event Empty)) c = [] := hc.output
    have hafter := Service.handed_member ([] : List (Service.Event Empty)) hsend
    rw [List.nil_append, hbefore, List.nil_append] at hafter
    rwa [connect_trace]
  constructor
  case clientTurn => exact (Served.start_inTurn _ _).push _
  case serverTurn => exact Served.start_inTurn _ _
  case client =>
    refine ⟨hsend.buffered, ?_, fun _ => ⟨?_, hinput⟩⟩
    · rw [start, connect_conn, hhanded, List.append_nil]
    · rw [start, connect_conn, hhanded, List.append_nil]
  case server =>
    have hnothing : handed ([] : List (Service.Event Empty)) d = [] := hd.output
    refine ⟨hd.buffered, ?_, fun _ => ⟨hnothing, hd.input⟩⟩
    rw [start, Served.start, hnothing]
    exact List.nil_prefix
  case counts => exact ⟨hsend.buffered, rfl, fun _ => ⟨rfl, hinput⟩⟩
  case toServer => rfl
  case toClient => rfl

/-- **The message goes round.**  Whatever pieces the two ends read and write, and in whatever order,
what the server has read is the message, time and again, and the client has read a prefix of it.
While both connections are up, what the client has yet to read are the bytes of one message,
and the counters of the session are right. -/
theorem goes_round (hmessage : message ≠ [])
    (hrun : Run (remember noteReads Step) (start (.established ptr sockfd poller false)
      (.established ptr' sockfd' poller' false) message write, ([], [])) ls es
      (t, (read, read'))) :
    (∀ i < read'.length, read'[i]? = message[i % message.length]?) ∧ read <+: read' ∧
      (t.client.conn.state = .kConnected → t.server.conn.state = .kConnected →
        read ++ t.inFlight = message ++ read ∧ t.client.user.bytesRead = read.length ∧
          t.client.user.bytesWritten = read.length) := by
  obtain ⟨past, past', h⟩ : ∃ past past', Goes message past past' read read' t := by
    refine hrun.invariant (I := fun v => ∃ past past', Goes message past past' v.2.1 v.2.2 v.1) ?_ ?_
    · exact ⟨_, [], goes_start (fresh_established ptr sockfd poller)
        (fresh_established ptr' sockfd' poller') message write⟩
    · rintro ⟨s, r⟩ l es ⟨t, r'⟩ ⟨past, past', h⟩ ⟨hstep, rfl⟩
      exact h.step hstep
  refine ⟨fun i hi => ?_, h.read_prefix, fun hclient hserver => ⟨h.inFlight hclient hserver, ?_, ?_⟩⟩
  · refine getElem?_of_prefix_append hmessage (h.prefix_message.trans ?_) i hi
    exact (List.prefix_append_right_inj message).mpr h.read_prefix
  · exact (h.counts.up hclient).1
  · exact h.counts.same.trans (h.counts.up hclient).1

/-- Three bytes go to the server, which sends two of them back at once. -/
def oneRound : List Label :=
  let turn (data : Bytes) (w : WriteResult) : List (Served.Label WriteResult) :=
    [.swap, .finish, .activate POLLIN, .wake, .handleEvent,
      .callback (some data) (.error true) w]
  (turn [1, 2, 3] (.count 2)).map .server ++ (turn [1, 2] (.count 2)).map .client

theorem goes_round_oneRound : ∃ (t : Circle) (read read' : Bytes),
    ((∀ i < read'.length, read'[i]? = [(1 : UInt8), 2, 3][i % 3]?) ∧ read <+: read' ∧
      (t.client.conn.state = .kConnected → t.server.conn.state = .kConnected →
        read ++ t.inFlight = [1, 2, 3] ++ read ∧ t.client.user.bytesRead = read.length ∧
          t.client.user.bytesWritten = read.length)) ∧
      t.client.conn.state = .kConnected ∧ t.server.conn.state = .kConnected ∧
      t.inFlight = [3, 1, 2] := by
  obtain ⟨es, t, hrun, hclient, hserver, hround⟩ : ∃ es t,
      Run Step (start (.established 1 7 .create false) (.established 2 8 .create false) [1, 2, 3]
        (.count 3)) oneRound es t ∧ t.client.conn.state = .kConnected ∧
        t.server.conn.state = .kConnected ∧ t.inFlight = [3, 1, 2] :=
    Run.exists_of_exec _ (by decide +kernel)
  obtain ⟨⟨read, read'⟩, hremember⟩ := hrun.remember noteReads ([], [])
  exact ⟨t, read, read', goes_round (by decide) hremember, hclient, hserver, hround⟩

end Circle
end PingPong
end Chaonet
