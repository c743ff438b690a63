import Chaonet.Connection.Passage
import Chaonet.Relay.FlowControl

/-!
# The two streams of a tunnel

What a tunnel reads from one of its connections it writes to the other one.  On the way the bytes
wait in the input buffer of the one and the output buffer of the other (`pending`).  Nothing is lost,
duplicated or reordered in any run, whatever the order in which the two sides read, write and close
(`streams_conserved`), and as long as the other side can take them no bytes are held back in the
input buffer (`Prompt`).

The bytes that a socket delivers are part of a label, so that a history variable records them.
-/

namespace Chaonet

open Foundation

open TcpConnection (Buffered Passes received bytesWritten)

/-- The side that the bytes of a side go to. -/
def ServerClient.other : ServerClient → ServerClient
  | .kServer => .kClient
  | .kClient => .kServer

namespace ServerClient

theorem other_ne (which : ServerClient) : which.other ≠ which := by
  cases which <;> nofun

theorem eq_other {which side : ServerClient} (h : side ≠ which) : side = which.other := by
  cases which <;> cases side <;> first | rfl | exact absurd rfl h

@[simp] theorem other_other (which : ServerClient) : which.other.other = which := by
  cases which <;> rfl

end ServerClient

namespace Tunnel

variable {s t : Tunnel} {which : ServerClient}

/-- What is accepted on the socket of a connection. -/
def written (which : ServerClient) (es : List Event) : Bytes :=
  bytesWritten (es.filterMap fun
    | .conn side e => if side = which then some e else none
    | _ => none)

/-- What is in the input buffer of a connection. -/
def inputOf (s : Tunnel) (which : ServerClient) : Bytes :=
  match s.conn? which with
  | none => []
  | some c => c.inputBuffer.content

/-- What is in the output buffer of a connection. -/
def outputOf (s : Tunnel) (which : ServerClient) : Bytes :=
  match s.conn? which with
  | none => []
  | some c => c.outputBuffer.content

/-- What a connection has read and the other one has not written. -/
def pending (s : Tunnel) (which : ServerClient) : Bytes :=
  s.outputOf which.other ++ s.inputOf which

/-- Both connections are as their streams need them. -/
def Sound (s : Tunnel) : Prop := ∀ which c, s.conn? which = some c → Buffered c

/-- The messages of a connection are passed on. -/
def Open (s : Tunnel) : ServerClient → Prop
  | .kServer => s.context = true ∧ ∃ c, s.made = some c ∧ c.state = .kConnected
  | .kClient => s.serverConn.state = .kConnected

/-- Nothing is held back in the input buffer. -/
def Prompt (s : Tunnel) (which : ServerClient) : Prop := s.Open which → s.inputOf which = []

/-- The bytes of one connection. -/
def only (which : ServerClient) (data : Bytes) : ServerClient → Bytes :=
  fun side => if side = which then data else []

@[simp] theorem only_nil (which : ServerClient) : only which [] = fun _ => [] := by
  funext side
  simp [only]

/-- What the step of a label reads from the sockets. -/
def reads (s : Tunnel) : Label → ServerClient → Bytes
  | .callback read _ =>
      match s.handling with
      | [] => fun _ => []
      | (which, cb) :: _ => only which (received cb read)
  | _ => fun _ => []

/-- The bytes that each socket has delivered so far. -/
def noteReads (s : Tunnel) (l : Label) (read : ServerClient → Bytes) : ServerClient → Bytes :=
  fun which => read which ++ s.reads l which

/-! ## What a part of a step does to the streams -/

@[simp] theorem written_nil (which : ServerClient) : written which [] = [] := rfl

@[simp] theorem written_append (which : ServerClient) (es es' : List Event) :
    written which (es ++ es') = written which es ++ written which es' := by
  simp [written]

@[simp] theorem written_conn (which : ServerClient) (es : List TcpConnection.Event) :
    written which (es.map (.conn which)) = bytesWritten es := by
  simp [written, List.filterMap_map]

theorem written_conn_of_ne {side : ServerClient} (h : side ≠ which)
    (es : List TcpConnection.Event) : written which (es.map (.conn side)) = [] := by
  simp [written, List.filterMap_map, h]

/-- A part of a step that reads `read` keeps the streams. -/
structure Relays (s : Tunnel) (read : ServerClient → Bytes) (x : Traced Event Tunnel) : Prop where
  sound : x.val.Sound
  /-- The connection that has been accepted does not come up again. -/
  up : x.val.serverConn.state = .kConnected → s.serverConn.state = .kConnected
  conserved : ∀ which,
    written which.other x.trace ++ x.val.pending which = s.pending which ++ read which

/-- In addition it holds no bytes back. -/
structure Conveys (s : Tunnel) (read : ServerClient → Bytes) (x : Traced Event Tunnel) : Prop
    extends Relays s read x where
  prompt : ∀ which, s.Prompt which → x.val.Prompt which

/-- A part of a step that reads nothing. -/
abbrev Still (s : Tunnel) (x : Traced Event Tunnel) : Prop := Conveys s (fun _ => []) x

theorem Relays.bind {read : ServerClient → Bytes} {y : Traced Event Tunnel}
    {use : Tunnel → Traced Event Tunnel} (h : Relays s read y)
    (h' : Relays y.val (fun _ => []) (use y.val)) : Relays s read (y >>= use) := by
  refine ⟨h'.sound, fun hup => h.up (h'.up hup), fun which => ?_⟩
  rw [Traced.bind_trace, Traced.bind_val, written_append, List.append_assoc, h'.conserved,
    List.append_nil, h.conserved]

/-- A part that shows nothing comes first. -/
theorem Relays.of_pure {y : Traced Event Tunnel} (h : Relays s (fun _ => []) (pure t))
    (h' : Relays t (fun _ => []) y) : Relays s (fun _ => []) y := by
  have hboth : Relays s (fun _ => []) (pure t >>= fun _ => y) := h.bind h'
  rwa [pure_bind] at hboth

theorem Conveys.bind {read : ServerClient → Bytes} {y : Traced Event Tunnel}
    {use : Tunnel → Traced Event Tunnel} (h : Conveys s read y) (h' : Still y.val (use y.val)) :
    Conveys s read (y >>= use) :=
  ⟨h.toRelays.bind h'.toRelays, fun which hprompt => h'.prompt which (h.prompt which hprompt)⟩

/-! ## The connections -/

theorem inputOf_eq {c : TcpConnection} (hc : s.conn? which = some c) :
    s.inputOf which = c.inputBuffer.content := by
  rw [inputOf, hc]

theorem call_eq {c : TcpConnection} (hc : s.conn? which = some c)
    {member : TcpConnection → Traced TcpConnection.Event TcpConnection} :
    s.call which member = s.perform which (member c) := by
  rw [call, hc]

theorem outputOf_eq {c : TcpConnection} (hc : s.conn? which = some c) :
    s.outputOf which = c.outputBuffer.content := by
  rw [outputOf, hc]

@[simp] theorem inputOf_setConn (s : Tunnel) (which : ServerClient) (c : TcpConnection) :
    (s.setConn which c).inputOf which = c.inputBuffer.content := by
  cases which <;> rfl

@[simp] theorem outputOf_setConn (s : Tunnel) (which : ServerClient) (c : TcpConnection) :
    (s.setConn which c).outputOf which = c.outputBuffer.content := by
  cases which <;> rfl

theorem inputOf_setConn_of_ne {side : ServerClient} (h : side ≠ which) (c : TcpConnection) :
    (s.setConn which c).inputOf side = s.inputOf side := by
  cases which <;> cases side
  · exact absurd rfl h
  · simp only [inputOf, conn?, setConn]
    cases s.made <;> rfl
  · rfl
  · exact absurd rfl h

theorem outputOf_setConn_of_ne {side : ServerClient} (h : side ≠ which) (c : TcpConnection) :
    (s.setConn which c).outputOf side = s.outputOf side := by
  cases which <;> cases side
  · exact absurd rfl h
  · simp only [outputOf, conn?, setConn]
    cases s.made <;> rfl
  · rfl
  · exact absurd rfl h

theorem conn?_setConn_of_ne {side : ServerClient} (h : side ≠ which) {c d : TcpConnection}
    (hd : s.conn? side = some d) : (s.setConn which c).conn? side = some (d.on c.poller) := by
  cases which <;> cases side
  · exact absurd rfl h
  · obtain ⟨e, he, rfl⟩ := Option.map_eq_some_iff.mp hd
    exact Option.map_eq_some_iff.mpr ⟨e, he, rfl⟩
  · obtain rfl := Option.some.inj hd
    rfl
  · exact absurd rfl h

theorem Sound.setConn (h : s.Sound) {c : TcpConnection} (hc : Buffered c) :
    (s.setConn which c).Sound := by
  intro side d hd
  cases which <;> cases side
  · obtain rfl := Option.some.inj hd
    exact hc.on _
  · obtain ⟨e, he, rfl⟩ := Option.map_eq_some_iff.mp hd
    exact (Buffered.of_on (h .kClient _ (Option.map_eq_some_iff.mpr ⟨e, he, rfl⟩))).on _
  · obtain rfl := Option.some.inj hd
    exact (Buffered.of_on (h .kServer _ rfl)).on _
  · obtain rfl := Option.some.inj hd
    exact hc.on _

/-- An open way has its target. -/
theorem Open.target (h : s.Open which) :
    ∃ d, s.conn? which.other = some d ∧ d.state = .kConnected := by
  cases which with
  | kServer =>
      obtain ⟨-, d, hd, hup⟩ := h
      exact ⟨d.on s.poller, Option.map_eq_some_iff.mpr ⟨d, hd, rfl⟩, hup⟩
  | kClient => exact ⟨s.serverConn.on s.poller, rfl, h⟩

/-- A connection that is not connected again opens no way. -/
theorem Open.of_setConn {side : ServerClient} {c d : TcpConnection} (hc : s.conn? which = some c)
    (hstate : d.state = .kConnected → c.state = .kConnected) (h : (s.setConn which d).Open side) :
    s.Open side := by
  cases which <;> cases side
  · exact h
  · obtain rfl := Option.some.inj hc
    exact hstate h
  · obtain ⟨e, he, rfl⟩ := Option.map_eq_some_iff.mp hc
    obtain ⟨hcontext, d', hd', hup⟩ := h
    obtain rfl := Option.some.inj hd'
    exact ⟨hcontext, e, he, hstate hup⟩
  · exact h

/-- The streams depend on the connections only. -/
structure SameConns (s t : Tunnel) : Prop where
  serverConn : t.serverConn = s.serverConn
  made : t.made = s.made
  context : t.context = true → s.context = true

theorem SameConns.inputOf (h : SameConns s t) : t.inputOf = s.inputOf := by
  funext which
  cases which with
  | kServer => exact congrArg (fun c => c.inputBuffer.content) h.serverConn
  | kClient =>
      simp only [Tunnel.inputOf, conn?, h.made]
      cases s.made <;> rfl

theorem SameConns.outputOf (h : SameConns s t) : t.outputOf = s.outputOf := by
  funext which
  cases which with
  | kServer => exact congrArg (fun c => c.outputBuffer.content) h.serverConn
  | kClient =>
      simp only [Tunnel.outputOf, conn?, h.made]
      cases s.made <;> rfl

theorem SameConns.sound (h : SameConns s t) (hsound : s.Sound) : t.Sound := by
  intro which c hc
  cases which with
  | kServer =>
      obtain rfl := Option.some.inj hc
      rw [h.serverConn]
      exact (Buffered.of_on (hsound .kServer _ rfl)).on _
  | kClient =>
      obtain ⟨d, hd, rfl⟩ := Option.map_eq_some_iff.mp hc
      rw [h.made] at hd
      exact (Buffered.of_on (hsound .kClient _ (Option.map_eq_some_iff.mpr ⟨d, hd, rfl⟩))).on _

theorem SameConns.prompt (h : SameConns s t) (hprompt : s.Prompt which) : t.Prompt which := by
  intro hopen
  rw [h.inputOf]
  apply hprompt
  cases which with
  | kServer => exact ⟨h.context hopen.1, h.made ▸ hopen.2⟩
  | kClient => exact (congrArg TcpConnection.state h.serverConn).symm.trans hopen

/-- A part of a step that leaves the connections alone. -/
theorem SameConns.still (h : SameConns s t) (hsound : s.Sound) : Still s (pure t) := by
  refine ⟨⟨h.sound hsound, fun hup => h.serverConn ▸ hup, fun which => ?_⟩, fun which => h.prompt⟩
  simp [pending, h.inputOf, h.outputOf]

theorem Conveys.of_same {read : ServerClient → Bytes} {y : Traced Event Tunnel}
    (hsame : SameConns s t) (h : Conveys t read y) : Conveys s read y := by
  refine ⟨⟨h.sound, fun hup => hsame.serverConn ▸ h.up hup, fun which => ?_⟩,
    fun which hprompt => h.prompt which (hsame.prompt hprompt)⟩
  have hpending : t.pending which = s.pending which := by
    simp only [pending, hsame.inputOf, hsame.outputOf]
  rw [h.conserved, hpending]

/-! ## Members of a connection -/

section Perform

variable {c : TcpConnection} {x : Traced TcpConnection.Event TcpConnection} {data : Bytes}

theorem perform_up (hc : s.conn? which = some c)
    (hstate : which = .kServer → x.val.state = .kConnected → c.state = .kConnected)
    (hup : (s.perform which x).val.serverConn.state = .kConnected) :
    s.serverConn.state = .kConnected := by
  cases which with
  | kServer =>
      obtain rfl := Option.some.inj hc
      exact hstate rfl hup
  | kClient => exact hup

theorem relays_perform (hsound : s.Sound) (hc : s.conn? which = some c)
    (hx : Passes c data [] x)
    (hstate : which = .kServer → x.val.state = .kConnected → c.state = .kConnected) :
    Relays s (only which data) (s.perform which x) := by
  refine ⟨hsound.setConn hx.buffered, perform_up hc hstate, fun side => ?_⟩
  by_cases hside : side = which
  · subst hside
    -- The bytes are at the end of the input buffer.
    have hother := ServerClient.other_ne side
    have houtput : (s.perform side x).val.outputOf side.other = s.outputOf side.other :=
      outputOf_setConn_of_ne hother x.val
    have hinput : (s.perform side x).val.inputOf side = c.inputBuffer.content ++ data :=
      (inputOf_setConn s side x.val).trans hx.input
    have hwritten : written side.other (s.perform side x).trace = [] :=
      written_conn_of_ne hother.symm x.trace
    simp [pending, houtput, hinput, hwritten, inputOf_eq hc, only]
  · obtain rfl := ServerClient.eq_other hside
    have hinput : (s.perform which x).val.inputOf which.other = s.inputOf which.other :=
      inputOf_setConn_of_ne hside x.val
    have houtput : written which (s.perform which x).trace ++ (s.perform which x).val.outputOf which =
        s.outputOf which := by
      have hwritten : written which (s.perform which x).trace = bytesWritten x.trace :=
        written_conn which x.trace
      have hafter : (s.perform which x).val.outputOf which = x.val.outputBuffer.content :=
        outputOf_setConn s which x.val
      rw [hwritten, hafter, hx.output, outputOf_eq hc, List.append_nil]
    simp only [pending, ServerClient.other_other, hinput, only, if_neg hside, List.append_nil]
    rw [← List.append_assoc, houtput]

theorem prompt_perform {side : ServerClient} (hc : s.conn? which = some c)
    (hx : Passes c data [] x) (hstate : x.val.state = .kConnected → c.state = .kConnected)
    (hdata : side = which → data = []) (hprompt : s.Prompt side) :
    (s.perform which x).val.Prompt side := by
  intro hopen
  have hempty := hprompt (Open.of_setConn hc hstate hopen)
  by_cases hside : side = which
  · subst hside
    have hinput : (s.perform side x).val.inputOf side = c.inputBuffer.content ++ data :=
      (inputOf_setConn s side x.val).trans hx.input
    rw [hinput, hdata rfl, List.append_nil, ← inputOf_eq hc, hempty]
  · exact (inputOf_setConn_of_ne hside x.val).trans hempty

theorem still_perform (hsound : s.Sound) (hc : s.conn? which = some c) (hx : Passes c [] [] x)
    (hstate : x.val.state = .kConnected → c.state = .kConnected) :
    Still s (s.perform which x) := by
  have hrelays := relays_perform hsound hc hx fun _ => hstate
  rw [only_nil] at hrelays
  exact ⟨hrelays, fun side => prompt_perform hc hx hstate fun _ => rfl⟩

/-- A member that is called whether there is a connection or not. -/
theorem still_call (hsound : s.Sound)
    {member : TcpConnection → Traced TcpConnection.Event TcpConnection}
    (hmember : ∀ c, Buffered c → Passes c [] [] (member c))
    (hstate : ∀ c, (member c).val.state = .kConnected → c.state = .kConnected) :
    Still s (s.call which member) := by
  unfold call
  cases hc : s.conn? which with
  | none => exact SameConns.still ⟨rfl, rfl, id⟩ hsound
  | some c => exact still_perform hsound hc (hmember c (hsound which c hc)) (hstate c)

/-- A setter of a connection. -/
theorem still_modify (hsound : s.Sound) {f : TcpConnection → TcpConnection}
    (hsetter : ∀ c, Buffered c → Passes c [] [] (pure (f c)))
    (hstate : ∀ c, (f c).state = c.state) : Still s (pure (s.modify which f)) := by
  unfold modify
  cases hc : s.conn? which with
  | none => exact SameConns.still ⟨rfl, rfl, id⟩ hsound
  | some c =>
      have hperform := still_perform (x := pure (f c)) hsound hc (hsetter c (hsound which c hc))
        (fun hup => (hstate c).symm.trans hup)
      exact ⟨⟨hperform.sound, hperform.up, hperform.conserved⟩, hperform.prompt⟩

end Perform

theorem startReadInLoop_up (c : TcpConnection) (h : c.startReadInLoop.val.state = .kConnected) :
    c.state = .kConnected :=
  (TcpConnection.startReadInLoop_state c).symm.trans h

theorem stopReadInLoop_up (c : TcpConnection) (h : c.stopReadInLoop.val.state = .kConnected) :
    c.state = .kConnected :=
  (TcpConnection.stopReadInLoop_state c).symm.trans h

theorem still_startRead (hsound : s.Sound) (which : ServerClient) :
    Still s (s.call which TcpConnection.startReadInLoop) :=
  still_call hsound (fun _ => TcpConnection.passes_startReadInLoop) startReadInLoop_up

theorem still_stopRead (hsound : s.Sound) (which : ServerClient) :
    Still s (s.call which TcpConnection.stopReadInLoop) :=
  still_call hsound (fun _ => TcpConnection.passes_stopReadInLoop) stopReadInLoop_up

theorem still_shutdown (hsound : s.Sound) (which : ServerClient) :
    Still s (s.call which TcpConnection.shutdown) :=
  still_call hsound (fun _ => TcpConnection.passes_shutdown) fun _ => TcpConnection.shutdown_up

theorem still_setWriteComplete (hsound : s.Sound) (which : ServerClient) (cb : Bool) :
    Still s (pure (s.modify which fun c => c.setWriteCompleteCallback cb)) :=
  still_modify hsound (fun _ h => ⟨⟨h.input, h.output, h.interest, h.idle⟩,
    (List.append_nil _).symm, (List.append_nil _).symm⟩) fun _ => rfl

theorem still_setHighWaterMark (hsound : s.Sound) (which : ServerClient) :
    Still s (pure (s.modify which TcpConnection.setHighWaterMarkCallback)) :=
  still_modify hsound (fun _ h => ⟨⟨h.input, h.output, h.interest, h.idle⟩,
    (List.append_nil _).symm, (List.append_nil _).symm⟩) fun _ => rfl

/-! ## Passing a message on -/

section Send

variable {c d : TcpConnection}

/-- `send` with the input buffer of the other connection. -/
theorem sendBuffer_eq (hsound : s.Sound) (hc : s.conn? which = some c)
    (hd : s.conn? which.other = some d) (hup : d.state = .kConnected) (r : WriteResult) :
    s.sendBuffer which which.other r = (s.setConn which c.retrieved).perform which.other
      ((d.on c.poller).sendInLoop c.inputBuffer.content r) := by
  have htarget : (s.setConn which c.retrieved).conn? which.other = some (d.on c.poller) :=
    conn?_setConn_of_ne (ServerClient.other_ne which) hd
  have hmessage : c.inputBuffer.retrieveAsString.1 = c.inputBuffer.content :=
    Buffer.retrieveAsString_fst (hsound which c hc).input
  rw [sendBuffer, hc, hd, ← hmessage]
  simp only [hup, if_true]
  exact call_eq htarget

/-- The bytes move from the one buffer to the other one and the socket. -/
theorem still_send (hsound : s.Sound) (hc : s.conn? which = some c)
    (hd : s.conn? which.other = some d) (hup : d.state = .kConnected) (r : WriteResult) :
    Still s (s.sendBuffer which which.other r) ∧
      (s.sendBuffer which which.other r).val.inputOf which = [] := by
  have hother := ServerClient.other_ne which
  have hsource := TcpConnection.buffered_retrieved (hsound which c hc)
  have hx := TcpConnection.passes_sendInLoop ((hsound which.other d hd).on c.poller)
    (by simp [TcpConnection.on, hup]) c.inputBuffer.content r
  rw [sendBuffer_eq hsound hc hd hup]
  generalize hsend : (d.on c.poller).sendInLoop c.inputBuffer.content r = x at hx
  have hstate : x.val.state = d.state := hsend ▸ TcpConnection.sendInLoop_state _ _ _
  set u := s.setConn which c.retrieved with hu
  have hempty : (u.perform which.other x).val.inputOf which = [] := by
    rw [← Buffer.retrieveAll_content c.inputBuffer]
    exact (inputOf_setConn_of_ne hother.symm x.val).trans (inputOf_setConn s which c.retrieved)
  have hinput : (u.perform which.other x).val.inputOf which.other = s.inputOf which.other := by
    rw [inputOf_eq hd, ← List.append_nil d.inputBuffer.content]
    exact (inputOf_setConn u which.other x.val).trans hx.input
  have houtput : (u.perform which.other x).val.outputOf which = s.outputOf which := by
    rw [outputOf_eq hc]
    exact (outputOf_setConn_of_ne hother.symm x.val).trans (outputOf_setConn s which c.retrieved)
  have hfilled : (u.perform which.other x).val.outputOf which.other = x.val.outputBuffer.content :=
    outputOf_setConn u which.other x.val
  have hsent (hboth : (u.perform which.other x).val.serverConn.state = .kConnected) :
      s.serverConn.state = .kConnected := by
    have hbefore : u.serverConn.state = .kConnected :=
      perform_up (conn?_setConn_of_ne hother hd) (fun _ _ => hup) hboth
    have hclient : u.Open .kClient := hbefore
    exact Open.of_setConn (d := c.retrieved) hc id hclient
  refine ⟨⟨⟨(hsound.setConn hsource).setConn hx.buffered, hsent, fun side => ?_⟩,
    fun side hprompt => ?_⟩, hempty⟩
  · by_cases hside : side = which
    · subst hside
      have hwritten : written side.other (u.perform side.other x).trace = bytesWritten x.trace :=
        written_conn side.other x.trace
      simp only [pending, hempty, hfilled, hwritten, outputOf_eq hd, inputOf_eq hc, List.append_nil]
      exact hx.output
    · obtain rfl := ServerClient.eq_other hside
      have hwritten : written which (u.perform which.other x).trace = [] :=
        written_conn_of_ne hother x.trace
      simp [pending, hinput, houtput, hwritten]
  · intro hopen
    by_cases hside : side = which
    · rw [hside, hempty]
    · obtain rfl := ServerClient.eq_other hside
      rw [hinput]
      have hopen' : u.Open which.other :=
        Open.of_setConn (conn?_setConn_of_ne hother hd) (fun _ => hup) hopen
      exact hprompt (Open.of_setConn (d := c.retrieved) hc id hopen')

theorem still_sendBuffer (hsound : s.Sound) (which : ServerClient) (r : WriteResult) :
    Still s (s.sendBuffer which which.other r) := by
  cases hc : s.conn? which with
  | none =>
      rw [sendBuffer, hc]
      exact SameConns.still ⟨rfl, rfl, id⟩ hsound
  | some c =>
      cases hd : s.conn? which.other with
      | none =>
          rw [sendBuffer, hc, hd]
          exact SameConns.still ⟨rfl, rfl, id⟩ hsound
      | some d =>
          by_cases hup : d.state = .kConnected
          · exact (still_send hsound hc hd hup r).1
          · rw [sendBuffer, hc, hd]
            simp only [hup, if_false]
            exact SameConns.still ⟨rfl, rfl, id⟩ hsound

/-- Where the way is open, nothing is held back after `send`. -/
theorem prompt_sendBuffer (hsound : s.Sound) (hc : s.conn? which = some c) (r : WriteResult) :
    (s.sendBuffer which which.other r).val.Prompt which := by
  intro hopen
  by_cases hway : ∃ d, s.conn? which.other = some d ∧ d.state = .kConnected
  · obtain ⟨d, hd, hup⟩ := hway
    exact (still_send hsound hc hd hup r).2
  · -- Nothing has been sent, so the way is not open.
    have hstill : s.sendBuffer which which.other r = pure s := by
      rw [sendBuffer, hc]
      cases hd : s.conn? which.other with
      | none => rfl
      | some d => exact if_neg fun hup => hway ⟨d, hd, hup⟩
    rw [hstill] at hopen
    exact absurd hopen.target hway

end Send

/-- `onServerMessage` or `onClientMessage`. -/
theorem still_onMessage (hsound : s.Sound) (which : ServerClient) (r : WriteResult) :
    Still s (s.onMessage r which) := by
  cases which with
  | kServer =>
      unfold onMessage
      dsimp only
      split_ifs
      · exact still_sendBuffer hsound .kServer r
      · exact SameConns.still ⟨rfl, rfl, id⟩ hsound
  | kClient => exact still_sendBuffer hsound .kClient r

theorem prompt_onMessage (hsound : s.Sound) {c : TcpConnection} (hc : s.conn? which = some c)
    (r : WriteResult) : (s.onMessage r which).val.Prompt which := by
  cases which with
  | kServer =>
      unfold onMessage
      dsimp only
      split_ifs with hcontext
      · exact prompt_sendBuffer hsound hc r
      · exact fun hopen => absurd hopen.1 hcontext
  | kClient => exact prompt_sendBuffer hsound hc r

/-! ## The other members of a tunnel -/

theorem still_teardown (hsound : s.Sound) : Still s s.teardown := by
  unfold teardown
  have hflags : SameConns s { s with callbacks := false, context := false } := ⟨rfl, rfl, nofun⟩
  have hshutdown := still_shutdown (hflags.sound hsound) .kServer
  exact Conveys.of_same hflags
    (hshutdown.bind (SameConns.still ⟨rfl, rfl, id⟩ hshutdown.sound))

theorem still_disconnect (hsound : s.Sound) : Still s s.disconnect := by
  unfold disconnect
  split_ifs
  · exact still_shutdown hsound .kClient
  · exact SameConns.still ⟨rfl, rfl, id⟩ hsound

/-- An assertion, or the use of a null pointer. -/
theorem written_event (which : ServerClient) {e : Event} (he : ∀ side ce, e ≠ .conn side ce) :
    written which [e] = [] := by
  cases e with
  | conn side ce => exact absurd rfl (he side ce)
  | nullClient | unmapped | removedOther => rfl

theorem Still.check {e : Event} (he : ∀ side ce, e ≠ .conn side ce) {p : Prop} [Decidable p]
    {y : Traced Event Tunnel} (h : Still s y) : Still s (Traced.check e p >>= fun _ => y) := by
  refine ⟨⟨h.sound, h.up, fun which => ?_⟩, h.prompt⟩
  have hquiet : written which.other (Traced.check e p).trace = [] := by
    rw [Traced.check_trace]
    split_ifs
    · rfl
    · exact written_event _ he
  rw [Traced.bind_trace, written_append, hquiet, List.nil_append]
  exact h.conserved which

theorem still_onDown (hsound : s.Sound) (which : ServerClient) : Still s (s.onDown which) := by
  cases which with
  | kServer =>
      unfold onDown
      refine Still.check (by nofun) ?_
      split_ifs
      · have hdisconnect := still_disconnect hsound
        exact hdisconnect.bind (SameConns.still ⟨rfl, rfl, id⟩ hdisconnect.sound)
      · exact SameConns.still ⟨rfl, rfl, id⟩ hsound
  | kClient => exact still_teardown hsound

theorem still_removeConnection (hsound : s.Sound) (which : ServerClient) :
    Still s (s.removeConnection which) := by
  cases which with
  | kServer => exact SameConns.still ⟨rfl, rfl, id⟩ hsound
  | kClient =>
      unfold removeConnection
      refine Still.check (by nofun) ?_
      exact SameConns.still ⟨rfl, rfl, id⟩ hsound

theorem still_useClient (hsound : s.Sound) {use : Tunnel → Traced Event Tunnel}
    (h : Still s (use s)) : Still s (s.useClient use) := by
  unfold useClient
  split_ifs
  · exact h
  · have hquiet (which : ServerClient) : written which [.nullClient] = [] :=
      written_event which nofun
    refine ⟨⟨hsound, id, fun which => ?_⟩, fun _ => id⟩
    simp [hquiet]

/-- A call followed by a setter. -/
theorem still_flow {which other : ServerClient} {cb : Bool}
    {member : TcpConnection → Traced TcpConnection.Event TcpConnection}
    (h : Still s (s.call which member)) :
    Still s (s.call which member >>= fun s => pure (s.modify other fun c =>
      c.setWriteCompleteCallback cb)) :=
  h.bind (still_setWriteComplete h.sound other cb)

theorem still_onHighWaterMark (hsound : s.Sound) (which : ServerClient) :
    Still s (s.onHighWaterMark which) := by
  cases which with
  | kServer =>
      unfold onHighWaterMark
      dsimp only
      split_ifs
      · refine still_useClient hsound ?_
        exact still_flow (still_stopRead hsound .kClient)
      · exact SameConns.still ⟨rfl, rfl, id⟩ hsound
  | kClient =>
      unfold onHighWaterMark
      refine still_useClient hsound ?_
      split_ifs
      · exact still_flow (still_stopRead hsound .kServer)
      · exact SameConns.still ⟨rfl, rfl, id⟩ hsound

theorem still_onWriteComplete (hsound : s.Sound) (which : ServerClient) :
    Still s (s.onWriteComplete which) := by
  cases which with
  | kServer =>
      unfold onWriteComplete
      refine still_useClient hsound ?_
      exact still_flow (still_startRead hsound .kClient)
  | kClient =>
      unfold onWriteComplete
      have hstart := still_startRead hsound .kServer
      refine hstart.bind (still_useClient hstart.sound ?_)
      exact still_setWriteComplete hstart.sound .kClient false

/-! ## Steps -/

section React

variable {c : TcpConnection} {x : Traced TcpConnection.Event TcpConnection} {data : Bytes}

/-- What has been read is passed on by the message callback. -/
theorem conveys_message (hsound : s.Sound) (hc : s.conn? which = some c) (hx : Passes c data [] x)
    (hstate : x.val.state = .kConnected → c.state = .kConnected)
    (hmessage : data ≠ [] → .messageCallback ∈ x.trace) (r : WriteResult) :
    Conveys s (only which data) (s.perform which x >>= fun s =>
      if .messageCallback ∈ x.trace then s.onMessage r which else pure s) := by
  have hperform := relays_perform hsound hc hx fun _ => hstate
  split_ifs with htold
  · have hafter : (s.perform which x).val.conn? which = some (x.val.on x.val.poller) := by
      cases which <;> rfl
    have honMessage := still_onMessage hperform.sound which r
    refine ⟨hperform.bind honMessage.toRelays, fun side hprompt => ?_⟩
    by_cases hside : side = which
    · rw [hside]
      exact prompt_onMessage hperform.sound hafter r
    · exact honMessage.prompt side
        (prompt_perform hc hx hstate (fun hsame => absurd hsame hside) hprompt)
  · have hnothing : data = [] := by
      by_contra hsome
      exact htold (hmessage hsome)
    rw [bind_pure]
    exact ⟨hperform, fun side => prompt_perform hc hx hstate fun _ => hnothing⟩

theorem conveys_react (hsound : s.Sound) (hc : s.conn? which = some c) (hx : Passes c data [] x)
    (hstate : x.val.state = .kConnected → c.state = .kConnected)
    (hmessage : data ≠ [] → .messageCallback ∈ x.trace) (r : WriteResult) :
    Conveys s (only which data) (s.react which x r) := by
  have hread := conveys_message hsound hc hx hstate hmessage r
  have hreact : s.react which x r = (s.perform which x >>= fun s =>
      if .messageCallback ∈ x.trace then s.onMessage r which else pure s) >>= fun s =>
        (if .connectionCallback false ∈ x.trace then s.onDown which else pure s) >>= fun s =>
          if .closeCallback ∈ x.trace then s.removeConnection which else pure s := by
    simp only [react, bind_assoc]
    split_ifs <;> simp
  rw [hreact]
  generalize (s.perform which x >>= fun s =>
    if .messageCallback ∈ x.trace then s.onMessage r which else pure s) = y at hread ⊢
  have hdown : Still y.val
      (if .connectionCallback false ∈ x.trace then y.val.onDown which else pure y.val) := by
    split_ifs
    · exact still_onDown hread.sound which
    · exact SameConns.still ⟨rfl, rfl, id⟩ hread.sound
  have hclose (u : Tunnel) (hu : u.Sound) :
      Still u (if .closeCallback ∈ x.trace then u.removeConnection which else pure u) := by
    split_ifs
    · exact still_removeConnection hu which
    · exact SameConns.still ⟨rfl, rfl, id⟩ hu
  exact hread.bind (hdown.bind (hclose _ hdown.sound))

end React

/-- The bytes that have waited for the client go out as soon as it is there. -/
theorem relays_onClientUp (hsound : s.Sound) (r : WriteResult) :
    Relays s (fun _ => []) (s.onClientUp r) ∧ (s.onClientUp r).val.Prompt .kServer ∧
      (s.Prompt .kClient → (s.onClientUp r).val.Prompt .kClient) := by
  have hmodify := still_setHighWaterMark hsound .kClient
  set u : Tunnel := { s.modify .kClient TcpConnection.setHighWaterMarkCallback with
    context := true } with hu
  have hset : Relays s (fun _ => []) (pure u) :=
    ⟨hmodify.sound, hmodify.up, hmodify.conserved⟩
  have hstart := still_startRead hset.sound .kServer
  set v : Tunnel := { (u.call .kServer TcpConnection.startReadInLoop).val with
    clientConn := true } with hv
  have hjoined : Still u (u.call .kServer TcpConnection.startReadInLoop >>= fun s =>
      pure { s with clientConn := true }) :=
    hstart.bind (SameConns.still ⟨rfl, rfl, id⟩ hstart.sound)
  have hsend : Still v (if 0 < v.serverConn.inputBuffer.readableBytes then
      v.sendBuffer .kServer .kClient r else pure v) ∧
        (if 0 < v.serverConn.inputBuffer.readableBytes then
          v.sendBuffer .kServer .kClient r else pure v).val.Prompt .kServer := by
    have hsound' : v.Sound := hjoined.sound
    split_ifs with hreadable
    · exact ⟨still_sendBuffer hsound' .kServer r, prompt_sendBuffer hsound' rfl r⟩
    · refine ⟨SameConns.still ⟨rfl, rfl, id⟩ hsound', fun _ => ?_⟩
      exact (Buffer.content_eq_nil (hsound' .kServer _ rfl).input).mpr
        (Nat.eq_zero_of_not_pos hreadable)
  have hup : s.onClientUp r = (u.call .kServer TcpConnection.startReadInLoop >>= fun s =>
      pure { s with clientConn := true }) >>= fun s =>
        if 0 < s.serverConn.inputBuffer.readableBytes then s.sendBuffer .kServer .kClient r
        else pure s := by
    rw [bind_assoc]
    rfl
  rw [hup]
  refine ⟨?_, hsend.2, fun hprompt => ?_⟩
  · exact hset.of_pure (hjoined.toRelays.bind hsend.1.toRelays)
  · exact hsend.1.prompt .kClient (hjoined.prompt .kClient (hmodify.prompt .kClient hprompt))

/-- The connection of `client_` begins with empty buffers. -/
theorem still_newConnection (hsound : s.Sound) (hmade : s.made = none) (sockfd : Int)
    (ptr : ChannelPtr) (r : WriteResult) : Still s (s.newConnection sockfd ptr r) := by
  set c := TcpConnection.create (Channel.create ptr sockfd) s.poller false false with hcreate
  set u : Tunnel := { s with made := some c, connection := true } with hu
  have hbuffered : Buffered c := TcpConnection.buffered_create _ _ _ _ (by
    simp [Channel.create, Channel.isWriting])
  have hempty : s.inputOf .kClient = [] ∧ s.outputOf .kClient = [] := by
    simp [inputOf, outputOf, conn?, hmade]
  have hfresh : u.inputOf .kClient = [] ∧ u.outputOf .kClient = [] :=
    ⟨Buffer.fresh_content, Buffer.fresh_content⟩
  have hnew : Relays s (fun _ => []) (pure u) := by
    have hset : (s.setConn .kClient c).Sound := hsound.setConn hbuffered
    refine ⟨hset, id, fun which => ?_⟩
    rw [List.append_nil]
    cases which with
    | kServer =>
        show u.outputOf .kClient ++ s.inputOf .kServer = s.outputOf .kClient ++ s.inputOf .kServer
        rw [hfresh.2, hempty.2]
    | kClient =>
        show s.outputOf .kServer ++ u.inputOf .kClient = s.outputOf .kServer ++ s.inputOf .kClient
        rw [hfresh.1, hempty.1]
  have hpasses := TcpConnection.passes_connectionEstablished (hbuffered.on s.poller) rfl
  have hmade' : u.conn? .kClient = some (c.on s.poller) := rfl
  have hestablished := relays_perform hnew.sound hmade' hpasses
    fun hside => absurd hside (by decide)
  rw [only_nil] at hestablished
  have hinput : (u.perform .kClient (c.on s.poller).connectionEstablished).val.inputOf .kClient =
      [] := by
    rw [← hfresh.1, ← List.append_nil (u.inputOf .kClient)]
    exact (inputOf_setConn u .kClient _).trans hpasses.input
  obtain ⟨hrelays, hserver, hclient⟩ := relays_onClientUp hestablished.sound r
  have heq : s.newConnection sockfd ptr r =
      u.perform .kClient (c.on s.poller).connectionEstablished >>= fun s => s.onClientUp r := rfl
  rw [heq]
  refine ⟨hnew.of_pure (hestablished.bind hrelays), fun which _ => ?_⟩
  cases which with
  | kServer => exact hserver
  | kClient => exact hclient fun _ => hinput

/-- A functor. -/
theorem still_invoke (hsound : s.Sound) (f : TunnelFunctor) : Still s (s.invoke f) := by
  cases f with
  | connectionDestroyed which =>
      unfold invoke
      dsimp only
      cases hc : s.conn? which with
      | none => exact SameConns.still ⟨rfl, rfl, id⟩ hsound
      | some c =>
          have hreact := conveys_react hsound hc
            (TcpConnection.passes_connectionDestroyed (hsound which c hc))
            (TcpConnection.up_of_or (TcpConnection.connectionDestroyed_state c))
            (fun hsome => absurd rfl hsome) (.error true)
          rwa [only_nil] at hreact
  | flow which f =>
      unfold invoke
      dsimp only
      split_ifs
      · cases f with
        | highWaterMarkCallback len => exact still_onHighWaterMark hsound which
        | writeCompleteCallback => exact still_onWriteComplete hsound which
      · exact SameConns.still ⟨rfl, rfl, id⟩ hsound

/-- `poll` sets `revents_`. -/
theorem still_revents (hsound : s.Sound) {c : TcpConnection} (hc : s.conn? which = some c)
    (revents : EventMask) (iteration : Iteration ServerClient TunnelFunctor) :
    Still s (pure { s.setConn which { c with channel := { c.channel with revents } } with
      iteration }) := by
  have hbuffered := hsound which c hc
  have hperform := still_perform (x := pure { c with channel := { c.channel with revents } })
    hsound hc ⟨⟨hbuffered.input, hbuffered.output, hbuffered.interest, hbuffered.idle⟩,
      (List.append_nil _).symm, (List.append_nil _).symm⟩ id
  exact ⟨⟨hperform.sound, hperform.up, hperform.conserved⟩, hperform.prompt⟩

/-- What a step does to the streams. -/
theorem conveys_step {l : Label} {es : List Event} (hsound : s.Sound) (h : Step s l es t) :
    Conveys s (s.reads l) ⟨t, es⟩ := by
  have hstep : s.step l = some ⟨t, es⟩ := h
  cases l with
  | activate which revents =>
      simp only [Tunnel.step] at hstep
      split at hstep
      · simp at hstep
      · rename_i c hc
        split_ifs at hstep
        obtain ⟨iteration, -, heq⟩ := Option.map_eq_some_iff.mp hstep
        rw [← heq]
        exact still_revents hsound hc revents iteration
  | wake =>
      simp only [Tunnel.step] at hstep
      split_ifs at hstep
      obtain ⟨iteration, -, heq⟩ := Option.map_eq_some_iff.mp hstep
      rw [← heq]
      exact SameConns.still ⟨rfl, rfl, id⟩ hsound
  | handleEvent =>
      simp only [Tunnel.step] at hstep
      split_ifs at hstep
      split at hstep
      · simp at hstep
      · obtain ⟨c, -, heq⟩ := Option.map_eq_some_iff.mp hstep
        rw [← heq]
        exact SameConns.still ⟨rfl, rfl, id⟩ hsound
  | callback read write =>
      simp only [Tunnel.step] at hstep
      split at hstep
      · simp at hstep
      · rename_i which cb handling hhandling
        obtain ⟨c, hc, heq⟩ := Option.map_eq_some_iff.mp hstep
        have hreads : s.reads (.callback read write) = only which (received cb read) := by
          simp only [reads, hhandling]
        rw [← heq, hreads]
        have hbuffered := hsound which c hc
        have hmoved : SameConns s { s with handling } := ⟨rfl, rfl, id⟩
        exact Conveys.of_same hmoved (conveys_react (hmoved.sound hsound) hc
          (TcpConnection.passes_handle hbuffered read write cb)
            (TcpConnection.up_of_or (TcpConnection.handle_state c read write cb))
          (TcpConnection.messageCallback_mem_handle hbuffered read write cb) write)
  | newConnection sockfd ptr write =>
      simp only [Tunnel.step] at hstep
      split_ifs at hstep with henabled
      rw [← Option.some.inj hstep]
      exact still_newConnection hsound (Option.isNone_iff_eq_none.mp henabled.2.2.1) sockfd ptr write
  | swap =>
      simp only [Tunnel.step] at hstep
      split_ifs at hstep
      obtain ⟨iteration, -, heq⟩ := Option.map_eq_some_iff.mp hstep
      rw [← heq]
      exact SameConns.still ⟨rfl, rfl, id⟩ hsound
  | runFunctor =>
      obtain ⟨⟨f, iteration⟩, -, heq⟩ := Option.map_eq_some_iff.mp hstep
      rw [← heq]
      have hmoved : SameConns s { s with iteration } := ⟨rfl, rfl, id⟩
      exact Conveys.of_same hmoved (still_invoke (hmoved.sound hsound) f)
  | finish =>
      obtain ⟨iteration, -, heq⟩ := Option.map_eq_some_iff.mp hstep
      rw [← heq]
      exact SameConns.still ⟨rfl, rfl, id⟩ hsound

/-! ## Runs -/

theorem Start.sound (h : Start s)
    (hwriting : s.serverConn.channel.isWriting ↔ 0 < s.serverConn.outputBuffer.readableBytes) :
    s.Sound := by
  obtain ⟨c, iteration, handling, state, -, -, input, output⟩ := h
  intro which d hd
  cases which with
  | kServer =>
      obtain rfl := Option.some.inj hd
      exact ⟨input, output, fun _ => hwriting, fun hdown => nomatch state.symm.trans hdown⟩
  | kClient => exact nomatch hd

theorem Start.prompt (h : Start s) (which : ServerClient) : s.Prompt which := by
  obtain ⟨c, iteration, handling⟩ := h
  cases which with
  | kServer => exact fun hopen => nomatch hopen.2.choose_spec.1
  | kClient => exact fun _ => rfl

/-- **A tunnel is two byte streams.**  In every run, whatever the order in which the connections
read, write and close, what has been accepted on the socket of one side, what waits in its output
buffer, and what waits in the input buffer of the other side are the bytes that the other side has
read, in this order.  While the way is open, nothing waits in the input buffer. -/
theorem streams_conserved {ls : List Label} {es : List Event} {read : ServerClient → Bytes}
    (hstart : Start s)
    (hwriting : s.serverConn.channel.isWriting ↔ 0 < s.serverConn.outputBuffer.readableBytes)
    (hrun : Run (remember noteReads Step) (s, fun _ => []) ls es (t, read)) :
    ∀ which, written which.other es ++ (t.outputOf which.other ++ t.inputOf which) =
        s.pending which ++ read which ∧ (t.Open which → t.inputOf which = []) := by
  have hinvariant : t.Sound ∧ ∀ which,
      written which.other es ++ t.pending which = s.pending which ++ read which ∧
        t.Prompt which := by
    refine Run.history (I := fun past (u : Tunnel × (ServerClient → Bytes)) => u.1.Sound ∧
      ∀ which, written which.other past ++ u.1.pending which = s.pending which ++ u.2 which ∧
        u.1.Prompt which) hrun [] ?_ ?_
    · exact ⟨hstart.sound hwriting, fun which => ⟨by simp, hstart.prompt which⟩⟩
    · rintro past ⟨u, before⟩ l es ⟨v, after⟩ ⟨hsound, hall⟩ ⟨hstep, rfl⟩
      have hconveys := conveys_step hsound hstep
      refine ⟨hconveys.sound, fun which => ⟨?_, hconveys.prompt which (hall which).2⟩⟩
      rw [written_append, List.append_assoc, hconveys.conserved, ← List.append_assoc,
        (hall which).1, List.append_assoc]
      rfl
  exact hinvariant.2

/-- Two bytes wait for the client, which takes one of them at once, and another one follows. -/
def forwarded : List Label :=
  [.newConnection 6 1 (.count 1), .swap, .finish, .activate .kServer POLLIN,
    .activate .kClient POLLOUT, .wake, .handleEvent, .callback (some [3]) (.error true),
    .handleEvent, .callback none (.count 2)]

theorem streams_conserved_forwarded :
    ∃ (es : List Event) (t : Tunnel) (read : ServerClient → Bytes),
    (∀ which, written which.other es ++ (t.outputOf which.other ++ t.inputOf which) =
      (accepting (Buffer.fresh.append [1, 2]).val).pending which ++ read which ∧
        (t.Open which → t.inputOf which = [])) ∧ written .kClient es = [1, 2, 3] := by
  obtain ⟨es, t, hrun, hwritten⟩ : ∃ es t,
      Run Step (accepting (Buffer.fresh.append [1, 2]).val) forwarded es t ∧
        written .kClient es = [1, 2, 3] :=
    Run.exists_of_exec _ (by decide +kernel)
  obtain ⟨read, hremember⟩ := hrun.remember noteReads fun _ => []
  have hvalid := (Buffer.append_keeps Buffer.fresh_valid [1, 2]).valid
  exact ⟨es, t, read, streams_conserved (start_accepting hvalid) (by decide) hremember, hwritten⟩

end Tunnel
end Chaonet
