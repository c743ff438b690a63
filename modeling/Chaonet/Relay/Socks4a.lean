import Chaonet.Connection.Exchange
import Chaonet.Relay.Tunnel

/-!
# The request of a SOCKS client

`onServerMessage` embeds the message callback of the proxy.  A request names where the tunnel leads
to: an address, or an address that is none and the name of a host behind it.

A request is answered as soon as it is complete, in whatever pieces it comes, unless more than 128
bytes come at once.  What follows it stays in the input buffer until the client of the tunnel has
connected (`Stage`); only the tunnel sets the context of the connection, and its steps are not among
those of a `Service`.
-/

namespace Chaonet

open Foundation

open Service (member handed connEvents userEvents Ended)
open TcpConnection (Buffered Passes)
open Exchange (Responds)

namespace Socks4a

/-- `sin_port` and `sin_addr` of a `sockaddr_in`, in network order. -/
structure SockAddr where
  port : Bytes
  ip : Bytes
deriving DecidableEq, Repr

/-- What the proxy has for a connection: the server that its tunnel leads to, if `g_tunnels` has one,
and the connection of the tunnel's client, if `getContext()` has one. -/
structure Session where
  tunnel : Option SockAddr
  context : Option TcpConnection

def Session.fresh : Session := ⟨none, none⟩

@[simp] theorem Session.fresh_tunnel : fresh.tunnel = none := rfl

/-- What the environment decides: what `InetAddress::resolve` finds, and what `::write` returns. -/
structure Input where
  resolve : Bytes → Option Bytes
  write : WriteResult

inductive Event
  | resolve (hostName : Bytes) (ip : Option Bytes)
  /-- `connect()` of a tunnel that has been set up. -/
  | connect (addr : SockAddr)
  /-- An event of the connection in the context. -/
  | client (e : TcpConnection.Event)
deriving DecidableEq, Repr

/-- `std::find(begin, end, b)`. -/
def find (buffer : Bytes) (begin_ end_ : Nat) (b : UInt8) : Nat :=
  begin_ + (Foundation.segment buffer begin_ end_).idxOf b

def replyGranted (addr : SockAddr) : Bytes := [0, 0x5a] ++ addr.port ++ addr.ip

def replyRejected : Bytes := [0, 0x5b] ++ ascii "UVWXYZ"

/-- The end of `onServerMessage`: the request ends at `where_`. -/
def respond (u : Session) (c : TcpConnection) (ver cmd : UInt8) (addr : SockAddr) (okay : Bool)
    (where_ : Nat) (write : WriteResult) :
    Traced (Service.Event Event) (Session × TcpConnection) :=
  if ver = 4 ∧ cmd = 1 ∧ okay = true then do
    let c := c.setHighWaterMarkCallback
    Traced.emit (.user (.connect addr))
    let inputBuffer ← (c.inputBuffer.retrieveUntil (where_ + 1)).lift fun a => .conn (.buffer a)
    let c ← member ({ c with inputBuffer }.send (replyGranted addr) write)
    pure ({ u with tunnel := some addr }, c)
  else do
    let c ← member (c.send replyRejected write)
    let c ← member c.shutdown
    pure (u, c)

/-- `clientConn->send(buf)`. -/
def relay (u : Session) (clientConn : TcpConnection) (c : TcpConnection) (write : WriteResult) :
    Traced (Service.Event Event) (Session × TcpConnection) :=
  if clientConn.state = .kConnected then do
    let (msg, inputBuffer) := c.inputBuffer.retrieveAsString
    let clientConn ← (clientConn.sendInLoop msg write).lift fun e => .user (.client e)
    pure ({ u with context := some clientConn }, { c with inputBuffer })
  else pure (u, c)

def onServerMessage (u : Session) (c : TcpConnection) (w : Input) :
    Traced (Service.Event Event) (Session × TcpConnection) :=
  let buf := c.inputBuffer
  if u.tunnel ≠ none then
    match u.context with
    | some clientConn => relay u clientConn c w.write
    | none => pure (u, c)
  else if 128 < buf.readableBytes then do
    let c ← member c.shutdown
    pure (u, c)
  else if 8 < buf.readableBytes then
    let begin_ := buf.peek + 8
    let end_ := buf.peek + buf.readableBytes
    let where_ := find buf.buffer begin_ end_ 0
    if where_ ≠ end_ then
      let ver := buf.buffer.getD buf.peek 0
      let cmd := buf.buffer.getD (buf.peek + 1) 0
      let addr : SockAddr :=
        { port := Foundation.segment buf.buffer (buf.peek + 2) (buf.peek + 4)
          ip := Foundation.segment buf.buffer (buf.peek + 4) (buf.peek + 8) }
      if hostOrder addr.ip < 256 then
        let endOfHostName := find buf.buffer (where_ + 1) end_ 0
        if endOfHostName ≠ end_ then do
          let hostName := Foundation.segment buf.buffer (where_ + 1) endOfHostName
          let tmp := w.resolve hostName
          Traced.emit (.user (.resolve hostName tmp))
          respond u c ver cmd { addr with ip := tmp.getD addr.ip } tmp.isSome endOfHostName w.write
        else pure (u, c)
      else respond u c ver cmd addr true where_ w.write
    else pure (u, c)
  else pure (u, c)

def service : Service Session Input Event :=
  ⟨onServerMessage, fun u c _ => pure (u, c)⟩

/-! ## Requests -/

/-- A request on the wire.  There is a name exactly if the address is none. -/
structure Request where
  ver : UInt8
  cmd : UInt8
  addr : SockAddr
  userId : Bytes
  hostName : Option Bytes
  port : addr.port.length = 2
  ip : addr.ip.length = 4
  userId_nul : 0 ∉ userId
  hostName_nul : ∀ name ∈ hostName, 0 ∉ name
  named : hostName.isSome ↔ hostOrder addr.ip < 256

namespace Request

def head (q : Request) : Bytes := [q.ver, q.cmd] ++ q.addr.port ++ q.addr.ip

/-- What comes behind the user id. -/
def tail (q : Request) (rest : Bytes) : Bytes :=
  match q.hostName with
  | none => rest
  | some hostName => hostName ++ 0 :: rest

def bytes (q : Request) : Bytes := q.head ++ q.userId ++ 0 :: q.tail []

variable {q q' : Request} {rest rest' : Bytes}

theorem bytes_append (q : Request) (rest : Bytes) :
    q.bytes ++ rest = q.head ++ (q.userId ++ 0 :: q.tail rest) := by
  unfold bytes tail
  cases q.hostName <;> simp

theorem length_head (q : Request) : q.head.length = 8 := by
  simp [head, q.port, q.ip]

/-- No request is the beginning of another one. -/
theorem bytes_append_inj (h : q.bytes ++ rest = q'.bytes ++ rest') : q = q' ∧ rest = rest' := by
  rw [bytes_append, bytes_append] at h
  obtain ⟨hhead, hrest⟩ := List.append_inj h (by rw [length_head, length_head])
  obtain ⟨huser, htail⟩ := append_cons_inj q.userId_nul q'.userId_nul hrest
  obtain ⟨ver, cmd, ⟨port, ip⟩, userId, hostName, hport, hip, huserId, hhostName, hnamed⟩ := q
  obtain ⟨ver', cmd', ⟨port', ip'⟩, userId', hostName', hport', hip', huserId', hhostName',
    hnamed'⟩ := q'
  simp only [head, List.cons_append, List.nil_append, List.cons.injEq] at hhead
  obtain ⟨rfl, rfl, hhead⟩ := hhead
  obtain ⟨rfl, rfl⟩ := List.append_inj hhead (hport.trans hport'.symm)
  obtain rfl : userId = userId' := huser
  cases hostName with
  | none =>
      cases hostName' with
      | none => exact ⟨rfl, htail⟩
      | some name' => exact absurd (hnamed.mpr (hnamed'.mp rfl)) (by simp)
  | some name =>
      cases hostName' with
      | none => exact absurd (hnamed'.mpr (hnamed.mp rfl)) (by simp)
      | some name' =>
          obtain ⟨rfl, rfl⟩ := append_cons_inj (hhostName name rfl) (hhostName' name' rfl) htail
          exact ⟨rfl, rfl⟩

/-- What the name server is asked for a request: where it leads to, and whether that is known. -/
def lookup (q : Request) (resolve : Bytes → Option Bytes) :
    Traced (Service.Event Event) (SockAddr × Bool) :=
  match q.hostName with
  | none => pure (q.addr, true)
  | some hostName => do
      let tmp := resolve hostName
      Traced.emit (.user (.resolve hostName tmp))
      pure ({ q.addr with ip := tmp.getD q.addr.ip }, tmp.isSome)

end Request

/-! ## What is found in the buffer -/

section Parse

variable {c : TcpConnection} {q : Request} {rest u t : Bytes}

theorem segment_content {b : Buffer} (h : b.Valid) {i j : Nat} (hj : j ≤ b.readableBytes) :
    Foundation.segment b.buffer (b.peek + i) (b.peek + j) = Foundation.segment b.content i j := by
  have horder := h.reader_le_writer
  have hend : b.peek + j ≤ b.beginWrite := by
    rw [Buffer.readableBytes] at hj
    rw [Buffer.peek, Buffer.beginWrite]
    omega
  exact (segment_segment hend).symm

/-- `find` in the readable bytes. -/
theorem find_content {b : Buffer} (h : b.Valid) (i : Nat) (x : UInt8) :
    find b.buffer (b.peek + i) (b.peek + b.readableBytes) x =
      b.peek + (i + (b.content.drop i).idxOf x) := by
  have hend : Foundation.segment b.content i b.readableBytes = b.content.drop i := by
    rw [Foundation.segment, List.take_of_length_le]
    rw [List.length_drop, Buffer.length_content h]
  rw [find, segment_content h (Nat.le_refl _), hend, Nat.add_assoc]

theorem getD_content {b : Buffer} {i : Nat} (hi : i < b.readableBytes) :
    b.buffer.getD (b.peek + i) 0 = b.content.getD i 0 := by
  have hi' : i < b.beginWrite - b.peek := hi
  simp only [List.getD_eq_getElem?_getD, Buffer.content, Foundation.segment]
  rw [List.getElem?_take_of_lt hi', List.getElem?_drop]

theorem exists_head {s : Bytes} (h : 8 ≤ s.length) : ∃ ver cmd port ip, port.length = 2 ∧
    ip.length = 4 ∧ s.take 8 = [ver, cmd] ++ port ++ ip := by
  match s, h with
  | ver :: cmd :: p :: p' :: a :: a' :: a'' :: a''' :: s, _ =>
      exact ⟨ver, cmd, [p, p'], [a, a', a'', a'''], rfl, rfl, rfl⟩

/-- A request is at least nine bytes long. -/
theorem onServerMessage_short (h : c.inputBuffer.Valid) (w : Input)
    (hshort : c.inputBuffer.content.length ≤ 8) : onServerMessage .fresh c w = pure (.fresh, c) := by
  rw [Buffer.length_content h] at hshort
  have hfew : ¬128 < c.inputBuffer.readableBytes := by omega
  simp [onServerMessage, hfew, Nat.not_lt.mpr hshort]

/-- The user id has not ended. -/
theorem onServerMessage_open (h : c.inputBuffer.Valid) (w : Input)
    (hfew : c.inputBuffer.content.length ≤ 128) (hnul : 0 ∉ c.inputBuffer.content.drop 8) :
    onServerMessage .fresh c w = pure (.fresh, c) := by
  by_cases hshort : c.inputBuffer.content.length ≤ 8
  · exact onServerMessage_short h w hshort
  · have hwhere : find c.inputBuffer.buffer (c.inputBuffer.peek + 8)
        (c.inputBuffer.peek + c.inputBuffer.readableBytes) 0 =
        c.inputBuffer.peek + c.inputBuffer.readableBytes := by
      rw [find_content h, List.idxOf_eq_length hnul, List.length_drop, Buffer.length_content h]
      rw [Buffer.length_content h] at hshort
      omega
    rw [Buffer.length_content h] at hfew
    simp [onServerMessage, Nat.not_lt.mpr hfew, hwhere]

/-- The user id `u` has ended. -/
theorem onServerMessage_ended (h : c.inputBuffer.Valid) (w : Input) {ver cmd : UInt8}
    {port ip : Bytes} (hport : port.length = 2) (hip : ip.length = 4)
    (hfew : c.inputBuffer.content.length ≤ 128)
    (hcontent : c.inputBuffer.content = [ver, cmd] ++ port ++ ip ++ (u ++ 0 :: t)) (hu : 0 ∉ u) :
    onServerMessage .fresh c w =
      if hostOrder ip < 256 then
        if 0 ∈ t then do
          let hostName := t.take (t.idxOf 0)
          let tmp := w.resolve hostName
          Traced.emit (.user (.resolve hostName tmp))
          respond .fresh c ver cmd ⟨port, tmp.getD ip⟩ tmp.isSome
            (c.inputBuffer.peek + (8 + u.length + 1 + t.idxOf 0)) w.write
        else pure (.fresh, c)
      else respond .fresh c ver cmd ⟨port, ip⟩ true (c.inputBuffer.peek + (8 + u.length)) w.write := by
  have hlength := Buffer.length_content h
  have hsum : c.inputBuffer.content.length = 8 + u.length + 1 + t.length := by
    rw [hcontent]
    simp only [List.length_append, List.length_cons, List.length_nil, hport, hip]
    omega
  have hdrop : c.inputBuffer.content.drop 8 = u ++ 0 :: t := by
    rw [hcontent]
    exact List.drop_left' (by simp [hport, hip])
  have hrest : c.inputBuffer.content.drop (8 + u.length + 1) = t := by
    have hcut : (u ++ 0 :: t).drop (u.length + 1) = t := by
      rw [← List.drop_drop, List.drop_left]
      rfl
    rw [Nat.add_assoc, ← List.drop_drop, hdrop, hcut]
  -- Where the user id and the name of the host end.
  have hwhere : find c.inputBuffer.buffer (c.inputBuffer.peek + 8)
      (c.inputBuffer.peek + c.inputBuffer.readableBytes) 0 =
      c.inputBuffer.peek + (8 + u.length) := by
    rw [find_content h, hdrop, List.idxOf_append_of_notMem hu, List.idxOf_cons_self, Nat.add_zero]
  have hname : find c.inputBuffer.buffer (c.inputBuffer.peek + (8 + u.length) + 1)
      (c.inputBuffer.peek + c.inputBuffer.readableBytes) 0 =
      c.inputBuffer.peek + (8 + u.length + 1 + t.idxOf 0) := by
    rw [Nat.add_assoc c.inputBuffer.peek, find_content h, hrest]
  -- The fields in front.
  have hver : c.inputBuffer.buffer.getD c.inputBuffer.peek 0 = ver := by
    have hfirst := getD_content (b := c.inputBuffer) (i := 0) (by omega)
    rw [Nat.add_zero] at hfirst
    rw [hfirst, hcontent]
    rfl
  have hcmd : c.inputBuffer.buffer.getD (c.inputBuffer.peek + 1) 0 = cmd := by
    rw [getD_content (by omega), hcontent]
    rfl
  have hport' : Foundation.segment c.inputBuffer.buffer (c.inputBuffer.peek + 2)
      (c.inputBuffer.peek + 4) = port := by
    rw [segment_content h (by omega), hcontent]
    simp [Foundation.segment, hport]
  have hip' : Foundation.segment c.inputBuffer.buffer (c.inputBuffer.peek + 4)
      (c.inputBuffer.peek + 8) = ip := by
    have hfront : ([ver, cmd] ++ port).length = 4 := by simp [hport]
    rw [segment_content h (by omega), hcontent, List.append_assoc _ ip,
      Foundation.segment, List.drop_left' hfront, List.take_left' hip]
  have hfew' : ¬128 < c.inputBuffer.readableBytes := by omega
  have hmany : 8 < c.inputBuffer.readableBytes := by omega
  have hfound : 8 + u.length ≠ c.inputBuffer.readableBytes := by omega
  simp only [onServerMessage, Session.fresh_tunnel, ne_eq, not_true_eq_false, if_false, hfew', hmany,
    if_true, hwhere,
    Nat.add_left_cancel_iff, hfound, not_false_eq_true, hver, hcmd, hport', hip', hname]
  by_cases hnul : 0 ∈ t
  · have hlt : t.idxOf 0 < t.length := List.idxOf_lt_length_of_mem hnul
    have hnamed : 8 + u.length + 1 + t.idxOf 0 ≠ c.inputBuffer.readableBytes := by omega
    have hhost : Foundation.segment c.inputBuffer.buffer (c.inputBuffer.peek + (8 + u.length) + 1)
        (c.inputBuffer.peek + (8 + u.length + 1 + t.idxOf 0)) = t.take (t.idxOf 0) := by
      rw [Nat.add_assoc c.inputBuffer.peek, segment_content h (by omega), Foundation.segment, hrest]
      congr 1
      omega
    simp only [hnamed, not_false_eq_true, if_true, hhost, hnul]
  · have hunnamed : 8 + u.length + 1 + t.idxOf 0 = c.inputBuffer.readableBytes := by
      rw [List.idxOf_eq_length hnul]
      omega
    simp only [hunnamed, not_true_eq_false, if_false, hnul]

/-- A complete request is answered. -/
theorem onServerMessage_complete (h : c.inputBuffer.Valid) (w : Input)
    (hfew : c.inputBuffer.content.length ≤ 128)
    (hcontent : c.inputBuffer.content = q.bytes ++ rest) :
    onServerMessage .fresh c w = q.lookup w.resolve >>= fun found =>
      respond .fresh c q.ver q.cmd found.1 found.2
        (c.inputBuffer.peek + (q.bytes.length - 1)) w.write := by
  rw [Request.bytes_append, Request.head] at hcontent
  rw [onServerMessage_ended h w q.port q.ip hfew hcontent q.userId_nul]
  have hlength : q.bytes.length = 8 + q.userId.length + 1 + (q.tail []).length := by
    simp only [Request.bytes, List.length_append, List.length_cons, q.length_head]
    omega
  cases hname : q.hostName with
  | none =>
      have haddr : ¬hostOrder q.addr.ip < 256 := fun hlt =>
        absurd (q.named.mpr hlt) (by simp [hname])
      simp [haddr, hlength, Request.lookup, Request.tail, hname]
  | some hostName =>
      have haddr : hostOrder q.addr.ip < 256 := q.named.mp (by simp [hname])
      have hnul := q.hostName_nul hostName hname
      have hidx : (hostName ++ 0 :: rest).idxOf 0 = hostName.length := by
        rw [List.idxOf_append_of_notMem hnul, List.idxOf_cons_self, Nat.add_zero]
      simp [haddr, hlength, Request.lookup, Request.tail, hname, hidx]

/-- As long as there is none, nothing is done. -/
theorem onServerMessage_incomplete (h : c.inputBuffer.Valid) (w : Input)
    (hfew : c.inputBuffer.content.length ≤ 128)
    (hnone : ∀ (q : Request) rest, c.inputBuffer.content ≠ q.bytes ++ rest) :
    onServerMessage .fresh c w = pure (.fresh, c) := by
  by_cases hnul : 0 ∈ c.inputBuffer.content.drop 8
  · obtain ⟨u, t, hdrop, hu⟩ := List.eq_append_cons_of_mem hnul
    obtain ⟨ver, cmd, port, ip, hport, hip, hhead⟩ := exists_head (s := c.inputBuffer.content) (by
      by_contra hshort
      rw [List.drop_of_length_le (by omega)] at hdrop
      simp at hdrop)
    have hcontent : c.inputBuffer.content = [ver, cmd] ++ port ++ ip ++ (u ++ 0 :: t) := by
      rw [← hdrop, ← hhead, List.take_append_drop]
    rw [onServerMessage_ended h w hport hip hfew hcontent hu]
    by_cases haddr : hostOrder ip < 256
    · by_cases hname : 0 ∈ t
      · obtain ⟨hostName, rest, rfl, hhost⟩ := List.eq_append_cons_of_mem hname
        exact absurd (hcontent.trans (Request.bytes_append ⟨ver, cmd, ⟨port, ip⟩, u, some hostName,
          hport, hip, hu, by simpa using hhost, by simpa using haddr⟩ rest).symm) (hnone _ _)
      · rw [if_pos haddr, if_neg hname]
    · exact absurd (hcontent.trans (Request.bytes_append ⟨ver, cmd, ⟨port, ip⟩, u, none,
        hport, hip, hu, by simp, by simpa using haddr⟩ t).symm) (hnone _ _)
  · exact onServerMessage_open h w hfew hnul

end Parse

/-! ## What has been decided -/

/-- The addresses that tunnels have been connected to. -/
def connects (es : List (Service.Event Event)) : List SockAddr :=
  (userEvents es).filterMap fun
    | .connect addr => some addr
    | .resolve _ _ | .client _ => none

/-- Why a request is rejected. -/
def Rejects (es : List (Service.Event Event)) (q : Request) : Prop :=
  ¬(q.ver = 4 ∧ q.cmd = 1) ∨ ∃ name ∈ q.hostName, .resolve name none ∈ userEvents es

/-- Where a request leads to. -/
def Reaches (es : List (Service.Event Event)) (q : Request) (addr : SockAddr) : Prop :=
  q.ver = 4 ∧ q.cmd = 1 ∧ addr.port = q.addr.port ∧
    match q.hostName with
    | none => addr.ip = q.addr.ip
    | some name => .resolve name (some addr.ip) ∈ userEvents es

/-- What is in the buffers of the connection, and what it has been handed. -/
structure Holds (past : List (Service.Event Event)) (c : TcpConnection) (input reply : Bytes) :
    Prop where
  buffered : Buffered c
  input : c.inputBuffer.content = input
  reply : handed past c = reply
  fin : Ended past → c.state ≠ .kConnected ∧ c.outputBuffer.content = []

/-- How far the request has come. -/
inductive Stage (past : List (Service.Event Event)) (stream : Bytes) (c : TcpConnection) :
    Session → Prop
  /-- Nothing has been answered, though the connection has been shut down if too much came. -/
  | waiting (holds : Holds past c stream [])
      (tooMuch : c.state = .kDisconnecting ∨ Ended past → 128 < stream.length)
      (idle : connects past = []) : Stage past stream c .fresh
  | rejected (q : Request) (rest : Bytes) (complete : stream = q.bytes ++ rest)
      (holds : Holds past c stream replyRejected) (down : c.state ≠ .kConnected)
      (why : Rejects past q) (idle : connects past = []) : Stage past stream c .fresh
  /-- What follows the request is left to the tunnel.  If the connection is not up any more, the
  request has been rejected before or nobody could be told. -/
  | granted (q : Request) (rest : Bytes) (addr : SockAddr) (reply : Bytes)
      (complete : stream = q.bytes ++ rest) (holds : Holds past c rest reply)
      (told : reply = replyGranted addr ∨
        c.state ≠ .kConnected ∧ (reply = [] ∨ reply = replyRejected))
      (reaches : Reaches past q addr) (once : connects past = [addr]) :
      Stage past stream c ⟨some addr, none⟩

variable {past : List (Service.Event Event)} {stream input reply : Bytes} {c : TcpConnection}
  {u : Session}

@[simp] theorem connects_nil : connects [] = [] := rfl

@[simp] theorem connects_append (es es' : List (Service.Event Event)) :
    connects (es ++ es') = connects es ++ connects es' := by
  simp [connects]

@[simp] theorem connects_member (es : List TcpConnection.Event) :
    connects (es.map .conn) = [] := by
  simp [connects]

/-! What has been decided stays decided. -/

theorem Rejects.append {q : Request} (h : Rejects past q) (es : List (Service.Event Event)) :
    Rejects (past ++ es) q := by
  refine h.imp_right ?_
  rintro ⟨name, hname, hasked⟩
  exact ⟨name, hname, by simp [hasked]⟩

theorem Reaches.mono {q : Request} {addr : SockAddr} {es es' : List (Service.Event Event)}
    (h : Reaches es q addr) (hsub : userEvents es ⊆ userEvents es') : Reaches es' q addr := by
  obtain ⟨hver, hcmd, hport, hip⟩ := h
  refine ⟨hver, hcmd, hport, ?_⟩
  cases hname : q.hostName with
  | none => simpa [hname] using hip
  | some name => exact hsub (by simpa [hname] using hip)

theorem Reaches.append {q : Request} {addr : SockAddr} (h : Reaches past q addr)
    (es : List (Service.Event Event)) : Reaches (past ++ es) q addr :=
  h.mono (by simp)

/-- What the user shows. -/
theorem Holds.shown (h : Holds past c input reply) {es : List (Service.Event Event)}
    (hes : connEvents es = []) : Holds (past ++ es) c input reply := by
  have hhanded : handed (past ++ es) c = handed past c := by
    simp [handed, Service.written, hes]
  have hended : Ended (past ++ es) ↔ Ended past := by
    simp [Ended, hes]
  exact ⟨h.buffered, h.input, hhanded.trans h.reply, fun hdown => h.fin (hended.mp hdown)⟩

/-- A member that may read or close, and sends nothing. -/
theorem Holds.quiet (h : Holds past c input reply) {read : Bytes}
    {x : Traced TcpConnection.Event TcpConnection} (hx : Passes c read [] x)
    (hstate : x.val.state = .kConnected → c.state = .kConnected)
    (hfin : .shutdownWrite ∈ x.trace →
      x.val.state ≠ .kConnected ∧ x.val.outputBuffer.content = []) :
    Holds (past ++ x.trace.map .conn) x.val (input ++ read) reply := by
  constructor
  case buffered => exact hx.buffered
  case input => rw [hx.input, h.input]
  case reply => rw [Service.handed_member past hx, List.append_nil, h.reply]
  case fin =>
    intro hdown
    rcases (Service.ended_member past x.trace).mp hdown with hbefore | hnow
    · obtain ⟨hup, hempty⟩ := h.fin hbefore
      refine ⟨fun hagain => hup (hstate hagain), ?_⟩
      have houtput := hx.output
      rw [hempty, List.append_nil] at houtput
      exact (List.append_eq_nil_iff.mp houtput).2
    · exact hfin hnow

/-- The connection is up, and told something. -/
theorem Holds.respond (h : Holds past c input reply) {rest bytes : Bytes} {closes : Prop}
    {x : Traced TcpConnection.Event TcpConnection} (hx : Responds c rest bytes closes x)
    (hup : c.state = .kConnected) :
    Holds (past ++ x.trace.map .conn) x.val rest (reply ++ bytes) := by
  constructor
  case buffered => exact hx.buffered
  case input => exact hx.input
  case reply =>
    have hbefore := h.reply
    simp only [handed, Service.written, Service.connEvents_append, Service.connEvents_map_conn,
      TcpConnection.bytesWritten_append] at hbefore ⊢
    rw [List.append_assoc, hx.sent hup, ← List.append_assoc, hbefore]
  case fin =>
    intro hdown
    rcases (Service.ended_member past x.trace).mp hdown with hbefore | hnow
    · exact absurd hup (h.fin hbefore).1
    · obtain ⟨hdisconnecting, hempty⟩ := hx.fin hnow
      exact ⟨by rw [hdisconnecting]; decide, hempty⟩

/-- The connection is not up, and not told anything. -/
theorem Holds.dropped (h : Holds past c input reply) {rest bytes : Bytes} {closes : Prop}
    {x : Traced TcpConnection.Event TcpConnection} (hx : Responds c rest bytes closes x)
    (hdown : c.state ≠ .kConnected) :
    Holds (past ++ x.trace.map .conn) x.val rest reply := by
  obtain ⟨htrace, hstate, houtput⟩ := hx.dropped hdown
  rw [htrace, List.map_nil, List.append_nil]
  constructor
  case buffered => exact hx.buffered
  case input => exact hx.input
  case reply =>
    rw [handed, houtput]
    exact h.reply
  case fin =>
    rw [hstate, houtput]
    exact h.fin

/-- The client of the tunnel has not connected. -/
theorem Stage.session (h : Stage past stream c u) : u = .fresh ∨ ∃ addr, u = ⟨some addr, none⟩ := by
  cases h with
  | waiting => exact .inl rfl
  | rejected => exact .inl rfl
  | granted q rest addr => exact .inr ⟨addr, rfl⟩

/-- However the request is read out of the stream. -/
theorem Stage.unique (h : Stage past stream c u) {q : Request} {rest : Bytes}
    (hcomplete : stream = q.bytes ++ rest) {addr : SockAddr} (haddr : addr ∈ u.tunnel) :
    Reaches past q addr ∧ c.inputBuffer.content = rest := by
  cases h with
  | waiting => exact nomatch haddr
  | rejected => exact nomatch haddr
  | granted q' rest' addr' reply complete holds told reaches once =>
      obtain ⟨rfl, rfl⟩ := Request.bytes_append_inj (hcomplete.symm.trans complete)
      obtain rfl : addr' = addr := Option.some.inj haddr
      exact ⟨reaches, holds.input⟩

theorem Stage.buffered (h : Stage past stream c u) : Buffered c := by
  cases h with
  | waiting holds => exact holds.buffered
  | rejected _ _ _ holds => exact holds.buffered
  | granted _ _ _ _ _ holds => exact holds.buffered

/-- A callback of the channel, or the end of the connection. -/
theorem Stage.quiet (h : Stage past stream c u) {read : Bytes}
    {x : Traced TcpConnection.Event TcpConnection} (hx : Passes c read [] x)
    (hstate : x.val.state = c.state ∨ x.val.state = .kDisconnected)
    (hfin : .shutdownWrite ∈ x.trace → c.state = .kDisconnecting ∧
      x.val.state = .kDisconnecting ∧ x.val.outputBuffer.content = []) :
    Stage (past ++ x.trace.map .conn) (stream ++ read) x.val u := by
  have hup := TcpConnection.up_of_or hstate
  have hquiet {input reply : Bytes} (holds : Holds past c input reply) :
      Holds (past ++ x.trace.map .conn) x.val (input ++ read) reply := by
    refine holds.quiet hx hup fun hnow => ?_
    obtain ⟨-, hdisconnecting, hempty⟩ := hfin hnow
    exact ⟨by rw [hdisconnecting]; decide, hempty⟩
  cases h with
  | waiting holds tooMuch idle =>
      refine .waiting (hquiet holds) (fun hdown => ?_) (by simp [idle])
      have hbefore : c.state = .kDisconnecting ∨ Ended past := by
        rw [Service.ended_member] at hdown
        rcases hdown with hdown | hbefore | hnow
        · rcases hstate with hsame | hclosed
          · exact .inl (hsame.symm.trans hdown)
          · exact absurd (hclosed.symm.trans hdown) (by decide)
        · exact .inr hbefore
        · exact .inl (hfin hnow).1
      rw [List.length_append]
      exact Nat.lt_add_right _ (tooMuch hbefore)
  | rejected q rest complete holds down why idle =>
      exact .rejected q (rest ++ read) (by rw [complete, List.append_assoc]) (hquiet holds)
        (fun hagain => down (hup hagain)) (why.append _) (by simp [idle])
  | granted q rest addr reply complete holds told reaches once =>
      exact .granted q (rest ++ read) addr reply (by rw [complete, List.append_assoc])
        (hquiet holds) (told.imp_right fun hdown => ⟨fun hagain => hdown.1 (hup hagain), hdown.2⟩)
        (reaches.append _) (by simp [once])

/-! ## The message callback -/

/-- What the name server has said. -/
theorem lookup_spec (q : Request) (resolve : Bytes → Option Bytes) :
    connEvents (q.lookup resolve).trace = [] ∧ connects (q.lookup resolve).trace = [] ∧
      ((q.lookup resolve).val.2 = false →
        ∃ name ∈ q.hostName, .resolve name none ∈ userEvents (q.lookup resolve).trace) ∧
      ((q.lookup resolve).val.2 = true → q.ver = 4 → q.cmd = 1 →
        Reaches (q.lookup resolve).trace q (q.lookup resolve).val.1) := by
  unfold Request.lookup Reaches
  cases hname : q.hostName with
  | none => simp +contextual
  | some name =>
      cases hfound : resolve name with
      | none => simp [hfound, connects]
      | some ip => simp +contextual [hfound, connects]

theorem respond_granted (h : Buffered c) {q : Request} {rest : Bytes}
    (hcontent : c.inputBuffer.content = q.bytes ++ rest) (addr : SockAddr) (write : WriteResult) :
    ∃ x, Responds c.setHighWaterMarkCallback rest (replyGranted addr) False x ∧
      respond .fresh c 4 1 addr true (c.inputBuffer.peek + (q.bytes.length - 1)) write =
        ⟨(⟨some addr, none⟩, x.val), .user (.connect addr) :: x.trace.map .conn⟩ := by
  have hlength := Buffer.length_content h.input
  have hpos : 1 ≤ q.bytes.length := by
    simp only [Request.bytes, List.length_append, List.length_cons]
    omega
  have hsum : c.inputBuffer.content.length = q.bytes.length + rest.length := by
    rw [hcontent, List.length_append]
  have hend : c.inputBuffer.peek + (q.bytes.length - 1) + 1 =
      c.inputBuffer.peek + q.bytes.length := by omega
  obtain ⟨hvalid, hdrop, hasserted⟩ := Buffer.retrieveUntil_keeps h.input
    (Nat.le_add_right c.inputBuffer.peek q.bytes.length) (by
      have horder := h.input.reader_le_writer
      simp only [Buffer.readableBytes, Buffer.peek, Buffer.beginWrite] at *
      omega)
  have hrest : (c.inputBuffer.retrieveUntil (c.inputBuffer.peek + q.bytes.length)).val.content =
      rest := by
    rw [hdrop, Nat.add_sub_cancel_left, hcontent, List.drop_left]
  have hset : Buffered c.setHighWaterMarkCallback := ⟨h.input, h.output, h.interest, h.idle⟩
  have hsend := Exchange.responds_send hset hvalid (replyGranted addr) write not_false
  rw [hrest] at hsend
  refine ⟨_, hsend, ?_⟩
  simp [respond, hend, bind, Traced.lift, member, TcpConnection.setHighWaterMarkCallback, hasserted,
    Session.fresh]

theorem respond_rejected (h : Buffered c) {ver cmd : UInt8} {okay : Bool}
    (hno : ¬(ver = 4 ∧ cmd = 1 ∧ okay = true)) (addr : SockAddr) (where_ : Nat)
    (write : WriteResult) :
    ∃ x, Responds c c.inputBuffer.content replyRejected True x ∧
      respond .fresh c ver cmd addr okay where_ write = ⟨(.fresh, x.val), x.trace.map .conn⟩ := by
  have hsend := Exchange.responds_send h h.input replyRejected write not_false
  refine ⟨_, hsend.shutdown trivial, ?_⟩
  simp [respond, hno, bind, member, Traced.lift]

/-- A request that is rejected is not answered unless the connection is up. -/
theorem respond_dropped {ver cmd : UInt8} {okay : Bool} (hdown : c.state ≠ .kConnected)
    (hno : ¬(ver = 4 ∧ cmd = 1 ∧ okay = true)) (addr : SockAddr) (where_ : Nat)
    (write : WriteResult) : respond .fresh c ver cmd addr okay where_ write = pure (.fresh, c) := by
  simp [respond, hno, TcpConnection.send, TcpConnection.shutdown, hdown, member, Traced.lift, bind,
    pure]

/-- What the name server is asked changes nothing. -/
theorem Stage.shown (h : Stage past stream c u) {es : List (Service.Event Event)}
    (hes : connEvents es = []) (hconnects : connects es = []) : Stage (past ++ es) stream c u := by
  have hended : Ended (past ++ es) ↔ Ended past := by
    simp [Ended, hes]
  cases h with
  | waiting holds tooMuch idle =>
      exact .waiting (holds.shown hes) (fun hdown => tooMuch (hdown.imp_right hended.mp))
        (by simp [idle, hconnects])
  | rejected q rest complete holds down why idle =>
      exact .rejected q rest complete (holds.shown hes) down (why.append _)
        (by simp [idle, hconnects])
  | granted q rest addr reply complete holds told reaches once =>
      exact .granted q rest addr reply complete (holds.shown hes) told (reaches.append _)
        (by simp [once, hconnects])

/-- A connection that has no tunnel, whatever has become of its requests. -/
theorem Stage.holds (h : Stage past stream c .fresh) :
    ∃ reply, Holds past c stream reply ∧ (c.state = .kConnected → reply = []) ∧
      (reply = [] ∨ reply = replyRejected) ∧ connects past = [] := by
  cases h with
  | waiting holds tooMuch idle => exact ⟨[], holds, fun _ => rfl, .inl rfl, idle⟩
  | rejected q rest complete holds down why idle =>
      exact ⟨replyRejected, holds, fun hup => absurd hup down, .inr rfl, idle⟩

/-- A complete request has been looked up. -/
theorem Stage.respond (h : Stage past stream c .fresh) {q : Request} {rest : Bytes}
    (hcomplete : stream = q.bytes ++ rest) (addr : SockAddr) (okay : Bool)
    (hreject : okay = false → Rejects past q)
    (hreach : okay = true → q.ver = 4 → q.cmd = 1 → Reaches past q addr) (write : WriteResult) :
    let x := respond .fresh c q.ver q.cmd addr okay (c.inputBuffer.peek + (q.bytes.length - 1))
      write
    Stage (past ++ x.trace) stream x.val.2 x.val.1 ∧
      (x.val.1.tunnel = none → x.val.2.state ≠ .kConnected) := by
  obtain ⟨reply, holds, hfresh, hreply, idle⟩ := h.holds
  by_cases hgrant : q.ver = 4 ∧ q.cmd = 1 ∧ okay = true
  · obtain ⟨hver, hcmd, hokay⟩ := hgrant
    obtain ⟨x, hx, heq⟩ := respond_granted holds.buffered (holds.input.trans hcomplete) addr write
    rw [hver, hcmd, hokay, heq]
    refine ⟨?_, fun hnone => by simp at hnone⟩
    have hset :
        Holds (past ++ [.user (.connect addr)]) c.setHighWaterMarkCallback stream reply := by
      have hshown : Holds (past ++ [.user (.connect addr)]) c stream reply := holds.shown rfl
      exact ⟨⟨hshown.buffered.input, hshown.buffered.output, hshown.buffered.interest,
        hshown.buffered.idle⟩, hshown.input, hshown.reply, hshown.fin⟩
    have honce : connects (past ++ .user (.connect addr) :: x.trace.map .conn) = [addr] := by
      rw [connects_append, idle]
      simp [connects, Service.userEvents]
    rw [List.append_cons] at honce ⊢
    have hreach' := ((hreach hokay hver hcmd).append [.user (.connect addr)]).append
      (x.trace.map .conn)
    by_cases hup : c.state = .kConnected
    · have hresponded := hset.respond hx hup
      rw [hfresh hup, List.nil_append] at hresponded
      exact .granted q rest addr _ hcomplete hresponded (.inl rfl) hreach' honce
    · have hdropped := hset.dropped hx hup
      have hstate : x.val.state = c.state := (hx.dropped hup).2.1
      exact .granted q rest addr reply hcomplete hdropped (.inr ⟨hstate ▸ hup, hreply⟩) hreach'
        honce
  · by_cases hup : c.state = .kConnected
    · obtain ⟨x, hx, heq⟩ := respond_rejected holds.buffered hgrant addr
        (c.inputBuffer.peek + (q.bytes.length - 1)) write
      have hdown : x.val.state ≠ .kConnected := by
        rw [hx.closed hup trivial]
        decide
      have hwhy : Rejects past q := by
        by_cases hokay : okay = true
        · exact .inl fun hboth => hgrant ⟨hboth.1, hboth.2, hokay⟩
        · exact hreject (Bool.eq_false_iff.mpr hokay)
      have hresponded := holds.respond hx hup
      rw [hfresh hup, List.nil_append, holds.input] at hresponded
      rw [heq]
      exact ⟨.rejected q rest hcomplete hresponded hdown (hwhy.append _) (by simp [idle]),
        fun _ => hdown⟩
    · rw [respond_dropped hup hgrant]
      exact ⟨by simpa using h, fun _ => hup⟩

/-- While the connection is up, nothing has come that could have been answered. -/
def Prompt (stream : Bytes) (c : TcpConnection) (u : Session) : Prop :=
  u.tunnel = none → c.state = .kConnected →
    stream.length ≤ 128 ∧ ∀ (q : Request) rest, stream ≠ q.bytes ++ rest

/-- Too much has come at once, or little by little for a request that never ends. -/
theorem Stage.tooMuch (h : Stage past stream c .fresh) (hmuch : 128 < stream.length) (w : Input) :
    let x := onServerMessage .fresh c w
    Stage (past ++ x.trace) stream x.val.2 x.val.1 ∧ Prompt stream x.val.2 x.val.1 := by
  obtain ⟨reply, holds, hfresh, hreply, idle⟩ := h.holds
  have hlength := Buffer.length_content holds.buffered.input
  rw [holds.input] at hlength
  have hmuch' : 128 < c.inputBuffer.readableBytes := hlength ▸ hmuch
  have hshut : onServerMessage .fresh c w =
      ⟨(.fresh, c.shutdown.val), c.shutdown.trace.map .conn⟩ := by
    simp [onServerMessage, hmuch', member, Traced.lift, bind, pure]
  rw [hshut]
  have hdown : c.shutdown.val.state ≠ .kConnected := by
    intro hup
    have hbefore := TcpConnection.shutdown_up hup
    rw [TcpConnection.shutdown, if_pos hbefore] at hup
    exact absurd hup (by simp)
  refine ⟨?_, fun _ hup => absurd hup hdown⟩
  by_cases hup : c.state = .kConnected
  · have hquiet := holds.quiet (TcpConnection.passes_shutdown holds.buffered)
      TcpConnection.shutdown_up fun hfin => by
        refine ⟨hdown, ?_⟩
        have hempty := (TcpConnection.shutdown_fin holds.buffered hfin).2
        rwa [TcpConnection.shutdown, if_pos hup]
    rw [hfresh hup, List.append_nil] at hquiet
    exact .waiting hquiet (fun _ => hmuch) (by simp [idle])
  · have hnothing : c.shutdown = pure c := if_neg hup
    rw [hnothing]
    simpa using h

/-- A connection without a tunnel is read. -/
theorem Stage.asked (h : Stage past stream c .fresh) (w : Input) :
    let x := onServerMessage .fresh c w
    Stage (past ++ x.trace) stream x.val.2 x.val.1 ∧ Prompt stream x.val.2 x.val.1 := by
  obtain ⟨reply, holds, hfresh, hreply, idle⟩ := h.holds
  have hvalid := holds.buffered.input
  by_cases hmuch : 128 < stream.length
  · exact h.tooMuch hmuch w
  · have hfew : c.inputBuffer.content.length ≤ 128 := by
      rw [holds.input]
      exact Nat.le_of_not_lt hmuch
    by_cases hcomplete : ∃ (q : Request) (rest : Bytes), stream = q.bytes ++ rest
    · obtain ⟨q, rest, hcomplete⟩ := hcomplete
      obtain ⟨hconn, hconnects, hunknown, hknown⟩ := lookup_spec q w.resolve
      have hreject (hno : (q.lookup w.resolve).val.2 = false) :
          Rejects (past ++ (q.lookup w.resolve).trace) q := by
        obtain ⟨name, hname, hunasked⟩ := hunknown hno
        exact .inr ⟨name, hname, by simp [hunasked]⟩
      obtain ⟨hstage, hprompt⟩ := (h.shown hconn hconnects).respond hcomplete
        (q.lookup w.resolve).val.1 (q.lookup w.resolve).val.2 hreject
        (fun hokay hver hcmd => (hknown hokay hver hcmd).mono (by simp)) w.write
      rw [onServerMessage_complete hvalid w hfew (holds.input.trans hcomplete)]
      rw [List.append_assoc] at hstage
      exact ⟨hstage, fun hgone hup => absurd hup (hprompt hgone)⟩
    · have hnone : ∀ (q : Request) rest, stream ≠ q.bytes ++ rest := fun q rest heq =>
        hcomplete ⟨q, rest, heq⟩
      rw [onServerMessage_incomplete hvalid w hfew (by rwa [holds.input])]
      exact ⟨by simpa using h, fun _ _ => ⟨Nat.le_of_not_lt hmuch, hnone⟩⟩

theorem Stage.message (h : Stage past stream c u) (w : Input) :
    let x := onServerMessage u c w
    Stage (past ++ x.trace) stream x.val.2 x.val.1 ∧ Prompt stream x.val.2 x.val.1 := by
  rcases h.session with rfl | ⟨addr, rfl⟩
  · exact h.asked w
  · have hnothing : onServerMessage ⟨some addr, none⟩ c w = pure (⟨some addr, none⟩, c) := by
      simp [onServerMessage]
    rw [hnothing]
    exact ⟨by simpa using h, fun hnone => by simp at hnone⟩

/-! ## Runs -/

theorem kept : Served.Kept service fun past stream u c _ =>
    Stage past stream c u ∧ Prompt stream c u := by
  constructor
  case revents =>
    rintro past stream u c fs revents ⟨hstage, hprompt⟩
    refine ⟨?_, hprompt⟩
    have hset {input reply : Bytes} (holds : Holds past c input reply) :
        Holds past { c with channel := { c.channel with revents } } input reply :=
      ⟨holds.buffered.revents revents, holds.input, holds.reply, holds.fin⟩
    cases hstage with
    | waiting holds tooMuch idle => exact .waiting (hset holds) tooMuch idle
    | rejected q rest complete holds down why idle =>
        exact .rejected q rest complete (hset holds) down why idle
    | granted q rest addr reply complete holds told reaches once =>
        exact .granted q rest addr reply complete (hset holds) told reaches once
  case event =>
    rintro past stream u c fs cb read write w ⟨hstage, hprompt⟩
    have hx := TcpConnection.passes_handle hstage.buffered read write cb
    have hstate := TcpConnection.handle_state c read write cb
    have hfin (hmem : .shutdownWrite ∈ (c.handle ⟨read, 0, write⟩ cb).trace) :=
      TcpConnection.handle_fin hstage.buffered hmem
    have hquiet (hnot : .messageCallback ∉ (c.handle ⟨read, 0, write⟩ cb).trace) :=
      TcpConnection.received_of_handle_quiet hstage.buffered hnot
    have hhandled := hstage.quiet hx hstate hfin
    dsimp only
    unfold Service.onEvent
    generalize c.handle ⟨read, 0, write⟩ cb = x at hx hstate hfin hquiet hhandled
    by_cases hmess : .messageCallback ∈ x.trace
    · simpa [hmess, service] using hhandled.message w
    · rw [hquiet hmess, List.append_nil] at hhandled ⊢
      have hstill : Prompt stream x.val u := fun hnone hup =>
        hprompt hnone (TcpConnection.up_of_or hstate hup)
      simpa [hmess] using And.intro hhandled hstill
  case functor =>
    rintro past stream u c f fs w ⟨hstage, hprompt⟩
    cases f with
    | connectionDestroyed =>
        have hstate := TcpConnection.connectionDestroyed_state c
        have hdestroyed := hstage.quiet (TcpConnection.passes_connectionDestroyed hstage.buffered)
          hstate fun hfin => absurd hfin (TcpConnection.shutdownWrite_not_mem_connectionDestroyed c)
        rw [List.append_nil] at hdestroyed
        have hstill : Prompt stream c.connectionDestroyed.val u := fun hnone hup =>
          hprompt hnone (TcpConnection.up_of_or hstate hup)
        simpa [Service.onFunctor] using And.intro hdestroyed hstill
    | user f =>
        cases f with
        | writeCompleteCallback =>
            simpa [Service.onFunctor, service] using And.intro hstage hprompt
        | highWaterMarkCallback len =>
            simpa [Service.onFunctor] using And.intro hstage hprompt

theorem stage_established (ptr : ChannelPtr) (sockfd : Int) (poller : EPoller) :
    Stage [] [] (.established ptr sockfd poller false) .fresh :=
  .waiting ⟨TcpConnection.buffered_established ptr sockfd poller false, rfl, rfl, nofun⟩
    (by rintro (hdown | hended) <;> contradiction) rfl

theorem prompt_nil (c : TcpConnection) (u : Session) : Prompt [] c u := by
  refine fun _ _ => ⟨Nat.zero_le _, fun q rest heq => ?_⟩
  have hlength := congrArg List.length heq
  simp only [Request.bytes, List.length_append, List.length_cons, List.length_nil] at hlength
  omega

/-- **A request is decided as soon as it is complete.**  In every run, in whatever pieces it comes,
until the client of the tunnel has connected: as long as the connection is up and has no tunnel, no
request is complete; a tunnel leads where the request says, and what follows the request is left for
the tunnel; the connection has been told so, unless it was down by then; a request that is rejected
is not one for a connection, or names a host that is not known.  There is only one way to read a
request out of the stream. -/
theorem request_decided {ptr : ChannelPtr} {sockfd : Int} {poller : EPoller}
    {t : Served Session} {ls : List (Served.Label Input)}
    {es : List (Service.Event Event)} {stream : Bytes}
    (hrun : Run (remember Served.noteReads (Served.Step service))
      (.start .fresh (.established ptr sockfd poller false), []) ls es (t, stream)) :
    Stage es stream t.conn t.user ∧ Prompt stream t.conn t.user ∧
      ∀ (q : Request) rest, stream = q.bytes ++ rest → ∀ addr ∈ t.user.tunnel,
        Reaches es q addr ∧ t.conn.inputBuffer.content = rest := by
  obtain ⟨hstage, hprompt⟩ := kept.run [] (Served.start_inTurn _ _)
    ⟨stage_established ptr sockfd poller, prompt_nil _ _⟩ hrun
  refine ⟨hstage, hprompt, fun q rest hcomplete addr haddr => ?_⟩
  rw [List.nil_append] at hstage
  exact hstage.unique hcomplete haddr

/-- A request with a name, which comes in two pieces, and what follows it. -/
def named : List (Served.Label Input) :=
  let w : Input := ⟨fun name => if name = ascii "chao" then some [10, 0, 0, 7] else none, .count 8⟩
  let turn (data : Bytes) : List (Served.Label Input) :=
    [.swap, .finish, .activate POLLIN, .wake, .handleEvent,
      .callback (some data) (.error true) w]
  turn ([4, 1, 0, 80, 0, 0, 0, 1] ++ ascii "u") ++ turn ([0] ++ ascii "chao" ++ [0] ++ ascii "GET")

theorem request_decided_named :
    ∃ (es : List (Service.Event Event)) (t : Served Session) (stream : Bytes),
      (Stage es stream t.conn t.user ∧ Prompt stream t.conn t.user ∧
        ∀ (q : Request) rest, stream = q.bytes ++ rest → ∀ addr ∈ t.user.tunnel,
          Reaches es q addr ∧ t.conn.inputBuffer.content = rest) ∧
        t.user.tunnel = some ⟨[0, 80], [10, 0, 0, 7]⟩ ∧
        Service.written es = [0, 0x5a, 0, 80, 10, 0, 0, 7] ∧
        t.conn.inputBuffer.content = ascii "GET" := by
  obtain ⟨es, t, hrun, hall⟩ : ∃ (es : List (Service.Event Event)) (t : Served Session),
      Run (Served.Step service) (.start .fresh (.established 1 7 .create false)) named es t ∧
        t.user.tunnel = some ⟨[0, 80], [10, 0, 0, 7]⟩ ∧
        Service.written es = [0, 0x5a, 0, 80, 10, 0, 0, 7] ∧
        t.conn.inputBuffer.content = ascii "GET" :=
    Run.exists_of_exec _ (by decide +kernel)
  obtain ⟨stream, hremember⟩ := hrun.remember Served.noteReads []
  exact ⟨es, t, stream, request_decided hremember, hall⟩

end Socks4a
end Chaonet
