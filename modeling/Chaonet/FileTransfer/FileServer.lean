import Chaonet.Buffer.Lines
import Chaonet.Connection.Window

/-!
# The file server

A connection sends the name of a file in a line, and is sent the file: `transFile` opens it and sends
the first piece, and `onWriteComplete` sends the next one, or shuts the connection down at the end
of the file.  The `FILE` is in the context of the connection, and a new request replaces it.

`g_file` points into a string that is gone when it is used; of the name nothing is said here, and
what `fopen` finds under it is an input.  `g_file` is shared, so that another connection may have
set it.

What is sent is made of the files that have been opened, each of them cut where the next one has been
requested (`Cut`).  The `FIN` comes behind the whole of the last one, unless a file was missing
(`transfers`).  The output buffer holds at most one piece for each request (`buffered_le`).
-/

namespace Chaonet

open Foundation

open Service (member handed connEvents userEvents queuedBy Ended)
open TcpConnection (Buffered Passes Window)

namespace FileServer

def kBufSize : Nat := 64 * 1024

/-- What the callbacks keep. -/
structure User where
  /-- What is left of the file in the context, if there is one. -/
  context : Option Bytes
  /-- Whether `g_file` has been set by this connection. -/
  gFile : Bool
deriving DecidableEq, Repr

structure Input where
  /-- Whether another connection has set `g_file`. -/
  named : Bool
  /-- What `fopen` finds. -/
  file : Option Bytes
  write : WriteResult
deriving DecidableEq, Repr

inductive Event
  | opened (file : Bytes)
  /-- `fopen` fails. -/
  | noSuchFile
  /-- `any_cast` throws. -/
  | badAnyCast
deriving DecidableEq, Repr

/-- `fread` of a buffer: what is read, and what is left of the file. -/
def fread (file : Bytes) : Bytes × Bytes := (file.take kBufSize, file.drop kBufSize)

theorem fread_append (file : Bytes) : (fread file).1 ++ (fread file).2 = file :=
  List.take_append_drop kBufSize file

def transFile (u : User) (c : TcpConnection) (w : Input) :
    Traced (Service.Event Event) (User × TcpConnection) :=
  if c.connected then
    match w.file with
    | some file => do
        Traced.emit (.user (.opened file))
        let (buf, rest) := fread file
        let c ← member (c.send buf w.write)
        pure ({ u with context := some rest }, c)
    | none => do
        Traced.emit (.user .noSuchFile)
        let c ← member c.shutdown
        pure (u, c)
  else pure (u, c)

def onMessage (u : User) (c : TcpConnection) (w : Input) :
    Traced (Service.Event Event) (User × TcpConnection) :=
  if c.connected then do
    let (u, c) ← match c.inputBuffer.findCRLF with
      | none => pure (u, c)
      | some crlf => do
          let inputBuffer ←
            (c.inputBuffer.retrieveUntil (crlf + 2)).lift fun a => .conn (.buffer a)
          pure ({ u with gFile := true }, { c with inputBuffer })
    if u.gFile = true ∨ w.named = true then transFile u c w else pure (u, c)
  else do
    let c ← member c.shutdown
    pure (u, c)

def onWriteComplete (u : User) (c : TcpConnection) (w : Input) :
    Traced (Service.Event Event) (User × TcpConnection) :=
  match u.context with
  | none => do
      Traced.emit (.user .badAnyCast)
      pure (u, c)
  | some file => do
      let (buf, rest) := fread file
      let c ← if 0 < buf.length then member (c.send buf w.write) else member c.shutdown
      pure ({ u with context := some rest }, c)

def service : Service User Input Event := ⟨onMessage, onWriteComplete⟩

/-- A connection that the server has accepted. -/
def start (ptr : ChannelPtr) (sockfd : Int) (poller : EPoller) : Served User :=
  .start ⟨none, false⟩ (TcpConnection.established ptr sockfd poller true)

/-! ## What has been sent -/

/-- The files that have been opened. -/
def files (es : List (Service.Event Event)) : List Bytes :=
  (userEvents es).filterMap fun
    | .opened file => some file
    | _ => none

/-- Pieces of the files, each from its beginning. -/
inductive Cut : List Bytes → Bytes → Prop
  | nil : Cut [] []
  | snoc {files : List Bytes} {sent : Bytes} (piece rest : Bytes) (before : Cut files sent) :
      Cut (files ++ [piece ++ rest]) (sent ++ piece)

/-- In addition `rest` is what is left of the last file. -/
inductive Reading : List Bytes → Bytes → Option Bytes → Prop
  | unopened : Reading [] [] none
  | opened {files : List Bytes} {sent : Bytes} (piece rest : Bytes) (before : Cut files sent) :
      Reading (files ++ [piece ++ rest]) (sent ++ piece) (some rest)

/-- The last file has been sent to its end. -/
def Whole (files : List Bytes) (sent : Bytes) : Prop := Reading files sent (some [])

variable {files : List Bytes} {sent : Bytes}

theorem Reading.cut {rest : Option Bytes} (h : Reading files sent rest) : Cut files sent := by
  cases h with
  | unopened => exact .nil
  | opened piece rest before => exact .snoc piece rest before

/-- The next piece. -/
theorem Reading.next {piece rest : Bytes} (h : Reading files sent (some (piece ++ rest))) :
    Reading files (sent ++ piece) (some rest) := by
  obtain _ | ⟨front, -, before⟩ := h
  rw [List.append_assoc, ← List.append_assoc front]
  exact .opened (front ++ piece) rest before

/-- A file that has just been opened. -/
theorem Cut.opened (h : Cut files sent) (file : Bytes) :
    Reading (files ++ [file]) sent (some file) := by
  have hreading := Reading.opened [] file h
  rwa [List.append_nil, List.nil_append] at hreading

end FileServer

namespace FileServer

variable {past es : List (Service.Event Event)} {u : User} {c : TcpConnection}

theorem files_append (es es' : List (Service.Event Event)) :
    files (es ++ es') = files es ++ files es' := by
  simp [files]

/-- The user shows nothing. -/
theorem files_quiet (h : userEvents es = []) : files (past ++ es) = files past := by
  have hnone : files es = [] := by
    rw [files, h]
    rfl
  rw [files_append, hnone, List.append_nil]

/-- `Whole`, or a file was missing. -/
def Done (es : List (Service.Event Event)) (c : TcpConnection) : Prop :=
  Whole (files es) (handed es c) ∨ .noSuchFile ∈ userEvents es

/-- What holds of what has been sent. -/
structure Transfer (past : List (Service.Event Event)) (u : User) (c : TcpConnection) : Prop where
  buffered : Buffered c
  cut : Cut (files past) (handed past c)
  reading : c.state = .kConnected → Reading (files past) (handed past c) u.context
  done : c.state = .kDisconnecting ∨ Ended past → Done past c
  fin : Ended past → c.state ≠ .kConnected ∧ c.outputBuffer.content = []

/-- A member that sends nothing. -/
theorem Transfer.quiet (h : Transfer past u c) {read : Bytes}
    {x : Traced TcpConnection.Event TcpConnection} (hx : Passes c read [] x)
    (hstate : x.val.state = .kConnected → c.state = .kConnected)
    (hdone : x.val.state = .kDisconnecting ∨ .shutdownWrite ∈ x.trace →
      c.state = .kDisconnecting ∨ Done past c)
    (hfin : .shutdownWrite ∈ x.trace → x.val.state ≠ .kConnected ∧
      x.val.outputBuffer.content = []) :
    Transfer (past ++ x.trace.map .conn) u x.val := by
  have hhanded : handed (past ++ x.trace.map .conn) x.val = handed past c := by
    rw [Service.handed_member past hx, List.append_nil]
  have hended := Service.ended_member past x.trace
  have huser : userEvents (x.trace.map (.conn : _ → Service.Event Event)) = [] :=
    Service.userEvents_map_conn x.trace
  constructor
  case buffered => exact hx.buffered
  case cut =>
    rw [hhanded, files_quiet huser]
    exact h.cut
  case reading =>
    intro hup
    rw [hhanded, files_quiet huser]
    exact h.reading (hstate hup)
  case done =>
    intro hdown
    have hbefore : Done past c := by
      rw [hended] at hdown
      rcases hdown with hdown | hdown | hdown
      · exact (hdone (.inl hdown)).elim (fun hstate => h.done (.inl hstate)) id
      · exact h.done (.inr hdown)
      · exact (hdone (.inr hdown)).elim (fun hstate => h.done (.inl hstate)) id
    simpa only [Done, hhanded, files_quiet huser, Service.userEvents_append, huser,
      List.append_nil] using hbefore
  case fin =>
    intro hdown
    rcases hended.mp hdown with hbefore | hnow
    · obtain ⟨hup, hempty⟩ := h.fin hbefore
      refine ⟨fun hagain => hup (hstate hagain), ?_⟩
      have houtput := hx.output
      rw [hempty, List.append_nil] at houtput
      exact (List.append_eq_nil_iff.mp houtput).2
    · exact hfin hnow

theorem Transfer.shutdown (h : Transfer past u c) (hdone : c.state = .kConnected → Done past c) :
    Transfer (past ++ c.shutdown.trace.map .conn) u c.shutdown.val := by
  refine h.quiet (TcpConnection.passes_shutdown h.buffered) TcpConnection.shutdown_up ?_ ?_
  · intro hdown
    by_cases hup : c.state = .kConnected
    · exact .inr (hdone hup)
    · have hstill : c.shutdown = pure c := if_neg hup
      rw [hstill] at hdown
      exact .inl (hdown.resolve_right List.not_mem_nil)
  · intro hfin
    obtain ⟨hup, hempty⟩ := TcpConnection.shutdown_fin h.buffered hfin
    have hdown : c.shutdown.val = { c with state := .kDisconnecting } := by
      unfold TcpConnection.shutdown
      rw [if_pos hup]
      rfl
    rw [hdown]
    exact ⟨nofun, hempty⟩

/-- The next piece of the file is sent. -/
theorem Transfer.send {piece rest : Bytes} (h : Transfer past u c)
    (hcontext : u.context = some (piece ++ rest)) (r : WriteResult) :
    Transfer (past ++ (c.send piece r).trace.map .conn) { u with context := some rest }
      (c.send piece r).val := by
  have hfin := TcpConnection.shutdownWrite_not_mem_send c piece r
  have hx := TcpConnection.passes_send h.buffered piece r
  by_cases hup : c.state = .kConnected
  · have hnot : ¬Ended (past ++ (c.send piece r).trace.map .conn) := by
      rw [Service.ended_member, not_or]
      exact ⟨fun hended => (h.fin hended).1 hup, hfin⟩
    have hhanded : handed (past ++ (c.send piece r).trace.map .conn) (c.send piece r).val =
        handed past c ++ piece := by
      rw [Service.handed_member past hx, if_pos hup]
    have huser : userEvents ((c.send piece r).trace.map (.conn : _ → Service.Event Event)) = [] :=
      Service.userEvents_map_conn _
    have hreading := h.reading hup
    rw [hcontext] at hreading
    refine ⟨hx.buffered, ?_, fun _ => ?_, ?_, fun hended => absurd hended hnot⟩
    · rw [hhanded, files_quiet huser]
      exact hreading.next.cut
    · rw [hhanded, files_quiet huser]
      exact hreading.next
    · rintro (hdown | hended)
      · rw [TcpConnection.send_state, hup] at hdown
        exact nomatch hdown
      · exact absurd hended hnot
  · -- The piece is dropped.
    have hstill : c.send piece r = pure c := if_neg hup
    rw [hstill]
    obtain ⟨hbuffered, hcut, hreading, hdone, hfin'⟩ := h.quiet
      (TcpConnection.passes_pure h.buffered) id
      (fun hdown => .inl (hdown.resolve_right List.not_mem_nil)) nofun
    exact ⟨hbuffered, hcut, fun hagain => absurd hagain hup, hdone, hfin'⟩

/-- A file is opened while the connection is up. -/
theorem Transfer.opened (h : Transfer past u c) (hup : c.state = .kConnected) (file : Bytes) :
    Transfer (past ++ [.user (.opened file)]) { u with context := some file } c := by
  have hfiles : files (past ++ [.user (.opened file)]) = files past ++ [file] := files_append _ _
  have hreading := (h.reading hup).cut.opened file
  refine ⟨h.buffered, ?_, fun _ => ?_, ?_, fun hended => h.fin (by simpa using hended)⟩
  · rw [hfiles, Service.handed_user]
    exact hreading.cut
  · rw [hfiles, Service.handed_user]
    exact hreading
  · rintro (hdown | hended)
    · exact nomatch hup.symm.trans hdown
    · exact absurd hup (h.fin (by simpa using hended)).1

/-- What the user shows otherwise. -/
theorem Transfer.shown (h : Transfer past u c) {e : Event} (he : files [.user e] = []) :
    Transfer (past ++ [.user e]) u c := by
  have hfiles : files (past ++ [.user e]) = files past := by
    rw [files_append, he, List.append_nil]
  refine ⟨h.buffered, ?_, fun hup => ?_, fun hdown => ?_, fun hended => ?_⟩
  · rw [hfiles, Service.handed_user]
    exact h.cut
  · rw [hfiles, Service.handed_user]
    exact h.reading hup
  · rw [Service.ended_user] at hdown
    rw [Done, hfiles, Service.handed_user, Service.userEvents_append]
    exact (h.done hdown).imp_right (List.mem_append_left _)
  · exact h.fin (by simpa using hended)

/-! ## The callbacks -/

theorem Transfer.user {u' : User} (h : Transfer past u c) (hcontext : u'.context = u.context) :
    Transfer past u' c :=
  ⟨h.buffered, h.cut, fun hup => hcontext ▸ h.reading hup, h.done, h.fin⟩

theorem Transfer.transFile (h : Transfer past u c) (w : Input) :
    Transfer (past ++ (transFile u c w).trace) (transFile u c w).val.1 (transFile u c w).val.2 := by
  unfold FileServer.transFile
  split_ifs with hup
  swap
  · simpa using h
  · have hup : c.state = .kConnected := of_decide_eq_true hup
    cases w.file with
    | none =>
        have hdown := (h.shown (e := .noSuchFile) rfl).shutdown fun _ => .inr (by simp)
        simpa using hdown
    | some file =>
        have hsent := (h.opened hup file).send (congrArg some (fread_append file).symm) w.write
        simpa using hsent

/-- A line is taken out of the input buffer. -/
theorem Transfer.retrieve (h : Transfer past u c) {inputBuffer : Buffer}
    (hvalid : inputBuffer.Valid) : Transfer past u { c with inputBuffer } :=
  ⟨⟨hvalid, h.buffered.output, h.buffered.interest, h.buffered.idle⟩, h.cut, h.reading, h.done,
    h.fin⟩

/-- A connection that is not up is shut down to no effect. -/
theorem Transfer.shut (h : Transfer past u c) (hdown : c.state ≠ .kConnected) :
    Transfer (past ++ c.shutdown.trace.map .conn) u c.shutdown.val :=
  h.shutdown fun hup => absurd hup hdown

theorem Transfer.onMessage (h : Transfer past u c) (w : Input) :
    Transfer (past ++ (onMessage u c w).trace) (onMessage u c w).val.1 (onMessage u c w).val.2 := by
  unfold FileServer.onMessage
  split_ifs with hup
  swap
  · simpa using h.shut (by simpa [TcpConnection.connected] using hup)
  cases hfind : c.inputBuffer.findCRLF with
  | none =>
      by_cases hname : u.gFile = true ∨ w.named = true
      · simpa [hname] using h.transFile w
      · simpa [hname] using h
  | some crlf =>
      obtain ⟨rest, -, hvalid, -, hasserted⟩ := Buffer.next_of_findCRLF h.buffered.input hfind
      have hnamed : Transfer past { u with gFile := true }
          { c with inputBuffer := (c.inputBuffer.retrieveUntil (crlf + 2)).val } :=
        (h.retrieve hvalid).user rfl
      simpa [hasserted] using hnamed.transFile w

theorem Transfer.onWriteComplete (h : Transfer past u c) (w : Input) :
    Transfer (past ++ (onWriteComplete u c w).trace) (onWriteComplete u c w).val.1
      (onWriteComplete u c w).val.2 := by
  unfold FileServer.onWriteComplete
  cases hcontext : u.context with
  | none => simpa using h.shown (e := .badAnyCast) rfl
  | some file =>
      by_cases hsome : 0 < (fread file).1.length
      · have hsent := h.send (hcontext.trans (congrArg some (fread_append file).symm)) w.write
        simpa [hsome] using hsent
      · -- The file is at its end.
        have hempty : file = [] := by
          have hlength : min kBufSize file.length = 0 := by
            rw [← List.length_take]
            exact Nat.eq_zero_of_not_pos hsome
          rw [Nat.min_eq_zero_iff] at hlength
          exact List.length_eq_zero_iff.mp (hlength.resolve_left (by decide))
        have hdown := h.shutdown fun hup =>
          .inl (by simpa [Whole, hcontext, hempty] using h.reading hup)
        have hend : some (fread file).2 = u.context := by
          rw [hcontext, hempty]
          rfl
        simpa [hsome, hend] using hdown

/-- A member that may close the connection, and sends nothing. -/
theorem Transfer.closing (h : Transfer past u c) {read : Bytes}
    {x : Traced TcpConnection.Event TcpConnection} (hx : Passes c read [] x)
    (hstate : x.val.state = c.state ∨ x.val.state = .kDisconnected)
    (hfin : .shutdownWrite ∈ x.trace → x.val.state = .kDisconnecting ∧
      x.val.outputBuffer.content = []) :
    Transfer (past ++ x.trace.map .conn) u x.val := by
  have hdown (hdisconnecting : x.val.state = .kDisconnecting) : c.state = .kDisconnecting := by
    rcases hstate with hsame | hclosed
    · exact hsame.symm.trans hdisconnecting
    · exact nomatch hclosed.symm.trans hdisconnecting
  refine h.quiet hx (TcpConnection.up_of_or hstate) ?_ fun hshown => ?_
  · rintro (hdisconnecting | hshown)
    · exact .inl (hdown hdisconnecting)
    · exact .inl (hdown (hfin hshown).1)
  · obtain ⟨hdisconnecting, hempty⟩ := hfin hshown
    exact ⟨by simp [hdisconnecting], hempty⟩

theorem Transfer.onEvent (h : Transfer past u c) (cb : ChannelCallback) (read : Option Bytes)
    (write : WriteResult) (w : Input) :
    Transfer (past ++ (service.onEvent u c cb read write w).trace)
      (service.onEvent u c cb read write w).val.1 (service.onEvent u c cb read write w).val.2 := by
  have hhandled := h.closing (TcpConnection.passes_handle h.buffered read write cb)
    (TcpConnection.handle_state c read write cb) fun hshown =>
      (TcpConnection.handle_fin h.buffered hshown).2
  unfold Service.onEvent
  by_cases htold : .messageCallback ∈ (c.handle ⟨read, 0, write⟩ cb).trace
  · simpa [htold, service] using hhandled.onMessage w
  · simpa [htold] using hhandled

theorem Transfer.onFunctor (h : Transfer past u c) (f : Service.Functor) (w : Input) :
    Transfer (past ++ (service.onFunctor u c w f).trace)
      (service.onFunctor u c w f).val.1 (service.onFunctor u c w f).val.2 := by
  cases f with
  | connectionDestroyed =>
      have hdestroyed := h.closing (TcpConnection.passes_connectionDestroyed h.buffered)
        (TcpConnection.connectionDestroyed_state c) fun hshown =>
          absurd hshown (TcpConnection.shutdownWrite_not_mem_connectionDestroyed c)
      simpa [Service.onFunctor] using hdestroyed
  | user f =>
      cases f with
      | writeCompleteCallback => exact h.onWriteComplete w
      | highWaterMarkCallback len => simpa [Service.onFunctor] using h

theorem kept_transfer : Served.Kept service fun past _ u c _ => Transfer past u c := by
  constructor
  case revents =>
    intro past read u c fs revents h
    exact ⟨h.buffered.revents revents, h.cut, h.reading, h.done, h.fin⟩
  case event =>
    intro past before u c fs cb read write w h
    exact h.onEvent cb read write w
  case functor =>
    intro past read u c f rest w h
    exact h.onFunctor f w

/-! ## The window -/

/-- With `k` callbacks for a completed write queued: what is sent or owed keeps within the window of
the requests, and whoever runs a callback finds the file in the context. -/
structure Paced (past : List (Service.Event Event)) (u : User) (c : TcpConnection) (k : Nat) :
    Prop where
  buffered : Buffered c
  window : Window kBufSize c k (files past).length
  context : u.context = none → files past = []
  cast : .badAnyCast ∉ userEvents past

variable {k : Nat}

theorem length_fread (file : Bytes) : (fread file).1.length ≤ kBufSize :=
  List.length_take_le _ _

/-- A member that keeps within the window. -/
theorem Paced.member (h : Paced past u c k) {x : Traced TcpConnection.Event TcpConnection}
    {v : User} {k' : Nat} (hcontext : v.context = none → u.context = none)
    (hbuffered : Buffered x.val) (hwindow : Window kBufSize x.val k' (files past).length) :
    Paced (past ++ x.trace.map .conn) v x.val k' := by
  have hfiles : files (past ++ x.trace.map .conn) = files past := files_quiet (by simp)
  refine ⟨hbuffered, hfiles ▸ hwindow, fun hnone => hfiles ▸ h.context (hcontext hnone), ?_⟩
  simpa using h.cast

theorem Paced.shutdown (h : Paced past u c k) :
    Paced (past ++ c.shutdown.trace.map .conn) u c.shutdown.val
      (k + TcpConnection.completions c.shutdown.trace) := by
  have hx := TcpConnection.passes_shutdown h.buffered
  exact h.member id hx.buffered
    (h.window.quiet h.buffered hx (TcpConnection.unqueued_shutdown c))

theorem Paced.transFile (h : Paced past u c k) (w : Input) :
    Paced (past ++ (transFile u c w).trace) (transFile u c w).val.1 (transFile u c w).val.2
      (k + Service.owed (queuedBy (transFile u c w).trace)) := by
  unfold FileServer.transFile
  split_ifs with hup
  swap
  · simpa using h
  cases w.file with
  | none =>
      have hmissing : Paced (past ++ [.user .noSuchFile]) u c k := by
        have hfiles : files (past ++ [.user .noSuchFile]) = files past :=
          (files_append _ _).trans (List.append_nil _)
        exact ⟨h.buffered, hfiles ▸ h.window, fun hnone => hfiles ▸ h.context hnone,
          by simpa using h.cast⟩
      simpa using hmissing.shutdown
  | some file =>
      -- The request opens the window by the piece that is sent.
      have hfiles (es : List TcpConnection.Event) :
          files (past ++ .user (.opened file) :: es.map .conn) = files past ++ [file] := by
        rw [files_append]
        simp [files]
      have hwindow := h.window.send h.buffered (length_fread file) w.write
      refine ⟨?_, ?_, nofun, ?_⟩
      · simpa using (TcpConnection.passes_send h.buffered _ _).buffered
      · simpa [hfiles] using hwindow
      · simpa using h.cast

theorem Paced.onMessage (h : Paced past u c k) (w : Input) :
    Paced (past ++ (onMessage u c w).trace) (onMessage u c w).val.1 (onMessage u c w).val.2
      (k + Service.owed (queuedBy (onMessage u c w).trace)) := by
  unfold FileServer.onMessage
  split_ifs with hup
  swap
  · simpa using h.shutdown
  cases hfind : c.inputBuffer.findCRLF with
  | none =>
      by_cases hname : u.gFile = true ∨ w.named = true
      · simpa [hname] using h.transFile w
      · simpa [hname] using h
  | some crlf =>
      obtain ⟨rest, -, hvalid, -, hasserted⟩ := Buffer.next_of_findCRLF h.buffered.input hfind
      have hnamed : Paced past { u with gFile := true }
          { c with inputBuffer := (c.inputBuffer.retrieveUntil (crlf + 2)).val } k :=
        ⟨⟨hvalid, h.buffered.output, h.buffered.interest, h.buffered.idle⟩, h.window, h.context,
          h.cast⟩
      simpa [hasserted] using hnamed.transFile w

/-- A callback is run: what it has been owed makes room for the next piece. -/
theorem Paced.onWriteComplete (h : Paced past u c (k + 1)) (w : Input) :
    Paced (past ++ (onWriteComplete u c w).trace) (onWriteComplete u c w).val.1
      (onWriteComplete u c w).val.2 (k + Service.owed (queuedBy (onWriteComplete u c w).trace)) := by
  obtain ⟨m, hbytes, hpieces⟩ := h.window
  unfold FileServer.onWriteComplete
  cases hcontext : u.context with
  | none =>
      -- No callback is queued before a file has been opened.
      rw [h.context hcontext, List.length_nil] at hpieces
      omega
  | some file =>
      have hroom : Window kBufSize c k ((files past).length - 1) := ⟨m, hbytes, by omega⟩
      by_cases hsome : 0 < (fread file).1.length
      · have hwindow := hroom.send h.buffered (length_fread file) w.write
        have hcount : (files past).length - 1 + 1 = (files past).length := by omega
        rw [hcount] at hwindow
        have hsent := h.member (v := { u with context := some (fread file).2 }) nofun
          (TcpConnection.passes_send h.buffered _ _).buffered hwindow
        simpa [hsome] using hsent
      · have hx := TcpConnection.passes_shutdown h.buffered
        have hwindow : Window kBufSize c k (files past).length := ⟨m, hbytes, by omega⟩
        have hdown := h.member (v := { u with context := some (fread file).2 }) nofun hx.buffered
          (hwindow.quiet h.buffered hx (TcpConnection.unqueued_shutdown c))
        simpa [hsome] using hdown

theorem Paced.onEvent (h : Paced past u c k) (cb : ChannelCallback) (read : Option Bytes)
    (write : WriteResult) (w : Input) :
    Paced (past ++ (service.onEvent u c cb read write w).trace)
      (service.onEvent u c cb read write w).val.1 (service.onEvent u c cb read write w).val.2
      (k + Service.owed (queuedBy (service.onEvent u c cb read write w).trace)) := by
  have hhandled := h.member id (TcpConnection.passes_handle h.buffered read write cb).buffered
    (h.window.handle h.buffered read write cb)
  unfold Service.onEvent
  by_cases htold : .messageCallback ∈ (c.handle ⟨read, 0, write⟩ cb).trace
  · simpa [htold, service, Nat.add_assoc] using hhandled.onMessage w
  · simpa [htold] using hhandled

theorem Paced.onFunctor {f : Service.Functor} (h : Paced past u c (k + Service.owed [f]))
    (w : Input) :
    Paced (past ++ (service.onFunctor u c w f).trace)
      (service.onFunctor u c w f).val.1 (service.onFunctor u c w f).val.2
      (k + Service.owed (queuedBy (service.onFunctor u c w f).trace)) := by
  cases f with
  | connectionDestroyed =>
      have hnone : Service.owed [.connectionDestroyed] = 0 := rfl
      rw [hnone, Nat.add_zero] at h
      have hx := TcpConnection.passes_connectionDestroyed h.buffered
      have hdestroyed := h.member id hx.buffered
        (h.window.quiet h.buffered hx (TcpConnection.unqueued_connectionDestroyed c))
      simpa [Service.onFunctor] using hdestroyed
  | user f =>
      cases f with
      | writeCompleteCallback => exact h.onWriteComplete w
      | highWaterMarkCallback len => simpa [Service.onFunctor, Service.owed] using h

theorem kept_paced :
    Served.Kept service fun past _ u c fs => Paced past u c (Service.owed fs) := by
  constructor
  case revents =>
    intro past read u c fs revents h
    exact ⟨h.buffered.revents revents, h.window, h.context, h.cast⟩
  case event =>
    intro past before u c fs cb read write w h
    simpa only [Service.owed_append] using h.onEvent cb read write w
  case functor =>
    intro past read u c f rest w h
    have hsplit : Service.owed (f :: rest) = Service.owed rest + Service.owed [f] := by
      rw [Nat.add_comm]
      exact Service.owed_append [f] rest
    rw [hsplit] at h
    simpa only [Service.owed_append] using h.onFunctor w

/-! ## Runs -/

variable {ptr : ChannelPtr} {sockfd : Int} {poller : EPoller} {t : Served User}
  {ls : List (Served.Label Input)}

/-- **What a connection is sent.**  In every run, what has been accepted on the socket and what waits
in the output buffer are pieces of the files that have been opened, in this order and each from its
beginning.  When the `FIN` has been sent nothing waits, and the last file has been written to its
end, unless `fopen` has failed. -/
theorem transfers (hrun : Run (Served.Step service) (start ptr sockfd poller) ls es t) :
    Cut (files es) (handed es t.conn) ∧
      (Ended es → t.conn.outputBuffer.content = [] ∧
        (Whole (files es) (Service.written es) ∨ .noSuchFile ∈ userEvents es)) := by
  obtain ⟨read, hremember⟩ := hrun.remember Served.noteReads []
  have hinit : Transfer [] ⟨none, false⟩ (start ptr sockfd poller).conn := by
    refine ⟨TcpConnection.buffered_established ptr sockfd poller true, .nil,
    fun _ => .unopened, ?_, nofun⟩
    rintro (hdown | hended)
    · exact nomatch hdown
    · exact nomatch hended
  have hend := kept_transfer.run [] (Served.start_inTurn _ _) hinit hremember
  rw [List.nil_append] at hend
  refine ⟨hend.cut, fun hended => ?_⟩
  obtain ⟨-, hempty⟩ := hend.fin hended
  have hhanded : handed es t.conn = Service.written es := by
    rw [handed, hempty, List.append_nil]
  exact ⟨hempty, hhanded ▸ hend.done (.inr hended)⟩

/-- A file of three bytes is requested, of which the socket takes one at once. -/
def requested : List (Served.Label Input) :=
  let w : Input := ⟨false, some [1, 2, 3], .count 1⟩
  [.swap, .finish, .activate POLLIN, .wake, .handleEvent,
    .callback (some [102, 13, 10]) (.error true) w, .swap, .finish, .activate POLLOUT, .wake,
    .handleEvent, .callback none (.count 2) w, .swap, .runFunctor w, .finish]

theorem transfers_requested : ∃ (es : List (Service.Event Event)) (t : Served User),
    (Cut (files es) (handed es t.conn) ∧
      (Ended es → t.conn.outputBuffer.content = [] ∧
        (Whole (files es) (Service.written es) ∨ .noSuchFile ∈ userEvents es))) ∧
      Ended es ∧ Service.written es = [1, 2, 3] := by
  obtain ⟨es, t, hrun, hended, hwritten⟩ : ∃ (es : List (Service.Event Event)) (t : Served User),
      Run (Served.Step service) (start 1 7 .create) requested es t ∧
        .shutdownWrite ∈ connEvents es ∧ Service.written es = [1, 2, 3] :=
    Run.exists_of_exec _ (by decide +kernel)
  exact ⟨es, t, transfers hrun, hended, hwritten⟩

/-- **The output buffer stays small.**  In every run the output buffer holds at most `kBufSize` bytes
for each request that has opened a file, however large the files are and however slowly the peer
reads, and `onWriteComplete` finds a file in the context. -/
theorem buffered_le (hrun : Run (Served.Step service) (start ptr sockfd poller) ls es t) :
    t.conn.outputBuffer.readableBytes ≤ kBufSize * (files es).length ∧
      .badAnyCast ∉ userEvents es := by
  obtain ⟨read, hremember⟩ := hrun.remember Served.noteReads []
  have hinit : Paced [] ⟨none, false⟩ (start ptr sockfd poller).conn 0 :=
    ⟨TcpConnection.buffered_established ptr sockfd poller true,
      ⟨0, Nat.le_refl 0, Nat.le_refl 0⟩, fun _ => rfl,
      List.not_mem_nil⟩
  have hend := kept_paced.run [] (Served.start_inTurn _ _) hinit hremember
  rw [List.nil_append] at hend
  exact ⟨hend.window.readableBytes_le, hend.cast⟩

theorem buffered_le_requested : ∃ (es : List (Service.Event Event)) (t : Served User),
    (t.conn.outputBuffer.readableBytes ≤ kBufSize * (files es).length ∧
      .badAnyCast ∉ userEvents es) ∧ files es = [[1, 2, 3]] := by
  obtain ⟨es, t, hrun, hfiles⟩ : ∃ es t,
      Run (Served.Step service) (start 1 7 .create) requested es t ∧ files es = [[1, 2, 3]] :=
    Run.exists_of_exec _ (by decide +kernel)
  exact ⟨es, t, buffered_le hrun, hfiles⟩

end FileServer
end Chaonet
