import Chaonet.Connection.Exchange
import Chaonet.Sudoku.Server

/-!
# Serving Sudokus

The message callback of the Sudoku server on a connection.  `Reply` says what a line is answered
with: a filling of the puzzle, an empty line if it has none, the request itself if it came with an
id, and `Bad Request!` if it is too short; the last one shuts the connection down.  What is written
for a request that is no puzzle is left open.

Whatever pieces the stream comes in, the answers are those to its lines (`answers_lines`).  Since
`len` is read once, nothing is looked at as long as the buffer holds fewer than 83 bytes, but no
complete line is left in a buffer that has been looked at.
-/

namespace Chaonet

open Foundation

open Buffer (lines)
open Service (member)
open TcpConnection (Buffered)
open Exchange (Responds)

namespace SudokuServer

/-- `onMessage` with the line, in its loop. -/
def respondTo (c : TcpConnection) (line : Bytes) (write : WriteResult) :
    Traced (Service.Event Sudoku.Outside) TcpConnection :=
  let (id, request) := splitId line
  if kCells ≤ request.length then do
    let sudoku ← (Sudoku.fresh.update request).lift .user
    let sudoku ← sudoku.solveSudoku.lift .user
    let result ← sudoku.result.lift .user
    if id = [] then member (c.send (result ++ kCRLF) write)
    else member (c.send (id ++ request ++ kCRLF) write)
  else do
    let c ← member (c.send (ascii "Bad Request!" ++ kCRLF) write)
    member c.shutdown

/-- The loop of `onMessage`.  A line has two bytes or more, so that it does not run more often than
there are bytes. -/
def serve : Nat → TcpConnection → List WriteResult →
    Traced (Service.Event Sudoku.Outside) TcpConnection
  | 0, c, _ => pure c
  | n + 1, c, write =>
      match c.inputBuffer.findCRLF with
      | none => pure c
      | some crlf => do
          let line := segment c.inputBuffer.buffer c.inputBuffer.peek crlf
          let inputBuffer ←
            (c.inputBuffer.retrieveUntil (crlf + 2)).lift fun a => .conn (.buffer a)
          let c ← respondTo { c with inputBuffer } line (write.headD (.error true))
          serve n c write.tail

def onMessage (u : Unit) (c : TcpConnection) (write : List WriteResult) :
    Traced (Service.Event Sudoku.Outside) (Unit × TcpConnection) :=
  let len := c.inputBuffer.readableBytes
  if kCells + 2 ≤ len then do
    let c ← serve len c write
    pure (u, c)
  else pure (u, c)

def service : Service Unit (List WriteResult) Sudoku.Outside :=
  ⟨onMessage, fun u c _ => pure (u, c)⟩

/-! ## Answers -/

/-- Digits and dots. -/
def IsPuzzle (request : Bytes) : Prop :=
  81 ≤ request.length ∧ ∀ b ∈ request.take 81, Sudoku.IsCell b

/-- The cells of a filling, in their order. -/
def grid (f : Fin 9 → Fin 9 → UInt8) : Bytes := Sudoku.cells.map fun c => f c.1 c.2

def Bad (line : Bytes) : Prop := (splitId line).2.length < kCells

/-- What a line is answered with. -/
inductive Reply (line : Bytes) : Bytes → Prop
  | filled (request : Bytes) (f : Fin 9 → Fin 9 → UInt8) (split : splitId line = ([], request))
      (puzzle : IsPuzzle request) (filling : Sudoku.IsFilling request f) :
      Reply line (grid f ++ kCRLF)
  | unfillable (request : Bytes) (split : splitId line = ([], request)) (puzzle : IsPuzzle request)
      (none : ¬∃ f, Sudoku.IsFilling request f) : Reply line kCRLF
  | noPuzzle (request result : Bytes) (split : splitId line = ([], request))
      (long : kCells ≤ request.length) (noPuzzle : ¬IsPuzzle request) : Reply line (result ++ kCRLF)
  | named (id request : Bytes) (split : splitId line = (id, request)) (hid : id ≠ [])
      (long : kCells ≤ request.length) : Reply line (id ++ request ++ kCRLF)
  | bad (short : Bad line) : Reply line (ascii "Bad Request!" ++ kCRLF)

theorem mapM_val {ε α β : Type} (f : α → Traced ε β) (xs : List α) :
    (xs.mapM f).val = xs.map fun x => (f x).val := by
  induction xs with
  | nil => rfl
  | cons x xs ih => simp [List.mapM_cons, ih]

/-- The lines of a stream, and what they are answered with. -/
def exchange : Exchange Bytes Bytes := .ofLines Reply Bad

/-- `result()` is the board of a sudoku that is solved, and empty otherwise. -/
theorem result_val (s : Sudoku) :
    s.result.val = if s.solved = true then grid s.boardOf else [] := by
  unfold Sudoku.result
  split_ifs with hsolved
  · rw [mapM_val]
    rfl
  · rfl

/-- The answer to a request without an id. -/
theorem reply_result {line request : Bytes} (hsplit : splitId line = ([], request))
    (hlong : kCells ≤ request.length) :
    Reply line ((Sudoku.fresh.update request).val.solveSudoku.val.result.val ++ kCRLF) := by
  by_cases hpuzzle : IsPuzzle request
  · obtain ⟨hsize, hcells⟩ := hpuzzle
    obtain ⟨hsolved, hfilling, -⟩ := Sudoku.fresh.solveSudoku_correct hsize hcells
    rw [result_val]
    split_ifs with hdone
    · exact .filled request _ hsplit ⟨hsize, hcells⟩ (hfilling hdone)
    · exact .unfillable request hsplit ⟨hsize, hcells⟩ fun hsome => hdone (hsolved.mpr hsome)
  · exact .noPuzzle request _ hsplit hlong hpuzzle

/-- A line is answered by one member call; apart from it, indexes outside of the tables may show. -/
theorem respondTo_responds {c : TcpConnection} (h : Buffered c) {inputBuffer : Buffer}
    (hvalid : inputBuffer.Valid) (line : Bytes) (write : WriteResult) :
    ∃ (os : List Sudoku.Outside) (bytes : Bytes) (x : Traced TcpConnection.Event TcpConnection),
      respondTo { c with inputBuffer } line write =
        ⟨x.val, os.map .user ++ x.trace.map .conn⟩ ∧
        Reply line bytes ∧ Responds c inputBuffer.content bytes (Bad line) x := by
  rcases hsplit : splitId line with ⟨id, request⟩
  have hopen (hlong : kCells ≤ request.length) : ¬Bad line := by
    rw [Bad, hsplit]
    exact Nat.not_lt.mpr hlong
  simp only [respondTo, hsplit]
  by_cases hlong : kCells ≤ request.length
  · rw [if_pos hlong]
    have hreply (hid : id = []) := reply_result (hid ▸ hsplit) hlong
    generalize Sudoku.fresh.update request = updated at hreply ⊢
    by_cases hid : id = []
    · refine ⟨updated.trace ++ (updated.val.solveSudoku.trace ++
          updated.val.solveSudoku.val.result.trace), _, _, ?_, hreply hid,
        Exchange.responds_send h hvalid _ write (hopen hlong)⟩
      simp [bind, Traced.lift, member, hid]
    · refine ⟨updated.trace ++ (updated.val.solveSudoku.trace ++
          updated.val.solveSudoku.val.result.trace), _, _, ?_, .named id request hsplit hid hlong,
        Exchange.responds_send h hvalid _ write (hopen hlong)⟩
      simp [bind, Traced.lift, member, hid]
  · have hbad : Bad line := by
      rw [Bad, hsplit]
      exact Nat.lt_of_not_le hlong
    rw [if_neg hlong]
    refine ⟨[], _, _, ?_, .bad hbad,
      (Exchange.responds_send h hvalid _ write not_false).shutdown hbad⟩
    simp [bind, Traced.lift, member]

/-! ## The loop -/

variable {past : List (Service.Event Sudoku.Outside)} {stream : Bytes} {c : TcpConnection}
  {taken : List Bytes} {replies : List (Bytes × Bytes)}

/-- As often as it runs, the loop takes a line and answers it; it ends when there is none. -/
theorem serve_answers {n : Nat} (write : List WriteResult)
    (h : exchange.Replies past stream c taken replies)
    (hfuel : c.inputBuffer.content.length ≤ n) :
    exchange.Answers (fun _ _ => True) (fun _ _ rest => lines.next rest = none)
      (past ++ (serve n c write).trace) stream () (serve n c write).val := by
  induction n generalizing past c taken replies write with
  | zero =>
      have hempty : c.inputBuffer.content = [] :=
        List.length_eq_zero_iff.mp (Nat.eq_zero_of_le_zero hfuel)
      refine ⟨taken, replies, by simpa [serve] using h, trivial, ?_⟩
      rw [serve, Traced.pure_val, hempty]
      exact delimited_next_eq_none.mpr rfl
  | succ n ih =>
      rw [serve]
      cases hnext : lines.next c.inputBuffer.content with
      | none =>
          rw [Buffer.findCRLF_eq_none h.buffered.input hnext]
          exact ⟨taken, replies, by simpa using h, trivial, hnext⟩
      | some r =>
          obtain ⟨line, rest⟩ := r
          obtain ⟨crlf, hfind, rfl, hvalid, rfl, hasserted⟩ :=
            Buffer.findCRLF_eq_some h.buffered.input hnext
          generalize write.headD (.error true) = w
          obtain ⟨os, bytes, x, heq, hreply, hresponds⟩ := respondTo_responds h.buffered hvalid
            (segment c.inputBuffer.buffer c.inputBuffer.peek crlf) w
          have hshown := h.shown (os.map .user) (by
            simp [Service.connEvents, List.filterMap_map])
          obtain ⟨replies', hreplies⟩ := hshown.respond hreply hresponds (h.takes.snoc hnext)
          have hshorter := lines.shorter hnext
          have hrest := ih write.tail hreplies (by
            rw [hresponds.input]
            omega)
          simpa [hfind, heq, hasserted] using hrest

/-- What `onMessage` leaves in the input buffer. -/
def Left (rest : Bytes) : Prop := rest.length < kCells + 2 ∨ lines.next rest = none

theorem onMessage_answers (u : Unit) (write : List WriteResult)
    (h : exchange.Replies past stream c taken replies) :
    exchange.Answers (fun _ _ => True) (fun _ _ rest => Left rest)
      (past ++ (onMessage u c write).trace) stream u (onMessage u c write).val.2 := by
  have hlength := Buffer.length_content h.buffered.input
  unfold onMessage
  by_cases hlen : kCells + 2 ≤ c.inputBuffer.readableBytes
  · obtain ⟨taken', replies', hreplies, -, hrest⟩ := serve_answers write h hlength.le
    refine ⟨taken', replies', by simpa [hlen] using hreplies, trivial, .inr ?_⟩
    simpa [hlen] using hrest
  · refine ⟨taken, replies, by simpa [hlen] using h, trivial, .inl ?_⟩
    simp only [hlen, if_false, Traced.pure_val]
    omega

variable {ptr : ChannelPtr} {sockfd : Int} {poller : EPoller} {t : Served Unit}
  {ls : List (Served.Label (List WriteResult))} {es : List (Service.Event Sudoku.Outside)}

/-- **Every line is answered.**  In every run, the lines that have been taken are the first ones of
the stream that has been read, and in their order they have been answered, each of them once, up to
and including the first bad request; the `FIN` follows its answer.  No complete line is left, unless
the buffer holds too little for any puzzle. -/
theorem answers_lines
    (hrun : Run (remember Served.noteReads (Served.Step service))
      (.start () (.established ptr sockfd poller false), []) ls es (t, stream)) :
    ∃ taken replies, exchange.Replies es stream t.conn taken replies ∧
      Left t.conn.inputBuffer.content := by
  have hkept : Served.Kept service fun past stream u c _ =>
      exchange.Answers (fun _ _ => True) (fun _ _ rest => Left rest) past stream u c :=
    Exchange.kept_answers
      (fun past stream u c w taken replies h _ => onMessage_answers u w h) fun _ _ _ => rfl
  have hnothing : (0 : Nat) < kCells + 2 := by decide
  obtain ⟨taken, replies, h, -, hleft⟩ := hkept.run [] (Served.start_inTurn _ _)
    ⟨[], [], exchange.replies_established (.nil _) ptr sockfd poller, trivial, .inl hnothing⟩ hrun
  exact ⟨taken, replies, h, hleft⟩

/-- An id, and no request. -/
def named : Bytes := List.replicate 81 (char 'a') ++ ascii ":" ++ kCRLF

def badRequest : List (Served.Label (List WriteResult)) :=
  [.swap, .finish, .activate POLLIN, .wake, .handleEvent,
    .callback (some named) (.error true) [.count 14]]

theorem answers_lines_badRequest :
    ∃ (es : List (Service.Event Sudoku.Outside)) (t : Served Unit) (stream : Bytes),
      (∃ taken replies, exchange.Replies es stream t.conn taken replies ∧
        Left t.conn.inputBuffer.content) ∧
        Service.Ended es ∧ Service.written es = ascii "Bad Request!" ++ kCRLF := by
  obtain ⟨es, t, hrun, hended, hwritten⟩ :
      ∃ (es : List (Service.Event Sudoku.Outside)) (t : Served Unit),
      Run (Served.Step service) (.start () (.established 1 7 .create false)) badRequest es t ∧
        .shutdownWrite ∈ Service.connEvents es ∧
        Service.written es = ascii "Bad Request!" ++ kCRLF :=
    Run.exists_of_exec _ (by decide +kernel)
  obtain ⟨stream, hremember⟩ := hrun.remember Served.noteReads []
  exact ⟨es, t, stream, answers_lines hremember, hended, hwritten⟩

end SudokuServer
end Chaonet
