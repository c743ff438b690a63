import Chaonet.Connection.Exchange

/-!
# The finger servers

The servers of the last two steps of the tutorial: a connection sends the name of a user in a line,
is told about that user, and is shut down.  They differ in `getUser`: the one finds nobody, since
its map stays empty, and the other adds whom it does not know (`tells_getUser_iff`,
`tells_getOrAddUser_iff`).  The map belongs to all connections, so that others may have asked for
users in between.

Whatever pieces a name comes in, it is answered as soon as its line is complete, and nothing else is
(`answered_once`).
-/

namespace Chaonet

open Foundation

open Buffer (lines)
open Service (member)
open TcpConnection (Buffered)

namespace Finger

/-- `UserMap`. -/
abbrev UserMap := Bytes → Option Bytes

/-- `getUser` of `finger06.cpp`. -/
def getUser (users : UserMap) (user : Bytes) : Bytes × UserMap :=
  match users user with
  | some info => (info, users)
  | none => (ascii "No such user", users)

/-- `getUser` of `finger07.cpp`. -/
def getOrAddUser (users : UserMap) (user : Bytes) : Bytes × UserMap :=
  match users user with
  | some info => (info, users)
  | none =>
      (ascii "add new user, yahaha!", fun u => if u = user then some (ascii "yahaha!") else users u)

/-- What `users` is after `getUser` has been called with these names. -/
def asked (getUser : UserMap → Bytes → Bytes × UserMap) (users : UserMap) (names : List Bytes) :
    UserMap :=
  names.foldl (fun users name => (getUser users name).2) users

/-- What the environment decides: the names that other connections have asked for since the last
callback, and what `::write` returns. -/
structure Input where
  others : List Bytes
  write : WriteResult

/-- `onMessage`, the same in both. -/
def onMessage (getUser : UserMap → Bytes → Bytes × UserMap) (users : UserMap) (c : TcpConnection)
    (w : Input) : Traced (Service.Event Empty) (UserMap × TcpConnection) :=
  let users := asked getUser users w.others
  match c.inputBuffer.findCRLF with
  | none => pure (users, c)
  | some crlf => do
      let user := segment c.inputBuffer.buffer c.inputBuffer.peek crlf
      let (info, users) := getUser users user
      let c ← member (c.send (info ++ kCRLF) w.write)
      let inputBuffer ←
        (c.inputBuffer.retrieveUntil (crlf + 2)).lift fun a => .conn (.buffer a)
      let c ← member { c with inputBuffer }.shutdown
      pure (users, c)

def service (getUser : UserMap → Bytes → Bytes × UserMap) : Service UserMap Input Empty :=
  ⟨onMessage getUser, fun u c _ => pure (u, c)⟩

variable {getUser : UserMap → Bytes → Bytes × UserMap} {users : UserMap} {line bytes : Bytes}

/-! ## What a user is told -/

/-- What is sent for a line, if `users` was like this at first: what `getUser` finds after it has
been called with the names of others. -/
def Tells (getUser : UserMap → Bytes → Bytes × UserMap) (users : UserMap) (line bytes : Bytes) :
    Prop :=
  ∃ names, bytes = (getUser (asked getUser users names) line).1 ++ kCRLF

theorem asked_append (getUser : UserMap → Bytes → Bytes × UserMap) (users : UserMap)
    (names names' : List Bytes) :
    asked getUser users (names ++ names') = asked getUser (asked getUser users names) names' :=
  List.foldl_append

theorem asked_getUser (users : UserMap) (names : List Bytes) :
    asked Finger.getUser users names = users := by
  induction names with
  | nil => rfl
  | cons name names ih =>
      have hsame : (Finger.getUser users name).2 = users := by
        unfold Finger.getUser
        cases users name <;> rfl
      rw [asked, List.foldl_cons, hsame]
      exact ih

/-- The first of the two servers knows nobody. -/
theorem tells_getUser_iff :
    Tells Finger.getUser (fun _ => none) line bytes ↔ bytes = ascii "No such user" ++ kCRLF := by
  simp [Tells, asked_getUser, Finger.getUser]

/-- Whoever has been asked for is known to the second one. -/
theorem asked_getOrAddUser (users : UserMap) (names : List Bytes) (user : Bytes) :
    asked getOrAddUser users names user =
      (users user).or (if user ∈ names then some (ascii "yahaha!") else none) := by
  induction names generalizing users with
  | nil => simp [asked]
  | cons name names ih =>
      have hadded : (getOrAddUser users name).2 user =
          (users user).or (if user = name then some (ascii "yahaha!") else none) := by
        by_cases heq : user = name
        · subst heq
          cases hname : users user <;> simp [getOrAddUser, hname]
        · cases hname : users name <;> simp [getOrAddUser, hname, heq]
      have hrest := ih (getOrAddUser users name).2
      rw [hadded] at hrest
      rw [asked, List.foldl_cons]
      refine hrest.trans ?_
      by_cases heq : user = name <;> by_cases hmem : user ∈ names <;> simp [heq, hmem]

/-- The second server adds the user, unless somebody has asked for it before. -/
theorem tells_getOrAddUser_iff :
    Tells getOrAddUser (fun _ => none) line bytes ↔
      bytes = ascii "add new user, yahaha!" ++ kCRLF ∨ bytes = ascii "yahaha!" ++ kCRLF := by
  have hinfo (names : List Bytes) :
      (getOrAddUser (asked getOrAddUser (fun _ => none) names) line).1 =
        if line ∈ names then ascii "yahaha!" else ascii "add new user, yahaha!" := by
    have hknown := asked_getOrAddUser (fun _ => none) names line
    rw [Option.none_or] at hknown
    by_cases hmem : line ∈ names
    · simp [getOrAddUser, hknown, hmem]
    · simp [getOrAddUser, hknown, hmem]
  constructor
  · rintro ⟨names, rfl⟩
    rw [hinfo]
    split_ifs
    · exact .inr rfl
    · exact .inl rfl
  · rintro (rfl | rfl)
    · exact ⟨[], by rw [hinfo, if_neg List.not_mem_nil]⟩
    · exact ⟨[line], by rw [hinfo, if_pos (List.mem_singleton_self line)]⟩

/-! ## The message callback -/

/-- The lines of a stream, and what they are answered with. -/
def exchange (getUser : UserMap → Bytes → Bytes × UserMap) (users : UserMap) :
    Exchange Bytes Bytes :=
  .ofLines (Tells getUser users) fun _ => True

/-- `send` does not look at the input buffer. -/
theorem send_withInput (c : TcpConnection) (inputBuffer : Buffer) (message : Bytes)
    (r : WriteResult) : { c with inputBuffer }.send message r =
      ⟨{ (c.send message r).val with inputBuffer }, (c.send message r).trace⟩ := by
  have hdirectly : { c with inputBuffer }.sendDirectly message r = c.sendDirectly message r := rfl
  unfold TcpConnection.send
  split_ifs
  · by_cases hrest : (c.sendDirectly message r).val.toNat < message.length
    · by_cases hwriting : c.channel.isWriting
      · simp [TcpConnection.sendInLoop, TcpConnection.sendLater, hdirectly, hrest, hwriting, bind,
          pure]
      · simp [TcpConnection.sendInLoop, TcpConnection.sendLater, TcpConnection.updateChannel,
          hdirectly, hrest, hwriting, bind, pure]
    · simp [TcpConnection.sendInLoop, hdirectly, hrest, bind, pure]
  · rfl

variable {past es : List (Service.Event Empty)} {stream : Bytes} {c : TcpConnection}
  {taken : List Bytes} {replies : List (Bytes × Bytes)}

/-- The first line is taken as soon as it is complete. -/
theorem onMessage_answers {u : UserMap} (hu : ∃ names, u = asked getUser users names) (w : Input)
    (h : (exchange getUser users).Replies past stream c taken replies) :
    (exchange getUser users).Answers (fun u _ => ∃ names, u = asked getUser users names)
      (fun _ taken rest => taken = [] → lines.next rest = none)
      (past ++ (onMessage getUser u c w).trace) stream (onMessage getUser u c w).val.1
      (onMessage getUser u c w).val.2 := by
  obtain ⟨names, rfl⟩ := hu
  unfold onMessage
  rw [← asked_append]
  cases hnext : lines.next c.inputBuffer.content with
  | none =>
      rw [Buffer.findCRLF_eq_none h.buffered.input hnext]
      exact ⟨taken, replies, by simpa using h, ⟨_, rfl⟩, fun _ => hnext⟩
  | some r =>
      obtain ⟨user, rest⟩ := r
      obtain ⟨crlf, hfind, rfl, hvalid, rfl, hasserted⟩ :=
        Buffer.findCRLF_eq_some h.buffered.input hnext
      have hafter : ∃ names', (getUser (asked getUser users (names ++ w.others))
          (segment c.inputBuffer.buffer c.inputBuffer.peek crlf)).2 = asked getUser users names' :=
        ⟨names ++ w.others ++ [segment c.inputBuffer.buffer c.inputBuffer.peek crlf],
          by rw [asked_append getUser users (names ++ w.others)]; rfl⟩
      generalize hinfo : getUser (asked getUser users (names ++ w.others))
        (segment c.inputBuffer.buffer c.inputBuffer.peek crlf) = g at hafter
      have hsame : (c.send (g.1 ++ kCRLF) w.write).val.inputBuffer = c.inputBuffer :=
        TcpConnection.send_inputBuffer c _ _
      have hsend := Exchange.responds_send h.buffered hvalid (g.1 ++ kCRLF) w.write not_false
      rw [send_withInput] at hsend
      have hright : (exchange getUser users).Answer
          (segment c.inputBuffer.buffer c.inputBuffer.peek crlf) (g.1 ++ kCRLF) :=
        ⟨names ++ w.others, by rw [hinfo]⟩
      obtain ⟨replies', hreplies⟩ :=
        h.respond hright (hsend.shutdown trivial) (h.takes.snoc hnext)
      refine ⟨taken ++ [segment c.inputBuffer.buffer c.inputBuffer.peek crlf], replies', ?_, ?_,
        fun hnone => absurd hnone (by simp)⟩
      · simpa [hfind, hinfo, hsame, hasserted] using hreplies
      · simpa [hfind, hinfo, hsame, hasserted] using hafter

/-! ## Runs -/

variable {ptr : ChannelPtr} {sockfd : Int} {poller : EPoller} {t : Served UserMap}
  {ls : List (Served.Label Input)}

/-- What has been handed over for the first line of the stream. -/
def Answered (getUser : UserMap → Bytes → Bytes × UserMap) (users : UserMap)
    (stream handed : Bytes) : Prop :=
  ∃ line rest, lines.next stream = some (line, rest) ∧ Tells getUser users line handed

/-- **The first line is answered, and nothing else.**  In every run a connection is handed nothing,
or what `getUser` finds for the first line of the stream that it has read, in a map that calls of
`getUser` have made of the one at the start; while it is up, no line has been completed; and the
`FIN` follows the whole answer. -/
theorem answered_once
    (hrun : Run (remember Served.noteReads (Served.Step (service getUser)))
      (.start users (.established ptr sockfd poller false), []) ls es (t, stream)) :
    (Service.handed es t.conn = [] ∨ Answered getUser users stream (Service.handed es t.conn)) ∧
      (t.conn.state = .kConnected → lines.next stream = none) ∧
      (Service.Ended es → Answered getUser users stream (Service.written es)) := by
  have hkept : Served.Kept (service getUser) fun past stream u c _ =>
      (exchange getUser users).Answers (fun u _ => ∃ names, u = asked getUser users names)
        (fun _ taken rest => taken = [] → lines.next rest = none) past stream u c :=
    Exchange.kept_answers
      (fun past stream u c w taken replies h hu => onMessage_answers hu w h) fun _ _ _ => rfl
  obtain ⟨taken, replies, h, -, hrest⟩ := hkept.run [] (Served.start_inTurn _ _)
    ⟨[], [], (exchange getUser users).replies_established (.nil _) ptr sockfd poller, ⟨[], rfl⟩,
      fun _ => delimited_next_eq_none.mpr rfl⟩ hrun
  rw [List.nil_append] at h
  have honce : replies = [] ∨ Answered getUser users stream (Service.handed es t.conn) := by
    cases replies with
    | nil => exact .inl rfl
    | cons p replies =>
        right
        -- An answer that is not the last one would have been the last one.
        have hlast : replies = [] := by
          by_contra hmore
          obtain ⟨q, replies, rfl⟩ := List.exists_cons_of_ne_nil hmore
          exact h.stillOpen p (by simp) trivial
        subst hlast
        obtain ⟨more, hmore⟩ := h.answered
        obtain ⟨names, hinfo⟩ := h.right p List.mem_cons_self
        have htakes := h.takes
        rw [← hmore] at htakes
        obtain _ | ⟨hnext, -⟩ := htakes
        exact ⟨p.1, _, hnext, names, by simpa [h.handed, exchange, Exchange.ofLines] using hinfo⟩
  refine ⟨honce.imp_left fun hnone => by rw [h.handed, hnone]; rfl, fun hup => ?_, fun hended => ?_⟩
  · obtain ⟨hall, hopen⟩ := h.up hup
    have hreplies : replies = [] :=
      List.eq_nil_iff_forall_not_mem.mpr fun p hp => hopen p hp trivial
    have hnone : taken = [] := by rw [← hall, hreplies, List.map_nil]
    have htakes := h.takes
    rw [hnone] at htakes
    obtain ⟨⟩ := htakes
    exact hrest hnone
  · obtain ⟨p, hp, -⟩ := h.closing (.inr hended)
    have hsome : replies ≠ [] := by
      rintro rfl
      exact nomatch hp
    have hwritten : Service.handed es t.conn = Service.written es := by
      rw [Service.handed, (h.fin hended).2, List.append_nil]
    exact hwritten ▸ honce.resolve_left hsome

/-- A name in two pieces; somebody asks for the same name in between. -/
def chao : List (Served.Label Input) :=
  let turn (data : Bytes) (others : List Bytes) : List (Served.Label Input) :=
    [.swap, .finish, .activate POLLIN, .wake, .handleEvent,
      .callback (some data) (.error true) ⟨others, .count 14⟩]
  turn (ascii "chao\r") [] ++ turn (ascii "\n") [ascii "chao"]

/-- Both servers. -/
theorem answered_once_chao :
    (∃ (es : List (Service.Event Empty)) (t : Served UserMap) (stream : Bytes),
      ((Service.handed es t.conn = [] ∨
          Answered Finger.getUser (fun _ => none) stream (Service.handed es t.conn)) ∧
        (t.conn.state = .kConnected → lines.next stream = none) ∧
        (Service.Ended es →
          Answered Finger.getUser (fun _ => none) stream (Service.written es))) ∧
      Service.Ended es ∧ Service.written es = ascii "No such user\r\n") ∧
    ∃ (es : List (Service.Event Empty)) (t : Served UserMap) (stream : Bytes),
      ((Service.handed es t.conn = [] ∨
          Answered getOrAddUser (fun _ => none) stream (Service.handed es t.conn)) ∧
        (t.conn.state = .kConnected → lines.next stream = none) ∧
        (Service.Ended es →
          Answered getOrAddUser (fun _ => none) stream (Service.written es))) ∧
      Service.Ended es ∧ Service.written es = ascii "yahaha!\r\n" := by
  constructor
  · obtain ⟨es, t, hrun, hended, hwritten⟩ :
        ∃ (es : List (Service.Event Empty)) (t : Served UserMap),
          Run (Served.Step (service Finger.getUser))
            (.start (fun _ => none) (.established 1 7 .create false)) chao es t ∧
            .shutdownWrite ∈ Service.connEvents es ∧
            Service.written es = ascii "No such user\r\n" :=
      Run.exists_of_exec _ (by decide +kernel)
    obtain ⟨stream, hremember⟩ := hrun.remember Served.noteReads []
    exact ⟨es, t, stream, answered_once hremember, hended, hwritten⟩
  · obtain ⟨es, t, hrun, hended, hwritten⟩ :
        ∃ (es : List (Service.Event Empty)) (t : Served UserMap),
          Run (Served.Step (service getOrAddUser))
            (.start (fun _ => none) (.established 1 7 .create false)) chao es t ∧
            .shutdownWrite ∈ Service.connEvents es ∧
            Service.written es = ascii "yahaha!\r\n" :=
      Run.exists_of_exec _ (by decide +kernel)
    obtain ⟨stream, hremember⟩ := hrun.remember Served.noteReads []
    exact ⟨es, t, stream, answered_once hremember, hended, hwritten⟩

end Finger
end Chaonet
