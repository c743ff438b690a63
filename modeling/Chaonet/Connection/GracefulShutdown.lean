import Chaonet.Connection.Session

/-!
# Graceful shutdown

`shutdown` is meant to let everything sent before it reach the peer.  Two places send
the `FIN`: `shutdownInLoop`, and `handleWrite` when it drains the output buffer in state
`kDisconnecting`.  The functor of `shutdown` is queued behind the functors of the sends
before it, so the first place is in order when it runs as a functor.  The second is
not: a write event can drain older data while a `sendInLoop` is still queued.  Nor is a
`shutdown` on the loop thread itself, which overtakes the queued sends of others.

`GracefulFlush` is the promise, `not_gracefulFlush_overtaken` a run that breaks it, and
`gracefulFlush_of_flushSafe` shows that nothing else does.
-/

namespace Chaonet

open Foundation

/-! ## The promise -/

namespace Session

/-- The events of the connection itself. -/
def connEvents (es : List Event) : List TcpConnection.Event :=
  es.filterMap fun
    | .conn e => some e
    | _ => none

/-- The bytes `::write` has accepted. -/
def written (es : List Event) : Bytes := TcpConnection.bytesWritten (connEvents es)

/-- The messages `sendInLoop` has been run with, each under the number of its call. -/
def sendings (es : List Event) : List (Nat × Bytes) :=
  es.filterMap fun
    | .sending call message => some (call, message)
    | _ => none

/-- The stream of these messages. -/
def sent (es : List Event) : Bytes := (sendings es).flatMap Prod.snd

/-- Every byte of the message of this call has been written: the bytes on the socket
reach to the end of its place in the stream. -/
def Written (call : Nat) (message : Bytes) (es : List Event) : Prop :=
  message ≠ [] → ∃ before after, sendings es = before ++ (call, message) :: after ∧
    before.flatMap Prod.snd ++ message <+: written es

/-- `::write` failed with something else than `EWOULDBLOCK`. -/
def Label.fatal : Label → Bool
  | .call _ _ (.error false) => true
  | .callback _ _ (.error false) => true
  | .runFunctor (.error false) => true
  | _ => false

/-- **Graceful shutdown flushes**: if a thread has its `send` accepted and afterwards calls
`shutdown`, no write fails fatally and the peer has not closed, then the message is
written before any `shutdownWrite`. -/
def GracefulFlush (ls : List Label) (es : List Event) : Prop :=
  (∀ l ∈ ls, l.fatal = false) →
    ∀ call t message,
      (∃ a b c, es = a ++ .accepted call t message :: (b ++ .shutdownCalled t :: c)) →
      ∀ pre post, es = pre ++ .conn .shutdownWrite :: post → .conn .closeCallback ∉ pre →
        Written call message pre

/-- Whether the functor has bytes to send. -/
def Functor.sends : Functor → Bool
  | .sendInLoop _ message => message ≠ []
  | _ => false

/-- Bytes are still on their way to `sendInLoop`. -/
def SendQueued (s : Session) : Prop := ∃ f ∈ s.queue.queued, f.sends = true

instance (s : Session) : Decidable s.SendQueued := inferInstanceAs (Decidable (∃ f ∈ _, _))

/-- The steps that cannot overtake a queued message with a `FIN`: a write event does not
drain a disconnecting connection, and the loop thread does not shut an idle one down,
while a message is queued. -/
def FlushSafe (s : Session) : Label → Prop
  | .callback _ _ r =>
      s.handling.head? = some .writeCallback → s.conn.channel.isWriting →
        s.conn.state = .kDisconnecting → s.conn.Drains r → ¬s.SendQueued
  | .call .loop .shutdown _ =>
      s.conn.state = .kConnected → ¬s.conn.channel.isWriting → ¬s.SendQueued
  | _ => True

instance (s : Session) : ∀ l, Decidable (s.FlushSafe l)
  | .callback _ _ r => inferInstanceAs (Decidable (_ → _ → _ → s.conn.Drains r → _))
  | .call .loop .shutdown _ => inferInstanceAs (Decidable (_ → _ → _))
  | .call .loop (.send _) _ | .call .loop .startRead _ | .call .loop .stopRead _
  | .call (.other _) _ _ | .poll _ | .swap | .runFunctor _ | .finish | .queueDestroyed =>
      .isTrue trivial

section Projections

@[simp] theorem connEvents_append (es es' : List Event) :
    connEvents (es ++ es') = connEvents es ++ connEvents es' := List.filterMap_append

@[simp] theorem connEvents_map_conn (es : List TcpConnection.Event) :
    connEvents (es.map .conn) = es := by
  rw [connEvents, List.filterMap_map]
  exact List.filterMap_some

@[simp] theorem sendings_append (es es' : List Event) :
    sendings (es ++ es') = sendings es ++ sendings es' := List.filterMap_append

@[simp] theorem sendings_map_conn (es : List TcpConnection.Event) :
    sendings (es.map .conn) = [] := by
  simp [sendings, List.filterMap_map]

@[simp] theorem written_append (es es' : List Event) :
    written (es ++ es') = written es ++ written es' := by
  simp [written]

@[simp] theorem written_map_conn (es : List TcpConnection.Event) :
    written (es.map .conn) = TcpConnection.bytesWritten es := by
  simp [written]

@[simp] theorem sent_append (es es' : List Event) : sent (es ++ es') = sent es ++ sent es' := by
  simp [sent]

@[simp] theorem sent_map_conn (es : List TcpConnection.Event) : sent (es.map .conn) = [] := by
  simp [sent]

@[simp] theorem sendings_sending (call : Nat) (message : Bytes) (es : List Event) :
    sendings (.sending call message :: es) = (call, message) :: sendings es := rfl

@[simp] theorem written_sending (call : Nat) (message : Bytes) (es : List Event) :
    written (.sending call message :: es) = written es := rfl

@[simp] theorem sent_sending (call : Nat) (message : Bytes) (es : List Event) :
    sent (.sending call message :: es) = message ++ sent es := by
  simp [sent]

/-- A mark in the front part of a list is found before one that is missing behind. -/
theorem mark_of_append {α : Type*} {x : α} {xs ys pre post : List α} (hx : x ∉ ys)
    (h : xs ++ ys = pre ++ x :: post) : ∃ post', xs = pre ++ x :: post' := by
  rcases List.append_eq_append_iff.mp h with ⟨zs, rfl, hys⟩ | ⟨zs, rfl, hpost⟩
  · exact absurd (by simp [hys]) hx
  · cases zs with
    | nil =>
        rw [List.nil_append] at hpost
        exact absurd (by simp [← hpost]) hx
    | cons y zs =>
        obtain ⟨rfl, -⟩ := List.cons.inj hpost
        exact ⟨zs, rfl⟩

end Projections

/-! ## The invariant -/

/-- The invariant behind the promise, as long as the peer has not closed.  `hand` holds
the message taken from the queue but not yet passed to `sendInLoop`. -/
structure Flushing (hand : List (Nat × Bytes)) (es : List Event) (s : Session) : Prop where
  streams : s.conn.Streams (sent es) (written es)
  /-- Every accepted message has been sent, is queued, or is at hand. -/
  waiting : ∀ call t message, .accepted call t message ∈ es →
    (call, message) ∈ sendings es ∨ .sendInLoop call message ∈ s.queue.queued ∨
      (call, message) ∈ hand
  /-- Nothing is queued to be sent behind a `shutdownInLoop`. -/
  ordered : s.queue.queued.Pairwise fun f g => f = .shutdownInLoop → g.sends = false
  connected : s.conn.state = .kConnected →
    .shutdownInLoop ∉ s.queue.queued ∧ .conn .shutdownWrite ∉ es
  undestroyed : s.closing = 0 ∧ .connectionDestroyed ∉ s.queue.queued
  flushed : ∀ pre post, es = pre ++ .conn .shutdownWrite :: post →
    ∀ call t message, .accepted call t message ∈ es → Written call message pre

variable {hand : List (Nat × Bytes)} {es : List Event} {s : Session}

/-- The functors a member function queues are no sends and no shutdowns. -/
theorem Flushing.push_users (h : Flushing hand es s) (ces : List TcpConnection.Event) :
    Flushing hand es { s with queue := s.queue.push (queuedBy ces) } := by
  have huser : ∀ f ∈ queuedBy ces, f ≠ .shutdownInLoop ∧ f ≠ .connectionDestroyed ∧
      f.sends = false := by
    intro f hf
    obtain ⟨u, rfl⟩ := user_of_mem_queuedBy hf
    simp [Functor.sends]
  constructor
  case streams => exact h.streams
  case waiting =>
    intro call t message ha
    rcases h.waiting call t message ha with hsent | hqueued | hhand
    · exact Or.inl hsent
    · exact Or.inr (Or.inl (by simp [hqueued]))
    · exact Or.inr (Or.inr hhand)
  case ordered =>
    rw [BatchQueue.queued_push, List.pairwise_append]
    refine ⟨h.ordered, ?_, fun f _ g hg _ => (huser g hg).2.2⟩
    exact List.pairwise_of_forall_mem_list fun f hf g hg _ => (huser g hg).2.2
  case connected =>
    intro hstate
    refine ⟨?_, (h.connected hstate).2⟩
    simp only [BatchQueue.queued_push, List.mem_append, not_or]
    exact ⟨(h.connected hstate).1, fun hf => (huser _ hf).1 rfl⟩
  case undestroyed =>
    refine ⟨h.undestroyed.1, ?_⟩
    simp only [BatchQueue.queued_push, List.mem_append, not_or]
    exact ⟨h.undestroyed.2, fun hf => (huser _ hf).2.1 rfl⟩
  case flushed => exact h.flushed

/-- Events without a `FIN` and without an accepted message keep what has been flushed. -/
theorem Flushing.flushed_append (h : Flushing hand es s) {es' : List Event}
    (hfin : .conn .shutdownWrite ∉ es')
    (haccepted : ∀ call t message, .accepted call t message ∉ es') :
    ∀ pre post, es ++ es' = pre ++ .conn .shutdownWrite :: post →
      ∀ call t message, .accepted call t message ∈ es ++ es' → Written call message pre := by
  intro pre post heq call t message ha
  obtain ⟨post', hes⟩ := mark_of_append hfin heq
  rcases List.mem_append.mp ha with ha | ha
  · exact h.flushed pre post' hes call t message ha
  · exact absurd ha (haccepted call t message)

/-- A quiet member function that keeps the output path keeps the invariant. -/
theorem Flushing.perform (h : Flushing hand es s) {x : Traced TcpConnection.Event TcpConnection}
    (hstate : x.val.state = s.conn.state) (hquiet : TcpConnection.Quiet x.trace)
    (hstreams : x.val.Streams (sent es) (written es ++ TcpConnection.bytesWritten x.trace)) :
    Flushing hand (es ++ (s.perform x).trace) (s.perform x).val := by
  have hfin : .conn .shutdownWrite ∉ x.trace.map Event.conn := by simpa using hquiet.1
  have haccepted : ∀ call t message, .accepted call t message ∉ x.trace.map Event.conn := by simp
  have hpush := h.push_users x.trace
  constructor
  case streams => simpa [Session.perform] using hstreams
  case waiting =>
    intro call t message ha
    have hold : .accepted call t message ∈ es := by simpa [Session.perform] using ha
    simpa [Session.perform] using hpush.waiting call t message hold
  case ordered => exact hpush.ordered
  case connected =>
    intro hc
    obtain ⟨hshutdown, hnofin⟩ := hpush.connected (hstate ▸ hc)
    refine ⟨hshutdown, fun hmem => ?_⟩
    rcases List.mem_append.mp hmem with hmem | hmem
    · exact hnofin hmem
    · exact hfin hmem
  case undestroyed =>
    refine ⟨?_, hpush.undestroyed.2⟩
    simp [Session.perform, h.undestroyed.1, List.count_eq_zero_of_not_mem hquiet.2]
  case flushed => exact h.flushed_append hfin haccepted

/-- Once nothing is buffered, queued or at hand, every accepted message is written. -/
theorem Flushing.all_written (h : Flushing [] es s) (hidle : ¬s.conn.channel.isWriting)
    (hqueued : ¬s.SendQueued) {call : Nat} {t : Thread} {message : Bytes}
    (ha : .accepted call t message ∈ es) : Written call message es := by
  intro hne
  rcases h.waiting call t message ha with hsent | hmem | hhand
  · obtain ⟨before, after, hsplit⟩ := List.append_of_mem hsent
    refine ⟨before, after, hsplit, ?_⟩
    rw [h.streams.all_accepted hidle, sent, hsplit]
    refine ⟨after.flatMap Prod.snd, ?_⟩
    simp
  · exact absurd ⟨_, hmem, by simpa [Functor.sends] using hne⟩ hqueued
  · simp at hhand

/-- A `FIN` sent when everything accepted is written keeps the invariant. -/
theorem Flushing.fin (h : Flushing [] es s) (hstate : s.conn.state ≠ .kConnected)
    (hidle : ¬s.conn.channel.isWriting) (hqueued : ¬s.SendQueued) :
    Flushing [] (es ++ [.conn .shutdownWrite]) s := by
  constructor
  case streams => simpa [sent, sendings, written, connEvents] using h.streams
  case waiting =>
    intro call t message ha
    have hold : .accepted call t message ∈ es := by simpa using ha
    simpa [sendings] using h.waiting call t message hold
  case ordered => exact h.ordered
  case connected => exact fun hc => absurd hc hstate
  case undestroyed => exact h.undestroyed
  case flushed =>
    intro pre post heq call t message ha
    have hold : .accepted call t message ∈ es := by simpa using ha
    rcases List.eq_nil_or_concat post with rfl | ⟨post', e, rfl⟩
    · obtain ⟨rfl, -⟩ := List.append_inj' heq rfl
      exact h.all_written hidle hqueued hold
    · rw [List.concat_eq_append, ← List.cons_append, ← List.append_assoc] at heq
      exact h.flushed pre post' (List.append_inj' heq rfl).1 call t message hold

/-! ## One lemma for each thing a step does -/

/-- Replace the queue by one whose new functor keeps the invariant. -/
theorem Flushing.push (h : Flushing hand es s) {f : Functor}
    (hsend : f.sends = true → .shutdownInLoop ∉ s.queue.queued)
    (hshutdown : f = .shutdownInLoop → s.conn.state ≠ .kConnected)
    (hdestroyed : f ≠ .connectionDestroyed) :
    Flushing hand es { s with queue := s.queue.push [f] } := by
  constructor
  case streams => exact h.streams
  case waiting =>
    intro call t message ha
    rcases h.waiting call t message ha with hsent | hqueued | hhand
    · exact Or.inl hsent
    · exact Or.inr (Or.inl (by simp [hqueued]))
    · exact Or.inr (Or.inr hhand)
  case ordered =>
    rw [BatchQueue.queued_push, List.pairwise_append]
    refine ⟨h.ordered, by simp, fun g hg f' hf' hg' => ?_⟩
    obtain rfl : f' = f := by simpa using hf'
    subst hg'
    cases hf : f'.sends with
    | false => rfl
    | true => exact absurd hg (hsend hf)
  case connected =>
    intro hc
    refine ⟨?_, (h.connected hc).2⟩
    simp only [BatchQueue.queued_push, List.mem_append, List.mem_singleton, not_or]
    exact ⟨(h.connected hc).1, fun hf => hshutdown hf.symm hc⟩
  case undestroyed =>
    refine ⟨h.undestroyed.1, ?_⟩
    simp only [BatchQueue.queued_push, List.mem_append, List.mem_singleton, not_or]
    exact ⟨h.undestroyed.2, fun hf => hdestroyed hf.symm⟩
  case flushed => exact h.flushed

/-- Queue the message at hand. -/
theorem Flushing.push_hand {call : Nat} {message : Bytes}
    (h : Flushing ((call, message) :: hand) es s) (hshutdown : .shutdownInLoop ∉ s.queue.queued) :
    Flushing hand es { s with queue := s.queue.push [.sendInLoop call message] } := by
  have hpush := h.push (f := .sendInLoop call message) (fun _ => hshutdown) (by simp) (by simp)
  refine { hpush with waiting := fun call' t message' ha => ?_ }
  rcases hpush.waiting call' t message' ha with hsent | hqueued | hhand
  · exact Or.inl hsent
  · exact Or.inr (Or.inl hqueued)
  · rcases List.mem_cons.mp hhand with heq | hhand
    · obtain ⟨rfl, rfl⟩ := Prod.mk.inj heq
      exact Or.inr (Or.inl (by simp))
    · exact Or.inr (Or.inr hhand)

/-- Accept a message. -/
theorem Flushing.accept (h : Flushing hand es s) (hstate : s.conn.state = .kConnected)
    (t : Thread) (message : Bytes) :
    Flushing ((s.calls, message) :: hand) (es ++ [.accepted s.calls t message])
      { s with calls := s.calls + 1 } := by
  have hnofin := (h.connected hstate).2
  constructor
  case streams => simpa [sent, sendings, written, connEvents] using h.streams
  case waiting =>
    intro call t' message' ha
    rcases List.mem_append.mp ha with ha | ha
    · rcases h.waiting call t' message' ha with hsent | hqueued | hhand
      · exact Or.inl (by simpa [sendings] using hsent)
      · exact Or.inr (Or.inl hqueued)
      · exact Or.inr (Or.inr (List.mem_cons_of_mem _ hhand))
    · obtain ⟨rfl, -, rfl⟩ : call = s.calls ∧ t' = t ∧ message' = message := by simpa using ha
      exact Or.inr (Or.inr (List.mem_cons_self ..))
  case ordered => exact h.ordered
  case connected => exact fun _ => ⟨(h.connected hstate).1, by simpa using hnofin⟩
  case undestroyed => exact h.undestroyed
  case flushed =>
    intro pre post heq
    obtain ⟨post', hes⟩ := mark_of_append (by simp) heq
    exact absurd (by simp [hes]) hnofin

/-- Events that are neither a `FIN`, nor accepted messages, nor bytes, nor sends. -/
theorem Flushing.shutdownCalled (h : Flushing hand es s) (t : Thread) :
    Flushing hand (es ++ [.shutdownCalled t]) s := by
  constructor
  case streams => simpa [sent, sendings, written, connEvents] using h.streams
  case waiting =>
    intro call t' message ha
    have hold : .accepted call t' message ∈ es := by simpa using ha
    simpa [sendings] using h.waiting call t' message hold
  case ordered => exact h.ordered
  case connected =>
    intro hc
    exact ⟨(h.connected hc).1, by simpa using (h.connected hc).2⟩
  case undestroyed => exact h.undestroyed
  case flushed => exact h.flushed_append (by simp) (by simp)

/-- Leaving `kConnected` by `shutdown`. -/
theorem Flushing.disconnecting (h : Flushing hand es s) :
    Flushing hand es { s with conn := { s.conn with state := .kDisconnecting } } :=
  ⟨⟨h.streams.valid, h.streams.stream, h.streams.interest⟩, h.waiting, h.ordered,
    fun hc => by simp at hc, h.undestroyed, h.flushed⟩

/-- Run `sendInLoop` with the message at hand. -/
theorem Flushing.sendInLoop {call : Nat} {message : Bytes}
    (h : Flushing ((call, message) :: hand) es s) (r : WriteResult) :
    Flushing hand (es ++ (s.invoke (.sendInLoop call message) r).trace)
      (s.invoke (.sendInLoop call message) r).val := by
  have hstate := TcpConnection.sendInLoop_state s.conn message r
  have hquiet := TcpConnection.quiet_sendInLoop s.conn message r
  -- First `sendInLoop` starts: the message leaves the hand and joins the stream.
  have hstreams := TcpConnection.sendInLoop_streams h.streams message r
  have hfin : .conn .shutdownWrite ∉
      (Event.sending call message :: (s.conn.sendInLoop message r).trace.map Event.conn) := by
    simpa using hquiet.1
  have hpush := h.push_users (s.conn.sendInLoop message r).trace
  constructor
  case streams => simpa [invoke, Session.perform] using hstreams
  case waiting =>
    intro call' t message' ha
    have hold : .accepted call' t message' ∈ es := by simpa [invoke, Session.perform] using ha
    have hsendings : sendings (es ++ (s.invoke (.sendInLoop call message) r).trace) =
        sendings es ++ [(call, message)] := by
      simp [invoke, Session.perform]
    rw [hsendings]
    rcases hpush.waiting call' t message' hold with hsent | hqueued | hhand
    · exact Or.inl (List.mem_append_left _ hsent)
    · exact Or.inr (Or.inl hqueued)
    · rcases List.mem_cons.mp hhand with heq | hhand
      · exact Or.inl (by simp [heq])
      · exact Or.inr (Or.inr hhand)
  case ordered => exact hpush.ordered
  case connected =>
    intro hc
    obtain ⟨hshutdown, hnofin⟩ := hpush.connected (hstate ▸ hc)
    refine ⟨hshutdown, fun hmem => ?_⟩
    rcases List.mem_append.mp hmem with hmem | hmem
    · exact hnofin hmem
    · exact hfin (by simpa [invoke, Session.perform] using hmem)
  case undestroyed =>
    refine ⟨?_, hpush.undestroyed.2⟩
    simp [invoke, Session.perform, h.undestroyed.1, List.count_eq_zero_of_not_mem hquiet.2]
  case flushed =>
    exact h.flushed_append (by simpa [invoke, Session.perform] using hfin)
      (by simp [invoke, Session.perform])

/-- Run `shutdownInLoop`. -/
theorem Flushing.shutdownInLoop (h : Flushing [] es s) (hstate : s.conn.state ≠ .kConnected)
    (hqueued : ¬s.conn.channel.isWriting → ¬s.SendQueued) (r : WriteResult) :
    Flushing [] (es ++ (s.invoke .shutdownInLoop r).trace) (s.invoke .shutdownInLoop r).val := by
  by_cases hwriting : s.conn.channel.isWriting
  · simpa [invoke, Session.perform, TcpConnection.shutdownInLoop, hwriting, queuedBy] using h
  · have hfin := h.fin hstate hwriting (hqueued hwriting)
    simpa [invoke, Session.perform, TcpConnection.shutdownInLoop, hwriting, queuedBy] using hfin

/-- Handle a write event. -/
theorem Flushing.handleWrite (h : Flushing [] es s) {r : WriteResult}
    (hsafe : s.conn.channel.isWriting → s.conn.state = .kDisconnecting → s.conn.Drains r →
      ¬s.SendQueued) :
    Flushing [] (es ++ (s.perform (s.conn.handleWrite r)).trace)
      (s.perform (s.conn.handleWrite r)).val := by
  obtain ⟨hstate, front, hquiet, htrace | ⟨htrace, hwriting, hdisc, hdrains, hidle⟩⟩ :=
    TcpConnection.handleWrite_fin h.streams r
  · exact h.perform hstate (by rwa [htrace]) (TcpConnection.handleWrite_streams h.streams r)
  · have hstreams := TcpConnection.handleWrite_streams h.streams r
    have hfront : TcpConnection.bytesWritten (s.conn.handleWrite r).trace =
        TcpConnection.bytesWritten front := by
      simp [htrace]
    -- Everything up to the `FIN` is quiet.
    have hbefore := h.perform (x := ⟨(s.conn.handleWrite r).val, front⟩) hstate hquiet
      (hfront ▸ hstreams)
    have hsame : s.perform (s.conn.handleWrite r) =
        ⟨(s.perform ⟨(s.conn.handleWrite r).val, front⟩).val,
          (s.perform ⟨(s.conn.handleWrite r).val, front⟩).trace ++ [.conn .shutdownWrite]⟩ := by
      simp [Session.perform, htrace, queuedBy]
    rw [hsame, ← List.append_assoc]
    refine hbefore.fin ?_ hidle ?_
    · simp [Session.perform, hdisc]
    · rintro ⟨f, hmem, hsends⟩
      refine hsafe hwriting hdisc hdrains ⟨f, ?_, hsends⟩
      simp only [Session.perform, BatchQueue.queued_push, List.mem_append] at hmem
      rcases hmem with hmem | hmem
      · exact hmem
      · obtain ⟨u, rfl⟩ := user_of_mem_queuedBy hmem
        simp [Functor.sends] at hsends

/-- Take the next functor from the queue, and its message, if it has one, into the hand. -/
theorem Flushing.take (h : Flushing [] es s) {f : Functor} {rest : List Functor}
    (hbatch : s.queue.batch = some (f :: rest))
    (hhand : ∀ call message, f = .sendInLoop call message → (call, message) ∈ hand) :
    Flushing hand es { s with queue := s.queue.proceed rest } := by
  have hqueued := BatchQueue.queued_proceed hbatch
  have hordered := h.ordered
  have hconnected := h.connected
  have hdestroyed := h.undestroyed.2
  rw [hqueued] at hordered hconnected hdestroyed
  constructor
  case streams => exact h.streams
  case waiting =>
    intro call t message ha
    have hwait := h.waiting call t message ha
    rw [hqueued, List.mem_cons] at hwait
    rcases hwait with hsent | (hf | hmem) | hnone
    · exact Or.inl hsent
    · exact Or.inr (Or.inr (hhand call message hf.symm))
    · exact Or.inr (Or.inl hmem)
    · exact absurd hnone List.not_mem_nil
  case ordered => exact (List.pairwise_cons.mp hordered).2
  case connected =>
    intro hc
    exact ⟨fun hmem => (hconnected hc).1 (List.mem_cons_of_mem _ hmem), (hconnected hc).2⟩
  case undestroyed =>
    exact ⟨h.undestroyed.1, fun hmem => hdestroyed (List.mem_cons_of_mem _ hmem)⟩
  case flushed => exact h.flushed

/-- Run the functor that was taken from the queue. -/
theorem Flushing.runFunctor (h : Flushing [] es s) {f : Functor} {rest : List Functor}
    (hbatch : s.queue.batch = some (f :: rest)) (r : WriteResult) :
    Flushing [] (es ++ ({ s with queue := s.queue.proceed rest }.invoke f r).trace)
      ({ s with queue := s.queue.proceed rest }.invoke f r).val := by
  have hqueued := BatchQueue.queued_proceed hbatch
  have hordered := h.ordered
  have hconnected := h.connected
  have hdestroyed := h.undestroyed.2
  rw [hqueued] at hordered hconnected hdestroyed
  obtain ⟨hfirst, -⟩ := List.pairwise_cons.mp hordered
  -- A functor that is no send leaves all waiting messages in the queue.
  have hpop (hother : ∀ call message, f ≠ .sendInLoop call message) :
      Flushing [] es { s with queue := s.queue.proceed rest } :=
    h.take hbatch fun call message heq => absurd heq (hother call message)
  cases f with
  | sendInLoop call message =>
      have hhand : Flushing [(call, message)] es { s with queue := s.queue.proceed rest } := by
        apply h.take hbatch
        intro call' message' heq
        obtain ⟨rfl, rfl⟩ := Functor.sendInLoop.inj heq
        exact List.mem_singleton.mpr rfl
      exact hhand.sendInLoop r
  | startReadInLoop =>
      exact (hpop (by simp)).perform (TcpConnection.startReadInLoop_state _)
        (TcpConnection.quiet_startReadInLoop _) (TcpConnection.startReadInLoop_streams h.streams)
  | stopReadInLoop =>
      exact (hpop (by simp)).perform (TcpConnection.stopReadInLoop_state _)
        (TcpConnection.quiet_stopReadInLoop _) (TcpConnection.stopReadInLoop_streams h.streams)
  | shutdownInLoop =>
      -- Nothing to be sent is queued behind it, so that its `FIN` comes last.
      refine (hpop (by simp)).shutdownInLoop (fun hc => ?_) ?_ r
      · exact (hconnected hc).1 (List.mem_cons_self ..)
      · rintro - ⟨f, hmem, hsends⟩
        exact absurd (hfirst f hmem rfl) (by simp [hsends])
  | connectionDestroyed => exact absurd (List.mem_cons_self ..) hdestroyed
  | user f => simpa [invoke] using hpop (by simp)

/-- A call of a public member. -/
theorem Flushing.call (h : Flushing [] es s) (t : Thread) (c : PublicCall) (r : WriteResult)
    (hsafe : s.FlushSafe (.call t c r)) :
    Flushing [] (es ++ (s.call t c r).trace) (s.call t c r).val := by
  cases c with
  | send message =>
      by_cases hstate : s.conn.state = .kConnected
      · have haccept := h.accept hstate t message
        cases t with
        | loop => simpa [Session.call, runInLoop, hstate] using haccept.sendInLoop r
        | other n =>
            simpa [Session.call, runInLoop, hstate] using
              haccept.push_hand (h.connected hstate).1
      · simpa [Session.call, hstate] using h
  | shutdown =>
      have hcalled := h.shutdownCalled t
      by_cases hstate : s.conn.state = .kConnected
      · have hdisc := hcalled.disconnecting
        cases t with
        | loop =>
            -- This shutdown overtakes whatever is queued.
            have hrun := hdisc.shutdownInLoop (by simp) (hsafe hstate) r
            simpa [Session.call, runInLoop, hstate] using hrun
        | other n =>
            have hpush := hdisc.push (f := .shutdownInLoop) (by simp [Functor.sends]) (by simp)
              (by simp)
            simpa [Session.call, runInLoop, hstate] using hpush
      · simpa [Session.call, hstate] using hcalled
  | startRead =>
      cases t with
      | loop =>
          exact h.perform (TcpConnection.startReadInLoop_state _)
            (TcpConnection.quiet_startReadInLoop _)
            (TcpConnection.startReadInLoop_streams h.streams)
      | other n =>
          have hpush := h.push (f := .startReadInLoop) (by simp [Functor.sends]) (by simp) (by simp)
          simpa [Session.call, runInLoop] using hpush
  | stopRead =>
      cases t with
      | loop =>
          exact h.perform (TcpConnection.stopReadInLoop_state _)
            (TcpConnection.quiet_stopReadInLoop _) (TcpConnection.stopReadInLoop_streams h.streams)
      | other n =>
          have hpush := h.push (f := .stopReadInLoop) (by simp [Functor.sends]) (by simp) (by simp)
          simpa [Session.call, runInLoop] using hpush

/-- What a step that closes the connection does. -/
structure Closes (es : List Event) (s : Session) : Prop where
  closed : .conn .closeCallback ∈ es
  state : s.conn.state ≠ .kConnected
  noFin : .conn .shutdownWrite ∉ es
  noAccept : ∀ call t message, .accepted call t message ∉ es

/-- Run a channel callback. -/
theorem Flushing.handle (h : Flushing [] es s) (cb : ChannelCallback) (read : Option Bytes)
    (consumed : Nat) (r : WriteResult)
    (hsafe : cb = .writeCallback → s.conn.channel.isWriting → s.conn.state = .kDisconnecting →
      s.conn.Drains r → ¬s.SendQueued) :
    Flushing [] (es ++ (s.handle cb read consumed r).trace) (s.handle cb read consumed r).val ∨
      Closes (s.handle cb read consumed r).trace (s.handle cb read consumed r).val := by
  cases cb with
  | closeCallback =>
      refine Or.inr ⟨?_, ?_, ?_, ?_⟩
      · simp [Session.handle, Session.perform, TcpConnection.closeCallback_mem_handleClose]
      · simp [Session.handle, Session.perform]
      · simp [Session.handle, Session.perform, TcpConnection.shutdownWrite_not_mem_handleClose]
      · simp [Session.handle, Session.perform]
  | errorCallback => exact Or.inl (by simpa [Session.handle] using h)
  | readCallback =>
      by_cases hclose : .closeCallback ∈ (s.conn.handleRead read consumed).trace
      · obtain ⟨hstate, hnofin⟩ := TcpConnection.handleRead_closes hclose
        refine Or.inr ⟨?_, ?_, ?_, ?_⟩
        · simpa [Session.handle, Session.perform] using hclose
        · simp [Session.handle, Session.perform, hstate]
        · simpa [Session.handle, Session.perform] using hnofin
        · simp [Session.handle, Session.perform]
      · obtain ⟨hstate, hquiet, hstreams⟩ := TcpConnection.handleRead_quiet h.streams hclose
        exact Or.inl (h.perform hstate hquiet hstreams)
  | writeCallback => exact Or.inl (h.handleWrite (hsafe rfl))

/-- Every safe step keeps the invariant or closes the connection. -/
theorem Flushing.step (h : Flushing [] es s) {l : Label} {es' : List Event} {t : Session}
    (hsafe : s.FlushSafe l) (hstep : Step s l es' t) :
    Flushing [] (es ++ es') t ∨ Closes es' t := by
  have hcases := step_cases hstep
  cases l with
  | call th c r =>
      obtain ⟨rfl, rfl⟩ := Traced.mk.inj hcases
      exact Or.inl (h.call th c r hsafe)
  | poll revents =>
      obtain ⟨-, -, -, rfl, rfl⟩ := hcases
      rw [List.append_nil]
      exact Or.inl ⟨⟨h.streams.valid, h.streams.stream, h.streams.interest⟩, h.waiting, h.ordered,
        h.connected, h.undestroyed, h.flushed⟩
  | callback read consumed r =>
      obtain ⟨cb, rest, hhandling, heq⟩ := hcases
      obtain ⟨rfl, rfl⟩ := Traced.mk.inj heq
      have hrest : Flushing [] es { s with handling := rest } :=
        ⟨h.streams, h.waiting, h.ordered, h.connected, h.undestroyed, h.flushed⟩
      exact hrest.handle cb read consumed r fun hcb => hsafe (by simp [hhandling, hcb])
  | swap =>
      obtain ⟨-, hbatch, rfl, rfl⟩ := hcases
      have hqueued := BatchQueue.queued_swap hbatch
      rw [List.append_nil]
      exact Or.inl ⟨h.streams, hqueued ▸ h.waiting, hqueued ▸ h.ordered, hqueued ▸ h.connected,
        hqueued ▸ h.undestroyed, h.flushed⟩
  | runFunctor r =>
      obtain ⟨f, rest, hbatch, heq⟩ := hcases
      obtain ⟨rfl, rfl⟩ := Traced.mk.inj heq
      exact Or.inl (h.runFunctor hbatch r)
  | finish =>
      obtain ⟨hbatch, rfl, rfl⟩ := hcases
      have hqueued := BatchQueue.queued_finish hbatch
      rw [List.append_nil]
      exact Or.inl ⟨h.streams, hqueued ▸ h.waiting, hqueued ▸ h.ordered, hqueued ▸ h.connected,
        hqueued ▸ h.undestroyed, h.flushed⟩
  | queueDestroyed => exact absurd h.undestroyed.1 (Nat.ne_of_gt hcases.1)

/-! ## Whole runs -/

/-- What has been flushed when the connection is closed stays true. -/
structure Closed (es : List Event) (s : Session) : Prop where
  closed : .conn .closeCallback ∈ es
  state : s.conn.state ≠ .kConnected
  flushed : ∀ pre post, es = pre ++ .conn .shutdownWrite :: post → .conn .closeCallback ∉ pre →
    ∀ call t message, .accepted call t message ∈ es → Written call message pre

theorem Flushing.close (h : Flushing hand es s) {es' : List Event} {t : Session}
    (hcloses : Closes es' t) : Closed (es ++ es') t :=
  ⟨List.mem_append_right _ hcloses.closed, hcloses.state, fun pre post heq _ =>
    h.flushed_append hcloses.noFin hcloses.noAccept pre post heq⟩

theorem Closed.step (h : Closed es s) {l : Label} {es' : List Event} {t : Session}
    (hstep : Step s l es' t) : Closed (es ++ es') t := by
  obtain ⟨hstate, haccepted⟩ := step_state hstep h.state
  refine ⟨List.mem_append_left _ h.closed, ?_, fun pre post heq hopen call th message ha => ?_⟩
  · rcases hstate with hstate | hstate
    · exact hstate ▸ h.state
    · simp [hstate]
  · have hold : .accepted call th message ∈ es := by
      rcases List.mem_append.mp ha with ha | ha
      · exact ha
      · exact absurd ha (haccepted call th message)
    -- The `FIN` stands before the close, so it is an old one.
    rcases List.append_eq_append_iff.mp heq with ⟨zs, rfl, -⟩ | ⟨zs, hes, hpost⟩
    · exact absurd (List.mem_append_left _ h.closed) hopen
    · cases zs with
      | nil =>
          rw [List.append_nil] at hes
          exact absurd (hes ▸ h.closed) hopen
      | cons z zs =>
          obtain ⟨rfl, -⟩ := List.cons.inj hpost
          exact h.flushed pre zs hes hopen call th message hold

theorem Flushing.start (k : Config) : Flushing [] [] (start k) := by
  have hidle : ¬k.connection.connectionEstablished.val.channel.isWriting ∧
      k.connection.connectionEstablished.val.outputBuffer.readableBytes = 0 := by
    constructor
    · simpa [TcpConnection.connectionEstablished] using
        Channel.not_isWriting_of_isNoneEvent (c := k.connection.channel) rfl
    · rfl
  refine ⟨⟨Buffer.fresh_valid, rfl, ?_⟩, by simp, List.Pairwise.nil, by simp [Session.start],
    by simp [Session.start], by simp⟩
  exact iff_of_false hidle.1 (by simp [Session.start, hidle.2])

/-- Runs that take only safe steps keep the promise. -/
theorem gracefulFlush_of_flushSafe {k : Config} {ls : List Label} {es : List Event} {s : Session}
    (h : Run (restrict FlushSafe Step) (start k) ls es s) : GracefulFlush ls es := by
  have hhistory := h.history (I := fun es s => Flushing [] es s ∨ Closed es s)
    [] (Or.inl (Flushing.start k)) (by
      rintro past s l es t (hflushing | hclosed) ⟨hsafe, hstep⟩
      · rcases hflushing.step hsafe hstep with hnext | hcloses
        · exact Or.inl hnext
        · exact Or.inr (hflushing.close hcloses)
      · exact Or.inr (hclosed.step hstep))
  rintro - call t message ⟨a, b, c, hes⟩ pre post heq hopen
  have ha : .accepted call t message ∈ es := by simp [hes]
  rcases hhistory with hflushing | hclosed
  · exact hflushing.flushed pre post heq call t message ha
  · exact hclosed.flushed pre post heq hopen call t message ha

/-! ## Two runs -/

/-- Another thread sends and shuts down; the byte that stays buffered is drained later. -/
def drained : List Label :=
  [.call (.other 1) (.send [1, 2]) (.count 0), .call (.other 1) .shutdown (.count 0), .swap,
    .runFunctor (.count 1), .runFunctor (.count 0), .finish, .poll POLLOUT,
    .callback none 0 (.count 1)]

theorem gracefulFlush_of_flushSafe_drained :
    ∃ es s, Run (restrict FlushSafe Step) (start plain) drained es s ∧
      GracefulFlush drained es := by
  obtain ⟨es, s, hrun, -⟩ : ∃ es s, Run (restrict FlushSafe Step) (start plain) drained es s ∧
      .conn .shutdownWrite ∈ es := Run.exists_of_exec_guarded _ (by decide +kernel)
  exact ⟨es, s, hrun, gracefulFlush_of_flushSafe hrun⟩

/-- The loop thread sends two bytes, one of which stays buffered; another thread sends a
third byte and shuts down; then the write event drains the buffer. -/
def overtaken : List Label :=
  [.call .loop (.send [1, 2]) (.count 1), .call (.other 1) (.send [3]) (.count 0),
    .call (.other 1) .shutdown (.count 0), .poll POLLOUT, .callback none 0 (.count 1)]

/-- The `FIN` goes out while the third byte is still queued. -/
theorem not_gracefulFlush_overtaken :
    ∃ es s, Run Step (start plain) overtaken es s ∧ ¬GracefulFlush overtaken es := by
  obtain ⟨es, s, hrun, hes⟩ : ∃ es s, Run Step (start plain) overtaken es s ∧
      es = [.accepted 0 .loop [1, 2], .sending 0 [1, 2], .conn (.wrote [1]),
        .accepted 1 (.other 1) [3], .shutdownCalled (.other 1), .conn (.wrote [2])] ++
        [.conn .shutdownWrite] := Run.exists_of_exec _ (by decide +kernel)
  refine ⟨es, s, hrun, fun hflush => ?_⟩
  rw [hes] at hflush
  obtain ⟨before, after, hsent, -⟩ := hflush (by decide) 1 (.other 1) [3]
    ⟨[.accepted 0 .loop [1, 2], .sending 0 [1, 2], .conn (.wrote [1])], [],
      [.conn (.wrote [2]), .conn .shutdownWrite], rfl⟩ _ [] rfl (by decide) (by decide)
  have hmem : ((1, [3]) : Nat × Bytes) ∈ [(0, [1, 2])] := by
    rw [show [(0, [1, 2])] = before ++ (1, [3]) :: after from hsent]
    simp
  simp at hmem

end Session
end Chaonet
