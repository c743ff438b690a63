import Chaonet.Connection.Service

/-!
# Sending on write completion

A user that sends in its callback for a completed write, a piece of at most `k` bytes at a time, has
a window: with `n` pieces sent on its own account, at most `n` pieces are in the output buffer or
owed to a callback that is queued (`Window`).  A member opens the window by one piece if it sends,
and not at all if it handles an event, since a callback is queued only when nothing is left to be
written.
-/

namespace Chaonet

open Foundation

namespace TcpConnection

/-- The callbacks for a completed write that are passed to `queueInLoop`. -/
def completions (es : List Event) : Nat := es.count (.queued .writeCompleteCallback)

@[simp] theorem completions_nil : completions [] = 0 := rfl

@[simp] theorem completions_append (es es' : List Event) :
    completions (es ++ es') = completions es + completions es' := List.count_append

theorem completions_of_unqueued {es : List Event} (h : Unqueued es) : completions es = 0 :=
  List.count_eq_zero.mpr (h .writeCompleteCallback)

/-- At most `n` pieces of `k` bytes are in the output buffer, or owed to a callback. -/
def Window (k : Nat) (c : TcpConnection) (owed n : Nat) : Prop :=
  ∃ m, c.outputBuffer.readableBytes ≤ k * m ∧ owed + m ≤ n

variable {c : TcpConnection} {k owed n : Nat}

theorem Window.readableBytes_le (h : Window k c owed n) :
    c.outputBuffer.readableBytes ≤ k * n := by
  obtain ⟨m, hbytes, hpieces⟩ := h
  exact hbytes.trans (Nat.mul_le_mul_left k (by omega))

/-- A member keeps the window if it queues no callback and leaves no more to be written. -/
theorem Window.mono {c' : TcpConnection} (h : Window k c owed n)
    (hless : c'.outputBuffer.readableBytes ≤ c.outputBuffer.readableBytes) : Window k c' owed n := by
  obtain ⟨m, hbytes, hpieces⟩ := h
  exact ⟨m, hless.trans hbytes, hpieces⟩

/-! ## Sending -/

/-- A message that is written at once queues a callback; otherwise what is left of it is in the
output buffer. -/
theorem sendInLoop_completions (c : TcpConnection) (message : Bytes) (r : WriteResult) :
    completions (c.sendInLoop message r).trace = 0 ∨
      completions (c.sendInLoop message r).trace = 1 ∧ (c.sendInLoop message r).val = c := by
  have hwrote : completions (write r message).trace = 0 := by
    cases r <;> simp [write, completions]
  have hcheck (a : Assertion) (p : Prop) [Decidable p] :
      completions (Traced.check (Event.failed a) p).trace = 0 := by
    by_cases hp : p <;> simp [Traced.check_trace, hp, completions]
  have hdirect : completions (c.sendDirectly message r).trace = 0 ∨
      completions (c.sendDirectly message r).trace = 1 ∧
        ¬(c.sendDirectly message r).val.toNat < message.length := by
    unfold sendDirectly
    split_ifs with hidle
    · by_cases hval : 0 ≤ (write r message).val
      · by_cases hall : ¬(write r message).val.toNat < message.length ∧
            c.writeCompleteCallback = true
        · refine .inr ⟨?_, ?_⟩
          · simp only [Traced.bind_trace, hval, if_true, hwrote, completions_append,
              Traced.when_trace, if_pos hall]
            rfl
          · simp [hval, hall]
        · refine .inl ?_
          simp only [Traced.bind_trace, hval, if_true, hwrote, completions_append,
            Traced.when_trace, if_neg hall]
          rfl
      · exact .inl (by simp [hval, hwrote])
    · exact .inl rfl
  by_cases hrest : (c.sendDirectly message r).val.toNat < message.length
  · rcases hdirect with hnone | ⟨-, hall⟩
    swap
    · exact absurd hrest hall
    refine .inl ?_
    have hlater : completions (c.sendLater message (c.sendDirectly message r).val.toNat).trace =
        0 := by
      have hbuffer (es : List Buffer.Assertion) : completions (es.map .buffer) = 0 :=
        completions_of_unqueued fun f hf => by simp at hf
      have hmark (p : Prop) [Decidable p] (len : Nat) :
          completions (if p then [.queued (.highWaterMarkCallback len)] else []) = 0 := by
        by_cases hp : p <;> simp [hp, completions]
      have hupdate (d : TcpConnection) (channel : Channel) :
          completions (d.updateChannel channel).trace = 0 :=
        completions_of_unqueued (unqueued_updateChannel d channel)
      by_cases hwriting : c.channel.isWriting
      · simp [sendLater, hwriting, hbuffer, hmark]
      · simp [sendLater, hwriting, hbuffer, hmark, hupdate]
    simp [sendInLoop, hrest, hnone, hcheck, hlater]
  · rcases hdirect with hnone | ⟨hone, -⟩
    · exact .inl (by simp [sendInLoop, hrest, hnone, hcheck])
    · exact .inr ⟨by simp [sendInLoop, hrest, hone, hcheck], by simp [sendInLoop, hrest]⟩

theorem readableBytes_le_of_passes {read sent : Bytes} {x : Traced Event TcpConnection}
    (h : Buffered c) (hx : Passes c read sent x) :
    x.val.outputBuffer.readableBytes ≤ c.outputBuffer.readableBytes + sent.length := by
  have hlength := congrArg List.length hx.output
  rw [List.length_append, List.length_append, Buffer.length_content hx.buffered.output,
    Buffer.length_content h.output] at hlength
  omega

/-- A piece that is sent opens the window by one. -/
theorem Window.send {message : Bytes} (h : Window k c owed n) (hbuffered : Buffered c)
    (hmessage : message.length ≤ k) (r : WriteResult) :
    Window k (c.send message r).val (owed + completions (c.send message r).trace) (n + 1) := by
  obtain ⟨m, hbytes, hpieces⟩ := h
  have hpasses := readableBytes_le_of_passes hbuffered (passes_send hbuffered message r)
  unfold Chaonet.TcpConnection.send at hpasses ⊢
  split_ifs at hpasses ⊢ with hup
  · rcases sendInLoop_completions c message r with hnone | ⟨hone, hsame⟩
    · refine ⟨m + 1, ?_, by omega⟩
      rw [Nat.mul_add, Nat.mul_one]
      omega
    · rw [hone, hsame]
      exact ⟨m, hbytes, by omega⟩
  · exact ⟨m, hbytes, by simp [completions]; omega⟩

/-! ## Events -/

theorem handleWrite_completions (h : Buffered c) (r : WriteResult) :
    completions (c.handleWrite r).trace = 0 ∨
      completions (c.handleWrite r).trace ≤ 1 ∧ 0 < c.outputBuffer.readableBytes ∧
        (c.handleWrite r).val.outputBuffer.readableBytes = 0 := by
  obtain ⟨outputBuffer, front, hfront, heq | ⟨hwriting, hempty, -, -, heq⟩⟩ := handleWrite_cases c r
  · refine .inl ?_
    rw [heq]
    exact completions_of_unqueued hfront.plain.1
  · have hup : c.state ≠ .kDisconnected := fun hdown => h.idle hdown hwriting
    refine .inr ⟨?_, (h.interest hup).mp hwriting, ?_⟩
    · rw [heq, completions_append, completions_of_unqueued hfront.plain.1, Nat.zero_add]
      have hupdate := completions_of_unqueued (unqueued_updateChannel { c with outputBuffer }
        c.channel.disableWriting)
      have hshutdown (p q : Prop) [Decidable p] [Decidable q] :
          completions (if p then if q then [.shutdownWrite] else [] else []) = 0 := by
        by_cases hp : p <;> by_cases hq : q <;> simp [hp, hq, completions]
      have hone (p : Prop) [Decidable p] :
          completions (if p then [.queued .writeCompleteCallback] else []) ≤ 1 := by
        by_cases hp : p <;> simp [hp, completions]
      simp only [handleDrained, shutdownInLoop, Traced.bind_trace, Traced.when_trace,
        Traced.pure_trace, Traced.emit_trace, completions_append, hupdate, hshutdown,
        completions_nil, Nat.add_zero, Nat.zero_add]
      exact hone (c.writeCompleteCallback = true)
    · rw [heq]
      exact hempty

/-- Handling an event does not open the window. -/
theorem Window.handle (h : Window k c owed n) (hbuffered : Buffered c) (read : Option Bytes)
    (write : WriteResult) (cb : ChannelCallback) :
    Window k (c.handle ⟨read, 0, write⟩ cb).val
      (owed + completions (c.handle ⟨read, 0, write⟩ cb).trace) n := by
  have hless := readableBytes_le_of_passes hbuffered (passes_handle hbuffered read write cb)
  rw [List.length_nil, Nat.add_zero] at hless
  by_cases hnone : completions (c.handle ⟨read, 0, write⟩ cb).trace = 0
  · rw [hnone]
    exact h.mono hless
  · cases cb with
    | writeCallback =>
        obtain ⟨m, hbytes, hpieces⟩ := h
        rcases handleWrite_completions hbuffered write with hzero | ⟨hone, hsome, hempty⟩
        · exact absurd hzero hnone
        · -- The pieces that have been written make room for the callback.
          have hpos : 0 < m := by
            by_contra hnot
            obtain rfl : m = 0 := by omega
            omega
          change completions (c.handle ⟨read, 0, write⟩ .writeCallback).trace ≤ 1 at hone
          exact ⟨0, hempty.le, by omega⟩
    | readCallback | closeCallback | errorCallback =>
        cases handled_handle c read write _ with
        | still same writing queued =>
            rcases queued with hunqueued | ⟨hcb, -⟩
            · exact absurd (completions_of_unqueued hunqueued) hnone
            · exact nomatch hcb
        | message same writing queued => exact absurd (completions_of_unqueued queued) hnone
        | close cause same idle queued => exact absurd (completions_of_unqueued queued) hnone

/-- A member that queues nothing and sends nothing. -/
theorem Window.quiet {read : Bytes} {x : Traced Event TcpConnection} (h : Window k c owed n)
    (hbuffered : Buffered c) (hx : Passes c read [] x) (hqueued : Unqueued x.trace) :
    Window k x.val (owed + completions x.trace) n := by
  rw [completions_of_unqueued hqueued]
  exact h.mono (readableBytes_le_of_passes hbuffered hx)

end TcpConnection

namespace Service

/-- The callbacks for a completed write that are queued. -/
def owed (fs : List Functor) : Nat := fs.count (.user .writeCompleteCallback)

@[simp] theorem owed_nil : owed [] = 0 := rfl

@[simp] theorem owed_append (fs fs' : List Functor) : owed (fs ++ fs') = owed fs + owed fs' :=
  List.count_append

@[simp] theorem owed_queuedBy_map {ε : Type} (es : List TcpConnection.Event) :
    owed (queuedBy (es.map (.conn : TcpConnection.Event → Event ε))) =
      TcpConnection.completions es := by
  induction es with
  | nil => rfl
  | cons e es ih =>
      have hcons : queuedBy ((e :: es).map (.conn : TcpConnection.Event → Event ε)) =
          queuedBy [(.conn e : Event ε)] ++ queuedBy (es.map .conn) :=
        queuedBy_append [.conn e] (es.map .conn)
      have hhead : owed (queuedBy [(.conn e : Event ε)]) = TcpConnection.completions [e] := by
        cases e with
        | queued f => cases f <;> rfl
        | _ => rfl
      rw [hcons, owed_append, ih, hhead, ← TcpConnection.completions_append]
      rfl

end Service
end Chaonet
