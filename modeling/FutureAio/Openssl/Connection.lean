import FutureAio.Lib.Runs
import FutureAio.Openssl.Stream

/-!
# Whole connections through the openssl adapter

A connection starts as `HandshakeFuture::Initial(f, AsyncToSyncWrapper::new(s))`, is polled until
it is ready, and, when that gives a `TlsStream`, goes on with reads, writes, flushes and closes,
each with a context of its own.  `step` is one such poll; polling a finished future again, or a
stream before there is one, is not a step.

`Session` carries the record the statements need: every inner poll, paired with the context of
the poll it was made in, and how often `f` was called.

* `context_discipline` — over every run, for every engine: no assertion fires, every inner poll
  gets the context of the poll in progress, the stored context is cleared in between.
* `pending_iff_blocked` — for honest engines, each poll of a run answers `Pending` exactly if the
  transport blocked the engine in that very poll, unless the poll is a `poll_close`: there the
  want result is wrapped into an error of kind `Other` and comes out as a hard failure.
* `context_cleared_iff` — no wrapper that outlives a poll keeps its context, except the one inside
  the error of a failed handshake.
-/

namespace FutureAio.Openssl

open Runs

inductive Conn (E S : Type) where
  | handshaking (future : HandshakeFuture E S)
  | live (stream : SslStream E S)
  | failed (error : HandshakeError E S)
  | faulted (fault : Fault)

inductive Op where
  | handshake
  | read (len : ℕ)
  | write (buf : List UInt8)
  | flush
  | close

/-- One poll, with the context it is given. -/
structure Action where
  cx : Context
  op : Op

structure Session (E S : Type) where
  conn : Conn E S
  log : List (Context × InnerPoll)
  invoked : ℕ

def start {E S : Type} (f : SslCall (HandshakeReply E)) (inner : S) : Session E S :=
  ⟨Conn.handshaking (HandshakeFuture.initial f (AsyncToSyncWrapper.new inner)), [], 0⟩

section Step

variable {E S : Type} [AsyncReadWrite S]

def afterHandshake (cx : Context) (s : Session E S) :
    Except Fault (HandshakePoll E S) → Session E S
  | Except.error fault => { s with conn := Conn.faulted fault }
  | Except.ok p =>
      { conn :=
          match p.answer with
          | Poll.pending => Conn.handshaking p.future
          | Poll.ready (Except.ok stream) => Conn.live stream
          | Poll.ready (Except.error error) => Conn.failed error
        log := s.log ++ p.polls.map (cx, ·)
        invoked := s.invoked + p.invoked }

def afterStream {R : Type} (cx : Context) (s : Session E S) :
    Except Fault (StreamPoll E S R) → Session E S
  | Except.error fault => { s with conn := Conn.faulted fault }
  | Except.ok p => { s with conn := Conn.live p.stream, log := s.log ++ p.polls.map (cx, ·) }

def step (engine : SslEngine E) (s : Session E S) (a : Action) : Option (Session E S) :=
  match s.conn, a.op with
  | Conn.handshaking future, Op.handshake =>
      some (afterHandshake a.cx s (future.poll engine a.cx))
  | Conn.live t, Op.read len => some (afterStream a.cx s (pollRead engine a.cx t len))
  | Conn.live t, Op.write buf => some (afterStream a.cx s (pollWrite engine a.cx t buf))
  | Conn.live t, Op.flush => some (afterStream a.cx s (pollFlush engine a.cx t))
  | Conn.live t, Op.close => some (afterStream a.cx s (pollClose engine a.cx t))
  | _, _ => none

/-- What a step can be: a poll of the handshake in one of its states, or one of the four polls of a
live stream, which differ only in the engine call and the translation of its result. -/
lemma step_cases {engine : SslEngine E} {s s' : Session E S} {a : Action}
    (h : step engine s a = some s') :
    (a.op = Op.handshake ∧
      ((∃ f stream, s.conn = Conn.handshaking (HandshakeFuture.initial f stream) ∧
          s' = afterHandshake a.cx s (handshakeStep a.cx (HandshakeCall.f f) stream)) ∨
        (∃ t, s.conn = Conn.handshaking (HandshakeFuture.midHandshake t) ∧
          s' = afterHandshake a.cx s (handshakeStep a.cx
            (HandshakeCall.handshake (engine.handshake t.engine)) t.wrapper)) ∨
        s.conn = Conn.handshaking HandshakeFuture.done)) ∨
      ∃ t, s.conn = Conn.live t ∧
        ∃ (A R : Type) (call : SslCall (E × A)) (toResult : A → Except IoError R),
          s' = afterStream a.cx s (tlsWithContext a.cx t call toResult) := by
  unfold step at h
  split at h
  case h_1 future hconn hop =>
      refine Or.inl ⟨hop, ?_⟩
      cases future with
      | initial f stream => exact Or.inl ⟨f, stream, hconn, (Option.some.inj h).symm⟩
      | midHandshake t => exact Or.inr (Or.inl ⟨t, hconn, (Option.some.inj h).symm⟩)
      | done => exact Or.inr (Or.inr hconn)
  case h_2 t len hconn hop => exact Or.inr ⟨t, hconn, _, _, _, _, (Option.some.inj h).symm⟩
  case h_3 t buf hconn hop => exact Or.inr ⟨t, hconn, _, _, _, _, (Option.some.inj h).symm⟩
  case h_4 t hconn hop => exact Or.inr ⟨t, hconn, _, _, _, _, (Option.some.inj h).symm⟩
  case h_5 t hconn hop => exact Or.inr ⟨t, hconn, _, _, _, _, (Option.some.inj h).symm⟩
  case h_6 => exact absurd h (by simp)

end Step

/-! ## A transport that runs dry

The smallest honest engine over the smallest transport that blocks, for the concrete runs below.
-/

/-- A transport that serves `credit` more operations and then blocks. -/
structure Trickle where
  credit : ℕ

def Trickle.serve {α : Type} (s : Trickle) (a : α) : Trickle × Poll (Except IoError α) :=
  match s.credit with
  | 0 => (s, Poll.pending)
  | n + 1 => (⟨n⟩, Poll.ready (Except.ok a))

instance : AsyncReadWrite Trickle where
  pollRead _ s len := s.serve (List.replicate (min len 1) 0)
  pollWrite _ s buf := s.serve buf.length
  pollFlush _ s := s.serve ()

/-- The handshake of `relay`: one message out. -/
def relayHandshake : SslCall (HandshakeReply Unit) :=
  SslCall.write [22] fun r => SslCall.finish <|
    match r with
    | Except.ok _ => HandshakeReply.ok ()
    | Except.error e =>
        if e.kind = ErrorKind.WouldBlock then HandshakeReply.wouldBlock ()
        else HandshakeReply.failure ()

def relayShutdown : Except IoError ℕ → Except SslError ShutdownResult
  | Except.ok _ => Except.ok ShutdownResult.Sent
  | Except.error e =>
      if e.kind = ErrorKind.WouldBlock then Except.error ⟨ErrorCode.WANT_WRITE, e.text⟩
      else Except.error ⟨ErrorCode.other 5, e.text⟩

/-- An engine that hands every call on to the transport; its shutdown writes a close notice. -/
def relay : SslEngine Unit where
  read _ len := SslCall.read len fun r => SslCall.finish ((), r)
  write _ buf := SslCall.write buf fun r => SslCall.finish ((), r)
  flush _ := SslCall.flush fun r => SslCall.finish ((), r)
  shutdown _ := SslCall.write [1, 0] fun r => SslCall.finish ((), relayShutdown r)
  handshake _ := relayHandshake

def firstPoll : Context := ⟨1, 0, by simp⟩

def secondPoll : Context := ⟨2, 1, by simp⟩

/-! ## Context discipline -/

/-- Between polls: nothing has gone wrong and the stored context is cleared. -/
def Idle {E S : Type} : Conn E S → Prop
  | Conn.handshaking (HandshakeFuture.initial _ stream) => stream.context = 0
  | Conn.handshaking (HandshakeFuture.midHandshake stream) => stream.wrapper.context = 0
  | Conn.handshaking HandshakeFuture.done => False
  | Conn.live stream => stream.wrapper.context = 0
  | Conn.failed _ => True
  | Conn.faulted _ => False

/-- The future has not been polled yet. -/
def IsInitial {E S : Type} : Conn E S → Prop
  | Conn.handshaking (HandshakeFuture.initial _ _) => True
  | _ => False

structure SessionInv {E S : Type} (s : Session E S) : Prop where
  idle : Idle s.conn
  log : ∀ e ∈ s.log, e.2.context = e.1
  invoked : (IsInitial s.conn ∧ s.invoked = 0) ∨ (¬ IsInitial s.conn ∧ s.invoked = 1)

lemma sessionInv_start {E S : Type} (f : SslCall (HandshakeReply E)) (inner : S) :
    SessionInv (start f inner) := by
  refine ⟨rfl, ?_, Or.inl ⟨trivial, rfl⟩⟩
  intro e he
  exact absurd he (by simp [start])

section Discipline

variable {E S : Type} [AsyncReadWrite S] {engine : SslEngine E}

lemma log_append {log : List (Context × InnerPoll)} (hlog : ∀ e ∈ log, e.2.context = e.1)
    {cx : Context} {polls : List InnerPoll} (hpolls : ∀ p ∈ polls, p.context = cx) :
    ∀ e ∈ log ++ polls.map (cx, ·), e.2.context = e.1 := by
  intro e he
  rcases List.mem_append.mp he with he | he
  · exact hlog e he
  · obtain ⟨p, hp, rfl⟩ := List.mem_map.mp he
    exact hpolls p hp

/-- A poll of a live stream keeps the invariant, whichever of the four it is. -/
lemma sessionInv_stream {A R : Type} {s : Session E S} (inv : SessionInv s)
    {t : SslStream E S} (hconn : s.conn = Conn.live t) (cx : Context)
    (call : SslCall (E × A)) (toResult : A → Except IoError R) :
    SessionInv (afterStream cx s (tlsWithContext cx t call toResult)) ∧
      ¬ IsInitial (afterStream cx s (tlsWithContext cx t call toResult)).conn := by
  have hidle : t.wrapper.context = 0 := by
    have := inv.idle
    rwa [hconn] at this
  obtain ⟨out, -, hpoll, hpolls⟩ := tlsWithContext_of_idle cx hidle call toResult
  have hinvoked : s.invoked = 1 := by
    rcases inv.invoked with ⟨hinit, -⟩ | ⟨-, h⟩
    · rw [hconn] at hinit
      exact absurd hinit (by simp [IsInitial])
    · exact h
  rw [hpoll]
  refine ⟨⟨rfl, log_append inv.log hpolls, Or.inr ⟨?_, hinvoked⟩⟩, ?_⟩ <;>
    simp [afterStream, IsInitial]

/-- A handshake step keeps the invariant and leaves the initial state. -/
lemma sessionInv_handshake {s : Session E S} (inv : SessionInv s) (cx : Context)
    {stream : AsyncToSyncWrapper S} (hidle : stream.context = 0)
    (call : HandshakeCall E) (hone : s.invoked + call.invoked = 1) :
    SessionInv (afterHandshake cx s (handshakeStep cx call stream)) ∧
      ¬ IsInitial (afterHandshake cx s (handshakeStep cx call stream)).conn := by
  obtain ⟨out, -, hpolls, hcase⟩ := handshakeStep_of_idle cx hidle call
  rcases hcase with ⟨mid, hmid, -, hstep⟩ | ⟨-, hstep⟩
  · rw [hstep]
    refine ⟨⟨hmid, log_append inv.log hpolls, Or.inr ⟨?_, hone⟩⟩, ?_⟩ <;>
      simp [afterHandshake, IsInitial]
  · rw [hstep]
    rcases handshakeResult_cases out with ⟨stream, hres, hidle'⟩ | ⟨error, hres⟩
    · simp only [afterHandshake, hres]
      exact ⟨⟨hidle', log_append inv.log hpolls, Or.inr ⟨id, hone⟩⟩, id⟩
    · simp only [afterHandshake, hres]
      exact ⟨⟨trivial, log_append inv.log hpolls, Or.inr ⟨id, hone⟩⟩, id⟩

lemma sessionInv_step (s : Session E S) (a : Action) (s' : Session E S) (inv : SessionInv s)
    (h : step engine s a = some s') : SessionInv s' ∧ ¬ IsInitial s'.conn := by
  have hidle := inv.idle
  have hinvoked := inv.invoked
  rcases step_cases h with ⟨-, ⟨f, stream, hconn, rfl⟩ | ⟨t, hconn, rfl⟩ | hconn⟩ |
    ⟨t, hconn, A, R, call, toResult, rfl⟩
  · rw [hconn] at hidle hinvoked
    refine sessionInv_handshake inv a.cx hidle _ ?_
    rcases hinvoked with ⟨-, h0⟩ | ⟨hnot, -⟩
    · rw [h0]
      rfl
    · exact absurd trivial hnot
  · rw [hconn] at hidle hinvoked
    refine sessionInv_handshake inv a.cx hidle _ ?_
    rcases hinvoked with ⟨hinit, -⟩ | ⟨-, h1⟩
    · exact absurd hinit id
    · rw [h1]
      rfl
  · rw [hconn] at hidle
    exact absurd hidle id
  · exact sessionInv_stream inv hconn a.cx call toResult

lemma sessionInv_run {f : SslCall (HandshakeReply E)} {inner : S} {as : List Action}
    {s : Session E S} (hrun : run (step engine) (start f inner) as = some s) : SessionInv s :=
  run_invariant (fun s a s' inv h => (sessionInv_step s a s' inv h).1) as
    (sessionInv_start f inner) hrun

/-- **Context discipline over whole connections.** -/
theorem context_discipline (engine : SslEngine E) (f : SslCall (HandshakeReply E)) (inner : S)
    (as : List Action) (s : Session E S)
    (hrun : run (step engine) (start f inner) as = some s) :
    (∀ fault, s.conn ≠ Conn.faulted fault) ∧
    (∀ e ∈ s.log, e.2.context = e.1) ∧
    Idle s.conn ∧
    s.invoked = min as.length 1 := by
  have inv := sessionInv_run hrun
  refine ⟨?_, inv.log, inv.idle, ?_⟩
  · intro fault hfault
    have := inv.idle
    rw [hfault] at this
    exact this
  · cases as with
    | nil =>
        rw [run, Option.some.injEq] at hrun
        rw [← hrun]
        rfl
    | cons a as =>
        obtain ⟨t, hst, hrest⟩ := run_cons_some hrun
        obtain ⟨inv₁, hnot₁⟩ := sessionInv_step _ a t (sessionInv_start f inner) hst
        have hkept : SessionInv s ∧ ¬ IsInitial s.conn :=
          run_invariant (I := fun s => SessionInv s ∧ ¬ IsInitial s.conn)
            (fun s a s' inv h => sessionInv_step s a s' inv.1 h) as ⟨inv₁, hnot₁⟩ hrest
        rcases hkept.1.invoked with ⟨hinit, -⟩ | ⟨-, hone⟩
        · exact absurd hinit hkept.2
        · rw [hone, List.length_cons]
          omega

end Discipline

/-- The handshake, a read the transport blocks, and a close. -/
theorem context_discipline_relay :
    ∃ s : Session Unit Trickle,
      run (step relay) (start relayHandshake ⟨1⟩)
        [⟨firstPoll, Op.handshake⟩, ⟨secondPoll, Op.read 4⟩, ⟨firstPoll, Op.close⟩] = some s ∧
      (∀ fault, s.conn ≠ Conn.faulted fault) ∧ (∀ e ∈ s.log, e.2.context = e.1) ∧
      Idle s.conn ∧ s.invoked = 1 :=
  ⟨_, rfl, context_discipline relay relayHandshake (⟨1⟩ : Trickle)
    [⟨firstPoll, Op.handshake⟩, ⟨secondPoll, Op.read 4⟩, ⟨firstPoll, Op.close⟩] _ rfl⟩

/-! ## Pending and would-block -/

/-- The want results of `SslStream::shutdown`. -/
def shutdownWants : Except SslError ShutdownResult → Bool
  | Except.ok _ => false
  | Except.error e => decide (e.code = ErrorCode.WANT_READ ∨ e.code = ErrorCode.WANT_WRITE)

/-- What the openssl crate promises: each of its calls ends with that call's want result exactly
if the transport answered one of its operations with `WouldBlock`. -/
structure HonestEngine {E : Type} (engine : SslEngine E) : Prop where
  read : ∀ e len, (engine.read e len).Honest (fun r => isWouldBlock r.2) false
  write : ∀ e buf, (engine.write e buf).Honest (fun r => isWouldBlock r.2) false
  flush : ∀ e, (engine.flush e).Honest (fun r => isWouldBlock r.2) false
  shutdown : ∀ e, (engine.shutdown e).Honest (fun r => shutdownWants r.2) false
  handshake : ∀ e, (engine.handshake e).Honest HandshakeReply.isWouldBlock false

lemma Trickle.serve_ready {α : Type} (s : Trickle) (a : α) (r : Except IoError α)
    (h : (s.serve a).2 = Poll.ready r) : isWouldBlock r = false := by
  unfold Trickle.serve at h
  split at h
  · exact absurd h (by simp)
  · rw [← Poll.ready.inj h]
    rfl

lemma Trickle.pendingOnly : PendingOnly Trickle :=
  ⟨fun _ s _ r => s.serve_ready _ r, fun _ s _ r => s.serve_ready _ r,
    fun _ s r => s.serve_ready _ r⟩

lemma relayHandshake_honest : relayHandshake.Honest HandshakeReply.isWouldBlock false := by
  intro r
  cases r with
  | ok n => rfl
  | error e =>
      simp only [SslCall.Honest, isWouldBlock, Bool.false_or]
      split <;> simp_all [HandshakeReply.isWouldBlock]

lemma relay_honest : HonestEngine relay := by
  refine ⟨?_, ?_, ?_, ?_, ?_⟩
  · intro e len r
    rfl
  · intro e buf r
    rfl
  · intro e r
    rfl
  · intro e r
    cases r with
    | ok n => rfl
    | error e =>
        simp only [SslCall.Honest, isWouldBlock, relayShutdown, Bool.false_or]
        split <;> simp_all [shutdownWants]
  · intro e
    exact relayHandshake_honest

section Correspondence

variable {E S : Type} [AsyncReadWrite S]

/-- The poll answers `Pending` if the engine call `ran` was blocked by the transport, and else
`Ready` with what the engine's result `means` to the caller. -/
def StreamCorresponds {A R : Type} (ran : Except Fault (CallOut (E × A) S))
    (means : A → Except IoError R → Prop) (polled : Except Fault (StreamPoll E S R)) : Prop :=
  ∃ out p, ran = Except.ok out ∧ polled = Except.ok p ∧ p.polls = out.polls ∧
    if out.blocked then p.answer = Poll.pending
    else ∃ r, means out.result.2 r ∧ p.answer = Poll.ready r

/-- What a shutdown's result means: the stream is closed if the notice has been sent or the peer had
closed before, and any other error is an error with its text. -/
inductive CloseMeans : Except SslError ShutdownResult → Except IoError Unit → Prop
  | ok (result : ShutdownResult) : CloseMeans (Except.ok result) (Except.ok ())
  | zeroReturn (text : String) :
      CloseMeans (Except.error ⟨ErrorCode.ZERO_RETURN, text⟩) (Except.ok ())
  | other (code : ErrorCode) (text : String) : code ≠ ErrorCode.ZERO_RETURN →
      CloseMeans (Except.error ⟨code, text⟩) (Except.error ⟨ErrorKind.Other, text⟩)

/-- The same for a poll of the handshake. -/
def HandshakeCorresponds (ran : Except Fault (CallOut (HandshakeReply E) S))
    (polled : Except Fault (HandshakePoll E S)) : Prop :=
  ∃ out p, ran = Except.ok out ∧ polled = Except.ok p ∧ p.polls = out.polls ∧
    p.answer = if out.blocked then Poll.pending else Poll.ready (handshakeResult out)

/-- The correspondence for the poll that `a` makes of `conn`. -/
def Corresponds (engine : SslEngine E) (conn : Conn E S) (a : Action) : Prop :=
  match conn, a.op with
  | Conn.handshaking (HandshakeFuture.initial f stream), Op.handshake =>
      HandshakeCorresponds (f.run a.cx (stream.under a.cx))
        ((HandshakeFuture.initial f stream).poll engine a.cx)
  | Conn.handshaking (HandshakeFuture.midHandshake t), Op.handshake =>
      HandshakeCorresponds ((engine.handshake t.engine).run a.cx (t.wrapper.under a.cx))
        ((HandshakeFuture.midHandshake t).poll engine a.cx)
  | Conn.live t, Op.read len =>
      StreamCorresponds ((engine.read t.engine len).run a.cx (t.wrapper.under a.cx)) Eq
        (pollRead engine a.cx t len)
  | Conn.live t, Op.write buf =>
      StreamCorresponds ((engine.write t.engine buf).run a.cx (t.wrapper.under a.cx)) Eq
        (pollWrite engine a.cx t buf)
  | Conn.live t, Op.flush =>
      StreamCorresponds ((engine.flush t.engine).run a.cx (t.wrapper.under a.cx)) Eq
        (pollFlush engine a.cx t)
  | Conn.live t, Op.close =>
      StreamCorresponds ((engine.shutdown t.engine).run a.cx (t.wrapper.under a.cx)) CloseMeans
        (pollClose engine a.cx t)
  | _, _ => True

/-- `a` closes the stream while the transport blocks the shutdown. -/
def ClosesBlocked (engine : SslEngine E) (conn : Conn E S) (a : Action) : Prop :=
  match conn, a.op with
  | Conn.live t, Op.close =>
      ∃ out, (engine.shutdown t.engine).run a.cx (t.wrapper.under a.cx) = Except.ok out ∧
        out.blocked = true
  | _, _ => False

/-- The call that an unpolled future still has to make is honest. -/
def StartsHonestly : Conn E S → Prop
  | Conn.handshaking (HandshakeFuture.initial f _) => f.Honest HandshakeReply.isWouldBlock false
  | _ => True

end Correspondence

lemma startsHonestly_of_not_initial {E S : Type} {conn : Conn E S} (h : ¬ IsInitial conn) :
    StartsHonestly conn := by
  unfold StartsHonestly
  split
  · exact absurd trivial h
  · trivial

lemma resultToPoll_eq {R : Type} (r : Except IoError R) :
    resultToPoll r = if isWouldBlock r then Poll.pending else Poll.ready r := by
  cases r with
  | ok v => rfl
  | error e => simp [resultToPoll, isWouldBlock]

/-- `closeResult` never gives a `WouldBlock`: `poll_close` is never pending. -/
lemma resultToPoll_closeResult (r : Except SslError ShutdownResult) :
    resultToPoll (closeResult r) = Poll.ready (closeResult r) := by
  cases r with
  | ok v => rfl
  | error e =>
      simp only [closeResult]
      split
      · rfl
      · simp [resultToPoll, IoError.other]

lemma closeMeans_closeResult (r : Except SslError ShutdownResult) :
    CloseMeans r (closeResult r) := by
  cases r with
  | ok result => exact CloseMeans.ok result
  | error e =>
      obtain ⟨code, text⟩ := e
      simp only [closeResult]
      split_ifs with hcode
      · subst hcode
        exact CloseMeans.zeroReturn text
      · exact CloseMeans.other code text hcode

section Blocking

variable {E S : Type} [AsyncReadWrite S] {engine : SslEngine E} {cx : Context}

/-- The three polls that pass the engine's error on. -/
lemma streamCorresponds_of_honest {A : Type} (hinner : PendingOnly S) {t : SslStream E S}
    (hidle : t.wrapper.context = 0) {call : SslCall (E × Except IoError A)}
    (hhonest : call.Honest (fun r => isWouldBlock r.2) false) :
    StreamCorresponds (call.run cx (t.wrapper.under cx)) Eq (tlsWithContext cx t call id) := by
  obtain ⟨out, hrun, hpoll, -⟩ := tlsWithContext_of_idle cx hidle call id
  have hblocked : isWouldBlock out.result.2 = out.blocked := by
    have := honest_run hinner call (t.wrapper.under cx) false out rfl hhonest hrun
    rwa [Bool.false_or] at this
  have hanswer := resultToPoll_eq out.result.2
  rw [hblocked] at hanswer
  refine ⟨out, _, hrun, hpoll, rfl, ?_⟩
  split_ifs with hb
  · rwa [if_pos hb] at hanswer
  · rw [if_neg hb] at hanswer
    exact ⟨_, rfl, hanswer⟩

/-- `poll_close` corresponds exactly if nothing blocked: it is ready either way. -/
lemma streamCorresponds_close_iff {t : SslStream E S} (hidle : t.wrapper.context = 0) :
    StreamCorresponds ((engine.shutdown t.engine).run cx (t.wrapper.under cx)) CloseMeans
        (pollClose engine cx t) ↔
      ¬ ∃ out, (engine.shutdown t.engine).run cx (t.wrapper.under cx) = Except.ok out ∧
        out.blocked = true := by
  obtain ⟨out, hrun, hpoll, -⟩ :=
    tlsWithContext_of_idle cx hidle (engine.shutdown t.engine) closeResult
  constructor
  · rintro ⟨out', p, hrun', hpoll', -, hanswer⟩ ⟨out'', hrun'', hblocked⟩
    obtain rfl := Except.ok.inj (hrun'.symm.trans hrun'')
    obtain rfl := Except.ok.inj (hrun.symm.trans hrun')
    obtain rfl := Except.ok.inj (hpoll'.symm.trans hpoll)
    rw [if_pos hblocked, resultToPoll_closeResult] at hanswer
    exact absurd hanswer (by simp)
  · intro hfree
    refine ⟨out, _, hrun, hpoll, rfl, ?_⟩
    rw [if_neg fun hblocked => hfree ⟨out, hrun, hblocked⟩]
    exact ⟨_, closeMeans_closeResult _, resultToPoll_closeResult _⟩

lemma handshakeCorresponds_of_honest (hinner : PendingOnly S) {stream : AsyncToSyncWrapper S}
    (hidle : stream.context = 0) (call : HandshakeCall E)
    (hhonest : call.call.Honest HandshakeReply.isWouldBlock false) :
    HandshakeCorresponds (call.call.run cx (stream.under cx)) (handshakeStep cx call stream) := by
  obtain ⟨out, hrun, -, hcase⟩ := handshakeStep_of_idle cx hidle call
  have hblocked : out.result.isWouldBlock = out.blocked := by
    have := honest_run hinner call.call (stream.under cx) false out rfl hhonest hrun
    rwa [Bool.false_or] at this
  rcases hcase with ⟨mid, -, hwant, hstep⟩ | ⟨hwant, hstep⟩
  · refine ⟨out, _, hrun, hstep, rfl, ?_⟩
    rw [if_pos (hblocked.symm.trans hwant)]
  · refine ⟨out, _, hrun, hstep, rfl, ?_⟩
    rw [if_neg]
    simp [← hblocked, hwant]

/-- One poll of an idle connection. -/
lemma corresponds_iff_of_idle (hengine : HonestEngine engine) (hinner : PendingOnly S)
    {conn : Conn E S} (hidle : Idle conn) (hstart : StartsHonestly conn) (a : Action) :
    Corresponds engine conn a ↔ ¬ ClosesBlocked engine conn a := by
  unfold Corresponds
  split
  case h_1 f stream hop =>
      simp only [ClosesBlocked, not_false_eq_true, iff_true]
      exact handshakeCorresponds_of_honest hinner hidle (HandshakeCall.f f) hstart
  case h_2 t hop =>
      simp only [ClosesBlocked, not_false_eq_true, iff_true]
      exact handshakeCorresponds_of_honest hinner hidle (HandshakeCall.handshake _)
        (hengine.handshake t.engine)
  case h_3 t len hop =>
      simp only [ClosesBlocked, hop, not_false_eq_true, iff_true]
      exact streamCorresponds_of_honest hinner hidle (hengine.read t.engine len)
  case h_4 t buf hop =>
      simp only [ClosesBlocked, hop, not_false_eq_true, iff_true]
      exact streamCorresponds_of_honest hinner hidle (hengine.write t.engine buf)
  case h_5 t hop =>
      simp only [ClosesBlocked, hop, not_false_eq_true, iff_true]
      exact streamCorresponds_of_honest hinner hidle (hengine.flush t.engine)
  case h_6 t hop =>
      simp only [ClosesBlocked, hop]
      exact streamCorresponds_close_iff hidle
  case h_7 hinitial hmid hread hwrite hflush hclose =>
      simp only [true_iff]
      unfold ClosesBlocked
      split
      · exact absurd ‹a.op = Op.close› (hclose _ rfl)
      · exact id

/-- **Pending and would-block correspond in every poll of every run**, except in a `poll_close`
whose shutdown the transport blocks. -/
theorem pending_iff_blocked (engine : SslEngine E) (hengine : HonestEngine engine)
    (hinner : PendingOnly S) (f : SslCall (HandshakeReply E))
    (hf : f.Honest HandshakeReply.isWouldBlock false) (inner : S) (as : List Action)
    (s : Session E S) (hrun : run (step engine) (start f inner) as = some s) (a : Action) :
    Corresponds engine s.conn a ↔ ¬ ClosesBlocked engine s.conn a := by
  have hkept : SessionInv s ∧ StartsHonestly s.conn := by
    refine run_invariant (I := fun s => SessionInv s ∧ StartsHonestly s.conn) ?_ as
      ⟨sessionInv_start f inner, hf⟩ hrun
    intro s a s' hinv hstep
    obtain ⟨inv, hnot⟩ := sessionInv_step s a s' hinv.1 hstep
    exact ⟨inv, startsHonestly_of_not_initial hnot⟩
  exact corresponds_iff_of_idle hengine hinner hkept.1.idle hkept.2 a

end Blocking

/-- After the handshake, a read that the transport blocks is pending, as it should be. -/
theorem pending_iff_blocked_read :
    ∃ s : Session Unit Trickle,
      run (step relay) (start relayHandshake ⟨1⟩) [⟨firstPoll, Op.handshake⟩] = some s ∧
      Corresponds relay s.conn ⟨secondPoll, Op.read 4⟩ :=
  ⟨_, rfl, (pending_iff_blocked relay relay_honest Trickle.pendingOnly relayHandshake
    relayHandshake_honest ⟨1⟩ [⟨firstPoll, Op.handshake⟩] _ rfl ⟨secondPoll, Op.read 4⟩).mpr id⟩

/-- A close that the transport blocks comes back as a hard error: the inner poll was pending,
the answer is ready with an error of kind `Other`. -/
theorem close_blocked_is_error :
    HonestEngine relay ∧ PendingOnly Trickle ∧
    relayHandshake.Honest HandshakeReply.isWouldBlock false ∧
    ∃ (s : Session Unit Trickle) (t : SslStream Unit Trickle) (p : StreamPoll Unit Trickle Unit),
      run (step relay) (start relayHandshake ⟨1⟩) [⟨firstPoll, Op.handshake⟩] = some s ∧
      s.conn = Conn.live t ∧
      pollClose relay secondPoll t = Except.ok p ∧
      p.polls = [⟨secondPoll, true⟩] ∧
      p.answer = Poll.ready (Except.error ⟨ErrorKind.Other, "operation would block"⟩) ∧
      ¬ Corresponds relay s.conn ⟨secondPoll, Op.close⟩ := by
  refine ⟨relay_honest, Trickle.pendingOnly, relayHandshake_honest, _, _, _, rfl, rfl, rfl, rfl,
    rfl, ?_⟩
  intro hcorr
  exact (streamCorresponds_close_iff rfl).mp hcorr ⟨_, rfl, rfl⟩

/-! ## What is left of a context

A context lives on the stack of the poll it belongs to, so its address must not be kept for longer.
A wrapper outlives the poll in the future, in the stream, or inside the error that ends a handshake.
-/

/-- The wrappers that exist after a poll. -/
def Conn.wrappers {E S : Type} : Conn E S → List (AsyncToSyncWrapper S)
  | Conn.handshaking (HandshakeFuture.initial _ stream) => [stream]
  | Conn.handshaking (HandshakeFuture.midHandshake stream) => [stream.wrapper]
  | Conn.handshaking HandshakeFuture.done => []
  | Conn.live stream => [stream.wrapper]
  | Conn.failed (HandshakeError.failure mid) => [mid.wrapper]
  | Conn.failed (HandshakeError.setupFailure _) => []
  | Conn.faulted _ => []

/-- None of them holds a context. -/
def Cleared {E S : Type} (conn : Conn E S) : Prop := ∀ w ∈ conn.wrappers, w.context = 0

section Contexts

variable {E S : Type} [AsyncReadWrite S] {engine : SslEngine E}

/-- The engine call ends the handshake with `HandshakeError::Failure`. -/
def EndsInFailure (cx : Context) (call : SslCall (HandshakeReply E))
    (stream : AsyncToSyncWrapper S) : Prop :=
  ∃ out e, call.run cx (stream.under cx) = Except.ok out ∧ out.result = HandshakeReply.failure e

/-- The poll that `a` makes of `conn` is one of a handshake, and the engine fails it. -/
def HandshakeFails (engine : SslEngine E) (conn : Conn E S) (a : Action) : Prop :=
  match conn, a.op with
  | Conn.handshaking (HandshakeFuture.initial f stream), Op.handshake =>
      EndsInFailure a.cx f stream
  | Conn.handshaking (HandshakeFuture.midHandshake t), Op.handshake =>
      EndsInFailure a.cx (engine.handshake t.engine) t.wrapper
  | _, _ => False

omit [AsyncReadWrite S] in
/-- The wrapper in a finished handshake's result is cleared unless the result is a failure. -/
lemma cleared_handshakeResult {out : CallOut (HandshakeReply E) S} (hset : out.wrapper.context ≠ 0)
    (hready : out.result.isWouldBlock = false) {conn : Conn E S}
    (hconn : conn = match handshakeResult out with
      | Except.ok stream => Conn.live stream
      | Except.error error => Conn.failed error) :
    Cleared conn ↔ ¬ ∃ e, out.result = HandshakeReply.failure e := by
  subst hconn
  unfold handshakeResult
  cases hres : out.result with
  | ok engine => simp [Cleared, Conn.wrappers]
  | wouldBlock engine =>
      rw [hres] at hready
      exact absurd hready (by simp [HandshakeReply.isWouldBlock])
  | failure engine => simpa [Cleared, Conn.wrappers] using hset
  | setupFailure text => simp [Cleared, Conn.wrappers]

lemma cleared_handshake {s : Session E S} {cx : Context} {stream : AsyncToSyncWrapper S}
    (hidle : stream.context = 0) (call : HandshakeCall E) :
    Cleared (afterHandshake cx s (handshakeStep cx call stream)).conn ↔
      ¬ EndsInFailure cx call.call stream := by
  obtain ⟨out, hrun, hset, -⟩ := run_of_set cx call.call (stream.under cx) rfl
  obtain ⟨out', hrun', -, hcase⟩ := handshakeStep_of_idle cx hidle call
  obtain rfl := Except.ok.inj (hrun.symm.trans hrun')
  have hends : EndsInFailure cx call.call stream ↔ ∃ e, out.result = HandshakeReply.failure e := by
    constructor
    · rintro ⟨out₁, e, hrun₁, hres⟩
      obtain rfl := Except.ok.inj (hrun.symm.trans hrun₁)
      exact ⟨e, hres⟩
    · rintro ⟨e, hres⟩
      exact ⟨out, e, hrun, hres⟩
  rw [hends]
  rcases hcase with ⟨mid, hmid, hwant, hstep⟩ | ⟨hwant, hstep⟩
  · have hcleared : Cleared (afterHandshake cx s (handshakeStep cx call stream)).conn := by
      simpa [hstep, afterHandshake, Cleared, Conn.wrappers] using hmid
    refine iff_of_true hcleared ?_
    rintro ⟨e, hres⟩
    rw [hres] at hwant
    exact absurd hwant (by simp [HandshakeReply.isWouldBlock])
  · refine cleared_handshakeResult (by rw [hset]; exact cx.addr_ne_zero) hwant ?_
    rw [hstep]
    simp only [afterHandshake]
    cases handshakeResult out <;> rfl

lemma cleared_stream {A R : Type} {s : Session E S} {t : SslStream E S}
    (hidle : t.wrapper.context = 0) (cx : Context) (call : SslCall (E × A))
    (toResult : A → Except IoError R) :
    Cleared (afterStream cx s (tlsWithContext cx t call toResult)).conn := by
  obtain ⟨out, -, hpoll, -⟩ := tlsWithContext_of_idle cx hidle call toResult
  simp [hpoll, afterStream, Cleared, Conn.wrappers]

/-- One poll of a connection that is idle. -/
lemma cleared_step {s s' : Session E S} (hidle : Idle s.conn) {a : Action}
    (h : step engine s a = some s') :
    Cleared s'.conn ↔ ¬ HandshakeFails engine s.conn a := by
  rcases step_cases h with ⟨hop, ⟨f, stream, hconn, rfl⟩ | ⟨t, hconn, rfl⟩ | hconn⟩ |
    ⟨t, hconn, A, R, call, toResult, rfl⟩
  · rw [hconn] at hidle
    simp only [HandshakeFails, hconn, hop]
    exact cleared_handshake hidle (HandshakeCall.f f)
  · rw [hconn] at hidle
    simp only [HandshakeFails, hconn, hop]
    exact cleared_handshake hidle (HandshakeCall.handshake _)
  · rw [hconn] at hidle
    exact absurd hidle id
  · rw [hconn] at hidle
    simp only [HandshakeFails, hconn, not_false_eq_true, iff_true]
    exact cleared_stream hidle a.cx call toResult

/-- **Exactly when a poll leaves no context behind**, over every run and for every engine and inner
stream: unless it is a poll of the handshake that the engine ends with a failure. -/
theorem context_cleared_iff (engine : SslEngine E) (f : SslCall (HandshakeReply E)) (inner : S)
    (as : List Action) (s : Session E S)
    (hrun : run (step engine) (start f inner) as = some s) (a : Action) (s' : Session E S)
    (hstep : step engine s a = some s') :
    Cleared s'.conn ↔ ¬ HandshakeFails engine s.conn a :=
  cleared_step (sessionInv_run hrun).idle hstep

end Contexts

/-- A read after the handshake leaves nothing behind. -/
theorem context_cleared_iff_read :
    ∃ s s' : Session Unit Trickle,
      run (step relay) (start relayHandshake ⟨1⟩) [⟨firstPoll, Op.handshake⟩] = some s ∧
      step relay s ⟨secondPoll, Op.read 4⟩ = some s' ∧ Cleared s'.conn :=
  ⟨_, _, rfl, rfl, (context_cleared_iff relay relayHandshake (⟨1⟩ : Trickle)
    [⟨firstPoll, Op.handshake⟩] _ rfl ⟨secondPoll, Op.read 4⟩ _ rfl).mpr id⟩

/-- A handshake that reads what is no handshake message, and fails. -/
def garbledHandshake : SslCall (HandshakeReply Unit) :=
  SslCall.read 1 fun _ => SslCall.finish (HandshakeReply.failure ())

/-- The error of a failed handshake still holds the address of the context of the poll that
returned it. -/
theorem failed_handshake_keeps_context :
    ∃ (s : Session Unit Trickle) (mid : SslStream Unit Trickle),
      step relay (start garbledHandshake ⟨1⟩) ⟨firstPoll, Op.handshake⟩ = some s ∧
      s.conn = Conn.failed (HandshakeError.failure mid) ∧
      mid.wrapper.context = firstPoll.addr ∧
      ¬ Cleared s.conn := by
  refine ⟨_, _, rfl, rfl, rfl, ?_⟩
  intro hcleared
  have hzero := hcleared _ (List.mem_singleton.mpr rfl)
  exact firstPoll.addr_ne_zero hzero

end FutureAio.Openssl
