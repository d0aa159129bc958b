import FutureAio.Openssl.Wrapper

/-!
# `TlsStream` and `HandshakeFuture`

Five entry points poll an SSL engine through the wrapper of `Openssl.Wrapper`: the four polls of
a `TlsStream` and the poll of a `HandshakeFuture`.  All of them set the context, run one engine
call, clear the context and translate the engine's result.

* `tlsWithContext`, `pollRead`, `pollWrite`, `pollFlush`, `pollClose` — the established stream.
  The first three pass the engine's `io::Error` on, so that `result_to_poll` can see a
  `WouldBlock`; `poll_close` gets an `ssl::Error` and wraps it with `io::Error::other`.
* `HandshakeFuture.poll` — the wrapper moves into the engine and comes back in one of four
  shapes, two of which end the future with an error.

The engine itself (`SslEngine`) is the openssl crate, and a parameter.
-/

namespace FutureAio.Openssl

/-- `openssl::ssl::ErrorCode`, with the codes the crate and its documentation single out. -/
inductive ErrorCode where
  | ZERO_RETURN
  | WANT_READ
  | WANT_WRITE
  | other (code : ℕ)
  deriving DecidableEq, Repr

/-- `openssl::ssl::Error`. -/
structure SslError where
  code : ErrorCode
  text : String
  deriving DecidableEq, Repr

inductive ShutdownResult where
  | Sent
  | Received
  deriving DecidableEq, Repr

/-- `io::Error::other(e)`: the kind is `Other`, whatever `e` was. -/
def IoError.other (e : SslError) : IoError := ⟨ErrorKind.Other, e.text⟩

/-- `openssl::ssl::SslStream`, and likewise `MidHandshakeSslStream`: the engine's own state and
the wrapper it owns. -/
structure SslStream (E S : Type) where
  engine : E
  wrapper : AsyncToSyncWrapper S

/-- How a handshake step ends: `Ok`, or one of the three cases of `HandshakeError`. -/
inductive HandshakeReply (E : Type) where
  | ok (engine : E)
  | wouldBlock (engine : E)
  | failure (engine : E)
  | setupFailure (text : String)

/-- The engine: what each entry of the openssl crate does with the transport, from any state. -/
structure SslEngine (E : Type) where
  read : E → ℕ → SslCall (E × Except IoError (List UInt8))
  write : E → List UInt8 → SslCall (E × Except IoError ℕ)
  flush : E → SslCall (E × Except IoError Unit)
  shutdown : E → SslCall (E × Except SslError ShutdownResult)
  handshake : E → SslCall (HandshakeReply E)

/-! ## The established stream -/

/-- `result_to_poll`. -/
def resultToPoll {R : Type} : Except IoError R → Poll (Except IoError R)
  | Except.ok v => Poll.ready (Except.ok v)
  | Except.error e =>
      if e.kind = ErrorKind.WouldBlock then Poll.pending else Poll.ready (Except.error e)

/-- What one poll of a stream returns and leaves behind. -/
structure StreamPoll (E S R : Type) where
  answer : Poll (Except IoError R)
  stream : SslStream E S
  polls : List InnerPoll

section TlsStream

variable {E S : Type} [AsyncReadWrite S]

/-- `TlsStream::with_context`; the closure is an engine call and a translation of its result. -/
def tlsWithContext {A R : Type} (cx : Context) (t : SslStream E S) (call : SslCall (E × A))
    (toResult : A → Except IoError R) : Except Fault (StreamPoll E S R) :=
  match t.wrapper.setContext cx with
  | Except.error fault => Except.error fault
  | Except.ok w =>
      match call.run cx w with
      | Except.error fault => Except.error fault
      | Except.ok out =>
          match out.wrapper.unsetContext with
          | Except.error fault => Except.error fault
          | Except.ok w' =>
              Except.ok
                ⟨resultToPoll (toResult out.result.2), ⟨out.result.1, w'⟩, out.polls⟩

/-- `TlsStream::poll_read`. -/
def pollRead (engine : SslEngine E) (cx : Context) (t : SslStream E S) (len : ℕ) :
    Except Fault (StreamPoll E S (List UInt8)) :=
  tlsWithContext cx t (engine.read t.engine len) id

/-- `TlsStream::poll_write`. -/
def pollWrite (engine : SslEngine E) (cx : Context) (t : SslStream E S) (buf : List UInt8) :
    Except Fault (StreamPoll E S ℕ) :=
  tlsWithContext cx t (engine.write t.engine buf) id

/-- `TlsStream::poll_flush`. -/
def pollFlush (engine : SslEngine E) (cx : Context) (t : SslStream E S) :
    Except Fault (StreamPoll E S Unit) :=
  tlsWithContext cx t (engine.flush t.engine) id

/-- The closure of `poll_close`: the peer's close notice counts as closed. -/
def closeResult : Except SslError ShutdownResult → Except IoError Unit
  | Except.ok _ => Except.ok ()
  | Except.error e =>
      if e.code = ErrorCode.ZERO_RETURN then Except.ok () else Except.error (IoError.other e)

/-- `TlsStream::poll_close`. -/
def pollClose (engine : SslEngine E) (cx : Context) (t : SslStream E S) :
    Except Fault (StreamPoll E S Unit) :=
  tlsWithContext cx t (engine.shutdown t.engine) closeResult

/-- The wrapper of an idle stream, as the engine sees it during a poll with `cx`. -/
def AsyncToSyncWrapper.under {S : Type} (w : AsyncToSyncWrapper S) (cx : Context) :
    AsyncToSyncWrapper S := { w with context := cx.addr }

/-- A poll of an idle stream runs its call under the poll's context and leaves it idle. -/
lemma tlsWithContext_of_idle {A R : Type} (cx : Context) {t : SslStream E S}
    (hidle : t.wrapper.context = 0) (call : SslCall (E × A)) (toResult : A → Except IoError R) :
    ∃ out, call.run cx (t.wrapper.under cx) = Except.ok out ∧
      tlsWithContext cx t call toResult = Except.ok
        ⟨resultToPoll (toResult out.result.2),
          ⟨out.result.1, { out.wrapper with context := 0 }⟩, out.polls⟩ ∧
      ∀ p ∈ out.polls, p.context = cx := by
  obtain ⟨out, hrun, hset, hpolls⟩ := run_of_set cx call (t.wrapper.under cx) rfl
  refine ⟨out, hrun, ?_, hpolls⟩
  rw [AsyncToSyncWrapper.under] at hrun
  simp only [tlsWithContext, setContext_of_zero hidle, hrun, unsetContext_of_set hset]

end TlsStream

/-! ## The handshake -/

/-- The `HandshakeError`s that end the future; a failure carries the mid-handshake stream. -/
inductive HandshakeError (E S : Type) where
  | failure (mid : SslStream E S)
  | setupFailure (text : String)

/-- `HandshakeFuture`.  `f` is the engine call that starts the handshake. -/
inductive HandshakeFuture (E S : Type) where
  | initial (f : SslCall (HandshakeReply E)) (stream : AsyncToSyncWrapper S)
  | midHandshake (stream : SslStream E S)
  | done

/-- What a poll of the future runs: `f`, or the engine's own next step. -/
inductive HandshakeCall (E : Type) where
  | f (call : SslCall (HandshakeReply E))
  | handshake (call : SslCall (HandshakeReply E))

def HandshakeCall.call {E : Type} : HandshakeCall E → SslCall (HandshakeReply E)
  | HandshakeCall.f call => call
  | HandshakeCall.handshake call => call

/-- How often `f` has been run when the call has. -/
def HandshakeCall.invoked {E : Type} : HandshakeCall E → ℕ
  | HandshakeCall.f _ => 1
  | HandshakeCall.handshake _ => 0

/-- What one poll of the future returns and leaves behind; `invoked` counts the calls of `f`. -/
structure HandshakePoll (E S : Type) where
  answer : Poll (Except (HandshakeError E S) (SslStream E S))
  future : HandshakeFuture E S
  polls : List InnerPoll
  invoked : ℕ

section Handshake

variable {E S : Type} [AsyncReadWrite S]

/-- The `match` on the engine's result, the same in both states of the future.  Only success and
`WouldBlock` clear the context. -/
def settleHandshake (invoked : ℕ) (out : CallOut (HandshakeReply E) S) :
    Except Fault (HandshakePoll E S) :=
  match out.result with
  | HandshakeReply.ok engine =>
      match out.wrapper.unsetContext with
      | Except.error fault => Except.error fault
      | Except.ok w =>
          Except.ok ⟨Poll.ready (Except.ok ⟨engine, w⟩), HandshakeFuture.done, out.polls, invoked⟩
  | HandshakeReply.wouldBlock engine =>
      match out.wrapper.unsetContext with
      | Except.error fault => Except.error fault
      | Except.ok w =>
          Except.ok ⟨Poll.pending, HandshakeFuture.midHandshake ⟨engine, w⟩, out.polls, invoked⟩
  | HandshakeReply.failure engine =>
      Except.ok ⟨Poll.ready (Except.error (HandshakeError.failure ⟨engine, out.wrapper⟩)),
        HandshakeFuture.done, out.polls, invoked⟩
  | HandshakeReply.setupFailure text =>
      Except.ok ⟨Poll.ready (Except.error (HandshakeError.setupFailure text)),
        HandshakeFuture.done, out.polls, invoked⟩

/-- The call is run, and if it is `f` it is counted. -/
def HandshakeCall.run (cx : Context) : HandshakeCall E → AsyncToSyncWrapper S →
    Except Fault (CallOut (HandshakeReply E) S × ℕ)
  | HandshakeCall.f call, w => (call.run cx w).map fun out => (out, 1)
  | HandshakeCall.handshake call, w => (call.run cx w).map fun out => (out, 0)

def handshakeStep (cx : Context) (call : HandshakeCall E) (stream : AsyncToSyncWrapper S) :
    Except Fault (HandshakePoll E S) :=
  match stream.setContext cx with
  | Except.error fault => Except.error fault
  | Except.ok w =>
      match call.run cx w with
      | Except.error fault => Except.error fault
      | Except.ok (out, invoked) => settleHandshake invoked out

/-- `HandshakeFuture::poll`. -/
def HandshakeFuture.poll (engine : SslEngine E) (cx : Context) :
    HandshakeFuture E S → Except Fault (HandshakePoll E S)
  | HandshakeFuture.initial f stream => handshakeStep cx (HandshakeCall.f f) stream
  | HandshakeFuture.midHandshake stream =>
      handshakeStep cx (HandshakeCall.handshake (engine.handshake stream.engine)) stream.wrapper
  | HandshakeFuture.done => Except.error Fault.polledAfterReady

/-- What the future returns when it is not blocked; success has its context cleared. -/
def handshakeResult (out : CallOut (HandshakeReply E) S) :
    Except (HandshakeError E S) (SslStream E S) :=
  match out.result with
  | HandshakeReply.ok engine => Except.ok ⟨engine, { out.wrapper with context := 0 }⟩
  | HandshakeReply.wouldBlock engine => Except.error (HandshakeError.failure ⟨engine, out.wrapper⟩)
  | HandshakeReply.failure engine => Except.error (HandshakeError.failure ⟨engine, out.wrapper⟩)
  | HandshakeReply.setupFailure text => Except.error (HandshakeError.setupFailure text)

omit [AsyncReadWrite S] in
/-- A finished handshake gives an idle stream or an error. -/
lemma handshakeResult_cases (out : CallOut (HandshakeReply E) S) :
    (∃ stream : SslStream E S, handshakeResult out = Except.ok stream ∧
        stream.wrapper.context = 0) ∨
      ∃ error, handshakeResult out = Except.error error := by
  unfold handshakeResult
  cases out.result with
  | ok engine => exact Or.inl ⟨_, rfl, rfl⟩
  | wouldBlock engine => exact Or.inr ⟨_, rfl⟩
  | failure engine => exact Or.inr ⟨_, rfl⟩
  | setupFailure text => exact Or.inr ⟨_, rfl⟩

/-- The want result of a handshake step. -/
def HandshakeReply.isWouldBlock {E : Type} : HandshakeReply E → Bool
  | HandshakeReply.wouldBlock _ => true
  | _ => false

lemma HandshakeCall.run_eq {cx : Context} {call : HandshakeCall E} {w : AsyncToSyncWrapper S}
    {out : CallOut (HandshakeReply E) S} (h : call.call.run cx w = Except.ok out) :
    call.run cx w = Except.ok (out, call.invoked) := by
  cases call with
  | f call => exact congrArg (Except.map _) h
  | handshake call => exact congrArg (Except.map _) h

/-- A handshake step on an idle wrapper: it would block and keeps an idle future, or it is ready
with the engine's result. -/
lemma handshakeStep_of_idle (cx : Context) {stream : AsyncToSyncWrapper S}
    (hidle : stream.context = 0) (call : HandshakeCall E) :
    ∃ out, call.call.run cx (stream.under cx) = Except.ok out ∧
      (∀ p ∈ out.polls, p.context = cx) ∧
      ((∃ mid : SslStream E S, mid.wrapper.context = 0 ∧ out.result.isWouldBlock = true ∧
          handshakeStep cx call stream = Except.ok
            ⟨Poll.pending, HandshakeFuture.midHandshake mid, out.polls, call.invoked⟩) ∨
        (out.result.isWouldBlock = false ∧
          handshakeStep cx call stream = Except.ok
            ⟨Poll.ready (handshakeResult out), HandshakeFuture.done, out.polls,
              call.invoked⟩)) := by
  obtain ⟨out, hrun, hset, hpolls⟩ := run_of_set cx call.call (stream.under cx) rfl
  refine ⟨out, hrun, hpolls, ?_⟩
  have hstep : handshakeStep cx call stream = settleHandshake call.invoked out := by
    have hcall := HandshakeCall.run_eq hrun
    rw [AsyncToSyncWrapper.under] at hcall
    simp only [handshakeStep, setContext_of_zero hidle, hcall]
  have hunset := unsetContext_of_set hset
  rw [hstep]
  cases hres : out.result with
  | ok engine =>
      refine Or.inr ⟨rfl, ?_⟩
      simp only [settleHandshake, handshakeResult, hres, hunset]
  | wouldBlock engine =>
      refine Or.inl ⟨⟨engine, { out.wrapper with context := 0 }⟩, rfl, rfl, ?_⟩
      simp only [settleHandshake, hres, hunset]
  | failure engine =>
      refine Or.inr ⟨rfl, ?_⟩
      simp only [settleHandshake, handshakeResult, hres]
  | setupFailure text =>
      refine Or.inr ⟨rfl, ?_⟩
      simp only [settleHandshake, handshakeResult, hres]

end Handshake

end FutureAio.Openssl
