import FutureAio.Lib.Simulation
import FutureAio.Openssl.Connection

/-!
# The openssl adapter is transparent

What the adapter is for: the caller polls an async stream, the engine sees a blocking transport,
and neither should notice the machinery in between.  `Link` is a connection without that
machinery: the engine's state beside the inner stream, and every engine call executed on the
inner stream itself (`SslCall.direct`), with `Pending` read as `WouldBlock` on the way in and
`WouldBlock` as `Pending` on the way out.

* `poll` — a poll of a session with the answer its caller gets, over the wrapper, the stored
  context and its assertions.
* `Link.poll` — the same poll of a link.
* `connection_transparent` — no run of polls can tell the two apart.
* `any_task_may_poll` — nor can it tell which tasks do the polling, as long as the inner stream
  uses a context for nothing but waking.
-/

namespace FutureAio.Openssl

open Runs

/-- A call executed on the inner stream, without a wrapper. -/
def SslCall.direct {S ρ : Type} [AsyncReadWrite S] (cx : Context) : SslCall ρ → S → ρ × S
  | SslCall.finish result, s => (result, s)
  | SslCall.read len next, s =>
      (next (pollToResult (AsyncReadWrite.pollRead cx s len).2)).direct cx
        (AsyncReadWrite.pollRead cx s len).1
  | SslCall.write buf next, s =>
      (next (pollToResult (AsyncReadWrite.pollWrite cx s buf).2)).direct cx
        (AsyncReadWrite.pollWrite cx s buf).1
  | SslCall.flush next, s =>
      (next (pollToResult (AsyncReadWrite.pollFlush cx s).2)).direct cx
        (AsyncReadWrite.pollFlush cx s).1

inductive Link (E S : Type) where
  | starting (f : SslCall (HandshakeReply E)) (inner : S)
  | negotiating (engine : E) (inner : S)
  | established (engine : E) (inner : S)
  | failure (engine : E) (inner : S)
  | setupFailure (text : String)

/-- What the caller of a poll is told. -/
inductive Answer where
  | connecting
  | connected
  | failure
  | setupFailure (text : String)
  | read (answer : Poll (Except IoError (List UInt8)))
  | written (answer : Poll (Except IoError ℕ))
  | flushed (answer : Poll (Except IoError Unit))
  | closed (answer : Poll (Except IoError Unit))
  | panicked (fault : Fault)
  deriving DecidableEq

/-! ## The two machines -/

section Poll

variable {E S : Type}

def handshakeAnswer : Except Fault (HandshakePoll E S) → Answer
  | Except.error fault => Answer.panicked fault
  | Except.ok p =>
      match p.answer with
      | Poll.pending => Answer.connecting
      | Poll.ready (Except.ok _) => Answer.connected
      | Poll.ready (Except.error (HandshakeError.failure _)) => Answer.failure
      | Poll.ready (Except.error (HandshakeError.setupFailure text)) => Answer.setupFailure text

def streamAnswer {R : Type} (tell : Poll (Except IoError R) → Answer) :
    Except Fault (StreamPoll E S R) → Answer
  | Except.error fault => Answer.panicked fault
  | Except.ok p => tell p.answer

variable [AsyncReadWrite S]

/-- A handshake poll that came out as `polled`, with its answer. -/
def handshakeTold (cx : Context) (s : Session E S) (polled : Except Fault (HandshakePoll E S)) :
    Answer × Session E S := (handshakeAnswer polled, afterHandshake cx s polled)

def streamTold {R : Type} (tell : Poll (Except IoError R) → Answer) (cx : Context)
    (s : Session E S) (polled : Except Fault (StreamPoll E S R)) : Answer × Session E S :=
  (streamAnswer tell polled, afterStream cx s polled)

/-- `step`, with the answer of the poll. -/
def poll (engine : SslEngine E) (s : Session E S) (a : Action) : Option (Answer × Session E S) :=
  match s.conn, a.op with
  | Conn.handshaking future, Op.handshake =>
      some (handshakeTold a.cx s (future.poll engine a.cx))
  | Conn.live t, Op.read len =>
      some (streamTold Answer.read a.cx s (pollRead engine a.cx t len))
  | Conn.live t, Op.write buf =>
      some (streamTold Answer.written a.cx s (pollWrite engine a.cx t buf))
  | Conn.live t, Op.flush =>
      some (streamTold Answer.flushed a.cx s (pollFlush engine a.cx t))
  | Conn.live t, Op.close =>
      some (streamTold Answer.closed a.cx s (pollClose engine a.cx t))
  | _, _ => none

lemma step_eq_poll (engine : SslEngine E) (s : Session E S) (a : Action) :
    step engine s a = (poll engine s a).map Prod.snd := by
  obtain ⟨conn, log, invoked⟩ := s
  obtain ⟨cx, op⟩ := a
  cases conn <;> cases op <;> rfl

/-- How a handshake call of the engine leaves the link. -/
def Link.settle : HandshakeReply E × S → Answer × Link E S
  | (HandshakeReply.ok engine, inner) => (Answer.connected, Link.established engine inner)
  | (HandshakeReply.wouldBlock engine, inner) => (Answer.connecting, Link.negotiating engine inner)
  | (HandshakeReply.failure engine, inner) => (Answer.failure, Link.failure engine inner)
  | (HandshakeReply.setupFailure text, _) => (Answer.setupFailure text, Link.setupFailure text)

/-- How a call on an established link ends. -/
def Link.reply {A R : Type} (tell : Poll (Except IoError R) → Answer)
    (toResult : A → Except IoError R) (done : (E × A) × S) : Answer × Link E S :=
  (tell (resultToPoll (toResult done.1.2)), Link.established done.1.1 done.2)

def Link.poll (engine : SslEngine E) : Link E S → Action → Option (Answer × Link E S)
  | Link.starting f inner, ⟨cx, Op.handshake⟩ => some (Link.settle (f.direct cx inner))
  | Link.negotiating e inner, ⟨cx, Op.handshake⟩ =>
      some (Link.settle ((engine.handshake e).direct cx inner))
  | Link.established e inner, ⟨cx, Op.read len⟩ =>
      some (Link.reply Answer.read id ((engine.read e len).direct cx inner))
  | Link.established e inner, ⟨cx, Op.write buf⟩ =>
      some (Link.reply Answer.written id ((engine.write e buf).direct cx inner))
  | Link.established e inner, ⟨cx, Op.flush⟩ =>
      some (Link.reply Answer.flushed id ((engine.flush e).direct cx inner))
  | Link.established e inner, ⟨cx, Op.close⟩ =>
      some (Link.reply Answer.closed closeResult ((engine.shutdown e).direct cx inner))
  | _, _ => none

end Poll

/-- The link a connection stands for.  Between polls the wrapper's context is null, except for the
wrapper inside the error of a failed handshake. -/
inductive Represents {E S : Type} : Conn E S → Link E S → Prop where
  | starting (f : SslCall (HandshakeReply E)) (inner : S) :
      Represents (Conn.handshaking (HandshakeFuture.initial f ⟨inner, 0⟩)) (Link.starting f inner)
  | negotiating (e : E) (inner : S) :
      Represents (Conn.handshaking (HandshakeFuture.midHandshake ⟨e, ⟨inner, 0⟩⟩))
        (Link.negotiating e inner)
  | established (e : E) (inner : S) :
      Represents (Conn.live ⟨e, ⟨inner, 0⟩⟩) (Link.established e inner)
  | failure (e : E) (inner : S) (context : ℕ) :
      Represents (Conn.failed (HandshakeError.failure ⟨e, ⟨inner, context⟩⟩))
        (Link.failure e inner)
  | setupFailure (text : String) :
      Represents (Conn.failed (HandshakeError.setupFailure text)) (Link.setupFailure text)

/-! ## One poll -/

section Transparency

variable {E S : Type} [AsyncReadWrite S]

/-- The call, run under `cx` on a wrapper around `inner`, does what it does on `inner` itself. -/
def RunsDirectly {ρ : Type} (cx : Context) (call : SslCall ρ) (inner : S) : Prop :=
  ∃ polls, call.run cx ⟨inner, cx.addr⟩ =
    Except.ok ⟨(call.direct cx inner).1, ⟨(call.direct cx inner).2, cx.addr⟩, polls⟩

lemma operation_direct {α ρ : Type} {cx : Context} {inner : S}
    {next : Except IoError α → SslCall ρ} (inner_poll : Context → S → S × Poll (Except IoError α))
    (ih : ∀ answer inner', RunsDirectly cx (next answer) (inner' : S)) :
    ∃ polls, afterOperation (fun answer w => (next answer).run cx w)
        (throughContext cx ⟨inner, cx.addr⟩ inner_poll) =
      Except.ok
        ⟨((next (pollToResult (inner_poll cx inner).2)).direct cx (inner_poll cx inner).1).1,
        ⟨((next (pollToResult (inner_poll cx inner).2)).direct cx (inner_poll cx inner).1).2,
          cx.addr⟩, polls⟩ := by
  obtain ⟨polls, hrun⟩ := ih (pollToResult (inner_poll cx inner).2) (inner_poll cx inner).1
  have hset : (⟨inner, cx.addr⟩ : AsyncToSyncWrapper S).context = cx.addr := rfl
  refine ⟨⟨cx, (inner_poll cx inner).2.isPending⟩ :: polls, ?_⟩
  rw [throughContext_of_set hset]
  simp only [afterOperation, hrun]

/-- With its context set, the wrapper gives the engine exactly the inner stream. -/
lemma runsDirectly {ρ : Type} (cx : Context) (call : SslCall ρ) :
    ∀ inner : S, RunsDirectly cx call inner := by
  induction call with
  | finish result =>
      intro inner
      exact ⟨[], rfl⟩
  | read len next ih =>
      intro inner
      exact operation_direct (fun cx s => AsyncReadWrite.pollRead cx s len) ih
  | write buf next ih =>
      intro inner
      exact operation_direct (fun cx s => AsyncReadWrite.pollWrite cx s buf) ih
  | flush next ih =>
      intro inner
      exact operation_direct (fun cx s => AsyncReadWrite.pollFlush cx s) ih

lemma tlsWithContext_direct {A R : Type} (cx : Context) (e : E) (inner : S)
    (call : SslCall (E × A)) (toResult : A → Except IoError R) :
    ∃ polls, tlsWithContext cx ⟨e, ⟨inner, 0⟩⟩ call toResult =
      Except.ok ⟨resultToPoll (toResult (call.direct cx inner).1.2),
        ⟨(call.direct cx inner).1.1, ⟨(call.direct cx inner).2, 0⟩⟩, polls⟩ := by
  obtain ⟨polls, hrun⟩ := runsDirectly cx call inner
  refine ⟨polls, ?_⟩
  simp [tlsWithContext, AsyncToSyncWrapper.setContext, hrun, AsyncToSyncWrapper.unsetContext,
    cx.addr_ne_zero]

/-- A poll of a live stream and one of an established link. -/
lemma streamTold_agrees {A R : Type} (tell : Poll (Except IoError R) → Answer) (cx : Context)
    (s : Session E S) (e : E) (inner : S) (call : SslCall (E × A))
    (toResult : A → Except IoError R) :
    Agrees (fun (s : Session E S) l => Represents s.conn l)
      (streamTold tell cx s (tlsWithContext cx ⟨e, ⟨inner, 0⟩⟩ call toResult))
      (Link.reply tell toResult (call.direct cx inner)) := by
  obtain ⟨polls, hpoll⟩ := tlsWithContext_direct cx e inner call toResult
  rw [hpoll]
  exact ⟨rfl, Represents.established _ _⟩

/-- A poll of a handshake, in either of its states, and one of the link. -/
lemma handshakeTold_agrees (cx : Context) (s : Session E S) (inner : S)
    (call : HandshakeCall E) :
    Agrees (fun (s : Session E S) l => Represents s.conn l)
      (handshakeTold cx s (handshakeStep cx call ⟨inner, 0⟩))
      (Link.settle (call.call.direct cx inner)) := by
  obtain ⟨polls, hrun⟩ := runsDirectly cx call.call inner
  have hstep : handshakeStep cx call ⟨inner, 0⟩ = settleHandshake call.invoked
      ⟨(call.call.direct cx inner).1, ⟨(call.call.direct cx inner).2, cx.addr⟩, polls⟩ := by
    simp [handshakeStep, AsyncToSyncWrapper.setContext, HandshakeCall.run_eq hrun]
  have hunset : ∀ inner' : S, (⟨inner', cx.addr⟩ : AsyncToSyncWrapper S).unsetContext =
      Except.ok ⟨inner', 0⟩ := fun inner' => unsetContext_of_set rfl
  rw [hstep]
  obtain ⟨reply, inner'⟩ := call.call.direct cx inner
  cases reply with
  | ok engine =>
      simp only [settleHandshake, hunset]
      exact ⟨rfl, Represents.established _ _⟩
  | wouldBlock engine =>
      simp only [settleHandshake, hunset]
      exact ⟨rfl, Represents.negotiating _ _⟩
  | failure engine => exact ⟨rfl, Represents.failure _ _ _⟩
  | setupFailure text => exact ⟨rfl, Represents.setupFailure _⟩

lemma session_simulates_link (engine : SslEngine E) :
    Simulates (fun (s : Session E S) l => Represents s.conn l) Eq (poll engine)
      (Link.poll engine) := by
  rintro ⟨conn, log, invoked⟩ l ⟨cx, op⟩ a hrep rfl
  cases hrep with
  | starting f inner =>
      cases op with
      | handshake => exact Option.Rel.some (handshakeTold_agrees cx _ inner (HandshakeCall.f f))
      | read len => exact Option.Rel.none
      | write buf => exact Option.Rel.none
      | flush => exact Option.Rel.none
      | close => exact Option.Rel.none
  | negotiating e inner =>
      cases op with
      | handshake =>
          exact Option.Rel.some
            (handshakeTold_agrees cx _ inner (HandshakeCall.handshake (engine.handshake e)))
      | read len => exact Option.Rel.none
      | write buf => exact Option.Rel.none
      | flush => exact Option.Rel.none
      | close => exact Option.Rel.none
  | established e inner =>
      cases op with
      | handshake => exact Option.Rel.none
      | read len =>
          exact Option.Rel.some (streamTold_agrees _ cx _ e inner (engine.read e len) id)
      | write buf =>
          exact Option.Rel.some (streamTold_agrees _ cx _ e inner (engine.write e buf) id)
      | flush => exact Option.Rel.some (streamTold_agrees _ cx _ e inner (engine.flush e) id)
      | close =>
          exact Option.Rel.some
            (streamTold_agrees _ cx _ e inner (engine.shutdown e) closeResult)
  | failure e inner context => cases op <;> exact Option.Rel.none
  | setupFailure text => cases op <;> exact Option.Rel.none

/-- **The adapter is transparent**: over any engine, any inner stream and any sequence of polls,
the callers are told exactly what they would be told if the engine ran on the inner stream itself,
and engine and inner stream end in the same states. -/
theorem connection_transparent (engine : SslEngine E) (f : SslCall (HandshakeReply E)) (inner : S)
    (as : List Action) :
    (play (poll engine) (start f inner) as).map Prod.fst =
        (play (Link.poll engine) (Link.starting f inner) as).map Prod.fst ∧
      Option.Rel (fun (s : Session E S) l => Represents s.conn l)
        (run (step engine) (start f inner) as)
        ((play (Link.poll engine) (Link.starting f inner) as).map Prod.snd) := by
  have hlabels : List.Forall₂ Eq as as := List.forall₂_same.mpr fun _ _ => rfl
  refine ⟨(session_simulates_link engine).answers hlabels (Represents.starting f inner), ?_⟩
  rw [run_eq_play (step_eq_poll engine)]
  refine rel_map ((session_simulates_link engine).play hlabels (Represents.starting f inner)) ?_
  rintro p q ⟨-, hrep⟩
  exact hrep

end Transparency

/-! ## Any task may poll

A context matters to the inner stream only for the waker it leaves behind.  `R` relates inner
streams that differ in nothing but the wakers they hold.
-/

structure WakesOnly {S : Type} [AsyncReadWrite S] (R : S → S → Prop) : Prop where
  read : ∀ cx cx' s s' len, R s s' →
    (AsyncReadWrite.pollRead cx s len).2 = (AsyncReadWrite.pollRead cx' s' len).2 ∧
      R (AsyncReadWrite.pollRead cx s len).1 (AsyncReadWrite.pollRead cx' s' len).1
  write : ∀ cx cx' s s' buf, R s s' →
    (AsyncReadWrite.pollWrite cx s buf).2 = (AsyncReadWrite.pollWrite cx' s' buf).2 ∧
      R (AsyncReadWrite.pollWrite cx s buf).1 (AsyncReadWrite.pollWrite cx' s' buf).1
  flush : ∀ cx cx' s s', R s s' →
    (AsyncReadWrite.pollFlush cx s).2 = (AsyncReadWrite.pollFlush cx' s').2 ∧
      R (AsyncReadWrite.pollFlush cx s).1 (AsyncReadWrite.pollFlush cx' s').1

/-- Links that differ in nothing but the wakers their inner streams hold. -/
inductive SameLink {E S : Type} (R : S → S → Prop) : Link E S → Link E S → Prop where
  | starting (f : SslCall (HandshakeReply E)) {s s' : S} (h : R s s') :
      SameLink R (Link.starting f s) (Link.starting f s')
  | negotiating (e : E) {s s' : S} (h : R s s') :
      SameLink R (Link.negotiating e s) (Link.negotiating e s')
  | established (e : E) {s s' : S} (h : R s s') :
      SameLink R (Link.established e s) (Link.established e s')
  | failure (e : E) {s s' : S} (h : R s s') : SameLink R (Link.failure e s) (Link.failure e s')
  | setupFailure (text : String) : SameLink R (Link.setupFailure text) (Link.setupFailure text)

section Tasks

variable {E S : Type} [AsyncReadWrite S] {R : S → S → Prop}

lemma direct_agrees {ρ : Type} (hwake : WakesOnly R) (cx cx' : Context) (call : SslCall ρ) :
    ∀ s s' : S, R s s' → Agrees R (call.direct cx s) (call.direct cx' s') := by
  induction call with
  | finish result =>
      intro s s' h
      exact ⟨rfl, h⟩
  | read len next ih =>
      intro s s' h
      obtain ⟨hanswer, hnext⟩ := hwake.read cx cx' s s' len h
      simp only [SslCall.direct, hanswer]
      exact ih _ _ _ hnext
  | write buf next ih =>
      intro s s' h
      obtain ⟨hanswer, hnext⟩ := hwake.write cx cx' s s' buf h
      simp only [SslCall.direct, hanswer]
      exact ih _ _ _ hnext
  | flush next ih =>
      intro s s' h
      obtain ⟨hanswer, hnext⟩ := hwake.flush cx cx' s s' h
      simp only [SslCall.direct, hanswer]
      exact ih _ _ _ hnext

omit [AsyncReadWrite S] in
lemma settle_agrees {p q : HandshakeReply E × S} (h : Agrees R p q) :
    Agrees (SameLink R) (Link.settle p) (Link.settle q) := by
  obtain ⟨reply, s⟩ := p
  obtain ⟨reply', s'⟩ := q
  obtain ⟨rfl, hs⟩ := h
  cases reply with
  | ok e => exact ⟨rfl, SameLink.established e hs⟩
  | wouldBlock e => exact ⟨rfl, SameLink.negotiating e hs⟩
  | failure e => exact ⟨rfl, SameLink.failure e hs⟩
  | setupFailure text => exact ⟨rfl, SameLink.setupFailure text⟩

omit [AsyncReadWrite S] in
lemma reply_agrees {A T : Type} (tell : Poll (Except IoError T) → Answer)
    (toResult : A → Except IoError T) {p q : (E × A) × S} (h : Agrees R p q) :
    Agrees (SameLink R) (Link.reply tell toResult p) (Link.reply tell toResult q) := by
  obtain ⟨done, s⟩ := p
  obtain ⟨done', s'⟩ := q
  obtain ⟨rfl, hs⟩ := h
  exact ⟨rfl, SameLink.established _ hs⟩

lemma link_simulates_itself (hwake : WakesOnly R) (engine : SslEngine E) :
    Simulates (SameLink R) (fun a b : Action => a.op = b.op) (Link.poll engine)
      (Link.poll engine) := by
  rintro l l' ⟨cx, op⟩ ⟨cx', op'⟩ hsame rfl
  cases hsame with
  | starting f h =>
      cases op with
      | handshake => exact Option.Rel.some (settle_agrees (direct_agrees hwake cx cx' f _ _ h))
      | read len => exact Option.Rel.none
      | write buf => exact Option.Rel.none
      | flush => exact Option.Rel.none
      | close => exact Option.Rel.none
  | negotiating e h =>
      cases op with
      | handshake => exact Option.Rel.some (settle_agrees (direct_agrees hwake cx cx' _ _ _ h))
      | read len => exact Option.Rel.none
      | write buf => exact Option.Rel.none
      | flush => exact Option.Rel.none
      | close => exact Option.Rel.none
  | established e h =>
      cases op with
      | handshake => exact Option.Rel.none
      | read len => exact Option.Rel.some (reply_agrees _ _ (direct_agrees hwake cx cx' _ _ _ h))
      | write buf => exact Option.Rel.some (reply_agrees _ _ (direct_agrees hwake cx cx' _ _ _ h))
      | flush => exact Option.Rel.some (reply_agrees _ _ (direct_agrees hwake cx cx' _ _ _ h))
      | close => exact Option.Rel.some (reply_agrees _ _ (direct_agrees hwake cx cx' _ _ _ h))
  | failure e h => cases op <;> exact Option.Rel.none
  | setupFailure text => cases op <;> exact Option.Rel.none

/-- **Any task may poll**: two runs that make the same polls, under whatever contexts, are told
the same, if the inner streams use a context for nothing but waking. -/
theorem any_task_may_poll (engine : SslEngine E) (f : SslCall (HandshakeReply E))
    (hwake : WakesOnly R) {inner inner' : S} (hinner : R inner inner') (as bs : List Action)
    (hops : as.map Action.op = bs.map Action.op) :
    (play (poll engine) (start f inner) as).map Prod.fst =
      (play (poll engine) (start f inner') bs).map Prod.fst := by
  have hlabels : List.Forall₂ (fun a b : Action => a.op = b.op) as bs := by
    rw [← List.forall₂_eq_eq_eq, List.forall₂_map_left_iff, List.forall₂_map_right_iff] at hops
    exact hops
  have hdirect : ∀ (s : S) (cs : List Action),
      (play (poll engine) (start f s) cs).map Prod.fst =
        (play (Link.poll engine) (Link.starting f s) cs).map Prod.fst := fun s cs =>
    (session_simulates_link engine).answers (List.forall₂_same.mpr fun _ _ => rfl)
      (Represents.starting f s)
  rw [hdirect, hdirect]
  exact (link_simulates_itself hwake engine).answers hlabels (SameLink.starting f hinner)

end Tasks

/-- A transport that keeps the waker of the last poll it blocked. -/
structure Parked where
  credit : ℕ
  waker : Option ℕ

def Parked.serve {α : Type} (cx : Context) (s : Parked) (a : α) :
    Parked × Poll (Except IoError α) :=
  match s.credit with
  | 0 => ({ s with waker := some cx.waker }, Poll.pending)
  | n + 1 => ({ s with credit := n }, Poll.ready (Except.ok a))

instance : AsyncReadWrite Parked where
  pollRead cx s len := s.serve cx (List.replicate (min len 1) 0)
  pollWrite cx s buf := s.serve cx buf.length
  pollFlush cx s := s.serve cx ()

lemma Parked.serve_agrees {α : Type} (cx cx' : Context) (s s' : Parked) (a : α)
    (h : s.credit = s'.credit) :
    (s.serve cx a).2 = (s'.serve cx' a).2 ∧
      (s.serve cx a).1.credit = (s'.serve cx' a).1.credit := by
  obtain ⟨credit, waker⟩ := s
  obtain ⟨credit', waker'⟩ := s'
  obtain rfl : credit = credit' := h
  cases credit <;> simp [Parked.serve]

lemma Parked.wakesOnly : WakesOnly fun s s' : Parked => s.credit = s'.credit :=
  ⟨fun cx cx' s s' _ h => s.serve_agrees cx cx' s' _ h,
    fun cx cx' s s' _ h => s.serve_agrees cx cx' s' _ h,
    fun cx cx' s s' h => s.serve_agrees cx cx' s' _ h⟩

/-- A connection polled by one task throughout, and one that moves to a second task before its
read is blocked. -/
theorem any_task_may_poll_moved :
    (play (poll relay) (start relayHandshake (⟨1, none⟩ : Parked))
        [⟨firstPoll, Op.handshake⟩, ⟨firstPoll, Op.read 4⟩]).map Prod.fst =
      (play (poll relay) (start relayHandshake (⟨1, none⟩ : Parked))
        [⟨firstPoll, Op.handshake⟩, ⟨secondPoll, Op.read 4⟩]).map Prod.fst :=
  any_task_may_poll relay relayHandshake Parked.wakesOnly rfl _ _ rfl

end FutureAio.Openssl
