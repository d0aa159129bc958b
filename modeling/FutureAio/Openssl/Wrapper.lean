import FutureAio.Basic

/-!
# `AsyncToSyncWrapper`: an async stream under a synchronous engine

The openssl crate drives a transport through blocking `Read` and `Write`.  The adapter gives it
one by keeping, for the length of one poll, the address of that poll's `Context` in the wrapper;
a read or write of the engine dereferences the address and polls the inner stream with what it
finds there.

* `Context` — a task context, at its (non-null) address on the stack of the poll that owns it.
  Only that poll's context is alive, so a dereference either finds it or is `Fault.dangling`.
* `SslCall` — one call into the engine: any finite sequence of reads, writes and flushes, each
  depending on the answers so far, ended by a result.  Engines are parameters throughout.
* `SslCall.run` — the call executed against a wrapper, with a record of the inner polls.

`run_of_set` is the fact everything rests on: with the context of the poll in progress set, no
assertion can fire, every inner poll gets that context, and it is still set at the end.
-/

namespace FutureAio.Openssl

/-- A task context: where it lives, and which poll's it is. -/
structure Context where
  addr : ℕ
  waker : ℕ
  addr_ne_zero : addr ≠ 0

/-- The ways the adapter can panic or go wrong, by the assertion that notices. -/
inductive Fault where
  | setContext
  | unsetContext
  | withContext
  | dangling
  | polledAfterReady
  deriving DecidableEq, Repr

/-- `AsyncRead + AsyncWrite`, as far as the wrapper uses them.  A read answers with the bytes it
put into the buffer. -/
class AsyncReadWrite (S : Type) where
  pollRead : Context → S → ℕ → S × Poll (Except IoError (List UInt8))
  pollWrite : Context → S → List UInt8 → S × Poll (Except IoError ℕ)
  pollFlush : Context → S → S × Poll (Except IoError Unit)

/-- What is recorded of an inner poll: the context it was given, and whether it said pending. -/
structure InnerPoll where
  context : Context
  pending : Bool

structure AsyncToSyncWrapper (S : Type) where
  inner : S
  context : ℕ

namespace AsyncToSyncWrapper

variable {S : Type}

/-- `AsyncToSyncWrapper::new`. -/
def new (inner : S) : AsyncToSyncWrapper S := ⟨inner, 0⟩

/-- `AsyncToSyncWrapper::set_context`. -/
def setContext (w : AsyncToSyncWrapper S) (cx : Context) : Except Fault (AsyncToSyncWrapper S) :=
  if w.context = 0 then Except.ok { w with context := cx.addr } else Except.error Fault.setContext

/-- `AsyncToSyncWrapper::unset_context`. -/
def unsetContext (w : AsyncToSyncWrapper S) : Except Fault (AsyncToSyncWrapper S) :=
  if w.context ≠ 0 then Except.ok { w with context := 0 } else Except.error Fault.unsetContext

/-- `AsyncToSyncWrapper::with_context`; `live` is the context of the poll in progress. -/
def withContext {R : Type} (live : Context) (w : AsyncToSyncWrapper S)
    (f : Context → S → S × R) : Except Fault (R × AsyncToSyncWrapper S) :=
  if w.context = 0 then Except.error Fault.withContext
  else if w.context = live.addr then
    Except.ok ((f live w.inner).2, { w with inner := (f live w.inner).1 })
  else Except.error Fault.dangling

end AsyncToSyncWrapper

/-- `io::Error::from(io::ErrorKind::WouldBlock)`. -/
def wouldBlock : IoError := ⟨ErrorKind.WouldBlock, "operation would block"⟩

/-- The answer of an inner poll, as the synchronous traits report it. -/
def pollToResult {α : Type} : Poll (Except IoError α) → Except IoError α
  | Poll.ready r => r
  | Poll.pending => Except.error wouldBlock

/-- One synchronous operation of the wrapper: the inner poll, its answer translated. -/
def throughContext {S α : Type} (live : Context) (w : AsyncToSyncWrapper S)
    (poll : Context → S → S × Poll (Except IoError α)) :
    Except Fault (Except IoError α × AsyncToSyncWrapper S × InnerPoll) :=
  match w.withContext live (fun cx s => ((poll cx s).1, (cx, (poll cx s).2))) with
  | Except.error fault => Except.error fault
  | Except.ok ((cx, answer), w') =>
      Except.ok (pollToResult answer, w', ⟨cx, answer.isPending⟩)

section Operations

variable {S : Type} [AsyncReadWrite S]

/-- `Read::read` for `AsyncToSyncWrapper`. -/
def AsyncToSyncWrapper.read (live : Context) (w : AsyncToSyncWrapper S) (len : ℕ) :=
  throughContext live w fun cx s => AsyncReadWrite.pollRead cx s len

/-- `Write::write` for `AsyncToSyncWrapper`. -/
def AsyncToSyncWrapper.write (live : Context) (w : AsyncToSyncWrapper S) (buf : List UInt8) :=
  throughContext live w fun cx s => AsyncReadWrite.pollWrite cx s buf

/-- `Write::flush` for `AsyncToSyncWrapper`. -/
def AsyncToSyncWrapper.flush (live : Context) (w : AsyncToSyncWrapper S) :=
  throughContext live w fun cx s => AsyncReadWrite.pollFlush cx s

end Operations

/-! ## A call into the engine -/

inductive SslCall (ρ : Type) where
  | finish (result : ρ)
  | read (len : ℕ) (next : Except IoError (List UInt8) → SslCall ρ)
  | write (buf : List UInt8) (next : Except IoError ℕ → SslCall ρ)
  | flush (next : Except IoError Unit → SslCall ρ)

structure CallOut (ρ S : Type) where
  result : ρ
  wrapper : AsyncToSyncWrapper S
  polls : List InnerPoll

/-- Some inner poll of the call said pending. -/
def CallOut.blocked {ρ S : Type} (out : CallOut ρ S) : Bool := out.polls.any (·.pending)

/-- Continue a call after an operation, putting its inner poll in front of the record. -/
def afterOperation {S ρ α : Type} (next : Except IoError α → AsyncToSyncWrapper S →
    Except Fault (CallOut ρ S)) :
    Except Fault (Except IoError α × AsyncToSyncWrapper S × InnerPoll) →
      Except Fault (CallOut ρ S)
  | Except.error fault => Except.error fault
  | Except.ok (answer, w, p) =>
      match next answer w with
      | Except.error fault => Except.error fault
      | Except.ok out => Except.ok { out with polls := p :: out.polls }

def SslCall.run {S ρ : Type} [AsyncReadWrite S] (live : Context) :
    SslCall ρ → AsyncToSyncWrapper S → Except Fault (CallOut ρ S)
  | SslCall.finish result, w => Except.ok ⟨result, w, []⟩
  | SslCall.read len next, w =>
      afterOperation (fun answer w' => (next answer).run live w') (w.read live len)
  | SslCall.write buf next, w =>
      afterOperation (fun answer w' => (next answer).run live w') (w.write live buf)
  | SslCall.flush next, w =>
      afterOperation (fun answer w' => (next answer).run live w') (w.flush live)

/-! ## With the context set -/

lemma setContext_of_zero {S : Type} {w : AsyncToSyncWrapper S} (h : w.context = 0)
    (cx : Context) : w.setContext cx = Except.ok { w with context := cx.addr } := by
  rw [AsyncToSyncWrapper.setContext, if_pos h]

lemma unsetContext_of_set {S : Type} {w : AsyncToSyncWrapper S} {cx : Context}
    (h : w.context = cx.addr) : w.unsetContext = Except.ok { w with context := 0 } := by
  rw [AsyncToSyncWrapper.unsetContext, if_pos (by rw [h]; exact cx.addr_ne_zero)]

lemma throughContext_of_set {S α : Type} {live : Context} {w : AsyncToSyncWrapper S}
    (h : w.context = live.addr) (poll : Context → S → S × Poll (Except IoError α)) :
    throughContext live w poll = Except.ok (pollToResult (poll live w.inner).2,
      { w with inner := (poll live w.inner).1 },
      ⟨live, (poll live w.inner).2.isPending⟩) := by
  have hne : w.context ≠ 0 := by rw [h]; exact live.addr_ne_zero
  simp only [throughContext, AsyncToSyncWrapper.withContext, if_neg hne, if_pos h]

/-- An operation, then a continuation that runs from the wrapper it leaves. -/
lemma afterOperation_of_set {S ρ α : Type} {live : Context} {w : AsyncToSyncWrapper S}
    (h : w.context = live.addr) (poll : Context → S → S × Poll (Except IoError α))
    {next : Except IoError α → AsyncToSyncWrapper S → Except Fault (CallOut ρ S)}
    {out : CallOut ρ S}
    (hnext : next (pollToResult (poll live w.inner).2) { w with inner := (poll live w.inner).1 }
      = Except.ok out) :
    afterOperation next (throughContext live w poll) = Except.ok { out with
      polls := ⟨live, (poll live w.inner).2.isPending⟩ :: out.polls } := by
  rw [throughContext_of_set h, afterOperation]
  simp only [hnext]

/-- What a call run under `live` leaves behind. -/
def RunsUnder {ρ S : Type} (live : Context) (ran : Except Fault (CallOut ρ S)) : Prop :=
  ∃ out, ran = Except.ok out ∧ out.wrapper.context = live.addr ∧
    ∀ p ∈ out.polls, p.context = live

lemma runsUnder_operation {S ρ α : Type} {live : Context} {w : AsyncToSyncWrapper S}
    (h : w.context = live.addr) (poll : Context → S → S × Poll (Except IoError α))
    {next : Except IoError α → AsyncToSyncWrapper S → Except Fault (CallOut ρ S)}
    (ih : ∀ answer w', w'.context = live.addr → RunsUnder live (next answer w')) :
    RunsUnder live (afterOperation next (throughContext live w poll)) := by
  obtain ⟨out, hrun, hset, hpolls⟩ := ih (pollToResult (poll live w.inner).2)
    { w with inner := (poll live w.inner).1 } h
  refine ⟨_, afterOperation_of_set h poll hrun, hset, ?_⟩
  intro p hp
  rcases List.mem_cons.mp hp with rfl | hp
  · rfl
  · exact hpolls p hp

/-- **With the context of the poll in progress set, a call into the engine runs to its end**:
every inner poll gets that context, and it is still set when the call returns. -/
theorem run_of_set {S ρ : Type} [AsyncReadWrite S] (live : Context) :
    ∀ (call : SslCall ρ) (w : AsyncToSyncWrapper S), w.context = live.addr →
      RunsUnder live (call.run live w) := by
  intro call
  induction call with
  | finish result =>
      intro w h
      exact ⟨_, rfl, h, by simp⟩
  | read len next ih =>
      intro w h
      exact runsUnder_operation h _ ih
  | write buf next ih =>
      intro w h
      exact runsUnder_operation h _ ih
  | flush next ih =>
      intro w h
      exact runsUnder_operation h _ ih

/-! ## Honest engines

An engine is honest when its call ends with a want-read or want-write result exactly if one of
its operations was answered by `WouldBlock`.  `want` recognises such a result; what it looks like
depends on the call.
-/

def isWouldBlock {α : Type} : Except IoError α → Bool
  | Except.ok _ => false
  | Except.error e => decide (e.kind = ErrorKind.WouldBlock)

def SslCall.Honest {ρ : Type} (want : ρ → Bool) : SslCall ρ → Bool → Prop
  | SslCall.finish result, blocked => want result = blocked
  | SslCall.read _ next, blocked =>
      ∀ answer, (next answer).Honest want (blocked || isWouldBlock answer)
  | SslCall.write _ next, blocked =>
      ∀ answer, (next answer).Honest want (blocked || isWouldBlock answer)
  | SslCall.flush next, blocked =>
      ∀ answer, (next answer).Honest want (blocked || isWouldBlock answer)

/-- The inner stream reports blocking as `Pending` only, never as an error. -/
structure PendingOnly (S : Type) [AsyncReadWrite S] : Prop where
  read : ∀ cx (s : S) len r, (AsyncReadWrite.pollRead cx s len).2 = Poll.ready r →
    isWouldBlock r = false
  write : ∀ cx (s : S) buf r, (AsyncReadWrite.pollWrite cx s buf).2 = Poll.ready r →
    isWouldBlock r = false
  flush : ∀ cx (s : S) r, (AsyncReadWrite.pollFlush cx s).2 = Poll.ready r →
    isWouldBlock r = false

/-- Through the wrapper, `WouldBlock` and `Pending` are the same answer. -/
lemma isWouldBlock_pollToResult {α : Type} {answer : Poll (Except IoError α)}
    (h : ∀ r, answer = Poll.ready r → isWouldBlock r = false) :
    isWouldBlock (pollToResult answer) = answer.isPending := by
  cases answer with
  | pending => rfl
  | ready r => exact h r rfl

section HonestRun

variable {S ρ : Type} [AsyncReadWrite S] {want : ρ → Bool} {live : Context}

/-- What `honest_run` says, for one call. -/
def EndsHonestly (want : ρ → Bool) (live : Context) (S : Type) [AsyncReadWrite S]
    (call : SslCall ρ) : Prop :=
  ∀ (w : AsyncToSyncWrapper S) (blocked : Bool) (out : CallOut ρ S),
    w.context = live.addr → call.Honest want blocked → call.run live w = Except.ok out →
    want out.result = (blocked || out.blocked)

lemma endsHonestly_operation {α : Type} {w : AsyncToSyncWrapper S} {blocked : Bool}
    {out : CallOut ρ S} {next : Except IoError α → SslCall ρ}
    (ih : ∀ answer, EndsHonestly want live S (next answer))
    (poll : Context → S → S × Poll (Except IoError α))
    (hpoll : ∀ r, (poll live w.inner).2 = Poll.ready r → isWouldBlock r = false)
    (h : w.context = live.addr)
    (hhonest : ∀ answer, (next answer).Honest want (blocked || isWouldBlock answer))
    (hrun : afterOperation (fun answer w' => (next answer).run live w')
      (throughContext live w poll) = Except.ok out) :
    want out.result = (blocked || out.blocked) := by
  obtain ⟨rest, hrest, -, -⟩ := run_of_set live (next (pollToResult (poll live w.inner).2))
    { w with inner := (poll live w.inner).1 } h
  have hout := hrun.symm.trans (afterOperation_of_set h poll hrest)
  have hwant := ih _ { w with inner := (poll live w.inner).1 } _ rest h (hhonest _) hrest
  rw [isWouldBlock_pollToResult hpoll] at hwant
  rw [Except.ok.inj hout]
  simpa [CallOut.blocked, Bool.or_assoc] using hwant

/-- **An honest call ends with a want result exactly if an inner poll said pending.** -/
theorem honest_run (hinner : PendingOnly S) (call : SslCall ρ) :
    EndsHonestly want live S call := by
  induction call with
  | finish result =>
      intro w blocked out _ hhonest hrun
      rw [SslCall.run, Except.ok.injEq] at hrun
      rw [← hrun]
      show want result = (blocked || false)
      rw [Bool.or_false]
      exact hhonest
  | read len next ih =>
      intro w blocked out h hhonest hrun
      exact endsHonestly_operation ih _ (hinner.read live w.inner len) h hhonest hrun
  | write buf next ih =>
      intro w blocked out h hhonest hrun
      exact endsHonestly_operation ih _ (hinner.write live w.inner buf) h hhonest hrun
  | flush next ih =>
      intro w blocked out h hhonest hrun
      exact endsHonestly_operation ih _ (hinner.flush live w.inner) h hhonest hrun

end HonestRun

end FutureAio.Openssl
