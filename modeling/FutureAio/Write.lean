import FutureAio.Basic
import FutureAio.Lib.Runs
import Mathlib.Data.List.Infix

/-!
# `WriteBufAll`: one buffer, written over several polls

The future of `src/write.rs` owns a writer and a buffer.  A poll takes the buffer's bytes and
offers the writer what is left of them, call after call, until nothing is left or an answer ends
the poll.  What is left is a local variable of the poll: the future keeps the buffer and nothing
else.

* `WriteBufAll.pollLoop`, `WriteBufAll.poll` — the poll, with a record of its `poll_write` calls.
* `Polled` — everything one poll can do, as a relation between the bytes it starts from, its
  calls and its answer; `pollLoop_polled` is the only place where the loop is unfolded.
* `Execution.poll` — the executor polls the future, in whatever state the world has put the
  writer.  A run is a list of such polls; it ends when the future is ready.

`delivered` is what the writer has accepted.  The bytes of a poll that was cut off by a `Pending`
are offered again by the next one, so the buffer arrives once exactly when the writer stops
answering `Pending` from the first byte on (`Steady`).
-/

namespace FutureAio.Write

open Runs

/-- `AsyncWrite::poll_write`, from any state of the writer and what it writes to.  A writer never
claims more than it was offered, so that `split_at` does not panic. -/
class AsyncWrite (W : Type*) where
  pollWrite : W → List UInt8 → Poll (Except IoError ℕ) × W
  pollWrite_le : ∀ {writer b n}, (pollWrite writer b).1 = Poll.ready (Except.ok n) → n ≤ b.length

/-- `AsRef<[u8]>`. -/
class AsRefBytes (B : Type*) where
  asRef : B → List UInt8

/-- One `poll_write`: what it was offered and how it answered. -/
structure WriteCall where
  offered : List UInt8
  answer : Poll (Except IoError ℕ)
  deriving DecidableEq, Repr

/-- The bytes that the writer took. -/
def WriteCall.accepted : WriteCall → List UInt8
  | ⟨offered, Poll.ready (Except.ok n)⟩ => offered.take n
  | _ => []

/-- The bytes accepted over a sequence of calls. -/
def delivered (calls : List WriteCall) : List UInt8 := calls.flatMap WriteCall.accepted

/-- The struct `WriteBufAll`. -/
structure WriteBufAll (W B : Type*) where
  writer : W
  buf : B

/-- `io::ErrorKind::WriteZero.into()`. -/
def writeZero : IoError := ⟨ErrorKind.WriteZero, "write zero"⟩

/-- What a poll answers, the writer it leaves behind, and the calls it made. -/
structure PollOutput (W : Type*) where
  answer : Poll (Except IoError Unit)
  writer : W
  calls : List WriteCall

section Poll

variable {W B : Type*} [AsyncWrite W] [AsRefBytes B]

/-- The `while` loop of `poll`, from the loop head with `buf` left to write. -/
def WriteBufAll.pollLoop (writer : W) (buf : List UInt8) : PollOutput W :=
  if hbuf : buf = [] then ⟨Poll.ready (Except.ok ()), writer, []⟩
  else
    match AsyncWrite.pollWrite writer buf with
    | (Poll.pending, writer) => ⟨Poll.pending, writer, [⟨buf, Poll.pending⟩]⟩
    | (Poll.ready (Except.error e), writer) =>
        ⟨Poll.ready (Except.error e), writer, [⟨buf, Poll.ready (Except.error e)⟩]⟩
    | (Poll.ready (Except.ok n), writer) =>
        let rest := (buf.splitAt n).2
        if hn : n = 0 then
          ⟨Poll.ready (Except.error writeZero), writer, [⟨buf, Poll.ready (Except.ok n)⟩]⟩
        else
          have : rest.length < buf.length := by
            have := List.length_pos_iff.mpr hbuf
            simp only [rest, List.splitAt_eq, List.length_drop]
            omega
          let out := WriteBufAll.pollLoop writer rest
          { out with calls := ⟨buf, Poll.ready (Except.ok n)⟩ :: out.calls }
  termination_by buf.length

/-- `WriteBufAll::poll`.  The loop starts from the whole buffer, and the buffer stays as it is. -/
def WriteBufAll.poll (self : WriteBufAll W B) : PollOutput W :=
  WriteBufAll.pollLoop self.writer (AsRefBytes.asRef self.buf)

/-- `AsyncWrite2::write_buf_all`. -/
def writeBufAll (self : W) (buf : B) : WriteBufAll W B := ⟨self, buf⟩

@[simp] lemma pollLoop_nil (writer : W) :
    WriteBufAll.pollLoop writer [] = ⟨Poll.ready (Except.ok ()), writer, []⟩ := by
  simp [WriteBufAll.pollLoop]

/-- One round of the loop, for a rest that is known not to be empty. -/
lemma pollLoop_cons (writer : W) (b : UInt8) (bs : List UInt8) :
    WriteBufAll.pollLoop writer (b :: bs) =
      match AsyncWrite.pollWrite writer (b :: bs) with
      | (Poll.pending, writer) => ⟨Poll.pending, writer, [⟨b :: bs, Poll.pending⟩]⟩
      | (Poll.ready (Except.error e), writer) =>
          ⟨Poll.ready (Except.error e), writer, [⟨b :: bs, Poll.ready (Except.error e)⟩]⟩
      | (Poll.ready (Except.ok 0), writer) =>
          ⟨Poll.ready (Except.error writeZero), writer, [⟨b :: bs, Poll.ready (Except.ok 0)⟩]⟩
      | (Poll.ready (Except.ok (n + 1)), writer) =>
          let out := WriteBufAll.pollLoop writer (bs.drop n)
          { out with calls := ⟨b :: bs, Poll.ready (Except.ok (n + 1))⟩ :: out.calls } := by
  rw [WriteBufAll.pollLoop]
  rcases AsyncWrite.pollWrite writer (b :: bs) with ⟨_ | _ | _ | n, writer'⟩ <;> simp

/-! ## What a poll can do -/

/-- A poll that starts from `buf` may make these calls and give this answer. -/
inductive Polled : List UInt8 → List WriteCall → Poll (Except IoError Unit) → Prop
  | finished : Polled [] [] (Poll.ready (Except.ok ()))
  | blocked {buf : List UInt8} : Polled buf [⟨buf, Poll.pending⟩] Poll.pending
  | failed {buf : List UInt8} (e : IoError) :
      Polled buf [⟨buf, Poll.ready (Except.error e)⟩] (Poll.ready (Except.error e))
  | stuck {buf : List UInt8} :
      Polled buf [⟨buf, Poll.ready (Except.ok 0)⟩] (Poll.ready (Except.error writeZero))
  | wrote {buf : List UInt8} {calls : List WriteCall} {answer : Poll (Except IoError Unit)} {n : ℕ}
      (hn : 0 < n) (hle : n ≤ buf.length) (rest : Polled (buf.drop n) calls answer) :
      Polled buf (⟨buf, Poll.ready (Except.ok n)⟩ :: calls) answer

lemma pollLoop_polled (writer : W) (buf : List UInt8) :
    Polled buf (WriteBufAll.pollLoop writer buf).calls
      (WriteBufAll.pollLoop writer buf).answer := by
  fun_induction WriteBufAll.pollLoop writer buf with
  | case1 => exact Polled.finished
  | case2 => exact Polled.blocked
  | case3 writer buf hbuf e => exact Polled.failed e
  | case4 => exact Polled.stuck
  | case5 writer buf hbuf n writer' hanswer rest hn hlt out ih =>
      have hle : n ≤ buf.length := AsyncWrite.pollWrite_le (by rw [hanswer])
      have hrest : rest = buf.drop n := by simp [rest]
      refine Polled.wrote (Nat.pos_of_ne_zero hn) hle ?_
      rw [← hrest]
      exact ih

end Poll

/-! ## Calls and the bytes they deliver -/

@[simp] lemma delivered_nil : delivered [] = [] := rfl

@[simp] lemma delivered_cons (c : WriteCall) (calls : List WriteCall) :
    delivered (c :: calls) = c.accepted ++ delivered calls := by
  simp [delivered]

@[simp] lemma delivered_append (calls later : List WriteCall) :
    delivered (calls ++ later) = delivered calls ++ delivered later := by
  simp [delivered]

/-- What has been delivered at some point is the beginning of what is delivered later. -/
lemma delivered_isPrefix {seen calls : List WriteCall} (h : seen <+: calls) :
    delivered seen <+: delivered calls := by
  obtain ⟨later, rfl⟩ := h
  rw [delivered_append]
  exact List.prefix_append _ _

/-- The writer has answered nothing but `Pending`. -/
def Quiet (calls : List WriteCall) : Prop := ∀ c ∈ calls, c.answer = Poll.pending

/-- The writer does not answer `Pending` any more once it has given another answer. -/
def Steady (calls : List WriteCall) : Prop :=
  calls.Pairwise fun c d => d.answer = Poll.pending → c.answer = Poll.pending

lemma delivered_of_quiet {calls : List WriteCall} (h : Quiet calls) : delivered calls = [] := by
  induction calls with
  | nil => simp
  | cons c calls ih =>
      simp only [Quiet, List.mem_cons, forall_eq_or_imp] at h
      obtain ⟨offered, answer⟩ := c
      obtain ⟨rfl, hrest⟩ := h
      simp [WriteCall.accepted, ih hrest]

lemma steady_of_quiet {calls : List WriteCall} (h : Quiet calls) : Steady calls :=
  List.pairwise_of_forall_mem_list fun c hc _ _ _ => h c hc

lemma steady_append_of_quiet {calls later : List WriteCall} (h : Quiet calls) :
    Steady (calls ++ later) ↔ Steady later := by
  rw [Steady, List.pairwise_append]
  constructor
  · rintro ⟨-, hlater, -⟩
    exact hlater
  · intro hlater
    exact ⟨steady_of_quiet h, hlater, fun c hc _ _ _ => h c hc⟩

/-! ## What a poll delivers -/

namespace Polled

variable {buf : List UInt8} {calls : List WriteCall} {answer : Poll (Except IoError Unit)}

/-- A poll delivers the beginning of what it starts from. -/
lemma delivered_isPrefix (h : Polled buf calls answer) : delivered calls <+: buf := by
  induction h with
  | finished => simp
  | blocked => simp [WriteCall.accepted]
  | failed e => simp [WriteCall.accepted]
  | stuck => simp [WriteCall.accepted]
  | wrote hn hle rest ih =>
      obtain ⟨left, hleft⟩ := ih
      refine ⟨left, ?_⟩
      simp [WriteCall.accepted, hleft]

/-- A poll that answers `Ok` has delivered all of it. -/
lemma delivered_of_ok (h : Polled buf calls (Poll.ready (Except.ok ()))) :
    delivered calls = buf := by
  generalize hanswer : Poll.ready (Except.ok ()) = answer at h
  induction h with
  | finished => simp
  | blocked => simp at hanswer
  | failed e => simp at hanswer
  | stuck => simp at hanswer
  | wrote hn hle rest ih => simp [WriteCall.accepted, ih hanswer]

/-- A poll that becomes ready has not heard `Pending`. -/
lemma steady_of_ready {r : Except IoError Unit} (h : Polled buf calls (Poll.ready r)) :
    Steady calls := by
  have hready : ∀ c ∈ calls, c.answer ≠ Poll.pending := by
    generalize hanswer : Poll.ready r = answer at h
    induction h with
    | finished => simp
    | blocked => simp at hanswer
    | failed e => simp
    | stuck => simp
    | wrote hn hle rest ih =>
        rintro c (_ | ⟨_, hc⟩)
        · simp
        · exact ih hanswer c hc
  exact List.pairwise_of_forall_mem_list fun _ _ d hd hp => absurd hp (hready d hd)

/-- A poll that answers `Pending` has heard `Pending` last. -/
lemma exists_pending (h : Polled buf calls Poll.pending) :
    ∃ c ∈ calls, c.answer = Poll.pending := by
  generalize hanswer : Poll.pending = answer at h
  induction h with
  | finished => simp at hanswer
  | blocked => simp
  | failed e => simp at hanswer
  | stuck => simp at hanswer
  | wrote hn hle rest ih =>
      obtain ⟨c, hc, hp⟩ := ih hanswer
      exact ⟨c, List.mem_cons_of_mem _ hc, hp⟩

/-- A poll that answers `Pending` was blocked at once, or has left bytes behind that the writer
took before. -/
lemma quiet_or_wrote (h : Polled buf calls Poll.pending) :
    Quiet calls ∨ (delivered calls ≠ [] ∧ ¬ Steady calls) := by
  cases h with
  | blocked => simp [Quiet]
  | wrote hn hle rest =>
      right
      constructor
      · have hbuf : buf ≠ [] := List.length_pos_iff.mp (by omega)
        simp [WriteCall.accepted, hbuf]
        omega
      · obtain ⟨c, hc, hp⟩ := rest.exists_pending
        intro hsteady
        simpa using List.rel_of_pairwise_cons hsteady hc hp

end Polled

/-! ## Polls of the executor -/

/-- The future as the executor sees it, with the calls made since it was created. -/
structure Execution (W B : Type*) where
  future : WriteBufAll W B
  outcome : Option (Except IoError Unit)
  calls : List WriteCall

/-- `Poll::Ready` ends the future. -/
def outcomeOf : Poll (Except IoError Unit) → Option (Except IoError Unit)
  | Poll.pending => none
  | Poll.ready r => some r

lemma outcomeOf_eq_none {answer : Poll (Except IoError Unit)} :
    outcomeOf answer = none ↔ answer = Poll.pending := by
  cases answer <;> simp [outcomeOf]

lemma outcomeOf_eq_some {answer : Poll (Except IoError Unit)} {r : Except IoError Unit} :
    outcomeOf answer = some r ↔ answer = Poll.ready r := by
  cases answer <;> simp [outcomeOf]

namespace Execution

variable {W B : Type*}

def start (future : WriteBufAll W B) : Execution W B := ⟨future, none, []⟩

/-- One poll; `world` is what has happened to the writer since the last one.  A future that is
ready is not polled again. -/
def poll [AsyncWrite W] [AsRefBytes B] (x : Execution W B) (world : W → W) :
    Option (Execution W B) :=
  match x.outcome with
  | some _ => none
  | none =>
      let future := { x.future with writer := world x.future.writer }
      let out := future.poll
      some
        { future := { future with writer := out.writer }
          outcome := outcomeOf out.answer
          calls := x.calls ++ out.calls }

/-- The bytes accepted at any point are the beginning of `bytes`, and all of them in a run that
ends with `Ok`. -/
structure ExactlyOnce (bytes : List UInt8) (x : Execution W B) : Prop where
  isPrefix : ∀ seen, seen <+: x.calls → delivered seen <+: bytes
  whole : x.outcome = some (Except.ok ()) → delivered x.calls = bytes

/-- What a run keeps: while the future is pending, either nothing has been taken or a poll has been
cut off. -/
structure Inv (bytes : List UInt8) (x : Execution W B) : Prop where
  live : x.outcome = none → Quiet x.calls ∨ (delivered x.calls ≠ [] ∧ ¬ Steady x.calls)
  steady : Steady x.calls → delivered x.calls <+: bytes
  whole : x.outcome = some (Except.ok ()) → (delivered x.calls = bytes ↔ Steady x.calls)

section Poll

variable {x x' : Execution W B} {bytes : List UInt8} {calls : List WriteCall}
  {answer : Poll (Except IoError Unit)}

/-- A poll after quiet ones: the run is as if it started here. -/
lemma inv_of_quiet (hquiet : Quiet x.calls) (hp : Polled bytes calls answer)
    (hout : x'.outcome = outcomeOf answer) (hcalls : x'.calls = x.calls ++ calls) :
    x'.Inv bytes := by
  have hdelivered : delivered x'.calls = delivered calls := by
    rw [hcalls, delivered_append, delivered_of_quiet hquiet, List.nil_append]
  have hsteady : Steady x'.calls ↔ Steady calls := by
    rw [hcalls, steady_append_of_quiet hquiet]
  refine ⟨?_, ?_, ?_⟩
  · intro hnone
    rw [hout, outcomeOf_eq_none] at hnone
    subst hnone
    rcases hp.quiet_or_wrote with hq | hwrote
    · left
      intro c hc
      rw [hcalls, List.mem_append] at hc
      exact hc.elim (hquiet c) (hq c)
    · right
      rwa [hdelivered, hsteady]
  · intro _
    rw [hdelivered]
    exact hp.delivered_isPrefix
  · intro hok
    rw [hout, outcomeOf_eq_some] at hok
    subst hok
    rw [hdelivered, hsteady]
    exact iff_of_true hp.delivered_of_ok hp.steady_of_ready

/-- A poll after one that was cut off: it starts over, behind bytes that are already there. -/
lemma inv_of_cut (hsome : delivered x.calls ≠ []) (hnot : ¬ Steady x.calls)
    (hp : Polled bytes calls answer)
    (hout : x'.outcome = outcomeOf answer) (hcalls : x'.calls = x.calls ++ calls) :
    x'.Inv bytes := by
  have hnot' : ¬ Steady x'.calls := by
    rw [hcalls, Steady, List.pairwise_append]
    exact fun h => hnot h.1
  refine ⟨?_, fun h => absurd h hnot', ?_⟩
  · intro _
    right
    refine ⟨?_, hnot'⟩
    simp [hcalls, hsome]
  · intro hok
    rw [hout, outcomeOf_eq_some] at hok
    subst hok
    have hlong : delivered x'.calls ≠ bytes := by
      simp [hcalls, hp.delivered_of_ok, hsome]
    exact iff_of_false hlong hnot'

end Poll

variable [AsyncWrite W] [AsRefBytes B]

/-- A poll of a pending future starts from the whole buffer, and keeps it. -/
lemma poll_cases {x x' : Execution W B} {world : W → W} (h : x.poll world = some x') :
    x.outcome = none ∧ x'.future.buf = x.future.buf ∧ ∃ answer calls,
      Polled (AsRefBytes.asRef x.future.buf) calls answer ∧
        x'.outcome = outcomeOf answer ∧ x'.calls = x.calls ++ calls := by
  cases hout : x.outcome with
  | some r => simp [poll, hout] at h
  | none =>
      simp only [poll, hout, Option.some.injEq] at h
      subst h
      exact ⟨rfl, rfl, _, _, pollLoop_polled _ _, rfl, rfl⟩

lemma inv_poll {buf : B} (x : Execution W B) (world : W → W) (x' : Execution W B)
    (hinv : x.future.buf = buf ∧ x.Inv (AsRefBytes.asRef buf)) (h : x.poll world = some x') :
    x'.future.buf = buf ∧ x'.Inv (AsRefBytes.asRef buf) := by
  obtain ⟨rfl, hinv⟩ := hinv
  obtain ⟨hnone, hbuf, answer, calls, hp, hout, hcalls⟩ := poll_cases h
  refine ⟨hbuf, ?_⟩
  rcases hinv.live hnone with hquiet | ⟨hsome, hnot⟩
  · exact inv_of_quiet hquiet hp hout hcalls
  · exact inv_of_cut hsome hnot hp hout hcalls

/-- What every run of the future keeps to. -/
theorem inv_run (writer : W) (buf : B) (worlds : List (W → W)) {x : Execution W B}
    (hrun : run poll (start (writeBufAll writer buf)) worlds = some x) :
    x.Inv (AsRefBytes.asRef buf) := by
  refine (run_invariant inv_poll worlds ⟨rfl, ?_⟩ hrun).2
  constructor <;> simp [start, Quiet]

end Execution

section ExactlyOnce

variable {W B : Type*} [AsyncWrite W] [AsRefBytes B]

open Execution

/-- In a run whose writer stays away from `Pending` once it has taken something, the buffer is
delivered once; and a run that ends with `Ok` delivers it once only if its writer did. -/
theorem write_buf_all_exactly_once (writer : W) (buf : B) (worlds : List (W → W))
    {x : Execution W B}
    (hrun : run Execution.poll (start (writeBufAll writer buf)) worlds = some x) :
    (Steady x.calls → x.ExactlyOnce (AsRefBytes.asRef buf)) ∧
      (x.outcome = some (Except.ok ()) →
        (x.ExactlyOnce (AsRefBytes.asRef buf) ↔ Steady x.calls)) := by
  have hinv := inv_run writer buf worlds hrun
  have honce : Steady x.calls → x.ExactlyOnce (AsRefBytes.asRef buf) := by
    intro hsteady
    refine ⟨?_, fun hok => (hinv.whole hok).mpr hsteady⟩
    intro seen hseen
    exact (delivered_isPrefix hseen).trans (hinv.steady hsteady)
  exact ⟨honce, fun hok => ⟨fun h => (hinv.whole hok).mp (h.whole hok), honce⟩⟩

end ExactlyOnce

/-! ## Every run

A poll that is cut off is not lost on the other side: what it delivered is the beginning of the
buffer.  So whatever the writer does, what has arrived is a sequence of such beginnings, one for
each poll, and the last of them is the whole buffer if the future has answered `Ok`.
-/

section Pieces

variable {W B : Type*} [AsyncWrite W] [AsRefBytes B]

open Execution

lemma pieces_run {bytes : List UInt8} (worlds : List (W → W)) : ∀ {x x' : Execution W B},
    AsRefBytes.asRef x.future.buf = bytes → x.outcome = none →
    run Execution.poll x worlds = some x' →
    ∃ pieces : List (List UInt8), pieces.length = worlds.length ∧ (∀ p ∈ pieces, p <+: bytes) ∧
      delivered x'.calls = delivered x.calls ++ pieces.flatten ∧
      (x'.outcome = some (Except.ok ()) → pieces.getLast? = some bytes) := by
  induction worlds with
  | nil =>
      intro x x' hbuf hnone hrun
      rw [run, Option.some.injEq] at hrun
      subst hrun
      exact ⟨[], rfl, by simp, by simp, by simp [hnone]⟩
  | cons world worlds ih =>
      intro x x' hbuf hnone hrun
      obtain ⟨y, hpoll, hrest⟩ := run_cons_some hrun
      obtain ⟨-, hbuf', answer, calls, hp, hout, hcalls⟩ := poll_cases hpoll
      rw [hbuf] at hp
      cases worlds with
      | nil =>
          rw [run, Option.some.injEq] at hrest
          subst hrest
          refine ⟨[delivered calls], rfl, ?_, ?_, ?_⟩
          · simpa using hp.delivered_isPrefix
          · simp [hcalls, delivered]
          · intro hok
            obtain rfl := outcomeOf_eq_some.mp (hout.symm.trans hok)
            simp [hp.delivered_of_ok]
      | cons world' worlds =>
          -- the future is polled again, so this poll left it pending
          obtain ⟨z, hpoll', -⟩ := run_cons_some hrest
          have hnone' : y.outcome = none := (poll_cases hpoll').1
          obtain ⟨pieces, hlen, hpieces, hdelivered, hlast⟩ := ih (hbuf' ▸ hbuf) hnone' hrest
          refine ⟨delivered calls :: pieces, by simp [hlen], ?_, ?_, ?_⟩
          · rintro p (_ | ⟨_, hmem⟩)
            · exact hp.delivered_isPrefix
            · exact hpieces p hmem
          · rw [hdelivered, hcalls]
            simp [delivered]
          · intro hok
            have hne : pieces ≠ [] := by
              rintro rfl
              simp at hlen
            rw [List.getLast?_cons_of_ne_nil hne]
            exact hlast hok

lemma length_flatten_le {bytes : List UInt8} {pieces : List (List UInt8)}
    (h : ∀ p ∈ pieces, p <+: bytes) : pieces.flatten.length ≤ pieces.length * bytes.length := by
  induction pieces with
  | nil => simp
  | cons p pieces ih =>
      have hp := (h p (by simp)).length_le
      have hrest := ih fun q hq => h q (by simp [hq])
      simp only [List.flatten_cons, List.length_append, List.length_cons, Nat.add_mul, Nat.one_mul]
      omega

/-- **The buffer arrives at least once.**  Over every run, for every writer: what the writer has
accepted is made of beginnings of the buffer, one for each poll, and ends with the whole buffer if
the future has answered `Ok`.  So nothing is ever skipped or out of order, and a run of `n` polls
delivers at most `n` times the buffer. -/
theorem write_buf_all_at_least_once (writer : W) (buf : B) (worlds : List (W → W))
    {x : Execution W B}
    (hrun : run Execution.poll (start (writeBufAll writer buf)) worlds = some x) :
    (∃ pieces : List (List UInt8), pieces.length = worlds.length ∧
      (∀ p ∈ pieces, p <+: AsRefBytes.asRef buf) ∧ delivered x.calls = pieces.flatten) ∧
    (delivered x.calls).length ≤ worlds.length * (AsRefBytes.asRef buf).length ∧
    (x.outcome = some (Except.ok ()) → AsRefBytes.asRef buf <:+ delivered x.calls) := by
  have hbuf : AsRefBytes.asRef (start (writeBufAll writer buf)).future.buf = AsRefBytes.asRef buf :=
    rfl
  obtain ⟨pieces, hlen, hpieces, hdelivered, hlast⟩ := pieces_run worlds hbuf rfl hrun
  have hall : delivered x.calls = pieces.flatten := by
    simpa [start, delivered] using hdelivered
  refine ⟨⟨pieces, hlen, hpieces, hall⟩, ?_, ?_⟩
  · rw [hall, ← hlen]
    exact length_flatten_le hpieces
  · intro hok
    obtain ⟨before, hbefore⟩ := List.getLast?_eq_some_iff.mp (hlast hok)
    refine ⟨before.flatten, ?_⟩
    rw [hall, hbefore]
    simp

end Pieces

/-! ## A writer that answers as written down -/

structure Scripted where
  answers : List (Poll (Except IoError ℕ))

instance : AsyncWrite Scripted where
  pollWrite writer b :=
    match writer.answers with
    | [] => (Poll.pending, writer)
    | Poll.ready (Except.ok n) :: rest => (Poll.ready (Except.ok (min n b.length)), ⟨rest⟩)
    | answer :: rest => (answer, ⟨rest⟩)
  pollWrite_le := by
    rintro ⟨answers⟩ b n h
    rcases answers with _ | ⟨_ | _ | m, rest⟩
    · simp at h
    · simp at h
    · simp at h
    · simp only [Poll.ready.injEq, Except.ok.injEq] at h
      omega

instance : AsRefBytes (List UInt8) where
  asRef buf := buf

/-- The writer is blocked, then takes one byte, then the other: the buffer arrives once. -/
theorem exactly_once_when_blocked_first :
    ∃ x, run Execution.poll (Execution.start (writeBufAll (B := List UInt8)
        (Scripted.mk [Poll.pending, Poll.ready (Except.ok 1), Poll.ready (Except.ok 1)]) [1, 2]))
          [id, id] = some x ∧ x.outcome = some (Except.ok ()) ∧ Steady x.calls ∧
      x.ExactlyOnce [1, 2] := by
  have hrun : run Execution.poll (Execution.start (writeBufAll (B := List UInt8)
      (Scripted.mk [Poll.pending, Poll.ready (Except.ok 1), Poll.ready (Except.ok 1)]) [1, 2]))
        [id, id] = some ⟨⟨⟨[]⟩, [1, 2]⟩, some (Except.ok ()),
          [⟨[1, 2], Poll.pending⟩, ⟨[1, 2], Poll.ready (Except.ok 1)⟩,
            ⟨[2], Poll.ready (Except.ok 1)⟩]⟩ := by
    simp [run, Execution.poll, Execution.start, writeBufAll, WriteBufAll.poll, pollLoop_cons,
      AsyncWrite.pollWrite, AsRefBytes.asRef, outcomeOf]
  have hsteady : Steady [⟨[1, 2], Poll.pending⟩, ⟨[1, 2], Poll.ready (Except.ok 1)⟩,
      ⟨[2], Poll.ready (Except.ok 1)⟩] := by
    simp [Steady]
  exact ⟨_, hrun, rfl, hsteady, (write_buf_all_exactly_once _ _ _ hrun).1 hsteady⟩

/-- One byte taken, then `Pending`, then both: the buffer is the end of what arrived. -/
theorem at_least_once_after_pending :
    ∃ x, run Execution.poll (Execution.start (writeBufAll (B := List UInt8)
        (Scripted.mk [Poll.ready (Except.ok 1), Poll.pending, Poll.ready (Except.ok 2)]) [1, 2]))
          [id, id] = some x ∧ x.outcome = some (Except.ok ()) ∧ [1, 2] <:+ delivered x.calls := by
  have hrun : run Execution.poll (Execution.start (writeBufAll (B := List UInt8)
      (Scripted.mk [Poll.ready (Except.ok 1), Poll.pending, Poll.ready (Except.ok 2)]) [1, 2]))
        [id, id] = some ⟨⟨⟨[]⟩, [1, 2]⟩, some (Except.ok ()),
          [⟨[1, 2], Poll.ready (Except.ok 1)⟩, ⟨[2], Poll.pending⟩,
            ⟨[1, 2], Poll.ready (Except.ok 2)⟩]⟩ := by
    simp [run, Execution.poll, Execution.start, writeBufAll, WriteBufAll.poll, pollLoop_cons,
      AsyncWrite.pollWrite, AsRefBytes.asRef, outcomeOf]
  exact ⟨_, hrun, rfl, (write_buf_all_at_least_once _ _ _ hrun).2.2 rfl⟩

/-- The writer takes one byte and is blocked: the next poll offers that byte again. -/
theorem resent_after_pending :
    ∃ x, run Execution.poll (Execution.start (writeBufAll (B := List UInt8)
        (Scripted.mk [Poll.ready (Except.ok 1), Poll.pending, Poll.ready (Except.ok 1),
          Poll.ready (Except.ok 1)]) [1, 2])) [id, id] = some x ∧
      x.outcome = some (Except.ok ()) ∧ delivered x.calls = [1, 1, 2] ∧
      ¬ x.ExactlyOnce [1, 2] := by
  have hrun : run Execution.poll (Execution.start (writeBufAll (B := List UInt8)
      (Scripted.mk [Poll.ready (Except.ok 1), Poll.pending, Poll.ready (Except.ok 1),
        Poll.ready (Except.ok 1)]) [1, 2])) [id, id] = some ⟨⟨⟨[]⟩, [1, 2]⟩, some (Except.ok ()),
          [⟨[1, 2], Poll.ready (Except.ok 1)⟩, ⟨[2], Poll.pending⟩,
            ⟨[1, 2], Poll.ready (Except.ok 1)⟩, ⟨[2], Poll.ready (Except.ok 1)⟩]⟩ := by
    simp [run, Execution.poll, Execution.start, writeBufAll, WriteBufAll.poll, pollLoop_cons,
      AsyncWrite.pollWrite, AsRefBytes.asRef, outcomeOf]
  refine ⟨_, hrun, rfl, rfl, ?_⟩
  intro honce
  simpa [WriteCall.accepted] using honce.whole rfl

end FutureAio.Write
