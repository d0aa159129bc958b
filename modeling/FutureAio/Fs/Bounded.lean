import FutureAio.Lib.Word
import FutureAio.Lib.Loop
import FutureAio.Fs.Queued

/-!
# `BoundedFileSink`

A file with a running count of the bytes written to it.  Each of the three constructors pairs a
way of opening the file with a first value of that count, and `poll_write` adds to it whatever
the file says it took; nothing ever compares the count with the file again.

* `BoundedFileSink W` — the sink over a writer `W`; its polls are given the writer's.
* `create`, `openWrite`, `openAppend` — the constructors, for any `AsyncFs`.
* `writePass` — a client that writes a list of buffers with `write_all` and then flushes.

`keepsLength_iff` — over every file that behaves as `async_fs` documents, the count agrees with the
file for every content, every list of buffers and every course of the polls, except that
`open_write` opens the file with `File::open`, for reading only: any byte written through such a
sink is counted and then lost.
-/

namespace FutureAio.Fs

open RustInt OracleLoop

/-- `BoundedFileOption`. -/
structure BoundedFileOption where
  maxLen : Option UInt64 := none
  deriving DecidableEq, Repr

structure BoundedFileSink (W : Type) where
  option : BoundedFileOption
  currentLen : UInt64
  writer : W
  deriving DecidableEq, Repr

namespace BoundedFileSink

section Polls

variable {W : Type}

/-- `BoundedFileSink::can_be_appended`; `none` is an addition that panics. -/
def canBeAppended (build : Build) (sink : BoundedFileSink W) (bufLen : UInt64) : Option Bool :=
  match sink.option.maxLen with
  | some maxLen => (addU64 build sink.currentLen bufLen).map (decide <| · ≤ maxLen)
  | none => some true

/-- `BoundedFileSink::poll_write`; `none` is an addition that panics. -/
def pollWrite (build : Build) (poll : W → List UInt8 → W × Poll (Except IoError ℕ))
    (sink : BoundedFileSink W) (buf : List UInt8) :
    Option (BoundedFileSink W × Poll (Except IoError ℕ)) :=
  match poll sink.writer buf with
  | (writer, Poll.pending) => some ({ sink with writer := writer }, Poll.pending)
  | (writer, Poll.ready (Except.ok size)) =>
      match addU64 build sink.currentLen (UInt64.ofNat size) with
      | none => none
      | some currentLen =>
          some ({ sink with writer := writer, currentLen := currentLen },
            Poll.ready (Except.ok size))
  | (writer, Poll.ready (Except.error err)) =>
      some ({ sink with writer := writer }, Poll.ready (Except.error err))

/-- `BoundedFileSink::poll_flush`. -/
def pollFlush (poll : W → W × Poll (Except IoError Unit)) (sink : BoundedFileSink W) :
    BoundedFileSink W × Poll (Except IoError Unit) :=
  ({ sink with writer := (poll sink.writer).1 }, (poll sink.writer).2)

/-- `BoundedFileSink::poll_close`: the same delegation. -/
def pollClose (poll : W → W × Poll (Except IoError Unit)) (sink : BoundedFileSink W) :
    BoundedFileSink W × Poll (Except IoError Unit) :=
  pollFlush poll sink

end Polls

section Constructors

variable (fs : AsyncFs) (disk : Option (List UInt8)) (option : BoundedFileOption)

/-- `BoundedFileSink::create`. -/
def create : Except IoError (BoundedFileSink (File fs.Handle)) := do
  let writer ← fs.fileCreate disk
  return ⟨option, 0, writer⟩

/-- `BoundedFileSink::open_write`. -/
def openWrite : Except IoError (BoundedFileSink (File fs.Handle)) := do
  let writer ← fs.fileOpen disk
  let len ← fs.metadataLen writer
  return ⟨option, len, writer⟩

/-- `BoundedFileSink::open_append`. -/
def openAppend : Except IoError (BoundedFileSink (File fs.Handle)) := do
  let writer ← openReadAppend fs disk
  let len ← fs.metadataLen writer
  return ⟨option, len, writer⟩

end Constructors

end BoundedFileSink

/-- The three constructors. -/
inductive Constructor where
  | create
  | openWrite
  | openAppend
  deriving DecidableEq, Repr

def Constructor.open (fs : AsyncFs) : Constructor → Option (List UInt8) → BoundedFileOption →
    Except IoError (BoundedFileSink (File fs.Handle))
  | Constructor.create => BoundedFileSink.create fs
  | Constructor.openWrite => BoundedFileSink.openWrite fs
  | Constructor.openAppend => BoundedFileSink.openAppend fs

/-- What a sink made by the constructor adds to. -/
def Constructor.base : Constructor → List UInt8 → List UInt8
  | Constructor.create, _ => []
  | Constructor.openWrite, previous => previous
  | Constructor.openAppend, previous => previous

/-! ## A client

`for buf in bufs { sink.write_all(buf).await? }  sink.flush().await?`
-/

/-- The sink, and what is left of each buffer still to be written. -/
structure Client (fs : AsyncFs) where
  sink : BoundedFileSink (File fs.Handle)
  todo : List (List UInt8)

inductive ClientEnd (fs : AsyncFs) where
  | done (sink : BoundedFileSink (File fs.Handle))
  | failed (err : IoError) (sink : BoundedFileSink (File fs.Handle))
  | panicked

def writeZero : IoError := ⟨ErrorKind.WriteZero, "failed to write whole buffer"⟩

section Client

variable (fs : AsyncFs) (build : Build)

/-- One poll of the client. -/
def writePass (c : Client fs) (turn : fs.Turn) : Flow (Client fs) (ClientEnd fs) :=
  match c.todo with
  | [] =>
      match c.sink.pollFlush (fs.pollFlush turn) with
      | (sink, Poll.pending) => Flow.again ⟨sink, []⟩
      | (sink, Poll.ready (Except.ok ())) => Flow.leave (ClientEnd.done sink)
      | (sink, Poll.ready (Except.error err)) => Flow.leave (ClientEnd.failed err sink)
  | [] :: rest => Flow.again ⟨c.sink, rest⟩
  | buf :: rest =>
      match c.sink.pollWrite build (fs.pollWrite turn) buf with
      | none => Flow.leave ClientEnd.panicked
      | some (sink, Poll.pending) => Flow.again ⟨sink, buf :: rest⟩
      | some (sink, Poll.ready (Except.ok size)) =>
          if size = 0 then Flow.leave (ClientEnd.failed writeZero sink)
          else Flow.again ⟨sink, buf.drop size :: rest⟩
      | some (sink, Poll.ready (Except.error err)) => Flow.leave (ClientEnd.failed err sink)

/-- The poll that the client makes of its file is answered by `Pending`. -/
def Client.waits {fs : AsyncFs} (c : Client fs) (turn : fs.Turn) : Bool :=
  match c.todo with
  | [] => (fs.pollFlush turn c.sink.writer).2.isPending
  | [] :: _ => false
  | buf :: _ => (fs.pollWrite turn c.sink.writer buf).2.isPending

variable (sink : BoundedFileSink (File fs.Handle)) (bufs : List (List UInt8))
  (turns : ℕ → fs.Turn)

/-- The client after `n` polls. -/
def writeAll : ℕ → Flow (Client fs) (ClientEnd fs) :=
  loopAt (writePass fs build) turns ⟨sink, bufs⟩

/-- Poll `n` of the client is answered by `Pending`. -/
def WaitsAt (n : ℕ) : Prop :=
  ∃ c, writeAll fs build sink bufs turns n = Flow.again c ∧ c.waits (turns n) = true

end Client

/-- A sink made by `c` takes all the buffers: however the polls go, as long as they are not for ever
answered by `Pending`, the client ends without error, with every byte in the file and counted. -/
def KeepsLength (fs : AsyncFs) (build : Build) (c : Constructor) (option : BoundedFileOption)
    (previous : FileContent) (bufs : List (List UInt8)) : Prop :=
  ∃ sink, c.open fs (some previous.bytes) option = Except.ok sink ∧
    ∀ turns : ℕ → fs.Turn, {n | WaitsAt fs build sink bufs turns n}.Finite →
      ∃ n sink', writeAll fs build sink bufs turns n = Flow.leave (ClientEnd.done sink') ∧
        sink'.writer.content = c.base previous.bytes ++ bufs.flatten ∧
        fs.buffered sink'.writer.handle = [] ∧
        sink'.currentLen.toNat = sink'.writer.content.length

/-! ## What a poll counts -/

/-- The bytes that an answer says were taken. -/
def taken : Poll (Except IoError ℕ) → ℕ
  | Poll.ready (Except.ok size) => size
  | _ => 0

/-- As long as the sum is a `u64`, a write returns what the writer inside answered and counts it. -/
lemma pollWrite_of_fits {W : Type} (build : Build) {sink : BoundedFileSink W}
    (poll : W → List UInt8 → W × Poll (Except IoError ℕ)) (buf : List UInt8)
    (h : sink.currentLen.toNat + taken (poll sink.writer buf).2 < 2 ^ 64) :
    ∃ sink', sink.pollWrite build poll buf = some (sink', (poll sink.writer buf).2) ∧
      sink'.option = sink.option ∧ sink'.writer = (poll sink.writer buf).1 ∧
      sink'.currentLen.toNat = sink.currentLen.toNat + taken (poll sink.writer buf).2 := by
  rw [BoundedFileSink.pollWrite]
  generalize poll sink.writer buf = inner at h ⊢
  obtain ⟨writer, answer⟩ := inner
  cases answer with
  | pending => exact ⟨_, rfl, rfl, rfl, rfl⟩
  | ready result =>
      cases result with
      | error err => exact ⟨_, rfl, rfl, rfl, rfl⟩
      | ok size =>
          have hfits : sink.currentLen.toNat + size < 2 ^ 64 := h
          have hsize : (UInt64.ofNat size).toNat = size :=
            UInt64.toNat_ofNat_of_lt' (show _ < 2 ^ 64 by omega)
          have hsum : sink.currentLen.toNat + (UInt64.ofNat size).toNat < 2 ^ 64 := by omega
          refine ⟨⟨sink.option, sink.currentLen + UInt64.ofNat size, writer⟩, ?_, rfl, rfl, ?_⟩
          · simp only [addU64_of_lt build hsum]
          · show (sink.currentLen + UInt64.ofNat size).toNat = sink.currentLen.toNat + size
            rw [toNat_add_of_lt hsum, hsize]

/-! ## Handles that write -/

/-- What is still to do: bytes, and buffers to go through. -/
def Client.size {fs : AsyncFs} (c : Client fs) : ℕ := c.todo.flatten.length + c.todo.length

/-- The client's books: what the file is due and the buffers to come are together the bytes
expected, the sink has counted the first, and no byte goes to a handle that cannot take it. -/
structure InStep {fs : AsyncFs} (total : List UInt8) (c : Client fs) : Prop where
  lands : fs.AtEnd c.sink.writer ∨ ((fs.options c.sink.writer.handle).writable = false ∧
    fs.buffered c.sink.writer.handle = [] ∧ c.todo.flatten = [])
  bytes : fs.due c.sink.writer ++ c.todo.flatten = total
  len : c.sink.currentLen.toNat = (fs.due c.sink.writer).length

/-- The client is done, and the file is what it should be. -/
def WroteAll {fs : AsyncFs} (total : List UInt8) (sink : BoundedFileSink (File fs.Handle)) : Prop :=
  sink.writer.content = total ∧ fs.buffered sink.writer.handle = [] ∧
    sink.currentLen.toNat = sink.writer.content.length

section Pass

variable {fs : AsyncFs} (build : Build) {total : List UInt8}
  {sink : BoundedFileSink (File fs.Handle)}

/-- The sink counts exactly what the file took. -/
lemma pollWrite_of_ready {f : File fs.Handle} {buf : List UInt8} {turn : fs.Turn} {size : ℕ}
    (hpoll : fs.pollWrite turn sink.writer buf = (f, Poll.ready (Except.ok size)))
    (hfits : sink.currentLen.toNat + size < 2 ^ 63) :
    ∃ sink', sink.pollWrite build (fs.pollWrite turn) buf
        = some (sink', Poll.ready (Except.ok size)) ∧
      sink'.writer = f ∧ sink'.currentLen.toNat = sink.currentLen.toNat + size := by
  have hsum : sink.currentLen.toNat + taken (fs.pollWrite turn sink.writer buf).2 < 2 ^ 64 := by
    rw [hpoll, taken]
    omega
  obtain ⟨sink', hwrite, -, hwriter, hlen⟩ := pollWrite_of_fits build _ buf hsum
  rw [hpoll] at hwrite hwriter hlen
  exact ⟨sink', hwrite, hwriter, hlen⟩

/-- Bytes taken from the buffer at hand, and counted, keep the books in order. -/
lemma InStep.take {buf : List UInt8} {rest : List (List UInt8)}
    {sink' : BoundedFileSink (File fs.Handle)} {size : ℕ}
    (inv : InStep total ⟨sink, buf :: rest⟩) (hle : size ≤ buf.length)
    (hend : fs.AtEnd sink.writer) (hlands : fs.Lands sink.writer sink'.writer (buf.take size))
    (hcount : sink'.currentLen.toNat = sink.currentLen.toNat + size) :
    InStep total ⟨sink', buf.drop size :: rest⟩ := by
  refine ⟨Or.inl (hlands.atEnd hend), ?_, ?_⟩
  · rw [hlands.due, List.flatten_cons, List.append_assoc, ← List.append_assoc (List.take _ _),
      List.take_append_drop]
    exact inv.bytes
  · have hlen : sink.currentLen.toNat = (fs.due sink.writer).length := inv.len
    rw [hcount, hlands.due, hlen, List.length_append, List.length_take_of_le hle]

/-- A poll with a buffer at hand: it is pending, or some of the buffer has been taken. -/
lemma inStep_write (hwrites : fs.Writes) (htotal : total.length < 2 ^ 63) {b : UInt8}
    {bs : List UInt8} {rest : List (List UInt8)} (inv : InStep total ⟨sink, (b :: bs) :: rest⟩)
    (turn : fs.Turn) :
    ∃ c', writePass fs build ⟨sink, (b :: bs) :: rest⟩ turn = Flow.again c' ∧ InStep total c' ∧
      (Client.waits ⟨sink, (b :: bs) :: rest⟩ turn = false →
        c'.size < Client.size ⟨sink, (b :: bs) :: rest⟩) := by
  have hend : fs.AtEnd sink.writer := by
    rcases inv.lands with hend | ⟨-, -, hnone⟩
    · exact hend
    · exact absurd hnone (by simp)
  rcases hwrites.pollWrite turn sink.writer (b :: bs) hend with
    ⟨f, hpoll, hlands⟩ | ⟨f, size, hpos, hle, hpoll, hlands⟩
  · refine ⟨⟨{ sink with writer := f }, (b :: bs) :: rest⟩, ?_, ?_, ?_⟩
    · simp only [writePass, BoundedFileSink.pollWrite, hpoll]
    · exact inv.take (Nat.zero_le _) hend hlands rfl
    · simp [Client.waits, hpoll, Poll.isPending]
  · have hfits : sink.currentLen.toNat + size < 2 ^ 63 := by
      have hsum := congrArg List.length inv.bytes
      have hlen : sink.currentLen.toNat = (fs.due sink.writer).length := inv.len
      simp only [List.length_append, List.flatten_cons] at hsum
      omega
    obtain ⟨sink', hsink, rfl, hcount⟩ := pollWrite_of_ready build hpoll hfits
    refine ⟨⟨sink', (b :: bs).drop size :: rest⟩, ?_, inv.take hle hend hlands hcount, ?_⟩
    · have hsize := hpos (List.cons_ne_nil b bs)
      simp only [writePass, hsink]
      exact if_neg (by omega)
    · intro _
      have hsize := hpos (List.cons_ne_nil b bs)
      simp only [Client.size, List.flatten_cons, List.length_append, List.length_drop,
        List.length_cons] at hle ⊢
      omega

/-- A flush of a client whose books are in order. -/
lemma InStep.pollFlush (hwrites : fs.Writes) (hrefuses : fs.RefusesWrites)
    (inv : InStep total ⟨sink, []⟩) (turn : fs.Turn) :
    ∃ f, (fs.pollFlush turn sink.writer = (f, Poll.pending) ∨
        fs.pollFlush turn sink.writer = (f, Poll.ready (Except.ok ())) ∧
          fs.buffered f.handle = []) ∧
      fs.due f = fs.due sink.writer ∧ InStep total ⟨{ sink with writer := f }, []⟩ := by
  rcases inv.lands with hend | ⟨hread, hnil, -⟩
  · obtain ⟨f, hlands, hcase⟩ := hwrites.pollFlush turn sink.writer hend
    have hdue : fs.due f = fs.due sink.writer := by rw [hlands.due, List.append_nil]
    refine ⟨f, hcase, hdue, Or.inl (hlands.atEnd hend), ?_, ?_⟩
    · rw [hdue]
      exact inv.bytes
    · rw [hdue]
      exact inv.len
  · obtain ⟨f, hoptions, hdue, hempty, hcase⟩ := hrefuses.idle turn sink.writer hread hnil
    refine ⟨f, hcase.imp_right fun h => ⟨h, hempty⟩, hdue, Or.inr ⟨?_, hempty, rfl⟩, ?_, ?_⟩
    · rw [hoptions, hread]
    · rw [hdue]
      exact inv.bytes
    · rw [hdue]
      exact inv.len

/-- A poll with nothing left to write: it is pending, or the client is done. -/
lemma inStep_flush (hwrites : fs.Writes) (hrefuses : fs.RefusesWrites)
    (inv : InStep total ⟨sink, []⟩) (turn : fs.Turn) :
    (∃ c', writePass fs build ⟨sink, []⟩ turn = Flow.again c' ∧ InStep total c' ∧
        Client.waits ⟨sink, []⟩ turn = true) ∨
      ∃ sink', writePass fs build ⟨sink, []⟩ turn = Flow.leave (ClientEnd.done sink') ∧
        WroteAll total sink' := by
  obtain ⟨f, hcase, hdue, inv'⟩ := inv.pollFlush hwrites hrefuses turn
  rcases hcase with hpoll | ⟨hpoll, hempty⟩
  · refine Or.inl ⟨⟨{ sink with writer := f }, []⟩, ?_, inv', ?_⟩
    · simp only [writePass, BoundedFileSink.pollFlush, hpoll]
    · simp only [Client.waits, hpoll, Poll.isPending]
  · have hcontent : fs.due f = f.content := by rw [AsyncFs.due, hempty, List.append_nil]
    refine Or.inr ⟨{ sink with writer := f }, ?_, ?_, hempty, ?_⟩
    · simp only [writePass, BoundedFileSink.pollFlush, hpoll]
    · simpa [hcontent] using inv'.bytes
    · rw [← hcontent]
      exact inv'.len

lemma inStep_skip {rest : List (List UInt8)} (inv : InStep total ⟨sink, [] :: rest⟩) :
    InStep total ⟨sink, rest⟩ :=
  ⟨inv.lands, inv.bytes, inv.len⟩

/-- **One poll of a client whose books are in order.** -/
lemma inStep_pass (hwrites : fs.Writes) (hrefuses : fs.RefusesWrites)
    (htotal : total.length < 2 ^ 63) {c : Client fs} (inv : InStep total c) (turn : fs.Turn) :
    (∃ c', writePass fs build c turn = Flow.again c' ∧ InStep total c' ∧
        (c.waits turn = false → c'.size < c.size)) ∨
      ∃ sink', writePass fs build c turn = Flow.leave (ClientEnd.done sink') ∧
        WroteAll total sink' := by
  obtain ⟨sink, todo⟩ := c
  cases todo with
  | nil =>
      rcases inStep_flush build hwrites hrefuses inv turn with ⟨c', hpass, inv', hwaits⟩ | hdone
      · refine Or.inl ⟨c', hpass, inv', fun hready => ?_⟩
        rw [hwaits] at hready
        exact absurd hready (by simp)
      · exact Or.inr hdone
  | cons buf rest =>
      cases buf with
      | nil =>
          refine Or.inl ⟨⟨sink, rest⟩, rfl, inStep_skip inv, fun _ => ?_⟩
          simp [Client.size]
      | cons b bs => exact Or.inl (inStep_write build hwrites htotal inv turn)

/-- A client whose books are in order at the start gets everything written. -/
theorem writeAll_of_inStep (hwrites : fs.Writes) (hrefuses : fs.RefusesWrites)
    (htotal : total.length < 2 ^ 63) {bufs : List (List UInt8)}
    (inv : InStep total ⟨sink, bufs⟩) (turns : ℕ → fs.Turn)
    (hfin : {n | WaitsAt fs build sink bufs turns n}.Finite) :
    ∃ n sink', writeAll fs build sink bufs turns n = Flow.leave (ClientEnd.done sink') ∧
      WroteAll total sink' := by
  have hends : ∀ n, (∃ c, writeAll fs build sink bufs turns n = Flow.again c ∧ InStep total c) ∨
      ∃ r, writeAll fs build sink bufs turns n = Flow.leave r ∧
        ∃ sink', r = ClientEnd.done sink' ∧ WroteAll total sink' := by
    refine loopAt_ends inv ?_
    intro c turn hc
    rcases inStep_pass build hwrites hrefuses htotal hc turn with
      ⟨c', hpass, hc', -⟩ | ⟨sink', hpass, hdone⟩
    · exact Or.inl ⟨c', hpass, hc'⟩
    · exact Or.inr ⟨_, hpass, sink', rfl, hdone⟩
  obtain ⟨n, r, hend⟩ : ∃ n r, writeAll fs build sink bufs turns n = Flow.leave r := by
    refine loopAt_terminates Client.size (WaitsAt fs build sink bufs turns) hfin ?_
    intro n c c' hc hpass hready
    rcases hends n with ⟨c₁, hc₁, hinv⟩ | ⟨r, hr, -⟩
    · obtain rfl := Flow.again.inj (hc₁.symm.trans hc)
      have hnot : c₁.waits (turns n) = false := by
        rw [← Bool.not_eq_true]
        exact fun hwaits => hready ⟨c₁, hc₁, hwaits⟩
      rcases inStep_pass build hwrites hrefuses htotal hinv (turns n) with
        ⟨c'', h, -, hless⟩ | ⟨s', h, -⟩
      · obtain rfl := Flow.again.inj (h.symm.trans hpass)
        exact hless hnot
      · exact absurd (h.symm.trans hpass) (by simp)
    · exact absurd (hr.symm.trans hc) (by simp)
  rcases hends n with ⟨c, hc, -⟩ | ⟨r', hr', sink', rfl, hdone⟩
  · exact absurd (hc.symm.trans hend) (by simp)
  · exact ⟨n, sink', hr', hdone⟩

end Pass

/-! ## Handles that do not -/

/-- Bytes are on their way to a handle opened for reading only. -/
structure Stuck {fs : AsyncFs} (c : Client fs) : Prop where
  readOnly : (fs.options c.sink.writer.handle).writable = false
  owed : fs.buffered c.sink.writer.handle ++ c.todo.flatten ≠ []

section Stuck

variable {fs : AsyncFs} (build : Build) {sink : BoundedFileSink (File fs.Handle)}

lemma stuck_flush (hrefuses : fs.RefusesWrites) (h : Stuck ⟨sink, []⟩) (turn : fs.Turn) :
    (∃ c', writePass fs build ⟨sink, []⟩ turn = Flow.again c' ∧ Stuck c') ∨
      ∃ err sink',
        writePass fs build ⟨sink, []⟩ turn = Flow.leave (ClientEnd.failed err sink') := by
  obtain ⟨f, ⟨hpoll, hoptions, howed⟩ | ⟨err, hpoll⟩⟩ :=
    hrefuses.pollFlush turn sink.writer h.readOnly (by simpa using h.owed)
  · refine Or.inl ⟨⟨{ sink with writer := f }, []⟩, ?_, ?_, by simpa using howed⟩
    · simp only [writePass, BoundedFileSink.pollFlush, hpoll]
    · rw [hoptions]
      exact h.readOnly
  · refine Or.inr ⟨err, { sink with writer := f }, ?_⟩
    simp only [writePass, BoundedFileSink.pollFlush, hpoll]

lemma stuck_write (hrefuses : fs.RefusesWrites) {b : UInt8} {bs : List UInt8}
    {rest : List (List UInt8)} (h : Stuck ⟨sink, (b :: bs) :: rest⟩) (turn : fs.Turn) :
    (∃ c', writePass fs build ⟨sink, (b :: bs) :: rest⟩ turn = Flow.again c' ∧ Stuck c') ∨
      (∃ err sink', writePass fs build ⟨sink, (b :: bs) :: rest⟩ turn
        = Flow.leave (ClientEnd.failed err sink')) ∨
      writePass fs build ⟨sink, (b :: bs) :: rest⟩ turn = Flow.leave ClientEnd.panicked := by
  obtain ⟨hoptions, howed⟩ :=
    hrefuses.pollWrite turn sink.writer (b :: bs) h.readOnly
  have hread : (fs.options sink.writer.handle).writable = false := h.readOnly
  generalize hpoll : fs.pollWrite turn sink.writer (b :: bs) = polled at hoptions howed
  obtain ⟨f, answer⟩ := polled
  rw [← hoptions] at hread
  cases answer with
  | pending =>
      refine Or.inl ⟨⟨{ sink with writer := f }, (b :: bs) :: rest⟩, ?_, hread, by simp⟩
      simp only [writePass, BoundedFileSink.pollWrite, hpoll]
  | ready res =>
      cases res with
      | error err =>
          refine Or.inr (Or.inl ⟨err, { sink with writer := f }, ?_⟩)
          simp only [writePass, BoundedFileSink.pollWrite, hpoll]
      | ok size =>
          cases hadd : addU64 build sink.currentLen (UInt64.ofNat size) with
          | none =>
              refine Or.inr (Or.inr ?_)
              simp only [writePass, BoundedFileSink.pollWrite, hpoll, hadd]
          | some len =>
              have hpass : writePass fs build ⟨sink, (b :: bs) :: rest⟩ turn
                  = if size = 0 then Flow.leave (ClientEnd.failed writeZero ⟨sink.option, len, f⟩)
                    else Flow.again ⟨⟨sink.option, len, f⟩, (b :: bs).drop size :: rest⟩ := by
                simp only [writePass, BoundedFileSink.pollWrite, hpoll, hadd]
              by_cases hzero : size = 0
              · exact Or.inr (Or.inl ⟨writeZero, _, hpass.trans (if_pos hzero)⟩)
              · have hqueue := (howed size rfl).resolve_left hzero
                refine Or.inl ⟨_, hpass.trans (if_neg hzero), hread, ?_⟩
                exact List.append_ne_nil_of_left_ne_nil hqueue _

/-- Such a client goes on, fails or panics; it is never done. -/
lemma stuck_pass (hrefuses : fs.RefusesWrites) {c : Client fs} (h : Stuck c) (turn : fs.Turn) :
    (∃ c', writePass fs build c turn = Flow.again c' ∧ Stuck c') ∨
      (∃ err sink', writePass fs build c turn = Flow.leave (ClientEnd.failed err sink')) ∨
      writePass fs build c turn = Flow.leave ClientEnd.panicked := by
  obtain ⟨sink, todo⟩ := c
  cases todo with
  | nil => exact (stuck_flush build hrefuses h turn).imp_right Or.inl
  | cons buf rest =>
      cases buf with
      | nil => exact Or.inl ⟨⟨sink, rest⟩, rfl, h.readOnly, h.owed⟩
      | cons b bs => exact stuck_write build hrefuses h turn

theorem writeAll_of_stuck (hrefuses : fs.RefusesWrites) {bufs : List (List UInt8)}
    (h : Stuck ⟨sink, bufs⟩) (turns : ℕ → fs.Turn) (n : ℕ)
    (sink' : BoundedFileSink (File fs.Handle)) :
    writeAll fs build sink bufs turns n ≠ Flow.leave (ClientEnd.done sink') := by
  intro hdone
  have hends : (∃ c, writeAll fs build sink bufs turns n = Flow.again c ∧ Stuck c) ∨
      ∃ r, writeAll fs build sink bufs turns n = Flow.leave r ∧
        ∀ sink', r ≠ ClientEnd.done sink' := by
    refine loopAt_ends h ?_ n
    intro c turn hc
    rcases stuck_pass build hrefuses hc turn with ⟨c', hpass, hc'⟩ | ⟨err, s, hpass⟩ | hpass
    · exact Or.inl ⟨c', hpass, hc'⟩
    · exact Or.inr ⟨_, hpass, by simp⟩
    · exact Or.inr ⟨_, hpass, by simp⟩
  rcases hends with ⟨c, hc, -⟩ | ⟨r, hr, hnot⟩
  · exact absurd (hc.symm.trans hdone) (by simp)
  · exact hnot sink' (Flow.leave.inj (hr.symm.trans hdone))

/-- The client's polls may all be answered. -/
lemma exists_finite_waitsAt (hanswers : fs.Answers) (sink : BoundedFileSink (File fs.Handle))
    (bufs : List (List UInt8)) : ∃ turns, {n | WaitsAt fs build sink bufs turns n}.Finite := by
  have hready : ∀ c : Client fs, ∃ turn, c.waits turn = false := by
    rintro ⟨s, todo⟩
    cases todo with
    | nil => exact hanswers.pollFlush s.writer
    | cons buf rest =>
        obtain ⟨turn, hturn⟩ := hanswers.pollWrite s.writer buf
        cases buf with
        | nil => exact ⟨turn, rfl⟩
        | cons b bs => exact ⟨turn, hturn⟩
  obtain ⟨turns, hturns⟩ := loopAt_exists_env (writePass fs build) hready ⟨sink, bufs⟩
  have hnone : {n | WaitsAt fs build sink bufs turns n} = ∅ := by
    rw [Set.eq_empty_iff_forall_notMem]
    rintro n ⟨c, hc, hwaits⟩
    rw [hturns n c hc] at hwaits
    exact absurd hwaits (by simp)
  exact ⟨turns, by rw [hnone]; exact Set.finite_empty⟩

end Stuck

/-! ## The three constructors -/

/-- What a constructor returns on an existing file: a handle on the base, nothing accepted yet, the
base counted.  All but `open_write` give one that writes at the end. -/
lemma Constructor.open_eq {fs : AsyncFs} (hopens : fs.Opens) (c : Constructor)
    (option : BoundedFileOption) (previous : FileContent) :
    ∃ sink, c.open fs (some previous.bytes) option = Except.ok sink ∧
      fs.due sink.writer = c.base previous.bytes ∧ fs.buffered sink.writer.handle = [] ∧
      sink.currentLen.toNat = (c.base previous.bytes).length ∧
      if c = Constructor.openWrite then (fs.options sink.writer.handle).writable = false
      else fs.AtEnd sink.writer := by
  cases c with
  | create =>
      obtain ⟨f, hopen, hfresh⟩ := hopens.fileCreate previous.bytes
      refine ⟨⟨option, 0, f⟩, ?_, hfresh.due, hfresh.buffered, rfl, ?_, Or.inr ?_⟩
      · simp only [Constructor.open, BoundedFileSink.create, hopen]
        rfl
      · rw [hfresh.options]
        rfl
      · rw [hfresh.writeAt, hfresh.due]
        rfl
  | openWrite =>
      obtain ⟨f, hopen, hfresh⟩ := hopens.fileOpen previous.bytes
      refine ⟨⟨option, previous.len, f⟩, ?_, hfresh.due, hfresh.buffered, previous.toNat_len, ?_⟩
      · simp only [Constructor.open, BoundedFileSink.openWrite, hopen, bind, Except.bind,
          hopens.metadataLen, hfresh.content]
        rfl
      · rw [if_pos rfl, hfresh.options]
        rfl
  | openAppend =>
      obtain ⟨f, hopen, hfresh⟩ := hopens.append { read := true, create := true, append := true }
        (some previous.bytes) rfl rfl (Or.inl rfl)
      refine ⟨⟨option, previous.len, f⟩, ?_, hfresh.due, hfresh.buffered, previous.toNat_len, ?_⟩
      · simp only [Constructor.open, BoundedFileSink.openAppend, openReadAppend, hopen, bind,
          Except.bind, hopens.metadataLen, hfresh.content]
        rfl
      · rw [if_neg (by simp)]
        exact AsyncFs.atEnd_of_append (by rw [hfresh.options])

/-- **The count agrees with the file, for every constructor but `open_write`**, and for that one
only as long as nothing is written.  The sum of the lengths is one the file system can hold. -/
theorem keepsLength_iff (fs : AsyncFs) (hopens : fs.Opens) (hwrites : fs.Writes)
    (hrefuses : fs.RefusesWrites) (hanswers : fs.Answers) (build : Build) (c : Constructor)
    (option : BoundedFileOption) (previous : FileContent) (bufs : List (List UInt8))
    (hfits : (c.base previous.bytes ++ bufs.flatten).length < 2 ^ 63) :
    KeepsLength fs build c option previous bufs ↔
      (c = Constructor.openWrite → bufs.flatten = []) := by
  obtain ⟨sink, hopen, hdue, hnil, hlen, hmode⟩ := c.open_eq hopens option previous
  constructor
  · rintro ⟨sink₁, hopen₁, hall⟩ rfl
    obtain rfl := Except.ok.inj (hopen.symm.trans hopen₁)
    by_contra hbytes
    have hstuck : Stuck ⟨sink, bufs⟩ :=
      ⟨by simpa using hmode, List.append_ne_nil_of_right_ne_nil _ hbytes⟩
    obtain ⟨turns, hturns⟩ := exists_finite_waitsAt build hanswers sink bufs
    obtain ⟨n, sink', hdone, -⟩ := hall turns hturns
    exact writeAll_of_stuck build hrefuses hstuck _ n sink' hdone
  · intro hcase
    refine ⟨sink, hopen, fun turns hfin => ?_⟩
    refine writeAll_of_inStep build hwrites hrefuses hfits ⟨?_, ?_, ?_⟩ turns hfin
    · by_cases hc : c = Constructor.openWrite
      · rw [if_pos hc] at hmode
        exact Or.inr ⟨hmode, hnil, hcase hc⟩
      · rw [if_neg hc] at hmode
        exact Or.inl hmode
    · show fs.due sink.writer ++ bufs.flatten = _
      rw [hdue]
    · show sink.currentLen.toNat = (fs.due sink.writer).length
      rw [hlen, hdue]

/-- Two buffers appended to a file of two bytes; with a byte taken at every poll, the fifth poll
ends it. -/
theorem keepsLength_append :
    KeepsLength queuedFs Build.debug Constructor.openAppend {} ⟨[0x61, 0x62], by decide⟩
      [[0x63], [0x64]] ∧
    ∃ sink sink', BoundedFileSink.openAppend queuedFs (some [0x61, 0x62]) {} = Except.ok sink ∧
      writeAll queuedFs Build.debug sink [[0x63], [0x64]] (fun _ => Turn.prompt 1) 5
        = Flow.leave (ClientEnd.done sink') ∧
      sink'.writer.content = [0x61, 0x62, 0x63, 0x64] ∧ sink'.currentLen = 4 := by
  refine ⟨?_, ⟨_, _, rfl, rfl, rfl, rfl⟩⟩
  exact (keepsLength_iff queuedFs queuedFs_opens queuedFs_writes queuedFs_refusesWrites
    queuedFs_answers Build.debug Constructor.openAppend {} _ _ (by decide)).mpr (by simp)

/-- A sink from `open_write` on a file of one byte: the byte written to it is counted, the flush
fails, and the file is what it was. -/
theorem openWrite_loses_bytes :
    ¬ KeepsLength queuedFs Build.release Constructor.openWrite {} ⟨[0x61], by decide⟩ [[0x62]] ∧
    ∃ sink sink', BoundedFileSink.openWrite queuedFs (some [0x61]) {} = Except.ok sink ∧
      writeAll queuedFs Build.release sink [[0x62]] (fun _ => Turn.prompt 1) 3
        = Flow.leave (ClientEnd.failed badFileDescriptor sink') ∧
      sink'.writer.content = [0x61] ∧ sink'.currentLen = 2 := by
  refine ⟨?_, ⟨_, _, rfl, rfl, rfl, rfl⟩⟩
  rintro ⟨sink, hopen, hall⟩
  have hstuck : Stuck ⟨sink, [[0x62]]⟩ := by
    rw [← Except.ok.inj hopen]
    exact ⟨rfl, by simp⟩
  obtain ⟨turns, hturns⟩ := exists_finite_waitsAt Build.release queuedFs_answers sink [[0x62]]
  obtain ⟨n, sink', hdone, -⟩ := hall turns hturns
  exact writeAll_of_stuck Build.release queuedFs_refusesWrites hstuck _ n sink' hdone

end FutureAio.Fs
