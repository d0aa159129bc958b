import FutureAio.Fs.File
import Mathlib.Algebra.Ring.Int.Defs

/-!
# A file with a queue

One `AsyncFs` that meets every hypothesis of `FutureAio.Fs.File`, and that runs: a write copies
bytes into a queue, a worker passes them on to the descriptor later, and a flush, a seek or a read
waits for it.  A write that the descriptor refuses, because it was opened without the right to
write, is accepted first and reported afterwards: by a later write, or at the latest by the flush.

No result about the sink is about this file; it is here to run examples of them.
-/

namespace FutureAio.Fs

open Window

structure Queued where
  options : OpenOptions
  cursor : ℕ
  /-- accepted from the writer, not yet passed on by the worker -/
  queue : List UInt8
  /-- the worker's write was refused -/
  refused : Bool
  deriving DecidableEq, Repr

/-- What happens until a poll is answered. -/
structure Turn where
  /-- the poll is answered by `Pending` -/
  pending : Bool
  /-- how many bytes the worker passes on first -/
  drain : ℕ
  /-- how many bytes there is room for -/
  room : ℕ
  /-- a refusal is reported by this write, rather than by answering `Ok(0)` -/
  report : Bool
  /-- a seek that is answered by `Pending` has been started, and so takes place -/
  started : Bool
  deriving DecidableEq, Repr

/-- The poll is answered at once, and there is room for `room` bytes. -/
def Turn.prompt (room : ℕ) : Turn := ⟨false, 0, room, true, false⟩

def notFound : IoError := ⟨ErrorKind.NotFound, "No such file or directory (os error 2)"⟩

def badFileDescriptor : IoError := ⟨ErrorKind.os 9, "Bad file descriptor (os error 9)"⟩

def invalidArgument : IoError := ⟨ErrorKind.InvalidInput, "Invalid argument (os error 22)"⟩

/-- Flags that `open` refuses whatever the file: no access at all, creating or truncating without
the right to write, truncating what is opened for append. -/
def OpenOptions.invalid (options : OpenOptions) : Bool :=
  (!options.read && !options.writable) ||
    (!options.writable && (options.truncate || options.create)) ||
    (options.append && options.truncate)

def OpenOptions.open (options : OpenOptions) (disk : Option (List UInt8)) :
    Except IoError (File Queued) :=
  if options.invalid then Except.error invalidArgument
  else
    match disk with
    | none =>
        if options.create then Except.ok ⟨[], options, 0, [], false⟩ else Except.error notFound
    | some content =>
        Except.ok ⟨if options.truncate then [] else content, options, 0, [], false⟩

namespace Queued

/-- `write(2)`: at the end of the file when opened for append, else at the cursor, with zeros
filling a gap before it. -/
def write (f : File Queued) (bytes : List UInt8) : File Queued :=
  let start := if f.handle.options.append then f.content.length else f.handle.cursor
  { content := overwrite (resize f.content (max f.content.length start) 0) start bytes
    handle := { f.handle with cursor := start + bytes.length } }

/-- The worker passes on up to `k` queued bytes. -/
def drain (k : ℕ) (f : File Queued) : File Queued :=
  if f.handle.queue.take k = [] then f
  else if f.handle.options.writable then
    let f' := write f (f.handle.queue.take k)
    { f' with handle := { f'.handle with queue := f.handle.queue.drop k } }
  else { f with handle := { f.handle with refused := true } }

def pollWrite (turn : Turn) (f : File Queued) (buf : List UInt8) :
    File Queued × Poll (Except IoError ℕ) :=
  let f' := drain turn.drain f
  if turn.pending then (f', Poll.pending)
  else if !f'.handle.options.writable && f'.handle.refused then
    (f', Poll.ready (if turn.report then Except.error badFileDescriptor else Except.ok 0))
  else
    let size := min buf.length (max 1 turn.room)
    ({ f' with handle := { f'.handle with queue := f'.handle.queue ++ buf.take size } },
      Poll.ready (Except.ok size))

/-- Waiting for the worker to be done with the queue; a refusal is reported here. -/
def settle (f : File Queued) : File Queued × Option IoError :=
  if !f.handle.options.writable && !f.handle.queue.isEmpty then
    ({ f with handle := { f.handle with queue := [], refused := false } }, some badFileDescriptor)
  else (drain f.handle.queue.length f, none)

def pollFlush (turn : Turn) (f : File Queued) : File Queued × Poll (Except IoError Unit) :=
  if turn.pending then (drain turn.drain f, Poll.pending)
  else
    match settle f with
    | (f', some err) => (f', Poll.ready (Except.error err))
    | (f', none) => (f', Poll.ready (Except.ok ()))

/-- The longest file that ext4 with blocks of 4 KiB can hold. -/
def maxBytes : ℤ := 2 ^ 44 - 2 ^ 12

def target (f : File Queued) : SeekFrom → ℤ
  | SeekFrom.Start offset => offset.toNat
  | SeekFrom.End offset => f.content.length + offset
  | SeekFrom.Current offset => f.handle.cursor + offset

/-- `lseek(2)`: any position that a file can have, beyond the end of this one too. -/
def seek (pos : SeekFrom) (f : File Queued) : File Queued × Except IoError ℕ :=
  if 0 ≤ target f pos ∧ target f pos ≤ maxBytes then
    ({ f with handle := { f.handle with cursor := (target f pos).toNat } },
      Except.ok (target f pos).toNat)
  else (f, Except.error invalidArgument)

/-- `read(2)` into a buffer of `n` bytes. -/
def read (n : ℕ) (f : File Queued) : File Queued × Except IoError (List UInt8) :=
  if f.handle.options.read then
    let bytes := window f.content f.handle.cursor n
    ({ f with handle := { f.handle with cursor := f.handle.cursor + bytes.length } },
      Except.ok bytes)
  else (f, Except.error badFileDescriptor)

def pollSeek (turn : Turn) (pos : SeekFrom) (f : File Queued) :
    File Queued × Poll (Except IoError ℕ) :=
  if turn.pending && !turn.started then (drain turn.drain f, Poll.pending)
  else
    match settle f with
    | (f', some err) => (f', Poll.ready (Except.error err))
    | (f', none) =>
        ((seek pos f').1, if turn.pending then Poll.pending else Poll.ready (seek pos f').2)

def pollRead (turn : Turn) (n : ℕ) (f : File Queued) :
    File Queued × Poll (Except IoError (List UInt8)) :=
  if turn.pending then (drain turn.drain f, Poll.pending)
  else
    match settle f with
    | (f', some err) => (f', Poll.ready (Except.error err))
    | (f', none) =>
        ((read (min n (max 1 turn.room)) f').1,
          Poll.ready (read (min n (max 1 turn.room)) f').2)

end Queued

abbrev queuedFs : AsyncFs where
  Handle := Queued
  Turn := Turn
  fileCreate := OpenOptions.open { write := true, create := true, truncate := true }
  fileOpen := OpenOptions.open { read := true }
  openWith := OpenOptions.open
  metadataLen f := Except.ok (UInt64.ofNat f.content.length)
  pollWrite := Queued.pollWrite
  pollFlush := Queued.pollFlush
  pollSeek := Queued.pollSeek
  pollRead := Queued.pollRead
  work turn := Queued.drain turn.drain
  options := Queued.options
  buffered := Queued.queue
  writeAt h := h.cursor + h.queue.length
  readAt h := if h.queue = [] then some h.cursor else none

/-! ## It is as documented -/

theorem queuedFs_opens : queuedFs.Opens where
  fileCreate _ := ⟨_, rfl, rfl, rfl, rfl, rfl⟩
  fileOpen _ := ⟨_, rfl, rfl, rfl, rfl, rfl⟩
  append options disk happ htrunc hthere := by
    have hvalid : options.invalid = false := by
      simp [OpenOptions.invalid, OpenOptions.writable, happ, htrunc]
    cases disk with
    | none =>
        have hcreate : options.create = true := by simpa using hthere
        refine ⟨⟨[], options, 0, [], false⟩, ?_, rfl, rfl, rfl, rfl⟩
        simp [queuedFs, OpenOptions.open, hvalid, hcreate]
    | some content =>
        refine ⟨⟨content, options, 0, [], false⟩, ?_, rfl, rfl, rfl, rfl⟩
        simp [queuedFs, OpenOptions.open, hvalid, htrunc]
  metadataLen _ := rfl

namespace Queued

variable {f : File Queued}

lemma write_of_atEnd (h : queuedFs.AtEnd f) (bytes : List UInt8) :
    write f bytes = ⟨f.content ++ bytes,
      { f.handle with cursor := f.content.length + bytes.length }⟩ := by
  have hstart : (if f.handle.options.append then f.content.length else f.handle.cursor)
      = f.content.length := by
    rcases h.atEnd with happ | hat
    · exact if_pos happ
    · have hcursor : f.handle.cursor = f.content.length := by
        simpa [AsyncFs.due, queuedFs] using hat
      rw [hcursor, ite_self]
  simp [write, hstart]

lemma drain_of_queue_nil (h : f.handle.queue = []) (k : ℕ) : drain k f = f :=
  if_pos (by rw [h, List.take_nil])

/-- A reader has its place only when the queue is empty. -/
lemma readAt_drain {c : ℕ} (h : queuedFs.readAt f.handle = some c) (k : ℕ) :
    queuedFs.readAt (drain k f).handle = some c := by
  by_cases hnil : f.handle.queue = []
  · rwa [drain_of_queue_nil hnil]
  · simp [hnil] at h

lemma drain_options (k : ℕ) (f : File Queued) :
    (drain k f).handle.options = f.handle.options := by
  unfold drain
  split_ifs <;> rfl

/-- The worker moves bytes from the queue to the end of the file and does nothing else. -/
lemma drain_lands (h : queuedFs.AtEnd f) (k : ℕ) :
    queuedFs.Lands f (drain k f) [] ∧ (drain k f).handle.queue = f.handle.queue.drop k := by
  by_cases hidle : f.handle.queue.take k = []
  · have hdrop : f.handle.queue.drop k = f.handle.queue := by
      conv_rhs => rw [← List.take_append_drop k f.handle.queue, hidle, List.nil_append]
    rw [drain, if_pos hidle, hdrop]
    exact ⟨⟨rfl, List.prefix_refl _, by simp, by simp⟩, rfl⟩
  · have hwritable : f.handle.options.writable = true := h.writable
    rw [drain, if_neg hidle, if_pos hwritable, write_of_atEnd h]
    refine ⟨⟨rfl, List.prefix_append _ _, by simp [AsyncFs.due, queuedFs], ?_⟩, rfl⟩
    intro happ
    have hat := h.atEnd.resolve_left (by rw [happ]; simp)
    have hlen := congrArg List.length (List.take_append_drop k f.handle.queue)
    simp only [AsyncFs.due, queuedFs, List.length_append] at hat hlen ⊢
    simp only [List.length_nil]
    omega

lemma settle_of_writable (h : f.handle.options.writable = true) :
    settle f = (drain f.handle.queue.length f, none) := by
  simp [settle, h]

/-- The worker is done: everything is in the file. -/
lemma settle_lands (h : queuedFs.AtEnd f) :
    ∃ f', settle f = (f', none) ∧ queuedFs.Lands f f' [] ∧ f'.handle.queue = [] ∧
      (f.handle.queue = [] → f' = f) := by
  obtain ⟨hlands, hqueue⟩ := drain_lands h f.handle.queue.length
  rw [List.drop_length] at hqueue
  exact ⟨_, settle_of_writable h.writable, hlands, hqueue, fun hnil => drain_of_queue_nil hnil _⟩

lemma pollWrite_lands (turn : Turn) (h : queuedFs.AtEnd f) (buf : List UInt8) :
    (∃ f', pollWrite turn f buf = (f', Poll.pending) ∧ queuedFs.Lands f f' []) ∨
      ∃ f' size, (buf ≠ [] → 0 < size) ∧ size ≤ buf.length ∧
        pollWrite turn f buf = (f', Poll.ready (Except.ok size)) ∧
        queuedFs.Lands f f' (buf.take size) := by
  obtain ⟨hlands, -⟩ := drain_lands h turn.drain
  have hwritable : (drain turn.drain f).handle.options.writable = true := by
    rw [drain_options]
    exact h.writable
  by_cases hpend : turn.pending = true
  · exact Or.inl ⟨_, if_pos hpend, hlands⟩
  · have hpos : buf ≠ [] → 0 < min buf.length (max 1 turn.room) := by
      intro hbuf
      have := List.length_pos_iff.mpr hbuf
      omega
    have hpoll : pollWrite turn f buf =
        (⟨(drain turn.drain f).content, { (drain turn.drain f).handle with
          queue := (drain turn.drain f).handle.queue ++
            buf.take (min buf.length (max 1 turn.room)) }⟩,
          Poll.ready (Except.ok (min buf.length (max 1 turn.room)))) := by
      simp [pollWrite, hpend, hwritable]
    refine Or.inr ⟨_, _, hpos, by omega, hpoll, hlands.options, hlands.grown, ?_, ?_⟩
    · have hdue := hlands.due
      simp only [AsyncFs.due, List.append_nil] at hdue ⊢
      rw [← List.append_assoc, hdue]
    · intro happ
      have hat := hlands.writeAt happ
      simp only [List.length_append, List.length_nil] at hat ⊢
      omega

lemma pollFlush_lands (turn : Turn) (h : queuedFs.AtEnd f) : ∃ f', queuedFs.Lands f f' [] ∧
    (pollFlush turn f = (f', Poll.pending) ∨
      pollFlush turn f = (f', Poll.ready (Except.ok ())) ∧ f'.handle.queue = []) := by
  by_cases hpend : turn.pending = true
  · exact ⟨_, (drain_lands h turn.drain).1, Or.inl (if_pos hpend)⟩
  · obtain ⟨f', hsettle, hlands, hqueue, -⟩ := settle_lands h
    refine ⟨f', hlands, Or.inr ⟨?_, hqueue⟩⟩
    simp [pollFlush, hpend, hsettle]

/-- On a handle opened for reading only, the worker gets nowhere. -/
lemma drain_of_readOnly (h : f.handle.options.writable = false) (k : ℕ) :
    (drain k f).handle.queue = f.handle.queue := by
  unfold drain
  split_ifs with _ hwritable
  · rfl
  · rw [h] at hwritable
    exact absurd hwritable (by simp)
  · rfl

lemma pollWrite_of_readOnly (turn : Turn) (h : f.handle.options.writable = false)
    (buf : List UInt8) :
    (pollWrite turn f buf).1.handle.options = f.handle.options ∧
      ∀ size, (pollWrite turn f buf).2 = Poll.ready (Except.ok size) →
        size = 0 ∨ (pollWrite turn f buf).1.handle.queue ≠ [] := by
  have hoptions := drain_options turn.drain f
  cases hpend : turn.pending with
  | true => simp [pollWrite, hpend, hoptions]
  | false =>
      cases hrefused : (drain turn.drain f).handle.refused with
      | true => cases hreport : turn.report <;>
          simp [pollWrite, hpend, hrefused, h, hreport, hoptions]
      | false => by_cases hbuf : buf = [] <;> simp [pollWrite, hpend, hrefused, hoptions, hbuf]

lemma pollFlush_of_readOnly (turn : Turn) (h : f.handle.options.writable = false)
    (howed : f.handle.queue ≠ []) :
    ∃ f', (pollFlush turn f = (f', Poll.pending) ∧
        f'.handle.options = f.handle.options ∧ f'.handle.queue ≠ []) ∨
      ∃ err, pollFlush turn f = (f', Poll.ready (Except.error err)) := by
  by_cases hpend : turn.pending = true
  · refine ⟨_, Or.inl ⟨if_pos hpend, drain_options _ _, ?_⟩⟩
    rw [drain_of_readOnly h]
    exact howed
  · refine ⟨⟨f.content, { f.handle with queue := [], refused := false }⟩,
      Or.inr ⟨badFileDescriptor, ?_⟩⟩
    simp [pollFlush, hpend, settle, h, howed]

lemma pollFlush_of_queue_nil (turn : Turn) (h : f.handle.queue = []) :
    pollFlush turn f = (f, Poll.pending) ∨ pollFlush turn f = (f, Poll.ready (Except.ok ())) := by
  by_cases hpend : turn.pending = true
  · exact Or.inl (by simp [pollFlush, hpend, drain_of_queue_nil h])
  · exact Or.inr (by simp [pollFlush, hpend, settle, h, drain_of_queue_nil h])

end Queued

theorem queuedFs_writes : queuedFs.Writes where
  pollWrite turn _ buf hend := Queued.pollWrite_lands turn hend buf
  pollFlush turn _ hend := Queued.pollFlush_lands turn hend

theorem queuedFs_passesOn : queuedFs.PassesOn where
  lands turn _ hend := (Queued.drain_lands hend turn.drain).1
  readAt turn _ _ _ hat := Queued.readAt_drain hat turn.drain

theorem queuedFs_refusesWrites : queuedFs.RefusesWrites where
  pollWrite turn _ buf hread := Queued.pollWrite_of_readOnly turn hread buf
  pollFlush turn _ hread howed := Queued.pollFlush_of_readOnly turn hread howed
  idle turn f _ hnil := ⟨f, rfl, rfl, hnil, Queued.pollFlush_of_queue_nil turn hnil⟩

theorem queuedFs_answers : queuedFs.Answers := by
  refine ⟨fun f buf => ⟨Turn.prompt 1, ?_⟩, fun f => ⟨Turn.prompt 1, ?_⟩⟩
  · simp only [Queued.pollWrite, Turn.prompt, Bool.false_eq_true, if_false]
    split_ifs <;> rfl
  · simp only [Queued.pollFlush, Queued.settle, Turn.prompt, Bool.false_eq_true, if_false]
    split_ifs <;> rfl

end FutureAio.Fs
