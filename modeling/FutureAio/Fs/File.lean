import FutureAio.Basic
import FutureAio.Lib.Window

/-!
# `async_fs`

`BoundedFileSink` writes through an `async_fs::File`, and `async_fs` is another crate.  `AsyncFs` is
what this one calls of it, and nothing is said here about how these functions work: a poll is a
function of the handle, the file, and whatever else decides its outcome (`Turn`).

Four observables let one speak about a handle: the options it was opened with, the bytes it has
accepted that are not in the file yet, and where its next write and its next read start.  In these
terms the documented behaviour is six hypotheses, and each result names those it rests on:

* `AsyncFs.Opens` — the three ways of opening a file, and `metadata`;
* `AsyncFs.Writes` — what a handle accepts reaches the file in order, at its end where the handle
  stands there or was opened for append, and a flush that succeeds waits for it;
* `AsyncFs.PassesOn` — it may do so between two polls too;
* `AsyncFs.RefusesWrites` — writing through a read-only handle fails, at the latest at the flush;
* `AsyncFs.Answers` — a poll need not be answered by `Pending`;
* `AsyncFs.Reads` — seeks and reads through a handle opened for append.

None of them lets the operating system raise a fault of its own.
-/

namespace FutureAio.Fs

open Window

/-- `async_fs::OpenOptions`; a flag that is not set is false. -/
structure OpenOptions where
  read : Bool := false
  write : Bool := false
  append : Bool := false
  truncate : Bool := false
  create : Bool := false
  deriving DecidableEq, Repr

def OpenOptions.writable (options : OpenOptions) : Bool := options.write || options.append

/-- `std::io::SeekFrom`; the offsets of the last two are `i64`. -/
inductive SeekFrom where
  | Start (offset : UInt64)
  | End (offset : ℤ)
  | Current (offset : ℤ)
  deriving DecidableEq, Repr

/-- Where a seek leads that was answered by `Ok`: to the offset it asked for if it gave one, and
else to the one in the answer. -/
def SeekFrom.destination (answered : ℕ) : SeekFrom → ℕ
  | SeekFrom.Start offset => offset.toNat
  | _ => answered

/-- A handle, and the bytes of the file it is open on. -/
structure File (Handle : Type) where
  content : List UInt8
  handle : Handle
  deriving DecidableEq, Repr

/-- What the crate uses of `async_fs`.  The functions that open a file are given its content, if
there is a file. -/
structure AsyncFs where
  Handle : Type
  Turn : Type
  /-- `File::create` -/
  fileCreate : Option (List UInt8) → Except IoError (File Handle)
  /-- `File::open` -/
  fileOpen : Option (List UInt8) → Except IoError (File Handle)
  /-- `OpenOptions::open` -/
  openWith : OpenOptions → Option (List UInt8) → Except IoError (File Handle)
  /-- `File::metadata`, of which only the length is used -/
  metadataLen : File Handle → Except IoError UInt64
  /-- `AsyncWrite::poll_write` for `File` -/
  pollWrite : Turn → File Handle → List UInt8 → File Handle × Poll (Except IoError ℕ)
  /-- `AsyncWrite::poll_flush` for `File` -/
  pollFlush : Turn → File Handle → File Handle × Poll (Except IoError Unit)
  /-- `AsyncSeek::poll_seek` for `File` -/
  pollSeek : Turn → SeekFrom → File Handle → File Handle × Poll (Except IoError ℕ)
  /-- `AsyncRead::poll_read` for `File`, with a buffer of so many bytes -/
  pollRead : Turn → ℕ → File Handle → File Handle × Poll (Except IoError (List UInt8))
  /-- what happens between two polls -/
  work : Turn → File Handle → File Handle
  options : Handle → OpenOptions
  /-- accepted by a write, and not yet in the file -/
  buffered : Handle → List UInt8
  /-- where the next byte written goes, unless opened for append -/
  writeAt : Handle → ℕ
  /-- where the next read starts, as far as that is settled -/
  readAt : Handle → Option ℕ

namespace AsyncFs

variable (fs : AsyncFs)

/-- What the file will hold once everything the handle has accepted is in it. -/
def due (f : File fs.Handle) : List UInt8 := f.content ++ fs.buffered f.handle

/-- What is written next goes to the end of the file. -/
structure AtEnd (f : File fs.Handle) : Prop where
  writable : (fs.options f.handle).writable = true
  atEnd : (fs.options f.handle).append = true ∨ fs.writeAt f.handle = (fs.due f).length

/-- From `f` to `f'` the handle has accepted `bytes` and nothing else; some of what it had accepted
may have reached the file. -/
structure Lands (f f' : File fs.Handle) (bytes : List UInt8) : Prop where
  options : fs.options f'.handle = fs.options f.handle
  grown : f.content <+: f'.content
  due : fs.due f' = fs.due f ++ bytes
  writeAt : (fs.options f.handle).append = false →
    fs.writeAt f'.handle = fs.writeAt f.handle + bytes.length

/-- A handle just opened. -/
structure Fresh (options : OpenOptions) (content : List UInt8) (f : File fs.Handle) : Prop where
  options : fs.options f.handle = options
  content : f.content = content
  buffered : fs.buffered f.handle = []
  writeAt : fs.writeAt f.handle = 0

/-- How files are opened: `File::create` for writing only, and truncated; `File::open` for reading
only; for append with the content left as it is. -/
structure Opens : Prop where
  fileCreate : ∀ previous, ∃ f, fs.fileCreate (some previous) = Except.ok f ∧
    fs.Fresh { write := true, create := true, truncate := true } [] f
  fileOpen : ∀ previous, ∃ f, fs.fileOpen (some previous) = Except.ok f ∧
    fs.Fresh { read := true } previous f
  append : ∀ options disk, options.append = true → options.truncate = false →
    options.create = true ∨ disk.isSome = true →
      ∃ f, fs.openWith options disk = Except.ok f ∧ fs.Fresh options (disk.getD []) f
  metadataLen : ∀ f, fs.metadataLen f = Except.ok (UInt64.ofNat f.content.length)

/-- Writing at the end of the file. -/
structure Writes : Prop where
  pollWrite : ∀ turn f buf, fs.AtEnd f →
    (∃ f', fs.pollWrite turn f buf = (f', Poll.pending) ∧ fs.Lands f f' []) ∨
      ∃ f' size, (buf ≠ [] → 0 < size) ∧ size ≤ buf.length ∧
        fs.pollWrite turn f buf = (f', Poll.ready (Except.ok size)) ∧
        fs.Lands f f' (buf.take size)
  pollFlush : ∀ turn f, fs.AtEnd f → ∃ f', fs.Lands f f' [] ∧
    (fs.pollFlush turn f = (f', Poll.pending) ∨
      fs.pollFlush turn f = (f', Poll.ready (Except.ok ())) ∧ fs.buffered f'.handle = [])

/-- Between two polls nothing happens but that bytes reach the end of the file; a read that has its
place keeps it. -/
structure PassesOn : Prop where
  lands : ∀ turn f, fs.AtEnd f → fs.Lands f (fs.work turn f) []
  readAt : ∀ turn f c, fs.AtEnd f → fs.readAt f.handle = some c →
    fs.readAt (fs.work turn f).handle = some c

/-- Writing through a handle that may not.  A write may be accepted, but what is accepted stays out
of the file until a flush has failed; with nothing to fail for, a flush does not. -/
structure RefusesWrites : Prop where
  pollWrite : ∀ turn f buf, (fs.options f.handle).writable = false →
    fs.options (fs.pollWrite turn f buf).1.handle = fs.options f.handle ∧
      ∀ size, (fs.pollWrite turn f buf).2 = Poll.ready (Except.ok size) →
        size = 0 ∨ fs.buffered (fs.pollWrite turn f buf).1.handle ≠ []
  pollFlush : ∀ turn f, (fs.options f.handle).writable = false → fs.buffered f.handle ≠ [] →
    ∃ f', (fs.pollFlush turn f = (f', Poll.pending) ∧
        fs.options f'.handle = fs.options f.handle ∧ fs.buffered f'.handle ≠ []) ∨
      ∃ err, fs.pollFlush turn f = (f', Poll.ready (Except.error err))
  idle : ∀ turn f, (fs.options f.handle).writable = false → fs.buffered f.handle = [] →
    ∃ f', fs.options f'.handle = fs.options f.handle ∧ fs.due f' = fs.due f ∧
      fs.buffered f'.handle = [] ∧
      (fs.pollFlush turn f = (f', Poll.pending) ∨
        fs.pollFlush turn f = (f', Poll.ready (Except.ok ())))

/-- It can always happen that a write or a flush is answered at once. -/
structure Answers : Prop where
  pollWrite : ∀ f buf, ∃ turn, (fs.pollWrite turn f buf).2.isPending = false
  pollFlush : ∀ f, ∃ turn, (fs.pollFlush turn f).2.isPending = false

/-- Reading through a handle that is opened for append as well.  A seek or a read changes nothing in
the file; a read gives the bytes from the place where it starts on, what the handle itself has
accepted included, at least one unless there is none, and the next one goes on from there; while it
is pending it keeps its place. -/
structure Reads : Prop where
  pollSeek : ∀ turn pos f, (fs.options f.handle).append = true →
    fs.Lands f (fs.pollSeek turn pos f).1 [] ∧
      ∀ o, (fs.pollSeek turn pos f).2 = Poll.ready (Except.ok o) →
        fs.readAt (fs.pollSeek turn pos f).1.handle = some (pos.destination o)
  pollRead : ∀ turn n f, (fs.options f.handle).append = true →
    (fs.options f.handle).read = true →
      fs.Lands f (fs.pollRead turn n f).1 [] ∧
        ∀ c answer, fs.readAt f.handle = some c →
          (fs.pollRead turn n f).2 = Poll.ready answer →
            ∃ bytes k, answer = Except.ok bytes ∧ bytes = window (fs.due f) c k ∧ k ≤ n ∧
              (0 < n → 0 < k) ∧
              fs.readAt (fs.pollRead turn n f).1.handle = some (c + bytes.length)
  pending : ∀ turn n f c, (fs.options f.handle).append = true → fs.readAt f.handle = some c →
    (fs.pollRead turn n f).2 = Poll.pending →
      fs.readAt (fs.pollRead turn n f).1.handle = some c

variable {fs}

lemma Fresh.due {options : OpenOptions} {content : List UInt8} {f : File fs.Handle}
    (h : fs.Fresh options content f) : fs.due f = content := by
  rw [AsyncFs.due, h.content, h.buffered, List.append_nil]

/-- Whoever stands at the end of the file still does after a write. -/
lemma Lands.atEnd {f f' : File fs.Handle} {bytes : List UInt8} (h : fs.Lands f f' bytes)
    (hend : fs.AtEnd f) : fs.AtEnd f' := by
  refine ⟨by rw [h.options, hend.writable], ?_⟩
  rw [h.options]
  cases happ : (fs.options f.handle).append with
  | true => exact Or.inl rfl
  | false =>
      have hat : fs.writeAt f.handle = (fs.due f).length :=
        hend.atEnd.resolve_left (by simp [happ])
      right
      rw [h.writeAt happ, h.due, List.length_append, hat]

lemma atEnd_of_append {f : File fs.Handle} (h : (fs.options f.handle).append = true) :
    fs.AtEnd f :=
  ⟨by simp [OpenOptions.writable, h], Or.inl h⟩

end AsyncFs

/-- `util::open_read_append`. -/
def openReadAppend (fs : AsyncFs) (disk : Option (List UInt8)) :
    Except IoError (File fs.Handle) :=
  fs.openWith { read := true, create := true, append := true } disk

end FutureAio.Fs
