import FutureAio.Fs.Guarded

/-!
# An append sink that is also read

`BoundedFileSink::open_append` opens the file for reading too, and `mut_inner` hands out the file
behind the sink.  Whoever seeks and reads there moves the cursor that the sink's writes share; the
handle was opened for append, so the writes do not care.

* `AppendOp`, `appendStep` — polls of the sink's writes and flushes, and of seeks and reads through
  `mut_inner`, in any order, with whatever the file does between them.
* `AppendRun` — the sink, and a record of the run: the buffers written, whether all of them have
  been flushed, and what has been read since the last seek.

`AppendInv` relates the two, and `append_sink_in_step` reads it off: after a flush the file is what
it was before with all buffers behind it, the count is its length, and a reader sees its bytes.
-/

namespace FutureAio.Fs

open RustInt Runs Window

inductive AppendOp (fs : AsyncFs) where
  /-- start on the next buffer -/
  | start (buf : List UInt8)
  /-- `poll_write` with what is left of it -/
  | write (turn : fs.Turn)
  | flush (turn : fs.Turn)
  | seek (pos : SeekFrom) (turn : fs.Turn)
  | read (n : ℕ) (turn : fs.Turn)
  /-- what happens between two polls -/
  | work (turn : fs.Turn)

structure AppendRun (fs : AsyncFs) where
  sink : BoundedFileSink (File fs.Handle)
  buffers : List (List UInt8)
  /-- what is left of the last buffer -/
  rest : List UInt8
  /-- a flush has been answered, and nothing has been written since -/
  flushed : Bool
  /-- the offset of the last seek, and the bytes read since; nothing after a write, or after a seek
  that failed or was not awaited -/
  since : Option (ℕ × List UInt8)

variable {fs : AsyncFs}

/-- The handle was polled for a flush, which need not leave a reader its place: the record of what
was read stands as long as the next read still goes on from there. -/
def AppendRun.polled (s : AppendRun fs) (sink : BoundedFileSink (File fs.Handle)) : AppendRun fs :=
  { s with
    sink := sink
    since := s.since.filter fun p => fs.readAt sink.writer.handle = some (p.1 + p.2.length) }

/-- One poll; `none` is an addition that panics. -/
def appendStep (fs : AsyncFs) (build : Build) (s : AppendRun fs) :
    AppendOp fs → Option (AppendRun fs)
  | AppendOp.start buf =>
      some { s with buffers := s.buffers ++ [buf], rest := buf, flushed := false }
  | AppendOp.write turn =>
      if s.rest = [] then some s
      else
        (s.sink.pollWrite build (fs.pollWrite turn) s.rest).map fun r =>
          { s with sink := r.1, rest := s.rest.drop (taken r.2), flushed := false, since := none }
  | AppendOp.flush turn =>
      let r := s.sink.pollFlush (fs.pollFlush turn)
      match r.2 with
      | Poll.pending => some (s.polled r.1)
      | Poll.ready (Except.ok ()) => some { s.polled r.1 with flushed := true }
      | Poll.ready (Except.error _) => some { s.polled r.1 with flushed := false }
  | AppendOp.seek pos turn =>
      let r := fs.pollSeek turn pos s.sink.writer
      let sink := { s.sink with writer := r.1 }
      match r.2 with
      | Poll.ready (Except.ok o) =>
          some { s with sink := sink, since := some (pos.destination o, []) }
      | _ => some { s with sink := sink, since := none }
  | AppendOp.read n turn =>
      let r := fs.pollRead turn n s.sink.writer
      let sink := { s.sink with writer := r.1 }
      match r.2 with
      | Poll.ready (Except.ok bytes) =>
          some { s with sink := sink, since := s.since.map fun p => (p.1, p.2 ++ bytes) }
      | Poll.pending => some { s with sink := sink }
      | Poll.ready (Except.error _) => some { s with sink := sink, since := none }
  | AppendOp.work turn =>
      some { s with sink := { s.sink with writer := fs.work turn s.sink.writer } }

/-- A buffer is started on when the one before it has been accepted in full, and the file with it
stays within what an `off_t` can count. -/
def AppendOp.Lawful (previous : List UInt8) (s : AppendRun fs) : AppendOp fs → Prop
  | AppendOp.start buf =>
      s.rest = [] ∧ (previous ++ s.buffers.flatten ++ buf).length < 2 ^ 63
  | _ => True

/-- The flags of `open_read_append`. -/
def appendOptions : OpenOptions := { read := true, create := true, append := true }

/-- What the record of a run says about the file. -/
structure AppendInv (previous : List UInt8) (s : AppendRun fs) : Prop where
  options : fs.options s.sink.writer.handle = appendOptions
  bytes : fs.due s.sink.writer ++ s.rest = previous ++ s.buffers.flatten
  len : s.sink.currentLen.toNat = (fs.due s.sink.writer).length
  fits : (previous ++ s.buffers.flatten).length < 2 ^ 63
  flushed : s.flushed = true → fs.buffered s.sink.writer.handle = []
  since : ∀ o got, s.since = some (o, got) →
    fs.readAt s.sink.writer.handle = some (o + got.length) ∧
      got = window (fs.due s.sink.writer) o got.length

/-- A step that keeps the record true, and only adds to the buffers and to the file. -/
structure Advances (previous : List UInt8) (s s' : AppendRun fs) : Prop where
  inv : AppendInv previous s'
  buffers : s.buffers <+: s'.buffers
  content : s.sink.writer.content <+: s'.sink.writer.content

/-- A handle with nothing left to pass on has nothing left after it accepted nothing. -/
lemma AsyncFs.Lands.buffered_nil {f f' : File fs.Handle} (h : fs.Lands f f' [])
    (hnil : fs.buffered f.handle = []) : fs.buffered f'.handle = [] := by
  have hdue := congrArg List.length h.due
  have hgrown := h.grown.length_le
  simp only [AsyncFs.due, hnil, List.append_nil, List.length_append] at hdue
  exact List.length_eq_zero_iff.mp (by omega)

section Step

variable {previous : List UInt8} {s : AppendRun fs}

lemma AppendInv.append (inv : AppendInv previous s) :
    (fs.options s.sink.writer.handle).append = true := by
  rw [inv.options]
  rfl

lemma AppendInv.readable (inv : AppendInv previous s) :
    (fs.options s.sink.writer.handle).read = true := by
  rw [inv.options]
  rfl

lemma AppendInv.atEnd (inv : AppendInv previous s) : fs.AtEnd s.sink.writer :=
  AsyncFs.atEnd_of_append inv.append

/-- With nothing left to write, the file is due all buffers. -/
lemma AppendInv.due_eq (inv : AppendInv previous s) (hrest : s.rest = []) :
    fs.due s.sink.writer = previous ++ s.buffers.flatten := by
  have hbytes := inv.bytes
  rwa [hrest, List.append_nil] at hbytes

/-- A poll that accepts nothing leaves what the file is due, whatever it does to the reader. -/
lemma AppendInv.keep (inv : AppendInv previous s) {f : File fs.Handle}
    (hlands : fs.Lands s.sink.writer f []) {flushed : Bool}
    (hflushed : flushed = true → s.flushed = true ∨ fs.buffered f.handle = [])
    {since : Option (ℕ × List UInt8)}
    (hsince : ∀ o got, since = some (o, got) → fs.readAt f.handle = some (o + got.length) ∧
      got = window (fs.due s.sink.writer) o got.length) :
    Advances previous s
      { s with sink := { s.sink with writer := f }, flushed := flushed, since := since } := by
  have hdue : fs.due f = fs.due s.sink.writer := by rw [hlands.due, List.append_nil]
  refine ⟨⟨hlands.options.trans inv.options, ?_, ?_, inv.fits, ?_, ?_⟩, List.prefix_refl _,
    hlands.grown⟩
  · rw [hdue]
    exact inv.bytes
  · rw [hdue]
    exact inv.len
  · intro h
    rcases hflushed h with hbefore | hnow
    · exact hlands.buffered_nil (inv.flushed hbefore)
    · exact hnow
  · rw [hdue]
    exact hsince

/-- Where the reader keeps its place too, the whole record stands. -/
lemma AppendInv.keep_place (inv : AppendInv previous s) {f : File fs.Handle}
    (hlands : fs.Lands s.sink.writer f [])
    (hplace : ∀ c, fs.readAt s.sink.writer.handle = some c → fs.readAt f.handle = some c) :
    Advances previous s { s with sink := { s.sink with writer := f } } := by
  refine inv.keep hlands Or.inl ?_
  intro o got hsince
  obtain ⟨hat, hgot⟩ := inv.since o got hsince
  exact ⟨hplace _ hat, hgot⟩

/-- What stands of the record after a flush was true before it. -/
lemma AppendInv.polled_since (inv : AppendInv previous s) {f : File fs.Handle} {o : ℕ}
    {got : List UInt8}
    (h : (s.polled { s.sink with writer := f }).since = some (o, got)) :
    fs.readAt f.handle = some (o + got.length) ∧
      got = window (fs.due s.sink.writer) o got.length := by
  obtain ⟨hsince, hplace⟩ := Option.filter_eq_some_iff.mp h
  exact ⟨of_decide_eq_true hplace, (inv.since o got hsince).2⟩

/-- The first `size` bytes of the buffer have been accepted and counted. -/
lemma AppendInv.written (inv : AppendInv previous s) {sink : BoundedFileSink (File fs.Handle)}
    {size : ℕ} (hle : size ≤ s.rest.length)
    (hlands : fs.Lands s.sink.writer sink.writer (s.rest.take size))
    (hlen : sink.currentLen.toNat = s.sink.currentLen.toNat + size) :
    Advances previous s
      { s with sink := sink, rest := s.rest.drop size, flushed := false, since := none } := by
  refine ⟨⟨hlands.options.trans inv.options, ?_, ?_, inv.fits, by simp, by simp⟩,
    List.prefix_refl _, hlands.grown⟩
  · show fs.due sink.writer ++ s.rest.drop size = _
    rw [hlands.due, List.append_assoc, List.take_append_drop]
    exact inv.bytes
  · show sink.currentLen.toNat = (fs.due sink.writer).length
    rw [hlands.due, List.length_append, List.length_take_of_le hle, hlen, inv.len]

variable (build : Build)

lemma appendInv_start (inv : AppendInv previous s) {buf : List UInt8}
    (hlawful : (AppendOp.start buf).Lawful previous s) :
    ∃ s', appendStep fs build s (AppendOp.start buf) = some s' ∧ Advances previous s s' := by
  obtain ⟨hrest, hfits⟩ := hlawful
  refine ⟨_, rfl, ⟨inv.options, ?_, inv.len, ?_, fun h => absurd h (by simp), inv.since⟩,
    List.prefix_append _ _, List.prefix_refl _⟩
  · show fs.due s.sink.writer ++ buf = previous ++ (s.buffers ++ [buf]).flatten
    rw [inv.due_eq hrest, List.flatten_append, List.append_assoc, List.flatten_singleton]
  · show (previous ++ (s.buffers ++ [buf]).flatten).length < 2 ^ 63
    rwa [List.flatten_append, ← List.append_assoc, List.flatten_singleton]

/-- A poll of a write is pending, or takes bytes from the buffer and counts them. -/
lemma appendInv_write (hwrites : fs.Writes) (inv : AppendInv previous s) (turn : fs.Turn) :
    ∃ s', appendStep fs build s (AppendOp.write turn) = some s' ∧ Advances previous s s' := by
  by_cases hrest : s.rest = []
  · exact ⟨s, if_pos hrest, inv, List.prefix_refl _, List.prefix_refl _⟩
  · have hstep : appendStep fs build s (AppendOp.write turn)
        = (s.sink.pollWrite build (fs.pollWrite turn) s.rest).map fun r =>
          { s with
            sink := r.1, rest := s.rest.drop (taken r.2), flushed := false, since := none } :=
      if_neg hrest
    rcases hwrites.pollWrite turn s.sink.writer s.rest inv.atEnd with
      ⟨f, hpoll, hlands⟩ | ⟨f, size, -, hle, hpoll, hlands⟩
    · refine ⟨_, by rw [hstep, BoundedFileSink.pollWrite, hpoll, Option.map_some], ?_⟩
      exact inv.written (Nat.zero_le _) hlands rfl
    · have hfits : s.sink.currentLen.toNat + size < 2 ^ 63 := by
        have hlen := inv.len
        have hsum := congrArg List.length inv.bytes
        have hmax := inv.fits
        rw [List.length_append] at hsum
        omega
      obtain ⟨sink', hsink, rfl, hcount⟩ := pollWrite_of_ready build hpoll hfits
      refine ⟨_, by rw [hstep, hsink, Option.map_some], ?_⟩
      exact inv.written hle hlands hcount

/-- A flush is pending, or everything is in the file. -/
lemma appendInv_flush (hwrites : fs.Writes) (inv : AppendInv previous s) (turn : fs.Turn) :
    ∃ s', appendStep fs build s (AppendOp.flush turn) = some s' ∧ Advances previous s s' ∧
      ((fs.pollFlush turn s.sink.writer).2 = Poll.pending ∨ s'.flushed = true) := by
  obtain ⟨f, hlands, hpoll | ⟨hpoll, hempty⟩⟩ := hwrites.pollFlush turn s.sink.writer inv.atEnd
  · refine ⟨s.polled { s.sink with writer := f }, ?_, ?_, Or.inl (by rw [hpoll])⟩
    · simp only [appendStep, BoundedFileSink.pollFlush, hpoll]
    · exact inv.keep hlands Or.inl fun _ _ => inv.polled_since
  · refine ⟨{ s.polled { s.sink with writer := f } with flushed := true }, ?_, ?_, Or.inr rfl⟩
    · simp only [appendStep, BoundedFileSink.pollFlush, hpoll]
    · exact inv.keep hlands (fun _ => Or.inr hempty) fun _ _ => inv.polled_since

/-- A seek leaves the file alone; one that is answered tells where the next read starts. -/
lemma appendInv_seek (hreads : fs.Reads) (inv : AppendInv previous s) (pos : SeekFrom)
    (turn : fs.Turn) :
    ∃ s', appendStep fs build s (AppendOp.seek pos turn) = some s' ∧ Advances previous s s' := by
  obtain ⟨hlands, hplace⟩ := hreads.pollSeek turn pos s.sink.writer inv.append
  have hforget : Advances previous s { s with
      sink := { s.sink with writer := (fs.pollSeek turn pos s.sink.writer).1 }, since := none } :=
    inv.keep hlands Or.inl (by simp)
  simp only [appendStep]
  cases hanswer : (fs.pollSeek turn pos s.sink.writer).2 with
  | pending => exact ⟨_, rfl, hforget⟩
  | ready res =>
      cases res with
      | error err => exact ⟨_, rfl, hforget⟩
      | ok o =>
          refine ⟨_, rfl, inv.keep hlands Or.inl ?_⟩
          rintro _ _ ⟨⟩
          exact ⟨hplace o hanswer, by simp⟩

/-- The bytes at the reader's place go on where the reads since the last seek stopped. -/
lemma AppendInv.window_since (inv : AppendInv previous s) {o : ℕ} {got : List UInt8}
    (hsince : s.since = some (o, got)) {k : ℕ} {bytes : List UInt8}
    (hbytes : bytes = window (fs.due s.sink.writer) (o + got.length) k) :
    got ++ bytes = window (fs.due s.sink.writer) o (got ++ bytes).length := by
  obtain ⟨-, hgot⟩ := inv.since o got hsince
  have hsplit : window (fs.due s.sink.writer) o (got.length + k) = got ++ bytes := by
    rw [window_add, ← hgot, hbytes]
  rw [← hsplit, window_length_window]

/-- The next read after a seek that is answered. -/
lemma AppendInv.next_read (hreads : fs.Reads) (inv : AppendInv previous s) {o : ℕ}
    {got : List UInt8} (hsince : s.since = some (o, got)) {n : ℕ} {turn : fs.Turn}
    {answer : Except IoError (List UInt8)}
    (hpoll : (fs.pollRead turn n s.sink.writer).2 = Poll.ready answer) :
    ∃ bytes, answer = Except.ok bytes ∧
      got ++ bytes = window (fs.due s.sink.writer) o (got ++ bytes).length ∧
      fs.readAt (fs.pollRead turn n s.sink.writer).1.handle = some (o + (got ++ bytes).length) ∧
      (bytes = [] → n = 0 ∨ (fs.due s.sink.writer).length ≤ o + got.length) := by
  obtain ⟨-, hnext⟩ := hreads.pollRead turn n s.sink.writer inv.append inv.readable
  obtain ⟨bytes, k, rfl, hbytes, -, hpos, hplace⟩ :=
    hnext _ answer (inv.since o got hsince).1 hpoll
  refine ⟨bytes, rfl, inv.window_since hsince hbytes, ?_, ?_⟩
  · rw [hplace, List.length_append, Nat.add_assoc]
  · intro hnil
    have hlen := congrArg List.length hbytes
    rw [hnil, length_window, List.length_nil] at hlen
    omega

lemma appendInv_read (hreads : fs.Reads) (inv : AppendInv previous s) (n : ℕ) (turn : fs.Turn) :
    ∃ s', appendStep fs build s (AppendOp.read n turn) = some s' ∧ Advances previous s s' := by
  obtain ⟨hlands, -⟩ := hreads.pollRead turn n s.sink.writer inv.append inv.readable
  simp only [appendStep]
  cases hanswer : (fs.pollRead turn n s.sink.writer).2 with
  | pending =>
      refine ⟨_, rfl, inv.keep_place hlands ?_⟩
      intro c hplace
      exact hreads.pending turn n s.sink.writer c inv.append hplace hanswer
  | ready res =>
      cases res with
      | error err => exact ⟨_, rfl, inv.keep hlands Or.inl (by simp)⟩
      | ok bytes =>
          refine ⟨_, rfl, inv.keep hlands Or.inl ?_⟩
          intro o got hgot
          obtain ⟨⟨o', before⟩, hsince, heq⟩ := Option.map_eq_some_iff.mp hgot
          obtain ⟨rfl, rfl⟩ := Prod.mk.inj heq
          obtain ⟨bytes', hok, hwindow, hplace, -⟩ := inv.next_read hreads hsince hanswer
          obtain rfl := Except.ok.inj hok
          exact ⟨hplace, hwindow⟩

/-- **One poll keeps file, count and reader in step.** -/
lemma appendInv_step (hwrites : fs.Writes) (hpasses : fs.PassesOn) (hreads : fs.Reads)
    (inv : AppendInv previous s) {op : AppendOp fs} (hlawful : op.Lawful previous s) :
    ∃ s', appendStep fs build s op = some s' ∧ Advances previous s s' := by
  cases op with
  | start buf => exact appendInv_start build inv hlawful
  | write turn => exact appendInv_write build hwrites inv turn
  | flush turn =>
      obtain ⟨s', hstep, hadvances, -⟩ := appendInv_flush build hwrites inv turn
      exact ⟨s', hstep, hadvances⟩
  | seek pos turn => exact appendInv_seek build hreads inv pos turn
  | read n turn => exact appendInv_read build hreads inv n turn
  | work turn =>
      refine ⟨_, rfl, inv.keep_place (hpasses.lands turn _ inv.atEnd) ?_⟩
      intro c hplace
      exact hpasses.readAt turn _ c inv.atEnd hplace

end Step

/-- The sink at the start of a run. -/
def AppendRun.start (sink : BoundedFileSink (File fs.Handle)) : AppendRun fs :=
  ⟨sink, [], [], false, none⟩

/-- What `open_append` returns: the file as it was or an empty one, and its length counted. -/
lemma openAppend_eq (hopens : fs.Opens) (option : BoundedFileOption)
    (disk : Option (List UInt8)) :
    ∃ f, BoundedFileSink.openAppend fs disk option =
        Except.ok ⟨option, UInt64.ofNat (disk.getD []).length, f⟩ ∧
      fs.Fresh appendOptions (disk.getD []) f := by
  obtain ⟨f, hopen, hfresh⟩ := hopens.append appendOptions disk rfl rfl (Or.inl rfl)
  have hopen' : openReadAppend fs disk = Except.ok f := hopen
  refine ⟨f, ?_, hfresh⟩
  simp only [BoundedFileSink.openAppend, hopen', bind, Except.bind, hopens.metadataLen,
    hfresh.content]
  rfl

end FutureAio.Fs
