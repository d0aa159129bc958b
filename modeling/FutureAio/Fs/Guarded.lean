import FutureAio.Lib.Runs
import FutureAio.Fs.Bounded

/-!
# The bound of a `BoundedFileSink`

The sink does not enforce its `max_len`.  It counts what the file inside takes, and it answers
`can_be_appended`; that a file stays within the bound is an agreement between the two and a writer
that asks before it starts on a buffer.

* `Call`, `callStep` — one poll of the sink; what the file inside does at it is part of the call.
* `Move`, `moveStep` — a writer that starts on a buffer only when it has just been told it may,
  offers what is left of it in as many polls as it takes, and may give up at any time.

`guarded_writer_bounded` is what such a writer can rely on.  `refusal_final_iff` is about the
answer itself: a refusal stands for the rest of the run, except where `current_len + buf_len` leaves
`u64`.
-/

namespace FutureAio.Fs

open RustInt Runs

variable {W : Type}

/-- A call of the sink, with the next state and the answer of the file inside. -/
inductive Call (W : Type) where
  | write (buf : List UInt8) (inner : W × Poll (Except IoError ℕ))
  | flush (inner : W × Poll (Except IoError Unit))
  | close (inner : W × Poll (Except IoError Unit))

/-- The bytes that the file takes at a call. -/
def Call.size : Call W → ℕ
  | Call.write _ inner => taken inner.2
  | _ => 0

def Call.offered : Call W → ℕ
  | Call.write buf _ => buf.length
  | _ => 0

/-- A sink, and the sum of the sizes that the file inside has returned. -/
structure Ledger (W : Type) where
  sink : BoundedFileSink W
  accepted : ℕ

/-- One call; `none` is an addition that panics. -/
def callStep (build : Build) (s : Ledger W) : Call W → Option (Ledger W)
  | Call.write buf inner =>
      (s.sink.pollWrite build (fun _ _ => inner) buf).map fun r =>
        ⟨r.1, s.accepted + (Call.write buf inner).size⟩
  | Call.flush inner => some ⟨(s.sink.pollFlush fun _ => inner).1, s.accepted⟩
  | Call.close inner => some ⟨(s.sink.pollClose fun _ => inner).1, s.accepted⟩

/-- What may be expected of the file: it takes no more than it is offered, and never grows beyond
`2 ^ 63 - 1` bytes. -/
def Call.Lawful (l0 : ℕ) (s : Ledger W) (c : Call W) : Prop :=
  c.size ≤ c.offered ∧ l0 + s.accepted + c.size < 2 ^ 63

/-! ## The count -/

section Count

variable (build : Build)

lemma callStep_of_fits {s : Ledger W} {c : Call W}
    (h : s.sink.currentLen.toNat + c.size < 2 ^ 64) :
    ∃ sink', callStep build s c = some ⟨sink', s.accepted + c.size⟩ ∧
      sink'.option = s.sink.option ∧
      sink'.currentLen.toNat = s.sink.currentLen.toNat + c.size := by
  cases c with
  | flush inner => exact ⟨_, rfl, rfl, rfl⟩
  | close inner => exact ⟨_, rfl, rfl, rfl⟩
  | write buf inner =>
      obtain ⟨sink', hpoll, hoption, -, hlen⟩ := pollWrite_of_fits build (fun _ _ => inner) buf h
      exact ⟨sink', by simp only [callStep, hpoll, Option.map_some], hoption, hlen⟩

/-- The count is the first length plus what the file has taken, and there is room for it. -/
structure Counted (l0 : ℕ) (option : BoundedFileOption) (s : Ledger W) : Prop where
  option : s.sink.option = option
  len : s.sink.currentLen.toNat = l0 + s.accepted
  fits : l0 + s.accepted < 2 ^ 63

lemma counted_start {sink : BoundedFileSink W} (h : sink.currentLen.toNat < 2 ^ 63) :
    Counted sink.currentLen.toNat sink.option ⟨sink, 0⟩ :=
  ⟨rfl, rfl, h⟩

lemma counted_step {l0 : ℕ} {option : BoundedFileOption} {s : Ledger W} {c : Call W}
    (inv : Counted l0 option s) (hfits : l0 + s.accepted + c.size < 2 ^ 63) :
    ∃ s', callStep build s c = some s' ∧ s'.accepted = s.accepted + c.size ∧
      Counted l0 option s' := by
  have hlen := inv.len
  obtain ⟨sink', hstep, hoption, hlen'⟩ :=
    callStep_of_fits build (s := s) (c := c) (by omega)
  refine ⟨_, hstep, rfl, hoption.trans inv.option, ?_, ?_⟩
  · show sink'.currentLen.toNat = l0 + (s.accepted + c.size)
    omega
  · show l0 + (s.accepted + c.size) < 2 ^ 63
    omega

end Count

/-! ## A writer that asks first -/

/-- A buffer that was admitted: the count at that time, the buffer, and what is left of it. -/
structure Admission where
  start : UInt64
  buf : List UInt8
  rest : List UInt8

structure Writer (W : Type) where
  ledger : Ledger W
  admission : Option Admission

inductive Move (W : Type) where
  /-- ask for a buffer, and start on it if the answer is yes -/
  | ask (buf : List UInt8)
  /-- offer some of what is left of the buffer -/
  | offer (n : ℕ) (inner : W × Poll (Except IoError ℕ))
  | giveUp
  | flush (inner : W × Poll (Except IoError Unit))
  | close (inner : W × Poll (Except IoError Unit))

/-- The poll of the sink behind an offer. -/
def Admission.call (a : Admission) (n : ℕ) (inner : W × Poll (Except IoError ℕ)) : Call W :=
  Call.write (a.rest.take n) inner

def moveStep (build : Build) (w : Writer W) : Move W → Option (Writer W)
  | Move.ask buf =>
      (w.ledger.sink.canBeAppended build (UInt64.ofNat buf.length)).map fun
        | true => ⟨w.ledger, some ⟨w.ledger.sink.currentLen, buf, buf⟩⟩
        | false => ⟨w.ledger, none⟩
  | Move.offer n inner =>
      match w.admission with
      | none => some w
      | some a =>
          (callStep build w.ledger (a.call n inner)).map fun ledger =>
            ⟨ledger, some { a with rest := a.rest.drop (a.call n inner).size }⟩
  | Move.giveUp => some ⟨w.ledger, none⟩
  | Move.flush inner => (callStep build w.ledger (Call.flush inner)).map fun s => ⟨s, w.admission⟩
  | Move.close inner => (callStep build w.ledger (Call.close inner)).map fun s => ⟨s, w.admission⟩

/-- What may be expected at a move: of the file as before, of a buffer that it fits a slice. -/
def Move.Lawful (l0 : ℕ) (w : Writer W) : Move W → Prop
  | Move.ask buf => buf.length < 2 ^ 63
  | Move.offer n inner => ∀ a, w.admission = some a → (a.call n inner).Lawful l0 w.ledger
  | _ => True

/-- The count is right and within the bound, and a buffer in progress fits below it. -/
structure Guarded (l0 : ℕ) (option : BoundedFileOption) (maxLen : UInt64) (w : Writer W) :
    Prop where
  counted : Counted l0 option w.ledger
  bounded : w.ledger.sink.currentLen.toNat ≤ max l0 maxLen.toNat
  admitted : ∀ a, w.admission = some a →
    a.start.toNat + a.buf.length ≤ maxLen.toNat ∧
    w.ledger.sink.currentLen.toNat + a.rest.length = a.start.toNat + a.buf.length

section Guard

variable (build : Build) {l0 : ℕ} {option : BoundedFileOption} {maxLen : UInt64} {w : Writer W}

/-- In range, the answer of `can_be_appended` is the exact one. -/
lemma canBeAppended_of_fits {sink : BoundedFileSink W} {n : UInt64}
    (hmax : sink.option.maxLen = some maxLen)
    (h : sink.currentLen.toNat + n.toNat < 2 ^ 64) :
    sink.canBeAppended build n
      = some (decide (sink.currentLen.toNat + n.toNat ≤ maxLen.toNat)) := by
  simp only [BoundedFileSink.canBeAppended, hmax, addU64_of_lt build h, Option.map_some,
    UInt64.le_iff_toNat_le, toNat_add_of_lt h]

lemma guarded_ask (hmax : option.maxLen = some maxLen) (inv : Guarded l0 option maxLen w)
    {buf : List UInt8} (hbuf : buf.length < 2 ^ 63) :
    ∃ w', moveStep build w (Move.ask buf) = some w' ∧ Guarded l0 option maxLen w' := by
  have hlen := inv.counted.len
  have hfits := inv.counted.fits
  have hsize : (UInt64.ofNat buf.length).toNat = buf.length :=
    UInt64.toNat_ofNat_of_lt' (show _ < 2 ^ 64 by omega)
  have hmax' : w.ledger.sink.option.maxLen = some maxLen := by rw [inv.counted.option, hmax]
  have hanswer := canBeAppended_of_fits build (n := UInt64.ofNat buf.length) hmax' (by omega)
  by_cases hroom : w.ledger.sink.currentLen.toNat + buf.length ≤ maxLen.toNat
  · refine ⟨⟨w.ledger, some ⟨w.ledger.sink.currentLen, buf, buf⟩⟩, ?_, inv.counted, inv.bounded, ?_⟩
    · simp [moveStep, hanswer, hsize, hroom]
    · rintro a ⟨⟩
      exact ⟨hroom, rfl⟩
  · refine ⟨⟨w.ledger, none⟩, ?_, inv.counted, inv.bounded, by simp⟩
    simp [moveStep, hanswer, hsize, hroom]

/-- An offer takes no more than what is left, so it cannot lead beyond what was admitted. -/
lemma guarded_offer (inv : Guarded l0 option maxLen w) {n : ℕ}
    {inner : W × Poll (Except IoError ℕ)} (hlawful : (Move.offer n inner).Lawful l0 w) :
    ∃ w', moveStep build w (Move.offer n inner) = some w' ∧ Guarded l0 option maxLen w' := by
  cases hadm : w.admission with
  | none => exact ⟨w, by simp only [moveStep, hadm], inv⟩
  | some a =>
      obtain ⟨htaken, hfits⟩ := hlawful a hadm
      obtain ⟨hroom, hleft⟩ := inv.admitted a hadm
      obtain ⟨s', hstep, haccepted, hcounted⟩ := counted_step build inv.counted hfits
      have hlen := inv.counted.len
      have hlen' := hcounted.len
      have hrest : (a.call n inner).size ≤ a.rest.length := by
        refine htaken.trans ?_
        simp only [Admission.call, Call.offered, List.length_take]
        omega
      refine ⟨⟨s', some { a with rest := a.rest.drop (a.call n inner).size }⟩, ?_, hcounted, ?_, ?_⟩
      · simp only [moveStep, hadm, hstep, Option.map_some]
      · show s'.sink.currentLen.toNat ≤ max l0 maxLen.toNat
        omega
      · rintro a' ⟨⟩
        refine ⟨hroom, ?_⟩
        simp only [List.length_drop]
        omega

/-- **One move of the writer** is possible and keeps the guard. -/
lemma guarded_step (hmax : option.maxLen = some maxLen) (inv : Guarded l0 option maxLen w)
    {m : Move W} (hlawful : m.Lawful l0 w) :
    ∃ w', moveStep build w m = some w' ∧ Guarded l0 option maxLen w' := by
  cases m with
  | ask buf => exact guarded_ask build hmax inv hlawful
  | offer n inner => exact guarded_offer build inv hlawful
  | giveUp => exact ⟨⟨w.ledger, none⟩, rfl, inv.counted, inv.bounded, by simp⟩
  | flush inner =>
      refine ⟨_, rfl, ⟨inv.counted.option, inv.counted.len, inv.counted.fits⟩, inv.bounded,
        inv.admitted⟩
  | close inner =>
      refine ⟨_, rfl, ⟨inv.counted.option, inv.counted.len, inv.counted.fits⟩, inv.bounded,
        inv.admitted⟩

end Guard

/-- A run of calls that keeps the count in order adds up what the file has taken. -/
lemma accepted_eq_sum (build : Build) {l0 : ℕ} {option : BoundedFileOption} :
    ∀ (calls : List (Call W)) {s u : Ledger W}, Counted l0 option s →
      Along (callStep build) (fun s c => c.Lawful l0 s) s calls →
      run (callStep build) s calls = some u →
      u.accepted = s.accepted + (calls.map Call.size).sum := by
  intro calls
  induction calls with
  | nil =>
      intro s u _ _ h
      rw [run, Option.some.injEq] at h
      simp [h]
  | cons c calls ih =>
      rintro s u inv ⟨hlawful, halong⟩ h
      obtain ⟨t, hst, hrun⟩ := run_cons_some h
      obtain ⟨t', hstep, haccepted, inv'⟩ := counted_step build inv hlawful.2
      obtain rfl := Option.some.inj (hst.symm.trans hstep)
      rw [ih inv' (halong t hst) hrun, haccepted, List.map_cons, List.sum_cons, Nat.add_assoc]

/-- **What a writer that asks first can rely on.**  In every run of any calls the count is the first
length plus the sizes that the file inside has returned; and if every buffer is admitted before it
is written, the count never passes the bound, and a buffer of which the file has taken all bytes has
raised it by its length. -/
theorem guarded_writer_bounded (build : Build) (sink : BoundedFileSink W)
    (hl0 : sink.currentLen.toNat < 2 ^ 63) :
    (∀ calls, Along (callStep build) (fun s c => c.Lawful sink.currentLen.toNat s) ⟨sink, 0⟩ calls →
      ∃ s, run (callStep build) ⟨sink, 0⟩ calls = some s ∧
        s.accepted = (calls.map Call.size).sum ∧
        s.sink.currentLen.toNat = sink.currentLen.toNat + (calls.map Call.size).sum) ∧
    ∀ maxLen, sink.option.maxLen = some maxLen → ∀ moves,
      Along (moveStep build) (fun w m => m.Lawful sink.currentLen.toNat w) ⟨⟨sink, 0⟩, none⟩ moves →
      ∃ w, run (moveStep build) ⟨⟨sink, 0⟩, none⟩ moves = some w ∧
        w.ledger.sink.currentLen.toNat = sink.currentLen.toNat + w.ledger.accepted ∧
        w.ledger.sink.currentLen.toNat ≤ max sink.currentLen.toNat maxLen.toNat ∧
        ∀ a, w.admission = some a → a.rest = [] →
          w.ledger.sink.currentLen.toNat = a.start.toNat + a.buf.length := by
  have hstart := counted_start hl0
  refine ⟨?_, ?_⟩
  · intro calls hlawful
    obtain ⟨s, hrun, hcounted⟩ := run_completes (I := Counted sink.currentLen.toNat sink.option)
      (fun s c inv hc => by
        obtain ⟨s', hstep, -, inv'⟩ := counted_step build inv hc.2
        exact ⟨s', hstep, inv'⟩) calls hstart hlawful
    have hsum : s.accepted = (calls.map Call.size).sum := by
      rw [accepted_eq_sum build calls hstart hlawful hrun, Nat.zero_add]
    exact ⟨s, hrun, hsum, by rw [hcounted.len, hsum]⟩
  · intro maxLen hmax moves hlawful
    obtain ⟨w, hrun, hguarded⟩ := run_completes
      (I := Guarded sink.currentLen.toNat sink.option maxLen)
      (fun w m inv hm => guarded_step build hmax inv hm) moves
      ⟨hstart, le_max_left _ _, by simp⟩ hlawful
    refine ⟨w, hrun, hguarded.counted.len, hguarded.bounded, ?_⟩
    intro a ha hdone
    have hleft := (hguarded.admitted a ha).2
    rwa [hdone, List.length_nil, Nat.add_zero] at hleft

/-- Eight bytes under a bound of ten: a buffer of two is admitted and taken in two polls with a
pending one between them, after which the count is ten. -/
theorem guarded_writer_bounded_short_writes :
    ∃ w, run (moveStep Build.debug) ⟨⟨⟨⟨some 10⟩, 8, ()⟩, 0⟩, none⟩
        [Move.ask [1, 2], Move.offer 2 ((), Poll.ready (Except.ok 1)),
          Move.offer 2 ((), Poll.pending), Move.offer 1 ((), Poll.ready (Except.ok 1))] = some w ∧
      w.admission = some ⟨8, [1, 2], []⟩ ∧ w.ledger.accepted = 2 ∧
      w.ledger.sink.currentLen.toNat = 8 + 2 := by
  refine ⟨_, rfl, rfl, rfl, ?_⟩
  obtain ⟨w, hrun, -, -, hdone⟩ :=
    (guarded_writer_bounded Build.debug ⟨⟨some 10⟩, 8, ()⟩ (by decide)).2 10 rfl
      [Move.ask [1, 2], Move.offer 2 ((), Poll.ready (Except.ok 1)),
        Move.offer 2 ((), Poll.pending), Move.offer 1 ((), Poll.ready (Except.ok 1))] (by
      refine ⟨show 2 < 2 ^ 63 by decide, ?_⟩
      rintro w ⟨⟩
      refine ⟨?_, ?_⟩
      · rintro a ⟨⟩
        exact ⟨by decide, by decide⟩
      rintro w ⟨⟩
      refine ⟨?_, ?_⟩
      · rintro a ⟨⟩
        exact ⟨by decide, by decide⟩
      rintro w ⟨⟩
      refine ⟨?_, fun _ _ => trivial⟩
      rintro a ⟨⟩
      exact ⟨by decide, by decide⟩)
  obtain rfl := Option.some.inj hrun
  exact hdone ⟨8, [1, 2], []⟩ rfl rfl

/-! ## A refusal -/

/-- The addition of a write, if there is one, stays in `u64`. -/
def Call.Fits (s : Ledger W) (c : Call W) : Prop := s.sink.currentLen.toNat + c.size < 2 ^ 64

section Refusal

variable {build : Build} {sink : BoundedFileSink W} {n : UInt64}

/-- What a refusal says: there is a bound, and the true sum is above it. -/
lemma exists_bound_of_refused (h : sink.canBeAppended build n = some false) :
    ∃ maxLen, sink.option.maxLen = some maxLen ∧
      maxLen.toNat < sink.currentLen.toNat + n.toNat := by
  cases hmax : sink.option.maxLen with
  | none => simp [BoundedFileSink.canBeAppended, hmax] at h
  | some maxLen =>
      refine ⟨maxLen, rfl, ?_⟩
      simp only [BoundedFileSink.canBeAppended, hmax, Option.map_eq_some_iff] at h
      obtain ⟨sum, hsum, hgt⟩ := h
      have htrue := toNat_of_addU64 hsum
      have hlt := mt UInt64.le_iff_toNat_le.mpr (of_decide_eq_false hgt)
      omega

/-- When the true sum is above the bound, the answer is a refusal unless the addition panics or
wraps to something within the bound. -/
lemma canBeAppended_eq_false_iff {maxLen : UInt64} (hmax : sink.option.maxLen = some maxLen)
    (habove : maxLen.toNat < sink.currentLen.toNat + n.toNat) :
    sink.canBeAppended build n = some false ↔
      sink.currentLen.toNat + n.toNat < 2 ^ 64 ∨
        (build = Build.release ∧ maxLen.toNat + 2 ^ 64 < sink.currentLen.toNat + n.toNat) := by
  rcases Nat.lt_or_ge (sink.currentLen.toNat + n.toNat) (2 ^ 64) with hlt | hge
  · rw [canBeAppended_of_fits build hmax hlt, Option.some.injEq, decide_eq_false_iff_not]
    exact ⟨fun _ => Or.inl hlt, fun _ => by omega⟩
  · have hnot : ¬ sink.currentLen.toNat + n.toNat < 2 ^ 64 := by omega
    simp only [hnot, false_or, BoundedFileSink.canBeAppended, hmax]
    cases build with
    | debug => simp [addU64_debug hge]
    | release =>
        rw [addU64_release, Option.map_some, Option.some.injEq, decide_eq_false_iff_not,
          UInt64.le_iff_toNat_le, toNat_add_of_ge hge]
        simp only [true_and]
        omega

/-- The bound never changes and the count never falls, as long as no write wraps it. -/
structure Grown (start s : Ledger W) : Prop where
  option : s.sink.option = start.sink.option
  len : start.sink.currentLen.toNat ≤ s.sink.currentLen.toNat

lemma grown_step {start s s' : Ledger W} {c : Call W} (inv : Grown start s)
    (hfits : c.Fits s) (hstep : callStep build s c = some s') : Grown start s' := by
  obtain ⟨sink', hsome, hoption, hlen⟩ := callStep_of_fits build hfits
  rw [hsome, Option.some.injEq] at hstep
  subst hstep
  have hle := inv.len
  refine ⟨hoption.trans inv.option, ?_⟩
  show start.sink.currentLen.toNat ≤ sink'.currentLen.toNat
  omega

end Refusal

/-- **How final a refusal is.**  After a refusal for `n` bytes, in every later state of a run whose
writes add up in `u64`, a question for `n'` bytes or more is refused as well, unless its own sum
leaves `u64`: then the checked build panics, and the other refuses only if what the sum wraps to is
still above the bound. -/
theorem refusal_final_iff (build : Build) (start : Ledger W) (n : UInt64)
    (hrefused : start.sink.canBeAppended build n = some false) (calls : List (Call W))
    (hfits : Along (callStep build) (fun s c => c.Fits s) start calls) (s : Ledger W)
    (hrun : run (callStep build) start calls = some s) (n' : UInt64) (hn : n ≤ n') :
    s.sink.canBeAppended build n' = some false ↔
      s.sink.currentLen.toNat + n'.toNat < 2 ^ 64 ∨
        (build = Build.release ∧ ∀ maxLen, start.sink.option.maxLen = some maxLen →
          maxLen.toNat + 2 ^ 64 < s.sink.currentLen.toNat + n'.toNat) := by
  obtain ⟨maxLen, hmax, habove⟩ := exists_bound_of_refused hrefused
  have hgrown : Grown start s :=
    run_invariant_along (fun s c s' inv hc hstep => grown_step inv hc hstep) calls
      ⟨rfl, le_rfl⟩ hfits hrun
  have hlen := hgrown.len
  have hn' := UInt64.le_iff_toNat_le.mp hn
  have hmax' : s.sink.option.maxLen = some maxLen := by rw [hgrown.option, hmax]
  rw [canBeAppended_eq_false_iff hmax' (by omega), hmax]
  simp

/-- Eight bytes under a bound of ten: after twenty were refused and one byte written, so are
twenty-one. -/
theorem refusal_final_iff_after_write :
    BoundedFileSink.canBeAppended Build.debug ⟨⟨some 10⟩, 9, ()⟩ 21 = some false :=
  (refusal_final_iff Build.debug ⟨⟨⟨some 10⟩, 8, ()⟩, 0⟩ 20 (by decide)
    [Call.write [7] ((), Poll.ready (Except.ok 1))]
    ⟨show 8 + 1 < 2 ^ 64 by decide, fun _ _ => trivial⟩ ⟨⟨⟨some 10⟩, 9, ()⟩, 1⟩ rfl 21
    (by decide)).mpr (Or.inl (by decide))

/-- Eight bytes under a bound of ten: twenty are refused, and then `u64::MAX` bytes are granted by
one build, while the other panics. -/
theorem refusal_not_final :
    (BoundedFileSink.canBeAppended Build.release ⟨⟨some 10⟩, 8, ()⟩ 20 = some false ∧
      BoundedFileSink.canBeAppended Build.release ⟨⟨some 10⟩, 8, ()⟩ 18446744073709551615
        = some true) ∧
    BoundedFileSink.canBeAppended Build.debug ⟨⟨some 10⟩, 8, ()⟩ 20 = some false ∧
      BoundedFileSink.canBeAppended Build.debug ⟨⟨some 10⟩, 8, ()⟩ 18446744073709551615
        = none := by
  exact ⟨⟨by decide, by decide⟩, by decide, by decide⟩

end FutureAio.Fs
