import FutureAio.Basic
import FutureAio.Lib.Word
import FutureAio.Lib.Window
import FutureAio.Lib.Loop

/-!
# `ZeroCopy::copy_slice` on Linux

The blocking closure of `copy_slice` is one loop around `sendfile`.  Three quantities run in
parallel through it: `total_transferred`, which the code adds to; `current_offset`, which the
*kernel* advances through the `&mut` it is given; and the count still asked for, which is
recomputed at the top of every pass as `size as usize - total_transferred`.

* `LinuxKernel` — the other side of the system call.  Pass `n` finds the file with content
  `file n` and answers `sendfile n off count`; the two fields `grows` and `allowed` are what is
  assumed of it, so a kernel that breaks the manual cannot be built.
* `copyPass` — one pass of the loop, in either build; a subtraction that underflows in a build
  with overflow checks ends it with `CopyResult.panicked`.
* `CopyInv` — the loop-head invariant: the three quantities agree, and the target holds exactly
  the window of the file that the total says.

`copySliceLinux_correct` collects what follows for a whole run.
-/

namespace FutureAio.ZeroCopy

open RustInt OracleLoop Window

/-- `nix::errno::Errno`; the loops single out one value. -/
inductive Errno where
  | EAGAIN
  | other (code : ℕ)
  deriving DecidableEq, Repr

/-- `SendFileError`. -/
inductive SendFileError where
  | IoError (source : IoError)
  | NixError (source : Errno)
  deriving DecidableEq, Repr

/-- How the closure ends: with its `Result`, or with an arithmetic panic. -/
inductive CopyResult where
  | ok (transferred : UInt64)
  | err (error : SendFileError)
  | panicked
  deriving DecidableEq, Repr

/-- The result together with everything the target descriptor has received by then. -/
structure CopyOutcome where
  result : CopyResult
  target : List UInt8
  deriving DecidableEq, Repr

/-! ## The system call -/

/-- What `sendfile(out, in, Some(off), count)` may answer on a file with content `file`: at most
`count` bytes, all of them in the file, and zero only when none were asked for or the offset is
at or past the end.  A failed call delivers nothing. -/
def SendfileAllowed (file : List UInt8) (off : ℤ) (count : UInt64) : Except Errno UInt64 → Prop
  | Except.ok k =>
      k ≤ count ∧ (k ≠ 0 → 0 ≤ off ∧ off + k.toNat ≤ file.length) ∧
        (k = 0 → count = 0 ∨ (file.length : ℤ) ≤ off)
  | Except.error _ => True

/-- The kernel over a whole run.  The file is only ever appended to, between one call and the
next; every answer is one the manual allows. -/
structure LinuxKernel where
  file : ℕ → FileContent
  sendfile : ℕ → ℤ → UInt64 → Except Errno UInt64
  grows : ∀ n, (file n).bytes <+: (file (n + 1)).bytes
  allowed : ∀ n off count, SendfileAllowed (file n).bytes off count (sendfile n off count)

lemma LinuxKernel.file_isPrefix (kernel : LinuxKernel) {l : List UInt8}
    (h : l <+: (kernel.file 0).bytes) : ∀ n, l <+: (kernel.file n).bytes
  | 0 => h
  | n + 1 => (kernel.file_isPrefix h n).trans (kernel.grows n)

/-! ## The loop -/

/-- The loop's variables, and the bytes handed to the target so far. -/
structure CopyState where
  totalTransferred : UInt64
  currentOffset : ℤ
  target : List UInt8
  deriving DecidableEq, Repr

/-- The effect of a call that transferred `k` bytes of `file`: the kernel appends them to the
target and advances `current_offset`, the code adds them to `total_transferred`. -/
def CopyState.advance (s : CopyState) (file : List UInt8) (k : UInt64) : CopyState where
  totalTransferred := s.totalTransferred + k
  currentOffset := s.currentOffset + k.toNat
  target := s.target ++ window file s.currentOffset.toNat k.toNat

/-- One pass of the loop; `n` is the number of the system call it makes. -/
def copyPass (build : Build) (kernel : LinuxKernel) (size : UInt64) (s : CopyState) (n : ℕ) :
    Flow CopyState CopyOutcome :=
  match subU64 build size s.totalTransferred with
  | none => Flow.leave ⟨CopyResult.panicked, s.target⟩
  | some toBeTransfer =>
      match kernel.sendfile n s.currentOffset toBeTransfer with
      | Except.ok k =>
          let s' := s.advance (kernel.file n).bytes k
          match addU64 build s.totalTransferred k with
          | none => Flow.leave ⟨CopyResult.panicked, s'.target⟩
          | some total =>
              -- zero bytes transferred means it's EOF
              if k = 0 then Flow.leave ⟨CopyResult.ok total, s'.target⟩
              else if total < size then Flow.again { s' with totalTransferred := total }
              else Flow.leave ⟨CopyResult.ok total, s'.target⟩
      | Except.error Errno.EAGAIN => Flow.again s
      | Except.error err => Flow.leave ⟨CopyResult.err (SendFileError.NixError err), s.target⟩

/-- `ZeroCopy::copy_slice`, after `n` passes of its loop. -/
def copySliceLinux (build : Build) (source : AsyncFileSlice) (kernel : LinuxKernel) :
    ℕ → Flow CopyState CopyOutcome :=
  loopAt (copyPass build kernel source.len) id ⟨0, asI64 source.position, []⟩

/-- Pass `n` is made and its call answers `EAGAIN`. -/
def EagainAt (build : Build) (source : AsyncFileSlice) (kernel : LinuxKernel) (n : ℕ) : Prop :=
  ∃ s, copySliceLinux build source kernel n = Flow.again s ∧
    kernel.sendfile n s.currentOffset (source.len - s.totalTransferred)
      = Except.error Errno.EAGAIN

/-- The call that pass `n` makes from the head `s` fails with `err`. -/
def LinuxKernel.Fails (kernel : LinuxKernel) (source : AsyncFileSlice) (n : ℕ) (s : CopyState)
    (err : Errno) : Prop :=
  kernel.sendfile n s.currentOffset (source.len - s.totalTransferred) = Except.error err

/-! ## One pass -/

/-- **Everything a pass can do** from a head whose total does not exceed the size: retry, fail,
or move `k` bytes and then either go round (more is wanted) or return. -/
lemma copyPass_cases (build : Build) (kernel : LinuxKernel) {size : UInt64} {s : CopyState}
    (n : ℕ) (htotal : s.totalTransferred ≤ size) :
    (kernel.sendfile n s.currentOffset (size - s.totalTransferred) = Except.error Errno.EAGAIN ∧
      copyPass build kernel size s n = Flow.again s) ∨
    (∃ code, kernel.sendfile n s.currentOffset (size - s.totalTransferred)
        = Except.error (Errno.other code) ∧
      copyPass build kernel size s n
        = Flow.leave ⟨CopyResult.err (SendFileError.NixError (Errno.other code)), s.target⟩) ∨
    (∃ k, SendfileAllowed (kernel.file n).bytes s.currentOffset (size - s.totalTransferred)
        (Except.ok k) ∧
      s.totalTransferred.toNat + k.toNat ≤ size.toNat ∧
      ((k ≠ 0 ∧ s.totalTransferred.toNat + k.toNat < size.toNat ∧
          copyPass build kernel size s n = Flow.again (s.advance (kernel.file n).bytes k)) ∨
        ((k = 0 ∨ s.totalTransferred.toNat + k.toNat = size.toNat) ∧
          copyPass build kernel size s n = Flow.leave ⟨CopyResult.ok (s.totalTransferred + k),
            (s.advance (kernel.file n).bytes k).target⟩))) := by
  have hsub := subU64_of_le build htotal
  have hallowed := kernel.allowed n s.currentOffset (size - s.totalTransferred)
  cases hreply : kernel.sendfile n s.currentOffset (size - s.totalTransferred) with
  | error err =>
      cases err with
      | EAGAIN => exact Or.inl ⟨rfl, by simp only [copyPass, hsub, hreply]⟩
      | other code =>
          exact Or.inr (Or.inl ⟨code, rfl, by simp only [copyPass, hsub, hreply]⟩)
  | ok k =>
      rw [hreply] at hallowed
      have hk : k.toNat ≤ size.toNat - s.totalTransferred.toNat := by
        rw [← UInt64.toNat_sub_of_le size s.totalTransferred htotal]
        exact UInt64.le_iff_toNat_le.mp hallowed.1
      have htot := UInt64.le_iff_toNat_le.mp htotal
      have hle : s.totalTransferred.toNat + k.toNat ≤ size.toNat := by omega
      have hsz := size.toNat_lt
      have hadd := addU64_of_lt build (a := s.totalTransferred) (b := k) (by omega)
      have hnat := toNat_add_of_lt (a := s.totalTransferred) (b := k) (by omega)
      refine Or.inr (Or.inr ⟨k, hallowed, hle, ?_⟩)
      by_cases hzero : k = 0
      · refine Or.inr ⟨Or.inl hzero, ?_⟩
        simp only [copyPass, hsub, hreply, hadd, if_pos hzero]
      · by_cases hmore : s.totalTransferred + k < size
        · have hlt := UInt64.lt_iff_toNat_lt.mp hmore
          refine Or.inl ⟨hzero, by omega, ?_⟩
          simp only [copyPass, hsub, hreply, hadd, if_neg hzero, if_pos hmore]
          rfl
        · have hnlt : ¬ (s.totalTransferred + k).toNat < size.toNat :=
            fun h => hmore (UInt64.lt_iff_toNat_lt.mpr h)
          refine Or.inr ⟨Or.inr (by omega), ?_⟩
          simp only [copyPass, hsub, hreply, hadd, if_neg hzero, if_neg hmore]

/-! ## The loop-head invariant

`current_offset` starts as a cast of `position`, so for a position past `2 ^ 63` it is negative
and no call can move a byte; `inFile` records that a positive total excludes that case.
-/

structure CopyInv (source : AsyncFileSlice) (file : List UInt8) (s : CopyState) : Prop where
  total_le : s.totalTransferred ≤ source.len
  offset : s.currentOffset = asI64 source.position + s.totalTransferred.toNat
  target : s.target = window file source.position.toNat s.totalTransferred.toNat
  inFile : s.totalTransferred ≠ 0 →
    source.position.toNat < 2 ^ 63 ∧
      source.position.toNat + s.totalTransferred.toNat ≤ file.length

lemma CopyInv.init (source : AsyncFileSlice) (file : List UInt8) :
    CopyInv source file ⟨0, asI64 source.position, []⟩ := by
  refine ⟨?_, ?_, ?_, ?_⟩
  · exact UInt64.le_iff_toNat_le.mpr (by simp)
  · simp
  · simp
  · intro h
    exact absurd rfl h

lemma CopyInv.length_target {source : AsyncFileSlice} {file : List UInt8} {s : CopyState}
    (inv : CopyInv source file s) : s.target.length = s.totalTransferred.toNat := by
  rw [inv.target]
  by_cases h : s.totalTransferred = 0
  · rw [h]
    simp
  · exact length_window_of_le (inv.inFile h).2

lemma CopyInv.grow {source : AsyncFileSlice} {file file' : List UInt8} {s : CopyState}
    (inv : CopyInv source file s) (hgrow : file <+: file') : CopyInv source file' s := by
  obtain ⟨htotal, hoff, htarget, hin⟩ := inv
  refine ⟨htotal, hoff, ?_, ?_⟩
  · by_cases h : s.totalTransferred = 0
    · rw [htarget, h]
      simp
    · rw [htarget, window_of_isPrefix hgrow (hin h).2]
  · intro h
    exact ⟨(hin h).1, le_trans (hin h).2 hgrow.length_le⟩

/-- A head with an offset the kernel accepts sits at `position + total` in the file. -/
lemma CopyInv.offset_toNat {source : AsyncFileSlice} {file : List UInt8} {s : CopyState}
    (inv : CopyInv source file s) (hoff : 0 ≤ s.currentOffset) :
    source.position.toNat < 2 ^ 63 ∧
      s.currentOffset.toNat = source.position.toNat + s.totalTransferred.toNat := by
  have hcur := inv.offset
  have hpos : source.position.toNat < 2 ^ 63 := by
    by_contra hge
    have hneg := asI64_of_ge (x := source.position) (by omega)
    by_cases h : s.totalTransferred = 0
    · rw [h] at hcur
      simp at hcur
      omega
    · exact hge (inv.inFile h).1
  rw [asI64_of_lt hpos] at hcur
  exact ⟨hpos, by omega⟩

/-- Moving `k` allowed bytes keeps the invariant. -/
lemma CopyInv.advance {source : AsyncFileSlice} {file : List UInt8} {s : CopyState}
    (inv : CopyInv source file s) {k : UInt64} {count : UInt64}
    (hallowed : SendfileAllowed file s.currentOffset count (Except.ok k))
    (hle : s.totalTransferred.toNat + k.toNat ≤ source.len.toNat) :
    CopyInv source file (s.advance file k) := by
  have hlen := source.len.toNat_lt
  have hnat : (s.totalTransferred + k).toNat = s.totalTransferred.toNat + k.toNat :=
    toNat_add_of_lt (by omega)
  refine ⟨?_, ?_, ?_, ?_⟩
  · refine UInt64.le_iff_toNat_le.mpr ?_
    show (s.totalTransferred + k).toNat ≤ source.len.toNat
    omega
  · show s.currentOffset + k.toNat = asI64 source.position + (s.totalTransferred + k).toNat
    rw [hnat, inv.offset]
    push_cast
    omega
  · show s.target ++ window file s.currentOffset.toNat k.toNat
      = window file source.position.toNat (s.totalTransferred + k).toNat
    rw [hnat, inv.target]
    refine window_append_window _ ?_
    intro hk
    exact (inv.offset_toNat (hallowed.2.1 (by rintro rfl; exact hk rfl)).1).2
  · intro hne
    by_cases hk : k = 0
    · have hsame : s.totalTransferred + k = s.totalTransferred := by rw [hk, UInt64.add_zero]
      have hne' : s.totalTransferred + k ≠ 0 := hne
      show source.position.toNat < 2 ^ 63 ∧
        source.position.toNat + (s.totalTransferred + k).toNat ≤ file.length
      rw [hsame] at hne' ⊢
      exact inv.inFile hne'
    · obtain ⟨hoff, hend⟩ := hallowed.2.1 hk
      obtain ⟨hpos, hcur⟩ := inv.offset_toNat hoff
      refine ⟨hpos, ?_⟩
      show source.position.toNat + (s.totalTransferred + k).toNat ≤ file.length
      omega

/-- The invariant holds at every loop head, on the file as the next call finds it. -/
theorem copySliceLinux_invariant (build : Build) (source : AsyncFileSlice)
    (kernel : LinuxKernel) : ∀ n s, copySliceLinux build source kernel n = Flow.again s →
      CopyInv source (kernel.file n).bytes s := by
  refine loopAt_invariant (fun n s => CopyInv source (kernel.file n).bytes s)
    (CopyInv.init source _) ?_
  intro n s s' _ inv hpass
  refine CopyInv.grow ?_ (kernel.grows n)
  rcases copyPass_cases build kernel n inv.total_le with
    ⟨-, h⟩ | ⟨code, -, h⟩ | ⟨k, hallowed, hle, ⟨-, -, h⟩ | ⟨-, h⟩⟩
  · rw [id, h, Flow.again.injEq] at hpass
    rwa [← hpass]
  · rw [id, h] at hpass
    exact absurd hpass (by simp)
  · rw [id, h, Flow.again.injEq] at hpass
    rw [← hpass]
    exact inv.advance hallowed hle
  · rw [id, h] at hpass
    exact absurd hpass (by simp)

/-! ## The whole run -/

/-- **Termination**: the total grows in every pass that is not an `EAGAIN`. -/
theorem copySliceLinux_terminates (build : Build) (source : AsyncFileSlice)
    (kernel : LinuxKernel) (heagain : {n | EagainAt build source kernel n}.Finite) :
    ∃ n r, copySliceLinux build source kernel n = Flow.leave r := by
  refine loopAt_terminates (fun s => source.len.toNat - s.totalTransferred.toNat)
    (EagainAt build source kernel) heagain ?_
  intro n s s' hs hpass hlive
  have inv := copySliceLinux_invariant build source kernel n s hs
  rcases copyPass_cases build kernel n inv.total_le with
    ⟨heag, -⟩ | ⟨code, -, h⟩ | ⟨k, -, hle, ⟨hk, hmore, h⟩ | ⟨-, h⟩⟩
  · exact absurd ⟨s, hs, heag⟩ hlive
  · rw [id, h] at hpass
    exact absurd hpass (by simp)
  · rw [id, h, Flow.again.injEq] at hpass
    have hpos : 0 < k.toNat := Nat.pos_of_ne_zero fun h0 => hk (UInt64.toNat_inj.mp h0)
    have hlen := source.len.toNat_lt
    have hnat : s'.totalTransferred.toNat = s.totalTransferred.toNat + k.toNat := by
      rw [← hpass]
      exact toNat_add_of_lt (by omega)
    show source.len.toNat - s'.totalTransferred.toNat < source.len.toNat - s.totalTransferred.toNat
    omega
  · rw [id, h] at hpass
    exact absurd hpass (by simp)

/-- How a run may have ended, given the file as its last call found it and the error with which that
call `failed`, if it did.  The error that is returned is the call's own, and not an `EAGAIN`. -/
def CopyEnded (source : AsyncFileSlice) (file : List UInt8) (failed : Errno → Prop)
    (out : CopyOutcome) : Prop :=
  match out.result with
  | CopyResult.ok n =>
      out.target = window file source.position.toNat n.toNat ∧ out.target.length = n.toNat ∧
        (n = source.len ∨ (n < source.len ∧ file.length ≤ source.position.toNat + n.toNat))
  | CopyResult.err error =>
      (∃ code, failed (Errno.other code) ∧
        error = SendFileError.NixError (Errno.other code)) ∧
      ∃ j ≤ source.len.toNat, out.target = window file source.position.toNat j ∧
        out.target.length = j
  | CopyResult.panicked => False

theorem copyPass_ended (build : Build) (source : AsyncFileSlice) (kernel : LinuxKernel) {n : ℕ}
    {s : CopyState} (inv : CopyInv source (kernel.file n).bytes s) {out : CopyOutcome}
    (hpass : copyPass build kernel source.len s n = Flow.leave out) :
    CopyEnded source (kernel.file n).bytes (kernel.Fails source n s) out := by
  rcases copyPass_cases build kernel n inv.total_le with
    ⟨-, h⟩ | ⟨code, hfails, h⟩ | ⟨k, hallowed, hle, ⟨-, -, h⟩ | ⟨hlast, h⟩⟩
  · rw [h] at hpass
    exact absurd hpass (by simp)
  · rw [h, Flow.leave.injEq] at hpass
    rw [← hpass]
    exact ⟨⟨code, hfails, rfl⟩, s.totalTransferred.toNat,
      UInt64.le_iff_toNat_le.mp inv.total_le, inv.target, inv.length_target⟩
  · rw [h] at hpass
    exact absurd hpass (by simp)
  · rw [h, Flow.leave.injEq] at hpass
    rw [← hpass]
    have inv' := inv.advance hallowed hle
    refine ⟨inv'.target, inv'.length_target, ?_⟩
    have hlen := source.len.toNat_lt
    have hnat : (s.totalTransferred + k).toNat = s.totalTransferred.toNat + k.toNat :=
      toNat_add_of_lt (by omega)
    by_cases hfull : s.totalTransferred.toNat + k.toNat = source.len.toNat
    · exact Or.inl (UInt64.toNat_inj.mp (by omega))
    · refine Or.inr ⟨UInt64.lt_iff_toNat_lt.mpr (by omega), ?_⟩
      -- only an `Ok(0)` returns early, and with bytes still wanted it means end of file
      have hk : k = 0 := hlast.resolve_right hfull
      have hk0 : k.toNat = 0 := by rw [hk]; rfl
      rcases hallowed.2.2 hk with hcount | heof
      · have hsub := UInt64.toNat_sub_of_le _ _ inv.total_le
        rw [hcount] at hsub
        simp at hsub
        omega
      · have hcur := inv.offset_toNat (by omega)
        omega

/-- A run that has returned, together with the file its last call found. -/
lemma copySliceLinux_leave (build : Build) (source : AsyncFileSlice) (kernel : LinuxKernel)
    {n : ℕ} {out : CopyOutcome} (h : copySliceLinux build source kernel n = Flow.leave out) :
    ∃ m s, copySliceLinux build source kernel m = Flow.again s ∧
      CopyEnded source (kernel.file m).bytes (kernel.Fails source m s) out := by
  obtain ⟨m, s, -, hs, hpass⟩ := loopAt_leave_cases h
  have inv := copySliceLinux_invariant build source kernel m s hs
  exact ⟨m, s, hs, copyPass_ended build source kernel inv hpass⟩

/-- **`copy_slice` on Linux, for every kernel behaviour.**  With finitely many `EAGAIN`s the loop
returns; at every loop head the three running quantities agree and the target has received
exactly the window the total says; and the run ends as `CopyEnded` allows, the file and the error
being those of the last call. -/
theorem copySliceLinux_correct (build : Build) (source : AsyncFileSlice) (kernel : LinuxKernel)
    (hrange : source.position.toNat + source.len.toNat < 2 ^ 63)
    (heagain : {n | EagainAt build source kernel n}.Finite) :
    (∃ n out, copySliceLinux build source kernel n = Flow.leave out) ∧
    (∀ n s, copySliceLinux build source kernel n = Flow.again s →
      s.totalTransferred ≤ source.len ∧
      s.currentOffset = source.position.toNat + s.totalTransferred.toNat ∧
      s.target = window (kernel.file n).bytes source.position.toNat s.totalTransferred.toNat ∧
      s.target.length = s.totalTransferred.toNat) ∧
    (∀ n s out, copySliceLinux build source kernel n = Flow.again s →
      copySliceLinux build source kernel (n + 1) = Flow.leave out →
      CopyEnded source (kernel.file n).bytes (kernel.Fails source n s) out) := by
  refine ⟨copySliceLinux_terminates build source kernel heagain, ?_, ?_⟩
  · intro n s hs
    have inv := copySliceLinux_invariant build source kernel n s hs
    have hoff := inv.offset
    rw [asI64_of_lt (by omega)] at hoff
    exact ⟨inv.total_le, hoff, inv.target, inv.length_target⟩
  · intro n s out hs hout
    have inv := copySliceLinux_invariant build source kernel n s hs
    have hpass : copyPass build kernel source.len s n = Flow.leave out := by
      rw [copySliceLinux, loopAt_succ_of_again hs] at hout
      exact hout
    exact copyPass_ended build source kernel inv hpass

/-! ## A kernel that meets the contract

It is busy for its first `busy` calls and afterwards sends as much as it is asked for and the
file still holds.
-/

def greedySendfile (file : List UInt8) (off : ℤ) (count : UInt64) : Except Errno UInt64 :=
  if 0 ≤ off then
    if count.toNat ≤ file.length - off.toNat then Except.ok count
    else Except.ok (UInt64.ofNat (file.length - off.toNat))
  else Except.error (Errno.other 22)

lemma greedySendfile_allowed (file : FileContent) (off : ℤ) (count : UInt64) :
    SendfileAllowed file.bytes off count (greedySendfile file.bytes off count) := by
  have hlt := file.length_lt
  simp only [greedySendfile]
  split_ifs with hoff hcount
  · refine ⟨UInt64.le_refl _, ?_, fun h => Or.inl h⟩
    intro hne
    have hpos : 0 < count.toNat := Nat.pos_of_ne_zero fun h0 => hne (UInt64.toNat_inj.mp h0)
    exact ⟨hoff, by omega⟩
  · have hrest : (UInt64.ofNat (file.bytes.length - off.toNat)).toNat
        = file.bytes.length - off.toNat := by
      rw [UInt64.toNat_ofNat']
      exact Nat.mod_eq_of_lt (by omega)
    refine ⟨UInt64.le_iff_toNat_le.mpr (by omega), ?_, ?_⟩
    · intro hne
      have hpos : 0 < (UInt64.ofNat (file.bytes.length - off.toNat)).toNat :=
        Nat.pos_of_ne_zero fun h0 => hne (UInt64.toNat_inj.mp h0)
      exact ⟨hoff, by omega⟩
    · intro hzero
      have h0 : file.bytes.length - off.toNat = 0 := by rw [← hrest, hzero]; rfl
      exact Or.inr (by omega)
  · trivial

def greedyKernel (file : FileContent) (busy : ℕ) : LinuxKernel where
  file := fun _ => file
  sendfile := fun n off count =>
    if n < busy then Except.error Errno.EAGAIN else greedySendfile file.bytes off count
  grows := fun _ => List.prefix_refl _
  allowed := by
    intro n off count
    split_ifs
    · trivial
    · exact greedySendfile_allowed file off count

lemma greedyKernel_eagain (build : Build) (source : AsyncFileSlice) (file : FileContent)
    (busy : ℕ) : {n | EagainAt build source (greedyKernel file busy) n}.Finite := by
  refine (Set.finite_lt_nat busy).subset ?_
  rintro n ⟨s, -, hreply⟩
  simp only [greedyKernel, greedySendfile] at hreply
  split_ifs at hreply with hbusy
  · exact hbusy
  · exact absurd hreply (by simp)

/-- The first call is busy, and the second sends the slice. -/
theorem copySliceLinux_correct_busy :
    copySliceLinux Build.debug ⟨3, 1, 2⟩ (greedyKernel ⟨[7, 8, 9, 10], by decide⟩ 1) 1
      = Flow.again ⟨0, 1, []⟩ ∧
    copySliceLinux Build.debug ⟨3, 1, 2⟩ (greedyKernel ⟨[7, 8, 9, 10], by decide⟩ 1) 2
      = Flow.leave ⟨CopyResult.ok 2, [8, 9]⟩ ∧
    ([8, 9] : List UInt8) = window [7, 8, 9, 10] 1 2 := by
  have hended := (copySliceLinux_correct Build.debug ⟨3, 1, 2⟩
    (greedyKernel ⟨[7, 8, 9, 10], by decide⟩ 1) (by decide)
    (greedyKernel_eagain _ _ _ _)).2.2 1 _ ⟨CopyResult.ok 2, [8, 9]⟩ rfl (by decide)
  exact ⟨by decide, by decide, hended.1⟩

end FutureAio.ZeroCopy
