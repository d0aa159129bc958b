import FutureAio.ZeroCopy.Linux

/-!
# `ZeroCopy::copy_slice` on macOS

The loop looks like the Linux one and runs against a different system call.  Here the *code*
advances `current_offset`; a call reports how many bytes it moved even when it fails with
`EAGAIN`; and a requested count of zero does not mean "nothing", it means "until end of file".

The last point is where the two loops part.  `to_be_transfer` is zero at a loop head in two
ways: the slice is empty, or a call answered `EAGAIN` after moving everything it was asked for —
the `EAGAIN` arm goes round without looking at the total.  The next call then sends the rest of
the file.

* `MacContract` — the Linux contract, and agreement with every Linux run on the same file.
* `MacSafeHead` — the heads from which a pass stays inside the slice.
* `macContract_iff` — over all kernels the contract holds exactly for slices that reach the end
  of the file; over kernels whose `EAGAIN`s are always partial, exactly when the slice is
  non-empty or starts at or past the end.
-/

namespace FutureAio.ZeroCopy

open RustInt OracleLoop Window

/-! ## The system call -/

/-- What `sendfile` may report on a file with content `file`, as wrapped by nix: a result and the
number of bytes moved, whatever the result.  A positive count bounds that number; a zero count
asks for everything up to end of file; success without bytes is end of file. -/
def MacSendfileAllowed (file : List UInt8) (off count : ℤ)
    (reply : Except Errno Unit × UInt64) : Prop :=
  (reply.2 ≠ 0 → 0 ≤ off ∧ off + reply.2.toNat ≤ file.length) ∧
  (0 < count → (reply.2.toNat : ℤ) ≤ count) ∧
  (reply.1 = Except.ok () → count = 0 → (file.length : ℤ) ≤ off + reply.2.toNat) ∧
  (reply.1 = Except.ok () → reply.2 = 0 → (file.length : ℤ) ≤ off)

structure MacKernel (file : FileContent) where
  sendfile : ℕ → ℤ → ℤ → Except Errno Unit × UInt64
  allowed : ∀ n off count, MacSendfileAllowed file.bytes off count (sendfile n off count)

/-- Every `EAGAIN` answer to a bounded request left something of it unsent. -/
def MacKernel.EagainPartial {file : FileContent} (kernel : MacKernel file) : Prop :=
  ∀ n off count, 0 < count → (kernel.sendfile n off count).1 = Except.error Errno.EAGAIN →
    ((kernel.sendfile n off count).2.toNat : ℤ) < count

/-! ## The loop -/

structure MacState where
  totalTransferred : UInt64
  currentOffset : UInt64
  target : List UInt8
  deriving DecidableEq, Repr

/-- What the body does with the result of the call, the counters being already advanced. -/
def macSettle (size : UInt64) (k : UInt64) (s : MacState) :
    Except Errno Unit → Flow MacState CopyOutcome
  | Except.ok _ =>
      -- zero bytes transferred means it's EOF
      if k = 0 then Flow.leave ⟨CopyResult.ok s.totalTransferred, s.target⟩
      else if s.totalTransferred < size then Flow.again s
      else Flow.leave ⟨CopyResult.ok s.totalTransferred, s.target⟩
  | Except.error Errno.EAGAIN => Flow.again s
  | Except.error err => Flow.leave ⟨CopyResult.err (SendFileError.NixError err), s.target⟩

def macPass (build : Build) {file : FileContent} (kernel : MacKernel file) (size : UInt64)
    (s : MacState) (n : ℕ) : Flow MacState CopyOutcome :=
  match subU64 build size s.totalTransferred with
  | none => Flow.leave ⟨CopyResult.panicked, s.target⟩
  | some toBeTransfer =>
      let reply := kernel.sendfile n (asI64 s.currentOffset) (asI64 toBeTransfer)
      let target := s.target ++ window file.bytes (asI64 s.currentOffset).toNat reply.2.toNat
      match addU64 build s.totalTransferred reply.2, addU64 build s.currentOffset reply.2 with
      | some total, some offset => macSettle size reply.2 ⟨total, offset, target⟩ reply.1
      | _, _ => Flow.leave ⟨CopyResult.panicked, target⟩

/-- `ZeroCopy::copy_slice`, after `n` passes of its loop. -/
def copySliceMacos (build : Build) {file : FileContent} (source : AsyncFileSlice)
    (kernel : MacKernel file) : ℕ → Flow MacState CopyOutcome :=
  loopAt (macPass build kernel source.len) id ⟨0, source.position, []⟩

/-- The call pass `n` makes from the head `s`. -/
def macReply {file : FileContent} (kernel : MacKernel file) (source : AsyncFileSlice) (s : MacState)
    (n : ℕ) : Except Errno Unit × UInt64 :=
  kernel.sendfile n (asI64 s.currentOffset) (asI64 (source.len - s.totalTransferred))

/-- It fails with `err`. -/
def MacKernel.Fails {file : FileContent} (kernel : MacKernel file) (source : AsyncFileSlice) (n : ℕ)
    (s : MacState) (err : Errno) : Prop :=
  (macReply kernel source s n).1 = Except.error err

/-- **The contract of the Linux loop, for a macOS run**: the remaining-bytes subtraction never
underflows, what has been sent is always a prefix of the slice, the run ends as a Linux run may
end, and two successful runs on the same file agree. -/
structure MacContract (build : Build) {file : FileContent} (source : AsyncFileSlice)
    (kernel : MacKernel file) : Prop where
  head : ∀ n s, copySliceMacos build source kernel n = Flow.again s →
    s.totalTransferred ≤ source.len ∧
      s.target <+: window file.bytes source.position.toNat source.len.toNat
  ended : ∀ n out, copySliceMacos build source kernel n = Flow.leave out →
    ∃ m s, copySliceMacos build source kernel m = Flow.again s ∧
      CopyEnded source file.bytes (kernel.Fails source m s) out
  agrees : ∀ linux : LinuxKernel, (∀ n, linux.file n = file) →
    ∀ n m out out' k k', copySliceMacos build source kernel n = Flow.leave out →
      copySliceLinux build source linux m = Flow.leave out' →
      out.result = CopyResult.ok k → out'.result = CopyResult.ok k' →
      k = k' ∧ out.target = out'.target

/-! ## The loop-head invariant -/

structure MacInv (source : AsyncFileSlice) (file : List UInt8) (s : MacState) : Prop where
  total_le : s.totalTransferred ≤ source.len
  offset : s.currentOffset = source.position + s.totalTransferred
  target : s.target = window file source.position.toNat s.totalTransferred.toNat
  inFile : s.totalTransferred ≠ 0 →
    source.position.toNat + s.totalTransferred.toNat ≤ file.length

/-- A head with nothing left to ask for is safe only when the file ends with the slice. -/
def MacSafeHead (source : AsyncFileSlice) (file : List UInt8) (s : MacState) : Prop :=
  s.totalTransferred = source.len → file.length ≤ source.position.toNat + source.len.toNat

lemma MacInv.init (source : AsyncFileSlice) (file : List UInt8) :
    MacInv source file ⟨0, source.position, []⟩ := by
  refine ⟨?_, ?_, ?_, ?_⟩
  · exact UInt64.le_iff_toNat_le.mpr (by simp)
  · simp
  · simp
  · intro h
    exact absurd rfl h

lemma MacInv.length_target {source : AsyncFileSlice} {file : List UInt8} {s : MacState}
    (inv : MacInv source file s) : s.target.length = s.totalTransferred.toNat := by
  rw [inv.target]
  by_cases h : s.totalTransferred = 0
  · rw [h]
    simp
  · exact length_window_of_le (inv.inFile h)

lemma MacInv.target_isPrefix {source : AsyncFileSlice} {file : List UInt8} {s : MacState}
    (inv : MacInv source file s) :
    s.target <+: window file source.position.toNat source.len.toNat := by
  rw [inv.target]
  exact window_isPrefix _ _ (UInt64.le_iff_toNat_le.mp inv.total_le)

lemma MacInv.offset_toNat {source : AsyncFileSlice} {file : FileContent} {s : MacState}
    (inv : MacInv source file.bytes s) :
    s.currentOffset.toNat = source.position.toNat + s.totalTransferred.toNat := by
  have hlt := file.length_lt
  rw [inv.offset]
  by_cases h : s.totalTransferred = 0
  · rw [h]
    simp
  · have := inv.inFile h
    exact toNat_add_of_lt (by omega)

/-! ## One pass from a safe head -/

section Pass

variable {build : Build} {file : FileContent} {kernel : MacKernel file}
variable {source : AsyncFileSlice} {s : MacState} {n : ℕ}

def macAdvance (file : FileContent) (s : MacState) (k : UInt64) : MacState where
  totalTransferred := s.totalTransferred + k
  currentOffset := s.currentOffset + k
  target := s.target ++ window file.bytes (asI64 s.currentOffset).toNat k.toNat

lemma macReply_allowed (kernel : MacKernel file) (source : AsyncFileSlice) (s : MacState)
    (n : ℕ) : MacSendfileAllowed file.bytes (asI64 s.currentOffset)
    (asI64 (source.len - s.totalTransferred)) (macReply kernel source s n) :=
  kernel.allowed _ _ _

/-- Bytes moved from a head lie in the file right behind what was sent before. -/
lemma MacInv.moved_inFile (inv : MacInv source file.bytes s)
    (hk : (macReply kernel source s n).2 ≠ 0) :
    asI64 s.currentOffset = source.position.toNat + s.totalTransferred.toNat ∧
      source.position.toNat + s.totalTransferred.toNat + (macReply kernel source s n).2.toNat
        ≤ file.bytes.length := by
  obtain ⟨hoff, hend⟩ := (macReply_allowed kernel source s n).1 hk
  have hcur := inv.offset_toNat
  have hsmall : s.currentOffset.toNat < 2 ^ 63 := by
    by_contra hge
    have := asI64_of_ge (x := s.currentOffset) (by omega)
    omega
  have heq := asI64_of_lt hsmall
  exact ⟨by omega, by omega⟩

lemma MacInv.remaining (inv : MacInv source file.bytes s) :
    (source.len - s.totalTransferred).toNat = source.len.toNat - s.totalTransferred.toNat :=
  UInt64.toNat_sub_of_le _ _ inv.total_le

/-- **A pass from a safe head stays inside the slice.**  The three cases are the three readings
of the requested count: positive, zero, and — for a slice longer than `i64` can say —
negative. -/
lemma MacInv.moved_le (inv : MacInv source file.bytes s)
    (hsafe : MacSafeHead source file.bytes s) (kernel : MacKernel file) (n : ℕ) :
    s.totalTransferred.toNat + (macReply kernel source s n).2.toNat ≤ source.len.toNat := by
  have htotal := UInt64.le_iff_toNat_le.mp inv.total_le
  have hrem := inv.remaining
  have hlt := file.length_lt
  by_cases hk : (macReply kernel source s n).2 = 0
  · rw [hk]
    simpa using htotal
  · obtain ⟨-, hend⟩ := inv.moved_inFile hk
    by_cases hzero : source.len.toNat = s.totalTransferred.toNat
    · have := hsafe (UInt64.toNat_inj.mp hzero.symm)
      omega
    · by_cases hsmall : (source.len - s.totalTransferred).toNat < 2 ^ 63
      · have hcount := asI64_of_lt hsmall
        have := (macReply_allowed kernel source s n).2.1
          (by omega)
        omega
      · omega

lemma macPass_of_lt (build : Build) (kernel : MacKernel file) (n : ℕ)
    (htotal : s.totalTransferred ≤ source.len)
    (hadd : s.totalTransferred.toNat + (macReply kernel source s n).2.toNat < 2 ^ 64)
    (hoff : s.currentOffset.toNat + (macReply kernel source s n).2.toNat < 2 ^ 64) :
    macPass build kernel source.len s n
      = macSettle source.len (macReply kernel source s n).2
          (macAdvance file s (macReply kernel source s n).2) (macReply kernel source s n).1 := by
  have hadd' := addU64_of_lt build hadd
  have hoff' := addU64_of_lt build hoff
  rw [macReply] at hadd' hoff'
  simp only [macPass, subU64_of_le build htotal, hadd', hoff']
  rfl

lemma macPass_eq (inv : MacInv source file.bytes s) (hsafe : MacSafeHead source file.bytes s) :
    macPass build kernel source.len s n
      = macSettle source.len (macReply kernel source s n).2
          (macAdvance file s (macReply kernel source s n).2) (macReply kernel source s n).1 := by
  have hlen := source.len.toNat_lt
  have hle := inv.moved_le hsafe kernel n
  have hcur := inv.offset_toNat
  have hoff : s.currentOffset.toNat + (macReply kernel source s n).2.toNat < 2 ^ 64 := by
    by_cases hk : (macReply kernel source s n).2 = 0
    · have := s.currentOffset.toNat_lt
      rw [hk]
      simpa using this
    · have := (inv.moved_inFile hk).2
      have := file.length_lt
      omega
  exact macPass_of_lt build kernel n inv.total_le (by omega) hoff

lemma MacInv.advance (inv : MacInv source file.bytes s)
    (hsafe : MacSafeHead source file.bytes s) (kernel : MacKernel file) (n : ℕ) :
    MacInv source file.bytes (macAdvance file s (macReply kernel source s n).2) := by
  have hlen := source.len.toNat_lt
  have hle := inv.moved_le hsafe kernel n
  have hin : (macReply kernel source s n).2 ≠ 0 → _ := inv.moved_inFile
  generalize (macReply kernel source s n).2 = k at hle hin ⊢
  have hnat : (s.totalTransferred + k).toNat = s.totalTransferred.toNat + k.toNat :=
    toNat_add_of_lt (by omega)
  refine ⟨?_, ?_, ?_, ?_⟩
  · refine UInt64.le_iff_toNat_le.mpr ?_
    show (s.totalTransferred + k).toNat ≤ source.len.toNat
    omega
  · show s.currentOffset + k = source.position + (s.totalTransferred + k)
    rw [inv.offset, UInt64.add_assoc]
  · show s.target ++ window file.bytes (asI64 s.currentOffset).toNat k.toNat
      = window file.bytes source.position.toNat (s.totalTransferred + k).toNat
    rw [hnat, inv.target]
    refine window_append_window _ ?_
    intro hk
    rw [(hin (by rintro rfl; exact hk rfl)).1]
    rfl
  · intro hne
    show source.position.toNat + (s.totalTransferred + k).toNat ≤ file.bytes.length
    by_cases hk : k = 0
    · have hsame : s.totalTransferred + k = s.totalTransferred := by rw [hk, UInt64.add_zero]
      have hne' : s.totalTransferred + k ≠ 0 := hne
      rw [hsame] at hne' ⊢
      exact inv.inFile hne'
    · have := (hin hk).2
      omega

lemma macSettle_again {size k : UInt64} {s' s'' : MacState} {res : Except Errno Unit}
    (h : macSettle size k s' res = Flow.again s'') :
    s' = s'' ∧ (s'.totalTransferred < size ∨ res = Except.error Errno.EAGAIN) := by
  cases res with
  | ok u =>
      simp only [macSettle] at h
      split_ifs at h with hk hmore
      exact ⟨Flow.again.inj h, Or.inl hmore⟩
  | error err =>
      cases err with
      | EAGAIN => exact ⟨Flow.again.inj h, Or.inr rfl⟩
      | other code => exact absurd h (by simp [macSettle])

/-- What `macSettle` returns with from a state that satisfies the invariant. -/
lemma macSettle_ended {k : UInt64} {s' : MacState} {res : Except Errno Unit}
    (inv' : MacInv source file.bytes s')
    (heof : res = Except.ok () → k = 0 → (file.bytes.length : ℤ) ≤ asI64 s'.currentOffset)
    {out : CopyOutcome} (h : macSettle source.len k s' res = Flow.leave out) :
    CopyEnded source file.bytes (fun err => res = Except.error err) out := by
  have htotal := UInt64.le_iff_toNat_le.mp inv'.total_le
  cases res with
  | error err =>
      cases err with
      | EAGAIN => exact absurd h (by simp [macSettle])
      | other code =>
          simp only [macSettle, Flow.leave.injEq] at h
          rw [← h]
          exact ⟨⟨code, rfl, rfl⟩, s'.totalTransferred.toNat, htotal, inv'.target,
            inv'.length_target⟩
  | ok u =>
      have hcases : out = ⟨CopyResult.ok s'.totalTransferred, s'.target⟩ ∧
          (k = 0 ∨ ¬ s'.totalTransferred < source.len) := by
        simp only [macSettle] at h
        split_ifs at h with hk hmore
        · exact ⟨(Flow.leave.inj h).symm, Or.inl hk⟩
        · exact ⟨(Flow.leave.inj h).symm, Or.inr hmore⟩
      obtain ⟨rfl, hwhy⟩ := hcases
      refine ⟨inv'.target, inv'.length_target, ?_⟩
      by_cases hfull : s'.totalTransferred.toNat = source.len.toNat
      · exact Or.inl (UInt64.toNat_inj.mp hfull)
      · have hlt : s'.totalTransferred < source.len := UInt64.lt_iff_toNat_lt.mpr (by omega)
        refine Or.inr ⟨hlt, ?_⟩
        have hend := heof rfl (hwhy.resolve_right fun h' => h' hlt)
        have hcur := inv'.offset_toNat
        have hsmall : s'.currentOffset.toNat < 2 ^ 63 := by
          by_contra hge
          have := asI64_of_ge (x := s'.currentOffset) (by omega)
          omega
        rw [asI64_of_lt hsmall] at hend
        omega

lemma macPass_ended (inv : MacInv source file.bytes s) (hsafe : MacSafeHead source file.bytes s)
    {out : CopyOutcome} (h : macPass build kernel source.len s n = Flow.leave out) :
    CopyEnded source file.bytes (kernel.Fails source n s) out := by
  rw [macPass_eq inv hsafe] at h
  refine macSettle_ended (inv.advance hsafe kernel n) ?_ h
  intro hok hk
  have heof := (macReply_allowed kernel source s n).2.2.2
    hok hk
  show (file.bytes.length : ℤ) ≤ asI64 (s.currentOffset + (macReply kernel source s n).2)
  rw [hk, UInt64.add_zero]
  exact heof

end Pass

/-! ## Whole runs -/

/-- How many bytes a successful run delivers is decided by the file and the slice alone. -/
lemma copyEnded_ok_unique {source : AsyncFileSlice} {file : List UInt8} {out out' : CopyOutcome}
    {failed failed' : Errno → Prop} {k k' : UInt64} (h : CopyEnded source file failed out)
    (h' : CopyEnded source file failed' out')
    (hk : out.result = CopyResult.ok k) (hk' : out'.result = CopyResult.ok k') :
    k = k' ∧ out.target = out'.target := by
  simp only [CopyEnded, hk] at h
  simp only [CopyEnded, hk'] at h'
  obtain ⟨htarget, hlen, hwhy⟩ := h
  obtain ⟨htarget', hlen', hwhy'⟩ := h'
  have hcount : k = k' := by
    have hmin := length_window file source.position.toNat k.toNat
    have hmin' := length_window file source.position.toNat k'.toNat
    rw [← htarget, hlen] at hmin
    rw [← htarget', hlen'] at hmin'
    refine UInt64.toNat_inj.mp ?_
    rcases hwhy with rfl | ⟨hlt, hend⟩
    · rcases hwhy' with rfl | ⟨hlt', hend'⟩
      · rfl
      · have := UInt64.lt_iff_toNat_lt.mp hlt'
        omega
    · rcases hwhy' with rfl | ⟨hlt', hend'⟩
      · have := UInt64.lt_iff_toNat_lt.mp hlt
        omega
      · omega
  refine ⟨hcount, ?_⟩
  rw [htarget, htarget', hcount]

/-- The contract holds as soon as every head is safe; `Q` is what a run keeps to make it so. -/
theorem macContract_of_safe (build : Build) {file : FileContent} (source : AsyncFileSlice)
    (kernel : MacKernel file) (Q : MacState → Prop) (hinit : Q ⟨0, source.position, []⟩)
    (hsafe : ∀ s, Q s → MacSafeHead source file.bytes s)
    (hkeep : ∀ n s s', MacInv source file.bytes s → Q s →
      macPass build kernel source.len s n = Flow.again s' → Q s') :
    MacContract build source kernel := by
  have hinv : ∀ n s, copySliceMacos build source kernel n = Flow.again s →
      MacInv source file.bytes s ∧ Q s := by
    refine loopAt_invariant (fun _ s => MacInv source file.bytes s ∧ Q s)
      ⟨MacInv.init source _, hinit⟩ ?_
    rintro n s s' - ⟨inv, hq⟩ hpass
    refine ⟨?_, hkeep n s s' inv hq hpass⟩
    have hadv := inv.advance (hsafe s hq) kernel n
    rw [id, macPass_eq inv (hsafe s hq)] at hpass
    rwa [← (macSettle_again hpass).1]
  have hended : ∀ n out, copySliceMacos build source kernel n = Flow.leave out →
      ∃ m s, copySliceMacos build source kernel m = Flow.again s ∧
        CopyEnded source file.bytes (kernel.Fails source m s) out := by
    intro n out h
    obtain ⟨m, s, -, hs, hpass⟩ := loopAt_leave_cases h
    obtain ⟨inv, hq⟩ := hinv m s hs
    exact ⟨m, s, hs, macPass_ended inv (hsafe s hq) hpass⟩
  refine ⟨?_, hended, ?_⟩
  · intro n s hs
    obtain ⟨inv, -⟩ := hinv n s hs
    exact ⟨inv.total_le, inv.target_isPrefix⟩
  · intro linux hfixed n m out out' k k' h h' hk hk'
    obtain ⟨_, _, -, hmac⟩ := hended n out h
    obtain ⟨m', _, -, hlinux⟩ := copySliceLinux_leave build source linux h'
    rw [hfixed m'] at hlinux
    exact copyEnded_ok_unique hmac hlinux hk hk'

theorem macContract_of_reachesEof (build : Build) {file : FileContent} (source : AsyncFileSlice)
    (kernel : MacKernel file)
    (hend : file.bytes.length ≤ source.position.toNat + source.len.toNat) :
    MacContract build source kernel :=
  macContract_of_safe build source kernel (fun _ => True) trivial (fun _ _ _ => hend)
    (fun _ _ _ _ _ _ => trivial)

/-- With partial `EAGAIN`s a non-empty slice is never exhausted at a loop head. -/
theorem macContract_of_shortEagain (build : Build) {file : FileContent} (source : AsyncFileSlice)
    (kernel : MacKernel file) (hshort : kernel.EagainPartial) (hlen : 0 < source.len.toNat) :
    MacContract build source kernel := by
  refine macContract_of_safe build source kernel
    (fun s => s.totalTransferred.toNat < source.len.toNat) (by simpa using hlen) ?_ ?_
  · intro s hlt heq
    rw [heq] at hlt
    exact absurd hlt (lt_irrefl _)
  · intro n s s' inv hlt hpass
    have hsafe : MacSafeHead source file.bytes s := by
      intro heq
      rw [heq] at hlt
      exact absurd hlt (lt_irrefl _)
    have hsz := source.len.toNat_lt
    have hle := inv.moved_le hsafe kernel n
    have hnat := toNat_add_of_lt (a := s.totalTransferred)
      (b := (macReply kernel source s n).2) (by omega)
    have hrem := inv.remaining
    rw [macPass_eq inv hsafe] at hpass
    obtain ⟨hs', hwhy⟩ := macSettle_again hpass
    rw [← hs']
    rcases hwhy with hmore | hres
    · exact UInt64.lt_iff_toNat_lt.mp hmore
    · show (s.totalTransferred + (macReply kernel source s n).2).toNat < source.len.toNat
      by_cases hsmall : (source.len - s.totalTransferred).toNat < 2 ^ 63
      · have hcount := asI64_of_lt hsmall
        have hmoved : ((macReply kernel source s n).2.toNat : ℤ)
            < asI64 (source.len - s.totalTransferred) :=
          hshort n (asI64 s.currentOffset) _ (by omega) hres
        omega
      · -- the request was read as negative; the file bounds what was moved
        have hflt := file.length_lt
        by_cases hk : (macReply kernel source s n).2 = 0
        · rw [hk, UInt64.add_zero]
          exact hlt
        · have := (inv.moved_inFile hk).2
          omega

/-! ## Kernels that overrun the slice

`macKernel file busy` moves as much as it is asked for and the file holds; its first `busy`
answers are `EAGAIN`s, with their bytes counted all the same.
-/

def macGreedy (file : List UInt8) (off count : ℤ) : UInt64 :=
  if 0 < count ∧ count.toNat ≤ file.length - off.toNat then UInt64.ofNat count.toNat
  else UInt64.ofNat (file.length - off.toNat)

lemma macGreedy_toNat (file : FileContent) (off count : ℤ) :
    (macGreedy file.bytes off count).toNat
      = if 0 < count ∧ count.toNat ≤ file.bytes.length - off.toNat then count.toNat
        else file.bytes.length - off.toNat := by
  have hlt := file.length_lt
  simp only [macGreedy]
  split_ifs with h
  · rw [UInt64.toNat_ofNat']
    exact Nat.mod_eq_of_lt (by omega)
  · rw [UInt64.toNat_ofNat']
    exact Nat.mod_eq_of_lt (by omega)

lemma macGreedy_allowed (file : FileContent) {off : ℤ} (count : ℤ) (hoff : 0 ≤ off)
    (res : Except Errno Unit) :
    MacSendfileAllowed file.bytes off count (res, macGreedy file.bytes off count) := by
  have hamount := macGreedy_toNat file off count
  refine ⟨?_, ?_, ?_, ?_⟩
  · intro hne
    have hpos : 0 < (macGreedy file.bytes off count).toNat :=
      Nat.pos_of_ne_zero fun h0 => hne (UInt64.toNat_inj.mp h0)
    refine ⟨hoff, ?_⟩
    show off + ((macGreedy file.bytes off count).toNat : ℤ) ≤ file.bytes.length
    split_ifs at hamount <;> omega
  · intro hcount
    show ((macGreedy file.bytes off count).toNat : ℤ) ≤ count
    split_ifs at hamount <;> omega
  · intro _ hcount
    show (file.bytes.length : ℤ) ≤ off + (macGreedy file.bytes off count).toNat
    split_ifs at hamount <;> omega
  · intro _ hzero
    have h0 : (macGreedy file.bytes off count).toNat = 0 := congrArg UInt64.toNat hzero
    split_ifs at hamount <;> omega

def macKernel (file : FileContent) (busy : ℕ) : MacKernel file where
  sendfile := fun n off count =>
    if 0 ≤ off then
      (if n < busy then Except.error Errno.EAGAIN else Except.ok (),
        macGreedy file.bytes off count)
    else (Except.error (Errno.other 22), 0)
  allowed := by
    intro n off count
    split_ifs with hoff hbusy
    · exact macGreedy_allowed file count hoff _
    · exact macGreedy_allowed file count hoff _
    · exact ⟨fun h => absurd rfl h, fun h => by simpa using h.le, fun h => by simp at h,
        fun h => by simp at h⟩

/-- What `macKernel` answers to a pass at offset `position + total`, inside the file. -/
lemma macKernel_reply (file : FileContent) (source : AsyncFileSlice) (s : MacState) (busy n : ℕ)
    (hoff : s.currentOffset.toNat < 2 ^ 63) :
    macReply (macKernel file busy) source s n
      = (if n < busy then Except.error Errno.EAGAIN else Except.ok (),
          macGreedy file.bytes s.currentOffset.toNat
            (asI64 (source.len - s.totalTransferred))) := by
  have hcast := asI64_of_lt hoff
  have hnn : 0 ≤ asI64 s.currentOffset := by omega
  rw [macReply]
  simp only [macKernel]
  rw [if_pos hnn, hcast]

/-- Asked for nothing, the kernel sends everything up to the end of the file. -/
lemma macKernel_rest (file : FileContent) {source : AsyncFileSlice} {s : MacState} {busy n : ℕ}
    (hn : busy ≤ n) (htotal : s.totalTransferred = source.len)
    (hoff : s.currentOffset.toNat ≤ file.bytes.length) :
    ∃ k, macReply (macKernel file busy) source s n = (Except.ok (), k) ∧
      k.toNat = file.bytes.length - s.currentOffset.toNat := by
  have hlt := file.length_lt
  have hcount : asI64 (source.len - s.totalTransferred) = 0 := by
    rw [htotal, UInt64.sub_self]
    rfl
  have hamount := macGreedy_toNat file s.currentOffset.toNat 0
  rw [if_neg (by omega)] at hamount
  refine ⟨macGreedy file.bytes s.currentOffset.toNat 0, ?_, by simpa using hamount⟩
  rw [macKernel_reply file source s busy n (by omega), hcount, if_neg (by omega)]

/-- From a head with nothing left to ask for, the pass reports success with more than the
slice. -/
lemma macKernel_exhausted (build : Build) {file : FileContent} {source : AsyncFileSlice}
    {s : MacState} {busy n : ℕ} (hn : busy ≤ n) (htotal : s.totalTransferred = source.len)
    (hoff : s.currentOffset.toNat = source.position.toNat + source.len.toNat)
    (hshort : source.position.toNat + source.len.toNat < file.bytes.length) :
    ∃ k target, macPass build (macKernel file busy) source.len s n
        = Flow.leave ⟨CopyResult.ok k, target⟩ ∧ source.len.toNat < k.toNat := by
  have hlt := file.length_lt
  obtain ⟨k, hreply, hk⟩ := macKernel_rest file hn htotal (by omega)
  have hsum : (s.totalTransferred + k).toNat = source.len.toNat + k.toNat := by
    rw [toNat_add_of_lt (by rw [htotal]; omega), htotal]
  have hne : k ≠ 0 := by
    rintro rfl
    simp at hk
    omega
  have hfull : ¬ s.totalTransferred + k < source.len := by
    rw [UInt64.lt_iff_toNat_lt, hsum]
    omega
  refine ⟨s.totalTransferred + k, (macAdvance file s k).target, ?_, by omega⟩
  rw [macPass_of_lt _ _ _ (by rw [htotal]; exact UInt64.le_refl _)
    (by simp only [hreply, htotal]; omega) (by simp only [hreply]; omega), hreply]
  simp only [macSettle, macAdvance, if_neg hne]
  exact if_neg hfull

lemma macContract_not_of_exhausted {build : Build} {file : FileContent}
    {source : AsyncFileSlice} {busy n : ℕ} {s : MacState}
    (hhead : copySliceMacos build source (macKernel file busy) n = Flow.again s) (hn : busy ≤ n)
    (htotal : s.totalTransferred = source.len)
    (hoff : s.currentOffset.toNat = source.position.toNat + source.len.toNat)
    (hshort : source.position.toNat + source.len.toNat < file.bytes.length) :
    ¬ MacContract build source (macKernel file busy) := by
  intro hcontract
  obtain ⟨k, target, hpass, hk⟩ := macKernel_exhausted build hn htotal hoff hshort
  have hrun : copySliceMacos build source (macKernel file busy) (n + 1)
      = Flow.leave ⟨CopyResult.ok k, target⟩ := by
    rw [copySliceMacos, loopAt_succ_of_again hhead]
    exact hpass
  obtain ⟨_, _, -, -, -, hwhy⟩ := hcontract.ended _ _ hrun
  rcases hwhy with rfl | ⟨hlt, -⟩
  · exact absurd hk (lt_irrefl _)
  · have := UInt64.lt_iff_toNat_lt.mp hlt
    omega

/-- An empty slice short of the end of the file: the very first request is for everything. -/
lemma macKernel_empty (build : Build) (file : FileContent) {source : AsyncFileSlice}
    (hempty : source.len = 0) (hshort : source.position.toNat < file.bytes.length) :
    ¬ MacContract build source (macKernel file 0) := by
  have hzero : source.len.toNat = 0 := by rw [hempty]; rfl
  refine macContract_not_of_exhausted (n := 0) (s := ⟨0, source.position, []⟩) rfl (le_refl _)
    hempty.symm ?_ (by omega)
  show source.position.toNat = source.position.toNat + source.len.toNat
  omega

/-- A first call that moves the whole slice and says `EAGAIN` is followed by a call for the rest
of the file. -/
lemma macKernel_eagain (build : Build) {file : FileContent} {source : AsyncFileSlice}
    (hlen : 0 < source.len.toNat)
    (hshort : source.position.toNat + source.len.toNat < file.bytes.length) :
    ¬ MacContract build source (macKernel file 1) := by
  have hlt := file.length_lt
  have hcast := asI64_of_lt (x := source.len) (by omega)
  have hamount := macGreedy_toNat file source.position.toNat (asI64 source.len)
  have hk : macGreedy file.bytes source.position.toNat (asI64 source.len) = source.len := by
    refine UInt64.toNat_inj.mp ?_
    rw [hamount, if_pos (by omega)]
    omega
  have hreply : macReply (macKernel file 1) source ⟨0, source.position, []⟩ 0
      = (Except.error Errno.EAGAIN, source.len) := by
    rw [macKernel_reply file source _ 1 0 (show source.position.toNat < 2 ^ 63 by omega),
      UInt64.sub_zero, hk]
    rfl
  have hfirst : copySliceMacos build source (macKernel file 1) 1
      = Flow.again (macAdvance file ⟨0, source.position, []⟩ source.len) := by
    have hpass := macPass_of_lt build (macKernel file 1) 0
      (show (0 : UInt64) ≤ source.len from UInt64.le_iff_toNat_le.mpr (by simp))
      (by rw [hreply]; simpa using source.len.toNat_lt)
      (by rw [hreply]; show source.position.toNat + source.len.toNat < 2 ^ 64; omega)
    rw [copySliceMacos, loopAt_succ_of_again rfl, id, hpass, hreply]
    rfl
  refine macContract_not_of_exhausted hfirst (le_refl _) (UInt64.zero_add _) ?_ hshort
  show (source.position + source.len).toNat = source.position.toNat + source.len.toNat
  exact toNat_add_of_lt (by omega)

/-- **Exactly when the macOS loop keeps the Linux contract.**  Over all kernels: when the slice
reaches the end of the file, where a request for "the rest of the file" is a request for nothing.
Over kernels whose `EAGAIN`s are partial: when, further, an exhausted head can only come from an
empty slice. -/
theorem macContract_iff (file : FileContent) (source : AsyncFileSlice) :
    ((∀ build (kernel : MacKernel file), MacContract build source kernel) ↔
      file.bytes.length ≤ source.position.toNat + source.len.toNat) ∧
    ((∀ build (kernel : MacKernel file), kernel.EagainPartial →
        MacContract build source kernel) ↔
      0 < source.len.toNat ∨ file.bytes.length ≤ source.position.toNat) := by
  refine ⟨⟨?_, ?_⟩, ⟨?_, ?_⟩⟩
  · intro hall
    by_contra hshort
    rcases Nat.eq_zero_or_pos source.len.toNat with hzero | hpos
    · exact macKernel_empty Build.release file (UInt64.toNat_inj.mp hzero) (by omega) (hall _ _)
    · exact macKernel_eagain Build.release hpos (by omega) (hall _ _)
  · intro hend build kernel
    exact macContract_of_reachesEof build source kernel hend
  · intro hall
    by_contra hnot
    rw [not_or] at hnot
    have hzero : source.len.toNat = 0 := by omega
    refine macKernel_empty Build.release file (UInt64.toNat_inj.mp hzero) (by omega)
      (hall _ _ ?_)
    -- this kernel never says `EAGAIN`
    intro n off count _ heagain
    simp only [macKernel] at heagain
    split_ifs at heagain with hoff hn
    · exact absurd hn (Nat.not_lt_zero n)
    · exact absurd heagain (by simp)
  · intro hcase build kernel hshort
    rcases Nat.eq_zero_or_pos source.len.toNat with hzero | hpos
    · exact macContract_of_reachesEof build source kernel (by omega)
    · exact macContract_of_shortEagain build source kernel hshort hpos

/-- The empty slice at the start of a three-byte file: Linux sends nothing, this loop sends the
file and reports three bytes. -/
theorem macContract_empty_slice_fails :
    copySliceMacos Build.release ⟨3, 0, 0⟩ (macKernel ⟨[1, 2, 3], by decide⟩ 0) 1
      = Flow.leave ⟨CopyResult.ok 3, [1, 2, 3]⟩ ∧
    copySliceLinux Build.release ⟨3, 0, 0⟩ (greedyKernel ⟨[1, 2, 3], by decide⟩ 0) 1
      = Flow.leave ⟨CopyResult.ok 0, []⟩ ∧
    ¬ MacContract Build.release ⟨3, 0, 0⟩ (macKernel ⟨[1, 2, 3], by decide⟩ 0) :=
  ⟨by decide, by decide, macKernel_empty Build.release _ rfl (by decide)⟩

end FutureAio.ZeroCopy
