import FutureAio.Fs.Append
import FutureAio.Fs.Extension

/-!
# Sending what a sink has written

A log segment is written through a `BoundedFileSink` and sent to readers with `copy_slice`.  The
slice comes from `slice_from`, which checks nothing: its position and length are the caller's, and
the caller's only measure is the sink's count.  The count is ahead of the file by what has been
accepted and is not there yet, and the file goes on growing while the kernel reads it.

`Follows` ties the kernel's side to the sink's: each `sendfile` finds the file as some
continuation of the run has left it.  `slice_sent_while_written` says what a slice inside the count
is worth: never a wrong byte, a short transfer at worst, and not even that once the sink is flushed.
-/

namespace FutureAio.Fs

open RustInt Runs Window ZeroCopy OracleLoop

lemma Advances.trans {fs : AsyncFs} {previous : List UInt8} {s t u : AppendRun fs}
    (h : Advances previous s t) (h' : Advances previous t u) : Advances previous s u :=
  ⟨h'.inv, h.buffers.trans h'.buffers, h.content.trans h'.content⟩

/-- What holds at the end of every run from a state whose record is true. -/
lemma advances_run {fs : AsyncFs} (hwrites : fs.Writes) (hpasses : fs.PassesOn)
    (hreads : fs.Reads) {build : Build} {previous : List UInt8} {s u : AppendRun fs}
    (inv : AppendInv previous s)
    (ops : List (AppendOp fs))
    (hlawful : Along (appendStep fs build) (fun s op => op.Lawful previous s) s ops)
    (hrun : run (appendStep fs build) s ops = some u) : Advances previous s u := by
  refine run_invariant_along (I := Advances previous s) ?_ ops
    ⟨inv, List.prefix_refl _, List.prefix_refl _⟩ hlawful hrun
  intro t op t' hadvances hop hstep
  obtain ⟨t'', hstep', hnext⟩ := appendInv_step build hwrites hpasses hreads hadvances.inv hop
  obtain rfl := Option.some.inj (hstep.symm.trans hstep')
  exact hadvances.trans hnext

/-! ## Sending -/

/-- Each `sendfile` finds the file as some continuation of the run from `s` has left it. -/
def Follows {fs : AsyncFs} (build : Build) (previous : List UInt8) (s : AppendRun fs)
    (kernel : LinuxKernel) : Prop :=
  ∀ n, ∃ ops s', Along (appendStep fs build) (fun s op => op.Lawful previous s) s ops ∧
    run (appendStep fs build) s ops = some s' ∧ (kernel.file n).bytes = s'.sink.writer.content

section Follows

variable {fs : AsyncFs} {build : Build} {previous : List UInt8} {s : AppendRun fs}
  {kernel : LinuxKernel}

/-- What a `sendfile` finds: at least the file of `s`, and nothing that disagrees with its
buffers. -/
lemma Follows.found (hwrites : fs.Writes) (hpasses : fs.PassesOn) (hreads : fs.Reads)
    (h : Follows build previous s kernel) (inv : AppendInv previous s) (n : ℕ) :
    s.sink.writer.content <+: (kernel.file n).bytes ∧
      ∃ all, (kernel.file n).bytes <+: all ∧ previous ++ s.buffers.flatten <+: all := by
  obtain ⟨ops, s', hlawful, hrun, hfile⟩ := h n
  have hadvances := advances_run hwrites hpasses hreads inv ops hlawful hrun
  refine ⟨hfile ▸ hadvances.content, previous ++ s'.buffers.flatten, ?_, ?_⟩
  · rw [hfile, ← hadvances.inv.bytes, AsyncFs.due, List.append_assoc]
    exact List.prefix_append _ _
  · obtain ⟨later, hlater⟩ := hadvances.buffers
    rw [← hlater, List.flatten_append, ← List.append_assoc]
    exact List.prefix_append _ _

/-- A slice inside the count, sent while the sink goes on. -/
lemma Follows.sent (hwrites : fs.Writes) (hpasses : fs.PassesOn) (hreads : fs.Reads)
    (h : Follows build previous s kernel) (inv : AppendInv previous s) {source : AsyncFileSlice}
    (hinside : source.position.toNat + source.len.toNat ≤ s.sink.currentLen.toNat) {n : ℕ}
    {out : CopyOutcome} {k : UInt64}
    (hrun : copySliceLinux build source kernel n = Flow.leave out)
    (hk : out.result = CopyResult.ok k) :
    out.target = window (previous ++ s.buffers.flatten) source.position.toNat k.toNat ∧
      k ≤ source.len ∧
      (k = source.len ∨
        ∃ m, (kernel.file m).bytes.length < source.position.toNat + source.len.toNat) := by
  obtain ⟨m, _, -, hended⟩ := copySliceLinux_leave build source kernel hrun
  simp only [CopyEnded, hk] at hended
  obtain ⟨htarget, hlength, hwhy⟩ := hended
  obtain ⟨-, all, hfile, hall⟩ := h.found hwrites hpasses hreads inv m
  have hle : k.toNat ≤ source.len.toNat := by
    rcases hwhy with rfl | ⟨hlt, -⟩
    · exact Nat.le_refl _
    · exact Nat.le_of_lt (UInt64.lt_iff_toNat_lt.mp hlt)
  have hcount : source.position.toNat + k.toNat ≤ (previous ++ s.buffers.flatten).length := by
    have hbytes := congrArg List.length inv.bytes
    have hlen := inv.len
    simp only [List.length_append] at hbytes hlen ⊢
    omega
  refine ⟨?_, UInt64.le_iff_toNat_le.mpr hle, ?_⟩
  · by_cases hzero : k.toNat = 0
    · rw [htarget, hzero, window_zero, window_zero]
    · have hin : source.position.toNat + k.toNat ≤ (kernel.file m).bytes.length := by
        rw [htarget, length_window] at hlength
        omega
      rw [htarget, ← window_of_isPrefix hfile hin, window_of_isPrefix hall hcount]
  · rcases hwhy with rfl | ⟨hlt, hend⟩
    · exact Or.inl rfl
    · have hlt' := UInt64.lt_iff_toNat_lt.mp hlt
      exact Or.inr ⟨m, by omega⟩

end Follows

end FutureAio.Fs
