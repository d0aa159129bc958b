import FutureAio.ZeroCopy.Linux

/-!
# `AsyncFileExtension::as_slice`

`as_slice` turns a position and an optional length into an `AsyncFileSlice`, after checking both
against the file's metadata.  Callers rely on the check: a slice it accepts is one `copy_slice`
can send in full.

The check adds two caller-supplied `u64`s.  Where the sum leaves the range, a build with
overflow checks panics, and a build without them compares a wrapped sum — which is smaller than
`position`, hence smaller than the file length, hence accepted.  `asSlice_transferable_iff` says
that this is the only way the contract fails.

It also compares the sum with `≥`: `chunks_never_agree` says that a file cannot be sent in chunks,
because the one that reaches its end is refused.
-/

namespace FutureAio.Fs

open RustInt OracleLoop Window ZeroCopy

/-- `AsyncFileExtension::raw_slice`: no check at all. -/
def rawSlice (fd : ℤ) (position len : UInt64) : AsyncFileSlice := ⟨fd, position, len⟩

/-- `AsyncFileExtension::as_slice`; `none` is an arithmetic panic, `metadata` what the file
system answered. -/
def asSlice (build : Build) (fd : ℤ) (metadata : Except IoError UInt64) (position : UInt64)
    (desiredLenOpt : Option UInt64) : Option (Except IoError AsyncFileSlice) :=
  match metadata with
  | Except.error err => some (Except.error err)
  | Except.ok len =>
      if position ≥ len then
        some (Except.error
          ⟨ErrorKind.UnexpectedEof, "position is greater than available len"⟩)
      else
        match desiredLenOpt with
        | some desiredLen =>
            (addU64 build position desiredLen).map fun sliceEnd =>
              if sliceEnd ≥ len then
                Except.error ⟨ErrorKind.UnexpectedEof, "not available bytes"⟩
              else Except.ok (rawSlice fd position desiredLen)
        | none =>
            (subU64 build len position).map fun sliceLen =>
              Except.ok (rawSlice fd position sliceLen)

section Verdicts

variable {build : Build} {fd : ℤ} {len position : UInt64}

lemma asSlice_beyond (h : len ≤ position) (desiredLenOpt : Option UInt64) :
    asSlice build fd (Except.ok len) position desiredLenOpt = some (Except.error
      ⟨ErrorKind.UnexpectedEof, "position is greater than available len"⟩) := by
  simp only [asSlice]
  exact if_pos h

lemma asSlice_none (h : ¬ len ≤ position) :
    asSlice build fd (Except.ok len) position none
      = some (Except.ok (rawSlice fd position (len - position))) := by
  have hle : position ≤ len := UInt64.le_iff_toNat_le.mpr (by
    have := mt UInt64.le_iff_toNat_le.mpr h
    omega)
  simp only [asSlice]
  rw [if_neg h, subU64_of_le build hle]
  rfl

lemma asSlice_some (h : ¬ len ≤ position) (desiredLen : UInt64) :
    asSlice build fd (Except.ok len) position (some desiredLen)
      = (addU64 build position desiredLen).map fun sliceEnd =>
          if sliceEnd ≥ len then
            Except.error ⟨ErrorKind.UnexpectedEof, "not available bytes"⟩
          else Except.ok (rawSlice fd position desiredLen) := by
  simp only [asSlice]
  exact if_neg h

end Verdicts

/-! ## What an accepted slice promises -/

/-- The promise of `as_slice` on a file with content `file`: its arithmetic is exact in every
build, and an accepted slice lies inside the file, so that a transfer of it that succeeds —
against any kernel, the file having at most grown since — sends exactly its bytes. -/
structure Transferable (file : FileContent) (fd : ℤ) (position : UInt64)
    (desiredLenOpt : Option UInt64) : Prop where
  noOverflow : asSlice Build.debug fd (Except.ok file.len) position desiredLenOpt ≠ none
  noWrap : asSlice Build.release fd (Except.ok file.len) position desiredLenOpt
    = asSlice Build.debug fd (Except.ok file.len) position desiredLenOpt
  inside : ∀ build s,
    asSlice build fd (Except.ok file.len) position desiredLenOpt = some (Except.ok s) →
    s.position.toNat + s.len.toNat ≤ file.bytes.length
  sent : ∀ build s,
    asSlice build fd (Except.ok file.len) position desiredLenOpt = some (Except.ok s) →
    ∀ kernel : LinuxKernel, file.bytes <+: (kernel.file 0).bytes →
    ∀ n out k, copySliceLinux build s kernel n = Flow.leave out →
      out.result = CopyResult.ok k →
      k = s.len ∧ out.target = window file.bytes s.position.toNat s.len.toNat

/-- A slice inside the file is sent in full by any transfer that succeeds. -/
lemma copySlice_of_inside {file : FileContent} {s : AsyncFileSlice}
    (hin : s.position.toNat + s.len.toNat ≤ file.bytes.length) {build : Build}
    {kernel : LinuxKernel} (hfile : file.bytes <+: (kernel.file 0).bytes) {n : ℕ}
    {out : CopyOutcome} {k : UInt64} (hrun : copySliceLinux build s kernel n = Flow.leave out)
    (hk : out.result = CopyResult.ok k) :
    k = s.len ∧ out.target = window file.bytes s.position.toNat s.len.toNat := by
  obtain ⟨m, _, -, hended⟩ := copySliceLinux_leave build s kernel hrun
  have hprefix := kernel.file_isPrefix hfile m
  simp only [CopyEnded, hk] at hended
  obtain ⟨htarget, -, hwhy⟩ := hended
  have hfull : k = s.len := by
    rcases hwhy with hfull | ⟨hlt, hend⟩
    · exact hfull
    · -- the file never got shorter, so its end cannot cut the slice
      have hshort := UInt64.lt_iff_toNat_lt.mp hlt
      have hlen := hprefix.length_le
      omega
  refine ⟨hfull, ?_⟩
  rw [htarget, hfull, window_of_isPrefix hprefix hin]

/-- When no addition wraps, the verdict is the exact one and an accepted slice is inside. -/
lemma asSlice_inside {build : Build} {file : FileContent} {fd : ℤ} {position : UInt64}
    {desiredLenOpt : Option UInt64}
    (hexact : file.bytes.length ≤ position.toNat ∨
      ∀ d, desiredLenOpt = some d → position.toNat + d.toNat < 2 ^ 64)
    {s : AsyncFileSlice}
    (h : asSlice build fd (Except.ok file.len) position desiredLenOpt = some (Except.ok s)) :
    s.position.toNat + s.len.toNat ≤ file.bytes.length := by
  have hflen := file.toNat_len
  by_cases hbeyond : file.len ≤ position
  · rw [asSlice_beyond hbeyond] at h
    exact absurd h (by simp)
  · have hlt : position.toNat < file.bytes.length :=
      Nat.lt_of_not_le (mt FileContent.len_le_iff.mpr hbeyond)
    cases desiredLenOpt with
    | none =>
        rw [asSlice_none hbeyond, Option.some.injEq, Except.ok.injEq] at h
        have hsub := UInt64.toNat_sub_of_le file.len position
          (UInt64.le_iff_toNat_le.mpr (by omega))
        rw [← h]
        show position.toNat + (file.len - position).toNat ≤ file.bytes.length
        omega
    | some d =>
        have hsum := hexact.resolve_left (by omega) d rfl
        rw [asSlice_some hbeyond, addU64_of_lt build hsum, Option.map_some] at h
        split_ifs at h with hend
        · exact absurd h (by simp)
        · rw [Option.some.injEq, Except.ok.injEq] at h
          have hnlt := mt UInt64.le_iff_toNat_le.mpr hend
          rw [toNat_add_of_lt hsum] at hnlt
          rw [← h]
          show position.toNat + d.toNat ≤ file.bytes.length
          omega

/-- In range, the two builds give the same verdict and neither panics. -/
lemma asSlice_exact {file : FileContent} (fd : ℤ) {position : UInt64}
    {desiredLenOpt : Option UInt64}
    (hexact : file.bytes.length ≤ position.toNat ∨
      ∀ d, desiredLenOpt = some d → position.toNat + d.toNat < 2 ^ 64) :
    asSlice Build.debug fd (Except.ok file.len) position desiredLenOpt ≠ none ∧
    asSlice Build.release fd (Except.ok file.len) position desiredLenOpt
      = asSlice Build.debug fd (Except.ok file.len) position desiredLenOpt := by
  by_cases hbeyond : file.len ≤ position
  · rw [asSlice_beyond hbeyond, asSlice_beyond hbeyond]
    simp
  · have hlt : position.toNat < file.bytes.length :=
      Nat.lt_of_not_le (mt FileContent.len_le_iff.mpr hbeyond)
    cases desiredLenOpt with
    | none =>
        rw [asSlice_none hbeyond, asSlice_none hbeyond]
        simp
    | some d =>
        have hsum := hexact.resolve_left (by omega) d rfl
        rw [asSlice_some hbeyond, asSlice_some hbeyond, addU64_of_lt Build.debug hsum,
          addU64_of_lt Build.release hsum]
        simp

/-- **Exactly when the promise holds**: unless the position is inside the file and the sum of the
two arguments leaves `u64`. -/
theorem asSlice_transferable_iff (file : FileContent) (fd : ℤ) (position : UInt64)
    (desiredLenOpt : Option UInt64) :
    Transferable file fd position desiredLenOpt ↔
      file.bytes.length ≤ position.toNat ∨
        ∀ d, desiredLenOpt = some d → position.toNat + d.toNat < 2 ^ 64 := by
  constructor
  · intro hpromise
    by_contra hnot
    rw [not_or] at hnot
    obtain ⟨hin, hover⟩ := hnot
    obtain ⟨d, hd⟩ := not_forall.mp hover
    obtain ⟨rfl, hsum⟩ := Classical.not_imp.mp hd
    have hbeyond : ¬ file.len ≤ position := mt FileContent.len_le_iff.mp hin
    refine hpromise.noOverflow ?_
    rw [asSlice_some hbeyond, addU64_debug (by omega)]
    rfl
  · intro hexact
    obtain ⟨hsome, hsame⟩ := asSlice_exact fd hexact
    refine ⟨hsome, hsame, ?_, ?_⟩
    · intro build s h
      exact asSlice_inside hexact h
    · intro build s h kernel hfile n out k hrun hk
      exact copySlice_of_inside (asSlice_inside hexact h) hfile hrun hk

/-- Ten bytes, position five, and a desired length of `u64::MAX`: the checked build panics, the
other accepts a slice that ends far outside the file. -/
theorem asSlice_wraps :
    asSlice Build.debug 3 (Except.ok 10) 5 (some (18446744073709551615)) = none ∧
    asSlice Build.release 3 (Except.ok 10) 5 (some (18446744073709551615))
      = some (Except.ok ⟨3, 5, 18446744073709551615⟩) ∧
    ¬ Transferable ⟨List.replicate 10 0, by decide⟩ 3 5 (some (18446744073709551615)) := by
  refine ⟨by decide, by decide, ?_⟩
  intro hpromise
  exact hpromise.noOverflow (by decide)

/-! ## A file in chunks

A file can be sent at once, or cut into consecutive chunks that are sent one after the other.  The
two should give the same bytes; but the explicit length is compared with `≥`, so that the chunk
that reaches the end of the file is refused.
-/

/-- The chunks (position, length) cut `[start, len)` into consecutive, non-empty pieces. -/
def Tiles (len : ℕ) : ℕ → List (UInt64 × UInt64) → Prop
  | start, [] => start = len
  | start, c :: rest =>
      c.1.toNat = start ∧ 0 < c.2.toNat ∧ Tiles len (start + c.2.toNat) rest

/-- `bytes` is what a successful copy of the slice delivers while the file does not change. -/
def Delivers (build : Build) (file : FileContent) (s : AsyncFileSlice) (bytes : List UInt8) :
    Prop :=
  ∃ kernel : LinuxKernel, (∀ i, kernel.file i = file) ∧ ∃ n out k,
    copySliceLinux build s kernel n = Flow.leave out ∧ out.result = CopyResult.ok k ∧
      out.target = bytes

/-- `bytes` is what asking for a slice and copying it delivers. -/
def AsksAndDelivers (build : Build) (fd : ℤ) (file : FileContent) (position : UInt64)
    (desiredLenOpt : Option UInt64) (bytes : List UInt8) : Prop :=
  ∃ s, asSlice build fd (Except.ok file.len) position desiredLenOpt = some (Except.ok s) ∧
    Delivers build file s bytes

/-- Chunked and whole-file slices agree. -/
structure ChunksAgree (build : Build) (fd : ℤ) (file : FileContent)
    (chunks : List (UInt64 × UInt64)) : Prop where
  accepted : ∀ c ∈ chunks, asSlice build fd (Except.ok file.len) c.1 (some c.2)
    = some (Except.ok ⟨fd, c.1, c.2⟩)
  delivered : ∀ parts whole,
    List.Forall₂ (fun c bytes => AsksAndDelivers build fd file c.1 (some c.2) bytes) chunks parts →
      AsksAndDelivers build fd file 0 none whole → parts.flatten = whole
  atEnd : ∀ p : UInt64, p.toNat < file.bytes.length →
    asSlice build fd (Except.ok file.len) p (some (file.len - p))
      = asSlice build fd (Except.ok file.len) p none

section Chunks

variable {build : Build} {fd : ℤ} {file : FileContent}

/-- A chunk that ends before the end of the file is accepted as it is. -/
lemma asSlice_of_end_lt {position d : UInt64}
    (h : position.toNat + d.toNat < file.bytes.length) :
    asSlice build fd (Except.ok file.len) position (some d)
      = some (Except.ok ⟨fd, position, d⟩) := by
  have hfile := file.length_lt
  have hsum : position.toNat + d.toNat < 2 ^ 64 := by omega
  have hin : ¬ file.len ≤ position := mt FileContent.len_le_iff.mp (by omega)
  have hend : ¬ position + d ≥ file.len := by
    refine mt FileContent.len_le_iff.mp ?_
    rw [toNat_add_of_lt hsum]
    omega
  rw [asSlice_some hin, addU64_of_lt build hsum, Option.map_some,
    if_neg hend, rawSlice]

/-- The chunk that ends where the file ends is refused. -/
lemma asSlice_of_end_eq {position d : UInt64} (hpos : 0 < d.toNat)
    (h : position.toNat + d.toNat = file.bytes.length) :
    asSlice build fd (Except.ok file.len) position (some d)
      = some (Except.error ⟨ErrorKind.UnexpectedEof, "not available bytes"⟩) := by
  have hfile := file.length_lt
  have hsum : position.toNat + d.toNat < 2 ^ 64 := by omega
  have hin : ¬ file.len ≤ position := mt FileContent.len_le_iff.mp (by omega)
  have hend : position + d ≥ file.len := by
    refine FileContent.len_le_iff.mpr ?_
    rw [toNat_add_of_lt hsum, h]
  rw [asSlice_some hin, addU64_of_lt build hsum, Option.map_some,
    if_pos hend]

lemma Tiles.start_le {len : ℕ} {chunks : List (UInt64 × UInt64)} : ∀ {start : ℕ},
    Tiles len start chunks → start ≤ len := by
  induction chunks with
  | nil =>
      intro start htiles
      exact le_of_eq htiles
  | cons c rest ih =>
      rintro start ⟨-, -, hrest⟩
      have := ih hrest
      omega

lemma Tiles.end_le {len : ℕ} {chunks : List (UInt64 × UInt64)} : ∀ {start : ℕ},
    Tiles len start chunks → ∀ c ∈ chunks, c.1.toNat + c.2.toNat ≤ len := by
  induction chunks with
  | nil =>
      intro start _ c hc
      exact absurd hc (by simp)
  | cons c rest ih =>
      rintro start ⟨hstart, -, hrest⟩ c' hc'
      rcases List.mem_cons.mp hc' with rfl | hmem
      · rw [hstart]
        exact hrest.start_le
      · exact ih hrest c' hmem

/-- A tiling of a non-empty range is its last chunk after a tiling of what comes before it. -/
lemma Tiles.exists_last {len : ℕ} {chunks : List (UInt64 × UInt64)} : ∀ {start : ℕ},
    start < len → Tiles len start chunks →
      ∃ init last, chunks = init ++ [last] ∧ Tiles last.1.toNat start init ∧
        0 < last.2.toNat ∧ last.1.toNat + last.2.toNat = len := by
  induction chunks with
  | nil =>
      intro start hlt htiles
      exact absurd htiles (by simp only [Tiles]; omega)
  | cons c rest ih =>
      rintro start hlt ⟨hstart, hpos, hrest⟩
      by_cases hend : start + c.2.toNat < len
      · obtain ⟨init, last, rfl, htiles, hlast⟩ := ih hend hrest
        exact ⟨c :: init, last, rfl, ⟨hstart, hpos, htiles⟩, hlast⟩
      · cases rest with
        | nil => exact ⟨[], c, rfl, hstart.symm, hpos, hstart ▸ hrest⟩
        | cons c' rest' =>
            -- a further chunk would start beyond the end of the range
            obtain ⟨-, hpos', hrest'⟩ := hrest
            have := hrest'.start_le
            omega

/-- What a copy of an accepted slice delivers. -/
lemma Delivers.eq_window {s : AsyncFileSlice} {bytes : List UInt8}
    (hin : s.position.toNat + s.len.toNat ≤ file.bytes.length) (h : Delivers build file s bytes) :
    bytes = window file.bytes s.position.toNat s.len.toNat := by
  obtain ⟨kernel, hfile, n, out, k, hrun, hk, rfl⟩ := h
  refine (copySlice_of_inside hin ?_ hrun hk).2
  rw [hfile 0]

/-- The chunks of a tiling that stops short of the end of the file deliver its bytes. -/
lemma delivered_of_tiles {stop : ℕ} (hstop : stop < file.bytes.length)
    (chunks : List (UInt64 × UInt64)) : ∀ {start : ℕ}, Tiles stop start chunks →
      ∀ {parts : List (List UInt8)}, List.Forall₂
        (fun c bytes => AsksAndDelivers build fd file c.1 (some c.2) bytes) chunks parts →
      parts.flatten = window file.bytes start (stop - start) := by
  induction chunks with
  | nil =>
      rintro start rfl parts hparts
      cases hparts
      simp
  | cons c rest ih =>
      rintro start ⟨rfl, hpos, hrest⟩ parts hparts
      rcases hparts with _ | ⟨⟨s, hs, hdel⟩, hparts'⟩
      have hle := hrest.start_le
      rw [asSlice_of_end_lt (by omega), Option.some.injEq, Except.ok.injEq] at hs
      subst hs
      have hbytes := hdel.eq_window (show c.1.toNat + c.2.toNat ≤ file.bytes.length by omega)
      rw [List.flatten_cons, ih hrest hparts', hbytes]
      show window file.bytes c.1.toNat c.2.toNat ++ _ = _
      rw [← window_add]
      congr 1
      omega

end Chunks

/-- **No file can be sent in chunks that way**: whatever the non-empty file and the tiling, the last
chunk is refused, and with it the agreement of the two ways.  All other chunks are accepted and
deliver the file up to the last one; and from every position in the file, asking for exactly the
bytes that are left is refused where leaving the length out is granted. -/
theorem chunks_never_agree (build : Build) (fd : ℤ) (file : FileContent)
    (hfile : file.bytes ≠ []) (chunks : List (UInt64 × UInt64))
    (htiles : Tiles file.bytes.length 0 chunks) :
    ¬ ChunksAgree build fd file chunks ∧
    (∃ init last, chunks = init ++ [last] ∧
      (∀ c ∈ init, asSlice build fd (Except.ok file.len) c.1 (some c.2)
        = some (Except.ok ⟨fd, c.1, c.2⟩)) ∧
      asSlice build fd (Except.ok file.len) last.1 (some last.2)
        = some (Except.error ⟨ErrorKind.UnexpectedEof, "not available bytes"⟩) ∧
      ∀ parts, List.Forall₂ (fun c bytes => AsksAndDelivers build fd file c.1 (some c.2) bytes)
          init parts → parts.flatten = window file.bytes 0 last.1.toNat) ∧
    ∀ p : UInt64, p.toNat < file.bytes.length →
      asSlice build fd (Except.ok file.len) p (some (file.len - p))
        = some (Except.error ⟨ErrorKind.UnexpectedEof, "not available bytes"⟩) ∧
      asSlice build fd (Except.ok file.len) p none
        = some (Except.ok ⟨fd, p, file.len - p⟩) := by
  have hlen := List.length_pos_of_ne_nil hfile
  obtain ⟨init, last, rfl, hinit, hpos, hend⟩ := Tiles.exists_last hlen htiles
  have hrefused : asSlice build fd (Except.ok file.len) last.1 (some last.2)
      = some (Except.error ⟨ErrorKind.UnexpectedEof, "not available bytes"⟩) :=
    asSlice_of_end_eq hpos hend
  refine ⟨?_, ⟨init, last, rfl, ?_, hrefused, ?_⟩, ?_⟩
  · intro hagree
    have haccepted := hagree.accepted last (by simp)
    rw [hrefused] at haccepted
    simp at haccepted
  · intro c hc
    have hle := hinit.end_le c hc
    exact asSlice_of_end_lt (by omega)
  · intro parts hparts
    exact delivered_of_tiles (by omega) init hinit hparts
  · intro p hp
    have hnot : ¬ file.len ≤ p := mt FileContent.len_le_iff.mp (Nat.not_le.mpr hp)
    have hsub := UInt64.toNat_sub_of_le file.len p (by
      rw [UInt64.le_iff_toNat_le, file.toNat_len]
      omega)
    rw [file.toNat_len] at hsub
    exact ⟨asSlice_of_end_eq (by omega) (by omega), asSlice_none hnot⟩

theorem chunks_never_agree_halves :
    ¬ ChunksAgree Build.release 3 ⟨[7, 8, 9, 10], by decide⟩ [(0, 2), (2, 2)] :=
  (chunks_never_agree Build.release 3 ⟨[7, 8, 9, 10], by decide⟩ (by decide) [(0, 2), (2, 2)]
    ⟨rfl, by decide, rfl, by decide, rfl⟩).1

/-- Ten bytes in two chunks of five: the first is accepted, the second is not, though leaving its
length out gives that very slice. -/
theorem last_chunk_refused :
    Tiles 10 0 [(0, 5), (5, 5)] ∧
    asSlice Build.debug 3 (Except.ok 10) 0 (some 5) = some (Except.ok ⟨3, 0, 5⟩) ∧
    asSlice Build.debug 3 (Except.ok 10) 5 (some 5)
      = some (Except.error ⟨ErrorKind.UnexpectedEof, "not available bytes"⟩) ∧
    asSlice Build.debug 3 (Except.ok 10) 5 none = some (Except.ok ⟨3, 5, 5⟩) ∧
    ¬ ChunksAgree Build.debug 3 ⟨List.replicate 10 0, by decide⟩ [(0, 5), (5, 5)] := by
  refine ⟨⟨rfl, by decide, rfl, by decide, rfl⟩, by decide, by decide, by decide, ?_⟩
  intro hagree
  have haccepted := hagree.accepted (5, 5) (by simp)
  exact absurd haccepted (by decide)

end FutureAio.Fs
