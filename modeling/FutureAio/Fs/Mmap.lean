import FutureAio.Basic
import FutureAio.Lib.Word
import FutureAio.Lib.Window
import FutureAio.Lib.Runs

/-!
# `MemoryMappedMutFile` and `MemoryMappedFile`

A file mapped into memory, shared, behind a lock.  The map *is* the file's content, so a session
(`create`, then `write_bytes` calls) leaves behind what its map held, and the next session starts
from that: `create` cuts or zero-extends it to the length asked for.

* `MemoryMappedMutFile` — the map and the lock's poison flag.
* `MemoryMappedMutFile.create`, `MemoryMappedMutFile.writeBytes`.
* `Session`, `sessionStep` — a session, and a history of them as a run over the file.
* `MapOp`, `outcomes` — several holders of one map, and what each of them gets.
* `MemoryMappedFile.open` — the map for reading only.

`mapped_history` says what each byte of the map is, after any history.  `rejected_write_poisons`
says what a write out of range does to the other holders, and `honours_minimum_iff` for which files
the minimum size of the read-only map is one.
-/

namespace FutureAio.Fs

open RustInt Window Runs

/-- `Arc<RwLock<MmapMut>>`.  A panic under the write guard poisons the lock. -/
structure MemoryMappedMutFile where
  map : List UInt8
  poisoned : Bool
  deriving DecidableEq, Repr

/-- `File::set_len`: the length has to be an `off_t`.  An error is known by its kind; the text is
the standard library's own. -/
def setLen (content : List UInt8) (len : UInt64) : Except ErrorKind (List UInt8) :=
  if len.toNat < 2 ^ 63 then Except.ok (resize content len.toNat 0)
  else Except.error ErrorKind.InvalidInput

inductive Outcome where
  | returned
  | panicked
  deriving DecidableEq, Repr

namespace MemoryMappedMutFile

/-- `MemoryMappedMutFile::create`; a missing file is created empty. -/
def create (disk : Option (List UInt8)) (len : UInt64) : Except ErrorKind MemoryMappedMutFile :=
  (setLen (disk.getD []) len).map fun content => ⟨content, false⟩

/-- `MemoryMappedMutFile::write_bytes`. -/
def writeBytes (build : Build) (m : MemoryMappedMutFile) (pos : UInt64) (bytes : List UInt8) :
    MemoryMappedMutFile × Outcome :=
  -- `mut_inner` unwraps the lock
  if m.poisoned then (m, Outcome.panicked)
  else
    match addU64 build pos (UInt64.ofNat bytes.length) with
    | none => ({ m with poisoned := true }, Outcome.panicked)
    | some stop =>
        -- `m_array[pos..stop]`
        if pos ≤ stop ∧ stop.toNat ≤ m.map.length then
          ({ m with map := overwrite m.map pos.toNat bytes }, Outcome.returned)
        else ({ m with poisoned := true }, Outcome.panicked)

end MemoryMappedMutFile

/-! ## Sessions -/

structure Session where
  len : UInt64
  writes : List (UInt64 × List UInt8)

def writeStep (build : Build) (m : MemoryMappedMutFile) (w : UInt64 × List UInt8) :
    Option MemoryMappedMutFile :=
  match m.writeBytes build w.1 w.2 with
  | (m', Outcome.returned) => some m'
  | (_, Outcome.panicked) => none

/-- The map at the end of a session; `none` if it was not created or a write panicked. -/
def Session.map (build : Build) (disk : Option (List UInt8)) (s : Session) :
    Option MemoryMappedMutFile :=
  match MemoryMappedMutFile.create disk s.len with
  | Except.error _ => none
  | Except.ok m => run (writeStep build) m s.writes

/-- The file after a session. -/
def sessionStep (build : Build) (disk : Option (List UInt8)) (s : Session) :
    Option (Option (List UInt8)) :=
  (s.map build disk).map fun m => some m.map

/-- The writes stay inside the map, and its length is one a file can have. -/
structure Session.InRange (s : Session) : Prop where
  len : s.len.toNat < 2 ^ 63
  writes : ∀ w ∈ s.writes, w.1.toNat + w.2.length ≤ s.len.toNat

/-- What byte `j` of a session's map should be, given the file before the session. -/
def Session.byteAt (s : Session) (before : List UInt8) (j : ℕ) : UInt8 :=
  (lastWrite (s.writes.map fun w => (w.1.toNat, w.2)) j).getD (before[j]?.getD 0)

lemma create_of_lt {len : UInt64} (h : len.toNat < 2 ^ 63) (disk : Option (List UInt8)) :
    MemoryMappedMutFile.create disk len
      = Except.ok ⟨resize (disk.getD []) len.toNat 0, false⟩ := by
  rw [MemoryMappedMutFile.create, setLen, if_pos h]
  rfl

section Writes

variable (build : Build)

lemma writeStep_of_le {map : List UInt8} (hmap : map.length < 2 ^ 63) {w : UInt64 × List UInt8}
    (h : w.1.toNat + w.2.length ≤ map.length) :
    writeStep build ⟨map, false⟩ w = some ⟨overwrite map w.1.toNat w.2, false⟩ := by
  have hlen : (UInt64.ofNat w.2.length).toNat = w.2.length :=
    UInt64.toNat_ofNat_of_lt' (show _ < 2 ^ 64 by omega)
  have hadd := addU64_of_lt build (a := w.1) (b := UInt64.ofNat w.2.length) (by omega)
  have hstop : (w.1 + UInt64.ofNat w.2.length).toNat = w.1.toNat + w.2.length := by
    rw [toNat_add_of_lt (by omega), hlen]
  have hin : w.1 ≤ w.1 + UInt64.ofNat w.2.length ∧
      (w.1 + UInt64.ofNat w.2.length).toNat ≤ map.length :=
    ⟨UInt64.le_iff_toNat_le.mpr (by omega), by omega⟩
  simp only [writeStep, MemoryMappedMutFile.writeBytes, Bool.false_eq_true, if_false, hadd,
    if_pos hin]

lemma run_writeStep (ws : List (UInt64 × List UInt8)) : ∀ map : List UInt8,
    map.length < 2 ^ 63 → (∀ w ∈ ws, w.1.toNat + w.2.length ≤ map.length) →
      run (writeStep build) ⟨map, false⟩ ws
        = some ⟨overwriteAll map (ws.map fun w => (w.1.toNat, w.2)), false⟩ := by
  induction ws with
  | nil =>
      intro map _ _
      rfl
  | cons w ws ih =>
      intro map hmap h
      have hw := h w (by simp)
      have hlen := length_overwrite_of_le hw
      rw [run_cons_of_step ws (writeStep_of_le build hmap hw), ih _ (by omega)]
      · rfl
      · intro w' hw'
        rw [hlen]
        exact h w' (List.mem_cons_of_mem w hw')

/-- The map of a session whose writes are in range. -/
lemma Session.map_of_inRange {s : Session} (h : s.InRange) (disk : Option (List UInt8)) :
    s.map build disk = some ⟨overwriteAll (resize (disk.getD []) s.len.toNat 0)
      (s.writes.map fun w => (w.1.toNat, w.2)), false⟩ := by
  have hlen := length_resize (disk.getD []) s.len.toNat 0
  have hrun := run_writeStep build s.writes (resize (disk.getD []) s.len.toNat 0)
    (by rw [hlen]; exact h.len) (by rw [hlen]; exact h.writes)
  simp only [Session.map, create_of_lt h.len, hrun]

lemma run_sessionStep (history : List Session) : ∀ disk : Option (List UInt8),
    (∀ t ∈ history, t.InRange) → ∃ before, run (sessionStep build) disk history = some before := by
  induction history with
  | nil =>
      intro disk _
      exact ⟨disk, rfl⟩
  | cons t history ih =>
      intro disk h
      obtain ⟨m, hm⟩ : ∃ m, t.map build disk = some m :=
        ⟨_, t.map_of_inRange build (h t (by simp)) disk⟩
      have hstep : sessionStep build disk t = some (some m.map) := by
        rw [sessionStep, hm]
        rfl
      obtain ⟨before, hbefore⟩ := ih (some m.map) fun t' ht' => h t' (List.mem_cons_of_mem t ht')
      exact ⟨before, by rw [run_cons_of_step history hstep, hbefore]⟩

end Writes

/-- **The bytes of a map after any history of sessions.** -/
theorem mapped_history (build : Build) (disk : Option (List UInt8)) (history : List Session)
    (hhistory : ∀ t ∈ history, t.InRange) (s : Session) (hs : s.InRange) :
    ∃ before m, run (sessionStep build) disk history = some before ∧
      s.map build before = some m ∧
      m.map.length = s.len.toNat ∧
      (∀ j < s.len.toNat, m.map[j]? = some (s.byteAt (before.getD []) j)) ∧
      (∀ p bs q cs, p.toNat + bs.length ≤ s.len.toNat → q.toNat + cs.length ≤ s.len.toNat →
        (p.toNat + bs.length ≤ q.toNat ∨ q.toNat + cs.length ≤ p.toNat) →
        ∃ m', run (writeStep build) m [(p, bs), (q, cs)] = some m' ∧
          run (writeStep build) m [(q, cs), (p, bs)] = some m') ∧
      MemoryMappedMutFile.create (some m.map) s.len = Except.ok m := by
  obtain ⟨before, hbefore⟩ := run_sessionStep build history disk hhistory
  have hresize := length_resize (before.getD []) s.len.toNat 0
  obtain ⟨hlen, hget⟩ := getElem?_overwriteAll (s.writes.map fun w => (w.1.toNat, w.2))
    (l := resize (before.getD []) s.len.toNat 0) (by
      intro w hw
      obtain ⟨w', hw', rfl⟩ := List.mem_map.mp hw
      rw [hresize]
      exact hs.writes w' hw')
  rw [hresize] at hlen
  refine ⟨before, _, hbefore, s.map_of_inRange build hs before, hlen, ?_, ?_, ?_⟩
  · intro j hj
    rw [hget, getElem?_resize _ _ _ hj, Session.byteAt]
    cases lastWrite (s.writes.map fun w => (w.1.toNat, w.2)) j with
    | none => rfl
    | some b => rfl
  · intro p bs q cs hp hq hdisj
    have hmap := hs.len
    refine ⟨_, run_writeStep build [(p, bs), (q, cs)] _ (by omega) ?_, ?_⟩
    · simp only [List.mem_cons, List.not_mem_nil, or_false, forall_eq_or_imp, forall_eq]
      omega
    · rw [run_writeStep build [(q, cs), (p, bs)] _ (by omega)]
      · refine congrArg (fun map => some (MemoryMappedMutFile.mk map false)) ?_
        exact (overwrite_comm (by omega) (by omega) hdisj).symm
      · simp only [List.mem_cons, List.not_mem_nil, or_false, forall_eq_or_imp, forall_eq]
        omega
  · rw [create_of_lt hs.len, Option.getD_some]
    nth_rewrite 2 [← hlen]
    rw [resize_length]

/-- A file of three bytes, cut to two and grown to four: the third byte comes back as zero. -/
theorem mapped_history_regrown :
    ∃ before m, run (sessionStep Build.debug) (some [1, 2, 3]) [⟨2, [(0, [9])]⟩] = some before ∧
      Session.map Build.debug before ⟨4, [(3, [7])]⟩ = some m ∧
      m.map[0]? = some 9 ∧ m.map[2]? = some 0 ∧ m.map[3]? = some 7 := by
  obtain ⟨before, m, hbefore, hmap, -, hget, -⟩ := mapped_history Build.debug (some [1, 2, 3])
    [⟨2, [(0, [9])]⟩] (by simpa using ⟨by decide, by decide⟩) ⟨4, [(3, [7])]⟩
    ⟨by decide, by decide⟩
  obtain rfl : some [9, 2] = before := Option.some.inj hbefore
  exact ⟨_, m, hbefore, hmap, hget 0 (by decide), hget 2 (by decide), hget 3 (by decide)⟩

/-! ## A map shared by several holders

Every holder of the `Arc` takes the same lock, and every one of them unwraps it.
-/

/-- What the holder of a write guard may do to the map: its bytes can change, its length not. -/
def Edit : Type := { edit : List UInt8 → List UInt8 // ∀ map, (edit map).length = map.length }

/-- An operation of a holder; the answer of a flush is the system's. -/
inductive MapOp where
  | writeBytes (pos : UInt64) (bytes : List UInt8)
  | inner
  | mutInner (edit : Edit)
  | flushFt (answer : Except IoError Unit)
  | flushAsyncFt (answer : Except IoError Unit)
  | flushRangeFt (offset len : UInt64) (answer : Except IoError Unit)

/-- What the holder gets. -/
inductive MapOutcome where
  | panicked
  | returned
  | saw (map : List UInt8)
  | flushed (answer : Except IoError Unit)

namespace MemoryMappedMutFile

/-- `read().unwrap()` or `write().unwrap()`, and then what is done under the guard. -/
def locked (m : MemoryMappedMutFile)
    (act : MemoryMappedMutFile → MemoryMappedMutFile × MapOutcome) :
    MemoryMappedMutFile × MapOutcome :=
  if m.poisoned then (m, MapOutcome.panicked) else act m

def perform (build : Build) (m : MemoryMappedMutFile) : MapOp → MemoryMappedMutFile × MapOutcome
  | MapOp.writeBytes pos bytes =>
      match m.writeBytes build pos bytes with
      | (m', Outcome.returned) => (m', MapOutcome.returned)
      | (m', Outcome.panicked) => (m', MapOutcome.panicked)
  | MapOp.inner => m.locked fun m => (m, MapOutcome.saw m.map)
  | MapOp.mutInner edit =>
      m.locked fun m => ({ m with map := edit.1 m.map }, MapOutcome.returned)
  | MapOp.flushFt answer => m.locked fun m => (m, MapOutcome.flushed answer)
  | MapOp.flushAsyncFt answer => m.locked fun m => (m, MapOutcome.flushed answer)
  | MapOp.flushRangeFt _ _ answer => m.locked fun m => (m, MapOutcome.flushed answer)

/-- The map after operations of any holders; a panic ends nothing but the operation. -/
def after (build : Build) (m : MemoryMappedMutFile) (ops : List (ℕ × MapOp)) :
    MemoryMappedMutFile :=
  ops.foldl (fun m op => (m.perform build op.2).1) m

/-- What each of them gets. -/
def outcomes (build : Build) : MemoryMappedMutFile → List (ℕ × MapOp) → List (ℕ × MapOutcome)
  | _, [] => []
  | m, op :: ops => (op.1, (m.perform build op.2).2) :: outcomes build (m.perform build op.2).1 ops

end MemoryMappedMutFile

/-- A write has no effect on a map that is in state `m`: it leaves the bytes as they are, and
whatever the holders do afterwards has the outcome it would have had without it. -/
structure HasNoEffect (build : Build) (m : MemoryMappedMutFile) (pos : UInt64)
    (bytes : List UInt8) : Prop where
  unchanged : (m.perform build (MapOp.writeBytes pos bytes)).1.map = m.map
  later : ∀ ops, (m.perform build (MapOp.writeBytes pos bytes)).1.outcomes build ops
    = m.outcomes build ops

section Shared

variable (build : Build)

/-- A write that does not fit panics under the guard, also where the sum of the two wraps. -/
lemma perform_of_rejected {m : MemoryMappedMutFile} {pos : UInt64} {bytes : List UInt8}
    (hslice : bytes.length < 2 ^ 63) (h : m.map.length < pos.toNat + bytes.length) :
    m.perform build (MapOp.writeBytes pos bytes)
      = ({ m with poisoned := true }, MapOutcome.panicked) := by
  have hlen : (UInt64.ofNat bytes.length).toNat = bytes.length :=
    UInt64.toNat_ofNat_of_lt' (show _ < 2 ^ 64 by omega)
  have hwrite : m.writeBytes build pos bytes
      = ({ m with poisoned := true }, Outcome.panicked) := by
    rw [MemoryMappedMutFile.writeBytes]
    split_ifs with hpoisoned
    · rw [← hpoisoned]
    · cases hadd : addU64 build pos (UInt64.ofNat bytes.length) with
      | none => rfl
      | some stop =>
          refine if_neg ?_
          rintro ⟨hle, hin⟩
          have hle' := UInt64.le_iff_toNat_le.mp hle
          rcases toNat_of_addU64 hadd with hsum | hsum <;> omega
  simp only [MemoryMappedMutFile.perform, hwrite]

lemma perform_of_poisoned {m : MemoryMappedMutFile} (h : m.poisoned = true) (op : MapOp) :
    m.perform build op = (m, MapOutcome.panicked) := by
  cases op with
  | writeBytes pos bytes =>
      simp only [MemoryMappedMutFile.perform, MemoryMappedMutFile.writeBytes, h, if_true]
  | _ => simp only [MemoryMappedMutFile.perform, MemoryMappedMutFile.locked, h, if_true]

/-- Once the lock is poisoned nothing happens any more. -/
lemma run_of_poisoned {m : MemoryMappedMutFile} (h : m.poisoned = true) (ops : List (ℕ × MapOp)) :
    m.after build ops = m ∧
      m.outcomes build ops = ops.map fun op => (op.1, MapOutcome.panicked) := by
  induction ops with
  | nil => exact ⟨rfl, rfl⟩
  | cons op ops ih =>
      obtain ⟨hafter, houtcomes⟩ := ih
      simp only [MemoryMappedMutFile.after, List.foldl_cons, MemoryMappedMutFile.outcomes,
        perform_of_poisoned build h, List.map_cons, houtcomes, and_true]
      exact hafter

lemma after_append (m : MemoryMappedMutFile) (ops ops' : List (ℕ × MapOp)) :
    m.after build (ops ++ ops') = (m.after build ops).after build ops' := by
  rw [MemoryMappedMutFile.after, List.foldl_append]
  rfl

lemma outcomes_append (ops ops' : List (ℕ × MapOp)) : ∀ m : MemoryMappedMutFile,
    m.outcomes build (ops ++ ops')
      = m.outcomes build ops ++ (m.after build ops).outcomes build ops' := by
  induction ops with
  | nil =>
      intro m
      rfl
  | cons op ops ih =>
      intro m
      simp only [List.cons_append, MemoryMappedMutFile.outcomes, ih]
      rfl

end Shared

/-- **What a rejected write does**, in any run of any holders: it panics and leaves the bytes alone,
but it poisons the lock, and from then on every operation of every holder panics and the map stays
as it is.  So a later operation has the outcome it would have had without the write only if it would
have panicked then, too. -/
theorem rejected_write_poisons (build : Build) (m : MemoryMappedMutFile)
    (before later : List (ℕ × MapOp)) (holder : ℕ) (pos : UInt64) (bytes : List UInt8)
    (hslice : bytes.length < 2 ^ 63)
    (hout : (m.after build before).map.length < pos.toNat + bytes.length) :
    (m.after build (before ++ [(holder, MapOp.writeBytes pos bytes)])).map
      = (m.after build before).map ∧
    (m.after build (before ++ (holder, MapOp.writeBytes pos bytes) :: later)).map
      = (m.after build before).map ∧
    m.outcomes build (before ++ (holder, MapOp.writeBytes pos bytes) :: later)
      = m.outcomes build before ++ (holder, MapOutcome.panicked) ::
          later.map (fun op => (op.1, MapOutcome.panicked)) ∧
    ∀ (i : ℕ) (o o' : ℕ × MapOutcome),
      ((m.after build (before ++ [(holder, MapOp.writeBytes pos bytes)])).outcomes build later)[i]?
        = some o →
      ((m.after build before).outcomes build later)[i]? = some o' →
      (o.2 = o'.2 ↔ o'.2 = MapOutcome.panicked) := by
  have hperform := perform_of_rejected build hslice hout
  have hone : m.after build (before ++ [(holder, MapOp.writeBytes pos bytes)])
      = ⟨(m.after build before).map, true⟩ := by
    rw [after_append]
    simp only [MemoryMappedMutFile.after, List.foldl_cons, List.foldl_nil] at hperform ⊢
    rw [hperform]
  obtain ⟨hafter, houtcomes⟩ :=
    run_of_poisoned build (m := ⟨(m.after build before).map, true⟩) rfl later
  refine ⟨by rw [hone], ?_, ?_, ?_⟩
  · rw [List.append_cons, after_append, hone, hafter]
  · rw [List.append_cons, outcomes_append, hone, houtcomes, outcomes_append, List.append_assoc]
    simp only [MemoryMappedMutFile.outcomes, hperform, List.singleton_append]
  · intro i o o' ho _
    rw [hone, houtcomes, List.getElem?_map, Option.map_eq_some_iff] at ho
    obtain ⟨op, -, rfl⟩ := ho
    exact eq_comm

/-- Two bytes; the first holder writes one at position two, the other reads. -/
theorem rejected_write_poisons_reader :
    (MemoryMappedMutFile.outcomes Build.release ⟨[1, 2], false⟩
        [(0, MapOp.writeBytes 2 [7]), (1, MapOp.inner)]
      = [(0, MapOutcome.panicked), (1, MapOutcome.panicked)]) :=
  (rejected_write_poisons Build.release ⟨[1, 2], false⟩ [] [(1, MapOp.inner)] 0 2 [7] (by decide)
    (by decide)).2.2.1

/-- Without that write the reader sees the two bytes; with it, it panics. -/
theorem rejected_write_has_effect :
    ([1, 2] : List UInt8).length < (2 : UInt64).toNat + [(7 : UInt8)].length ∧
    MemoryMappedMutFile.outcomes Build.debug ⟨[1, 2], false⟩ [(1, MapOp.inner)]
      = [(1, MapOutcome.saw [1, 2])] ∧
    (MemoryMappedMutFile.perform Build.debug ⟨[1, 2], false⟩ (MapOp.writeBytes 2 [7])).1.outcomes
        Build.debug [(1, MapOp.inner)] = [(1, MapOutcome.panicked)] ∧
    ¬ HasNoEffect Build.debug ⟨[1, 2], false⟩ 2 [7] := by
  refine ⟨by decide, rfl, rfl, ?_⟩
  intro hnone
  have hlater := hnone.later [(1, MapOp.inner)]
  have hsame : [(1, MapOutcome.panicked)] = [(1, MapOutcome.saw [1, 2])] := hlater
  simp at hsame

/-! ## `MemoryMappedFile`

The map for reading only.  `open` takes a minimum size, and grows the file to it through a second
handle; but it looks at whether the file is empty, not at whether it is too short.
-/

structure MemoryMappedFile where
  map : List UInt8
  deriving DecidableEq, Repr

/-- `MemoryMappedFile::open`; `none` is the panic of `unwrap` on a missing file.  The map is shared,
so it is also what the file holds afterwards. -/
def MemoryMappedFile.open (disk : Option (List UInt8)) (minLen : UInt64) :
    Option (Except ErrorKind MemoryMappedFile) :=
  disk.map fun content =>
    (if content.length = 0 then setLen content minLen else Except.ok content).map
      MemoryMappedFile.mk

/-- The promise of `open` on a file: a map of at least the size asked for, made of the file's bytes
and of zeros behind them, and the same one when it is opened again. -/
def HonoursMinimum (content : List UInt8) (minLen : UInt64) : Prop :=
  ∀ m, MemoryMappedFile.open (some content) minLen = some (Except.ok m) →
    m.map.length = max content.length minLen.toNat ∧
    m.map.take content.length = content ∧
    (∀ j, content.length ≤ j → j < m.map.length → m.map[j]? = some 0) ∧
    MemoryMappedFile.open (some m.map) minLen = some (Except.ok m)

lemma open_of_ne_nil {content : List UInt8} (h : content ≠ []) (minLen : UInt64) :
    MemoryMappedFile.open (some content) minLen = some (Except.ok ⟨content⟩) := by
  rw [MemoryMappedFile.open, Option.map_some, if_neg (by simpa using h)]
  rfl

/-- An empty file is grown to the minimum, if a file can be that long. -/
lemma open_nil (minLen : UInt64) :
    MemoryMappedFile.open (some []) minLen = some
      (if minLen.toNat < 2 ^ 63 then Except.ok ⟨List.replicate minLen.toNat 0⟩
      else Except.error ErrorKind.InvalidInput) := by
  rw [MemoryMappedFile.open, Option.map_some, if_pos List.length_nil, setLen]
  split_ifs
  · simp [resize, Except.map]
  · rfl

lemma honoursMinimum_nil (minLen : UInt64) : HonoursMinimum [] minLen := by
  intro m hopen
  have hm : m = ⟨List.replicate minLen.toNat 0⟩ := by
    rw [open_nil] at hopen
    split_ifs at hopen
    · exact (Except.ok.inj (Option.some.inj hopen)).symm
    · exact absurd hopen (by simp)
  subst hm
  refine ⟨by simp, rfl, ?_, ?_⟩
  · intro j _ hj
    rw [List.length_replicate] at hj
    rw [List.getElem?_replicate, if_pos hj]
  · by_cases hzero : minLen.toNat = 0
    · rwa [hzero] at hopen ⊢
    · exact open_of_ne_nil (by simpa using hzero) minLen

/-- **Exactly when the minimum is honoured**: for an empty file, and for one that is long enough. -/
theorem honours_minimum_iff (content : List UInt8) (minLen : UInt64) :
    HonoursMinimum content minLen ↔ content = [] ∨ minLen.toNat ≤ content.length := by
  constructor
  · intro hpromise
    by_cases hnil : content = []
    · exact Or.inl hnil
    · obtain ⟨hlen, -⟩ := hpromise _ (open_of_ne_nil hnil minLen)
      have hlen' : content.length = max content.length minLen.toNat := hlen
      exact Or.inr (by omega)
  · rintro (rfl | hle)
    · exact honoursMinimum_nil minLen
    · by_cases hnil : content = []
      · exact hnil ▸ honoursMinimum_nil minLen
      · intro m hopen
        rw [open_of_ne_nil hnil] at hopen
        obtain rfl := Except.ok.inj (Option.some.inj hopen)
        refine ⟨by simp [hle], by simp, ?_, open_of_ne_nil hnil minLen⟩
        intro j hj hlt
        exact absurd hlt (Nat.not_lt.mpr hj)

/-- Four bytes and a minimum of ten: the map has four. -/
theorem minimum_not_honoured :
    MemoryMappedFile.open (some [1, 2, 3, 4]) 10 = some (Except.ok ⟨[1, 2, 3, 4]⟩) ∧
      ¬ HonoursMinimum [1, 2, 3, 4] 10 := by
  refine ⟨rfl, ?_⟩
  intro hpromise
  have hlen := (hpromise _ rfl).1
  exact absurd hlen (by decide)

end FutureAio.Fs
