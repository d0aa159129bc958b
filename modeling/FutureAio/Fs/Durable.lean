import FutureAio.Fs.Mmap

/-!
# What a flush makes durable

The map is the file as every process sees it; what a crash leaves is what is on the disk by then.
The flushes of `MemoryMappedMutFile` are jobs on the blocking pool: between the call and the job
other holders may write, and the jobs are run in any order.

How bytes get from a map to the disk is the affair of `memmap2` and the system.  `Memmap` is what
the crate calls of it, and `Memmap.Durable` what its documentation says: of each byte the disk keeps
what it had or gets what the map holds, a `flush` that succeeds has stored all of them and a
`flush_range` those of its range, and a `flush_async` promises nothing.

* `flushFt`, `flushAsyncFt`, `flushRangeFt` — the jobs.
* `Storage`, `StorageAction`, `storageStep` — the holders, the pool and the system, in any
  interleaving.

`flushed_bytes_survive` — a byte that is not touched after a flush was called is on the disk from
the moment the flush returns, and whoever maps the file after a crash finds it (`Recovered`).
`crash_leaves_recent_bytes` — what else a crash can leave.
-/

namespace FutureAio.Fs

open RustInt Window Runs

/-- What the crate uses of `memmap2` to get a map to the disk; `Turn` is whatever decides an
outcome, `stored` what a crash at this moment would leave of the file. -/
structure Memmap where
  Disk : Type
  Turn : Type
  /-- `MmapMut::flush` -/
  flush : Turn → List UInt8 → Disk → Disk × Except IoError Unit
  /-- `MmapMut::flush_async` -/
  flushAsync : Turn → List UInt8 → Disk → Disk × Except IoError Unit
  /-- `MmapMut::flush_range` -/
  flushRange : Turn → UInt64 → UInt64 → List UInt8 → Disk → Disk × Except IoError Unit
  /-- what the system writes back unasked -/
  writeBack : Turn → List UInt8 → Disk → Disk
  stored : Disk → List UInt8

namespace Memmap

variable (mm : Memmap)

/-- From `d` to `d'` some bytes of the map have been stored, and nothing else. -/
structure Mixes (map : List UInt8) (d d' : mm.Disk) : Prop where
  length : (mm.stored d').length = (mm.stored d).length
  bytes : ∀ j : ℕ, (mm.stored d')[j]? = (mm.stored d)[j]? ∨ (mm.stored d')[j]? = map[j]?

/-- The documented behaviour.  The range given to `flush_range` has to be inside the map. -/
structure Durable : Prop where
  flush : ∀ turn map d, mm.Mixes map d (mm.flush turn map d).1
  flush_ok : ∀ turn map d, (mm.stored d).length = map.length →
    (mm.flush turn map d).2 = Except.ok () →
      ∀ j : ℕ, (mm.stored (mm.flush turn map d).1)[j]? = map[j]?
  flushAsync : ∀ turn map d, mm.Mixes map d (mm.flushAsync turn map d).1
  flushRange : ∀ turn offset len map d, mm.Mixes map d (mm.flushRange turn offset len map d).1
  flushRange_ok : ∀ turn offset len map d, (mm.stored d).length = map.length →
    offset.toNat + len.toNat ≤ map.length →
    (mm.flushRange turn offset len map d).2 = Except.ok () →
      ∀ j, offset.toNat ≤ j → j < offset.toNat + len.toNat →
        (mm.stored (mm.flushRange turn offset len map d).1)[j]? = map[j]?
  writeBack : ∀ turn map d, mm.Mixes map d (mm.writeBack turn map d)

end Memmap

/-! ## The jobs -/

section Jobs

variable (mm : Memmap) (turn : mm.Turn) (m : MemoryMappedMutFile) (disk : mm.Disk)

/-- What the three jobs have in common: `inner.write().unwrap()`, and a call under the guard. -/
def flushUnderLock (call : List UInt8 → mm.Disk → mm.Disk × Except IoError Unit) :
    mm.Disk × MapOutcome :=
  if m.poisoned then (disk, MapOutcome.panicked)
  else ((call m.map disk).1, MapOutcome.flushed (call m.map disk).2)

/-- `MemoryMappedMutFile::flush_ft`. -/
def flushFt : mm.Disk × MapOutcome := flushUnderLock mm m disk (mm.flush turn)

/-- `MemoryMappedMutFile::flush_async_ft`. -/
def flushAsyncFt : mm.Disk × MapOutcome := flushUnderLock mm m disk (mm.flushAsync turn)

/-- `MemoryMappedMutFile::flush_range_ft`. -/
def flushRangeFt (offset len : UInt64) : mm.Disk × MapOutcome :=
  flushUnderLock mm m disk (mm.flushRange turn offset len)

end Jobs

/-- A call of one of them. -/
inductive Flush where
  | flushFt
  | flushAsyncFt
  | flushRangeFt (offset len : UInt64)
  deriving DecidableEq, Repr

def Flush.job (mm : Memmap) (turn : mm.Turn) (m : MemoryMappedMutFile) (disk : mm.Disk) :
    Flush → mm.Disk × MapOutcome
  | Flush.flushFt => Fs.flushFt mm turn m disk
  | Flush.flushAsyncFt => Fs.flushAsyncFt mm turn m disk
  | Flush.flushRangeFt offset len => Fs.flushRangeFt mm turn m disk offset len

/-- The flush waits for byte `j` of a map of `size` bytes to be stored. -/
def Flush.Covers (size j : ℕ) : Flush → Prop
  | Flush.flushFt => True
  | Flush.flushAsyncFt => False
  | Flush.flushRangeFt offset len =>
      offset.toNat + len.toNat ≤ size ∧ offset.toNat ≤ j ∧ j < offset.toNat + len.toNat

/-! ## Holders, pool and system -/

/-- A slice has at most `isize::MAX` bytes. -/
def Slice : Type := { bytes : List UInt8 // bytes.length < 2 ^ 63 }

/-- What a holder does under the lock itself. -/
inductive Access where
  | writeBytes (pos : UInt64) (bytes : Slice)
  | inner
  | mutInner (edit : Edit)

def Access.op : Access → MapOp
  | Access.writeBytes pos bytes => MapOp.writeBytes pos bytes.1
  | Access.inner => MapOp.inner
  | Access.mutInner edit => MapOp.mutInner edit

/-- The access may change byte `j` of the map. -/
def Access.Touches (j : ℕ) : Access → Prop
  | Access.writeBytes pos bytes => pos.toNat ≤ j ∧ j < pos.toNat + bytes.1.length
  | Access.inner => False
  | Access.mutInner edit => ∃ map, (edit.1 map)[j]? ≠ map[j]?

/-- The map, the disk below it, and every flush that was called, with its outcome once it has
run. -/
structure Storage (mm : Memmap) where
  file : MemoryMappedMutFile
  disk : mm.Disk
  jobs : List (Flush × Option MapOutcome)

inductive StorageAction (mm : Memmap) where
  | access (op : Access)
  | callFlush (flush : Flush)
  | runFlush (i : ℕ) (turn : mm.Turn)
  | writeBack (turn : mm.Turn)

def storageStep (mm : Memmap) (build : Build) (s : Storage mm) :
    StorageAction mm → Option (Storage mm)
  | StorageAction.access op => some { s with file := (s.file.perform build op.op).1 }
  | StorageAction.callFlush flush => some { s with jobs := s.jobs ++ [(flush, none)] }
  | StorageAction.runFlush i turn =>
      match s.jobs[i]? with
      | some (flush, none) =>
          let r := flush.job mm turn s.file s.disk
          some { s with disk := r.1, jobs := s.jobs.set i (flush, some r.2) }
      | _ => none
  | StorageAction.writeBack turn =>
      some { s with disk := mm.writeBack turn s.file.map s.disk }

def StorageAction.Touches {mm : Memmap} (j : ℕ) : StorageAction mm → Prop
  | StorageAction.access op => op.Touches j
  | _ => False

/-- The flush that was called as number `i` has returned `Ok`. -/
def Storage.Succeeded {mm : Memmap} (s : Storage mm) (i : ℕ) (flush : Flush) : Prop :=
  s.jobs[i]? = some (flush, some (MapOutcome.flushed (Except.ok ())))

/-- Whoever maps what a crash has left finds `byte` at `j`: a reader, whatever size it asks for, and
a writer that asks for more than `j` bytes. -/
structure Recovered (disk : List UInt8) (j : ℕ) (byte : UInt8) : Prop where
  reader : ∀ minLen, MemoryMappedFile.open (some disk) minLen = some (Except.ok ⟨disk⟩)
  read : disk[j]? = some byte
  writer : ∀ len m, j < len.toNat → MemoryMappedMutFile.create (some disk) len = Except.ok m →
    m.map[j]? = some byte

/-! ## One step -/

/-- A write happens where it fits, or not at all. -/
lemma perform_writeBytes_cases (build : Build) (m : MemoryMappedMutFile) (pos : UInt64)
    (bytes : Slice) :
    (m.perform build (MapOp.writeBytes pos bytes.1)).1.map = m.map ∨
      pos.toNat + bytes.1.length ≤ m.map.length ∧
        (m.perform build (MapOp.writeBytes pos bytes.1)).1.map
          = overwrite m.map pos.toNat bytes.1 := by
  by_cases hfits : pos.toNat + bytes.1.length ≤ m.map.length
  · have hwrite : (m.writeBytes build pos bytes.1).1.map = m.map ∨
        (m.writeBytes build pos bytes.1).1.map = overwrite m.map pos.toNat bytes.1 := by
      unfold MemoryMappedMutFile.writeBytes
      split
      · exact Or.inl rfl
      · split
        · exact Or.inl rfl
        · split
          · exact Or.inr rfl
          · exact Or.inl rfl
    have hperform : (m.perform build (MapOp.writeBytes pos bytes.1)).1
        = (m.writeBytes build pos bytes.1).1 := by
      simp only [MemoryMappedMutFile.perform]
      rcases hm : m.writeBytes build pos bytes.1 with ⟨m', outcome⟩
      cases outcome <;> rfl
    rw [hperform]
    exact hwrite.imp_right fun h => ⟨hfits, h⟩
  · rw [perform_of_rejected build bytes.2 (Nat.lt_of_not_le hfits)]
    exact Or.inl rfl

/-- The map keeps its length, and the bytes the access does not touch. -/
lemma perform_access (build : Build) (m : MemoryMappedMutFile) (op : Access) :
    (m.perform build op.op).1.map.length = m.map.length ∧
      ∀ j, ¬ op.Touches j →
        (m.perform build op.op).1.map[j]? = m.map[j]? := by
  cases op with
  | writeBytes pos bytes =>
      rcases perform_writeBytes_cases build m pos bytes with hsame | ⟨hfits, hwrite⟩
      · simp [Access.op, hsame]
      · refine ⟨?_, ?_⟩
        · rw [Access.op, hwrite, length_overwrite_of_le hfits]
        · intro j htouches
          rw [Access.op, hwrite, getElem?_overwrite hfits, covering]
          simp only [Access.Touches, not_and, Nat.not_lt] at htouches
          split_ifs with hle
          · have hout := htouches hle
            rw [List.getElem?_eq_none (show bytes.1.length ≤ j - pos.toNat by omega),
              Option.none_or]
          · rw [Option.none_or]
  | inner =>
      cases hpoisoned : m.poisoned <;>
        simp [Access.op, MemoryMappedMutFile.perform, MemoryMappedMutFile.locked, hpoisoned]
  | mutInner edit =>
      cases hpoisoned : m.poisoned with
      | true =>
          simp [Access.op, MemoryMappedMutFile.perform, MemoryMappedMutFile.locked, hpoisoned]
      | false =>
          simp only [Access.op, MemoryMappedMutFile.perform, MemoryMappedMutFile.locked, hpoisoned,
            Bool.false_eq_true, if_false]
          refine ⟨edit.2 m.map, ?_⟩
          intro j htouches
          simp only [Access.Touches, not_exists, not_not] at htouches
          exact htouches m.map

section Step

variable {mm : Memmap} {build : Build} {s s' : Storage mm} {a : StorageAction mm} {size : ℕ}

/-- What a job does to the disk. -/
lemma job_mixes (hmm : mm.Durable) (turn : mm.Turn) (m : MemoryMappedMutFile) (disk : mm.Disk)
    (flush : Flush) : mm.Mixes m.map disk (flush.job mm turn m disk).1 := by
  cases hpoisoned : m.poisoned with
  | true =>
      have hsame : (flush.job mm turn m disk).1 = disk := by
        cases flush <;>
          simp [Flush.job, flushFt, flushAsyncFt, flushRangeFt, flushUnderLock, hpoisoned]
      rw [hsame]
      exact ⟨rfl, fun _ => Or.inl rfl⟩
  | false =>
      cases flush with
      | flushFt =>
          simpa [Flush.job, flushFt, flushUnderLock, hpoisoned] using hmm.flush turn m.map disk
      | flushAsyncFt =>
          simpa [Flush.job, flushAsyncFt, flushUnderLock, hpoisoned]
            using hmm.flushAsync turn m.map disk
      | flushRangeFt offset len =>
          simpa [Flush.job, flushRangeFt, flushUnderLock, hpoisoned]
            using hmm.flushRange turn offset len m.map disk

/-- What it means that a job returns `Ok`. -/
lemma job_stores (hmm : mm.Durable) {turn : mm.Turn} {m : MemoryMappedMutFile} {disk : mm.Disk}
    {flush : Flush} (hlength : (mm.stored disk).length = m.map.length)
    (hok : (flush.job mm turn m disk).2 = MapOutcome.flushed (Except.ok ())) {j : ℕ}
    (hcovers : flush.Covers m.map.length j) :
    (mm.stored (flush.job mm turn m disk).1)[j]? = m.map[j]? := by
  cases hpoisoned : m.poisoned with
  | true =>
      cases flush <;>
        simp [Flush.job, flushFt, flushAsyncFt, flushRangeFt, flushUnderLock, hpoisoned] at hok
  | false =>
      cases flush with
      | flushAsyncFt => exact hcovers.elim
      | flushFt =>
          simp only [Flush.job, flushFt, flushUnderLock, hpoisoned, Bool.false_eq_true, if_false,
            MapOutcome.flushed.injEq] at hok ⊢
          exact hmm.flush_ok turn m.map disk hlength hok j
      | flushRangeFt offset len =>
          obtain ⟨hin, hle, hlt⟩ := hcovers
          simp only [Flush.job, flushRangeFt, flushUnderLock, hpoisoned, Bool.false_eq_true,
            if_false, MapOutcome.flushed.injEq] at hok ⊢
          exact hmm.flushRange_ok turn offset len m.map disk hlength hin hok j hle hlt

/-- The map and the disk are `size` bytes long. -/
structure Storage.Sized (size : ℕ) (s : Storage mm) : Prop where
  map : s.file.map.length = size
  disk : (mm.stored s.disk).length = size

/-- What a step can do to the map, the disk and the jobs.  Byte by byte, the disk keeps what it has
or gets what the map now holds; and a flush of the byte has returned `Ok` before the step unless the
byte is on the disk after it. -/
structure StoresBytes (size : ℕ) (s : Storage mm) (a : StorageAction mm) (s' : Storage mm) :
    Prop where
  sized : s'.Sized size
  map : ∀ j, ¬ a.Touches j → s'.file.map[j]? = s.file.map[j]?
  disk : ∀ j : ℕ, (mm.stored s'.disk)[j]? = (mm.stored s.disk)[j]? ∨
    (mm.stored s'.disk)[j]? = s'.file.map[j]?
  kept : ∀ i flush, s.Succeeded i flush → s'.Succeeded i flush
  flushed : ∀ i flush, s'.Succeeded i flush → s.Succeeded i flush ∨
    ∀ j, flush.Covers size j → (mm.stored s'.disk)[j]? = s'.file.map[j]?

lemma storesBytes_mixes {d : mm.Disk} (hsized : s.Sized size)
    (hmixes : mm.Mixes s.file.map s.disk d)
    {jobs : List (Flush × Option MapOutcome)}
    (hkept : ∀ i flush, s.Succeeded i flush → Storage.Succeeded ⟨s.file, d, jobs⟩ i flush)
    (hflushed : ∀ i flush, Storage.Succeeded ⟨s.file, d, jobs⟩ i flush → s.Succeeded i flush ∨
      ∀ j, flush.Covers size j → (mm.stored d)[j]? = s.file.map[j]?) :
    StoresBytes size s a ⟨s.file, d, jobs⟩ :=
  ⟨⟨hsized.map, hmixes.length.trans hsized.disk⟩, fun _ _ => rfl, hmixes.bytes, hkept, hflushed⟩

lemma storesBytes_runFlush (hmm : mm.Durable) (hsized : s.Sized size) {i : ℕ} {turn : mm.Turn}
    (h : storageStep mm build s (StorageAction.runFlush i turn) = some s') :
    StoresBytes size s (StorageAction.runFlush i turn) s' := by
  simp only [storageStep] at h
  split at h
  case h_1 flush hjob =>
      obtain rfl := Option.some.inj h
      have hi : i < s.jobs.length := (List.getElem?_eq_some_iff.mp hjob).1
      refine storesBytes_mixes hsized (job_mixes hmm turn s.file s.disk flush) ?_ ?_
      · intro k flush' hk
        have hne : i ≠ k := by
          rintro rfl
          rw [Storage.Succeeded, hjob] at hk
          simp at hk
        rw [Storage.Succeeded, List.getElem?_set_ne hne]
        exact hk
      · intro k flush' hk
        by_cases hik : i = k
        · subst hik
          rw [Storage.Succeeded, List.getElem?_set_self hi, Option.some.injEq, Prod.mk.injEq,
            Option.some.injEq] at hk
          obtain ⟨rfl, hok⟩ := hk
          refine Or.inr fun j hcovers => ?_
          rw [← hsized.map] at hcovers
          exact job_stores hmm (hsized.disk.trans hsized.map.symm) hok hcovers
        · rw [Storage.Succeeded, List.getElem?_set_ne hik] at hk
          exact Or.inl hk
  case h_2 => exact absurd h (by simp)

lemma storesBytes_step (hmm : mm.Durable) (hsized : s.Sized size)
    (h : storageStep mm build s a = some s') : StoresBytes size s a s' := by
  cases a with
  | access op =>
      obtain ⟨hkeeps, huntouched⟩ := perform_access build s.file op
      rw [storageStep, Option.some.injEq] at h
      obtain rfl := h
      exact ⟨⟨hkeeps.trans hsized.map, hsized.disk⟩, huntouched, fun _ => Or.inl rfl,
        fun _ _ hk => hk, fun _ _ hk => Or.inl hk⟩
  | callFlush flush =>
      rw [storageStep, Option.some.injEq] at h
      obtain rfl := h
      refine storesBytes_mixes hsized ⟨rfl, fun _ => Or.inl rfl⟩ ?_ ?_
      · intro i flush' hi
        have hlt := (List.getElem?_eq_some_iff.mp hi).1
        rw [Storage.Succeeded, List.getElem?_append_left hlt]
        exact hi
      · intro i flush' hi
        refine Or.inl ?_
        rw [Storage.Succeeded, List.getElem?_append] at hi
        split_ifs at hi with hlt
        · exact hi
        · rw [List.getElem?_singleton] at hi
          split_ifs at hi
          simp at hi
  | runFlush i turn => exact storesBytes_runFlush hmm hsized h
  | writeBack turn =>
      rw [storageStep, Option.some.injEq] at h
      obtain rfl := h
      exact storesBytes_mixes hsized (hmm.writeBack turn s.file.map s.disk) (fun _ _ hk => hk)
        fun _ _ hk => Or.inl hk

end Step

/-! ## Whole runs -/

section Run

variable {mm : Memmap} {build : Build} {s u : Storage mm} {size j : ℕ}

lemma run_sized (hmm : mm.Durable) (as : List (StorageAction mm)) (hsized : s.Sized size)
    (h : run (storageStep mm build) s as = some u) : u.Sized size :=
  run_invariant (fun _ _ _ hs hstep => (storesBytes_step hmm hs hstep).sized) as hsized h

/-- Byte `j` is as it was at the call of flush number `i`, and on the disk if that has returned. -/
structure AtRest (size j i : ℕ) (flush : Flush) (byte : Option UInt8) (s : Storage mm) : Prop where
  sized : s.Sized size
  map : s.file.map[j]? = byte
  disk : s.Succeeded i flush → (mm.stored s.disk)[j]? = byte

lemma atRest_step (hmm : mm.Durable) {i : ℕ} {flush : Flush} {byte : Option UInt8}
    (hcovers : flush.Covers size j) {a : StorageAction mm} {s s' : Storage mm}
    (inv : AtRest size j i flush byte s) (huntouched : ¬ a.Touches j)
    (h : storageStep mm build s a = some s') : AtRest size j i flush byte s' := by
  have hstores := storesBytes_step hmm inv.sized h
  have hmap : s'.file.map[j]? = byte := (hstores.map j huntouched).trans inv.map
  refine ⟨hstores.sized, hmap, ?_⟩
  intro hi
  rcases hstores.flushed i flush hi with hbefore | hnow
  · rcases hstores.disk j with hsame | hfresh
    · exact hsame.trans (inv.disk hbefore)
    · exact hfresh.trans hmap
  · exact (hnow j hcovers).trans hmap

lemma recovered_of_disk {disk : List UInt8} {byte : UInt8} (h : disk[j]? = some byte) :
    Recovered disk j byte := by
  have hne : disk ≠ [] := by
    rintro rfl
    simp at h
  refine ⟨open_of_ne_nil hne, h, ?_⟩
  intro len m hj hcreate
  by_cases hlen : len.toNat < 2 ^ 63
  · rw [create_of_lt hlen, Except.ok.injEq] at hcreate
    rw [← hcreate, Option.getD_some, getElem?_resize disk len.toNat 0 hj, h, Option.getD_some]
  · rw [MemoryMappedMutFile.create, setLen, if_neg hlen] at hcreate
    exact absurd hcreate (by simp [Except.map])

end Run

/-! ## A page cache

One `Memmap` that is as documented, to run examples.
-/

/-- Byte by byte, out of the map or what was there before. -/
def store (which : ℕ → Bool) (map disk : List UInt8) : List UInt8 :=
  disk.mapIdx fun j b => if which j then map[j]?.getD b else b

/-- A turn is the error of the call, if there is one, and the bytes that are written back
besides. -/
abbrev pageCache : Memmap where
  Disk := List UInt8
  Turn := Option IoError × (ℕ → Bool)
  flush
    | (none, _), map, d => (store (fun _ => true) map d, Except.ok ())
    | (some err, which), map, d => (store which map d, Except.error err)
  flushAsync
    | (none, which), map, d => (store which map d, Except.ok ())
    | (some err, which), map, d => (store which map d, Except.error err)
  flushRange
    | (none, which), offset, len, map, d =>
        (store (fun j => which j || decide (offset.toNat ≤ j ∧ j < offset.toNat + len.toNat)) map d,
          Except.ok ())
    | (some err, which), _, _, map, d => (store which map d, Except.error err)
  writeBack turn map d := store turn.2 map d
  stored d := d

lemma store_mixes (which : ℕ → Bool) (map d : List UInt8) :
    pageCache.Mixes map d (store which map d) := by
  refine ⟨List.length_mapIdx, fun j => ?_⟩
  simp only [store, List.getElem?_mapIdx]
  cases hd : d[j]? with
  | none => exact Or.inl rfl
  | some b =>
      cases hmap : map[j]? with
      | none => simp
      | some c => by_cases hw : which j = true <;> simp [hw]

lemma getElem?_store {which : ℕ → Bool} {map d : List UInt8} (h : d.length = map.length) {j : ℕ}
    (hj : which j = true) : (store which map d)[j]? = map[j]? := by
  simp only [store, List.getElem?_mapIdx, hj, if_true]
  by_cases hlt : j < map.length
  · rw [List.getElem?_eq_getElem hlt, List.getElem?_eq_getElem (by omega)]
    rfl
  · rw [List.getElem?_eq_none (by omega), List.getElem?_eq_none (by omega)]
    rfl

theorem pageCache_durable : pageCache.Durable where
  flush turn map d := by
    obtain ⟨_ | err, which⟩ := turn <;> exact store_mixes _ map d
  flush_ok turn map d hlength hok j := by
    obtain ⟨_ | err, which⟩ := turn
    · exact getElem?_store hlength rfl
    · exact absurd hok (by simp)
  flushAsync turn map d := by
    obtain ⟨_ | err, which⟩ := turn <;> exact store_mixes _ map d
  flushRange turn offset len map d := by
    obtain ⟨_ | err, which⟩ := turn <;> exact store_mixes _ map d
  flushRange_ok turn offset len map d hlength _ hok j hle hlt := by
    obtain ⟨_ | err, which⟩ := turn
    · exact getElem?_store hlength (by simp [hle, hlt])
    · exact absurd hok (by simp)
  writeBack turn map d := store_mixes turn.2 map d

/-! ## Durability -/

/-- **What a flush returned for survives.**  A byte that nobody touches after a flush of it was
called is on the disk once the flush has returned `Ok`, and stays there: whenever its job is run,
and whatever the other holders, the other flushes and the system do, before and after.  So a crash
at any later moment leaves it to whoever maps the file next. -/
theorem flushed_bytes_survive (mm : Memmap) (hmm : mm.Durable) (build : Build) (s t u : Storage mm)
    (hlength : (mm.stored s.disk).length = s.file.map.length)
    (before after : List (StorageAction mm)) (flush : Flush) (j : ℕ)
    (hcall : run (storageStep mm build) s before = some t)
    (hrun : run (storageStep mm build) t (StorageAction.callFlush flush :: after) = some u)
    (hreturned : u.Succeeded t.jobs.length flush) (hcovers : flush.Covers s.file.map.length j)
    (huntouched : ∀ a ∈ after, ¬ a.Touches j) :
    u.file.map[j]? = t.file.map[j]? ∧ (mm.stored u.disk)[j]? = u.file.map[j]? ∧
      ∀ byte, u.file.map[j]? = some byte → Recovered (mm.stored u.disk) j byte := by
  have hsized : s.Sized s.file.map.length := ⟨rfl, hlength⟩
  obtain ⟨t', hstep, hafter⟩ := run_cons_some hrun
  have ht' := storesBytes_step hmm (run_sized hmm before hsized hcall) hstep
  have hstart : AtRest s.file.map.length j t.jobs.length flush t.file.map[j]? t' := by
    refine ⟨ht'.sized, ht'.map j id, ?_⟩
    intro hi
    rw [storageStep, Option.some.injEq] at hstep
    rw [Storage.Succeeded, ← hstep] at hi
    simp at hi
  have hrest := run_invariant_along (P := fun _ a => ¬ a.Touches j)
    (fun _ _ _ inv ha h => atRest_step hmm hcovers inv ha h) after hstart
    (along_of_forall_mem after huntouched) hafter
  have hdisk : (mm.stored u.disk)[j]? = u.file.map[j]? :=
    (hrest.disk hreturned).trans hrest.map.symm
  refine ⟨hrest.map, hdisk, ?_⟩
  intro byte hbyte
  exact recovered_of_disk (hdisk.trans hbyte)

/-- A byte written and flushed by its range, while another holder writes the byte beside it: the
first is on the disk, the second is not. -/
theorem flushed_bytes_survive_range :
    ∃ t u, run (storageStep pageCache Build.debug) ⟨⟨[1, 2], false⟩, [1, 2], []⟩
        [StorageAction.access (Access.writeBytes 0 ⟨[7], by decide⟩)] = some t ∧
      run (storageStep pageCache Build.debug) t
        [StorageAction.callFlush (Flush.flushRangeFt 0 1),
          StorageAction.access (Access.writeBytes 1 ⟨[8], by decide⟩),
          StorageAction.runFlush 0 (none, fun _ => false)] = some u ∧
      u.file.map = [7, 8] ∧ u.disk = [7, 2] ∧ Recovered u.disk 0 7 :=
  ⟨_, _, rfl, rfl, rfl, rfl,
    (flushed_bytes_survive pageCache pageCache_durable Build.debug ⟨⟨[1, 2], false⟩, [1, 2], []⟩
      _ _ rfl [StorageAction.access (Access.writeBytes 0 ⟨[7], by decide⟩)]
      [StorageAction.access (Access.writeBytes 1 ⟨[8], by decide⟩),
        StorageAction.runFlush 0 (none, fun _ => false)]
      (Flush.flushRangeFt 0 1) 0 rfl rfl rfl ⟨by decide, by decide, by decide⟩
      (by simp [StorageAction.Touches, Access.Touches])).2.2 7 rfl⟩

/-- **What a crash can leave.**  From a file that is on the disk as it is mapped, in any run and at
any moment: each byte on the disk is what the map held there at some moment, and that not before the
last flush of the byte that has returned `Ok`. -/
theorem crash_leaves_recent_bytes (mm : Memmap) (hmm : mm.Durable) (build : Build)
    (s u : Storage mm) (hstored : mm.stored s.disk = s.file.map) (as : List (StorageAction mm))
    (hrun : run (storageStep mm build) s as = some u) (j : ℕ) :
    ∃ before after v, as = before ++ after ∧ run (storageStep mm build) s before = some v ∧
      (mm.stored u.disk)[j]? = v.file.map[j]? ∧
      ∀ i flush, flush.Covers s.file.map.length j → u.Succeeded i flush → v.Succeeded i flush := by
  have hsized : s.Sized s.file.map.length := ⟨rfl, by rw [hstored]⟩
  have hcopy := run_copy (I := Storage.Sized s.file.map.length)
    (fun s => (mm.stored s.disk)[j]?) (fun s => s.file.map[j]?)
    (fun s' => {p : ℕ × Flush | p.2.Covers s.file.map.length j ∧ s'.Succeeded p.1 p.2}) (by
      intro t a t' ht hstep
      have hstores := storesBytes_step hmm ht hstep
      refine ⟨hstores.sized, ?_⟩
      rcases hstores.disk j with hsame | hfresh
      · by_cases hnew : (mm.stored t'.disk)[j]? = t'.file.map[j]?
        · exact Or.inr hnew
        · refine Or.inl ⟨hsame, Set.ext fun p => ⟨?_, ?_⟩⟩
          · rintro ⟨hcovers, hp⟩
            refine ⟨hcovers, (hstores.flushed p.1 p.2 hp).resolve_right ?_⟩
            exact fun hall => hnew (hall j hcovers)
          · rintro ⟨hcovers, hp⟩
            exact ⟨hcovers, hstores.kept p.1 p.2 hp⟩
      · exact Or.inr hfresh) as hsized hrun
  have hseen : ∀ v : Storage mm,
      {p : ℕ × Flush | p.2.Covers s.file.map.length j ∧ u.Succeeded p.1 p.2}
        = {p : ℕ × Flush | p.2.Covers s.file.map.length j ∧ v.Succeeded p.1 p.2} →
      ∀ i flush, flush.Covers s.file.map.length j → u.Succeeded i flush → v.Succeeded i flush := by
    intro v heq i flush hcovers hi
    have hmem : ((i, flush) : ℕ × Flush) ∈
        {p : ℕ × Flush | p.2.Covers s.file.map.length j ∧ u.Succeeded p.1 p.2} := ⟨hcovers, hi⟩
    rw [heq] at hmem
    exact hmem.2
  rcases hcopy with ⟨hsame, heq⟩ | ⟨before, after, v, hsplit, hv, hdisk, heq⟩
  · have hsame' : (mm.stored u.disk)[j]? = s.file.map[j]? := by
      rw [← hstored]
      exact hsame
    exact ⟨[], as, s, rfl, rfl, hsame', hseen s heq⟩
  · exact ⟨before, after, v, hsplit, hv, hdisk, hseen v heq⟩

/-- Flushed, written again, and partly written back: at a moment when that flush had returned the
map held the byte that is now on the disk, and it is not the one that was flushed. -/
theorem crash_leaves_recent_bytes_rewritten :
    ∃ u before after v, run (storageStep pageCache Build.debug) ⟨⟨[1, 2], false⟩, [1, 2], []⟩
        [StorageAction.callFlush Flush.flushFt,
          StorageAction.runFlush 0 (none, fun _ => false),
          StorageAction.access (Access.writeBytes 0 ⟨[7, 8], by decide⟩),
          StorageAction.writeBack (none, fun j => j == 0)] = some u ∧
      u.disk = [7, 2] ∧
      [StorageAction.callFlush Flush.flushFt,
          StorageAction.runFlush 0 (none, fun _ => false),
          StorageAction.access (Access.writeBytes 0 ⟨[7, 8], by decide⟩),
          StorageAction.writeBack (none, fun j => j == 0)] = before ++ after ∧
      run (storageStep pageCache Build.debug) ⟨⟨[1, 2], false⟩, [1, 2], []⟩ before = some v ∧
      v.file.map[0]? = some 7 ∧ v.Succeeded 0 Flush.flushFt := by
  obtain ⟨before, after, v, hsplit, hv, hdisk, hseen⟩ :=
    crash_leaves_recent_bytes pageCache pageCache_durable Build.debug
      ⟨⟨[1, 2], false⟩, [1, 2], []⟩ _ rfl
      [StorageAction.callFlush Flush.flushFt,
        StorageAction.runFlush 0 (none, fun _ => false),
        StorageAction.access (Access.writeBytes 0 ⟨[7, 8], by decide⟩),
        StorageAction.writeBack (none, fun j => j == 0)] rfl 0
  exact ⟨_, before, after, v, rfl, rfl, hsplit, hv, hdisk.symm, hseen 0 Flush.flushFt trivial rfl⟩

end FutureAio.Fs
