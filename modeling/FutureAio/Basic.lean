import Mathlib.Algebra.Ring.Nat
import Mathlib.Tactic.Common
import Mathlib.Data.Nat.Notation
import Mathlib.Data.Int.Notation

/-!
# Shared vocabulary

The few data types that several components of the crate exchange: the content of a file, the
slice of a file that `AsyncFileExtension` hands to `ZeroCopy`, I/O errors, and the answer of a
poll.
-/

namespace FutureAio

/-- The content of a regular file.  Offsets are `off_t`, so a file is shorter than `2 ^ 63`
bytes; the bound is a field, and every offset argument below starts from it. -/
structure FileContent where
  bytes : List UInt8
  length_lt : bytes.length < 2 ^ 63

/-- `Metadata::len`. -/
def FileContent.len (file : FileContent) : UInt64 := UInt64.ofNat file.bytes.length

lemma FileContent.toNat_len (file : FileContent) : file.len.toNat = file.bytes.length := by
  have hlt := file.length_lt
  exact UInt64.toNat_ofNat_of_lt' (show _ < 2 ^ 64 by omega)

lemma FileContent.len_le_iff {file : FileContent} {position : UInt64} :
    file.len ≤ position ↔ file.bytes.length ≤ position.toNat := by
  rw [UInt64.le_iff_toNat_le, file.toNat_len]

/-- `std::io::ErrorKind`, with the kinds that are named here; `os` stands for the others. -/
inductive ErrorKind where
  | NotFound
  | ConnectionRefused
  | WouldBlock
  | UnexpectedEof
  | WriteZero
  | InvalidInput
  | InvalidData
  | Other
  | os (code : ℕ)
  deriving DecidableEq, Repr

/-- `std::io::Error`: its kind and its text. -/
structure IoError where
  kind : ErrorKind
  text : String
  deriving DecidableEq, Repr

/-- `core::task::Poll`. -/
inductive Poll (α : Type*) where
  | pending
  | ready (a : α)
  deriving DecidableEq, Repr

/-- `Poll::is_pending`. -/
def Poll.isPending {α : Type*} : Poll α → Bool
  | Poll.pending => true
  | Poll.ready _ => false

/-- `Poll::is_ready`. -/
def Poll.isReady {α : Type*} : Poll α → Bool
  | Poll.pending => false
  | Poll.ready _ => true

/-- `AsyncFileSlice`: a range of a file, named by its raw descriptor. -/
structure AsyncFileSlice where
  fd : ℤ
  position : UInt64
  len : UInt64
  deriving DecidableEq, Repr

/-- `AsyncFileSlice::is_empty`. -/
def AsyncFileSlice.isEmpty (slice : AsyncFileSlice) : Bool := slice.len == 0

end FutureAio
