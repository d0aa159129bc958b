import Mathlib.Data.List.Basic
import Mathlib.Tactic.Common
import Mathlib.Data.Nat.Notation

/-!
# Names and addresses of hosts, as text

The grammars that decide what a string can be used for: a name to look up, an address written
out, the port of a socket address.  All of them are decided on lists of characters.

* `isDnsName` — labels of letters, digits, `-` and `_`, separated by dots.
* `isIpv4`, `isIpv6`, `isIpLiteral` — addresses as they are written out: four octets, or eight
  groups of hexadecimal digits, of which a run may be left out and the last two be an octet quad.
* `isPort` — a decimal number below `65536`.

`authority_not_ipLiteral` is about a host name with a port behind it: it has exactly one colon,
which is one too few for an address.
-/

namespace HostName

/-! ## Separated sequences -/

section SplitOn

variable {α : Type*} [BEq α] [LawfulBEq α]

lemma length_splitOn (a : α) (l : List α) : (l.splitOn a).length = l.count a + 1 := by
  induction l with
  | nil => simp
  | cons x l ih =>
      rw [List.splitOn_cons_eq_if_modifyHead]
      by_cases hx : x = a
      · simp [hx, ih]
      · simp [hx, ih]

/-- Every element is the separator or belongs to a part. -/
lemma mem_splitOn {a x : α} {l : List α} (hx : x ∈ l) :
    x = a ∨ ∃ part ∈ l.splitOn a, x ∈ part := by
  induction l with
  | nil => simp at hx
  | cons y l ih =>
      rw [List.splitOn_cons_eq_if_modifyHead]
      by_cases hy : y = a
      · rcases List.mem_cons.mp hx with rfl | hx
        · exact Or.inl hy
        · simpa [hy] using ih hx
      · -- the head is put before the first part of the rest
        obtain ⟨part, parts, hsplit⟩ := List.exists_cons_of_ne_nil (List.splitOn_ne_nil a l)
        rcases List.mem_cons.mp hx with rfl | hx
        · simp [hy, hsplit]
        · have hrest := ih hx
          simp only [hsplit, List.mem_cons, exists_eq_or_imp] at hrest
          simp only [hy, beq_iff_eq, hsplit, if_false, List.modifyHead_cons, List.mem_cons,
            exists_eq_or_imp]
          tauto

/-- Parts without a given element, joined by another one. -/
lemma not_mem_of_splitOn {a x : α} {l : List α} (hne : x ≠ a)
    (hparts : ∀ part ∈ l.splitOn a, x ∉ part) : x ∉ l := by
  intro hx
  rcases mem_splitOn (a := a) hx with heq | ⟨part, hpart, hx⟩
  · exact hne heq
  · exact hparts part hpart hx

end SplitOn

/-! ## Names -/

/-- Letters, digits, `-` and `_`. -/
def labelChar (c : Char) : Bool := c.isAlphanum || c == '-' || c == '_'

def isLabel (label : List Char) : Bool := !label.isEmpty && label.all labelChar

def isDnsName (s : List Char) : Bool := (s.splitOn '.').all isLabel

/-! ## Numbers -/

def isDecimal (ds : List Char) : Bool := !ds.isEmpty && ds.all Char.isDigit

/-- The value of decimal digits. -/
def decimal (ds : List Char) : ℕ := ds.foldl (fun n c => 10 * n + (c.toNat - '0'.toNat)) 0

/-- A decimal number that fits into 16 bits. -/
def isPort (ds : List Char) : Bool := isDecimal ds && decide (decimal ds < 65536)

/-- A decimal number that fits into 8 bits, without leading zeros. -/
def isOctet (ds : List Char) : Bool :=
  isDecimal ds && decide (decimal ds < 256) && (ds.length == 1 || ds.head? != some '0')

/-- One to four hexadecimal digits. -/
def isHexGroup (ds : List Char) : Bool :=
  !ds.isEmpty && decide (ds.length ≤ 4) &&
    ds.all fun c => c.isDigit || ('a' ≤ c && c ≤ 'f') || ('A' ≤ c && c ≤ 'F')

/-! ## Addresses -/

def isIpv4 (s : List Char) : Bool :=
  (s.splitOn '.').length == 4 && (s.splitOn '.').all isOctet

/-- The 16-bit groups in front of a `::`, if they are written well. -/
def headGroups (s : List Char) : Option ℕ :=
  if s.isEmpty then some 0
  else if (s.splitOn ':').all isHexGroup then some (s.splitOn ':').length
  else none

/-- The 16-bit groups at the end of an address; the last two may be written as octets. -/
def tailGroups (s : List Char) : Option ℕ :=
  if (s.splitOn ':').dropLast.all isHexGroup && (s.splitOn ':').getLast?.any isIpv4 then
    some ((s.splitOn ':').length + 1)
  else headGroups s

/-- Two runs of groups with a `::` between them, which stands for at least one group. -/
def isCompressed (head tail : List Char) : Bool :=
  match headGroups head, tailGroups tail with
  | some m, some n => decide (m + n < 8)
  | _, _ => false

def isIpv6 (s : List Char) : Bool :=
  tailGroups s == some 8 ||
    (List.range s.length).any fun i =>
      (s.drop i).take 2 == [':', ':'] && isCompressed (s.take i) (s.drop (i + 2))

def isIpLiteral (s : List Char) : Bool := isIpv4 s || isIpv6 s

/-! ## Colons -/

lemma colon_not_mem_decimal {ds : List Char} (h : isDecimal ds) : ':' ∉ ds := by
  intro hmem
  simp only [isDecimal, Bool.and_eq_true, List.all_eq_true] at h
  exact absurd (h.2 ':' hmem) (by decide)

lemma colon_not_mem_dnsName {s : List Char} (h : isDnsName s) : ':' ∉ s := by
  refine not_mem_of_splitOn (a := '.') (by decide) ?_
  intro label hlabel hmem
  have hchars := List.all_eq_true.mp h label hlabel
  simp only [isLabel, Bool.and_eq_true, List.all_eq_true] at hchars
  exact absurd (hchars.2 ':' hmem) (by decide)

lemma colon_not_mem_ipv4 {s : List Char} (h : isIpv4 s) : ':' ∉ s := by
  simp only [isIpv4, Bool.and_eq_true, List.all_eq_true] at h
  refine not_mem_of_splitOn (a := '.') (by decide) ?_
  intro octet hoctet
  have hdigits := h.2 octet hoctet
  simp only [isOctet, Bool.and_eq_true] at hdigits
  exact colon_not_mem_decimal hdigits.1.1

lemma headGroups_le {s : List Char} {n : ℕ} (h : headGroups s = some n) : n ≤ s.count ':' + 1 := by
  rw [headGroups] at h
  split_ifs at h with hempty hall
  · simp only [Option.some.injEq] at h
    omega
  · rw [Option.some.injEq, length_splitOn] at h
    omega

lemma tailGroups_le {s : List Char} {n : ℕ} (h : tailGroups s = some n) : n ≤ s.count ':' + 2 := by
  rw [tailGroups] at h
  split_ifs at h with hquad
  · rw [Option.some.injEq, length_splitOn] at h
    omega
  · have := headGroups_le h
    omega

/-- Eight groups need colons between them, and so does a `::`. -/
lemma two_le_count_of_isIpv6 {s : List Char} (h : isIpv6 s) : 2 ≤ s.count ':' := by
  simp only [isIpv6, Bool.or_eq_true, beq_iff_eq, List.any_eq_true, List.mem_range,
    Bool.and_eq_true] at h
  rcases h with hfull | ⟨i, -, hcolons, -⟩
  · have := tailGroups_le hfull
    omega
  · calc 2 = ((s.drop i).take 2).count ':' := by rw [hcolons]; rfl
      _ ≤ (s.drop i).count ':' := (List.take_sublist _ _).count_le _
      _ ≤ s.count ':' := (List.drop_sublist _ _).count_le _

/-- A name with a port behind it is no address. -/
theorem authority_not_ipLiteral {host port : List Char} (hhost : isDnsName host)
    (hport : isPort port) : isIpLiteral (host ++ ':' :: port) = false := by
  simp only [isPort, Bool.and_eq_true] at hport
  have hcolon : ':' ∈ host ++ ':' :: port := by simp
  have hcount : (host ++ ':' :: port).count ':' = 1 := by
    rw [List.count_append, List.count_cons_self,
      List.count_eq_zero.mpr (colon_not_mem_dnsName hhost),
      List.count_eq_zero.mpr (colon_not_mem_decimal hport.1)]
  rw [isIpLiteral, Bool.or_eq_false_iff, Bool.eq_false_iff, Bool.eq_false_iff]
  refine ⟨fun h => colon_not_mem_ipv4 h hcolon, fun h => ?_⟩
  have := two_le_count_of_isIpv6 h
  omega

end HostName
