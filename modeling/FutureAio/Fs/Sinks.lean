import FutureAio.Fs.Send

/-!
# Several append sinks on one file

Nothing keeps a second `BoundedFileSink::open_append` from the same path.  Each sink has a handle
and a count of its own; they share nothing but the file, and never look at its length again.

* `Sinks` — the content, the sinks, and a record: which sink each byte behind the initial content
  came from, and of each sink what it has accepted and how long the record was when it opened.
* `sinksStep` — a sink opens, is polled for a write or a flush, or its handle passes bytes on.
* `SinksAction.Admitted` — writers that ask their own sink's `can_be_appended` first.

`sinks_interleave` says what is left of the single sink's promises.  The bytes are safe: the file is
the initial content and an interleaving of what the sinks accepted, nothing lost, repeated or out of
order.  The counts are not lengths any more: each falls short by exactly what the other sinks have
put into the file since it was opened.  `guarded_sinks_bounded` says what is left of the bound.
-/

namespace FutureAio.Fs

open RustInt Runs

/-- A sink on the shared file. -/
structure Sharer (fs : AsyncFs) where
  sink : BoundedFileSink (File fs.Handle)
  openedAt : ℕ
  accepted : List UInt8

/-- A byte of the file, with the number of the sink it came from. -/
abbrev Landed := ℕ × UInt8

structure Sinks (fs : AsyncFs) where
  content : List UInt8
  log : List Landed
  sharers : List (Sharer fs)

/-- What the sink `i` has put into the file. -/
def own (i : ℕ) (log : List Landed) : List UInt8 := (log.filter (·.1 = i)).map Prod.snd

/-- What the other sinks have put into it. -/
def others (i : ℕ) (log : List Landed) : List UInt8 := (log.filter (·.1 ≠ i)).map Prod.snd

inductive SinksAction (fs : AsyncFs) where
  | openAppend (option : BoundedFileOption)
  | write (i : ℕ) (turn : fs.Turn) (buf : List UInt8)
  | flush (i : ℕ) (turn : fs.Turn)
  /-- what happens at a sink's handle without anyone polling it -/
  | work (i : ℕ) (turn : fs.Turn)

variable {fs : AsyncFs}

/-- The sink, its handle on the file as it now is. -/
def onDisk (content : List UInt8) (sink : BoundedFileSink (File fs.Handle)) :
    BoundedFileSink (File fs.Handle) :=
  { sink with writer := ⟨content, sink.writer.handle⟩ }

/-- Sink `i` has become `sink` and accepted `bytes`; what it added to the file is recorded. -/
def Sinks.put (s : Sinks fs) (i : ℕ) (sh : Sharer fs) (sink : BoundedFileSink (File fs.Handle))
    (bytes : List UInt8) : Sinks fs where
  content := sink.writer.content
  log := s.log ++ (sink.writer.content.drop s.content.length).map (i, ·)
  sharers := s.sharers.set i { sh with sink := sink, accepted := sh.accepted ++ bytes }

/-- One action; `none` is one of a sink that is not there, or an addition that panics. -/
def sinksStep (fs : AsyncFs) (build : Build) (s : Sinks fs) : SinksAction fs → Option (Sinks fs)
  | SinksAction.openAppend option =>
      match BoundedFileSink.openAppend fs (some s.content) option with
      | Except.ok sink => some { s with sharers := s.sharers ++ [⟨sink, s.log.length, []⟩] }
      | Except.error _ => none
  | SinksAction.write i turn buf =>
      s.sharers[i]?.bind fun sh =>
        ((onDisk s.content sh.sink).pollWrite build (fs.pollWrite turn) buf).map fun r =>
          s.put i sh r.1 (buf.take (taken r.2))
  | SinksAction.flush i turn =>
      s.sharers[i]?.map fun sh =>
        s.put i sh ((onDisk s.content sh.sink).pollFlush (fs.pollFlush turn)).1 []
  | SinksAction.work i turn =>
      s.sharers[i]?.map fun sh =>
        s.put i sh { sh.sink with writer := fs.work turn (onDisk s.content sh.sink).writer } []

/-- The file that is opened, and the count with a write on top, stay within what an `off_t` can
hold. -/
def SinksAction.Lawful (s : Sinks fs) : SinksAction fs → Prop
  | SinksAction.openAppend _ => s.content.length < 2 ^ 63
  | SinksAction.write i _ buf =>
      ∀ sh, s.sharers[i]? = some sh → sh.sink.currentLen.toNat + buf.length < 2 ^ 63
  | _ => True

/-! ## What a poll of one sink does to the file -/

/-- A write that is answered or not: what it says it took has been accepted. -/
lemma AsyncFs.Writes.pollWrite_lands (hwrites : fs.Writes) {f : File fs.Handle} (hend : fs.AtEnd f)
    (turn : fs.Turn) (buf : List UInt8) :
    fs.Lands f (fs.pollWrite turn f buf).1 (buf.take (taken (fs.pollWrite turn f buf).2)) ∧
      taken (fs.pollWrite turn f buf).2 ≤ buf.length := by
  rcases hwrites.pollWrite turn f buf hend with
    ⟨f', hpoll, hlands⟩ | ⟨f', size, -, hle, hpoll, hlands⟩
  · rw [hpoll]
    exact ⟨hlands, Nat.zero_le _⟩
  · rw [hpoll]
    exact ⟨hlands, hle⟩

lemma AsyncFs.Writes.pollFlush_lands (hwrites : fs.Writes) {f : File fs.Handle}
    (hend : fs.AtEnd f) (turn : fs.Turn) : fs.Lands f (fs.pollFlush turn f).1 [] := by
  obtain ⟨f', hlands, hpoll | ⟨hpoll, -⟩⟩ := hwrites.pollFlush turn f hend
  · rw [hpoll]
    exact hlands
  · rw [hpoll]
    exact hlands

/-! ## The record -/

lemma own_append (i : ℕ) (log more : List Landed) :
    own i (log ++ more) = own i log ++ own i more := by
  simp [own]

lemma own_map_self (i : ℕ) (bytes : List UInt8) : own i (bytes.map (i, ·)) = bytes := by
  simp [own, List.filter_map, Function.comp_def]

lemma own_map_ne {i j : ℕ} (h : j ≠ i) (bytes : List UInt8) :
    own i (bytes.map (j, ·)) = [] := by
  simp [own, List.filter_map, Function.comp_def, h]

/-- A stretch of the record is what one sink put there and what the others did. -/
lemma length_own_add_others (i : ℕ) (log : List Landed) :
    (own i log).length + (others i log).length = log.length := by
  induction log with
  | nil => rfl
  | cons e log ih =>
      by_cases he : e.1 = i
      · simp only [own, others, he, List.filter_cons, List.length_map, decide_true, if_true,
          List.length_cons, ne_eq, not_true_eq_false, decide_false] at ih ⊢
        simp at ih ⊢
        omega
      · simp only [own, others, he, List.filter_cons, List.length_map, decide_false,
          List.length_cons, ne_eq, not_false_eq_true, decide_true, if_true] at ih ⊢
        simp at ih ⊢
        omega

/-- What the record says about sink `i`. -/
structure InOrder (initial : List UInt8) (log : List Landed) (i : ℕ) (sh : Sharer fs) : Prop where
  append : (fs.options sh.sink.writer.handle).append = true
  opened : sh.openedAt ≤ log.length
  before : own i (log.take sh.openedAt) = []
  bytes : own i log ++ fs.buffered sh.sink.writer.handle = sh.accepted
  len : sh.sink.currentLen.toNat = initial.length + sh.openedAt + sh.accepted.length

structure SinksInv (initial : List UInt8) (s : Sinks fs) : Prop where
  content : s.content = initial ++ s.log.map Prod.snd
  sharers : ∀ i sh, s.sharers[i]? = some sh → InOrder initial s.log i sh
  /-- a sink that has not been opened has put nothing into the file -/
  unopened : ∀ e ∈ s.log, e.1 < s.sharers.length

section Inv

variable {initial : List UInt8} {log : List Landed} {s : Sinks fs}

lemma InOrder.atEnd {i : ℕ} {sh : Sharer fs} (h : InOrder initial log i sh)
    (content : List UInt8) : fs.AtEnd (onDisk content sh.sink).writer :=
  AsyncFs.atEnd_of_append h.append

/-- More in the record that is not from sink `i` leaves its account as it is. -/
lemma InOrder.grow {i : ℕ} {sh : Sharer fs} (h : InOrder initial log i sh) {more : List Landed}
    (hmore : own i more = []) : InOrder initial (log ++ more) i sh := by
  have hopened := h.opened
  refine ⟨h.append, ?_, ?_, ?_, h.len⟩
  · rw [List.length_append]
    omega
  · rw [List.take_append_of_le_length hopened]
    exact h.before
  · rw [own_append, hmore, List.append_nil]
    exact h.bytes

/-- **One action of one sink**, whatever it was: the account of that sink moves on, the others'
stay. -/
lemma sinksInv_put (inv : SinksInv initial s) {i : ℕ} {sh : Sharer fs}
    (hsh : s.sharers[i]? = some sh) {sink : BoundedFileSink (File fs.Handle)} {bytes : List UInt8}
    (hlands : fs.Lands (onDisk s.content sh.sink).writer sink.writer bytes)
    (hlen : sink.currentLen.toNat = sh.sink.currentLen.toNat + bytes.length) :
    SinksInv initial (s.put i sh sink bytes) := by
  obtain ⟨hoptions, ⟨landed, hlanded⟩, hdue, -⟩ := hlands
  have hgrown : sink.writer.content = s.content ++ landed := hlanded.symm
  have hi : i < s.sharers.length := (List.getElem?_eq_some_iff.mp hsh).1
  have hdrop : sink.writer.content.drop s.content.length = landed := by
    rw [hgrown, List.drop_left]
  have hbuffered : landed ++ fs.buffered sink.writer.handle
      = fs.buffered sh.sink.writer.handle ++ bytes := by
    have hdue' : s.content ++ landed ++ fs.buffered sink.writer.handle
        = s.content ++ fs.buffered sh.sink.writer.handle ++ bytes := by
      rw [← hgrown]
      exact hdue
    simpa [List.append_assoc] using hdue'
  have hold := inv.sharers i sh hsh
  refine ⟨?_, ?_, ?_⟩
  · simp only [Sinks.put, hgrown, inv.content, List.map_append, List.map_map]
    simp [Function.comp_def]
  · intro j sh' hsh'
    simp only [Sinks.put, hdrop] at hsh' ⊢
    by_cases hj : i = j
    · subst hj
      rw [List.getElem?_set_self hi, Option.some.injEq] at hsh'
      subst hsh'
      have hopened := hold.opened
      refine ⟨?_, ?_, ?_, ?_, ?_⟩
      · show (fs.options sink.writer.handle).append = true
        rw [hoptions]
        exact hold.append
      · show sh.openedAt ≤ _
        rw [List.length_append]
        omega
      · show own i (List.take sh.openedAt _) = []
        rw [List.take_append_of_le_length hopened]
        exact hold.before
      · show own i _ ++ fs.buffered sink.writer.handle = sh.accepted ++ bytes
        rw [own_append, own_map_self, List.append_assoc, hbuffered, ← List.append_assoc, hold.bytes]
      · show sink.currentLen.toNat = initial.length + sh.openedAt + (sh.accepted ++ bytes).length
        rw [hlen, hold.len, List.length_append]
        omega
    · rw [List.getElem?_set_ne hj] at hsh'
      exact (inv.sharers j sh' hsh').grow (own_map_ne hj landed)
  · intro e he
    simp only [Sinks.put, hdrop, List.length_set] at he ⊢
    rcases List.mem_append.mp he with he | he
    · exact inv.unopened e he
    · obtain ⟨b, -, rfl⟩ := List.mem_map.mp he
      exact hi

lemma own_of_unopened {i : ℕ} (h : ∀ e ∈ log, e.1 < i) : own i log = [] := by
  have hnone : log.filter (·.1 = i) = [] := by
    rw [List.filter_eq_nil_iff]
    intro e he
    have := h e he
    simp
    omega
  rw [own, hnone, List.map_nil]

lemma sinksInv_open (hopens : fs.Opens) (inv : SinksInv initial s)
    (hfits : s.content.length < 2 ^ 63) (option : BoundedFileOption) :
    ∃ sink, BoundedFileSink.openAppend fs (some s.content) option = Except.ok sink ∧
      sink.option = option ∧
      SinksInv initial { s with sharers := s.sharers ++ [⟨sink, s.log.length, []⟩] } := by
  have hlen : (UInt64.ofNat s.content.length).toNat = s.content.length :=
    UInt64.toNat_ofNat_of_lt' (show _ < 2 ^ 64 by omega)
  obtain ⟨f, hopen, hfresh⟩ := openAppend_eq hopens option (some s.content)
  refine ⟨_, hopen, rfl, inv.content, ?_, ?_⟩
  · intro i sh hsh
    rcases Nat.lt_trichotomy i s.sharers.length with hlt | heq | hgt
    · rw [List.getElem?_append_left hlt] at hsh
      exact inv.sharers i sh hsh
    · subst heq
      have hnone := own_of_unopened inv.unopened
      rw [List.getElem?_append_right (Nat.le_refl _), Nat.sub_self] at hsh
      obtain rfl := Option.some.inj hsh
      refine ⟨by rw [hfresh.options]; rfl, Nat.le_refl _, ?_, ?_, ?_⟩
      · rw [List.take_length]
        exact hnone
      · simp [hnone, hfresh.buffered]
      · show (UInt64.ofNat s.content.length).toNat = initial.length + s.log.length + 0
        rw [hlen, inv.content]
        simp
    · rw [List.getElem?_append_right (by omega), List.getElem?_eq_none (by simp; omega)] at hsh
      exact absurd hsh (by simp)
  · intro e he
    have := inv.unopened e he
    simp only [List.length_append, List.length_singleton]
    omega

/-- A write of sink `i`: what it accepts is queued or lands, and is counted. -/
lemma InOrder.pollWrite (hwrites : fs.Writes) (build : Build) {i : ℕ} {sh : Sharer fs}
    (h : InOrder initial log i sh) {content buf : List UInt8} {turn : fs.Turn}
    {r : BoundedFileSink (File fs.Handle) × Poll (Except IoError ℕ)}
    (hroom : sh.sink.currentLen.toNat + buf.length < 2 ^ 63)
    (hpoll : (onDisk content sh.sink).pollWrite build (fs.pollWrite turn) buf = some r) :
    fs.Lands (onDisk content sh.sink).writer r.1.writer (buf.take (taken r.2)) ∧
      taken r.2 ≤ buf.length ∧ r.1.option = sh.sink.option ∧
      r.1.currentLen.toNat = sh.sink.currentLen.toNat + (buf.take (taken r.2)).length := by
  obtain ⟨hlands, hle⟩ := hwrites.pollWrite_lands (h.atEnd content) turn buf
  have hfits : (onDisk content sh.sink).currentLen.toNat +
      taken (fs.pollWrite turn (onDisk content sh.sink).writer buf).2 < 2 ^ 64 := by
    show sh.sink.currentLen.toNat + _ < _
    omega
  obtain ⟨sink', hpoll', hoption, hwriter, hcount⟩ :=
    pollWrite_of_fits build (fs.pollWrite turn) buf hfits
  obtain rfl := Option.some.inj (hpoll.symm.trans hpoll')
  refine ⟨?_, hle, hoption, ?_⟩
  · rw [hwriter]
    exact hlands
  · rw [hcount, List.length_take_of_le hle]
    rfl

lemma sinksInv_step (hopens : fs.Opens) (hwrites : fs.Writes)
    (hpasses : fs.PassesOn) (build : Build) (s : Sinks fs)
    (a : SinksAction fs) (s' : Sinks fs) (inv : SinksInv initial s) (hlawful : a.Lawful s)
    (h : sinksStep fs build s a = some s') : SinksInv initial s' := by
  cases a with
  | openAppend option =>
      obtain ⟨sink, hopen, -, inv'⟩ := sinksInv_open hopens inv hlawful option
      simp only [sinksStep, hopen, Option.some.injEq] at h
      rw [← h]
      exact inv'
  | write i turn buf =>
      obtain ⟨sh, hsh, h⟩ := Option.bind_eq_some_iff.mp h
      obtain ⟨r, hpoll, rfl⟩ := Option.map_eq_some_iff.mp h
      have hold := inv.sharers i sh hsh
      obtain ⟨hlands, -, -, hcount⟩ := hold.pollWrite hwrites build (hlawful sh hsh) hpoll
      exact sinksInv_put inv hsh hlands hcount
  | flush i turn =>
      obtain ⟨sh, hsh, rfl⟩ := Option.map_eq_some_iff.mp h
      have hold := inv.sharers i sh hsh
      exact sinksInv_put inv hsh (hwrites.pollFlush_lands (hold.atEnd s.content) turn) rfl
  | work i turn =>
      obtain ⟨sh, hsh, rfl⟩ := Option.map_eq_some_iff.mp h
      have hold := inv.sharers i sh hsh
      exact sinksInv_put inv hsh (hpasses.lands turn _ (hold.atEnd s.content)) rfl

/-- The count of a sink, and what it leaves out. -/
lemma InOrder.count {i : ℕ} {sh : Sharer fs} (h : InOrder initial log i sh) :
    sh.sink.currentLen.toNat + (others i (log.drop sh.openedAt)).length =
      (initial ++ log.map Prod.snd).length + (fs.buffered sh.sink.writer.handle).length := by
  have hsplit : own i log = own i (log.drop sh.openedAt) := by
    conv_lhs => rw [← List.take_append_drop sh.openedAt log, own_append, h.before, List.nil_append]
  have hbytes := congrArg List.length h.bytes
  have hlog := length_own_add_others i (log.drop sh.openedAt)
  have hlen := h.len
  have hopened := h.opened
  rw [hsplit] at hbytes
  simp only [List.length_append, List.length_map, List.length_drop] at hbytes hlog ⊢
  omega

end Inv

/-- **Append sinks on one file interleave.**  Over every run of any number of sinks on one file,
opened at any time and in any order of their polls and of what their handles do between them: the
file is its initial content and then, in the order they landed, the bytes of the sinks; of each sink
these are, with what has been accepted and is not in the file yet, exactly the bytes it has
accepted, in order; and each count is the length of the file and of the latter, less what the others
have put into the file since the sink was opened. -/
theorem sinks_interleave (fs : AsyncFs) (hopens : fs.Opens) (hwrites : fs.Writes)
    (hpasses : fs.PassesOn) (build : Build)
    (initial : List UInt8) (as : List (SinksAction fs)) (s : Sinks fs)
    (hlawful : Along (sinksStep fs build) (fun s a => a.Lawful s) ⟨initial, [], []⟩ as)
    (hrun : run (sinksStep fs build) ⟨initial, [], []⟩ as = some s) :
    s.content = initial ++ s.log.map Prod.snd ∧
    ∀ i sh, s.sharers[i]? = some sh →
      own i s.log ++ fs.buffered sh.sink.writer.handle = sh.accepted ∧
      sh.sink.currentLen.toNat + (others i (s.log.drop sh.openedAt)).length =
        s.content.length + (fs.buffered sh.sink.writer.handle).length := by
  have inv : SinksInv initial s :=
    run_invariant_along (sinksInv_step hopens hwrites hpasses build) as
      ⟨by simp, by simp, by simp⟩ hlawful hrun
  refine ⟨inv.content, ?_⟩
  intro i sh hsh
  have hold := inv.sharers i sh hsh
  refine ⟨hold.bytes, ?_⟩
  rw [inv.content]
  exact hold.count

/-- The worker passes on up to `k` bytes. -/
def Turn.drains (k : ℕ) : Turn := ⟨false, k, 1, true, false⟩

/-- Two sinks on an empty file, the second flushed first: the first one's count is `1`, the file
is `2` bytes long. -/
theorem sinks_interleave_two :
    ∃ s first, run (sinksStep queuedFs Build.debug) ⟨[], [], []⟩
        [SinksAction.openAppend {}, SinksAction.openAppend {},
          SinksAction.write 0 (Turn.prompt 1) [0x61], SinksAction.write 1 (Turn.prompt 1) [0x62],
          SinksAction.flush 1 (Turn.prompt 1), SinksAction.work 0 (Turn.drains 1)] = some s ∧
      s.content = [0x62, 0x61] ∧ s.sharers[0]? = some first ∧ first.sink.currentLen = 1 ∧
      own 0 s.log ++ first.sink.writer.handle.queue = [0x61] ∧
      first.sink.currentLen.toNat + [0x62].length = s.content.length := by
  refine ⟨_, _, rfl, rfl, rfl, rfl, ?_⟩
  exact (sinks_interleave queuedFs queuedFs_opens queuedFs_writes queuedFs_passesOn Build.debug []
    [SinksAction.openAppend {}, SinksAction.openAppend {},
      SinksAction.write 0 (Turn.prompt 1) [0x61], SinksAction.write 1 (Turn.prompt 1) [0x62],
      SinksAction.flush 1 (Turn.prompt 1), SinksAction.work 0 (Turn.drains 1)] _
    (by
      refine ⟨by simp [SinksAction.Lawful], ?_⟩
      rintro s ⟨⟩
      refine ⟨by simp [SinksAction.Lawful], ?_⟩
      rintro s ⟨⟩
      refine ⟨?_, ?_⟩
      · rintro sh ⟨⟩
        decide
      rintro s ⟨⟩
      refine ⟨?_, ?_⟩
      · rintro sh ⟨⟩
        decide
      rintro s ⟨⟩
      exact ⟨trivial, fun _ _ => ⟨trivial, fun _ _ => trivial⟩⟩) rfl).2 0 _ rfl

/-! ## The bound -/

/-- Every sink has a bound, and a write offers it only what its own `can_be_appended` admits. -/
def SinksAction.Admitted (build : Build) (s : Sinks fs) : SinksAction fs → Prop
  | SinksAction.openAppend option => option.maxLen.isSome
  | SinksAction.write i _ buf =>
      ∀ sh, s.sharers[i]? = some sh →
        sh.sink.canBeAppended build (UInt64.ofNat buf.length) = some true
  | _ => True

/-- What the bound of a sink left when it was opened, on a file that began with `l0` bytes. -/
def Sharer.room (l0 : ℕ) (sh : Sharer fs) : ℕ :=
  (sh.sink.option.maxLen.getD 0).toNat - (l0 + sh.openedAt)

/-- The sink has a bound, and has accepted nothing beyond it. -/
structure Sharer.Within (sh : Sharer fs) : Prop where
  bound : sh.sink.option.maxLen.isSome
  accepted : sh.accepted = [] ∨
    sh.sink.currentLen.toNat ≤ (sh.sink.option.maxLen.getD 0).toNat

section Bound

variable {initial : List UInt8} {log : List Landed} {s s' : Sinks fs}

lemma own_filter_ne {i j : ℕ} (h : i ≠ j) (log : List Landed) :
    own i (log.filter (·.1 ≠ j)) = own i log := by
  rw [own, own, List.filter_filter]
  congr 2
  funext e
  by_cases he : e.1 = i
  · simp [he, h]
  · simp [he]

/-- A record is as long as the shares of those who are in it. -/
lemma length_le_of_shares {α : Type*} (share : α → ℕ) (sharers : List α) : ∀ log : List Landed,
    (∀ e ∈ log, e.1 < sharers.length) →
    (∀ i sh, sharers[i]? = some sh → (own i log).length ≤ share sh) →
      log.length ≤ (sharers.map share).sum := by
  induction sharers using List.reverseRecOn with
  | nil =>
      intro log hmem _
      cases log with
      | nil => simp
      | cons e log => exact absurd (hmem e List.mem_cons_self) (by simp)
  | append_singleton sharers sh ih =>
      intro log hmem hshare
      have hlast := hshare sharers.length sh (by simp)
      have hsplit := length_own_add_others sharers.length log
      -- what the others put there is the record of the sinks before the last
      have hrest : (others sharers.length log).length ≤ (sharers.map share).sum := by
        rw [others, List.length_map]
        refine ih _ ?_ ?_
        · intro e he
          obtain ⟨hlog, hne⟩ := List.mem_filter.mp he
          have hlt := hmem e hlog
          simp only [List.length_append, List.length_singleton, ne_eq, decide_eq_true_eq] at hlt hne
          omega
        · intro i sh' hsh'
          have hi : i < sharers.length := (List.getElem?_eq_some_iff.mp hsh').1
          rw [own_filter_ne (by omega)]
          exact hshare i sh' (by rw [List.getElem?_append_left hi, hsh'])
      rw [List.map_append, List.sum_append, List.map_singleton, List.sum_singleton]
      omega

/-- A sink within its bound has accepted no more than there was room for. -/
lemma InOrder.accepted_le {i : ℕ} {sh : Sharer fs} (h : InOrder initial log i sh)
    (hwithin : sh.Within) : sh.accepted.length ≤ sh.room initial.length := by
  have hlen := h.len
  rw [Sharer.room]
  rcases hwithin.accepted with hnil | hle
  · simp [hnil]
  · omega

/-- What one action leaves of the others. -/
lemma within_put (hall : ∀ sh ∈ s.sharers, sh.Within) {i : ℕ} {sh : Sharer fs}
    {sink : BoundedFileSink (File fs.Handle)} {bytes : List UInt8}
    (hwithin : Sharer.Within { sh with sink := sink, accepted := sh.accepted ++ bytes }) :
    ∀ sh' ∈ (s.put i sh sink bytes).sharers, sh'.Within := by
  intro sh' hsh'
  rcases List.mem_or_eq_of_mem_set hsh' with hold | rfl
  · exact hall sh' hold
  · exact hwithin

lemma within_step (hopens : fs.Opens) (hwrites : fs.Writes) (build : Build) {a : SinksAction fs}
    (inv : SinksInv initial s) (hall : ∀ sh ∈ s.sharers, sh.Within) (hlawful : a.Lawful s)
    (hadmitted : a.Admitted build s) (h : sinksStep fs build s a = some s') :
    ∀ sh ∈ s'.sharers, sh.Within := by
  cases a with
  | openAppend option =>
      obtain ⟨sink, hopen, rfl, -⟩ := sinksInv_open hopens inv hlawful option
      simp only [sinksStep, hopen, Option.some.injEq] at h
      intro sh hsh
      rw [← h] at hsh
      rcases List.mem_append.mp hsh with hold | hnew
      · exact hall sh hold
      · rw [List.mem_singleton.mp hnew]
        exact ⟨hadmitted, Or.inl rfl⟩
  | write i turn buf =>
      obtain ⟨sh, hsh, h⟩ := Option.bind_eq_some_iff.mp h
      obtain ⟨r, hpoll, rfl⟩ := Option.map_eq_some_iff.mp h
      have hroom := hlawful sh hsh
      obtain ⟨-, hle, hoption, hcount⟩ :=
        (inv.sharers i sh hsh).pollWrite hwrites build hroom hpoll
      obtain ⟨maxLen, hmax⟩ := Option.isSome_iff_exists.mp
        (hall sh (List.mem_of_getElem? hsh)).bound
      have hsize : (UInt64.ofNat buf.length).toNat = buf.length :=
        UInt64.toNat_ofNat_of_lt' (show _ < 2 ^ 64 by omega)
      have hask := hadmitted sh hsh
      rw [canBeAppended_of_fits build hmax (by omega), Option.some.injEq, decide_eq_true_eq,
        hsize] at hask
      refine within_put hall ⟨?_, Or.inr ?_⟩
      · show r.1.option.maxLen.isSome
        rw [hoption, hmax]
        rfl
      · show r.1.currentLen.toNat ≤ (r.1.option.maxLen.getD 0).toNat
        rw [hcount, hoption, hmax, List.length_take_of_le hle, Option.getD_some]
        omega
  | flush i turn =>
      obtain ⟨sh, hsh, rfl⟩ := Option.map_eq_some_iff.mp h
      have hold := hall sh (List.mem_of_getElem? hsh)
      refine within_put hall ⟨hold.bound, ?_⟩
      rw [List.append_nil]
      exact hold.accepted
  | work i turn =>
      obtain ⟨sh, hsh, rfl⟩ := Option.map_eq_some_iff.mp h
      have hold := hall sh (List.mem_of_getElem? hsh)
      refine within_put hall ⟨hold.bound, ?_⟩
      rw [List.append_nil]
      exact hold.accepted

end Bound

/-- **What the bounds are worth on a shared file.**  Over every run of any number of sinks on one
file that are all bounded and whose writers all ask first, the file is at most as long as it was
plus, for every sink, what the bound of that sink left when it was opened: so two sinks may fill it
twice over. -/
theorem guarded_sinks_bounded (fs : AsyncFs) (hopens : fs.Opens) (hwrites : fs.Writes)
    (hpasses : fs.PassesOn) (build : Build) (initial : List UInt8) (as : List (SinksAction fs))
    (s : Sinks fs)
    (hguarded : Along (sinksStep fs build) (fun s a => a.Lawful s ∧ a.Admitted build s)
      ⟨initial, [], []⟩ as)
    (hrun : run (sinksStep fs build) ⟨initial, [], []⟩ as = some s) :
    s.content.length ≤ initial.length + (s.sharers.map (Sharer.room initial.length)).sum := by
  have hkept : SinksInv initial s ∧ ∀ sh ∈ s.sharers, sh.Within := by
    refine run_invariant_along (I := fun s => SinksInv initial s ∧ ∀ sh ∈ s.sharers, sh.Within) ?_
      as ⟨⟨by simp, by simp, by simp⟩, by simp⟩ hguarded hrun
    rintro s a s' ⟨inv, hall⟩ ⟨hlawful, hadmitted⟩ h
    exact ⟨sinksInv_step hopens hwrites hpasses build s a s' inv hlawful h,
      within_step hopens hwrites build inv hall hlawful hadmitted h⟩
  obtain ⟨inv, hall⟩ := hkept
  have hlog : s.log.length ≤ (s.sharers.map (Sharer.room initial.length)).sum := by
    refine length_le_of_shares _ s.sharers s.log inv.unopened ?_
    intro i sh hsh
    have hold := inv.sharers i sh hsh
    have hbytes := congrArg List.length hold.bytes
    have hle := hold.accepted_le (hall sh (List.mem_of_getElem? hsh))
    rw [List.length_append] at hbytes
    omega
  rw [inv.content, List.length_append, List.length_map]
  omega

/-- Two sinks on an empty file, each with a bound of one byte: the file has two. -/
theorem guarded_sinks_bounded_two :
    ∃ s, run (sinksStep queuedFs Build.debug) ⟨[], [], []⟩
        [SinksAction.openAppend ⟨some 1⟩, SinksAction.openAppend ⟨some 1⟩,
          SinksAction.write 0 (Turn.prompt 1) [0x61], SinksAction.write 1 (Turn.prompt 1) [0x62],
          SinksAction.work 0 (Turn.drains 1), SinksAction.work 1 (Turn.drains 1)] = some s ∧
      s.content = [0x61, 0x62] ∧ s.sharers.map (Sharer.room 0) = [1, 1] ∧
      s.content.length ≤ 0 + (s.sharers.map (Sharer.room 0)).sum :=
  ⟨_, rfl, rfl, rfl, guarded_sinks_bounded queuedFs queuedFs_opens queuedFs_writes
    queuedFs_passesOn Build.debug []
    [SinksAction.openAppend ⟨some 1⟩, SinksAction.openAppend ⟨some 1⟩,
      SinksAction.write 0 (Turn.prompt 1) [0x61], SinksAction.write 1 (Turn.prompt 1) [0x62],
      SinksAction.work 0 (Turn.drains 1), SinksAction.work 1 (Turn.drains 1)] _
    (by
      refine ⟨⟨by simp [SinksAction.Lawful], rfl⟩, ?_⟩
      rintro s ⟨⟩
      refine ⟨⟨by simp [SinksAction.Lawful], rfl⟩, ?_⟩
      rintro s ⟨⟩
      refine ⟨⟨?_, ?_⟩, ?_⟩
      · rintro sh ⟨⟩
        decide
      · rintro sh ⟨⟩
        decide
      rintro s ⟨⟩
      refine ⟨⟨?_, ?_⟩, ?_⟩
      · rintro sh ⟨⟩
        decide
      · rintro sh ⟨⟩
        decide
      rintro s ⟨⟩
      exact ⟨⟨trivial, trivial⟩, fun _ _ => ⟨⟨trivial, trivial⟩, fun _ _ => trivial⟩⟩) rfl⟩

end FutureAio.Fs
