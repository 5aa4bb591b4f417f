import TulyaStore.Checkpoint.Reader

/-!
# What reads return

`Denotes R n bs`: under the reader `R`, node `n` is the root of a tree whose leaves hold
`bs`. Every read is determined by it: the whole version is `bs`, if a vector can hold it
(`extractRoot_eq`), its size is `bs.length` (`rootTermSize_eq`), and a range of a checkpoint is
the same range of its canonical state (`readCheckpointRange_eq`).
-/

namespace TulyaStore.Checkpoint

open Lib

/-- The tree under a node holds these bytes. -/
inductive Denotes (R : NodeReader) : Nat → Bytes → Prop where
  | leaf {n offset : Nat} {bs : Bytes} (hDecode : R.decode n = .ok (.leaf offset bs.length))
      (hLeaf : R.leafBytes offset bs.length = .ok bs)
      (hRange : ∀ o l, o + l ≤ bs.length →
        R.payloadRange (offset + o) l = .ok ((bs.drop o).take l))
      (hBound : offset + bs.length < 2 ^ 64) : Denotes R n bs
  | binary {n left right : Nat} {x y : Bytes} (hDecode : R.decode n = .ok (.binary left right))
      (hLeft : left < n) (hRight : right < n) (hx : Denotes R left x) (hy : Denotes R right y) :
      Denotes R n (x ++ y)

variable {R : NodeReader} {room n : Nat} {bs : Bytes}

/-! ## Whole versions -/

theorem extendFromSlice_of_le {out bytes : Bytes} (h : out.length + bytes.length ≤ room) :
    extendFromSlice room out bytes = .ok (out ++ bytes) := by
  rw [extendFromSlice, failIf_neg (by omega), ok_bind]

theorem extendFromSlice_of_lt {out bytes : Bytes} (h : room < out.length + bytes.length) :
    extendFromSlice room out bytes = .error .capacity := by
  rw [extendFromSlice, failIf_pos h, error_bind]

/-- A vector takes all the slices if it can hold their bytes together. -/
theorem extendFromSlices_eq {out : Bytes} {slices : List Bytes} (hOut : out.length ≤ room) :
    extendFromSlices room out slices =
      if out.length + slices.flatten.length ≤ room then .ok (out ++ slices.flatten)
      else .error .capacity := by
  induction slices generalizing out with
  | nil =>
    rw [extendFromSlices, List.flatten_nil, List.append_nil, List.length_nil, Nat.add_zero,
      if_pos hOut]
  | cons bytes rest ih =>
    rw [extendFromSlices, List.flatten_cons, List.length_append]
    by_cases hFits : out.length + bytes.length ≤ room
    · rw [extendFromSlice_of_le hFits, ok_bind, ih (by rw [List.length_append]; exact hFits),
        List.length_append, List.append_assoc, Nat.add_assoc]
    · rw [extendFromSlice_of_lt (by omega), error_bind, if_neg (by omega)]

/-- What the stack loop makes of a tree, whatever is below it on the stack: its bytes in a bounded
number of turns, or the vector is full. -/
theorem Denotes.extractLoop (h : Denotes R n bs) : ∃ turns, turns < 2 ^ (n + 1) ∧
    ∀ fuel stack out, out.length ≤ room → extractLoop R room (turns + fuel) (n :: stack) out =
      if out.length + bs.length ≤ room then extractLoop R room fuel stack (out ++ bs)
      else .error .capacity := by
  induction h with
  | @leaf n offset bs hDecode hLeaf _ _ =>
    refine ⟨1, Nat.one_lt_two_pow (by omega), ?_⟩
    intro fuel stack out _
    rw [Nat.add_comm, Checkpoint.extractLoop, hDecode, ok_bind]
    simp only [hLeaf, ok_bind]
    by_cases hFits : out.length + bs.length ≤ room
    · rw [extendFromSlice_of_le hFits, ok_bind, if_pos hFits]
    · rw [extendFromSlice_of_lt (by omega), error_bind, if_neg hFits]
  | @binary n left right x y hDecode hLeft hRight _ _ ihx ihy =>
    obtain ⟨tx, htx, hx⟩ := ihx
    obtain ⟨ty, hty, hy⟩ := ihy
    have hPow : ∀ m, m < n → 2 ^ (m + 1) ≤ 2 ^ n := fun m hm => Nat.pow_le_pow_right (by omega) hm
    have hl := hPow left hLeft
    have hr := hPow right hRight
    refine ⟨tx + ty + 1, by rw [Nat.pow_succ]; omega, ?_⟩
    intro fuel stack out hOut
    have hFuel : tx + ty + 1 + fuel = (tx + (ty + fuel)) + 1 := by omega
    rw [hFuel, Checkpoint.extractLoop, hDecode, ok_bind]
    simp only [hx _ _ out hOut, List.length_append]
    by_cases hFits : out.length + x.length ≤ room
    · rw [if_pos hFits, hy _ _ _ (by rw [List.length_append]; exact hFits), List.length_append,
        List.append_assoc, Nat.add_assoc]
    · rw [if_neg hFits, if_neg (by omega)]

theorem extractRoot_eq (h : Denotes R n bs) :
    extractRoot R room n = if bs.length ≤ room then .ok bs else .error .capacity := by
  obtain ⟨turns, hTurns, hLoop⟩ := @Denotes.extractLoop R room n bs h
  have hFuel : 2 ^ (n + 1) = turns + (2 ^ (n + 1) - turns) := by omega
  rw [extractRoot, hFuel, hLoop _ _ _ (Nat.zero_le _), List.length_nil, Nat.zero_add,
    Checkpoint.extractLoop, List.nil_append]

/-! ## Sizes -/

theorem Denotes.rootTermSizeAt (h : Denotes R n bs) (hLen : bs.length < 2 ^ 64) {level : Nat}
    (hLevel : n < level) : rootTermSizeAt R level n = .ok bs.length := by
  induction h generalizing level with
  | @leaf n offset bs hDecode _ _ _ =>
    obtain ⟨level, rfl⟩ : ∃ k, level = k + 1 := ⟨level - 1, by omega⟩
    rw [Checkpoint.rootTermSizeAt, hDecode, ok_bind]
  | @binary n left right x y hDecode hLeft hRight _ _ ihx ihy =>
    obtain ⟨level, rfl⟩ : ∃ k, level = k + 1 := ⟨level - 1, by omega⟩
    rw [List.length_append] at hLen
    have hSum : checkedAdd 64 x.length y.length = some (x.length + y.length) :=
      checkedAdd_of_lt hLen
    rw [Checkpoint.rootTermSizeAt, hDecode, ok_bind]
    simp only [ihx (by omega) (by omega : left < level), ihy (by omega) (by omega : right < level),
      ok_bind, hSum, okOr_some, List.length_append]

theorem rootTermSize_eq (h : Denotes R n bs) (hLen : bs.length < 2 ^ 64) :
    rootTermSize R n = .ok bs.length :=
  h.rootTermSizeAt hLen (Nat.lt_succ_self n)

/-! ## Ranges of a version -/

theorem take_drop_append (x y : Bytes) {o l : Nat} :
    ((x ++ y).drop o).take l =
      (x.drop o).take l ++ (y.drop (o - x.length)).take (l - (x.length - o)) := by
  rw [List.drop_append, List.take_append, List.length_drop]

/-- A request is served in a bounded number of turns with the requested bytes. -/
theorem Denotes.rangeLoop (h : Denotes R n bs) (hLen : bs.length < 2 ^ 64) {o l : Nat}
    (hIn : o + l ≤ bs.length) : ∃ turns, turns < 2 ^ (n + 1) ∧
    ∀ fuel stack out, rangeLoop R (turns + fuel) ((n, o, l) :: stack) out =
      rangeLoop R fuel stack (out ++ (bs.drop o).take l) := by
  by_cases hZero : l = 0
  · subst hZero
    refine ⟨1, Nat.one_lt_two_pow (by omega), ?_⟩
    intro fuel stack out
    rw [Nat.add_comm, Checkpoint.rangeLoop, if_pos rfl, List.take_zero, List.append_nil]
  induction h generalizing o l with
  | @leaf n offset bs hDecode _ hRange hBound =>
    refine ⟨1, Nat.one_lt_two_pow (by omega), ?_⟩
    intro fuel stack out
    have hOffset : ¬ bs.length ≤ o := by omega
    have hStart : checkedAdd 64 offset o = some (offset + o) := by
      refine checkedAdd_of_lt ?_
      rw [width]
      omega
    have hMin : min (bs.length - o) l = l := by omega
    rw [Nat.add_comm, Checkpoint.rangeLoop, if_neg hZero, hDecode, ok_bind]
    simp only [failIf_neg hOffset, hStart, okOr_some, ok_bind, hMin, hRange o l hIn]
  | @binary n left right x y hDecode hLeft hRight hx hy ihx ihy =>
    rw [List.length_append] at hLen hIn
    have hPow : ∀ m, m < n → 2 ^ (m + 1) ≤ 2 ^ n := fun m hm => Nat.pow_le_pow_right (by omega) hm
    have hl := hPow left hLeft
    have hr := hPow right hRight
    have hSize : rootTermSize R left = .ok x.length := rootTermSize_eq hx (by omega)
    have hEnd : checkedAdd 64 o l = some (o + l) := by
      refine checkedAdd_of_lt ?_
      rw [width]
      omega
    have hStep : ∀ fuel stack out, Checkpoint.rangeLoop R (fuel + 1) ((n, o, l) :: stack) out =
        Checkpoint.rangeLoop R fuel (splitRequest x.length left right o l ++ stack) out := by
      intro fuel stack out
      rw [Checkpoint.rangeLoop, if_neg hZero, hDecode, ok_bind]
      simp only [hSize, hEnd, okOr_some, ok_bind]
    -- the left part and the right part are served one after the other
    have hLeftPart : ∃ turns, turns < 2 ^ (left + 1) ∧ ∀ fuel stack out,
        Checkpoint.rangeLoop R (turns + fuel)
          ((if o < x.length ∧ 0 < min (x.length - o) l then
            [(left, o, min (x.length - o) l)] else []) ++ stack) out =
          Checkpoint.rangeLoop R fuel stack (out ++ (x.drop o).take l) := by
      by_cases hCover : o < x.length ∧ 0 < min (x.length - o) l
      · obtain ⟨turns, hTurns, hLoop⟩ := ihx (by omega) (o := o) (l := min (x.length - o) l)
          (by omega) (by omega)
        refine ⟨turns, hTurns, ?_⟩
        intro fuel stack out
        rw [if_pos hCover, List.singleton_append, hLoop]
        congr 2
        rw [List.take_eq_take_iff, List.length_drop]
        omega
      · refine ⟨0, Nat.two_pow_pos _, ?_⟩
        intro fuel stack out
        have hNone : (x.drop o).take l = [] := by
          rw [List.take_eq_nil_iff, List.drop_eq_nil_iff]
          omega
        rw [if_neg hCover, hNone, List.nil_append, List.append_nil, Nat.zero_add]
    have hRightPart : ∃ turns, turns < 2 ^ (right + 1) ∧ ∀ fuel stack out,
        Checkpoint.rangeLoop R (turns + fuel)
          ((if x.length < o + l ∧ 0 < l - (x.length - o) then
            [(right, o - x.length, l - (x.length - o))] else []) ++ stack) out =
          Checkpoint.rangeLoop R fuel stack
            (out ++ (y.drop (o - x.length)).take (l - (x.length - o))) := by
      by_cases hCover : x.length < o + l ∧ 0 < l - (x.length - o)
      · obtain ⟨turns, hTurns, hLoop⟩ := ihy (by omega) (o := o - x.length)
          (l := l - (x.length - o)) (by omega) (by omega)
        refine ⟨turns, hTurns, ?_⟩
        intro fuel stack out
        rw [if_pos hCover, List.singleton_append, hLoop]
      · refine ⟨0, Nat.two_pow_pos _, ?_⟩
        intro fuel stack out
        have hNone : l - (x.length - o) = 0 := by omega
        rw [if_neg hCover, hNone, List.take_zero, List.nil_append, List.append_nil, Nat.zero_add]
    obtain ⟨tx, htx, hxLoop⟩ := hLeftPart
    obtain ⟨ty, hty, hyLoop⟩ := hRightPart
    refine ⟨tx + ty + 1, by rw [Nat.pow_succ]; omega, ?_⟩
    intro fuel stack out
    have hFuel : tx + ty + 1 + fuel = (tx + (ty + fuel)) + 1 := by omega
    rw [hFuel, hStep, splitRequest, List.append_assoc, hxLoop, hyLoop, take_drop_append,
      List.append_assoc]

theorem appendRootRange_eq (h : Denotes R n bs) (hLen : bs.length < 2 ^ 64) {o l : Nat}
    (hIn : o + l ≤ bs.length) :
    appendRootRangeWithKnownSize R n bs.length o l = .ok ((bs.drop o).take l) := by
  obtain ⟨turns, hTurns, hLoop⟩ := h.rangeLoop hLen hIn
  have hFuel : 2 ^ (n + 1) = turns + (2 ^ (n + 1) - turns) := by omega
  have hEnd : checkedAdd 64 o l = some (o + l) := by
    refine checkedAdd_of_lt ?_
    rw [width]
    omega
  rw [appendRootRangeWithKnownSize, hEnd, okOr_some, ok_bind, failIf_neg (by omega), ok_bind, hFuel,
    hLoop, Checkpoint.rangeLoop, List.nil_append]

/-! ## Ranges of a checkpoint -/

/-- The bytes of `text` from `start` up to `stop`, as far as they exist. -/
def window (start stop : Nat) (text : Bytes) : Bytes := (text.take stop).drop start

theorem window_append (start stop : Nat) (x y : Bytes) :
    window start stop (x ++ y) =
      window start stop x ++ window (start - x.length) (stop - x.length) y := by
  unfold window
  rw [List.take_append, List.drop_append, List.length_take]
  by_cases hStop : x.length ≤ stop
  · rw [Nat.min_eq_right hStop]
  · have hNil : y.take (stop - x.length) = [] := by
      rw [Nat.sub_eq_zero_of_le (by omega), List.take_zero]
    rw [hNil, List.drop_nil, List.drop_nil]

theorem length_window {start stop : Nat} {text : Bytes} (h : stop ≤ text.length) :
    (window start stop text).length = stop - start := by
  simp only [window, List.length_drop, List.length_take]
  omega

/-- The part of a request inside a segment that starts at `cursor`. -/
theorem window_segment {start stop cursor : Nat} (s : Bytes) :
    window (start - cursor) (stop - cursor) s =
      (s.drop (max start cursor - cursor)).take
        (min stop (cursor + s.length) - max start cursor) := by
  unfold window
  rw [List.drop_take]
  have hStart : max start cursor - cursor = start - cursor := by omega
  rw [hStart, List.take_eq_take_iff, List.length_drop]
  omega

theorem window_segment_nil {start stop cursor : Nat} {s : Bytes}
    (h : ¬ max start cursor < min stop (cursor + s.length)) :
    window (start - cursor) (stop - cursor) s = [] := by
  have hZero : min stop (cursor + s.length) - max start cursor = 0 := by omega
  rw [window_segment, hZero, List.take_zero]

theorem appendStaticRange_eq {text s : Bytes} {start stop : Nat}
    (h : text.length + s.length < 2 ^ 64) :
    appendStaticRange s text.length start stop (window start stop text) =
      .ok ((text ++ s).length, window start stop (text ++ s)) := by
  have hEnd : checkedAdd 64 text.length s.length = some (text.length + s.length) :=
    checkedAdd_of_lt h
  rw [appendStaticRange, hEnd, okOr_some, ok_bind, window_append, List.length_append]
  by_cases hCover : max start text.length < min stop (text.length + s.length)
  · have hSlice : slice s (max start text.length - text.length)
        (min stop (text.length + s.length) - text.length) =
        some (window (start - text.length) (stop - text.length) s) := by
      refine slice_eq_some.mpr ⟨by omega, by omega, ?_⟩
      rw [window_segment]
      congr 1
      omega
    rw [if_pos hCover, hSlice, okOr_some, ok_bind]
  · rw [if_neg hCover, window_segment_nil hCover, List.append_nil]

theorem appendRootSegmentRange_eq (h : Denotes R n bs) {text : Bytes} {start stop : Nat}
    (hLen : text.length + bs.length < 2 ^ 64) :
    appendRootSegmentRange R n bs.length text.length start stop (window start stop text) =
      .ok ((text ++ bs).length, window start stop (text ++ bs)) := by
  have hEnd : checkedAdd 64 text.length bs.length = some (text.length + bs.length) :=
    checkedAdd_of_lt hLen
  rw [appendRootSegmentRange, hEnd, okOr_some, ok_bind, window_append, List.length_append]
  by_cases hCover : max start text.length < min stop (text.length + bs.length)
  · rw [if_pos hCover, appendRootRange_eq h (by omega) (by omega), ok_bind, window_segment]
  · rw [if_neg hCover, window_segment_nil hCover, List.append_nil]

/-- A version denotes the bytes under its root. -/
def VersionDenotes (R : NodeReader) (versions : List (Option Nat)) (version : Nat) (bs : Bytes) :
    Prop :=
  ∃ root, versions[version]? = some (some root) ∧ Denotes R root bs

/-- An optional version denotes its bytes, an absent one nothing. -/
def ChannelDenotes (R : NodeReader) (versions : List (Option Nat)) (version : Option Nat)
    (bs : Option Bytes) : Prop :=
  match version, bs with
  | none, none => True
  | some version, some bs => VersionDenotes R versions version bs
  | _, _ => False

section Canonical

variable {versions : List (Option Nat)} {version : Nat}

theorem VersionDenotes.versionRoot {bs : Bytes} (h : VersionDenotes R versions version bs) :
    ∃ root, versionRoot versions version = .ok root ∧ Denotes R root bs := by
  obtain ⟨root, hRoot, hDenotes⟩ := h
  refine ⟨root, ?_, hDenotes⟩
  simp [Checkpoint.versionRoot, hRoot]

theorem extractVersion_eq {bs : Bytes} (h : VersionDenotes R versions version bs) :
    extractVersion R room versions version =
      if bs.length ≤ room then .ok bs else .error .capacity := by
  obtain ⟨root, hRoot, hDenotes⟩ := h.versionRoot
  rw [extractVersion, hRoot, ok_bind, extractRoot_eq hDenotes]

theorem extractOptional_eq {version : Option Nat} {bs : Option Bytes}
    (h : ChannelDenotes R versions version bs) :
    extractOptional R room versions version =
      if (bs.getD []).length ≤ room then .ok bs else .error .capacity := by
  cases version <;> cases bs <;> simp only [ChannelDenotes] at h
  · rw [extractOptional, Option.getD_none, List.length_nil, if_pos (Nat.zero_le _)]
  · rw [extractOptional, extractVersion_eq h, Option.getD_some]
    split
    · rw [ok_bind]
    · rw [error_bind]

/-- The channels of a checkpoint and the canonical state they make. -/
structure CheckpointDenotes (R : NodeReader) (versions : List (Option Nat))
    (checkpoint : CheckpointInfo) (identity : Bytes) (messages result : Option Bytes) : Prop where
  identity : VersionDenotes R versions checkpoint.identityVersion identity
  messages : ChannelDenotes R versions checkpoint.messagesVersion messages
  result : ChannelDenotes R versions checkpoint.resultVersion result

variable {checkpoint : CheckpointInfo} {identity : Bytes} {messages result : Option Bytes}

theorem flatten_canonicalSlices (identity messages : Bytes) (result : Option Bytes) :
    (canonicalSlices identity messages result).flatten = canonicalState identity messages result := by
  cases result <;> simp [canonicalSlices, canonicalState, resultText]

theorem length_channels_le (identity messages : Bytes) (result : Option Bytes) :
    identity.length + messages.length + (result.getD []).length ≤
      (canonicalState identity messages result).length := by
  cases result <;> simp only [canonicalState, resultText, List.length_append, Option.getD_none,
    Option.getD_some, List.length_nil] <;> omega

/-- The canonical state of a checkpoint is read if a vector can hold it. -/
theorem reconstructCheckpoint_eq
    (h : CheckpointDenotes R versions checkpoint identity messages result) :
    reconstructCheckpoint R room versions checkpoint =
      if (canonicalState identity (messages.getD []) result).length ≤ room then
        .ok (canonicalState identity (messages.getD []) result)
      else .error .capacity := by
  have hLe := length_channels_le identity (messages.getD []) result
  rw [reconstructCheckpoint, extractVersion_eq h.identity]
  by_cases hIdentity : identity.length ≤ room
  · rw [if_pos hIdentity, ok_bind, extractOptional_eq h.messages]
    by_cases hMessages : (messages.getD []).length ≤ room
    · rw [if_pos hMessages, ok_bind, extractOptional_eq h.result]
      by_cases hResult : (result.getD []).length ≤ room
      · rw [if_pos hResult, ok_bind, extendFromSlices_eq (Nat.zero_le _), flatten_canonicalSlices,
          List.length_nil, Nat.zero_add, List.nil_append]
      · rw [if_neg hResult, error_bind, if_neg (by omega)]
    · rw [if_neg hMessages, error_bind, if_neg (by omega)]
  · rw [if_neg hIdentity, error_bind, if_neg (by omega)]

theorem persistentRootForRead_eq {bs : Bytes} (h : VersionDenotes R versions version bs)
    (hLen : bs.length < 2 ^ 64) :
    ∃ root, persistentRootForRead R versions version = .ok (root, bs.length) ∧
      Denotes R root bs := by
  obtain ⟨root, hRoot, hDenotes⟩ := h.versionRoot
  refine ⟨root, ?_, hDenotes⟩
  rw [persistentRootForRead, hRoot, ok_bind, rootTermSize_eq hDenotes hLen, ok_bind]

/-- The segment of the message channel, which may be absent. -/
theorem appendMessagesRange_eq {version : Option Nat}
    (h : ChannelDenotes R versions version messages) {text : Bytes} {start stop : Nat}
    (hLen : text.length + (messages.getD []).length < 2 ^ 64) :
    ∃ root, optionalRootForRead R versions version = .ok root ∧
      appendMessagesRange R root start stop text.length (window start stop text) =
        .ok ((text ++ messages.getD []).length, window start stop (text ++ messages.getD [])) := by
  cases version <;> cases messages <;> simp only [ChannelDenotes] at h
  · exact ⟨none, rfl, by simp [appendMessagesRange]⟩
  · rename_i bs
    simp only [Option.getD_some] at hLen ⊢
    obtain ⟨root, hRoot, hDenotes⟩ := persistentRootForRead_eq h (by omega)
    refine ⟨some (root, bs.length), ?_, appendRootSegmentRange_eq hDenotes hLen⟩
    rw [optionalRootForRead, hRoot, ok_bind]

theorem appendResultRange_eq {version : Option Nat} (h : ChannelDenotes R versions version result)
    {text : Bytes} {start stop : Nat} (hLen : text.length + (resultText result).length < 2 ^ 64) :
    ∃ root, optionalRootForRead R versions version = .ok root ∧
      appendResultRange R root start stop text.length (window start stop text) =
        .ok ((text ++ resultText result).length, window start stop (text ++ resultText result)) := by
  cases version <;> cases result <;> simp only [ChannelDenotes] at h
  · exact ⟨none, rfl, by simp [appendResultRange, resultText]⟩
  · rename_i bs
    simp only [resultText, List.length_append] at hLen ⊢
    obtain ⟨root, hRoot, hDenotes⟩ := persistentRootForRead_eq h (by omega)
    refine ⟨some (root, bs.length), ?_, ?_⟩
    · rw [optionalRootForRead, hRoot, ok_bind]
    · have hOpen := @appendStaticRange_eq text resultOpen start stop (by omega)
      have hRest := @appendRootSegmentRange_eq R root bs hDenotes (text ++ resultOpen) start stop
        (by rw [List.length_append]; omega)
      simp only [appendResultRange, hOpen, ok_bind]
      rw [hRest, List.append_assoc, List.length_append, List.length_append]

theorem appendCanonicalRange_eq
    (h : CheckpointDenotes R versions checkpoint identity messages result)
    (hLen : checkpoint.logicalStateLen =
      (canonicalState identity (messages.getD []) result).length)
    (hMax : checkpoint.logicalStateLen < 2 ^ 64) {start stop : Nat} :
    appendCanonicalRange R versions checkpoint start stop =
      .ok (window start stop (canonicalState identity (messages.getD []) result)) := by
  rw [canonicalState] at hLen ⊢
  set t1 := identityPrefix with ht1
  set t2 := t1 ++ identity with ht2
  set t3 := t2 ++ messagesOpen with ht3
  set t4 := t3 ++ messages.getD [] with ht4
  set t5 := t4 ++ messagesClose with ht5
  set t6 := t5 ++ resultText result with ht6
  have h2 : t2.length = t1.length + identity.length := List.length_append
  have h3 : t3.length = t2.length + messagesOpen.length := List.length_append
  have h4 : t4.length = t3.length + (messages.getD []).length := List.length_append
  have h5 : t5.length = t4.length + messagesClose.length := List.length_append
  have h6 : t6.length = t5.length + (resultText result).length := List.length_append
  rw [List.length_append] at hLen
  obtain ⟨root, hRoot, hIdentity⟩ := persistentRootForRead_eq h.identity (by omega)
  obtain ⟨messagesRoot, hMessagesRoot, hMessages⟩ := @appendMessagesRange_eq R versions messages _
    h.messages t3 start stop (by omega)
  obtain ⟨resultRoot, hResultRoot, hResult⟩ := @appendResultRange_eq R versions result _
    h.result t5 start stop (by omega)
  have s1 : appendStaticRange identityPrefix 0 start stop [] =
      .ok (t1.length, window start stop t1) := by
    have hStart := @appendStaticRange_eq [] identityPrefix start stop (by decide)
    simpa only [window, List.take_nil, List.drop_nil, List.length_nil, List.nil_append] using hStart
  have s2 := @appendRootSegmentRange_eq R root identity hIdentity t1 start stop (by omega)
  have s3 := @appendStaticRange_eq t2 messagesOpen start stop (by omega)
  have s5 := @appendStaticRange_eq t4 messagesClose start stop (by omega)
  have s7 := @appendStaticRange_eq t6 stateClose start stop (by omega)
  rw [← ht2] at s2
  rw [← ht3] at s3
  rw [← ht4] at hMessages
  rw [← ht5] at s5
  rw [← ht6] at hResult
  have hDone : ¬ ((t6 ++ stateClose).length ≠ checkpoint.logicalStateLen) := by
    rw [List.length_append]
    omega
  simp only [appendCanonicalRange, hRoot, hMessagesRoot, hResultRoot, ok_bind, s1, s2, s3,
    hMessages, s5, hResult, s7, failIf_neg hDone]

end Canonical

/-! ## Reads by key -/

section Keys

variable {state : StoreState} {key : CheckpointKey} {checkpoint : CheckpointInfo}
  {identity : Bytes} {messages result : Option Bytes}

theorem readCheckpoint_eq (hFind : findCheckpoint state key = .ok checkpoint)
    (h : CheckpointDenotes R state.versions checkpoint identity messages result) :
    readCheckpoint R room state key =
      if (canonicalState identity (messages.getD []) result).length ≤ room then
        .ok (canonicalState identity (messages.getD []) result)
      else .error .capacity := by
  rw [readCheckpoint, hFind, ok_bind, reconstructCheckpoint_eq h]

/-- A range inside the checkpoint is that range of its canonical state. -/
theorem readCheckpointRange_eq (hFind : findCheckpoint state key = .ok checkpoint)
    (h : CheckpointDenotes R state.versions checkpoint identity messages result)
    (hLen : checkpoint.logicalStateLen =
      (canonicalState identity (messages.getD []) result).length)
    (hMax : checkpoint.logicalStateLen < 2 ^ 64) {offset length : Nat} (hRoom : length ≤ room)
    (hIn : offset + length ≤ checkpoint.logicalStateLen) :
    readCheckpointRange R room state key offset length = .ok (window offset (offset + length)
      (canonicalState identity (messages.getD []) result)) := by
  have hEnd : checkedAdd 64 offset length = some (offset + length) := by
    refine checkedAdd_of_lt ?_
    rw [width]
    omega
  rw [readCheckpointRange, hFind, ok_bind, hEnd, okOr_some, ok_bind, failIf_neg (by omega), ok_bind]
  by_cases hZero : length = 0
  · subst hZero
    have hNil : window offset (offset + 0) (canonicalState identity (messages.getD []) result) =
        [] := by
      rw [window, List.drop_eq_nil_iff, List.length_take]
      omega
    rw [if_pos rfl, hNil]
  · have hCount : ¬ ((window offset (offset + length)
        (canonicalState identity (messages.getD []) result)).length ≠ length) := by
      rw [length_window (by omega)]
      omega
    rw [if_neg hZero, failIf_neg (by omega), ok_bind, appendCanonicalRange_eq h hLen hMax, ok_bind,
      failIf_neg hCount, ok_bind]

/-- A range that leaves the checkpoint is an error. -/
theorem readCheckpointRange_outside (hFind : findCheckpoint state key = .ok checkpoint)
    {offset length : Nat} (hOut : checkpoint.logicalStateLen < offset + length) :
    ∃ e, readCheckpointRange R room state key offset length = .error e := by
  rw [readCheckpointRange, hFind, ok_bind]
  by_cases hEnd : offset + length < 2 ^ 64
  · rw [checkedAdd_of_lt hEnd, okOr_some, ok_bind, failIf_pos hOut, error_bind]
    exact ⟨_, rfl⟩
  · rw [checkedAdd_of_le (by rw [width]; omega), okOr_none, error_bind]
    exact ⟨_, rfl⟩

theorem window_window_append {text : Bytes} {a b c : Nat} (hab : a ≤ b) (hbc : b ≤ c)
    (hc : c ≤ text.length) : window a b text ++ window b c text = window a c text := by
  unfold window
  have hSplit : text.take c = text.take b ++ (text.take c).drop b := by
    have hTake : text.take b = (text.take c).take b := by
      rw [List.take_take, Nat.min_eq_left hbc]
    rw [hTake, List.take_append_drop]
  have hLen : a ≤ (text.take b).length := by
    rw [List.length_take]
    omega
  conv_rhs => rw [hSplit, List.drop_append_of_le_length hLen]

/-- Streaming a range yields the same bytes as reading it. -/
theorem streamLoop_eq (hFind : findCheckpoint state key = .ok checkpoint)
    (h : CheckpointDenotes R state.versions checkpoint identity messages result)
    (hLen : checkpoint.logicalStateLen =
      (canonicalState identity (messages.getD []) result).length)
    (hMax : checkpoint.logicalStateLen < 2 ^ 64) {chunkBytes : Nat} (hChunk : 0 < chunkBytes)
    (hRoom : chunkBytes ≤ room) {stop : Nat} (hStop : stop ≤ checkpoint.logicalStateLen) {fuel cursor : Nat}
    (hFuel : stop ≤ cursor + fuel) (hCursor : cursor ≤ stop) (out : Bytes) :
    streamLoop R room state key chunkBytes fuel cursor stop out = .ok (out ++ window cursor stop
      (canonicalState identity (messages.getD []) result)) := by
  have hDone : ∀ cursor, ¬ cursor < stop → window cursor stop
      (canonicalState identity (messages.getD []) result) = [] := by
    intro cursor hNot
    rw [window, List.drop_eq_nil_iff, List.length_take]
    omega
  induction fuel generalizing cursor out with
  | zero =>
    have hNot : ¬ cursor < stop := by omega
    rw [streamLoop, if_neg hNot, hDone cursor hNot, List.append_nil]
  | succ fuel ih =>
    by_cases hLt : cursor < stop
    · set take := min chunkBytes (stop - cursor) with hTake
      have hRead : readCheckpointRange R room state key cursor take = .ok (window cursor (cursor + take)
          (canonicalState identity (messages.getD []) result)) :=
        readCheckpointRange_eq hFind h hLen hMax (by omega) (by omega)
      rw [streamLoop, if_pos hLt]
      simp only [← hTake, hRead, ok_bind]
      rw [ih (by omega) (by omega), List.append_assoc,
        window_window_append (by omega) (by omega) (by omega)]
    · rw [streamLoop, if_neg hLt, hDone cursor hLt, List.append_nil]

theorem streamCheckpointRange_eq (hFind : findCheckpoint state key = .ok checkpoint)
    (h : CheckpointDenotes R state.versions checkpoint identity messages result)
    (hLen : checkpoint.logicalStateLen =
      (canonicalState identity (messages.getD []) result).length)
    (hMax : checkpoint.logicalStateLen < 2 ^ 64) {offset length chunkBytes : Nat}
    (hChunk : 0 < chunkBytes) (hRoom : chunkBytes ≤ room) (hIn : offset + length ≤ checkpoint.logicalStateLen) :
    streamCheckpointRange R room state key offset length chunkBytes = .ok (window offset
      (offset + length) (canonicalState identity (messages.getD []) result)) := by
  have hEnd : checkedAdd 64 offset length = some (offset + length) := by
    refine checkedAdd_of_lt ?_
    rw [width]
    omega
  rw [streamCheckpointRange, failIf_neg (by omega), ok_bind]
  by_cases hZero : length = 0
  · subst hZero
    have hNil : window offset (offset + 0) (canonicalState identity (messages.getD []) result) =
        [] := by
      rw [window, List.drop_eq_nil_iff, List.length_take]
      omega
    rw [if_pos rfl, readCheckpointRange_eq hFind h hLen hMax (Nat.zero_le _) hIn, ok_bind, hNil]
  · rw [if_neg hZero, hEnd, okOr_some, ok_bind,
      streamLoop_eq hFind h hLen hMax hChunk hRoom hIn (by omega) (by omega), List.nil_append]

end Keys

end TulyaStore.Checkpoint
