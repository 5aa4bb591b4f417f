import TulyaStore.History.Collect
import TulyaStore.Lib.Decimal

/-!
# The names of a history directory

The file names of the authority (`authority.rs`, `manifest.rs`, `physical.rs`) and the cleanup
that goes over them. A generated name has a number of twenty digits; the recognisers strip a
prefix and a suffix and leave what is between them to `parse::<u64>`, which reads other
spellings of the number, too.

The cleanup removes every superseded name it generates (`HistoryFile.removable_name`), and it
removes nothing else exactly when no name spells a superseded number in another way:
`cleanup_removes_iff`.
-/

namespace TulyaStore.History

open Lib

abbrev FileName := List Char

/-! ## Generated names -/

def historyManifestFile : FileName := "history-manifest.json".toList

def historyLockFile : FileName := "history.lock".toList

/-- A kind of file with one name for every generation: what stands in front of the number and
behind it. -/
structure NameFamily where
  start : FileName
  stop : FileName
deriving DecidableEq, Repr

/-- The number is padded to twenty digits. -/
def NameFamily.name (family : NameFamily) (generation : Nat) : FileName :=
  family.start ++ paddedDigits 20 generation ++ family.stop

def walFamily : NameFamily := ⟨"history-".toList, ".wal".toList⟩

def snapshotFamily : NameFamily := ⟨"history-snap-".toList, ".ths".toList⟩

def payloadFamily : NameFamily := ⟨"content-".toList, ".payload".toList⟩

def nodesFamily : NameFamily := ⟨"content-".toList, ".nodes".toList⟩

/-- `history_wal_filename` -/
def historyWalFilename (generation : Nat) : FileName := walFamily.name generation

/-- `history_snapshot_filename` -/
def historySnapshotFilename (generation : Nat) : FileName := snapshotFamily.name generation

/-- `content_payload_filename` -/
def contentPayloadFilename (generation : Nat) : FileName := payloadFamily.name generation

/-- `content_nodes_filename` -/
def contentNodesFilename (generation : Nat) : FileName := nodesFamily.name generation

def tmpSuffix : FileName := ".tmp".toList

/-- `tmp_path` -/
def tmpPath (name : FileName) : FileName := name ++ tmpSuffix

/-- The name of each file of the model. -/
def HistoryFile.name : HistoryFile → FileName
  | .lock => historyLockFile
  | .manifest => historyManifestFile
  | .manifestTmp => tmpPath historyManifestFile
  | .hot generation => historyWalFilename generation
  | .hotTmp generation => tmpPath (historyWalFilename generation)
  | .snapshot generation => historySnapshotFilename generation
  | .snapshotTmp generation => tmpPath (historySnapshotFilename generation)
  | .payload generation => contentPayloadFilename generation
  | .nodes generation => contentNodesFilename generation

/-! ## Recognised names -/

/-- What stands between the two ends of a family. -/
def NameFamily.middle (family : NameFamily) (name : FileName) : Option FileName := do
  let rest ← stripPrefix family.start name
  stripSuffix family.stop rest

/-- The number a name of the family has, as `parse` reads it. -/
def NameFamily.generation (family : NameFamily) (name : FileName) : Option Nat := do
  let middle ← family.middle name
  parseUnsigned 64 middle

/-- The loop over two families: the first one with a number decides. -/
def firstDiffers (current : Nat) (first second : Option Nat) : Bool :=
  match first with
  | some generation => generation != current
  | none =>
    match second with
    | some generation => generation != current
    | none => false

def supersededGenerationFile (name : FileName) (current : Nat) : Bool :=
  firstDiffers current (walFamily.generation name) (snapshotFamily.generation name)

/-- `stale_tulya_temp_file` -/
def staleTulyaTempFile (name : FileName) : Bool :=
  match stripSuffix tmpSuffix name with
  | none => false
  | some base =>
    base == historyManifestFile || (walFamily.generation base).isSome ||
      (snapshotFamily.generation base).isSome

/-- The number of a content file: here its text must have the length of a padded one. -/
def contentGeneration (family : NameFamily) (name : FileName) : Option Nat := do
  let middle ← family.middle name
  let generation ← parseUnsigned 64 middle
  if middle.length = 20 then some generation else none

def supersededPhysicalContentFile (name : FileName) (current : Nat) : Bool :=
  firstDiffers current (contentGeneration payloadFamily name) (contentGeneration nodesFamily name)

/-- The test of the cleanup loop. -/
def removable (current : Nat) (physicalGeneration : Option Nat) (name : FileName) : Bool :=
  supersededGenerationFile name current || staleTulyaTempFile name ||
    physicalGeneration.any (supersededPhysicalContentFile name)

/-- What `read_dir` gives for one file: an error, a name that is not Unicode, or a name. -/
inductive DirEntry where
  | failed
  | notUnicode
  | named (name : FileName)
deriving DecidableEq, Repr

/-- One turn of the cleanup loop: the names removed so far, and whether nothing was missed. -/
def cleanupEntry (current : Nat) (physicalGeneration : Option Nat) (removeFile : FileName → Bool)
    (state : List FileName × Bool) : DirEntry → List FileName × Bool
  | .failed => (state.1, false)
  | .notUnicode => state
  | .named name =>
    if removable current physicalGeneration name then
      if removeFile name then (state.1 ++ [name], state.2) else (state.1, false)
    else state

/-- `cleanup_superseded_generations` over what the system answers: the listing of the directory,
which files it removes and whether the directory was synced. -/
def cleanupNames (listing : Option (List DirEntry)) (current : Nat)
    (physicalGeneration : Option Nat) (removeFile : FileName → Bool) (synced : Bool) :
    List FileName × Bool :=
  match listing with
  | none => ([], false)
  | some entries =>
    let (removed, complete) :=
      entries.foldl (cleanupEntry current physicalGeneration removeFile) ([], true)
    (removed, complete && synced)

/-! ## What a family recognises -/

section Families

variable {family : NameFamily} {name : FileName} {n : Nat}

theorem middle_eq_some {middle : FileName} :
    family.middle name = some middle ↔ name = family.start ++ middle ++ family.stop := by
  simp only [NameFamily.middle, Option.bind_eq_bind, Option.bind_eq_some_iff, stripPrefix_eq_some,
    stripSuffix_eq_some, List.append_assoc]
  constructor
  · rintro ⟨rest, rfl, rfl⟩
    rfl
  · intro h
    exact ⟨_, h, rfl⟩

/-- A name of the family whose text reads as `n` and is not the one generated for it: with fewer
or more zeros in front, or with a sign. -/
def NameFamily.Misspells (family : NameFamily) (name : FileName) (n : Nat) : Prop :=
  ∃ middle, name = family.start ++ middle ++ family.stop ∧ parseUnsigned 64 middle = some n ∧
    middle ≠ paddedDigits 20 n

theorem parse_padded (h : n < width 64) : parseUnsigned 64 (paddedDigits 20 n) = some n :=
  parseUnsigned_paddedDigits (by decide) h (h.trans (by decide))

/-- A family reads its own names and the misspelt ones. -/
theorem generation_eq_some : family.generation name = some n ↔
    (n < width 64 ∧ name = family.name n) ∨ family.Misspells name n := by
  simp only [NameFamily.generation, Option.bind_eq_bind, Option.bind_eq_some_iff, middle_eq_some]
  constructor
  · rintro ⟨middle, hName, hParse⟩
    by_cases hPadded : middle = paddedDigits 20 n
    · rw [hPadded] at hName
      exact .inl ⟨parseUnsigned_lt hParse, hName⟩
    · exact .inr ⟨middle, hName, hParse, hPadded⟩
  · rintro (⟨hLt, hName⟩ | ⟨middle, hName, hParse, -⟩)
    · exact ⟨_, hName, parse_padded hLt⟩
    · exact ⟨middle, hName, hParse⟩

theorem length_name : (family.name n).length = family.start.length + 20 + family.stop.length := by
  simp only [NameFamily.name, List.length_append, length_paddedDigits]

theorem contentGeneration_eq_some : contentGeneration family name = some n ↔
    (n < width 64 ∧ name = family.name n) ∨
      (family.Misspells name n ∧ name.length = (family.name n).length) := by
  have hWidth : ∀ middle : FileName, name = family.start ++ middle ++ family.stop →
      (middle.length = 20 ↔ name.length = (family.name n).length) := by
    rintro middle rfl
    simp only [length_name, List.length_append]
    omega
  have hSplit : contentGeneration family name = some n ↔
      ∃ middle, name = family.start ++ middle ++ family.stop ∧ parseUnsigned 64 middle = some n ∧
        middle.length = 20 := by
    simp only [contentGeneration, Option.bind_eq_bind, Option.bind_eq_some_iff, middle_eq_some,
      Option.ite_none_right_eq_some, Option.some.injEq]
    constructor
    · rintro ⟨middle, hName, _, hParse, hLen, rfl⟩
      exact ⟨middle, hName, hParse, hLen⟩
    · rintro ⟨middle, hName, hParse, hLen⟩
      exact ⟨middle, hName, n, hParse, hLen, rfl⟩
  rw [hSplit]
  constructor
  · rintro ⟨middle, hName, hParse, hLen⟩
    by_cases hPadded : middle = paddedDigits 20 n
    · rw [hPadded] at hName
      exact .inl ⟨parseUnsigned_lt hParse, hName⟩
    · exact .inr ⟨⟨middle, hName, hParse, hPadded⟩, (hWidth middle hName).mp hLen⟩
  · rintro (⟨hLt, hName⟩ | ⟨⟨middle, hName, hParse, -⟩, hLen⟩)
    · exact ⟨_, hName, parse_padded hLt, length_paddedDigits _ _⟩
    · exact ⟨middle, hName, hParse, (hWidth middle hName).mpr hLen⟩

/-- A generated name is not a misspelt one of its own family. -/
theorem NameFamily.Misspells.not_name {m : Nat} (h : family.Misspells name n) (hm : m < width 64) :
    name ≠ family.name m := by
  obtain ⟨middle, hName, hParse, hNot⟩ := h
  intro hSame
  have hMiddle : middle = paddedDigits 20 m :=
    List.append_cancel_left (List.append_cancel_right (hName.symm.trans hSame))
  have hValue : m = n := by
    rw [hMiddle, parse_padded hm] at hParse
    exact Option.some.inj hParse
  rw [hValue] at hMiddle
  exact hNot hMiddle

/-- The last two characters, by which the families and the temporary names differ. -/
def lastTwo (text : FileName) : FileName := text.reverse.take 2

theorem lastTwo_append {start stop : FileName} (h : 2 ≤ stop.length) :
    lastTwo (start ++ stop) = lastTwo stop := by
  rw [lastTwo, List.reverse_append, List.take_append_of_le_length (by simpa using h), lastTwo]

/-- What a family reads ends as the family does. -/
theorem lastTwo_of_generation (h : family.generation name = some n) (hStop : 2 ≤ family.stop.length) :
    lastTwo name = lastTwo family.stop := by
  rcases generation_eq_some.mp h with ⟨-, rfl⟩ | ⟨middle, rfl, -⟩
  · exact lastTwo_append hStop
  · exact lastTwo_append hStop

theorem generation_of_content (h : contentGeneration family name = some n) :
    family.generation name = some n := by
  rcases contentGeneration_eq_some.mp h with hName | ⟨hOther, -⟩
  · exact generation_eq_some.mpr (.inl hName)
  · exact generation_eq_some.mpr (.inr hOther)

/-- Families with different ends read different names. -/
theorem generation_eq_none {other : NameFamily} (h : family.generation name = some n)
    (hStop : 2 ≤ family.stop.length) (hOther : 2 ≤ other.stop.length)
    (hEnds : lastTwo family.stop ≠ lastTwo other.stop) : other.generation name = none := by
  cases hGeneration : other.generation name with
  | none => rfl
  | some m =>
    have hLeft := lastTwo_of_generation h hStop
    have hRight := lastTwo_of_generation hGeneration hOther
    exact absurd (hLeft.symm.trans hRight) hEnds

end Families

/-! ## What the cleanup removes -/

section Cleanup

variable {current n : Nat} {physicalGeneration : Option Nat} {name : FileName}

/-- At most one of two families has a number. -/
theorem firstDiffers_iff {first second : Option Nat}
    (hApart : ∀ n, first = some n → second = none) :
    firstDiffers current first second = true ↔
      ∃ n, (first = some n ∨ second = some n) ∧ n ≠ current := by
  cases first with
  | some m =>
    rw [hApart m rfl]
    simp [firstDiffers]
  | none =>
    cases second with
    | some m => simp [firstDiffers]
    | none => simp [firstDiffers]

theorem supersededGenerationFile_iff : supersededGenerationFile name current = true ↔
    ∃ n, (walFamily.generation name = some n ∨ snapshotFamily.generation name = some n) ∧
      n ≠ current := by
  refine firstDiffers_iff fun n h => ?_
  exact generation_eq_none h (by decide) (by decide) (by decide)

theorem supersededPhysicalContentFile_iff : supersededPhysicalContentFile name current = true ↔
    ∃ n, (contentGeneration payloadFamily name = some n ∨
      contentGeneration nodesFamily name = some n) ∧ n ≠ current := by
  refine firstDiffers_iff fun n h => ?_
  have hNone : nodesFamily.generation name = none :=
    generation_eq_none (generation_of_content h) (by decide) (by decide) (by decide)
  cases hNodes : contentGeneration nodesFamily name with
  | none => rfl
  | some m =>
    rw [generation_of_content hNodes] at hNone
    cases hNone

theorem staleTulyaTempFile_iff : staleTulyaTempFile name = true ↔
    ∃ base, name = tmpPath base ∧ (base = historyManifestFile ∨
      ∃ n, walFamily.generation base = some n ∨ snapshotFamily.generation base = some n) := by
  unfold staleTulyaTempFile
  cases hStrip : stripSuffix tmpSuffix name with
  | none =>
    constructor
    · intro h
      cases h
    · rintro ⟨base, rfl, -⟩
      rw [stripSuffix_eq_some.mpr (rfl : tmpPath base = base ++ tmpSuffix)] at hStrip
      cases hStrip
  | some base =>
    have hName := stripSuffix_eq_some.mp hStrip
    have hTest : (base == historyManifestFile || (walFamily.generation base).isSome ||
        (snapshotFamily.generation base).isSome) = true ↔ base = historyManifestFile ∨
          ∃ n, walFamily.generation base = some n ∨ snapshotFamily.generation base = some n := by
      simp only [Bool.or_eq_true, beq_iff_eq, Option.isSome_iff_exists, or_assoc, exists_or]
    rw [hTest]
    constructor
    · exact fun h => ⟨base, hName, h⟩
    · rintro ⟨other, hOther, h⟩
      obtain rfl : other = base := List.append_cancel_right (hOther.symm.trans hName)
      exact h

/-- The names this program generates and the cleanup is for: those of other generations, and the
temporary ones of any. -/
inductive Superseded (current : Nat) (physicalGeneration : Option Nat) : FileName → Prop
  | hot {n : Nat} : n < width 64 → n ≠ current →
      Superseded current physicalGeneration (historyWalFilename n)
  | snapshot {n : Nat} : n < width 64 → n ≠ current →
      Superseded current physicalGeneration (historySnapshotFilename n)
  | payload {n p : Nat} : physicalGeneration = some p → n < width 64 → n ≠ p →
      Superseded current physicalGeneration (contentPayloadFilename n)
  | nodes {n p : Nat} : physicalGeneration = some p → n < width 64 → n ≠ p →
      Superseded current physicalGeneration (contentNodesFilename n)
  | hotTmp {n : Nat} : n < width 64 →
      Superseded current physicalGeneration (tmpPath (historyWalFilename n))
  | snapshotTmp {n : Nat} : n < width 64 →
      Superseded current physicalGeneration (tmpPath (historySnapshotFilename n))
  | manifestTmp : Superseded current physicalGeneration (tmpPath historyManifestFile)

/-- A name that has a superseded number in another spelling: the text of a hot log, of a snapshot
or of a temporary file of these reads as a number without being its twenty digits, or the text
of a content file does and has twenty characters. -/
inductive Misspelt (current : Nat) (physicalGeneration : Option Nat) : FileName → Prop
  | hot {name : FileName} {n : Nat} : walFamily.Misspells name n → n ≠ current →
      Misspelt current physicalGeneration name
  | snapshot {name : FileName} {n : Nat} : snapshotFamily.Misspells name n → n ≠ current →
      Misspelt current physicalGeneration name
  | payload {name : FileName} {n p : Nat} : physicalGeneration = some p → n ≠ p →
      payloadFamily.Misspells name n → name.length = (contentPayloadFilename n).length →
      Misspelt current physicalGeneration name
  | nodes {name : FileName} {n p : Nat} : physicalGeneration = some p → n ≠ p →
      nodesFamily.Misspells name n → name.length = (contentNodesFilename n).length →
      Misspelt current physicalGeneration name
  | hotTmp {base : FileName} {n : Nat} : walFamily.Misspells base n →
      Misspelt current physicalGeneration (tmpPath base)
  | snapshotTmp {base : FileName} {n : Nat} : snapshotFamily.Misspells base n →
      Misspelt current physicalGeneration (tmpPath base)

theorem Superseded.removable (h : Superseded current physicalGeneration name) :
    removable current physicalGeneration name = true := by
  have hOwn : ∀ (family : NameFamily) {n : Nat}, n < width 64 →
      family.generation (family.name n) = some n :=
    fun family n hLt => generation_eq_some.mpr (.inl ⟨hLt, rfl⟩)
  have hContent : ∀ (family : NameFamily) {n : Nat}, n < width 64 →
      contentGeneration family (family.name n) = some n :=
    fun family n hLt => contentGeneration_eq_some.mpr (.inl ⟨hLt, rfl⟩)
  unfold History.removable
  simp only [Bool.or_eq_true, supersededGenerationFile_iff, staleTulyaTempFile_iff,
    Option.any_eq_true, supersededPhysicalContentFile_iff]
  cases h with
  | hot hLt hNe => exact .inl (.inl ⟨_, .inl (hOwn walFamily hLt), hNe⟩)
  | snapshot hLt hNe => exact .inl (.inl ⟨_, .inr (hOwn snapshotFamily hLt), hNe⟩)
  | payload hSome hLt hNe => exact .inr ⟨_, hSome, _, .inl (hContent payloadFamily hLt), hNe⟩
  | nodes hSome hLt hNe => exact .inr ⟨_, hSome, _, .inr (hContent nodesFamily hLt), hNe⟩
  | hotTmp hLt => exact .inl (.inr ⟨_, rfl, .inr ⟨_, .inl (hOwn walFamily hLt)⟩⟩)
  | snapshotTmp hLt => exact .inl (.inr ⟨_, rfl, .inr ⟨_, .inr (hOwn snapshotFamily hLt)⟩⟩)
  | manifestTmp => exact .inl (.inr ⟨_, rfl, .inl rfl⟩)

/-- The cleanup removes its own names and the misspelt ones. -/
theorem removable_iff : removable current physicalGeneration name = true ↔
    Superseded current physicalGeneration name ∨ Misspelt current physicalGeneration name := by
  constructor
  · unfold History.removable
    simp only [Bool.or_eq_true, supersededGenerationFile_iff, staleTulyaTempFile_iff,
      Option.any_eq_true, supersededPhysicalContentFile_iff, generation_eq_some,
      contentGeneration_eq_some]
    rintro ((⟨n, (⟨hLt, rfl⟩ | hOther) | ⟨hLt, rfl⟩ | hOther, hNe⟩ |
      ⟨base, rfl, rfl | ⟨n, (⟨hLt, rfl⟩ | hOther) | ⟨hLt, rfl⟩ | hOther⟩⟩) |
      ⟨p, hSome, n, (⟨hLt, rfl⟩ | ⟨hOther, hLen⟩) | ⟨hLt, rfl⟩ | ⟨hOther, hLen⟩, hNe⟩)
    · exact .inl (.hot hLt hNe)
    · exact .inr (.hot hOther hNe)
    · exact .inl (.snapshot hLt hNe)
    · exact .inr (.snapshot hOther hNe)
    · exact .inl .manifestTmp
    · exact .inl (.hotTmp hLt)
    · exact .inr (.hotTmp hOther)
    · exact .inl (.snapshotTmp hLt)
    · exact .inr (.snapshotTmp hOther)
    · exact .inl (.payload hSome hLt hNe)
    · exact .inr (.payload hSome hNe hOther hLen)
    · exact .inl (.nodes hSome hLt hNe)
    · exact .inr (.nodes hSome hNe hOther hLen)
  · rintro (hOwn | hOther)
    · exact hOwn.removable
    · unfold History.removable
      simp only [Bool.or_eq_true, supersededGenerationFile_iff, staleTulyaTempFile_iff,
        Option.any_eq_true, supersededPhysicalContentFile_iff, generation_eq_some,
        contentGeneration_eq_some]
      cases hOther with
      | hot hOther hNe => exact .inl (.inl ⟨_, .inl (.inr hOther), hNe⟩)
      | snapshot hOther hNe => exact .inl (.inl ⟨_, .inr (.inr hOther), hNe⟩)
      | payload hSome hNe hOther hLen => exact .inr ⟨_, hSome, _, .inl (.inr ⟨hOther, hLen⟩), hNe⟩
      | nodes hSome hNe hOther hLen => exact .inr ⟨_, hSome, _, .inr (.inr ⟨hOther, hLen⟩), hNe⟩
      | hotTmp hOther => exact .inl (.inr ⟨_, rfl, .inr ⟨_, .inl (.inr hOther)⟩⟩)
      | snapshotTmp hOther => exact .inl (.inr ⟨_, rfl, .inr ⟨_, .inr (.inr hOther)⟩⟩)

/-! ### No generated name is a misspelt one -/

def families : List NameFamily := [walFamily, snapshotFamily, payloadFamily, nodesFamily]

theorem two_le_stop {family : NameFamily} (h : family ∈ families) : 2 ≤ family.stop.length :=
  (by decide : ∀ family ∈ families, 2 ≤ family.stop.length) family h

/-- A family is known by the last two characters of its names. -/
theorem family_eq_of_lastTwo {family other : NameFamily} (h : family ∈ families)
    (hOther : other ∈ families) (hEnds : lastTwo family.stop = lastTwo other.stop) :
    family = other :=
  (by decide : ∀ family ∈ families, ∀ other ∈ families,
    lastTwo family.stop = lastTwo other.stop → family = other) family h other hOther hEnds

theorem lastTwo_ne_tmp {family : NameFamily} (h : family ∈ families) :
    lastTwo family.stop ≠ lastTwo tmpSuffix :=
  (by decide : ∀ family ∈ families, lastTwo family.stop ≠ lastTwo tmpSuffix) family h

theorem lastTwo_ne_manifest {family : NameFamily} (h : family ∈ families) :
    lastTwo family.stop ≠ lastTwo historyManifestFile :=
  (by decide : ∀ family ∈ families, lastTwo family.stop ≠ lastTwo historyManifestFile) family h

/-- A name generated for some number, by one of the families. -/
def Generated (name : FileName) : Prop :=
  ∃ family ∈ families, ∃ n, n < width 64 ∧ name = family.name n

def MisspeltNumber (name : FileName) : Prop := ∃ family ∈ families, ∃ n, family.Misspells name n

theorem Generated.lastTwo (h : Generated name) :
    ∃ family ∈ families, lastTwo name = lastTwo family.stop := by
  obtain ⟨family, hMem, n, -, rfl⟩ := h
  exact ⟨family, hMem, lastTwo_append (two_le_stop hMem)⟩

theorem MisspeltNumber.lastTwo (h : MisspeltNumber name) :
    ∃ family ∈ families, lastTwo name = lastTwo family.stop := by
  obtain ⟨family, hMem, n, middle, rfl, -⟩ := h
  exact ⟨family, hMem, lastTwo_append (two_le_stop hMem)⟩

theorem lastTwo_tmpPath (base : FileName) : lastTwo (tmpPath base) = lastTwo tmpSuffix :=
  lastTwo_append (by decide)

theorem Generated.not_misspelt (h : Generated name) : ¬ MisspeltNumber name := by
  obtain ⟨family, hMem, n, hLt, rfl⟩ := h
  rintro ⟨other, hOther, m, hMisspells⟩
  have hGeneration : other.generation (family.name n) = some m :=
    generation_eq_some.mpr (.inr hMisspells)
  have hEnds := lastTwo_of_generation hGeneration (two_le_stop hOther)
  rw [NameFamily.name, lastTwo_append (two_le_stop hMem)] at hEnds
  obtain rfl := family_eq_of_lastTwo hMem hOther hEnds
  exact hMisspells.not_name hLt rfl

theorem Superseded.generated (h : Superseded current physicalGeneration name) :
    Generated name ∨ ∃ base, name = tmpPath base ∧ (Generated base ∨ base = historyManifestFile) := by
  cases h with
  | @hot n hLt _ => exact .inl ⟨walFamily, by decide, n, hLt, rfl⟩
  | @snapshot n hLt _ => exact .inl ⟨snapshotFamily, by decide, n, hLt, rfl⟩
  | @payload n _ _ hLt _ => exact .inl ⟨payloadFamily, by decide, n, hLt, rfl⟩
  | @nodes n _ _ hLt _ => exact .inl ⟨nodesFamily, by decide, n, hLt, rfl⟩
  | @hotTmp n hLt => exact .inr ⟨_, rfl, .inl ⟨walFamily, by decide, n, hLt, rfl⟩⟩
  | @snapshotTmp n hLt => exact .inr ⟨_, rfl, .inl ⟨snapshotFamily, by decide, n, hLt, rfl⟩⟩
  | manifestTmp => exact .inr ⟨_, rfl, .inr rfl⟩

theorem Misspelt.number (h : Misspelt current physicalGeneration name) :
    MisspeltNumber name ∨ ∃ base, name = tmpPath base ∧ MisspeltNumber base := by
  cases h with
  | hot h _ => exact .inl ⟨walFamily, by decide, _, h⟩
  | snapshot h _ => exact .inl ⟨snapshotFamily, by decide, _, h⟩
  | payload _ _ h _ => exact .inl ⟨payloadFamily, by decide, _, h⟩
  | nodes _ _ h _ => exact .inl ⟨nodesFamily, by decide, _, h⟩
  | hotTmp h => exact .inr ⟨_, rfl, walFamily, by decide, _, h⟩
  | snapshotTmp h => exact .inr ⟨_, rfl, snapshotFamily, by decide, _, h⟩

theorem Superseded.not_misspelt (h : Superseded current physicalGeneration name) :
    ¬ Misspelt current physicalGeneration name := by
  intro hMisspelt
  rcases h.generated with hName | ⟨base, rfl, hBase⟩
  · rcases hMisspelt.number with hNumber | ⟨base, rfl, -⟩
    · exact hName.not_misspelt hNumber
    · obtain ⟨family, hMem, hEnds⟩ := hName.lastTwo
      exact lastTwo_ne_tmp hMem (hEnds.symm.trans (lastTwo_tmpPath base))
  · rcases hMisspelt.number with hNumber | ⟨other, hSame, hNumber⟩
    · obtain ⟨family, hMem, hEnds⟩ := hNumber.lastTwo
      exact lastTwo_ne_tmp hMem (hEnds.symm.trans (lastTwo_tmpPath base))
    · obtain rfl : base = other := List.append_cancel_right hSame
      rcases hBase with hName | rfl
      · exact hName.not_misspelt hNumber
      · obtain ⟨family, hMem, hEnds⟩ := hNumber.lastTwo
        exact lastTwo_ne_manifest hMem hEnds.symm

/-! ### The loop over the directory -/

/-- A file is removed when it is listed, is one of the names to remove, and the system does
remove it. -/
theorem mem_cleanupNames {entries : List DirEntry} {removeFile : FileName → Bool} {synced : Bool} :
    name ∈ (cleanupNames (some entries) current physicalGeneration removeFile synced).1 ↔
      .named name ∈ entries ∧ removable current physicalGeneration name = true ∧
        removeFile name = true := by
  have hLoop : ∀ state : List FileName × Bool,
      name ∈ (entries.foldl (cleanupEntry current physicalGeneration removeFile) state).1 ↔
        name ∈ state.1 ∨ (.named name ∈ entries ∧ removable current physicalGeneration name = true ∧
          removeFile name = true) := by
    induction entries with
    | nil => simp
    | cons entry entries ih =>
      intro state
      rw [List.foldl_cons, ih]
      cases entry with
      | failed => simp [cleanupEntry]
      | notUnicode => simp [cleanupEntry]
      | named other =>
        by_cases hTest : removable current physicalGeneration other = true
        · by_cases hRemoved : removeFile other = true
          · simp only [cleanupEntry, if_pos hTest, if_pos hRemoved, List.mem_append, List.mem_cons]
            grind
          · simp only [cleanupEntry, if_pos hTest, if_neg hRemoved, List.mem_cons]
            grind
        · simp only [cleanupEntry, if_neg hTest, List.mem_cons]
          grind
  simpa [cleanupNames] using hLoop ([], true)

/-- Of the listed files that the system removes when told to, the cleanup removes exactly the
superseded ones, unless the name is a misspelt one. -/
theorem cleanup_removes_iff {entries : List DirEntry} {removeFile : FileName → Bool} {synced : Bool}
    (hListed : .named name ∈ entries) (hRemoves : removeFile name = true) :
    (name ∈ (cleanupNames (some entries) current physicalGeneration removeFile synced).1 ↔
      Superseded current physicalGeneration name) ↔ ¬ Misspelt current physicalGeneration name := by
  rw [mem_cleanupNames, removable_iff]
  constructor
  · intro hSame hMisspelt
    have hOwn := hSame.mp ⟨hListed, .inr hMisspelt, hRemoves⟩
    exact hOwn.not_misspelt hMisspelt
  · intro hNot
    constructor
    · rintro ⟨-, hOwn | hMisspelt, -⟩
      · exact hOwn
      · exact absurd hMisspelt hNot
    · exact fun hOwn => ⟨hListed, .inl hOwn, hRemoves⟩

theorem cleanup_removes_iff_sample :
    (historyWalFilename 5 ∈ (cleanupNames (some [.named (historyWalFilename 5)]) 7 (some 7)
        (fun _ => true) true).1 ↔ Superseded 7 (some 7) (historyWalFilename 5)) ↔
      ¬ Misspelt 7 (some 7) (historyWalFilename 5) :=
  cleanup_removes_iff (List.mem_singleton_self _) rfl

/-- A log under an unpadded number is removed, though no path generates its name. -/
theorem not_cleanup_exact :
    ¬ ∀ (entries : List DirEntry) (current : Nat) (physicalGeneration : Nat) (name : FileName),
      .named name ∈ entries →
        (name ∈ (cleanupNames (some entries) current (some physicalGeneration) (fun _ => true)
          true).1 ↔ Superseded current (some physicalGeneration) name) := by
  intro hAll
  have hSame := hAll [.named "history-5.wal".toList] 7 7 "history-5.wal".toList
    (List.mem_singleton_self _)
  have hOwn := hSame.mp (by decide)
  refine hOwn.not_misspelt (.hot (n := 5) ⟨"5".toList, by decide, by decide, by decide⟩ ?_)
  decide

/-! ### The files of the model -/

theorem generation_name {family other : NameFamily} (h : family ∈ families)
    (hOther : other ∈ families) (hLt : n < width 64) :
    other.generation (family.name n) = if other = family then some n else none := by
  have hOwn : family.generation (family.name n) = some n :=
    generation_eq_some.mpr (.inl ⟨hLt, rfl⟩)
  by_cases hSame : other = family
  · rw [if_pos hSame, hSame, hOwn]
  · rw [if_neg hSame]
    refine generation_eq_none hOwn (two_le_stop h) (two_le_stop hOther) fun hEnds => ?_
    exact hSame (family_eq_of_lastTwo h hOther hEnds).symm

theorem contentGeneration_name {family other : NameFamily} (h : family ∈ families)
    (hOther : other ∈ families) (hLt : n < width 64) :
    contentGeneration other (family.name n) = if other = family then some n else none := by
  by_cases hSame : other = family
  · rw [if_pos hSame, hSame]
    exact contentGeneration_eq_some.mpr (.inl ⟨hLt, rfl⟩)
  · have hNone := generation_name h hOther hLt
    rw [if_neg hSame] at hNone ⊢
    cases hContent : contentGeneration other (family.name n) with
    | none => rfl
    | some m =>
      rw [generation_of_content hContent] at hNone
      cases hNone

theorem staleTulyaTempFile_name {family : NameFamily} (h : family ∈ families) :
    staleTulyaTempFile (family.name n) = false := by
  refine Bool.eq_false_iff.mpr fun hStale => ?_
  obtain ⟨base, hName, -⟩ := staleTulyaTempFile_iff.mp hStale
  have hEnds : lastTwo (family.name n) = lastTwo family.stop := lastTwo_append (two_le_stop h)
  rw [hName, lastTwo_tmpPath] at hEnds
  exact lastTwo_ne_tmp h hEnds.symm

/-- What the test says of a generated name. -/
theorem removable_generated {family : NameFamily} (h : family ∈ families) (hLt : n < width 64)
    (p : Nat) : removable current (some p) (family.name n) =
      if family = walFamily ∨ family = snapshotFamily then n != current else n != p := by
  have hGeneration : ∀ other ∈ families, other.generation (family.name n) =
      if other = family then some n else none := fun other hOther => generation_name h hOther hLt
  have hContent : ∀ other ∈ families, contentGeneration other (family.name n) =
      if other = family then some n else none :=
    fun other hOther => contentGeneration_name h hOther hLt
  rw [removable, supersededGenerationFile, staleTulyaTempFile_name h, Option.any_some,
    supersededPhysicalContentFile, hGeneration walFamily (by decide),
    hGeneration snapshotFamily (by decide), hContent payloadFamily (by decide),
    hContent nodesFamily (by decide)]
  simp only [families, List.mem_cons, List.not_mem_nil, or_false] at h
  rcases h with hFamily | hFamily | hFamily | hFamily <;> rw [hFamily]
  · rw [if_pos rfl, if_neg (by decide), if_neg (by decide), if_neg (by decide), if_pos (.inl rfl)]
    simp [firstDiffers]
  · rw [if_neg (by decide), if_pos rfl, if_neg (by decide), if_neg (by decide), if_pos (.inr rfl)]
    simp [firstDiffers]
  · rw [if_neg (by decide), if_neg (by decide), if_pos rfl, if_neg (by decide), if_neg (by decide)]
    simp [firstDiffers]
  · rw [if_neg (by decide), if_neg (by decide), if_neg (by decide), if_pos rfl, if_neg (by decide)]
    simp [firstDiffers]

theorem bne_eq_decide (a b : Nat) : (a != b) = decide (a ≠ b) := by
  by_cases h : a = b
  · simp [h]
  · simp [h]

def HistoryFile.Fits : HistoryFile → Prop
  | .lock | .manifest | .manifestTmp => True
  | .hot n | .hotTmp n | .snapshot n | .snapshotTmp n | .payload n | .nodes n => n < width 64

/-- On the names of the model the test of the cleanup is `HistoryFile.superseded`. -/
theorem HistoryFile.removable_name {file : HistoryFile} (hFits : file.Fits) (p : Nat) :
    removable current (some p) file.name = file.superseded current p := by
  cases file with
  | lock => rfl
  | manifest => rfl
  | manifestTmp => exact Superseded.removable .manifestTmp
  | hot n =>
    rw [HistoryFile.name, historyWalFilename, removable_generated (by decide) hFits,
      if_pos (.inl rfl)]
    exact bne_eq_decide n _
  | hotTmp n => exact Superseded.removable (.hotTmp hFits)
  | snapshot n =>
    rw [HistoryFile.name, historySnapshotFilename, removable_generated (by decide) hFits,
      if_pos (.inr rfl)]
    exact bne_eq_decide n _
  | snapshotTmp n => exact Superseded.removable (.snapshotTmp hFits)
  | payload n =>
    rw [HistoryFile.name, contentPayloadFilename, removable_generated (by decide) hFits,
      if_neg (by decide)]
    exact bne_eq_decide n _
  | nodes n =>
    rw [HistoryFile.name, contentNodesFilename, removable_generated (by decide) hFits,
      if_neg (by decide)]
    exact bne_eq_decide n _

end Cleanup

end TulyaStore.History
