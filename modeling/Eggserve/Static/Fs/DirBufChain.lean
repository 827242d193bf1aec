import Mathlib.Data.Nat.Bitwise
import Eggserve.Static.Fs.DirBuf

/-! Buffers of chained records, and that the parser reads them back. -/
namespace Eggserve.Static.DirBuf
open Rust Eggserve.Primitives

/-! The encoder. -/

/-- Up to a multiple of eight. -/
def alignedSize (size : Nat) : Nat := (size + 7) / 8 * 8

/-- The bytes of a name, in 16-bit units. -/
def nameBytes (name : Str) : List UInt8 := (encodeUtf16 name).flatMap (toLeBytes 2)

def recordSize (name : Str) : Nat := alignedSize (headerSize + (nameBytes name).length)

/-- What a record tells of an object. Its lengths have to fit their 32-bit fields. -/
structure DirObject where
  name : Str
  attributes : UInt32
  fileId : UInt64
  fits : recordSize name < 2 ^ 32

namespace DirObject

/-- A reparse point comes first. -/
def kind (object : DirObject) : DirectoryEntryKind :=
  if object.attributes.toNat.testBit 10 then .reparsePoint
  else if object.attributes.toNat.testBit 4 then .directory
  else .file

def info (object : DirObject) (nextEntryOffset : Nat) : DirInfo :=
  ⟨nextEntryOffset, object.attributes.toNat, object.fileId.toNat, object.name⟩

def size (object : DirObject) : Nat := recordSize object.name

/-- The other fields are zero, and so is the padding. -/
def encode (object : DirObject) (nextEntryOffset : Nat) : List UInt8 :=
  toLeBytes 4 nextEntryOffset ++ List.replicate 52 0 ++ toLeBytes 4 object.attributes.toNat ++
    toLeBytes 4 (nameBytes object.name).length ++ List.replicate 32 0 ++
    toLeBytes 8 object.fileId.toNat ++ nameBytes object.name ++
    List.replicate (object.size - (headerSize + (nameBytes object.name).length)) 0

end DirObject

/-- Every record points behind its padding, and the last one nowhere. -/
def chain : List DirObject → List UInt8
  | [] => []
  | [last] => last.encode 0
  | object :: next :: rest => object.encode object.size ++ chain (next :: rest)

/-- The objects but `.` and `..`. -/
def listing (objects : List DirObject) : List DirectoryEntryRecord :=
  (objects.filter fun object => object.name ≠ ("." : Str) ∧ object.name ≠ (".." : Str)).map fun object =>
    { name := object.name
      kind := object.kind
      fileId := some object.fileId.toNat
      hiddenOrDot := object.name.head? = some '.' }

/-! The fields of an encoded record. -/

/-- A field that holds an integer of its size. -/
theorem field_toLeBytes {front back : List UInt8} {count n : Nat} (h : n < 256 ^ count) :
    field (front ++ (toLeBytes count n ++ back)) front.length count = n := by
  have hTake := @List.take_left _ (toLeBytes count n) back
  rw [length_toLeBytes] at hTake
  rw [field, List.drop_left, hTake, fromLeBytes_toLeBytes count h]

theorem length_nameBytes (units : List Nat) :
    (units.flatMap (toLeBytes 2)).length = units.length * 2 := by
  induction units with
  | nil => rfl
  | cons unit units ih =>
      rw [List.flatMap_cons, List.length_append, ih, length_toLeBytes, List.length_cons]
      omega

theorem unitsAt_nameBytes {units : List Nat} (hUnits : ∀ unit ∈ units, unit < 2 ^ 16)
    (front back : List UInt8) :
    unitsAt (front ++ (units.flatMap (toLeBytes 2) ++ back)) front.length units.length = units := by
  induction units generalizing front with
  | nil => rfl
  | cons unit units ih =>
      have hRest := ih (fun unit hUnit => hUnits unit (List.mem_cons_of_mem _ hUnit))
        (front ++ toLeBytes 2 unit)
      have hFirst := @field_toLeBytes front (units.flatMap (toLeBytes 2) ++ back) 2 unit
        (hUnits unit List.mem_cons_self)
      rw [unitsAt] at hRest ⊢
      rw [List.length_cons, List.range_succ_eq_map, List.map_cons, List.map_map, List.flatMap_cons,
        Nat.zero_mul, Nat.add_zero, List.append_assoc, hFirst]
      refine congrArg (unit :: ·) (Eq.trans ?_ hRest)
      refine List.map_congr_left fun i _ => ?_
      rw [Function.comp_apply, List.length_append, length_toLeBytes, List.append_assoc]
      congr 1
      rw [Nat.succ_mul]
      omega

theorem size_bounds (object : DirObject) :
    headerSize + (nameBytes object.name).length ≤ object.size := by
  rw [DirObject.size, recordSize, alignedSize]
  omega

theorem length_encode (object : DirObject) (next : Nat) :
    (object.encode next).length = object.size := by
  have hSize := size_bounds object
  have hHeader : headerSize = 104 := rfl
  simp only [DirObject.encode, List.length_append, length_toLeBytes, List.length_replicate]
  omega

section

variable {machine : Machine}

theorem asUsize_of_le {n : Nat} (h : n ≤ machine.usizeMax) : machine.asUsize n = n :=
  Word.get_of_le h

/-- The parts of a record that are read, by their places. -/
theorem encode_places (object : DirObject) (next : Nat) (back : List UInt8) :
    (∃ rest, object.encode next ++ back = toLeBytes 4 next ++ rest) ∧
    (∃ before rest, object.encode next ++ back =
        before ++ (toLeBytes 4 object.attributes.toNat ++ rest) ∧
      before.length = fileAttributesOffset) ∧
    (∃ before rest, object.encode next ++ back =
        before ++ (toLeBytes 4 (nameBytes object.name).length ++ rest) ∧
      before.length = fileNameLengthOffset) ∧
    (∃ before rest, object.encode next ++ back =
        before ++ (toLeBytes 8 object.fileId.toNat ++ rest) ∧ before.length = fileIdOffset) ∧
    ∃ before rest, object.encode next ++ back = before ++ (nameBytes object.name ++ rest) ∧
      before.length = headerSize := by
  refine ⟨?_, ?_, ?_, ?_, ?_⟩
  · simp only [DirObject.encode, List.append_assoc]
    exact ⟨_, rfl⟩
  · refine ⟨toLeBytes 4 next ++ List.replicate 52 0, ?_⟩
    simp only [DirObject.encode, List.append_assoc]
    exact ⟨_, rfl, by simp [fileAttributesOffset]⟩
  · refine ⟨toLeBytes 4 next ++ (List.replicate 52 0 ++ toLeBytes 4 object.attributes.toNat), ?_⟩
    simp only [DirObject.encode, List.append_assoc]
    exact ⟨_, rfl, by simp [fileNameLengthOffset]⟩
  · refine ⟨toLeBytes 4 next ++ (List.replicate 52 0 ++ (toLeBytes 4 object.attributes.toNat ++
      (toLeBytes 4 (nameBytes object.name).length ++ List.replicate 32 0))), ?_⟩
    simp only [DirObject.encode, List.append_assoc]
    exact ⟨_, rfl, by simp [fileIdOffset]⟩
  · refine ⟨toLeBytes 4 next ++ (List.replicate 52 0 ++ (toLeBytes 4 object.attributes.toNat ++
      (toLeBytes 4 (nameBytes object.name).length ++ (List.replicate 32 0 ++
        toLeBytes 8 object.fileId.toNat)))), ?_⟩
    simp only [DirObject.encode, List.append_assoc]
    exact ⟨_, rfl, by simp [headerSize, fileNameOffset]⟩

/-- A field behind some bytes in front. -/
theorem field_at {front before rest bytes : List UInt8} {start count n : Nat}
    (hBytes : bytes = before ++ (toLeBytes count n ++ rest)) (hStart : before.length = start)
    (h : n < 256 ^ count) : field (front ++ bytes) (front.length + start) count = n := by
  rw [hBytes, ← hStart, ← List.append_assoc, ← List.length_append]
  exact field_toLeBytes h

/-- A record is read where it was written. -/
theorem recordAt_encode (object : DirObject) {next : Nat} (hNext : next < 2 ^ 32)
    (front back : List UInt8) (hNextWord : next ≤ machine.usizeMax)
    (hWord : (front ++ (object.encode next ++ back)).length ≤ machine.usizeMax) :
    recordAt machine (front ++ (object.encode next ++ back)) front.length =
      .ok (object.info next) := by
  have hSize := size_bounds object
  have hFits : object.size < 2 ^ 32 := object.fits
  obtain ⟨⟨_, hNextPlace⟩, ⟨_, _, hAttributesPlace, hAttributesStart⟩,
    ⟨_, _, hLengthPlace, hLengthStart⟩, ⟨_, _, hIdPlace, hIdStart⟩,
    ⟨before, rest, hNamePlace, hNameStart⟩⟩ := encode_places object next back
  rw [List.length_append, List.length_append, length_encode] at hWord
  have hNextField : field (front ++ (object.encode next ++ back)) front.length 4 = next := by
    rw [hNextPlace]
    exact field_toLeBytes hNext
  have hAttributes := @field_at front _ _ _ _ _ _ hAttributesPlace hAttributesStart
    object.attributes.toNat_lt
  have hId := @field_at front _ _ _ _ _ _ hIdPlace hIdStart object.fileId.toNat_lt
  have hLength := @field_at front _ _ _ _ _ _ hLengthPlace hLengthStart
    (Nat.lt_of_le_of_lt ((Nat.le_add_left _ _).trans hSize) hFits)
  have hUnits : unitsAt (front ++ (object.encode next ++ back)) (front.length + headerSize)
      (encodeUtf16 object.name).length = encodeUtf16 object.name := by
    rw [hNamePlace, ← hNameStart, ← List.append_assoc, ← List.length_append]
    exact unitsAt_nameBytes (fun _ => lt_of_mem_encodeUtf16) _ _
  have hEven : (nameBytes object.name).length = (encodeUtf16 object.name).length * 2 :=
    length_nameBytes _
  have hTotal : (front ++ (object.encode next ++ back)).length =
      front.length + (object.size + back.length) := by
    rw [List.length_append, List.length_append, length_encode]
  refine check_bind_eq_ok.mpr ⟨failIf_eq_ok.mpr (by omega), ?_⟩
  rw [hLength, asUsize_of_le (by omega)]
  refine check_bind_eq_ok.mpr ⟨failIf_eq_ok.mpr (by omega), ?_⟩
  refine check_bind_eq_ok.mpr ⟨failIf_eq_ok.mpr (by omega), ?_⟩
  rw [hEven, Nat.mul_div_cancel _ (by decide), hUnits, fromUtf16_encodeUtf16, hNextField,
    asUsize_of_le hNextWord, hAttributes, hId]
  rfl

theorem isPseudo_info (object : DirObject) (next : Nat) :
    (object.info next).isPseudo = false ↔ object.name ≠ ("." : Str) ∧ object.name ≠ (".." : Str) := by
  rw [DirInfo.isPseudo, Bool.or_eq_false_iff, decide_eq_false_iff_not, decide_eq_false_iff_not]
  rfl

theorem kind_info (object : DirObject) (next : Nat) : (object.info next).kind = object.kind := by
  have hBit (i : Nat) : object.attributes.toNat &&& 2 ^ i ≠ 0 ↔
      object.attributes.toNat.testBit i = true := by
    rw [Nat.and_two_pow]
    cases object.attributes.toNat.testBit i <;> simp
  have hReparse : fileAttributeReparsePoint = 2 ^ 10 := rfl
  have hDirectory : fileAttributeDirectory = 2 ^ 4 := rfl
  rw [DirInfo.kind, hReparse, hDirectory]
  simp only [DirObject.info, hBit]
  rfl

theorem listing_cons (object : DirObject) (next : Nat) (rest : List DirObject) :
    listing (object :: rest) = (object.info next).listed ++ listing rest := by
  rw [DirInfo.listed, listing, List.filter_cons]
  by_cases hShown : object.name ≠ ("." : Str) ∧ object.name ≠ (".." : Str)
  · rw [if_pos (decide_eq_true hShown), (isPseudo_info object next).mpr hShown,
      if_neg Bool.false_ne_true, DirInfo.entry, kind_info]
    rfl
  · have hPseudo : (object.info next).isPseudo = true := by
      rw [← Bool.not_eq_false, isPseudo_info]
      exact hShown
    rw [if_neg (by simpa using hShown), if_pos hPseudo]
    rfl

theorem nextEntryOffset_info (object : DirObject) (next : Nat) :
    (object.info next).nextEntryOffset = next := rfl

theorem headerSize_le_size (object : DirObject) : headerSize ≤ object.size :=
  (Nat.le_add_right _ _).trans (size_bounds object)

theorem chain_ne_nil (object : DirObject) (rest : List DirObject) :
    0 < (chain (object :: rest)).length := by
  have hSize := headerSize_le_size object
  have hHeader : headerSize = 104 := rfl
  cases rest with
  | nil =>
      rw [chain, length_encode]
      omega
  | cons next rest =>
      rw [chain, List.length_append, length_encode]
      omega

/-- The scan of a chain, whatever stands in front of it. -/
theorem scan_chain (objects : List DirObject) (front : List UInt8)
    (hWord : (front ++ chain objects).length ≤ machine.usizeMax) :
    scan machine (front ++ chain objects) front.length = (listing objects, none) := by
  have hHeader : headerSize = 104 := rfl
  fun_induction chain objects generalizing front with
  | case1 =>
      rw [scan, if_pos (by simp)]
      rfl
  | case2 last =>
      have hSize := headerSize_le_size last
      have hLength := length_encode last 0
      have hRecord := @recordAt_encode machine last 0 (by decide) front [] (Nat.zero_le _)
        (by rwa [List.append_nil])
      rw [List.append_nil] at hRecord
      rw [scan, if_neg (by rw [List.length_append]; omega), hRecord]
      dsimp only
      rw [nextEntryOffset_info, if_pos rfl, listing_cons last 0 [], show listing [] = [] from rfl, List.append_nil]
  | case3 object next rest ih =>
      have hSize := headerSize_le_size object
      have hLength := length_encode object object.size
      have hBehind := chain_ne_nil next rest
      have hTotal : (front ++ (object.encode object.size ++ chain (next :: rest))).length =
          front.length + (object.size + (chain (next :: rest)).length) := by
        rw [List.length_append, List.length_append, hLength]
      have hRecord := @recordAt_encode machine object object.size object.fits front
        (chain (next :: rest)) (by omega) hWord
      have hNext : nextRecord (front ++ (object.encode object.size ++ chain (next :: rest))).length
          front.length object.size = .ok (front.length + object.size) :=
        nextRecord_eq_ok.mpr ⟨by omega, hSize, rfl⟩
      have hRest := ih (front ++ object.encode object.size) (by rwa [List.append_assoc])
      rw [List.append_assoc, List.length_append, hLength] at hRest
      rw [scan, if_neg (by omega), hRecord]
      dsimp only
      rw [nextEntryOffset_info, if_neg (by omega)]
      split
      · rename_i e hError
        cases hError.symm.trans hNext
      · rename_i found hFound
        cases hFound.symm.trans hNext
        rw [hRest, listing_cons object object.size (next :: rest)]

/-- The parser never panics and keeps to its budget; it reads back a chain of records but for
`.` and `..`; and a smaller budget gives a front part of the result. -/
theorem directory_buffers_parsed (machine : Machine) :
    (∀ (buffer : ByteSlice machine) (maxEntries : Nat),
      ∃ result, (parseDirectoryBuffer buffer maxEntries).run = some result ∧
        ∀ entries, result = .ok entries → entries.length ≤ maxEntries) ∧
    (∀ (objects : List DirObject) (hFits : (chain objects).length ≤ machine.isizeMax)
        (maxEntries : Nat),
      parseDirectoryBuffer ⟨chain objects, hFits⟩ maxEntries =
        pure ((listing objects).take maxEntries)) ∧
    ∀ (buffer : ByteSlice machine) (n k : Nat), k ≤ n → ∀ entries,
      parseDirectoryBuffer buffer n = pure entries →
        parseDirectoryBuffer buffer k = pure (entries.take k) := by
  have hParse (buffer : ByteSlice machine) (maxEntries : Nat) :
      parseDirectoryBuffer buffer maxEntries =
        Panicking.ofExcept (cut maxEntries (scan machine buffer.bytes 0)) := by
    rw [parseDirectoryBuffer, walkFrom_eq, outcome]
    cases cut maxEntries (scan machine buffer.bytes 0) <;> rfl
  refine ⟨fun buffer maxEntries => ?_, fun objects hFits maxEntries => ?_,
    fun buffer n k hLe entries h => ?_⟩
  · exact ⟨_, congrArg ExceptT.run (hParse buffer maxEntries), fun entries => cut_length_le⟩
  · have hScan := @scan_chain machine objects [] (hFits.trans (Nat.div_le_self _ _))
    rw [List.nil_append, List.length_nil] at hScan
    rw [hParse, hScan, cut_whole]
    rfl
  · rw [hParse, Panicking.ofExcept_eq_pure] at h ⊢
    exact cut_of_le hLe h

end

/-- A directory with one file. -/
def sampleObjects : List DirObject :=
  [⟨".", 0x10, 1, by decide⟩, ⟨"a.txt", 0x20, 7, by decide⟩]

theorem directory_buffers_parsed_file :
    ∃ hFits : (chain sampleObjects).length ≤ (Machine.mk (2 ^ 64 - 1) (by decide)).isizeMax,
      parseDirectoryBuffer ⟨chain sampleObjects, hFits⟩ 5 =
          pure [⟨"a.txt", .file, some 7, false⟩] ∧
        parseDirectoryBuffer ⟨chain sampleObjects, hFits⟩ 0 = pure [] := by
  have hFits : (chain sampleObjects).length ≤
      (Machine.mk (2 ^ 64 - 1) (by decide)).isizeMax := by
    rw [sampleObjects, chain, chain, List.length_append, length_encode, length_encode]
    decide
  have hParsed := directory_buffers_parsed (Machine.mk (2 ^ 64 - 1) (by decide))
  have hWhole := hParsed.2.1 sampleObjects hFits 5
  have hListing : (listing sampleObjects).take 5 = [⟨"a.txt", .file, some 7, false⟩] := by decide
  rw [hListing] at hWhole
  exact ⟨hFits, hWhole, hParsed.2.2 _ 5 0 (by decide) _ hWhole⟩

end Eggserve.Static.DirBuf
