import MiniSqlite.Common.Config
import MiniSqlite.Common.Error
import MiniSqlite.Std.Bytes
import MiniSqlite.Std.Stream

/-!
# The write-ahead log

`transaction/wal_manager.c`. The log is a file with one position that the writer
and the reader share. A record is a fixed header followed by its two images;
`walReadNext_encodeRecord` reads back what `walAppend_end` has written at the
end of the file, and `walReadAll_encodeLog` a whole log.

Null arguments and I/O failure are left out, and the path of the log as well.
-/

namespace MiniSqlite.Transaction

open MiniSqlite.Common MiniSqlite.Std

/-- `lsn_t`. -/
abbrev Lsn := Int32

/-- `wal_record_type_t`. -/
inductive WalRecordType where
  | begin
  | commit
  | abort
  | update
  | delete
  | insert
  | checkpoint
  | clr
  deriving DecidableEq, Repr

/-- The enumerator's value, as a record stores it. -/
def WalRecordType.toInt32 : WalRecordType → Int32
  | .begin => 0
  | .commit => 1
  | .abort => 2
  | .update => 3
  | .delete => 4
  | .insert => 5
  | .checkpoint => 6
  | .clr => 7

/-- The enumerator with a given value. -/
def WalRecordType.ofInt32? (value : Int32) : Option WalRecordType :=
  [.begin, .commit, .abort, .update, .delete, .insert, .checkpoint, .clr].find? fun type =>
    type.toInt32 = value

@[simp] theorem WalRecordType.ofInt32?_toInt32 (type : WalRecordType) :
    ofInt32? type.toInt32 = some type := by
  cases type <;> rfl

/-- An image together with its `uint16_t` size. One of size 0 stands for a null
pointer as well. -/
structure Image where
  bytes : List UInt8
  size_lt : bytes.length < 65536
  deriving DecidableEq, Repr

namespace Image

/-- No image. -/
def none : Image := ⟨[], by decide⟩

def size (image : Image) : UInt16 := .ofNat image.bytes.length

@[simp] theorem size_toNat (image : Image) : image.size.toNat = image.bytes.length := by
  simp [size, UInt16.toNat_ofNat', Nat.mod_eq_of_lt image.size_lt]

end Image

/-- `wal_record_t`. -/
structure WalRecord where
  lsn : Lsn
  txnId : Int32
  prevLsn : Lsn
  type : WalRecordType
  length : UInt32
  pageId : PageId
  offset : Int16
  beforeImage : Image
  afterImage : Image
  deriving DecidableEq, Repr

/-- A record after `memset` to zero. -/
def WalRecord.zero : WalRecord where
  lsn := 0
  txnId := 0
  prevLsn := 0
  type := .begin
  length := 0
  pageId := 0
  offset := 0
  beforeImage := .none
  afterImage := .none

/-- `wal_manager_t`. -/
structure WalManager where
  logFile : Stream
  currentLsn : Lsn
  flushedLsn : Lsn
  deriving DecidableEq, Repr

/-- `wal_manager_init` on a path where a file with the given bytes exists. The
mode `wb+` truncates it. -/
def walManagerInit (_existing : List UInt8) : WalManager := ⟨.empty, 1, 0⟩

/-! ## The operations -/

/-- `wal_append`. -/
def walAppend (wm : WalManager) (record : WalRecord) : Except Fault (WalManager × Lsn) :=
  if wm.currentLsn = 2147483647 then .error .overflow
  else
    let lsn := wm.currentLsn
    let buf := [lsn, record.txnId, record.prevLsn, record.type.toInt32, record.pageId,
      record.offset.toInt32]
    let sizes := [record.beforeImage.size, record.afterImage.size]
    let logFile := wm.logFile.write (Scalar.i32.encodeArray buf)
    let logFile := logFile.write (Scalar.u16.encodeArray sizes)
    let logFile := logFile.write record.beforeImage.bytes
    let logFile := logFile.write record.afterImage.bytes
    .ok ({ wm with logFile, currentLsn := lsn + 1 }, lsn)

/-- `wal_flush`. -/
def walFlush (wm : WalManager) (upToLsn : Lsn) : WalManager :=
  { wm with flushedLsn := if upToLsn > wm.flushedLsn then upToLsn else wm.flushedLsn }

/-- `wal_reset_read`. -/
def walResetRead (wm : WalManager) : WalManager := { wm with logFile := wm.logFile.rewind }

/-- One image of `wal_read_next`. A file that ends too early leaves the rest of the
allocated bytes unwritten. -/
def readImage (logFile : Stream) (size : UInt16) : Except Fault (Image × Stream) :=
  if size.toNat ≤ logFile.rest.length then
    .ok (⟨(logFile.read size.toNat).1, Nat.lt_of_le_of_lt (List.length_take_le _ _)
      size.toNat_lt⟩, (logFile.read size.toNat).2)
  else .error .indeterminate

/-- `wal_read_next`. -/
def walReadNext (wm : WalManager) : Except Fault (WalManager × Except ErrorCode WalRecord) := do
  let (buf, logFile) := wm.logFile.read 24
  if buf.length < 24 then .ok ({ wm with logFile }, .error .pageNotFound)
  else
    let (sizes, logFile) := logFile.read 4
    if sizes.length < 4 then .ok ({ wm with logFile }, .error .ioError)
    else
      let some type := WalRecordType.ofInt32? (Scalar.i32.item buf 3) | .error .indeterminate
      let (beforeImage, logFile) ← readImage logFile (Scalar.u16.item sizes 0)
      let (afterImage, logFile) ← readImage logFile (Scalar.u16.item sizes 1)
      .ok ({ wm with logFile }, .ok {
        lsn := Scalar.i32.item buf 0
        txnId := Scalar.i32.item buf 1
        prevLsn := Scalar.i32.item buf 2
        type
        length := 0
        pageId := Scalar.i32.item buf 4
        offset := (Scalar.i32.item buf 5).toInt16
        beforeImage
        afterImage })

/-- Calls `wal_read_next` while it returns `DB_OK`. -/
def readWhileOk : (turns : Nat) → WalManager → Except Fault (WalManager × List WalRecord)
  | 0, _ => .error .unending
  | turns + 1, wm => do
      match ← walReadNext wm with
      | (wm, .error _) => .ok (wm, [])
      | (wm, .ok record) =>
          let (wm, records) ← readWhileOk turns wm
          .ok (wm, record :: records)

/-- Reads from the current position to the end of the log. Every record takes at
least one byte. -/
def walReadAll (wm : WalManager) : Except Fault (WalManager × List WalRecord) :=
  readWhileOk (wm.logFile.bytes.length + 1) wm

/-! ## The encoding -/

/-- The bytes of a record, its own LSN included. -/
def encodeRecord (record : WalRecord) : List UInt8 :=
  Scalar.i32.encodeArray [record.lsn, record.txnId, record.prevLsn, record.type.toInt32,
      record.pageId, record.offset.toInt32] ++
    Scalar.u16.encodeArray [record.beforeImage.size, record.afterImage.size] ++
    record.beforeImage.bytes ++ record.afterImage.bytes

/-- The bytes of a log. -/
def encodeLog (records : List WalRecord) : List UInt8 := records.flatMap encodeRecord

@[simp] theorem encodeLog_nil : encodeLog [] = [] := rfl

@[simp] theorem encodeLog_cons (record : WalRecord) (records : List WalRecord) :
    encodeLog (record :: records) = encodeRecord record ++ encodeLog records := rfl

@[simp] theorem encodeLog_append (first second : List WalRecord) :
    encodeLog (first ++ second) = encodeLog first ++ encodeLog second := List.flatMap_append

theorem encodeRecord_length (record : WalRecord) : (encodeRecord record).length =
    28 + record.beforeImage.bytes.length + record.afterImage.bytes.length := by
  simp only [encodeRecord, List.length_append, Scalar.encodeArray_length, List.length_cons,
    List.length_nil, Scalar.i32_width, Scalar.u16_width]

/-- A record starts with its LSN. -/
theorem encodeRecord_take (record : WalRecord) (rest : List UInt8) :
    (encodeRecord record ++ rest).take 4 = Scalar.i32.encode record.lsn := by
  have width : (Scalar.i32.encode record.lsn).length = 4 := Scalar.encode_length .i32 record.lsn
  simp only [encodeRecord, Scalar.encodeArray, List.flatMap_cons, List.append_assoc]
  rw [List.take_append_of_le_length (Nat.le_of_eq width.symm), List.take_of_length_le
    (Nat.le_of_eq width)]

theorem length_le_encodeLog (records : List WalRecord) :
    records.length ≤ (encodeLog records).length := by
  induction records with
  | nil => simp
  | cons record rest ih =>
      have width := encodeRecord_length record
      simp only [encodeLog_cons, List.length_append, List.length_cons]
      omega

/-- An append writes the record with the current LSN at the position. -/
theorem walAppend_write {wm : WalManager} (left : wm.currentLsn ≠ 2147483647)
    (record : WalRecord) :
    walAppend wm record = .ok ({ wm with
      logFile := wm.logFile.write (encodeRecord { record with lsn := wm.currentLsn })
      currentLsn := wm.currentLsn + 1 }, wm.currentLsn) := by
  simp only [walAppend, if_neg left, Stream.write_write, encodeRecord, List.append_assoc]

theorem walAppend_overflow {wm : WalManager} (last : wm.currentLsn = 2147483647)
    (record : WalRecord) : walAppend wm record = .error .overflow := by
  simp [walAppend, last]

theorem readImage_bytes (before rest : List UInt8) (image : Image) :
    readImage ⟨before, image.bytes ++ rest⟩ image.size =
      .ok (image, ⟨before ++ image.bytes, rest⟩) := by
  have present : image.size.toNat ≤ (image.bytes ++ rest).length := by simp
  simp only [readImage, if_pos present, Stream.read_append image.size_toNat.symm]

/-- A record is read back from its bytes, all but the length field, which is not written. -/
theorem walReadNext_encodeRecord (before rest : List UInt8) (current flushed : Lsn)
    (record : WalRecord) :
    walReadNext ⟨⟨before, encodeRecord record ++ rest⟩, current, flushed⟩ =
      .ok (⟨⟨before ++ encodeRecord record, rest⟩, current, flushed⟩,
        .ok { record with length := 0 }) := by
  have header := Scalar.encodeArray_length .i32 [record.lsn, record.txnId, record.prevLsn,
    record.type.toInt32, record.pageId, record.offset.toInt32]
  have sizes := Scalar.encodeArray_length .u16 [record.beforeImage.size, record.afterImage.size]
  simp only [List.length_cons, List.length_nil, Scalar.i32_width, Scalar.u16_width] at header sizes
  simp only [walReadNext, encodeRecord, List.append_assoc, Stream.read_append header, header,
    Stream.read_append sizes, sizes, Nat.lt_irrefl, if_false, Nat.zero_add]
  generalize words : Scalar.i32.encodeArray [record.lsn, record.txnId, record.prevLsn,
    record.type.toInt32, record.pageId, record.offset.toInt32] = buf
  generalize halves : Scalar.u16.encodeArray [record.beforeImage.size, record.afterImage.size] =
    lengths
  have word : ∀ i value, [record.lsn, record.txnId, record.prevLsn, record.type.toInt32,
      record.pageId, record.offset.toInt32][i]? = some value → Scalar.i32.item buf i = value := by
    rintro i value present
    exact words ▸ Scalar.item_encodeArray .i32 present
  have half : ∀ i value, [record.beforeImage.size, record.afterImage.size][i]? = some value →
      Scalar.u16.item lengths i = value := by
    rintro i value present
    exact halves ▸ Scalar.item_encodeArray .u16 present
  simp only [word 3 _ rfl, half 0 _ rfl, half 1 _ rfl, WalRecordType.ofInt32?_toInt32,
    readImage_bytes, bind, Except.bind]
  simp only [word 0 _ rfl, word 1 _ rfl, word 2 _ rfl, word 4 _ rfl, word 5 _ rfl,
    Int16.toInt16_toInt32, List.append_assoc]

theorem walReadNext_end (before : List UInt8) (current flushed : Lsn) :
    walReadNext ⟨⟨before, []⟩, current, flushed⟩ =
      .ok (⟨⟨before, []⟩, current, flushed⟩, .error .pageNotFound) := by
  simp [walReadNext, Stream.read]

theorem readWhileOk_encodeLog (before : List UInt8) (current flushed : Lsn)
    (records : List WalRecord) {turns : Nat} (enough : records.length < turns) :
    readWhileOk turns ⟨⟨before, encodeLog records⟩, current, flushed⟩ =
      .ok (⟨⟨before ++ encodeLog records, []⟩, current, flushed⟩,
        records.map fun record => { record with length := 0 }) := by
  induction records generalizing before turns with
  | nil =>
      obtain ⟨turns, rfl⟩ := Nat.exists_eq_add_one_of_ne_zero (Nat.ne_zero_of_lt enough)
      simp only [readWhileOk, encodeLog_nil, walReadNext_end, bind, Except.bind,
        List.append_nil, List.map_nil]
  | cons record rest ih =>
      obtain ⟨turns, rfl⟩ := Nat.exists_eq_add_one_of_ne_zero (Nat.ne_zero_of_lt enough)
      have left : rest.length < turns := Nat.lt_of_succ_lt_succ enough
      simp only [readWhileOk, encodeLog_cons, walReadNext_encodeRecord, bind, Except.bind,
        ih _ left, List.append_assoc, List.map_cons]

/-- A log is read back from its bytes, and the position is then at its end. -/
theorem walReadAll_encodeLog (wm : WalManager) {records : List WalRecord}
    (holds : wm.logFile.bytes = encodeLog records) :
    walReadAll (walResetRead wm) = .ok ({ wm with logFile := ⟨wm.logFile.bytes, []⟩ },
      records.map fun record => { record with length := 0 }) := by
  have enough : records.length < wm.logFile.bytes.length + 1 := by
    rw [holds]
    exact Nat.lt_succ_of_le (length_le_encodeLog records)
  have read := readWhileOk_encodeLog [] wm.currentLsn wm.flushedLsn records enough
  rw [← holds] at read
  exact read

end MiniSqlite.Transaction
