import MiniSqlite.Transaction.WalRuns

/-!
# A log cut off by a crash

`wal_read_next` on the first bytes of a log that `wal_append` has written. It checks how
much of a record's header and sizes it has read and does not check this of the images:
`walReadNextInto` says what it returns where they end early. `delivers_iff` is the
behaviour at every cut.
-/

namespace MiniSqlite.Transaction

open MiniSqlite.Common MiniSqlite.Std

/-- An image of `wal_read_next`, where `allocated` are the bytes that a new allocation
holds. Those behind the end of the file keep what they were. -/
def readImageInto (allocated : UInt16 → List UInt8) (logFile : Stream) (size : UInt16) :
    Image × Stream :=
  let bytes := (logFile.read size.toNat).1
  (⟨(bytes ++ (allocated size).drop bytes.length).take size.toNat,
    Nat.lt_of_le_of_lt (List.length_take_le _ _) size.toNat_lt⟩, (logFile.read size.toNat).2)

/-- `wal_read_next`, also where the images end early. -/
def walReadNextInto (allocated : UInt16 → List UInt8) (wm : WalManager) :
    Except Fault (WalManager × Except ErrorCode WalRecord) := do
  let (buf, logFile) := wm.logFile.read 24
  if buf.length < 24 then .ok ({ wm with logFile }, .error .pageNotFound)
  else
    let (sizes, logFile) := logFile.read 4
    if sizes.length < 4 then .ok ({ wm with logFile }, .error .ioError)
    else
      let some type := WalRecordType.ofInt32? (Scalar.i32.item buf 3) | .error .indeterminate
      let (beforeImage, logFile) := readImageInto allocated logFile (Scalar.u16.item sizes 0)
      let (afterImage, logFile) := readImageInto allocated logFile (Scalar.u16.item sizes 1)
      .ok ({ wm with logFile }, .ok {
        lsn := Scalar.i32.item buf 0
        txnId := Scalar.i32.item buf 1
        prevLsn := Scalar.i32.item buf 2
        type
        length := 0
        pageId := Scalar.i32.item buf 4
        offset := (Scalar.i32.item buf 5).toInt16
        beforeImage
        afterImage })

/-- Calls of `wal_read_next` return these records with `DB_OK`, and then another code. -/
inductive Delivers (allocated : UInt16 → List UInt8) : WalManager → List WalRecord → Prop where
  | stop {wm after : WalManager} {rc : ErrorCode}
      (read : walReadNextInto allocated wm = .ok (after, .error rc)) : Delivers allocated wm []
  | next {wm after : WalManager} {record : WalRecord} {records : List WalRecord}
      (read : walReadNextInto allocated wm = .ok (after, .ok record))
      (rest : Delivers allocated after records) : Delivers allocated wm (record :: records)

/-- The records that are wholly contained in the first `cut` bytes of a log. -/
def wholeRecords : List WalRecord → (cut : Nat) → List WalRecord
  | [], _ => []
  | record :: records, cut =>
      if (encodeRecord record).length ≤ cut then
        record :: wholeRecords records (cut - (encodeRecord record).length)
      else []

/-- The log is cut behind the sizes of a record and before the end of its images. -/
def CutInImage : List WalRecord → (cut : Nat) → Prop
  | [], _ => False
  | record :: records, cut =>
      if (encodeRecord record).length ≤ cut then
        CutInImage records (cut - (encodeRecord record).length)
      else 28 ≤ cut

/-! ## Reading a header -/

variable {allocated : UInt16 → List UInt8}

/-- Where a whole image is left, nothing of the allocation is. -/
theorem readImageInto_of_readImage {logFile after : Stream} {size : UInt16} {image : Image}
    (read : readImage logFile size = .ok (image, after)) :
    readImageInto allocated logFile size = (image, after) := by
  unfold readImage at read
  split at read
  · rename_i present
    obtain ⟨rfl, rfl⟩ := Prod.mk.inj (Except.ok.inj read)
    have length : (logFile.read size.toNat).1.length = size.toNat := List.length_take_of_le present
    simp only [readImageInto, List.take_append_of_le_length (Nat.le_of_eq length.symm),
      List.take_of_length_le (Nat.le_of_eq length)]
  · cases read

/-- A read that meets no image cut short does not depend on the allocations. -/
theorem walReadNextInto_of_walReadNext {wm : WalManager}
    {result : WalManager × Except ErrorCode WalRecord} (read : walReadNext wm = .ok result) :
    walReadNextInto allocated wm = .ok result := by
  simp only [walReadNext] at read
  simp only [walReadNextInto]
  split at read
  · rename_i short
    rw [if_pos short]
    exact read
  · rename_i enough
    rw [if_neg enough]
    split at read
    · rename_i short
      rw [if_pos short]
      exact read
    · rename_i both
      rw [if_neg both]
      split at read
      · rename_i type known
        cases first : readImage ((wm.logFile.read 24).2.read 4).2
            (Scalar.u16.item ((wm.logFile.read 24).2.read 4).1 0) with
        | error fault => rw [first] at read; cases read
        | ok before =>
            rw [first] at read
            cases second : readImage before.2
                (Scalar.u16.item ((wm.logFile.read 24).2.read 4).1 1) with
            | error fault =>
                simp only [bind, Except.bind, second] at read
                cases read
            | ok after =>
                simp only [bind, Except.bind, second] at read
                simp only [known, readImageInto_of_readImage first,
                  readImageInto_of_readImage second]
                exact read
      · cases read

/-- The part of a record in front of its images. -/
def recordHeader (record : WalRecord) : List UInt8 :=
  Scalar.i32.encodeArray [record.lsn, record.txnId, record.prevLsn, record.type.toInt32,
      record.pageId, record.offset.toInt32] ++
    Scalar.u16.encodeArray [record.beforeImage.size, record.afterImage.size]

theorem recordHeader_length (record : WalRecord) : (recordHeader record).length = 28 := by
  simp only [recordHeader, List.length_append, Scalar.encodeArray_length, List.length_cons,
    List.length_nil, Scalar.i32_width, Scalar.u16_width]

theorem encodeRecord_eq (record : WalRecord) : encodeRecord record =
    recordHeader record ++ (record.beforeImage.bytes ++ record.afterImage.bytes) := by
  simp only [encodeRecord, recordHeader, List.append_assoc]

/-- With its header a record is delivered, whatever is left of its images. -/
theorem walReadNextInto_header (before images : List UInt8) (current flushed : Lsn)
    (record : WalRecord) : ∃ after delivered,
      walReadNextInto allocated ⟨⟨before, recordHeader record ++ images⟩, current, flushed⟩ =
        .ok (after, .ok delivered) := by
  have header := Scalar.encodeArray_length .i32 [record.lsn, record.txnId, record.prevLsn,
    record.type.toInt32, record.pageId, record.offset.toInt32]
  have sizes := Scalar.encodeArray_length .u16 [record.beforeImage.size, record.afterImage.size]
  have kind : Scalar.i32.item (Scalar.i32.encodeArray [record.lsn, record.txnId, record.prevLsn,
      record.type.toInt32, record.pageId, record.offset.toInt32]) 3 = record.type.toInt32 :=
    Scalar.item_encodeArray .i32 rfl
  simp only [List.length_cons, List.length_nil, Scalar.i32_width, Scalar.u16_width] at header sizes
  simp only [walReadNextInto, recordHeader, List.append_assoc, Stream.read_append header, header,
    Stream.read_append sizes, sizes, Nat.lt_irrefl, if_false, Nat.zero_add, kind,
    WalRecordType.ofInt32?_toInt32]
  exact ⟨_, _, rfl⟩

/-- Without its whole header a record is not delivered. -/
theorem walReadNextInto_short (before rest : List UInt8) (current flushed : Lsn)
    (short : rest.length < 28) : ∃ after rc,
      walReadNextInto allocated ⟨⟨before, rest⟩, current, flushed⟩ = .ok (after, .error rc) := by
  have lengths : ((Stream.mk before rest).read 24).1.length = min 24 rest.length :=
    List.length_take
  have rests : (((Stream.mk before rest).read 24).2.read 4).1.length =
      min 4 (rest.length - 24) := by
    rw [Stream.read, List.length_take]
    simp only [Stream.read, List.length_drop]
  simp only [walReadNextInto, lengths, rests]
  split
  · exact ⟨_, _, rfl⟩
  · rw [if_pos (by omega)]
    exact ⟨_, _, rfl⟩

/-! ## Cuts -/

theorem delivers_nil_iff {wm after : WalManager} {answer : Except ErrorCode WalRecord}
    (read : walReadNextInto allocated wm = .ok (after, answer)) :
    Delivers allocated wm [] ↔ ∃ rc, answer = .error rc := by
  constructor
  · rintro (⟨stopped⟩ | _)
    rw [read] at stopped
    exact ⟨_, (Prod.mk.inj (Except.ok.inj stopped)).2⟩
  · rintro ⟨rc, rfl⟩
    exact .stop read

theorem delivers_cons_iff {wm after : WalManager} {delivered record : WalRecord}
    {records : List WalRecord}
    (read : walReadNextInto allocated wm = .ok (after, .ok delivered)) :
    Delivers allocated wm (record :: records) ↔
      delivered = record ∧ Delivers allocated after records := by
  constructor
  · rintro (_ | ⟨other, rest⟩)
    rw [read] at other
    obtain ⟨rfl, same⟩ := Prod.mk.inj (Except.ok.inj other)
    exact ⟨Except.ok.inj same, rest⟩
  · rintro ⟨rfl, rest⟩
    exact .next read rest

/-- The whole records of a cut log are delivered and nothing else is, exactly where the cut
is not in an image and no record has a length, which is not written. -/
theorem delivers_iff (before : List UInt8) (current flushed : Lsn) (log : List WalRecord)
    (cut : Nat) :
    Delivers allocated ⟨⟨before, (encodeLog log).take cut⟩, current, flushed⟩
        (wholeRecords log cut) ↔
      ¬CutInImage log cut ∧ ∀ record ∈ wholeRecords log cut, record.length = 0 := by
  induction log generalizing before cut with
  | nil =>
      rw [encodeLog_nil, List.take_nil, wholeRecords]
      obtain ⟨after, rc, read⟩ := @walReadNextInto_short allocated before [] current flushed
        (by decide)
      exact iff_of_true (.stop read) ⟨not_false, by simp⟩
  | cons record rest ih =>
      rw [encodeLog_cons, wholeRecords, CutInImage]
      by_cases whole : (encodeRecord record).length ≤ cut
      · have read := @walReadNextInto_of_walReadNext allocated _ _
          (walReadNext_encodeRecord before
            ((encodeLog rest).take (cut - (encodeRecord record).length)) current flushed record)
        rw [if_pos whole, if_pos whole, List.take_append, List.take_of_length_le whole,
          delivers_cons_iff read, ih, List.forall_mem_cons, and_left_comm]
        refine and_congr_right fun _ => and_congr_left fun _ => ?_
        constructor
        · intro same
          rw [← same]
        · intro unset
          rw [← unset]
      · have partial_ := Nat.not_le.mp whole
        rw [if_neg whole, if_neg whole, List.take_append_of_le_length (Nat.le_of_lt partial_)]
        simp only [List.not_mem_nil, false_implies, implies_true, and_true, not_le]
        by_cases header : 28 ≤ cut
        · obtain ⟨after, delivered, read⟩ := @walReadNextInto_header allocated before
            ((record.beforeImage.bytes ++ record.afterImage.bytes).take (cut - 28)) current flushed
            record
          have bytes : (encodeRecord record).take cut = recordHeader record ++
              (record.beforeImage.bytes ++ record.afterImage.bytes).take (cut - 28) := by
            rw [encodeRecord_eq, List.take_append, recordHeader_length,
              List.take_of_length_le (by rw [recordHeader_length]; exact header)]
          rw [bytes, delivers_nil_iff read]
          exact iff_of_false (by simp) (Nat.not_lt.mpr header)
        · obtain ⟨after, rc, read⟩ := @walReadNextInto_short allocated before
            ((encodeRecord record).take cut) current flushed
            (by rw [List.length_take]; omega)
          rw [delivers_nil_iff read]
          exact iff_of_true ⟨rc, rfl⟩ (Nat.not_le.mp header)

/-! ## Logs of appends -/

/-- The log holds the records appended and its position is behind them. -/
structure WalSession.Appended (session : WalSession) : Prop where
  numbered : session.Numbered
  file : session.wm.logFile = ⟨encodeLog session.appended, []⟩

theorem WalSession.Appended.start (existing : List UInt8) : (WalSession.start existing).Appended :=
  ⟨.start existing, rfl⟩

theorem WalSession.Appended.append {session next : WalSession} (appended : session.Appended)
    {record : WalRecord} (called : session.call (.append record) = .ok next) : next.Appended := by
  by_cases left : session.wm.currentLsn = 2147483647
  · rw [WalSession.call, walAppend_overflow left] at called
    cases called
  · obtain rfl := Except.ok.inj ((appended.numbered.call_append left record).symm.trans called)
    refine ⟨appended.numbered.added left record, ?_⟩
    rw [WalSession.added, appended.file, Stream.write_end rfl]
    simp [Stream.bytes]

theorem WalSession.Appended.appends {session final : WalSession} (appended : session.Appended)
    {records : List WalRecord}
    (ran : execute WalSession.call session (records.map .append) = .ok final) : final.Appended := by
  induction records generalizing session with
  | nil => exact Except.ok.inj ran ▸ appended
  | cons record records ih =>
      rw [List.map_cons, execute] at ran
      cases called : session.call (.append record) with
      | error fault => rw [called] at ran; cases ran
      | ok next =>
          rw [called] at ran
          exact ih (appended.append called) ran

/-- The first bytes of a log of appended records are read back as the records that they
contain, exactly where they do not end in an image and these records have no length. -/
theorem tornLog_delivers_iff {existing : List UInt8} {records : List WalRecord}
    {session : WalSession}
    (ran : execute WalSession.call (.start existing) (records.map .append) = .ok session)
    {cut : Nat} {wm : WalManager}
    (torn : wm.logFile.bytes = session.wm.logFile.bytes.take cut) :
    Delivers allocated (walResetRead wm) (wholeRecords session.appended cut) ↔
      ¬CutInImage session.appended cut ∧
        ∀ record ∈ wholeRecords session.appended cut, record.length = 0 := by
  have file := ((WalSession.Appended.start existing).appends ran).file
  have whole : session.wm.logFile.bytes = encodeLog session.appended := by
    rw [file, Stream.bytes, List.append_nil]
  rw [walResetRead, Stream.rewind, torn, whole]
  exact delivers_iff [] wm.currentLsn wm.flushedLsn session.appended cut

/-- A record with an image of two bytes. -/
def imageRecord : WalRecord :=
  { WalRecord.zero with type := .insert, afterImage := ⟨[7, 8], by decide⟩ }

/-- The log with that record alone. -/
def imageLog : WalSession := (WalSession.start []).added imageRecord

theorem execute_imageLog :
    execute WalSession.call (.start []) ([imageRecord].map .append) = .ok imageLog := rfl

/-- That log without its last byte. -/
def tornImageLog : WalManager := ⟨⟨[], imageLog.wm.logFile.bytes.take 29⟩, 1, 0⟩

theorem tornLog_delivers_iff_imageLog :
    Delivers (fun _ => [1, 2]) (walResetRead tornImageLog) (wholeRecords imageLog.appended 29) ↔
      ¬CutInImage imageLog.appended 29 ∧
        ∀ record ∈ wholeRecords imageLog.appended 29, record.length = 0 :=
  tornLog_delivers_iff execute_imageLog rfl

/-- The record is delivered with a byte of the allocation in its image. -/
theorem tornImage_delivered :
    (¬ ∀ (allocated : UInt16 → List UInt8) (existing : List UInt8) (records : List WalRecord)
        (session : WalSession),
      execute WalSession.call (.start existing) (records.map .append) = .ok session →
      ∀ (cut : Nat) (wm : WalManager), wm.logFile.bytes = session.wm.logFile.bytes.take cut →
        Delivers allocated (walResetRead wm) (wholeRecords session.appended cut)) ∧
    ∃ after, walReadNextInto (fun _ => [1, 2]) (walResetRead tornImageLog) = .ok (after, .ok
      { imageRecord with lsn := 1, afterImage := ⟨[7, 2], by decide⟩ }) := by
  constructor
  · intro claimed
    have delivered := claimed (fun _ => [1, 2]) [] [imageRecord] imageLog execute_imageLog 29
      tornImageLog rfl
    have outside := ((delivers_iff [] 1 0 imageLog.appended 29).mp delivered).1
    refine outside (show CutInImage [{ imageRecord with lsn := 1 }] 29 from ?_)
    rw [CutInImage, if_neg (by decide)]
    decide
  · exact ⟨_, rfl⟩

end MiniSqlite.Transaction
