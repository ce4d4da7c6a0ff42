import AdkAaf.Recorder.RecordFormat

/-! Both readers of the data file invert its writer. -/

set_option autoImplicit false

namespace AdkAaf.Recorder

open Lib.LittleEndian Option List

variable {buffer : List UInt8}

theorem sumWords_append (aligned : 8 ∣ buffer.length) (rest : List UInt8) :
    sumWords (buffer ++ rest) = sumWords buffer + sumWords rest := by
  fun_induction sumWords buffer with
  | case1 b0 b1 b2 b3 b4 b5 b6 b7 more ih =>
    have shorter : 8 ∣ more.length := by
      simp only [length_cons] at aligned
      omega
    simp [cons_append, sumWords, ih shorter, UInt64.add_assoc]
  | case2 bytes short =>
    -- fewer than eight bytes and a multiple of eight
    match bytes with
    | [] => simp
    | [_] | [_, _] | [_, _, _] | [_, _, _, _] | [_, _, _, _, _] | [_, _, _, _, _, _]
    | [_, _, _, _, _, _, _] =>
      simp only [length_cons, length_nil] at aligned
      omega
    | b0 :: b1 :: b2 :: b3 :: b4 :: b5 :: b6 :: b7 :: more =>
      exact absurd rfl (short b0 b1 b2 b3 b4 b5 b6 b7 more)

theorem calCheckSum_append (aligned : 8 ∣ buffer.length) (rest : List UInt8) (rem : UInt32) :
    calCheckSum (buffer ++ rest) rem = calCheckSum rest (calCheckSum buffer rem) := by
  simp only [calCheckSum, sumWords_append aligned, UInt64.toUInt32_add, UInt32.toUInt32_toUInt64]
  rw [UInt32.add_comm (sumWords buffer).toUInt32, UInt32.add_assoc]

section Records

variable {sizes : Sizes}

variable (tag : Tag) (record : MsgRecord sizes)

def idBytes : List UInt8 :=
  match tag with
  | .rx => encode32 record.endpointId ++ encode32 record.transportId
  | .tx => []

def sqnBytes : List UInt8 :=
  encode64 record.streamSqn ++ encode64 record.topicSqn

def appBytes : List UInt8 :=
  sqnBytes record ++ (encode32 record.appDataLen ++ (record.msgHeader ++
    (record.exMsgHeader.bytes ++ record.appData)))

def idCrc : UInt32 :=
  match tag with
  | .rx => calCheckSum (encode32 record.transportId) (calCheckSum (encode32 record.endpointId) 0)
  | .tx => 0

def appCrc (crc : UInt32) : UInt32 :=
  calCheckSum (record.msgHeader ++ record.appData)
    (calCheckSum (encode32 record.appDataLen) (calCheckSum (sqnBytes record) crc))

def crcBytes (useCrc : Bool) (record : MsgRecord sizes) : List UInt8 :=
  if useCrc then encode32 (appCrc record (idCrc tag record)) else []

def recordBytes (useCrc : Bool) (record : MsgRecord sizes) : List UInt8 :=
  idBytes tag record ++ (appBytes record ++ crcBytes tag useCrc record)

/-- The message a reader delivers for a record; without the ids in the file it leaves
those of its message as they are. -/
def delivered (message : AmiMessage) : AmiMessage :=
  let filled := { message with
    streamSqn := record.streamSqn
    topicSqn := record.topicSqn
    appDataLen := record.appDataLen
    msgHeader := record.msgHeader
    appData := record.appData }.setExMsgHeader record.exMsgHeader
  match tag with
  | .rx => { filled with endpointId := record.endpointId, transportId := record.transportId }
  | .tx => filled

@[simp] theorem length_sqnBytes : (sqnBytes record).length = 16 := by
  simp [sqnBytes]

@[simp] theorem ExMessageHeader.length_bytes (header : ExMessageHeader) :
    header.bytes.length = ExMessageHeader.size := by
  simp [ExMessageHeader.bytes, ExMessageHeader.size]

theorem length_appBytes : (appBytes record).length =
      8 + 8 + 4 + sizes.messageHeader + ExMessageHeader.size + record.appDataLen.toNat := by
  simp only [appBytes, length_append, length_sqnBytes, length_encode32, record.headerLength,
    ExMessageHeader.length_bytes, record.dataLength]
  omega

theorem length_recordBytes (useCrc : Bool) (record : MsgRecord sizes) :
    (recordBytes tag useCrc record).length =
      (if useCrc then Writer.getMessageFixLen sizes tag + record.appDataLen.toNat + 4
      else Writer.getMessageFixLen sizes tag + record.appDataLen.toNat) := by
  have app := length_appBytes record
  cases tag with
  | rx =>
    cases useCrc with
    | false =>
      simp only [recordBytes, idBytes, crcBytes, Writer.getMessageFixLen, length_append,
        length_encode32, app, Bool.false_eq_true, ↓reduceIte, length_nil]
      omega
    | true =>
      simp only [recordBytes, idBytes, crcBytes, Writer.getMessageFixLen, length_append,
        length_encode32, app, ↓reduceIte]
      omega
  | tx =>
    cases useCrc with
    | false =>
      simp only [recordBytes, idBytes, crcBytes, Writer.getMessageFixLen, length_append,
        app, Bool.false_eq_true, ↓reduceIte, length_nil]
      omega
    | true =>
      simp only [recordBytes, idBytes, crcBytes, Writer.getMessageFixLen, length_append,
        length_encode32, app, ↓reduceIte, length_nil]
      omega

theorem ExMessageHeader.ofBytes_bytes (header : ExMessageHeader) :
    ExMessageHeader.ofBytes header.bytes = header := by
  simp [ExMessageHeader.ofBytes, ExMessageHeader.bytes, drop_append, drop_eq_nil_of_le,
    take_of_length_le]

end Records

section Writing

variable {sizes : Sizes}

theorem addCrc_true (writer : Writer) (bytes : List UInt8) :
    writer.addCrc true bytes = { writer with crc := calCheckSum bytes writer.crc } := rfl

theorem addCrc_false (writer : Writer) (bytes : List UInt8) : writer.addCrc false bytes = writer :=
  rfl

variable {record : MsgRecord sizes}

theorem writeAppMsg_eq (writer : Writer) (useCrc : Bool)
    (accepted : record.appDataLen.toNat ≤ sizes.maxMessageSize) :
    writer.writeAppMsg useCrc record = some { writer with
      output := writer.output ++ appBytes record
      crc := if useCrc then appCrc record writer.crc else writer.crc } := by
  have aligned : 8 ∣ record.msgHeader.length := record.headerLength ▸ sizes.aligned
  cases useCrc with
  | false =>
    simp [Writer.writeAppMsg, if_neg (Nat.not_lt.mpr accepted), addCrc_false, Writer.sputn,
      appBytes, sqnBytes, append_assoc, Bool.false_eq_true, ↓reduceIte]
  | true =>
    simp [Writer.writeAppMsg, if_neg (Nat.not_lt.mpr accepted), addCrc_true, Writer.sputn,
      appBytes, sqnBytes, appCrc, calCheckSum_append aligned, append_assoc, ↓reduceIte]

theorem writeMessage_eq (writer : Writer) (tag : Tag) (useCrc : Bool)
    (accepted : record.appDataLen.toNat ≤ sizes.maxMessageSize) :
    ∃ crc, writer.writeMessage tag useCrc record = some {
      output := writer.output ++ recordBytes tag useCrc record
      crc
      curMsgdataFilepos :=
        writer.curMsgdataFilepos + (recordBytes tag useCrc record).length } := by
  rw [length_recordBytes]
  cases tag with
  | rx =>
    cases useCrc with
    | false =>
      refine ⟨writer.crc, ?_⟩
      simp [Writer.writeMessage, writeAppMsg_eq _ _ accepted, map_some,
        Writer.writeMsgEndpointId, Writer.writeMsgTransportId, addCrc_false, Writer.sputn,
        recordBytes, idBytes, crcBytes, append_assoc, Bool.false_eq_true, ↓reduceIte,
        append_nil]
    | true =>
      refine ⟨appCrc record (idCrc .rx record), ?_⟩
      simp [Writer.writeMessage, writeAppMsg_eq _ _ accepted, map_some,
        Writer.writeMsgEndpointId, Writer.writeMsgTransportId, addCrc_true, Writer.sputn,
        recordBytes, idBytes, crcBytes, idCrc, append_assoc, ↓reduceIte]
  | tx =>
    cases useCrc with
    | false =>
      refine ⟨writer.crc, ?_⟩
      simp [Writer.writeMessage, writeAppMsg_eq _ _ accepted, map_some,
        recordBytes, idBytes, crcBytes, Bool.false_eq_true, ↓reduceIte, append_nil,
        nil_append]
    | true =>
      refine ⟨appCrc record (idCrc .tx record), ?_⟩
      simp [Writer.writeMessage, writeAppMsg_eq _ _ accepted, map_some,
        Writer.sputn, recordBytes, idBytes, crcBytes, idCrc, append_assoc, ↓reduceIte,
        nil_append]

variable {writer : Writer} {tag : Tag} {useCrc : Bool}

theorem accepted_of_writeMessage {next : Writer}
    (written : writer.writeMessage tag useCrc record = some next) :
    record.appDataLen.toNat ≤ sizes.maxMessageSize := by
  apply Nat.le_of_not_lt
  intro past
  simp only [Writer.writeMessage, Writer.writeAppMsg, if_pos past, map_none] at written
  cases written

def positionsFrom (tag : Tag) (useCrc : Bool) : Nat → List (MsgRecord sizes) → List Nat
  | _, [] => []
  | position, record :: rest =>
    position :: positionsFrom tag useCrc (position + (recordBytes tag useCrc record).length) rest

theorem writeMessages_eq {final : Writer} {records : List (MsgRecord sizes)} {positions : List Nat}
    (written : writer.writeMessages tag useCrc records = some (final, positions)) :
    (∀ record ∈ records, record.appDataLen.toNat ≤ sizes.maxMessageSize) ∧
      final.output = writer.output ++ (records.map (recordBytes tag useCrc)).flatten ∧
      positions = positionsFrom tag useCrc writer.curMsgdataFilepos records := by
  induction records generalizing writer positions with
  | nil =>
    cases written
    refine ⟨?_, ?_, rfl⟩
    · nofun
    · exact (append_nil _).symm
  | cons record rest ih =>
    obtain ⟨next, once, more⟩ := bind_eq_some_iff.mp written
    obtain ⟨⟨last, later⟩, ran, same⟩ := map_eq_some_iff.mp more
    have accepted := accepted_of_writeMessage once
    obtain ⟨crc, wrote⟩ := writeMessage_eq writer tag useCrc accepted
    rw [wrote] at once
    cases once
    cases same
    obtain ⟨acceptedRest, output, behind⟩ := ih ran
    refine ⟨?_, ?_, ?_⟩
    · intro other mem
      cases mem_cons.mp mem with
      | inl first => exact first ▸ accepted
      | inr tail => exact acceptedRest other tail
    · rw [output, map_cons, flatten_cons, append_assoc]
    · rw [behind, positionsFrom]

end Writing

section Streams

variable {sizes : Sizes}

theorem bind_ok {Value Result : Type} (value : Value) (next : Value → Except Failure Result) :
    (Except.ok value >>= next) = next value := rfl

theorem sgetn_append {bytes : List UInt8} {count : Nat} (length : bytes.length = count)
    (rest : List UInt8) (crc : UInt32) (message : AmiMessage) :
    RecordReader.sgetn ⟨bytes ++ rest, crc, message⟩ count = .ok (bytes, ⟨rest, crc, message⟩) := by
  subst length
  simp [RecordReader.sgetn]

variable (mode : CrcMode)

theorem addMessage_delivered (record : MsgRecord sizes) (message : AmiMessage) (crc : UInt32) :
    mode.addMessage (delivered .tx record message) crc =
      if mode.isCheckCrc && mode.fileCrc then appCrc record crc else crc := rfl

variable {record : MsgRecord sizes}

theorem readAppMsg_append (accepted : record.appDataLen.toNat ≤ sizes.maxMessageSize)
    (fits : record.appDataLen.toNat ≤ sizes.room) (rest : List UInt8) (crc : UInt32)
    (message : AmiMessage) :
    RecordReader.readAppMsg sizes mode ⟨appBytes record ++ rest, crc, message⟩ =
      .ok ⟨rest, mode.addMessage (delivered .tx record message) crc,
        delivered .tx record message⟩ := by
  have first : (sqnBytes record).take 8 = encode64 record.streamSqn := by simp [sqnBytes]
  have second : (sqnBytes record).drop 8 = encode64 record.topicSqn := by simp [sqnBytes]
  simp only [RecordReader.readAppMsg, appBytes, append_assoc,
    sgetn_append (length_sqnBytes record), sgetn_append (length_encode32 _),
    sgetn_append record.headerLength, sgetn_append (ExMessageHeader.length_bytes _),
    sgetn_append record.dataLength, bind_ok, decode32_encode32,
    if_neg (Nat.not_lt.mpr accepted), if_neg (Nat.not_lt.mpr fits), first, second,
    decode64_encode64, ExMessageHeader.ofBytes_bytes]
  rfl

theorem checkFileCrc_append {expected crc : UInt32}
    (same : mode.isCheckCrc = true → mode.fileCrc = true → crc = expected) (rest : List UInt8)
    (message : AmiMessage) : ∃ next, RecordReader.checkFileCrc mode
      ⟨(if mode.fileCrc then encode32 expected else []) ++ rest, crc, message⟩ =
        .ok ⟨rest, next, message⟩ := by
  obtain ⟨fileCrc, isCheckCrc⟩ := mode
  cases fileCrc with
  | false => exact ⟨crc, rfl⟩
  | true =>
    cases isCheckCrc with
    | false =>
      refine ⟨crc, ?_⟩
      rfl
    | true =>
      refine ⟨0, ?_⟩
      have equal : crc = expected := same rfl rfl
      simp only [RecordReader.checkFileCrc, RecordReader.checkCrc, ↓reduceIte,
        sgetn_append (length_encode32 _), bind_ok, Bool.not_true, Bool.false_eq_true,
        decode32_encode32, equal, ne_eq, not_true_eq_false]
      rfl

theorem readMsgEndpointId_append (id : UInt32) (rest : List UInt8) (crc : UInt32)
    (message : AmiMessage) :
    RecordReader.readMsgEndpointId mode ⟨encode32 id ++ rest, crc, message⟩ =
      .ok ⟨rest, mode.addId id crc, { message with endpointId := id }⟩ := by
  simp only [RecordReader.readMsgEndpointId, sgetn_append (length_encode32 _), bind_ok,
    decode32_encode32]
  rfl

theorem readMsgTransportId_append (id : UInt32) (rest : List UInt8) (crc : UInt32)
    (message : AmiMessage) :
    RecordReader.readMsgTransportId mode ⟨encode32 id ++ rest, crc, message⟩ =
      .ok ⟨rest, mode.addId id crc, { message with transportId := id }⟩ := by
  simp only [RecordReader.readMsgTransportId, sgetn_append (length_encode32 _), bind_ok,
    decode32_encode32]
  rfl

theorem readNextMessage_append (tag : Tag) (useCrc isCheckCrc : Bool)
    (accepted : record.appDataLen.toNat ≤ sizes.maxMessageSize)
    (fits : record.appDataLen.toNat ≤ sizes.room) (rest : List UInt8) (crc : UInt32)
    (message : AmiMessage) : ∃ next, RecordReader.readNextMessage sizes ⟨useCrc, isCheckCrc⟩
      ⟨recordBytes tag useCrc record ++ rest, crc, message⟩ tag =
        .ok ⟨rest, next, delivered tag record message⟩ := by
  cases tag with
  | rx =>
    have begins : (if useCrc then
        ({ input := recordBytes .rx useCrc record ++ rest, crc := 0, message } : RecordReader)
        else ⟨recordBytes .rx useCrc record ++ rest, crc, message⟩) =
        ⟨encode32 record.endpointId ++ (encode32 record.transportId ++ (appBytes record ++
          (crcBytes .rx useCrc record ++ rest))), if useCrc then 0 else crc, message⟩ := by
      simp only [recordBytes, idBytes, append_assoc]
      split <;> rfl
    simp only [RecordReader.readNextMessage]
    rw [begins, readMsgEndpointId_append, bind_ok, readMsgTransportId_append, bind_ok,
      readAppMsg_append _ accepted fits, bind_ok]
    refine checkFileCrc_append ⟨useCrc, isCheckCrc⟩ ?_ rest _
    intro checked file
    subst checked file
    rfl
  | tx =>
    have begins : (if isCheckCrc && useCrc then
        ({ input := recordBytes .tx useCrc record ++ rest, crc := 0, message } : RecordReader)
        else ⟨recordBytes .tx useCrc record ++ rest, crc, message⟩) =
        ⟨appBytes record ++ (crcBytes .tx useCrc record ++ rest),
          if isCheckCrc && useCrc then 0 else crc, message⟩ := by
      simp only [recordBytes, idBytes, append_assoc, nil_append]
      split <;> rfl
    simp only [RecordReader.readNextMessage]
    rw [begins, readAppMsg_append _ accepted fits, bind_ok]
    refine checkFileCrc_append ⟨useCrc, isCheckCrc⟩ ?_ rest _
    intro checked file
    subst checked file
    rfl

/-- What the callback gets for each record; the message is filled again and again. -/
def deliveries (tag : Tag) : AmiMessage → List (MsgRecord sizes) → List AmiMessage
  | _, [] => []
  | message, record :: rest =>
    delivered tag record message :: deliveries tag (delivered tag record message) rest

theorem readMessages_append (tag : Tag) (useCrc isCheckCrc : Bool)
    {records : List (MsgRecord sizes)}
    (accepted : ∀ record ∈ records, record.appDataLen.toNat ≤ sizes.maxMessageSize)
    (fits : ∀ record ∈ records, record.appDataLen.toNat ≤ sizes.room) (rest : List UInt8)
    (crc : UInt32) (message : AmiMessage) :
    ∃ next last, RecordReader.readMessages sizes ⟨useCrc, isCheckCrc⟩ tag records.length
      ⟨(records.map (recordBytes tag useCrc)).flatten ++ rest, crc, message⟩ =
        .ok (deliveries tag message records, ⟨rest, next, last⟩) := by
  induction records generalizing crc message with
  | nil => exact ⟨crc, message, rfl⟩
  | cons record more ih =>
    obtain ⟨middle, read⟩ := readNextMessage_append tag useCrc isCheckCrc
      (accepted record mem_cons_self) (fits record mem_cons_self)
      ((more.map (recordBytes tag useCrc)).flatten ++ rest) crc message
    obtain ⟨next, last, reads⟩ := ih
      (fun other mem => accepted other (mem_cons_of_mem _ mem))
      (fun other mem => fits other (mem_cons_of_mem _ mem)) middle
      (delivered tag record message)
    refine ⟨next, last, ?_⟩
    rw [map_cons, flatten_cons, append_assoc, length_cons,
      RecordReader.readMessages, read, bind_ok, reads, bind_ok]
    rfl

end Streams

section Positions

open RecordDataTracker

variable {sizes : Sizes} {file : List UInt8}

variable {offset count : Nat} {bytes rest : List UInt8}

theorem pread64_append (behind : file.drop offset = bytes ++ rest) (length : bytes.length = count) :
    pread64 file count offset = .ok bytes := by
  subst length
  simp [pread64, behind]

variable {id : UInt32}
variable (tag : Tag) (mode : CrcMode)
variable {record : MsgRecord sizes}

section

variable (crc : UInt32) (message : AmiMessage)
include crc message

theorem next_append (behind : file.drop offset = bytes ++ rest) (length : bytes.length = count) :
    Cursor.next file count ⟨offset, crc, message⟩ = .ok (bytes, ⟨offset + count, crc, message⟩) ∧
      file.drop (offset + count) = rest := by
  constructor
  · simp only [Cursor.next, pread64_append behind length, bind_ok]
    rfl
  · rw [← drop_drop, behind, ← length, drop_left]

theorem readEndPointId_append (behind : file.drop offset = encode32 id ++ rest) :
    readEndPointId file mode ⟨offset, crc, message⟩ =
        .ok ⟨offset + 4, mode.addId id crc, { message with endpointId := id }⟩ ∧
      file.drop (offset + 4) = rest := by
  obtain ⟨read, after⟩ := next_append crc message behind (length_encode32 id)
  refine ⟨?_, after⟩
  simp only [readEndPointId, read, bind_ok, decode32_encode32]
  rfl

theorem readTransportId_append (behind : file.drop offset = encode32 id ++ rest) :
    readTransportId file mode ⟨offset, crc, message⟩ =
        .ok ⟨offset + 4, mode.addId id crc, { message with transportId := id }⟩ ∧
      file.drop (offset + 4) = rest := by
  obtain ⟨read, after⟩ := next_append crc message behind (length_encode32 id)
  refine ⟨?_, after⟩
  simp only [readTransportId, read, bind_ok, decode32_encode32]
  rfl

theorem readOneAppMessageData_append (accepted : record.appDataLen.toNat ≤ sizes.maxMessageSize)
    (fits : record.appDataLen.toNat ≤ sizes.room)
    (behind : file.drop offset = appBytes record ++ rest) :
    readOneAppMessageData sizes file mode ⟨offset, crc, message⟩ =
        .ok ⟨offset + (appBytes record).length,
          mode.addMessage (delivered .tx record message) crc, delivered .tx record message⟩ ∧
      file.drop (offset + (appBytes record).length) = rest := by
  have first : (sqnBytes record).take 8 = encode64 record.streamSqn := by simp [sqnBytes]
  have second : (sqnBytes record).drop 8 = encode64 record.topicSqn := by simp [sqnBytes]
  have total : offset + (appBytes record).length =
      offset + 16 + 4 + sizes.messageHeader + ExMessageHeader.size + record.appDataLen.toNat := by
    have app := length_appBytes record
    omega
  rw [total]
  simp only [appBytes, append_assoc] at behind
  obtain ⟨readSqns, afterSqns⟩ := next_append crc message behind (length_sqnBytes record)
  obtain ⟨readLen, afterLen⟩ := next_append crc message afterSqns (length_encode32 _)
  obtain ⟨readHeader, afterHeader⟩ := next_append crc message afterLen record.headerLength
  obtain ⟨readEx, afterEx⟩ :=
    next_append crc message afterHeader (ExMessageHeader.length_bytes _)
  obtain ⟨readData, afterData⟩ := next_append crc message afterEx record.dataLength
  refine ⟨?_, afterData⟩
  simp only [readOneAppMessageData, readSqns, readLen, readHeader, readEx, readData, bind_ok,
    decode32_encode32, if_neg (Nat.not_lt.mpr accepted), if_neg (Nat.not_lt.mpr fits), first,
    second, decode64_encode64, ExMessageHeader.ofBytes_bytes]
  rfl

theorem checkCrc_append {expected : UInt32}
    (same : mode.isCheckCrc = true → mode.fileCrc = true → crc = expected)
    (behind : file.drop offset = (if mode.fileCrc then encode32 expected else []) ++ rest) :
    ∃ next, RecordDataTracker.checkCrc file mode ⟨offset, crc, message⟩ =
      .ok ⟨offset, next, message⟩ := by
  obtain ⟨fileCrc, isCheckCrc⟩ := mode
  cases fileCrc with
  | false => exact ⟨crc, rfl⟩
  | true =>
    cases isCheckCrc with
    | false => exact ⟨crc, rfl⟩
    | true =>
      refine ⟨0, ?_⟩
      have equal : crc = expected := same rfl rfl
      have read := pread64_append behind (length_encode32 _)
      simp only [RecordDataTracker.checkCrc, Bool.and_self, ↓reduceIte, read, bind_ok,
        decode32_encode32, equal, ne_eq, not_true_eq_false]
      rfl

end

theorem addMessage_idCrc (tag : Tag) (record : MsgRecord sizes) (message : AmiMessage)
    {crc : UInt32} (begins : mode.isCheckCrc = true → mode.fileCrc = true → crc = idCrc tag record)
    (check : mode.isCheckCrc = true) (useCrc : mode.fileCrc = true) :
    mode.addMessage (delivered .tx record message) crc = appCrc record (idCrc tag record) := by
  rw [addMessage_delivered, check, useCrc, begins check useCrc]
  rfl

variable {position : Nat}

theorem readOneAppMessage_append (message : AmiMessage)
    (accepted : record.appDataLen.toNat ≤ sizes.maxMessageSize)
    (fits : record.appDataLen.toNat ≤ sizes.room)
    (behind : file.drop position = recordBytes tag mode.fileCrc record ++ rest) :
    ∃ next, readOneAppMessage sizes file mode tag position 0 message =
      .ok ⟨position + (idBytes tag record).length + (appBytes record).length, next,
        delivered tag record message⟩ := by
  cases tag with
  | rx =>
    simp only [recordBytes, idBytes, append_assoc] at behind
    obtain ⟨endpoint, afterEndpoint⟩ := readEndPointId_append mode 0 message behind
    obtain ⟨transport, afterTransport⟩ := readTransportId_append mode
      (mode.addId record.endpointId 0) { message with endpointId := record.endpointId }
      afterEndpoint
    obtain ⟨data, afterData⟩ := readOneAppMessageData_append mode
      (mode.addId record.transportId (mode.addId record.endpointId 0))
      { message with endpointId := record.endpointId, transportId := record.transportId }
      accepted fits afterTransport
    have begins : mode.isCheckCrc = true → mode.fileCrc = true →
        mode.addId record.transportId (mode.addId record.endpointId 0) = idCrc .rx record := by
      intro check useCrc
      simp [CrcMode.addId, check, useCrc, Bool.and_self, ↓reduceIte, idCrc]
    obtain ⟨next, checked⟩ := checkCrc_append mode _ (delivered .tx record
      { message with endpointId := record.endpointId, transportId := record.transportId })
      (addMessage_idCrc mode .rx record _ begins) afterData
    refine ⟨next, ?_⟩
    simp only [readOneAppMessage, endpoint, Except.bind]
    rw [transport, bind_ok, data, bind_ok, checked]
    rfl
  | tx =>
    simp only [recordBytes, idBytes, append_assoc, nil_append] at behind
    obtain ⟨data, afterData⟩ := readOneAppMessageData_append mode 0 message accepted fits behind
    have begins : mode.isCheckCrc = true → mode.fileCrc = true →
        (0 : UInt32) = idCrc .tx record := fun _ _ => rfl
    obtain ⟨next, checked⟩ := checkCrc_append mode _ (delivered .tx record message)
      (addMessage_idCrc mode .tx record message begins) afterData
    refine ⟨next, ?_⟩
    simp only [readOneAppMessage]
    rw [bind_ok, data, bind_ok, checked]
    rfl

theorem length_recordBytes_parts (useCrc : Bool) (record : MsgRecord sizes) :
    (recordBytes tag useCrc record).length = (idBytes tag record).length +
      (appBytes record).length + (if useCrc then 4 else 0) := by
  cases useCrc with
  | false =>
    simp [recordBytes, crcBytes, length_append, Bool.false_eq_true, ↓reduceIte]
  | true =>
    simp [recordBytes, crcBytes, length_append, ↓reduceIte, length_encode32,
      Nat.add_assoc]

theorem positionsFrom_split (useCrc : Bool) {records : List (MsgRecord sizes)} {header base i : Nat}
    (behind : file.drop (header + base) = (records.map (recordBytes tag useCrc)).flatten)
    (indexed : (positionsFrom tag useCrc base records)[i]? = some position)
    (recorded : records[i]? = some record) :
    (∃ rest, file.drop (header + position) = recordBytes tag useCrc record ++ rest) ∧
      (positionsFrom tag useCrc base records ++
        [base + (records.map (recordBytes tag useCrc)).flatten.length])[i + 1]? =
          some (position + (recordBytes tag useCrc record).length) := by
  induction records generalizing base i with
  | nil => cases recorded
  | cons first rest ih =>
    rw [map_cons, flatten_cons] at behind ⊢
    cases i with
    | zero =>
      cases indexed
      cases recorded
      refine ⟨⟨_, behind⟩, ?_⟩
      cases rest with
      | nil | cons second more => simp [positionsFrom]
    | succ i =>
      have after : file.drop (header + (base + (recordBytes tag useCrc first).length)) =
          (rest.map (recordBytes tag useCrc)).flatten := by
        rw [← Nat.add_assoc, ← drop_drop, behind, drop_left]
      obtain ⟨found, following⟩ := ih after indexed recorded
      refine ⟨found, ?_⟩
      rw [positionsFrom, cons_append, getElem?_cons_succ, length_append,
        ← Nat.add_assoc]
      exact following

theorem length_positionsFrom (useCrc : Bool) (base : Nat) (records : List (MsgRecord sizes)) :
    (positionsFrom tag useCrc base records).length = records.length := by
  induction records generalizing base with
  | nil => rfl
  | cons record rest ih => rw [positionsFrom, length_cons, length_cons, ih]

end Positions

section Readers

variable {sizes : Sizes}

/-- A message that a reader returned has the fields of the record; the file of a `TxTag`
track has no ids. -/
structure Returns (tag : Tag) (record : MsgRecord sizes) (message : AmiMessage) : Prop where
  endpointId : tag = .rx → message.endpointId = record.endpointId
  transportId : tag = .rx → message.transportId = record.transportId
  streamSqn : message.streamSqn = record.streamSqn
  topicSqn : message.topicSqn = record.topicSqn
  appDataLen : message.appDataLen = record.appDataLen
  msgHeader : message.msgHeader = record.msgHeader
  cStreamSqn : message.cStreamSqn = record.exMsgHeader.cStreamSqn
  cTopicSqn : message.cTopicSqn = record.exMsgHeader.cTopicSqn
  cEndpointSqn : message.cEndpointSqn = record.exMsgHeader.cEndpointSqn
  appData : message.appData = record.appData

theorem returns_delivered (tag : Tag) (record : MsgRecord sizes) (message : AmiMessage) :
    Returns tag record (delivered tag record message) := by
  cases tag with
  | rx => exact ⟨fun _ => rfl, fun _ => rfl, rfl, rfl, rfl, rfl, rfl, rfl, rfl, rfl⟩
  | tx =>
    refine ⟨?_, ?_, rfl, rfl, rfl, rfl, rfl, rfl, rfl, rfl⟩
    all_goals nofun

theorem returns_deliveries (tag : Tag) (message : AmiMessage) (records : List (MsgRecord sizes)) :
    Forall₂ (Returns tag) records (deliveries tag message records) := by
  induction records generalizing message with
  | nil => exact .nil
  | cons record rest ih => exact .cons (returns_delivered tag record message) (ih _)

/-- What the writer has written, the reader of the file returns record by record up to the
end, and the tracker at every position of the index up to the next one. -/
theorem readers_invert_writer (tag : Tag) (useCrc isCheckCrc : Bool)
    {records : List (MsgRecord sizes)} {writer : Writer} {positions : List Nat}
    (written : Writer.writeMessages tag useCrc {} records = some (writer, positions))
    (fits : ∀ record ∈ records, record.appDataLen.toNat ≤ sizes.room)
    (fileHeader : List UInt8) (crc : UInt32) (message : AmiMessage) :
    (∃ messages reader, RecordReader.readMessages sizes ⟨useCrc, isCheckCrc⟩ tag records.length
        ⟨writer.output, crc, message⟩ = .ok (messages, reader) ∧
      Forall₂ (Returns tag) records messages ∧ reader.input = []) ∧
    positions.length = records.length ∧
    ∀ index record position, records[index]? = some record → positions[index]? = some position →
      ∃ cursor, RecordDataTracker.readOneAppMessage sizes (fileHeader ++ writer.output)
          ⟨useCrc, isCheckCrc⟩ tag (fileHeader.length + position) 0 message = .ok cursor ∧
        Returns tag record cursor.message ∧ (positions ++ [writer.output.length])[index + 1]? =
          some (cursor.offset + (if useCrc then 4 else 0) - fileHeader.length) := by
  obtain ⟨accepted, output, indexed⟩ := writeMessages_eq written
  change writer.output = (records.map (recordBytes tag useCrc)).flatten at output
  refine ⟨?_, ?_, ?_⟩
  · obtain ⟨next, last, read⟩ :=
      readMessages_append tag useCrc isCheckCrc accepted fits [] crc message
    rw [append_nil, ← output] at read
    exact ⟨_, _, read, returns_deliveries tag message records, rfl⟩
  · rw [indexed, length_positionsFrom]
  · intro index record position recorded at_
    have member := mem_of_getElem? recorded
    have behind : (fileHeader ++ writer.output).drop (fileHeader.length + 0) =
        (records.map (recordBytes tag useCrc)).flatten := by
      rw [Nat.add_zero, drop_left, output]
    rw [indexed] at at_
    obtain ⟨⟨rest, found⟩, following⟩ := positionsFrom_split tag useCrc behind at_ recorded
    obtain ⟨next, read⟩ := readOneAppMessage_append tag ⟨useCrc, isCheckCrc⟩ message
      (accepted record member) (fits record member) found
    refine ⟨_, read, returns_delivered tag record message, ?_⟩
    rw [indexed, output]
    rw [Nat.zero_add, length_recordBytes_parts] at following
    refine following.trans (congrArg some ?_)
    dsimp only
    omega

def smallSizes : Sizes where
  messageHeader := 8
  aligned := Nat.dvd_refl 8
  maxMessageSize := 64
  room := 64

/-- A message whose header and data are counted up, with `length` bytes of data. -/
def smallRecord (length : UInt32) : MsgRecord smallSizes where
  endpointId := 1
  transportId := 2
  streamSqn := 3
  topicSqn := 4
  appDataLen := length
  msgHeader := [0, 1, 2, 3, 4, 5, 6, 7]
  exMsgHeader := ⟨0, 0, 5, 6, 7, 8, 9, 10⟩
  appData := (range length.toNat).map UInt8.ofNat
  headerLength := rfl
  dataLength := by rw [length_map, length_range]

theorem readers_invert_writer_of_two : ∃ writer positions,
      Writer.writeMessages .rx true {} [smallRecord 9, smallRecord 3] = some (writer, positions) ∧
      ∃ messages reader, RecordReader.readMessages smallSizes ⟨true, true⟩ .rx 2
        ⟨writer.output, 0, {}⟩ = .ok (messages, reader) ∧
      Forall₂ (Returns .rx) [smallRecord 9, smallRecord 3] messages ∧ reader.input = [] := by
  have accepted :
      (Writer.writeMessages .rx true {} [smallRecord 9, smallRecord 3]).isSome = true := by
    decide +kernel
  obtain ⟨⟨writer, positions⟩, written⟩ := isSome_iff_exists.mp accepted
  have fits : ∀ record ∈ [smallRecord 9, smallRecord 3],
      record.appDataLen.toNat ≤ smallSizes.room := by
    decide +kernel
  exact ⟨writer, positions, written, (readers_invert_writer .rx true true written fits [] 0 {}).1⟩

end Readers

end AdkAaf.Recorder
