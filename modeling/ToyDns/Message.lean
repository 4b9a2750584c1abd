import ToyDns.RecordName

/-! # The message codecs — `header.rs`, `question.rs`, `record.rs`, `packet.rs`

    Each decoder reads its fields in order from the shared cursor and fails with the error
    that names the first field it could not read:

    * `Header.readAndAdvance` reads six big-endian `u16`s;
    * `Question.readAndAdvance` a name, a type and a class;
    * `Record.readAndAdvance` a name, a type, a class, a `u32` TTL and a `u16` data length,
      then exactly that many data bytes;
    * `Packet.parse` a header, then as many questions, answers, authorities and additionals
      as the header counts, in that order, the first failure aborting the whole decode.

    A record type outside `{0, 1, 2, 28}` is `UnrecognizedRecordType`, in a question as in a
    record. -/

namespace ToyDns

/-- `RecordType` of `record.rs`. -/
inductive RecordType where
  | invalid
  | a
  | ns
  | aaaa
  deriving DecidableEq, Repr

namespace RecordType

/-- `RecordType::value`: the wire value of each type. -/
def value : RecordType → UInt16
  | .invalid => 0
  | .a => 1
  | .ns => 2
  | .aaaa => 28

/-- `RecordType::from`: the type of a wire value, if it is one of the four. -/
def «from» (recordTypeValue : UInt16) : Option RecordType :=
  match recordTypeValue.toNat with
  | 0 => some .invalid
  | 1 => some .a
  | 2 => some .ns
  | 28 => some .aaaa
  | _ => none

/-- `from` inverts `value`. -/
@[simp] theorem from_value (t : RecordType) : RecordType.from t.value = some t := by
  cases t <;> rfl

end RecordType

/-- `Header` of `header.rs`. -/
structure Header where
  id : UInt16
  flags : UInt16
  numQuestions : UInt16
  numAnswers : UInt16
  numAuthorities : UInt16
  numAdditionals : UInt16
  deriving DecidableEq, Repr

/-- `Question` of `question.rs`. -/
structure Question where
  name : Bytes
  qType : RecordType
  qClass : UInt16
  deriving DecidableEq, Repr

/-- `Record` of `record.rs`. -/
structure Record where
  name : Bytes
  rType : RecordType
  rClass : UInt16
  ttl : UInt32
  data : Bytes
  deriving DecidableEq, Repr

/-- `Packet` of `packet.rs`. -/
structure Packet where
  header : Header
  questions : List Question
  answers : List Record
  authorities : List Record
  additionals : List Record
  deriving DecidableEq, Repr

/-- `Header::read_and_advance`. -/
def Header.readAndAdvance (buf : Bytes) (pos : Nat) : Except Fault (Header × Nat) := do
  let id ← okOr (readU16 buf pos) .parseId
  let flags ← okOr (readU16 buf (pos + 2)) .parseFlag
  let numQuestions ← okOr (readU16 buf (pos + 4)) .parseQuestionCount
  let numAnswers ← okOr (readU16 buf (pos + 6)) .parseAnswerCount
  let numAuthorities ← okOr (readU16 buf (pos + 8)) .parseAuthorityCount
  let numAdditionals ← okOr (readU16 buf (pos + 10)) .parseAdditionalCount
  .ok ({ id, flags, numQuestions, numAnswers, numAuthorities, numAdditionals }, pos + 12)

/-- `Question::read_and_advance`. -/
def Question.readAndAdvance (fuel : Nat) (buf : Bytes) (pos : Nat) :
    Except Fault (Question × Nat) := do
  let (name, pos) ← RecordName.readAndAdvance fuel buf pos
  let parsedType ← okOr (readU16 buf pos) .readQuestionType
  let recordType ← okOr (RecordType.from parsedType) .unrecognizedRecordType
  let parsedClass ← okOr (readU16 buf (pos + 2)) .readQuestionClass
  .ok ({ name, qType := recordType, qClass := parsedClass }, pos + 4)

/-- `Record::read_and_advance`. -/
def Record.readAndAdvance (fuel : Nat) (buf : Bytes) (pos : Nat) :
    Except Fault (Record × Nat) := do
  let (recordName, pos) ← RecordName.readAndAdvance fuel buf pos
  let parsedType ← okOr (readU16 buf pos) .readRecordType
  let recordType ← okOr (RecordType.from parsedType) .unrecognizedRecordType
  let parsedClass ← okOr (readU16 buf (pos + 2)) .readRecordClass
  let parsedTtl ← okOr (readU32 buf (pos + 4)) .readRecordTTL
  let parsedDataLength ← okOr (readU16 buf (pos + 8)) .readRecordDataLength
  let data ← okOr (readExact buf (pos + 10) parsedDataLength.toNat) .readRecordData
  .ok ({ name := recordName, rType := recordType, rClass := parsedClass, ttl := parsedTtl,
         data }, pos + 10 + parsedDataLength.toNat)

/-- `Record::ip_address`: the data bytes in decimal, a `.` after each one that has a
    successor (`data_iterator.peek().is_some()`). -/
def Record.ipAddress (r : Record) : String :=
  go r.data ""
where
  /-- The `while let Some(datum) = data_iterator.next()` loop. -/
  go : Bytes → String → String
    | [], address => address
    | datum :: rest, address =>
      let address := address ++ toString datum
      go rest (if rest.isEmpty then address else address ++ ".")

/-- The first record of a type, in order: the shared body of the `DnsRecordGetters`. -/
def getFirstRecord (t : RecordType) (records : List Record) : Option Record :=
  (records.filter fun record => record.rType == t).head?

/-- The record found is of the type asked for. -/
theorem getFirstRecord_rType {t : RecordType} {records : List Record} {r : Record}
    (h : getFirstRecord t records = some r) : r.rType = t := by
  simpa using (List.mem_filter.mp (List.mem_of_mem_head? h)).2

/-- `DnsRecordGetters::get_first_a_record`. -/
def getFirstARecord (records : List Record) : Option Record := getFirstRecord .a records

/-- `DnsRecordGetters::get_first_ns_record`. -/
def getFirstNsRecord (records : List Record) : Option Record := getFirstRecord .ns records

/-- `for _ in 0..count { items.push(read(&mut cursor)?) }`. -/
def readCount {α : Type} (read : Nat → Except Fault (α × Nat)) :
    Nat → Nat → Except Fault (List α × Nat)
  | 0, pos => .ok ([], pos)
  | count + 1, pos => do
    let (item, pos) ← read pos
    let (items, pos) ← readCount read count pos
    .ok (item :: items, pos)

/-- `Packet::parse`, with the position its cursor ends at. -/
def Packet.parseCursor (fuel : Nat) (buffer : Bytes) : Except Fault (Packet × Nat) := do
  let (header, pos) ← Header.readAndAdvance buffer 0
  let (questions, pos) ←
    readCount (Question.readAndAdvance fuel buffer) header.numQuestions.toNat pos
  let (answers, pos) ← readCount (Record.readAndAdvance fuel buffer) header.numAnswers.toNat pos
  let (authorities, pos) ←
    readCount (Record.readAndAdvance fuel buffer) header.numAuthorities.toNat pos
  let (additionals, pos) ←
    readCount (Record.readAndAdvance fuel buffer) header.numAdditionals.toNat pos
  .ok ({ header, questions, answers, authorities, additionals }, pos)

/-- `Packet::parse`. -/
def Packet.parse (fuel : Nat) (buffer : Bytes) : Except Fault Packet :=
  (Packet.parseCursor fuel buffer).map Prod.fst

end ToyDns
