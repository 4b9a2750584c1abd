import ToyDns.Agreement
import Mathlib.Algebra.Group.Nat.Basic

/-! # Uncompressed messages — the RFC 1035 layout, read back

    RFC 1035 §4.1 lays a message out as a 12-byte header of six big-endian `u16`s, then the
    questions (name, type, class) and the three sections of records (name, type, class,
    32-bit TTL, 16-bit data length, data). The repository writes only queries; this module
    states the whole layout, with no compression, and proves the decoders read it back:

    * a `Label` carries its own bounds (1 to 63 bytes of UTF-8), so a name is written as
      length-prefixed labels and a zero byte (`encodeName`) and read back as the `.`-join
      of its labels (`readAndAdvanceLoop_encodeName`);
    * a `WireMessage` carries the four section counts of its header as fields, and every
      record's data length below `2^16`;
    * each lemma reads a value wherever its encoding stands in the buffer, stated as
      `readExact buf pos w.length = some w`, so the lemmas compose along the message
      (`readExact_append_split`) and the section loops read item after item
      (`readCount_encode`). -/

namespace ToyDns

/-- A label of an uncompressed name: 1 to 63 bytes of UTF-8. -/
structure Label where
  str : Str
  length_pos : 0 < str.bytes.length
  length_le : str.bytes.length ≤ 63
  deriving DecidableEq

/-- The label behind its length byte. -/
def Label.encode (l : Label) : Bytes := UInt8.ofNat l.str.bytes.length :: l.str.bytes

/-- An uncompressed name: its labels, then the root's zero byte. -/
def encodeName : List Label → Bytes
  | [] => [0]
  | l :: ls => l.encode ++ encodeName ls

/-- The text a name decodes to: its labels joined by `.`. -/
def nameText (ls : List Label) : Bytes := joinDot (ls.map Label.str)

theorem Label.toNat_length (l : Label) :
    (UInt8.ofNat l.str.bytes.length).toNat = l.str.bytes.length :=
  UInt8.toNat_ofNat_of_lt (by have := l.length_le; simp only [UInt8.size]; omega)

theorem length_lt_encodeName (ls : List Label) : ls.length < (encodeName ls).length := by
  induction ls with
  | nil => simp [encodeName]
  | cons l ls ih => simp [encodeName, Label.encode]; omega

/-- **A NAME READS BACK**: the labels of an uncompressed name, wherever it stands, decode to
    their `.`-join after the parts read before, and the cursor ends just after the zero
    byte. -/
theorem RecordName.readAndAdvanceLoop_encodeName {buf : Bytes} (ls : List Label)
    {pos fuel : Nat} (parts : List Str)
    (h : readExact buf pos (encodeName ls).length = some (encodeName ls))
    (hfuel : ls.length < fuel) :
    RecordName.readAndAdvanceLoop fuel buf pos parts =
      .ok (joinDot (parts ++ ls.map Label.str), pos + (encodeName ls).length) := by
  induction ls generalizing pos parts fuel with
  | nil =>
    obtain ⟨fuel, rfl⟩ : ∃ f, fuel = f + 1 := ⟨fuel - 1, by simp at hfuel; omega⟩
    rw [RecordName.readAndAdvanceLoop_succ,
      RecordName.nameStep_eq_finish.mpr (readU8_of_readExact h)]
    simp [encodeName]
  | cons l ls ih =>
    rw [encodeName] at h
    obtain ⟨hl, hrest⟩ := readExact_append_split h
    obtain ⟨hc, hb⟩ :=
      readExact_append_split (a := [UInt8.ofNat l.str.bytes.length]) (b := l.str.bytes) hl
    have hlen := l.toNat_length
    have hstep : RecordName.nameStep buf pos = .label l.str (pos + l.encode.length) :=
      RecordName.nameStep_eq_label.mpr ⟨_, readU8_of_readExact hc, by rw [hlen]; exact l.length_pos,
        by rw [hlen]; have := l.length_le; omega, by rw [hlen]; exact hb,
        by simp [hlen, Label.encode]; omega⟩
    obtain ⟨fuel, rfl⟩ : ∃ f, fuel = f + 1 := ⟨fuel - 1, by simp at hfuel; omega⟩
    rw [RecordName.readAndAdvanceLoop_succ, hstep]
    simp only
    rw [ih _ hrest (by simp at hfuel; omega)]
    simp [encodeName, Nat.add_assoc]

theorem RecordName.readAndAdvance_encodeName {buf : Bytes} {pos fuel : Nat} (ls : List Label)
    (h : readExact buf pos (encodeName ls).length = some (encodeName ls))
    (hfuel : (encodeName ls).length ≤ fuel) :
    RecordName.readAndAdvance fuel buf pos = .ok (nameText ls, pos + (encodeName ls).length) := by
  have := length_lt_encodeName ls
  exact RecordName.readAndAdvanceLoop_encodeName ls [] h (by omega)

/-! ## Fields and sections -/

/-- A `u32`, big-endian: the layout of a TTL. -/
def writeU32 (x : UInt32) : Bytes :=
  [UInt8.ofNat (x.toNat / 2 ^ 24), UInt8.ofNat (x.toNat / 2 ^ 16), UInt8.ofNat (x.toNat / 2 ^ 8),
    UInt8.ofNat x.toNat]

@[simp] theorem writeU32_length (x : UInt32) : (writeU32 x).length = 4 := rfl

theorem readU32_of_readExact {buf : Bytes} {pos : Nat} {x : UInt32}
    (h : readExact buf pos 4 = some (writeU32 x)) : readU32 buf pos = some x := by
  have hx := x.toNat_lt_size
  rw [readU32, h]
  simp only [Option.map_some', writeU32, beValue, List.foldl, UInt8.toNat, UInt8.ofNat,
    Fin.ofNat, BitVec.toNat_ofNat, Option.some.injEq]
  apply UInt32.toNat.inj
  rw [UInt32.toNat_ofNat_of_lt] <;> simp [UInt32.size] at hx ⊢ <;> omega

/-- The header as six big-endian `u16`s. -/
def Header.encode (h : Header) : Bytes :=
  writeU16 h.id ++ writeU16 h.flags ++ writeU16 h.numQuestions ++ writeU16 h.numAnswers
    ++ writeU16 h.numAuthorities ++ writeU16 h.numAdditionals

@[simp] theorem Header.encode_length (h : Header) : h.encode.length = 12 := rfl

theorem Header.readAndAdvance_encode {buf : Bytes} {pos : Nat} (h : Header)
    (hf : readExact buf pos h.encode.length = some h.encode) :
    Header.readAndAdvance buf pos = .ok (h, pos + 12) := by
  obtain ⟨hf, h10⟩ := readExact_append_split hf
  obtain ⟨hf, h8⟩ := readExact_append_split hf
  obtain ⟨hf, h6⟩ := readExact_append_split hf
  obtain ⟨hf, h4⟩ := readExact_append_split hf
  obtain ⟨h0, h2⟩ := readExact_append_split hf
  simp only [List.length_append, writeU16_length, Nat.reduceAdd] at h0 h2 h4 h6 h8 h10
  simp [Header.readAndAdvance, readU16_of_readExact h0, readU16_of_readExact h2,
    readU16_of_readExact h4, readU16_of_readExact h6, readU16_of_readExact h8,
    readU16_of_readExact h10]

/-- A question of an uncompressed message. -/
structure WireQuestion where
  name : List Label
  qType : RecordType
  qClass : UInt16
  deriving DecidableEq

/-- A question as name, type and class. -/
def WireQuestion.encode (q : WireQuestion) : Bytes :=
  encodeName q.name ++ writeU16 q.qType.value ++ writeU16 q.qClass

/-- The `Question` the decoder should read. -/
def WireQuestion.decoded (q : WireQuestion) : Question :=
  { name := nameText q.name, qType := q.qType, qClass := q.qClass }

theorem Question.readAndAdvance_encode {buf : Bytes} {pos fuel : Nat} (q : WireQuestion)
    (hf : readExact buf pos q.encode.length = some q.encode) (hfuel : buf.length ≤ fuel) :
    Question.readAndAdvance fuel buf pos = .ok (q.decoded, pos + q.encode.length) := by
  obtain ⟨hf, hclass⟩ := readExact_append_split hf
  obtain ⟨hname, htype⟩ := readExact_append_split hf
  have hle := (readExact_eq_some.mp hname).1
  simp only [List.length_append, writeU16_length] at htype hclass
  have hn : RecordName.readAndAdvance fuel buf pos = _ :=
    RecordName.readAndAdvance_encodeName q.name hname (by omega)
  simp [Question.readAndAdvance, hn,
    readU16_of_readExact htype, readU16_of_readExact hclass, WireQuestion.decoded,
    WireQuestion.encode, Nat.add_assoc]

/-- A resource record of an uncompressed message, its data short enough for its 16-bit
    length. -/
structure WireRecord where
  name : List Label
  rType : RecordType
  rClass : UInt16
  ttl : UInt32
  data : Bytes
  data_length_le : data.length ≤ 65535
  deriving DecidableEq

/-- A record as name, type, class, TTL, data length and data. -/
def WireRecord.encode (r : WireRecord) : Bytes :=
  encodeName r.name ++ writeU16 r.rType.value ++ writeU16 r.rClass ++ writeU32 r.ttl
    ++ writeU16 (UInt16.ofNat r.data.length) ++ r.data

/-- The `Record` the decoder should read. -/
def WireRecord.decoded (r : WireRecord) : Record :=
  { name := nameText r.name, rType := r.rType, rClass := r.rClass, ttl := r.ttl,
    data := r.data }

theorem Record.readAndAdvance_encode {buf : Bytes} {pos fuel : Nat} (r : WireRecord)
    (hf : readExact buf pos r.encode.length = some r.encode) (hfuel : buf.length ≤ fuel) :
    Record.readAndAdvance fuel buf pos = .ok (r.decoded, pos + r.encode.length) := by
  obtain ⟨hf, hdata⟩ := readExact_append_split hf
  obtain ⟨hf, hlen⟩ := readExact_append_split hf
  obtain ⟨hf, httl⟩ := readExact_append_split hf
  obtain ⟨hf, hclass⟩ := readExact_append_split hf
  obtain ⟨hname, htype⟩ := readExact_append_split hf
  have hle := (readExact_eq_some.mp hname).1
  have hdl : (UInt16.ofNat r.data.length).toNat = r.data.length :=
    UInt16.toNat_ofNat_of_lt (by have := r.data_length_le; simp only [UInt16.size]; omega)
  simp only [List.length_append, writeU16_length, writeU32_length, Nat.add_assoc,
    Nat.reduceAdd] at htype hclass httl hlen hdata
  have hend : r.encode.length = (encodeName r.name).length + (10 + r.data.length) := by
    simp [WireRecord.encode]; omega
  have hn : RecordName.readAndAdvance fuel buf pos = _ :=
    RecordName.readAndAdvance_encodeName r.name hname (by omega)
  simp [Record.readAndAdvance, hn,
    readU16_of_readExact htype, readU16_of_readExact hclass, readU32_of_readExact httl,
    readU16_of_readExact hlen, hdl, hdata, WireRecord.decoded, hend, Nat.add_assoc]


/-- The items of a section, encoded one after another, read back by the section loop. -/
theorem readCount_encode {α β : Type} {buf : Bytes} {read : Nat → Except Fault (α × Nat)}
    {encode : β → Bytes} {decoded : β → α}
    (hread : ∀ x pos, readExact buf pos (encode x).length = some (encode x) →
      read pos = .ok (decoded x, pos + (encode x).length))
    (xs : List β) {pos : Nat}
    (h : readExact buf pos (xs.map encode).flatten.length = some (xs.map encode).flatten) :
    readCount read xs.length pos = .ok (xs.map decoded, pos + (xs.map encode).flatten.length) := by
  induction xs generalizing pos with
  | nil => rfl
  | cons x xs ih =>
    rw [List.map_cons, List.flatten_cons] at h
    obtain ⟨hx, hxs⟩ := readExact_append_split h
    simp [readCount, hread x pos hx, ih hxs, Nat.add_assoc]

/-! ## Messages -/

/-- An uncompressed message: a header, and the four sections it counts. -/
structure WireMessage where
  header : Header
  questions : List WireQuestion
  answers : List WireRecord
  authorities : List WireRecord
  additionals : List WireRecord
  questions_length : questions.length = header.numQuestions.toNat
  answers_length : answers.length = header.numAnswers.toNat
  authorities_length : authorities.length = header.numAuthorities.toNat
  additionals_length : additionals.length = header.numAdditionals.toNat

/-- The message as RFC 1035 lays it out, with no compression. -/
def WireMessage.encode (m : WireMessage) : Bytes :=
  m.header.encode ++ (m.questions.map WireQuestion.encode).flatten
    ++ (m.answers.map WireRecord.encode).flatten ++ (m.authorities.map WireRecord.encode).flatten
    ++ (m.additionals.map WireRecord.encode).flatten

/-- The `Packet` the decoder should read. -/
def WireMessage.decoded (m : WireMessage) : Packet :=
  { header := m.header, questions := m.questions.map WireQuestion.decoded,
    answers := m.answers.map WireRecord.decoded,
    authorities := m.authorities.map WireRecord.decoded,
    additionals := m.additionals.map WireRecord.decoded }

/-- **A MESSAGE READS BACK**, to its last byte. -/
theorem WireMessage.parseCursor_encode (m : WireMessage) {fuel : Nat}
    (hfuel : m.encode.length ≤ fuel) :
    Packet.parseCursor fuel m.encode = .ok (m.decoded, m.encode.length) := by
  have hall : readExact m.encode 0 m.encode.length = some m.encode :=
    readExact_eq_some.mpr ⟨by simp, by simp⟩
  obtain ⟨hall, hD⟩ := readExact_append_split hall
  obtain ⟨hall, hU⟩ := readExact_append_split hall
  obtain ⟨hall, hA⟩ := readExact_append_split hall
  obtain ⟨hH, hQ⟩ := readExact_append_split hall
  have hq : ∀ (q : WireQuestion) pos, readExact m.encode pos q.encode.length = some q.encode →
      Question.readAndAdvance fuel m.encode pos = .ok (q.decoded, pos + q.encode.length) :=
    fun q _ hq => Question.readAndAdvance_encode q hq hfuel
  have hr : ∀ (r : WireRecord) pos, readExact m.encode pos r.encode.length = some r.encode →
      Record.readAndAdvance fuel m.encode pos = .ok (r.decoded, pos + r.encode.length) :=
    fun r _ hr => Record.readAndAdvance_encode r hr hfuel
  simp only [List.length_append, Header.encode_length, Nat.zero_add] at hQ hA hU hD
  have hlen : m.encode.length = 12 + (m.questions.map WireQuestion.encode).flatten.length
      + (m.answers.map WireRecord.encode).flatten.length
      + (m.authorities.map WireRecord.encode).flatten.length
      + (m.additionals.map WireRecord.encode).flatten.length := by
    simp only [WireMessage.encode, List.length_append, Header.encode_length]
  simp only [Packet.parseCursor, Header.readAndAdvance_encode m.header hH, ok_bind,
    Nat.zero_add, ← m.questions_length, readCount_encode hq m.questions hQ, ← m.answers_length,
    readCount_encode hr m.answers hA, ← m.authorities_length,
    readCount_encode hr m.authorities hU, ← m.additionals_length,
    readCount_encode hr m.additionals hD, hlen]
  rfl

/-- **AN UNCOMPRESSED MESSAGE DECODES TO ITSELF, AND NO PROPER PREFIX OF IT DECODES**: with
    fuel for its length, the decoder returns exactly the header, questions and records of the
    message, names as the `.`-join of their labels, and fails with an `Err` on every proper
    prefix. -/
theorem parse_uncompressed_message (m : WireMessage) {fuel : Nat}
    (hfuel : m.encode.length ≤ fuel) :
    Packet.parse fuel m.encode = .ok m.decoded ∧
      ∀ k < m.encode.length, ∃ e, Packet.parse fuel (m.encode.take k) = .error (.err e) := by
  have h := m.parseCursor_encode hfuel
  exact ⟨by rw [Packet.parse, h]; rfl, fun _ hk => Packet.parse_take_of_end h hk⟩

/-- The label `a`. -/
def labelA : Label := ⟨⟨[0x61], by decide⟩, by decide, by decide⟩

/-- A reply with one question and one A record for `a`. -/
def replyForA : WireMessage where
  header := ⟨7, 0x8180, 1, 1, 0, 0⟩
  questions := [⟨[labelA], .a, 1⟩]
  answers := [⟨[labelA], .a, 1, 60, [10, 0, 0, 1], by decide⟩]
  authorities := []
  additionals := []
  questions_length := rfl
  answers_length := rfl
  authorities_length := rfl
  additionals_length := rfl

theorem parse_uncompressed_replyForA :
    replyForA.encode.length ≤ replyForA.encode.length ∧
      Packet.parse replyForA.encode.length replyForA.encode = .ok replyForA.decoded ∧
      ∀ k < replyForA.encode.length,
        ∃ e, Packet.parse replyForA.encode.length (replyForA.encode.take k) = .error (.err e) :=
  ⟨le_refl _, parse_uncompressed_message replyForA (le_refl _)⟩

end ToyDns
