import ToyDns.Compression
import ToyDns.Encoding

/-! # Compressed messages — the RFC 1035 layout with pointers, read back

    A name server compresses the names of its replies: a name may end in a pointer to an
    earlier name of the message (RFC 1035 §4.1.4). `Encoding` lays out messages without
    compression; this module states the layout of a message whose names may be compressed,
    and whose labels may be any octets, as relations on the received buffer, and proves what
    `Packet::parse` makes of every such message:

    * **`NameAt buf p ls e`** — the name at `p` has the RFC 1035 expansion `ls` and ends at
      `e`, and no pointer on its chain targets the root name after a label, the one
      expansion the decoder reads to another name (`readAndAdvance_of_expandsOctets`);
    * **`QuestionAt`**, **`RecordAt`** — a name, then the fixed fields of a question or a
      resource record as `Encoding` writes them;
    * **`SectionAt`** — items back to back;
    * **`MessageAt buf m e text`** — the header of `m` at offset 0, then the four sections
      of `m` after it, each as long as the header counts.

    Each relation carries `text`: whether every label of its names is UTF-8. The decoder
    reads a message whose labels are text to its meaning, and fails on any other with
    `InvalidByteInName` at its first name that is not text. The layout does not reach to the
    end of the buffer: bytes after it, such as the zeros the receive buffer is padded with,
    are allowed. The headline is `Packet.parseCursor_of_messageAt`; an uncompressed message
    is laid out so (`WireMessage.messageAt_encode`). -/

namespace ToyDns

open RecordName

/-- The name at `p` expands to the labels `ls` and ends at `e`, and does not reach the root
    name through a pointer after a label. -/
def NameAt (buf : Bytes) (p : Nat) (ls : List Bytes) (e : Nat) : Prop :=
  ExpandsOctets buf p ls e ∧ ¬(ls ≠ [] ∧ PointsAtRoot buf p)

/-- A question at `p` ending at `e`: its name, type and class (RFC 1035 §4.1.2); `text` when
    every label of its name is UTF-8. -/
inductive QuestionAt (buf : Bytes) : Nat → Question → Nat → Bool → Prop
  | mk {p n : Nat} {ls : List Bytes} {t : RecordType} {c : UInt16} :
      NameAt buf p ls n → readExact buf n 2 = some (writeU16 t.value) →
      readExact buf (n + 2) 2 = some (writeU16 c) →
      QuestionAt buf p { name := [0x2E].intercalate ls, qType := t, qClass := c } (n + 4)
        (ls.all isValidUtf8)

/-- A resource record at `p` ending at `e`: its name, type, class, TTL, the length of its
    data and the data (RFC 1035 §4.1.3); `text` when every label of its name is UTF-8. -/
inductive RecordAt (buf : Bytes) : Nat → Record → Nat → Bool → Prop
  | mk {p n : Nat} {ls : List Bytes} {t : RecordType} {c : UInt16} {ttl : UInt32}
      {data : Bytes} :
      NameAt buf p ls n → readExact buf n 2 = some (writeU16 t.value) →
      readExact buf (n + 2) 2 = some (writeU16 c) →
      readExact buf (n + 4) 4 = some (writeU32 ttl) → data.length ≤ 65535 →
      readExact buf (n + 8) 2 = some (writeU16 (UInt16.ofNat data.length)) →
      readExact buf (n + 10) data.length = some data →
      RecordAt buf p { name := [0x2E].intercalate ls, rType := t, rClass := c, ttl, data }
        (n + 10 + data.length) (ls.all isValidUtf8)

/-- The items `xs`, each laid out by `item` where the one before it ends, from `p` to `e`;
    `text` when every item's is. -/
inductive SectionAt {α : Type} (item : Nat → α → Nat → Bool → Prop) :
    Nat → List α → Nat → Bool → Prop
  | nil {p : Nat} : SectionAt item p [] p true
  | cons {p q e : Nat} {x : α} {xs : List α} {t ts : Bool} :
      item p x q t → SectionAt item q xs e ts → SectionAt item p (x :: xs) e (t && ts)

/-- The message `m` at the front of `buf`, ending at `e` (RFC 1035 §4.1); `text` when every
    label of its names is UTF-8. -/
structure MessageAt (buf : Bytes) (m : Packet) (e : Nat) (text : Bool) : Prop where
  header : readExact buf 0 12 = some m.header.encode
  sections : ∃ q a u tq ta tu td, SectionAt (QuestionAt buf) 12 m.questions q tq ∧
    SectionAt (RecordAt buf) q m.answers a ta ∧ SectionAt (RecordAt buf) a m.authorities u tu ∧
    SectionAt (RecordAt buf) u m.additionals e td ∧ text = (tq && ta && tu && td)
  questions_length : m.questions.length = m.header.numQuestions.toNat
  answers_length : m.answers.length = m.header.numAnswers.toNat
  authorities_length : m.authorities.length = m.header.numAuthorities.toNat
  additionals_length : m.additionals.length = m.header.numAdditionals.toNat

-- ── Each decoder reads its layout ─────────────────────────────────────────────

/-- A read that returns `a` when `t` and fails with `InvalidByteInName` otherwise, then the
    rest. -/
theorem bind_ite_invalid {α β : Type} (t : Bool) (a : α) (f : α → Except Fault β) :
    ((if t then .ok a else .error (.err .invalidByteInName)) >>= f) =
      if t then f a else .error (.err .invalidByteInName) := by
  cases t <;> rfl

theorem RecordName.readAndAdvance_of_nameAt {buf : Bytes} {p e : Nat} {ls : List Bytes}
    (h : NameAt buf p ls e) :
    ∃ n, ∀ fuel, n ≤ fuel → readAndAdvance fuel buf p =
      if ls.all isValidUtf8 then .ok ([0x2E].intercalate ls, e)
      else .error (.err .invalidByteInName) := by
  by_cases hv : ls.all isValidUtf8
  · obtain ⟨ss, rfl, hss⟩ := h.1.text (by simpa using hv)
    obtain ⟨n, hn⟩ := readAndAdvanceLoop_of_expands hss
    refine ⟨n, fun fuel hf => ?_⟩
    rw [if_pos hv, ← joinDot_eq_intercalate]
    obtain ⟨t, ht, ⟨rfl, -⟩ | ⟨-, hne, hroot⟩⟩ := hn fuel [] hf
    · simpa using ht
    · exact absurd ⟨by simpa using hne, hroot⟩ h.2
  · obtain ⟨n, hn⟩ := readAndAdvanceLoop_of_expandsOctets_invalid h.1 (by simpa using hv)
    exact ⟨n, fun fuel hf => by rw [if_neg hv]; exact hn fuel [] hf⟩

theorem Question.readAndAdvance_of_questionAt {buf : Bytes} {p e : Nat} {q : Question}
    {t : Bool} (h : QuestionAt buf p q e t) :
    ∃ n, ∀ fuel, n ≤ fuel → Question.readAndAdvance fuel buf p =
      if t then .ok (q, e) else .error (.err .invalidByteInName) := by
  obtain ⟨hname, htype, hclass⟩ := h
  obtain ⟨n, hn⟩ := RecordName.readAndAdvance_of_nameAt hname
  refine ⟨n, fun fuel hf => ?_⟩
  rw [Question.readAndAdvance, hn fuel hf, bind_ite_invalid]
  simp [readU16_of_readExact htype, readU16_of_readExact hclass, Nat.add_assoc]

theorem Record.readAndAdvance_of_recordAt {buf : Bytes} {p e : Nat} {r : Record} {t : Bool}
    (h : RecordAt buf p r e t) :
    ∃ n, ∀ fuel, n ≤ fuel → Record.readAndAdvance fuel buf p =
      if t then .ok (r, e) else .error (.err .invalidByteInName) := by
  obtain ⟨hname, htype, hclass, httl, hle, hlen, hdata⟩ := h
  obtain ⟨n, hn⟩ := RecordName.readAndAdvance_of_nameAt hname
  have hdl := UInt16.toNat_ofNat_of_lt (Nat.lt_of_le_of_lt hle (by decide : 65535 < UInt16.size))
  refine ⟨n, fun fuel hf => ?_⟩
  rw [Record.readAndAdvance, hn fuel hf, bind_ite_invalid]
  simp [readU16_of_readExact htype, readU16_of_readExact hclass, readU32_of_readExact httl,
    readU16_of_readExact hlen, hdl, hdata, Nat.add_assoc]

/-- The section loop reads a section item by item, with the fuel its items need, and fails
    at its first item that is not text. -/
theorem readCount_of_sectionAt {α : Type} {item : Nat → α → Nat → Bool → Prop}
    {read : Nat → Nat → Except Fault (α × Nat)}
    (hread : ∀ p x q t, item p x q t → ∃ n, ∀ fuel, n ≤ fuel →
      read fuel p = if t then .ok (x, q) else .error (.err .invalidByteInName))
    {p e : Nat} {xs : List α} {t : Bool} (h : SectionAt item p xs e t) :
    ∃ n, ∀ fuel, n ≤ fuel → readCount (read fuel) xs.length p =
      if t then .ok (xs, e) else .error (.err .invalidByteInName) := by
  induction h with
  | nil => exact ⟨0, fun _ _ => rfl⟩
  | @cons p q e x xs t ts hx _ ih =>
    obtain ⟨n₁, h₁⟩ := hread _ _ _ _ hx
    obtain ⟨n₂, h₂⟩ := ih
    refine ⟨max n₁ n₂, fun fuel hf => ?_⟩
    rw [List.length_cons, readCount, h₁ fuel (by omega), bind_ite_invalid]
    cases t
    · rfl
    · simp only [↓reduceIte, h₂ fuel (by omega), bind_ite_invalid]
      cases ts <;> rfl

-- ── Messages ─────────────────────────────────────────────────────────────────

/-- **EVERY RFC 1035 MESSAGE DECODES TO ITS MEANING, OR FAILS ON A LABEL THAT IS NOT TEXT**:
    with enough fuel, the decoder returns the header and the four sections of a message laid
    out at the front of a buffer, each name the `.`-join of its labels, and its cursor ends
    where the message ends — when every label is UTF-8; when one is not, it fails with
    `InvalidByteInName`. -/
theorem Packet.parseCursor_of_messageAt {buf : Bytes} {m : Packet} {e : Nat} {text : Bool}
    (h : MessageAt buf m e text) :
    ∃ n, ∀ fuel, n ≤ fuel → Packet.parseCursor fuel buf =
      if text then .ok (m, e) else .error (.err .invalidByteInName) := by
  obtain ⟨q, a, u, tq, ta, tu, td, hQ, hA, hU, hD, rfl⟩ := h.sections
  have hr := fun p r e t (h : RecordAt buf p r e t) => Record.readAndAdvance_of_recordAt h
  obtain ⟨n₁, h₁⟩ :=
    readCount_of_sectionAt (fun _ _ _ _ h => Question.readAndAdvance_of_questionAt h) hQ
  obtain ⟨n₂, h₂⟩ := readCount_of_sectionAt hr hA
  obtain ⟨n₃, h₃⟩ := readCount_of_sectionAt hr hU
  obtain ⟨n₄, h₄⟩ := readCount_of_sectionAt hr hD
  refine ⟨n₁ + n₂ + n₃ + n₄, fun fuel hf => ?_⟩
  simp only [Packet.parseCursor, Header.readAndAdvance_encode m.header h.header, ok_bind,
    Nat.zero_add, ← h.questions_length, h₁ fuel (by omega), bind_ite_invalid,
    ← h.answers_length, h₂ fuel (by omega), ← h.authorities_length, h₃ fuel (by omega),
    ← h.additionals_length, h₄ fuel (by omega)]
  cases tq <;> cases ta <;> cases tu <;> cases td <;> rfl

-- ── Uncompressed messages are laid out so ───────────────────────────────────

/-- A label step of the decoder, then an expansion, is an expansion. -/
theorem RecordName.ExpandsOctets.of_label {buf : Bytes} {p q e : Nat} {s : Str}
    {ls : List Bytes} (h : nameStep buf p = .label s q) (hrest : ExpandsOctets buf q ls e) :
    ExpandsOctets buf p (s.bytes :: ls) e := by
  obtain ⟨c, hc, h1, h64, hread, rfl⟩ := nameStep_eq_label.mp h
  exact .label hc h1 (by omega) hread hrest

/-- An uncompressed name expands to its labels, and no pointer is on its chain. -/
theorem expands_encodeName {buf : Bytes} {p : Nat} (ls : List Label)
    (h : readExact buf p (encodeName ls).length = some (encodeName ls)) :
    ExpandsOctets buf p (ls.map (·.str.bytes)) (p + (encodeName ls).length) ∧
      ¬PointsAtRoot buf p := by
  induction ls generalizing p with
  | nil =>
    have h0 : readU8 buf p = some 0 := readU8_of_readExact h
    exact ⟨.root h0, not_pointsAtRoot_of_finish (nameStep_eq_finish.mpr h0)⟩
  | cons l ls ih =>
    rw [encodeName] at h
    obtain ⟨hl, hrest⟩ := readExact_append_split h
    obtain ⟨hc, hb⟩ :=
      readExact_append_split (a := [UInt8.ofNat l.str.bytes.length]) (b := l.str.bytes) hl
    have hlen := l.toNat_length
    have hstep : nameStep buf p = .label l.str (p + l.encode.length) :=
      nameStep_eq_label.mpr ⟨_, readU8_of_readExact hc, by rw [hlen]; exact l.length_pos,
        by rw [hlen]; have := l.length_le; omega, by rw [hlen]; exact hb,
        by simp [hlen, Label.encode]; omega⟩
    obtain ⟨hexp, hroot⟩ := ih hrest
    rw [List.map_cons, encodeName, List.length_append, ← Nat.add_assoc]
    exact ⟨hexp.of_label hstep, fun h' => hroot ((pointsAtRoot_label_iff hstep).mp h')⟩

/-- The labels of an uncompressed name are text, and join to its text. -/
theorem nameText_eq_intercalate (ls : List Label) :
    (ls.map (·.str.bytes)).all isValidUtf8 = true ∧
      [0x2E].intercalate (ls.map (·.str.bytes)) = nameText ls := by
  constructor
  · refine List.all_eq_true.mpr fun _ hb => ?_
    obtain ⟨l, -, rfl⟩ := List.mem_map.mp hb
    exact l.str.valid
  · rw [nameText, joinDot_eq_intercalate, List.map_map]
    rfl

theorem WireQuestion.questionAt_encode {buf : Bytes} {p : Nat} (q : WireQuestion)
    (h : readExact buf p q.encode.length = some q.encode) :
    QuestionAt buf p q.decoded (p + q.encode.length) true := by
  obtain ⟨h, hclass⟩ := readExact_append_split h
  obtain ⟨hname, htype⟩ := readExact_append_split h
  obtain ⟨hexp, hroot⟩ := expands_encodeName q.name hname
  obtain ⟨htext, hjoin⟩ := nameText_eq_intercalate q.name
  simp only [List.length_append, writeU16_length, ← Nat.add_assoc] at htype hclass
  simpa [WireQuestion.encode, WireQuestion.decoded, Nat.add_assoc, htext, hjoin] using
    QuestionAt.mk ⟨hexp, fun h => hroot h.2⟩ htype hclass

theorem WireRecord.recordAt_encode {buf : Bytes} {p : Nat} (r : WireRecord)
    (h : readExact buf p r.encode.length = some r.encode) :
    RecordAt buf p r.decoded (p + r.encode.length) true := by
  obtain ⟨h, hdata⟩ := readExact_append_split h
  obtain ⟨h, hlen⟩ := readExact_append_split h
  obtain ⟨h, httl⟩ := readExact_append_split h
  obtain ⟨h, hclass⟩ := readExact_append_split h
  obtain ⟨hname, htype⟩ := readExact_append_split h
  obtain ⟨hexp, hroot⟩ := expands_encodeName r.name hname
  obtain ⟨htext, hjoin⟩ := nameText_eq_intercalate r.name
  simp only [List.length_append, writeU16_length, writeU32_length, ← Nat.add_assoc]
    at htype hclass httl hlen hdata
  rw [show p + r.encode.length = p + (encodeName r.name).length + 10 + r.data.length by
    simp [WireRecord.encode]; omega]
  have := RecordAt.mk ⟨hexp, fun h => hroot h.2⟩ htype hclass httl r.data_length_le hlen hdata
  rwa [htext, hjoin] at this

/-- Items encoded back to back are laid out back to back. -/
theorem sectionAt_encode {α β : Type} {buf : Bytes} {item : Nat → α → Nat → Bool → Prop}
    {encode : β → Bytes} {decoded : β → α}
    (hitem : ∀ x p, readExact buf p (encode x).length = some (encode x) →
      item p (decoded x) (p + (encode x).length) true)
    (xs : List β) {p : Nat}
    (h : readExact buf p (xs.map encode).flatten.length = some (xs.map encode).flatten) :
    SectionAt item p (xs.map decoded) (p + (xs.map encode).flatten.length) true := by
  induction xs generalizing p with
  | nil => exact .nil
  | cons x xs ih =>
    rw [List.map_cons, List.flatten_cons] at h
    obtain ⟨hx, hxs⟩ := readExact_append_split h
    simpa [Nat.add_assoc] using SectionAt.cons (hitem x p hx) (ih hxs)

/-- The uncompressed layout of `Encoding` is one layout of its message, and its labels are
    text. -/
theorem WireMessage.messageAt_encode (m : WireMessage) :
    MessageAt m.encode m.decoded m.encode.length true := by
  have hall : readExact m.encode 0 m.encode.length = some m.encode :=
    readExact_eq_some.mpr ⟨by simp, by simp⟩
  obtain ⟨hall, hD⟩ := readExact_append_split hall
  obtain ⟨hall, hU⟩ := readExact_append_split hall
  obtain ⟨hall, hA⟩ := readExact_append_split hall
  obtain ⟨hH, hQ⟩ := readExact_append_split hall
  simp only [List.length_append, Header.encode_length, Nat.zero_add] at hQ hA hU hD
  refine ⟨hH, ⟨_, _, _, true, true, true, true,
    sectionAt_encode (fun q _ => q.questionAt_encode) _ hQ,
    sectionAt_encode (fun r _ => r.recordAt_encode) _ hA,
    sectionAt_encode (fun r _ => r.recordAt_encode) _ hU, ?_, rfl⟩, ?_, ?_, ?_, ?_⟩
  · simpa [WireMessage.encode, Nat.add_assoc] using
      sectionAt_encode (fun r _ => r.recordAt_encode) _ hD
  all_goals simp [WireMessage.decoded, m.questions_length, m.answers_length,
    m.authorities_length, m.additionals_length]

/-- A reply to a query for `a`: the question's name at offset 12, and the answer's name a
    pointer to it. -/
def compressedReply : Bytes :=
  [0, 7, 0x81, 0x80, 0, 1, 0, 1, 0, 0, 0, 0,
   1, 0x61, 0, 0, 1, 0, 1,
   0xC0, 12, 0, 1, 0, 1, 0, 0, 0, 60, 0, 4, 10, 0, 0, 1]

/-- The packet `compressedReply` means. -/
def compressedReplyPacket : Packet where
  header := ⟨7, 0x8180, 1, 1, 0, 0⟩
  questions := [⟨[0x61], .a, 1⟩]
  answers := [⟨[0x61], .a, 1, 60, [10, 0, 0, 1]⟩]
  authorities := []
  additionals := []

theorem Packet.parseCursor_of_messageAt_compressedReply :
    MessageAt compressedReply compressedReplyPacket 35 true ∧
      ∃ n, ∀ fuel, n ≤ fuel → Packet.parseCursor fuel compressedReply =
        if true then .ok (compressedReplyPacket, 35) else .error (.err .invalidByteInName) :=
  have hq : ExpandsOctets compressedReply 12 [[0x61]] 15 :=
    .label (c := 1) rfl (by decide) (by decide) rfl (.root rfl)
  have hq' : ¬PointsAtRoot compressedReply 12 := fun h =>
    @not_pointsAtRoot_of_finish compressedReply 14 rfl
      ((@pointsAtRoot_label_iff compressedReply 12 14 ⟨[0x61], rfl⟩ (by decide)).mp h)
  have ha : NameAt compressedReply 19 [[0x61]] 21 :=
    ⟨.pointer (c := 0xC0) (d := 12) rfl (by decide) rfl hq, fun h =>
      ((@pointsAtRoot_pointer_iff compressedReply 19 12 21 rfl).mp h.2).elim (by decide) hq'⟩
  have h : MessageAt compressedReply compressedReplyPacket 35 true :=
    { header := by decide
      sections := ⟨19, 35, 35, _, _, _, _,
        .cons (.mk ⟨hq, fun h => hq' h.2⟩ (t := .a) rfl rfl) .nil,
        .cons (.mk ha (t := .a) rfl rfl rfl (by decide) rfl rfl) .nil, .nil, .nil, rfl⟩
      questions_length := rfl
      answers_length := rfl
      authorities_length := rfl
      additionals_length := rfl }
  ⟨h, Packet.parseCursor_of_messageAt h⟩

end ToyDns
