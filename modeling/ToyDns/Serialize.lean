import ToyDns.Encoding
import ToyDns.Query

/-! # The repository's encoders against the uncompressed layout

    `RecordName::encode` writes each `.`-separated part of an ASCII name behind its length
    byte. When every part is a label, 1 to 63 bytes, that is the uncompressed name of those
    labels (`encode_eq_encodeName`), so the decoder reads it back to the name's own text
    (`readAndAdvance_of_encode`), and `Query::serialize` writes a message that the packet decoder
    reads back to its last byte (`parseCursor_serialize`).

    **An empty part is a defect.** `encode` writes a length byte for every part, so an empty
    part — the empty name, a trailing `.`, two dots in a row — becomes a zero byte inside the
    name, where its own comment means one terminator, pushed once. The decoder reads that byte
    as the end of the name: the empty name decodes one byte short of its encoding, wherever it
    stands (`encode_emptyName_reads_short`), and in a query for `a.` the type and class are
    read out of place (`serialize_trailingDotQuery_misreads`). -/

namespace ToyDns

theorem mem_intersperse_of_mem {α : Type} {sep x : α} : ∀ {l : List α}, x ∈ l →
    x ∈ l.intersperse sep
  | [], h => absurd h (List.not_mem_nil x)
  | [_], h => h
  | _ :: _ :: _, h => by
    rw [List.intersperse_cons₂]
    rcases List.mem_cons.mp h with rfl | h
    · exact .head _
    · exact .tail _ (.tail _ (mem_intersperse_of_mem h))

/-- Every byte of a `.`-separated part is a byte of the name. -/
theorem mem_of_mem_splitOn {name part : Bytes} {c : UInt8} (hp : part ∈ name.splitOn 0x2E)
    (hc : c ∈ part) : c ∈ name := by
  have hname : [0x2E].intercalate (name.splitOn 0x2E) = name := List.intercalate_splitOn _ _
  rw [← hname, List.intercalate, List.mem_flatten]
  exact ⟨part, mem_intersperse_of_mem hp, hc⟩

/-- Parts of 1 to 63 ASCII bytes are the bytes of labels. -/
theorem exists_labels {parts : List Bytes}
    (h : ∀ part ∈ parts, (0 < part.length ∧ part.length ≤ 63) ∧ ∀ c ∈ part, c < 0x80) :
    ∃ ls : List Label, ls.map (·.str.bytes) = parts := by
  induction parts with
  | nil => exact ⟨[], rfl⟩
  | cons p ps ih =>
    obtain ⟨⟨hpos, hle⟩, hascii⟩ := h p (.head _)
    obtain ⟨ls, hls⟩ := ih fun q hq => h q (.tail _ hq)
    exact ⟨⟨⟨p, isValidUtf8_of_ascii hascii⟩, hpos, hle⟩ :: ls, by simp [hls]⟩

theorem encodeName_eq_encodeParts (ls : List Label) :
    encodeName ls = RecordName.encodeParts (ls.map (·.str.bytes)) ++ [0] := by
  rw [RecordName.encodeParts_eq]
  induction ls with
  | nil => rfl
  | cons l ls ih => simp [encodeName, ih, Label.encode]

/-- A name whose `.`-separated parts are labels is written by `encode` as the uncompressed
    name of those labels, whose text is the name. -/
theorem encode_eq_encodeName {s : Str} {e : Bytes}
    (hparts : ∀ part ∈ s.bytes.splitOn 0x2E, 0 < part.length ∧ part.length ≤ 63)
    (he : RecordName.encode s = .ok e) : ∃ ls, e = encodeName ls ∧ nameText ls = s.bytes := by
  unfold RecordName.encode at he
  split at he
  · rename_i hascii
    obtain ⟨ls, hls⟩ := exists_labels fun part hp =>
      ⟨hparts part hp, fun c hc => by
        simpa using List.all_eq_true.mp hascii c (mem_of_mem_splitOn hp hc)⟩
    refine ⟨ls, ?_, ?_⟩
    · rw [encodeName_eq_encodeParts, hls]
      exact (Except.ok.inj he).symm
    · rw [nameText, joinDot_eq_intercalate, List.map_map]
      exact (congrArg _ hls).trans (List.intercalate_splitOn _ _)
  · cases he

/-! ## Names -/

/-- **A NAME OF LABELS ROUND-TRIPS**: the encoding of a name whose `.`-separated parts are
    1 to 63 bytes decodes, wherever it stands, to the name, and the cursor ends just after
    it. -/
theorem readAndAdvance_of_encode {s : Str} {e : Bytes} (u t : Bytes) {fuel : Nat}
    (hparts : ∀ part ∈ s.bytes.splitOn 0x2E, 0 < part.length ∧ part.length ≤ 63)
    (he : RecordName.encode s = .ok e) (hfuel : e.length ≤ fuel) :
    RecordName.readAndAdvance fuel (u ++ e ++ t) u.length = .ok (s.bytes, u.length + e.length) := by
  obtain ⟨ls, rfl, htext⟩ := encode_eq_encodeName hparts he
  rw [RecordName.readAndAdvance_encodeName ls (readExact_middle u _ t) hfuel, htext]

/-- The name `a.b`. -/
def dottedName : Str := ⟨[0x61, 0x2E, 0x62], by decide⟩

theorem readAndAdvance_of_encode_dottedName :
    (∀ part ∈ dottedName.bytes.splitOn 0x2E, 0 < part.length ∧ part.length ≤ 63) ∧
      RecordName.encode dottedName = .ok [1, 0x61, 1, 0x62, 0] ∧ [1, 0x61, 1, 0x62, 0].length ≤ 5 ∧
      RecordName.readAndAdvance 5 ([0xFF] ++ [1, 0x61, 1, 0x62, 0] ++ [0xEE]) [0xFF].length =
        .ok (dottedName.bytes, [0xFF].length + [1, 0x61, 1, 0x62, 0].length) :=
  ⟨by decide, by decide, by decide,
    readAndAdvance_of_encode [0xFF] [0xEE] (by decide) (by decide) (by decide)⟩

/-- The empty name. -/
def emptyName : Str := ⟨[], rfl⟩

/-- The empty name is written as an empty part and the terminator, `[0, 0]`; wherever the
    two bytes stand, the decoder reads the empty name from them and stops after the first. -/
theorem encode_emptyName_reads_short :
    RecordName.encode emptyName = .ok [0, 0] ∧
      ∀ (u t : Bytes) (fuel : Nat),
        RecordName.readAndAdvance (fuel + 1) (u ++ [0, 0] ++ t) u.length =
          .ok ([], u.length + 1) := by
  refine ⟨by decide, fun u t fuel => ?_⟩
  have h0 : readU8 (u ++ [0, 0] ++ t) u.length = some 0 := by
    simp [readU8, List.getElem_append_right]
  rw [RecordName.readAndAdvance, RecordName.readAndAdvanceLoop_succ,
    RecordName.nameStep_eq_finish.mpr h0]
  rfl

/-- The name `a.`, with a trailing dot. -/
def trailingDotName : Str := ⟨[0x61, 0x2E], by decide⟩

/-! ## Queries -/

/-- **A QUERY READS BACK**: a query for a name of labels is decoded to its header and its one
    question, name, type and class `IN`, and the decode ends at its last byte. -/
theorem parseCursor_serialize {q : Query} {randomId : UInt16} {bytes : Bytes} {fuel : Nat}
    (hparts : ∀ part ∈ q.domainName.bytes.splitOn 0x2E, 0 < part.length ∧ part.length ≤ 63)
    (hs : q.serialize randomId = .ok bytes) (hfuel : bytes.length ≤ fuel) :
    Packet.parseCursor fuel bytes =
      .ok ({ header := { id := randomId, flags := 0, numQuestions := 1, numAnswers := 0,
                         numAuthorities := 0, numAdditionals := 0 },
             questions := [{ name := q.domainName.bytes, qType := q.recordType, qClass := 1 }],
             answers := [], authorities := [], additionals := [] }, bytes.length) := by
  obtain ⟨e, he, hs⟩ := bind_eq_ok.mp hs
  obtain ⟨ls, rfl, htext⟩ := encode_eq_encodeName hparts he
  let m : WireMessage :=
    { header := ⟨randomId, 0, 1, 0, 0, 0⟩, questions := [⟨ls, q.recordType, classIn⟩],
      answers := [], authorities := [], additionals := [], questions_length := rfl,
      answers_length := rfl, authorities_length := rfl, additionals_length := rfl }
  have hbytes : bytes = m.encode := by
    cases hs
    simp [m, WireMessage.encode, Header.encode, WireQuestion.encode]
  subst hbytes
  rw [m.parseCursor_encode hfuel]
  simp [m, WireMessage.decoded, WireQuestion.decoded, htext, classIn]

/-- The query for `a.b`, type A, with id 7. -/
def dottedQueryBytes : Bytes :=
  [0, 7, 0, 0, 0, 1, 0, 0, 0, 0, 0, 0, 1, 0x61, 1, 0x62, 0, 0, 1, 0, 1]

theorem parseCursor_serialize_dottedName :
    (∀ part ∈ dottedName.bytes.splitOn 0x2E, 0 < part.length ∧ part.length ≤ 63) ∧
      Query.serialize ⟨dottedName, .a⟩ 7 = .ok dottedQueryBytes ∧
      dottedQueryBytes.length ≤ 21 ∧
      Packet.parseCursor 21 dottedQueryBytes =
        .ok ({ header := ⟨7, 0, 1, 0, 0, 0⟩, questions := [⟨dottedName.bytes, .a, 1⟩],
               answers := [], authorities := [], additionals := [] }, dottedQueryBytes.length) :=
  have hparts : ∀ part ∈ dottedName.bytes.splitOn 0x2E, 0 < part.length ∧ part.length ≤ 63 := by
    decide
  have hs : Query.serialize ⟨dottedName, .a⟩ 7 = .ok dottedQueryBytes := by decide
  have hfuel : dottedQueryBytes.length ≤ 21 := by decide
  ⟨hparts, hs, hfuel, @parseCursor_serialize ⟨dottedName, .a⟩ 7 dottedQueryBytes 21 hparts hs hfuel⟩

/-- A query for `a.`, type A. -/
def trailingDotQuery : Query := ⟨trailingDotName, .a⟩

/-- The query for `a.`, with id 0. -/
def trailingDotQueryBytes : Bytes := [0, 0, 0, 0, 0, 1, 0, 0, 0, 0, 0, 0, 1, 0x61, 0, 0, 0, 1, 0, 1]

/-- The query for `a.` is decoded with the name `a`, the type read from the extra zero byte
    and the type's first byte, class 256, and one byte left over. -/
theorem serialize_trailingDotQuery_misreads :
    trailingDotQuery.serialize 0 = .ok trailingDotQueryBytes ∧
      Packet.parseCursor 2 trailingDotQueryBytes =
        .ok ({ header := ⟨0, 0, 1, 0, 0, 0⟩, questions := [⟨[0x61], .invalid, 256⟩],
               answers := [], authorities := [], additionals := [] }, 19) ∧
      ∀ fuel p, Packet.parse fuel trailingDotQueryBytes = .ok p →
        p.questions = [⟨[0x61], .invalid, 256⟩] :=
  ⟨by decide, by decide, fun _ _ h => by
    rw [Packet.parse_ok_unique h (show Packet.parse 2 trailingDotQueryBytes =
      .ok ⟨⟨0, 0, 1, 0, 0, 0⟩, [⟨[0x61], .invalid, 256⟩], [], [], []⟩ by decide)]⟩

end ToyDns
