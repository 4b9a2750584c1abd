import ToyDns.Wire

/-! # `RecordName` — the name codec of `record_name.rs`

    * `encode` checks that the name is ASCII, splits it at every `.` and writes each part
      behind a length byte `part.len() as u8`, then a zero byte. It checks nothing else: an
      empty part is written as a zero length byte, and a length past 255 wraps.
    * `readAndAdvance` reads length bytes in a loop. Zero ends the name; a byte with either
      of the upper two bits set is a compression pointer, which
      `readAndAdvanceCompressedBytes` follows by a nested decode at its 14-bit offset before
      restoring the cursor, and which always ends the name; any other byte is the length of
      a label, whose bytes must be UTF-8. The name is the `.`-join of the parts read.

    Nothing bounds how often a pointer is followed, so the decode may not return: the model
    counts the length bytes read against a `fuel` and reports `Fault.outOfFuel` when it is
    spent. -/

namespace ToyDns
namespace RecordName

/-- `COMPRESSION_SIGNIFIER`: the upper two bits of a length byte. -/
def compressionSignifier : UInt8 := 0xC0

/-! ## Encoding -/

/-- The loop of `encode`: each part behind its length byte, `part.len() as u8`. -/
def encodeParts (parts : List Bytes) : Bytes :=
  parts.foldl (fun nameBytes part => nameBytes ++ (UInt8.ofNat part.length :: part)) []

/-- `RecordName::encode`. For an ASCII name, `part.chars().map(|c| c as u8)` are the part's
    own bytes. -/
def encode (name : Str) : Except DnsError Bytes :=
  if name.bytes.all (· < 0x80) then .ok (encodeParts (name.bytes.splitOn 0x2E) ++ [0])
  else .error .invalidByteInName

theorem encodeParts_eq (parts : List Bytes) :
    encodeParts parts = (parts.map fun part => UInt8.ofNat part.length :: part).flatten := by
  suffices ∀ acc,
      parts.foldl (fun nameBytes part => nameBytes ++ (UInt8.ofNat part.length :: part)) acc
      = acc ++ (parts.map fun part => UInt8.ofNat part.length :: part).flatten from this []
  induction parts with
  | nil => simp
  | cons p ps ih => intro acc; simp [ih]

/-! ## Decoding -/

/-- `for _ in 0..length { part_bytes.push(cursor.read_u8()?) }`: a label's bytes. -/
def readLabel (buf : Bytes) (pos : Nat) : Nat → Option Bytes
  | 0 => some []
  | n + 1 => do
    let byte ← readU8 buf pos
    let rest ← readLabel buf (pos + 1) n
    pure (byte :: rest)

/-- `RecordName::read_and_advance_compressed_bytes` with the cursor at `pos`, just after the
    length byte, whose upper two bits are already cleared in `length`. The nested
    `RecordName::read_and_advance` it calls is `readName`. -/
def readAndAdvanceCompressedBytes (readName : Nat → Except Fault (Bytes × Nat))
    (buf : Bytes) (length : UInt8) (pos : Nat) : Except Fault (Bytes × Nat) := do
  let nextByte ← okOr (readU8 buf pos) .decompressReadByte
  let shiftedLength := length.toNat <<< 8
  let offset := shiftedLength ||| nextByte.toNat
  let previousPosition := pos + 1
  let target ← okOr (seek offset) .decompressSkip
  let (result, _) ← readName target
  let restored ← okOr (seek previousPosition) .decompressRestore
  .ok (result, restored)

/-- The loop of `RecordName::read_and_advance`, the parts read so far in `parts` and the
    cursor at `pos`; `fuel` bounds the length bytes still to be read. -/
def readAndAdvanceLoop : (fuel : Nat) → (buf : Bytes) → (pos : Nat) → (parts : List Str) →
    Except Fault (Bytes × Nat)
  | 0, _, _, _ => .error .outOfFuel
  | fuel + 1, buf, pos, parts =>
    match readU8 buf pos with
    | none => .error (.err .readLength)
    | some length =>
      if length = 0 then .ok (joinDot parts, pos + 1)
      else if 0 < length &&& compressionSignifier then do
        let (compressed, restored) ← readAndAdvanceCompressedBytes
          (fun target => readAndAdvanceLoop fuel buf target []) buf
          (length &&& ~~~compressionSignifier) (pos + 1)
        let partString ← okOr (Str.fromUtf8 compressed) .invalidByteInName
        .ok (joinDot (parts ++ [partString]), restored)
      else do
        let partBytes ← okOr (readLabel buf (pos + 1) length.toNat) .readByte
        let partString ← okOr (Str.fromUtf8 partBytes) .invalidByteInName
        readAndAdvanceLoop fuel buf (pos + 1 + length.toNat) (parts ++ [partString])

/-- `RecordName::read_and_advance` on a cursor at `pos`: the name's bytes and the cursor
    after it. -/
def readAndAdvance (fuel : Nat) (buf : Bytes) (pos : Nat) : Except Fault (Bytes × Nat) :=
  readAndAdvanceLoop fuel buf pos []

/-! ## The length byte -/

/-- The code's pointer test `length & COMPRESSION_SIGNIFIER > 0` holds exactly from `0x40`
    on: either upper bit makes a pointer, not only both. -/
theorem isPointer_iff (length : UInt8) :
    0 < length &&& compressionSignifier ↔ 64 ≤ length.toNat := by
  rw [UInt8.lt_def, BitVec.lt_def]
  show 0 < (length &&& compressionSignifier).toNat ↔ _
  rw [UInt8.and_toNat]
  have key : ∀ n, n < 256 → (0 < n &&& 192 ↔ 64 ≤ n) := by
    set_option maxRecDepth 4000 in decide
  exact key _ length.toNat_lt_size

/-- The pointer's offset: the low six bits of the length byte, then the next byte. -/
theorem pointerOffset_eq (length next : UInt8) :
    (length &&& ~~~compressionSignifier).toNat <<< 8 ||| next.toNat
      = length.toNat % 64 * 256 + next.toNat := by
  have hlow : (length &&& ~~~compressionSignifier).toNat = length.toNat % 64 := by
    rw [UInt8.and_toNat]
    exact Nat.and_pow_two_sub_one_eq_mod length.toNat 6
  rw [hlow, Nat.shiftLeft_eq, Nat.mul_comm, ← Nat.mul_add_lt_is_or (i := 8) next.toNat_lt_size]

/-- The byte loop reads what `read_exact` would. -/
theorem readLabel_eq (buf : Bytes) (pos n : Nat) : readLabel buf pos n = readExact buf pos n := by
  induction n generalizing pos with
  | zero => simp [readLabel, readExact]
  | succ n ih =>
    rw [readLabel, ih]
    rcases Nat.lt_or_ge pos buf.length with hpos | hpos
    · have hdrop : buf.drop pos = buf[pos] :: buf.drop (pos + 1) := List.drop_eq_getElem_cons hpos
      simp only [readU8, List.getElem?_eq_getElem hpos, Option.some_bind, readExact, hdrop,
        List.take_succ_cons]
      by_cases h : n ≤ buf.length - (pos + 1)
      · rw [if_pos h, if_pos (show n + 1 ≤ buf.length - pos by omega)]; rfl
      · rw [if_neg h, if_neg (show ¬n + 1 ≤ buf.length - pos by omega)]; rfl
    · simp only [readU8, List.getElem?_eq_none hpos, readExact]
      rw [if_neg (show ¬n + 1 ≤ buf.length - pos by omega)]
      rfl

end RecordName
end ToyDns
