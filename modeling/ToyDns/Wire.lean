import Mathlib.Data.List.Basic

/-! # Wire primitives — the cursor, its errors, and text bytes

    Every decoder of `toy_dns_lib` reads a `Cursor<&[u8]>` over the whole DNS message. The
    model passes the buffer and the cursor's position explicitly:

    * a read at `pos` returns its value, the cursor then standing just after the bytes
      read, or it fails; no caller observes where a failed read leaves the cursor;
    * `Cursor::seek` with `SeekFrom::Start` never fails: it moves the cursor to any offset,
      past the end of the buffer included;
    * `DnsError` is `errors.rs`; `Fault` adds the one way a call of the model can end that
      is not an `Err` of the source: not returning at all, seen as running out of fuel;
    * `Str` is a Rust string: bytes that are valid UTF-8 by construction. -/

namespace ToyDns

/-- `DnsError` of `errors.rs`. -/
inductive DnsError where
  | parseResponse | parseId | parseFlag | parseQuestionCount | parseAnswerCount
  | parseAuthorityCount | parseAdditionalCount | readByte | readLength | readQuestionType
  | readQuestionClass | readRecordType | readRecordClass | readRecordTTL
  | readRecordDataLength | readRecordData
  | invalidByteInName | unrecognizedRecordType
  | socketBind | socketSend | socketRead
  | decompressReadByte | decompressSkip | decompressRestore
  | querySerialization
  | unknownDomainName
  deriving DecidableEq, Repr

/-- Why a call of the model returns no value: the source returned `Err(e)`, or the source
    would not have returned at all, which the model sees as its fuel running out. -/
inductive Fault where
  | err (e : DnsError)
  | outOfFuel
  deriving DecidableEq, Repr

instance instDecidableEqExcept {ε α : Type} [DecidableEq ε] [DecidableEq α] :
    DecidableEq (Except ε α)
  | .ok a, .ok b => decidable_of_iff (a = b) (by simp)
  | .error a, .error b => decidable_of_iff (a = b) (by simp)
  | .ok _, .error _ => isFalse Except.noConfusion
  | .error _, .ok _ => isFalse Except.noConfusion

/-- A `&[u8]`: the message buffer, or any byte string the code builds. -/
abbrev Bytes := List UInt8

/-- `let Ok(x) = read else { return Err(e) };` — a failed read becomes the caller's own
    error. -/
def okOr {α : Type} (o : Option α) (e : DnsError) : Except Fault α :=
  match o with
  | some a => .ok a
  | none => .error (.err e)

@[simp] theorem okOr_some {α : Type} (a : α) (e : DnsError) : okOr (some a) e = .ok a := rfl

@[simp] theorem okOr_none {α : Type} (e : DnsError) :
    okOr (none : Option α) e = .error (.err e) := rfl

@[simp] theorem ok_bind {ε α β : Type} (a : α) (f : α → Except ε β) :
    (Except.ok a >>= f) = f a := rfl

/-- Peeling one `←` of a successful `Except` computation. -/
theorem bind_eq_ok {ε α β : Type} {x : Except ε α} {f : α → Except ε β} {b : β} :
    x >>= f = .ok b ↔ ∃ a, x = .ok a ∧ f a = .ok b := by
  cases x <;> simp [bind, Except.bind]

/-- Peeling one `←` of a computation that ran out of fuel. -/
theorem bind_eq_outOfFuel {α β : Type} {x : Except Fault α} {f : α → Except Fault β} :
    x >>= f = .error .outOfFuel ↔
      x = .error .outOfFuel ∨ ∃ a, x = .ok a ∧ f a = .error .outOfFuel := by
  cases x <;> simp [bind, Except.bind]

@[simp] theorem okOr_eq_ok {α : Type} {o : Option α} {e : DnsError} {a : α} :
    okOr o e = .ok a ↔ o = some a := by
  cases o <;> simp [okOr]

@[simp] theorem okOr_ne_outOfFuel {α : Type} (o : Option α) (e : DnsError) :
    okOr o e ≠ .error .outOfFuel := by
  cases o <;> simp [okOr]

/-! ## Cursor reads -/

/-- `cursor.read_u8()` at `pos`. -/
def readU8 (buf : Bytes) (pos : Nat) : Option UInt8 := buf[pos]?

/-- `cursor.read_exact(&mut data)` of `n` bytes at `pos`: all of them when that many remain,
    or a failure. Reading nothing succeeds wherever the cursor is. -/
def readExact (buf : Bytes) (pos n : Nat) : Option Bytes :=
  if n ≤ buf.length - pos then some ((buf.drop pos).take n) else none

/-- The big-endian value of a byte string, as `u16::from_be_bytes` and `u32::from_be_bytes`
    compute it. -/
def beValue (bs : Bytes) : Nat := bs.foldl (fun acc b => acc * 256 + b.toNat) 0

/-- `cursor.read_u16::<BigEndian>()`. -/
def readU16 (buf : Bytes) (pos : Nat) : Option UInt16 :=
  (readExact buf pos 2).map fun bs => UInt16.ofNat (beValue bs)

/-- `cursor.read_u32::<BigEndian>()`. -/
def readU32 (buf : Bytes) (pos : Nat) : Option UInt32 :=
  (readExact buf pos 4).map fun bs => UInt32.ofNat (beValue bs)

/-- `cursor.seek(SeekFrom::Start(offset))`: a `Cursor` accepts every offset, also one past
    the end of its buffer, and later reads there fail. -/
def seek (offset : Nat) : Option Nat := some offset

/-- `bytes.write_u16::<BigEndian>(x)` on a `Vec<u8>`, which cannot fail. -/
def writeU16 (x : UInt16) : Bytes := [UInt8.ofNat (x.toNat / 256), UInt8.ofNat x.toNat]

theorem readU8_eq_some {buf : Bytes} {pos : Nat} {b : UInt8} :
    readU8 buf pos = some b ↔ ∃ h : pos < buf.length, buf.get ⟨pos, h⟩ = b := by
  simp [readU8, List.getElem?_eq_some_iff]

@[simp] theorem readU8_append_left {buf : Bytes} {pos : Nat} (t : Bytes)
    (h : pos < buf.length) : readU8 (buf ++ t) pos = readU8 buf pos := by
  simp [readU8, List.getElem?_append_left h]

theorem readU8_isSome {buf : Bytes} {pos : Nat} :
    (readU8 buf pos).isSome ↔ pos < buf.length := by
  simp only [readU8, Option.isSome_iff_exists, List.getElem?_eq_some_iff]
  exact ⟨fun ⟨_, h, _⟩ => h, fun h => ⟨_, h, rfl⟩⟩

theorem readExact_eq_some {buf : Bytes} {pos n : Nat} {bs : Bytes} :
    readExact buf pos n = some bs ↔ n ≤ buf.length - pos ∧ (buf.drop pos).take n = bs := by
  unfold readExact; split <;> simp_all

@[simp] theorem readExact_length {buf : Bytes} {pos n : Nat} {bs : Bytes}
    (h : readExact buf pos n = some bs) : bs.length = n := by
  obtain ⟨hle, rfl⟩ := readExact_eq_some.mp h
  simp; omega

/-- A read that succeeds within `buf` reads the same bytes in any extension of `buf`. -/
theorem readExact_append {buf : Bytes} {pos n : Nat} {bs : Bytes} (t : Bytes)
    (h : readExact buf pos n = some bs) : readExact (buf ++ t) pos n = some bs := by
  obtain ⟨hle, rfl⟩ := readExact_eq_some.mp h
  refine readExact_eq_some.mpr ⟨by simp; omega, ?_⟩
  rcases Nat.eq_zero_or_pos n with rfl | hn
  · simp
  · rw [List.drop_append_of_le_length (by omega), List.take_append_of_le_length (by simp; omega)]

/-- Reading `w.length` bytes where `w` stands in the buffer reads `w`. -/
theorem readExact_middle (pre w rest : Bytes) :
    readExact (pre ++ w ++ rest) pre.length w.length = some w := by
  refine readExact_eq_some.mpr ⟨by simp, ?_⟩
  simp [List.drop_append_eq_append_drop, List.take_append_eq_append_take]

/-- A read of more bytes than remain fails. -/
theorem readExact_eq_none {buf : Bytes} {pos n : Nat} (h : buf.length - pos < n) :
    readExact buf pos n = none := by
  simp [readExact]; omega

theorem readU8_append {buf : Bytes} {pos : Nat} {b : UInt8} (t : Bytes)
    (h : readU8 buf pos = some b) : readU8 (buf ++ t) pos = some b := by
  rwa [readU8_append_left t (readU8_isSome.mp (by rw [h]; rfl))]

theorem readU16_append {buf : Bytes} {pos : Nat} {x : UInt16} (t : Bytes)
    (h : readU16 buf pos = some x) : readU16 (buf ++ t) pos = some x := by
  obtain ⟨bs, hbs, rfl⟩ := Option.map_eq_some'.mp h
  simp [readU16, readExact_append t hbs]

theorem readU32_append {buf : Bytes} {pos : Nat} {x : UInt32} (t : Bytes)
    (h : readU32 buf pos = some x) : readU32 (buf ++ t) pos = some x := by
  obtain ⟨bs, hbs, rfl⟩ := Option.map_eq_some'.mp h
  simp [readU32, readExact_append t hbs]

/-- A successful `u16` read lies inside the buffer. -/
theorem readU16_le {buf : Bytes} {pos : Nat} {x : UInt16} (h : readU16 buf pos = some x) :
    pos + 2 ≤ buf.length := by
  obtain ⟨bs, hbs, -⟩ := Option.map_eq_some'.mp h
  have := (readExact_eq_some.mp hbs).1
  omega

/-- A successful `u32` read lies inside the buffer. -/
theorem readU32_le {buf : Bytes} {pos : Nat} {x : UInt32} (h : readU32 buf pos = some x) :
    pos + 4 ≤ buf.length := by
  obtain ⟨bs, hbs, -⟩ := Option.map_eq_some'.mp h
  have := (readExact_eq_some.mp hbs).1
  omega

@[simp] theorem writeU16_length (x : UInt16) : (writeU16 x).length = 2 := rfl

/-- A read of `a ++ b` is a read of `a`, then a read of `b` just after it. -/
theorem readExact_append_split {buf : Bytes} {pos : Nat} {a b : Bytes}
    (h : readExact buf pos (a ++ b).length = some (a ++ b)) :
    readExact buf pos a.length = some a ∧ readExact buf (pos + a.length) b.length = some b := by
  obtain ⟨hle, heq⟩ := readExact_eq_some.mp h
  rw [List.length_append] at hle
  rw [List.length_append, List.take_add, List.drop_drop] at heq
  obtain ⟨ha, hb⟩ := List.append_inj heq (by simp; omega)
  exact ⟨readExact_eq_some.mpr ⟨by omega, ha⟩, readExact_eq_some.mpr ⟨by omega, hb⟩⟩

theorem readU8_of_readExact {buf : Bytes} {pos : Nat} {b : UInt8}
    (h : readExact buf pos 1 = some [b]) : readU8 buf pos = some b := by
  have heq := (readExact_eq_some.mp h).2
  rw [List.take_one, List.head?_drop] at heq
  rw [readU8]
  cases hb : buf[pos]? <;> simp_all

/-- **BIG-ENDIAN ROUND TRIP**: a written `u16` reads back. -/
theorem readU16_of_readExact {buf : Bytes} {pos : Nat} {x : UInt16}
    (h : readExact buf pos 2 = some (writeU16 x)) : readU16 buf pos = some x := by
  have hx := x.toNat_lt_size
  rw [readU16, h]
  simp only [Option.map_some', writeU16, beValue, List.foldl, UInt8.toNat, UInt8.ofNat,
    Fin.ofNat, BitVec.toNat_ofNat, Option.some.injEq]
  apply UInt16.toNat.inj
  rw [UInt16.toNat_ofNat_of_lt] <;> simp [UInt16.size] at hx ⊢ <;> omega

/-! ## Text: UTF-8 validity and strings -/

/-- Where a UTF-8 validator stands between two bytes: at a character boundary, or inside a
    character with `n + 1` continuation bytes still to come, the next of them in `lo..=hi`. -/
inductive Utf8State where
  | boundary
  | inside (n : Nat) (lo hi : UInt8)
  deriving DecidableEq

/-- One byte of UTF-8 validation, Table 3-7 of the Unicode Standard: the lead byte fixes the
    length of the character and the range of its second byte (no overlong forms, no
    surrogates, nothing past U+10FFFF); later bytes are continuation bytes `0x80..=0xBF`. -/
def utf8Step : Utf8State → UInt8 → Option Utf8State
  | .boundary, b =>
    if b < 0x80 then some .boundary
    else if 0xC2 ≤ b && b ≤ 0xDF then some (.inside 0 0x80 0xBF)
    else if b = 0xE0 then some (.inside 1 0xA0 0xBF)
    else if (0xE1 ≤ b && b ≤ 0xEC) || b = 0xEE || b = 0xEF then some (.inside 1 0x80 0xBF)
    else if b = 0xED then some (.inside 1 0x80 0x9F)
    else if b = 0xF0 then some (.inside 2 0x90 0xBF)
    else if 0xF1 ≤ b && b ≤ 0xF3 then some (.inside 2 0x80 0xBF)
    else if b = 0xF4 then some (.inside 2 0x80 0x8F)
    else none
  | .inside n lo hi, b =>
    if lo ≤ b && b ≤ hi then
      some (match n with
        | 0 => .boundary
        | k + 1 => .inside k 0x80 0xBF)
    else none

/-- The validator run over a byte string. -/
def utf8Run : Utf8State → Bytes → Option Utf8State
  | s, [] => some s
  | s, b :: rest => (utf8Step s b).bind (utf8Run · rest)

/-- Well-formed UTF-8: what `String::from_utf8` and `std::str::from_utf8` accept. -/
def isValidUtf8 (bs : Bytes) : Bool := utf8Run .boundary bs = some .boundary

theorem utf8Run_append (s : Utf8State) (a b : Bytes) :
    utf8Run s (a ++ b) = (utf8Run s a).bind (utf8Run · b) := by
  induction a generalizing s with
  | nil => rfl
  | cons c rest ih => simp [utf8Run, ih, Option.bind_assoc]

/-- **CONCATENATION**: two valid UTF-8 strings concatenate to one. -/
theorem isValidUtf8_append {a b : Bytes} (ha : isValidUtf8 a) (hb : isValidUtf8 b) :
    isValidUtf8 (a ++ b) := by
  simp only [isValidUtf8, decide_eq_true_eq] at ha hb ⊢
  rw [utf8Run_append, ha, Option.some_bind, hb]

/-- ASCII text is valid UTF-8. -/
theorem isValidUtf8_of_ascii {bs : Bytes} (h : ∀ c ∈ bs, c < 0x80) : isValidUtf8 bs := by
  induction bs with
  | nil => rfl
  | cons b rest ih =>
    simp only [List.mem_cons, forall_eq_or_imp] at h
    have hstep : utf8Step .boundary b = some .boundary := if_pos h.1
    have hrest := ih h.2
    simp only [isValidUtf8, decide_eq_true_eq] at hrest ⊢
    rw [utf8Run, hstep, Option.some_bind, hrest]

/-- A Rust `&str` or `String`: bytes that are valid UTF-8. -/
structure Str where
  bytes : Bytes
  valid : isValidUtf8 bytes = true
  deriving DecidableEq

/-- `std::str::from_utf8` / `String::from_utf8`: the bytes as a string when they are valid
    UTF-8. -/
def Str.fromUtf8 (bs : Bytes) : Option Str :=
  if h : isValidUtf8 bs = true then some ⟨bs, h⟩ else none

@[simp] theorem Str.fromUtf8_bytes (s : Str) : Str.fromUtf8 s.bytes = some s := by
  simp [Str.fromUtf8, s.valid]

theorem Str.fromUtf8_eq_some {bs : Bytes} {s : Str} :
    Str.fromUtf8 bs = some s ↔ s.bytes = bs := by
  unfold Str.fromUtf8
  split
  · constructor
    · rintro ⟨⟩; rfl
    · intro h; cases s; cases h; rfl
  · constructor
    · intro h; cases h
    · intro h; subst h; simp_all [s.valid]

/-- `parts.join(".")`, as bytes: the strings with a `.` between each two. -/
def joinDot : List Str → Bytes
  | [] => []
  | [p] => p.bytes
  | p :: ps => p.bytes ++ 0x2E :: joinDot ps

/-- A dot-join of strings is valid UTF-8 again, so `String::from_utf8` of it succeeds. -/
theorem isValidUtf8_joinDot (parts : List Str) : isValidUtf8 (joinDot parts) := by
  induction parts using joinDot.induct with
  | case1 => rfl
  | case2 p => exact p.valid
  | case3 p ps hps ih =>
    rw [joinDot.eq_3 p ps hps]
    exact isValidUtf8_append p.valid (isValidUtf8_append (a := [0x2E]) (by decide) ih)

/-- The dot-join is the parts' bytes with `.` between them. -/
theorem joinDot_eq_intercalate (parts : List Str) :
    joinDot parts = [0x2E].intercalate (parts.map Str.bytes) := by
  induction parts using joinDot.induct with
  | case1 => rfl
  | case2 p => simp [joinDot, List.intercalate]
  | case3 p ps hps ih =>
    obtain ⟨q, qs, rfl⟩ := List.exists_cons_of_ne_nil hps
    rw [joinDot.eq_3 p _ hps, ih]
    simp [List.intercalate, List.intersperse_cons₂]

/-- Two non-empty lists of parts join with one `.` between them. -/
theorem joinDot_append {xs ys : List Str} (hx : xs ≠ []) (hy : ys ≠ []) :
    joinDot (xs ++ ys) = joinDot xs ++ 0x2E :: joinDot ys := by
  induction xs using joinDot.induct with
  | case1 => exact absurd rfl hx
  | case2 p =>
    obtain ⟨q, qs, rfl⟩ := List.exists_cons_of_ne_nil hy
    rfl
  | case3 p ps hps ih =>
    rw [List.cons_append, joinDot.eq_3 p _ (fun h => hps (List.append_eq_nil.mp h).1), ih hps,
      joinDot.eq_3 p ps hps]
    simp

/-- One more part joins behind a `.`. -/
theorem joinDot_append_singleton (xs : List Str) (s : Str) (hx : xs ≠ []) :
    joinDot (xs ++ [s]) = joinDot xs ++ 0x2E :: s.bytes :=
  joinDot_append hx (List.cons_ne_nil s [])

/-- A part that is the join of `ys`, then `tail`, joins as `ys` would, then `tail`. -/
theorem joinDot_append_joinDot {xs ys : List Str} {s : Str} {tail : Bytes}
    (hs : s.bytes = joinDot ys ++ tail) (hy : ys ≠ []) :
    joinDot (xs ++ [s]) = joinDot (xs ++ ys) ++ tail := by
  rcases eq_or_ne xs [] with rfl | hx
  · exact hs
  · rw [joinDot_append_singleton xs s hx, hs, joinDot_append hx hy]
    simp

end ToyDns
