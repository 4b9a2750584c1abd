import ToyDns.RecordName

/-! # One pass of the name decoder, and the offsets it visits

    `readAndAdvanceLoop` is a small state machine over cursor positions. What one pass does
    depends only on the buffer and the position of the length byte:

    * `nameStep` names the four outcomes of a pass — a failure, the end of the name, a
      label after which the loop goes on, a pointer whose target is decoded as a nested
      name that ends this one — and `readAndAdvanceLoop_succ` rewrites the loop through it;
    * the positions of the length bytes read form the **offset chain** `offsetChain`; a
      failure anywhere along the chain is the failure of the whole decode, whatever the
      parts read before (`readAndAdvanceLoop_of_offsetChain`);
    * every name the loop returns is valid UTF-8, so the `String::from_utf8` after a
      pointer never fails. -/

namespace ToyDns
namespace RecordName

/-- What one pass of the decode loop makes of the length byte at a position. -/
inductive NameStep where
  /-- the pass returns `Err(e)` -/
  | fail (e : DnsError)
  /-- a zero byte: the name ends -/
  | finish
  /-- a label `part`: the loop goes on at `next` -/
  | label (part : Str) (next : Nat)
  /-- a compression pointer: the name at `target` ends this one, and the cursor is restored
      to `restored` -/
  | pointer (target restored : Nat)
  deriving DecidableEq

/-- The pass at `pos`, by the branches of the loop and of
    `read_and_advance_compressed_bytes`; the two `seek`s never fail. -/
def nameStep (buf : Bytes) (pos : Nat) : NameStep :=
  match readU8 buf pos with
  | none => .fail .readLength
  | some length =>
    if length = 0 then .finish
    else if 0 < length &&& compressionSignifier then
      match readU8 buf (pos + 1) with
      | none => .fail .decompressReadByte
      | some nextByte =>
        .pointer ((length &&& ~~~compressionSignifier).toNat <<< 8 ||| nextByte.toNat) (pos + 2)
    else
      match readLabel buf (pos + 1) length.toNat with
      | none => .fail .readByte
      | some partBytes =>
        match Str.fromUtf8 partBytes with
        | none => .fail .invalidByteInName
        | some part => .label part (pos + 1 + length.toNat)

/-- What the loop makes of a pointer's nested name: the last part of this one. -/
def pointerResult (parts : List Str) (restored : Nat) (result : Bytes) :
    Except Fault (Bytes × Nat) :=
  match Str.fromUtf8 result with
  | none => .error (.err .invalidByteInName)
  | some part => .ok (joinDot (parts ++ [part]), restored)

/-- **ONE PASS**: the decode loop, rewritten through `nameStep`. -/
theorem readAndAdvanceLoop_succ (fuel : Nat) (buf : Bytes) (pos : Nat) (parts : List Str) :
    readAndAdvanceLoop (fuel + 1) buf pos parts =
      match nameStep buf pos with
      | .fail e => .error (.err e)
      | .finish => .ok (joinDot parts, pos + 1)
      | .label part next => readAndAdvanceLoop fuel buf next (parts ++ [part])
      | .pointer target restored =>
        readAndAdvanceLoop fuel buf target [] >>= fun r => pointerResult parts restored r.1 := by
  rw [readAndAdvanceLoop, nameStep]
  rcases readU8 buf pos with _ | length
  · rfl
  · simp only
    split_ifs
    · rfl
    · simp only [readAndAdvanceCompressedBytes, okOr, seek, bind, Except.bind]
      rcases readU8 buf (pos + 1) with _ | nextByte
      · rfl
      · simp only
        rcases readAndAdvanceLoop fuel buf
          ((length &&& ~~~compressionSignifier).toNat <<< 8 ||| nextByte.toNat) [] with
          _ | ⟨result, _⟩
        · rfl
        · simp only [pointerResult]
          rcases Str.fromUtf8 result with _ | part <;> rfl
    · rcases readLabel buf (pos + 1) length.toNat with _ | partBytes
      · rfl
      · simp only [okOr, bind, Except.bind]
        rcases Str.fromUtf8 partBytes with _ | part <;> rfl

/-- A pass never fails with `DecompressSkip` or `DecompressRestore`: `Cursor::seek` to an
    offset from the start succeeds for every offset. -/
theorem nameStep_ne_fail_seek (buf : Bytes) (pos : Nat) :
    nameStep buf pos ≠ .fail .decompressSkip ∧ nameStep buf pos ≠ .fail .decompressRestore := by
  unfold nameStep
  split
  · simp
  · split_ifs
    · simp
    · split <;> simp
    · split
      · simp
      · split <;> simp

/-- A pass ends the name exactly at a zero byte. -/
theorem nameStep_eq_finish {buf : Bytes} {pos : Nat} :
    nameStep buf pos = .finish ↔ readU8 buf pos = some 0 := by
  unfold nameStep
  rcases readU8 buf pos with _ | length
  · simp
  · dsimp only
    rw [Option.some.injEq]
    split_ifs with h0 hp
    · simp [h0]
    · refine iff_of_false ?_ h0
      split <;> simp
    · refine iff_of_false ?_ h0
      split
      · simp
      · split <;> simp

/-- A pass follows a pointer exactly at a length byte from `0x40` on with a byte after it;
    the cursor is then restored just after the two. -/
theorem nameStep_eq_pointer {buf : Bytes} {pos target restored : Nat} :
    nameStep buf pos = .pointer target restored ↔
      ∃ c d, readU8 buf pos = some c ∧ 64 ≤ c.toNat ∧ readU8 buf (pos + 1) = some d ∧
        target = c.toNat % 64 * 256 + d.toNat ∧ restored = pos + 2 := by
  unfold nameStep
  rcases readU8 buf pos with _ | length
  · simp
  · dsimp only
    split_ifs with h0 hp
    · subst h0; simp
    · rw [isPointer_iff] at hp
      rcases readU8 buf (pos + 1) with _ | d
      · simp
      · dsimp only
        rw [pointerOffset_eq]
        simp [hp, eq_comm]
    · rw [isPointer_iff] at hp
      refine iff_of_false ?_ (by simp [hp])
      split
      · simp
      · split <;> simp

/-- A pass reads a label exactly at a length byte `1..=63` followed by that many bytes of
    UTF-8. -/
theorem nameStep_eq_label {buf : Bytes} {pos next : Nat} {part : Str} :
    nameStep buf pos = .label part next ↔
      ∃ c, readU8 buf pos = some c ∧ 1 ≤ c.toNat ∧ c.toNat < 64 ∧
        readExact buf (pos + 1) c.toNat = some part.bytes ∧ next = pos + 1 + c.toNat := by
  constructor
  · intro h
    unfold nameStep at h
    split at h
    · cases h
    · rename_i c hc
      split_ifs at h with h0 hp
      · split at h <;> cases h
      · rw [readLabel_eq] at h
        split at h
        · cases h
        · rename_i bs hbs
          split at h
          · cases h
          · rename_i s hs
            cases h
            have h0' : c.toNat ≠ 0 := fun h => h0 (UInt8.toNat.inj h)
            rw [isPointer_iff] at hp
            exact ⟨c, hc, by omega, by omega, by rw [hbs, Str.fromUtf8_eq_some.mp hs], rfl⟩
  · rintro ⟨c, hc, h1, h64, hb, rfl⟩
    have h0 : c ≠ 0 := by rintro rfl; simp at h1
    have hp : ¬0 < c &&& compressionSignifier := by rw [isPointer_iff]; omega
    simp [nameStep, hc, h0, hp, readLabel_eq, hb]

/-! ## Every name read is text -/

/-- Whatever the loop returns is valid UTF-8: a `.`-join of the strings it read. -/
theorem readAndAdvanceLoop_valid {fuel : Nat} {buf : Bytes} {pos : Nat} {parts : List Str}
    {r : Bytes × Nat} (h : readAndAdvanceLoop fuel buf pos parts = .ok r) : isValidUtf8 r.1 := by
  induction fuel generalizing pos parts r with
  | zero => cases h
  | succ fuel ih =>
    rw [readAndAdvanceLoop_succ] at h
    split at h
    · cases h
    · cases h; exact isValidUtf8_joinDot parts
    · exact ih h
    · obtain ⟨⟨result, e⟩, -, hr⟩ := bind_eq_ok.mp h
      unfold pointerResult at hr
      split at hr
      · cases hr
      · cases hr; exact isValidUtf8_joinDot _

/-- After a pointer, the nested name is always accepted as a string. -/
theorem pointerResult_of_valid {parts : List Str} {restored : Nat} {result : Bytes}
    (h : isValidUtf8 result) :
    pointerResult parts restored result = .ok (joinDot (parts ++ [⟨result, h⟩]), restored) := by
  simp [pointerResult, Str.fromUtf8, h]

/-! ## The offset chain -/

/-- The offset of the next length byte a pass leads to: after a label, or at a pointer's
    target. -/
def NameStep.next : NameStep → Option Nat
  | .label _ next => some next
  | .pointer target _ => some target
  | _ => none

/-- One step along the offsets of the length bytes read. -/
def nextOffset (buf : Bytes) : Option Nat → Option Nat
  | none => none
  | some q => (nameStep buf q).next

/-- The offset of the length byte the decode from `p` reads `k` passes later, if it gets
    that far. -/
def offsetChain (buf : Bytes) (p k : Nat) : Option Nat := (nextOffset buf)^[k] (some p)

@[simp] theorem offsetChain_zero (buf : Bytes) (p : Nat) : offsetChain buf p 0 = some p := rfl

theorem offsetChain_succ (buf : Bytes) (p k : Nat) :
    offsetChain buf p (k + 1) = ((nameStep buf p).next).bind (offsetChain buf · k) := by
  show (nextOffset buf)^[k] ((nameStep buf p).next) = _
  cases (nameStep buf p).next with
  | none => exact Function.iterate_fixed rfl k
  | some q => rfl

/-- A failure of the decode does not depend on the parts read before it. -/
theorem readAndAdvanceLoop_error_parts {fuel : Nat} {buf : Bytes} {pos : Nat}
    {parts : List Str} {f : Fault} (h : readAndAdvanceLoop fuel buf pos parts = .error f)
    (parts' : List Str) : readAndAdvanceLoop fuel buf pos parts' = .error f := by
  induction fuel generalizing pos parts parts' with
  | zero => exact h
  | succ fuel ih =>
    rw [readAndAdvanceLoop_succ] at h ⊢
    split at h
    · exact h
    · cases h
    · exact ih h _
    · cases hn : readAndAdvanceLoop fuel buf _ [] with
      | error g => rw [hn] at h; exact h
      | ok r =>
        rw [hn] at h
        have hv := readAndAdvanceLoop_valid hn
        simp only [bind, Except.bind, pointerResult_of_valid hv] at h
        cases h

/-- **FAILURE ALONG THE CHAIN**: a decode that reaches, `k` passes in, a length byte from
    which the decode fails, fails the same way. -/
theorem readAndAdvanceLoop_of_offsetChain {buf : Bytes} {p q k fuel : Nat} {f : Fault}
    (hk : offsetChain buf p k = some q) (hq : readAndAdvanceLoop fuel buf q [] = .error f)
    (parts : List Str) : readAndAdvanceLoop (fuel + k) buf p parts = .error f := by
  induction k generalizing p parts with
  | zero => cases hk; exact readAndAdvanceLoop_error_parts hq parts
  | succ k ih =>
    rw [offsetChain_succ] at hk
    rw [← Nat.add_assoc, readAndAdvanceLoop_succ]
    cases hs : nameStep buf p with
    | fail e => rw [hs] at hk; cases hk
    | finish => rw [hs] at hk; cases hk
    | label part next =>
      rw [hs] at hk
      exact ih hk _
    | pointer target restored =>
      rw [hs] at hk
      simp only [ih hk [], bind, Except.bind]

end RecordName
end ToyDns
