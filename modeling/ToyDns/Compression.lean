import ToyDns.NameStep

/-! # Name compression against RFC 1035 §4.1.4

    `ExpandsOctets` is the expansion of a compressed name as RFC 1035 §4.1.4 lays it out: a
    length byte `1..=63` is a label of that many octets, a byte with both upper bits set and
    the byte after it point at the rest of the name, and the prefixes `01` and `10` are
    reserved, so a byte in `0x40..=0xBF` has no expansion. The decoder of `record_name.rs`
    departs from it three times:

    * its pointer test `length & COMPRESSION_SIGNIFIER > 0` accepts either upper bit, so a
      reserved length byte is followed as a pointer (`isPointer_iff`);
    * it pushes the nested name as one more part, so a pointer to the root name (a bare
      zero byte) leaves a trailing `.` after the labels before it;
    * it reads each label as a Rust `String`, so a label that is not UTF-8 fails the decode
      with `InvalidByteInName`, where RFC 1035 allows any octets.

    `Expands` is the expansion of a name whose labels are text, the names the decoder can
    return (`ExpandsOctets.text`). Apart from the three departures the decoder reads exactly
    the expansion: with enough fuel, a name that has one decodes to the `.`-join of its
    labels and leaves the cursor where the expansion ends, the trailing `.` appearing exactly
    when a pointer on its chain targets the root name after a label (`PointsAtRoot`,
    `readAndAdvance_of_expandsOctets`).

    Following a pointer seeks the cursor, and `Cursor::seek` never fails: a pointer at or past
    the end of the buffer is not `DecompressSkip` but the `ReadLength` of the nested decode's
    first read. -/

namespace ToyDns
namespace RecordName

/-- The RFC 1035 expansion of the name at `p` when its labels are text: its labels, and the
    offset just after its terminating zero byte or its pointer. -/
inductive Expands (buf : Bytes) : Nat → List Str → Nat → Prop
  | root {p : Nat} : readU8 buf p = some 0 → Expands buf p [] (p + 1)
  | label {p : Nat} {c : UInt8} {l : Bytes} {s : Str} {ls : List Str} {e : Nat} :
      readU8 buf p = some c → 1 ≤ c.toNat → c.toNat ≤ 63 →
      readExact buf (p + 1) c.toNat = some l → Str.fromUtf8 l = some s →
      Expands buf (p + 1 + c.toNat) ls e → Expands buf p (s :: ls) e
  | pointer {p : Nat} {c d : UInt8} {ls : List Str} {e : Nat} :
      readU8 buf p = some c → 0xC0 ≤ c.toNat → readU8 buf (p + 1) = some d →
      Expands buf (c.toNat % 64 * 256 + d.toNat) ls e → Expands buf p ls (p + 2)

/-- A reserved length byte followed by the root name. -/
def reservedPrefixName : Bytes := [0x40, 0x02, 0x00]

/-- The root name at 0, then the label `a` and a pointer to the root name. -/
def rootPointerName : Bytes := [0x00, 0x01, 0x61, 0xC0, 0x00]

/-- The two departures at their smallest inputs: the decoder reads a name where RFC 1035 has
    none, and reads `a.` where the expansion is the single label `a`. -/
theorem readAndAdvance_departs_from_rfc1035 :
    (readAndAdvance 2 reservedPrefixName 0 = .ok ([], 2) ∧
      ¬∃ ls e, Expands reservedPrefixName 0 ls e) ∧
    (readAndAdvance 3 rootPointerName 1 = .ok ([0x61, 0x2E], 5) ∧
      Expands rootPointerName 1 [⟨[0x61], rfl⟩] 5 ∧ joinDot [⟨[0x61], rfl⟩] = [0x61]) := by
  refine ⟨⟨by decide, ?_⟩, by decide, ?_, rfl⟩
  · rintro ⟨ls, e, h⟩
    cases h with
    | root h0 => cases h0
    | label hc h1 h63 => cases hc; exact absurd h63 (by decide)
    | pointer hc hC0 => cases hc; exact absurd hC0 (by decide)
  · refine .label (c := 1) (l := [0x61]) rfl (by decide) (by decide) rfl (by decide) ?_
    exact .pointer (c := 0xC0) (d := 0) rfl (by decide) rfl (.root rfl)

/-! ## What the decoder reads of an expansion -/

/-- The decode from `p` follows, somewhere on its chain, a pointer to a zero byte: the root
    name. -/
inductive PointsAtRoot (buf : Bytes) : Nat → Prop
  | here {p target restored : Nat} : nameStep buf p = .pointer target restored →
      readU8 buf target = some 0 → PointsAtRoot buf p
  | next {p q : Nat} : (nameStep buf p).next = some q → PointsAtRoot buf q → PointsAtRoot buf p

theorem not_pointsAtRoot_of_finish {buf : Bytes} {p : Nat} (h : nameStep buf p = .finish) :
    ¬PointsAtRoot buf p := by
  rintro (⟨hs, _⟩ | ⟨hs, _⟩) <;> rw [h] at hs <;> cases hs

theorem pointsAtRoot_label_iff {buf : Bytes} {p q : Nat} {s : Str}
    (h : nameStep buf p = .label s q) : PointsAtRoot buf p ↔ PointsAtRoot buf q := by
  refine ⟨?_, .next (by rw [h]; rfl)⟩
  rintro (⟨hs, _⟩ | ⟨hs, hq⟩) <;> rw [h] at hs
  · cases hs
  · cases hs; exact hq

theorem pointsAtRoot_pointer_iff {buf : Bytes} {p target restored : Nat}
    (h : nameStep buf p = .pointer target restored) :
    PointsAtRoot buf p ↔ readU8 buf target = some 0 ∨ PointsAtRoot buf target := by
  refine ⟨?_, fun h' => h'.elim (.here h) (.next (by rw [h]; rfl))⟩
  rintro (⟨hs, h0⟩ | ⟨hs, hq⟩) <;> rw [h] at hs
  · cases hs; exact .inl h0
  · cases hs; exact .inr hq

/-- An expansion from a zero byte is the root name. -/
theorem Expands.eq_nil_of_zero {buf : Bytes} {q e : Nat} {ls : List Str}
    (h : Expands buf q ls e) (h0 : readU8 buf q = some 0) : ls = [] := by
  cases h with
  | root => rfl
  | label hc h1 => rw [h0] at hc; cases hc; exact absurd h1 (by decide)
  | pointer hc hC0 => rw [h0] at hc; cases hc; exact absurd hC0 (by decide)

/-- A name that expands to no label is the root name, or points at it. -/
theorem Expands.nil {buf : Bytes} {q e : Nat} (h : Expands buf q [] e) :
    readU8 buf q = some 0 ∨ PointsAtRoot buf q := by
  generalize hls : ([] : List Str) = ls at h
  induction h with
  | root h0 => exact .inl h0
  | label => cases hls
  | pointer hc hC0 hd _ ih =>
    have hstep := nameStep_eq_pointer.mpr ⟨_, _, hc, by omega, hd, rfl, rfl⟩
    exact .inr ((pointsAtRoot_pointer_iff hstep).mpr (ih hls))

/-- With enough fuel, the decode from a position with an expansion, after the parts `parts`,
    ends where the expansion ends and returns the `.`-join of `parts` and the expansion's
    labels, followed by one `.` exactly when that join is not empty and a pointer on the
    decode's chain targets the root name. -/
theorem readAndAdvanceLoop_of_expands {buf : Bytes} {p e : Nat} {ls : List Str}
    (h : Expands buf p ls e) :
    ∃ n, ∀ fuel parts, n ≤ fuel →
      ∃ t, readAndAdvanceLoop fuel buf p parts = .ok (t, e) ∧
        (t = joinDot (parts ++ ls) ∧ ¬(parts ++ ls ≠ [] ∧ PointsAtRoot buf p) ∨
          t = joinDot (parts ++ ls) ++ [0x2E] ∧ parts ++ ls ≠ [] ∧ PointsAtRoot buf p) := by
  induction h with
  | root h0 =>
    have hstep := nameStep_eq_finish.mpr h0
    refine ⟨1, fun fuel parts hn => ?_⟩
    obtain ⟨f, rfl⟩ : ∃ f, fuel = f + 1 := ⟨fuel - 1, by omega⟩
    rw [readAndAdvanceLoop_succ, hstep]
    exact ⟨_, rfl, .inl ⟨by simp, fun h => not_pointsAtRoot_of_finish hstep h.2⟩⟩
  | @label p c l s ls e hc h1 h63 hl hs _ ih =>
    have hstep : nameStep buf p = .label s (p + 1 + c.toNat) :=
      nameStep_eq_label.mpr
        ⟨c, hc, h1, by omega, by rw [Str.fromUtf8_eq_some.mp hs]; exact hl, rfl⟩
    obtain ⟨n, hn⟩ := ih
    refine ⟨n + 1, fun fuel parts hf => ?_⟩
    obtain ⟨f, rfl⟩ : ∃ f, fuel = f + 1 := ⟨fuel - 1, by omega⟩
    rw [readAndAdvanceLoop_succ, hstep]
    simpa only [List.append_assoc, List.singleton_append, pointsAtRoot_label_iff hstep] using
      hn f (parts ++ [s]) (by omega)
  | @pointer p c d ls e hc hC0 hd hexp ih =>
    have hstep : nameStep buf p = .pointer (c.toNat % 64 * 256 + d.toNat) (p + 2) :=
      nameStep_eq_pointer.mpr ⟨c, d, hc, by omega, hd, rfl, rfl⟩
    obtain ⟨n, hn⟩ := ih
    refine ⟨n + 1, fun fuel parts hf => ?_⟩
    obtain ⟨f, rfl⟩ : ∃ f, fuel = f + 1 := ⟨fuel - 1, by omega⟩
    obtain ⟨t', ht', hchar⟩ := hn f [] (by omega)
    rw [readAndAdvanceLoop_succ, hstep]
    dsimp only
    rw [ht', ok_bind, pointerResult_of_valid (readAndAdvanceLoop_valid ht')]
    refine ⟨_, rfl, ?_⟩
    rw [pointsAtRoot_pointer_iff hstep]
    simp only [List.nil_append] at hchar
    rcases hchar with ⟨rfl, hnot⟩ | ⟨rfl, hne, hroot⟩
    · rcases eq_or_ne ls [] with rfl | hne
      · have hroot := hexp.nil
        rcases eq_or_ne parts [] with rfl | hparts
        · exact .inl ⟨rfl, fun h => h.1 rfl⟩
        · refine .inr ⟨?_, by simpa using hparts, hroot⟩
          rw [joinDot_append_singleton parts _ hparts]
          simp [joinDot]
      · refine .inl ⟨(joinDot_append_joinDot (List.append_nil _).symm hne).trans
          (List.append_nil _), fun h => ?_⟩
        rcases h.2 with h0 | hroot
        · exact hne (hexp.eq_nil_of_zero h0)
        · exact hnot ⟨hne, hroot⟩
    · exact .inr ⟨joinDot_append_joinDot rfl hne, by simp [hne], .inr hroot⟩


/-- The decode of a name whose labels are text, from the start: its labels' `.`-join, with
    the trailing `.` of a pointer to the root name after a label. -/
theorem readAndAdvance_of_expands {buf : Bytes} {p e : Nat} {ls : List Str}
    (h : Expands buf p ls e) :
    ∃ n, ∀ fuel, n ≤ fuel →
      (¬(ls ≠ [] ∧ PointsAtRoot buf p) → readAndAdvance fuel buf p = .ok (joinDot ls, e)) ∧
      (ls ≠ [] → PointsAtRoot buf p →
        readAndAdvance fuel buf p = .ok (joinDot ls ++ [0x2E], e)) := by
  obtain ⟨n, hn⟩ := readAndAdvanceLoop_of_expands h
  refine ⟨n, fun fuel hf => ?_⟩
  obtain ⟨t, ht, hchar⟩ := hn fuel [] hf
  simp only [List.nil_append] at hchar
  rcases hchar with ⟨rfl, hnot⟩ | ⟨rfl, hne, hroot⟩
  · exact ⟨fun _ => ht, fun hne hroot => absurd ⟨hne, hroot⟩ hnot⟩
  · exact ⟨fun hnot => absurd ⟨hne, hroot⟩ hnot, fun _ _ => ht⟩

/-! ## Labels of any octets -/

/-- The RFC 1035 expansion of the name at `p`, its labels any octets. -/
inductive ExpandsOctets (buf : Bytes) : Nat → List Bytes → Nat → Prop
  | root {p : Nat} : readU8 buf p = some 0 → ExpandsOctets buf p [] (p + 1)
  | label {p : Nat} {c : UInt8} {l : Bytes} {ls : List Bytes} {e : Nat} :
      readU8 buf p = some c → 1 ≤ c.toNat → c.toNat ≤ 63 →
      readExact buf (p + 1) c.toNat = some l →
      ExpandsOctets buf (p + 1 + c.toNat) ls e → ExpandsOctets buf p (l :: ls) e
  | pointer {p : Nat} {c d : UInt8} {ls : List Bytes} {e : Nat} :
      readU8 buf p = some c → 0xC0 ≤ c.toNat → readU8 buf (p + 1) = some d →
      ExpandsOctets buf (c.toNat % 64 * 256 + d.toNat) ls e → ExpandsOctets buf p ls (p + 2)

/-- An expansion whose labels are text is one of `Expands`. -/
theorem ExpandsOctets.text {buf : Bytes} {p e : Nat} {ls : List Bytes}
    (h : ExpandsOctets buf p ls e) (hv : ∀ l ∈ ls, isValidUtf8 l = true) :
    ∃ ss : List Str, ss.map Str.bytes = ls ∧ Expands buf p ss e := by
  induction h with
  | root h0 => exact ⟨[], rfl, .root h0⟩
  | @label p c l ls e hc h1 h63 hl _ ih =>
    obtain ⟨ss, rfl, hss⟩ := ih fun l' hl' => hv l' (.tail _ hl')
    exact ⟨⟨l, hv l (.head _)⟩ :: ss, rfl,
      .label hc h1 h63 hl (Str.fromUtf8_bytes ⟨l, hv l (.head _)⟩) hss⟩
  | pointer hc hC0 hd _ ih =>
    obtain ⟨ss, rfl, hss⟩ := ih hv
    exact ⟨ss, rfl, .pointer hc hC0 hd hss⟩

/-- A length byte `1..=63`, then that many bytes that are not UTF-8: the pass fails. -/
theorem nameStep_eq_invalid {buf : Bytes} {pos : Nat} {c : UInt8} {l : Bytes}
    (hc : readU8 buf pos = some c) (h1 : 1 ≤ c.toNat) (h64 : c.toNat < 64)
    (hl : readExact buf (pos + 1) c.toNat = some l) (hv : isValidUtf8 l = false) :
    nameStep buf pos = .fail .invalidByteInName := by
  have h0 : c ≠ 0 := by rintro rfl; simp at h1
  have hp : ¬0 < c &&& compressionSignifier := by rw [isPointer_iff]; omega
  simp [nameStep, hc, h0, hp, readLabel_eq, hl, Str.fromUtf8, hv]

/-- A label of the expansion that is not text fails the decode, through every pointer. -/
theorem readAndAdvanceLoop_of_expandsOctets_invalid {buf : Bytes} {p e : Nat}
    {ls : List Bytes} (h : ExpandsOctets buf p ls e) (hv : ∃ l ∈ ls, isValidUtf8 l = false) :
    ∃ n, ∀ fuel parts, n ≤ fuel →
      readAndAdvanceLoop fuel buf p parts = .error (.err .invalidByteInName) := by
  induction h with
  | root => simp at hv
  | @label p c l ls e hc h1 h63 hl _ ih =>
    by_cases hvl : isValidUtf8 l = true
    · obtain ⟨n, hn⟩ := ih (by simpa [hvl] using hv)
      have hstep : nameStep buf p = .label ⟨l, hvl⟩ (p + 1 + c.toNat) :=
        nameStep_eq_label.mpr ⟨c, hc, h1, by omega, hl, rfl⟩
      refine ⟨n + 1, fun fuel parts hf => ?_⟩
      obtain ⟨f, rfl⟩ : ∃ f, fuel = f + 1 := ⟨fuel - 1, by omega⟩
      rw [readAndAdvanceLoop_succ, hstep]
      exact hn f _ (by omega)
    · have hstep := nameStep_eq_invalid hc h1 (by omega) hl (by simpa using hvl)
      refine ⟨1, fun fuel parts hf => ?_⟩
      obtain ⟨f, rfl⟩ : ∃ f, fuel = f + 1 := ⟨fuel - 1, by omega⟩
      rw [readAndAdvanceLoop_succ, hstep]
  | @pointer p c d ls e hc hC0 hd _ ih =>
    obtain ⟨n, hn⟩ := ih hv
    have hstep : nameStep buf p = .pointer (c.toNat % 64 * 256 + d.toNat) (p + 2) :=
      nameStep_eq_pointer.mpr ⟨c, d, hc, by omega, hd, rfl, rfl⟩
    refine ⟨n + 1, fun fuel parts hf => ?_⟩
    obtain ⟨f, rfl⟩ : ∃ f, fuel = f + 1 := ⟨fuel - 1, by omega⟩
    rw [readAndAdvanceLoop_succ, hstep]
    dsimp only
    rw [hn f [] (by omega)]
    rfl

/-- **THE DECODER READS THE RFC 1035 EXPANSION, OR REJECTS A LABEL THAT IS NOT TEXT**: with
    enough fuel, the decode of a name that has an expansion fails with `InvalidByteInName`
    when one of its labels is not UTF-8; otherwise it returns the `.`-join of its labels —
    with one trailing `.` exactly when it has a label and a pointer on its chain targets the
    root name — and ends where the expansion ends. -/
theorem readAndAdvance_of_expandsOctets {buf : Bytes} {p e : Nat} {ls : List Bytes}
    (h : ExpandsOctets buf p ls e) :
    ∃ n, ∀ fuel, n ≤ fuel →
      ((∃ l ∈ ls, isValidUtf8 l = false) →
        readAndAdvance fuel buf p = .error (.err .invalidByteInName)) ∧
      ((∀ l ∈ ls, isValidUtf8 l = true) → ¬(ls ≠ [] ∧ PointsAtRoot buf p) →
        readAndAdvance fuel buf p = .ok ([0x2E].intercalate ls, e)) ∧
      ((∀ l ∈ ls, isValidUtf8 l = true) → ls ≠ [] → PointsAtRoot buf p →
        readAndAdvance fuel buf p = .ok ([0x2E].intercalate ls ++ [0x2E], e)) := by
  by_cases hv : ∀ l ∈ ls, isValidUtf8 l = true
  · obtain ⟨ss, rfl, hss⟩ := h.text hv
    obtain ⟨n, hn⟩ := readAndAdvance_of_expands hss
    refine ⟨n, fun fuel hf => ⟨fun ⟨l, hl, hf'⟩ => by simp [hv l hl] at hf', ?_⟩⟩
    simp only [ne_eq, List.map_eq_nil_iff, ← joinDot_eq_intercalate]
    exact ⟨fun _ => (hn fuel hf).1, fun _ => (hn fuel hf).2⟩
  · obtain ⟨n, hn⟩ := readAndAdvanceLoop_of_expandsOctets_invalid h (by simpa using hv)
    exact ⟨n, fun fuel hf => ⟨fun _ => hn fuel [] hf, fun hv' => absurd hv' hv,
      fun hv' => absurd hv' hv⟩⟩

/-- The label `0xFF` at offset 0, then at offset 3 the label `b` and a pointer to it. -/
def invalidPointedName : Bytes := [1, 0xFF, 0, 1, 0x62, 0xC0, 0]

theorem readAndAdvance_of_expandsOctets_invalidPointedName :
    ExpandsOctets invalidPointedName 3 [[0x62], [0xFF]] 7 ∧
      ∃ n, ∀ fuel, n ≤ fuel →
        ((∃ l ∈ [[0x62], [0xFF]], isValidUtf8 l = false) →
          readAndAdvance fuel invalidPointedName 3 = .error (.err .invalidByteInName)) ∧
        ((∀ l ∈ [[0x62], [0xFF]], isValidUtf8 l = true) →
          ¬([[0x62], [0xFF]] ≠ ([] : List Bytes) ∧ PointsAtRoot invalidPointedName 3) →
          readAndAdvance fuel invalidPointedName 3 = .ok ([0x2E].intercalate [[0x62], [0xFF]], 7)) ∧
        ((∀ l ∈ [[0x62], [0xFF]], isValidUtf8 l = true) → [[0x62], [0xFF]] ≠ ([] : List Bytes) →
          PointsAtRoot invalidPointedName 3 → readAndAdvance fuel invalidPointedName 3 =
            .ok ([0x2E].intercalate [[0x62], [0xFF]] ++ [0x2E], 7)) :=
  have h : ExpandsOctets invalidPointedName 3 [[0x62], [0xFF]] 7 :=
    .label (c := 1) rfl (by decide) (by decide) rfl
      (.pointer (c := 0xC0) (d := 0) (e := 3) rfl (by decide) rfl
        (.label (c := 1) rfl (by decide) (by decide) rfl (.root rfl)))
  ⟨h, readAndAdvance_of_expandsOctets h⟩

/-! ## Pointers past the end -/

theorem offsetChain_succ' (buf : Bytes) (p k : Nat) :
    offsetChain buf p (k + 1) = nextOffset buf (offsetChain buf p k) :=
  Function.iterate_succ_apply' _ _ _

/-- Every `Err` of a decode is the failure of one pass, at some offset. -/
theorem readAndAdvanceLoop_err {fuel : Nat} {buf : Bytes} {pos : Nat} {parts : List Str}
    {e : DnsError} (h : readAndAdvanceLoop fuel buf pos parts = .error (.err e)) :
    ∃ q, nameStep buf q = .fail e := by
  induction fuel generalizing pos parts with
  | zero => cases h
  | succ fuel ih =>
    rw [readAndAdvanceLoop_succ] at h
    cases hs : nameStep buf pos <;> simp only [hs] at h
    case fail => cases h; exact ⟨pos, hs⟩
    case finish => cases h
    case label => exact ih h
    case pointer target restored =>
      cases hn : readAndAdvanceLoop fuel buf target [] with
      | error g => rw [hn] at h; cases h; exact ih hn
      | ok r => rw [hn, ok_bind, pointerResult_of_valid (readAndAdvanceLoop_valid hn)] at h; cases h

/-- No decode fails with `DecompressSkip` or `DecompressRestore`. -/
theorem readAndAdvanceLoop_ne_seek_error (fuel : Nat) (buf : Bytes) (pos : Nat)
    (parts : List Str) :
    readAndAdvanceLoop fuel buf pos parts ≠ .error (.err .decompressSkip) ∧
      readAndAdvanceLoop fuel buf pos parts ≠ .error (.err .decompressRestore) := by
  refine ⟨fun h => ?_, fun h => ?_⟩ <;> obtain ⟨q, hq⟩ := readAndAdvanceLoop_err h
  · exact (nameStep_ne_fail_seek buf q).1 hq
  · exact (nameStep_ne_fail_seek buf q).2 hq

/-- **A POINTER PAST THE END READS AS A TRUNCATION**: once the decode from `p` reaches a
    pointer whose offset is at or past the end of the buffer, it fails with `ReadLength`,
    the error of the nested decode's first read, and not with `DecompressSkip`. -/
theorem readAndAdvance_pointer_past_end {buf : Bytes} {p k q target restored fuel : Nat}
    (hk : offsetChain buf p k = some q) (hq : nameStep buf q = .pointer target restored)
    (hend : buf.length ≤ target) (hfuel : k + 2 ≤ fuel) :
    readAndAdvance fuel buf p = .error (.err .readLength) := by
  have htarget : offsetChain buf p (k + 1) = some target := by
    rw [offsetChain_succ', hk]
    simp [nextOffset, hq, NameStep.next]
  have hfail : readAndAdvanceLoop (fuel - (k + 1)) buf target [] = .error (.err .readLength) := by
    obtain ⟨n, hn⟩ : ∃ n, fuel - (k + 1) = n + 1 := ⟨fuel - (k + 2), by omega⟩
    rw [hn, readAndAdvanceLoop_succ, nameStep, readU8, List.getElem?_eq_none hend]
  have := readAndAdvanceLoop_of_offsetChain htarget hfail []
  rwa [Nat.sub_add_cancel (by omega)] at this

/-- A pointer to offset 5 in a two-byte buffer. -/
theorem readAndAdvance_pointer_past_end_two_bytes :
    offsetChain [0xC0, 0x05] 0 0 = some 0 ∧ nameStep [0xC0, 0x05] 0 = .pointer 5 2 ∧
      [0xC0, 0x05].length ≤ 5 ∧ 0 + 2 ≤ 2 ∧
      readAndAdvance 2 [0xC0, 0x05] 0 = .error (.err .readLength) :=
  ⟨rfl, by decide, by decide, by decide,
    readAndAdvance_pointer_past_end (k := 0) rfl
      (show nameStep [0xC0, 0x05] 0 = .pointer 5 2 by decide) (by decide) (by decide)⟩

end RecordName
end ToyDns
