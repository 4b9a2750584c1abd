import ToyDns.NameStep
import ToyDns.Message

/-! # Decodes that agree — trailing bytes and more fuel

    Every read of the decoders is at a position the decode has already reached, pointer
    targets included, and a read that succeeds in a buffer reads the same bytes in every
    extension of it. So the decoders commute with appending bytes; and since fuel only
    bounds how many length bytes a name decode reads, more fuel changes no result that
    did not run out of it.

    * **`AgreesUnless excused r r'`** — `r'` equals `r`, unless `r` ended in a fault that
      `excused` allows. It is closed under `>>=` and `Except.map`, and the section loops
      and the packet decoder keep it (`readCount_agrees`, `Packet.parseCursor_agrees`), so
      each decoder's lemma follows the decoder's own `do` block;
    * **`Extends`** excuses an `Err` of the source: a decode of `buf ++ t` is the decode of
      `buf` unless that one failed. `nameStep_append` is the one-pass case, and
      `readAndAdvanceLoop_extends` carries it through the loop and its nested pointer decodes
      by induction on the fuel;
    * **`Refuels`** excuses running out of fuel: a decode with more fuel is the decode with
      less, unless that one ran out (`Packet.parse_refuels`);
    * a successful decode ends inside its buffer (`Packet.parseCursor_end_le`), so a decode
      of a proper prefix of a message read to its end fails (`Packet.parse_take_of_end`). -/

namespace ToyDns

/-- `r'` agrees with `r`, unless `r` ended in a fault that `excused` allows. -/
def AgreesUnless {α : Type} (excused : Fault → Prop) (r r' : Except Fault α) : Prop :=
  (∀ f, excused f → r ≠ .error f) → r' = r

/-- A decode `r'` of an extended buffer agrees with the decode `r` of the buffer, unless `r`
    returned `Err`. -/
def Extends {α : Type} (r r' : Except Fault α) : Prop :=
  AgreesUnless (· ≠ .outOfFuel) r r'

/-- A decode `r'` with more fuel agrees with the decode `r` with less, unless `r` ran out. -/
def Refuels {α : Type} (r r' : Except Fault α) : Prop :=
  AgreesUnless (· = .outOfFuel) r r'

namespace AgreesUnless

variable {α β : Type} {excused : Fault → Prop}

theorem refl (r : Except Fault α) : AgreesUnless excused r r := fun _ => rfl

/-- The result of the second decode is the first one's, or the first one's fault was
    excused. -/
theorem eq_or_excused {r r' : Except Fault α} (h : AgreesUnless excused r r') :
    r' = r ∨ ∃ f, excused f ∧ r = .error f := by
  by_cases he : ∃ f, excused f ∧ r = .error f
  · exact .inr he
  · exact .inl (h fun f hf h' => he ⟨f, hf, h'⟩)

theorem bind {x x' : Except Fault α} {f f' : α → Except Fault β}
    (hx : AgreesUnless excused x x') (hf : ∀ a, AgreesUnless excused (f a) (f' a)) :
    AgreesUnless excused (x >>= f) (x' >>= f') := by
  intro h
  rcases hx.eq_or_excused with rfl | ⟨g, hg, rfl⟩
  · cases x' with
    | error g => rfl
    | ok a => exact hf a h
  · exact absurd rfl (h g hg)

/-- A successful first decode is the second one too. -/
theorem ok {r r' : Except Fault α} {a : α} (h : AgreesUnless excused r r') (hr : r = .ok a) :
    r' = .ok a := by
  subst hr
  exact h fun _ _ he => by cases he

theorem map {x x' : Except Fault α} (f : α → β) (h : AgreesUnless excused x x') :
    AgreesUnless excused (x.map f) (x'.map f) := by
  intro hne
  rcases h.eq_or_excused with rfl | ⟨g, hg, rfl⟩
  · rfl
  · exact absurd rfl (hne g hg)

end AgreesUnless

/-- A decode that failed with an `Err` fails the same with more fuel. -/
theorem Refuels.err {α : Type} {r r' : Except Fault α} {e : DnsError} (h : Refuels r r')
    (hr : r = .error (.err e)) : r' = .error (.err e) := by
  subst hr
  exact h fun f hf he => by cases hf; cases he

/-- A read that keeps its value in the extended buffer. -/
theorem Extends.okOr_bind {α β : Type} {o o' : Option α} {e : DnsError}
    {f f' : α → Except Fault β} (ho : ∀ a, o = some a → o' = some a)
    (hf : ∀ a, Extends (f a) (f' a)) : Extends (okOr o e >>= f) (okOr o' e >>= f') := by
  refine AgreesUnless.bind (fun h => ?_) hf
  cases o with
  | none => exact absurd rfl (h (.err e) Fault.noConfusion)
  | some a => rw [ho a rfl]

/-! ## The section loops and the packet decoder -/

section Loops

variable {excused : Fault → Prop}

theorem readCount_agrees {α : Type} {read read' : Nat → Except Fault (α × Nat)}
    (h : ∀ pos, AgreesUnless excused (read pos) (read' pos)) (count pos : Nat) :
    AgreesUnless excused (readCount read count pos) (readCount read' count pos) := by
  induction count generalizing pos with
  | zero => exact AgreesUnless.refl _
  | succ count ih =>
    exact (h pos).bind fun ⟨_, pos⟩ => (ih pos).bind fun _ => AgreesUnless.refl _

/-- Two packet decodes agree when their headers, questions and records do. -/
theorem Packet.parseCursor_agrees {fuel fuel' : Nat} {buf buf' : Bytes}
    (hh : AgreesUnless excused (Header.readAndAdvance buf 0) (Header.readAndAdvance buf' 0))
    (hq : ∀ pos, AgreesUnless excused (Question.readAndAdvance fuel buf pos)
      (Question.readAndAdvance fuel' buf' pos))
    (hr : ∀ pos, AgreesUnless excused (Record.readAndAdvance fuel buf pos)
      (Record.readAndAdvance fuel' buf' pos)) :
    AgreesUnless excused (Packet.parseCursor fuel buf) (Packet.parseCursor fuel' buf') := by
  unfold Packet.parseCursor
  refine hh.bind fun ⟨header, pos⟩ => ?_
  refine (readCount_agrees hq _ pos).bind fun ⟨_, pos⟩ => ?_
  refine (readCount_agrees hr _ pos).bind fun ⟨_, pos⟩ => ?_
  refine (readCount_agrees hr _ pos).bind fun ⟨_, pos⟩ => ?_
  exact (readCount_agrees hr _ pos).bind fun _ => AgreesUnless.refl _

end Loops

/-! ## Trailing bytes -/

namespace RecordName

/-- A pass that does not fail reads the same in every extension of the buffer. -/
theorem nameStep_append {buf : Bytes} {pos : Nat} (t : Bytes)
    (h : ∀ e, nameStep buf pos ≠ .fail e) : nameStep (buf ++ t) pos = nameStep buf pos := by
  cases hs : nameStep buf pos with
  | fail e => exact absurd hs (h e)
  | finish => exact nameStep_eq_finish.mpr (readU8_append t (nameStep_eq_finish.mp hs))
  | label part next =>
    obtain ⟨c, hc, h1, h64, hb, rfl⟩ := nameStep_eq_label.mp hs
    exact nameStep_eq_label.mpr ⟨c, readU8_append t hc, h1, h64, readExact_append t hb, rfl⟩
  | pointer target restored =>
    obtain ⟨c, d, hc, h64, hd, rfl, rfl⟩ := nameStep_eq_pointer.mp hs
    exact nameStep_eq_pointer.mpr ⟨c, d, readU8_append t hc, h64, readU8_append t hd, rfl, rfl⟩

theorem readAndAdvanceLoop_extends {buf : Bytes} (t : Bytes) (fuel pos : Nat)
    (parts : List Str) :
    Extends (readAndAdvanceLoop fuel buf pos parts)
      (readAndAdvanceLoop fuel (buf ++ t) pos parts) := by
  induction fuel generalizing pos parts with
  | zero => exact AgreesUnless.refl _
  | succ fuel ih =>
    rw [readAndAdvanceLoop_succ, readAndAdvanceLoop_succ]
    by_cases hf : ∃ e, nameStep buf pos = .fail e
    · obtain ⟨e, he⟩ := hf
      exact fun h => absurd (by rw [he]) (h (.err e) Fault.noConfusion)
    · rw [nameStep_append t fun e he => hf ⟨e, he⟩]
      cases nameStep buf pos with
      | fail e => exact AgreesUnless.refl _
      | finish => exact AgreesUnless.refl _
      | label part next => exact ih next _
      | pointer target restored =>
        exact AgreesUnless.bind (ih target []) fun _ => AgreesUnless.refl _

theorem readAndAdvance_extends {buf : Bytes} (t : Bytes) (fuel pos : Nat) :
    Extends (readAndAdvance fuel buf pos) (readAndAdvance fuel (buf ++ t) pos) :=
  readAndAdvanceLoop_extends t fuel pos []

end RecordName

theorem Header.readAndAdvance_extends {buf : Bytes} (t : Bytes) (pos : Nat) :
    Extends (Header.readAndAdvance buf pos) (Header.readAndAdvance (buf ++ t) pos) := by
  unfold Header.readAndAdvance
  iterate 6 refine Extends.okOr_bind (fun _ => readU16_append t) fun _ => ?_
  exact AgreesUnless.refl _

theorem Question.readAndAdvance_extends {buf : Bytes} (t : Bytes) (fuel pos : Nat) :
    Extends (Question.readAndAdvance fuel buf pos)
      (Question.readAndAdvance fuel (buf ++ t) pos) := by
  unfold Question.readAndAdvance
  refine AgreesUnless.bind (RecordName.readAndAdvance_extends t fuel pos) fun ⟨_, pos⟩ => ?_
  refine Extends.okOr_bind (fun _ => readU16_append t) fun _ => ?_
  refine Extends.okOr_bind (fun _ h => h) fun _ => ?_
  refine Extends.okOr_bind (fun _ => readU16_append t) fun _ => ?_
  exact AgreesUnless.refl _

theorem Record.readAndAdvance_extends {buf : Bytes} (t : Bytes) (fuel pos : Nat) :
    Extends (Record.readAndAdvance fuel buf pos) (Record.readAndAdvance fuel (buf ++ t) pos) := by
  unfold Record.readAndAdvance
  refine AgreesUnless.bind (RecordName.readAndAdvance_extends t fuel pos) fun ⟨_, pos⟩ => ?_
  refine Extends.okOr_bind (fun _ => readU16_append t) fun _ => ?_
  refine Extends.okOr_bind (fun _ h => h) fun _ => ?_
  refine Extends.okOr_bind (fun _ => readU16_append t) fun _ => ?_
  refine Extends.okOr_bind (fun _ => readU32_append t) fun _ => ?_
  refine Extends.okOr_bind (fun _ => readU16_append t) fun _ => ?_
  refine Extends.okOr_bind (fun _ => readExact_append t) fun _ => ?_
  exact AgreesUnless.refl _

theorem Packet.parse_extends {buf : Bytes} (t : Bytes) (fuel : Nat) :
    Extends (Packet.parse fuel buf) (Packet.parse fuel (buf ++ t)) :=
  AgreesUnless.map Prod.fst (Packet.parseCursor_agrees (Header.readAndAdvance_extends t 0)
    (Question.readAndAdvance_extends t fuel) (Record.readAndAdvance_extends t fuel))

/-! ## More fuel -/

theorem RecordName.readAndAdvanceLoop_refuels (buf : Bytes) (fuel k pos : Nat)
    (parts : List Str) :
    Refuels (RecordName.readAndAdvanceLoop fuel buf pos parts)
      (RecordName.readAndAdvanceLoop (fuel + k) buf pos parts) := by
  induction fuel generalizing pos parts with
  | zero => exact fun h => absurd rfl (h .outOfFuel rfl)
  | succ fuel ih =>
    rw [Nat.add_right_comm, RecordName.readAndAdvanceLoop_succ,
      RecordName.readAndAdvanceLoop_succ]
    cases RecordName.nameStep buf pos with
    | fail e => exact AgreesUnless.refl _
    | finish => exact AgreesUnless.refl _
    | label part next => exact ih next _
    | pointer target restored =>
      exact AgreesUnless.bind (ih target []) fun _ => AgreesUnless.refl _

/-- **MORE FUEL CHANGES NO RESULT** of the packet decoder that did not run out of it. -/
theorem Packet.parse_refuels (buf : Bytes) (fuel k : Nat) :
    Refuels (Packet.parse fuel buf) (Packet.parse (fuel + k) buf) := by
  have hname := fun pos => RecordName.readAndAdvanceLoop_refuels buf fuel k pos []
  refine AgreesUnless.map Prod.fst (Packet.parseCursor_agrees (AgreesUnless.refl _)
    (fun pos => ?_) (fun pos => ?_))
  · exact AgreesUnless.bind (hname pos) fun _ => AgreesUnless.refl _
  · exact AgreesUnless.bind (hname pos) fun _ => AgreesUnless.refl _

/-- Two successful runs of a decoder that more fuel never changes agree, whatever their
    fuel. -/
theorem Refuels.ok_unique {α : Type} {run : Nat → Except Fault α}
    (hrun : ∀ n k, Refuels (run n) (run (n + k))) {n m : Nat} {a b : α} (ha : run n = .ok a)
    (hb : run m = .ok b) : a = b := by
  have h := (hrun m n).ok hb
  rw [Nat.add_comm, (hrun n m).ok ha] at h
  exact Except.ok.inj h

/-- Two successful decodes of one name, whatever their fuel, agree. -/
theorem RecordName.readAndAdvance_ok_unique {buf : Bytes} {pos fuel fuel' : Nat}
    {r r' : Bytes × Nat} (h : RecordName.readAndAdvance fuel buf pos = .ok r)
    (h' : RecordName.readAndAdvance fuel' buf pos = .ok r') : r = r' :=
  Refuels.ok_unique (fun n k => RecordName.readAndAdvanceLoop_refuels buf n k pos []) h h'

/-- Two successful decodes of one message, whatever their fuel, agree. -/
theorem Packet.parse_ok_unique {buf : Bytes} {fuel fuel' : Nat} {p p' : Packet}
    (h : Packet.parse fuel buf = .ok p) (h' : Packet.parse fuel' buf = .ok p') : p = p' :=
  Refuels.ok_unique (Packet.parse_refuels buf) h h'

/-! ## A successful decode ends inside its buffer -/

theorem Header.readAndAdvance_end_le {buf : Bytes} {pos : Nat} {r : Header × Nat}
    (h : Header.readAndAdvance buf pos = .ok r) : r.2 ≤ buf.length := by
  simp only [Header.readAndAdvance, bind_eq_ok, okOr_eq_ok, Except.ok.injEq] at h
  obtain ⟨_, -, _, -, _, -, _, -, _, -, _, h10, rfl⟩ := h
  have := readU16_le h10
  dsimp only
  omega

theorem Question.readAndAdvance_end_le {fuel : Nat} {buf : Bytes} {pos : Nat}
    {r : Question × Nat} (h : Question.readAndAdvance fuel buf pos = .ok r) :
    r.2 ≤ buf.length := by
  simp only [Question.readAndAdvance, bind_eq_ok, okOr_eq_ok, Except.ok.injEq] at h
  obtain ⟨⟨_, p⟩, -, _, -, _, -, _, hclass, rfl⟩ := h
  have := readU16_le hclass
  dsimp only
  omega

theorem Record.readAndAdvance_end_le {fuel : Nat} {buf : Bytes} {pos : Nat}
    {r : Record × Nat} (h : Record.readAndAdvance fuel buf pos = .ok r) :
    r.2 ≤ buf.length := by
  simp only [Record.readAndAdvance, bind_eq_ok, okOr_eq_ok, Except.ok.injEq] at h
  obtain ⟨⟨_, p⟩, -, _, -, _, -, _, -, _, -, _, hlen, _, hdata, rfl⟩ := h
  have := readU16_le hlen
  have := (readExact_eq_some.mp hdata).1
  dsimp only
  omega

theorem readCount_end_le {α : Type} {read : Nat → Except Fault (α × Nat)} {len : Nat}
    (hread : ∀ pos r, read pos = .ok r → r.2 ≤ len) {count pos : Nat} {r : List α × Nat}
    (hpos : pos ≤ len) (h : readCount read count pos = .ok r) : r.2 ≤ len := by
  induction count generalizing pos r with
  | zero => cases h; exact hpos
  | succ count ih =>
    rw [readCount] at h
    obtain ⟨⟨_, p⟩, h1, h'⟩ := bind_eq_ok.mp h
    obtain ⟨⟨_, _⟩, h2, h3⟩ := bind_eq_ok.mp h'
    cases h3
    exact (ih (hread _ _ h1) h2 :)

/-- A decoded message ends inside its buffer. -/
theorem Packet.parseCursor_end_le {fuel : Nat} {buf : Bytes} {r : Packet × Nat}
    (h : Packet.parseCursor fuel buf = .ok r) : r.2 ≤ buf.length := by
  have hq : ∀ pos r, Question.readAndAdvance fuel buf pos = .ok r → r.2 ≤ buf.length :=
    fun _ _ => Question.readAndAdvance_end_le
  have hr : ∀ pos r, Record.readAndAdvance fuel buf pos = .ok r → r.2 ≤ buf.length :=
    fun _ _ => Record.readAndAdvance_end_le
  obtain ⟨⟨_, p₀⟩, h₀, h⟩ := bind_eq_ok.mp h
  obtain ⟨⟨_, p₁⟩, h₁, h⟩ := bind_eq_ok.mp h
  obtain ⟨⟨_, p₂⟩, h₂, h⟩ := bind_eq_ok.mp h
  obtain ⟨⟨_, p₃⟩, h₃, h⟩ := bind_eq_ok.mp h
  obtain ⟨⟨_, p₄⟩, h₄, h⟩ := bind_eq_ok.mp h
  cases h
  exact readCount_end_le hr (readCount_end_le hr (readCount_end_le hr
    (readCount_end_le hq (Header.readAndAdvance_end_le h₀) h₁) h₂) h₃) h₄

theorem readCount_length {α : Type} {read : Nat → Except Fault (α × Nat)} {count pos : Nat}
    {r : List α × Nat} (h : readCount read count pos = .ok r) : r.1.length = count := by
  induction count generalizing pos r with
  | zero => cases h; rfl
  | succ count ih =>
    rw [readCount] at h
    obtain ⟨⟨_, p⟩, -, h'⟩ := bind_eq_ok.mp h
    obtain ⟨⟨_, _⟩, h2, h3⟩ := bind_eq_ok.mp h'
    cases h3
    exact congrArg (· + 1) (ih h2 :)

/-- **A DECODED PACKET HAS THE SECTIONS ITS HEADER COUNTS**: decoding is all or nothing. -/
theorem parse_section_lengths {fuel : Nat} {buf : Bytes} {p : Packet}
    (h : Packet.parse fuel buf = .ok p) :
    p.questions.length = p.header.numQuestions.toNat ∧
      p.answers.length = p.header.numAnswers.toNat ∧
      p.authorities.length = p.header.numAuthorities.toNat ∧
      p.additionals.length = p.header.numAdditionals.toNat := by
  cases hc : Packet.parseCursor fuel buf with
  | error f => rw [Packet.parse, hc] at h; cases h
  | ok r =>
    rw [Packet.parse, hc] at h
    cases h
    obtain ⟨⟨_, _⟩, -, hc⟩ := bind_eq_ok.mp hc
    obtain ⟨⟨_, _⟩, h₁, hc⟩ := bind_eq_ok.mp hc
    obtain ⟨⟨_, _⟩, h₂, hc⟩ := bind_eq_ok.mp hc
    obtain ⟨⟨_, _⟩, h₃, hc⟩ := bind_eq_ok.mp hc
    obtain ⟨⟨_, _⟩, h₄, hc⟩ := bind_eq_ok.mp hc
    cases hc
    exact ⟨readCount_length h₁, readCount_length h₂, readCount_length h₃, readCount_length h₄⟩

/-- The query for `a` decodes to one question and no records, as its header counts. -/
theorem parse_section_lengths_query :
    Packet.parse 2 [0, 0, 0, 0, 0, 1, 0, 0, 0, 0, 0, 0, 1, 0x61, 0, 0, 1, 0, 1] =
        .ok ⟨⟨0, 0, 1, 0, 0, 0⟩, [⟨[0x61], .a, 1⟩], [], [], []⟩ ∧
      ([⟨[0x61], .a, 1⟩] : List Question).length = (1 : UInt16).toNat ∧
      ([] : List Record).length = (0 : UInt16).toNat ∧
      ([] : List Record).length = (0 : UInt16).toNat ∧
      ([] : List Record).length = (0 : UInt16).toNat :=
  have h : Packet.parse 2 [0, 0, 0, 0, 0, 1, 0, 0, 0, 0, 0, 0, 1, 0x61, 0, 0, 1, 0, 1] =
      .ok ⟨⟨0, 0, 1, 0, 0, 0⟩, [⟨[0x61], .a, 1⟩], [], [], []⟩ := by decide
  ⟨h, parse_section_lengths h⟩

/-- Every item of a section satisfies what every item read satisfies. -/
theorem readCount_forall {α : Type} {read : Nat → Except Fault (α × Nat)} {P : α → Prop}
    (hread : ∀ {pos : Nat} {r : α × Nat}, read pos = .ok r → P r.1) {count pos : Nat}
    {r : List α × Nat} (h : readCount read count pos = .ok r) : ∀ a ∈ r.1, P a := by
  induction count generalizing pos r with
  | zero => cases h; simp
  | succ count ih =>
    rw [readCount] at h
    obtain ⟨⟨a, _⟩, ha, h'⟩ := bind_eq_ok.mp h
    obtain ⟨⟨_, _⟩, has, h3⟩ := bind_eq_ok.mp h'
    cases h3
    simp only [List.mem_cons, forall_eq_or_imp]
    exact ⟨hread ha, ih has⟩

theorem Question.readAndAdvance_name_valid {fuel : Nat} {buf : Bytes} {pos : Nat}
    {r : Question × Nat} (h : Question.readAndAdvance fuel buf pos = .ok r) :
    isValidUtf8 r.1.name := by
  obtain ⟨⟨name, _⟩, hname, h⟩ := bind_eq_ok.mp h
  have hv := RecordName.readAndAdvanceLoop_valid hname
  repeat obtain ⟨_, -, h⟩ := bind_eq_ok.mp h
  cases h
  exact hv

theorem Record.readAndAdvance_name_valid {fuel : Nat} {buf : Bytes} {pos : Nat}
    {r : Record × Nat} (h : Record.readAndAdvance fuel buf pos = .ok r) :
    isValidUtf8 r.1.name := by
  obtain ⟨⟨name, _⟩, hname, h⟩ := bind_eq_ok.mp h
  have hv := RecordName.readAndAdvanceLoop_valid hname
  repeat obtain ⟨_, -, h⟩ := bind_eq_ok.mp h
  cases h
  exact hv

/-- **EVERY NAME OF A DECODED PACKET IS TEXT**: the names of its questions and of the records
    of its three sections are valid UTF-8. -/
theorem Packet.parse_names_valid {fuel : Nat} {buf : Bytes} {p : Packet}
    (h : Packet.parse fuel buf = .ok p) :
    (∀ q ∈ p.questions, isValidUtf8 q.name) ∧
      ∀ r ∈ p.answers ++ p.authorities ++ p.additionals, isValidUtf8 r.name := by
  cases hc : Packet.parseCursor fuel buf with
  | error f => rw [Packet.parse, hc] at h; cases h
  | ok r =>
    rw [Packet.parse, hc] at h
    cases h
    obtain ⟨⟨_, _⟩, -, hc⟩ := bind_eq_ok.mp hc
    obtain ⟨⟨_, _⟩, h₁, hc⟩ := bind_eq_ok.mp hc
    obtain ⟨⟨_, _⟩, h₂, hc⟩ := bind_eq_ok.mp hc
    obtain ⟨⟨_, _⟩, h₃, hc⟩ := bind_eq_ok.mp hc
    obtain ⟨⟨_, _⟩, h₄, hc⟩ := bind_eq_ok.mp hc
    cases hc
    have hrec := fun {count pos : Nat} {s : List Record × Nat}
      (hs : readCount (Record.readAndAdvance fuel buf) count pos = .ok s) =>
      readCount_forall (P := fun r : Record => isValidUtf8 r.name)
        Record.readAndAdvance_name_valid hs
    refine ⟨readCount_forall (P := fun q : Question => isValidUtf8 q.name)
      Question.readAndAdvance_name_valid h₁, fun r hr => ?_⟩
    simp only [List.mem_append] at hr
    rcases hr with (hr | hr) | hr
    · exact hrec h₂ r hr
    · exact hrec h₃ r hr
    · exact hrec h₄ r hr


/-- **A PROPER PREFIX OF A MESSAGE READ TO ITS END FAILS**: the decode of the prefix is the
    decode of the whole message cut short, and it cannot end past the prefix. -/
theorem Packet.parse_take_of_end {fuel : Nat} {buf : Bytes} {p : Packet} {k : Nat}
    (h : Packet.parseCursor fuel buf = .ok (p, buf.length)) (hk : k < buf.length) :
    ∃ e, Packet.parse fuel (buf.take k) = .error (.err e) := by
  have hx : Extends (Packet.parseCursor fuel (buf.take k))
      (Packet.parseCursor fuel (buf.take k ++ buf.drop k)) :=
    Packet.parseCursor_agrees (Header.readAndAdvance_extends _ 0)
      (Question.readAndAdvance_extends _ fuel) (Record.readAndAdvance_extends _ fuel)
  rw [List.take_append_drop, h] at hx
  rcases AgreesUnless.eq_or_excused hx with hok | ⟨f, hf, he⟩
  · have := Packet.parseCursor_end_le hok.symm
    simp only [List.length_take] at this
    omega
  · cases f with
    | err e => exact ⟨e, by rw [Packet.parse, he]; rfl⟩
    | outOfFuel => exact absurd rfl hf

/-- **TRAILING BYTES NEVER CHANGE A DECODED PACKET.** -/
theorem parse_append_of_ok {fuel : Nat} {buf : Bytes} {p : Packet} (t : Bytes)
    (h : Packet.parse fuel buf = .ok p) : Packet.parse fuel (buf ++ t) = .ok p := by
  rw [Packet.parse_extends t fuel (fun f _ he => by rw [h] at he; cases he), h]

/-- A query for `a`, decoded the same with a byte after it. -/
theorem parse_append_of_ok_query :
    Packet.parse 2 [0, 0, 0, 0, 0, 1, 0, 0, 0, 0, 0, 0, 1, 0x61, 0, 0, 1, 0, 1] =
        .ok ⟨⟨0, 0, 1, 0, 0, 0⟩, [⟨[0x61], .a, 1⟩], [], [], []⟩ ∧
      Packet.parse 2 ([0, 0, 0, 0, 0, 1, 0, 0, 0, 0, 0, 0, 1, 0x61, 0, 0, 1, 0, 1] ++ [0xFF]) =
        .ok ⟨⟨0, 0, 1, 0, 0, 0⟩, [⟨[0x61], .a, 1⟩], [], [], []⟩ :=
  ⟨by decide, parse_append_of_ok [0xFF] (by decide)⟩

end ToyDns
