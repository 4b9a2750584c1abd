import ToyDns.Cli

/-! # What a resolution fails with

    `DnsError` has 26 variants and `main.rs` gives each its own exit code, but a resolution
    fails with only 16 of them. Each decoder fails only with the errors that name its own
    reads:

    * a name decode with `ReadLength`, `ReadByte`, `InvalidByteInName` or
      `DecompressReadByte` (`nameErrors`): the two seeks of a pointer never fail;
    * a question or a record also with the errors of its fixed fields (`questionErrors`,
      `recordErrors`);
    * the header decode never fails on a buffer of a header's length, and `perform` always
      decodes the 1024-byte receive buffer, so no error of the header reaches the resolver;
    * `ParseResponse` is returned by no function, and `SocketBind` only by binding the
      socket, before any resolution.

    **`FailsWithin errors r`** says every `Err` of `r` is one of `errors`. It is closed under
    `>>=`, so each decoder's lemma follows the decoder's own `do` block, and the loop's goes by
    induction on the fuel, nested resolutions included (`Query.resolveLoop_failsWithin`). The
    headline is `resolve_error_mem`. -/

namespace ToyDns

/-- Every `Err` of `r` is one of `errors`. -/
def FailsWithin {α : Type} (errors : List DnsError) (r : Except Fault α) : Prop :=
  ∀ e, r = .error (.err e) → e ∈ errors

namespace FailsWithin

variable {α β : Type} {errors : List DnsError}

theorem ok (a : α) : FailsWithin errors (.ok a) := fun _ h => by cases h

theorem outOfFuel : FailsWithin errors (.error .outOfFuel : Except Fault α) :=
  fun _ h => by cases h

theorem err {e : DnsError} (h : e ∈ errors) :
    FailsWithin errors (.error (.err e) : Except Fault α) :=
  fun _ h' => by cases h'; exact h

theorem okOr {o : Option α} {e : DnsError} (h : e ∈ errors) : FailsWithin errors (okOr o e) := by
  cases o with
  | none => exact err h
  | some a => exact ok a

theorem bind {x : Except Fault α} {f : α → Except Fault β} (hx : FailsWithin errors x)
    (hf : ∀ a, FailsWithin errors (f a)) : FailsWithin errors (x >>= f) := by
  cases x with
  | error g => intro e h; cases h; exact hx _ rfl
  | ok a => exact hf a

theorem map {x : Except Fault α} (f : α → β) (hx : FailsWithin errors x) :
    FailsWithin errors (x.map f) := by
  cases x with
  | error g => intro e h; cases h; exact hx _ rfl
  | ok a => exact ok _

/-- A fault passed on from a computation that fails within `errors`. -/
theorem of_eq {r : Except Fault α} {f : Fault} (h : FailsWithin errors r) (hr : r = .error f) :
    FailsWithin errors (.error f : Except Fault β) :=
  fun _ he => by cases he; exact h _ hr

theorem mono {r : Except Fault α} {errors' : List DnsError} (h : FailsWithin errors r)
    (hsub : errors ⊆ errors') : FailsWithin errors' r :=
  fun e he => hsub (h e he)

end FailsWithin

-- ── The decoders ─────────────────────────────────────────────────────────────

/-- The errors of a name decode. -/
def nameErrors : List DnsError := [.readLength, .readByte, .invalidByteInName, .decompressReadByte]

/-- The errors of a question: its name's, then its type's and class's. -/
def questionErrors : List DnsError :=
  nameErrors ++ [.readQuestionType, .unrecognizedRecordType, .readQuestionClass]

/-- The errors of a record: its name's, then those of its fixed fields and its data. -/
def recordErrors : List DnsError :=
  nameErrors ++ [.readRecordType, .unrecognizedRecordType, .readRecordClass, .readRecordTTL,
    .readRecordDataLength, .readRecordData]

/-- The errors a resolution can fail with. -/
def resolveErrors : List DnsError :=
  [.readByte, .readLength, .readQuestionType, .readQuestionClass, .readRecordType,
   .readRecordClass, .readRecordTTL, .readRecordDataLength, .readRecordData, .socketSend,
   .socketRead, .decompressReadByte, .querySerialization, .unrecognizedRecordType,
   .invalidByteInName, .unknownDomainName]

theorem RecordName.nameStep_fail_mem {buf : Bytes} {pos : Nat} {e : DnsError}
    (h : RecordName.nameStep buf pos = .fail e) : e ∈ nameErrors := by
  unfold RecordName.nameStep at h
  split at h
  · cases h; decide
  · split_ifs at h
    · split at h <;> cases h; decide
    · split at h
      · cases h; decide
      · split at h <;> cases h; decide

theorem RecordName.readAndAdvance_failsWithin (fuel : Nat) (buf : Bytes) (pos : Nat) :
    FailsWithin nameErrors (RecordName.readAndAdvance fuel buf pos) := fun _ h =>
  let ⟨_, hq⟩ := RecordName.readAndAdvanceLoop_err h
  RecordName.nameStep_fail_mem hq

theorem Question.readAndAdvance_failsWithin (fuel : Nat) (buf : Bytes) (pos : Nat) :
    FailsWithin questionErrors (Question.readAndAdvance fuel buf pos) := by
  unfold Question.readAndAdvance
  refine ((RecordName.readAndAdvance_failsWithin fuel buf pos).mono
    (List.subset_append_left _ _)).bind fun _ => ?_
  iterate 3 refine (FailsWithin.okOr (by decide)).bind fun _ => ?_
  exact .ok _

theorem Record.readAndAdvance_failsWithin (fuel : Nat) (buf : Bytes) (pos : Nat) :
    FailsWithin recordErrors (Record.readAndAdvance fuel buf pos) := by
  unfold Record.readAndAdvance
  refine ((RecordName.readAndAdvance_failsWithin fuel buf pos).mono
    (List.subset_append_left _ _)).bind fun _ => ?_
  iterate 6 refine (FailsWithin.okOr (by decide)).bind fun _ => ?_
  exact .ok _

theorem readCount_failsWithin {α : Type} {errors : List DnsError}
    {read : Nat → Except Fault (α × Nat)} (h : ∀ pos, FailsWithin errors (read pos))
    (count pos : Nat) : FailsWithin errors (readCount read count pos) := by
  induction count generalizing pos with
  | zero => exact .ok _
  | succ count ih => exact (h pos).bind fun _ => (ih _).bind fun _ => .ok _

/-- The header decode succeeds on every buffer of a header's length. -/
theorem Header.readAndAdvance_of_le {buf : Bytes} (h : 12 ≤ buf.length) :
    ∃ header, Header.readAndAdvance buf 0 = .ok (header, 12) := by
  simp (disch := omega) only [Header.readAndAdvance, readU16, readExact, if_pos,
    Option.map_some', okOr_some, ok_bind]
  exact ⟨_, rfl⟩

/-- A decode of a buffer that holds a header fails only in a question or a record. -/
theorem Packet.parse_failsWithin (fuel : Nat) {buf : Bytes} (h : 12 ≤ buf.length) :
    FailsWithin (questionErrors ++ recordErrors) (Packet.parse fuel buf) := by
  obtain ⟨header, hh⟩ := Header.readAndAdvance_of_le h
  have hq := fun pos => (Question.readAndAdvance_failsWithin fuel buf pos).mono
    (List.subset_append_left questionErrors recordErrors)
  have hr := fun pos => (Record.readAndAdvance_failsWithin fuel buf pos).mono
    (List.subset_append_right questionErrors recordErrors)
  refine FailsWithin.map _ ?_
  rw [Packet.parseCursor, hh, ok_bind]
  refine (readCount_failsWithin hq _ _).bind fun _ => ?_
  iterate 3 refine (readCount_failsWithin hr _ _).bind fun _ => ?_
  exact .ok _

-- ── The resolver ─────────────────────────────────────────────────────────────

variable {σ : Type}

/-- An exchange fails in serializing, sending or receiving, or in decoding the reply, never
    in its header. -/
theorem Query.perform_failsWithin (w : World σ) (fuel : Nat) (q : Query) (ip : String)
    (seed : Option Nat) (st : σ) : FailsWithin resolveErrors (q.perform w fuel ip seed st).1 := by
  have hlen : ∀ datagram, 12 ≤ (recvBuffer datagram).length := fun _ => by
    simp only [recvBuffer, List.length_take, List.length_append, List.length_replicate]; omega
  simp only [Query.perform]
  split
  · exact .err (by decide)
  split
  · exact .err (by decide)
  split
  · exact .err (by decide)
  · exact (Packet.parse_failsWithin fuel (hlen _)).mono (by decide)

/-- Every pass of the loop, and every nested resolution, fails only with `resolveErrors`. -/
theorem Query.resolveLoop_failsWithin (w : World σ) :
    ∀ (fuel : Nat) (q : Query) (seed : Option Nat) (ip : String) (st : σ),
      FailsWithin resolveErrors (q.resolveLoop w fuel seed ip st).1
  | 0, _, _, _, _ => .outOfFuel
  | fuel + 1, q, seed, ip, st => by
    have hperform := Query.perform_failsWithin w (fuel + 1) q ip seed st
    rw [Query.resolveLoop]
    rcases hp : q.perform w (fuel + 1) ip seed st with ⟨_ | packet, st₁⟩
    · exact hperform.of_eq (congrArg Prod.fst hp)
    dsimp only
    split
    · exact .ok _
    split
    · exact Query.resolveLoop_failsWithin w fuel q seed _ st₁
    split
    · exact .err (by decide)
    split
    · rename_i h
      exact ((RecordName.readAndAdvance_failsWithin _ _ _).of_eq h).mono (by decide)
    split
    · exact .err (by decide)
    rcases RootServer.random w seed st₁ with ⟨rootIp, st₂⟩
    dsimp only
    split
    · rename_i h
      exact (Query.resolveLoop_failsWithin w fuel _ seed rootIp st₂).of_eq (congrArg Prod.fst h)
    split
    · exact .err (by decide)
    · exact Query.resolveLoop_failsWithin w fuel q seed _ _

/-- **WHAT A RESOLUTION FAILS WITH**: for every transport, query, seed and fuel, an `Err` of
    `resolve` is one of the 16 errors of `resolveErrors`: never `ParseResponse`, an error of
    the header, `SocketBind`, `DecompressSkip` or `DecompressRestore`. -/
theorem resolve_error_mem {w : World σ} {fuel : Nat} {q : Query} {seed : Option Nat} {st : σ}
    {e : DnsError} (h : (q.resolve w fuel seed st).1 = .error (.err e)) : e ∈ resolveErrors :=
  Query.resolveLoop_failsWithin w fuel q seed _ _ e h

theorem resolve_error_mem_offline :
    (Query.resolve offline 1 ⟨nameA, .a⟩ none ()).1 = .error (.err .socketSend) ∧
      DnsError.socketSend ∈ resolveErrors :=
  have h : (Query.resolve offline 1 ⟨nameA, .a⟩ none ()).1 = .error (.err .socketSend) := by
    decide
  ⟨h, resolve_error_mem h⟩

end ToyDns
