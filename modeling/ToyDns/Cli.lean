import ToyDns.Resolver

/-! # The command line — `run` of `main.rs`

    `run` resolves an A query for the name given on the command line and prints what it got:
    on success `Answer:`, a blank line and one line per answer with its type, name, dotted
    address and TTL, and `0`; on failure the error on `stderr` and the error's exit code. An
    answer whose name is not UTF-8 stops the printing with `InvalidByteInName`'s code.

    That check never fails: the name decoder only returns text, so every record of a decoded
    packet has a name of text (`Packet.parse_names_valid`), and `run` exits with `0` exactly
    after a resolution that succeeds (`run_exitCode`). Every other exit code is at least `2`
    and names one error back (`DnsError.ofExitCode_exitCode`). -/

namespace ToyDns

/-- `DnsError::exit_code`: the process's exit code for each error. -/
def DnsError.exitCode : DnsError → Int
  | .parseResponse => 2
  | .parseId => 3
  | .parseFlag => 4
  | .parseQuestionCount => 5
  | .parseAnswerCount => 6
  | .parseAuthorityCount => 7
  | .parseAdditionalCount => 8
  | .readByte => 9
  | .readLength => 10
  | .readQuestionType => 11
  | .readQuestionClass => 12
  | .readRecordType => 13
  | .readRecordClass => 14
  | .readRecordTTL => 15
  | .readRecordDataLength => 16
  | .readRecordData => 17
  | .socketBind => 18
  | .socketSend => 19
  | .socketRead => 20
  | .decompressReadByte => 21
  | .decompressSkip => 22
  | .decompressRestore => 23
  | .querySerialization => 24
  | .unrecognizedRecordType => 25
  | .invalidByteInName => 26
  | .unknownDomainName => 27

/-- The error an exit code names: the inverse of `exitCode`. -/
def DnsError.ofExitCode : Int → Option DnsError
  | 2 => some .parseResponse
  | 3 => some .parseId
  | 4 => some .parseFlag
  | 5 => some .parseQuestionCount
  | 6 => some .parseAnswerCount
  | 7 => some .parseAuthorityCount
  | 8 => some .parseAdditionalCount
  | 9 => some .readByte
  | 10 => some .readLength
  | 11 => some .readQuestionType
  | 12 => some .readQuestionClass
  | 13 => some .readRecordType
  | 14 => some .readRecordClass
  | 15 => some .readRecordTTL
  | 16 => some .readRecordDataLength
  | 17 => some .readRecordData
  | 18 => some .socketBind
  | 19 => some .socketSend
  | 20 => some .socketRead
  | 21 => some .decompressReadByte
  | 22 => some .decompressSkip
  | 23 => some .decompressRestore
  | 24 => some .querySerialization
  | 25 => some .unrecognizedRecordType
  | 26 => some .invalidByteInName
  | 27 => some .unknownDomainName
  | _ => none

/-- Every exit code names its error back, and none is `0` (success) or `1`. -/
theorem DnsError.ofExitCode_exitCode (e : DnsError) :
    DnsError.ofExitCode e.exitCode = some e ∧ 2 ≤ e.exitCode := by
  cases e <;> decide

theorem DnsError.exitCode_injective : Function.Injective DnsError.exitCode := fun a b h =>
  Option.some.inj ((a.ofExitCode_exitCode.1.symm.trans (congrArg _ h)).trans
    b.ofExitCode_exitCode.1)

/-- The `{:?}` of a `DnsError`: its variant's name. -/
def DnsError.debugName : DnsError → String
  | .parseResponse => "ParseResponse"
  | .parseId => "ParseId"
  | .parseFlag => "ParseFlag"
  | .parseQuestionCount => "ParseQuestionCount"
  | .parseAnswerCount => "ParseAnswerCount"
  | .parseAuthorityCount => "ParseAuthorityCount"
  | .parseAdditionalCount => "ParseAdditionalCount"
  | .readByte => "ReadByte"
  | .readLength => "ReadLength"
  | .readQuestionType => "ReadQuestionType"
  | .readQuestionClass => "ReadQuestionClass"
  | .readRecordType => "ReadRecordType"
  | .readRecordClass => "ReadRecordClass"
  | .readRecordTTL => "ReadRecordTTL"
  | .readRecordDataLength => "ReadRecordDataLength"
  | .readRecordData => "ReadRecordData"
  | .socketBind => "SocketBind"
  | .socketSend => "SocketSend"
  | .socketRead => "SocketRead"
  | .decompressReadByte => "DecompressReadByte"
  | .decompressSkip => "DecompressSkip"
  | .decompressRestore => "DecompressRestore"
  | .querySerialization => "QuerySerialization"
  | .unrecognizedRecordType => "UnrecognizedRecordType"
  | .invalidByteInName => "InvalidByteInName"
  | .unknownDomainName => "UnknownDomainName"

/-- The description `impl Display for DnsError` writes after the name. -/
def DnsError.description : DnsError → String
  | .parseResponse => "Could not parse DNS response"
  | .parseId => "Could not parse ID in header"
  | .parseFlag => "Could not parse flag in header"
  | .parseQuestionCount => "Could not parse number of questions"
  | .parseAnswerCount => "Could not parse number of answers"
  | .parseAuthorityCount => "Could not parse number of authorities"
  | .parseAdditionalCount => "Could not parse number of additionals"
  | .readByte => "Could not read the next byte"
  | .readLength => "Could not read length in string buffer"
  | .readQuestionType => "Could not read type in question"
  | .readQuestionClass => "Could not read class in question"
  | .readRecordType => "Could not read type in record"
  | .readRecordClass => "Could not read class in record"
  | .readRecordTTL => "Could not read TTL in record"
  | .readRecordDataLength => "Could not read length of data in record"
  | .readRecordData => "Could not read data in record"
  | .socketBind => "Could not bind to socket"
  | .socketSend => "Could not send data through socket"
  | .socketRead => "Could not read data from socket"
  | .decompressReadByte => "Could not read additional byte to read skip offset"
  | .decompressSkip => "Skip failed, most likely was out of bounds"
  | .decompressRestore => "Could not restore cursor to previous position"
  | .querySerialization => "Could not serialize DNS query"
  | .unrecognizedRecordType => "Did not recognize the record type value"
  | .invalidByteInName => "Found invalid byte in record name"
  | .unknownDomainName => "No nameservers are aware of the given domain name"

/-- `impl Display for DnsError`: `"{:?}: {}"`, the variant's name and its description. -/
def DnsError.display (e : DnsError) : String := e.debugName ++ ": " ++ e.description

/-- `impl Display for RecordType`. -/
def RecordType.display : RecordType → String
  | .invalid => "INVALID"
  | .a => "A"
  | .ns => "NS"
  | .aaaa => "AAAA"

/-- The bytes `write!` puts on a stream for a string. -/
def utf8 (s : String) : Bytes := s.toUTF8.data.toList

/-- What `run` leaves behind: the exit code it returns, the bytes it wrote to `stdout`, and
    the text it wrote to `stderr`. -/
structure RunOutput where
  exitCode : Int
  stdout : Bytes
  stderr : String
  deriving DecidableEq

/-- The `for answer in packet.answers` loop of `run`, with `stdout` written so far. -/
def printAnswers (stdout : Bytes) : List Record → RunOutput
  | [] => ⟨0, stdout, ""⟩
  | answer :: answers =>
    match Str.fromUtf8 answer.name with
    | none =>
      ⟨DnsError.invalidByteInName.exitCode, stdout, "Could not decode record name in UTF8.\n"⟩
    | some name =>
      let address := answer.ipAddress
      printAnswers (stdout ++ utf8 "Found " ++ utf8 answer.rType.display ++ utf8 " record for "
        ++ name.bytes ++ utf8 " with address " ++ utf8 address ++ utf8 " set to expire in "
        ++ utf8 (toString answer.ttl) ++ utf8 "\n") answers

variable {σ : Type}

/-- `run` of `main.rs`: resolve an A query for the name given on the command line, then print
    the answers, or the error, and return the exit code; `none` when the resolution does not
    return. -/
def run (w : World σ) (fuel : Nat) (domainName : Str) (randSeed : Option Nat) (st : σ) :
    Option RunOutput × σ :=
  let query : Query := { domainName, recordType := .a }
  match query.resolve w fuel randSeed st with
  | (.ok packet, st) => (some (printAnswers (utf8 "Answer:\n" ++ utf8 "\n") packet.answers), st)
  | (.error (.err error), st) =>
    (some ⟨error.exitCode, [], "DNS request failed with " ++ error.display ++ "\n"⟩, st)
  | (.error .outOfFuel, st) => (none, st)

/-- Answers whose names are all text are all printed, and `run` then returns `0`. -/
theorem printAnswers_of_valid {stdout : Bytes} {answers : List Record}
    (h : ∀ r ∈ answers, isValidUtf8 r.name) :
    (printAnswers stdout answers).exitCode = 0 ∧ (printAnswers stdout answers).stderr = "" := by
  induction answers generalizing stdout with
  | nil => exact ⟨rfl, rfl⟩
  | cons answer answers ih =>
    rw [printAnswers, show Str.fromUtf8 answer.name = some ⟨answer.name, h answer (.head _)⟩ by
      simp [Str.fromUtf8, h answer (.head _)]]
    exact ih fun r hr => h r (.tail _ hr)

/-- **`run` EXITS WITH 0 EXACTLY AFTER A RESOLUTION THAT SUCCEEDS**: every answer of a packet
    the resolver returns has a name of text, so the name check of the answer loop never fails;
    `run` returns `0` when the resolution succeeds, and otherwise the exit code, `2` or more,
    of the error the resolution failed with. -/
theorem run_exitCode {w : World σ} {fuel : Nat} {domainName : Str} {randSeed : Option Nat}
    {st st' : σ} {o : RunOutput} (h : run w fuel domainName randSeed st = (some o, st')) :
    o.exitCode = 0 ∧ (∃ p, (Query.resolve w fuel ⟨domainName, .a⟩ randSeed st).1 = .ok p) ∨
      ∃ e, (Query.resolve w fuel ⟨domainName, .a⟩ randSeed st).1 = .error (.err e) ∧
        o.exitCode = e.exitCode ∧ 2 ≤ o.exitCode := by
  simp only [run] at h
  rcases hr : Query.resolve w fuel ⟨domainName, .a⟩ randSeed st with ⟨(e | _) | packet, st₁⟩ <;>
    simp only [hr, Prod.mk.injEq, Option.some.injEq, reduceCtorEq, false_and] at h
  · obtain ⟨rfl, -⟩ := h
    exact .inr ⟨e, rfl, rfl, e.ofExitCode_exitCode.2⟩
  · obtain ⟨rfl, -⟩ := h
    obtain ⟨fuel', buf, hp⟩ := Query.resolve_eq_ok hr
    exact .inl ⟨(printAnswers_of_valid fun r hr =>
      (Packet.parse_names_valid hp).2 r (by simp [hr])).1, packet, rfl⟩

/-- A transport that accepts no datagram. -/
def offline : World Unit where
  send _ _ _ := none
  recvFrom _ := none
  randomId _ _ := (0, ())
  randomIndex _ _ := (⟨0, by decide⟩, ())

theorem run_exitCode_offline :
    run offline 1 nameA none () = (some ⟨19, [],
        "DNS request failed with SocketSend: Could not send data through socket\n"⟩, ()) ∧
      ((19 : Int) = 0 ∧ (∃ p, (Query.resolve offline 1 ⟨nameA, .a⟩ none ()).1 = .ok p) ∨
        ∃ e, (Query.resolve offline 1 ⟨nameA, .a⟩ none ()).1 = .error (.err e) ∧
          (19 : Int) = e.exitCode ∧ 2 ≤ (19 : Int)) :=
  have h : run offline 1 nameA none () = (some ⟨19, [],
      "DNS request failed with SocketSend: Could not send data through socket\n"⟩, ()) := by
    decide
  ⟨h, run_exitCode h⟩

end ToyDns
