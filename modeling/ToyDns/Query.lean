import ToyDns.Message

/-! # The resolver — `query.rs` and `root_servers.rs`

    `Query.serialize` writes the header and the one question of a query. `Query.perform`
    sends it to a name server and decodes whatever comes back into the 1024-byte receive
    buffer. `resolveWithDepth` starts at a random root server and loops:

    * an A record among the answers ends the resolution with the reply;
    * else an A record among the additionals (glue) is the next server to ask;
    * else the first NS record among the authorities names the next server, whose address
      a nested resolution of that name, starting again from a random root, must find;
    * else the resolution fails with `UnknownDomainName`.

    Nothing bounds the loop or the nesting, so the model runs on `fuel` like the name
    decoder. The socket and the random generators are a `World` over any state: every
    theorem about the resolver holds for every transport and every sequence of draws.
    Logging, and the depth and host name kept only for it, are left out. -/

namespace ToyDns

/-- `CLASS_IN`: the Internet class, the only one queries ask for. -/
def classIn : UInt16 := 1

/-- `ROOT_SERVERS_AND_IPS` of `root_servers.rs`, the addresses in table order (the names
    beside them are only logged). -/
def rootServersAndIps : List String :=
  ["198.41.0.4", "192.33.4.12", "199.7.91.13", "192.203.230.10", "192.5.5.241",
   "192.112.36.4", "198.97.190.53", "192.36.148.17", "192.58.128.30", "193.0.14.129",
   "199.7.83.42", "202.12.27.33"]

/-- What the resolver consumes besides its query, over a state `σ` of the world outside it:
    the `Socket` capability of `socket.rs` and the random draws. -/
structure World (σ : Type) where
  /-- `socket.send(buf, addr)`: the world after the datagram left, or `None` on an error. -/
  send : σ → Bytes → String → Option σ
  /-- `socket.recv_from(buf)`: the datagram delivered and the world after, or `None`. -/
  recvFrom : σ → Option (Bytes × σ)
  /-- `gen_range(0..=u16::MAX)` on `ChaCha8Rng::seed_from_u64(seed)` or the thread's
      generator. -/
  randomId : Option Nat → σ → UInt16 × σ
  /-- `gen_range(0..ROOT_SERVERS_AND_IPS.len())` in `RootServer::random`. -/
  randomIndex : Option Nat → σ → Fin rootServersAndIps.length × σ

/-- `Query` of `query.rs`. -/
structure Query where
  domainName : Str
  recordType : RecordType
  deriving DecidableEq

variable {σ : Type}

/-- `RootServer::random`: the address of the root server at a random index. -/
def RootServer.random (w : World σ) (randomSeed : Option Nat) (st : σ) : String × σ :=
  let (randomIndex, st) := w.randomIndex randomSeed st
  (rootServersAndIps.get randomIndex, st)

/-- `Query::serialize`, given the id its generator drew. The writes go to a `Vec<u8>` and
    cannot fail; the only error is a name `encode` rejects. -/
def Query.serialize (q : Query) (randomId : UInt16) : Except DnsError Bytes := do
  let header : Header := { id := randomId, flags := 0, numQuestions := 1, numAnswers := 0,
                           numAuthorities := 0, numAdditionals := 0 }
  let question : Question := { name := ← RecordName.encode q.domainName,
                               qType := q.recordType, qClass := classIn }
  .ok (writeU16 header.id ++ writeU16 header.flags ++ writeU16 header.numQuestions
    ++ writeU16 header.numAnswers ++ writeU16 header.numAuthorities
    ++ writeU16 header.numAdditionals
    ++ question.name ++ writeU16 question.qType.value ++ writeU16 question.qClass)

/-- The receive buffer `[0; 1024]` after `recv_from` copied a datagram into its front: a
    longer datagram is cut to the buffer, as a UDP socket does, and a shorter one leaves the
    zeros behind it. -/
def recvBuffer (datagram : Bytes) : Bytes := (datagram ++ List.replicate 1024 0).take 1024

/-- `Query::perform`: serialize, send to port 53 of the server, receive, and decode the whole
    receive buffer. The size `recv_from` returns is not used. -/
def Query.perform (w : World σ) (fuel : Nat) (q : Query) (dnsServerIp : String)
    (randomSeed : Option Nat) (st : σ) : Except Fault Packet × σ :=
  let (randomId, st) := w.randomId randomSeed st
  match q.serialize randomId with
  | .error _ => (.error (.err .querySerialization), st)
  | .ok queryBytes =>
    match w.send st queryBytes (dnsServerIp ++ ":53") with
    | none => (.error (.err .socketSend), st)
    | some st =>
      match w.recvFrom st with
      | none => (.error (.err .socketRead), st)
      | some (datagram, st) => (Packet.parse fuel (recvBuffer datagram), st)

/-- The `loop` of `resolve_with_depth` for query `q`, about to ask the server at
    `nameServerIp`. Each pass spends one unit of `fuel`, which also bounds the name decodes of
    the pass; a nested resolution gets what is left. -/
def Query.resolveLoop (w : World σ) : (fuel : Nat) → (q : Query) → (randomSeed : Option Nat) →
    (nameServerIp : String) → σ → Except Fault Packet × σ
  | 0, _, _, _, st => (.error .outOfFuel, st)
  | fuel + 1, q, randomSeed, nameServerIp, st =>
    match q.perform w (fuel + 1) nameServerIp randomSeed st with
    | (.error error, st) => (.error error, st)
    | (.ok packet, st) =>
      if (getFirstARecord packet.answers).isSome then (.ok packet, st)
      else match getFirstARecord packet.additionals with
      | some newNameServer =>
        Query.resolveLoop w fuel q randomSeed newNameServer.ipAddress st
      | none =>
        match getFirstNsRecord packet.authorities with
        | none => (.error (.err .unknownDomainName), st)
        | some nsRecord =>
          match RecordName.readAndAdvance (fuel + 1) nsRecord.data 0 with
          | .error error => (.error error, st)
          | .ok (nameserverNameStrBytes, _) =>
            match Str.fromUtf8 nameserverNameStrBytes with
            | none => (.error (.err .invalidByteInName), st)
            | some nameserverNameStr =>
              let newQuery : Query := { domainName := nameserverNameStr, recordType := .a }
              let (rootIp, st) := RootServer.random w randomSeed st
              match Query.resolveLoop w fuel newQuery randomSeed rootIp st with
              | (.error error, st) => (.error error, st)
              | (.ok nameServerResolvedPacket, st) =>
                match getFirstARecord nameServerResolvedPacket.answers with
                | none => (.error (.err .unknownDomainName), st)
                | some nameServerARecord =>
                  Query.resolveLoop w fuel q randomSeed nameServerARecord.ipAddress st

/-- `Query::resolve_with_depth`: a random root server, then the loop. -/
def Query.resolveWithDepth (w : World σ) (fuel : Nat) (q : Query) (randomSeed : Option Nat)
    (st : σ) : Except Fault Packet × σ :=
  let (rootIp, st) := RootServer.random w randomSeed st
  q.resolveLoop w fuel randomSeed rootIp st

/-- `Query::resolve`. -/
def Query.resolve (w : World σ) (fuel : Nat) (q : Query) (randomSeed : Option Nat) (st : σ) :
    Except Fault Packet × σ :=
  q.resolveWithDepth w fuel randomSeed st

end ToyDns
