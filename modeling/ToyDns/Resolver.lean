import ToyDns.Agreement
import ToyDns.Compression
import ToyDns.Query

/-! # The resolver over whole runs

    * **`perform`** decodes the whole 1024-byte receive buffer, not the datagram: a reply that
      decodes is decoded the same (trailing zeros never change a decoded packet), but a
      truncated reply is completed by the zeros (`perform_of_recv`);
    * **`Reaches`** is the top-level loop of `resolve_with_depth` as a step relation over the
      passes it makes — each pass a referral, to glue or through a nested resolution of the
      name server's name. `resolveLoop_eq_of_reaches` says the loop's result is that of any
      pass it reaches, and `resolve_ok_iff` characterises success: `resolve` returns
      `Ok(p)` exactly when `p` is the reply of a pass it reaches with an **A** record among
      its answers, whatever record type the query asked for;
    * nothing bounds the referrals: a transport that answers every query with glue keeps the
      loop asking forever (`resolve_diverges_of_referrals`);
    * the name of a delegation is decoded from the NS record's data alone, so a compression
      pointer in it, which points into the whole reply, reads past the data's end;
    * the fuel of the model is not a behaviour of the code: a resolution that does not run out
      of it returns the same, and leaves the world the same, with any more
      (`resolve_add_fuel`), so every fuel that suffices gives the one outcome the code
      computes. -/

namespace ToyDns

variable {σ : Type}

/-! ## One exchange -/

/-- The receive buffer of a datagram that fits: the datagram, then zeros. -/
theorem recvBuffer_eq {datagram : Bytes} (h : datagram.length ≤ 1024) :
    recvBuffer datagram = datagram ++ List.replicate (1024 - datagram.length) 0 := by
  rw [recvBuffer, List.take_append_eq_append_take, List.take_of_length_le h,
    List.take_replicate, Nat.min_eq_left (Nat.sub_le _ _)]

/-- A datagram that decodes is decoded the same from the receive buffer. -/
theorem Packet.parse_recvBuffer {fuel : Nat} {datagram : Bytes} {p : Packet}
    (hlen : datagram.length ≤ 1024) (h : Packet.parse fuel datagram = .ok p) :
    Packet.parse fuel (recvBuffer datagram) = .ok p := by
  rw [recvBuffer_eq hlen]
  exact (Packet.parse_extends _ fuel).ok h

/-- An exchange that sends and receives decodes the receive buffer. -/
theorem Query.perform_eq {w : World σ} {fuel : Nat} {q : Query} {ip : String}
    {seed : Option Nat} {st st₁ st₂ : σ} {queryBytes datagram : Bytes}
    (hs : q.serialize (w.randomId seed st).1 = .ok queryBytes)
    (hsend : w.send (w.randomId seed st).2 queryBytes (ip ++ ":53") = some st₁)
    (hrecv : w.recvFrom st₁ = some (datagram, st₂)) :
    q.perform w fuel ip seed st = (Packet.parse fuel (recvBuffer datagram), st₂) := by
  simp only [Query.perform, hs, hsend, hrecv]

/-- An exchange returns only a packet it decoded. -/
theorem Query.perform_eq_ok {w : World σ} {fuel : Nat} {q : Query} {ip : String}
    {seed : Option Nat} {st st' : σ} {p : Packet}
    (h : q.perform w fuel ip seed st = (.ok p, st')) : ∃ buf, Packet.parse fuel buf = .ok p := by
  simp only [Query.perform] at h
  split at h
  · cases h
  split at h
  · cases h
  split at h
  · cases h
  · exact ⟨_, congrArg Prod.fst h⟩

/-- **WHAT `perform` DECODES**: a datagram of at most 1024 bytes, followed by zeros up to 1024
    bytes. A datagram that decodes on its own is decoded to the same packet. -/
theorem perform_of_recv {w : World σ} {fuel : Nat} {q : Query} {ip : String}
    {seed : Option Nat} {st st₁ st₂ : σ} {queryBytes datagram : Bytes}
    (hs : q.serialize (w.randomId seed st).1 = .ok queryBytes)
    (hsend : w.send (w.randomId seed st).2 queryBytes (ip ++ ":53") = some st₁)
    (hrecv : w.recvFrom st₁ = some (datagram, st₂)) (hlen : datagram.length ≤ 1024) :
    (q.perform w fuel ip seed st).1 =
        Packet.parse fuel (datagram ++ List.replicate (1024 - datagram.length) 0) ∧
      ∀ p, Packet.parse fuel datagram = .ok p → (q.perform w fuel ip seed st).1 = .ok p := by
  rw [Query.perform_eq hs hsend hrecv]
  exact ⟨by rw [recvBuffer_eq hlen], fun _ h => Packet.parse_recvBuffer hlen h⟩

/-- A transport that accepts every datagram and answers each with `reply`, and generators
    that always draw the first value. -/
def replying (reply : Bytes) : World Unit where
  send _ _ _ := some ()
  recvFrom _ := some (reply, ())
  randomId _ _ := (0, ())
  randomIndex _ _ := (⟨0, by decide⟩, ())

/-- The replying world answers every query with its reply. -/
theorem Query.perform_replying {reply : Bytes} {fuel : Nat} {q : Query} {ip : String}
    {seed : Option Nat} {queryBytes : Bytes} (hs : q.serialize 0 = .ok queryBytes) :
    q.perform (replying reply) fuel ip seed () = (Packet.parse fuel (recvBuffer reply), ()) :=
  Query.perform_eq hs rfl rfl

/-- A reply of at most 1024 bytes that decodes with some fuel is, with more fuel, the packet
    the replying world's exchange returns. -/
theorem Query.perform_replying_of_parse {reply : Bytes} {fuel k : Nat} {q : Query}
    {ip : String} {seed : Option Nat} {queryBytes : Bytes} {p : Packet}
    (hs : q.serialize 0 = .ok queryBytes) (hlen : reply.length ≤ 1024)
    (h : Packet.parse fuel reply = .ok p) :
    q.perform (replying reply) (fuel + k) ip seed () = (.ok p, ()) := by
  rw [Query.perform_replying hs, Packet.parse_recvBuffer hlen ((Packet.parse_refuels _ _ k).ok h)]

/-- The replying world's generator picks the first root server. -/
theorem RootServer.random_replying (reply : Bytes) (seed : Option Nat) :
    RootServer.random (replying reply) seed () = ("198.41.0.4", ()) := rfl

/-- The name `a`. -/
def nameA : Str := ⟨[0x61], by decide⟩

/-- A reply with one A record for the root name, its address cut after two bytes. -/
def truncatedReply : Bytes :=
  [0, 0, 0x81, 0x80, 0, 0, 0, 1, 0, 0, 0, 0,
   0, 0, 1, 0, 1, 0, 0, 0, 60, 0, 4, 10, 0]

theorem perform_of_recv_truncatedReply :
    Query.serialize ⟨nameA, .a⟩ ((replying truncatedReply).randomId none ()).1 =
        .ok [0, 0, 0, 0, 0, 1, 0, 0, 0, 0, 0, 0, 1, 0x61, 0, 0, 1, 0, 1] ∧
      (replying truncatedReply).send ((replying truncatedReply).randomId none ()).2
        [0, 0, 0, 0, 0, 1, 0, 0, 0, 0, 0, 0, 1, 0x61, 0, 0, 1, 0, 1] ("198.41.0.4" ++ ":53") =
        some () ∧
      (replying truncatedReply).recvFrom () = some (truncatedReply, ()) ∧
      truncatedReply.length ≤ 1024 ∧
      ((Query.perform (replying truncatedReply) 1 ⟨nameA, .a⟩ "198.41.0.4" none ()).1 =
          Packet.parse 1 (truncatedReply ++ List.replicate (1024 - truncatedReply.length) 0) ∧
        ∀ p, Packet.parse 1 truncatedReply = .ok p →
          (Query.perform (replying truncatedReply) 1 ⟨nameA, .a⟩ "198.41.0.4" none ()).1 = .ok p) :=
  have hs : Query.serialize ⟨nameA, .a⟩ ((replying truncatedReply).randomId none ()).1 =
      .ok [0, 0, 0, 0, 0, 1, 0, 0, 0, 0, 0, 0, 1, 0x61, 0, 0, 1, 0, 1] := by decide
  ⟨hs, rfl, rfl, by decide, perform_of_recv hs rfl rfl (by decide)⟩

/-- The truncated reply with its address completed by two zeros. -/
def completedPacket : Packet :=
  ⟨⟨0, 0x8180, 0, 1, 0, 0⟩, [], [⟨[], .a, 1, 60, [10, 0, 0, 0]⟩], [], []⟩

/-- The truncated reply fails to decode, but `perform` returns it as a packet whose A record
    has the address `10.0.0.0`. -/
theorem perform_completes_truncatedReply :
    (∀ fuel, Packet.parse (fuel + 1) truncatedReply = .error (.err .readRecordData)) ∧
      ∀ fuel, (Query.perform (replying truncatedReply) (fuel + 1) ⟨nameA, .a⟩ "198.41.0.4" none
        ()).1 = .ok completedPacket := by
  refine ⟨fun fuel => ?_, fun fuel => ?_⟩
  · have h : Packet.parse 1 truncatedReply = .error (.err .readRecordData) := by decide
    rw [Nat.add_comm]
    exact (Packet.parse_refuels truncatedReply 1 fuel).err h
  · have hs : Query.serialize ⟨nameA, .a⟩ 0 =
        .ok [0, 0, 0, 0, 0, 1, 0, 0, 0, 0, 0, 0, 1, 0x61, 0, 0, 1, 0, 1] := by decide
    have h : Packet.parse 1 (truncatedReply ++ [0, 0]) = .ok completedPacket := by decide
    have hpad : recvBuffer truncatedReply = (truncatedReply ++ [0, 0]) ++ List.replicate 997 0 := by
      rw [recvBuffer_eq (by decide), show 1024 - truncatedReply.length = 2 + 997 from rfl,
        List.replicate_add, List.append_assoc]
      rfl
    have h' := (Packet.parse_extends (List.replicate 997 0) (1 + fuel)).ok
      ((Packet.parse_refuels _ 1 fuel).ok h)
    rw [Query.perform_replying hs, hpad, Nat.add_comm, h']

/-! ## The top-level loop -/

/-- `q.Reaches w seed fuel ip st fuel' ip' st'`: the top-level loop for `q`, about to ask `ip`
    in state `st` with `fuel` left, goes on to ask `ip'` in state `st'` with `fuel'` left. Each
    pass in between decoded a reply with no A record among its answers and referred the loop
    to the next server. -/
inductive Query.Reaches (w : World σ) (q : Query) (seed : Option Nat) :
    Nat → String → σ → Nat → String → σ → Prop
  | refl {fuel : Nat} {ip : String} {st : σ} : q.Reaches w seed fuel ip st fuel ip st
  /-- an A record among the additionals: its address is the next server -/
  | glue {fuel fuel' : Nat} {ip ip' : String} {st st₁ st' : σ} {packet : Packet} {r : Record} :
      q.perform w (fuel + 1) ip seed st = (.ok packet, st₁) →
      getFirstARecord packet.answers = none →
      getFirstARecord packet.additionals = some r →
      q.Reaches w seed fuel r.ipAddress st₁ fuel' ip' st' →
      q.Reaches w seed (fuel + 1) ip st fuel' ip' st'
  /-- an NS record among the authorities: the address a nested A resolution of its name, from
      a random root server, finds is the next server -/
  | delegation {fuel fuel' : Nat} {ip ip' rootIp : String} {st st₁ st₂ st₃ st' : σ}
      {packet resolved : Packet} {nsRecord a : Record} {nameBytes : Bytes} {e : Nat}
      {name : Str} :
      q.perform w (fuel + 1) ip seed st = (.ok packet, st₁) →
      getFirstARecord packet.answers = none →
      getFirstARecord packet.additionals = none →
      getFirstNsRecord packet.authorities = some nsRecord →
      RecordName.readAndAdvance (fuel + 1) nsRecord.data 0 = .ok (nameBytes, e) →
      Str.fromUtf8 nameBytes = some name →
      RootServer.random w seed st₁ = (rootIp, st₂) →
      Query.resolveLoop w fuel ⟨name, .a⟩ seed rootIp st₂ = (.ok resolved, st₃) →
      getFirstARecord resolved.answers = some a →
      q.Reaches w seed fuel a.ipAddress st₃ fuel' ip' st' →
      q.Reaches w seed (fuel + 1) ip st fuel' ip' st'

section Loop

variable {w : World σ} {q : Query} {seed : Option Nat}

/-- **THE LOOP'S RESULT IS THAT OF EVERY PASS IT REACHES.** -/
theorem Query.resolveLoop_eq_of_reaches {fuel fuel' : Nat} {ip ip' : String} {st st' : σ}
    (h : q.Reaches w seed fuel ip st fuel' ip' st') :
    q.resolveLoop w fuel seed ip st = q.resolveLoop w fuel' seed ip' st' := by
  induction h with
  | refl => rfl
  | glue hp ha hg _ ih => rw [← ih]; simp [Query.resolveLoop, hp, ha, hg]
  | delegation hp ha hg hns hname hstr hroot hres hA _ ih =>
    rw [← ih]; simp [Query.resolveLoop, hp, ha, hg, hns, hname, hstr, hroot, hres, hA]

/-- A pass whose reply has an A answer ends the loop with the reply. -/
theorem Query.resolveLoop_of_answer {fuel : Nat} {ip : String} {st st₁ : σ} {packet : Packet}
    (hp : q.perform w (fuel + 1) ip seed st = (.ok packet, st₁))
    (ha : (getFirstARecord packet.answers).isSome) :
    q.resolveLoop w (fuel + 1) seed ip st = (.ok packet, st₁) := by
  simp [Query.resolveLoop, hp, ha]

/-- A pass whose reply has no A record and no NS record fails with `UnknownDomainName`. -/
theorem Query.resolveLoop_of_no_referral {fuel : Nat} {ip : String} {st st₁ : σ}
    {packet : Packet} (hp : q.perform w (fuel + 1) ip seed st = (.ok packet, st₁))
    (ha : getFirstARecord packet.answers = none) (hg : getFirstARecord packet.additionals = none)
    (hns : getFirstNsRecord packet.authorities = none) :
    q.resolveLoop w (fuel + 1) seed ip st = (.error (.err .unknownDomainName), st₁) := by
  simp [Query.resolveLoop, hp, ha, hg, hns]

/-- A delegation whose name server's name does not decode fails with the decoder's error. -/
theorem Query.resolveLoop_of_name_error {fuel : Nat} {ip : String} {st st₁ : σ}
    {packet : Packet} {nsRecord : Record} {e : Fault}
    (hp : q.perform w (fuel + 1) ip seed st = (.ok packet, st₁))
    (ha : getFirstARecord packet.answers = none) (hg : getFirstARecord packet.additionals = none)
    (hns : getFirstNsRecord packet.authorities = some nsRecord)
    (hname : RecordName.readAndAdvance (fuel + 1) nsRecord.data 0 = .error e) :
    q.resolveLoop w (fuel + 1) seed ip st = (.error e, st₁) := by
  simp [Query.resolveLoop, hp, ha, hg, hns, hname]

/-- A pass whose reply has no A answer and an A record among its additionals asks that
    record's address next. -/
theorem Query.resolveLoop_of_glue {fuel : Nat} {ip : String} {st st₁ : σ} {packet : Packet}
    {r : Record} (hp : q.perform w (fuel + 1) ip seed st = (.ok packet, st₁))
    (ha : getFirstARecord packet.answers = none)
    (hg : getFirstARecord packet.additionals = some r) :
    q.resolveLoop w (fuel + 1) seed ip st = q.resolveLoop w fuel seed r.ipAddress st₁ :=
  Query.resolveLoop_eq_of_reaches (.glue hp ha hg .refl)

/-- A successful loop ended at a pass it reached whose reply has an A answer. -/
theorem Query.reaches_of_resolveLoop_ok {p : Packet} {st'' : σ} :
    ∀ {fuel : Nat} {ip : String} {st : σ}, q.resolveLoop w fuel seed ip st = (.ok p, st'') →
      ∃ fuel' ip' st', q.Reaches w seed fuel ip st (fuel' + 1) ip' st' ∧
        q.perform w (fuel' + 1) ip' seed st' = (.ok p, st'') ∧
        (getFirstARecord p.answers).isSome
  | 0, _, _, h => by simp [Query.resolveLoop] at h
  | fuel + 1, ip, st, h => by
    rw [Query.resolveLoop] at h
    rcases hp : q.perform w (fuel + 1) ip seed st with ⟨_ | packet, st₁⟩ <;> simp only [hp] at h
    · cases h
    by_cases ha : (getFirstARecord packet.answers).isSome
    · rw [if_pos ha] at h
      cases h
      exact ⟨fuel, ip, st, .refl, hp, ha⟩
    rw [if_neg ha] at h
    have ha' : getFirstARecord packet.answers = none := Option.not_isSome_iff_eq_none.mp ha
    rcases hg : getFirstARecord packet.additionals with _ | r <;> simp only [hg] at h
    · -- no glue: the first NS record names the next server
      rcases hns : getFirstNsRecord packet.authorities with _ | nsRecord <;> simp only [hns] at h
      · cases h
      rcases hname : RecordName.readAndAdvance (fuel + 1) nsRecord.data 0 with
        _ | ⟨nameBytes, e⟩ <;> simp only [hname] at h
      · cases h
      rcases hstr : Str.fromUtf8 nameBytes with _ | name <;> simp only [hstr] at h
      · cases h
      rcases hroot : RootServer.random w seed st₁ with ⟨rootIp, st₂⟩
      rcases hres : Query.resolveLoop w fuel ⟨name, .a⟩ seed rootIp st₂ with
        ⟨_ | resolved, st₃⟩ <;> simp only [hroot, hres] at h
      · cases h
      rcases hA : getFirstARecord resolved.answers with _ | a <;> simp only [hA] at h
      · cases h
      obtain ⟨fuel', ip', st', hr, hp', hA'⟩ := Query.reaches_of_resolveLoop_ok h
      exact ⟨fuel', ip', st', .delegation hp ha' hg hns hname hstr hroot hres hA hr, hp', hA'⟩
    · -- glue: an A record among the additionals is the next server
      obtain ⟨fuel', ip', st', hr, hp', hA'⟩ := Query.reaches_of_resolveLoop_ok h
      exact ⟨fuel', ip', st', .glue hp ha' hg hr, hp', hA'⟩

/-- `resolve` starts the loop at a random root server. -/
theorem Query.resolve_eq (fuel : Nat) (st : σ) :
    q.resolve w fuel seed st = q.resolveLoop w fuel seed
      (RootServer.random w seed st).1 (RootServer.random w seed st).2 := rfl

/-- Every packet a resolution returns was decoded from some buffer. -/
theorem Query.resolve_eq_ok {fuel : Nat} {st st' : σ} {p : Packet}
    (h : q.resolve w fuel seed st = (.ok p, st')) :
    ∃ fuel' buf, Packet.parse fuel' buf = .ok p := by
  rw [Query.resolve_eq] at h
  obtain ⟨fuel', _, _, -, hp, -⟩ := Query.reaches_of_resolveLoop_ok h
  exact ⟨_, Query.perform_eq_ok hp⟩

/-- **WHEN THE RESOLVER SUCCEEDS**: `resolve` returns `Ok(p)` exactly when `p` is the decoded
    reply to a query for `q` itself, sent by a pass its top-level loop reaches from a random
    root server, and has an A record among its answers: the record type `q` asked for plays
    no part. -/
theorem resolve_ok_iff {fuel : Nat} {st st'' : σ} {p : Packet} :
    q.resolve w fuel seed st = (.ok p, st'') ↔
      ∃ fuel' ip' st', q.Reaches w seed fuel (RootServer.random w seed st).1
          (RootServer.random w seed st).2 (fuel' + 1) ip' st' ∧
        q.perform w (fuel' + 1) ip' seed st' = (.ok p, st'') ∧
        (getFirstARecord p.answers).isSome := by
  rw [Query.resolve_eq]
  exact ⟨Query.reaches_of_resolveLoop_ok, fun ⟨_, _, _, hr, hp, hA⟩ =>
    (Query.resolveLoop_eq_of_reaches hr).trans (Query.resolveLoop_of_answer hp hA)⟩

end Loop

/-! ## Replies that show what the loop checks -/

/-- A reply to `a` AAAA whose one answer is an A record. -/
def aOnlyReply : Bytes :=
  [0, 0, 0x81, 0x80, 0, 1, 0, 1, 0, 0, 0, 0,
   1, 0x61, 0, 0, 28, 0, 1,
   0xC0, 12, 0, 1, 0, 1, 0, 0, 0, 60, 0, 4, 10, 0, 0, 1]

/-- What `aOnlyReply` decodes to. -/
def aOnlyPacket : Packet :=
  ⟨⟨0, 0x8180, 1, 1, 0, 0⟩, [⟨[0x61], .aaaa, 1⟩], [⟨[0x61], .a, 1, 60, [10, 0, 0, 1]⟩], [], []⟩

/-- A reply to `a` AAAA whose one answer is an AAAA record. -/
def aaaaOnlyReply : Bytes :=
  [0, 0, 0x81, 0x80, 0, 1, 0, 1, 0, 0, 0, 0,
   1, 0x61, 0, 0, 28, 0, 1,
   0xC0, 12, 0, 28, 0, 1, 0, 0, 0, 60, 0, 16,
   0x20, 1, 0x0D, 0xB8, 0, 0, 0, 0, 0, 0, 0, 0, 0, 0, 0, 1]

/-- What `aaaaOnlyReply` decodes to. -/
def aaaaOnlyPacket : Packet :=
  ⟨⟨0, 0x8180, 1, 1, 0, 0⟩, [⟨[0x61], .aaaa, 1⟩],
   [⟨[0x61], .aaaa, 1, 60, [0x20, 1, 0x0D, 0xB8, 0, 0, 0, 0, 0, 0, 0, 0, 0, 0, 0, 1]⟩], [], []⟩

/-- An AAAA query ends with a reply that has only an A answer, and fails on a reply that has
    the AAAA answer it asked for. -/
theorem resolve_aaaa_checks_a_answers :
    (∀ fuel, (Query.resolve (replying aOnlyReply) (fuel + 3) ⟨nameA, .aaaa⟩ none ()).1 =
        .ok aOnlyPacket) ∧
      aOnlyPacket.answers.all (·.rType != .aaaa) ∧
      (∀ fuel, Query.perform (replying aaaaOnlyReply) (fuel + 3) ⟨nameA, .aaaa⟩ "198.41.0.4"
        none () = (.ok aaaaOnlyPacket, ())) ∧
      aaaaOnlyPacket.answers.any (·.rType == .aaaa) ∧
      ∀ fuel, (Query.resolve (replying aaaaOnlyReply) (fuel + 3) ⟨nameA, .aaaa⟩ none ()).1 =
        .error (.err .unknownDomainName) := by
  have hs : Query.serialize ⟨nameA, .aaaa⟩ 0 =
      .ok [0, 0, 0, 0, 0, 1, 0, 0, 0, 0, 0, 0, 1, 0x61, 0, 0, 28, 0, 1] := by decide
  have hA : ∀ fuel ip, Query.perform (replying aOnlyReply) (fuel + 3) ⟨nameA, .aaaa⟩ ip none () =
      (.ok aOnlyPacket, ()) := fun fuel _ => by
    rw [Nat.add_comm]; exact Query.perform_replying_of_parse hs (by decide) (by decide)
  have hAAAA : ∀ fuel ip, Query.perform (replying aaaaOnlyReply) (fuel + 3) ⟨nameA, .aaaa⟩ ip
      none () = (.ok aaaaOnlyPacket, ()) := fun fuel _ => by
    rw [Nat.add_comm]; exact Query.perform_replying_of_parse hs (by decide) (by decide)
  refine ⟨fun fuel => ?_, by decide, fun fuel => hAAAA fuel _, by decide, fun fuel => ?_⟩
  · rw [Query.resolve_eq, RootServer.random_replying,
      Query.resolveLoop_of_answer (hA fuel _) (by decide)]
  · rw [Query.resolve_eq, RootServer.random_replying,
      Query.resolveLoop_of_no_referral (hAAAA fuel _) rfl rfl rfl]

/-! ## The name of a delegation -/

/-- A reply to `a` A that delegates to the name server `ns.a`. Its NS record's data, at
    offset 31, is the label `ns` and a compression pointer to the question's name `a` at
    offset 12. -/
def delegationReply : Bytes :=
  [0, 0, 0x81, 0x80, 0, 1, 0, 0, 0, 1, 0, 0,
   1, 0x61, 0, 0, 1, 0, 1,
   0xC0, 12, 0, 2, 0, 1, 0, 0, 0, 60, 0, 5, 2, 0x6E, 0x73, 0xC0, 12]

/-- What `delegationReply` decodes to. -/
def delegationPacket : Packet :=
  ⟨⟨0, 0x8180, 1, 0, 1, 0⟩, [⟨[0x61], .a, 1⟩], [],
   [⟨[0x61], .ns, 1, 60, [2, 0x6E, 0x73, 0xC0, 12]⟩], []⟩

/-- The resolver decodes the delegated name from the NS record's data alone: the pointer to
    offset 12 reads past the data's five bytes and the resolution fails with `ReadLength`,
    where the name at the data's own offset in the reply expands to `ns.a`. -/
theorem resolve_decodes_ns_data_alone :
    (getFirstNsRecord delegationPacket.authorities).map Record.data =
        some (delegationReply.drop 31) ∧
      RecordName.Expands delegationReply 31 [⟨[0x6E, 0x73], by decide⟩, nameA] 36 ∧
      RecordName.readAndAdvance 4 delegationReply 31 = .ok ([0x6E, 0x73, 0x2E, 0x61], 36) ∧
      (∀ fuel, Query.perform (replying delegationReply) (fuel + 3) ⟨nameA, .a⟩ "198.41.0.4"
        none () = (.ok delegationPacket, ())) ∧
      ∀ fuel, (Query.resolve (replying delegationReply) (fuel + 3) ⟨nameA, .a⟩ none ()).1 =
        .error (.err .readLength) := by
  have hs : Query.serialize ⟨nameA, .a⟩ 0 =
      .ok [0, 0, 0, 0, 0, 1, 0, 0, 0, 0, 0, 0, 1, 0x61, 0, 0, 1, 0, 1] := by decide
  have hp : ∀ fuel ip, Query.perform (replying delegationReply) (fuel + 3) ⟨nameA, .a⟩ ip
      none () = (.ok delegationPacket, ()) := fun fuel _ => by
    rw [Nat.add_comm]; exact Query.perform_replying_of_parse hs (by decide) (by decide)
  have hname : ∀ fuel, RecordName.readAndAdvance (fuel + 3) [2, 0x6E, 0x73, 0xC0, 12] 0 =
      .error (.err .readLength) := fun fuel => by
    have h : RecordName.readAndAdvance 3 [2, 0x6E, 0x73, 0xC0, 12] 0 =
        .error (.err .readLength) := by decide
    rw [Nat.add_comm]
    exact (RecordName.readAndAdvanceLoop_refuels _ 3 fuel 0 []).err h
  refine ⟨by decide, ?_, by decide, fun fuel => hp fuel _, fun fuel => ?_⟩
  · refine .label (c := 2) (l := [0x6E, 0x73]) rfl (by decide) (by decide) rfl (by decide) ?_
    refine .pointer (c := 0xC0) (d := 12) (e := 15) rfl (by decide) rfl ?_
    exact .label (c := 1) (l := [0x61]) rfl (by decide) (by decide) rfl (by decide) (.root rfl)
  · rw [Query.resolve_eq, RootServer.random_replying,
      Query.resolveLoop_of_name_error (hp fuel _) rfl rfl rfl (hname fuel)]

/-! ## A referral loop -/

/-- A reply with no answer and, among its additionals, an A record for the root name with
    address `10.0.0.1`. -/
def referralReply : Bytes :=
  [0, 0, 0x81, 0x80, 0, 0, 0, 0, 0, 0, 0, 1,
   0, 0, 1, 0, 1, 0, 0, 0, 60, 0, 4, 10, 0, 0, 1]

/-- What `referralReply` decodes to. -/
def referralPacket : Packet :=
  ⟨⟨0, 0x8180, 0, 0, 0, 1⟩, [], [], [], [⟨[], .a, 1, 60, [10, 0, 0, 1]⟩]⟩

/-- More fuel changes an exchange only where its decode ran out of it, and never the world it
    leaves. -/
theorem Query.perform_refuels (w : World σ) (fuel k : Nat) (q : Query) (ip : String)
    (seed : Option Nat) (st : σ) :
    Refuels (q.perform w fuel ip seed st).1 (q.perform w (fuel + k) ip seed st).1 ∧
      (q.perform w (fuel + k) ip seed st).2 = (q.perform w fuel ip seed st).2 := by
  simp only [Query.perform]
  rcases q.serialize (w.randomId seed st).1 with _ | bytes
  · exact ⟨AgreesUnless.refl _, rfl⟩
  dsimp only
  rcases w.send (w.randomId seed st).2 bytes (ip ++ ":53") with _ | st₁
  · exact ⟨AgreesUnless.refl _, rfl⟩
  dsimp only
  rcases w.recvFrom st₁ with _ | ⟨datagram, st₂⟩
  · exact ⟨AgreesUnless.refl _, rfl⟩
  · exact ⟨Packet.parse_refuels _ _ _, rfl⟩

/-- A result that did not run out of fuel is the result with more fuel. -/
theorem Refuels.eq {α : Type} {r r' : Except Fault α} (h : Refuels r r')
    (hr : r ≠ .error .outOfFuel) : r' = r :=
  h fun _ hf => hf ▸ hr

/-- A pass of the loop that does not run out of fuel goes the same way with more: the same
    exchange, the same branch, and nested resolutions that return the same. -/
theorem Query.resolveLoop_refuels (w : World σ) (k : Nat) :
    ∀ (fuel : Nat) (q : Query) (seed : Option Nat) (ip : String) (st : σ),
      (q.resolveLoop w fuel seed ip st).1 ≠ .error .outOfFuel →
      q.resolveLoop w (fuel + k) seed ip st = q.resolveLoop w fuel seed ip st
  | 0, _, _, _, _, h => absurd rfl h
  | fuel + 1, q, seed, ip, st, h => by
    have ih := Query.resolveLoop_refuels w k fuel
    obtain ⟨hr, hs⟩ := Query.perform_refuels w (fuel + 1) k q ip seed st
    rw [Nat.add_right_comm] at hr hs ⊢
    revert h
    rw [Query.resolveLoop, Query.resolveLoop]
    rcases hp : q.perform w (fuel + 1) ip seed st with ⟨_ | packet, st₁⟩ <;> rw [hp] at hr hs
    · intro h
      rw [Prod.ext (hr.eq h) hs]
    rw [Prod.ext (hr.ok rfl) hs]
    dsimp only
    split
    · exact fun _ => rfl
    split
    · exact ih _ _ _ _
    split
    · exact fun _ => rfl
    -- the name server's name, decoded with the pass's fuel
    rename_i nsRecord _
    have hn : Refuels (RecordName.readAndAdvance (fuel + 1) nsRecord.data 0)
        (RecordName.readAndAdvance (fuel + k + 1) nsRecord.data 0) := by
      rw [Nat.add_right_comm]; exact RecordName.readAndAdvanceLoop_refuels _ _ _ _ _
    rcases hd : RecordName.readAndAdvance (fuel + 1) nsRecord.data 0 with e | ⟨bytes, _⟩
    · intro h
      rw [hn.eq (by rw [hd]; rintro ⟨⟩; exact h rfl), hd]
    rw [hn.ok hd]
    dsimp only
    split
    · exact fun _ => rfl
    -- the nested resolution of the name server's address
    rcases RootServer.random w seed st₁ with ⟨rootIp, st₂⟩
    dsimp only
    rcases hres : Query.resolveLoop w fuel ⟨_, .a⟩ seed rootIp st₂ with ⟨_ | resolved, st₃⟩
    · intro h
      rw [ih _ _ _ _ (by rw [hres]; exact h), hres]
    rw [ih _ _ _ _ (by simp [hres]), hres]
    dsimp only
    split
    · exact fun _ => rfl
    · exact ih _ _ _ _

/-- The fuel is not a behaviour of the resolver: for every transport, query, seed and
    state, a resolution that does not run out of fuel returns the same, and leaves the world
    the same, with any more fuel. So any two fuels with which it returns give one outcome. -/
theorem resolve_add_fuel {w : World σ} {fuel : Nat} {q : Query} {seed : Option Nat} {st : σ}
    (h : (q.resolve w fuel seed st).1 ≠ .error .outOfFuel) (k : Nat) :
    q.resolve w (fuel + k) seed st = q.resolve w fuel seed st :=
  Query.resolveLoop_refuels w k fuel q seed _ _ h

end ToyDns
