import ToyDns.Transport

/-! # The mock transport — `MockSocket` of `socket.rs`

    `MockSocket` is the `Socket` the tests resolve over. `register_response_data` fills a map
    from a datagram and the address it is sent to, to a response; `send` looks the datagram up
    and keeps the response for the next `recv_from`, or fails with `SocketSend` and leaves the
    socket as it was; `recv_from` copies the kept response into the receive buffer, or fails
    with `SocketRead` when no `send` has succeeded. `copy_from_slice` panics unless the
    response is exactly as long as the buffer: 1024 bytes in `perform`.

    **`MockSocket.world`** is the resolver's `World` over a mock socket and any generators. No
    exchange changes the registered responses, so they stay the same over a whole resolution
    (`Query.resolveLoop_mock_responseData`), and a reply can only be one of them:
    **`resolve_mock_returns_registered`** — a resolution that returns `Ok(p)` decoded `p`
    from the response registered for a serialization of the query asked, sent to port 53 of
    some server. -/

namespace ToyDns

/-- `MockKey`: the bytes of a query and the address they are sent to. -/
structure MockKey where
  queryBytes : Bytes
  serverIp : String
  deriving DecidableEq

/-- `MockSocket`: the registered responses, newest first, and the response the next
    `recv_from` serves. A lookup finds the newest entry of a key, as the `HashMap` keeps the
    value inserted last. -/
structure MockSocket where
  responseData : List (MockKey × Bytes)
  nextResponse : Option Bytes

namespace MockSocket

/-- `MockSocket::default`, which `bind` returns whatever the address. -/
def default : MockSocket := ⟨[], none⟩

/-- `register_response_data`: a new map, filled with the pairs in order. -/
def registerResponseData (s : MockSocket) (data : List (MockKey × Bytes)) : MockSocket :=
  { s with responseData := data.foldl (fun responseData kv => kv :: responseData) [] }

/-- `Socket::send`: the response registered for the datagram and its address becomes the next
    response, or the send fails with `SocketSend`. -/
def send (s : MockSocket) (buf : Bytes) (addr : String) : Except DnsError (Nat × MockSocket) :=
  match s.responseData.lookup ⟨buf, addr⟩ with
  | none => .error .socketSend
  | some response => .ok (buf.length, { s with nextResponse := some response })

/-- What `recv_from` does with a buffer. -/
inductive Received where
  /-- `Ok`: the buffer now holds the bytes -/
  | filled (data : Bytes)
  /-- `Err(e)` -/
  | failed (e : DnsError)
  /-- `copy_from_slice` of a response of another length than the buffer -/
  | panicked

/-- `Socket::recv_from` into a buffer of `bufLen` bytes. The socket does not change: the next
    response is served again by the next call. -/
def recvFrom (s : MockSocket) (bufLen : Nat) : Received :=
  match s.nextResponse with
  | none => .failed .socketRead
  | some response => if response.length = bufLen then .filled response else .panicked

/-- The resolver's transport over a mock socket, with generators over states `ρ`. A panic of
    `copy_from_slice` aborts the process; the world then delivers no datagram, which ends the
    resolution in an `Err`, so nothing said below of a resolution that returns `Ok` depends on
    it. -/
def world {ρ : Type} (randomId : Option Nat → ρ → UInt16 × ρ)
    (randomIndex : Option Nat → ρ → Fin rootServersAndIps.length × ρ) :
    World (MockSocket × ρ) where
  send st buf addr :=
    match st.1.send buf addr with
    | .ok (_, s) => some (s, st.2)
    | .error _ => none
  recvFrom st :=
    match st.1.recvFrom 1024 with
    | .filled data => some (data, st)
    | _ => none
  randomId seed st := ((randomId seed st.2).1, (st.1, (randomId seed st.2).2))
  randomIndex seed st := ((randomIndex seed st.2).1, (st.1, (randomIndex seed st.2).2))

section World

variable {ρ : Type} {randomId : Option Nat → ρ → UInt16 × ρ}
  {randomIndex : Option Nat → ρ → Fin rootServersAndIps.length × ρ}

/-- A send that succeeds keeps the response registered for the datagram and its address. -/
theorem world_send_eq_some {st st' : MockSocket × ρ} {buf : Bytes} {addr : String}
    (h : (world randomId randomIndex).send st buf addr = some st') :
    ∃ response, st.1.responseData.lookup ⟨buf, addr⟩ = some response ∧
      st' = ({ st.1 with nextResponse := some response }, st.2) := by
  cases hl : st.1.responseData.lookup ⟨buf, addr⟩ with
  | none => simp [world, send, hl] at h
  | some response =>
    simp only [world, send, hl, Option.some.injEq] at h
    exact ⟨response, rfl, h.symm⟩

/-- A receive that succeeds delivers the kept response, exactly 1024 bytes long. -/
theorem world_recvFrom_eq_some {st st' : MockSocket × ρ} {data : Bytes}
    (h : (world randomId randomIndex).recvFrom st = some (data, st')) :
    st.1.nextResponse = some data ∧ data.length = 1024 ∧ st' = st := by
  cases hn : st.1.nextResponse with
  | none => simp [world, recvFrom, hn] at h
  | some response =>
    by_cases hl : response.length = 1024 <;> simp [world, recvFrom, hn, hl] at h
    obtain ⟨rfl, rfl⟩ := h
    exact ⟨rfl, hl, rfl⟩

end World

end MockSocket

section Resolution

variable {ρ : Type} {randomId : Option Nat → ρ → UInt16 × ρ}
  {randomIndex : Option Nat → ρ → Fin rootServersAndIps.length × ρ}

/-- An exchange over the mock keeps the registered responses. -/
theorem Query.perform_mock_responseData {fuel : Nat} {q : Query} {ip : String}
    {seed : Option Nat} {st : MockSocket × ρ} {r : Except Fault Packet × (MockSocket × ρ)}
    (h : q.perform (MockSocket.world randomId randomIndex) fuel ip seed st = r) :
    r.2.1.responseData = st.1.responseData := by
  subst h
  simp only [Query.perform]
  split
  · rfl
  split
  · rfl
  rename_i hsend
  obtain ⟨_, -, rfl⟩ := MockSocket.world_send_eq_some hsend
  split
  · rfl
  · rename_i hrecv
    rw [(MockSocket.world_recvFrom_eq_some hrecv).2.2]
    rfl

/-- An exchange over the mock that returns a packet decoded it from the response registered
    for the serialized query and the server's port 53. -/
theorem Query.perform_mock_eq_ok {fuel : Nat} {q : Query} {ip : String} {seed : Option Nat}
    {st st' : MockSocket × ρ} {p : Packet}
    (h : q.perform (MockSocket.world randomId randomIndex) fuel ip seed st = (.ok p, st')) :
    ∃ i bytes response, q.serialize i = .ok bytes ∧
      st.1.responseData.lookup ⟨bytes, ip ++ ":53"⟩ = some response ∧
      Packet.parse fuel response = .ok p := by
  simp only [Query.perform] at h
  split at h
  · cases h
  rename_i bytes hser
  split at h
  · cases h
  rename_i hsend
  obtain ⟨response, hlookup, rfl⟩ := MockSocket.world_send_eq_some hsend
  split at h
  · cases h
  rename_i data _ hrecv
  obtain ⟨hnext, hlen, -⟩ := MockSocket.world_recvFrom_eq_some hrecv
  obtain rfl : response = data := Option.some.inj hnext
  have hp : Packet.parse fuel (recvBuffer response) = .ok p := congrArg Prod.fst h
  rw [recvBuffer_eq (by omega), hlen, Nat.sub_self, List.replicate_zero, List.append_nil] at hp
  exact ⟨_, bytes, response, hser, hlookup, hp⟩

/-- A whole resolution over the mock keeps the registered responses, nested resolutions
    included. -/
theorem Query.resolveLoop_mock_responseData {fuel : Nat} {q : Query} {seed : Option Nat}
    {ip : String} {st : MockSocket × ρ} {r : Except Fault Packet × (MockSocket × ρ)}
    (h : q.resolveLoop (MockSocket.world randomId randomIndex) fuel seed ip st = r) :
    r.2.1.responseData = st.1.responseData :=
  h ▸ Query.resolveLoop_state (MockSocket.world randomId randomIndex)
    (R := fun s s' => s'.1.responseData = s.1.responseData) (Q := fun _ _ => True)
    (A := fun _ _ => True) seed (fun _ => rfl) (fun h₁ h₂ => h₂.trans h₁) (fun _ _ => trivial)
    (fun _ _ _ _ _ _ => Query.perform_mock_responseData rfl)
    (fun _ => ⟨fun _ => trivial, fun _ _ => trivial⟩) (fun _ => ⟨rfl, trivial⟩) fuel q ip st
    trivial trivial

/-- Every pass the loop reaches over the mock sees the registered responses it started with. -/
theorem Query.Reaches.mock_responseData {q : Query} {seed : Option Nat} {fuel fuel' : Nat}
    {ip ip' : String} {st st' : MockSocket × ρ}
    (h : q.Reaches (MockSocket.world randomId randomIndex) seed fuel ip st fuel' ip' st') :
    st'.1.responseData = st.1.responseData := by
  induction h with
  | refl => rfl
  | glue hp _ _ _ ih => exact ih.trans (Query.perform_mock_responseData hp)
  | @delegation fuel _ ip _ _ st st₁ st₂ st₃ _ _ _ _ _ _ _ _ hp _ _ _ _ _ hroot hres _ _ ih =>
    have hst := Query.perform_mock_responseData hp
    have hst₂ : st₂.1 = st₁.1 := by rw [← congrArg (·.2.1) hroot]; rfl
    rw [ih, Query.resolveLoop_mock_responseData hres, hst₂, hst]

/-- **OVER THE MOCK, A RESOLUTION RETURNS ONLY WHAT A REGISTERED RESPONSE DECODES TO**: for
    every registration and every pair of generators, a resolution that returns `Ok(p)` decoded
    `p` from the response registered for a serialization of the query asked, sent to port 53
    of some server, nested resolutions and referrals notwithstanding. -/
theorem resolve_mock_returns_registered {fuel : Nat} {q : Query} {seed : Option Nat}
    {st st' : MockSocket × ρ} {p : Packet}
    (h : q.resolve (MockSocket.world randomId randomIndex) fuel seed st = (.ok p, st')) :
    ∃ i bytes ip response fuel', q.serialize i = .ok bytes ∧
      st.1.responseData.lookup ⟨bytes, ip ++ ":53"⟩ = some response ∧
      Packet.parse fuel' response = .ok p := by
  rw [Query.resolve_eq] at h
  obtain ⟨_, ip, _, hr, hp, -⟩ := Query.reaches_of_resolveLoop_ok h
  obtain ⟨i, bytes, response, hs, hlookup, hparse⟩ := Query.perform_mock_eq_ok hp
  rw [hr.mock_responseData] at hlookup
  exact ⟨i, bytes, ip, response, _, hs, hlookup, hparse⟩

end Resolution

/-! ## A test's mock -/

/-- A reply to `a` A whose answer is `10.0.0.1`. -/
def mockReply : Bytes :=
  [0, 0, 0x81, 0x80, 0, 1, 0, 1, 0, 0, 0, 0,
   1, 0x61, 0, 0, 1, 0, 1,
   1, 0x61, 0, 0, 1, 0, 1, 0, 0, 0, 60, 0, 4, 10, 0, 0, 1]

/-- What `mockReply` decodes to. -/
def mockPacket : Packet :=
  ⟨⟨0, 0x8180, 1, 1, 0, 0⟩, [⟨[0x61], .a, 1⟩], [⟨[0x61], .a, 1, 60, [10, 0, 0, 1]⟩], [], []⟩

/-- The reply as a test registers it: the size of the receive buffer. -/
def mockResponse : Bytes := mockReply ++ List.replicate 988 0

theorem mockResponse_length : mockResponse.length = 1024 := by
  rw [mockResponse, List.length_append, List.length_replicate]
  rfl

/-- The A query for `a` with id 0. -/
def queryBytesA : Bytes := [0, 0, 0, 0, 0, 1, 0, 0, 0, 0, 0, 0, 1, 0x61, 0, 0, 1, 0, 1]

/-- A mock socket registered with one response: to `queryBytesA` sent to port 53 of the first
    root server. -/
def mockForA : MockSocket :=
  MockSocket.default.registerResponseData [(⟨queryBytesA, "198.41.0.4" ++ ":53"⟩, mockResponse)]

/-- The mock transport with generators that always draw the first value. -/
def mockWorld : World (MockSocket × Unit) :=
  MockSocket.world (fun _ _ => (0, ())) (fun _ _ => (⟨0, by decide⟩, ()))

theorem mockWorld_send :
    mockWorld.send (mockForA, ()) queryBytesA ("198.41.0.4" ++ ":53") =
      some ({ mockForA with nextResponse := some mockResponse }, ()) := by
  simp [mockWorld, MockSocket.world, MockSocket.send, mockForA, MockSocket.registerResponseData,
    MockSocket.default]

theorem mockWorld_recvFrom :
    mockWorld.recvFrom ({ mockForA with nextResponse := some mockResponse }, ()) =
      some (mockResponse, ({ mockForA with nextResponse := some mockResponse }, ())) := by
  simp only [mockWorld, MockSocket.world, MockSocket.recvFrom, mockResponse_length, if_true]

theorem resolve_mock_returns_registered_mockForA :
    Query.resolve mockWorld 2 ⟨nameA, .a⟩ none (mockForA, ()) =
        (.ok mockPacket, ({ mockForA with nextResponse := some mockResponse }, ())) ∧
      ∃ i bytes ip response fuel', Query.serialize ⟨nameA, .a⟩ i = .ok bytes ∧
        mockForA.responseData.lookup ⟨bytes, ip ++ ":53"⟩ = some response ∧
        Packet.parse fuel' response = .ok mockPacket :=
  have hs : Query.serialize ⟨nameA, .a⟩ 0 = .ok queryBytesA := by decide
  have hparse : Packet.parse 2 (recvBuffer mockResponse) = .ok mockPacket := by
    rw [recvBuffer_eq (by rw [mockResponse_length]), mockResponse_length, Nat.sub_self,
      List.replicate_zero, List.append_nil]
    exact (Packet.parse_extends _ 2).ok (by decide)
  have hp : Query.perform mockWorld 2 ⟨nameA, .a⟩ "198.41.0.4" none (mockForA, ()) =
      (.ok mockPacket, ({ mockForA with nextResponse := some mockResponse }, ())) := by
    rw [@Query.perform_eq _ mockWorld 2 ⟨nameA, .a⟩ "198.41.0.4" none (mockForA, ()) _ _ _ _ hs
      mockWorld_send mockWorld_recvFrom, hparse]
  have hr : RootServer.random mockWorld none (mockForA, ()) = ("198.41.0.4", (mockForA, ())) :=
    rfl
  have h : Query.resolve mockWorld 2 ⟨nameA, .a⟩ none (mockForA, ()) =
      (.ok mockPacket, ({ mockForA with nextResponse := some mockResponse }, ())) := by
    rw [Query.resolve_eq, hr]
    exact Query.resolveLoop_of_answer (w := mockWorld) hp rfl
  ⟨h, resolve_mock_returns_registered h⟩

end ToyDns
