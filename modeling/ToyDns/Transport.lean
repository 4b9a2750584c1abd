import ToyDns.Address

/-! # The resolver on the wire — every transport, every run

    The resolver only sees its transport through the operations of a `World`, so two
    transports that agree on them resolve alike: `Query.resolveLoop_simulates` carries a run
    over one transport to a run over another that `π` maps it to (`World.Simulates`).

    `Query.resolveLoop_state` packages the loop's case analysis once: a relation on the states
    of the world that every exchange and every pick of a root server establish holds across a
    whole resolution, nested resolutions included, for queries and servers the loop may ask
    in the state it asks them.

    `World.tracing` keeps the trace of the datagrams its transport accepted and delivered. It
    changes nothing the resolver sees, and over it `resolve_sends_only_known` says what the
    resolver puts on the wire: each datagram is a serialized query for the name asked, or an
    A query for the name an NS record of a reply received before delegated to, sent to port
    53 of a root server or of the address of the A record a reply received before gave. With
    a seed every draw re-seeds its generator, so every datagram of a seeded resolution
    carries one id, and the only root server it asks unprompted is the one the seed picks
    (`resolve_seeded_asks_one_root`). -/

namespace ToyDns

variable {σ σ' : Type}

/-- `π` takes each state of `w'` to one of `w`, and every operation of `w'` to the same
    operation of `w`. -/
structure World.Simulates (w' : World σ') (w : World σ) (π : σ' → σ) : Prop where
  send : ∀ s bytes addr, (w'.send s bytes addr).map π = w.send (π s) bytes addr
  recvFrom : ∀ s, (w'.recvFrom s).map (Prod.map id π) = w.recvFrom (π s)
  randomId : ∀ seed s, Prod.map id π (w'.randomId seed s) = w.randomId seed (π s)
  randomIndex : ∀ seed s, Prod.map id π (w'.randomIndex seed s) = w.randomIndex seed (π s)

section Simulation

variable {w' : World σ'} {w : World σ} {π : σ' → σ}

theorem RootServer.random_simulates (h : w'.Simulates w π) (seed : Option Nat) (s : σ') :
    Prod.map id π (RootServer.random w' seed s) = RootServer.random w seed (π s) := by
  rw [RootServer.random, RootServer.random, ← h.randomIndex]
  rfl

theorem Query.perform_simulates (h : w'.Simulates w π) (fuel : Nat) (q : Query) (ip : String)
    (seed : Option Nat) (s : σ') :
    Prod.map id π (q.perform w' fuel ip seed s) = q.perform w fuel ip seed (π s) := by
  rcases hr : w'.randomId seed s with ⟨id, s₁⟩
  have hr' : w.randomId seed (π s) = (id, π s₁) := by rw [← h.randomId, hr]; rfl
  simp only [Query.perform, hr, hr']
  rcases q.serialize id with _ | queryBytes
  · rfl
  rcases hs : w'.send s₁ queryBytes (ip ++ ":53") with _ | s₂
  · have hs' : w.send (π s₁) queryBytes (ip ++ ":53") = none := by rw [← h.send, hs]; rfl
    simp only [hs, hs']; rfl
  have hs' : w.send (π s₁) queryBytes (ip ++ ":53") = some (π s₂) := by rw [← h.send, hs]; rfl
  rcases hv : w'.recvFrom s₂ with _ | ⟨datagram, s₃⟩
  · have hv' : w.recvFrom (π s₂) = none := by rw [← h.recvFrom, hv]; rfl
    simp only [hs, hs', hv, hv']; rfl
  · have hv' : w.recvFrom (π s₂) = some (datagram, π s₃) := by rw [← h.recvFrom, hv]; rfl
    simp only [hs, hs', hv, hv']; rfl

/-- **A SIMULATED TRANSPORT RESOLVES THE SAME**: the loop over `w'` returns what the loop over
    `w` returns, and ends in a state `π` takes to the state the loop over `w` ends in. -/
theorem Query.resolveLoop_simulates (h : w'.Simulates w π) :
    ∀ (fuel : Nat) (q : Query) (seed : Option Nat) (ip : String) (s : σ'),
      Prod.map id π (q.resolveLoop w' fuel seed ip s) = q.resolveLoop w fuel seed ip (π s)
  | 0, _, _, _, _ => rfl
  | fuel + 1, q, seed, ip, s => by
    rw [Query.resolveLoop, Query.resolveLoop, ← Query.perform_simulates h]
    rcases q.perform w' (fuel + 1) ip seed s with ⟨_ | packet, s₁⟩
    · rfl
    dsimp only [Prod.map, id]
    split
    · rfl
    split
    · exact Query.resolveLoop_simulates h fuel q seed _ s₁
    split
    · rfl
    split
    · rfl
    split
    · rfl
    rw [← RootServer.random_simulates h]
    rcases RootServer.random w' seed s₁ with ⟨rootIp, s₂⟩
    dsimp only [Prod.map, id]
    rw [← Query.resolveLoop_simulates h fuel _ seed rootIp s₂]
    rcases Query.resolveLoop w' fuel _ seed rootIp s₂ with ⟨_ | resolved, s₃⟩
    · rfl
    dsimp only [Prod.map, id]
    split
    · rfl
    · exact Query.resolveLoop_simulates h fuel q seed _ s₃

end Simulation

/-! ## Whole runs -/

/-- **WHAT A RESOLUTION DOES TO THE WORLD**: a relation between states of the world that
    composes, and that every exchange for a query the loop may ask with a server it may ask,
    and every pick of a root server, establish, holds between the state the loop starts in
    and the state it ends in — nested resolutions included. What the loop may ask depends on
    the state: `Q` holds of the query asked and of the A query for the name a reply's NS
    record delegates to, and stays true as `R` goes on; `A` holds of the root server picked,
    and of the address of the first A record among a reply's additionals or answers. -/
theorem Query.resolveLoop_state (w : World σ) {R : σ → σ → Prop} {Q : Query → σ → Prop}
    {A : σ → String → Prop} (seed : Option Nat)
    (hrefl : ∀ s, R s s) (htrans : ∀ {s₁ s₂ s₃}, R s₁ s₂ → R s₂ s₃ → R s₁ s₃)
    (hasks : ∀ {q s s'}, R s s' → Q q s → Q q s')
    (hperform : ∀ fuel q ip s, Q q s → A s ip → R s (q.perform w fuel ip seed s).2)
    (hreply : ∀ {fuel : Nat} {q : Query} {ip : String} {s : σ} {packet : Packet} {s' : σ},
      q.perform w (fuel + 1) ip seed s = (.ok packet, s') →
      (∀ {r}, getFirstARecord packet.additionals = some r ∨
        getFirstARecord packet.answers = some r → A s' r.ipAddress) ∧
      ∀ {ns : Record} {name : Str} {n : Nat}, getFirstNsRecord packet.authorities = some ns →
        RecordName.readAndAdvance (fuel + 1) ns.data 0 = .ok (name.bytes, n) → Q ⟨name, .a⟩ s')
    (hroot : ∀ s, R s (RootServer.random w seed s).2 ∧
      A (RootServer.random w seed s).2 (RootServer.random w seed s).1) :
    ∀ fuel q ip s, Q q s → A s ip → R s (q.resolveLoop w fuel seed ip s).2
  | 0, _, _, s, _, _ => hrefl s
  | fuel + 1, q, ip, s, hq, hip => by
    have ih := Query.resolveLoop_state (R := R) (Q := Q) (A := A) w seed hrefl htrans hasks
      hperform hreply hroot fuel
    have h₁ := hperform (fuel + 1) q ip s hq hip
    rw [Query.resolveLoop]
    rcases hp : q.perform w (fuel + 1) ip seed s with ⟨_ | packet, s₁⟩
    · rwa [hp] at h₁
    rw [hp] at h₁
    obtain ⟨hA, hNS⟩ := hreply hp
    dsimp only
    split
    · exact h₁
    split
    · exact htrans h₁ (ih q _ s₁ (hasks h₁ hq) (hA (.inl ‹_›)))
    split
    · exact h₁
    split
    · exact h₁
    split
    · exact h₁
    -- a delegation: the name server's A query, from a root server
    rename_i ns hns _ _ _ hname _ name hstr
    rw [← Str.fromUtf8_eq_some.mp hstr] at hname
    have h₂ := htrans h₁ (hroot s₁).1
    have hip₂ := (hroot s₁).2
    have hq₂ := hasks (hroot s₁).1 (hNS hns hname)
    rcases hr : RootServer.random w seed s₁ with ⟨rootIp, s₂⟩
    rw [hr] at h₂ hip₂ hq₂
    have h₃ := htrans h₂ (ih ⟨name, .a⟩ rootIp s₂ hq₂ hip₂)
    dsimp only
    rcases hn : Query.resolveLoop w fuel ⟨name, .a⟩ seed rootIp s₂ with ⟨_ | resolved, s₃⟩
    · rw [hn] at h₃; exact h₃
    rw [hn] at h₃
    dsimp only
    split
    · exact h₃
    · -- its answer, decoded by the last exchange of the nested resolution
      obtain ⟨_, _, _, -, hp', -⟩ := Query.reaches_of_resolveLoop_ok hn
      exact htrans h₃ (ih q _ s₃ (hasks h₃ hq) ((hreply hp').1 (.inr ‹_›)))

/-! ## The trace of a resolution -/

/-- What the transport did for the resolver: accepted a datagram for an address, or
    delivered one. -/
inductive Exchange where
  | sent (bytes : Bytes) (addr : String)
  | received (datagram : Bytes)

/-- The transport `w`, keeping the trace of the datagrams it accepted and delivered. -/
def World.tracing (w : World σ) : World (σ × List Exchange) where
  send st bytes addr := (w.send st.1 bytes addr).map fun s => (s, st.2 ++ [.sent bytes addr])
  recvFrom st := (w.recvFrom st.1).map fun r => (r.1, (r.2, st.2 ++ [.received r.1]))
  randomId seed st := ((w.randomId seed st.1).1, ((w.randomId seed st.1).2, st.2))
  randomIndex seed st := ((w.randomIndex seed st.1).1, ((w.randomIndex seed st.1).2, st.2))

/-- Keeping the trace changes nothing the resolver sees. -/
theorem World.tracing_simulates (w : World σ) : w.tracing.Simulates w Prod.fst where
  send s bytes addr := by cases h : w.send s.1 bytes addr <;> simp [World.tracing, h]
  recvFrom s := by cases h : w.recvFrom s.1 <;> simp [World.tracing, h]
  randomId _ _ := rfl
  randomIndex _ _ := rfl

/-- A packet decoded from a datagram the trace delivered. -/
def Decoded (trace : List Exchange) (p : Packet) : Prop :=
  ∃ datagram fuel, .received datagram ∈ trace ∧ Packet.parse fuel (recvBuffer datagram) = .ok p

/-- A server known after the trace: one of `roots`, or the address of the first A record
    among the additionals or the answers of a packet decoded from it. -/
def KnownServer (roots : String → Prop) (trace : List Exchange) (ip : String) : Prop :=
  roots ip ∨ ∃ p r, Decoded trace p ∧
    (getFirstARecord p.additionals = some r ∨ getFirstARecord p.answers = some r) ∧
    ip = r.ipAddress

/-- A query the resolver for `q` knows after the trace: `q`, or the A query for the name the
    first NS record of a packet decoded from it delegates to. -/
def KnownQuery (q : Query) (trace : List Exchange) (q' : Query) : Prop :=
  q' = q ∨ q'.recordType = .a ∧ ∃ p ns fuel n, Decoded trace p ∧
    getFirstNsRecord p.authorities = some ns ∧
    RecordName.readAndAdvance fuel ns.data 0 = .ok (q'.domainName.bytes, n)

/-- A datagram sent after the trace `pre`: the serialization of a query known then, with an id
    `ids` allows, to port 53 of a server known then. -/
def SentKnown (q : Query) (ids : UInt16 → Prop) (roots : String → Prop) (pre : List Exchange)
    (bytes : Bytes) (addr : String) : Prop :=
  (∃ q' i, KnownQuery q pre q' ∧ ids i ∧ q'.serialize i = .ok bytes) ∧
    ∃ ip, KnownServer roots pre ip ∧ addr = ip ++ ":53"

/-- Every datagram the trace sends was known when it was sent. -/
def SendsKnown (q : Query) (ids : UInt16 → Prop) (roots : String → Prop)
    (trace : List Exchange) : Prop :=
  ∀ pre bytes addr post, trace = pre ++ .sent bytes addr :: post →
    SentKnown q ids roots pre bytes addr

section Known

variable {q : Query} {ids : UInt16 → Prop} {roots : String → Prop} {t t' : List Exchange}

theorem Decoded.mono {p : Packet} (h : Decoded t p) (hsub : t ⊆ t') : Decoded t' p :=
  let ⟨datagram, fuel, hd, hp⟩ := h
  ⟨datagram, fuel, hsub hd, hp⟩

theorem KnownServer.mono {ip : String} (h : KnownServer roots t ip) (hsub : t ⊆ t') :
    KnownServer roots t' ip :=
  h.imp_right fun ⟨p, r, hp, hr, hip⟩ => ⟨p, r, hp.mono hsub, hr, hip⟩

theorem KnownQuery.mono {q' : Query} (h : KnownQuery q t q') (hsub : t ⊆ t') :
    KnownQuery q t' q' :=
  h.imp_right fun ⟨ha, p, ns, fuel, n, hp, hns, hname⟩ =>
    ⟨ha, p, ns, fuel, n, hp.mono hsub, hns, hname⟩

theorem SendsKnown.nil : SendsKnown q ids roots [] := fun pre _ _ _ h => by
  cases pre <;> cases h

/-- Appending datagrams each known when sent keeps every datagram known. -/
theorem SendsKnown.append {new : List Exchange} (ht : SendsKnown q ids roots t)
    (hnew : ∀ pre bytes addr post, new = pre ++ .sent bytes addr :: post →
      SentKnown q ids roots (t ++ pre) bytes addr) :
    SendsKnown q ids roots (t ++ new) := by
  intro pre bytes addr post h
  rcases List.append_eq_append_iff.mp h with ⟨a, rfl, hn⟩ | ⟨c, rfl, hc⟩
  · exact hnew a bytes addr post hn
  · cases c with
    | nil => simpa using hnew [] bytes addr post (by simpa using hc.symm)
    | cons x c =>
      obtain ⟨rfl, rfl⟩ := List.cons.inj hc
      exact ht pre bytes addr c rfl

end Known

/-- An exchange over the tracing transport adds to the trace at most the query it sends, to
    port 53 of the server, and the datagram it receives, from which it decodes any packet it
    returns. -/
theorem Query.perform_tracing (w : World σ) (fuel : Nat) (q : Query) (ip : String)
    (seed : Option Nat) (s : σ × List Exchange) :
    ∃ new, (q.perform w.tracing fuel ip seed s).2.2 = s.2 ++ new ∧
      (∀ bytes addr, .sent bytes addr ∈ new →
        q.serialize (w.randomId seed s.1).1 = .ok bytes ∧ addr = ip ++ ":53") ∧
      ∀ p, (q.perform w.tracing fuel ip seed s).1 = .ok p → Decoded new p := by
  simp only [Query.perform, World.tracing]
  rcases hser : q.serialize (w.randomId seed s.1).1 with _ | bytes
  · exact ⟨[], by simp, by simp, fun _ h => by cases h⟩
  dsimp only
  rcases w.send (w.randomId seed s.1).2 bytes (ip ++ ":53") with _ | s₂
  · exact ⟨[], by simp, by simp, fun _ h => by cases h⟩
  dsimp only [Option.map]
  rcases w.recvFrom s₂ with _ | ⟨datagram, s₃⟩
  · exact ⟨[.sent bytes (ip ++ ":53")], rfl, fun _ _ h => by simp_all, fun _ h => by cases h⟩
  · exact ⟨[.sent bytes (ip ++ ":53"), .received datagram], by simp, fun _ _ h => by simp_all,
      fun p h => ⟨datagram, fuel, by simp, h⟩⟩

/-- Over the tracing transport, every datagram a whole resolution sends was known when it was
    sent, if every id drawn is one `ids` allows and every root server picked is one of
    `roots`. -/
theorem Query.resolveLoop_sendsKnown (w : World σ) {q : Query} {ids : UInt16 → Prop}
    {roots : String → Prop} (seed : Option Nat) (hids : ∀ s, ids (w.randomId seed s).1)
    (hroots : ∀ s, roots (RootServer.random w seed s).1) (fuel : Nat) (q' : Query)
    (ip : String) (s : σ × List Exchange) (hq : KnownQuery q s.2 q')
    (hip : KnownServer roots s.2 ip) (hs : SendsKnown q ids roots s.2) :
    SendsKnown q ids roots (q'.resolveLoop w.tracing fuel seed ip s).2.2 :=
  (Query.resolveLoop_state w.tracing (Q := fun q' s => KnownQuery q s.2 q')
    (A := fun s ip => KnownServer roots s.2 ip)
    (R := fun s s' => s.2 <+: s'.2 ∧ (SendsKnown q ids roots s.2 → SendsKnown q ids roots s'.2))
    seed (fun _ => ⟨List.prefix_refl _, id⟩)
    (fun ⟨h₁, g₁⟩ ⟨h₂, g₂⟩ => ⟨h₁.trans h₂, g₂ ∘ g₁⟩)
    (fun ⟨hpre, _⟩ hq => hq.mono hpre.subset)
    (fun fuel q' ip s hq hip => by
      obtain ⟨new, hnew, hsent, -⟩ := Query.perform_tracing w fuel q' ip seed s
      rw [hnew]
      refine ⟨List.prefix_append _ _, fun hs => hs.append fun pre bytes addr post h => ?_⟩
      obtain ⟨hser, rfl⟩ := hsent bytes addr (by simp [h])
      exact ⟨⟨q', _, hq.mono (List.subset_append_left _ _), hids s.1, hser⟩, ip,
        hip.mono (List.subset_append_left _ _), rfl⟩)
    (fun {fuel q' ip s packet s'} hp => by
      obtain ⟨new, hnew, -, hdec⟩ := Query.perform_tracing w (fuel + 1) q' ip seed s
      rw [hp] at hnew hdec
      have hd : Decoded s'.2 packet := by
        rw [hnew]; exact (hdec packet rfl).mono (List.subset_append_right _ _)
      exact ⟨fun hr => .inr ⟨packet, _, hd, hr, rfl⟩,
        fun hns hname => .inr ⟨rfl, packet, _, _, _, hd, hns, hname⟩⟩)
    (fun s => ⟨⟨List.prefix_refl _, id⟩, .inl (hroots s.1)⟩) fuel q' ip s hq hip).2 hs

/-- **THE RESOLVER ASKS ONLY WHAT IT WAS ASKED OR TOLD**: over every transport, a
    resolution with the trace kept returns and leaves the transport as it does without it,
    and each datagram it sends — its nested resolutions' included — is the serialization of
    the query asked, or of the A query for the name a reply received before delegated to,
    sent to port 53 of a root server or of the address of the A record a reply received
    before gave. -/
theorem resolve_sends_only_known (w : World σ) (fuel : Nat) (q : Query) (seed : Option Nat)
    (s : σ) :
    Prod.map id Prod.fst (q.resolve w.tracing fuel seed (s, [])) = q.resolve w fuel seed s ∧
      SendsKnown q (fun _ => True) (· ∈ rootServersAndIps)
        (q.resolve w.tracing fuel seed (s, [])).2.2 := by
  have hr : RootServer.random w.tracing seed (s, []) =
      ((RootServer.random w seed s).1, ((RootServer.random w seed s).2, [])) := rfl
  rw [Query.resolve_eq, Query.resolve_eq, hr]
  exact ⟨Query.resolveLoop_simulates w.tracing_simulates _ _ _ _ _,
    Query.resolveLoop_sendsKnown w seed (fun _ => trivial) (fun _ => List.get_mem _ _ _) fuel
      q _ _ (.inl rfl) (.inl (List.get_mem _ _ _)) SendsKnown.nil⟩

/-! ## A seed

With `Some(seed)`, `serialize` and `RootServer::random` each seed a fresh `ChaCha8Rng` from
the seed for every draw: every draw gives the same value, and nothing is left behind for the
next one. -/

/-- The draws of `w` under the seed `v` as the code makes them: every id is `i`, every root
    index is `k`, and no draw changes the world. -/
structure World.Reseeds (w : World σ) (v : Nat) (i : UInt16)
    (k : Fin rootServersAndIps.length) : Prop where
  randomId : ∀ s, w.randomId (some v) s = (i, s)
  randomIndex : ∀ s, w.randomIndex (some v) s = (k, s)

/-- **A SEEDED RESOLUTION SENDS ONE ID AND ASKS ONE ROOT SERVER UNPROMPTED**: when the draws
    re-seed, every datagram of a resolution — its nested resolutions' included — carries the
    id the seed draws, and goes to port 53 of the root server the seed picks, or of the
    address of the A record a reply received before gave. -/
theorem resolve_seeded_asks_one_root {w : World σ} {v : Nat} {i : UInt16}
    {k : Fin rootServersAndIps.length} (hw : w.Reseeds v i k) (fuel : Nat) (q : Query)
    (s : σ) :
    SendsKnown q (· = i) (· = rootServersAndIps.get k)
      (q.resolve w.tracing fuel (some v) (s, [])).2.2 := by
  have hroot : ∀ s, RootServer.random w (some v) s = (rootServersAndIps.get k, s) := fun s => by
    rw [RootServer.random, hw.randomIndex]
  have hr : RootServer.random w.tracing (some v) (s, []) = (rootServersAndIps.get k, (s, [])) :=
    by rw [RootServer.random]; simp only [World.tracing, hw.randomIndex]
  rw [Query.resolve_eq, hr]
  exact Query.resolveLoop_sendsKnown w (some v) (fun s => by rw [hw.randomId])
    (fun s => by rw [hroot]) fuel q _ _ (.inl rfl) (.inl rfl) SendsKnown.nil

theorem resolve_seeded_asks_one_root_replying :
    (replying []).Reseeds 7 0 ⟨0, by decide⟩ ∧
      SendsKnown ⟨nameA, .a⟩ (· = 0) (· = rootServersAndIps.get ⟨0, by decide⟩)
        (Query.resolve (replying []).tracing 2 ⟨nameA, .a⟩ (some 7) ((), [])).2.2 :=
  have hw : (replying []).Reseeds 7 0 ⟨0, by decide⟩ := ⟨fun _ => rfl, fun _ => rfl⟩
  ⟨hw, resolve_seeded_asks_one_root hw 2 _ ()⟩

end ToyDns
