import TripTorrent.Relay.Service

/-!
# What a relay delivers

A pair of connections is two channels. What a client has sent is its registration, then the frames
that the relay has taken from it, and then what the relay has not read; and the counterpart has
received the frames, all of them unless its connection is broken (`Carries`). So a client receives
what its counterpart sent, in this order, and nothing else. A connection that is not in a pair
receives nothing.

A channel depends on one half of each connection, on what is sent on one and on what is received on
the other, so the two channels of a pair do not get in each other's way, and neither do two pairs.
-/

namespace TripTorrent.Relay

open Codec (frame)

namespace Connection

/-- What is sent on a connection, what is unread of it, and whether it has ended. -/
def incoming (c : Connection) : List UInt8 × List UInt8 × Bool := (c.sent, c.unread, c.ended)

/-- What is received on a connection, whether that has ended, and whether it was broken off. -/
def outgoing (c : Connection) : List UInt8 × Bool × Bool := (c.received, c.shutdown, c.broken)

end Connection

/-- The registration of a call, followed by what was passed on and what is unread. -/
def Passed (log : Log) (connections : List Connection) (i : ℕ) (passed unread : List UInt8)
    (ended : Bool) : Prop :=
  ∃ call payload, log.call? i = some call ∧
    parseRegistration payload = .ok (call.route, call.role) ∧
    connections[i]?.map Connection.incoming =
      some (frame 4 payload ++ passed ++ unread, unread, ended)

/-- The channel from one connection to another. -/
def Carries (log : Log) (connections : List Connection) (source destination : ℕ) : Prop :=
  ∃ (payloads : List (List UInt8)) (received unread : List UInt8) (ended shutdown broken : Bool),
    Passed log connections source (payloads.flatMap (frame 4)) unread ended ∧
    connections[destination]?.map Connection.outgoing = some (received, shutdown, broken) ∧
    received <+: payloads.flatMap (frame 4) ∧
    (broken = false → received = payloads.flatMap (frame 4)) ∧
    (shutdown = true → ended = true ∧ unread.length < 4 ∧ received = payloads.flatMap (frame 4)) ∧
    ∀ payload ∈ payloads, payload.length ≤ maxFrameLength

/-- A connection from which nothing was passed on, and on which nothing is received. -/
def Waits (log : Log) (connections : List Connection) (i : ℕ) : Prop :=
  ∃ (unread : List UInt8) (ended : Bool), Passed log connections i [] unread ended ∧
    connections[i]?.map Connection.outgoing = some ([], false, false)

section

variable {log log' : Log} {connections connections' : List Connection} {a b i k : ℕ}
  {c c' : Connection} {passed unread : List UInt8} {ended : Bool}

theorem Passed.congr (h : Passed log connections i passed unread ended)
    (hcall : ∀ call, log.call? i = some call → log'.call? i = some call)
    (hsame : connections'[i]?.map Connection.incoming = connections[i]?.map Connection.incoming) :
    Passed log' connections' i passed unread ended := by
  obtain ⟨call, payload, hcalled, hparse, hincoming⟩ := h
  exact ⟨call, payload, hcall call hcalled, hparse, hsame.trans hincoming⟩

theorem Carries.congr (h : Carries log connections a b)
    (hcall : ∀ call, log.call? a = some call → log'.call? a = some call)
    (hincoming : connections'[a]?.map Connection.incoming =
      connections[a]?.map Connection.incoming)
    (houtgoing : connections'[b]?.map Connection.outgoing =
      connections[b]?.map Connection.outgoing) : Carries log' connections' a b := by
  obtain ⟨payloads, received, unread, ended, shutdown, broken, hpassed, hreceived, h⟩ := h
  exact ⟨payloads, received, unread, ended, shutdown, broken, hpassed.congr hcall hincoming,
    houtgoing.trans hreceived, h⟩

theorem Waits.congr (h : Waits log connections i)
    (hcall : ∀ call, log.call? i = some call → log'.call? i = some call)
    (hincoming : connections'[i]?.map Connection.incoming =
      connections[i]?.map Connection.incoming)
    (houtgoing : connections'[i]?.map Connection.outgoing =
      connections[i]?.map Connection.outgoing) : Waits log' connections' i := by
  obtain ⟨unread, ended, hpassed, hreceived⟩ := h
  exact ⟨unread, ended, hpassed.congr hcall hincoming, houtgoing.trans hreceived⟩

/-- Two connections that wait are a channel through which nothing has passed. -/
theorem Waits.carries (ha : Waits log connections a) (hb : Waits log connections b) :
    Carries log connections a b := by
  obtain ⟨unread, ended, hpassed, -⟩ := ha
  obtain ⟨-, -, -, hreceived⟩ := hb
  refine ⟨[], [], unread, ended, false, false, hpassed, hreceived, List.nil_prefix, fun _ ↦ rfl,
    fun h ↦ ?_, fun payload hmem ↦ ?_⟩
  · cases h
  · cases hmem

/-! ## Clients -/

theorem map_set_of_ne {α : Type} {f : Connection → α} (h : k ≠ i) :
    (connections.set k c)[i]?.map f = connections[i]?.map f := by
  rw [List.getElem?_set_ne h]

theorem map_set_of_eq {α : Type} {f : Connection → α} (hk : connections[k]? = some c)
    (h : f c' = f c) : (connections.set k c')[i]?.map f = connections[i]?.map f := by
  by_cases hki : k = i
  · subst hki
    rw [List.getElem?_set_self (List.getElem?_eq_some_iff.mp hk).1, hk, Option.map_some, h]
    rfl
  · exact map_set_of_ne hki

theorem map_set_self {α : Type} {f : Connection → α} (hk : connections[k]? = some c) :
    (connections.set k c')[k]?.map f = some (f c') := by
  rw [List.getElem?_set_self (List.getElem?_eq_some_iff.mp hk).1]
  rfl

theorem Connection.Sends.outgoing_eq (h : c.Sends c') : c'.outgoing = c.outgoing := by
  rcases h with ⟨-, bytes, rfl⟩ | rfl
  · rfl
  · rfl

/-- What a client sends is unread at first. -/
theorem Passed.sends (h : Passed log connections i passed unread ended)
    (hk : connections[k]? = some c) (hsends : c.Sends c') :
    ∃ more ended', Passed log (connections.set k c') i passed (unread ++ more) ended' ∧
      (ended = true → ended' = true ∧ more = []) := by
  by_cases hki : k = i
  · subst hki
    obtain ⟨call, payload, hcall, hparse, hincoming⟩ := h
    rw [hk, Option.map_some, Option.some_inj, Connection.incoming, Prod.mk.injEq,
      Prod.mk.injEq] at hincoming
    obtain ⟨hsent, hunread, hended⟩ := hincoming
    rcases hsends with ⟨hopen, bytes, rfl⟩ | rfl
    · refine ⟨bytes, ended, ⟨call, payload, hcall, hparse, ?_⟩, fun h ↦ ?_⟩
      · rw [map_set_self hk, Connection.incoming, Connection.send, hsent, hunread, hended,
          List.append_assoc]
      · rw [← hended, hopen] at h
        exact absurd h (by decide)
    · refine ⟨[], true, ⟨call, payload, hcall, hparse, ?_⟩, fun _ ↦ ⟨rfl, rfl⟩⟩
      rw [map_set_self hk, Connection.incoming, hsent, hunread, List.append_nil]
  · refine ⟨[], ended, ?_, fun h ↦ ⟨h, rfl⟩⟩
    rw [List.append_nil]
    exact h.congr (fun _ ↦ id) (map_set_of_ne hki)

theorem Carries.sends (h : Carries log connections a b) (hk : connections[k]? = some c)
    (hsends : c.Sends c') : Carries log (connections.set k c') a b := by
  obtain ⟨payloads, received, unread, ended, shutdown, broken, hpassed, hreceived, hpart, hwhole,
    hend, hlimit⟩ := h
  obtain ⟨more, ended', hpassed', hkept⟩ := hpassed.sends hk hsends
  refine ⟨payloads, received, unread ++ more, ended', shutdown, broken, hpassed', ?_, hpart, hwhole,
    fun hshutdown ↦ ?_, hlimit⟩
  · rw [map_set_of_eq hk hsends.outgoing_eq, hreceived]
  · obtain ⟨hended, hshort, hall⟩ := hend hshutdown
    obtain ⟨hended', rfl⟩ := hkept hended
    exact ⟨hended', by rwa [List.append_nil], hall⟩

theorem Waits.sends (h : Waits log connections i) (hk : connections[k]? = some c)
    (hsends : c.Sends c') : Waits log (connections.set k c') i := by
  obtain ⟨unread, ended, hpassed, hreceived⟩ := h
  obtain ⟨more, ended', hpassed', -⟩ := hpassed.sends hk hsends
  exact ⟨unread ++ more, ended', hpassed', by rw [map_set_of_eq hk hsends.outgoing_eq, hreceived]⟩

/-! ## Copying -/

variable {reader writer : Connection} {payload rest written : List UInt8}

/-- A frame is taken from one connection, and the other has received it or a part of it. -/
theorem Carries.taken (h : Carries log connections a b) (hne : a ≠ b)
    (hreader : connections[a]? = some reader) (hwriter : connections[b]? = some writer)
    (hread : readFrame reader.unread = .ok (some (payload, rest)))
    (hpart : written <+: frame 4 payload) (broken : Bool)
    (hbroken : writer.broken = true → written = [])
    (hwhole : broken = false → writer.broken = false ∧ written = frame 4 payload) :
    Carries log ((connections.set a { reader with unread := rest }).set b
      { writer with received := writer.received ++ written, broken := broken }) a b := by
  obtain ⟨payloads, received, unread, ended, shutdown, broken', ⟨call, registration, hcall, hparse,
    hincoming⟩, hreceived, hpart', hwhole', hend, hlimit⟩ := h
  rw [hreader, Option.map_some, Option.some_inj, Connection.incoming, Prod.mk.injEq,
    Prod.mk.injEq] at hincoming
  rw [hwriter, Option.map_some, Option.some_inj, Connection.outgoing, Prod.mk.injEq,
    Prod.mk.injEq] at hreceived
  obtain ⟨hsent, rfl, rfl⟩ := hincoming
  obtain ⟨rfl, rfl, rfl⟩ := hreceived
  obtain ⟨hle, hunread⟩ := Framing.readFrame_eq_some_iff.mp hread
  have hsnoc : (payloads ++ [payload]).flatMap (frame 4) =
      payloads.flatMap (frame 4) ++ frame 4 payload := by simp
  refine ⟨payloads ++ [payload], writer.received ++ written, rest, reader.ended, writer.shutdown,
    broken, ⟨call, registration, hcall, hparse, ?_⟩, ?_, ?_, fun hopen ↦ ?_, fun hshutdown ↦ ?_,
    fun other hmem ↦ ?_⟩
  · rw [map_set_of_ne hne.symm, map_set_self hreader, Connection.incoming, hsent, hunread]
    simp
  · have hsame : (connections.set a { reader with unread := rest })[b]? = some writer := by
      rw [List.getElem?_set_ne hne, hwriter]
    rw [map_set_self hsame, Connection.outgoing]
  · rw [hsnoc]
    rcases hb : writer.broken
    · rw [hwhole' hb]
      exact (List.prefix_append_right_inj _).mpr hpart
    · rw [hbroken hb, List.append_nil]
      exact hpart'.trans (List.prefix_append _ _)
  · obtain ⟨hold, hframe⟩ := hwhole hopen
    rw [hsnoc, hwhole' hold, hframe]
  · -- there is a frame left, so this is not the end
    have hnone : readFrame reader.unread = .ok none :=
      Framing.readFrame_eq_none_iff.mpr (hend hshutdown).2.1
    exact absurd (hread.symm.trans hnone) (by simp)
  · rcases List.mem_append.mp hmem with hold | hnew
    · exact hlimit other hold
    · rw [List.mem_singleton.mp hnew]
      exact hle

/-- The channel in the other direction is not concerned, nor is any other. -/
theorem Carries.unaffected {x y : ℕ} (h : Carries log connections x y) (hxa : x ≠ a) (hyb : y ≠ b)
    (hne : a ≠ b) (hreader : connections[a]? = some reader)
    (hwriter : connections[b]? = some writer) {received : List UInt8} {broken : Bool} :
    Carries log ((connections.set a { reader with unread := rest }).set b
      { writer with received, broken }) x y := by
  have hsame : (connections.set a { reader with unread := rest })[b]? = some writer := by
    rw [List.getElem?_set_ne hne, hwriter]
  refine h.congr (fun _ ↦ id) ?_ ?_
  · refine (map_set_of_eq hsame ?_).trans (map_set_of_ne hxa.symm)
    rfl
  · refine (map_set_of_ne hyb.symm).trans (map_set_of_eq hreader ?_)
    rfl

/-- The source has ended, and the destination is shut down. -/
theorem Carries.shut (h : Carries log connections a b) (hreader : connections[a]? = some reader)
    (hwriter : connections[b]? = some writer) (hbroken : writer.broken = false)
    (hended : reader.ended = true) (hshort : reader.unread.length < 4) :
    Carries log (connections.set b { writer with shutdown := true }) a b := by
  obtain ⟨payloads, received, unread, ended, shutdown, broken, hpassed, hreceived, hpart, hwhole,
    -, hlimit⟩ := h
  obtain ⟨call, registration, hcall, hparse, hincoming⟩ := id hpassed
  rw [hreader, Option.map_some, Option.some_inj, Connection.incoming, Prod.mk.injEq,
    Prod.mk.injEq] at hincoming
  rw [hwriter, Option.map_some, Option.some_inj, Connection.outgoing, Prod.mk.injEq,
    Prod.mk.injEq] at hreceived
  obtain ⟨-, rfl, rfl⟩ := hincoming
  obtain ⟨rfl, -, rfl⟩ := hreceived
  refine ⟨payloads, writer.received, reader.unread, reader.ended, true, writer.broken,
    hpassed.congr (fun _ ↦ id) (map_set_of_eq hwriter rfl), ?_, hpart, hwhole, fun _ ↦ ?_, hlimit⟩
  · rw [map_set_self hwriter, Connection.outgoing]
  · exact ⟨hended, hshort, hwhole hbroken⟩

theorem Carries.unaffected_shut {x y : ℕ} (h : Carries log connections x y) (hyb : y ≠ b)
    (hwriter : connections[b]? = some writer) :
    Carries log (connections.set b { writer with shutdown := true }) x y :=
  h.congr (fun _ ↦ id) (map_set_of_eq hwriter rfl) (map_set_of_ne hyb.symm)

end

/-! ## The channels of a service -/

namespace RelayService

variable {limits : ServiceLimits} {s s' : RelayService}

/-- The pairs are channels, and the other connections wait. -/
structure Conveys (s : RelayService) : Prop where
  length_eq : s.connections.length = s.run.2.length
  reading : ∀ c, .reading c ∈ s.threads → c.unread = c.sent ∧ c.outgoing = ([], false, false)
  carries : ∀ k a b, s.run.2.Pairs k a b →
    Carries s.run.2 s.connections a b ∧ Carries s.run.2 s.connections b a
  waits : ∀ i < s.connections.length, (∀ k a b, s.run.2.Pairs k a b → i ≠ a ∧ i ≠ b) →
    Waits s.run.2 s.connections i

namespace Conveys

theorem start (limits : ServiceLimits) : Conveys (start limits) where
  length_eq := rfl
  reading := by
    intro c hc
    cases hc
  carries := by
    intro k a b h
    cases h
  waits := by
    intro i hi
    cases hi

/-- Threads other than those that read do not matter. -/
theorem withThreads (h : Conveys s) {registrations active : ℕ} {threads : List RelayThread}
    (hreading : ∀ c, .reading c ∈ threads → .reading c ∈ s.threads) :
    Conveys { s with registrations, active, threads } :=
  ⟨h.length_eq, fun c hc ↦ h.reading c (hreading c hc), h.carries, h.waits⟩

/-- A thread that does not read goes on. -/
theorem become (h : Conveys s) {i registrations active : ℕ} {thread : RelayThread}
    (hother : ∀ c, thread ≠ .reading c) :
    Conveys ({ s with registrations, active }.become i thread) := by
  refine h.withThreads fun c hc ↦ ?_
  exact (List.mem_or_eq_of_mem_set hc).resolve_right (hother c).symm

/-- The client of a connection that is registering sends. -/
theorem sent (h : Conveys s) {i : ℕ} {c c' : Connection} (hi : s.threads[i]? = some (.reading c))
    (hsends : c.Sends c') : Conveys (s.become i (.reading c')) where
  length_eq := h.length_eq
  reading := by
    intro d hd
    rcases List.mem_or_eq_of_mem_set hd with hmem | heq
    · exact h.reading d hmem
    · obtain rfl := RelayThread.reading.inj heq
      obtain ⟨hunread, houtgoing⟩ := h.reading c (List.mem_of_getElem? hi)
      refine ⟨?_, hsends.outgoing_eq.trans houtgoing⟩
      rcases hsends with ⟨-, bytes, rfl⟩ | rfl
      · rw [Connection.send, hunread]
      · exact hunread
  carries := h.carries
  waits := h.waits

theorem sentOn (h : Conveys s) {k : ℕ} {c c' : Connection} (hk : s.connections[k]? = some c)
    (hsends : c.Sends c') : Conveys { s with connections := s.connections.set k c' } where
  length_eq := by
    rw [List.length_set]
    exact h.length_eq
  reading := h.reading
  carries := by
    intro j a b hpair
    obtain ⟨hab, hba⟩ := h.carries j a b hpair
    exact ⟨hab.sends hk hsends, hba.sends hk hsends⟩
  waits := by
    intro i hi hfree
    rw [List.length_set] at hi
    exact (h.waits i hi hfree).sends hk hsends

/-- The two ends of a pair are different connections. -/
theorem ends_ne (h : Admits limits s) {k a b source destination : ℕ} (hpair : s.run.2.Pairs k a b)
    (hends : Ends a b source destination) : source ≠ destination := by
  have hne : a ≠ b := by
    obtain ⟨-, -, -, -, -, -, -, ⟨hlt, -⟩ | ⟨hlt, -⟩⟩ := h.tracks.matched k a b hpair
    · exact hlt.ne
    · exact hlt.ne'
  rcases hends with ⟨rfl, rfl⟩ | ⟨rfl, rfl⟩
  · exact hne
  · exact hne.symm

/-- What is done to one channel of a pair leaves the other channels as they are. -/
theorem channel (h : Conveys s) (hadmits : Admits limits s) {k a b source destination : ℕ}
    (hpair : s.run.2.Pairs k a b) (hends : Ends a b source destination)
    {connections : List Connection} (hlength : connections.length = s.connections.length)
    (hchannel : Carries s.run.2 s.connections source destination →
      Carries s.run.2 connections source destination)
    (hothers : ∀ x y, x ≠ source → y ≠ destination → Carries s.run.2 s.connections x y →
      Carries s.run.2 connections x y)
    (hwaits : ∀ i, i ≠ source → i ≠ destination → Waits s.run.2 s.connections i →
      Waits s.run.2 connections i) : Conveys { s with connections } where
  length_eq := hlength.trans h.length_eq
  reading := h.reading
  carries := by
    intro j x y hj
    obtain ⟨hxy, hyx⟩ := h.carries j x y hj
    have hne := ends_ne hadmits hpair hends
    by_cases hjk : j = k
    · -- the pair itself: one of its channels is the one, and the other is not concerned
      subst hjk
      obtain ⟨rfl, rfl⟩ : a = x ∧ b = y := by
        have hsame := hpair.symm.trans hj
        simpa using hsame
      rcases hends with ⟨rfl, rfl⟩ | ⟨rfl, rfl⟩
      · exact ⟨hchannel hxy, hothers _ _ hne.symm hne hyx⟩
      · exact ⟨hothers _ _ hne.symm hne hxy, hchannel hyx⟩
    · obtain ⟨hxa, hxb, hya, hyb⟩ := hadmits.tracks.disjoint j x y k a b hj hpair hjk
      rcases hends with ⟨rfl, rfl⟩ | ⟨rfl, rfl⟩
      · exact ⟨hothers _ _ hxa hyb hxy, hothers _ _ hya hxb hyx⟩
      · exact ⟨hothers _ _ hxb hya hxy, hothers _ _ hyb hxa hyx⟩
  waits := by
    intro i hi hfree
    obtain ⟨hia, hib⟩ := hfree k a b hpair
    have hold := h.waits i (hlength ▸ hi) hfree
    rcases hends with ⟨rfl, rfl⟩ | ⟨rfl, rfl⟩
    · exact hwaits i hia hib hold
    · exact hwaits i hib hia hold

theorem taken (h : Conveys s) (hadmits : Admits limits s) {k a b source destination : ℕ}
    (hpair : s.run.2.Pairs k a b) (hends : Ends a b source destination)
    {reader writer : Connection} {payload rest written : List UInt8}
    (hreader : s.connections[source]? = some reader)
    (hwriter : s.connections[destination]? = some writer)
    (hread : readFrame reader.unread = .ok (some (payload, rest)))
    (hpart : written <+: frame 4 payload) (broken : Bool)
    (hbroken : writer.broken = true → written = [])
    (hwhole : broken = false → writer.broken = false ∧ written = frame 4 payload) :
    Conveys (s.exchange source destination { reader with unread := rest }
      { writer with received := writer.received ++ written, broken := broken }) := by
  have hne := ends_ne hadmits hpair hends
  refine h.channel hadmits hpair hends (by simp) ?_ ?_ ?_
  · exact fun hcarries ↦ hcarries.taken hne hreader hwriter hread hpart broken hbroken hwhole
  · exact fun x y hx hy hcarries ↦ hcarries.unaffected hx hy hne hreader hwriter
  · intro i hi hi' hwaits
    refine hwaits.congr (fun _ ↦ id) ?_ ?_
    · exact (map_set_of_ne hi'.symm).trans (map_set_of_ne hi.symm)
    · exact (map_set_of_ne hi'.symm).trans (map_set_of_ne hi.symm)

theorem shut (h : Conveys s) (hadmits : Admits limits s) {k a b source destination : ℕ}
    (hpair : s.run.2.Pairs k a b) (hends : Ends a b source destination)
    {reader writer : Connection} (hreader : s.connections[source]? = some reader)
    (hwriter : s.connections[destination]? = some writer) (hbroken : writer.broken = false)
    (hended : reader.ended = true) (hshort : reader.unread.length < 4) :
    Conveys { s with
      connections := s.connections.set destination { writer with shutdown := true } } := by
  refine h.channel hadmits hpair hends (by simp) ?_ ?_ ?_
  · exact fun hcarries ↦ hcarries.shut hreader hwriter hbroken hended hshort
  · exact fun x y _ hy hcarries ↦ hcarries.unaffected_shut hy hwriter
  · exact fun i _ hi hwaits ↦
      hwaits.congr (fun _ ↦ id) (map_set_of_ne hi.symm) (map_set_of_ne hi.symm)

/-- A connection that is handed over waits at first. -/
theorem waits_entered (h : Conveys s) (now : ℕ) {i : ℕ} {c : Connection} {route : String}
    {role : RelayRole} {payload rest : List UInt8} (hi : s.threads[i]? = some (.reading c))
    (hread : readFrame c.unread = .ok (some (payload, rest)))
    (hparse : parseRegistration payload = .ok (route, role)) :
    Waits (serveCall s.run ⟨route, role, now⟩).2 (s.connections ++ [{ c with unread := rest }])
      s.run.2.length := by
  obtain ⟨hunread, houtgoing⟩ := h.reading c (List.mem_of_getElem? hi)
  have hlast : (s.connections ++ [{ c with unread := rest }])[s.run.2.length]? =
      some { c with unread := rest } := by
    rw [← h.length_eq]
    exact List.getElem?_concat_length
  refine ⟨rest, c.ended, ⟨_, payload, Log.call?_concat_length, hparse, ?_⟩, ?_⟩
  · rw [hlast, Option.map_some, Connection.incoming, ← hunread,
      (Framing.readFrame_eq_some_iff.mp hread).2, List.append_nil]
  · rw [hlast, Option.map_some]
    exact congrArg some houtgoing

/-- The connections that were handed over before are as they were. -/
theorem map_concat_of_lt {α : Type} {f : Connection → α} {connections : List Connection}
    {c : Connection} {j : ℕ} (hj : j < connections.length) :
    (connections ++ [c])[j]?.map f = connections[j]?.map f := by
  rw [List.getElem?_append_left hj]

/-- A connection is handed over, and completes a route or waits. -/
theorem entered (h : Conveys s) (hadmits : Admits limits s) {i now : ℕ} {c : Connection}
    {route : String} {role : RelayRole} {payload rest : List UInt8}
    (hi : s.threads[i]? = some (.reading c))
    (hread : readFrame c.unread = .ok (some (payload, rest)))
    (hparse : parseRegistration payload = .ok (route, role)) :
    Conveys (s.enter i now route role { c with unread := rest }) := by
  have hnew := h.waits_entered now hi hread hparse
  have htracks := hadmits.tracks.register ⟨route, role, now⟩
  set log := (serveCall s.run ⟨route, role, now⟩).2 with hlog
  set connections := s.connections ++ [{ c with unread := rest }] with hconnections
  have hpairs {k a b : ℕ} (hpair : log.Pairs k a b) :
      s.run.2.Pairs k a b ∨ k = s.run.2.length := by
    rw [hlog, serveCall, Log.pairs_concat_iff] at hpair
    exact hpair.imp_right And.left
  have hcalls (j : ℕ) (call : Registration) (hcall : s.run.2.call? j = some call) :
      log.call? j = some call := Log.call?_append hcall _
  have hwaits (j : ℕ) (hj : j < s.run.2.length)
      (hfree : ∀ k a b, s.run.2.Pairs k a b → j ≠ a ∧ j ≠ b) : Waits log connections j := by
    rw [← h.length_eq] at hj
    exact (h.waits j hj hfree).congr (hcalls j) (map_concat_of_lt hj) (map_concat_of_lt hj)
  refine ⟨?_, fun d hd ↦ ?_, ?_, ?_⟩
  · change connections.length = log.length
    rw [hconnections, hlog, serveCall, List.length_append, List.length_append, h.length_eq]
    rfl
  · have hcases : RelayThread.reading d ∈ s.threads ∨ RelayThread.reading d =
        .registered (s.run.1.register now route role s.run.2.length).2 :=
      List.mem_or_eq_of_mem_set hd
    exact h.reading d (hcases.resolve_right (by simp))
  · intro k a b hpair
    rcases hpairs hpair with hold | rfl
    · obtain ⟨hab, hba⟩ := h.carries k a b hold
      have hle := (hadmits.tracks.matched k a b hold).le
      rw [← h.length_eq] at hle
      have ha : a < s.connections.length := by omega
      have hb : b < s.connections.length := by omega
      exact ⟨hab.congr (hcalls a) (map_concat_of_lt ha) (map_concat_of_lt hb),
        hba.congr (hcalls b) (map_concat_of_lt hb) (map_concat_of_lt ha)⟩
    · -- one connection is the new one, and the other was in no pair
      have hfree (k c d : ℕ) (hk : s.run.2.Pairs k c d) : a ≠ c ∧ a ≠ d ∧ b ≠ c ∧ b ≠ d :=
        htracks.disjoint _ a b k c d hpair (Admits.pairs_of_pairs hk _)
          (hadmits.tracks.matched k c d hk).le.2.2.ne'
      obtain ⟨-, -, -, -, -, -, -, ⟨hlt, heq, -⟩ | ⟨hlt, heq, -⟩⟩ := htracks.matched _ a b hpair
      · have ha := hwaits a (heq ▸ hlt) fun k c d hk ↦
          ⟨(hfree k c d hk).1, (hfree k c d hk).2.1⟩
        rw [heq] at hnew
        exact ⟨ha.carries hnew, hnew.carries ha⟩
      · have hb := hwaits b (heq ▸ hlt) fun k c d hk ↦ (hfree k c d hk).2.2
        rw [heq] at hnew
        exact ⟨hnew.carries hb, hb.carries hnew⟩
  · intro j hj hfree
    change j < connections.length at hj
    rw [hconnections, List.length_append, h.length_eq] at hj
    rcases Nat.lt_succ_iff_lt_or_eq.mp hj with hlt | rfl
    · exact hwaits j hlt fun k a b hk ↦ hfree k a b (Admits.pairs_of_pairs hk _)
    · exact hnew

/-- **A step keeps the channels.** -/
theorem step (h : Conveys s) (hadmits : Admits limits s) (hstep : Step limits s s') :
    Conveys s' := by
  cases hstep with
  | dropped => exact h
  | spawned hacquire =>
    refine ⟨h.length_eq, fun c hc ↦ ?_, h.carries, h.waits⟩
    rcases List.mem_append.mp hc with hmem | hmem
    · exact h.reading c hmem
    · obtain rfl := RelayThread.reading.inj (List.mem_singleton.mp hmem)
      exact ⟨rfl, rfl⟩
  | sent hi hsends => exact h.sent hi hsends
  | sentOn hk hsends => exact h.sentOn hk hsends
  | entered hi hread hparse => exact h.entered hadmits hi hread hparse
  | moved hi hmoves =>
    refine h.become fun c ↦ ?_
    cases hmoves with
    | released outcome =>
      rcases outcome with error | _ | ⟨a, b⟩
      all_goals exact RelayThread.noConfusion
    | _ => exact RelayThread.noConfusion
  | @copied _ _ _ _ _ _ _ _ _ _ writer _ _ hi hends hreader hwriter hbroken hread =>
    obtain ⟨k, hpair⟩ := hadmits.held _ (List.mem_of_getElem? hi) _ _ rfl
    have htaken := h.taken hadmits hpair hends hreader hwriter hread List.prefix_rfl writer.broken
      (fun hb ↦ absurd hbroken (by rw [hb]; decide)) fun hb ↦ ⟨hb, rfl⟩
    exact htaken.become fun c ↦ RelayThread.noConfusion
  | torn hi hends hreader hwriter hread hpart hbroken =>
    obtain ⟨k, hpair⟩ := hadmits.held _ (List.mem_of_getElem? hi) _ _ rfl
    have htaken := h.taken hadmits hpair hends hreader hwriter hread hpart true hbroken
      fun hb ↦ absurd hb (by decide)
    exact htaken.become fun c ↦ RelayThread.noConfusion
  | shut hi hends hreader hwriter hbroken hended hshort =>
    obtain ⟨k, hpair⟩ := hadmits.held _ (List.mem_of_getElem? hi) _ _ rfl
    exact (h.shut hadmits hpair hends hreader hwriter hbroken hended hshort).become fun c ↦
      RelayThread.noConfusion

end Conveys

theorem Reachable.conveys (h : Reachable limits s) : Conveys s := by
  have hboth : Admits limits s ∧ Conveys s := by
    refine Transition.invariant (I := fun s ↦ Admits limits s ∧ Conveys s) ?_
      ⟨.start limits, .start limits⟩ h
    rintro s t ⟨hadmits, hconveys⟩ ⟨action, hnext⟩
    have hstep := step_of_next hnext
    exact ⟨hadmits.step hstep, hconveys.step hadmits hstep⟩
  exact hboth.2

/-! ## What a client receives -/

/-- The calls that a pair was made of, from either side. -/
theorem Reachable.counterparts (h : Reachable limits s) {k a b : ℕ}
    (hpair : s.run.2.Pairs k a b ∨ s.run.2.Pairs k b a) :
    ∃ x y, s.run.2.call? a = some x ∧ s.run.2.call? b = some y ∧ x.route = y.route ∧
      x.role ≠ y.role := by
  have hmatched := h.admits.tracks.matched
  rcases hpair with hab | hba
  · obtain ⟨x, y, hx, hy, hsender, hreceiver, hroute, -⟩ := hmatched k a b hab
    refine ⟨x, y, hx, hy, hroute, ?_⟩
    rw [hsender, hreceiver]
    decide
  · obtain ⟨x, y, hx, hy, hsender, hreceiver, hroute, -⟩ := hmatched k b a hba
    refine ⟨y, x, hy, hx, hroute.symm, ?_⟩
    rw [hsender, hreceiver]
    decide

/-- The channel between two connections of a pair, in terms of what each has sent and received. -/
theorem Reachable.channel (h : Reachable limits s) {k a b : ℕ} {cb : Connection}
    (hpair : s.run.2.Pairs k a b ∨ s.run.2.Pairs k b a) (hb : s.connections[b]? = some cb) :
    ∃ (ca : Connection) (call : Registration) (registration : List UInt8)
        (payloads : List (List UInt8)),
      s.connections[a]? = some ca ∧ s.run.2.call? a = some call ∧
      parseRegistration registration = .ok (call.route, call.role) ∧
      ca.sent = frame 4 registration ++ payloads.flatMap (frame 4) ++ ca.unread ∧
      cb.received <+: payloads.flatMap (frame 4) ∧
      (cb.broken = false → cb.received = payloads.flatMap (frame 4)) ∧
      (cb.shutdown = true → ca.ended = true ∧ ca.unread.length < 4 ∧
        cb.received = payloads.flatMap (frame 4)) ∧
      ∀ payload ∈ payloads, payload.length ≤ maxFrameLength := by
  have hcarries : Carries s.run.2 s.connections a b := by
    rcases hpair with hab | hba
    · exact (h.conveys.carries k a b hab).1
    · exact (h.conveys.carries k b a hba).2
  obtain ⟨payloads, received, unread, ended, shutdown, broken, ⟨call, registration, hcall, hparse,
    hincoming⟩, hreceived, hrest⟩ := hcarries
  obtain ⟨ca, ha, hca⟩ := Option.map_eq_some_iff.mp hincoming
  rw [Connection.incoming, Prod.mk.injEq, Prod.mk.injEq] at hca
  rw [hb, Option.map_some, Option.some_inj, Connection.outgoing, Prod.mk.injEq,
    Prod.mk.injEq] at hreceived
  obtain ⟨hsent, rfl, rfl⟩ := hca
  obtain ⟨rfl, rfl, rfl⟩ := hreceived
  exact ⟨ca, call, registration, payloads, ha, hcall, hparse, hsent, hrest⟩

/-- **A client receives what its counterpart sends, and nothing else.** At every moment of a relay,
a connection that was handed over either is in no pair, and then nothing was written to it; or it is
paired with a connection for the same route in the other role. What was written to it are then whole
frames, in order, of what that client has sent after its registration, except that a write that
failed may have broken off the last of them; and it is shut down only after the other client has
stopped sending and all frames were passed on. -/
theorem connection_receives_counterpart (h : Reachable limits s) {b : ℕ} {cb : Connection}
    (hb : s.connections[b]? = some cb) :
    (cb.received = [] ∧ cb.shutdown = false ∧ ∀ k x y, s.run.2.Pairs k x y → b ≠ x ∧ b ≠ y) ∨
    ∃ (k a : ℕ) (ca : Connection) (x y : Registration) (registration : List UInt8)
        (payloads : List (List UInt8)), (s.run.2.Pairs k a b ∨ s.run.2.Pairs k b a) ∧
      s.connections[a]? = some ca ∧ s.run.2.call? a = some x ∧ s.run.2.call? b = some y ∧
      x.route = y.route ∧ x.role ≠ y.role ∧
      parseRegistration registration = .ok (x.route, x.role) ∧
      ca.sent = frame 4 registration ++ payloads.flatMap (frame 4) ++ ca.unread ∧
      cb.received <+: payloads.flatMap (frame 4) ∧
      (cb.broken = false → cb.received = payloads.flatMap (frame 4)) ∧
      (cb.shutdown = true → ca.ended = true ∧ ca.unread.length < 4 ∧
        cb.received = payloads.flatMap (frame 4)) ∧
      ∀ payload ∈ payloads, payload.length ≤ maxFrameLength := by
  have hlt := (List.getElem?_eq_some_iff.mp hb).1
  by_cases hfree : ∀ k x y, s.run.2.Pairs k x y → b ≠ x ∧ b ≠ y
  · obtain ⟨unread, ended, -, hreceived⟩ := h.conveys.waits b hlt hfree
    rw [hb, Option.map_some, Option.some_inj, Connection.outgoing, Prod.mk.injEq,
      Prod.mk.injEq] at hreceived
    exact .inl ⟨hreceived.1, hreceived.2.1, hfree⟩
  · -- the number of the other connection
    obtain ⟨k, a, hpair⟩ : ∃ k a, s.run.2.Pairs k a b ∨ s.run.2.Pairs k b a := by
      by_contra hnone
      refine hfree fun k x y hxy ↦ ⟨?_, ?_⟩
      · rintro rfl
        exact hnone ⟨k, y, .inr hxy⟩
      · rintro rfl
        exact hnone ⟨k, x, .inl hxy⟩
    obtain ⟨ca, call, registration, payloads, ha, hcall, hparse, hrest⟩ := h.channel hpair hb
    obtain ⟨x, y, hx, hy, hroute, hrole⟩ := h.counterparts hpair
    obtain rfl : call = x := Option.some.inj (hcall.symm.trans hx)
    exact .inr ⟨k, a, ca, call, y, registration, payloads, hpair, ha, hcall, hy, hroute, hrole,
      hparse, hrest⟩

/-- The connection of the sender after the conversation. -/
def speaker (frames : List (List UInt8)) : Connection where
  sent := frame 4 (registrationBytes (Codec.utf8 "r") .sender) ++ frames.flatMap (frame 4)
  unread := []
  ended := true
  received := []
  shutdown := false
  broken := false

/-- The connection of the receiver after the conversation. -/
def listener (frames : List (List UInt8)) : Connection where
  sent := frame 4 (registrationBytes (Codec.utf8 "r") .receiver)
  unread := []
  ended := false
  received := frames.flatMap (frame 4)
  shutdown := true
  broken := false

/-- What is to be seen of the conversation. -/
def Heard (frames : List (List UInt8)) : Prop :=
  (Transition.run (next .default) (start .default) (conversation frames)).map
    (fun s ↦ (s.connections, s.run.2[1]?.map Prod.snd)) =
      some ([speaker frames, listener frames], some (.ok (some (0, 1))))

instance (frames : List (List UInt8)) : Decidable (Heard frames) :=
  inferInstanceAs (Decidable (_ = _))

theorem exists_conversation {frames : List (List UInt8)} (h : Heard frames) :
    ∃ s, Reachable .default s ∧ s.connections[0]? = some (speaker frames) ∧
      s.connections[1]? = some (listener frames) ∧ s.run.2.Pairs 1 0 1 := by
  obtain ⟨s, hrun, hseen⟩ := Option.map_eq_some_iff.mp h
  obtain ⟨hconnections, hpair⟩ := Prod.mk.inj hseen
  refine ⟨s, Transition.reflTransGen_of_run hrun, ?_, ?_, hpair⟩
  · rw [hconnections]
    rfl
  · rw [hconnections]
    rfl

theorem heard_seven : Heard [[7]] := by decide +kernel

theorem connection_receives_counterpart_conversation :
    ∃ (s : RelayService) (ca : Connection) (a : ℕ), Reachable .default s ∧
      s.connections[1]? = some (listener [[7]]) ∧ s.connections[a]? = some ca ∧
      ca.ended = true := by
  obtain ⟨s, hreach, -, hb, -⟩ := exists_conversation heard_seven
  obtain ⟨hnone, -⟩ | ⟨k, a, ca, x, y, registration, payloads, -, ha, -, -, -, -, -, -, -, -, hend,
    -⟩ := connection_receives_counterpart hreach hb
  · exact absurd hnone (by decide)
  · exact ⟨s, ca, a, hreach, hb, ha, (hend rfl).1⟩

/-- A registration is a short frame. -/
theorem length_le_of_parseRegistration {registration : List UInt8} {route : String}
    {role : RelayRole} (h : parseRegistration registration = .ok (route, role)) :
    registration.length ≤ Net.framing.limit := by
  obtain ⟨hallowed, rfl⟩ := parseRegistration_eq_ok_iff.mp h
  have hlt := length_lt_of_routeAllowed hallowed
  have hword : (Codec.beBytes 2 (Codec.utf8 route).length).length = 2 := Codec.length_beBytes hlt
  rw [registrationBytes, List.length_append, List.length_cons, List.length_append, hword,
    length_registrationHeader]
  change _ ≤ 1024 * 1024
  omega

/-- A client begins with a frame. -/
theorem frame_of_register {route : String} {role : RelayRole} {registered : List UInt8}
    (h : Net.register route role = .ok registered) :
    ∃ registration, registration.length ≤ Net.framing.limit ∧
      registered = frame 4 registration := by
  obtain ⟨registration, -, hframe⟩ := Outcome.bind_eq_ok_iff.mp h
  have hwrite := Outcome.mapError_eq_ok_iff.mp hframe
  exact ⟨registration, Framing.writeFrame_eq_ok_iff.mp hwrite⟩

/-- What arrives on one connection, if the other is used by a client that registers and then sends
frames. -/
theorem Reachable.received_of_sent (h : Reachable limits s) {k a b : ℕ} {ca cb : Connection}
    (hpair : s.run.2.Pairs k a b ∨ s.run.2.Pairs k b a) (ha : s.connections[a]? = some ca)
    (hb : s.connections[b]? = some cb) {route : String} {role : RelayRole}
    {registered : List UInt8} {frames : List (List UInt8)}
    (hregister : Net.register route role = .ok registered)
    (hall : ∀ payload ∈ frames, payload.length ≤ Net.framing.limit)
    (hsent : ca.sent <+: registered ++ frames.flatMap (frame 4)) :
    cb.received <+: frames.flatMap (frame 4) ∧
      (cb.shutdown = true → ca.sent = registered ++ frames.flatMap (frame 4) →
        cb.received = frames.flatMap (frame 4)) := by
  obtain ⟨ca', call, registration, payloads, ha', -, hparse, hca, hpart, -, hend, hlimit⟩ :=
    h.channel hpair hb
  obtain rfl : ca' = ca := Option.some.inj (ha'.symm.trans ha)
  obtain ⟨registration', hle, rfl⟩ := frame_of_register hregister
  -- what follows the registration is the same on both sides
  have hframes {tail : List UInt8} (htail : ca'.sent ++ tail =
      frame 4 registration' ++ frames.flatMap (frame 4)) :
      payloads.flatMap (frame 4) ++ (ca'.unread ++ tail) = frames.flatMap (frame 4) := by
    rw [hca, List.append_assoc, List.append_assoc] at htail
    exact (Framing.frame_append_inj (length_le_of_parseRegistration hparse) hle htail).2
  constructor
  · obtain ⟨tail, htail⟩ := hsent
    exact hpart.trans ⟨_, hframes htail⟩
  · intro hshutdown hsame
    obtain ⟨-, hshort, hreceived⟩ := hend hshutdown
    have hwhole := hframes ((List.append_nil _).trans hsame)
    rw [List.append_nil] at hwhole
    -- less than a length is left, so the frames are all there
    have hread : Net.framing.readAll (frames.flatMap (frame 4)) = (payloads, .ok ()) :=
      Framing.readAll_eq_ok_iff.mpr ⟨hlimit, ca'.unread, hshort, hwhole.symm⟩
    rw [Framing.readAll_of_writeAll (Framing.writeAll_eq_ok_iff.mpr ⟨hall, rfl⟩)] at hread
    obtain rfl : frames = payloads := (Prod.mk.inj hread).1
    exact hreceived

/-- **Two transports that registered for one route talk to each other.** If one of them writes its
registration and then frames, then at every moment the other reads a first part of these frames; and
when the relay has shut it down and the first one has written everything, it reads exactly these
frames and then the end. -/
theorem transports_exchange_frames (h : Reachable limits s) {k a b : ℕ} {ca cb : Connection}
    (hpair : s.run.2.Pairs k a b ∨ s.run.2.Pairs k b a) (ha : s.connections[a]? = some ca)
    (hb : s.connections[b]? = some cb) {route : String} {role : RelayRole}
    {registered written : List UInt8} {frames : List (List UInt8)}
    (hregister : Net.register route role = .ok registered)
    (hwritten : frames.foldlM Net.writeFrame registered = .ok written)
    (hsent : ca.sent <+: written) :
    (Net.framing.readAll cb.received).1 <+: frames ∧
      (cb.shutdown = true → ca.sent = written →
        Net.framing.readAll cb.received = (frames, .ok ())) := by
  obtain ⟨hall, rfl⟩ := Framing.foldlM_writeFrame_eq_ok_iff.mp hwritten
  obtain ⟨hpart, hwhole⟩ := h.received_of_sent hpair ha hb hregister hall hsent
  refine ⟨Framing.readAll_isPrefix hall hpart, fun hshutdown hsame ↦ ?_⟩
  rw [hwhole hshutdown hsame]
  exact Framing.readAll_of_writeAll (Framing.writeAll_eq_ok_iff.mpr ⟨hall, rfl⟩)

theorem register_route :
    Net.register "r" .sender = .ok (frame 4 (registrationBytes (Codec.utf8 "r") .sender)) := by
  decide +kernel

theorem transports_exchange_frames_conversation :
    ∃ s, Reachable .default s ∧ s.connections[0]? = some (speaker [[7]]) ∧
      s.connections[1]? = some (listener [[7]]) ∧
      Net.framing.readAll (listener [[7]]).received = ([[7]], .ok ()) := by
  obtain ⟨s, hreach, ha, hb, hpair⟩ := exists_conversation heard_seven
  exact ⟨s, hreach, ha, hb, (transports_exchange_frames hreach (.inl hpair) ha hb register_route
    rfl List.prefix_rfl).2 rfl rfl⟩

end RelayService

end TripTorrent.Relay
