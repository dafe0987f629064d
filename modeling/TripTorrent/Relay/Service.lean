import TripTorrent.Queueing.Permits
import TripTorrent.Relay.Pairing
import TripTorrent.Transition.Threads

/-!
# The relay service

Each accepted connection is served by a thread, which reads a registration and hands the connection
over to the table. The thread that completes a route goes on to forward its two connections, in both
directions at once. There are limits for the threads that are still registering and for the pairs
that are forwarding, and each is a counter that threads raise and lower.

A connection is a stream of bytes in each direction. The client may send, and stop sending, at any
time; a thread that reads waits until the frame is complete or the client has stopped. A connection
that has been handed over is named by the number of that call, as in a run of `register`, so its
place in `connections` is this number.

Reads, writes and the setting of timeouts may fail at any moment; a failure to clone a stream is a
failure of both directions before anything was copied. A write that fails may have written a part of
its frame, and breaks the connection. The relay stops when its listener fails, and this is the end
of the run. Nothing panics while it holds the table.
-/

namespace TripTorrent.Relay

open Codec (frame)
open Queueing (tryAcquire Counted)
open Transition (Exclusive)

/-! ## Connections -/

/-- A connection, seen from the relay. -/
structure Connection where
  /-- All that the client has sent. -/
  sent : List UInt8
  /-- What the relay has not read of it. -/
  unread : List UInt8
  /-- The client does not send any more. -/
  ended : Bool
  /-- What the relay has written. -/
  received : List UInt8
  /-- The relay does not write any more. -/
  shutdown : Bool
  /-- A write has failed. -/
  broken : Bool
deriving DecidableEq

namespace Connection

def new : Connection := ⟨[], [], false, [], false, false⟩

def send (c : Connection) (bytes : List UInt8) : Connection :=
  { c with sent := c.sent ++ bytes, unread := c.unread ++ bytes }

/-- `read_frame`, unless it would wait for the client. What is left after an error or at the end is
not read by anyone. -/
def readFrame (c : Connection) : Option (Except IoError (Option (List UInt8)) × Connection) :=
  match Relay.readFrame c.unread with
  | .ok (some (payload, rest)) => some (.ok (some payload), { c with unread := rest })
  | .ok none => if c.ended then some (.ok none, c) else none
  | .error error =>
    if c.ended ∨ error.kind ≠ .unexpectedEof then some (.error error, c) else none

/-- `write_frame` to a connection that takes what is written, unless it is broken -/
def writeFrame (c : Connection) (payload : List UInt8) : Except IoError Connection :=
  if c.broken then .error ⟨.other, "broken pipe"⟩
  else (Relay.writeFrame c.received payload).map fun received ↦ { c with received }

/-- `shutdown` -/
def shutDown (c : Connection) : Except IoError Connection :=
  if c.broken then .error ⟨.other, "broken pipe"⟩ else .ok { c with shutdown := true }

/-- The first bytes of a frame were written when the write failed. -/
def tear (c : Connection) (written : List UInt8) : Connection :=
  { c with received := c.received ++ written, broken := true }

/-- `read_registration`, unless it would wait for the client. -/
def readRegistration (c : Connection) :
    Option (Except IoError (String × RelayRole) × Connection) :=
  match c.readFrame with
  | none => none
  | some (.ok (some payload), c) => some (parseRegistration payload, c)
  | some (.ok none, c) => some (.error ⟨.unexpectedEof, "missing relay registration"⟩, c)
  | some (.error error, c) => some (.error error, c)

/-- The client sends, or stops sending. -/
def Sends (c c' : Connection) : Prop :=
  (c.ended = false ∧ ∃ bytes, c' = c.send bytes) ∨ c' = { c with ended := true }

/-- What is read off a connection, if nothing is waited for. -/
theorem readFrame_cases {c c' : Connection} {outcome : Except IoError (Option (List UInt8))}
    (h : c.readFrame = some (outcome, c')) :
    (∃ payload rest, Relay.readFrame c.unread = .ok (some (payload, rest)) ∧
      outcome = .ok (some payload) ∧ c' = { c with unread := rest }) ∨
    (c.unread.length < 4 ∧ c.ended = true ∧ outcome = .ok none) ∨
    ∃ error, outcome = .error error := by
  rw [readFrame] at h
  rcases hread : Relay.readFrame c.unread with error | _ | ⟨payload, rest⟩
  · rw [hread] at h
    dsimp only at h
    split_ifs at h
    exact .inr (.inr ⟨error, (Prod.mk.inj (Option.some.inj h)).1.symm⟩)
  · rw [hread] at h
    dsimp only at h
    split_ifs at h with hended
    obtain ⟨rfl, -⟩ := Prod.mk.inj (Option.some.inj h)
    exact .inr (.inl ⟨Framing.readFrame_eq_none_iff.mp hread, hended, rfl⟩)
  · rw [hread] at h
    obtain ⟨rfl, rfl⟩ := Prod.mk.inj (Option.some.inj h)
    exact .inl ⟨payload, rest, rfl, rfl, rfl⟩

theorem of_readRegistration {c c' : Connection} {route : String} {role : RelayRole}
    (h : c.readRegistration = some (.ok (route, role), c')) :
    ∃ payload rest, Relay.readFrame c.unread = .ok (some (payload, rest)) ∧
      parseRegistration payload = .ok (route, role) ∧ c' = { c with unread := rest } := by
  rw [readRegistration] at h
  rcases hframe : c.readFrame with _ | ⟨outcome, reader⟩
  · rw [hframe] at h
    cases h
  · rw [hframe] at h
    rcases readFrame_cases hframe with
      ⟨payload, rest, hread, rfl, rfl⟩ | ⟨-, -, rfl⟩ | ⟨error, rfl⟩
    · obtain ⟨hparse, rfl⟩ := Prod.mk.inj (Option.some.inj h)
      exact ⟨payload, rest, hread, hparse, rfl⟩
    · cases (Prod.mk.inj (Option.some.inj h)).1
    · cases (Prod.mk.inj (Option.some.inj h)).1

end Connection

/-! ## Threads -/

inductive RelayThread where
  /-- Reads the registration. -/
  | reading (connection : Connection)
  /-- Has registered, and counts as registering still. -/
  | registered (outcome : Except IoError (Option (ℕ × ℕ)))
  /-- Has completed a route. -/
  | paired (sender receiver : ℕ)
  /-- Copies from the sender, and to it. -/
  | forwarding (sender receiver : ℕ) (outward inward : Bool)
  | ended

namespace RelayThread

def isRegistering : RelayThread → Bool
  | reading _ => true
  | registered _ => true
  | _ => false

def isForwarding : RelayThread → Bool
  | forwarding _ _ _ _ => true
  | _ => false

/-- The pair that a thread works on. -/
def pair? : RelayThread → Option (ℕ × ℕ)
  | registered (.ok pair?) => pair?
  | paired sender receiver => some (sender, receiver)
  | forwarding sender receiver _ _ => some (sender, receiver)
  | _ => none

def streams (thread : RelayThread) : List ℕ :=
  match thread.pair? with
  | some (sender, receiver) => [sender, receiver]
  | none => []

/-- What becomes of a thread after it has registered. -/
def afterRelease : Except IoError (Option (ℕ × ℕ)) → RelayThread
  | .ok (some (sender, receiver)) => .paired sender receiver
  | _ => .ended

end RelayThread

/-- All of `RelayLimits`. -/
structure ServiceLimits extends RelayLimits where
  maxActivePairs : ℕ
  maxRegistrationConnections : ℕ

/-- `RelayLimits::default`, in milliseconds -/
def ServiceLimits.default : ServiceLimits := ⟨⟨1024, 30000⟩, 256, 256⟩

structure RelayService where
  /-- The table, and the calls that were made of it. -/
  run : RelayState ℕ × Log
  connections : List Connection
  registrations : ℕ
  active : ℕ
  threads : List RelayThread

/-! ## Steps -/

inductive ServiceAction where
  | accept
  /-- The client of a connection that is registering sends, or stops sending. -/
  | send (thread : ℕ) (bytes : List UInt8)
  | finish (thread : ℕ)
  /-- The client of a connection that was handed over sends, or stops sending. -/
  | sendOn (connection : ℕ) (bytes : List UInt8)
  | finishOn (connection : ℕ)
  /-- Reading failed, or setting a timeout. -/
  | fail (thread : ℕ) (error : IoError)
  | register (thread now : ℕ)
  | release (thread : ℕ)
  | acquire (thread : ℕ)
  | copyOutward (thread : ℕ)
  | copyInward (thread : ℕ)
  /-- Reading or writing failed in a direction. -/
  | failOutward (thread : ℕ)
  | failInward (thread : ℕ)
  /-- Writing failed after some bytes of a frame. -/
  | tearOutward (thread written : ℕ)
  | tearInward (thread written : ℕ)
  | close (thread : ℕ)

namespace RelayService

def start (limits : ServiceLimits) : RelayService where
  run := (.new limits.toRelayLimits, [])
  connections := []
  registrations := 0
  active := 0
  threads := []

variable (limits : ServiceLimits) (s : RelayService)

/-- The thread goes on as another. -/
def become (i : ℕ) (thread : RelayThread) : RelayService :=
  { s with threads := s.threads.set i thread }

/-- A thread has read its registration, and the connection goes to the table. -/
def enter (i now : ℕ) (route : String) (role : RelayRole) (connection : Connection) :
    RelayService :=
  let (state, outcome) := s.run.1.register now route role s.run.2.length
  { s with
    run := (state, s.run.2 ++ [(⟨route, role, now⟩, outcome)])
    connections := s.connections ++ [connection]
    threads := s.threads.set i (.registered outcome) }

/-- What was read off one connection went to another. -/
def exchange (source destination : ℕ) (reader writer : Connection) : RelayService :=
  { s with connections := (s.connections.set source reader).set destination writer }

/-- One round of `forward`, and whether it goes on; unless it would wait. -/
def copy (source destination : ℕ) : Option (RelayService × Bool) := do
  let reader ← s.connections[source]?
  let writer ← s.connections[destination]?
  match ← reader.readFrame with
  | (.error _, _) => some (s, false)
  | (.ok none, _) =>
    match writer.shutDown with
    | .error _ => some (s, false)
    | .ok writer => some ({ s with connections := s.connections.set destination writer }, false)
  | (.ok (some payload), reader) =>
    match writer.writeFrame payload with
    | .error _ => some (s.exchange source destination reader (writer.tear []), false)
    | .ok writer => some (s.exchange source destination reader writer, true)

/-- A round of `forward` in which the write fails after some bytes. -/
def tear (source destination written : ℕ) : Option RelayService := do
  let reader ← s.connections[source]?
  let writer ← s.connections[destination]?
  match ← reader.readFrame with
  | (.ok (some payload), reader) =>
    if writer.broken then none
    else some (s.exchange source destination reader (writer.tear ((frame 4 payload).take written)))
  | _ => none

def next : ServiceAction → Option RelayService
  | .accept =>
    match tryAcquire s.registrations limits.maxRegistrationConnections with
    -- the connection is dropped
    | none => some s
    | some registrations =>
      some { s with registrations, threads := s.threads ++ [.reading .new] }
  | .send i bytes =>
    match s.threads[i]? with
    | some (.reading connection) =>
      if connection.ended then none else some (s.become i (.reading (connection.send bytes)))
    | _ => none
  | .finish i =>
    match s.threads[i]? with
    | some (.reading connection) => some (s.become i (.reading { connection with ended := true }))
    | _ => none
  | .sendOn k bytes =>
    match s.connections[k]? with
    | some connection =>
      if connection.ended then none
      else some { s with connections := s.connections.set k (connection.send bytes) }
    | none => none
  | .finishOn k =>
    match s.connections[k]? with
    | some connection =>
      some { s with connections := s.connections.set k { connection with ended := true } }
    | none => none
  | .fail i error =>
    match s.threads[i]? with
    | some (.reading _) => some (s.become i (.registered (.error error)))
    | _ => none
  | .register i now =>
    match s.threads[i]? with
    | some (.reading connection) =>
      match connection.readRegistration with
      | none => none
      | some (.error error, _) => some (s.become i (.registered (.error error)))
      | some (.ok (route, role), connection) => some (s.enter i now route role connection)
    | _ => none
  | .release i =>
    match s.threads[i]? with
    | some (.registered outcome) =>
      some ({ s with registrations := s.registrations - 1 }.become i (.afterRelease outcome))
    | _ => none
  | .acquire i =>
    match s.threads[i]? with
    | some (.paired sender receiver) =>
      match tryAcquire s.active limits.maxActivePairs with
      -- both connections are dropped
      | none => some (s.become i .ended)
      | some active =>
        some ({ s with active }.become i (.forwarding sender receiver true true))
    | _ => none
  | .copyOutward i =>
    match s.threads[i]? with
    | some (.forwarding sender receiver true inward) =>
      (s.copy sender receiver).map fun (s, goesOn) ↦
        s.become i (.forwarding sender receiver goesOn inward)
    | _ => none
  | .copyInward i =>
    match s.threads[i]? with
    | some (.forwarding sender receiver outward true) =>
      (s.copy receiver sender).map fun (s, goesOn) ↦
        s.become i (.forwarding sender receiver outward goesOn)
    | _ => none
  | .failOutward i =>
    match s.threads[i]? with
    | some (.forwarding sender receiver _ inward) =>
      some (s.become i (.forwarding sender receiver false inward))
    | _ => none
  | .failInward i =>
    match s.threads[i]? with
    | some (.forwarding sender receiver outward _) =>
      some (s.become i (.forwarding sender receiver outward false))
    | _ => none
  | .tearOutward i written =>
    match s.threads[i]? with
    | some (.forwarding sender receiver true inward) =>
      (s.tear sender receiver written).map fun s ↦
        s.become i (.forwarding sender receiver false inward)
    | _ => none
  | .tearInward i written =>
    match s.threads[i]? with
    | some (.forwarding sender receiver outward true) =>
      (s.tear receiver sender written).map fun s ↦
        s.become i (.forwarding sender receiver outward false)
    | _ => none
  | .close i =>
    match s.threads[i]? with
    | some (.forwarding _ _ false false) =>
      some ({ s with active := s.active - 1 }.become i .ended)
    | _ => none

/-! ## What a step can do -/

/-- A thread goes on alone, and this is what the counters are afterwards. -/
inductive Moves : RelayThread → RelayThread → ℕ → ℕ → Prop
  | failed (c : Connection) (error : IoError) :
    Moves (.reading c) (.registered (.error error)) s.registrations s.active
  | released (outcome : Except IoError (Option (ℕ × ℕ))) :
    Moves (.registered outcome) (.afterRelease outcome) (s.registrations - 1) s.active
  | refused (a b : ℕ) : Moves (.paired a b) .ended s.registrations s.active
  | admitted (a b : ℕ) {active : ℕ} (h : tryAcquire s.active limits.maxActivePairs = some active) :
    Moves (.paired a b) (.forwarding a b true true) s.registrations active
  | stopped (a b : ℕ) (outward inward outward' inward' : Bool) :
    Moves (.forwarding a b outward inward) (.forwarding a b outward' inward') s.registrations
      s.active
  | closed (a b : ℕ) (outward inward : Bool) :
    Moves (.forwarding a b outward inward) .ended s.registrations (s.active - 1)

/-- The two ends of a direction. -/
def Ends (a b source destination : ℕ) : Prop :=
  source = a ∧ destination = b ∨ source = b ∧ destination = a

inductive Step : RelayService → Prop
  | dropped : Step s
  | spawned {registrations : ℕ}
      (h : tryAcquire s.registrations limits.maxRegistrationConnections = some registrations) :
    Step { s with registrations, threads := s.threads ++ [.reading .new] }
  | sent {i : ℕ} {c c' : Connection} (hi : s.threads[i]? = some (.reading c)) (h : c.Sends c') :
    Step (s.become i (.reading c'))
  | sentOn {k : ℕ} {c c' : Connection} (hk : s.connections[k]? = some c) (h : c.Sends c') :
    Step { s with connections := s.connections.set k c' }
  | entered {i now : ℕ} {c : Connection} {route : String} {role : RelayRole}
      {payload rest : List UInt8} (hi : s.threads[i]? = some (.reading c))
      (hread : readFrame c.unread = .ok (some (payload, rest)))
      (hparse : parseRegistration payload = .ok (route, role)) :
    Step (s.enter i now route role { c with unread := rest })
  | moved {i registrations active : ℕ} {thread thread' : RelayThread}
      (hi : s.threads[i]? = some thread) (h : s.Moves limits thread thread' registrations active) :
    Step ({ s with registrations, active }.become i thread')
  | copied {i a b source destination : ℕ} {outward inward outward' inward' : Bool}
      {reader writer : Connection} {payload rest : List UInt8}
      (hi : s.threads[i]? = some (.forwarding a b outward inward))
      (hends : Ends a b source destination) (hreader : s.connections[source]? = some reader)
      (hwriter : s.connections[destination]? = some writer) (hbroken : writer.broken = false)
      (hread : readFrame reader.unread = .ok (some (payload, rest))) :
    Step ((s.exchange source destination { reader with unread := rest }
      { writer with received := writer.received ++ frame 4 payload }).become i
        (.forwarding a b outward' inward'))
  | torn {i a b source destination : ℕ} {outward inward outward' inward' : Bool}
      {reader writer : Connection} {payload rest written : List UInt8}
      (hi : s.threads[i]? = some (.forwarding a b outward inward))
      (hends : Ends a b source destination) (hreader : s.connections[source]? = some reader)
      (hwriter : s.connections[destination]? = some writer)
      (hread : readFrame reader.unread = .ok (some (payload, rest)))
      (hpart : written <+: frame 4 payload) (hbroken : writer.broken = true → written = []) :
    Step ((s.exchange source destination { reader with unread := rest }
      (writer.tear written)).become i (.forwarding a b outward' inward'))
  | shut {i a b source destination : ℕ} {outward inward outward' inward' : Bool}
      {reader writer : Connection} (hi : s.threads[i]? = some (.forwarding a b outward inward))
      (hends : Ends a b source destination) (hreader : s.connections[source]? = some reader)
      (hwriter : s.connections[destination]? = some writer) (hbroken : writer.broken = false)
      (hended : reader.ended = true) (hshort : reader.unread.length < 4) :
    Step ({ s with
        connections := s.connections.set destination { writer with shutdown := true } }.become i
      (.forwarding a b outward' inward'))

variable {limits s} {s' : RelayService}

/-- A round of `forward`, as a step of its thread. -/
theorem step_of_copy {i a b source destination : ℕ} {outward inward : Bool} {goesOn : Bool}
    {t : RelayService} (hi : s.threads[i]? = some (.forwarding a b outward inward))
    (hends : Ends a b source destination) (h : s.copy source destination = some (t, goesOn))
    (outward' inward' : Bool) :
    Step limits s (t.become i (.forwarding a b outward' inward')) := by
  have hstopped : Step limits s (s.become i (.forwarding a b outward' inward')) :=
    .moved hi (.stopped a b outward inward outward' inward')
  simp only [copy, bind, Option.bind_eq_some_iff] at h
  obtain ⟨reader, hreader, writer, hwriter, ⟨outcome, reader'⟩, hframe, h⟩ := h
  rcases Connection.readFrame_cases hframe with
    ⟨payload, rest, hread, rfl, rfl⟩ | ⟨hshort, hended, rfl⟩ | ⟨error, rfl⟩
  · dsimp only at h
    rw [Connection.writeFrame] at h
    by_cases hbroken : writer.broken = true
    · rw [if_pos hbroken] at h
      obtain ⟨rfl, -⟩ := Prod.mk.inj (Option.some.inj h)
      exact .torn hi hends hreader hwriter hread List.nil_prefix fun _ ↦ rfl
    · -- a frame that was read can be written
      have hle := (Framing.readFrame_eq_some_iff.mp hread).1
      have hwrite : writeFrame writer.received payload = .ok (writer.received ++ frame 4 payload) :=
        Framing.writeFrame_eq_ok_iff.mpr ⟨hle, rfl⟩
      rw [if_neg hbroken, hwrite] at h
      obtain ⟨rfl, -⟩ := Prod.mk.inj (Option.some.inj h)
      exact .copied hi hends hreader hwriter (Bool.eq_false_of_not_eq_true hbroken) hread
  · dsimp only at h
    rw [Connection.shutDown] at h
    by_cases hbroken : writer.broken = true
    · rw [if_pos hbroken] at h
      obtain ⟨rfl, -⟩ := Prod.mk.inj (Option.some.inj h)
      exact hstopped
    · rw [if_neg hbroken] at h
      obtain ⟨rfl, -⟩ := Prod.mk.inj (Option.some.inj h)
      exact .shut hi hends hreader hwriter (Bool.eq_false_of_not_eq_true hbroken) hended hshort
  · obtain ⟨rfl, -⟩ := Prod.mk.inj (Option.some.inj h)
    exact hstopped

/-- A write that fails, as a step of its thread. -/
theorem step_of_tear {i a b source destination written : ℕ} {outward inward : Bool}
    {t : RelayService} (hi : s.threads[i]? = some (.forwarding a b outward inward))
    (hends : Ends a b source destination) (h : s.tear source destination written = some t)
    (outward' inward' : Bool) :
    Step limits s (t.become i (.forwarding a b outward' inward')) := by
  simp only [tear, bind, Option.bind_eq_some_iff] at h
  obtain ⟨reader, hreader, writer, hwriter, ⟨outcome, reader'⟩, hframe, h⟩ := h
  rcases Connection.readFrame_cases hframe with
    ⟨payload, rest, hread, rfl, rfl⟩ | ⟨-, -, rfl⟩ | ⟨error, rfl⟩
  · dsimp only at h
    split_ifs at h with hbroken
    obtain rfl := Option.some.inj h
    exact .torn hi hends hreader hwriter hread ( List.take_prefix _ _) fun hb ↦ absurd hb hbroken
  · cases h
  · cases h

/-- **What a step can do.** -/
theorem step_of_next {action : ServiceAction} (h : s.next limits action = some s') :
    Step limits s s' := by
  cases action with
  | accept =>
    simp only [next] at h
    split at h
    · obtain rfl := Option.some.inj h
      exact .dropped
    · rename_i registrations hacquire
      obtain rfl := Option.some.inj h
      exact .spawned hacquire
  | send i bytes =>
    simp only [next] at h
    split at h
    · rename_i c hi
      split_ifs at h with hended
      obtain rfl := Option.some.inj h
      exact .sent hi (.inl ⟨Bool.eq_false_of_not_eq_true hended, bytes, rfl⟩)
    · cases h
  | finish i =>
    simp only [next] at h
    split at h
    · rename_i c hi
      obtain rfl := Option.some.inj h
      exact .sent hi (.inr rfl)
    · cases h
  | sendOn k bytes =>
    simp only [next] at h
    split at h
    · rename_i c hk
      split_ifs at h with hended
      obtain rfl := Option.some.inj h
      exact .sentOn hk (.inl ⟨Bool.eq_false_of_not_eq_true hended, bytes, rfl⟩)
    · cases h
  | finishOn k =>
    simp only [next] at h
    split at h
    · rename_i c hk
      obtain rfl := Option.some.inj h
      exact .sentOn hk (.inr rfl)
    · cases h
  | fail i error =>
    simp only [next] at h
    split at h
    · rename_i c hi
      obtain rfl := Option.some.inj h
      exact .moved hi (.failed c error)
    · cases h
  | register i now =>
    simp only [next] at h
    split at h
    · rename_i c hi
      split at h
      · cases h
      · rename_i error _ _
        obtain rfl := Option.some.inj h
        exact .moved hi (.failed c error)
      · rename_i route role c' hregistration
        obtain rfl := Option.some.inj h
        obtain ⟨payload, rest, hread, hparse, rfl⟩ := Connection.of_readRegistration hregistration
        exact .entered hi hread hparse
    · cases h
  | release i =>
    simp only [next] at h
    split at h
    · rename_i outcome hi
      obtain rfl := Option.some.inj h
      exact .moved hi (.released outcome)
    · cases h
  | acquire i =>
    simp only [next] at h
    split at h
    · rename_i a b hi
      split at h
      · obtain rfl := Option.some.inj h
        exact .moved hi (.refused a b)
      · rename_i active hacquire
        obtain rfl := Option.some.inj h
        exact .moved hi (.admitted a b hacquire)
    · cases h
  | copyOutward i =>
    simp only [next] at h
    split at h
    · rename_i a b inward hi
      obtain ⟨⟨t, goesOn⟩, hcopy, rfl⟩ := Option.map_eq_some_iff.mp h
      exact step_of_copy hi (.inl ⟨rfl, rfl⟩) hcopy goesOn inward
    · cases h
  | copyInward i =>
    simp only [next] at h
    split at h
    · rename_i a b outward hi
      obtain ⟨⟨t, goesOn⟩, hcopy, rfl⟩ := Option.map_eq_some_iff.mp h
      exact step_of_copy hi (.inr ⟨rfl, rfl⟩) hcopy outward goesOn
    · cases h
  | failOutward i =>
    simp only [next] at h
    split at h
    · rename_i a b outward inward hi
      obtain rfl := Option.some.inj h
      exact .moved hi (.stopped a b outward inward false inward)
    · cases h
  | failInward i =>
    simp only [next] at h
    split at h
    · rename_i a b outward inward hi
      obtain rfl := Option.some.inj h
      exact .moved hi (.stopped a b outward inward outward false)
    · cases h
  | tearOutward i written =>
    simp only [next] at h
    split at h
    · rename_i a b inward hi
      obtain ⟨t, htear, rfl⟩ := Option.map_eq_some_iff.mp h
      exact step_of_tear hi (.inl ⟨rfl, rfl⟩) htear false inward
    · cases h
  | tearInward i written =>
    simp only [next] at h
    split at h
    · rename_i a b outward hi
      obtain ⟨t, htear, rfl⟩ := Option.map_eq_some_iff.mp h
      exact step_of_tear hi (.inr ⟨rfl, rfl⟩) htear outward false
    · cases h
  | close i =>
    simp only [next] at h
    split at h
    · rename_i a b hi
      obtain rfl := Option.some.inj h
      exact .moved hi (.closed a b false false)
    · cases h

/-! ## Permits and pairs -/

/-- The counters say how many threads there are of each kind, and a thread has its pair alone. -/
structure Admits (limits : ServiceLimits) (s : RelayService) : Prop where
  tracks : Tracks limits.toRelayLimits s.run.1 s.run.2
  registrations : Counted RelayThread.isRegistering limits.maxRegistrationConnections s.threads
    s.registrations
  active : Counted RelayThread.isForwarding limits.maxActivePairs s.threads s.active
  held : ∀ thread ∈ s.threads, ∀ a b, thread.pair? = some (a, b) → ∃ k, s.run.2.Pairs k a b
  exclusive : Exclusive RelayThread.streams s.threads

namespace Admits

theorem start (limits : ServiceLimits) : Admits limits (start limits) where
  tracks := .new _
  registrations := .nil _ _
  active := .nil _ _
  held := by
    intro thread hthread
    cases hthread
  exclusive := .nil

theorem withConnections (h : Admits limits s) (connections : List Connection) :
    Admits limits { s with connections } :=
  ⟨h.tracks, h.registrations, h.active, h.held, h.exclusive⟩

/-- The streams of a thread that keeps its pair, or gives it up. -/
theorem streams_subset {thread thread' : RelayThread}
    (h : thread'.pair? = thread.pair? ∨ thread'.pair? = none) :
    ∀ k ∈ thread'.streams, k ∈ thread.streams := by
  intro k hk
  rw [RelayThread.streams] at hk ⊢
  rcases h with hsame | hnone
  · rwa [hsame] at hk
  · rw [hnone] at hk
    cases hk

/-- A thread goes on alone. -/
theorem become (h : Admits limits s) {i registrations active : ℕ} {thread thread' : RelayThread}
    (hi : s.threads[i]? = some thread)
    (hpair : thread'.pair? = thread.pair? ∨ thread'.pair? = none)
    (hregistrations : Counted RelayThread.isRegistering limits.maxRegistrationConnections
      (s.threads.set i thread') registrations)
    (hactive : Counted RelayThread.isForwarding limits.maxActivePairs (s.threads.set i thread')
      active) : Admits limits ({ s with registrations, active }.become i thread') where
  tracks := h.tracks
  registrations := hregistrations
  active := hactive
  held := by
    intro other hother a b hab
    rcases List.mem_or_eq_of_mem_set hother with hmem | rfl
    · exact h.held other hmem a b hab
    · rcases hpair with hsame | hnone
      · exact h.held thread (List.mem_of_getElem? hi) a b (hsame ▸ hab)
      · rw [hnone] at hab
        cases hab
  exclusive := by
    have hadvance : Exclusive RelayThread.streams
        (s.threads.set i thread' ++ (none : Option RelayThread).toList) :=
      h.exclusive.advance hi (fun k hk ↦ .inl (streams_subset hpair k hk)) (by simp)
    rwa [Option.toList_none, List.append_nil] at hadvance

theorem moved (h : Admits limits s) {i registrations active : ℕ} {thread thread' : RelayThread}
    (hi : s.threads[i]? = some thread)
    (hmoves : s.Moves limits thread thread' registrations active) :
    Admits limits ({ s with registrations, active }.become i thread') := by
  cases hmoves with
  | failed c error =>
    exact h.become hi (.inr rfl) (h.registrations.set_of_eq hi rfl) (h.active.set_of_eq hi rfl)
  | released outcome =>
    have hpair : (RelayThread.afterRelease outcome).pair? = (RelayThread.registered outcome).pair? ∨
        (RelayThread.afterRelease outcome).pair? = none := by
      rcases outcome with error | _ | ⟨a, b⟩
      · exact .inr rfl
      · exact .inr rfl
      · exact .inl rfl
    have hkind : (RelayThread.afterRelease outcome).isRegistering = false ∧
        (RelayThread.afterRelease outcome).isForwarding = false := by
      rcases outcome with error | _ | ⟨a, b⟩
      all_goals exact ⟨rfl, rfl⟩
    exact h.become hi hpair (h.registrations.release hi rfl hkind.1).2
      (h.active.set_of_eq hi hkind.2)
  | refused a b =>
    exact h.become hi (.inr rfl) (h.registrations.set_of_eq hi rfl) (h.active.set_of_eq hi rfl)
  | admitted a b hacquire =>
    exact h.become hi (.inl rfl) (h.registrations.set_of_eq hi rfl)
      (h.active.acquire hi rfl rfl hacquire)
  | stopped a b outward inward outward' inward' =>
    exact h.become hi (.inl rfl) (h.registrations.set_of_eq hi rfl) (h.active.set_of_eq hi rfl)
  | closed a b outward inward =>
    exact h.become hi (.inr rfl) (h.registrations.set_of_eq hi rfl)
      (h.active.release hi rfl rfl).2

/-- What a call returned, as the log has it. -/
theorem pairs_of_register {now a b : ℕ} {route : String} {role : RelayRole}
    (h : (s.run.1.register now route role s.run.2.length).2 = .ok (some (a, b))) :
    (serveCall s.run ⟨route, role, now⟩).2.Pairs s.run.2.length a b := by
  rw [serveCall, Log.pairs_concat_iff]
  exact .inr ⟨rfl, h⟩

theorem pairs_of_pairs {k a b : ℕ} (h : s.run.2.Pairs k a b) (call : Registration) :
    (serveCall s.run call).2.Pairs k a b := by
  rw [serveCall, Log.pairs_concat_iff]
  exact .inl h

/-- The connections of a new pair are not held by any thread. -/
theorem unclaimed_of_register (h : Admits limits s) {now a b : ℕ} {route : String}
    {role : RelayRole}
    (hpair : (s.run.1.register now route role s.run.2.length).2 = .ok (some (a, b))) {x : ℕ}
    (hx : x = a ∨ x = b) : Transition.Unclaimed RelayThread.streams s.threads x := by
  intro thread hthread hmem
  rw [RelayThread.streams] at hmem
  split at hmem
  · rename_i c d hcd
    obtain ⟨k, hk⟩ := h.held thread hthread c d hcd
    have hlt := (h.tracks.matched k c d hk).le.2.2
    have hdisjoint := (h.tracks.register ⟨route, role, now⟩).disjoint k c d s.run.2.length a b
      (pairs_of_pairs hk _) (pairs_of_register hpair) hlt.ne
    simp only [List.mem_cons, List.not_mem_nil, or_false] at hmem
    rcases hx with rfl | rfl <;> rcases hmem with rfl | rfl
    · exact hdisjoint.1 rfl
    · exact hdisjoint.2.2.1 rfl
    · exact hdisjoint.2.1 rfl
    · exact hdisjoint.2.2.2 rfl
  · cases hmem

/-- A connection is handed over. -/
theorem entered (h : Admits limits s) {i now : ℕ} {c : Connection}
    (hi : s.threads[i]? = some (.reading c)) (route : String) (role : RelayRole)
    (connection : Connection) : Admits limits (s.enter i now route role connection) where
  tracks := h.tracks.register ⟨route, role, now⟩
  registrations := h.registrations.set_of_eq hi rfl
  active := h.active.set_of_eq hi rfl
  held := by
    intro thread hthread a b hab
    have hcases : thread ∈ s.threads ∨
        thread = .registered (s.run.1.register now route role s.run.2.length).2 :=
      List.mem_or_eq_of_mem_set hthread
    rcases hcases with hmem | rfl
    · obtain ⟨k, hk⟩ := h.held thread hmem a b hab
      exact ⟨k, pairs_of_pairs hk _⟩
    · rcases houtcome : (s.run.1.register now route role s.run.2.length).2 with error | pair?
      · rw [houtcome] at hab
        cases hab
      · rw [houtcome] at hab
        exact ⟨s.run.2.length, pairs_of_register (houtcome.trans (congrArg Except.ok hab))⟩
  exclusive := by
    have hadvance : Exclusive RelayThread.streams
        (s.threads.set i (.registered (s.run.1.register now route role s.run.2.length).2) ++
          (none : Option RelayThread).toList) := by
      refine h.exclusive.advance hi (fun x hx ↦ .inr ?_) (by simp)
      rcases houtcome : (s.run.1.register now route role s.run.2.length).2 with error | _ | ⟨a, b⟩
      · rw [houtcome] at hx
        cases hx
      · rw [houtcome] at hx
        cases hx
      · rw [houtcome] at hx
        refine h.unclaimed_of_register houtcome ?_
        simpa [RelayThread.streams, RelayThread.pair?] using hx
    rwa [Option.toList_none, List.append_nil] at hadvance

/-- **A step keeps the counters and the pairs.** -/
theorem step (h : Admits limits s) (hstep : Step limits s s') : Admits limits s' := by
  cases hstep with
  | dropped => exact h
  | spawned hacquire =>
    exact
      { tracks := h.tracks
        registrations := h.registrations.spawn rfl hacquire
        active := h.active.spawn_idle rfl
        held := by
          intro thread hthread a b hab
          rcases List.mem_append.mp hthread with hmem | hmem
          · exact h.held thread hmem a b hab
          · rw [List.mem_singleton.mp hmem] at hab
            cases hab
        exclusive := h.exclusive.concat rfl }
  | sent hi =>
    exact h.become hi (.inl rfl) (h.registrations.set_of_eq hi rfl) (h.active.set_of_eq hi rfl)
  | sentOn => exact h.withConnections _
  | entered hi => exact h.entered hi _ _ _
  | moved hi hmoves => exact h.moved hi hmoves
  | @copied _ a b _ _ outward inward outward' inward' _ _ _ _ hi =>
    exact (h.moved hi (.stopped a b outward inward outward' inward')).withConnections _
  | @torn _ a b _ _ outward inward outward' inward' _ _ _ _ _ hi =>
    exact (h.moved hi (.stopped a b outward inward outward' inward')).withConnections _
  | @shut _ a b _ _ outward inward outward' inward' _ _ hi =>
    exact (h.moved hi (.stopped a b outward inward outward' inward')).withConnections _

end Admits

/-- A state of a relay that was started with these limits. -/
def Reachable (limits : ServiceLimits) : RelayService → Prop :=
  Relation.ReflTransGen (Transition.Step (next limits)) (start limits)

theorem Reachable.admits (h : Reachable limits s) : Admits limits s := by
  refine Transition.invariant (I := Admits limits) ?_ (.start limits) h
  rintro s t hs ⟨action, hnext⟩
  exact hs.step (step_of_next hnext)

/-- **The limits of a relay hold at every moment.** Whatever the clients do, and in whatever order
the threads take their steps, each counter is the number of threads that it counts and within its
limit, so that nothing is left of it when the threads have ended; and no connection is in the hands
of two threads. -/
theorem service_limits_hold (h : Reachable limits s) :
    (s.registrations = s.threads.countP RelayThread.isRegistering ∧
      s.registrations ≤ limits.maxRegistrationConnections) ∧
    (s.active = s.threads.countP RelayThread.isForwarding ∧ s.active ≤ limits.maxActivePairs) ∧
    ((∀ thread ∈ s.threads, thread = .ended) → s.registrations = 0 ∧ s.active = 0) ∧
    ∀ (i j : ℕ) (θ η : RelayThread) (a b c d : ℕ), s.threads[i]? = some θ →
      s.threads[j]? = some η → θ.pair? = some (a, b) → η.pair? = some (c, d) → i ≠ j →
      a ≠ c ∧ a ≠ d ∧ b ≠ c ∧ b ≠ d := by
  have hadmits := h.admits
  refine ⟨⟨hadmits.registrations.count_eq.symm, hadmits.registrations.le_limit⟩,
    ⟨hadmits.active.count_eq.symm, hadmits.active.le_limit⟩, fun hended ↦ ⟨?_, ?_⟩, ?_⟩
  · refine hadmits.registrations.eq_zero fun thread hthread ↦ ?_
    rw [hended thread hthread]
    rfl
  · refine hadmits.active.eq_zero fun thread hthread ↦ ?_
    rw [hended thread hthread]
    rfl
  · intro i j θ η a b c d hi hj hab hcd hne
    have hshared {x : ℕ} (hx : x = a ∨ x = b) (hy : x = c ∨ x = d) : False := by
      refine hne (hadmits.exclusive i j θ η x hi hj ?_ ?_)
      · rw [RelayThread.streams, hab]
        simpa using hx
      · rw [RelayThread.streams, hcd]
        simpa using hy
    refine ⟨?_, ?_, ?_, ?_⟩
    · exact fun heq ↦ hshared (.inl rfl) (.inl heq)
    · exact fun heq ↦ hshared (.inl rfl) (.inr heq)
    · exact fun heq ↦ hshared (.inr rfl) (.inl heq)
    · exact fun heq ↦ hshared (.inr rfl) (.inr heq)

/-- A sender and a receiver register for a route, and the sender sends frames and stops. -/
def conversation (frames : List (List UInt8)) : List ServiceAction :=
  [.accept, .accept,
    .send 0 (frame 4 (registrationBytes (Codec.utf8 "r") .sender)),
    .send 1 (frame 4 (registrationBytes (Codec.utf8 "r") .receiver)),
    .register 0 0, .register 1 1, .release 1, .release 0, .acquire 1,
    .sendOn 0 (frames.flatMap (frame 4)), .finishOn 0] ++
  List.replicate (frames.length + 1) (.copyOutward 1)

theorem isSome_conversation :
    (Transition.run (next .default) (start .default) (conversation [[7]])).isSome = true := by
  decide +kernel

theorem service_limits_hold_conversation :
    ∃ s, Reachable .default s ∧ s.threads.countP RelayThread.isForwarding = 1 ∧ s.active = 1 := by
  obtain ⟨s, hrun⟩ := Option.isSome_iff_exists.mp isSome_conversation
  have hreach : Reachable .default s := Transition.reflTransGen_of_run hrun
  have hcount : (Transition.run (next .default) (start .default) (conversation [[7]])).map
      (fun s ↦ s.threads.countP RelayThread.isForwarding) = some 1 := by decide +kernel
  rw [hrun, Option.map_some, Option.some_inj] at hcount
  exact ⟨s, hreach, hcount, (service_limits_hold hreach).2.1.1.trans hcount⟩

end RelayService

end TripTorrent.Relay
