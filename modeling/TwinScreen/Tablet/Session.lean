import Mathlib.Data.List.Chain
import TwinScreen.Lib.Machine
import TwinScreen.Tablet.Client

/-!
# TwinScreen.Tablet.Session

`Client.run` with `tryConnect` and `scheduleReconnect`, as a machine: the client
thread at a point of its code, and the sends that other threads have begun on the
output stream they found.  Network events, the outcomes of writes and the thread's
own steps are the inputs, in any order.

`session_retries_iff` says which runs keep the reconnect loop going; a write that
fails, by any thread, ends it, since `sendRaw` answers an `IOException` with
`disconnect`.

Allocations succeed: `ByteArray(len)` throws for a negative `len` only.  `tryConnect` catches an
exception of `packHandshake` too, but that is no step of the session.
-/

namespace TwinScreen.Tablet

open Lib

/-! ## the client thread -/

/-- `Protocol.VERSION`. -/
def version : Int := 1

/-- Where the client thread is. -/
inductive Pc
  /-- At the test of the loop in `run`. -/
  | loopTop
  /-- In `sock.connect`. -/
  | connecting
  /-- At the handshake's `sendRaw`. -/
  | handshake
  /-- In `readAck`. -/
  | awaitAck
  /-- `tryConnect` has returned a stream; at `requestKeyframe`. -/
  | linkUp
  /-- At the test of the loop in `receiveLoop`. -/
  | loopCheck
  /-- In `readFully`. -/
  | reading
  /-- Behind `receiveLoop`. -/
  | cleanup
  /-- At `if (stopRequested.get()) break`. -/
  | checkStop
  /-- In the sleep of `scheduleReconnect`. -/
  | sleeping
  /-- `run` has returned. -/
  | finished
  /-- An exception has left `run`. -/
  | crashed
  deriving DecidableEq, Repr

/-- The client with its thread. -/
structure Session where
  client : Client := {}
  pc : Pc := .loopTop
  /-- Number of sockets made so far. -/
  sockets : Nat := 0
  /-- The streams on which other threads are writing. -/
  inflight : List Nat := []
  deriving DecidableEq

/-- What can happen next. -/
inductive SessionInput
  /-- The client thread goes on. -/
  | go
  /-- `connect` returns, or throws. -/
  | connect (ok : Bool)
  /-- The client thread's own `sendRaw`: its write returns, or throws. -/
  | write (ok : Bool)
  /-- `readAck` returns an ack, or throws. -/
  | ackRead (ack : Option Ack)
  /-- `receiveLoop` gets a message. -/
  | frame (m : Message)
  /-- `receiveLoop` gets a header whose length has its sign bit set. -/
  | badLength
  /-- The stream ends, a read throws, or a header is not one. -/
  | readEnds
  /-- The sleep ends. -/
  | wake
  /-- Another thread calls `requestKeyframe`, or `sendInputBatch` with events. -/
  | sendBegin (input : Bool)
  /-- A write of another thread returns, or throws. -/
  | sendDone (stream : Nat) (ok : Bool)
  /-- The user disconnects. -/
  | userDisconnect
  deriving DecidableEq

/-- What is seen of the session. -/
inductive SessionEvent
  | tryConnect
  | onConnected
  /-- The link is lost and cleaned up. -/
  | linkLost
  | scheduleReconnect
  | onDisconnected
  deriving DecidableEq, Repr

/-- The delay of `scheduleReconnect`, in 64-bit arithmetic; a shift of a `Long` uses
the low six bits of its count. -/
def delayMs (reconnectAttempt : Int) : Int :=
  min ((1000 * 2 ^ (min reconnectAttempt 3 % 64).toNat : Int).bmod (2 ^ 64)) 8000

/-- The delay is negative only when the counter has wrapped around. -/
theorem delayMs_nonneg {n : Int} (h : 0 ≤ n) : 0 ≤ delayMs n := by
  have hmin : min n 3 = 0 ∨ min n 3 = 1 ∨ min n 3 = 2 ∨ min n 3 = 3 := by omega
  unfold delayMs
  rcases hmin with hmin | hmin | hmin | hmin <;> rw [hmin] <;> decide

/-- `sendRaw` by the client thread. -/
def sendRaw (c : Client) (ok : Bool) : Client :=
  match c.out with
  | none => c
  | some _ => if ok then c else c.disconnect

/-- The `catch` of `tryConnect` on the socket it made. -/
def connectFailed (c : Client) (sock : Option Nat) : Client :=
  if sock ≠ none ∧ c.socket = sock then
    { c with connected := false, socket := none, out := none }
  else
    { c with connected := false }

/-- The step of the client thread between two blocking calls. -/
def goOn (s : Session) : Option (Session × List SessionEvent) :=
  match s.pc with
  | .loopTop =>
      if s.client.stopRequested then some ({ s with pc := .finished }, [.onDisconnected])
      else some ({ s with pc := .connecting }, [.tryConnect])
  | .loopCheck =>
      if s.client.connected ∧ s.client.stopRequested = false then
        some ({ s with pc := .reading }, [])
      else
        some ({ s with pc := .cleanup }, [])
  | .cleanup => some ({ s with client := s.client.cleanup, pc := .checkStop }, [.linkLost])
  | .checkStop =>
      if s.client.stopRequested then
        some ({ s with pc := .finished }, [.onDisconnected])
      else
        let client := { s.client with
          reconnectActive := true
          reconnectAttempt := (s.client.reconnectAttempt + 1).bmod (2 ^ 32) }
        -- `Thread.sleep` throws on a negative delay
        let pc := if delayMs s.client.reconnectAttempt < 0 then Pc.crashed else .sleeping
        some ({ s with client := client, pc := pc }, [.scheduleReconnect])
  | _ => none

/-- One step of the session. -/
def sessionStep (s : Session) : SessionInput → Option (Session × List SessionEvent)
  | .go => goOn s
  | .connect ok =>
      if s.pc ≠ .connecting then none
      else if ok = false then
        some ({ s with client := connectFailed s.client none, pc := .checkStop }, [])
      else if s.client.stopRequested then
        some ({ s with pc := .checkStop }, [])
      else
        let client := { s.client with socket := some s.sockets, out := some s.sockets }
        some ({ s with client := client, pc := .handshake, sockets := s.sockets + 1 }, [])
  | .write ok =>
      match s.pc with
      | .handshake => some ({ s with client := sendRaw s.client ok, pc := .awaitAck }, [])
      | .linkUp =>
          let client := { s.client with reconnectActive := false, reconnectAttempt := 0 }
          some ({ s with client := sendRaw client ok, pc := .loopCheck }, [])
      | _ => none
  | .ackRead ack =>
      if s.pc ≠ .awaitAck then none
      else
        let failed := connectFailed s.client (some (s.sockets - 1))
        match ack with
        | some a =>
            if a.protoVersion = version then
              let client := { s.client with ack := some a, connected := true }
              some ({ s with client := client, pc := .linkUp }, [.onConnected])
            else
              some ({ s with client := failed, pc := .checkStop }, [])
        | none => some ({ s with client := failed, pc := .checkStop }, [])
  | .frame m =>
      if s.pc ≠ .reading then none
      else
        match s.client.handleFrame m with
        | .ok client => some ({ s with client := client, pc := .loopCheck }, [])
        | .error _ => some ({ s with pc := .crashed }, [])
  | .badLength => if s.pc ≠ .reading then none else some ({ s with pc := .crashed }, [])
  | .readEnds => if s.pc ≠ .reading then none else some ({ s with pc := .cleanup }, [])
  | .wake =>
      if s.pc ≠ .sleeping then none
      else if s.client.interrupted then
        let client := { s.client with stopRequested := true, interrupted := false }
        some ({ s with client := client, pc := .loopTop }, [])
      else
        some ({ s with pc := .loopTop }, [])
  | .sendBegin input =>
      if input = true ∧ s.client.connected = false then some (s, [])
      else some ({ s with inflight := s.client.out.toList ++ s.inflight }, [])
  | .sendDone stream ok =>
      if stream ∉ s.inflight then none
      else
        let client := if ok then s.client else s.client.disconnect
        some ({ s with client := client, inflight := s.inflight.erase stream }, [])
  | .userDisconnect => some ({ s with client := s.client.disconnect }, [])

/-- The session as a machine. -/
def sessionMachine : Machine Session SessionInput SessionEvent where
  step := sessionStep

/-- The steps of the session, one rule for each way through its code. -/
inductive Steps (s : Session) : SessionInput → Session → List SessionEvent → Prop
  | stop (hpc : s.pc = .loopTop ∨ s.pc = .checkStop) (hstop : s.client.stopRequested = true) :
      Steps s .go { s with pc := .finished } [.onDisconnected]
  | attempt (hpc : s.pc = .loopTop) (hstop : s.client.stopRequested = false) :
      Steps s .go { s with pc := .connecting } [.tryConnect]
  | alive (hpc : s.pc = .loopCheck) : Steps s .go { s with pc := .reading } []
  | notAlive (hpc : s.pc = .loopCheck) : Steps s .go { s with pc := .cleanup } []
  | cleanup (hpc : s.pc = .cleanup) :
      Steps s .go { s with client := s.client.cleanup, pc := .checkStop } [.linkLost]
  | retry {pc : Pc} (hpc : s.pc = .checkStop) (hstop : s.client.stopRequested = false)
      (hdelay : pc = if delayMs s.client.reconnectAttempt < 0 then .crashed else .sleeping) :
      Steps s .go
        { s with
          client := { s.client with
            reconnectActive := true
            reconnectAttempt := (s.client.reconnectAttempt + 1).bmod (2 ^ 32) }
          pc := pc } [.scheduleReconnect]
  | connectFails (hpc : s.pc = .connecting) :
      Steps s (.connect false) { s with client := connectFailed s.client none, pc := .checkStop } []
  | connectStopped (hpc : s.pc = .connecting) (hstop : s.client.stopRequested = true) :
      Steps s (.connect true) { s with pc := .checkStop } []
  | connects (hpc : s.pc = .connecting) :
      Steps s (.connect true)
        { s with
          client := { s.client with socket := some s.sockets, out := some s.sockets }
          pc := .handshake
          sockets := s.sockets + 1 } []
  | handshake {ok : Bool} (hpc : s.pc = .handshake) :
      Steps s (.write ok) { s with client := sendRaw s.client ok, pc := .awaitAck } []
  | request {ok : Bool} (hpc : s.pc = .linkUp) :
      Steps s (.write ok)
        { s with
          client := sendRaw { s.client with reconnectActive := false, reconnectAttempt := 0 } ok
          pc := .loopCheck } []
  | acked {a : Ack} (hpc : s.pc = .awaitAck) :
      Steps s (.ackRead (some a))
        { s with client := { s.client with ack := some a, connected := true }, pc := .linkUp }
        [.onConnected]
  | ackFails {ack : Option Ack} (hpc : s.pc = .awaitAck) :
      Steps s (.ackRead ack)
        { s with client := connectFailed s.client (some (s.sockets - 1)), pc := .checkStop } []
  | frame {m : Message} {c : Client} (hpc : s.pc = .reading) (hm : s.client.handleFrame m = .ok c) :
      Steps s (.frame m) { s with client := c, pc := .loopCheck } []
  | frameThrows {m : Message} {e : Throwable} (hpc : s.pc = .reading)
      (hm : s.client.handleFrame m = .error e) : Steps s (.frame m) { s with pc := .crashed } []
  | badLength (hpc : s.pc = .reading) : Steps s .badLength { s with pc := .crashed } []
  | readEnds (hpc : s.pc = .reading) : Steps s .readEnds { s with pc := .cleanup } []
  | interrupted (hpc : s.pc = .sleeping) (hint : s.client.interrupted = true) :
      Steps s .wake
        { s with
          client := { s.client with stopRequested := true, interrupted := false }
          pc := .loopTop } []
  | wakes (hpc : s.pc = .sleeping) : Steps s .wake { s with pc := .loopTop } []
  | notSent {input : Bool} : Steps s (.sendBegin input) s []
  | sends {input : Bool} :
      Steps s (.sendBegin input) { s with inflight := s.client.out.toList ++ s.inflight } []
  | sendDone {stream : Nat} {ok : Bool} :
      Steps s (.sendDone stream ok)
        { s with
          client := if ok then s.client else s.client.disconnect
          inflight := s.inflight.erase stream } []
  | userDisconnect : Steps s .userDisconnect { s with client := s.client.disconnect } []

/-- Every step of the machine is by one of the rules. -/
theorem steps_of_sessionStep {s s' : Session} {o : List SessionEvent} {i : SessionInput}
    (hstep : sessionStep s i = some (s', o)) : Steps s i s' o := by
  cases i with
  | go =>
      simp only [sessionStep, goOn] at hstep
      split at hstep
      · next hpc =>
          split at hstep
          · next hstop => cases hstep; exact .stop (.inl hpc) hstop
          · next hstop => cases hstep; exact .attempt hpc (by simpa using hstop)
      · next hpc => split at hstep <;> cases hstep <;> constructor <;> exact hpc
      · next hpc => cases hstep; exact .cleanup hpc
      · next hpc =>
          split at hstep
          · next hstop => cases hstep; exact .stop (.inr hpc) hstop
          · next hstop => cases hstep; exact .retry hpc (by simpa using hstop) rfl
      · contradiction
  | connect ok =>
      simp only [sessionStep, Option.ite_none_left_eq_some, ne_eq, Classical.not_not] at hstep
      obtain ⟨hpc, hstep⟩ := hstep
      split at hstep
      · next hok => cases hstep; subst hok; exact .connectFails hpc
      · next hok =>
          obtain rfl : ok = true := by simpa using hok
          split at hstep
          · next hstop => cases hstep; exact .connectStopped hpc hstop
          · cases hstep; exact .connects hpc
  | write ok =>
      simp only [sessionStep] at hstep
      split at hstep
      · next hpc => cases hstep; exact .handshake hpc
      · next hpc => cases hstep; exact .request hpc
      · contradiction
  | ackRead ack =>
      simp only [sessionStep, Option.ite_none_left_eq_some, ne_eq, Classical.not_not] at hstep
      obtain ⟨hpc, hstep⟩ := hstep
      split at hstep
      · split at hstep
        · cases hstep; exact .acked hpc
        · cases hstep; exact .ackFails hpc
      · cases hstep; exact .ackFails hpc
  | frame m =>
      simp only [sessionStep, Option.ite_none_left_eq_some, ne_eq, Classical.not_not] at hstep
      obtain ⟨hpc, hstep⟩ := hstep
      split at hstep
      · next hm => cases hstep; exact .frame hpc hm
      · next hm => cases hstep; exact .frameThrows hpc hm
  | badLength =>
      simp only [sessionStep, Option.ite_none_left_eq_some, ne_eq, Classical.not_not] at hstep
      obtain ⟨hpc, hstep⟩ := hstep
      cases hstep
      exact .badLength hpc
  | readEnds =>
      simp only [sessionStep, Option.ite_none_left_eq_some, ne_eq, Classical.not_not] at hstep
      obtain ⟨hpc, hstep⟩ := hstep
      cases hstep
      exact .readEnds hpc
  | wake =>
      simp only [sessionStep, Option.ite_none_left_eq_some, ne_eq, Classical.not_not] at hstep
      obtain ⟨hpc, hstep⟩ := hstep
      split at hstep
      · next hint => cases hstep; exact .interrupted hpc hint
      · cases hstep; exact .wakes hpc
  | sendBegin input =>
      simp only [sessionStep] at hstep
      split at hstep
      · cases hstep; exact .notSent
      · cases hstep; exact .sends
  | sendDone stream ok =>
      simp only [sessionStep] at hstep
      split at hstep
      · contradiction
      · cases hstep; exact .sendDone
  | userDisconnect => cases hstep; exact .userDisconnect

/-! ## the reconnect loop -/

/-- The inputs of the client thread itself. -/
def SessionInput.Own : SessionInput → Prop
  | .sendBegin _ | .sendDone _ _ | .userDisconnect => False
  | _ => True

/-- What the reconnect loop does next: a lost link is followed by a scheduled
reconnect, and that by another attempt. -/
def Follows : SessionEvent → SessionEvent → Prop
  | .tryConnect, .onConnected => True
  | .tryConnect, .scheduleReconnect => True
  | .onConnected, .linkLost => True
  | .linkLost, .scheduleReconnect => True
  | .scheduleReconnect, .tryConnect => True
  | _, _ => False

/-- The session keeps retrying: no stop is requested, the client thread is in its
loop and can go on, and so far its events follow one another. -/
structure Retrying (s : Session) (tr : List SessionEvent) : Prop where
  stopRequested : s.client.stopRequested = false
  goesOn : ∃ i : SessionInput, i.Own ∧ (sessionStep s i).isSome = true
  follows : tr.IsChain Follows
  notDisconnected : .onDisconnected ∉ tr

/-- The steps that keep the loop going: no write on a stream fails, no message makes
the client thread throw, and no retry finds a negative delay. -/
def KeepsRetrying (s : Session) : SessionInput → Prop
  | .write ok => s.client.out ≠ none → ok = true
  | .sendDone _ ok => ok = true
  | .frame m => Parses m
  | .badLength => False
  | .go => s.pc = .checkStop → 0 ≤ delayMs s.client.reconnectAttempt
  | .userDisconnect => False
  | _ => True

/-! ## runs that keep it going -/

/-- The last event, by where the client thread is. -/
def LastAt : Pc → Option SessionEvent → Prop
  | .loopTop, e => e = none ∨ e = some .scheduleReconnect
  | .connecting, e | .handshake, e | .awaitAck, e => e = some .tryConnect
  | .linkUp, e | .loopCheck, e | .reading, e | .cleanup, e => e = some .onConnected
  | .checkStop, e => e = some .tryConnect ∨ e = some .linkLost
  | .sleeping, e => e = some .scheduleReconnect
  | .finished, _ | .crashed, _ => False

/-- The invariant of the runs that keep retrying. -/
structure Looping (s : Session) (tr : List SessionEvent) : Prop where
  stopRequested : s.client.stopRequested = false
  interrupted : s.client.interrupted = false
  last : LastAt s.pc tr.getLast?
  follows : tr.IsChain Follows
  notDisconnected : .onDisconnected ∉ tr

/-- A step without an event. -/
theorem Looping.stay {s s' : Session} {tr : List SessionEvent} (h : Looping s tr)
    (hstop : s'.client.stopRequested = s.client.stopRequested)
    (hint : s'.client.interrupted = s.client.interrupted)
    (hlast : ∀ e, LastAt s.pc e → LastAt s'.pc e) : Looping s' (tr ++ []) := by
  rw [List.append_nil]
  exact ⟨hstop.trans h.stopRequested, hint.trans h.interrupted, hlast _ h.last, h.follows,
    h.notDisconnected⟩

/-- A step with an event. -/
theorem Looping.emit {s s' : Session} {tr : List SessionEvent} {e : SessionEvent}
    (h : Looping s tr) (hstop : s'.client.stopRequested = s.client.stopRequested)
    (hint : s'.client.interrupted = s.client.interrupted) (hlast : LastAt s'.pc (some e))
    (hfollows : ∀ e', LastAt s.pc (some e') → Follows e' e) (hne : e ≠ .onDisconnected) :
    Looping s' (tr ++ [e]) where
  stopRequested := hstop.trans h.stopRequested
  interrupted := hint.trans h.interrupted
  last := by rwa [List.getLast?_append_of_ne_nil _ (by simp), List.getLast?_singleton]
  follows := by
    rw [List.isChain_append]
    refine ⟨h.follows, List.isChain_singleton e, fun e' he' e'' he'' => ?_⟩
    cases he''
    have hlast := h.last
    rw [Option.mem_def.mp he'] at hlast
    exact hfollows e' hlast
  notDisconnected := by
    rw [List.mem_append, List.mem_singleton, not_or]
    exact ⟨h.notDisconnected, fun heq => hne heq.symm⟩

/-- Handling a message touches neither flag. -/
theorem handleFrame_flags {c c₁ : Client} {m : Message} (h : c.handleFrame m = .ok c₁) :
    c₁.stopRequested = c.stopRequested ∧ c₁.interrupted = c.interrupted := by
  unfold Client.handleFrame at h
  split at h
  · split at h
    · contradiction
    · cases h
      exact ⟨rfl, rfl⟩
  · split at h
    · split at h
      · contradiction
      · cases h
        exact ⟨rfl, rfl⟩
    · cases h
      exact ⟨rfl, rfl⟩

/-- A write that returns, or goes nowhere, touches neither flag. -/
theorem sendRaw_flags {c : Client} {ok : Bool} (h : c.out ≠ none → ok = true) :
    (sendRaw c ok).stopRequested = c.stopRequested ∧
      (sendRaw c ok).interrupted = c.interrupted := by
  unfold sendRaw
  cases hout : c.out with
  | none => exact ⟨rfl, rfl⟩
  | some stream =>
      rw [h (by simp [hout])]
      exact ⟨rfl, rfl⟩

theorem connectFailed_flags (c : Client) (sock : Option Nat) :
    (connectFailed c sock).stopRequested = c.stopRequested ∧
      (connectFailed c sock).interrupted = c.interrupted := by
  unfold connectFailed
  split <;> exact ⟨rfl, rfl⟩

/-- **One step** of the session keeps the invariant when it keeps retrying. -/
theorem looping_step {s s' : Session} {tr o : List SessionEvent} {i : SessionInput}
    (h : Looping s tr) (hok : KeepsRetrying s i) (hstep : sessionStep s i = some (s', o)) :
    Looping s' (tr ++ o) := by
  have hrunning := h.stopRequested
  cases steps_of_sessionStep hstep with
  | stop hpc hstop => rw [hrunning] at hstop; contradiction
  | attempt hpc =>
      refine h.emit rfl rfl rfl (fun e' hlast => ?_) (by simp)
      rw [hpc] at hlast
      cases hlast with
      | inl hnone => contradiction
      | inr hlast => cases hlast; trivial
  | alive hpc => exact h.stay rfl rfl fun e hlast => by rwa [hpc] at hlast
  | notAlive hpc => exact h.stay rfl rfl fun e hlast => by rwa [hpc] at hlast
  | cleanup hpc =>
      refine h.emit rfl rfl (.inr rfl) (fun e' hlast => ?_) (by simp)
      rw [hpc] at hlast
      cases hlast
      trivial
  | retry hpc hstop hdelay =>
      have hpos : ¬ delayMs s.client.reconnectAttempt < 0 := Int.not_lt.mpr (hok hpc)
      rw [if_neg hpos] at hdelay
      subst hdelay
      refine h.emit rfl rfl rfl (fun e' hlast => ?_) (by simp)
      rw [hpc] at hlast
      cases hlast with
      | inl hlast => cases hlast; trivial
      | inr hlast => cases hlast; trivial
  | connectFails hpc =>
      obtain ⟨hstop, hint⟩ := connectFailed_flags s.client none
      exact h.stay hstop hint fun e hlast => .inl (by rwa [hpc] at hlast)
  | connectStopped hpc hstop => rw [hrunning] at hstop; contradiction
  | connects hpc => exact h.stay rfl rfl fun e hlast => by rwa [hpc] at hlast
  | handshake hpc =>
      obtain ⟨hstop, hint⟩ := sendRaw_flags hok
      exact h.stay hstop hint fun e hlast => by rwa [hpc] at hlast
  | request hpc =>
      let client := { s.client with reconnectActive := false, reconnectAttempt := 0 }
      obtain ⟨hstop, hint⟩ := sendRaw_flags (c := client) hok
      exact h.stay hstop hint fun e hlast => by rwa [hpc] at hlast
  | acked hpc =>
      refine h.emit rfl rfl rfl (fun e' hlast => ?_) (by simp)
      rw [hpc] at hlast
      cases hlast
      trivial
  | ackFails hpc =>
      obtain ⟨hstop, hint⟩ := connectFailed_flags s.client (some (s.sockets - 1))
      exact h.stay hstop hint fun e hlast => .inl (by rwa [hpc] at hlast)
  | frame hpc hm =>
      obtain ⟨hstop, hint⟩ := handleFrame_flags hm
      exact h.stay hstop hint fun e hlast => by rwa [hpc] at hlast
  | frameThrows hpc hm =>
      obtain ⟨c, hc⟩ := (handleFrame_returns_iff _ _).mpr hok
      rw [hm] at hc
      contradiction
  | badLength => exact hok.elim
  | readEnds hpc => exact h.stay rfl rfl fun e hlast => by rwa [hpc] at hlast
  | interrupted hpc hint => rw [h.interrupted] at hint; contradiction
  | wakes hpc => exact h.stay rfl rfl fun e hlast => .inr (by rwa [hpc] at hlast)
  | notSent | sends => exact h.stay rfl rfl fun e hlast => hlast
  | sendDone =>
      obtain rfl : _ = true := hok
      exact h.stay rfl rfl fun e hlast => hlast
  | userDisconnect => exact hok.elim

/-- Somewhere in its loop the client thread can go on. -/
theorem goesOn_of_lastAt {s : Session} {e : Option SessionEvent} (h : LastAt s.pc e) :
    ∃ i : SessionInput, i.Own ∧ (sessionStep s i).isSome = true := by
  cases hpc : s.pc with
  | loopTop | loopCheck | checkStop =>
      refine ⟨.go, trivial, ?_⟩
      simp only [sessionStep, goOn, hpc]
      split <;> rfl
  | cleanup => exact ⟨.go, trivial, by simp [sessionStep, goOn, hpc]⟩
  | connecting => exact ⟨.connect false, trivial, by simp [sessionStep, hpc]⟩
  | handshake | linkUp => exact ⟨.write true, trivial, by simp [sessionStep, hpc]⟩
  | awaitAck => exact ⟨.ackRead none, trivial, by simp [sessionStep, hpc]⟩
  | reading => exact ⟨.readEnds, trivial, by simp [sessionStep, hpc]⟩
  | sleeping =>
      refine ⟨.wake, trivial, ?_⟩
      simp only [sessionStep, hpc, ne_eq, not_true_eq_false, if_false]
      split <;> rfl
  | finished | crashed => rw [hpc] at h; exact h.elim

/-! ## runs that end it -/

/-- A stop is requested, or the client thread is dead. -/
def Ended (s : Session) : Prop := s.client.stopRequested = true ∨ s.pc = .crashed

/-- A write leaves a requested stop requested. -/
theorem sendRaw_stopRequested {c : Client} (h : c.stopRequested = true) (ok : Bool) :
    (sendRaw c ok).stopRequested = true := by
  unfold sendRaw
  split
  · exact h
  · split
    · exact h
    · rfl

/-- A step leaves a requested stop requested. -/
theorem stopRequested_step {s s' : Session} {o : List SessionEvent} {i : SessionInput}
    (h : s.client.stopRequested = true) (hstep : sessionStep s i = some (s', o)) :
    s'.client.stopRequested = true := by
  cases steps_of_sessionStep hstep with
  | connectFails | ackFails => exact (connectFailed_flags _ _).1.trans h
  | handshake => exact sendRaw_stopRequested h _
  | request =>
      let client := { s.client with reconnectActive := false, reconnectAttempt := 0 }
      exact sendRaw_stopRequested (c := client) h _
  | frame hpc hm => exact (handleFrame_flags hm).1.trans h
  | @sendDone stream ok =>
      cases ok with
      | true => exact h
      | false => rfl
  | interrupted | userDisconnect => rfl
  | _ => exact h

/-- A dead client thread stays dead. -/
theorem crashed_step {s s' : Session} {o : List SessionEvent} {i : SessionInput}
    (h : s.pc = .crashed) (hstep : sessionStep s i = some (s', o)) : ¬ i.Own ∧ s'.pc = .crashed := by
  cases steps_of_sessionStep hstep <;> simp_all [SessionInput.Own]

/-- What ends the loop ends it for good. -/
theorem ended_step {s s' : Session} {o : List SessionEvent} {i : SessionInput} (h : Ended s)
    (hstep : sessionStep s i = some (s', o)) : Ended s' := by
  cases h with
  | inl hstop => exact .inl (stopRequested_step hstop hstep)
  | inr hpc => exact .inr (crashed_step hpc hstep).2

/-- A failed write on a stream requests a stop. -/
theorem sendRaw_disconnects {c : Client} {ok : Bool} (h : ¬ (c.out ≠ none → ok = true)) :
    (sendRaw c ok).stopRequested = true := by
  obtain ⟨hout, hok⟩ := Classical.not_imp.mp h
  obtain ⟨stream, hstream⟩ := Option.ne_none_iff_exists'.mp hout
  simp [sendRaw, hstream, hok, Client.disconnect]

/-- A step that does not keep retrying ends the loop. -/
theorem ended_of_not_keepsRetrying {s s' : Session} {o : List SessionEvent} {i : SessionInput}
    (h : ¬ KeepsRetrying s i) (hstep : sessionStep s i = some (s', o)) : Ended s' := by
  cases steps_of_sessionStep hstep with
  | stop hpc hstop => exact .inl hstop
  | retry hpc hstop hdelay =>
      obtain ⟨-, hneg⟩ := Classical.not_imp.mp h
      have hneg : delayMs s.client.reconnectAttempt < 0 := Int.not_le.mp hneg
      rw [if_pos hneg] at hdelay
      exact .inr hdelay
  | attempt hpc | alive hpc | notAlive hpc | cleanup hpc => simp [KeepsRetrying, hpc] at h
  | handshake => exact .inl (sendRaw_disconnects h)
  | request =>
      let client := { s.client with reconnectActive := false, reconnectAttempt := 0 }
      exact .inl (sendRaw_disconnects (c := client) h)
  | frame hpc hm => exact absurd ((handleFrame_returns_iff _ _).mp ⟨_, hm⟩) h
  | frameThrows | badLength => exact .inr rfl
  | sendDone =>
      obtain rfl : _ = false := by simpa [KeepsRetrying] using h
      exact .inl rfl
  | userDisconnect => exact .inl rfl
  | _ => exact absurd trivial h

/-- **The reconnect loop** keeps going exactly in the runs whose steps all keep it
going. -/
theorem session_retries_iff (is : List SessionInput) (s : Session) (tr : List SessionEvent)
    (hrun : sessionMachine.run {} is = some (s, tr)) :
    Retrying s tr ↔ sessionMachine.Along KeepsRetrying {} is := by
  constructor
  · intro h
    refine sessionMachine.along_of_not_absorbed (fun _ _ _ _ => ended_step)
      (fun _ _ _ _ => ended_of_not_keepsRetrying) hrun fun hended => ?_
    cases hended with
    | inl hstop => rw [h.stopRequested] at hstop; contradiction
    | inr hpc =>
        obtain ⟨i, hown, hsome⟩ := h.goesOn
        obtain ⟨⟨s', o⟩, hstep⟩ := Option.isSome_iff_exists.mp hsome
        exact (crashed_step hpc hstep).1 hown
  · intro hok
    have hinit : Looping {} [] := ⟨rfl, rfl, .inl rfl, List.isChain_nil, List.not_mem_nil⟩
    have h := sessionMachine.run_invariant (fun _ _ _ _ _ => looping_step) hinit hok hrun
    exact ⟨h.stopRequested, goesOn_of_lastAt h.last, h.follows, h.notDisconnected⟩

/-- An ack of the client's own version. -/
def sameVersion : Ack := ⟨version, 0, 1920, 1080, 60, 1, 0, 20000000, 60⟩

/-- A link that the host closes. -/
def lostLink : List SessionInput :=
  [.go, .connect true, .write true, .ackRead (some sameVersion), .write true, .go, .readEnds, .go,
    .go]

theorem session_retries_lostLink :
    ∃ s, sessionMachine.run {} lostLink =
        some (s, [.tryConnect, .onConnected, .linkLost, .scheduleReconnect]) ∧
      Retrying s [.tryConnect, .onConnected, .linkLost, .scheduleReconnect] := by
  have hrun : (sessionMachine.run {} lostLink).map Prod.snd =
      some [.tryConnect, .onConnected, .linkLost, .scheduleReconnect] := by decide +kernel
  obtain ⟨⟨s, tr⟩, hrun, rfl⟩ := Option.map_eq_some_iff.mp hrun
  refine ⟨s, hrun, (session_retries_iff lostLink s _ hrun).mpr ?_⟩
  have hdelay := delayMs_nonneg (Int.le_refl 0)
  simp [lostLink, Machine.Along, sessionMachine, sessionStep, goOn, sendRaw, KeepsRetrying,
    sameVersion, Client.cleanup, hdelay]

/-- A link that is already down when the first keyframe is requested. -/
def failedRequest : List SessionInput :=
  [.go, .connect true, .write true, .ackRead (some sameVersion), .write false, .go, .go, .go]

/-- Nobody disconnects, and the session is over. -/
theorem failedRequest_ends_session :
    .userDisconnect ∉ failedRequest ∧
      ∃ s tr, sessionMachine.run {} failedRequest = some (s, tr) ∧
        s.client.stopRequested = true ∧ .onDisconnected ∈ tr ∧ ¬ Retrying s tr := by
  refine ⟨by decide, _, _, rfl, rfl, by decide, fun h => ?_⟩
  exact absurd h.stopRequested (by decide)

/-! ## who requests a stop -/

/-- The steps in which `disconnect()` is called. -/
def Disconnects (s : Session) : SessionInput → Prop
  | .write ok => s.client.out ≠ none ∧ ok = false
  | .sendDone _ ok => ok = false
  | .userDisconnect => True
  | _ => False

/-- A step without `disconnect()` requests no stop, and interrupts nobody. -/
theorem unstopped_step {s s' : Session} {o : List SessionEvent} {i : SessionInput}
    (h : s.client.stopRequested = false ∧ s.client.interrupted = false) (hok : ¬ Disconnects s i)
    (hstep : sessionStep s i = some (s', o)) :
    s'.client.stopRequested = false ∧ s'.client.interrupted = false := by
  cases steps_of_sessionStep hstep with
  | connectFails | ackFails => rwa [(connectFailed_flags _ _).1, (connectFailed_flags _ _).2]
  | @handshake ok =>
      have hflags := @sendRaw_flags s.client ok (by simpa [Disconnects] using hok)
      rwa [hflags.1, hflags.2]
  | @request ok =>
      let client := { s.client with reconnectActive := false, reconnectAttempt := 0 }
      have hflags := @sendRaw_flags client ok (by simpa [Disconnects] using hok)
      rwa [hflags.1, hflags.2]
  | frame hpc hm => rwa [(handleFrame_flags hm).1, (handleFrame_flags hm).2]
  | interrupted hpc hint =>
      rw [h.2] at hint
      contradiction
  | sendDone =>
      obtain rfl : _ = true := by simpa [Disconnects] using hok
      exact h
  | userDisconnect => exact absurd trivial hok
  | _ => exact h

/-- `disconnect()` requests a stop. -/
theorem stopRequested_of_disconnects {s s' : Session} {o : List SessionEvent} {i : SessionInput}
    (h : Disconnects s i) (hstep : sessionStep s i = some (s', o)) :
    s'.client.stopRequested = true := by
  cases steps_of_sessionStep hstep with
  | handshake => exact sendRaw_disconnects (by simpa [Disconnects] using h)
  | request =>
      let client := { s.client with reconnectActive := false, reconnectAttempt := 0 }
      exact sendRaw_disconnects (c := client) (by simpa [Disconnects] using h)
  | sendDone =>
      obtain rfl : _ = false := h
      rfl
  | userDisconnect => rfl
  | _ => exact h.elim

/-- A stop is requested exactly in the runs in which `disconnect()` is called. -/
theorem stopRequested_eq_false_iff {is : List SessionInput} {s : Session} {tr : List SessionEvent}
    (hrun : sessionMachine.run {} is = some (s, tr)) :
    s.client.stopRequested = false ↔ sessionMachine.Along (fun s i => ¬ Disconnects s i) {} is := by
  constructor
  · intro h
    refine sessionMachine.along_of_not_absorbed (fun _ _ _ _ => stopRequested_step)
      (fun _ _ _ _ hcalls hstep => ?_) hrun (by simp [h])
    exact stopRequested_of_disconnects (Classical.not_not.mp hcalls) hstep
  · intro hok
    have hstep : ∀ (s : Session) (tr : List SessionEvent) (i : SessionInput) (s' : Session)
        (o : List SessionEvent), s.client.stopRequested = false ∧ s.client.interrupted = false →
        ¬ Disconnects s i → sessionMachine.step s i = some (s', o) →
        s'.client.stopRequested = false ∧ s'.client.interrupted = false :=
      fun _ _ _ _ _ => unstopped_step
    exact (@Machine.run_invariant _ _ _ sessionMachine _ _ hstep is {} s [] tr ⟨rfl, rfl⟩ hok
      hrun).1

end TwinScreen.Tablet
