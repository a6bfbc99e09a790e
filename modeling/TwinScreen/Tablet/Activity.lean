import TwinScreen.Tablet.Session

/-!
# TwinScreen.Tablet.Activity

`MainActivity` (`MainActivity.kt`) with the clients it starts: taps, back presses and
the OS's `onDestroy` on the UI thread, and in between the runnables that the client
threads have posted, in the order of posting.  Only what the views are of is kept, not
their texts.

* `started_of_run` — each client started is a session of its own.
* `activity_coherent_iff` — the activity renders its own client, and has no other
  client running, in all states of exactly the runs whose steps are `Orderly`.
-/

namespace TwinScreen.Tablet

open Lib

/-! ## the activity -/

/-- A runnable on the UI thread's queue: a callback, with the client that made it. -/
inductive Posted
  | onConnected (c : Nat)
  | onReconnecting (c : Nat)
  | onDisconnected (c : Nat)
  deriving DecidableEq

/-- `MainActivity`, the clients it has started, and the UI thread's queue. -/
structure MainActivity where
  client : Option Nat := none
  rendering : Bool := false
  destroyed : Bool := false
  /-- The content view: the render screen of a client, or else the connect UI. -/
  screen : Option Nat := none
  /-- A client is named by the order of its start. -/
  started : List Session := []
  queue : List Posted := []
  deriving DecidableEq

/-- What can happen next. -/
inductive ActivityInput
  /-- A tap on Connect, with a host in the field or not. -/
  | connectTap (hostGiven : Bool)
  | backPress
  | disconnectTap
  /-- The OS destroys the activity. -/
  | destroy
  /-- The UI thread runs the next runnable. -/
  | runPosted
  /-- A step of a client's thread, or of a thread that sends through it. -/
  | clientStep (c : Nat) (i : SessionInput)
  deriving DecidableEq

namespace MainActivity

/-- `disconnect()` of a client. -/
def disconnect (a : MainActivity) (c : Nat) : MainActivity :=
  { a with
    started := a.started.modify c fun s => { s with client := s.client.disconnect } }

def connectTo (a : MainActivity) : MainActivity :=
  { a with client := some a.started.length, started := a.started ++ [{}] }

def showRenderScreen (a : MainActivity) (c : Nat) : MainActivity := { a with screen := some c }

def onHostConnected (a : MainActivity) (c : Nat) : MainActivity :=
  if a.rendering then a else { a with rendering := true }.showRenderScreen c

def onClientStopped (a : MainActivity) : MainActivity :=
  { a with
    rendering := false
    client := none
    screen := if a.destroyed then a.screen else none }

def stopClient (a : MainActivity) : MainActivity :=
  match a.client with
  | none => a
  | some c => (a.disconnect c).onClientStopped

/-- `onBackPressed`; `super.onBackPressed` changes nothing here. -/
def onBackPressed (a : MainActivity) : MainActivity :=
  match a.client.bind (a.started[·]?) with
  | none => a
  | some s => if s.client.connected ∨ s.client.reconnectActive then a.stopClient else a

def onDestroy (a : MainActivity) : MainActivity :=
  match a.client with
  | none => { a with destroyed := true }
  | some c => { a with destroyed := true }.disconnect c

/-- A runnable of `connectTo`'s callbacks. -/
def run (a : MainActivity) : Posted → MainActivity
  | .onConnected c => if a.destroyed then a else a.onHostConnected c
  -- a text, or a toast
  | .onReconnecting _ => a
  | .onDisconnected c =>
      if a.destroyed = false ∧ a.client = some c then a.onClientStopped else a

end MainActivity

/-- The callback of an event, as `connectTo` wires it up. -/
def posted (c : Nat) : SessionEvent → Option Posted
  | .onConnected => some (.onConnected c)
  | .scheduleReconnect => some (.onReconnecting c)
  | .onDisconnected => some (.onDisconnected c)
  | .tryConnect | .linkLost => none

/-- One step; the buttons are there as long as their screen is. -/
def MainActivity.step (a : MainActivity) : ActivityInput → Option MainActivity
  | .connectTap hostGiven =>
      if a.destroyed ∨ a.screen ≠ none then none
      else some (if hostGiven then a.connectTo else a)
  | .backPress => if a.destroyed then none else some a.onBackPressed
  | .disconnectTap => if a.destroyed ∨ a.screen = none then none else some a.stopClient
  | .destroy => if a.destroyed then none else some a.onDestroy
  | .runPosted =>
      match a.queue with
      | [] => none
      | p :: queue => some ({ a with queue := queue }.run p)
  | .clientStep c i =>
      -- `disconnect()` is the activity's own call
      if i = .userDisconnect then none
      else
        match a.started[c]? with
        | none => none
        | some s =>
            (sessionStep s i).map fun (s', events) =>
              { a with
                started := a.started.set c s'
                queue := a.queue ++ events.filterMap (posted c) }

/-- The activity as a machine, which shows its state after each step. -/
def mainActivity : Machine MainActivity ActivityInput MainActivity where
  step a i := (a.step i).map fun a' => (a', [a'])

namespace MainActivity

/-- What a step does. -/
inductive Does (a : MainActivity) : ActivityInput → MainActivity → Prop
  | blank : Does a (.connectTap false) a
  | connect (hscreen : a.screen = none) : Does a (.connectTap true) a.connectTo
  | back : Does a .backPress a.onBackPressed
  | disconnect : Does a .disconnectTap a.stopClient
  | destroy : Does a .destroy a.onDestroy
  | runnable (p : Posted) (queue : List Posted) (hqueue : a.queue = p :: queue) :
      Does a .runPosted ({ a with queue := queue }.run p)
  | client (c : Nat) (i : SessionInput) (s s' : Session) (events : List SessionEvent)
      (hs : a.started[c]? = some s) (hsession : sessionStep s i = some (s', events)) :
      Does a (.clientStep c i)
        { a with
          started := a.started.set c s'
          queue := a.queue ++ events.filterMap (posted c) }

/-- Every step is by one of the rules. -/
theorem does_of_step {a a' : MainActivity} {i : ActivityInput} (hstep : a.step i = some a') :
    Does a i a' := by
  cases i with
  | connectTap hostGiven =>
      simp only [step, Option.ite_none_left_eq_some, not_or, Classical.not_not] at hstep
      obtain ⟨⟨-, hscreen⟩, hstep⟩ := hstep
      cases hostGiven <;> cases hstep
      · exact .blank
      · exact .connect hscreen
  | backPress =>
      simp only [step, Option.ite_none_left_eq_some] at hstep
      cases hstep.2
      exact .back
  | disconnectTap =>
      simp only [step, Option.ite_none_left_eq_some] at hstep
      cases hstep.2
      exact .disconnect
  | destroy =>
      simp only [step, Option.ite_none_left_eq_some] at hstep
      cases hstep.2
      exact .destroy
  | runPosted =>
      simp only [step] at hstep
      split at hstep
      · contradiction
      · next p queue hqueue =>
          cases hstep
          exact .runnable p queue hqueue
  | clientStep c i =>
      simp only [step, Option.ite_none_left_eq_some] at hstep
      obtain ⟨-, hstep⟩ := hstep
      split at hstep
      · contradiction
      · next s hs =>
          obtain ⟨⟨s', events⟩, hsession, rfl⟩ := Option.map_eq_some_iff.mp hstep
          exact .client c i s s' events hs hsession

/-! ## one client at a time -/

/-- A client has been started, and `disconnect()` has not been called on it
(`started_of_run`). -/
def Running (a : MainActivity) (c : Nat) : Prop :=
  ∃ s, a.started[c]? = some s ∧ s.client.stopRequested = false

/-- The activity renders its client, and no other client is running. -/
structure Coherent (a : MainActivity) : Prop where
  rendering : a.rendering = true → ∃ c, a.client = some c ∧ a.screen = some c
  running : ∀ c, a.Running c → a.client = some c

/-- The steps that keep to one client: no tap on Connect while the activity's client is
running, and no render screen for a client that is not the activity's. -/
def Orderly (a : MainActivity) : ActivityInput → Prop
  | .connectTap hostGiven => hostGiven = true → ∀ c, a.client = some c → ¬ a.Running c
  | .runPosted =>
      ∀ c, a.queue.head? = some (.onConnected c) → a.destroyed = false → a.rendering = false →
        a.client = some c
  | _ => True

/-! ## which clients run -/

theorem running_congr {a a' : MainActivity} (h : a'.started = a.started) (c : Nat) :
    a'.Running c ↔ a.Running c := by
  simp only [Running, h]

theorem running_disconnect (a : MainActivity) (d c : Nat) :
    (a.disconnect d).Running c ↔ d ≠ c ∧ a.Running c := by
  by_cases h : d = c
  · simp [Running, disconnect, Client.disconnect, h]
  · simp [Running, disconnect, h]

theorem Running.lt {a : MainActivity} {c : Nat} (h : a.Running c) : c < a.started.length := by
  obtain ⟨s, hs, -⟩ := h
  exact (List.getElem?_eq_some_iff.mp hs).1

theorem running_connectTo (a : MainActivity) (c : Nat) :
    a.connectTo.Running c ↔ a.Running c ∨ c = a.started.length := by
  by_cases hlt : c < a.started.length
  · have hne : c ≠ a.started.length := by omega
    simp [Running, connectTo, List.getElem?_append_left hlt, hne]
  · have hnot : ¬ a.Running c := fun h => hlt h.lt
    simp only [hnot, false_or]
    by_cases heq : c = a.started.length
    · simp [Running, connectTo, heq]
    · have hnone : a.connectTo.started[c]? = none := by
        rw [List.getElem?_eq_none_iff]
        simp only [connectTo, List.length_append, List.length_singleton]
        omega
      simp [Running, hnone, heq]

/-- A step of a client starts none anew. -/
theorem running_of_clientStep {a : MainActivity} {c d : Nat} {s s' : Session}
    {i : SessionInput} {events : List SessionEvent} {queue : List Posted}
    (hs : a.started[c]? = some s) (hstep : sessionStep s i = some (s', events))
    (h : { a with started := a.started.set c s', queue := queue }.Running d) : a.Running d := by
  obtain ⟨sd, hsd, hrunning⟩ := h
  simp only [List.getElem?_set] at hsd
  split at hsd
  · next heq =>
      split at hsd
      · cases hsd
        refine ⟨s, heq ▸ hs, ?_⟩
        apply Bool.eq_false_iff.mpr
        intro hstop
        rw [stopRequested_step hstop hstep] at hrunning
        contradiction
      · contradiction
  · exact ⟨sd, hsd, hrunning⟩

/-! ## one step -/

namespace Coherent

variable {a : MainActivity}

/-- The queue does not matter. -/
theorem queue (h : Coherent a) (q : List Posted) : Coherent { a with queue := q } :=
  ⟨h.rendering, h.running⟩

/-- A stop, where the activity's client has been disconnected. -/
theorem onClientStopped (h : ∀ c, ¬ a.Running c) : Coherent a.onClientStopped where
  rendering := nofun
  running c hc := absurd hc (h c)

theorem stopClient (h : Coherent a) : Coherent a.stopClient := by
  simp only [MainActivity.stopClient]
  split
  · exact h
  · next c hclient =>
      -- whoever else was running would have been the client
      apply onClientStopped
      intro d
      rw [running_disconnect]
      grind [h.running d]

theorem onBackPressed (h : Coherent a) : Coherent a.onBackPressed := by
  simp only [MainActivity.onBackPressed]
  split
  · exact h
  · split
    · exact h.stopClient
    · exact h

theorem onDestroy (h : Coherent a) : Coherent a.onDestroy := by
  simp only [MainActivity.onDestroy]
  split
  · exact ⟨h.rendering, h.running⟩
  · exact ⟨h.rendering, fun c hc => h.running c ((running_disconnect _ _ _).mp hc).2⟩

theorem clientStep (h : Coherent a) {c : Nat} {s s' : Session} {i : SessionInput}
    {events : List SessionEvent} (q : List Posted) (hs : a.started[c]? = some s)
    (hstep : sessionStep s i = some (s', events)) :
    Coherent { a with started := a.started.set c s', queue := q } where
  rendering := h.rendering
  running d hd := h.running d (running_of_clientStep hs hstep hd)

/-- A new client is the only one exactly if the last one is not running. -/
theorem connectTo_iff (h : Coherent a) (hscreen : a.screen = none) :
    Coherent a.connectTo ↔ ∀ c, a.client = some c → ¬ a.Running c := by
  have hnot : a.rendering = false := by
    apply Bool.eq_false_iff.mpr
    intro hrendering
    obtain ⟨c, -, hc⟩ := h.rendering hrendering
    rw [hscreen] at hc
    contradiction
  constructor
  · intro hnew c hclient hrunning
    have heq := hnew.running c ((running_connectTo a c).mpr (.inl hrunning))
    have hlt := hrunning.lt
    simp [MainActivity.connectTo] at heq
    omega
  · intro hstopped
    constructor
    · intro hrendering
      rw [show a.connectTo.rendering = a.rendering from rfl, hnot] at hrendering
      contradiction
    · intro c hc
      rw [running_connectTo] at hc
      cases hc with
      | inl hold => exact absurd hold (hstopped c (h.running c hold))
      | inr hnew => simp [MainActivity.connectTo, hnew]

/-- A render screen is the client's exactly if it is shown for the client. -/
theorem onHostConnected_iff (h : Coherent a) (c : Nat) :
    Coherent (a.onHostConnected c) ↔ (a.rendering = false → a.client = some c) := by
  simp only [MainActivity.onHostConnected, showRenderScreen]
  split
  · next hrendering => simp [h, hrendering]
  · next hnot =>
      constructor
      · intro hnew _
        obtain ⟨d, hclient, hscreen⟩ := hnew.rendering rfl
        cases hscreen
        exact hclient
      · intro hclient
        exact ⟨fun _ => ⟨c, hclient (by simpa using hnot), rfl⟩, h.running⟩

end Coherent

/-! ## late callbacks -/

/-- A client whose `onDisconnected` is still queued has been disconnected. -/
def Late (a : MainActivity) : Prop :=
  ∀ c, .onDisconnected c ∈ a.queue → c < a.started.length ∧ ¬ a.Running c

/-- Nothing is posted, no client comes back, and a client is new, as it was, or
disconnected. -/
structure Onward (a a' : MainActivity) : Prop where
  queue : a'.queue = a.queue
  started : a.started.length ≤ a'.started.length
  running : ∀ c, c < a.started.length → a'.Running c → a.Running c
  sessions : ∀ s' ∈ a'.started, s' = {} ∨ s' ∈ a.started ∨
    ∃ s ∈ a.started, s' = { s with client := s.client.disconnect }

theorem Late.onward {a a' : MainActivity} (h : Late a) (hon : Onward a a') : Late a' := by
  intro c hc
  rw [hon.queue] at hc
  obtain ⟨hlt, hnot⟩ := h c hc
  exact ⟨Nat.lt_of_lt_of_le hlt hon.started, fun hrunning => hnot (hon.running c hlt hrunning)⟩

/-- Fields other than these do not matter. -/
theorem Onward.of_eq {a a' : MainActivity} (hqueue : a'.queue = a.queue)
    (hstarted : a'.started = a.started) : Onward a a' where
  queue := hqueue
  started := by rw [hstarted]
  running c _ hc := (running_congr hstarted c).mp hc
  sessions s' hs' := .inr (.inl (hstarted ▸ hs'))

theorem onward_disconnect (a : MainActivity) (d : Nat) : Onward a (a.disconnect d) where
  queue := rfl
  started := by simp [disconnect]
  running c _ hc := ((running_disconnect a d c).mp hc).2
  sessions s' hs' := by
    obtain ⟨i, hi⟩ := List.mem_iff_getElem?.mp hs'
    rw [disconnect, List.getElem?_modify, Option.map_eq_map, Option.map_eq_some_iff] at hi
    obtain ⟨s, hs, rfl⟩ := hi
    have hmem := List.mem_of_getElem? hs
    split
    · exact .inr (.inr ⟨s, hmem, rfl⟩)
    · exact .inr (.inl hmem)

theorem onward_connectTo (a : MainActivity) : Onward a a.connectTo where
  queue := rfl
  started := by simp [connectTo]
  running c hlt hc := ((running_connectTo a c).mp hc).resolve_right (Nat.ne_of_lt hlt)
  sessions s' hs' := by
    rw [connectTo, List.mem_append, List.mem_singleton] at hs'
    exact hs'.symm.imp_right .inl

theorem onward_stopClient (a : MainActivity) : Onward a a.stopClient := by
  simp only [stopClient]
  split
  · exact .of_eq rfl rfl
  · next c _ =>
      have h := onward_disconnect a c
      exact ⟨h.queue, h.started, h.running, h.sessions⟩

theorem onward_onBackPressed (a : MainActivity) : Onward a a.onBackPressed := by
  simp only [onBackPressed]
  split
  · exact .of_eq rfl rfl
  · split
    · exact onward_stopClient a
    · exact .of_eq rfl rfl

theorem onward_onDestroy (a : MainActivity) : Onward a a.onDestroy := by
  simp only [onDestroy]
  split
  · exact .of_eq rfl rfl
  · next c _ =>
      have h := onward_disconnect a c
      exact ⟨h.queue, h.started, h.running, h.sessions⟩

theorem onward_run (a : MainActivity) (p : Posted) : Onward a (a.run p) := by
  cases p with
  | onConnected c =>
      simp only [run, onHostConnected]
      split
      · exact .of_eq rfl rfl
      · split <;> exact .of_eq rfl rfl
  | onReconnecting c => exact .of_eq rfl rfl
  | onDisconnected c =>
      simp only [run]
      split <;> exact .of_eq rfl rfl

/-- `onDisconnected` comes from a client that has been disconnected. -/
theorem stopRequested_of_onDisconnected {s s' : Session} {i : SessionInput}
    {events : List SessionEvent} (hstep : sessionStep s i = some (s', events))
    (h : .onDisconnected ∈ events) : s'.client.stopRequested = true := by
  cases steps_of_sessionStep hstep with
  | stop hpc hstop => exact hstop
  | _ => simp at h

/-- A callback that stays queued, or is posted now. -/
theorem Late.clientStep {a : MainActivity} {c : Nat} {s s' : Session} {i : SessionInput}
    {events : List SessionEvent} (h : Late a) (hs : a.started[c]? = some s)
    (hstep : sessionStep s i = some (s', events)) :
    Late { a with
      started := a.started.set c s'
      queue := a.queue ++ events.filterMap (posted c) } := by
  intro d hd
  have hlength : (a.started.set c s').length = a.started.length := by simp
  rw [List.mem_append, List.mem_filterMap] at hd
  cases hd with
  | inl hold =>
      obtain ⟨hlt, hnot⟩ := h d hold
      exact ⟨hlength ▸ hlt, fun hrunning => hnot (running_of_clientStep hs hstep hrunning)⟩
  | inr hnew =>
      obtain ⟨e, he, hposted⟩ := hnew
      cases e with
      | onDisconnected =>
          cases hposted
          have hstop := stopRequested_of_onDisconnected hstep he
          have hlt : c < a.started.length := (List.getElem?_eq_some_iff.mp hs).1
          refine ⟨hlength ▸ hlt, fun hrunning => ?_⟩
          obtain ⟨sc, hsc, hfalse⟩ := hrunning
          rw [List.getElem?_set_self hlt] at hsc
          cases hsc
          rw [hstop] at hfalse
          contradiction
      | onConnected | scheduleReconnect | tryConnect | linkLost => simp [posted] at hposted

theorem Late.step {a a' : MainActivity} {i : ActivityInput} (h : Late a)
    (hstep : a.step i = some a') : Late a' := by
  cases does_of_step hstep with
  | blank => exact h
  | connect => exact h.onward (onward_connectTo a)
  | back => exact h.onward (onward_onBackPressed a)
  | disconnect => exact h.onward (onward_stopClient a)
  | destroy => exact h.onward (onward_onDestroy a)
  | runnable p queue hqueue =>
      have hrest : Late { a with queue := queue } :=
        fun c hc => h c (by rw [hqueue]; exact List.mem_cons_of_mem p hc)
      exact hrest.onward (onward_run _ p)
  | client c i s s' events hs hsession => exact h.clientStep hs hsession

/-! ## the clients' own runs -/

/-- A session that a client's thread, other senders and `disconnect()` have led to. -/
def Reached (s : Session) : Prop := ∃ is tr, sessionMachine.run {} is = some (s, tr)

theorem Reached.step {s s' : Session} {i : SessionInput} {events : List SessionEvent}
    (h : Reached s) (hstep : sessionStep s i = some (s', events)) : Reached s' := by
  obtain ⟨is, tr, hrun⟩ := h
  exact ⟨_, _, sessionMachine.run_concat hrun hstep⟩

theorem Onward.reached {a a' : MainActivity} (hon : Onward a a')
    (h : ∀ s ∈ a.started, Reached s) : ∀ s' ∈ a'.started, Reached s' := by
  intro s' hs'
  obtain rfl | hold | ⟨s, hs, rfl⟩ := hon.sessions s' hs'
  · exact ⟨[], [], rfl⟩
  · exact h s' hold
  · exact (h s hs).step (i := .userDisconnect) rfl

theorem reached_step {a a' : MainActivity} {i : ActivityInput} (h : ∀ s ∈ a.started, Reached s)
    (hstep : a.step i = some a') : ∀ s' ∈ a'.started, Reached s' := by
  cases does_of_step hstep with
  | blank => exact h
  | connect => exact (onward_connectTo a).reached h
  | back => exact (onward_onBackPressed a).reached h
  | disconnect => exact (onward_stopClient a).reached h
  | destroy => exact (onward_onDestroy a).reached h
  | runnable p queue hqueue => exact (onward_run { a with queue := queue } p).reached h
  | client c i s s' events hs hsession =>
      intro sc hsc
      cases List.mem_or_eq_of_mem_set hsc with
      | inl hold => exact h sc hold
      | inr heq => exact heq ▸ (h s (List.mem_of_getElem? hs)).step hsession

/-! ## over a run -/

/-- A runnable: `onConnected` alone does not ask whose it is. -/
theorem Coherent.run_iff {a : MainActivity} {p : Posted} (h : Coherent a)
    (hlate : ∀ c, p = .onDisconnected c → ¬ a.Running c) :
    Coherent (a.run p) ↔
      ∀ c, p = .onConnected c → a.destroyed = false → a.rendering = false → a.client = some c := by
  cases p with
  | onConnected c =>
      simp only [run]
      split
      · next hdestroyed => simp [h, hdestroyed]
      · next hnot => simp [h.onHostConnected_iff c, hnot]
  | onReconnecting c => simp [run, h]
  | onDisconnected c =>
      refine iff_of_true ?_ nofun
      simp only [run]
      split
      · next hclient =>
          apply Coherent.onClientStopped
          intro d hrunning
          have heq : d = c := Option.some.inj ((h.running d hrunning).symm.trans hclient.2)
          exact hlate c rfl (heq ▸ hrunning)
      · exact h

/-- **Step lemma**: a step stays coherent exactly if it is orderly. -/
theorem Coherent.step_iff {a a' : MainActivity} {i : ActivityInput} (h : Coherent a)
    (hlate : Late a) (hstep : a.step i = some a') : Coherent a' ↔ a.Orderly i := by
  cases does_of_step hstep with
  | blank => simp [Orderly, h]
  | connect hscreen => simp [Orderly, h.connectTo_iff hscreen]
  | back => exact iff_of_true h.onBackPressed trivial
  | disconnect => exact iff_of_true h.stopClient trivial
  | destroy => exact iff_of_true h.onDestroy trivial
  | runnable p queue hqueue =>
      have hlate : ∀ c, p = .onDisconnected c → ¬ a.Running c :=
        fun c hp => (hlate c (by simp [hqueue, hp])).2
      simpa [Orderly, hqueue] using (h.queue queue).run_iff hlate
  | client c i s s' events hs hsession => exact iff_of_true (h.clientStep _ hs hsession) trivial

end MainActivity

/-- The clients of the activity are sessions, and `disconnect()` has been called on those
that are not running. -/
theorem started_of_run {is : List ActivityInput} {a : MainActivity} {tr : List MainActivity}
    (hrun : mainActivity.run {} is = some (a, tr)) {c : Nat} {s : Session}
    (hs : a.started[c]? = some s) :
    ∃ js events, sessionMachine.run {} js = some (s, events) ∧
      (a.Running c ↔ sessionMachine.Along (fun s i => ¬ Disconnects s i) {} js) := by
  have hstep (a : MainActivity) (i : ActivityInput) (a' : MainActivity) (os : List MainActivity)
      (h : ∀ s ∈ a.started, MainActivity.Reached s) (hstep : mainActivity.step a i = some (a', os)) :
      ∀ s ∈ a'.started, MainActivity.Reached s := by
    obtain ⟨b, hb, hpair⟩ := Option.map_eq_some_iff.mp hstep
    cases hpair
    exact MainActivity.reached_step h hb
  obtain ⟨js, events, hsession⟩ :=
    mainActivity.state_invariant hstep (fun _ h => absurd h List.not_mem_nil) hrun s
      (List.mem_of_getElem? hs)
  refine ⟨js, events, hsession, ?_⟩
  rw [← stopRequested_eq_false_iff hsession]
  simp [MainActivity.Running, hs]

/-- **One client**: the activity renders its own client, and has no other client running,
in every state that a run shows exactly if its steps are orderly. -/
theorem activity_coherent_iff (is : List ActivityInput) (a : MainActivity)
    (tr : List MainActivity) (hrun : mainActivity.run {} is = some (a, tr)) :
    (∀ b ∈ tr, b.Coherent) ↔ mainActivity.Along MainActivity.Orderly {} is := by
  have hone : ∀ (a : MainActivity) (i : ActivityInput) (a' : MainActivity)
      (os : List MainActivity), mainActivity.step a i = some (a', os) →
      a.step i = some a' ∧ os = [a'] := by
    intro a i a' os hstep
    obtain ⟨b, hb, hpair⟩ := Option.map_eq_some_iff.mp hstep
    cases hpair
    exact ⟨hb, rfl⟩
  have hlaw : ∀ (a : MainActivity) (i : ActivityInput) (a' : MainActivity)
      (os : List MainActivity), a.Coherent ∧ a.Late → mainActivity.step a i = some (a', os) →
      ((∀ b ∈ os, b.Coherent) ↔ a.Orderly i) := by
    intro a i a' os h hstep
    obtain ⟨hnext, rfl⟩ := hone a i a' os hstep
    rw [List.forall_mem_singleton]
    exact h.1.step_iff h.2 hnext
  have hinv : ∀ (a : MainActivity) (i : ActivityInput) (a' : MainActivity)
      (os : List MainActivity), a.Coherent ∧ a.Late → a.Orderly i →
      mainActivity.step a i = some (a', os) → a'.Coherent ∧ a'.Late := by
    intro a i a' os h hok hstep
    obtain ⟨hnext, -⟩ := hone a i a' os hstep
    exact ⟨(h.1.step_iff h.2 hnext).mpr hok, h.2.step hnext⟩
  have hstart : MainActivity.Coherent {} ∧ MainActivity.Late {} :=
    ⟨⟨nofun, fun c hc => by simp [MainActivity.Running] at hc⟩, nofun⟩
  exact mainActivity.forall_outputs_iff_along hlaw hinv hstart hrun

/-- A tap on Connect, and a client thread that gets its ack. -/
def connects : List ActivityInput :=
  [.connectTap true, .clientStep 0 .go, .clientStep 0 (.connect true), .clientStep 0 (.write true),
    .clientStep 0 (.ackRead (some sameVersion))]

theorem activity_coherent_iff_connects :
    ∃ a tr, mainActivity.run {} (connects ++ [.runPosted, .disconnectTap]) = some (a, tr) ∧
      ∀ b ∈ tr, b.Coherent := by
  have hsome : (mainActivity.run {} (connects ++ [.runPosted, .disconnectTap])).isSome := by
    decide +kernel
  obtain ⟨⟨a, tr⟩, hrun⟩ := Option.isSome_iff_exists.mp hsome
  refine ⟨a, tr, hrun, (activity_coherent_iff _ a tr hrun).mpr ?_⟩
  simp [connects, Machine.Along, mainActivity, MainActivity.step, MainActivity.Orderly,
    MainActivity.connectTo, sessionStep, goOn, sendRaw, sameVersion, posted]

/-- Two taps on Connect leave the first client running; and an `onConnected` that comes
after the user has gone back renders a client that is not there. -/
theorem activity_not_coherent :
    (∃ a tr, mainActivity.run {} [.connectTap true, .connectTap true] = some (a, tr) ∧
      a ∈ tr ∧ ¬ a.Coherent ∧ a.Running 0 ∧ a.client = some 1) ∧
    ∃ a tr, mainActivity.run {} (connects ++ [.backPress, .runPosted]) = some (a, tr) ∧
      a ∈ tr ∧ ¬ a.Coherent ∧ a.rendering = true ∧ a.client = none := by
  constructor
  · refine ⟨_, _, rfl, by decide, fun h => ?_, ⟨{}, rfl, rfl⟩, rfl⟩
    have hclient := h.running 0 ⟨{}, rfl, rfl⟩
    exact absurd hclient (by decide)
  · refine ⟨_, _, rfl, by decide, fun h => ?_, rfl, rfl⟩
    obtain ⟨c, hclient, -⟩ := h.rendering rfl
    contradiction

end TwinScreen.Tablet
