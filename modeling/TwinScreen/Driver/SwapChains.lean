import Mathlib.Data.List.AList
import Mathlib.Logic.Function.Basic
import TwinScreen.Lib.Machine
import TwinScreen.Lib.Trace

/-!
# TwinScreen.Driver.SwapChains

The swap chains of the virtual display driver (`driver/src/Driver.cpp`):
`AssignSwapChain` and `UnassignSwapChain`, one after the other, then
`~IndirectDeviceContext`, with the processors' threads running beside them.

A swap chain is named by the order in which it is handed in, and a processor by its
swap chain.  `RunCore` may return at any time; a destructor waits for the thread.

* `swapChains_owned` — every swap chain is deleted once, after its last use, and the
  map holds the processors of the assignments that stand.
-/

namespace TwinScreen.Driver

open Lib

/-- Where `SwapChainProcessor::Run` is. -/
inductive ThreadPc
  /-- In `RunCore`. -/
  | core
  /-- At `WdfObjectDelete`. -/
  | returned
  /-- At the end of the thread. -/
  | deleted
  | exited
  deriving DecidableEq, Repr

/-- Where the OS's call into the driver is. -/
inductive Call
  | idle
  /-- `AssignSwapChain`, at `GetOrCreateDevice`. -/
  | device (monitor chain luid : Nat)
  /-- At the constructor of the new processor. -/
  | constructing (monitor chain : Nat)
  /-- At the lock, with the new processor in hand. -/
  | storing (monitor chain : Nat)
  /-- `UnassignSwapChain`, at the lock. -/
  | erasing (monitor : Nat)
  /-- In the destructor of a processor; `last` in `~IndirectDeviceContext`. -/
  | dropping (chain : Nat) (last : Bool)
  /-- `~IndirectDeviceContext`, between two processors. -/
  | destroying
  | destroyed
  deriving DecidableEq, Repr

/-- `IndirectDeviceContext`, and the threads of its processors. -/
structure Context where
  /-- The keys of `s_DeviceCache`, which outlives the context. -/
  cache : List Nat := []
  /-- `m_ProcessingThreads`: a monitor's processor. -/
  slots : AList (fun _ : Nat => Nat) := ∅
  threads : Nat → Option ThreadPc := fun _ => none
  /-- The swap chains handed in so far. -/
  handed : Nat := 0
  call : Call := .idle

/-- A step of the OS, of a call, or of a processor's thread. -/
inductive SwapOp
  | assign (monitor luid : Nat)
  | unassign (monitor : Nat)
  | destroy
  /-- `GetOrCreateDevice` returns; `ok` is the outcome of `Init`, if it is called. -/
  | device (ok : Bool)
  /-- The call goes on. -/
  | go
  /-- `RunCore` calls IddCx with its swap chain. -/
  | use (chain : Nat)
  /-- The thread goes on: `RunCore` returns, the swap chain is deleted, the thread ends. -/
  | thread (chain : Nat)
  deriving DecidableEq, Repr

inductive SwapEvent
  | handed (chain : Nat)
  | deleted (chain : Nat)
  | used (chain : Nat)
  /-- An assignment has succeeded. -/
  | assigned (monitor chain : Nat)
  /-- A monitor was unassigned, or reset by `~IndirectDeviceContext`. -/
  | unassigned (monitor : Nat)
  deriving DecidableEq, Repr

namespace Context

/-- The thread of a processor goes to a place in `Run`. -/
def setThread (s : Context) (chain : Nat) (pc : ThreadPc) : Context :=
  { s with threads := Function.update s.threads chain (some pc) }

/-- The end of a call, where the processor taken out of the map is destroyed. -/
def dropLocal : Option Nat → Call
  | none => .idle
  | some chain => .dropping chain false

/-- A call goes on. -/
def go (s : Context) : Option (Context × List SwapEvent) :=
  match s.call with
  | .constructing monitor chain =>
      some ({ s.setThread chain .core with call := .storing monitor chain }, [])
  | .storing monitor chain =>
      some ({ s with
        slots := s.slots.insert monitor chain
        call := dropLocal (s.slots.lookup monitor) }, [.assigned monitor chain])
  | .erasing monitor =>
      some ({ s with slots := s.slots.erase monitor, call := dropLocal (s.slots.lookup monitor) },
        [.unassigned monitor])
  | .dropping chain last =>
      if s.threads chain = some .exited then
        some ({ s with call := if last then .destroying else .idle }, [])
      else none
  | .destroying =>
      -- one `reset` after the other; `clear` finds no processor left
      match s.slots.entries with
      | [] => some ({ s with call := .destroyed }, [])
      | ⟨monitor, chain⟩ :: _ =>
          some ({ s with slots := s.slots.erase monitor, call := .dropping chain true },
            [.unassigned monitor])
  | .idle | .device .. | .destroyed => none

/-- One step. -/
def step (s : Context) : SwapOp → Option (Context × List SwapEvent)
  | .assign monitor luid =>
      if s.call = .idle then
        some ({ s with handed := s.handed + 1, call := .device monitor s.handed luid },
          [.handed s.handed])
      else none
  | .unassign monitor =>
      if s.call = .idle then some ({ s with call := .erasing monitor }, []) else none
  | .destroy => if s.call = .idle then some ({ s with call := .destroying }, []) else none
  | .device ok =>
      match s.call with
      | .device monitor chain luid =>
          if luid ∈ s.cache then some ({ s with call := .constructing monitor chain }, [])
          else if ok then
            some ({ s with cache := luid :: s.cache, call := .constructing monitor chain }, [])
          else some ({ s with call := .idle }, [.deleted chain])
      | _ => none
  | .go => s.go
  | .use chain => if s.threads chain = some .core then some (s, [.used chain]) else none
  | .thread chain =>
      match s.threads chain with
      | some .core => some (s.setThread chain .returned, [])
      | some .returned => some (s.setThread chain .deleted, [.deleted chain])
      | some .deleted => some (s.setThread chain .exited, [])
      | some .exited | none => none

end Context

/-- The driver with its threads. -/
def swapChains : Machine Context SwapOp SwapEvent where
  step := Context.step

/-! ## one step -/

namespace Call

/-- The swap chain of a call that has no processor yet. -/
def pending : Call → Option Nat
  | .device _ chain _ | .constructing _ chain => some chain
  | .idle | .storing .. | .erasing _ | .dropping .. | .destroying | .destroyed => none

/-- The processor in a call's hands. -/
def held : Call → Option Nat
  | .storing _ chain | .dropping chain _ => some chain
  | .idle | .device .. | .constructing .. | .erasing _ | .destroying | .destroyed => none

end Call

namespace Context

/-- What a step does. -/
inductive Does (s : Context) : Context → List SwapEvent → Prop
  | assign (monitor luid : Nat) (h : s.call = .idle) :
      Does s { s with handed := s.handed + 1, call := .device monitor s.handed luid }
        [.handed s.handed]
  | enter (call : Call) (h : s.call = .idle)
      (hcall : call.pending = none ∧ call.held = none ∧ call ≠ .destroyed) :
      Does s { s with call := call } []
  | found (cache : List Nat) (monitor chain luid : Nat) (h : s.call = .device monitor chain luid) :
      Does s { s with cache := cache, call := .constructing monitor chain } []
  | fails (monitor chain luid : Nat) (h : s.call = .device monitor chain luid) :
      Does s { s with call := .idle } [.deleted chain]
  | construct (monitor chain : Nat) (h : s.call = .constructing monitor chain) :
      Does s { s.setThread chain .core with call := .storing monitor chain } []
  | store (monitor chain : Nat) (h : s.call = .storing monitor chain) :
      Does s { s with
        slots := s.slots.insert monitor chain
        call := dropLocal (s.slots.lookup monitor) } [.assigned monitor chain]
  | erase (monitor : Nat) (h : s.call = .erasing monitor) :
      Does s { s with slots := s.slots.erase monitor, call := dropLocal (s.slots.lookup monitor) }
        [.unassigned monitor]
  | join (chain : Nat) (last : Bool) (h : s.call = .dropping chain last)
      (hexited : s.threads chain = some .exited) :
      Does s { s with call := if last then .destroying else .idle } []
  | reset (monitor chain : Nat) (h : s.call = .destroying)
      (hslot : s.slots.lookup monitor = some chain) :
      Does s { s with slots := s.slots.erase monitor, call := .dropping chain true }
        [.unassigned monitor]
  | finish (h : s.call = .destroying) (hslots : s.slots = ∅) :
      Does s { s with call := .destroyed } []
  | use (chain : Nat) (h : s.threads chain = some .core) : Does s s [.used chain]
  | returns (chain : Nat) (h : s.threads chain = some .core) :
      Does s (s.setThread chain .returned) []
  | deletes (chain : Nat) (h : s.threads chain = some .returned) :
      Does s (s.setThread chain .deleted) [.deleted chain]
  | exits (chain : Nat) (h : s.threads chain = some .deleted) :
      Does s (s.setThread chain .exited) []

/-- **Step lemma.** -/
theorem does_of_step {s s' : Context} {op : SwapOp} {os : List SwapEvent}
    (h : s.step op = some (s', os)) : Does s s' os := by
  cases op with
  | assign monitor luid =>
      simp only [step, Option.ite_none_right_eq_some] at h
      cases h.2
      exact .assign monitor luid h.1
  | unassign monitor =>
      simp only [step, Option.ite_none_right_eq_some] at h
      cases h.2
      exact .enter _ h.1 ⟨rfl, rfl, nofun⟩
  | destroy =>
      simp only [step, Option.ite_none_right_eq_some] at h
      cases h.2
      exact .enter _ h.1 ⟨rfl, rfl, nofun⟩
  | device ok =>
      simp only [step] at h
      split at h
      · next monitor chain luid hcall =>
          split at h
          · cases h
            exact .found s.cache monitor chain luid hcall
          · split at h
            · cases h
              exact .found (luid :: s.cache) monitor chain luid hcall
            · cases h
              exact .fails monitor chain luid hcall
      · contradiction
  | go =>
      simp only [step, go] at h
      split at h
      · next monitor chain hcall =>
          cases h
          exact .construct monitor chain hcall
      · next monitor chain hcall =>
          cases h
          exact .store monitor chain hcall
      · next monitor hcall =>
          cases h
          exact .erase monitor hcall
      · next chain last hcall =>
          simp only [Option.ite_none_right_eq_some] at h
          cases h.2
          exact .join chain last hcall h.1
      · next hcall =>
          split at h
          · next hslots =>
              cases h
              exact .finish hcall (AList.ext hslots)
          · next monitor chain rest hslots =>
              cases h
              have hslot : s.slots.lookup monitor = some chain := by
                rw [← Option.mem_def, AList.mem_lookup_iff, hslots]
                exact List.mem_cons_self
              exact .reset monitor chain hcall hslot
      · contradiction
      · contradiction
      · contradiction
  | use chain =>
      simp only [step, Option.ite_none_right_eq_some] at h
      cases h.2
      exact .use chain h.1
  | thread chain =>
      simp only [step] at h
      split at h
      · next hpc =>
          cases h
          exact .returns chain hpc
      · next hpc =>
          cases h
          exact .deletes chain hpc
      · next hpc =>
          cases h
          exact .exits chain hpc
      · contradiction
      · contradiction

/-! ## who owns a processor -/

/-- A processor is in the map, or in the call's hands. -/
def Owned (s : Context) (chain : Nat) : Prop :=
  (∃ monitor, s.slots.lookup monitor = some chain) ∨ s.call.held = some chain

/-- Threads belong to swap chains handed in, the call's own not among them; a thread that
has not ended is owned; and in the end the map is empty. -/
structure Sound (s : Context) : Prop where
  fresh : ∀ c, s.handed ≤ c → s.threads c = none
  pending : ∀ c, s.call.pending = some c → c < s.handed ∧ s.threads c = none
  live : ∀ c pc, s.threads c = some pc → pc = .exited ∨ s.Owned c
  finished : s.call = .destroyed → s.slots = ∅

theorem sound_start (cache : List Nat) : Sound { cache := cache } where
  fresh _ _ := rfl
  pending _ h := nomatch h
  live _ _ h := nomatch h
  finished h := nomatch h

@[simp] theorem pending_dropLocal (o : Option Nat) : (dropLocal o).pending = none := by
  cases o <;> rfl

@[simp] theorem held_dropLocal (o : Option Nat) : (dropLocal o).held = o := by
  cases o <;> rfl

theorem dropLocal_ne_destroyed (o : Option Nat) : dropLocal o ≠ .destroyed := by
  cases o <;> exact nofun

/-- What is taken out of the map is in hand. -/
theorem owned_of_taken {s s' : Context} {monitor c : Nat}
    (hothers : ∀ m, m ≠ monitor → s'.slots.lookup m = s.slots.lookup m)
    (hheld : s'.call.held = s.slots.lookup monitor)
    (h : ∃ m, s.slots.lookup m = some c) : s'.Owned c := by
  obtain ⟨m, hm⟩ := h
  by_cases heq : m = monitor
  · exact .inr (by rw [hheld, ← heq, hm])
  · exact .inl ⟨m, by rw [hothers m heq, hm]⟩

@[simp] theorem slots_setThread (s : Context) (chain : Nat) (pc : ThreadPc) :
    (s.setThread chain pc).slots = s.slots := rfl

@[simp] theorem handed_setThread (s : Context) (chain : Nat) (pc : ThreadPc) :
    (s.setThread chain pc).handed = s.handed := rfl

/-- Another place of a thread. -/
theorem threads_setThread (s : Context) (chain : Nat) (pc : ThreadPc) (c : Nat) :
    (s.setThread chain pc).threads c = if c = chain then some pc else s.threads c := by
  simp [setThread, Function.update_apply]

/-- A thread that goes on in `Run` changes nothing of who owns it. -/
theorem Sound.setThread {s : Context} (h : Sound s) {chain : Nat} {pc pc' : ThreadPc}
    (hpc : s.threads chain = some pc) (hrunning : pc ≠ .exited) :
    Sound (s.setThread chain pc') where
  fresh c hc := by
    have hne : c ≠ chain := by
      rintro rfl
      rw [h.fresh c hc] at hpc
      contradiction
    rw [threads_setThread, if_neg hne]
    exact h.fresh c hc
  pending c hc := by
    have hne : c ≠ chain := by
      rintro rfl
      rw [(h.pending c hc).2] at hpc
      contradiction
    rw [threads_setThread, if_neg hne]
    exact h.pending c hc
  live c pc₁ hc := by
    rw [threads_setThread] at hc
    split at hc
    · next heq =>
        rw [heq]
        exact .inr ((h.live chain pc hpc).resolve_left hrunning)
    · exact h.live c pc₁ hc
  finished := h.finished

/-- What is owned stays so when the map stays and the call holds nothing. -/
theorem Owned.of_slots {s s' : Context} {c : Nat} (h : s.Owned c) (hslots : s'.slots = s.slots)
    (hheld : s.call.held = none) : s'.Owned c := by
  cases h with
  | inl hslot => exact .inl (by rwa [hslots])
  | inr hcall =>
      rw [hheld] at hcall
      contradiction

/-- A step that changes the call, which held nothing, and hands out no thread. -/
theorem Sound.of_call {s s' : Context} (h : Sound s) (hheld : s.call.held = none)
    (hslots : s'.slots = s.slots) (hthreads : s'.threads = s.threads)
    (hhanded : s.handed ≤ s'.handed)
    (hpending : ∀ c, s'.call.pending = some c → c < s'.handed ∧ s.threads c = none)
    (hend : s'.call = .destroyed → s.slots = ∅) : Sound s' where
  fresh c hc := by
    rw [hthreads]
    exact h.fresh c (Nat.le_trans hhanded hc)
  pending c hc := by
    rw [hthreads]
    exact hpending c hc
  live c pc hc := by
    rw [hthreads] at hc
    exact (h.live c pc hc).imp_right fun ho => ho.of_slots hslots hheld
  finished hcall := by
    rw [hslots]
    exact hend hcall

/-- A step that takes a monitor's processor out of the map, into the call's hands. -/
theorem Sound.of_erase {s : Context} (h : Sound s) {monitor : Nat} {call : Call}
    (hheld : s.call.held = none) (hcall : call.held = s.slots.lookup monitor)
    (hpending : call.pending = none) (hend : call ≠ .destroyed) :
    Sound { s with slots := s.slots.erase monitor, call := call } where
  fresh := h.fresh
  pending c hc := by
    rw [hpending] at hc
    contradiction
  live c pc hc := by
    refine (h.live c pc hc).imp_right fun ho => ?_
    cases ho with
    | inl hslot => exact owned_of_taken (fun m hm => AList.lookup_erase_ne hm) hcall hslot
    | inr hnone =>
        rw [hheld] at hnone
        contradiction
  finished hdestroyed := absurd hdestroyed hend

theorem Sound.does {s s' : Context} {os : List SwapEvent} (h : Sound s) (hdoes : Does s s' os) :
    Sound s' := by
  cases hdoes with
  | assign monitor luid hcall =>
      refine h.of_call (by simp [hcall, Call.held]) rfl rfl (Nat.le_succ _) ?_ nofun
      intro c hc
      cases hc
      exact ⟨Nat.lt_succ_self _, h.fresh _ (Nat.le_refl _)⟩
  | enter call hcall hnext =>
      exact h.of_call (by simp [hcall, Call.held]) rfl rfl (Nat.le_refl _) (by simp [hnext.1])
        fun hend => absurd hend hnext.2.2
  | found cache monitor chain luid hcall =>
      have hpending := h.pending chain (by simp [hcall, Call.pending])
      exact h.of_call (by simp [hcall, Call.held]) rfl rfl (Nat.le_refl _)
        (by simpa [Call.pending] using hpending) nofun
  | fails monitor chain luid hcall =>
      exact h.of_call (by simp [hcall, Call.held]) rfl rfl (Nat.le_refl _) nofun nofun
  | construct monitor chain hcall =>
      -- from here on the processor is in the call's hands
      have hpending := h.pending chain (by simp [hcall, Call.pending])
      constructor
      · intro c hc
        have hle : s.handed ≤ c := hc
        show (s.setThread chain .core).threads c = none
        rw [threads_setThread, if_neg (by omega)]
        exact h.fresh c hle
      · simp [Call.pending]
      · intro c pc hc
        change (s.setThread chain .core).threads c = some pc at hc
        rw [threads_setThread] at hc
        split at hc
        · next heq => exact .inr (.inr (by simp [Call.held, heq]))
        · exact (h.live c pc hc).imp_right fun ho => ho.of_slots rfl (by simp [hcall, Call.held])
      · exact nofun
  | store monitor chain hcall =>
      constructor
      · exact h.fresh
      · simp
      · intro c pc hc
        refine (h.live c pc hc).imp_right fun ho => ?_
        cases ho with
        | inl hslot =>
            exact owned_of_taken (fun m hm => AList.lookup_insert_ne hm) (held_dropLocal _) hslot
        | inr hheld =>
            have heq : chain = c := by simpa [hcall, Call.held] using hheld
            exact .inl ⟨monitor, by simp [heq]⟩
      · exact fun hend => absurd hend (dropLocal_ne_destroyed _)
  | erase monitor hcall =>
      exact h.of_erase (by simp [hcall, Call.held]) (held_dropLocal _) (pending_dropLocal _)
        (dropLocal_ne_destroyed _)
  | join chain last hcall hexited =>
      constructor
      · exact h.fresh
      · cases last <;> simp [Call.pending]
      · intro c pc hc
        cases h.live c pc hc with
        | inl hpc => exact .inl hpc
        | inr ho =>
            cases ho with
            | inl hslot => exact .inr (.inl hslot)
            | inr hheld =>
                have heq : chain = c := by simpa [hcall, Call.held] using hheld
                have hc : s.threads c = some pc := hc
                rw [← heq, hexited] at hc
                cases hc
                exact .inl rfl
      · cases last <;> exact nofun
  | reset monitor chain hcall hslot =>
      exact h.of_erase (by simp [hcall, Call.held]) hslot.symm rfl nofun
  | finish hcall hslots =>
      exact h.of_call (by simp [hcall, Call.held]) rfl rfl (Nat.le_refl _) nofun fun _ => hslots
  | use chain hpc => exact h
  | returns chain hpc => exact h.setThread hpc nofun
  | deletes chain hpc => exact h.setThread hpc nofun
  | exits chain hpc => exact h.setThread hpc nofun

/-- When a sound context is destroyed, all its threads have exited. -/
theorem Sound.exited {s : Context} (h : Sound s) (hend : s.call = .destroyed) {c : Nat}
    {pc : ThreadPc} (hpc : s.threads c = some pc) : pc = .exited := by
  apply (h.live c pc hpc).resolve_right
  simp [Owned, h.finished hend, hend, Call.held]

/-! ## deletions -/

end Context

/-- How often a thread has deleted its swap chain. -/
def ThreadPc.deletions : ThreadPc → Nat
  | .core | .returned => 0
  | .deleted | .exited => 1

namespace Context

/-- How often a swap chain has been deleted: by its thread, or by a failed assignment,
which leaves it without one. -/
def deletions (s : Context) (chain : Nat) : Nat :=
  match s.threads chain with
  | some pc => pc.deletions
  | none => if chain < s.handed ∧ s.call.pending ≠ some chain then 1 else 0

theorem deletions_of_thread {s : Context} {chain : Nat} {pc : ThreadPc}
    (h : s.threads chain = some pc) : s.deletions chain = pc.deletions := by
  simp only [deletions, h]

theorem deletions_of_none {s : Context} {chain : Nat} (h : s.threads chain = none) :
    s.deletions chain = if chain < s.handed ∧ s.call.pending ≠ some chain then 1 else 0 := by
  simp only [deletions, h]

theorem deletions_le_one (s : Context) (chain : Nat) : s.deletions chain ≤ 1 := by
  simp only [deletions]
  split
  · next pc _ => cases pc <;> decide
  · split <;> decide

/-- The count depends on the thread and the call's own swap chain. -/
theorem deletions_congr {s s' : Context} {c : Nat} (hthreads : s'.threads c = s.threads c)
    (hhanded : s'.handed = s.handed) (hpending : s'.call.pending = s.call.pending) :
    s.deletions c = s'.deletions c := by
  simp only [deletions, hthreads, hhanded, hpending]

/-- A thread that goes on counts for itself alone. -/
theorem deletions_setThread {s : Context} {chain : Nat} {pc pc' : ThreadPc}
    (h : s.threads chain = some pc) (c : Nat) :
    (s.setThread chain pc').deletions c + (if c = chain then pc.deletions else 0) =
      s.deletions c + if c = chain then pc'.deletions else 0 := by
  by_cases heq : c = chain
  · have hself : (s.setThread chain pc').threads c = some pc' := by simp [threads_setThread, heq]
    rw [deletions_of_thread hself, heq, deletions_of_thread h, if_pos rfl, if_pos rfl, Nat.add_comm]
  · have hother : (s.setThread chain pc').threads c = s.threads c := by
      simp [threads_setThread, heq]
    rw [← deletions_congr hother rfl rfl, if_neg heq, if_neg heq]

end Context

/-- The assignment of a monitor that stands after some events. -/
def standing (monitor : Nat) (tr : List SwapEvent) : Option Nat :=
  tr.foldl (fun o e =>
    match e with
    | .assigned m chain => if m = monitor then some chain else o
    | .unassigned m => if m = monitor then none else o
    | .handed _ | .deleted _ | .used _ => o) none

@[simp] theorem standing_assigned (monitor m chain : Nat) (tr : List SwapEvent) :
    standing monitor (tr ++ [.assigned m chain]) =
      if m = monitor then some chain else standing monitor tr := by
  simp [standing]

@[simp] theorem standing_unassigned (monitor m : Nat) (tr : List SwapEvent) :
    standing monitor (tr ++ [.unassigned m]) =
      if m = monitor then none else standing monitor tr := by
  simp [standing]

@[simp] theorem standing_handed (monitor chain : Nat) (tr : List SwapEvent) :
    standing monitor (tr ++ [.handed chain]) = standing monitor tr := by
  simp [standing]

@[simp] theorem standing_deleted (monitor chain : Nat) (tr : List SwapEvent) :
    standing monitor (tr ++ [.deleted chain]) = standing monitor tr := by
  simp [standing]

@[simp] theorem standing_used (monitor chain : Nat) (tr : List SwapEvent) :
    standing monitor (tr ++ [.used chain]) = standing monitor tr := by
  simp [standing]

/-- A swap chain is used before it is deleted. -/
def UsedBefore (tr : List SwapEvent) (e : SwapEvent) : Prop :=
  ∀ c, e = .used c → .deleted c ∉ tr

/-- The context tells the events so far: the map the standing assignments, the threads
and the call the deletions. -/
structure Tells (s : Context) (tr : List SwapEvent) : Prop where
  slots : ∀ m, s.slots.lookup m = standing m tr
  deleted : ∀ c, tr.count (.deleted c) = s.deletions c
  handed : ∀ c, .handed c ∈ tr → c < s.handed
  used : Each UsedBefore tr

theorem tells_start (cache : List Nat) : Tells { cache := cache } [] where
  slots _ := rfl
  deleted _ := rfl
  handed _ h := nomatch h
  used := each_nil

/-- One more event is one more deletion, or none. -/
theorem count_deleted_concat (tr : List SwapEvent) (e : SwapEvent) (c : Nat) :
    (tr ++ [e]).count (.deleted c) = tr.count (.deleted c) + if e = .deleted c then 1 else 0 := by
  simp [List.count_singleton]

theorem count_deleted_of_ne {tr : List SwapEvent} {e : SwapEvent} {c : Nat}
    (h : e ≠ .deleted c) : (tr ++ [e]).count (.deleted c) = tr.count (.deleted c) := by
  rw [count_deleted_concat, if_neg h, Nat.add_zero]

namespace Tells

variable {s s' : Context} {tr os : List SwapEvent}

theorem slots_does (h : Tells s tr) (hdoes : s.Does s' os) (m : Nat) :
    s'.slots.lookup m = standing m (tr ++ os) := by
  have hslots := h.slots m
  cases hdoes with
  | assign | fails | use | deletes => simpa using hslots
  | enter | found | construct | join | finish | returns | exits => simpa using hslots
  | store monitor chain hcall =>
      rw [standing_assigned]
      split
      · next heq => simp [heq]
      · next hne => simpa [AList.lookup_insert_ne (Ne.symm hne)] using hslots
  | erase monitor hcall =>
      rw [standing_unassigned]
      split
      · next heq => simp [heq]
      · next hne => simpa [AList.lookup_erase_ne (Ne.symm hne)] using hslots
  | reset monitor chain hcall hslot =>
      rw [standing_unassigned]
      split
      · next heq => simp [heq]
      · next hne => simpa [AList.lookup_erase_ne (Ne.symm hne)] using hslots

theorem deleted_does (h : Tells s tr) (hsound : s.Sound) (hdoes : s.Does s' os) (c : Nat) :
    (tr ++ os).count (.deleted c) = s'.deletions c := by
  have hcount := h.deleted c
  cases hdoes with
  | assign monitor luid hcall =>
      -- the new swap chain has no thread, and is the call's own
      rw [count_deleted_of_ne (by nofun), hcount]
      cases hpc : s.threads c with
      | some pc => rw [Context.deletions_of_thread hpc, Context.deletions_of_thread (by exact hpc)]
      | none =>
          rw [Context.deletions_of_none hpc, Context.deletions_of_none (by exact hpc)]
          simp only [hcall, Call.pending]
          grind
  | enter call hcall hnext =>
      rw [List.append_nil, hcount]
      exact Context.deletions_congr rfl rfl (hnext.1.trans (by simp [hcall, Call.pending]))
  | found cache monitor chain luid hcall =>
      rw [List.append_nil, hcount]
      exact Context.deletions_congr rfl rfl (by simp [hcall, Call.pending])
  | fails monitor chain luid hcall =>
      obtain ⟨hlt, hnone⟩ := hsound.pending chain (by simp [hcall, Call.pending])
      rw [count_deleted_concat, hcount]
      cases hpc : s.threads c with
      | some pc =>
          rw [Context.deletions_of_thread hpc, Context.deletions_of_thread (by exact hpc)]
          grind
      | none =>
          rw [Context.deletions_of_none hpc, Context.deletions_of_none (by exact hpc)]
          simp only [hcall, Call.pending]
          grind
  | construct monitor chain hcall =>
      obtain ⟨hlt, hnone⟩ := hsound.pending chain (by simp [hcall, Call.pending])
      rw [List.append_nil, hcount]
      simp only [Context.deletions, Context.threads_setThread]
      by_cases heq : c = chain
      · simp [heq, hnone, hcall, Call.pending, ThreadPc.deletions]
      · simp [heq, Ne.symm heq, hcall, Call.pending]
  | store monitor chain hcall =>
      rw [count_deleted_of_ne (by nofun), hcount]
      exact Context.deletions_congr rfl rfl
        ((Context.pending_dropLocal _).trans (by simp [hcall, Call.pending]))
  | erase monitor hcall =>
      rw [count_deleted_of_ne (by nofun), hcount]
      exact Context.deletions_congr rfl rfl
        ((Context.pending_dropLocal _).trans (by simp [hcall, Call.pending]))
  | join chain last hcall hexited =>
      rw [List.append_nil, hcount]
      exact Context.deletions_congr rfl rfl (by cases last <;> simp [hcall, Call.pending])
  | reset monitor chain hcall hslot =>
      rw [count_deleted_of_ne (by nofun), hcount]
      exact Context.deletions_congr rfl rfl (by simp [hcall, Call.pending])
  | finish hcall hslots =>
      rw [List.append_nil, hcount]
      exact Context.deletions_congr rfl rfl (by simp [hcall, Call.pending])
  | use chain hpc => simpa using hcount
  | returns chain hpc =>
      have hset := @Context.deletions_setThread s chain _ .returned hpc c
      rw [List.append_nil, hcount]
      simpa [ThreadPc.deletions] using hset.symm
  | deletes chain hpc =>
      have hset := @Context.deletions_setThread s chain _ .deleted hpc c
      rw [count_deleted_concat, hcount]
      simp only [ThreadPc.deletions] at hset
      grind
  | exits chain hpc =>
      have hset := @Context.deletions_setThread s chain _ .exited hpc c
      rw [List.append_nil, hcount]
      simp only [ThreadPc.deletions] at hset
      omega

theorem handed_does (h : Tells s tr) (hdoes : s.Does s' os) {c : Nat}
    (hmem : .handed c ∈ tr ++ os) : c < s'.handed := by
  cases hdoes with
  | assign monitor luid hcall =>
      show c < s.handed + 1
      have := h.handed c
      grind
  | enter | found | construct | join | finish | returns | exits =>
      exact h.handed c (by simpa using hmem)
  | fails | store | erase | reset | use | deletes => exact h.handed c (by simpa using hmem)

theorem used_does (h : Tells s tr) (hdoes : s.Does s' os) : Each UsedBefore (tr ++ os) := by
  cases hdoes with
  | enter | found | construct | join | finish | returns | exits =>
      rw [List.append_nil]
      exact h.used
  | assign | fails | store | erase | reset | deletes =>
      exact (each_concat tr _).mpr ⟨h.used, nofun⟩
  | use chain hpc =>
      rw [each_concat]
      refine ⟨h.used, fun c hc => ?_⟩
      cases hc
      rw [← List.count_eq_zero, h.deleted]
      simp [Context.deletions_of_thread hpc, ThreadPc.deletions]

theorem does (h : Tells s tr) (hsound : s.Sound) (hdoes : s.Does s' os) : Tells s' (tr ++ os) where
  slots := h.slots_does hdoes
  deleted := h.deleted_does hsound hdoes
  handed _ hmem := h.handed_does hdoes hmem
  used := h.used_does hdoes

end Tells

/-- **Run lemma.** -/
theorem tells_of_run {cache : List Nat} {ops : List SwapOp} {s : Context} {tr : List SwapEvent}
    (hrun : swapChains.run { cache := cache } ops = some (s, tr)) : s.Sound ∧ Tells s tr := by
  have hstep : ∀ (s : Context) (tr : List SwapEvent) (op : SwapOp) (s' : Context)
      (os : List SwapEvent), s.Sound ∧ Tells s tr → True →
      swapChains.step s op = some (s', os) → s'.Sound ∧ Tells s' (tr ++ os) := by
    intro s tr op s' os h _ hop
    have hdoes := Context.does_of_step hop
    exact ⟨h.1.does hdoes, h.2.does h.1 hdoes⟩
  have hinv := swapChains.run_invariant hstep ⟨Context.sound_start cache, tells_start cache⟩
    (swapChains.along_true _ ops) hrun
  rwa [List.nil_append] at hinv

/-- **Ownership**: after any run of calls and threads, the map holds for each monitor
the processor of the assignment that stands, and nothing else; a swap chain is deleted
at most once, not while `RunCore` runs, and not used afterwards; and when the context
is destroyed every swap chain handed in has been deleted. -/
theorem swapChains_owned (cache : List Nat) (ops : List SwapOp) (s : Context)
    (tr : List SwapEvent) (hrun : swapChains.run { cache := cache } ops = some (s, tr)) :
    s.slots.keys.Nodup ∧
      (∀ m c, ⟨m, c⟩ ∈ s.slots.entries ↔ standing m tr = some c) ∧
      (∀ c, tr.count (.deleted c) ≤ 1) ∧
      (∀ c, s.threads c = some .core → .deleted c ∉ tr) ∧
      (∀ pre c post, tr = pre ++ .deleted c :: post → .used c ∉ post) ∧
      (s.call = .destroyed → ∀ c, .handed c ∈ tr → tr.count (.deleted c) = 1) := by
  obtain ⟨hsound, htells⟩ := tells_of_run hrun
  refine ⟨s.slots.nodupKeys, ?_, ?_, ?_, ?_, ?_⟩
  · intro m c
    rw [← htells.slots m, ← Option.mem_def, AList.mem_lookup_iff]
  · intro c
    rw [htells.deleted c]
    exact s.deletions_le_one c
  · intro c hcore
    rw [← List.count_eq_zero, htells.deleted c, Context.deletions_of_thread hcore]
    rfl
  · intro pre c post htr hmem
    -- a use after the deletion would break the law of the uses
    obtain ⟨mid, rest, rfl⟩ := List.append_of_mem hmem
    have hlaw := htells.used (pre ++ .deleted c :: mid) (.used c) rest (by simp [htr])
    exact hlaw c rfl (by simp)
  · intro hend c hmem
    rw [htells.deleted c]
    cases hpc : s.threads c with
    | some pc =>
        rw [Context.deletions_of_thread hpc, hsound.exited hend hpc]
        rfl
    | none =>
        rw [Context.deletions_of_none hpc]
        simp [htells.handed c hmem, hend, Call.pending]

/-- A failed assignment, one whose thread ends early and which is replaced, one
unassigned, and one for the destructor. -/
theorem swapChains_owned_destroyed :
    ∃ s tr, swapChains.run {} [.assign 7 1, .device false, .assign 7 1, .device true, .go, .use 1,
        .go, .thread 1, .assign 7 1, .device false, .go, .go, .use 2, .thread 1, .thread 1, .go,
        .unassign 7, .go, .thread 2, .thread 2, .thread 2, .go, .assign 8 1, .device false, .go,
        .go, .destroy, .go, .thread 3, .thread 3, .thread 3, .go, .go] = some (s, tr) ∧
      [.handed 0, .handed 1, .handed 2, .handed 3].all (· ∈ tr) ∧
      ∀ c, .handed c ∈ tr → tr.count (.deleted c) = 1 := by
  have hsome : ((swapChains.run {} [.assign 7 1, .device false, .assign 7 1, .device true, .go,
      .use 1, .go, .thread 1, .assign 7 1, .device false, .go, .go, .use 2, .thread 1, .thread 1,
      .go, .unassign 7, .go, .thread 2, .thread 2, .thread 2, .go, .assign 8 1, .device false, .go,
      .go, .destroy, .go, .thread 3, .thread 3, .thread 3, .go, .go]).map fun r =>
        (r.1.call, [SwapEvent.handed 0, .handed 1, .handed 2, .handed 3].all (· ∈ r.2))) =
      some (.destroyed, true) := by decide +kernel
  obtain ⟨⟨s, tr⟩, hrun, hpair⟩ := Option.map_eq_some_iff.mp hsome
  obtain ⟨hend, hhanded⟩ := Prod.mk.inj hpair
  exact ⟨s, tr, hrun, hhanded, (swapChains_owned [] _ s tr hrun).2.2.2.2.2 hend⟩

end TwinScreen.Driver
