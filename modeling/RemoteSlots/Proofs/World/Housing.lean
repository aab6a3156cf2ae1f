import RemoteSlots.Proofs.Memory.Housing
import RemoteSlots.Proofs.World.Firm
import RemoteSlots.Proofs.World.Succession

/-!
This module shows that the storage of a store is a block of its own that is just as long as its slots, from the
moment on at which it is mapped: no action moves a block, shrinks it or grows it. What every operation on memory keeps
holds of the memory of every world that can come about.
-/

namespace RemoteSlots

open Std

def Stage.extent? : Stage → Option Extent
  | register _ _ extent => some extent
  | stage => stage.phase.region?.map (·.toExtent)

def Initiation.extent? : Initiation → Option Extent
  | run stage => stage.extent?
  | clear _ _ extent => some extent
  | finished (.ok active) => some active.region.toExtent
  | allocate .. | giveBack .. | finished (.error _) => none

def CallStage.extent? : CallStage → Option Extent
  | initiate initiation => initiation.extent?
  | free (.ok active) | publish active => some active.region.toExtent
  | check | claim | free (.error _) | discard _ | .over _ => none

section Leads

variable {extent : Extent} {acquired : List Handle}

theorem Stage.extent?_of_leads {name : String} {config : SessionConfig} {signals : Signals}
    {stage stage' : Stage} (h : (stage.next name config signals).Leads acquired stage')
    (hextent : stage'.extent? = some extent) : stage.extent? = some extent := by
  cases stage with
  | awaitRequest binding =>
    simp only [next] at h
    obtain ⟨-, rfl | ⟨halt, rfl⟩ | ⟨event, rfl⟩⟩ := await_leads h
    · exact hextent
    · contradiction
    · contradiction
  | awaitEstablished binding endpoint =>
    simp only [next] at h
    obtain ⟨-, rfl | ⟨halt, rfl⟩ | ⟨event, rfl⟩⟩ := await_leads h
    · exact hextent
    · contradiction
    · contradiction
  | awaitAck binding endpoint region =>
    simp only [next] at h
    obtain ⟨-, rfl | rfl | ⟨result, rfl⟩⟩ := awaitCompletion_leads h
    · exact hextent
    · exact hextent
    · exact hextent
  | announce binding endpoint region =>
    simp only [next] at h
    split at h
    · cases h
      exact hextent
    · cases h
      exact hextent
  | wipe binding endpoint region result =>
    cases h
    rcases result with _ | _
    · exact hextent
    · exact hextent
  | rest phase result =>
    cases h
    exact hextent
  | openChannel | bind | listen | giveUp | accept =>
    cases h with
    | ask _ _ reply => rcases reply with _ | _ <;> contradiction
  | register binding endpoint extent =>
    cases h with
    | ask _ _ reply =>
      rcases reply with _ | _
      · contradiction
      · exact hextent
  | send | capture =>
    cases h with
    | ask _ _ reply => rcases reply with _ | _ <;> exact hextent

theorem Initiation.extent?_of_leads {layout : Layout} {config : StoreConfig} {signals : Signals}
    {initiation initiation' : Initiation} (h : (initiation.next layout config signals).Leads acquired initiation')
    (hmap : ∀ binding endpoint, initiation ≠ allocate binding endpoint)
    (hextent : initiation'.extent? = some extent) : initiation.extent? = some extent := by
  cases initiation with
  | run stage =>
    rcases hrest : stage.result? with _ | result
    · rw [next_run hrest] at h
      obtain ⟨stage', hstage, rfl⟩ := Move.leads_embed h
      exact Stage.extent?_of_leads hstage hextent
    · cases stage with
      | rest phase result =>
        cases h
        rcases result with halt | ⟨⟩
        · contradiction
        · cases phase with
          | unbound | listening | requested | accepted => contradiction
          | registered | advertised | ready => exact hextent
      | _ => contradiction
  | allocate binding endpoint => exact absurd rfl (hmap binding endpoint)
  | clear binding endpoint extent =>
    cases h
    exact hextent
  | giveBack requests halt => rcases requests with _ | ⟨request, requests⟩ <;> cases h <;> contradiction
  | finished result =>
    cases h
    exact hextent

theorem CallStage.extent?_of_leads {store : Store} {signals : Signals} {stage stage' : CallStage}
    (h : (stage.next store signals).Leads acquired stage')
    (hmap : ∀ binding endpoint, stage ≠ initiate (.allocate binding endpoint))
    (hextent : stage'.extent? = some extent) : stage.extent? = some extent := by
  cases stage with
  | check | claim | publish =>
    cases h
    split at hextent <;> contradiction
  | initiate initiation =>
    cases initiation with
    | finished result =>
      rcases result with (_ | failure) | active
      · cases h
        contradiction
      · cases h
        contradiction
      · cases h
        exact hextent
    | run | allocate | clear | giveBack =>
      simp only [next] at h
      obtain ⟨initiation', hinitiation, rfl⟩ := Move.leads_embed h
      exact Initiation.extent?_of_leads hinitiation (fun _ _ heq => hmap _ _ (congrArg initiate heq)) hextent
  | free result =>
    rcases result with failure | active
    · cases h
      contradiction
    · cases h
      exact hextent
  | discard requests => rcases requests with _ | ⟨request, requests⟩ <;> cases h <;> contradiction
  | _ =>
    cases h
    contradiction

end Leads

namespace World

variable {w : World}

section Invariant

variable {P : Memory → Prop} (hP : Memory.IsInvariant P)

include hP

theorem holds_peer {action : Action} (hpeer : action.isPeer) (hmemory : P w.memory) : P (w.act action).memory := by
  rcases memory_peer w hpeer with heq | ⟨b, address, words, heq⟩ | ⟨b, -, -, heq⟩
  · rw [heq]
    exact hmemory
  · rw [heq]
    exact hP.storeAt _ b address words hmemory
  · rw [heq]
    exact hP.unmap _ b hmemory

theorem holds_act (h : w.Sound) (ht : w.Tidy) (action : Action) (hmemory : P w.memory) : P (w.act action).memory := by
  by_cases hpeer : action.isPeer
  · exact holds_peer hP hpeer hmemory
  · exact (effects_act h ht hpeer).holds hP hmemory

theorem Reachable.holds (h : w.Reachable) (hempty : ∀ mapper, P (.emptyOf mapper)) : P w.memory := by
  induction w, h using Reachable.induct with
  | initial mapper now => exact hempty mapper
  | act w action _ hsound htidy ih => exact holds_act hP hsound htidy action ih

end Invariant

theorem keeps_act (h : w.Sound) (ht : w.Tidy) (action : Action) : w.memory.Keeps (w.act action).memory :=
  holds_act (Memory.Keeps.isInvariant w.memory) h ht action (.refl _)

structure IsStorage (memory : Memory) (store : Store) (extent : Extent) : Prop where
  houses : memory.Houses extent
  length : extent.length = store.bufferSize

theorem IsStorage.keeps {memory memory' : Memory} {store store' : Store} {extent : Extent}
    (h : IsStorage memory store extent) (hkeeps : memory.Keeps memory') (hsetup : store.SameSetup store') :
    IsStorage memory' store' extent where
  houses := h.houses.of_keeps hkeeps
  length := by rw [h.length, Store.bufferSize, Store.bufferSize, hsetup.config, hsetup.layout]

/--
Whether every store that is ready or being initiated has its storage.
-/
structure Housed (w : World) : Prop where
  calls : ∀ (id : CallId) (call : Call) (store : Store) (extent : Extent), w.calls[id]? = some call →
    w.stores[call.store]? = some store → call.stage.extent? = some extent → IsStorage w.memory store extent
  stores : ∀ (s : StoreId) (store : Store) (active : Active), w.stores[s]? = some store →
    store.active = some active → IsStorage w.memory store active.region.toExtent

theorem isStorage_allocate {fabric : FabricId} {store : Store} {signals : Signals} {binding : Binding}
    {endpoint : Endpoint} {extent : Extent} {out : CallStage × Option Exchange × World}
    (hout : out = w.perform fabric ((CallStage.initiate (.allocate binding endpoint)).next store signals))
    (hextent : out.1.extent? = some extent) : IsStorage out.2.2.memory store extent := by
  subst hout
  simp only [CallStage.next, Initiation.next, Storage.byteSize] at hextent ⊢
  split at hextent
  · contradiction
  · next size hsize =>
    split at hsize
    · contradiction
    · injection hsize with hsize
      subst hsize
      rcases hallocate : w.memory.allocate store.config.pages (store.config.capacity * store.layout.size) with
        halt | ⟨block, memory⟩
      · simp only [Move.embed, perform, hallocate] at hextent
        contradiction
      · have hhouses := (Memory.allocate_fresh hallocate).houses
        simp only [Move.embed, perform, hallocate] at hextent ⊢
        split at hextent
        · injection hextent with hextent
          subst hextent
          exact ⟨hhouses, rfl⟩
        · injection hextent with hextent
          subst hextent
          exact ⟨hhouses, rfl⟩

theorem Housed.act (hh : w.Housed) (h : w.Sound) (ht : w.Tidy) (action : Action) : (w.act action).Housed := by
  have hkeeps := keeps_act h ht action
  constructor
  · intro id call' store' extent hcall' hstore' hextent
    -- A call has its store as long as it is there.
    have hstore : ∀ call, w.calls[id]? = some call → call.store = call'.store →
        ∃ store, w.stores[call.store]? = some store ∧ store.SameSetup store' := by
      intro call hcall hsame
      obtain ⟨store, hstore⟩ := Option.isSome_iff_exists.mp (ht.called id call hcall)
      exact ⟨store, hstore, (retains_act h ht hstore (hsame ▸ hstore')).setup⟩
    cases callSource_act h ht hcall' with
    | kept hcall =>
      obtain ⟨store, hstore, hsetup⟩ := hstore call' hcall rfl
      exact (hh.calls id call' store extent hcall hstore hextent).keeps hkeeps hsetup
    | started hstage =>
      rw [hstage] at hextent
      contradiction
    | @moved call store expired hmove hcall hfound hstage =>
      subst hmove hstage
      obtain ⟨store, hstore, hsetup⟩ := hstore call hcall rfl
      obtain rfl := Option.some.inj (hfound.symm.trans hstore)
      by_cases hmap : ∃ binding endpoint, call.stage = .initiate (.allocate binding endpoint)
      · obtain ⟨binding, endpoint, hallocate⟩ := hmap
        have hmemory := (stepCall_spec hcall hstore expired).memory
        rw [hallocate] at hextent hmemory
        have hnew := isStorage_allocate rfl hextent
        rw [← hmemory, ← act_step hcall hstore expired] at hnew
        exact hnew.keeps (.refl _) hsetup
      · have hold := CallStage.extent?_of_leads (perform_leads ..)
          (fun binding endpoint heq => hmap ⟨binding, endpoint, heq⟩) hextent
        exact (hh.calls id call _ extent hcall hstore hold).keeps hkeeps hsetup
  · intro s store' active hstore' hactive
    cases storeSource_act h ht hstore' with
    | kept hstore hsame =>
      exact (hh.stores s _ active hstore (hsame.active ▸ hactive)).keeps hkeeps hsame.setup
    | created _ hnew =>
      rw [active_new hnew] at hactive
      contradiction
    | @moved id call store expired hmove hcall hown hstore hupdate =>
      subst hupdate
      have hsetup := sameSetup_update call.stage store
      rcases active_update hactive with hactive | ⟨-, hpublish⟩
      · exact (hh.stores s store active hstore hactive).keeps hkeeps hsetup
      · refine (hh.calls id call store _ hcall (hown ▸ hstore) ?_).keeps hkeeps hsetup
        rw [hpublish]
        rfl

theorem Reachable.housed (h : w.Reachable) : w.Housed := by
  induction w, h using Reachable.induct with
  | initial mapper now => constructor <;> simp [World.initial, empty]
  | act w action _ hsound htidy ih => exact ih.act hsound htidy action

end World

end RemoteSlots
