import RemoteSlots.Proofs.World.Perform

/-!
This module shows calls as machines of moves. A call that initiates a store runs the initiation between
claiming the store and making it ready; what it does to the store itself is one change with every move.
-/

namespace RemoteSlots

open Std

namespace CallStage

def next (store : Store) (signals : Signals) : CallStage → Move CallStage
  | check => .pass (if store.isReady then .over (.error (.failed (Call.tooLate "Ready"))) else claim)
  | claim =>
    .pass (if store.initiating then .over (.error (.failed (Call.tooLate "initiating")))
      else initiate (.start store.config))
  | initiate (.finished (.ok active)) => .pass (free (.ok active))
  | initiate (.finished (.error (.failed failure))) => .pass (free (.error failure))
  | initiate (.finished (.error .faulted)) => .pass (.over (.error .faulted))
  | initiate initiation =>
    (initiation.next store.layout store.config signals).embed initiate
  | free (.ok active) => .pass (publish active)
  | free (.error failure) => .pass (.over (.error (.failed failure)))
  | publish active => .pass (if store.isReady then discard active.phase.release else .over (.ok ()))
  | discard (request :: requests) => .ask request fun _ => discard requests
  | discard [] => .pass (.over (.error (.failed (Call.tooLate "Ready"))))
  | .over result => .pass (.over result)

def update (store : Store) : CallStage → Store
  | claim => { store with initiating := true }
  | free _ => { store with initiating := false }
  | publish active => { store with active := some (store.active.getD active) }
  | _ => store

variable {store : Store} {signals : Signals}

theorem mem_handles_of_uses {stage : CallStage} {handle : Handle}
    (h : handle ∈ (stage.next store signals).uses) : handle ∈ stage.custody.handles := by
  cases stage with
  | initiate initiation =>
    cases initiation with
    | finished result => rcases result with (_ | failure) | active <;> contradiction
    | run | allocate | clear | giveBack =>
      simp only [next, Move.uses_embed] at h
      exact Initiation.mem_handles_of_uses h
  | discard requests =>
    cases requests with
    | nil => contradiction
    | cons request requests => exact Custody.mem_handles_of_mem_release (List.mem_cons_self ..) h
  | free result => rcases result with failure | active <;> contradiction
  | _ => contradiction

theorem custody_step {stage stage' : CallStage} {acquired : List Handle}
    (h : (stage.next store signals).Leads acquired stage')
    (hready : ∀ active, stage = .publish active → store.isReady) :
    Custody.Step stage.custody (stage.next store signals).request? acquired stage'.custody := by
  cases stage with
  | check =>
    cases h
    split
    · exact .keep ..
    · exact .keep ..
  | claim =>
    cases h
    split
    · exact .keep ..
    · exact .keep ..
  | initiate initiation =>
    cases initiation with
    | finished result =>
      rcases result with (_ | failure) | active
      · cases h
        exact .keep ..
      · cases h
        exact .keep ..
      · cases h
        exact .keep ..
    | run | allocate | clear | giveBack =>
      simp only [next] at h ⊢
      obtain ⟨initiation', hinitiation, rfl⟩ := Move.leads_embed h
      rw [Move.request?_embed]
      exact Initiation.custody_step hinitiation
  | free result =>
    rcases result with failure | active
    · cases h
      exact .keep ..
    · cases h
      exact .keep ..
  | publish active =>
    cases h
    rw [if_pos (hready active rfl)]
    exact .unmapped ..
  | discard requests =>
    cases requests with
    | nil =>
      cases h
      exact .keep ..
    | cons request requests =>
      cases h with
      | ask _ _ reply => exact .given ..
  | _ =>
    cases h
    exact .keep ..

inductive Follows (store : Store) : CallStage → CallStage → Prop
  | ready : store.isReady → Follows store check (.over (.error (.failed (Call.tooLate "Ready"))))
  | checked : store.active = none → Follows store check claim
  | claimed : store.initiating → Follows store claim (.over (.error (.failed (Call.tooLate "initiating"))))
  | start : store.initiating = false → Follows store claim (initiate (.start store.config))
  | run {initiation : Initiation} (initiation' : Initiation) : (∀ result, initiation ≠ .finished result) →
    Follows store (initiate initiation) (initiate initiation')
  | acquired (active : Active) : Follows store (initiate (.finished (.ok active))) (free (.ok active))
  | failed (failure : Failure) :
    Follows store (initiate (.finished (.error (.failed failure)))) (free (.error failure))
  | faulted : Follows store (initiate (.finished (.error .faulted))) (.over (.error .faulted))
  | freed (active : Active) : Follows store (free (.ok active)) (publish active)
  | ended (failure : Failure) : Follows store (free (.error failure)) (.over (.error (.failed failure)))
  | published (active : Active) : store.active = none → Follows store (publish active) (.over (.ok ()))
  | late (active : Active) : store.isReady → Follows store (publish active) (discard active.phase.release)
  | discard (request : Request) (requests : List Request) :
    Follows store (discard (request :: requests)) (discard requests)
  | discarded : Follows store (discard []) (.over (.error (.failed (Call.tooLate "Ready"))))
  | stays (result : Except Halt Unit) : Follows store (.over result) (.over result)

theorem follows_of_leads {stage stage' : CallStage} {acquired : List Handle}
    (h : (stage.next store signals).Leads acquired stage') : Follows store stage stage' := by
  cases stage with
  | check =>
    cases h
    split
    · next hready => exact .ready hready
    · next hready => exact .checked (by simpa [Store.isReady] using hready)
  | claim =>
    cases h
    split
    · next hclaimed => exact .claimed hclaimed
    · next hclaimed => exact .start (by simpa using hclaimed)
  | initiate initiation =>
    cases initiation with
    | finished result =>
      rcases result with (failure | _) | active
      · cases h
        exact .failed failure
      · cases h
        exact .faulted
      · cases h
        exact .acquired active
    | run | allocate | clear | giveBack =>
      simp only [next] at h
      obtain ⟨initiation', -, rfl⟩ := Move.leads_embed h
      exact .run initiation' fun _ heq => by contradiction
  | free result =>
    rcases result with failure | active
    · cases h
      exact .ended failure
    · cases h
      exact .freed active
  | publish active =>
    cases h
    split
    · next hready => exact .late active hready
    · next hready => exact .published active (by simpa [Store.isReady] using hready)
  | discard requests =>
    cases requests with
    | nil =>
      cases h
      exact .discarded
    | cons request requests =>
      cases h with
      | ask _ _ reply => exact .discard request requests
  | «over» result =>
    cases h
    exact .stays result

theorem publish_of_leads {stage : CallStage} {acquired : List Handle} (hover : stage ≠ .over (.ok ()))
    (h : (stage.next store signals).Leads acquired (.over (.ok ()))) :
    store.active = none ∧ ∃ active, stage = .publish active := by
  cases follows_of_leads h with
  | published active hidle => exact ⟨hidle, active, rfl⟩
  | stays => exact absurd rfl hover

end CallStage

/--
What a step of a call does: it makes a move, takes note of where it stands then, and changes its store.
-/
structure World.CallStep (w : World) (id : CallId) (call : Call) (fabric : FabricId)
    (move : Move CallStage) (store' : Store) (out : Option Exchange × World) : Prop where
  exchange : out.1 = (w.perform fabric move).2.1
  now : out.2.now = w.now
  memory : out.2.memory = (w.perform fabric move).2.2.memory
  net : out.2.net = (w.perform fabric move).2.2.net
  scripts : out.2.scripts = (w.perform fabric move).2.2.scripts
  lastId : out.2.lastId = w.lastId
  sessions : out.2.sessions = w.sessions
  calls : ∀ other, out.2.calls[other]? =
    if id = other then some { call with stage := (w.perform fabric move).1 } else w.calls[other]?
  stores : ∀ other, out.2.stores[other]? =
    if call.store = other then some store' else w.stores[other]?

namespace World

variable {w : World} {id : CallId} {call : Call} {store store' : Store} {fabric : FabricId}
  {move : Move CallStage}

theorem getElem?_insert_stores (w : World) (id other : StoreId) (store : Store) :
    (w.stores.insert id store)[other]? = if id = other then some store else w.stores[other]? := by
  rw [TreeMap.getElem?_insert]
  simp only [Std.compare_eq_iff_eq]

theorem CallStep.of_stores (w : World) (id : CallId) (call : Call) (fabric : FabricId)
    (move : Move CallStage) {stores : TreeMap StoreId Store}
    (hstores : ∀ other, stores[other]? = if call.store = other then some store' else w.stores[other]?) :
    w.CallStep id call fabric move store'
      ((w.perform fabric move).2.1,
        { (w.perform fabric move).2.2 with stores }.setStage id call (w.perform fabric move).1) where
  exchange := rfl
  now := now_perform ..
  memory := rfl
  net := rfl
  scripts := rfl
  lastId := lastId_perform ..
  sessions := sessions_perform ..
  calls := by
    intro other
    unfold setStage
    rw [TreeMap.getElem?_insert, calls_perform]
    simp only [Std.compare_eq_iff_eq]
  stores := hstores

theorem stepCall_spec (hcall : w.calls[id]? = some call) (hstore : w.stores[call.store]? = some store)
    (expired : Bool) :
    w.CallStep id call store.fabric
      (call.stage.next store { cancelled := store.cancelled, expired, now := w.now }) (call.stage.update store)
      (w.stepCall id call store expired) := by
  have hsame : ∀ other, w.stores[other]? = if call.store = other then some store else w.stores[other]? := by
    intro other
    split
    · next heq => rw [← heq, hstore]
    · rfl
  have hkeep : ∀ move : Move CallStage, w.CallStep id call store.fabric move store
      ((w.perform store.fabric move).2.1,
        (w.perform store.fabric move).2.2.setStage id call (w.perform store.fabric move).1) := by
    intro move
    have hout := CallStep.of_stores w id call store.fabric move hsame
    rw [← stores_perform w store.fabric move] at hout
    exact hout
  obtain ⟨s, stage⟩ := call
  cases stage with
  | check =>
    simp only [stepCall, CallStage.next, CallStage.update]
    split
    · exact hkeep (.pass _)
    · exact hkeep (.pass _)
  | claim =>
    simp only [stepCall, CallStage.next, CallStage.update]
    split
    · next hinitiating =>
      have hstore' : { store with initiating := true } = store := by rw [← hinitiating]
      rw [hstore']
      exact hkeep (.pass _)
    · exact CallStep.of_stores w id _ store.fabric (.pass _) (getElem?_insert_stores w s · _)
  | initiate initiation =>
    have hmove := hkeep ((initiation.next store.layout store.config
      { cancelled := store.cancelled, expired, now := w.now }).embed .initiate)
    rw [perform_embed] at hmove
    cases initiation with
    | finished result =>
      rcases result with (_ | failure) | active
      · exact hkeep (.pass _)
      · exact hkeep (.pass _)
      · exact hkeep (.pass _)
    | run | allocate | clear | giveBack => exact hmove
  | free result =>
    rcases result with failure | active
    · exact CallStep.of_stores w id _ store.fabric (.pass _) (getElem?_insert_stores w s · _)
    · exact CallStep.of_stores w id _ store.fabric (.pass _) (getElem?_insert_stores w s · _)
  | publish active =>
    simp only [stepCall, CallStage.next, CallStage.update]
    rcases hactive : store.active with _ | old
    · rw [if_neg (by simp [Store.isReady, hactive]), if_neg (by simp [Store.isReady, hactive])]
      exact CallStep.of_stores w id _ store.fabric (.pass _) (getElem?_insert_stores w s · _)
    · have hstore' : { store with active := some old } = store := by rw [← hactive]
      rw [if_pos (by simp [Store.isReady, hactive]), if_pos (by simp [Store.isReady, hactive]),
        Option.getD_some, hstore']
      exact hkeep (.pass _)
  | discard requests =>
    cases requests with
    | nil => exact hkeep (.pass _)
    | cons request requests => exact hkeep (.ask request fun _ => .discard requests)
  | _ =>
    refine ⟨rfl, rfl, rfl, rfl, rfl, rfl, rfl, ?_, hsame⟩
    intro other
    split
    · next heq =>
      subst heq
      exact hcall
    · rfl

end World

end RemoteSlots
