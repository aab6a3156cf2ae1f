import RemoteSlots.Proofs.World.Call

/-!
This module contains the milestones of an initiation that goes well, and what a call holds at each of them.
-/

namespace RemoteSlots

/--
How far an initiation has come that nothing has failed in yet.
-/
inductive Milestone where
  | listening
  | connected (endpoint : Endpoint)
  | mapped (endpoint : Endpoint) (extent : Extent)
  | registered (endpoint : Endpoint) (region : Region)
  | announced (endpoint : Endpoint) (region : Region)
  -- The metadata was sent, well or not.
  | sent (endpoint : Endpoint) (region : Region)
  | acknowledged (endpoint : Endpoint) (region : Region)
  -- The front of the region is zero again.
  | wiped (endpoint : Endpoint) (region : Region)
  | captured (endpoint : Endpoint) (region : Region) (baseline : Psn)

namespace Milestone

def endpoint? : Milestone → Option Endpoint
  | listening => none
  | connected endpoint | mapped endpoint _ | registered endpoint _ | announced endpoint _ | sent endpoint _
  | acknowledged endpoint _ | wiped endpoint _ | captured endpoint _ _ => some endpoint

def region? : Milestone → Option Region
  | listening | connected _ | mapped .. => none
  | registered _ region | announced _ region | sent _ region | acknowledged _ region | wiped _ region
  | captured _ region _ => some region

def extent? : Milestone → Option Extent
  | mapped _ extent => some extent
  | milestone => milestone.region?.map (·.toExtent)

def baseline? : Milestone → Option Psn
  | captured _ _ baseline => some baseline
  | _ => none

def isUnsent : Milestone → Bool
  | listening | connected _ | mapped .. | registered .. | announced .. => true
  | _ => false

def isAcknowledged : Milestone → Bool
  | acknowledged .. | wiped .. | captured .. => true
  | _ => false

def isWiped : Milestone → Bool
  | wiped .. | captured .. => true
  | _ => false

def registrations (milestone : Milestone) : List Registration :=
  milestone.region?.toList.map fun region => ⟨region.toExtent, region.keys.localKey, .full⟩

def expected : Milestone → Nat → UInt32
  | announced _ region, i | sent _ region, i | acknowledged _ region, i =>
    (Stage.metadata region).toWords[i]?.getD 0
  | _, _ => 0

theorem endpoint?_isSome_of_extent? {milestone : Milestone} {extent : Extent}
    (h : milestone.extent? = some extent) : milestone.endpoint?.isSome := by
  cases milestone <;> first | rfl | contradiction

theorem extent?_of_region? {milestone : Milestone} {region : Region} (h : milestone.region? = some region) :
    milestone.extent? = some region.toExtent := by
  cases milestone with
  | listening | connected | mapped => contradiction
  | registered | announced | sent | acknowledged | wiped | captured =>
    injection h with h
    subst h
    rfl

theorem extent_of_mem_registrations {milestone : Milestone} {extent : Extent} {registration : Registration}
    (h : milestone.extent? = some extent) (hmem : registration ∈ milestone.registrations) :
    registration.extent = extent := by
  obtain ⟨region, hregion, rfl⟩ := List.mem_map.mp hmem
  rw [Option.mem_toList] at hregion
  rw [extent?_of_region? hregion] at h
  injection h

end Milestone

def Stage.milestone? : Stage → Option Milestone
  | openChannel _ | bind _ | listen _ | awaitRequest _ | accept .. => some .listening
  | awaitEstablished _ endpoint | rest (.accepted _ endpoint) (.ok ()) => some (.connected endpoint)
  | register _ endpoint extent => some (.mapped endpoint extent)
  | rest (.registered _ endpoint region) (.ok ()) | announce _ endpoint region =>
    some (.registered endpoint region)
  | send _ endpoint region => some (.announced endpoint region)
  | awaitAck _ endpoint region => some (.sent endpoint region)
  | wipe _ endpoint region (.ok ()) => some (.acknowledged endpoint region)
  | rest (.advertised _ endpoint region) (.ok ()) | capture _ endpoint region =>
    some (.wiped endpoint region)
  | rest (.ready _ endpoint region baseline) (.ok ()) => some (.captured endpoint region baseline)
  | _ => none

def CallStage.milestone? : CallStage → Option Milestone
  | initiate (.run stage) => stage.milestone?
  | initiate (.allocate _ endpoint) => some (.connected endpoint)
  | initiate (.clear _ endpoint extent) => some (.mapped endpoint extent)
  | initiate (.finished (.ok active)) | free (.ok active) | publish active =>
    some (.captured active.endpoint active.region active.baseline)
  | _ => none

theorem Stage.custody_of_milestone {stage : Stage} {milestone : Milestone}
    (h : stage.milestone? = some milestone) :
    (∀ endpoint, milestone.endpoint? = some endpoint → .endpoint endpoint.handle ∈ stage.custody.handles) ∧
      ∀ extent, milestone.extent? = some extent → extent.block ∈ stage.custody.blocks := by
  cases stage with
  | openChannel | bind | listen | awaitRequest | accept =>
    injection h with h
    subst h
    exact ⟨fun _ heq => by contradiction, fun _ heq => by contradiction⟩
  | giveUp => contradiction
  | awaitEstablished =>
    injection h with h
    subst h
    refine ⟨?_, fun _ heq => by contradiction⟩
    rintro _ ⟨⟩
    exact List.mem_cons_self ..
  | register | announce | send | awaitAck | capture =>
    injection h with h
    subst h
    refine ⟨?_, ?_⟩
    · rintro _ ⟨⟩
      exact List.mem_cons_self ..
    · rintro _ ⟨⟩
      exact List.mem_singleton_self _
  | wipe binding endpoint region result =>
    rcases result with failure | ⟨⟩
    · contradiction
    · injection h with h
      subst h
      refine ⟨?_, ?_⟩
      · rintro _ ⟨⟩
        exact List.mem_cons_self ..
      · rintro _ ⟨⟩
        exact List.mem_singleton_self _
  | rest phase result =>
    rcases result with halt | ⟨⟩
    · cases phase <;> contradiction
    · cases phase with
      | unbound | listening | requested => contradiction
      | accepted =>
        injection h with h
        subst h
        refine ⟨?_, fun _ heq => by contradiction⟩
        rintro _ ⟨⟩
        exact List.mem_cons_self ..
      | registered | advertised | ready =>
        injection h with h
        subst h
        refine ⟨?_, ?_⟩
        · rintro _ ⟨⟩
          exact List.mem_cons_self ..
        · rintro _ ⟨⟩
          exact List.mem_singleton_self _

theorem CallStage.custody_of_milestone {stage : CallStage} {milestone : Milestone}
    (h : stage.milestone? = some milestone) :
    (∀ endpoint, milestone.endpoint? = some endpoint → .endpoint endpoint.handle ∈ stage.custody.handles) ∧
      ∀ extent, milestone.extent? = some extent → extent.block ∈ stage.custody.blocks := by
  have hactive : ∀ active : Active, milestone = .captured active.endpoint active.region active.baseline →
      (∀ endpoint, milestone.endpoint? = some endpoint →
        .endpoint endpoint.handle ∈ active.phase.custody.handles) ∧
      ∀ extent, milestone.extent? = some extent → extent.block ∈ active.phase.custody.blocks := by
    rintro active rfl
    exact @Stage.custody_of_milestone (.rest active.phase (.ok ())) _ rfl
  cases stage with
  | initiate initiation =>
    cases initiation with
    | run stage => exact Stage.custody_of_milestone h
    | allocate binding endpoint =>
      exact @Stage.custody_of_milestone (.rest (.accepted binding endpoint) (.ok ())) _ h
    | clear binding endpoint extent =>
      exact @Stage.custody_of_milestone (.register binding endpoint extent) _ h
    | giveBack => contradiction
    | finished result =>
      rcases result with halt | active
      · contradiction
      · injection h with h
        exact hactive active h.symm
  | free result =>
    rcases result with failure | active
    · contradiction
    · injection h with h
      exact hactive active h.symm
  | publish active =>
    injection h with h
    exact hactive active h.symm
  | _ => contradiction

end RemoteSlots
