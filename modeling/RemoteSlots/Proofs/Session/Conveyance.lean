import RemoteSlots.Proofs.Initiation.Handshake
import RemoteSlots.Proofs.Metadata.Codec
import RemoteSlots.Proofs.Session.Advertisement
import RemoteSlots.Proofs.Session.Scene
import RemoteSlots.Proofs.World.Blocks
import RemoteSlots.Proofs.World.Delivery

/-!
This module follows the metadata of a region on its way to the peer. It goes through memory: with one move the session
writes the metadata into the front of the region as four words, and with its next one it sends these words as sixteen
bytes. What the peer is told is therefore what is in memory by then, and this is the encoding of the metadata as long
as nobody wrote over it.
-/

namespace RemoteSlots

open Std

def Stage.advertised? : Stage → Option (Except Halt Metadata)
  | rest _ (.error halt) => some (.error halt)
  | rest phase (.ok ()) => phase.region?.map fun region => .ok (metadata region)
  | _ => none

namespace Memory

def front (memory : Memory) (b : BlockId) : List UInt32 := (List.range 4).map (memory.word b)

theorem front_store {memory : Memory} {b : BlockId} (h : Metadata.wireLength ≤ memory.length b) {words : List UInt32}
    (hwords : words.length = 4) : (memory.store b 0 words).front b = words := by
  apply List.ext_getElem
  · rw [front, List.length_map, List.length_range, hwords]
  · intro i _ hi
    have hlt : i < 4 := hwords ▸ hi
    simp only [front, List.getElem_map, List.getElem_range]
    rw [word_store_front h hwords, if_pos hlt, List.getElem?_eq_getElem hi]
    rfl

end Memory

theorem Loopback.payload?_element {memory : Memory} {link : Link} {region : Region}
    (hregions : link.regions = [⟨region.toExtent, region.keys.localKey, .full⟩])
    (hhouses : memory.Houses region.toExtent) (hroom : Metadata.wireLength ≤ region.length) :
    payload? memory link (Stage.element region) = some (bytesOfWords (memory.front region.block)) := by
  have hoffers : ∃ registration ∈ link.regions, registration.Offers (Stage.element region) := by
    have hlength : (Stage.element region).length = 4 * 4 := rfl
    refine ⟨⟨region.toExtent, region.keys.localKey, .full⟩, ?_, rfl, ?_, hhouses.aligned, Nat.le_refl _, ?_⟩
    · rw [hregions]
      exact List.mem_singleton_self _
    · rw [hlength, Nat.mul_mod_right]
    · rw [hlength, Nat.mul_div_cancel_left 4 (by decide)]
      exact Nat.add_le_add_left hroom region.address
  obtain ⟨_, _, _, message, hsome, -⟩ := payload?_eq_some memory hoffers
  rcases World.Holds.payload_cases hregions hhouses.toBacks with hnone | ⟨-, hfront⟩
  · rw [hsome] at hnone
    contradiction
  · have hlength : 4 * 4 ≤ memory.length region.block := hhouses.length.symm ▸ hroom
    rw [hfront, Memory.load_front hlength]
    rfl

namespace World

structure HasWritten (w : World) (id : SessionId) (region : Region) (actions early : List Action) (put : Bool)
    (late : List Action) : Prop where
  run : actions = early ++ .step (.session id) put :: late
  moves : (early ++ late).countP (·.isStepOf id) = 0
  room : Metadata.wireLength ≤ region.length
  front_eq : (w.after (early ++ [.step (.session id) put])).memory.front region.block =
    (Stage.metadata region).toWords

structure HasConveyed (w : World) (id : SessionId) (endpoint : Endpoint) (region : Region)
    (actions front early : List Action) (put : Bool) (late : List Action) (posted : Bool) (rest : List Action)
    (message : List UInt8) : Prop where
  written : w.HasWritten id region front early put late
  run : actions = front ++ .step (.session id) posted :: rest
  posts : (w.after front).Posts (.step (.session id) posted) endpoint advertiseRequest (Stage.element region) true
  message_eq : message = bytesOfWords ((w.after front).memory.front region.block)
  told : ∃ link, (w.after front).net.links[endpoint.handle]? = some link ∧ link.serverClosed = false ∧
    w.observe (told endpoint.handle) actions = if link.peerClosed then [] else [message]

def IsConveyed (w : World) (id : SessionId) (endpoint : Endpoint) (region : Region) (actions : List Action) : Prop :=
  ∃ front early put late posted rest message,
    w.HasConveyed id endpoint region actions front early put late posted rest message

inductive Conveys (w : World) (id : SessionId) (binding : Binding) (endpoint : Endpoint) (region : Region)
    (actions : List Action) : Stage → Prop
  | announce (htold : w.observe (told endpoint.handle) actions = []) (hmoves : actions.countP (·.isStepOf id) = 0) :
    Conveys w id binding endpoint region actions (.announce binding endpoint region)
  | short (htold : w.observe (told endpoint.handle) actions = []) (hmoves : actions.countP (·.isStepOf id) = 1)
    (halt : Halt) :
    Conveys w id binding endpoint region actions (.rest (.registered binding endpoint region) (.error halt))
  | send (htold : w.observe (told endpoint.handle) actions = []) {early late : List Action} {put : Bool}
    (hwritten : w.HasWritten id region actions early put late) :
    Conveys w id binding endpoint region actions (.send binding endpoint region)
  | awaitAck (hconveyed : w.IsConveyed id endpoint region actions) :
    Conveys w id binding endpoint region actions (.awaitAck binding endpoint region)
  | wipe (hconveyed : w.IsConveyed id endpoint region actions) (result : Except Failure Unit) :
    Conveys w id binding endpoint region actions (.wipe binding endpoint region result)
  | failed (hconveyed : w.IsConveyed id endpoint region actions) (halt : Halt) :
    Conveys w id binding endpoint region actions (.rest (.registered binding endpoint region) (.error halt))
  | ended (hconveyed : w.IsConveyed id endpoint region actions) :
    Conveys w id binding endpoint region actions (.rest (.advertised binding endpoint region) (.ok ()))

variable {w : World} {id : SessionId} {session : Session} {binding : Binding} {endpoint : Endpoint} {region : Region}
  {actions front early late rest : List Action} {put posted : Bool} {message : List UInt8} {action : Action}
  {stage : Stage}

theorem isStepOf_step (id : SessionId) (expired : Bool) : (Action.step (.session id) expired).isStepOf id = true :=
  decide_eq_true rfl

theorem HasWritten.countP_eq (h : w.HasWritten id region actions early put late) :
    actions.countP (·.isStepOf id) = 1 := by
  have hmoves := h.moves
  rw [List.countP_append] at hmoves
  rw [h.run, List.countP_append, List.countP_cons, isStepOf_step, if_pos rfl]
  omega

theorem HasWritten.concat (h : w.HasWritten id region actions early put late)
    (hstep : ∀ expired, action ≠ .step (.session id) expired) :
    w.HasWritten id region (actions ++ [action]) early put (late ++ [action]) where
  run := by rw [h.run, List.append_assoc, List.cons_append]
  moves := by rw [← List.append_assoc, countP_concat_of_others hstep, h.moves]
  room := h.room
  front_eq := h.front_eq

theorem IsConveyed.two_le (h : w.IsConveyed id endpoint region actions) : 2 ≤ actions.countP (·.isStepOf id) := by
  obtain ⟨front, early, put, late, posted, rest, message, h⟩ := h
  rw [h.run, List.countP_append, List.countP_cons, h.written.countP_eq, isStepOf_step, if_pos rfl]
  omega

theorem IsConveyed.room (h : w.IsConveyed id endpoint region actions) : Metadata.wireLength ≤ region.length := by
  obtain ⟨front, early, put, late, posted, rest, message, h⟩ := h
  exact h.written.room

theorem IsConveyed.concat (h : w.IsConveyed id endpoint region actions)
    (htold : (w.after actions).told endpoint.handle action = []) :
    w.IsConveyed id endpoint region (actions ++ [action]) := by
  obtain ⟨front, early, put, late, posted, rest, message, h⟩ := h
  refine ⟨front, early, put, late, posted, rest ++ [action], message, h.written, ?_, h.posts, h.message_eq, ?_⟩
  · rw [h.run, List.append_assoc, List.cons_append]
  · rw [observe_concat, htold, List.append_nil]
    exact h.told

theorem HasConveyed.message_eq_encode_iff
    (h : w.HasConveyed id endpoint region actions front early put late posted rest message) :
    message = (Stage.metadata region).encode ↔ (w.after front).memory.front region.block =
      (w.after (early ++ [.step (.session id) put])).memory.front region.block := by
  rw [h.message_eq, Metadata.encode, bytesOfWords_inj, h.written.front_eq]

theorem HasConveyed.message_eq_encode_of_alone
    (h : w.HasConveyed id endpoint region actions front early put [] posted rest message) :
    message = (Stage.metadata region).encode := by
  rw [h.message_eq_encode_iff, h.written.run]

theorem Conveys.others (h : w.Conveys id binding endpoint region actions stage) (hrunning : stage.result? = none)
    (hstep : ∀ expired, action ≠ .step (.session id) expired)
    (hquiet : (w.after actions).told endpoint.handle action = []) :
    w.Conveys id binding endpoint region (actions ++ [action]) stage := by
  have htold : w.observe (told endpoint.handle) actions = [] →
      w.observe (told endpoint.handle) (actions ++ [action]) = [] := fun htold => by
    rw [observe_concat, htold, hquiet, List.nil_append]
  cases h with
  | announce hsilent hmoves => exact .announce (htold hsilent) ((countP_concat_of_others hstep).trans hmoves)
  | send hsilent hwritten => exact .send (htold hsilent) (hwritten.concat hstep)
  | awaitAck hconveyed => exact .awaitAck (hconveyed.concat hquiet)
  | wipe hconveyed result => exact .wipe (hconveyed.concat hquiet) result
  | short | failed | ended => contradiction

theorem memory_step_session (hsession : w.sessions[id]? = some session) (expired : Bool) :
    (w.act (.step (.session id) expired)).memory = (session.upcoming expired w.now).touch w.memory := by
  simp only [act, step, hsession, stepSession]
  exact memory_perform ..

theorem posts_of_send (hsession : w.sessions[id]? = some session) (hfabric : session.fabric = .loopback)
    (hstage : session.stage = .send binding endpoint region) (expired : Bool) :
    w.Posts (.step (.session id) expired) endpoint advertiseRequest (Stage.element region) true := by
  simp only [Posts, served?, fabric?, step, hsession, stepSession, hstage, hfabric, Stage.next, perform,
    Option.map_some, if_true]

section Moves

variable (hstands : (w.after actions).sessions[id]? = some session) (hfabric : session.fabric = .loopback)
  (expired : Bool)

include hstands hfabric

theorem Conveys.writes (hstage : session.stage = .announce binding endpoint region)
    (hhouses : Metadata.wireLength ≤ region.length → (w.after actions).memory.Houses region.toExtent)
    (htold : w.observe (told endpoint.handle) actions = []) (hmoves : actions.countP (·.isStepOf id) = 0) :
    w.Conveys id binding endpoint region (actions ++ [.step (.session id) expired])
      ((w.after actions).perform .loopback (session.upcoming expired (w.after actions).now)).1 := by
  have hmemory := memory_step_session hstands expired
  obtain ⟨hnet, -⟩ := act_step_session hstands hfabric expired
  have hcount := countP_concat_of_step id actions expired
  rw [hmoves] at hcount
  simp only [Session.upcoming, hstage, Stage.next] at hmemory hnet ⊢
  have hquiet : (w.after actions).told endpoint.handle (.step (.session id) expired) = [] := by
    apply IsQuiet.told
    apply IsQuiet.of_net_eq
    rw [hnet]
    split <;> rfl
  have htold' : w.observe (told endpoint.handle) (actions ++ [.step (.session id) expired]) = [] := by
    rw [observe_concat, htold, hquiet, List.nil_append]
  by_cases hshort : region.length < Metadata.wireLength
  · rw [if_pos hshort]
    exact .short htold' hcount _
  · have hroom := Nat.le_of_not_lt hshort
    rw [if_neg hshort] at hmemory ⊢
    have hwritten : w.HasWritten id region (actions ++ [.step (.session id) expired]) actions expired [] := by
      refine ⟨rfl, by rw [List.append_nil, hmoves], hroom, ?_⟩
      rw [after_concat, hmemory]
      exact Memory.front_store ((hhouses hroom).length.symm ▸ hroom) rfl
    exact .send htold' hwritten

theorem Conveys.sends (hreach : (w.after actions).Reachable) (hstage : session.stage = .send binding endpoint region)
    (hhouses : Metadata.wireLength ≤ region.length → (w.after actions).memory.Houses region.toExtent)
    (htold : w.observe (told endpoint.handle) actions = []) (hwritten : w.HasWritten id region actions early put late) :
    w.Conveys id binding endpoint region (actions ++ [.step (.session id) expired])
      ((w.after actions).perform .loopback (session.upcoming expired (w.after actions).now)).1 := by
  have hposts := posts_of_send hstands hfabric hstage expired
  have hfirm := hreach.isFirm_session hstands hfabric
  rw [hstage] at hfirm
  obtain ⟨link, hlink, hopen, hregions⟩ := hfirm.link endpoint _ rfl
  have hpayload := Loopback.payload?_element hregions (hhouses hwritten.room) hwritten.room
  obtain ⟨hdelivered, -⟩ := hposts.told_eq hlink hopen
  have hconveyed : w.IsConveyed id endpoint region (actions ++ [.step (.session id) expired]) := by
    refine ⟨actions, early, put, late, expired, [], _, hwritten, rfl, hposts, rfl, link, hlink, hopen, ?_⟩
    rw [observe_concat, htold, hdelivered, Link.delivery?, hpayload]
    split <;> rfl
  simp only [Session.upcoming, hstage, Stage.next, perform]
  split
  · exact .awaitAck hconveyed
  · exact .wipe hconveyed _

theorem Conveys.polls (hstage : session.stage = .awaitAck binding endpoint region)
    (hconveyed : w.IsConveyed id endpoint region actions) :
    w.Conveys id binding endpoint region (actions ++ [.step (.session id) expired])
      ((w.after actions).perform .loopback (session.upcoming expired (w.after actions).now)).1 := by
  obtain ⟨hnet, -⟩ := act_step_session hstands hfabric expired
  have hcases := (w.after actions).awaitAck_cases session.name session.config
    { cancelled := session.cancelled, expired, now := (w.after actions).now } binding endpoint region
  simp only [Session.upcoming, hstage] at hnet ⊢
  simp only [← hnet] at hcases
  obtain ⟨hinbox, hcases⟩ := hcases
  have hconveyed' := hconveyed.concat (told_eq_nil (Nat.le_of_eq (by rw [hinbox])))
  rcases hcases with ⟨-, ⟨-, heq⟩ | ⟨-, heq⟩⟩ | ⟨completion, -, -, heq⟩ | ⟨-, -, heq | ⟨-, heq⟩⟩
  · rw [heq]
    exact .failed hconveyed' _
  · rw [heq]
    exact .wipe hconveyed' _
  · rw [heq]
    exact .wipe hconveyed' _
  · rw [heq]
    exact .awaitAck hconveyed'
  · rw [heq]
    exact .wipe hconveyed' _

theorem Conveys.wipes {result : Except Failure Unit} (hstage : session.stage = .wipe binding endpoint region result)
    (hconveyed : w.IsConveyed id endpoint region actions) :
    w.Conveys id binding endpoint region (actions ++ [.step (.session id) expired])
      ((w.after actions).perform .loopback (session.upcoming expired (w.after actions).now)).1 := by
  obtain ⟨hnet, -⟩ := act_step_session hstands hfabric expired
  simp only [Session.upcoming, hstage, Stage.next] at hnet ⊢
  have hconveyed' := hconveyed.concat (IsQuiet.of_net_eq hnet).told
  rcases result with failure | ⟨⟩
  · exact .failed hconveyed' _
  · exact .ended hconveyed'

theorem Conveys.move (hreach : (w.after actions).Reachable)
    (hhouses : Metadata.wireLength ≤ region.length → (w.after actions).memory.Houses region.toExtent)
    (h : w.Conveys id binding endpoint region actions session.stage) (hrunning : session.stage.result? = none) :
    w.Conveys id binding endpoint region (actions ++ [.step (.session id) expired])
      ((w.after actions).perform .loopback (session.upcoming expired (w.after actions).now)).1 := by
  generalize hstage : session.stage = stage at h hrunning
  cases h with
  | announce htold hmoves => exact .writes hstands hfabric expired hstage hhouses htold hmoves
  | send htold hwritten => exact .sends hstands hfabric expired hreach hstage hhouses htold hwritten
  | awaitAck hconveyed => exact .polls hstands hfabric expired hstage hconveyed
  | wipe hconveyed result => exact .wipes hstands hfabric expired hstage hconveyed
  | short | failed | ended => contradiction

end Moves

theorem Conveys.mem_custody (h : w.Conveys id binding endpoint region actions stage)
    (hrunning : stage.result? = none) : .endpoint endpoint.handle ∈ stage.custody.handles := by
  cases h with
  | announce | send | awaitAck | wipe => exact mem_handles_of_endpoint rfl
  | short | failed | ended => contradiction

theorem conveys_after (h : w.Reachable)
    (hsession : w.sessions[id]? = some { session with stage := .announce binding endpoint region })
    (hfabric : session.fabric = .loopback)
    (hhouses : Metadata.wireLength ≤ region.length → w.memory.Houses region.toExtent) (actions : List Action)
    (hbusy : w.IsBusy id actions) :
    ∃ cancelled stage, (w.after actions).sessions[id]? = some { session with cancelled, stage } ∧
      w.Conveys id binding endpoint region actions stage := by
  refine holds_of_isBusy endpoint.handle h hsession hfabric (.announce rfl rfl) ?_ ?_ ?_ actions hbusy
  · exact fun actions stage hconveys hrunning => hconveys.mem_custody hrunning
  · intro actions cancelled stage expired hconveys hrunning hstands
    have hhoused := fun hroom => (hhouses hroom).of_keeps (keeps_after h actions)
    obtain ⟨-, hstands'⟩ := act_step_session hstands hfabric expired
    exact ⟨_, hstands', .move hstands hfabric expired (h.after actions) hhoused hconveys hrunning⟩
  · exact fun actions action stage hconveys hrunning hstep hquiet => hconveys.others hrunning hstep hquiet.told

theorem Reachable.houses_region (h : w.Reachable) (hwhole : region.toExtent = w.extentOf region.block)
    (hroom : Metadata.wireLength ≤ region.length) : w.memory.Houses region.toExtent := by
  have hissued : region.block < w.memory.blocks.size := by
    refine Nat.lt_of_not_le fun hnone => ?_
    have hlength : region.length = w.memory.length region.block := congrArg Extent.length hwhole
    rw [Memory.length, Array.getElem?_eq_none hnone] at hlength
    rw [hlength] at hroom
    contradiction
  rw [hwhole]
  exact h.isLaidOut _ hissued

/--
What becomes of the metadata of a region while it is advertised. The peer is told what the metadata is encoded as,
unless somebody else changes the words between the two moves.
-/
structure Conveyance (w : World) (id : SessionId) (endpoint : Endpoint) (region : Region) (actions : List Action) :
    Prop where
  unsent : actions.countP (·.isStepOf id) ≤ 1 → w.observe (told endpoint.handle) actions = []
  sent : 2 ≤ actions.countP (·.isStepOf id) → w.IsConveyed id endpoint region actions
  faithful : ∀ front early put late posted rest message,
    w.HasConveyed id endpoint region actions front early put late posted rest message →
      (late = [] → message = (Stage.metadata region).encode) ∧
      (message = (Stage.metadata region).encode ↔ (w.after front).memory.front region.block =
        (w.after (early ++ [.step (.session id) put])).memory.front region.block)
  returned : ∀ session metadata, (w.after actions).sessions[id]? = some session →
    session.stage.advertised? = some (.ok metadata) →
      2 ≤ actions.countP (·.isStepOf id) ∧ metadata = Stage.metadata region ∧
        metadata.address.toNat = region.address ∧ metadata.length.toNat = region.length ∧
        metadata.key = region.keys.localKey

theorem Conveys.isConveyed_or (h : w.Conveys id binding endpoint region actions stage) :
    w.IsConveyed id endpoint region actions ∨
      actions.countP (·.isStepOf id) ≤ 1 ∧ w.observe (told endpoint.handle) actions = [] := by
  cases h with
  | announce htold hmoves => exact .inr ⟨hmoves ▸ Nat.zero_le 1, htold⟩
  | short htold hmoves halt => exact .inr ⟨Nat.le_of_eq hmoves, htold⟩
  | send htold hwritten => exact .inr ⟨Nat.le_of_eq hwritten.countP_eq, htold⟩
  | awaitAck hconveyed | wipe hconveyed | failed hconveyed | ended hconveyed => exact .inl hconveyed

theorem Conveys.advertised (h : w.Conveys id binding endpoint region actions stage) {metadata : Metadata}
    (hreturned : stage.advertised? = some (.ok metadata)) :
    w.IsConveyed id endpoint region actions ∧ metadata = Stage.metadata region := by
  cases h with
  | ended hconveyed =>
    cases hreturned
    exact ⟨hconveyed, rfl⟩
  | short | failed => cases hreturned
  | announce | send | awaitAck | wipe => contradiction

theorem Conveys.conveyance (h : w.Conveys id binding endpoint region actions session.stage)
    (hstands : (w.after actions).sessions[id]? = some session)
    (hhouses : Metadata.wireLength ≤ region.length → w.memory.Houses region.toExtent)
    (hlength : region.length < 2 ^ 32) : w.Conveyance id endpoint region actions where
  unsent := by
    intro hmoves
    rcases h.isConveyed_or with hconveyed | ⟨-, htold⟩
    · exact absurd hconveyed.two_le (Nat.not_le_of_lt (Nat.lt_succ_of_le hmoves))
    · exact htold
  sent := by
    intro hmoves
    rcases h.isConveyed_or with hconveyed | ⟨hfew, -⟩
    · exact hconveyed
    · exact absurd hmoves (Nat.not_le_of_lt (Nat.lt_succ_of_le hfew))
  faithful := by
    intro front early put late posted rest message hhas
    refine ⟨?_, hhas.message_eq_encode_iff⟩
    rintro rfl
    exact hhas.message_eq_encode_of_alone
  returned := by
    intro session' metadata hstands' hreturned
    obtain rfl := Option.some.inj (hstands.symm.trans hstands')
    obtain ⟨hconveyed, rfl⟩ := h.advertised hreturned
    have hroom := hconveyed.room
    have hbound : region.address + region.length ≤ addressLimit := (hhouses hroom).bound
    have hpos : 0 < region.length := Nat.lt_of_lt_of_le (by decide) hroom
    have haddress : region.address < addressLimit := by omega
    obtain ⟨hbase, hsize⟩ := Stage.metadata_exact haddress hlength
    exact ⟨hconveyed.two_le, rfl, hbase, hsize, rfl⟩

theorem encoders_agree :
    (∀ metadata : Metadata, metadata.RoundTrips) ∧
      (∀ low high length key, (Metadata.ofWords low high length key).toWords = [low, high, length, key]) ∧
      (∀ bytes, Metadata.Reads bytes) ∧
      ∀ (w : World) (id : SessionId) (session : Session) (binding : Binding) (endpoint : Endpoint) (region : Region)
        (earlier : Except Halt Unit) (actions : List Action), w.Reachable → w.sessions[id]? = some session →
        session.fabric = .loopback → session.stage = .rest (.registered binding endpoint region) earlier →
        region.toExtent = w.extentOf region.block → region.length < 2 ^ 32 →
        (w.act (.startSession id .advertise)).IsBusy id actions →
          (w.act (.startSession id .advertise)).Conveyance id endpoint region actions := by
  refine ⟨Metadata.roundTrips, Metadata.toWords_ofWords, Metadata.reads, ?_⟩
  intro w id session binding endpoint region earlier actions h hsession hfabric hstage hwhole hlength hbusy
  have hact := act_startSession_advertise hsession hstage
  have hstarted : (w.act (.startSession id .advertise)).sessions[id]? =
      some { session with stage := .announce binding endpoint region } := by
    rw [hact]
    exact TreeMap.getElem?_insert_self
  have hhouses : Metadata.wireLength ≤ region.length →
      (w.act (.startSession id .advertise)).memory.Houses region.toExtent := by
    rw [hact]
    exact h.houses_region hwhole
  obtain ⟨cancelled, stage, hstands, hconveys⟩ :=
    conveys_after (h.act (.startSession id .advertise)) hstarted hfabric hhouses actions hbusy
  exact Conveys.conveyance hconveys hstands hhouses hlength

set_option maxRecDepth 10000 in
theorem encoders_agree_early_write :
    let region : Region := ⟨⟨0, 4096, 64⟩, ⟨4, 4⟩⟩
    let actions := sampleSteps 1 ++ [.write 2 9 4112 4 [7]] ++ sampleSteps 3
    let started := sampleRegistered.act (.startSession 1 .advertise)
    sampleRegistered.Reachable ∧ sampleRegistered.sessions[1]? = some sampleSession ∧
      sampleSession.fabric = .loopback ∧
      sampleSession.stage = .rest (.registered ⟨1, 7000⟩ ⟨2, 3⟩ region) (.ok ()) ∧
      region.toExtent = sampleRegistered.extentOf region.block ∧ region.length < 2 ^ 32 ∧ started.IsBusy 1 actions ∧
      started.observe (told 2) actions = [Metadata.encode ⟨4096, 64, 4⟩] ∧
      ((started.after actions).sessions[1]?.bind (·.stage.advertised?)) = some (.ok ⟨4096, 64, 4⟩) ∧
      started.Conveyance 1 ⟨2, 3⟩ region actions := by
  intro region actions started
  have hsession : sampleRegistered.sessions[1]? = some sampleSession := by rfl
  have hwhole : region.toExtent = sampleRegistered.extentOf region.block := by rfl
  have hlength : region.length < 2 ^ 32 := by decide
  have hbusy : (sampleRegistered.act (.startSession 1 .advertise)).IsBusy 1
      (sampleSteps 1 ++ [.write 2 9 4112 4 [7]] ++ sampleSteps 3) := ⟨rfl, rfl, rfl, rfl, rfl, True.intro⟩
  have htold : (sampleRegistered.act (.startSession 1 .advertise)).observe (told 2)
      (sampleSteps 1 ++ [.write 2 9 4112 4 [7]] ++ sampleSteps 3) = [Metadata.encode ⟨4096, 64, 4⟩] := by
    decide +kernel
  have hreturned : (((sampleRegistered.act (.startSession 1 .advertise)).after
      (sampleSteps 1 ++ [.write 2 9 4112 4 [7]] ++ sampleSteps 3)).sessions[1]?.bind (·.stage.advertised?)) =
      some (.ok ⟨4096, 64, 4⟩) := by
    rfl
  obtain ⟨-, -, -, hconveyance⟩ := encoders_agree
  exact ⟨reachable_sampleRegistered, hsession, rfl, rfl, hwhole, hlength, hbusy, htold, hreturned,
    hconveyance sampleRegistered 1 sampleSession ⟨1, 7000⟩ ⟨2, 3⟩ region (.ok ()) actions reachable_sampleRegistered
      hsession rfl rfl hwhole hlength hbusy⟩

set_option maxRecDepth 10000 in
theorem encoders_differ_after_overwriting :
    let actions := sampleSteps 1 ++ [.write 2 9 4096 4 [7]] ++ sampleSteps 3
    let started := sampleRegistered.act (.startSession 1 .advertise)
    sampleRegistered.Reachable ∧ sampleRegistered.sessions[1]? = some sampleSession ∧
      sampleSession.fabric = .loopback ∧
      sampleSession.stage = .rest (.registered ⟨1, 7000⟩ ⟨2, 3⟩ ⟨⟨0, 4096, 64⟩, ⟨4, 4⟩⟩) (.ok ()) ∧
      started.IsBusy 1 actions ∧
      started.observe (told 2) actions = [Metadata.encode ⟨7, 64, 4⟩] ∧
      ((started.after actions).sessions[1]?.bind (·.stage.advertised?)) = some (.ok ⟨4096, 64, 4⟩) ∧
      Metadata.encode ⟨7, 64, 4⟩ ≠ Metadata.encode ⟨4096, 64, 4⟩ := by
  intro actions started
  have hsession : sampleRegistered.sessions[1]? = some sampleSession := by rfl
  have hbusy : (sampleRegistered.act (.startSession 1 .advertise)).IsBusy 1
      (sampleSteps 1 ++ [.write 2 9 4096 4 [7]] ++ sampleSteps 3) := ⟨rfl, rfl, rfl, rfl, rfl, True.intro⟩
  have htold : (sampleRegistered.act (.startSession 1 .advertise)).observe (told 2)
      (sampleSteps 1 ++ [.write 2 9 4096 4 [7]] ++ sampleSteps 3) = [Metadata.encode ⟨7, 64, 4⟩] := by
    decide +kernel
  have hreturned : (((sampleRegistered.act (.startSession 1 .advertise)).after
      (sampleSteps 1 ++ [.write 2 9 4096 4 [7]] ++ sampleSteps 3)).sessions[1]?.bind (·.stage.advertised?)) =
      some (.ok ⟨4096, 64, 4⟩) := by
    rfl
  exact ⟨reachable_sampleRegistered, hsession, rfl, rfl, hbusy, htold, hreturned, by decide +kernel⟩

end World

end RemoteSlots
